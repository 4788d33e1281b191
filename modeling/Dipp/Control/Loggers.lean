import Dipp.Control.Exclusion
import Mathlib.Data.List.Nodup
import Mathlib.Tactic.MkIffOfInductiveProp

/-!
# The life of a run's logger

The global pointer names the logger of the latest callback that got so far, and every
later statement of a run goes through it: the last log call of the callback, which races
with the thread, and the last three statements of the thread, which it executes after
having released the flag. As long as no logger is created while another invocation has
such a statement ahead, and no thread flushes before its callback is done, the pointer
stays with one run at a time, and its entries go to its own file.
-/

namespace Dipp

/-- The callback has a use of the pointer ahead, or is past creating the logger in its part of the
run. -/
def CallbackPhase.InUse : CallbackPhase → Prop
  | .logStarted _ | .allocateArgs _ | .storeAfterMalloc | .createThread _ | .storeAfterCreate
  | .logDetached => True
  | .idle | .readParam | .exchange _ | .createLogger _ | .returned => False

/-- The thread has a use of the pointer ahead. -/
def ThreadPhase.InUse : ThreadPhase → Prop
  | .notCreated | .ended => False
  | _ => True

/-- The invocation goes on to use the global pointer. -/
def Invocation.UsesLogger (inv : Invocation) : Prop := inv.callback.InUse ∨ inv.thread.InUse

/-- The entries of the invocation will still be flushed by its own thread. -/
@[mk_iff]
structure Invocation.Pending (inv : Invocation) : Prop where
  uses : inv.UsesLogger
  destroy : inv.thread ≠ .destroy
  ended : inv.thread ≠ .ended
  logger : inv.hasLogger = true

/-- The callback returned without having started a thread. -/
@[mk_iff]
structure Invocation.NotStarted (inv : Invocation) : Prop where
  callback : inv.callback = .returned
  thread : inv.thread = .notCreated

variable {ι : Type*} [DecidableEq ι]

/-- A logger is created only when no other invocation has a use of the pointer ahead, and a thread
that has a logger flushes it only after its callback has returned. -/
def LoggerOrderly (s : Control ι) : ι × ControlAction → Prop
  | (_, .write _) => True
  | (i, .callback _) => ∀ value, (s.agent i).callback = .createLogger value →
      ∀ j, j ≠ i → ¬ (s.agent j).UsesLogger
  | (i, .thread _) => (s.agent i).thread = .flush → (s.agent i).hasLogger = true →
      (s.agent i).callback = .returned

/-- The pointer belongs to the one invocation that uses it; destroyed are exactly the loggers of
ended threads; what is buffered is still to be flushed by its own run or belongs to none, and the
same holds of what is in a file. -/
structure Control.LoggersInOrder (s : Control ι) : Prop where
  unique : Agents.Unique Invocation.UsesLogger s
  pointer : ∀ i, (s.agent i).UsesLogger →
    s.shared.logger = if (s.agent i).hasLogger then some i else none
  destroyed : ∀ i ∈ s.shared.destroyed, (s.agent i).thread = .ended
  nodup : s.shared.destroyed.Nodup
  ended : ∀ i, (s.agent i).thread = .ended → (s.agent i).hasLogger = true →
    i ∈ s.shared.destroyed
  late : ∀ i, (s.agent i).thread = .destroy ∨ (s.agent i).thread = .ended →
    (s.agent i).hasLogger = true → (s.agent i).callback = .returned
  buffer : ∀ entry ∈ s.shared.buffer,
    (s.agent entry.run).Pending ∨ (s.agent entry.run).NotStarted
  files : ∀ j, ∀ entry ∈ s.shared.files j, entry.run = j ∨ (s.agent entry.run).NotStarted
  misuses : s.shared.misuses = []

/-- The part of the shared variables that concerns the loggers is unchanged. -/
structure Shared.SameLoggers (shared shared' : Shared ι) : Prop where
  logger : shared'.logger = shared.logger
  destroyed : shared'.destroyed = shared.destroyed
  buffer : shared'.buffer = shared.buffer
  files : shared'.files = shared.files
  misuses : shared'.misuses = shared.misuses

/-- How an invocation may move on without any effect on the loggers. -/
structure Invocation.Quiet (inv inv' : Invocation) : Prop where
  uses : inv'.UsesLogger → inv.UsesLogger
  logger : inv'.hasLogger = inv.hasLogger
  pending : inv.Pending → inv'.Pending ∨ inv'.NotStarted
  notStarted : inv.NotStarted → inv'.NotStarted
  ended : inv.thread = .ended → inv'.thread = .ended
  late : inv'.thread = .destroy ∨ inv'.thread = .ended → inv.hasLogger = true →
    inv'.thread = inv.thread ∧ (inv.callback = .returned → inv'.callback = .returned)

omit [DecidableEq ι] in
/-- A quiet step keeps the loggers in order. -/
theorem Control.LoggersInOrder.quiet {s s' : Control ι} {i : ι} (hs : s.LoggersInOrder)
    (hothers : ∀ j, j ≠ i → s'.agent j = s.agent j)
    (hself : (s.agent i).Quiet (s'.agent i)) (hshared : s.shared.SameLoggers s'.shared) :
    s'.LoggersInOrder := by
  have hevery : ∀ j, (s.agent j).Quiet (s'.agent j) :=
    Agents.relates_of_others Invocation.Quiet hothers hself fun _ =>
      ⟨id, rfl, .inl, id, id, fun _ _ => ⟨rfl, id⟩⟩
  constructor
  case unique =>
    intro j k hj hk
    exact hs.unique j k ((hevery j).uses hj) ((hevery k).uses hk)
  case pointer =>
    intro j hj
    rw [hshared.logger, (hevery j).logger]
    exact hs.pointer j ((hevery j).uses hj)
  case destroyed =>
    intro j hj
    rw [hshared.destroyed] at hj
    exact (hevery j).ended (hs.destroyed j hj)
  case nodup =>
    rw [hshared.destroyed]
    exact hs.nodup
  case ended =>
    intro j hended hlogger
    rw [(hevery j).logger] at hlogger
    obtain ⟨hthread, -⟩ := (hevery j).late (.inr hended) hlogger
    rw [hshared.destroyed]
    exact hs.ended j (hthread.symm.trans hended) hlogger
  case late =>
    intro j hthread hlogger
    rw [(hevery j).logger] at hlogger
    obtain ⟨hsame, hreturned⟩ := (hevery j).late hthread hlogger
    rw [hsame] at hthread
    exact hreturned (hs.late j hthread hlogger)
  case buffer =>
    intro entry hentry
    rw [hshared.buffer] at hentry
    rcases hs.buffer entry hentry with hpending | hnot
    · exact (hevery entry.run).pending hpending
    · exact .inr ((hevery entry.run).notStarted hnot)
  case files =>
    intro j entry hentry
    rw [hshared.files] at hentry
    rcases hs.files j entry hentry with hown | hnot
    · exact .inl hown
    · exact .inr ((hevery entry.run).notStarted hnot)
  case misuses =>
    rw [hshared.misuses]
    exact hs.misuses

/-- What a statement does to the loggers: nothing, create one, log, flush, or destroy. -/
inductive LoggerEffect (i : ι) (action : ControlAction) (shared shared' : Shared ι)
    (inv inv' : Invocation) : Prop where
  | quiet (hquiet : inv.Quiet inv') (hshared : shared.SameLoggers shared')
  | creates (succeeds : Bool) (haction : action = .callback succeeds) (value : UInt8)
      (hphase : inv.callback = .createLogger value)
      (hinv : inv' = { inv with hasLogger := inv'.hasLogger, callback := .logStarted value })
      (hshared : shared' = { shared with logger := if inv'.hasLogger then some i else none })
  | logs (message : LogMessage) (hquiet : inv.Quiet inv') (huses : inv.UsesLogger)
      (hthread : inv.callback ≠ .logDetached → inv.thread ≠ .destroy ∧ inv.thread ≠ .ended)
      (hpending : inv.Pending → inv'.Pending) (hshared : shared' = shared.loggerLogPrint i message)
  | flushes (received : Bool) (haction : action = .thread received) (hphase : inv.thread = .flush)
      (hinv : inv' = { inv with thread := .destroy }) (hshared : shared' = shared.loggerFlush i)
  | destroys (hphase : inv.thread = .destroy) (hinv : inv' = { inv with thread := .ended })
      (hshared : shared' = shared.loggerDestroy i)

/-- A statement of a well-formed invocation has one of these effects. -/
theorem Statement.loggerEffect {i : ι} {action : ControlAction} {shared shared' : Shared ι}
    {inv inv' : Invocation} (hinv : inv.WellFormed)
    (h : Statement i shared inv action shared' inv') :
    LoggerEffect i action shared shared' inv inv' := by
  obtain ⟨hthread, hdetached, hstarted, hlogger⟩ := hinv
  cases h with
  | createLogger succeeds value hphase => exact .creates succeeds rfl value hphase rfl rfl
  | flush received hphase => exact .flushes received rfl hphase rfl rfl
  | destroy received hphase => exact .destroys hphase rfl rfl
  | logStarted succeeds value hphase =>
    refine .logs .processingStarted ?_ (.inl (by simp [hphase, CallbackPhase.InUse])) ?_ ?_ rfl
    · constructor <;> simp_all [Invocation.UsesLogger, CallbackPhase.InUse, Invocation.pending_iff,
        Invocation.notStarted_iff]
    · simp_all
    · simp_all [Invocation.UsesLogger, CallbackPhase.InUse, Invocation.pending_iff]
  | logDetached succeeds hphase =>
    have hcreated := hdetached hphase
    have huses : inv.thread ≠ .ended → inv.thread.InUse := by
      intro hended
      cases hphase' : inv.thread <;> simp_all [ThreadPhase.InUse]
    refine .logs .threadDetached ?_ (.inl (by simp [hphase, CallbackPhase.InUse])) ?_ ?_ rfl
    · constructor <;> simp_all [Invocation.UsesLogger, CallbackPhase.InUse,
        Invocation.pending_iff, Invocation.notStarted_iff]
    · simp [hphase]
    · simp_all [Invocation.UsesLogger, Invocation.pending_iff]
  | logBatchStarted received hphase | logCacheRebuilt received hphase
  | logBatchDone received hphase | logFinished received hphase =>
    refine .logs _ ?_ (.inr (by simp [hphase, ThreadPhase.InUse])) ?_ ?_ rfl
    · constructor <;> simp_all [Invocation.UsesLogger, ThreadPhase.InUse, Invocation.pending_iff,
        Invocation.notStarted_iff]
    · simp [hphase]
    · simp_all [Invocation.UsesLogger, ThreadPhase.InUse, Invocation.pending_iff]
  | _ =>
    refine .quiet ?_ (by constructor <;> rfl)
    constructor <;> simp_all [Invocation.UsesLogger, CallbackPhase.InUse, ThreadPhase.InUse,
      Invocation.pending_iff, Invocation.notStarted_iff]

omit [DecidableEq ι] in
/-- The logger that an invocation uses is its own, and it is not destroyed. -/
theorem Control.LoggersInOrder.pointer_eq {s : Control ι} (hs : s.LoggersInOrder) {i : ι}
    (huses : (s.agent i).UsesLogger) (hended : (s.agent i).thread ≠ .ended) :
    s.shared.logger = none ∧ (s.agent i).hasLogger = false ∨
      s.shared.logger = some i ∧ i ∉ s.shared.destroyed ∧ (s.agent i).hasLogger = true := by
  have hpointer := hs.pointer i huses
  cases hlogger : (s.agent i).hasLogger with
  | false =>
    rw [hlogger] at hpointer
    exact .inl ⟨hpointer, rfl⟩
  | true =>
    rw [hlogger] at hpointer
    exact .inr ⟨hpointer, fun hdestroyed => hended (hs.destroyed i hdestroyed), rfl⟩

omit [DecidableEq ι] in
/-- An entry of an invocation that will still be flushed may be appended. -/
theorem Control.LoggersInOrder.append {s : Control ι} (hs : s.LoggersInOrder) {i : ι}
    (hpending : (s.agent i).Pending) (message : LogMessage) :
    Control.LoggersInOrder
      ⟨{ s.shared with buffer := s.shared.buffer ++ [⟨i, message⟩] }, s.agent⟩ := by
  refine ⟨hs.unique, hs.pointer, hs.destroyed, hs.nodup, hs.ended, hs.late, ?_, hs.files,
    hs.misuses⟩
  intro entry hentry
  rcases List.mem_append.mp hentry with hold | hnew
  · exact hs.buffer entry hold
  · rw [List.mem_singleton.mp hnew]
    exact .inl hpending

omit [DecidableEq ι] in
/-- An invocation that makes a step of its own is not one that has not started, and the others stay
what they are. -/
theorem notStarted_of_others {s s' : Control ι} {i : ι}
    (hothers : ∀ j, j ≠ i → s'.agent j = s.agent j) (hstarted : ¬ (s.agent i).NotStarted) :
    ∀ j, (s.agent j).NotStarted → (s'.agent j).NotStarted :=
  Agents.relates_of_others (fun before after => before.NotStarted → after.NotStarted) hothers
    (fun hbefore => absurd hbefore hstarted) fun _ => id

omit [DecidableEq ι] in
/-- The callback of a thread that has flushed its logger has returned, if that holds of the
invocation that made the step. -/
theorem Control.LoggersInOrder.late_of_others {s s' : Control ι} {i : ι} (hs : s.LoggersInOrder)
    (hothers : ∀ j, j ≠ i → s'.agent j = s.agent j)
    (hself : (s'.agent i).thread = .destroy ∨ (s'.agent i).thread = .ended →
      (s'.agent i).hasLogger = true → (s'.agent i).callback = .returned) (j : ι) :
    (s'.agent j).thread = .destroy ∨ (s'.agent j).thread = .ended →
      (s'.agent j).hasLogger = true → (s'.agent j).callback = .returned := by
  by_cases hj : j = i
  · rw [hj]
    exact hself
  · rw [hothers j hj]
    exact hs.late j

/-- A logger that is created while nobody else uses the pointer becomes the one in use. -/
theorem Control.LoggersInOrder.create {s s' : Control ι} {i : ι} (hs : s.LoggersInOrder)
    (hwf : (s.agent i).WellFormed) (hothers : ∀ j, j ≠ i → s'.agent j = s.agent j) {value : UInt8}
    (hphase : (s.agent i).callback = .createLogger value)
    (hself : s'.agent i = { s.agent i with
      hasLogger := (s'.agent i).hasLogger, callback := .logStarted value })
    (hshared : s'.shared = { s.shared with
      logger := if (s'.agent i).hasLogger then some i else none })
    (halone : ∀ j, j ≠ i → ¬ (s.agent j).UsesLogger) : s'.LoggersInOrder := by
  have hthread := hwf.notCreated (by simp [hphase]) (by simp [hphase])
  have hthread' : (s'.agent i).thread = .notCreated := by rw [hself, hthread]
  have honly (j : ι) (hj : (s'.agent j).UsesLogger) : j = i := by
    by_contra hji
    rw [hothers j hji] at hj
    exact halone j hji hj
  have hnobody (j : ι) : ¬ (s.agent j).UsesLogger := by
    by_cases hj : j = i
    · rw [hj]
      simp [Invocation.UsesLogger, hphase, hthread, CallbackPhase.InUse, ThreadPhase.InUse]
    · exact halone j hj
  have hnot := notStarted_of_others hothers fun hstarted => by
    have hreturned := hstarted.callback
    rw [hphase] at hreturned
    contradiction
  constructor
  case unique =>
    intro j k hj hk
    rw [honly j hj, honly k hk]
  case pointer =>
    intro j hj
    rw [honly j hj, hshared]
  case destroyed =>
    intro j hj
    rw [hshared] at hj
    have hended := hs.destroyed j hj
    by_cases hji : j = i
    · rw [hji, hthread] at hended
      contradiction
    · rwa [hothers j hji]
  case nodup =>
    rw [hshared]
    exact hs.nodup
  case ended =>
    intro j hended hlogger
    by_cases hji : j = i
    · rw [hji, hthread'] at hended
      contradiction
    · rw [hothers j hji] at hended hlogger
      rw [hshared]
      exact hs.ended j hended hlogger
  case late =>
    refine hs.late_of_others hothers fun hlate => ?_
    rw [hthread'] at hlate
    simp at hlate
  case buffer =>
    intro entry hentry
    rw [hshared] at hentry
    rcases hs.buffer entry hentry with hpending | hstarted
    · exact absurd hpending.uses (hnobody entry.run)
    · exact .inr (hnot entry.run hstarted)
  case files =>
    intro j entry hentry
    rw [hshared] at hentry
    exact (hs.files j entry hentry).imp_right (hnot entry.run)
  case misuses =>
    rw [hshared]
    exact hs.misuses

/-- Without a logger, a flush has no effect. -/
theorem Invocation.quiet_flush {inv : Invocation} (hphase : inv.thread = .flush)
    (hlogger : inv.hasLogger = false) : inv.Quiet { inv with thread := .destroy } := by
  constructor <;> simp_all [Invocation.UsesLogger, ThreadPhase.InUse, Invocation.pending_iff,
    Invocation.notStarted_iff]

/-- Nor does the end of the thread. -/
theorem Invocation.quiet_destroy {inv : Invocation} (hphase : inv.thread = .destroy)
    (hlogger : inv.hasLogger = false) : inv.Quiet { inv with thread := .ended } := by
  constructor <;> simp_all [Invocation.UsesLogger, ThreadPhase.InUse, Invocation.pending_iff,
    Invocation.notStarted_iff]

/-- Flushing moves the entries of the run in use to its own file. -/
theorem Control.LoggersInOrder.flush {s s' : Control ι} {i : ι} (hs : s.LoggersInOrder)
    (hothers : ∀ j, j ≠ i → s'.agent j = s.agent j) (hphase : (s.agent i).thread = .flush)
    (hself : s'.agent i = { s.agent i with thread := .destroy })
    (hshared : s'.shared = s.shared.loggerFlush i)
    (hreturned : (s.agent i).hasLogger = true → (s.agent i).callback = .returned) :
    s'.LoggersInOrder := by
  have huses : (s.agent i).UsesLogger := .inr (by simp [hphase, ThreadPhase.InUse])
  rcases hs.pointer_eq huses (by simp [hphase]) with ⟨hnull, hlogger⟩ | ⟨hown, halive, hlogger⟩
  · have hsame : s'.shared = s.shared := by
      rw [hshared, Shared.loggerFlush, Shared.useLogger_none hnull]
    refine hs.quiet hothers ?_ (by rw [hsame]; exact ⟨rfl, rfl, rfl, rfl, rfl⟩)
    rw [hself]
    exact Invocation.quiet_flush hphase hlogger
  · rw [Shared.loggerFlush, Shared.useLogger_some hown halive] at hshared
    have hkept : ∀ j, (s'.agent j).UsesLogger → (s.agent j).UsesLogger :=
      Agents.relates_of_others (fun before after => after.UsesLogger → before.UsesLogger) hothers
        (fun _ => huses) fun _ => id
    have hlogger' : ∀ j, (s'.agent j).hasLogger = (s.agent j).hasLogger :=
      Agents.relates_of_others (fun before after => after.hasLogger = before.hasLogger) hothers
        (by rw [hself]) fun _ => rfl
    have hended : ∀ j, (s'.agent j).thread = .ended ↔ (s.agent j).thread = .ended :=
      Agents.relates_of_others (fun before after => after.thread = .ended ↔ before.thread = .ended)
        hothers (by simp [hself, hphase]) fun _ => Iff.rfl
    have hnot := notStarted_of_others hothers fun hstarted => by
      have hthread := hstarted.thread
      rw [hphase] at hthread
      contradiction
    constructor
    case unique =>
      intro j k hj hk
      exact hs.unique j k (hkept j hj) (hkept k hk)
    case pointer =>
      intro j hj
      rw [hshared, hlogger']
      exact hs.pointer j (hkept j hj)
    case destroyed =>
      intro j hj
      rw [hshared] at hj
      exact (hended j).mpr (hs.destroyed j hj)
    case nodup =>
      rw [hshared]
      exact hs.nodup
    case ended =>
      intro j hj hjlogger
      rw [hlogger'] at hjlogger
      rw [hshared]
      exact hs.ended j ((hended j).mp hj) hjlogger
    case late =>
      refine hs.late_of_others hothers fun _ _ => ?_
      rw [hself]
      exact hreturned hlogger
    case buffer =>
      intro entry hentry
      rw [hshared] at hentry
      contradiction
    case files =>
      intro j entry hentry
      rw [hshared] at hentry
      by_cases hj : j = i
      · rw [hj] at hentry ⊢
        simp only [Function.update_self] at hentry
        rcases List.mem_append.mp hentry with hfile | hbuffer
        · exact (hs.files i entry hfile).imp_right (hnot entry.run)
        · rcases hs.buffer entry hbuffer with hpending | hstarted
          · exact .inl (hs.unique entry.run i hpending.uses huses)
          · exact .inr (hnot entry.run hstarted)
      · simp only [Function.update_of_ne hj] at hentry
        exact (hs.files j entry hentry).imp_right (hnot entry.run)
    case misuses =>
      rw [hshared]
      exact hs.misuses

/-- Destroying the logger in use ends its run. -/
theorem Control.LoggersInOrder.destroy {s s' : Control ι} {i : ι} (hs : s.LoggersInOrder)
    (hothers : ∀ j, j ≠ i → s'.agent j = s.agent j) (hphase : (s.agent i).thread = .destroy)
    (hself : s'.agent i = { s.agent i with thread := .ended })
    (hshared : s'.shared = s.shared.loggerDestroy i) : s'.LoggersInOrder := by
  have huses : (s.agent i).UsesLogger := .inr (by simp [hphase, ThreadPhase.InUse])
  rcases hs.pointer_eq huses (by simp [hphase]) with ⟨hnull, hlogger⟩ | ⟨hown, halive, hlogger⟩
  · have hsame : s'.shared = s.shared := by
      rw [hshared, Shared.loggerDestroy, Shared.useLogger_none hnull]
    refine hs.quiet hothers ?_ (by rw [hsame]; exact ⟨rfl, rfl, rfl, rfl, rfl⟩)
    rw [hself]
    exact Invocation.quiet_destroy hphase hlogger
  · rw [Shared.loggerDestroy, Shared.useLogger_some hown halive] at hshared
    have hreturned := hs.late i (.inl hphase) hlogger
    have hgone : ¬ (s'.agent i).UsesLogger := by
      rw [hself]
      simp [Invocation.UsesLogger, hreturned, CallbackPhase.InUse, ThreadPhase.InUse]
    have hnobody := hs.unique.none_of_lost hothers huses hgone
    have hnot := notStarted_of_others hothers fun hstarted => by
      have hthread := hstarted.thread
      rw [hphase] at hthread
      contradiction
    constructor
    case unique =>
      intro j k hj
      exact absurd hj (hnobody j)
    case pointer =>
      intro j hj
      exact absurd hj (hnobody j)
    case destroyed =>
      intro j hj
      rw [hshared] at hj
      rcases List.mem_append.mp hj with hold | hnew
      · by_cases hji : j = i
        · exact absurd (hji ▸ hold) halive
        · rw [hothers j hji]
          exact hs.destroyed j hold
      · rw [List.mem_singleton.mp hnew, hself]
    case nodup =>
      rw [hshared]
      exact List.nodup_append.mpr ⟨hs.nodup, List.nodup_singleton i, by
        intro j hj k hk
        rw [List.mem_singleton.mp hk]
        rintro rfl
        exact halive hj⟩
    case ended =>
      intro j hj hjlogger
      rw [hshared]
      by_cases hji : j = i
      · rw [hji]
        exact List.mem_append_right _ (List.mem_singleton_self i)
      · rw [hothers j hji] at hj hjlogger
        exact List.mem_append_left _ (hs.ended j hj hjlogger)
    case late =>
      refine hs.late_of_others hothers fun _ _ => ?_
      rw [hself]
      exact hreturned
    case buffer =>
      intro entry hentry
      rw [hshared] at hentry
      rcases hs.buffer entry hentry with hpending | hstarted
      · have hrun := hs.unique entry.run i hpending.uses huses
        exact absurd hphase (hrun ▸ hpending.destroy)
      · exact .inr (hnot entry.run hstarted)
    case files =>
      intro j entry hentry
      rw [hshared] at hentry
      exact (hs.files j entry hentry).imp_right (hnot entry.run)
    case misuses =>
      rw [hshared]
      exact hs.misuses

/-- Orderly statements keep the loggers in order. -/
theorem Control.LoggersInOrder.step {s s' : Control ι} {event : ι × ControlAction}
    (hs : s.LoggersInOrder) (hdisciplined : s.Disciplined) (horderly : LoggerOrderly s event)
    (h : Agents.step controlStep s event = .ok s') : s'.LoggersInOrder := by
  obtain ⟨i, action⟩ := event
  obtain ⟨hlocal, hothers⟩ := Agents.step_eq_ok h
  cases (controlStep_eq_some hlocal).loggerEffect (hdisciplined.wellFormed i) with
  | quiet hquiet hshared => exact hs.quiet hothers hquiet hshared
  | creates succeeds haction value hphase hself hshared =>
    subst haction
    exact hs.create (hdisciplined.wellFormed i) hothers hphase hself hshared (horderly value hphase)
  | logs message hquiet huses hthread hpending hshared =>
    have hquieted : Control.LoggersInOrder ⟨s.shared, s'.agent⟩ :=
      hs.quiet hothers hquiet ⟨rfl, rfl, rfl, rfl, rfl⟩
    have hpointer := hs.pointer i huses
    cases hlogger : (s.agent i).hasLogger with
    | false =>
      rw [hlogger] at hpointer
      rw [Shared.loggerLogPrint, Shared.useLogger_none hpointer] at hshared
      rwa [← hshared] at hquieted
    | true =>
      have hrunning : (s.agent i).thread ≠ .destroy ∧ (s.agent i).thread ≠ .ended := by
        by_cases hdetached : (s.agent i).callback = .logDetached
        · rw [← not_or]
          intro hlate
          have hreturned := hs.late i hlate hlogger
          rw [hdetached] at hreturned
          contradiction
        · exact hthread hdetached
      rw [hlogger] at hpointer
      have halive : i ∉ s.shared.destroyed := fun hi => hrunning.2 (hs.destroyed i hi)
      rw [Shared.loggerLogPrint, Shared.useLogger_some hpointer halive] at hshared
      have happended := hquieted.append (hpending ⟨huses, hrunning.1, hrunning.2, hlogger⟩) message
      rwa [← hshared] at happended
  | flushes received haction hphase hself hshared =>
    subst haction
    exact hs.flush hothers hphase hself hshared (horderly hphase)
  | destroys hphase hself hshared => exact hs.destroy hothers hphase hself hshared

end Dipp
