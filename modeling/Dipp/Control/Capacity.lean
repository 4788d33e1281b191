import Dipp.Control.Progress
import Dipp.Logger

/-!
# How much is logged between two flushes

The buffer is written out at the end of a run only, while every batch adds three entries, and
all runs share it. A start that fails leaves its entry behind, and since a thread releases
the flag before it logs its last entry and flushes, the next run may already log into the
same buffer. Nothing is lost exactly as long as no stretch of statements without a flush
logs more entries than there are slots, and no flush finds a logger whose file is closed.

The global pointer may lead to a logger that another run has destroyed. Whether the memory
of such a logger still passes for an open one is a parameter, for each use that is made of it.
-/

namespace Dipp

open BoundedBuffer

/-- The texts of the messages. -/
def LogMessage.text : LogMessage → String
  | .processingStarted => "Processing started"
  | .threadDetached => "Processing thread detatched."
  | .batchStarted => "Batch processing started"
  | .cacheRebuilt => "Cache rebuilt"
  | .processingFinished => "Processing finished"

/-- A use of the logger that touches the buffer. -/
inductive LogUse where
  | print (message : LogMessage)
  | flush
  deriving DecidableEq, Repr

/-- The call of a use. -/
def LogUse.call : LogUse → LogCall
  | .print message => .logPrint .info message.text
  | .flush => .flush

/-- The use adds an entry. -/
def LogUse.prints : LogUse → Bool
  | .print _ => true
  | .flush => false

/-- The use that the next statement makes. -/
def Invocation.logUse (inv : Invocation) : ControlAction → Option LogUse
  | .write _ => none
  | .callback _ =>
    match inv.callback with
    | .logStarted _ => some (.print .processingStarted)
    | .logDetached => some (.print .threadDetached)
    | _ => none
  | .thread _ =>
    match inv.thread with
    | .logBatchStarted | .logBatchDone => some (.print .batchStarted)
    | .logCacheRebuilt => some (.print .cacheRebuilt)
    | .logFinished => some (.print .processingFinished)
    | .flush => some .flush
    | _ => none

/-- What a function of the logger finds behind the pointer it is given: no logger with a file, an
open one, or the memory of a destroyed one that still shows its closed file. -/
inductive LoggerFound where
  | nothing
  | opened
  | closed
  deriving DecidableEq, Repr

/-- The test at the beginning of the function lets it pass. -/
def LoggerFound.passes : LoggerFound → Bool
  | .nothing => false
  | .opened | .closed => true

variable {ι : Type*} [DecidableEq ι] (clock : ℕ → String) (shows : ℕ → Bool)

/-- What a use does to the shared variables. -/
def LogUse.apply (i : ι) : LogUse → Shared ι → Shared ι
  | .print message => Shared.loggerLogPrint i message
  | .flush => Shared.loggerFlush i

/-- What is found behind the global pointer. -/
def Shared.found (shared : Shared ι) : LoggerFound :=
  match shared.logger with
  | none => .nothing
  | some owner =>
    if owner ∈ shared.destroyed then
      if shows shared.misuses.length then .closed else .nothing
    else .opened

/-- The calls of the logger that an interleaving makes, with what they find. -/
def logCalls : List (ι × ControlAction) → Control ι → List (LoggerFound × LogCall)
  | [], _ => []
  | event :: rest, s =>
    match Agents.step controlStep s event with
    | .error _ => []
    | .ok next =>
      (((s.agent event.1).logUse event.2).map fun use =>
        (s.shared.found shows, use.call)).toList ++ logCalls rest next

/-- The calls with the outcome of their tests. -/
def testedCalls (events : List (ι × ControlAction)) (s : Control ι) : List (Bool × LogCall) :=
  (logCalls shows events s).map fun call => (call.1.passes, call.2)

/-- The statement logs an entry. -/
def logs (s : Control ι) (event : ι × ControlAction) : Bool :=
  (s.shared.found shows).passes && ((s.agent event.1).logUse event.2).any LogUse.prints

/-- The statement flushes the buffer. -/
def flushes (s : Control ι) (event : ι × ControlAction) : Bool :=
  (s.shared.found shows).passes && (s.agent event.1).logUse event.2 == some .flush

/-- Destroying a logger leaves the buffer alone. -/
@[simp] theorem Shared.loggerDestroy_buffer (i : ι) (shared : Shared ι) :
    (shared.loggerDestroy i).buffer = shared.buffer :=
  useLogger_keeps buffer i _ shared (fun _ => rfl) rfl

/-- A statement that uses the logger does no more than that to the shared variables. -/
theorem Statement.apply_use {i : ι} {action : ControlAction} {shared shared' : Shared ι}
    {inv inv' : Invocation} (h : Statement i shared inv action shared' inv') {use : LogUse}
    (huse : inv.logUse action = some use) : shared' = use.apply i shared := by
  cases h <;> simp_all [Invocation.logUse] <;> (subst huse; rfl)

/-- The other statements leave the buffer alone. -/
theorem Statement.buffer_of_no_use {i : ι} {action : ControlAction} {shared shared' : Shared ι}
    {inv inv' : Invocation} (h : Statement i shared inv action shared' inv')
    (huse : inv.logUse action = none) : shared'.buffer = shared.buffer := by
  cases h <;> simp_all [Invocation.logUse]

/-- A use without a misuse afterwards found nothing, or an open logger. -/
theorem Shared.useLogger_cases {i : ι} {use : ι → Shared ι} {shared : Shared ι}
    (h : (shared.useLogger i use).misuses = [])
    (huse : ∀ owner, (use owner).misuses = shared.misuses) :
    shared.misuses = [] ∧
      ((shared.found shows = .nothing ∧ shared.useLogger i use = shared) ∨
        ∃ owner, shared.found shows = .opened ∧ shared.useLogger i use = use owner) := by
  unfold useLogger found at *
  cases hlogger : shared.logger with
  | none =>
    rw [hlogger] at h
    exact ⟨h, .inl ⟨rfl, rfl⟩⟩
  | some owner =>
    simp only [hlogger] at h ⊢
    by_cases hdestroyed : owner ∈ shared.destroyed
    · rw [if_pos hdestroyed] at h
      exact absurd h (List.append_ne_nil_of_right_ne_nil _ (List.cons_ne_nil _ _))
    · rw [if_neg hdestroyed] at h
      rw [if_neg hdestroyed, if_neg hdestroyed]
      exact ⟨(huse owner).symm.trans h, .inr ⟨owner, rfl, rfl⟩⟩

/-- Misuses are not forgotten. -/
theorem Statement.misuses_eq_nil {i : ι} {action : ControlAction} {shared shared' : Shared ι}
    {inv inv' : Invocation} (h : Statement i shared inv action shared' inv')
    (hmisuses : shared'.misuses = []) : shared.misuses = [] := by
  cases h with
  | logStarted | logDetached | logBatchStarted | logCacheRebuilt | logBatchDone | logFinished
  | flush | destroy =>
    exact (Shared.useLogger_cases (fun _ => false) hmisuses fun _ => rfl).1
  | _ => exact hmisuses

/-- The lines are the entries in order, each with a time that the clock has shown. -/
def Formats (lines : List LogLine) (entries : List (RunEntry ι)) : Prop :=
  List.Forall₂ (fun line entry => ∃ tick,
    line = formatEntry (clock tick) .info entry.message.text) lines entries

variable {clock shows}

/-- The calls of a run begin with that of its first statement, if this makes one. -/
theorem testedCalls_cons {event : ι × ControlAction} {s next : Control ι}
    (rest : List (ι × ControlAction)) (h : Agents.step controlStep s event = .ok next) :
    testedCalls shows (event :: rest) s =
      (((s.agent event.1).logUse event.2).map fun use =>
        ((s.shared.found shows).passes, use.call)).toList ++ testedCalls shows rest next := by
  simp only [testedCalls, logCalls, h, List.map_append]
  cases (s.agent event.1).logUse event.2 <;> rfl

variable (shows) in
/-- As long as no destroyed logger is used, the ledger goes along with the buffer of the shared
state. -/
theorem Statement.pending {i : ι} {action : ControlAction} {shared shared' : Shared ι}
    {inv inv' : Invocation} (h : Statement i shared inv action shared' inv')
    (hmisuses : shared'.misuses = []) {ledger : Ledger LogLine}
    (hledger : Formats clock ledger.pending shared.buffer) (ticks : ℕ) :
    ∃ ticks' ledger', Formats clock ledger'.pending shared'.buffer ∧
      ∀ rest, (logOperations clock ticks (((inv.logUse action).map fun use =>
          ((shared.found shows).passes, use.call)).toList ++ rest)).foldl Ledger.step ledger =
        (logOperations clock ticks' rest).foldl Ledger.step ledger' := by
  cases huse : inv.logUse action with
  | none =>
    refine ⟨ticks, ledger, ?_, fun rest => rfl⟩
    rwa [h.buffer_of_no_use huse]
  | some use =>
    cases use with
    | print message =>
      obtain rfl : shared' = shared.loggerLogPrint i message := h.apply_use huse
      have hcases := Shared.useLogger_cases shows hmisuses fun _ => rfl
      rw [← Shared.loggerLogPrint] at hcases
      obtain ⟨-, ⟨hfound, hsame⟩ | ⟨owner, hfound, hused⟩⟩ := hcases
      · rw [hsame, hfound]
        exact ⟨ticks, ledger, hledger, fun rest => rfl⟩
      · rw [hused, hfound]
        refine ⟨ticks + 1, _, ?_, fun rest => rfl⟩
        exact List.rel_append hledger (.cons ⟨ticks, rfl⟩ .nil)
    | flush =>
      obtain rfl : shared' = shared.loggerFlush i := h.apply_use huse
      have hcases := Shared.useLogger_cases shows hmisuses fun _ => rfl
      rw [← Shared.loggerFlush] at hcases
      obtain ⟨-, ⟨hfound, hsame⟩ | ⟨owner, hfound, hused⟩⟩ := hcases
      · rw [hsame, hfound]
        exact ⟨ticks, ledger, hledger, fun rest => rfl⟩
      · rw [hused, hfound]
        exact ⟨ticks, ledger.step .flush, List.Forall₂.nil, fun rest => rfl⟩

/-- In an interleaving that uses no destroyed logger, the entries since the last flush are those in
the buffer of the shared state. -/
theorem Control.run_pending {events : List (ι × ControlAction)} {s last : Control ι}
    (h : Execution.run (Agents.step controlStep) events s = .ok last)
    (hmisuses : last.shared.misuses = []) {ledger : Ledger LogLine}
    (hledger : Formats clock ledger.pending s.shared.buffer) (ticks : ℕ) :
    Formats clock ((logOperations clock ticks (testedCalls shows events s)).foldl Ledger.step
      ledger).pending last.shared.buffer := by
  induction events generalizing s ticks ledger with
  | nil =>
    obtain rfl : s = last := Except.ok.inj h
    exact hledger
  | cons event rest ih =>
    obtain ⟨next, hnext, hrest⟩ := Execution.run_cons_eq_ok h
    have hnextMisuses : next.shared.misuses = [] := by
      by_contra hmisused
      refine Execution.run_invariant (fun s : Control ι => s.shared.misuses ≠ []) ?_ rest next last
        hmisused hrest hmisuses
      rintro s ⟨i, action⟩ next hs hstep hnil
      exact hs ((controlStep_eq_some (Agents.step_eq_ok hstep).1).misuses_eq_nil hnil)
    obtain ⟨i, action⟩ := event
    obtain ⟨ticks', ledger', hledger', hsame⟩ :=
      (controlStep_eq_some (Agents.step_eq_ok hnext).1).pending shows hnextMisuses hledger
        ticks
    rw [testedCalls_cons rest hnext, hsame]
    exact ih hrest hledger' ticks'

/-- The most entries that a callback still logs, with those of the thread that it may create. -/
def CallbackPhase.entries : CallbackPhase → ℕ
  | .idle | .readParam | .exchange _ | .createLogger _ | .logStarted _ => 3
  | .allocateArgs _ | .createThread _ => 2
  | .logDetached => 1
  | .storeAfterMalloc | .storeAfterCreate | .returned => 0

/-- The most entries that a thread still logs if it receives no more batches. -/
def ThreadPhase.entries : ThreadPhase → ℕ
  | .logBatchStarted => 4
  | .logCacheRebuilt => 3
  | .logBatchDone => 2
  | .readArgs _ | .processOne | .receive | .store | .clearParam | .logFinished => 1
  | .notCreated | .flush | .destroy | .ended => 0

/-- The most entries that an invocation still logs if it receives no more batches. -/
def Invocation.entries (inv : Invocation) : ℕ := inv.callback.entries + inv.thread.entries

/-- The event is a statement of the invocation that logs an entry. -/
def logsOf (shows : ℕ → Bool) (i : ι) (s : Control ι) (event : ι × ControlAction) : Bool :=
  event.1 = i && logs shows s event

/-- A statement that logs is one entry less to come, and a batch that is received costs three. -/
theorem Statement.entries {i : ι} {action : ControlAction} {shared shared' : Shared ι}
    {inv inv' : Invocation} (h : Statement i shared inv action shared' inv') :
    ((inv.logUse action).any LogUse.prints).toNat + inv'.entries ≤
      inv.entries + 3 * (inv.receives action).toNat := by
  cases h with
  | received hphase =>
    simp [Invocation.entries, Invocation.logUse, Invocation.receives, hphase, ThreadPhase.entries]
  | _ =>
    simp_all [Invocation.entries, Invocation.logUse, CallbackPhase.entries, ThreadPhase.entries,
      LogUse.prints] <;> omega

/-- In every interleaving an invocation logs at most three entries, and three for each batch that it
receives. -/
theorem Control.count_logs (shows : ℕ → Bool) (i : ι) (events : List (ι × ControlAction))
    (s : Control ι) (h : Control.run events = .ok s) :
    Execution.count (Agents.step controlStep) (logsOf shows i) events Control.boot ≤
      3 + 3 * Execution.count (Agents.step controlStep) (receivesOf i) events Control.boot := by
  refine Nat.le_of_add_right_le (Execution.count_add_le
    (fun s : Control ι => (s.agent i).entries) 3 ?_ events Control.boot s h)
  rintro s ⟨j, action⟩ next hstep
  obtain ⟨hlocal, hothers⟩ := Agents.step_eq_ok hstep
  by_cases hj : j = i
  · subst hj
    have hentries := (controlStep_eq_some hlocal).entries
    have hlogs : (logsOf shows j s (j, action)).toNat ≤
        (((s.agent j).logUse action).any LogUse.prints).toNat := by
      simp only [logsOf, logs, decide_true, Bool.true_and]
      cases (s.shared.found shows).passes
      · exact Nat.zero_le _
      · exact Nat.le_refl _
    have hreceives : receivesOf j s (j, action) = (s.agent j).receives action := by
      simp [receivesOf]
    rw [hreceives]
    omega
  · rw [hothers i (Ne.symm hj)]
    simp [logsOf, receivesOf, hj]

variable (clock shows)

/-- Two runs overlap: the second one logs twice before the first one comes to its last entry, which
is the fifth without a flush. -/
example : Execution.count (Agents.step controlStep) (logs fun _ => false)
    ((false, .write 2) :: (List.replicate 7 (false, .callback true) ++
      List.replicate 3 (false, .thread false) ++ [(true, .write 2)] ++
      List.replicate 7 (true, .callback true) ++ List.replicate 2 (false, .thread false)))
    (Control.boot : Control Bool) = 5 := rfl

end Dipp
