import Dipp.Control.Rendering

/-!
# Runs are completed

Whatever callbacks, threads, cameras and commands have done before: while the flag is up, the
invocation that owns it can complete its run alone, in a number of statements that the waiting
shots bound, unless it was told to wait. A run for all messages that was told to wait is never
completed, and one for a single message only when a shot waits.
-/

namespace Dipp

/-- What a run in this mode asks of the service. -/
def RunMode.op (mode : RunMode) : ServiceOp := if mode.all then .processAll else .processOne

/-- The mode of the thread that a callback is about to start. -/
def CallbackPhase.starting : CallbackPhase → Option RunMode
  | .createLogger value | .logStarted value | .allocateArgs value => some (runMode value)
  | .createThread mode => some mode
  | _ => none

/-- What is left of the run at a point of its thread. -/
def ThreadPhase.rest : ThreadPhase → ServiceOp
  | .readArgs mode => mode.op
  | .processOne => .processOne
  | .receive | .logBatchStarted | .logCacheRebuilt | .logBatchDone => .processAll
  | _ => .idle

/-- What is left of the run of an invocation, if it can be started. -/
def Invocation.rest (inv : Invocation) : ServiceOp :=
  match inv.callback.starting with
  | some mode => mode.op
  | none => inv.thread.rest

/-- The run was told to wait for messages. -/
def Invocation.told (inv : Invocation) : Bool :=
  match inv.callback.starting with
  | some mode => mode.wait
  | none => inv.mode.wait

/-- The run cannot be completed with the shots that wait. -/
def Invocation.Stuck (inv : Invocation) (service : ImageService) : Prop :=
  inv.told = true ∧ (inv.rest = .processAll ∨ inv.rest = .processOne ∧ service.waiting = [])

/-- The statements of a thread in this mode up to its store of the flag, while so many shots
wait. -/
def RunMode.untilStore (waiting : ℕ) (mode : RunMode) : ℕ := if mode.all then 4 * waiting + 3 else 3

/-- The statements of the thread that are left. -/
def ThreadPhase.untilStore (waiting : ℕ) : ThreadPhase → ℕ
  | .readArgs mode => mode.untilStore waiting
  | .receive => 4 * waiting + 2
  | .logBatchStarted => 4 * waiting + 1
  | .logCacheRebuilt => 4 * waiting
  | .logBatchDone => 4 * waiting - 1
  | .processOne => 2
  | .store => 1
  | _ => 0

/-- The statements that are left, with those of the thread that is to be started. -/
def CallbackPhase.untilStore (waiting : ℕ) : CallbackPhase → ℕ
  | .createLogger value => (runMode value).untilStore waiting + 4
  | .logStarted value => (runMode value).untilStore waiting + 3
  | .allocateArgs value => (runMode value).untilStore waiting + 2
  | .createThread mode => mode.untilStore waiting + 1
  | .storeAfterMalloc | .storeAfterCreate => 1
  | _ => 0

/-- The statements of an invocation up to its store of the flag. -/
def Invocation.untilStore (waiting : ℕ) (inv : Invocation) : ℕ :=
  inv.callback.untilStore waiting + inv.thread.untilStore waiting

/-- Once there is a thread, it has all that is left. -/
theorem Invocation.WellFormed.of_thread {inv : Invocation} (h : inv.WellFormed)
    (hcreated : inv.thread ≠ .notCreated) :
    inv.rest = inv.thread.rest ∧ inv.told = inv.mode.wait ∧
      ∀ waiting, inv.untilStore waiting = inv.thread.untilStore waiting := by
  rcases h.thread hcreated with hcallback | hcallback <;>
    · rw [Invocation.rest, Invocation.told, hcallback]
      refine ⟨rfl, rfl, fun waiting => ?_⟩
      rw [Invocation.untilStore, hcallback]
      exact Nat.zero_add _

/-- There are at most seven of them, and four for each shot. -/
theorem Invocation.WellFormed.untilStore_le {inv : Invocation} (h : inv.WellFormed) (waiting : ℕ) :
    inv.untilStore waiting ≤ 4 * waiting + 7 := by
  have hmode (mode : RunMode) : mode.untilStore waiting ≤ 4 * waiting + 3 := by
    unfold RunMode.untilStore
    split <;> omega
  have hthread : inv.thread.untilStore waiting ≤ 4 * waiting + 3 := by
    cases inv.thread with
    | readArgs mode => exact hmode mode
    | _ =>
      dsimp only [ThreadPhase.untilStore]
      omega
  by_cases hcreated : inv.thread = .notCreated
  · rw [Invocation.untilStore, hcreated]
    cases inv.callback with
    | createLogger value | logStarted value | allocateArgs value =>
      have hvalue := hmode (runMode value)
      dsimp only [CallbackPhase.untilStore, ThreadPhase.untilStore]
      omega
    | createThread mode =>
      have hvalue := hmode mode
      dsimp only [CallbackPhase.untilStore, ThreadPhase.untilStore]
      omega
    | _ =>
      dsimp only [CallbackPhase.untilStore, ThreadPhase.untilStore]
      omega
  · rw [(h.of_thread hcreated).2.2]
    omega

/-- Where something is left of a thread, it has not released the flag. -/
theorem ThreadPhase.owns_of_rest {phase : ThreadPhase} (h : phase.rest ≠ .idle) : phase.Owns := by
  cases phase with
  | readArgs mode | processOne | receive | logBatchStarted | logCacheRebuilt | logBatchDone =>
    trivial
  | _ => exact absurd rfl h

/-- Where something is left of a run, it owns the flag. -/
theorem Invocation.owns_of_rest {inv : Invocation} (h : inv.rest ≠ .idle) : inv.Owns := by
  cases hcallback : inv.callback with
  | createLogger value | logStarted value | allocateArgs value | createThread mode =>
    exact .inl (by rw [hcallback]; trivial)
  | _ =>
    rw [Invocation.rest, hcallback] at h
    exact .inr (ThreadPhase.owns_of_rest h)

/-- A run that is stuck is not done. -/
theorem Invocation.Stuck.rest_ne_idle {inv : Invocation} {service : ImageService}
    (h : inv.Stuck service) : inv.rest ≠ .idle := by
  rcases h.2 with hrest | ⟨hrest, -⟩ <;> rw [hrest] <;> exact ServiceOp.noConfusion

/-- Nothing is left of a run that does not own the flag. -/
theorem Invocation.rest_of_not_owns {inv : Invocation} (h : ¬ inv.Owns) : inv.rest = .idle := by
  by_contra hrest
  exact h (inv.owns_of_rest hrest)

/-- A thread that owns the flag exists. -/
theorem ThreadPhase.Owns.created {phase : ThreadPhase} (h : phase.Owns) : phase ≠ .notCreated := by
  rintro rfl
  exact h

/-- So it does after its next statement. -/
theorem ThreadPhase.Owns.next_created {phase : ThreadPhase} (h : phase.Owns) (received : Bool) :
    phase.next received ≠ .notCreated := by
  cases phase with
  | readArgs mode => cases hall : mode.all <;> simp [next, hall]
  | receive => cases received <;> simp [next]
  | notCreated => exact h.elim
  | _ => simp [next]

/-- The statements of an invocation whose allocations and creations succeed. -/
inductive SystemEvent.Of {ι W : Type*} (i : ι) : SystemEvent ι W → Prop where
  | callback : Of i (.statement (.callback i true))
  | thread : Of i (.statement (.thread i))

section Statements

variable {ι : Type*} [DecidableEq ι]

/-- An owner that is in its callback can make its next statement, after which the same is left of
its run. -/
theorem Invocation.WellFormed.callback_advances {inv : Invocation} (h : inv.WellFormed)
    (howns : inv.callback.Owns) (i : ι) (shared : Shared ι) (waiting : ℕ) :
    ∃ shared' inv', controlStep i (.callback true) shared inv = some (shared', inv') ∧
      inv'.rest = inv.rest ∧ inv'.told = inv.told ∧
        inv'.untilStore waiting < inv.untilStore waiting := by
  have hthread : inv.thread = .notCreated := by
    apply h.notCreated <;>
      · intro hphase
        rw [hphase] at howns
        exact howns
  cases hcallback : inv.callback with
  | createLogger value | logStarted value | allocateArgs value | storeAfterMalloc
  | storeAfterCreate =>
    simp only [controlStep, callbackRun, hcallback, if_true]
    refine ⟨_, _, rfl, ?_, ?_, ?_⟩
    · simp only [Invocation.rest, hcallback, hthread, CallbackPhase.starting]
    · simp only [Invocation.told, hcallback, CallbackPhase.starting, Invocation.mode]
    · dsimp only [Invocation.untilStore]
      rw [hcallback, hthread]
      exact Nat.lt_succ_self _
  | createThread mode =>
    simp only [controlStep, callbackRun, hcallback, if_true]
    refine ⟨_, _, rfl, ?_, ?_, ?_⟩
    · simp only [Invocation.rest, hcallback, CallbackPhase.starting, ThreadPhase.rest]
    · simp only [Invocation.told, hcallback, CallbackPhase.starting, Invocation.mode,
        Option.getD_some]
    · dsimp only [Invocation.untilStore]
      rw [hcallback, hthread]
      change 0 + mode.untilStore waiting < mode.untilStore waiting + 1 + 0
      omega
  | _ =>
    rw [hcallback] at howns
    exact howns.elim

/-- As long as something is left of a run, no statement of the callback changes it. -/
theorem Statement.rest_kept {i : ι} {shared shared' : Shared ι} {inv inv' : Invocation}
    (h : Statement i shared inv (.callback true) shared' inv') (hwf : inv.WellFormed)
    (hrest : inv.rest ≠ .idle) : inv'.rest = inv.rest ∧ inv'.told = inv.told := by
  have hnone (hearly : inv.callback ≠ .logDetached ∧ inv.callback ≠ .returned) :
      inv.thread = .notCreated := hwf.notCreated hearly.1 hearly.2
  cases h with
  | createLogger succeeds value hphase | logStarted succeeds value hphase
  | argsAllocated value hphase | threadCreated mode hphase =>
    simp [Invocation.rest, Invocation.told, Invocation.mode, hphase, CallbackPhase.starting,
      ThreadPhase.rest]
  | logDetached succeeds hphase =>
    simp [Invocation.rest, Invocation.told, Invocation.mode, hphase, CallbackPhase.starting]
  | readZero succeeds hphase hzero | readValue succeeds hphase hvalue
  | refused succeeds value hphase hbusy | accepted succeeds value hphase hfree
  | storeAfterMalloc succeeds hphase | storeAfterCreate succeeds hphase =>
    rw [Invocation.rest, hnone (by simp [hphase]), hphase] at hrest
    exact absurd rfl hrest

/-- An owner that is in its thread can go on. -/
theorem Invocation.thread_moves {inv : Invocation} (howns : inv.thread.Owns) (i : ι)
    (received : Bool) (shared : Shared ι) :
    ∃ shared' inv', controlStep i (.thread received) shared inv = some (shared', inv') := by
  cases hthread : inv.thread with
  | notCreated | ended =>
    rw [hthread] at howns
    exact howns.elim
  | _ =>
    simp only [controlStep, processThread, hthread]
    exact ⟨_, _, rfl⟩

end Statements

variable {W : Type*} {platform : Platform W} (libs : Libraries) (effect : Development)

/-- The next statement of an owner does its part of what is left, and is one of the statements that
were left. -/
theorem ThreadPhase.advances {phase : ThreadPhase} (howns : phase.Owns) {received : Bool}
    {service : ImageService}
    (hreceived : phase = .receive → (received = true ↔ service.waiting ≠ []))
    (hholds : phase.Holds → service.waiting ≠ []) :
    (service.step libs effect phase.op).step libs effect (phase.next received).rest =
        service.step libs effect phase.rest ∧
      (phase.next received).untilStore (service.step libs effect phase.op).waiting.length <
        phase.untilStore service.waiting.length := by
  cases phase with
  | readArgs mode =>
    cases hall : mode.all <;>
      simp [next, rest, op, untilStore, RunMode.op, RunMode.untilStore, hall, ImageService.step]
  | processOne => exact ⟨rfl, Nat.lt_succ_self 1⟩
  | receive =>
    cases received with
    | true => exact ⟨rfl, Nat.lt_succ_self _⟩
    | false =>
      have hempty : service.waiting = [] := by
        by_contra hwaiting
        exact absurd ((hreceived rfl).mpr hwaiting) Bool.false_ne_true
      refine ⟨(ImageService.step_of_empty libs effect hempty).2.symm, ?_⟩
      change 1 < 4 * service.waiting.length + 2
      omega
  | logBatchStarted => exact ⟨rfl, Nat.lt_succ_self _⟩
  | logCacheRebuilt =>
    have hwaiting := List.length_pos_iff.mpr (hholds trivial)
    refine ⟨rfl, ?_⟩
    dsimp only [next, op, untilStore, ImageService.step]
    omega
  | logBatchDone =>
    have hwaiting := List.length_pos_iff.mpr (hholds trivial)
    refine ⟨(ImageService.step_of_nonempty libs effect (hholds trivial)).symm, ?_⟩
    dsimp only [next, op, untilStore, ImageService.step]
    rw [List.length_tail]
    omega
  | store => exact ⟨rfl, Nat.one_pos⟩
  | _ => exact howns.elim

variable {libs effect}

/-- All shots are left as long as the receives succeed. -/
theorem ThreadPhase.rest_all {phase : ThreadPhase} {received : Bool} :
    (phase.next received).rest = .processAll ↔
      phase.rest = .processAll ∧ (phase = .receive → received = true) := by
  cases phase with
  | readArgs mode => cases hall : mode.all <;> simp [next, rest, RunMode.op, hall]
  | receive => cases received <;> simp [next, rest]
  | _ => simp [next, rest]

/-- One shot is left until it is processed. -/
theorem ThreadPhase.rest_one {phase : ThreadPhase} {received : Bool} :
    (phase.next received).rest = .processOne ↔ phase.rest = .processOne ∧ phase.op = .idle := by
  cases phase with
  | readArgs mode => cases hall : mode.all <;> simp [next, rest, op, RunMode.op, hall]
  | receive => cases received <;> simp [next, rest]
  | _ => simp [next, rest, op]

/-- In the state that renders a service, as many batches wait as shots. -/
theorem Renders.waiting_eq_nil_iff {s : ProcessState W} {service : ImageService}
    (h : Renders libs platform s service) : s.waiting = [] ↔ service.waiting = [] := by
  rw [← List.length_eq_zero_iff, ← List.length_eq_zero_iff, List.Forall₂.length_eq h.pending]

/-- While a thread holds a batch, its shot waits. -/
theorem HoldsBatch.waiting_ne_nil {batch : ImageBatch} {s : ProcessState W}
    {service : ImageService} (h : HoldsBatch libs platform batch s service) :
    service.waiting ≠ [] := by
  obtain ⟨message, htype, -, hrenders⟩ := h
  obtain ⟨rest, hrest⟩ := hrenders.queue_of_putBack
  intro hempty
  have hnone := hrenders.waiting_eq_nil_iff.mpr hempty
  rw [waiting_putBack hrest htype] at hnone
  contradiction

/-- A receive succeeds if a shot waits, and otherwise fails or waits. -/
theorem Renders.received {s s' : ProcessState W} {service : ImageService}
    (h : Renders libs platform s service) {mode : RunMode} {batch batch' : ImageBatch}
    {received : Bool}
    (hwork : threadWork platform libs mode .receive batch s = .ok (received, batch', s')) :
    (received = true ↔ service.waiting ≠ []) ∧ (mode.wait = true → received = true) := by
  rcases h.receive mode.wait batch with ⟨hwaits, -, -⟩ | ⟨message, next, hreceive, -, hwaiting, -⟩ |
    ⟨next, hreceive, hwait, hempty, -⟩
  · rw [threadWork, hwaits] at hwork
    contradiction
  · rw [threadWork, hreceive] at hwork
    obtain ⟨rfl, -⟩ := Prod.mk.inj (Except.ok.inj hwork)
    exact ⟨iff_of_true rfl (mt h.waiting_eq_nil_iff.mpr hwaiting), fun _ => rfl⟩
  · rw [threadWork, hreceive] at hwork
    obtain ⟨rfl, -⟩ := Prod.mk.inj (Except.ok.inj hwork)
    refine ⟨iff_of_false (by simp) (not_not.mpr (h.waiting_eq_nil_iff.mp hempty)), fun htold => ?_⟩
    rw [hwait] at htold
    contradiction

variable {ι : Type*} [DecidableEq ι]

/-- A run under way: the service that the program renders, what it will be when the invocation has
completed its run, and in how many statements. -/
structure RunService.Leads (libs : Libraries) (platform : Platform W) (effect : Development)
    (s : RunService ι W) (i : ι) (goal : ImageService) (service : ImageService) (bound : ℕ) :
    Prop where
  rendering : s.Rendering platform libs service
  only : ∀ j, (s.control.agent j).Owns → j = i
  goal : service.step libs effect (s.control.agent i).rest = goal
  free : ¬ (s.control.agent i).Stuck service
  bound : (s.control.agent i).untilStore service.waiting.length = bound

omit [DecidableEq ι] in
/-- Where a thread waits for a message, its run is stuck. -/
theorem RunService.Rendering.stuck {s : RunService ι W} {service : ImageService}
    (hs : s.Rendering platform libs service) {i : ι} (howns : (s.control.agent i).thread.Owns)
    (hwait : (s.control.agent i).mode.wait = true) (hempty : s.process.waiting = [])
    (h : threadWork platform libs (s.control.agent i).mode (s.control.agent i).thread (s.batch i)
      s.process = .error .waitsForMessage) : (s.control.agent i).Stuck service := by
  have hpoint := hs.at_owner howns
  obtain ⟨hrest, htold, -⟩ :=
    (hs.disciplined.wellFormed i).of_thread howns.created
  rw [Invocation.Stuck, hrest, htold]
  refine ⟨hwait, ?_⟩
  cases hphase : (s.control.agent i).thread with
  | receive | logBatchStarted | logCacheRebuilt | logBatchDone => exact .inl rfl
  | processOne =>
    rw [hphase] at hpoint
    exact .inr ⟨rfl, (Renders.waiting_eq_nil_iff hpoint).mp hempty⟩
  | _ =>
    rw [hphase] at h
    contradiction

/-- What a statement of a thread that owns the run does to the invocations. -/
theorem RunService.thread_step {s s' : RunService ι W} {i : ι}
    (h : systemStep platform libs s (.statement (.thread i)) = .ok s') :
    ∃ received batch process, threadWork platform libs (s.control.agent i).mode
        (s.control.agent i).thread (s.batch i) s.process = .ok (received, batch, process) ∧
      (s'.control.agent i).thread = (s.control.agent i).thread.next received ∧
      (s'.control.agent i).callback = (s.control.agent i).callback ∧
      (s'.control.agent i).started = (s.control.agent i).started ∧
      (s.control.agent i).thread ≠ .notCreated ∧
      ∀ j, j ≠ i → s'.control.agent j = s.control.agent j := by
  obtain ⟨received, batch, process, control, hwork, hcontrol, rfl⟩ := runServiceStep_thread h
  obtain ⟨hlocal, hothers⟩ := Agents.step_eq_ok hcontrol
  have hstatement := controlStep_eq_some hlocal
  obtain ⟨hcreated, hcallback, hstarted⟩ := hstatement.thread_keeps
  exact ⟨received, batch, process, hwork, hstatement.thread_eq, hcallback, hstarted, hcreated,
    hothers⟩

/-- An owner whose work is done makes its statement. -/
theorem RunService.thread_steps {s : RunService ι W} {i : ι} {received : Bool}
    {batch : ImageBatch} {process : ProcessState W}
    (hwork : threadWork platform libs (s.control.agent i).mode (s.control.agent i).thread
      (s.batch i) s.process = .ok (received, batch, process))
    (howns : (s.control.agent i).thread.Owns) :
    ∃ s', systemStep platform libs s (.statement (.thread i)) = .ok s' := by
  obtain ⟨shared, inv, hlocal⟩ := Invocation.thread_moves howns i received s.control.shared
  obtain ⟨control, hcontrol, -⟩ := Agents.step_of_local hlocal
  simp only [systemStep, runServiceStep, hwork, hcontrol]
  exact ⟨_, rfl⟩

omit [DecidableEq ι] in
/-- A thread that receives finds the first shot, and one that holds a batch has it. -/
theorem RunService.Rendering.received {s : RunService ι W} {service : ImageService}
    (hs : s.Rendering platform libs service) {i : ι} {received : Bool} {batch : ImageBatch}
    {process : ProcessState W}
    (hwork : threadWork platform libs (s.control.agent i).mode (s.control.agent i).thread
      (s.batch i) s.process = .ok (received, batch, process)) :
    ((s.control.agent i).thread = .receive → (received = true ↔ service.waiting ≠ []) ∧
        ((s.control.agent i).mode.wait = true → received = true)) ∧
      ((s.control.agent i).thread.Holds → service.waiting ≠ []) := by
  constructor
  · intro hphase
    have hpoint := hs.at_owner (i := i) (by rw [hphase]; trivial)
    rw [hphase] at hpoint hwork
    exact Renders.received hpoint hwork
  · intro hholds
    have hpoint := hs.held i hholds
    cases hphase : (s.control.agent i).thread with
    | logBatchStarted | logCacheRebuilt =>
      rw [hphase] at hpoint
      exact HoldsBatch.waiting_ne_nil hpoint
    | logBatchDone =>
      rw [hphase] at hpoint
      exact hpoint.2.waiting_ne_nil
    | _ =>
      rw [hphase] at hholds
      exact hholds.elim

/-- An owner that is in its callback can make its next statement. -/
theorem RunService.Leads.callback {s : RunService ι W} {i : ι} {goal service : ImageService}
    {bound : ℕ} (h : s.Leads libs platform effect i goal service bound)
    (howns : (s.control.agent i).callback.Owns) :
    ∃ s' lower, systemStep platform libs s (.statement (.callback i true)) = .ok s' ∧
      lower < bound ∧ s'.Leads libs platform effect i goal service lower := by
  obtain ⟨shared, inv, hlocal, hrest, htold, hlower⟩ :=
    (h.rendering.disciplined.wellFormed i).callback_advances howns i s.control.shared
      service.waiting.length
  obtain ⟨control, hcontrol, -, hagent⟩ := Agents.step_of_local hlocal
  have hothers := (Agents.step_eq_ok hcontrol).2
  rw [h.bound, ← hagent] at hlower
  rw [← hagent] at hrest htold
  refine ⟨{ s with control := control }, _, ?_, hlower,
    h.rendering.callback hcontrol fun _ => ControlAction.noConfusion, fun j hj => ?_, ?_,
    fun hstuck => h.free ?_, rfl⟩
  · rw [systemStep, runServiceStep, hcontrol]
    rfl
  · by_contra hne
    dsimp only at hj
    rw [hothers j hne] at hj
    exact hne (h.only j hj)
  · rw [hrest]
    exact h.goal
  · rw [Invocation.Stuck, hrest, htold] at hstuck
    exact hstuck

/-- So can one that is in its thread, unless it is stuck. -/
theorem RunService.Leads.thread (hdevelops : platform.Develops libs effect)
    (hreliable : platform.Reliable) (hclean : platform.Clean) (hshared : platform.SharesMemory)
    (hallocates : platform.Allocates) {s : RunService ι W} {i : ι} {goal service : ImageService}
    {bound : ℕ} (h : s.Leads libs platform effect i goal service bound)
    (howns : (s.control.agent i).thread.Owns) :
    ∃ s' service' lower, systemStep platform libs s (.statement (.thread i)) = .ok s' ∧
      lower < bound ∧ s'.Leads libs platform effect i goal service' lower := by
  rcases (h.rendering.at_owner howns).work hdevelops hreliable hclean hshared hallocates
    (s.control.agent i).mode with
    ⟨hwaits, htold, hempty⟩ | ⟨received, batch, process, hwork, -⟩
  · exact absurd (h.rendering.stuck howns htold hempty hwaits) h.free
  obtain ⟨s', hstep⟩ := RunService.thread_steps hwork howns
  obtain ⟨_, _, _, hdone, hthread, -, hstarted, hcreated, hothers⟩ := RunService.thread_step hstep
  rw [hwork] at hdone
  obtain ⟨rfl, -⟩ := Prod.mk.inj (Except.ok.inj hdone)
  obtain ⟨hreceived, hholds⟩ := h.rendering.received hwork
  obtain ⟨hadvance, hlower⟩ :=
    ThreadPhase.advances libs effect howns (fun hphase => (hreceived hphase).1) hholds
  have hrendering := h.rendering.thread hdevelops hreliable hclean hshared hallocates hstep
  have hcreated' := howns.next_created received
  rw [← hthread] at hcreated'
  obtain ⟨hrest, htold, hbound⟩ := (h.rendering.disciplined.wellFormed i).of_thread hcreated
  obtain ⟨hrest', htold', hbound'⟩ := (hrendering.disciplined.wellFormed i).of_thread hcreated'
  have hmode : (s'.control.agent i).mode = (s.control.agent i).mode := by
    rw [Invocation.mode, Invocation.mode, hstarted]
  refine ⟨s', _, _, hstep, ?_, hrendering, fun j hj => ?_, ?_, fun hstuck => h.free ?_, rfl⟩
  · rw [← h.bound, hbound, hbound', hthread]
    exact hlower
  · by_contra hne
    rw [hothers j hne] at hj
    exact hne (h.only j hj)
  · rw [← h.goal, hrest, hrest', hthread, hadvance]
  · rw [Invocation.Stuck, htold', hrest', hmode, hthread, ThreadPhase.rest_all,
      ThreadPhase.rest_one] at hstuck
    rw [Invocation.Stuck, htold, hrest]
    refine ⟨hstuck.1, hstuck.2.imp And.left ?_⟩
    rintro ⟨⟨hone, hidle⟩, hempty⟩
    rw [hidle] at hempty
    exact ⟨hone, hempty⟩

/-- A run that is stuck stays so, whatever statements of its invocation follow. -/
theorem RunService.Rendering.stays_stuck (hdevelops : platform.Develops libs effect)
    (hreliable : platform.Reliable) (hclean : platform.Clean) (hshared : platform.SharesMemory)
    (hallocates : platform.Allocates) {s s' : RunService ι W} {i : ι} {service : ImageService}
    (hs : s.Rendering platform libs service) (hstuck : (s.control.agent i).Stuck service)
    {event : SystemEvent ι W} (hof : event.Of i) (h : systemStep platform libs s event = .ok s') :
    ∃ service', s'.Rendering platform libs service' ∧ (s'.control.agent i).Stuck service' := by
  have ⟨htold, hleft⟩ := hstuck
  cases hof with
  | callback =>
    rw [systemStep] at h
    obtain ⟨control, hcontrol, rfl⟩ := runServiceStep_callback h
    obtain ⟨hrest', htold'⟩ := (controlStep_eq_some (Agents.step_eq_ok hcontrol).1).rest_kept
      (hs.disciplined.wellFormed i) hstuck.rest_ne_idle
    refine ⟨service, hs.callback hcontrol fun _ => ControlAction.noConfusion, ?_⟩
    rw [Invocation.Stuck, hrest', htold']
    exact ⟨htold, hleft⟩
  | thread =>
    obtain ⟨received, batch, process, hwork, hthread, -, hstarted, hcreated, -⟩ :=
      RunService.thread_step h
    have hrendering := hs.thread hdevelops hreliable hclean hshared hallocates h
    obtain ⟨hrest, hmodeTold, -⟩ := (hs.disciplined.wellFormed i).of_thread hcreated
    have howns : (s.control.agent i).thread.Owns :=
      ThreadPhase.owns_of_rest (hrest ▸ hstuck.rest_ne_idle)
    have hcreated' := howns.next_created received
    rw [← hthread] at hcreated'
    obtain ⟨hrest', htold', -⟩ := (hrendering.disciplined.wellFormed i).of_thread hcreated'
    have hmode : (s'.control.agent i).mode = (s.control.agent i).mode := by
      rw [Invocation.mode, Invocation.mode, hstarted]
    rw [hmodeTold] at htold
    rw [hrest] at hleft
    refine ⟨_, hrendering, ?_⟩
    rw [Invocation.Stuck, htold', hrest', hmode, hthread, ThreadPhase.rest_all,
      ThreadPhase.rest_one]
    refine ⟨htold, hleft.imp (fun hall => ⟨hall, fun hphase => ?_⟩) ?_⟩
    · exact ((hs.received hwork).1 hphase).2 htold
    · rintro ⟨hone, hempty⟩
      have hidle : (s.control.agent i).thread.op = .idle := by
        cases hphase : (s.control.agent i).thread with
        | processOne =>
          -- the receive of the call waits, so this statement is not made
          have hpoint := hs.at_owner howns
          rw [hphase] at hpoint hwork
          rw [threadWork, htold, Renders.processOne_waits hallocates hpoint
            ((Renders.waiting_eq_nil_iff hpoint).mpr hempty)] at hwork
          contradiction
        | logBatchDone =>
          rw [hphase] at hone
          contradiction
        | _ => rfl
      rw [hidle]
      exact ⟨⟨hone, rfl⟩, hempty⟩

/-- So the run is completed. -/
theorem RunService.Leads.reaches (hdevelops : platform.Develops libs effect)
    (hreliable : platform.Reliable) (hclean : platform.Clean) (hshared : platform.SharesMemory)
    (hallocates : platform.Allocates) {s : RunService ι W} {i : ι} {goal service : ImageService}
    {bound : ℕ} (h : s.Leads libs platform effect i goal service bound) :
    ∃ statements s', (∀ event ∈ statements, SystemEvent.Of i event) ∧
      statements.length ≤ bound ∧
      Execution.run (systemStep platform libs) statements s = .ok s' ∧
      s'.control.shared.isProcessing = false ∧ Renders libs platform s'.process goal := by
  obtain ⟨statements, s', hlength, hof, hrun, hdone, lower, service', hlast⟩ :=
    Execution.run_reaches
      (fun bound s => ∃ service, RunService.Leads libs platform effect s i goal service bound)
      (SystemEvent.Of i) (fun s => ¬ (s.control.agent i).Owns) (fun bound s ⟨service, hs⟩ => by
        by_cases howns : (s.control.agent i).Owns
        · refine .inr ?_
          rcases howns with howns | howns
          · obtain ⟨s', lower, hstep, hlower, hnext⟩ := hs.callback howns
            exact ⟨_, s', lower, .callback, hstep, hlower, service, hnext⟩
          · obtain ⟨s', service', lower, hstep, hlower, hnext⟩ := hs.thread hdevelops hreliable
              hclean hshared hallocates howns
            exact ⟨_, s', lower, .thread, hstep, hlower, service', hnext⟩
        · exact .inl howns) bound s ⟨service, h⟩
  have hdown : s'.control.shared.isProcessing = false :=
    hlast.rendering.disciplined.owned.flag_eq_false_iff.mpr fun j hj => hdone (hlast.only j hj ▸ hj)
  refine ⟨statements, s', hof, hlength, hrun, hdown, ?_⟩
  rw [← hlast.goal, Invocation.rest_of_not_owns hdone]
  exact (hlast.rendering.between hdown).2

/-- In every state that the interleavings of commands, callbacks and threads with cameras, stored
definitions and restarts can reach, where system calls succeed and modules fail cleanly, while the
flag is up: the invocation that owns it can complete its run alone if its allocations succeed, in at
most seven statements and four for each shot that waits, and has then processed the shots it was
started for. The exceptions are a run for all messages that was told to wait, and a run for one that
was told to wait while no shot waits: however many statements they make, the flag stays up. -/
theorem commands_complete (hdevelops : platform.Develops libs effect)
    (hreliable : platform.Reliable) (hclean : platform.Clean) (hshared : platform.SharesMemory)
    (hallocates : platform.Allocates) (events : List (SystemEvent ι W × ServiceOp))
    (process : ProcessState W) (batch : ι → ImageBatch) (service last : ImageService)
    (h : Renders libs platform process service)
    (hmeans : Execution.Along (fun s event => systemStep platform libs s event.1)
      (fun s event => event.1.Means platform libs s event.2) events (.start process batch))
    (hlast : last = (events.map Prod.snd).foldl (ImageService.step libs effect) service)
    {s : RunService ι W}
    (hrun : Execution.run (systemStep platform libs) (events.map Prod.fst) (.start process batch) =
      .ok s) (hup : s.control.shared.isProcessing = true) :
    ∃ i, (s.control.agent i).Owns ∧
      (¬ (s.control.agent i).Stuck last →
        ∃ statements s', (∀ event ∈ statements, SystemEvent.Of i event) ∧
          statements.length ≤ 4 * last.waiting.length + 7 ∧
          Execution.run (systemStep platform libs) statements s = .ok s' ∧
          s'.control.shared.isProcessing = false ∧
          Renders libs platform s'.process (last.step libs effect (s.control.agent i).rest)) ∧
      ((s.control.agent i).Stuck last →
        ∀ statements s', (∀ event ∈ statements, SystemEvent.Of i event) →
          Execution.run (systemStep platform libs) statements s = .ok s' →
            s'.control.shared.isProcessing = true) := by
  have hs := RunService.Rendering.run hdevelops hreliable hclean hshared hallocates h hmeans hrun
  rw [← hlast] at hs
  obtain ⟨i, howns⟩ := hs.disciplined.owned.flag_iff.mp hup
  refine ⟨i, howns, fun hfree => ?_, fun hstuck statements s' hof hstatements => ?_⟩
  · have hleads : s.Leads libs platform effect i (last.step libs effect (s.control.agent i).rest)
        last ((s.control.agent i).untilStore last.waiting.length) :=
      ⟨hs, fun j hj => hs.disciplined.owned.unique j i hj howns, rfl, hfree, rfl⟩
    obtain ⟨statements, s', hof, hlength, hcompleted⟩ :=
      hleads.reaches hdevelops hreliable hclean hshared hallocates
    exact ⟨statements, s', hof,
      hlength.trans ((hs.disciplined.wellFormed i).untilStore_le _), hcompleted⟩
  · obtain ⟨service', hend, hstuck'⟩ := Execution.run_invariant_along
      (fun s : RunService ι W => ∃ service, s.Rendering platform libs service ∧
        (s.control.agent i).Stuck service) (fun _ event => SystemEvent.Of i event)
      (fun _ _ _ ⟨_, hs, hstuck⟩ hof hstep =>
        hs.stays_stuck hdevelops hreliable hclean hshared hallocates hstuck hof hstep)
      statements s s' ⟨last, hs, hstuck⟩ (.of_forall (fun event hevent _ => hof event hevent) s)
      hstatements
    exact hend.disciplined.owned.flag_iff.mpr ⟨i, Invocation.owns_of_rest hstuck'.rest_ne_idle⟩

/-- The first commands of the sample, up to the start of the log in the callback. -/
def sampleStarted : List (SystemEvent Unit (Int32 → Film sampleUnpack) × ServiceOp) :=
  sampleCommands.take 6

/-- They mean what they are paired with. -/
theorem sampleStarted_means :
    Execution.Along
      (fun s event => systemStep (darkroom sampleUnpack) darkroomLibraries s event.1)
      (fun s event => event.1.Means (darkroom sampleUnpack) darkroomLibraries s event.2)
      sampleStarted (.start sampleBoot fun _ => ⟨0, 0, 0, 0, 0, 0⟩) := by
  have hmeans := sampleCommands_means
  rw [← List.take_append_drop 6 sampleCommands] at hmeans
  exact hmeans.of_append

/-- They are executed, and lead to an owner that was not told to wait. -/
theorem sampleStarted_run :
    ∃ s, Execution.run (systemStep (darkroom sampleUnpack) darkroomLibraries)
        (sampleStarted.map Prod.fst) (.start sampleBoot fun _ => ⟨0, 0, 0, 0, 0, 0⟩) = .ok s ∧
      s.control.shared.isProcessing = true ∧ (s.control.agent ()).told = false := by
  have hstarted : (Execution.run (systemStep (darkroom sampleUnpack) darkroomLibraries)
      (sampleStarted.map Prod.fst) (.start sampleBoot fun _ => ⟨0, 0, 0, 0, 0, 0⟩)).toOption.any
        (fun s => s.control.shared.isProcessing && !(s.control.agent ()).told) = true := by
    decide +kernel
  cases hrun : Execution.run (systemStep (darkroom sampleUnpack) darkroomLibraries)
      (sampleStarted.map Prod.fst) (.start sampleBoot fun _ => ⟨0, 0, 0, 0, 0, 0⟩) with
  | error stop => rw [hrun] at hstarted; contradiction
  | ok s =>
    rw [hrun] at hstarted
    obtain ⟨hup, htold⟩ := (Bool.and_eq_true _ _).mp hstarted
    exact ⟨s, rfl, hup, Bool.not_eq_true' _ ▸ htold⟩

/-- The run that was begun there is completed by at most eleven statements. -/
theorem commands_complete_sample :
    ∃ s statements s', Execution.run (systemStep (darkroom sampleUnpack) darkroomLibraries)
        (sampleStarted.map Prod.fst) (.start sampleBoot fun _ => ⟨0, 0, 0, 0, 0, 0⟩) = .ok s ∧
      (∀ event ∈ statements, SystemEvent.Of () event) ∧ statements.length ≤ 11 ∧
      Execution.run (systemStep (darkroom sampleUnpack) darkroomLibraries) statements s = .ok s' ∧
      s'.control.shared.isProcessing = false := by
  have hdevelops : (darkroom darkroomLibraries.metadataUnpack).Develops darkroomLibraries
      discardFirst := darkroom_develops
  obtain ⟨hreliable, hclean, hshared, hallocates⟩ :=
    @darkroom_wellBehaved darkroomLibraries.metadataUnpack
  obtain ⟨s, hrun, hup, htold⟩ := sampleStarted_run
  obtain ⟨i, -, hcompletes, -⟩ := commands_complete hdevelops hreliable hclean hshared hallocates
    sampleStarted sampleBoot _ _ _ sampleBoot_renders sampleStarted_means rfl hrun hup
  have hfree (service : ImageService) : ¬ (s.control.agent i).Stuck service := fun hstuck => by
    rw [hstuck.1] at htold
    contradiction
  obtain ⟨statements, s', hof, hlength, hstatements, hdown, -⟩ := hcompletes (hfree _)
  exact ⟨s, statements, s', hrun, hof, hlength, hstatements, hdown⟩

end Dipp
