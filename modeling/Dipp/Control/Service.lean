import Dipp.Control.Exclusion
import Dipp.Process.Contract
import Dipp.Process.Thread

/-!
# Runs one after the other

The threads that the callbacks start work on the state of the processing functions, step by
step, while other callbacks and threads take their turns. Because the flag excludes a second
run, the steps of one run are never mixed with those of another: what the threads have done,
whenever the flag is down, is what calls of `process_one` and `process_all` do in sequence,
one for each run and in the mode of that run.
-/

namespace Dipp

variable {ι W : Type*} [DecidableEq ι]

/-- The callbacks and threads with the state that the threads work on, the batch variable of each
thread, and the runs that have released the flag, in order. -/
structure RunService (ι W : Type*) where
  control : Control ι
  process : ProcessState W
  batch : ι → ImageBatch
  served : List (ι × RunMode)

/-- A service before its first command; the batch variables are uninitialised. -/
def RunService.start (process : ProcessState W) (batch : ι → ImageBatch) : RunService ι W :=
  ⟨Control.boot, process, batch, []⟩

/-- A value is stored, a callback or a thread makes its next statement, or the configuration is
changed. -/
inductive RunServiceEvent (ι : Type*) where
  | write (i : ι) (value : UInt8)
  | callback (i : ι) (succeeds : Bool)
  | thread (i : ι)
  | config (op : ConfigOp)

variable (platform : Platform W) (libs : Libraries)

/-- What a thread does to its batch variable and the state along with its next statement, and
whether it has received a message. -/
def threadWork (mode : RunMode) (phase : ThreadPhase) (batch : ImageBatch) (s : ProcessState W) :
    Except Stop (Bool × ImageBatch × ProcessState W) :=
  match phase with
  | .processOne => (processOne platform libs mode.wait batch s).map fun s' => (false, batch, s')
  | .receive => (getMessageFromQueue mode.wait batch s).map fun outcome =>
      (outcome.status = .success, outcome.batch, outcome.state)
  | .logCacheRebuilt => (setupCache platform libs s).map fun s' => (false, batch, s')
  | .logBatchDone => (process platform libs batch s).map fun processed => (false, processed)
  | _ => .ok (false, batch, s)

/-- The mode that the thread of an invocation was started in. -/
def Invocation.mode (inv : Invocation) : RunMode := inv.started.getD ⟨false, false⟩

/-- One step of the service. -/
def runServiceStep (s : RunService ι W) : RunServiceEvent ι → Except Unit (RunService ι W)
  | .write i value =>
    (Agents.step controlStep s.control (i, .write value)).map fun control =>
      { s with control := control }
  | .callback i succeeds =>
    (Agents.step controlStep s.control (i, .callback succeeds)).map fun control =>
      { s with control := control }
  | .thread i =>
    let inv := s.control.agent i
    match threadWork platform libs inv.mode inv.thread (s.batch i) s.process with
    | .error _ => .error ()
    | .ok (received, batch, process) =>
      (Agents.step controlStep s.control (i, .thread received)).map fun control =>
        { control := control
          process := process
          batch := Function.update s.batch i batch
          served := if inv.thread = .store then s.served ++ [(i, inv.mode)] else s.served }
  | .config op =>
    match configStep libs s.process.config op with
    | .error _ => .error ()
    | .ok c => .ok { s with process := { s.process with config := c } }

variable {platform libs} in
/-- A value that is stored changes the controls only. -/
theorem runServiceStep_write {s s' : RunService ι W} {i : ι} {value : UInt8}
    (h : runServiceStep platform libs s (.write i value) = .ok s') :
    ∃ control, Agents.step controlStep s.control (i, .write value) = .ok control ∧
      s' = { s with control := control } := by
  rw [runServiceStep] at h
  cases hcontrol : Agents.step controlStep s.control (i, .write value) with
  | error stop => rw [hcontrol] at h; contradiction
  | ok control =>
    rw [hcontrol] at h
    exact ⟨control, rfl, (Except.ok.inj h).symm⟩

variable {platform libs} in
/-- So does a statement of a callback. -/
theorem runServiceStep_callback {s s' : RunService ι W} {i : ι} {succeeds : Bool}
    (h : runServiceStep platform libs s (.callback i succeeds) = .ok s') :
    ∃ control, Agents.step controlStep s.control (i, .callback succeeds) = .ok control ∧
      s' = { s with control := control } := by
  rw [runServiceStep] at h
  cases hcontrol : Agents.step controlStep s.control (i, .callback succeeds) with
  | error stop => rw [hcontrol] at h; contradiction
  | ok control =>
    rw [hcontrol] at h
    exact ⟨control, rfl, (Except.ok.inj h).symm⟩

variable {platform libs} in
/-- A statement of a thread consists of its work and of its step. -/
theorem runServiceStep_thread {s s' : RunService ι W} {i : ι}
    (h : runServiceStep platform libs s (.thread i) = .ok s') :
    ∃ received batch process control,
      threadWork platform libs (s.control.agent i).mode (s.control.agent i).thread (s.batch i)
        s.process = .ok (received, batch, process) ∧
      Agents.step controlStep s.control (i, .thread received) = .ok control ∧
      s' = ⟨control, process, Function.update s.batch i batch,
        if (s.control.agent i).thread = .store
          then s.served ++ [(i, (s.control.agent i).mode)] else s.served⟩ := by
  unfold runServiceStep at h
  dsimp only at h
  split at h
  · contradiction
  rename_i received batch process hwork
  cases hcontrol : Agents.step controlStep s.control (i, .thread received) with
  | error stop => rw [hcontrol] at h; contradiction
  | ok control =>
    rw [hcontrol] at h
    exact ⟨received, batch, process, control, hwork, hcontrol, (Except.ok.inj h).symm⟩

/-- The mode of a call of the processing functions. -/
def ThreadOp.mode : ThreadOp W → Option RunMode
  | .processOne doWait _ => some ⟨false, doWait⟩
  | .processAll doWait _ _ => some ⟨true, doWait⟩
  | _ => none

/-- A call in this mode leads from the one state to the other. -/
def ServedBy (mode : RunMode) (base s : ProcessState W) : Prop :=
  ∃ op : ThreadOp W, op.mode = some mode ∧ threadStep platform libs base op = .ok s

/-- What is left of `process_all` at a point of its loop. -/
def restOfLoop (doWait : Bool) (phase : ThreadPhase) (fuel : ℕ) (batch : ImageBatch)
    (s : ProcessState W) : Except Stop (ImageBatch × ProcessState W) :=
  match phase with
  | .logBatchStarted | .logCacheRebuilt =>
    (setupCache platform libs s).bind fun ready =>
      (process platform libs batch ready).bind fun processed =>
        processAll platform libs doWait fuel processed.1 processed.2
  | .logBatchDone =>
    (process platform libs batch s).bind fun processed =>
      processAll platform libs doWait fuel processed.1 processed.2
  | _ => processAll platform libs doWait fuel batch s

/-- What is left of the loop completes a call of `process_all` that began in another state. -/
def CompletesLoop (doWait : Bool) (base : ProcessState W) (phase : ThreadPhase)
    (batch : ImageBatch) (s : ProcessState W) : Prop :=
  ∃ datarcv, ∀ fuel result, restOfLoop platform libs doWait phase fuel batch s = .ok result →
    ∃ fuel', processAll platform libs doWait fuel' datarcv base = .ok result

/-- What holds of a thread that owns the run, given the state the run began in. -/
def UnderWay (mode : RunMode) (base : ProcessState W) (phase : ThreadPhase) (batch : ImageBatch)
    (s : ProcessState W) : Prop :=
  match phase with
  | .readArgs given => given = mode ∧ s = base
  | .processOne => mode.all = false ∧ s = base
  | .receive | .logBatchStarted | .logCacheRebuilt | .logBatchDone =>
    mode.all = true ∧ CompletesLoop platform libs mode.wait base phase batch s
  | .store => ServedBy platform libs mode base s
  | _ => True

/-- The processing of an owner: none yet in its callback, and a part of a call in its thread. -/
structure Invocation.Current (inv : Invocation) (base : ProcessState W) (batch : ImageBatch)
    (s : ProcessState W) : Prop where
  starting : inv.callback.Owns → s = base
  running : inv.thread.Owns → UnderWay platform libs inv.mode base inv.thread batch s

variable {platform libs}

/-- An invocation that does not own the run has no part in the processing. -/
theorem Invocation.Current.of_not_owns {inv : Invocation} (h : ¬ inv.Owns) (base : ProcessState W)
    (batch : ImageBatch) (s : ProcessState W) : inv.Current platform libs base batch s :=
  ⟨fun howns => absurd (.inl howns) h, fun howns => absurd (.inr howns) h⟩

/-- A write or a statement of a callback does no processing, and takes and releases the flag between
two calls. -/
theorem Statement.current {i : ι} {action : ControlAction} {shared shared' : Shared ι}
    {inv inv' : Invocation} {base s : ProcessState W} {batch : ImageBatch}
    (h : Statement i shared inv action shared' inv')
    (haction : ∀ received, action ≠ .thread received)
    (hinv : inv.Current platform libs base batch s)
    (hidle : shared.isProcessing = false → s = base) :
    inv'.Current platform libs base batch s ∧ (shared'.isProcessing = false → s = base) := by
  cases h with
  | accepted succeeds value hphase hfree =>
    exact ⟨⟨fun _ => hidle hfree, hinv.running⟩, nofun⟩
  | threadCreated mode hphase =>
    have hbase : s = base := hinv.starting (by rw [hphase]; trivial)
    exact ⟨⟨nofun, fun _ => ⟨rfl, hbase⟩⟩, hidle⟩
  | storeAfterMalloc succeeds hphase | storeAfterCreate succeeds hphase =>
    have hbase : s = base := hinv.starting (by rw [hphase]; trivial)
    exact ⟨⟨nofun, hinv.running⟩, fun _ => hbase⟩
  | createLogger succeeds value hphase | logStarted succeeds value hphase
  | argsAllocated value hphase | mallocFailed value hphase | createFailed mode hphase =>
    have hbase : s = base := hinv.starting (by rw [hphase]; trivial)
    exact ⟨⟨fun _ => hbase, hinv.running⟩, fun _ => hbase⟩
  | write value hphase | readZero succeeds hphase hzero | readValue succeeds hphase hvalue
  | refused succeeds value hphase hbusy =>
    exact ⟨⟨nofun, hinv.running⟩, hidle⟩
  | logDetached succeeds hphase =>
    exact ⟨⟨nofun, hinv.running⟩, by simpa using hidle⟩
  | enterAll received | enterOne received | processOne received | logBatchStarted received
  | logCacheRebuilt received | logBatchDone received | store received | clearParam received
  | logFinished received | flush received | destroy received => exact absurd rfl (haction received)
  | received | drained => exact absurd rfl (haction _)

/-- The parts of what a statement of a thread has come to. -/
theorem worked_inj {received received' : Bool} {batch batch' : ImageBatch} {s s' : ProcessState W}
    (h : (.ok (received, batch, s) : Except Stop (Bool × ImageBatch × ProcessState W)) =
      .ok (received', batch', s')) : received = received' ∧ batch = batch' ∧ s = s' := by
  obtain ⟨hreceived, hpair⟩ := Prod.mk.inj (Except.ok.inj h)
  exact ⟨hreceived, Prod.mk.inj hpair⟩

/-- A statement of a thread that receives takes a message for the loop, or ends it. -/
theorem CompletesLoop.receive {doWait received : Bool} {base s s' : ProcessState W}
    {batch batch' : ImageBatch}
    (h : CompletesLoop platform libs doWait base .receive batch s)
    (hwork : (getMessageFromQueue doWait batch s).map (fun outcome =>
      (decide (outcome.status = .success), outcome.batch, outcome.state)) =
        .ok (received, batch', s')) :
    (received = true → CompletesLoop platform libs doWait base .logBatchStarted batch' s') ∧
      (received = false → ServedBy platform libs ⟨true, doWait⟩ base s') := by
  obtain ⟨datarcv, h⟩ := h
  cases hreceive : getMessageFromQueue doWait batch s with
  | error stop => rw [hreceive] at hwork; contradiction
  | ok outcome =>
    obtain ⟨status, message, next⟩ := outcome
    rw [hreceive] at hwork
    obtain ⟨rfl, rfl, rfl⟩ := worked_inj hwork
    constructor
    · intro hsuccess
      obtain rfl : status = .success := of_decide_eq_true hsuccess
      refine ⟨datarcv, fun fuel result hrest => h (fuel + 1) result ?_⟩
      simp only [restOfLoop, processAll, hreceive]
      simp only [restOfLoop] at hrest
      cases hsetup : setupCache platform libs next with
      | error stop => rw [hsetup] at hrest; contradiction
      | ok ready =>
        rw [hsetup] at hrest
        simp only [Except.bind] at hrest ⊢
        cases hprocess : process platform libs message ready with
        | error stop => rw [hprocess] at hrest; contradiction
        | ok processed =>
          rw [hprocess] at hrest
          exact hrest
    · intro hfailure
      have hstatus : status = .failure := by
        cases status with
        | failure => rfl
        | success => contradiction
      subst hstatus
      obtain ⟨fuel, hall⟩ := h 1 (message, next) (by simp only [restOfLoop, processAll, hreceive])
      refine ⟨.processAll doWait fuel datarcv, rfl, ?_⟩
      rw [threadStep, hall]
      rfl

/-- Setting up the cache is the next part of the loop. -/
theorem CompletesLoop.setupCache {doWait : Bool} {base s s' : ProcessState W} {batch : ImageBatch}
    (h : CompletesLoop platform libs doWait base .logCacheRebuilt batch s)
    (hsetup : setupCache platform libs s = .ok s') :
    CompletesLoop platform libs doWait base .logBatchDone batch s' := by
  obtain ⟨datarcv, h⟩ := h
  refine ⟨datarcv, fun fuel result hrest => h fuel result ?_⟩
  rw [restOfLoop, hsetup]
  exact hrest

/-- Processing the batch is the last part of the iteration. -/
theorem CompletesLoop.process {doWait : Bool} {base s s' : ProcessState W}
    {batch batch' : ImageBatch}
    (h : CompletesLoop platform libs doWait base .logBatchDone batch s)
    (hprocess : process platform libs batch s = .ok (batch', s')) :
    CompletesLoop platform libs doWait base .receive batch' s' := by
  obtain ⟨datarcv, h⟩ := h
  refine ⟨datarcv, fun fuel result hrest => h fuel result ?_⟩
  rw [restOfLoop, hprocess]
  exact hrest

/-- A mode that asks for all messages is determined by whether it waits. -/
theorem RunMode.eq_of_all {mode : RunMode} {all : Bool} (h : mode.all = all) :
    mode = ⟨all, mode.wait⟩ := by
  rw [← h]

/-- A thread outside of the processing functions changes nothing that they work on. -/
theorem threadWork_of_not_inside {mode : RunMode} {phase : ThreadPhase} {batch batch' : ImageBatch}
    {s s' : ProcessState W} {received : Bool}
    (h : threadWork platform libs mode phase batch s = .ok (received, batch', s'))
    (hphase : ¬ phase.Inside) : s' = s := by
  cases phase with
  | processOne | receive | logBatchStarted | logCacheRebuilt | logBatchDone =>
    exact absurd trivial hphase
  | _ =>
    exact (worked_inj h).2.2.symm

/-- A statement of a thread, which exists then, leaves the callback and the mode alone. -/
theorem Statement.thread_keeps {i : ι} {received : Bool} {shared shared' : Shared ι}
    {inv inv' : Invocation} (h : Statement i shared inv (.thread received) shared' inv') :
    inv.thread ≠ .notCreated ∧ inv'.callback = inv.callback ∧ inv'.started = inv.started := by
  refine ⟨fun hnone => ?_, ?_⟩
  · cases h <;> simp_all
  · cases h <;> exact ⟨rfl, rfl⟩

/-- Before it releases the flag, a statement of a thread goes on with its call. -/
theorem Statement.current_thread {i : ι} {received : Bool} {shared shared' : Shared ι}
    {inv inv' : Invocation} {base s s' : ProcessState W} {batch batch' : ImageBatch}
    (h : Statement i shared inv (.thread received) shared' inv') (hwf : inv.WellFormed)
    (hstore : inv.thread ≠ .store)
    (hwork : threadWork platform libs inv.mode inv.thread batch s = .ok (received, batch', s'))
    (hinv : inv.Current platform libs base batch s) :
    inv'.Current platform libs base batch' s' := by
  have hcallback : ¬ inv.callback.Owns := by
    rcases hwf.thread h.thread_keeps.1 with hphase | hphase <;> rw [hphase] <;> exact id
  have hrunning (hphase : ThreadPhase) (heq : inv.thread = hphase) (howns : hphase.Owns) :
      UnderWay platform libs inv.mode base hphase batch s := heq ▸ hinv.running (heq ▸ howns)
  refine ⟨fun howns => ?_, fun howns => ?_⟩
  · cases h <;> exact absurd howns hcallback
  cases h with
  | enterAll received mode hphase hall =>
    obtain ⟨rfl, rfl⟩ := hrunning _ hphase trivial
    rw [hphase] at hwork
    obtain ⟨-, rfl, rfl⟩ := worked_inj hwork
    exact ⟨hall, batch, fun fuel result hrest => ⟨fuel, hrest⟩⟩
  | enterOne received mode hphase hone =>
    obtain ⟨rfl, rfl⟩ := hrunning _ hphase trivial
    rw [hphase] at hwork
    obtain ⟨-, rfl, rfl⟩ := worked_inj hwork
    exact ⟨hone, rfl⟩
  | processOne received hphase =>
    obtain ⟨hone, rfl⟩ := hrunning _ hphase trivial
    rw [hphase] at hwork
    cases hprocess : Dipp.processOne platform libs inv.mode.wait batch s with
    | error stop => rw [threadWork, hprocess] at hwork; contradiction
    | ok next =>
      rw [threadWork, hprocess] at hwork
      obtain ⟨-, rfl, rfl⟩ := worked_inj hwork
      exact ⟨.processOne inv.mode.wait batch, congrArg some (RunMode.eq_of_all hone).symm, hprocess⟩
  | received hphase =>
    obtain ⟨hall, hloop⟩ := hrunning _ hphase trivial
    rw [hphase] at hwork
    exact ⟨hall, (hloop.receive hwork).1 rfl⟩
  | drained hphase =>
    obtain ⟨hall, hloop⟩ := hrunning _ hphase trivial
    rw [hphase] at hwork
    have hserved := (hloop.receive hwork).2 rfl
    rw [← RunMode.eq_of_all hall] at hserved
    exact hserved
  | logBatchStarted received hphase =>
    obtain ⟨hall, hloop⟩ := hrunning _ hphase trivial
    rw [hphase] at hwork
    obtain ⟨-, rfl, rfl⟩ := worked_inj hwork
    exact ⟨hall, hloop⟩
  | logCacheRebuilt received hphase =>
    obtain ⟨hall, hloop⟩ := hrunning _ hphase trivial
    rw [hphase] at hwork
    cases hsetup : setupCache platform libs s with
    | error stop => rw [threadWork, hsetup] at hwork; contradiction
    | ok ready =>
      rw [threadWork, hsetup] at hwork
      obtain ⟨-, rfl, rfl⟩ := worked_inj hwork
      exact ⟨hall, hloop.setupCache hsetup⟩
  | logBatchDone received hphase =>
    obtain ⟨hall, hloop⟩ := hrunning _ hphase trivial
    rw [hphase] at hwork
    cases hprocess : process platform libs batch s with
    | error stop => rw [threadWork, hprocess] at hwork; contradiction
    | ok processed =>
      rw [threadWork, hprocess] at hwork
      obtain ⟨-, rfl⟩ := Prod.mk.inj (Except.ok.inj hwork)
      exact ⟨hall, hloop.process hprocess⟩
  | store received hphase => exact absurd hphase hstore
  | clearParam received hphase | logFinished received hphase | flush received hphase
  | destroy received hphase => exact howns.elim

/-- A thread that stores zero in the flag has finished its call. -/
theorem Statement.released_thread {i : ι} {received : Bool} {shared shared' : Shared ι}
    {inv inv' : Invocation} (h : Statement i shared inv (.thread received) shared' inv') :
    shared'.isProcessing = if inv.thread = .store then false else shared.isProcessing := by
  cases h <;> simp_all

/-- The thread has released the flag. -/
def ThreadPhase.Released : ThreadPhase → Prop
  | .clearParam | .logFinished | .flush | .destroy | .ended => True
  | _ => False

/-- A thread releases the flag once. -/
theorem Statement.released_iff {i : ι} {action : ControlAction} {shared shared' : Shared ι}
    {inv inv' : Invocation} (h : Statement i shared inv action shared' inv')
    (hwf : inv.WellFormed) :
    inv'.thread.Released ↔
      inv.thread.Released ∨ inv.thread = .store ∧ ∃ received, action = .thread received := by
  cases h with
  | threadCreated mode hphase =>
    have hthread := hwf.notCreated (by simp [hphase]) (by simp [hphase])
    simp [hthread, ThreadPhase.Released]
  | _ => simp_all [ThreadPhase.Released]

/-- The mode of a thread stays while it runs. -/
theorem Statement.mode {i : ι} {action : ControlAction} {shared shared' : Shared ι}
    {inv inv' : Invocation} (h : Statement i shared inv action shared' inv')
    (hwf : inv.WellFormed) (hcreated : inv.thread ≠ .notCreated) : inv'.mode = inv.mode := by
  cases h with
  | threadCreated mode hphase =>
    exact absurd (hwf.notCreated (by simp [hphase]) (by simp [hphase])) hcreated
  | _ => rfl

variable (platform libs)

/-- What the threads have done is a sequence of calls, and in the middle of a run a part of one
more; each run that has released the flag is one of the calls. -/
structure RunService.Serial (first : ProcessState W) (ops : List (ThreadOp W))
    (base : ProcessState W) (s : RunService ι W) : Prop where
  done : Execution.run (threadStep platform libs) ops first = .ok base
  modes : ops.filterMap ThreadOp.mode = s.served.map Prod.snd
  disciplined : s.control.Disciplined
  idle : s.control.shared.isProcessing = false → s.process = base
  current : ∀ i, (s.control.agent i).Current platform libs base (s.batch i) s.process
  once : (s.served.map Prod.fst).Nodup
  served_iff : ∀ i mode, (i, mode) ∈ s.served ↔
    (s.control.agent i).thread.Released ∧ (s.control.agent i).mode = mode

variable {platform libs}

/-- A write or a statement of a callback keeps this. -/
theorem RunService.Serial.callback {first base : ProcessState W} {ops : List (ThreadOp W)}
    {s : RunService ι W} {control : Control ι} {i : ι} {action : ControlAction}
    (hs : s.Serial platform libs first ops base)
    (h : Agents.step controlStep s.control (i, action) = .ok control)
    (haction : ∀ received, action ≠ .thread received) :
    ({ s with control := control } : RunService ι W).Serial platform libs first ops base := by
  obtain ⟨hlocal, hothers⟩ := Agents.step_eq_ok h
  have hstatement := controlStep_eq_some hlocal
  have hwf := hs.disciplined.wellFormed i
  obtain ⟨hcurrent, hidle⟩ := hstatement.current haction (hs.current i) hs.idle
  refine ⟨hs.done, hs.modes, hs.disciplined.step h, hidle, fun j => ?_, hs.once, fun j mode => ?_⟩
  · by_cases hj : j = i
    · subst hj
      exact hcurrent
    · dsimp only
      rw [hothers j hj]
      exact hs.current j
  · rw [hs.served_iff j mode]
    by_cases hj : j = i
    · subst hj
      have hreleased := hstatement.released_iff hwf
      have hsame : (control.agent j).thread.Released ↔ (s.control.agent j).thread.Released := by
        rw [hreleased]
        exact or_iff_left fun ⟨_, received, hthread⟩ => haction received hthread
      rw [hsame]
      refine and_congr_right fun hdone => ?_
      rw [hstatement.mode hwf (by rintro hnone; rw [hnone] at hdone; exact hdone)]
    · rw [hothers j hj]

/-- So does the store of a thread, which completes a call. -/
theorem RunService.Serial.thread_store {first base process : ProcessState W}
    {ops : List (ThreadOp W)} {s : RunService ι W} {control : Control ι} {i : ι}
    {received : Bool} {batch : ImageBatch}
    (hs : s.Serial platform libs first ops base) (hstore : (s.control.agent i).thread = .store)
    (hwork : threadWork platform libs (s.control.agent i).mode (s.control.agent i).thread
      (s.batch i) s.process = .ok (received, batch, process))
    (h : Agents.step controlStep s.control (i, .thread received) = .ok control) :
    ∃ ops' base', RunService.Serial platform libs first ops' base'
      ⟨control, process, Function.update s.batch i batch,
        if (s.control.agent i).thread = .store
          then s.served ++ [(i, (s.control.agent i).mode)] else s.served⟩ := by
  obtain ⟨hlocal, hothers⟩ := Agents.step_eq_ok h
  have hstatement := controlStep_eq_some hlocal
  have hwf := hs.disciplined.wellFormed i
  have hdisciplined := hs.disciplined.step h
  obtain rfl : process = s.process :=
    threadWork_of_not_inside hwork (by rw [hstore]; exact id)
  have hdown : control.shared.isProcessing = false := by
    rw [hstatement.released_thread, if_pos hstore]
  have hserved : ServedBy platform libs (s.control.agent i).mode base s.process := by
    have hpending := (hs.current i).running (by rw [hstore]; trivial)
    rw [hstore] at hpending
    exact hpending
  obtain ⟨op, hmode, hcall⟩ := hserved
  have hreleased (j : ι) (mode : RunMode) : (j, mode) ∈ s.served → j ≠ i := by
    rintro hmem rfl
    have hphase := ((hs.served_iff j mode).mp hmem).1
    rw [hstore] at hphase
    exact hphase
  rw [if_pos hstore]
  refine ⟨ops ++ [op], s.process, ?_, ?_, hdisciplined, fun _ => rfl, fun j => ?_, ?_, ?_⟩
  · rw [Execution.run_append, hs.done]
    exact Execution.run_cons_ok [] hcall
  · rw [List.filterMap_append, List.map_append, hs.modes]
    simp [hmode]
  · exact .of_not_owns (hdisciplined.owned.flag_eq_false_iff.mp hdown j) _ _ _
  · rw [List.map_append, List.nodup_append]
    refine ⟨hs.once, List.nodup_singleton i, ?_⟩
    rintro j hj k hk rfl
    obtain ⟨⟨j', mode⟩, hmem, rfl⟩ := List.mem_map.mp hj
    exact hreleased j' mode hmem (List.mem_singleton.mp hk)
  · intro j mode
    dsimp only
    rw [List.mem_append, List.mem_singleton, hs.served_iff j mode]
    by_cases hj : j = i
    · subst hj
      rw [hstatement.released_iff hwf,
        hstatement.mode hwf (by rw [hstore]; exact ThreadPhase.noConfusion), hstore]
      simp [ThreadPhase.Released, eq_comm]
    · rw [hothers j hj]
      simp [hj]

/-- So does every other statement of a thread, which goes on with the call. -/
theorem RunService.Serial.thread_other {first base process : ProcessState W}
    {ops : List (ThreadOp W)} {s : RunService ι W} {control : Control ι} {i : ι}
    {received : Bool} {batch : ImageBatch}
    (hs : s.Serial platform libs first ops base) (hstore : (s.control.agent i).thread ≠ .store)
    (hwork : threadWork platform libs (s.control.agent i).mode (s.control.agent i).thread
      (s.batch i) s.process = .ok (received, batch, process))
    (h : Agents.step controlStep s.control (i, .thread received) = .ok control) :
    RunService.Serial platform libs first ops base
      ⟨control, process, Function.update s.batch i batch, s.served⟩ := by
  obtain ⟨hlocal, hothers⟩ := Agents.step_eq_ok h
  have hstatement := controlStep_eq_some hlocal
  have hwf := hs.disciplined.wellFormed i
  have hflag : control.shared.isProcessing = s.control.shared.isProcessing := by
    rw [hstatement.released_thread, if_neg hstore]
  have hsame (howns : ¬ (s.control.agent i).Owns) : process = s.process :=
    threadWork_of_not_inside hwork fun hinside => howns (.inr hinside.owns)
  refine ⟨hs.done, hs.modes, hs.disciplined.step h, fun hdown => ?_, fun j => ?_, hs.once,
    fun j mode => ?_⟩
  · dsimp only at hdown ⊢
    rw [hflag] at hdown
    rw [hsame (hs.disciplined.owned.flag_eq_false_iff.mp hdown i)]
    exact hs.idle hdown
  · dsimp only
    by_cases hj : j = i
    · subst hj
      rw [Function.update_self]
      exact hstatement.current_thread hwf hstore hwork (hs.current j)
    · rw [Function.update_of_ne hj, hothers j hj]
      by_cases howns : (s.control.agent i).Owns
      · refine .of_not_owns (fun hother => hj ?_) _ _ _
        exact hs.disciplined.owned.unique j i hother howns
      · rw [hsame howns]
        exact hs.current j
  · rw [hs.served_iff j mode]
    by_cases hj : j = i
    · subst hj
      have hsameReleased : (control.agent j).thread.Released ↔
          (s.control.agent j).thread.Released := by
        rw [hstatement.released_iff hwf]
        exact or_iff_left fun hleft => hstore hleft.1
      rw [hsameReleased]
      refine and_congr_right fun hdone => ?_
      rw [hstatement.mode hwf (by rintro hnone; rw [hnone] at hdone; exact hdone)]
    · rw [hothers j hj]

/-- So does a statement of a thread, which may complete a call. -/
theorem RunService.Serial.thread {first base : ProcessState W} {ops : List (ThreadOp W)}
    {s s' : RunService ι W} {i : ι} (hs : s.Serial platform libs first ops base)
    (h : runServiceStep platform libs s (.thread i) = .ok s') :
    ∃ ops' base', s'.Serial platform libs first ops' base' := by
  obtain ⟨received, batch, process, control, hwork, hcontrol, rfl⟩ := runServiceStep_thread h
  by_cases hstore : (s.control.agent i).thread = .store
  · exact hs.thread_store hstore hwork hcontrol
  · simp only [if_neg hstore]
    exact ⟨ops, base, hs.thread_other hstore hwork hcontrol⟩

/-- The configuration is changed between two runs. -/
def BetweenRuns (s : RunService ι W) : RunServiceEvent ι → Prop
  | .config _ => s.control.shared.isProcessing = false
  | _ => True

/-- Every step that changes the configuration between two runs only keeps the sequence. -/
theorem RunService.Serial.step {first base : ProcessState W} {ops : List (ThreadOp W)}
    {s s' : RunService ι W} {event : RunServiceEvent ι}
    (hs : s.Serial platform libs first ops base)
    (hbetween : BetweenRuns s event) (h : runServiceStep platform libs s event = .ok s') :
    ∃ ops' base', s'.Serial platform libs first ops' base' := by
  cases event with
  | write i value =>
    obtain ⟨control, hcontrol, rfl⟩ := runServiceStep_write h
    exact ⟨ops, base, hs.callback hcontrol nofun⟩
  | callback i succeeds =>
    obtain ⟨control, hcontrol, rfl⟩ := runServiceStep_callback h
    exact ⟨ops, base, hs.callback hcontrol nofun⟩
  | thread i => exact hs.thread h
  | config op =>
    rw [runServiceStep] at h
    cases hconfig : configStep libs s.process.config op with
    | error stop => rw [hconfig] at h; contradiction
    | ok c =>
      rw [hconfig] at h
      obtain rfl := Except.ok.inj h
      have hbase := hs.idle hbetween
      have hnobody := hs.disciplined.owned.flag_eq_false_iff.mp hbetween
      refine ⟨ops ++ [.config op], { s.process with config := c }, ?_, ?_, hs.disciplined,
        fun _ => rfl, fun j => .of_not_owns (hnobody j) _ _ _, hs.once, hs.served_iff⟩
      · rw [Execution.run_append, hs.done, ← hbase]
        refine Execution.run_cons_ok [] ?_
        rw [threadStep, hconfig]
        rfl
      · rw [List.filterMap_append, hs.modes]
        simp [ThreadOp.mode]

/-- The mode that a callback has decided on. -/
def CallbackPhase.decided : CallbackPhase → Option RunMode
  | .exchange value | .createLogger value | .logStarted value | .allocateArgs value =>
    some (runMode value)
  | .createThread mode => some mode
  | _ => none

/-- A callback decides on the mode of the value that it reads, and starts its thread in this mode.
-/
theorem Statement.decided {i : ι} {action : ControlAction} {shared shared' : Shared ι}
    {inv inv' : Invocation} (h : Statement i shared inv action shared' inv') {mode : RunMode}
    (hmode : inv'.callback.decided = some mode ∨ inv'.started = some mode) :
    (inv.callback.decided = some mode ∨ inv.started = some mode) ∨
      (∃ succeeds, action = .callback succeeds) ∧ inv.callback = .readParam ∧
        mode = runMode shared.pipelineRun := by
  cases h with
  | readValue succeeds hphase hvalue =>
    rcases hmode with hdecided | hstarted
    · exact .inr ⟨⟨succeeds, rfl⟩, hphase, (Option.some.inj hdecided).symm⟩
    · exact .inl (.inr hstarted)
  | threadCreated mode hphase => simp_all [CallbackPhase.decided]
  | _ => simp_all [CallbackPhase.decided]

/-- At a point of the run, the callback of the invocation reads a value that asks for the mode. -/
def ReadsMode (platform : Platform W) (libs : Libraries) (events : List (RunServiceEvent ι))
    (start : RunService ι W) (i : ι) (mode : RunMode) : Prop :=
  ∃ earlier succeeds later middle, events = earlier ++ .callback i succeeds :: later ∧
    Execution.run (runServiceStep platform libs) earlier start = .ok middle ∧
    (middle.control.agent i).callback = .readParam ∧
    mode = runMode middle.control.shared.pipelineRun

/-- A step of the service is a statement of an invocation, of a callback only if the event is one,
or it leaves the controls alone. -/
theorem runServiceStep_control {s s' : RunService ι W} {event : RunServiceEvent ι}
    (h : runServiceStep platform libs s event = .ok s') :
    s'.control = s.control ∨ ∃ i action,
      Agents.step controlStep s.control (i, action) = .ok s'.control ∧
        ∀ succeeds, action = .callback succeeds → event = .callback i succeeds := by
  cases event with
  | write i value =>
    obtain ⟨control, hcontrol, rfl⟩ := runServiceStep_write h
    exact .inr ⟨i, _, hcontrol, fun succeeds => ControlAction.noConfusion⟩
  | callback i succeeds =>
    obtain ⟨control, hcontrol, rfl⟩ := runServiceStep_callback h
    exact .inr ⟨i, _, hcontrol, fun other hsame => by rw [ControlAction.callback.inj hsame]⟩
  | thread i =>
    obtain ⟨received, batch, process, control, -, hcontrol, rfl⟩ := runServiceStep_thread h
    exact .inr ⟨i, _, hcontrol, fun succeeds => ControlAction.noConfusion⟩
  | config op =>
    rw [runServiceStep] at h
    cases hconfig : configStep libs s.process.config op with
    | error stop => rw [hconfig] at h; contradiction
    | ok c =>
      rw [hconfig] at h
      obtain rfl := Except.ok.inj h
      exact .inl rfl

/-- The mode that a thread was started in is that of a value which its callback has read. -/
theorem RunService.readsMode {events : List (RunServiceEvent ι)} {process : ProcessState W}
    {batch : ι → ImageBatch} {last : RunService ι W}
    (h : Execution.run (runServiceStep platform libs) events (.start process batch) = .ok last)
    {i : ι} {mode : RunMode} (hstarted : (last.control.agent i).started = some mode) :
    ReadsMode platform libs events (.start process batch) i mode := by
  refine Execution.run_history (fun events s => ∀ mode,
    (s.control.agent i).callback.decided = some mode ∨ (s.control.agent i).started = some mode →
      ReadsMode platform libs events (.start process batch) i mode) ?_ ?_ events last h mode
    (.inr hstarted)
  · rintro mode (hdecided | hstarted)
    · exact absurd hdecided (Option.some_ne_none mode).symm
    · exact absurd hstarted (Option.some_ne_none mode).symm
  · intro earlier event middle next hmiddle hearlier hstep mode hmode
    have hextend (hmode : (middle.control.agent i).callback.decided = some mode ∨
        (middle.control.agent i).started = some mode) :
        ReadsMode platform libs (earlier ++ [event]) (.start process batch) i mode := by
      obtain ⟨before, succeeds, later, state, rfl, hread⟩ := hearlier mode hmode
      exact ⟨before, succeeds, later ++ [event], state, by simp, hread⟩
    rcases runServiceStep_control hstep with hsame | ⟨j, action, hcontrol, hevent⟩
    · rw [hsame] at hmode
      exact hextend hmode
    · obtain ⟨hlocal, hothers⟩ := Agents.step_eq_ok hcontrol
      by_cases hj : i = j
      · subst hj
        rcases (controlStep_eq_some hlocal).decided hmode with
          hbefore | ⟨⟨succeeds, haction⟩, hphase, rfl⟩
        · exact hextend hbefore
        · rw [hevent succeeds haction]
          exact ⟨earlier, succeeds, [], middle, rfl, hmiddle, hphase, rfl⟩
      · rw [hothers i hj] at hmode
        exact hextend hmode

variable (platform libs)

/-- In every interleaving of callbacks and threads in which the configuration is changed between two
runs only, what the threads have done, whenever the flag is down, is a sequence of calls of
`process_one` and `process_all`: one for each run that was started and has released the flag, in
this order and in the mode of the run, which is that of the value that its callback has read. -/
theorem runService_serial (events : List (RunServiceEvent ι)) (process : ProcessState W)
    (batch : ι → ImageBatch)
    (hbetween : Execution.Along (runServiceStep platform libs) BetweenRuns events
      (.start process batch)) (last : RunService ι W)
    (h : Execution.run (runServiceStep platform libs) events (.start process batch) = .ok last)
    (hdown : last.control.shared.isProcessing = false) :
    ∃ ops, Execution.run (threadStep platform libs) ops process = .ok last.process ∧
      ops.filterMap ThreadOp.mode = last.served.map Prod.snd ∧
      (last.served.map Prod.fst).Nodup ∧ (∀ i mode, (i, mode) ∈ last.served ↔
        (last.control.agent i).thread.Released ∧ (last.control.agent i).mode = mode) ∧
      ∀ i mode, (i, mode) ∈ last.served →
        ReadsMode platform libs events (.start process batch) i mode := by
  have hstart : (RunService.start process batch : RunService ι W).Serial platform libs process []
      process :=
    ⟨rfl, rfl, Control.boot_disciplined, fun _ => rfl,
      fun _ => .of_not_owns (Or.elim · id id) _ _ _, List.nodup_nil,
      fun i mode => ⟨nofun, fun hreleased => hreleased.1.elim⟩⟩
  obtain ⟨ops, base, hlast⟩ := Execution.run_invariant_along
    (fun s : RunService ι W => ∃ ops base, s.Serial platform libs process ops base) BetweenRuns
    (fun _ _ _ ⟨_, _, hs⟩ hbetween hstep => hs.step hbetween hstep) events _ last
    ⟨[], process, hstart⟩ hbetween h
  refine ⟨ops, ?_, hlast.modes, hlast.once, hlast.served_iff, fun i mode hserved => ?_⟩
  · rw [hlast.idle hdown]
    exact hlast.done
  · obtain ⟨hreleased, rfl⟩ := (hlast.served_iff i mode).mp hserved
    have hcreated : (last.control.agent i).thread ≠ .notCreated := by
      intro hnone
      rw [hnone] at hreleased
      exact hreleased
    obtain ⟨mode, hstarted⟩ :=
      Option.isSome_iff_exists.mp ((hlast.disciplined.wellFormed i).started.mpr hcreated)
    rw [Invocation.mode, hstarted]
    exact RunService.readsMode h hstarted

/-- A command for all messages, and its thread up to the store. -/
def sampleRunEvents : List (RunServiceEvent Bool) :=
  .write false 2 :: (List.replicate 6 (.callback false true) ++ List.replicate 3 (.thread false))

/-- On an empty queue it is one call of `process_all` that does not wait. -/
theorem runService_serial_sample :
    ∃ last : RunService Bool Unit, Execution.run (runServiceStep samplePlatform definitionLibraries)
        sampleRunEvents (.start (sampleState []) fun _ => ⟨0, 0, 0, 0, 0, 0⟩) = .ok last ∧
      last.process.config.err.logStatus = 201000 ∧
      ∃ ops, Execution.run (threadStep samplePlatform definitionLibraries) ops (sampleState []) =
          .ok last.process ∧
        ops.filterMap ThreadOp.mode = [⟨true, false⟩] := by
  have hbetween : Execution.Along (runServiceStep samplePlatform definitionLibraries) BetweenRuns
      sampleRunEvents (.start (sampleState []) fun _ => ⟨0, 0, 0, 0, 0, 0⟩) := by
    apply Execution.Along.of_forall
    intro event hevent s
    have hevents : ∀ event ∈ sampleRunEvents, ∀ op, event ≠ .config op := by
      simp [sampleRunEvents]
    cases event with
    | config op => exact absurd rfl (hevents _ hevent op)
    | _ => trivial
  obtain ⟨ops, hrun, hmodes, -⟩ := runService_serial samplePlatform definitionLibraries
    sampleRunEvents (sampleState []) (fun _ => ⟨0, 0, 0, 0, 0, 0⟩) hbetween _ rfl rfl
  exact ⟨_, rfl, rfl, ops, hrun, hmodes⟩

end Dipp
