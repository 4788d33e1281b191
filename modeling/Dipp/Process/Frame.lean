import Dipp.Config.Coherence
import Dipp.Process.Queue

/-!
# What processing leaves alone

Processing a batch reads the stored parameters and the tables and changes neither, however
its system calls and modules end. Of the configuration it touches the error state only,
and it may invalidate the cache, which the next rebuild makes up for. So in every state
that the processing thread reaches, a cache that is marked as set up shows the storage.
-/

namespace Dipp

variable {W : Type*}

/-- The configuration apart from the errors and the flag, which may only be lowered. -/
structure TablesKept (c c' : ConfigState) : Prop where
  pipelineParams : c'.pipelineParams = c.pipelineParams
  moduleParams : c'.moduleParams = c.moduleParams
  pipelines : c'.pipelines = c.pipelines
  moduleParameterLists : c'.moduleParameterLists = c.moduleParameterLists
  isSetup : c'.isSetup = true → c.isSetup = true

/-- An unchanged configuration keeps its tables. -/
theorem TablesKept.refl (c : ConfigState) : TablesKept c c := ⟨rfl, rfl, rfl, rfl, id⟩

/-- What keeps the tables twice keeps them. -/
theorem TablesKept.trans {c c' c'' : ConfigState} (h : TablesKept c c') (h' : TablesKept c' c'') :
    TablesKept c c'' where
  pipelineParams := h'.pipelineParams.trans h.pipelineParams
  moduleParams := h'.moduleParams.trans h.moduleParams
  pipelines := h'.pipelines.trans h.pipelines
  moduleParameterLists := h'.moduleParameterLists.trans h.moduleParameterLists
  isSetup := fun hsetup => h.isSetup (h'.isSetup hsetup)

/-- Reporting an error keeps the tables. -/
theorem TablesKept.with_err (c : ConfigState) (err : ErrorState) :
    TablesKept c { c with err := err } := ⟨rfl, rfl, rfl, rfl, id⟩

/-- Invalidating the cache keeps them as well. -/
theorem TablesKept.with_invalidateCache (c : ConfigState) : TablesKept c (invalidateCache c) :=
  ⟨rfl, rfl, rfl, rfl, fun h => absurd h Bool.false_ne_true⟩

/-- A relation that every single update respects which processing a batch makes. -/
structure Unaffected (kept : ProcessState W → ProcessState W → Prop) : Prop where
  refl : ∀ s, kept s s
  trans : ∀ {s s' s''}, kept s s' → kept s' s'' → kept s s''
  err : ∀ s err, kept s { s with config := { s.config with err := err } }
  invalidateCache : ∀ s, kept s s.invalidateCache
  surroundings : ∀ s world outputPipe errorPipe descriptors calls ring removed,
    kept s ⟨s.config, world, outputPipe, errorPipe, descriptors, calls, ring, s.queue, removed⟩

/-- Keeping the tables is such a relation. -/
theorem TablesKept.unaffected :
    Unaffected fun s s' : ProcessState W => TablesKept s.config s'.config where
  refl := fun s => .refl s.config
  trans := fun h h' => h.trans h'
  err := fun s err => .with_err s.config err
  invalidateCache := fun s => .with_invalidateCache s.config
  surroundings := fun s _ _ _ _ _ _ _ => .refl s.config

/-- So is keeping the queue. -/
theorem queue_unaffected : Unaffected fun s s' : ProcessState W => s'.queue = s.queue where
  refl := fun _ => rfl
  trans := fun h h' => h'.trans h
  err := fun _ _ => rfl
  invalidateCache := fun _ => rfl
  surroundings := fun _ _ _ _ _ _ _ _ => rfl

section Unaffected

variable (platform : Platform W) (libs : Libraries) {kept : ProcessState W → ProcessState W → Prop}
  (hkept : Unaffected kept)

include hkept

/-- Reading a pipe changes nothing but the pipe. -/
theorem Unaffected.read (name : PipeName) (count : ℕ) (s : ProcessState W) :
    kept s (s.read platform name count).2 := by
  unfold ProcessState.read
  split
  · exact hkept.refl s
  · cases name <;> exact hkept.surroundings s _ _ _ _ _ _ _

/-- A child process changes the world, the pipes and the calls. -/
theorem Unaffected.forkAndWait (stage : Stage) (input : ImageBatch) (s : ProcessState W) :
    kept s (forkAndWait platform stage input s).2 := by
  unfold Dipp.forkAndWait
  dsimp only
  split
  · split <;> exact hkept.surroundings s _ _ _ _ _ _ _
  · exact hkept.surroundings s _ _ _ _ _ _ _

/-- Reporting the exit of a module reads a pipe and sets the error. -/
theorem Unaffected.reportExit {s s' : ProcessState W} (h : reportExit platform s = .ok s') :
    kept s s' := by
  have hread := hkept.read platform .error 2 s
  unfold Dipp.reportExit at h
  generalize s.read platform .error 2 = got at hread h
  obtain ⟨result, after⟩ := got
  refine hkept.trans hread ?_
  cases result with
  | blocks => contradiction
  | failed => obtain rfl := Except.ok.inj h; exact hkept.err _ _
  | endOfFile => obtain rfl := Except.ok.inj h; exact hkept.err _ _
  | bytes data => obtain rfl := Except.ok.inj h; exact hkept.err _ _

/-- Executing one module respects the relation. -/
theorem Unaffected.executeModuleInProcess {stage : Stage} {input : ImageBatch}
    {s s' : ProcessState W} {status : Status}
    (h : executeModuleInProcess platform stage input s = .ok (status, s')) : kept s s' := by
  have hwaited := hkept.forkAndWait platform stage input s
  unfold Dipp.executeModuleInProcess at h
  generalize Dipp.forkAndWait platform stage input s = waited at hwaited h
  obtain ⟨waitStatus, after⟩ := waited
  dsimp only at h hwaited
  refine hkept.trans hwaited ?_
  cases waitStatus with
  | exited exitStatus =>
    dsimp only at h
    split at h
    · cases hreport : Dipp.reportExit platform after with
      | error stop => rw [hreport] at h; contradiction
      | ok reported =>
        rw [hreport] at h
        obtain ⟨rfl, rfl⟩ := Prod.mk.inj (Except.ok.inj h)
        exact hkept.trans (hkept.reportExit platform hreport) (hkept.invalidateCache _)
    · obtain ⟨rfl, rfl⟩ := Prod.mk.inj (Except.ok.inj h)
      exact hkept.refl _
  | signaled =>
    obtain ⟨rfl, rfl⟩ := Prod.mk.inj (Except.ok.inj h)
    exact hkept.trans (hkept.err _ _) (hkept.invalidateCache _)

/-- Taking its result does so too. -/
theorem Unaffected.takeResult {batch : ImageBatch} {s s' : ProcessState W}
    {next : Option ImageBatch} (h : takeResult platform batch s = .ok (next, s')) : kept s s' := by
  have hread := hkept.read platform .output sizeofImageBatch s
  unfold Dipp.takeResult at h
  generalize s.read platform .output sizeofImageBatch = got at hread h
  obtain ⟨result, after⟩ := got
  refine hkept.trans hread ?_
  cases result with
  | blocks => contradiction
  | failed => obtain ⟨rfl, rfl⟩ := Prod.mk.inj (Except.ok.inj h); exact hkept.err _ _
  | endOfFile => obtain ⟨rfl, rfl⟩ := Prod.mk.inj (Except.ok.inj h); exact hkept.err _ _
  | bytes data => obtain ⟨rfl, rfl⟩ := Prod.mk.inj (Except.ok.inj h); exact hkept.refl _

/-- So does the loop over the modules. -/
theorem Unaffected.executeModules (pipeline : Pipeline) (remaining i : ℕ) (batch : ImageBatch)
    (s : ProcessState W) (outcome : Outcome W)
    (h : executeModules platform pipeline remaining i batch s = .ok outcome) :
    kept s outcome.state := by
  induction remaining generalizing i batch s with
  | zero => obtain rfl := Except.ok.inj h; exact hkept.surroundings s _ _ _ _ _ _ _
  | succ remaining ih =>
    rw [Dipp.executeModules] at h
    split at h
    · rename_i hi
      have hcurrent : kept s (s.atModule i) := hkept.err s _
      dsimp only at h
      cases hexecute : Dipp.executeModuleInProcess platform
          ((s.atModule i).config.stageOf (pipeline.modules ⟨i, hi⟩)) batch (s.atModule i) with
      | error stop => rw [hexecute] at h; contradiction
      | ok executed =>
        obtain ⟨status, ran⟩ := executed
        have hran := hkept.trans hcurrent (hkept.executeModuleInProcess platform hexecute)
        rw [hexecute] at h
        cases status with
        | failure =>
          obtain rfl := Except.ok.inj h
          exact hkept.trans hran (hkept.surroundings ran _ _ _ _ _ _ _)
        | success =>
          dsimp only at h
          cases htake : Dipp.takeResult platform batch ran with
          | error stop => rw [htake] at h; contradiction
          | ok got =>
            obtain ⟨next, taken⟩ := got
            have htaken := hkept.trans hran (hkept.takeResult platform htake)
            rw [htake] at h
            cases next with
            | none => obtain rfl := Except.ok.inj h; exact htaken
            | some next => exact hkept.trans htaken (ih (i + 1) next taken h)
    · contradiction

/-- Executing a pipeline opens the pipes and runs its modules. -/
theorem Unaffected.executePipeline (pipeline : Pipeline) (batch : ImageBatch)
    (s : ProcessState W) (outcome : Outcome W)
    (h : executePipeline platform pipeline batch s = .ok outcome) : kept s outcome.state := by
  have hopen : kept s (openPipes platform s).2 := by
    unfold openPipes
    split
    · dsimp only
      split <;> exact hkept.surroundings s _ _ _ _ _ _ _
    · exact hkept.refl s
  unfold Dipp.executePipeline at h
  generalize openPipes platform s = opened at hopen h
  obtain ⟨opens, after⟩ := opened
  refine hkept.trans hopen ?_
  cases opens with
  | false => obtain rfl := Except.ok.inj h; exact hkept.err _ _
  | true => exact hkept.executeModules platform pipeline _ _ _ _ _ h

/-- Looking it up first changes nothing about that. -/
theorem Unaffected.loadPipelineAndExecute (batch : ImageBatch) (s : ProcessState W)
    (outcome : Outcome W) (h : loadPipelineAndExecute platform batch s = .ok outcome) :
    kept s outcome.state := by
  unfold Dipp.loadPipelineAndExecute at h
  split at h
  · obtain rfl := Except.ok.inj h
    exact hkept.err _ _
  · exact hkept.trans (hkept.err s _) (hkept.executePipeline platform _ _ _ _ h)

/-- Removing a segment reports errors and counts the removed segments. -/
theorem Unaffected.removeSegment (shmid : Int32) (s : ProcessState W) :
    kept s (removeSegment platform shmid s) := by
  unfold Dipp.removeSegment
  split <;> dsimp only <;> split
  · exact hkept.surroundings s _ _ _ _ _ _ _
  · exact hkept.err _ _
  · exact hkept.trans (hkept.err s _) (hkept.surroundings _ _ _ _ _ _ _ _)
  · exact hkept.trans (hkept.err s _) (hkept.err _ _)

/-- Uploading touches the ring only. -/
theorem Unaffected.uploadToRing {mem : Mapped.Memory} {batch : ImageBatch}
    {s s' : ProcessState W} (h : uploadToRing libs mem batch s = .ok s') : kept s s' := by
  unfold Dipp.uploadToRing at h
  split at h
  · contradiction
  · obtain rfl := Except.ok.inj h
    exact hkept.surroundings s _ _ _ _ _ _ _

/-- Processing a batch respects every such relation. -/
theorem Unaffected.process {batch batch' : ImageBatch} {s s' : ProcessState W}
    (h : process platform libs batch s = .ok (batch', s')) : kept s s' := by
  unfold Dipp.process at h
  cases hload : Dipp.loadPipelineAndExecute platform batch s with
  | error stop => rw [hload] at h; contradiction
  | ok outcome =>
    have hexecuted := hkept.loadPipelineAndExecute platform batch s outcome hload
    obtain ⟨status, out, executed⟩ := outcome
    rw [hload] at h
    dsimp only at h hexecuted
    generalize platform.shmat executed.world out.shmid = attach at h
    obtain ⟨attachment, w⟩ := attach
    have hattached : kept s { executed.outsidePipeline with world := w } :=
      hkept.trans (hkept.trans hexecuted (hkept.err executed _))
        (hkept.surroundings _ w _ _ _ _ _ _)
    cases attachment with
    | null =>
      obtain ⟨rfl, rfl⟩ := Prod.mk.inj (Except.ok.inj h)
      exact hkept.trans hattached (hkept.err _ _)
    | _ =>
      cases status with
      | failure =>
        obtain ⟨rfl, rfl⟩ := Prod.mk.inj (Except.ok.inj h)
        exact hkept.trans hattached (hkept.removeSegment platform _ _)
      | success =>
        dsimp only at h
        split at h
        · contradiction
        · rename_i uploaded huploaded
          obtain ⟨rfl, rfl⟩ := Prod.mk.inj (Except.ok.inj h)
          exact hkept.trans (hkept.trans hattached (hkept.uploadToRing libs huploaded))
            (hkept.removeSegment platform _ _)

end Unaffected

variable (platform : Platform W) (libs : Libraries)

/-- Processing a batch keeps the tables. -/
theorem process_tablesKept {batch batch' : ImageBatch} {s s' : ProcessState W}
    (h : process platform libs batch s = .ok (batch', s')) : TablesKept s.config s'.config :=
  TablesKept.unaffected.process platform libs h

/-- It keeps the queue as well. -/
theorem process_queue {batch batch' : ImageBatch} {s s' : ProcessState W}
    (h : process platform libs batch s = .ok (batch', s')) : s'.queue = s.queue :=
  queue_unaffected.process platform libs h

/-- Receiving a message does not touch more than the error state. -/
theorem getMessageFromQueue_tablesKept {doWait : Bool} {datarcv : ImageBatch}
    {s : ProcessState W} {outcome : Outcome W}
    (h : getMessageFromQueue doWait datarcv s = .ok outcome) :
    TablesKept s.config outcome.state.config := by
  unfold getMessageFromQueue at h
  split at h
  · obtain rfl := Except.ok.inj h
    exact .with_err _ _
  · split at h
    · split at h
      · contradiction
      · obtain rfl := Except.ok.inj h
        exact .with_err _ _
    · split at h
      · obtain rfl := Except.ok.inj h
        exact .refl _
      · obtain rfl := Except.ok.inj h
        exact .with_err _ _

/-- The cache, once it is marked as set up, shows the stored parameters. -/
def ConfigState.Coherent (c : ConfigState) : Prop :=
  WriteThrough.Coherent (slotShows libs) c.abstract

/-- What keeps the tables keeps the cache coherent. -/
theorem TablesKept.coherent {c c' : ConfigState} (h : TablesKept c c') (hc : c.Coherent libs) :
    c'.Coherent libs := by
  intro hsetup slot
  have hshows := hc (h.isSetup hsetup) slot
  have hstore : c'.abstract.store = c.abstract.store := by
    funext slot
    cases slot with
    | pipeline k => exact congrFun h.pipelineParams k
    | module j => exact congrFun h.moduleParams j
  have hview : c'.abstract.view = c.abstract.view := by
    funext slot
    cases slot with
    | pipeline k => exact congrArg Pipeline.slotView (congrFun h.pipelines k)
    | module j => exact congrArg SlotView.module (congrFun h.moduleParameterLists j)
  rw [hstore, hview]
  exact hshows

/-- A command whose allocations succeed keeps the cache coherent. -/
theorem commandStep_coherent {c c' : ConfigState} {command : Command} (halloc : command.Allocates)
    (h : commandStep libs c command = .ok c') (hc : c.Coherent libs) : c'.Coherent libs := by
  obtain ⟨op, hfaithful, hop⟩ := commandStep_refines libs c c' command halloc h
  rw [ConfigState.Coherent, hop]
  exact WriteThrough.coherent_step c.abstract op hc hfaithful

/-- Memory never runs out during a rebuild. -/
def Platform.Allocates : Prop := ∀ w, (platform.rebuildEnv w).Succeeds

variable {platform}

/-- Setting up the cache keeps it coherent. -/
theorem setupCache_coherent (hplatform : platform.Allocates) {s s' : ProcessState W}
    (h : setupCache platform libs s = .ok s') (hs : s.config.Coherent libs) :
    s'.config.Coherent libs := by
  unfold setupCache at h
  cases hsetup : setupCacheIfNeeded libs (platform.rebuildEnv s.world) s.config with
  | error stop => rw [hsetup] at h; contradiction
  | ok config =>
    rw [hsetup] at h
    obtain rfl := Except.ok.inj h
    have hstep : commandStep libs s.config (.setupCacheIfNeeded (platform.rebuildEnv s.world)) =
        .ok config := Execution.run_cons_ok [] hsetup
    have halloc : (Command.setupCacheIfNeeded (platform.rebuildEnv s.world)).Allocates :=
      hplatform s.world
    exact commandStep_coherent libs halloc hstep hs

/-- Processing one message keeps the cache coherent. -/
theorem processOne_coherent (hplatform : platform.Allocates) {doWait : Bool} {datarcv : ImageBatch}
    {s s' : ProcessState W} (h : processOne platform libs doWait datarcv s = .ok s')
    (hs : s.config.Coherent libs) : s'.config.Coherent libs := by
  unfold processOne at h
  cases hsetup : setupCache platform libs s with
  | error stop => rw [hsetup] at h; contradiction
  | ok ready =>
    have hready := setupCache_coherent libs hplatform hsetup hs
    rw [hsetup] at h
    dsimp only at h
    cases hreceive : getMessageFromQueue doWait datarcv ready with
    | error stop => rw [hreceive] at h; contradiction
    | ok outcome =>
      have hreceived := (getMessageFromQueue_tablesKept hreceive).coherent libs hready
      obtain ⟨status, batch, received⟩ := outcome
      rw [hreceive] at h
      cases status with
      | failure => obtain rfl := Except.ok.inj h; exact hreceived
      | success =>
        dsimp only at h
        cases hprocess : process platform libs batch received with
        | error stop => rw [hprocess] at h; contradiction
        | ok processed =>
          rw [hprocess] at h
          obtain rfl := Except.ok.inj h
          exact (process_tablesKept platform libs hprocess).coherent libs hreceived

/-- So does processing messages until none is left. -/
theorem processAll_coherent (hplatform : platform.Allocates) {doWait : Bool} (fuel : ℕ)
    {datarcv batch : ImageBatch} {s s' : ProcessState W}
    (h : processAll platform libs doWait fuel datarcv s = .ok (batch, s'))
    (hs : s.config.Coherent libs) : s'.config.Coherent libs := by
  induction fuel generalizing datarcv s with
  | zero => contradiction
  | succ fuel ih =>
    rw [processAll] at h
    cases hreceive : getMessageFromQueue doWait datarcv s with
    | error stop => rw [hreceive] at h; contradiction
    | ok outcome =>
      have hreceived := (getMessageFromQueue_tablesKept hreceive).coherent libs hs
      obtain ⟨status, message, received⟩ := outcome
      rw [hreceive] at h
      cases status with
      | failure =>
        obtain ⟨rfl, rfl⟩ := Prod.mk.inj (Except.ok.inj h)
        exact hreceived
      | success =>
        dsimp only at h
        cases hsetup : setupCache platform libs received with
        | error stop => rw [hsetup] at h; contradiction
        | ok ready =>
          have hready := setupCache_coherent libs hplatform hsetup hreceived
          rw [hsetup] at h
          dsimp only at h
          cases hprocess : process platform libs message ready with
          | error stop => rw [hprocess] at h; contradiction
          | ok processed =>
            rw [hprocess] at h
            exact ih h ((process_tablesKept platform libs hprocess).coherent libs hready)

variable (platform)

/-- The states of the processing thread between two calls, in any process: after start, after
commands, after whatever else happens to the queue and the world, and after processing. -/
inductive Reachable : ProcessState W → Prop where
  | boot (pipelineParams : Fin maxPipelines → ParamData)
      (moduleParams : Fin maxModules → ParamData) (logStatus : UInt32) (w : W)
      (queue : Option (List Message)) :
      Reachable (.boot (.boot pipelineParams moduleParams logStatus) w queue)
  | command (s : ProcessState W) (command : Command) (c : ConfigState) (hs : Reachable s)
      (halloc : command.Allocates) (h : commandStep libs s.config command = .ok c) :
      Reachable { s with config := c }
  | elsewhere (s : ProcessState W) (w : W) (queue : Option (List Message)) (hs : Reachable s) :
      Reachable { s with world := w, queue := queue }
  | processOne (s s' : ProcessState W) (doWait : Bool) (datarcv : ImageBatch) (hs : Reachable s)
      (h : processOne platform libs doWait datarcv s = .ok s') : Reachable s'
  | processAll (s s' : ProcessState W) (doWait : Bool) (fuel : ℕ) (datarcv batch : ImageBatch)
      (hs : Reachable s) (h : processAll platform libs doWait fuel datarcv s = .ok (batch, s')) :
      Reachable s'

variable {platform}

/-- In every reachable state the cache is coherent. -/
theorem Reachable.coherent (hplatform : platform.Allocates) {s : ProcessState W}
    (hs : Reachable platform libs s) : s.config.Coherent libs := by
  induction hs with
  | boot pipelineParams moduleParams logStatus w queue =>
    exact fun hfresh => absurd hfresh Bool.false_ne_true
  | command s command c hs halloc h ih => exact commandStep_coherent libs halloc h ih
  | elsewhere s w queue hs ih => exact ih
  | processOne s s' doWait datarcv hs h ih => exact processOne_coherent libs hplatform h ih
  | processAll s s' doWait fuel datarcv batch hs h ih =>
    exact processAll_coherent libs hplatform fuel h ih

end Dipp
