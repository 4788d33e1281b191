import Dipp.Process.Execute

/-!
# One module of a pipeline run

With system calls that succeed, one pass of the module loop is determined by what the
module does and by the codes that earlier modules left in the error pipe. There are
four cases: the module returns and the loop goes on, the module is killed, its exit is
reported with the oldest code in the error pipe, or the parent waits for bytes that
nobody will write.
-/

namespace Dipp

open LittleEndian

variable {W : Type*}

/-- What changes neither in a module run nor in its report: the configuration apart from flag and
errors, the ring, the queue, and the segments. The world and the calls move on. -/
structure Advanced (s s' : ProcessState W)
    (steps : List (Stages.Step Stage ImageBatch ModuleRun)) (w : W) : Prop where
  pipelineParams : s'.config.pipelineParams = s.config.pipelineParams
  moduleParams : s'.config.moduleParams = s.config.moduleParams
  pipelines : s'.config.pipelines = s.config.pipelines
  moduleParameterLists : s'.config.moduleParameterLists = s.config.moduleParameterLists
  ring : s'.ring = s.ring
  queue : s'.queue = s.queue
  removed : s'.removed = s.removed
  world : s'.world = w
  calls : s'.calls = s.calls ++ steps

/-- Two advances in a row are one. -/
theorem Advanced.trans {s s' s'' : ProcessState W}
    {steps steps' : List (Stages.Step Stage ImageBatch ModuleRun)} {w w' : W}
    (h : Advanced s s' steps w) (h' : Advanced s' s'' steps' w') :
    Advanced s s'' (steps ++ steps') w' where
  pipelineParams := h'.pipelineParams.trans h.pipelineParams
  moduleParams := h'.moduleParams.trans h.moduleParams
  pipelines := h'.pipelines.trans h.pipelines
  moduleParameterLists := h'.moduleParameterLists.trans h.moduleParameterLists
  ring := h'.ring.trans h.ring
  queue := h'.queue.trans h.queue
  removed := h'.removed.trans h.removed
  world := h'.world
  calls := by rw [h'.calls, h.calls, List.append_assoc]

/-- What advances from a state does so from the same state with another error state. -/
theorem Advanced.of_err {s s' : ProcessState W} {err : ErrorState}
    {steps : List (Stages.Step Stage ImageBatch ModuleRun)} {w : W}
    (h : Advanced { s with config := { s.config with err := err } } s' steps w) :
    Advanced s s' steps w :=
  ⟨h.pipelineParams, h.moduleParams, h.pipelines, h.moduleParameterLists, h.ring, h.queue,
    h.removed, h.world, h.calls⟩

/-- Closing pipes, reporting an error and setting the flag do not undo an advance. -/
theorem Advanced.with_pipes {s s' : ProcessState W}
    {steps : List (Stages.Step Stage ImageBatch ModuleRun)} {w : W} (h : Advanced s s' steps w)
    (isSetup : Bool) (err : ErrorState) (output error : PipeEnds) (descriptors : Finset ℕ) :
    Advanced s { s' with
      config := { s'.config with isSetup := isSetup, err := err }
      outputPipe := output
      errorPipe := error
      descriptors := descriptors } steps w :=
  ⟨h.pipelineParams, h.moduleParams, h.pipelines, h.moduleParameterLists, h.ring, h.queue,
    h.removed, h.world, h.calls⟩

/-- The result a module returned, put into the batch it was given. -/
def ModuleRun.result (batch : ImageBatch) (moduleRun : ModuleRun) : Option ImageBatch :=
  match moduleRun.ending with
  | .returned result => some (batch.withResult result)
  | _ => none

/-- A next batch comes from a module that returned. -/
theorem ModuleRun.result_eq_some {moduleRun : ModuleRun} {batch next : ImageBatch} :
    moduleRun.result batch = some next ↔
      ∃ result, moduleRun.ending = .returned result ∧ batch.withResult result = next := by
  unfold result
  cases moduleRun.ending <;> simp

/-- A module that did not return wrote no result. -/
theorem ModuleRun.resultBytes_of_result {moduleRun : ModuleRun} {batch : ImageBatch}
    (h : moduleRun.result batch = none) : moduleRun.resultBytes = [] := by
  unfold result at h
  unfold resultBytes
  cases hending : moduleRun.ending with
  | returned result => simp [hending] at h
  | exited status => rfl
  | killed => rfl
  | timedOut => rfl

/-- The error reported for a module's code. -/
def codeReport (code : UInt16) : UInt32 :=
  if code < 100 then ErrorCode.moduleExitCustom.value + code.toUInt32 else code.toUInt32

/-- An error code occupies two bytes. -/
@[simp] theorem length_codeBytes (code : UInt16) : (codeBytes code).length = 2 := length_encode 2 _

/-- The parent reports a code as it was written. -/
theorem moduleErrorCode_codeBytes (code : UInt16) :
    moduleErrorCode (codeBytes code) = codeReport code := by
  have hdecode : decode (codeBytes code) = code.toNat := decode_encode_of_lt code.toNat_lt
  have hcode : UInt32.ofNat code.toNat = code.toUInt32 := UInt32.ofNat_uInt16ToNat code
  have hsmall : (code.toUInt32 < 100) ↔ code < 100 := by
    rw [UInt32.lt_iff_toNat_lt, UInt16.lt_iff_toNat_lt, UInt16.toNat_toUInt32]
    rfl
  simp only [moduleErrorCode, codeReport, hdecode, hcode, hsmall]

variable (platform : Platform W)

/-- What is observed of a module: its run in the child that `fork` creates. -/
def observe (w : W) (stage : Stage) (batch : ImageBatch) : ModuleRun × W :=
  platform.runStage (platform.fork w).2 stage batch

/-- The pipes while no child runs: what the output pipe and the error pipe hold, with write ends
at the parent only. -/
structure ProcessState.PipesHold (s : ProcessState W) (result : List UInt8)
    (pending : List UInt16) : Prop where
  output : s.outputPipe.pipe = ⟨result, {.parent}⟩
  error : s.errorPipe.pipe = ⟨pending.flatMap codeBytes, {.parent}⟩

/-- The child writes and exits; the parent keeps its write end. -/
theorem PipeEnds.afterChild_pipe (bytes : List UInt8) {ends : PipeEnds} {content : List UInt8}
    (h : ends.pipe = ⟨content, {.parent}⟩) :
    (ends.afterChild bytes).pipe = ⟨content ++ bytes, {.parent}⟩ := by
  have hne : Holder.child ≠ Holder.parent := nofun
  rw [afterChild, Posix.Pipe.inherit_write_close hne bytes _ (by rw [h]), h]

/-- With `fork` and `waitpid` succeeding, the parent sees how the module ended, and the pipes hold
what it wrote. -/
theorem forkAndWait_eq (hreliable : platform.Reliable) (stage : Stage) (input : ImageBatch)
    (s : ProcessState W) (pending : List UInt16) (hpipes : s.PipesHold [] pending) :
    ∃ s', forkAndWait platform stage input s =
        ((observe platform s.world stage input).1.waitStatus, s') ∧
      Advanced s s' [⟨stage, input, (observe platform s.world stage input).1⟩]
        (observe platform s.world stage input).2 ∧
      s'.config.err = s.config.err ∧ s'.config.isSetup = s.config.isSetup ∧
      s'.PipesHold (observe platform s.world stage input).1.resultBytes
        (pending ++ (observe platform s.world stage input).1.writtenCodes) := by
  refine ⟨(runChild platform stage input { s with world := (platform.fork s.world).2 }).2,
    ?_, ⟨rfl, rfl, rfl, rfl, rfl, rfl, rfl, rfl, rfl⟩, rfl, rfl, ?_, ?_⟩
  · simp only [forkAndWait, hreliable.fork, hreliable.waitpidDelivers, if_true]
    rfl
  · exact PipeEnds.afterChild_pipe _ hpipes.output
  · rw [List.flatMap_append]
    exact PipeEnds.afterChild_pipe _ hpipes.error

/-- A pending code is read and reported. -/
theorem reportExit_code (hreliable : platform.Reliable) (s : ProcessState W)
    (result : List UInt8) (code : UInt16) (rest : List UInt16)
    (hpipes : s.PipesHold result (code :: rest)) :
    ∃ s', reportExit platform s = .ok s' ∧ Advanced s s' [] s.world ∧
      s'.config.err = setErrorParam (codeReport code) s.config.err := by
  have hread : s.errorPipe.pipe.read 2 =
      (.bytes (codeBytes code), ⟨rest.flatMap codeBytes, {.parent}⟩) := by
    rw [hpipes.error, List.flatMap_cons]
    exact Posix.Pipe.read_append (codeBytes code) _ _
      (List.ne_nil_of_length_pos (by rw [length_codeBytes]; decide))
  simp only [reportExit, ProcessState.read, hreliable.readFails, hread, Bool.false_eq_true,
    if_false, moduleErrorCode_codeBytes]
  exact ⟨_, rfl, ⟨rfl, rfl, rfl, rfl, rfl, rfl, rfl, rfl, (List.append_nil _).symm⟩, rfl⟩

/-- Without a pending code, the read of the error pipe waits for the parent itself. -/
theorem reportExit_blocked (hreliable : platform.Reliable) (s : ProcessState W)
    (result : List UInt8) (hpipes : s.PipesHold result []) :
    reportExit platform s = .error (.blockedRead .error ⟨[], {.parent}⟩) := by
  have hread : s.errorPipe.pipe.read 2 = (.blocks, ⟨[], {.parent}⟩) := by
    rw [hpipes.error]
    rfl
  simp only [reportExit, ProcessState.read, hreliable.readFails, hread, Bool.false_eq_true,
    if_false]

/-- What is reported of a module that failed, given the codes that were pending before: the crash,
or the oldest code in the error pipe, if there is one. -/
def ModuleRun.report (pending : List UInt16) (moduleRun : ModuleRun) : Option UInt32 :=
  match moduleRun.ending with
  | .killed => some ErrorCode.moduleExitCrash.value
  | _ => (pending ++ moduleRun.writtenCodes).head?.map codeReport

variable {platform} (s : ProcessState W) {stage : Stage} {batch : ImageBatch}
  {pending : List UInt16}

/-- A child with exit status zero counts as a success, whether or not it wrote a result. -/
theorem executeModuleInProcess_success (hreliable : platform.Reliable)
    (hpipes : s.PipesHold [] pending)
    (hstatus : (observe platform s.world stage batch).1.waitStatus = .exited 0) :
    ∃ s', executeModuleInProcess platform stage batch s = .ok (.success, s') ∧
      Advanced s s' [⟨stage, batch, (observe platform s.world stage batch).1⟩]
        (observe platform s.world stage batch).2 ∧
      s'.config.err = s.config.err ∧ s'.config.isSetup = s.config.isSetup ∧
      s'.PipesHold (observe platform s.world stage batch).1.resultBytes
        (pending ++ (observe platform s.world stage batch).1.writtenCodes) := by
  obtain ⟨s', hwait, hadvanced, herr, hsetup, hhold⟩ :=
    forkAndWait_eq platform hreliable stage batch s pending hpipes
  refine ⟨s', ?_, hadvanced, herr, hsetup, hhold⟩
  simp only [executeModuleInProcess, hwait, hstatus, ne_eq, not_true_eq_false, if_false]

/-- Another end of the child is a failure, reported if there is something to report. -/
theorem executeModuleInProcess_failure (hreliable : platform.Reliable)
    (hpipes : s.PipesHold [] pending)
    (hstatus : (observe platform s.world stage batch).1.waitStatus ≠ .exited 0) (code : UInt32)
    (hreport : (observe platform s.world stage batch).1.report pending = some code) :
    ∃ s', executeModuleInProcess platform stage batch s = .ok (.failure, s') ∧
      Advanced s s' [⟨stage, batch, (observe platform s.world stage batch).1⟩]
        (observe platform s.world stage batch).2 ∧
      s'.config.err = setErrorParam code s.config.err ∧ s'.config.isSetup = false := by
  obtain ⟨s', hwait, hadvanced, herr, -, hhold⟩ :=
    forkAndWait_eq platform hreliable stage batch s pending hpipes
  generalize observe platform s.world stage batch = seen at *
  obtain ⟨⟨codes, ending⟩, w⟩ := seen
  have hexit (status : UInt8) (hwaited : ModuleRun.waitStatus ⟨codes, ending⟩ = .exited status)
      (hending : ModuleRun.report pending ⟨codes, ending⟩ =
        (pending ++ ModuleRun.writtenCodes ⟨codes, ending⟩).head?.map codeReport) :
      ∃ s', executeModuleInProcess platform stage batch s = .ok (.failure, s') ∧
        Advanced s s' [⟨stage, batch, ⟨codes, ending⟩⟩] w ∧
        s'.config.err = setErrorParam code s.config.err ∧ s'.config.isSetup = false := by
    have hnonzero : status ≠ 0 := fun hzero => hstatus (hzero ▸ hwaited)
    rw [hending] at hreport
    obtain ⟨first, hfirst, rfl⟩ := Option.map_eq_some_iff.mp hreport
    obtain ⟨rest, hrest⟩ := List.head?_eq_some_iff.mp hfirst
    rw [hrest] at hhold
    obtain ⟨reported, hreported, hadvanced', herr'⟩ :=
      reportExit_code platform hreliable s' _ first rest hhold
    refine ⟨reported.invalidateCache, ?_, ?_, ?_, rfl⟩
    · simp only [executeModuleInProcess, hwait, hwaited, ne_eq, hnonzero, not_false_eq_true,
        if_true, hreported]
    · have h := hadvanced.trans hadvanced'
      rw [hadvanced.world] at h
      exact h.with_pipes _ _ _ _ _
    · exact herr'.trans (by rw [herr])
  cases ending with
  | returned result => exact absurd rfl hstatus
  | exited status => exact hexit status rfl rfl
  | timedOut => exact hexit 1 rfl rfl
  | killed =>
    obtain rfl := Option.some.inj hreport
    refine ⟨(s'.setErrorParam ErrorCode.moduleExitCrash.value).invalidateCache, ?_,
      hadvanced.with_pipes _ _ _ _ _, ?_, rfl⟩
    · simp only [executeModuleInProcess, hwait, ModuleRun.waitStatus]
    · exact congrArg (setErrorParam ErrorCode.moduleExitCrash.value) herr

/-- A failure with nothing to report makes the parent wait for itself. -/
theorem executeModuleInProcess_blocked (hreliable : platform.Reliable)
    (hpipes : s.PipesHold [] pending)
    (hstatus : (observe platform s.world stage batch).1.waitStatus ≠ .exited 0)
    (hreport : (observe platform s.world stage batch).1.report pending = none) :
    executeModuleInProcess platform stage batch s =
      .error (.blockedRead .error ⟨[], {.parent}⟩) := by
  obtain ⟨s', hwait, -, -, -, hhold⟩ :=
    forkAndWait_eq platform hreliable stage batch s pending hpipes
  generalize observe platform s.world stage batch = seen at *
  obtain ⟨⟨codes, ending⟩, w⟩ := seen
  have hexit (status : UInt8) (hwaited : ModuleRun.waitStatus ⟨codes, ending⟩ = .exited status)
      (hnone : pending ++ ModuleRun.writtenCodes ⟨codes, ending⟩ = []) :
      executeModuleInProcess platform stage batch s =
        .error (.blockedRead .error ⟨[], {.parent}⟩) := by
    have hnonzero : status ≠ 0 := fun hzero => hstatus (hzero ▸ hwaited)
    rw [hnone] at hhold
    simp only [executeModuleInProcess, hwait, hwaited, ne_eq, hnonzero, not_false_eq_true,
      if_true, reportExit_blocked platform hreliable s' _ hhold]
  cases ending with
  | returned result => exact absurd rfl hstatus
  | exited status =>
    exact hexit status rfl (by simpa [ModuleRun.report] using hreport)
  | timedOut => simp [ModuleRun.report, ModuleRun.writtenCodes] at hreport
  | killed => simp [ModuleRun.report] at hreport

/-- The result of a module that returned is read back as it was written. -/
theorem takeResult_returned (batch : ImageBatch) (hreliable : platform.Reliable)
    {result : ImageBatch} (hpipes : s.PipesHold result.toBytes pending) :
    ∃ s', takeResult platform batch s = .ok (some (batch.withResult result), s') ∧
      Advanced s s' [] s.world ∧ s'.config.err = s.config.err ∧
      s'.config.isSetup = s.config.isSetup ∧ s'.PipesHold [] pending := by
  have hread : s.outputPipe.pipe.read sizeofImageBatch =
      (.bytes result.toBytes, ⟨[], {.parent}⟩) := by
    have hne : result.toBytes ≠ [] :=
      List.ne_nil_of_length_pos (by rw [result.length_toBytes]; decide)
    have h := Posix.Pipe.read_append result.toBytes [] {Holder.parent} hne
    rwa [List.append_nil, result.length_toBytes, ← hpipes.output] at h
  simp only [takeResult, ProcessState.read, hreliable.readFails, hread, Bool.false_eq_true,
    if_false, ImageBatch.ofBytes_toBytes]
  exact ⟨_, rfl, ⟨rfl, rfl, rfl, rfl, rfl, rfl, rfl, rfl, (List.append_nil _).symm⟩, rfl, rfl,
    rfl, hpipes.error⟩

/-- Without a result, the read of the output pipe waits for the parent itself. -/
theorem takeResult_blocked (hreliable : platform.Reliable) (hpipes : s.PipesHold [] pending) :
    takeResult platform batch s = .error (.blockedRead .output ⟨[], {.parent}⟩) := by
  have hread : s.outputPipe.pipe.read sizeofImageBatch = (.blocks, ⟨[], {.parent}⟩) := by
    rw [hpipes.output]
    rfl
  simp only [takeResult, ProcessState.read, hreliable.readFails, hread, Bool.false_eq_true,
    if_false]

/-- Setting the current module changes neither pipes nor tables. -/
theorem ProcessState.PipesHold.atModule {s : ProcessState W} {result : List UInt8}
    (hpipes : s.PipesHold result pending) (i : ℕ) : (s.atModule i).PipesHold result pending :=
  ⟨hpipes.output, hpipes.error⟩

variable {pipeline : Pipeline} {i : ℕ}

/-- A module that returns hands its batch to the rest of the loop. -/
theorem executeModules_returned (hreliable : platform.Reliable) (hpipes : s.PipesHold [] pending)
    (h : i < maxModules) (hstage : s.config.stageOf (pipeline.modules ⟨i, h⟩) = stage)
    {next : ImageBatch}
    (hresult : (observe platform s.world stage batch).1.result batch = some next) (remaining : ℕ) :
    ∃ s', executeModules platform pipeline (remaining + 1) i batch s =
        executeModules platform pipeline remaining (i + 1) next s' ∧
      Advanced s s' [⟨stage, batch, (observe platform s.world stage batch).1⟩]
        (observe platform s.world stage batch).2 ∧
      s'.config.err = s.config.err.atModule i ∧ s'.config.isSetup = s.config.isSetup ∧
      s'.PipesHold [] (pending ++ (observe platform s.world stage batch).1.codes) := by
  obtain ⟨result, hending, rfl⟩ := ModuleRun.result_eq_some.mp hresult
  have hstatus : (observe platform s.world stage batch).1.waitStatus = .exited 0 := by
    rw [ModuleRun.waitStatus, hending]
  have hwritten : (observe platform s.world stage batch).1.writtenCodes =
      (observe platform s.world stage batch).1.codes := by
    rw [ModuleRun.writtenCodes, hending]
  have hbytes : (observe platform s.world stage batch).1.resultBytes = result.toBytes := by
    rw [ModuleRun.resultBytes, hending]
  obtain ⟨ran, hrun, hadvanced, herr, hsetup, hhold⟩ :=
    executeModuleInProcess_success (s.atModule i) hreliable (hpipes.atModule i) hstatus
  change ran.PipesHold (observe platform s.world stage batch).1.resultBytes
    (pending ++ (observe platform s.world stage batch).1.writtenCodes) at hhold
  rw [hbytes, hwritten] at hhold
  obtain ⟨taken, htaken, hadvanced', herr', hsetup', hhold'⟩ :=
    takeResult_returned ran batch hreliable hhold
  refine ⟨taken, ?_, ?_, herr'.trans herr, hsetup'.trans hsetup, hhold'⟩
  · have hcurrent : (s.atModule i).config.stageOf (pipeline.modules ⟨i, h⟩) = stage := hstage
    simp only [executeModules, dif_pos h, hcurrent, hrun, htaken]
  · have hboth := hadvanced.trans hadvanced'
    rw [hadvanced.world] at hboth
    exact hboth.of_err

/-- A module that fails ends the loop with its report. -/
theorem executeModules_failed (hreliable : platform.Reliable) (hpipes : s.PipesHold [] pending)
    (h : i < maxModules) (hstage : s.config.stageOf (pipeline.modules ⟨i, h⟩) = stage)
    (hstatus : (observe platform s.world stage batch).1.waitStatus ≠ .exited 0) {code : UInt32}
    (hreport : (observe platform s.world stage batch).1.report pending = some code)
    (remaining : ℕ) :
    ∃ s', executeModules platform pipeline (remaining + 1) i batch s = .ok ⟨.failure, batch, s'⟩ ∧
      Advanced s s' [⟨stage, batch, (observe platform s.world stage batch).1⟩]
        (observe platform s.world stage batch).2 ∧
      s'.config.err = setErrorParam code (s.config.err.atModule i) ∧
      s'.config.isSetup = false := by
  obtain ⟨failed, hrun, hadvanced, herr, hsetup⟩ := executeModuleInProcess_failure (s.atModule i)
    hreliable (hpipes.atModule i) hstatus code hreport
  refine ⟨failed.closePipes, ?_, ?_, herr, hsetup⟩
  · have hcurrent : (s.atModule i).config.stageOf (pipeline.modules ⟨i, h⟩) = stage := hstage
    simp only [executeModules, dif_pos h, hcurrent, hrun]
  · exact hadvanced.of_err.with_pipes _ _ _ _ _

/-- A module that neither returns nor leaves anything to report blocks the loop. -/
theorem executeModules_blocked (hreliable : platform.Reliable) (hpipes : s.PipesHold [] pending)
    (h : i < maxModules) (hstage : s.config.stageOf (pipeline.modules ⟨i, h⟩) = stage)
    (hresult : (observe platform s.world stage batch).1.result batch = none)
    (hstuck : (observe platform s.world stage batch).1.waitStatus = .exited 0 ∨
      (observe platform s.world stage batch).1.report pending = none)
    (remaining : ℕ) :
    ∃ name, executeModules platform pipeline (remaining + 1) i batch s =
      .error (.blockedRead name ⟨[], {.parent}⟩) := by
  have hcurrent : (s.atModule i).config.stageOf (pipeline.modules ⟨i, h⟩) = stage := hstage
  by_cases hstatus : (observe platform s.world stage batch).1.waitStatus = .exited 0
  · have hbytes := ModuleRun.resultBytes_of_result hresult
    obtain ⟨ran, hrun, -, -, -, hhold⟩ :=
      executeModuleInProcess_success (s.atModule i) hreliable (hpipes.atModule i) hstatus
    change ran.PipesHold (observe platform s.world stage batch).1.resultBytes
      (pending ++ (observe platform s.world stage batch).1.writtenCodes) at hhold
    rw [hbytes] at hhold
    exact ⟨.output, by simp only [executeModules, dif_pos h, hcurrent, hrun,
      takeResult_blocked ran hreliable hhold]⟩
  · have hblocked := executeModuleInProcess_blocked (s.atModule i) hreliable (hpipes.atModule i)
      hstatus (hstuck.resolve_left hstatus)
    exact ⟨.error, by simp only [executeModules, dif_pos h, hcurrent, hblocked]⟩

end Dipp
