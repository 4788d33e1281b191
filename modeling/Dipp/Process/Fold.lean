import Dipp.Process.Run

/-!
# Modules with a well-defined outcome

A module that returns writes no error code, and one that exits on its own writes exactly
one. On a platform with such modules, and with system calls that succeed, a run is
never blocked, and `log_status` names the module that failed and its own code.
-/

namespace Dipp

variable {W : Type*}

/-- The module returns without a code, is killed, exits with a non-zero status after one code, or
is stopped by the timeout. -/
def ModuleRun.Clean (moduleRun : ModuleRun) : Prop :=
  match moduleRun.ending with
  | .returned _ => moduleRun.codes = []
  | .exited status => status ≠ 0 ∧ ∃ code, moduleRun.codes = [code]
  | .killed => True
  | .timedOut => moduleRun.codes = []

/-- Every module behaves so on every batch. -/
def Platform.Clean (platform : Platform W) : Prop :=
  ∀ w function batch config, (platform.runModule w function batch config).1.Clean

/-- The batch that the module returned. -/
def ModuleRun.returned (moduleRun : ModuleRun) : Option ImageBatch :=
  match moduleRun.ending with
  | .returned result => some result
  | _ => none

/-- The error of a failed module: the crash, the timeout, or its own code, shifted to the custom
range if it is below 100. -/
def ModuleRun.failureCode (moduleRun : ModuleRun) : UInt32 :=
  match moduleRun.ending with
  | .killed => ErrorCode.moduleExitCrash.value
  | .timedOut => ErrorCode.moduleExitTimeout.value
  | _ => (moduleRun.codes.head?.map codeReport).getD ErrorCode.moduleExitNormal.value

/-- The batch that the last module to return has returned. -/
def lastReturned (steps : List ModuleStep) : Option ImageBatch :=
  (steps.filterMap fun step => step.observed.returned).getLast?

/-- A module yields a next batch exactly if it returned one. -/
theorem ModuleRun.result_eq_map (batch : ImageBatch) (moduleRun : ModuleRun) :
    moduleRun.result batch = moduleRun.returned.map batch.withResult := by
  unfold result returned
  cases moduleRun.ending <;> rfl

/-- One more step counts if it returned. -/
theorem lastReturned_concat (steps : List ModuleStep) (step : ModuleStep) :
    lastReturned (steps ++ [step]) = step.observed.returned.or (lastReturned steps) := by
  rw [lastReturned, lastReturned, List.filterMap_append, List.getLast?_append]
  congr 1
  cases hreturned : step.observed.returned <;> simp [hreturned]

/-- A run ends with the batch it was given, updated by the last module that returned. -/
theorem pipelineRun_value (platform : Platform W) (stages : List Stage) (batch : ImageBatch)
    (w : W) :
    (pipelineRun platform stages batch w).value =
      (lastReturned (pipelineRun platform stages batch w).steps).elim batch batch.withResult := by
  have hvalue : (pipelineRun platform stages batch w).value =
      (pipelineRun platform stages batch w).steps.foldl
        (fun v step => (step.observed.result v).getD v) batch :=
    Stages.run_value stages batch w
  rw [hvalue]
  generalize (pipelineRun platform stages batch w).steps = steps
  induction steps using List.reverseRecOn with
  | nil => rfl
  | append_singleton steps step ih =>
    rw [List.foldl_append, List.foldl_cons, List.foldl_nil, ih, lastReturned_concat,
      ModuleRun.result_eq_map]
    cases step.observed.returned with
    | none => rfl
    | some result => cases lastReturned steps <;> rfl

variable {platform : Platform W}

/-- A null function, which crashes the child, is as clean as the modules are. -/
theorem observe_clean (hclean : platform.Clean) (w : W) (stage : Stage) (batch : ImageBatch) :
    (observe platform w stage batch).1.Clean := by
  unfold observe Platform.runStage
  cases stage.function with
  | none => trivial
  | some function => exact hclean _ function batch stage.config

/-- A clean module that returned has left no code. -/
theorem ModuleRun.Clean.codes_of_returned {moduleRun : ModuleRun} (hclean : moduleRun.Clean)
    (h : moduleRun.returned.isSome) : moduleRun.codes = [] := by
  unfold returned at h
  unfold Clean at hclean
  cases hending : moduleRun.ending <;> simp_all

/-- The failure of a clean module on an empty error pipe is reported as its own. -/
theorem ModuleRun.Clean.report {moduleRun : ModuleRun} (hclean : moduleRun.Clean)
    (h : moduleRun.returned = none) :
    moduleRun.waitStatus ≠ .exited 0 ∧ moduleRun.report [] = some moduleRun.failureCode := by
  obtain ⟨codes, ending⟩ := moduleRun
  cases ending with
  | returned result => contradiction
  | exited status =>
    obtain ⟨hstatus, code, hcodes⟩ := hclean
    obtain rfl : codes = [code] := hcodes
    exact ⟨fun hzero => hstatus (WaitStatus.exited.inj hzero), rfl⟩
  | killed => exact ⟨nofun, rfl⟩
  | timedOut =>
    obtain rfl : codes = [] := hclean
    exact ⟨by simp [waitStatus], by decide⟩

/-- A run of clean modules that ends in a failure is reported with the code of its last module. -/
theorem finalReport_clean (earlier : List ModuleStep) (last : ModuleStep)
    (hearlier : ∀ step ∈ earlier, step.observed.codes = []) (hclean : last.observed.Clean)
    (hlast : last.observed.returned = none) :
    finalReport [] (earlier ++ [last]) = some last.observed.failureCode := by
  obtain ⟨hstatus, hreport⟩ := hclean.report hlast
  have hleft : (earlier.flatMap fun step => step.observed.codes) = [] :=
    List.flatMap_eq_nil_iff.mpr hearlier
  rw [finalReport_concat, if_neg hstatus, hleft, List.append_nil, hreport]

/-- A failed run of clean modules ends with the module that failed, and all others returned. -/
theorem pipelineRun_failed (hclean : platform.Clean) (stages : List Stage) (batch : ImageBatch)
    (w : W) (hfailed : (pipelineRun platform stages batch w).failed = true) :
    ∃ earlier last, (pipelineRun platform stages batch w).steps = earlier ++ [last] ∧
      last.observed.returned = none ∧ (∀ step ∈ earlier, step.observed.returned.isSome) ∧
      finalReport [] (earlier ++ [last]) = some last.observed.failureCode := by
  obtain ⟨earlier, last, hsteps, hlast, hearlier⟩ := Stages.run_failed stages batch w hfailed
  have hobserved (step : ModuleStep) (hstep : step ∈ earlier ++ [last]) : step.observed.Clean := by
    obtain ⟨w', hw'⟩ := Stages.run_observed stages batch w step (by rw [hsteps]; exact hstep)
    rw [hw']
    exact observe_clean hclean w' step.stage step.input
  have hnone : last.observed.returned = none := by
    rwa [ModuleRun.result_eq_map, Option.map_eq_none_iff] at hlast
  have hsome (step : ModuleStep) (hstep : step ∈ earlier) : step.observed.returned.isSome := by
    have h := hearlier step hstep
    rwa [ModuleRun.result_eq_map, Option.isSome_map] at h
  refine ⟨earlier, last, hsteps, hnone, hsome, finalReport_clean earlier last ?_
    (hobserved last (by simp)) hnone⟩
  intro step hstep
  exact (hobserved step (by simp [hstep])).codes_of_returned (hsome step hstep)

/-- A run without failure has run every module, and every module returned. -/
theorem pipelineRun_completed (stages : List Stage) (batch : ImageBatch) (w : W)
    (h : (pipelineRun platform stages batch w).failed = false) :
    (pipelineRun platform stages batch w).steps.map Stages.Step.stage = stages ∧
      ∀ step ∈ (pipelineRun platform stages batch w).steps, step.observed.returned.isSome := by
  obtain ⟨hstages, hsteps⟩ := Stages.run_completed stages batch w h
  refine ⟨hstages, fun step hstep => ?_⟩
  have hresult := hsteps step hstep
  rwa [ModuleRun.result_eq_map, Option.isSome_map] at hresult

/-- The status of a run. -/
def runStatus (run : Stages.Run W Stage ImageBatch ModuleRun) : Status :=
  if run.failed then .failure else .success

/-- A batch whose pipeline is found is processed by the run of the pipeline's modules. -/
theorem loadPipelineAndExecute_run (hreliable : platform.Reliable) (hclean : platform.Clean)
    (s : ProcessState W) (batch : ImageBatch) (k : Fin maxPipelines)
    (hfound : getPipelineById s.config.pipelines batch.pipelineId = some k)
    (hroom : (s.config.pipelines k).numModules ≤ maxModules)
    (run : Stages.Run W Stage ImageBatch ModuleRun)
    (hrun : run = pipelineRun platform ((s.config.pipelines k).stages s.config) batch s.world) :
    ∃ s', loadPipelineAndExecute platform batch s = .ok ⟨runStatus run, run.value, s'⟩ ∧
      Advanced s s' run.steps run.world ∧
      s'.config.isSetup = (s.config.isSetup && !run.failed) ∧
      ∀ earlier last, run.steps = earlier ++ [last] → last.observed.returned = none →
        s'.config.err = setErrorParam last.observed.failureCode
          ((s.config.err.inPipeline (s.config.pipelines k).pipelineId).afterModules 0
            run.steps.length) := by
  have hends := executePipeline_run platform hreliable (s.config.pipelines k) hroom batch
    (s.inPipeline (s.config.pipelines k).pipelineId)
  have hload : loadPipelineAndExecute platform batch s = executePipeline platform
      (s.config.pipelines k) batch (s.inPipeline (s.config.pipelines k).pipelineId) := by
    simp only [loadPipelineAndExecute, hfound]
  have hstages : (s.config.pipelines k).stages
      (s.inPipeline (s.config.pipelines k).pipelineId).config =
        (s.config.pipelines k).stages s.config := Pipeline.stages_congr _ rfl
  have hworld : (s.inPipeline (s.config.pipelines k).pipelineId).world = s.world := rfl
  rw [hstages, hworld, ← hrun, ← hload] at hends
  generalize loadPipelineAndExecute platform batch s = ended at hends ⊢
  cases hends with
  | completed s' hfailed hadvanced herr hsetup =>
    refine ⟨s', ?_, ?_, ?_, ?_⟩
    · rw [runStatus, hfailed]
      rfl
    · exact hadvanced.of_err
    · rw [hsetup, hfailed, Bool.not_false, Bool.and_true]
      rfl
    · intro earlier last hsteps hlast
      rw [hrun] at hfailed hsteps
      have hreturned := (pipelineRun_completed _ _ _ hfailed).2 last (by rw [hsteps]; simp)
      rw [hlast] at hreturned
      contradiction
  | reported s' code hfailed hreport hadvanced herr hsetup =>
    refine ⟨s', ?_, ?_, ?_, ?_⟩
    · rw [runStatus, hfailed]
      rfl
    · exact hadvanced.of_err
    · rw [hsetup, hfailed, Bool.not_true, Bool.and_false]
    · intro earlier last hsteps hlast
      rw [hrun] at hfailed
      obtain ⟨earlier', last', hsteps', -, -, hcode⟩ :=
        pipelineRun_failed hclean _ _ _ hfailed
      rw [← hrun, hsteps] at hsteps'
      obtain ⟨rfl, hlast'⟩ := List.append_inj' hsteps' rfl
      obtain rfl : last = last' := by simpa using hlast'
      rw [hsteps, hcode] at hreport
      obtain rfl := Option.some.inj hreport
      exact herr
  | blocked name hfailed hreport =>
    rw [hrun] at hfailed
    obtain ⟨earlier, last, hsteps, -, -, hcode⟩ := pipelineRun_failed hclean _ _ _ hfailed
    rw [hrun, hsteps, hcode] at hreport
    contradiction

/-- The report of a code fits sixteen bits, as the code does. -/
theorem codeReport_lt (code : UInt16) : (codeReport code).toNat < 2 ^ 16 := by
  have hcode := code.toNat_lt
  have hcustom : ErrorCode.moduleExitCustom.value.toNat = 700 := rfl
  unfold codeReport
  split
  · have hsmall : code.toNat < 100 := UInt16.lt_iff_toNat_lt.mp ‹_›
    rw [UInt32.toNat_add, UInt16.toNat_toUInt32, hcustom]
    omega
  · rw [UInt16.toNat_toUInt32]
    exact hcode

/-- So does the report of any failure. -/
theorem ModuleRun.failureCode_lt (moduleRun : ModuleRun) :
    moduleRun.failureCode.toNat < 2 ^ 16 := by
  have hcrash : ErrorCode.moduleExitCrash.value.toNat < 2 ^ 16 := by decide
  have htimeout : ErrorCode.moduleExitTimeout.value.toNat < 2 ^ 16 := by decide
  have hnormal : ErrorCode.moduleExitNormal.value.toNat < 2 ^ 16 := by decide
  have hown : ((moduleRun.codes.head?.map codeReport).getD
      ErrorCode.moduleExitNormal.value).toNat < 2 ^ 16 := by
    cases moduleRun.codes with
    | nil => exact hnormal
    | cons code rest => exact codeReport_lt code
  unfold failureCode
  cases moduleRun.ending with
  | killed => exact hcrash
  | timedOut => exact htimeout
  | returned result => exact hown
  | exited status => exact hown

/-- The decimal composition of an error in a pipeline and a module of the documented range. -/
theorem log_of_failure (err : ErrorState) (pipelineId : Int32) (count : ℕ) (moduleRun : ModuleRun)
    (hpositive : 1 ≤ pipelineId.toInt) (hid : pipelineId.toInt ≤ maxPipelines)
    (hcount : count ≠ 0) (hmodules : count ≤ maxModules) :
    (setErrorParam moduleRun.failureCode
        ((err.inPipeline pipelineId).afterModules 0 count)).logStatus.toNat =
      moduleRun.failureCode.toNat * 1000 + pipelineId.toInt.toNat * 100 + count := by
  have hmax : (maxPipelines : ℤ) = 6 := rfl
  have hmaxModules : maxModules = 20 := rfl
  have hpipeline : (UInt8.ofInt pipelineId.toInt).toNat = pipelineId.toInt.toNat := by
    rw [UInt8.ofInt, UInt8.toNat_ofNat']
    omega
  have hmodule : (UInt8.ofNat (0 + count - 1 + 1)).toNat = count := by
    rw [UInt8.toNat_ofNat']
    omega
  have hstate : (err.inPipeline pipelineId).afterModules 0 count =
      (err.inPipeline pipelineId).atModule (0 + count - 1) := if_neg hcount
  have hlog := getErrorAsUint32_toNat moduleRun.failureCode
    ((err.inPipeline pipelineId).afterModules 0 count) moduleRun.failureCode_lt
  rw [hstate] at hlog ⊢
  simp only [ErrorState.atModule, ErrorState.inPipeline, hpipeline, hmodule] at hlog
  exact hlog

/-- What the execution of a pipeline comes to, as a fold over its modules that stops at the first
failure. -/
structure FoldsModules (c : ConfigState) (pipeline : Pipeline) (batch : ImageBatch)
    (steps : List ModuleStep) (status : Status) (out : ImageBatch) (logStatus : UInt32) : Prop where
  in_order : steps.map Stages.Step.stage <+: pipeline.live.map c.stageOf
  up_to_failure : ∀ earlier last, steps = earlier ++ [last] →
    ∀ step ∈ earlier, step.observed.returned.isSome
  success_iff : status = .success ↔ steps.map Stages.Step.stage = pipeline.live.map c.stageOf ∧
    ∀ step ∈ steps, step.observed.returned.isSome
  batch_eq : out = (lastReturned steps).elim batch batch.withResult
  kept : out.mtype = batch.mtype ∧ out.data = batch.data
  log_eq : ∀ earlier last, steps = earlier ++ [last] → last.observed.returned = none →
    logStatus.toNat = last.observed.failureCode.toNat * 1000 +
      batch.pipelineId.toInt.toNat * 100 + steps.length

/-- The parameter list of a module with a valid index is the one at that index. -/
theorem stageOf_eq (c : ConfigState) (entry : Module)
    (h : 0 ≤ entry.moduleParamId.toInt ∧ entry.moduleParamId.toInt.toNat < maxModules) :
    c.stageOf entry = ⟨entry.moduleFunction,
      some (c.moduleParameterLists ⟨entry.moduleParamId.toInt.toNat, h.2⟩)⟩ := by
  rw [ConfigState.stageOf, ConfigState.parameterList, dif_pos h]

/-- A pipeline is the fold of its modules, cut at the first failure: the modules run in list order,
each with the parameter list that its own index selects, and the batch, the status and the error
are those of this fold. -/
theorem loadPipelineAndExecute_fold (hreliable : platform.Reliable) (hclean : platform.Clean)
    (s : ProcessState W) (batch : ImageBatch) (k : Fin maxPipelines)
    (hfound : getPipelineById s.config.pipelines batch.pipelineId = some k)
    (hpositive : 1 ≤ batch.pipelineId.toInt) (hid : batch.pipelineId.toInt ≤ maxPipelines)
    (hroom : (s.config.pipelines k).numModules ≤ maxModules)
    (hparams : ∀ entry ∈ (s.config.pipelines k).live,
      0 ≤ entry.moduleParamId.toInt ∧ entry.moduleParamId.toInt.toNat < maxModules) :
    ∃ steps status out s', loadPipelineAndExecute platform batch s = .ok ⟨status, out, s'⟩ ∧
      s'.calls = s.calls ++ steps ∧
      steps = (pipelineRun platform ((s.config.pipelines k).stages s.config) batch s.world).steps ∧
      FoldsModules s.config (s.config.pipelines k) batch steps status out
        s'.config.err.logStatus ∧
      ∀ entry ∈ (s.config.pipelines k).live, ∃ h, s.config.stageOf entry =
        ⟨entry.moduleFunction,
          some (s.config.moduleParameterLists ⟨entry.moduleParamId.toInt.toNat, h⟩)⟩ := by
  obtain ⟨s', hload, hadvanced, -, herr⟩ :=
    loadPipelineAndExecute_run hreliable hclean s batch k hfound hroom _ rfl
  have hvalue := pipelineRun_value platform ((s.config.pipelines k).stages s.config) batch s.world
  have hinitial : (pipelineRun platform ((s.config.pipelines k).stages s.config) batch
      s.world).steps.map Stages.Step.stage <+: (s.config.pipelines k).live.map s.config.stageOf :=
    Stages.run_stages_prefix _ batch s.world
  refine ⟨_, _, _, s', hload, hadvanced.calls, rfl, ⟨hinitial, ?_, ?_, hvalue, ?_, ?_⟩,
    fun entry hentry =>
      ⟨(hparams entry hentry).2, stageOf_eq s.config entry (hparams entry hentry)⟩⟩
  · intro earlier last hsteps
    cases hfailed : (pipelineRun platform ((s.config.pipelines k).stages s.config) batch
        s.world).failed with
    | false =>
      intro step hstep
      exact (pipelineRun_completed _ _ _ hfailed).2 step (by rw [hsteps]; simp [hstep])
    | true =>
      obtain ⟨earlier', last', hsteps', -, hreturned, -⟩ := pipelineRun_failed hclean _ _ _ hfailed
      rw [hsteps] at hsteps'
      obtain ⟨rfl, -⟩ := List.append_inj' hsteps' rfl
      exact hreturned
  · cases hfailed : (pipelineRun platform ((s.config.pipelines k).stages s.config) batch
        s.world).failed with
    | false =>
      rw [runStatus, hfailed]
      exact iff_of_true rfl (pipelineRun_completed _ _ _ hfailed)
    | true =>
      obtain ⟨earlier, last, hsteps, hlast, -, -⟩ := pipelineRun_failed hclean _ _ _ hfailed
      rw [runStatus, hfailed]
      refine iff_of_false (by simp) ?_
      rintro ⟨-, hall⟩
      have h := hall last (by rw [hsteps]; simp)
      rw [hlast] at h
      contradiction
  · rw [hvalue]
    cases lastReturned (pipelineRun platform ((s.config.pipelines k).stages s.config) batch
      s.world).steps <;> exact ⟨rfl, rfl⟩
  · intro earlier last hsteps hlast
    have hlength := hinitial.length_le
    rw [List.length_map, List.length_map] at hlength
    have hlive : (s.config.pipelines k).live.length ≤ maxModules := by
      simp [Pipeline.live]
    rw [herr earlier last hsteps hlast, getPipelineById_eq_some hfound,
      log_of_failure _ _ _ _ hpositive hid (by rw [hsteps]; simp) (by omega)]

/-- The first module of the sample returns its batch, the second exits after error code 5. -/
def sampleBehave (function : ModuleFunction) (batch : ImageBatch) : ModuleRun :=
  if function.address = 1 then ⟨[], .returned { batch with numImages := 2 }⟩ else ⟨[5], .exited 1⟩

/-- A configuration whose first pipeline has these two modules. -/
def sampleConfig : ConfigState :=
  { ConfigState.boot (fun _ => .zero) (fun _ => .zero) 0 with
    pipelines := fun k => if k = 0 then
      ⟨1, fun i => ⟨some [0x61], some ⟨if i = 0 then 1 else 2⟩, 0⟩, 2⟩ else .zero
    isSetup := true }

/-- In the sample run the second module of the first pipeline is reported with its code. -/
theorem loadPipelineAndExecute_fold_sample :
    ∃ out s', loadPipelineAndExecute (.ofModules sampleBehave fun _ => []) ⟨1, 1, 0, 7, 1, 0⟩
        (.boot sampleConfig () none) = .ok ⟨.failure, out, s'⟩ ∧
      out.numImages = 2 ∧ s'.config.err.logStatus.toNat = 705102 := by
  have hclean : (Platform.ofModules sampleBehave fun _ => []).Clean := by
    intro w function batch config
    change (sampleBehave function batch).Clean
    unfold sampleBehave
    split
    · rfl
    · exact ⟨by decide, 5, rfl⟩
  obtain ⟨steps, status, out, s', hload, -, hsteps, hfold, -⟩ := loadPipelineAndExecute_fold
    (Platform.ofModules_reliable sampleBehave fun _ => []) hclean (.boot sampleConfig () none)
    ⟨1, 1, 0, 7, 1, 0⟩ 0 (by decide) (by decide) (by decide) (by decide) (by decide)
  have hrun : steps = [⟨⟨some ⟨1⟩, some ⟨0, .null⟩⟩, ⟨1, 1, 0, 7, 1, 0⟩,
      ⟨[], .returned ⟨1, 2, 0, 7, 1, 0⟩⟩⟩] ++
      [⟨⟨some ⟨2⟩, some ⟨0, .null⟩⟩, ⟨1, 2, 0, 7, 1, 0⟩, ⟨[5], .exited 1⟩⟩] := hsteps
  have hstatus : status = .failure := by
    have hfailure : status ≠ .success := by
      intro hsuccess
      obtain ⟨-, hall⟩ := hfold.success_iff.mp hsuccess
      rw [hrun] at hall
      exact absurd (hall _ (List.mem_append_right _ (List.mem_singleton_self _))) (by decide)
    cases status with
    | success => contradiction
    | failure => rfl
  refine ⟨out, s', hstatus ▸ hload, ?_, ?_⟩
  · rw [hfold.batch_eq, hrun]
    rfl
  · have hlog := hfold.log_eq _ _ hrun rfl
    rw [hrun] at hlog
    exact hlog

end Dipp
