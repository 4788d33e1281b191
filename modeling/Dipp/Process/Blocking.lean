import Dipp.Process.Fold

/-!
# When the parent waits for itself

The parent holds its write ends of both pipes until the run is over, so a read of an
empty pipe never sees the end of file: the branches that report a missing code and a
missing result cannot be reached. A run gets past its reads exactly if its last module,
should it exit by itself, does so with a non-zero status and finds or leaves a code in
the error pipe.
-/

namespace Dipp

variable {W : Type*} (platform : Platform W)

/-- The parent never waits on a pipe that only it can fill, an exit without a code is reported as
`MODULE_EXIT_NORMAL`, and a missing result as `PIPE_EMPTY`. -/
structure NeverWaitsForItself (pipeline : Pipeline) (batch : ImageBatch) (s : ProcessState W)
    (steps : List ModuleStep) : Prop where
  no_wait : ∀ name pipe,
    executePipeline platform pipeline batch s = .error (.blockedRead name pipe) →
      Holder.parent ∉ pipe.writeEnds
  exit_reported : ∀ earlier last status, steps = earlier ++ [last] →
    last.observed.ending = .exited status → status ≠ 0 → last.observed.codes = [] →
      ∃ out s', executePipeline platform pipeline batch s = .ok ⟨.failure, out, s'⟩ ∧
        s'.config.err = setErrorParam ErrorCode.moduleExitNormal.value
          (s.config.err.afterModules 0 steps.length)
  missing_reported : ∀ earlier last, steps = earlier ++ [last] →
    last.observed.ending = .exited 0 →
      ∃ out s', executePipeline platform pipeline batch s = .ok ⟨.failure, out, s'⟩ ∧
        s'.config.err = setErrorParam ErrorCode.pipeEmpty.value
          (s.config.err.afterModules 0 steps.length)

/-- If the last of these modules exits by itself, its status is not zero and it wrote a code, or
the oldest code that the others left happens to be that of an exit without a code. -/
def LeavesCode (steps : List ModuleStep) : Prop :=
  ∀ earlier last status, steps = earlier ++ [last] → last.observed.ending = .exited status →
    status ≠ 0 ∧ (last.observed.codes = [] →
      (earlier.flatMap fun step => step.observed.codes).head? = some 601)

/-- The error state determines the code that was reported last. -/
theorem setErrorParam_injective {code code' : UInt32} (err : ErrorState)
    (hcode : code.toNat < 2 ^ 16) (hcode' : code'.toNat < 2 ^ 16)
    (h : setErrorParam code err = setErrorParam code' err) : code = code' := by
  have hlog : getErrorAsUint32 code err = getErrorAsUint32 code' err :=
    congrArg ErrorState.logStatus h
  have hnat := congrArg UInt32.toNat hlog
  rw [getErrorAsUint32_toNat code err hcode, getErrorAsUint32_toNat code' err hcode'] at hnat
  apply UInt32.toNat_inj.mp
  omega

/-- Only the code 601 is reported as 601. -/
theorem codeReport_eq_normal {code : UInt16}
    (h : codeReport code = ErrorCode.moduleExitNormal.value) : code = 601 := by
  have hnormal : ErrorCode.moduleExitNormal.value.toNat = 601 := rfl
  have hcustom : ErrorCode.moduleExitCustom.value.toNat = 700 := rfl
  have hnat := congrArg UInt32.toNat h
  unfold codeReport at hnat
  apply UInt16.toNat_inj.mp
  split at hnat
  · have hsmall : code.toNat < 100 := UInt16.lt_iff_toNat_lt.mp ‹_›
    rw [UInt32.toNat_add, UInt16.toNat_toUInt32, hcustom, hnormal] at hnat
    omega
  · rw [UInt16.toNat_toUInt32, hnormal] at hnat
    exact hnat

variable {platform}

/-- A run whose last module did not return is a failed run. -/
theorem failed_of_last {stages : List Stage} {batch : ImageBatch} {w : W}
    {earlier : List ModuleStep} {last : ModuleStep}
    (hsteps : (pipelineRun platform stages batch w).steps = earlier ++ [last])
    (hlast : last.observed.returned = none) :
    (pipelineRun platform stages batch w).failed = true := by
  cases hfailed : (pipelineRun platform stages batch w).failed with
  | true => rfl
  | false =>
    have h := (pipelineRun_completed _ _ _ hfailed).2 last (by rw [hsteps]; simp)
    rw [hlast] at h
    contradiction

/-- A failed run whose modules leave a code where one is needed has something to report. -/
theorem LeavesCode.report {stages : List Stage} {batch : ImageBatch} {w : W}
    (hleaves : LeavesCode (pipelineRun platform stages batch w).steps)
    (hfailed : (pipelineRun platform stages batch w).failed = true) :
    finalReport [] (pipelineRun platform stages batch w).steps ≠ none := by
  obtain ⟨earlier, last, hsteps, hresult, -⟩ := Stages.run_failed stages batch w hfailed
  change (pipelineRun platform stages batch w).steps = earlier ++ [last] at hsteps
  rw [hsteps, finalReport_concat, List.nil_append]
  obtain ⟨stage, input, codes, ending⟩ := last
  cases ending with
  | returned result => simp [ModuleRun.result] at hresult
  | killed => simp [ModuleRun.waitStatus, ModuleRun.report]
  | timedOut => simp [ModuleRun.waitStatus, ModuleRun.report, ModuleRun.writtenCodes]
  | exited status =>
    obtain ⟨hstatus, hcode⟩ := hleaves earlier _ status hsteps rfl
    have hwait : WaitStatus.exited status ≠ .exited 0 := fun h => hstatus (WaitStatus.exited.inj h)
    rw [ModuleRun.waitStatus, if_neg hwait]
    cases codes with
    | nil =>
      obtain ⟨rest, hrest⟩ := List.head?_eq_some_iff.mp (hcode rfl)
      simp [ModuleRun.report, ModuleRun.writtenCodes, hrest]
    | cons code rest =>
      simp [ModuleRun.report, ModuleRun.writtenCodes]

/-- The run of a pipeline execution that goes through despite a failure is reported. -/
theorem LoopEnds.ok_failed {s : ProcessState W} {i : ℕ} {pending : List UInt16}
    {run : Stages.Run W Stage ImageBatch ModuleRun} {ended : Except Stop (Outcome W)}
    {outcome : Outcome W} (hends : LoopEnds s i run pending ended) (hok : ended = .ok outcome)
    (hfailed : run.failed = true) :
    ∃ code, finalReport pending run.steps = some code ∧
      outcome.state.config.err =
        setErrorParam code (s.config.err.afterModules i run.steps.length) := by
  cases hends with
  | completed s' hcompleted => rw [hfailed] at hcompleted; contradiction
  | reported s' code _ hreport _ herr _ =>
    obtain rfl := Except.ok.inj hok
    exact ⟨code, hreport, herr⟩
  | blocked name => contradiction

/-- A run without a report stops in a read that waits for the parent. -/
theorem LoopEnds.blocked_of_none {s : ProcessState W} {i : ℕ} {pending : List UInt16}
    {run : Stages.Run W Stage ImageBatch ModuleRun} {ended : Except Stop (Outcome W)}
    (hends : LoopEnds s i run pending ended) (hfailed : run.failed = true)
    (hreport : finalReport pending run.steps = none) :
    ∃ name, ended = .error (.blockedRead name ⟨[], {.parent}⟩) := by
  cases hends with
  | completed s' hcompleted => rw [hfailed] at hcompleted; contradiction
  | reported s' code _ hreported => rw [hreport] at hreported; contradiction
  | blocked name => exact ⟨name, rfl⟩

/-- A run with a report does not stop in a read. -/
theorem LoopEnds.ok_of_some {s : ProcessState W} {i : ℕ} {pending : List UInt16}
    {run : Stages.Run W Stage ImageBatch ModuleRun} {ended : Except Stop (Outcome W)}
    {code : UInt32}
    (hends : LoopEnds s i run pending ended) (hfailed : run.failed = true)
    (hreport : finalReport pending run.steps = some code) :
    ∃ s', ended = .ok ⟨.failure, run.value, s'⟩ ∧ s'.config.err =
      setErrorParam code (s.config.err.afterModules i run.steps.length) := by
  cases hends with
  | completed s' hcompleted => rw [hfailed] at hcompleted; contradiction
  | reported s' code' _ hreported _ herr _ =>
    rw [hreport] at hreported
    obtain rfl := Option.some.inj hreported
    exact ⟨s', rfl, herr⟩
  | blocked name _ hnone => rw [hreport] at hnone; contradiction

/-- The parent never waits for itself in the execution of a pipeline exactly if the modules leave
a code where the parent will look for one. -/
theorem neverWaitsForItself_iff (hreliable : platform.Reliable) (pipeline : Pipeline)
    (hroom : pipeline.numModules ≤ maxModules) (batch : ImageBatch) (s : ProcessState W) :
    NeverWaitsForItself platform pipeline batch s
        (pipelineRun platform (pipeline.stages s.config) batch s.world).steps ↔
      LeavesCode (pipelineRun platform (pipeline.stages s.config) batch s.world).steps := by
  have hends := executePipeline_run platform hreliable pipeline hroom batch s
  have hparent (name : PipeName)
      (h : executePipeline platform pipeline batch s = .error (.blockedRead name ⟨[], {.parent}⟩))
      (hno : ∀ name pipe, executePipeline platform pipeline batch s =
        .error (.blockedRead name pipe) → Holder.parent ∉ pipe.writeEnds) : False :=
    hno name _ h (Finset.mem_singleton_self _)
  constructor
  · intro hnever earlier last status hsteps hending
    have hreturned : last.observed.returned = none := by rw [ModuleRun.returned, hending]
    have hfailed := failed_of_last hsteps hreturned
    have hreport := finalReport_concat [] earlier last
    rw [← hsteps, List.nil_append, ModuleRun.waitStatus, hending] at hreport
    have hstatus : status ≠ 0 := by
      rintro rfl
      obtain ⟨name, hblocked⟩ := hends.blocked_of_none hfailed (hreport.trans (if_pos rfl))
      exact hparent name hblocked hnever.no_wait
    refine ⟨hstatus, fun hcodes => ?_⟩
    have hwait : WaitStatus.exited status ≠ .exited 0 := fun h => hstatus (WaitStatus.exited.inj h)
    rw [if_neg hwait, ModuleRun.report, hending] at hreport
    simp only [ModuleRun.writtenCodes, hending, hcodes, List.append_nil] at hreport
    obtain ⟨out, s', hok, herr⟩ :=
      hnever.exit_reported earlier last status hsteps hending hstatus hcodes
    obtain ⟨code, hcode, herr'⟩ := hends.ok_failed hok hfailed
    rw [hreport] at hcode
    obtain ⟨first, hfirst, rfl⟩ := Option.map_eq_some_iff.mp hcode
    rw [hfirst]
    have hnormal := setErrorParam_injective _ (codeReport_lt first) (by decide)
      (herr'.symm.trans herr)
    rw [codeReport_eq_normal hnormal]
  · intro hleaves
    refine ⟨?_, ?_, ?_⟩
    · intro name pipe hblocked
      cases hfailed : (pipelineRun platform (pipeline.stages s.config) batch s.world).failed with
      | true =>
        obtain ⟨code, hcode⟩ := Option.ne_none_iff_exists'.mp (hleaves.report hfailed)
        obtain ⟨s', hok, -⟩ := hends.ok_of_some hfailed hcode
        rw [hok] at hblocked
        contradiction
      | false =>
        rw [hblocked] at hends
        cases hends with
        | blocked _ hfailed' => rw [hfailed] at hfailed'; contradiction
    · intro earlier last status hsteps hending hstatus hcodes
      have hreturned : last.observed.returned = none := by rw [ModuleRun.returned, hending]
      have hfailed := failed_of_last hsteps hreturned
      have hwait : WaitStatus.exited status ≠ .exited 0 :=
        fun h => hstatus (WaitStatus.exited.inj h)
      have hreport := finalReport_concat [] earlier last
      rw [← hsteps, List.nil_append, ModuleRun.waitStatus, hending, if_neg hwait,
        ModuleRun.report, hending] at hreport
      simp only [ModuleRun.writtenCodes, hending, hcodes, List.append_nil,
        (hleaves earlier last status hsteps hending).2 hcodes] at hreport
      obtain ⟨s', hok, herr⟩ := hends.ok_of_some hfailed hreport
      exact ⟨_, s', hok, herr⟩
    · intro earlier last hsteps hending
      exact absurd rfl (hleaves earlier last 0 hsteps hending).1

/-- In the sample run the failing module writes its code, and the parent finds it. -/
theorem neverWaitsForItself_iff_sample :
    NeverWaitsForItself (.ofModules sampleBehave fun _ => []) (sampleConfig.pipelines 0)
      ⟨1, 1, 0, 7, 1, 0⟩ (.boot sampleConfig () none)
      (pipelineRun (.ofModules sampleBehave fun _ => [])
        ((sampleConfig.pipelines 0).stages sampleConfig) ⟨1, 1, 0, 7, 1, 0⟩ ()).steps := by
  refine (neverWaitsForItself_iff (Platform.ofModules_reliable sampleBehave fun _ => [])
    (sampleConfig.pipelines 0) (by decide) ⟨1, 1, 0, 7, 1, 0⟩ (.boot sampleConfig () none)).mpr ?_
  intro earlier last status hsteps hending
  have hlast := congrArg (Option.map Stages.Step.observed) (congrArg List.getLast? hsteps)
  rw [List.getLast?_append, List.getLast?_singleton, Option.some_or, Option.map_some] at hlast
  have hobserved : some (⟨[5], .exited 1⟩ : ModuleRun) = some last.observed := hlast
  rw [← Option.some.inj hobserved] at hending ⊢
  obtain rfl : (1 : UInt8) = status := ModuleEnding.exited.inj hending
  exact ⟨by decide, nofun⟩

/-- A module that exits with a non-zero status and no code leaves the parent waiting. -/
theorem not_neverWaitsForItself :
    ¬ ∀ (platform : Platform Unit) (pipeline : Pipeline) (batch : ImageBatch)
        (s : ProcessState Unit), platform.Reliable → pipeline.numModules ≤ maxModules →
        NeverWaitsForItself platform pipeline batch s
          (pipelineRun platform (pipeline.stages s.config) batch s.world).steps := by
  intro h
  have hnever := h (.ofModules (fun _ _ => ⟨[], .exited 1⟩) fun _ => []) (sampleConfig.pipelines 0)
    ⟨1, 1, 0, 7, 1, 0⟩ (.boot sampleConfig () none) (Platform.ofModules_reliable _ _) (by decide)
  have hblocked : executePipeline (.ofModules (fun _ _ => ⟨[], .exited 1⟩) fun _ => [])
      (sampleConfig.pipelines 0) ⟨1, 1, 0, 7, 1, 0⟩ (.boot sampleConfig () none) =
      .error (.blockedRead .error ⟨[], {.parent}⟩) := rfl
  exact hnever.no_wait _ _ hblocked (Finset.mem_singleton_self _)

end Dipp
