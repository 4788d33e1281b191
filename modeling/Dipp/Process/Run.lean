import Dipp.Process.Step

/-!
# A pipeline run as a fold over its modules

The modules of a pipeline are stages in the sense of the stage library: each one is
observed on the batch that the previous one left, and the first that does not return
ends the run. With system calls that succeed, the loop over the modules performs exactly
this run and reports its failure, unless the failure leaves nothing to report.
-/

namespace Dipp

variable {W : Type*}

/-- An executed module with its input and what was observed of it. -/
abbrev ModuleStep := Stages.Step Stage ImageBatch ModuleRun

/-- The modules in use, each with the parameter list it selects. -/
def Pipeline.stages (pipeline : Pipeline) (c : ConfigState) : List Stage :=
  pipeline.live.map c.stageOf

/-- The run of a pipeline on a batch. -/
def pipelineRun (platform : Platform W) (stages : List Stage) (batch : ImageBatch) (w : W) :
    Stages.Run W Stage ImageBatch ModuleRun :=
  Stages.run (observe platform) ModuleRun.result stages batch w

/-- What the last of these modules, which fails, has reported: nothing if it exits with status
zero, otherwise the crash or the oldest code in the error pipe. -/
def finalReport : (pending : List UInt16) → List ModuleStep → Option UInt32
  | _, [] => none
  | pending, [last] =>
    if last.observed.waitStatus = .exited 0 then none else last.observed.report pending
  | pending, step :: next :: rest => finalReport (pending ++ step.observed.codes) (next :: rest)

/-- A single failing module has nothing to report if it exits with status zero or left nothing. -/
theorem finalReport_singleton_eq_none {pending : List UInt16} {last : ModuleStep} :
    finalReport pending [last] = none ↔
      last.observed.waitStatus = .exited 0 ∨ last.observed.report pending = none := by
  rw [finalReport]
  split <;> simp_all

/-- A single failing module is reported with what it left. -/
theorem finalReport_singleton_eq_some {pending : List UInt16} {last : ModuleStep} {code : UInt32} :
    finalReport pending [last] = some code ↔
      last.observed.waitStatus ≠ .exited 0 ∧ last.observed.report pending = some code := by
  rw [finalReport]
  split <;> simp_all

/-- The error state after so many modules from an index on have been started. -/
def ErrorState.afterModules (i count : ℕ) (err : ErrorState) : ErrorState :=
  if count = 0 then err else err.atModule (i + count - 1)

/-- Starting one module and then others is starting them all. -/
theorem ErrorState.afterModules_succ (i count : ℕ) (err : ErrorState) :
    (err.atModule i).afterModules (i + 1) count = err.afterModules i (count + 1) := by
  unfold afterModules
  by_cases hcount : count = 0
  · simp [hcount]
  · rw [if_neg hcount, if_neg (Nat.succ_ne_zero count)]
    have hlast : i + 1 + count - 1 = i + (count + 1) - 1 := by omega
    rw [hlast]
    rfl

/-- The entry at an index in use heads the rest of the stages. -/
theorem Pipeline.stages_drop (pipeline : Pipeline) (c : ConfigState) (i : ℕ)
    (hi : i < pipeline.numModules) (h : i < maxModules) :
    (pipeline.stages c).drop i =
      c.stageOf (pipeline.modules ⟨i, h⟩) :: (pipeline.stages c).drop (i + 1) := by
  have hlength : i < (pipeline.stages c).length := by
    simp [stages, live, hi, h]
  rw [List.drop_eq_getElem_cons hlength]
  simp [stages, live]

/-- The stages depend on the parameter lists only. -/
theorem Pipeline.stages_congr (pipeline : Pipeline) {c c' : ConfigState}
    (h : c'.moduleParameterLists = c.moduleParameterLists) :
    pipeline.stages c' = pipeline.stages c := by
  have hstage : c'.stageOf = c.stageOf := by
    funext entry
    simp only [ConfigState.stageOf, ConfigState.parameterList, h]
  rw [stages, stages, hstage]

/-- A failed run has executed a module. -/
theorem steps_ne_nil_of_failed {platform : Platform W} {stages : List Stage} {batch : ImageBatch}
    {w : W} (h : (pipelineRun platform stages batch w).failed = true) :
    (pipelineRun platform stages batch w).steps ≠ [] := by
  obtain ⟨earlier, last, hsteps, -, -⟩ := Stages.run_failed stages batch w h
  rw [pipelineRun, hsteps]
  simp

/-- A run that begins with a module that returned is reported by its rest. -/
theorem finalReport_cons (pending : List UInt16) (step : ModuleStep) {steps : List ModuleStep}
    (h : steps ≠ []) :
    finalReport pending (step :: steps) = finalReport (pending ++ step.observed.codes) steps := by
  cases steps with
  | nil => contradiction
  | cons next rest => rfl

/-- The report of a run that ends with this module, in terms of the codes left by the others. -/
theorem finalReport_concat (pending : List UInt16) (earlier : List ModuleStep) (last : ModuleStep) :
    finalReport pending (earlier ++ [last]) =
      if last.observed.waitStatus = .exited 0 then none
      else last.observed.report (pending ++ earlier.flatMap fun step => step.observed.codes) := by
  induction earlier generalizing pending with
  | nil => rw [List.nil_append, List.flatMap_nil, List.append_nil, finalReport]
  | cons step rest ih =>
    rw [List.cons_append, finalReport_cons pending step (by simp), ih, List.flatMap_cons,
      List.append_assoc]

/-- How a run of the loop ends: as the fold does, with its failure reported, or blocked in a read
that nobody will serve. -/
inductive LoopEnds (s : ProcessState W) (i : ℕ) (run : Stages.Run W Stage ImageBatch ModuleRun)
    (pending : List UInt16) : Except Stop (Outcome W) → Prop where
  | completed (s' : ProcessState W) (hfailed : run.failed = false)
      (hadvanced : Advanced s s' run.steps run.world)
      (herr : s'.config.err = s.config.err.afterModules i run.steps.length)
      (hsetup : s'.config.isSetup = s.config.isSetup) :
      LoopEnds s i run pending (.ok ⟨.success, run.value, s'⟩)
  | reported (s' : ProcessState W) (code : UInt32) (hfailed : run.failed = true)
      (hreport : finalReport pending run.steps = some code)
      (hadvanced : Advanced s s' run.steps run.world)
      (herr : s'.config.err =
        setErrorParam code (s.config.err.afterModules i run.steps.length))
      (hsetup : s'.config.isSetup = false) :
      LoopEnds s i run pending (.ok ⟨.failure, run.value, s'⟩)
  | blocked (name : PipeName) (hfailed : run.failed = true)
      (hreport : finalReport pending run.steps = none) :
      LoopEnds s i run pending (.error (.blockedRead name ⟨[], {.parent}⟩))

variable (platform : Platform W)

/-- The loop from an index on performs the run of the stages from there on. -/
theorem executeModules_run (hreliable : platform.Reliable) (pipeline : Pipeline)
    (hroom : pipeline.numModules ≤ maxModules) (remaining i : ℕ)
    (hi : i + remaining = pipeline.numModules) (batch : ImageBatch) (s : ProcessState W)
    (pending : List UInt16) (hpipes : s.PipesHold [] pending) :
    LoopEnds s i (pipelineRun platform ((pipeline.stages s.config).drop i) batch s.world) pending
      (executeModules platform pipeline remaining i batch s) := by
  induction remaining generalizing i batch s pending with
  | zero =>
    have hlength : (pipeline.stages s.config).length ≤ i := by
      simp only [Pipeline.stages, Pipeline.live, List.length_map, List.length_take,
        List.length_finRange]
      omega
    rw [List.drop_eq_nil_of_le hlength]
    exact .completed s.closePipes rfl
      ⟨rfl, rfl, rfl, rfl, rfl, rfl, rfl, rfl, (List.append_nil _).symm⟩ rfl rfl
  | succ remaining ih =>
    have h : i < maxModules := by omega
    rw [pipeline.stages_drop s.config i (by omega) h]
    cases hresult : (observe platform s.world
        (s.config.stageOf (pipeline.modules ⟨i, h⟩)) batch).1.result batch with
    | none =>
      rw [pipelineRun, Stages.run_cons_none _ hresult]
      cases hreport : finalReport pending [⟨s.config.stageOf (pipeline.modules ⟨i, h⟩), batch,
          (observe platform s.world (s.config.stageOf (pipeline.modules ⟨i, h⟩)) batch).1⟩] with
      | none =>
        obtain ⟨name, hblocked⟩ := executeModules_blocked s hreliable hpipes h rfl hresult
          (finalReport_singleton_eq_none.mp hreport) remaining
        rw [hblocked]
        exact .blocked name rfl hreport
      | some code =>
        have hfailing := finalReport_singleton_eq_some.mp hreport
        obtain ⟨s', hfailed, hadvanced, herr, hsetup⟩ :=
          executeModules_failed s hreliable hpipes h rfl hfailing.1 hfailing.2 remaining
        rw [hfailed]
        exact .reported s' code rfl hreport hadvanced herr hsetup
    | some next =>
      obtain ⟨s', hnext, hadvanced, herr, hsetup, hpipes'⟩ :=
        executeModules_returned s hreliable hpipes h rfl hresult remaining
      have hrest := ih (i + 1) (by omega) next s' _ hpipes'
      rw [pipeline.stages_congr hadvanced.moduleParameterLists, hadvanced.world] at hrest
      rw [hnext, pipelineRun, Stages.run_cons_some _ hresult]
      generalize executeModules platform pipeline remaining (i + 1) next s' = ended at hrest ⊢
      cases hrest with
      | completed last hfailed hadvanced' herr' hsetup' =>
        exact .completed last hfailed (hadvanced.trans hadvanced')
          (by rw [herr', herr, ErrorState.afterModules_succ]; rfl) (hsetup'.trans hsetup)
      | reported last code hfailed hreport hadvanced' herr' hsetup' =>
        have hne := steps_ne_nil_of_failed hfailed
        exact .reported last code hfailed ((finalReport_cons _ _ hne).trans hreport)
          (hadvanced.trans hadvanced') (by rw [herr', herr, ErrorState.afterModules_succ]; rfl)
          hsetup'
      | blocked name hfailed hreport =>
        have hne := steps_ne_nil_of_failed hfailed
        exact .blocked name hfailed ((finalReport_cons _ _ hne).trans hreport)

/-- With `pipe` succeeding, a run starts with two empty pipes. -/
theorem openPipes_eq (hreliable : platform.Reliable) (s : ProcessState W) :
    ∃ opened, openPipes platform s = (true, opened) ∧ Advanced s opened [] s.world ∧
      opened.config = s.config ∧ opened.PipesHold [] [] := by
  simp only [openPipes, hreliable.outputPipeOpens, hreliable.errorPipeOpens, if_true]
  exact ⟨_, rfl, ⟨rfl, rfl, rfl, rfl, rfl, rfl, rfl, rfl, (List.append_nil _).symm⟩, rfl, rfl, rfl⟩

/-- A pipeline execution performs the run of its modules. -/
theorem executePipeline_run (hreliable : platform.Reliable) (pipeline : Pipeline)
    (hroom : pipeline.numModules ≤ maxModules) (batch : ImageBatch) (s : ProcessState W) :
    LoopEnds s 0 (pipelineRun platform (pipeline.stages s.config) batch s.world) []
      (executePipeline platform pipeline batch s) := by
  obtain ⟨opened, hopen, hadvanced, hconfig, hpipes⟩ := openPipes_eq platform hreliable s
  have hloop := executeModules_run platform hreliable pipeline hroom pipeline.numModules 0
    (Nat.zero_add _) batch opened [] hpipes
  rw [List.drop_zero, hconfig, hadvanced.world] at hloop
  simp only [executePipeline, hopen]
  generalize executeModules platform pipeline pipeline.numModules 0 batch opened = ended at hloop ⊢
  cases hloop with
  | completed s' hfailed hadvanced' herr hsetup =>
    exact .completed s' hfailed (hadvanced.trans hadvanced') (by rw [herr, hconfig])
      (by rw [hsetup, hconfig])
  | reported s' code hfailed hreport hadvanced' herr hsetup =>
    exact .reported s' code hfailed hreport (hadvanced.trans hadvanced') (by rw [herr, hconfig])
      hsetup
  | blocked name hfailed hreport => exact .blocked name hfailed hreport

end Dipp
