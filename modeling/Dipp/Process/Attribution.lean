import Dipp.Process.Blocking

/-!
# Whose error code is reported

All modules of a run write their codes into one error pipe. It is read only when a module has
failed, two bytes from its front, and never emptied after a success, so what is reported of
the module that failed is the earliest code of the run. That is one of its own if no module
before it has written any, or if the earliest code is mapped to the same error.
-/

namespace Dipp

variable {W : Type*} (platform : Platform W)

/-- The run's last module exits with a status other than zero, and has written a code. -/
structure ExitsWithCode (steps earlier : List ModuleStep) (last : ModuleStep) : Prop where
  steps_eq : steps = earlier ++ [last]
  exits : ∃ status ≠ 0, last.observed.waitStatus = .exited status
  writes : last.observed.writtenCodes ≠ []

/-- What `log_status` says of a module that exited with a code is one of its codes. -/
def AttributesCodes (pipeline : Pipeline) (batch : ImageBatch) (s : ProcessState W)
    (steps : List ModuleStep) : Prop :=
  ∀ earlier last, ExitsWithCode steps earlier last →
    ∃ out s', executePipeline platform pipeline batch s = .ok ⟨.failure, out, s'⟩ ∧
      ∃ code ∈ last.observed.writtenCodes, s'.config.err =
        setErrorParam (codeReport code) (s.config.err.afterModules 0 steps.length)

/-- If the modules before one that exits with a code have written codes, the earliest of these is
mapped to the same error as one of its own. -/
def OwnCodeFirst (steps : List ModuleStep) : Prop :=
  ∀ earlier last, ExitsWithCode steps earlier last →
    ∀ first ∈ (earlier.flatMap fun step => step.observed.codes).head?,
      ∃ code ∈ last.observed.writtenCodes, codeReport code = codeReport first

variable {platform}

/-- A module that exited by itself did not return, and is not killed. -/
theorem ExitsWithCode.report {steps earlier : List ModuleStep} {last : ModuleStep}
    (h : ExitsWithCode steps earlier last) : last.observed.returned = none ∧
      finalReport [] steps = ((earlier.flatMap fun step => step.observed.codes) ++
        last.observed.writtenCodes).head?.map codeReport := by
  obtain ⟨rfl, ⟨status, hstatus, hexits⟩, -⟩ := h
  have hwait : last.observed.waitStatus ≠ .exited 0 := by
    rw [hexits]
    exact fun h => hstatus (WaitStatus.exited.inj h)
  rw [finalReport_concat, if_neg hwait, List.nil_append]
  unfold ModuleRun.waitStatus at hexits hwait
  unfold ModuleRun.returned ModuleRun.report
  cases hending : last.observed.ending with
  | returned result => simp [hending] at hwait
  | killed => simp [hending] at hexits
  | exited other => exact ⟨rfl, rfl⟩
  | timedOut => exact ⟨rfl, rfl⟩

/-- What is reported of such a module is the earliest code of the run. -/
theorem ExitsWithCode.log_status {pipeline : Pipeline} {batch : ImageBatch} {s : ProcessState W}
    {earlier : List ModuleStep} {last : ModuleStep} (hreliable : platform.Reliable)
    (hroom : pipeline.numModules ≤ maxModules)
    (h : ExitsWithCode (pipelineRun platform (pipeline.stages s.config) batch s.world).steps earlier
      last) :
    ∃ first out s', ((earlier.flatMap fun step => step.observed.codes) ++
        last.observed.writtenCodes).head? = some first ∧
      executePipeline platform pipeline batch s = .ok ⟨.failure, out, s'⟩ ∧
      s'.config.err = setErrorParam (codeReport first) (s.config.err.afterModules 0
        (pipelineRun platform (pipeline.stages s.config) batch s.world).steps.length) := by
  obtain ⟨hreturned, hreport⟩ := h.report
  have hends := executePipeline_run platform hreliable pipeline hroom batch s
  have hfailed := failed_of_last h.steps_eq hreturned
  have hne : (earlier.flatMap fun step => step.observed.codes) ++
      last.observed.writtenCodes ≠ [] := List.append_ne_nil_of_right_ne_nil _ h.writes
  obtain ⟨first, rest, hcodes⟩ := List.exists_cons_of_ne_nil hne
  rw [hcodes] at hreport ⊢
  obtain ⟨s', hok, herr⟩ := hends.ok_of_some hfailed hreport
  exact ⟨first, _, s', rfl, hok, herr⟩

/-- The error of a module that exits with a code is attributed to it, if and only if no module
before it has written a code, or the earliest one is mapped to the same error as one of its own. -/
theorem attributesCodes_iff (hreliable : platform.Reliable) (pipeline : Pipeline)
    (hroom : pipeline.numModules ≤ maxModules) (batch : ImageBatch) (s : ProcessState W) :
    AttributesCodes platform pipeline batch s
        (pipelineRun platform (pipeline.stages s.config) batch s.world).steps ↔
      OwnCodeFirst (pipelineRun platform (pipeline.stages s.config) batch s.world).steps := by
  refine forall₃_congr fun earlier last hexits => ?_
  obtain ⟨first, out, s', hfirst, hok, herr⟩ := hexits.log_status hreliable hroom
  constructor
  · rintro ⟨out', s'', hok', code, hcode, herr'⟩ leftover hleftover
    rw [hok] at hok'
    obtain ⟨-, rfl, rfl⟩ := Outcome.mk.inj (Except.ok.inj hok')
    have hsame := setErrorParam_injective _ (codeReport_lt code) (codeReport_lt first)
      (herr'.symm.trans herr)
    refine ⟨code, hcode, hsame.trans ?_⟩
    rw [List.head?_append, hleftover, Option.some_or] at hfirst
    rw [Option.some.inj hfirst]
  · intro hown
    refine ⟨out, s', hok, ?_⟩
    cases hleft : (earlier.flatMap fun step => step.observed.codes).head? with
    | none =>
      rw [List.head?_append, hleft, Option.none_or] at hfirst
      exact ⟨first, List.mem_of_mem_head? hfirst, herr⟩
    | some leftover =>
      rw [List.head?_append, hleft, Option.some_or] at hfirst
      obtain ⟨code, hcode, hsame⟩ := hown leftover hleft
      refine ⟨code, hcode, ?_⟩
      rw [herr, hsame, Option.some.inj hfirst]

/-- In the sample run, the only code is that of the module that fails. -/
theorem attributesCodes_sample :
    AttributesCodes (.ofModules sampleBehave fun _ => []) (sampleConfig.pipelines 0)
      ⟨1, 1, 0, 7, 1, 0⟩ (.boot sampleConfig () none)
      (pipelineRun (.ofModules sampleBehave fun _ => [])
        ((sampleConfig.pipelines 0).stages sampleConfig) ⟨1, 1, 0, 7, 1, 0⟩ ()).steps := by
  refine (attributesCodes_iff (Platform.ofModules_reliable sampleBehave fun _ => [])
    (sampleConfig.pipelines 0) (by decide) ⟨1, 1, 0, 7, 1, 0⟩ (.boot sampleConfig () none)).mpr ?_
  intro earlier last hexits first hfirst
  have hearlier := congrArg List.dropLast hexits.steps_eq
  rw [List.dropLast_concat] at hearlier
  rw [← hearlier] at hfirst
  have hnone : none = some first := hfirst
  contradiction

/-- A first module that leaves a code and returns, and a second one that fails with another. -/
def leavingBehave (function : ModuleFunction) (batch : ImageBatch) : ModuleRun :=
  if function.address = 1 then ⟨[5], .returned batch⟩ else ⟨[7], .exited 1⟩

/-- The code that the first module left is reported of the second one. -/
theorem not_always_attributesCodes :
    ¬ ∀ (platform : Platform Unit) (pipeline : Pipeline) (batch : ImageBatch)
        (s : ProcessState Unit), platform.Reliable → pipeline.numModules ≤ maxModules →
        AttributesCodes platform pipeline batch s
          (pipelineRun platform (pipeline.stages s.config) batch s.world).steps := by
  intro h
  have hreliable := Platform.ofModules_reliable leavingBehave fun _ => []
  let batch : ImageBatch := ⟨1, 1, 0, 7, 1, 0⟩
  let s : ProcessState Unit := .boot sampleConfig () none
  have hexits : ExitsWithCode (pipelineRun (.ofModules leavingBehave fun _ => [])
      ((sampleConfig.pipelines 0).stages sampleConfig) batch ()).steps
      [⟨⟨some ⟨1⟩, some ⟨0, .null⟩⟩, batch, ⟨[5], .returned batch⟩⟩]
      ⟨⟨some ⟨2⟩, some ⟨0, .null⟩⟩, batch, ⟨[7], .exited 1⟩⟩ :=
    ⟨rfl, ⟨1, by decide, rfl⟩, List.cons_ne_nil _ _⟩
  obtain ⟨out, s', hok, code, hcode, herr⟩ :=
    h _ (sampleConfig.pipelines 0) batch s hreliable (by decide) _ _ hexits
  obtain ⟨first, out', s'', hfirst, hok', herr'⟩ :=
    ExitsWithCode.log_status (s := s) hreliable (by decide) hexits
  rw [hok] at hok'
  obtain ⟨-, -, rfl⟩ := Outcome.mk.inj (Except.ok.inj hok')
  obtain rfl : (5 : UInt16) = first := Option.some.inj hfirst
  obtain rfl : code = 7 := List.mem_singleton.mp hcode
  have hsame := setErrorParam_injective _ (by decide) (by decide) (herr.symm.trans herr')
  exact absurd hsame (by decide)

end Dipp
