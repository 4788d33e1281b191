import Dipp.Process.Descriptors

/-!
# How many descriptors are lost

A call of `execute_pipeline` that is broken off loses the descriptors of its pipes: two if
the second pipe cannot be created behind the first one, four if the result of a module
cannot be read. Nothing else is lost, and nothing is closed that was open before the call:
over any run of calls the open descriptors grow by what was lost.
-/

namespace Dipp

open Execution

variable {W : Type*} (platform : Platform W)

/-- The loop over the modules comes to a result that cannot be read. -/
def losesResult (pipeline : Pipeline) : (remaining i : ℕ) → ImageBatch → ProcessState W → Bool
  | 0, _, _, _ => false
  | remaining + 1, i, batch, s =>
    if h : i < maxModules then
      let current := s.atModule i
      let stage := current.config.stageOf (pipeline.modules ⟨i, h⟩)
      match executeModuleInProcess platform stage batch current with
      | .ok (.success, ran) =>
        if platform.readFails ran.world .output then true
        else
          match takeResult platform batch ran with
          | .ok (some next, taken) => losesResult pipeline remaining (i + 1) next taken
          | _ => false
      | _ => false
    else false

/-- The number of descriptors that a call loses. -/
def PipelineCall.lost (s : ProcessState W) (call : PipelineCall) : ℕ :=
  match openPipes platform (call.enter s) with
  | (false, _) => if platform.outputPipeOpens s.world then 2 else 0
  | (true, opened) =>
    bif losesResult platform call.pipeline call.pipeline.numModules 0 call.batch opened then 4
    else 0

/-- The number of descriptors that a run of calls loses. -/
def lostAlong : List PipelineCall → ProcessState W → ℕ
  | [], _ => 0
  | call :: rest, s =>
    call.lost platform s +
      match executeCall platform s call with
      | .ok next => lostAlong rest next
      | .error _ => 0

variable {platform}

/-- Where the loop returns, the pipes are closed, or all their descriptors are lost. -/
theorem executeModules_descriptors {pipeline : Pipeline} {before : Finset ℕ} (remaining i : ℕ)
    (batch : ImageBatch) (s : ProcessState W) (hbeside : s.ends.Beside before)
    (hheld : .parent ∈ s.outputPipe.pipe.writeEnds) {outcome : Outcome W}
    (h : executeModules platform pipeline remaining i batch s = .ok outcome) :
    outcome.state.descriptors =
      bif losesResult platform pipeline remaining i batch s then s.descriptors else before := by
  induction remaining generalizing i batch s with
  | zero =>
    obtain rfl := Except.ok.inj h
    exact hbeside.closePipes
  | succ remaining ih =>
    rw [executeModules] at h
    rw [losesResult]
    by_cases hi : i < maxModules
    swap
    · rw [dif_neg hi] at h
      contradiction
    rw [dif_pos hi] at h ⊢
    dsimp only at h ⊢
    cases hran : executeModuleInProcess platform
        ((s.atModule i).config.stageOf (pipeline.modules ⟨i, hi⟩)) batch (s.atModule i) with
    | error stop =>
      rw [hran] at h
      contradiction
    | ok result =>
      obtain ⟨status, ran⟩ := result
      have hkeeps := executeModuleInProcess_keepsEnds hran
      have hbeside' : ran.ends.Beside before := hkeeps.ends ▸ hbeside
      have hheld' := hkeeps.held hheld
      have hopen : ran.descriptors = s.descriptors := congrArg Ends.descriptors hkeeps.ends
      rw [hran] at h
      cases status with
      | failure =>
        obtain rfl := Except.ok.inj h
        exact hbeside'.closePipes
      | success =>
        dsimp only at h ⊢
        cases hfails : platform.readFails ran.world .output with
        | true =>
          rw [takeResult_of_readFails batch hfails] at h
          obtain rfl := Except.ok.inj h
          exact hopen
        | false =>
          cases htaken : takeResult platform batch ran with
          | error stop =>
            rw [htaken] at h
            contradiction
          | ok taken =>
            obtain ⟨next, taken⟩ := taken
            rw [htaken] at h
            cases next with
            | none => exact absurd htaken (takeResult_ne_none hfails hheld' taken)
            | some next =>
              have hkeeps' := takeResult_keepsEnds htaken
              have hopen' : taken.descriptors = ran.descriptors :=
                congrArg Ends.descriptors hkeeps'.ends
              have hrest := ih (i + 1) next taken (hkeeps'.ends ▸ hbeside') (hkeeps'.held hheld') h
              rw [hopen', hopen] at hrest
              exact hrest

/-- Beside what was open before, four descriptors are open. -/
theorem Ends.Beside.card {before : Finset ℕ} {ends : Ends} (h : ends.Beside before) :
    before ⊆ ends.descriptors ∧ ends.descriptors.card = before.card + 4 := by
  rw [h.descriptors]
  constructor
  · intro descriptor hmem
    simp only [Finset.mem_insert, hmem, or_true]
  · rw [Finset.card_insert_of_notMem h.errorWrite, Finset.card_insert_of_notMem h.errorRead,
      Finset.card_insert_of_notMem h.outputWrite, Finset.card_insert_of_notMem h.outputRead]

/-- The descriptors that are open where a pipe could not be created. -/
theorem openPipes_false_descriptors {s failed : ProcessState W}
    (h : openPipes platform s = (false, failed)) :
    s.descriptors ⊆ failed.descriptors ∧ failed.descriptors.card =
      s.descriptors.card + if platform.outputPipeOpens s.world then 2 else 0 := by
  unfold openPipes at h
  split_ifs at h with houtput herror
  · simp at h
  · obtain ⟨-, rfl⟩ := Prod.mk.inj h
    rw [if_pos houtput]
    constructor
    · intro descriptor hmem
      simp only [Finset.mem_insert, hmem, or_true]
    · dsimp only [PipeEnds.create]
      rw [Finset.card_insert_of_notMem (lowestFree_notMem _),
        Finset.card_insert_of_notMem (lowestFree_notMem _)]
  · obtain ⟨-, rfl⟩ := Prod.mk.inj h
    rw [if_neg houtput]
    exact ⟨Finset.Subset.refl _, rfl⟩

/-- A call closes nothing that was open before it, and leaves open what it loses. -/
theorem executeCall_descriptors {s next : ProcessState W} {call : PipelineCall}
    (h : executeCall platform s call = .ok next) :
    s.descriptors ⊆ next.descriptors ∧
      next.descriptors.card = s.descriptors.card + call.lost platform s := by
  rw [executeCall, executePipeline] at h
  rw [PipelineCall.lost]
  cases hopen : openPipes platform (call.enter s) with
  | mk created state =>
    rw [hopen] at h
    cases created with
    | false =>
      obtain rfl := Except.ok.inj h
      have hfirst := openPipes_false_descriptors hopen
      exact hfirst
    | true =>
      obtain ⟨hbeside, hheld, -⟩ := openPipes_true hopen
      dsimp only at h ⊢
      cases hloop : executeModules platform call.pipeline call.pipeline.numModules 0 call.batch
          state with
      | error stop =>
        rw [hloop] at h
        contradiction
      | ok outcome =>
        rw [hloop] at h
        obtain rfl := Except.ok.inj h
        have hleft := executeModules_descriptors _ 0 call.batch state hbeside hheld hloop
        rw [hleft]
        cases losesResult platform call.pipeline call.pipeline.numModules 0 call.batch state with
        | true => exact hbeside.card
        | false => exact ⟨Finset.Subset.refl _, rfl⟩

/-- Over any run of calls, whatever fails in it, no descriptor is closed that was open before, and
the open ones grow by two for each call whose second pipe could not be created behind the first one,
and by four for each call that came to a result it could not read. -/
theorem descriptors_grow_by_lost (calls : List PipelineCall) {s last : ProcessState W}
    (h : run (executeCall platform) calls s = .ok last) :
    s.descriptors ⊆ last.descriptors ∧
      last.descriptors.card = s.descriptors.card + lostAlong platform calls s := by
  induction calls generalizing s with
  | nil =>
    obtain rfl := Except.ok.inj h
    exact ⟨Finset.Subset.refl _, rfl⟩
  | cons call rest ih =>
    obtain ⟨next, hnext, hrest⟩ := run_cons_eq_ok h
    obtain ⟨hsubset, hcard⟩ := executeCall_descriptors hnext
    obtain ⟨hsubset', hcard'⟩ := ih hrest
    refine ⟨hsubset.trans hsubset', ?_⟩
    rw [hcard', hcard, lostAlong, hnext, Nat.add_assoc]

/-- The platform on which no result of a module can be read. -/
def unreadablePlatform : Platform Unit :=
  { Platform.ofModules sampleBehave fun _ => [] with readFails := fun _ name => name = .output }

/-- Two calls of the sample pipeline. -/
def sampleCalls : List PipelineCall :=
  List.replicate 2 ⟨sampleConfig, sampleConfig.pipelines 0, ⟨1, 1, 0, 7, 1, 0⟩⟩

/-- They lose eight descriptors. -/
theorem descriptors_grow_by_eight :
    ∃ last, run (executeCall unreadablePlatform) sampleCalls (.boot sampleConfig () none) =
        .ok last ∧ (ProcessState.boot sampleConfig () none).descriptors ⊆ last.descriptors ∧
      last.descriptors.card = (ProcessState.boot sampleConfig () none).descriptors.card +
        lostAlong unreadablePlatform sampleCalls (.boot sampleConfig () none) :=
  ⟨_, rfl, descriptors_grow_by_lost sampleCalls rfl⟩

example : lostAlong unreadablePlatform sampleCalls (.boot sampleConfig () none) = 8 := by decide

end Dipp
