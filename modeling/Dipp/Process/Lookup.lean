import Dipp.Config.Safety
import Dipp.Process.Queue

/-!
# Which pipelines are found

A pipeline is looked up by the ids in the table. These are zero at process start, and a
setup call that gets a definition, be it the empty one, writes the id of its slot. So a
slot answers to its own id as soon as anything was decoded for it, and to the id zero
until then.
-/

namespace Dipp

variable (libs : Libraries)

/-- Setup calls write the id of their slot if they deliver any definition. -/
theorem slotRun_pipelineId (k : Fin maxPipelines)
    (calls : List (CallEnv × Option PipelineDefinition)) (old entry : Pipeline)
    (h : slotRun libs k calls old = .ok entry) :
    entry.pipelineId =
      if calls.filterMap Prod.snd = [] then old.pipelineId else Int32.ofNat (k + 1) := by
  induction calls generalizing old with
  | nil => exact congrArg Pipeline.pipelineId (Except.ok.inj h).symm
  | cons call rest ih =>
    obtain ⟨next, hnext, hrest⟩ := Execution.run_cons_eq_ok h
    rw [ih next hrest]
    obtain ⟨env, message⟩ := call
    cases message with
    | none =>
      obtain rfl := Except.ok.inj hnext
      rw [List.filterMap_cons_none rfl]
    | some pdef =>
      have hid : next.pipelineId = Int32.ofNat (k + 1) := by
        simp only [slotAfter] at hnext
        split at hnext
        · exact (congrArg Pipeline.pipelineId (Except.ok.inj hnext)).symm
        · contradiction
      simp [hid]

/-- After a run from process start, a slot has its own id if a definition was decoded for it, and
zero otherwise. -/
theorem run_pipelineId {pipelineParams : Fin maxPipelines → ParamData}
    {moduleParams : Fin maxModules → ParamData} {logStatus : UInt32} {ops : List ConfigOp}
    {c : ConfigState} (hrun : Execution.run (configStep libs) ops
      (.boot pipelineParams moduleParams logStatus) = .ok c) (k : Fin maxPipelines) :
    (c.pipelines k).pipelineId =
      if definitions libs k ops pipelineParams false = [] then 0 else Int32.ofNat (k + 1) :=
  slotRun_pipelineId libs k _ _ _ ((run_sound libs ops _ c hrun).2.2.2 k)

/-- The id of a slot as a number. -/
theorem toInt_slotId (k : Fin maxPipelines) : (Int32.ofNat (k + 1)).toInt = (k : ℤ) + 1 := by
  have hk := k.isLt
  have hmax : maxPipelines = 6 := rfl
  rw [Int32.toInt_ofNat_of_lt (by omega)]
  omega

/-- A non-empty definition has been decoded for the slot that the id names. -/
def Configured (ops : List ConfigOp) (pipelineParams : Fin maxPipelines → ParamData)
    (pipelineId : Int32) (k : Fin maxPipelines) : Prop :=
  pipelineId.toInt = (k : ℤ) + 1 ∧
    ∃ pdef ∈ definitions libs k ops pipelineParams false, pdef.modules ≠ []

/-- Removing a segment writes nothing to the ring and calls no module. -/
theorem removeSegment_frame {W : Type*} (platform : Platform W) (shmid : Int32)
    (s : ProcessState W) :
    (removeSegment platform shmid s).ring = s.ring ∧
      (removeSegment platform shmid s).calls = s.calls := by
  unfold removeSegment
  split <;> dsimp only <;> split <;> exact ⟨rfl, rfl⟩

/-- A batch whose pipeline is not found is refused: no module is called and nothing is uploaded. -/
structure Refused {W : Type} (platform : Platform W) (s : ProcessState W) (batch : ImageBatch) :
    Prop where
  failure : ∃ s', loadPipelineAndExecute platform batch s = .ok ⟨.failure, batch, s'⟩ ∧
    s'.calls = s.calls ∧ s'.config.err.logStatus = 500000
  no_upload : ∃ s', process platform libs batch s = .ok (batch, s') ∧ s'.calls = s.calls ∧
    s'.ring = s.ring

/-- Only configured pipelines are found, each as its own slot, and all other batches refused. -/
structure FindsConfigured (ops : List ConfigOp) (pipelineParams : Fin maxPipelines → ParamData)
    (c : ConfigState) (pipelineId : Int32) : Prop where
  found_iff : (∃ k, getPipelineById c.pipelines pipelineId = some k) ↔
    ∃ k, Configured libs ops pipelineParams pipelineId k
  slot_eq : ∀ k, getPipelineById c.pipelines pipelineId = some k → pipelineId.toInt = (k : ℤ) + 1
  refused : (¬ ∃ k, Configured libs ops pipelineParams pipelineId k) →
    ∀ {W : Type} (platform : Platform W) (s : ProcessState W) (batch : ImageBatch),
      s.config = c → batch.pipelineId = pipelineId → Refused libs platform s batch

/-- An id without a slot is refused, with the error of a missing pipeline outside of a run. -/
theorem refused_of_not_found {c : ConfigState} {pipelineId : Int32}
    (hnone : getPipelineById c.pipelines pipelineId = none)
    (hpipeline : c.err.errCurrentPipeline = 0) (hmodule : c.err.errCurrentModule = 0)
    {W : Type} (platform : Platform W) (s : ProcessState W) (batch : ImageBatch) (hs : s.config = c)
    (hbatch : batch.pipelineId = pipelineId) : Refused libs platform s batch := by
  have hload : loadPipelineAndExecute platform batch s =
      .ok ⟨.failure, batch, s.setErrorParam ErrorCode.internalPidNotFound.value⟩ := by
    simp only [loadPipelineAndExecute, hs, hbatch, hnone]
  refine ⟨⟨_, hload, rfl, ?_⟩, ?_⟩
  · simp only [ProcessState.setErrorParam, setErrorParam, getErrorAsUint32, hs, hpipeline, hmodule]
    decide
  · simp only [process, hload]
    generalize platform.shmat _ batch.shmid = attach
    obtain ⟨attachment, w⟩ := attach
    cases attachment with
    | null => exact ⟨_, rfl, rfl, rfl⟩
    | failed =>
      obtain ⟨hring, hcalls⟩ := removeSegment_frame platform batch.shmid _
      exact ⟨_, rfl, hcalls, hring⟩
    | attached address mem =>
      obtain ⟨hring, hcalls⟩ := removeSegment_frame platform batch.shmid _
      exact ⟨_, rfl, hcalls, hring⟩

/-- In a configuration reached from process start, lookups find what was configured and nothing
else exactly if each slot has decoded something when the id is zero, and the slot that the id
names has decoded nothing at all or a definition that is not empty. -/
theorem findsConfigured_iff (pipelineParams : Fin maxPipelines → ParamData)
    (moduleParams : Fin maxModules → ParamData) (logStatus : UInt32) (ops : List ConfigOp)
    (c : ConfigState) (hrun : Execution.run (configStep libs) ops
      (.boot pipelineParams moduleParams logStatus) = .ok c) (pipelineId : Int32) :
    FindsConfigured libs ops pipelineParams c pipelineId ↔
      (pipelineId = 0 → ∀ k, definitions libs k ops pipelineParams false ≠ []) ∧
        ∀ k : Fin maxPipelines, pipelineId.toInt = (k : ℤ) + 1 →
          definitions libs k ops pipelineParams false ≠ [] →
            ∃ pdef ∈ definitions libs k ops pipelineParams false, pdef.modules ≠ [] := by
  have hids := run_pipelineId libs hrun
  have hslot (k : Fin maxPipelines) (hid : pipelineId.toInt = (k : ℤ) + 1) :
      pipelineId = Int32.ofNat (k + 1) := by
    apply Int32.toInt_inj.mp
    rw [hid, toInt_slotId]
  constructor
  · rintro ⟨hfound, -, -⟩
    constructor
    · rintro rfl k hempty
      obtain ⟨k', hzero, -⟩ := hfound.mp ((getPipelineById_isSome_iff _ _).mpr
        ⟨k, by rw [hids k, if_pos hempty]⟩)
      have hnat : (0 : ℤ) = (k' : ℤ) + 1 := hzero
      omega
    · intro k hid hsome
      obtain ⟨k', hid', pdef, hpdef, hmodules⟩ := hfound.mp ((getPipelineById_isSome_iff _ _).mpr
        ⟨k, by rw [hids k, if_neg hsome, hslot k hid]⟩)
      obtain rfl : k' = k := Fin.ext (by omega)
      exact ⟨pdef, hpdef, hmodules⟩
  · rintro ⟨hzero, hnonempty⟩
    have hconfigured (k : Fin maxPipelines) (h : (c.pipelines k).pipelineId = pipelineId) :
        Configured libs ops pipelineParams pipelineId k := by
      rw [hids k] at h
      by_cases hempty : definitions libs k ops pipelineParams false = []
      · rw [if_pos hempty] at h
        exact absurd hempty (hzero h.symm k)
      · rw [if_neg hempty] at h
        have hid : pipelineId.toInt = (k : ℤ) + 1 := by rw [← h, toInt_slotId]
        exact ⟨hid, hnonempty k hid hempty⟩
    have hfound : (∃ k, getPipelineById c.pipelines pipelineId = some k) ↔
        ∃ k, Configured libs ops pipelineParams pipelineId k := by
      rw [getPipelineById_isSome_iff]
      constructor
      · rintro ⟨k, h⟩
        exact ⟨k, hconfigured k h⟩
      · rintro ⟨k, hid, pdef, hpdef, -⟩
        exact ⟨k, by rw [hids k, if_neg (List.ne_nil_of_mem hpdef), hslot k hid]⟩
    refine ⟨hfound, fun k h => (hconfigured k (getPipelineById_eq_some h)).1, ?_⟩
    intro hnone W platform s batch hs hbatch
    obtain ⟨-, -, ⟨hpipeline, hmodule⟩, -⟩ := run_sound libs ops _ c hrun
    exact refused_of_not_found libs (Option.eq_none_iff_forall_ne_some.mpr fun k h =>
      hnone (hfound.mp ⟨k, h⟩)) hpipeline hmodule platform s batch hs hbatch

/-- A pipeline that was written and set up is found under its id, and no other is. -/
theorem findsConfigured_iff_written :
    ∃ c, Execution.run (configStep definitionLibraries)
        [.storePipeline 0 (.ofStream (storedStream packedDefinition)), .setupPipeline 0 .ample]
        (.boot (fun _ => .zero) (fun _ => .zero) 0) = .ok c ∧
      FindsConfigured definitionLibraries
        [.storePipeline 0 (.ofStream (storedStream packedDefinition)), .setupPipeline 0 .ample]
        (fun _ => .zero) c 1 := by
  refine ⟨_, rfl, (findsConfigured_iff definitionLibraries (fun _ => .zero) (fun _ => .zero) 0
    [.storePipeline 0 (.ofStream (storedStream packedDefinition)), .setupPipeline 0 .ample]
    _ rfl 1).mpr ⟨by decide, ?_⟩⟩
  intro k hid _
  have hone : (1 : Int32).toInt = 1 := rfl
  have hindex : (k : ℕ) = 0 := by
    rw [hone] at hid
    omega
  obtain rfl : k = 0 := Fin.ext hindex
  exact ⟨⟨[⟨[0x61], 1⟩]⟩, by decide, by decide⟩

/-- A cache that is set up from storage that was never written finds a pipeline. -/
theorem not_findsConfigured :
    ¬ ∀ (libs : Libraries) (pipelineParams : Fin maxPipelines → ParamData)
        (moduleParams : Fin maxModules → ParamData) (logStatus : UInt32) (ops : List ConfigOp)
        (c : ConfigState) (pipelineId : Int32), libs.pipelineDefinitionUnpack [] = some ⟨[]⟩ →
        Execution.run (configStep libs) ops (.boot pipelineParams moduleParams logStatus) = .ok c →
        FindsConfigured libs ops pipelineParams c pipelineId := by
  intro h
  obtain ⟨c, hrun⟩ : ∃ c, Execution.run (configStep definitionLibraries)
      [.setupCacheIfNeeded ⟨fun _ => .ample, fun _ => .ample⟩]
      (.boot (fun _ => .zero) (fun _ => .zero) 0) = .ok c := ⟨_, rfl⟩
  have hfinds := h definitionLibraries (fun _ => .zero) (fun _ => .zero) 0
    [.setupCacheIfNeeded ⟨fun _ => .ample, fun _ => .ample⟩] c 1 (by decide) hrun
  have hdefinitions (k : Fin maxPipelines) : definitions definitionLibraries k
      [.setupCacheIfNeeded ⟨fun _ => .ample, fun _ => .ample⟩] (fun _ => .zero) false = [⟨[]⟩] :=
    rfl
  have hid : (c.pipelines 0).pipelineId = 1 := by
    rw [run_pipelineId definitionLibraries hrun 0, hdefinitions 0]
    rfl
  obtain ⟨k, -, pdef, hpdef, hmodules⟩ :=
    hfinds.found_iff.mp ((getPipelineById_isSome_iff _ _).mpr ⟨0, hid⟩)
  rw [hdefinitions k, List.mem_singleton] at hpdef
  exact hmodules (hpdef ▸ rfl)

end Dipp
