import Dipp.Process.Fold
import Dipp.Process.Frame
import Dipp.Process.Lookup

/-!
# What one batch comes to

The outcome of a batch is stated without the processing thread: its id selects a stored
definition, the modules of that definition run on it, and the segment they leave behind
is attached. A batch inherits from its predecessors the world, the parameter lists, and
the need for a rebuild after a failure. Setting up the cache and processing the batch
come to exactly this outcome.
-/

namespace Dipp

open Framing

variable {W : Type*} (platform : Platform W) (libs : Libraries)

/-- The slot that a pipeline id names. -/
def slotOf (pipelineId : Int32) : Option (Fin maxPipelines) :=
  if h : 1 ≤ pipelineId.toInt ∧ pipelineId.toInt ≤ maxPipelines then
    some ⟨pipelineId.toInt.toNat - 1, by omega⟩
  else none

/-- A module of a definition as it is called, with the parameter list of its own id. -/
def ModuleDefinition.stage (lists : Fin maxModules → ModuleParameterList)
    (mdef : ModuleDefinition) : Stage :=
  ⟨moduleFunctionOf libs mdef.name,
    if h : 1 ≤ mdef.paramId.toInt ∧ mdef.paramId.toInt ≤ maxModules then
      some (lists ⟨mdef.paramId.toInt.toNat - 1, by omega⟩)
    else none⟩

variable (defs : Fin maxPipelines → PipelineDefinition)

/-- The run of the definition that a batch asks for; an unknown id runs nothing. -/
def batchRun (lists : Fin maxModules → ModuleParameterList) (batch : ImageBatch) (w : W) :
    Stages.Run W Stage ImageBatch ModuleRun :=
  match slotOf batch.pipelineId with
  | none => ⟨[], batch, false, w⟩
  | some k => pipelineRun platform ((defs k).modules.map (·.stage libs lists)) batch w

/-- What a batch comes to: whether its pipeline was found, the run of its modules, and what the
final segment is attached as. -/
structure BatchOutcome (W : Type*) where
  found : Bool
  run : Stages.Run W Stage ImageBatch ModuleRun
  segment : Attachment

/-- The pipeline was found and all its modules returned. -/
def BatchOutcome.delivered (outcome : BatchOutcome W) : Bool :=
  outcome.found && !outcome.run.failed

/-- The final segment is a sequence of well-formed blocks, as long as the final batch says. -/
def BatchOutcome.Holds (outcome : BatchOutcome W) (blocks : List (List UInt8)) : Prop :=
  ∃ address mem, outcome.segment = .attached address mem ∧ Mapped.Holds mem blocks.flatten ∧
    outcome.run.value.batchSize.toInt = blocks.flatten.length ∧
    ∀ block ∈ blocks, IsBlock (blockLength libs.metadataUnpack) block

/-- The elements a batch adds to the ring: the first blocks of its segment if it is delivered, and
nothing otherwise. -/
def BatchOutcome.contribution (outcome : BatchOutcome W) (blocks : List (List UInt8)) :
    List (List UInt8) :=
  if outcome.delivered then blocks.take outcome.run.value.numImages.toInt.toNat else []

/-- What a batch inherits: the parameter lists, whether they are current, and the world. -/
structure Inherited (W : Type*) where
  lists : Fin maxModules → ModuleParameterList
  isSetup : Bool
  world : W

variable (moduleParams : Fin maxModules → ParamData)

/-- The parameter lists that a batch is processed with, rebuilt after a failure. -/
def Inherited.currentLists (inherited : Inherited W) : Fin maxModules → ModuleParameterList :=
  if inherited.isSetup then inherited.lists
  else fun j =>
    let env := (platform.rebuildEnv inherited.world).module j
    listAfter env (moduleMessage libs env (moduleParams j)) (inherited.lists j)

/-- The run of a batch. -/
def Inherited.run (inherited : Inherited W) (batch : ImageBatch) :
    Stages.Run W Stage ImageBatch ModuleRun :=
  batchRun platform libs defs (inherited.currentLists platform libs moduleParams) batch
    inherited.world

/-- What a batch comes to after its predecessors. -/
def Inherited.outcome (inherited : Inherited W) (batch : ImageBatch) : BatchOutcome W :=
  let run := inherited.run platform libs defs moduleParams batch
  ⟨(slotOf batch.pipelineId).isSome, run, (platform.shmat run.world run.value.shmid).1⟩

/-- What it leaves to its successors; a failure asks for a rebuild. -/
def Inherited.next (inherited : Inherited W) (batch : ImageBatch) : Inherited W :=
  let run := inherited.run platform libs defs moduleParams batch
  ⟨inherited.currentLists platform libs moduleParams, !run.failed,
    (platform.shmat run.world run.value.shmid).2⟩

/-- What the processing thread passes on from one batch to the next. -/
def ProcessState.inherited (s : ProcessState W) : Inherited W :=
  ⟨s.config.moduleParameterLists, s.config.isSetup, s.world⟩

/-- Segments can be attached, detached and removed. -/
structure Platform.SharesMemory : Prop where
  shmat : ∀ w shmid, ∃ address mem, (platform.shmat w shmid).1 = .attached address mem
  shmdt : ∀ w, platform.shmdtSucceeds w = true
  shmctl : ∀ w shmid, platform.shmctlSucceeds w shmid = true

/-- Tables that show the definitions are searched as the ids say. -/
theorem getPipelineById_eq_slotOf {pipelines : Fin maxPipelines → Pipeline}
    (hids : ∀ k, (pipelines k).pipelineId = Int32.ofNat (k + 1)) (pipelineId : Int32) :
    getPipelineById pipelines pipelineId = slotOf pipelineId := by
  have hslot (k : Fin maxPipelines) (h : (pipelines k).pipelineId = pipelineId) :
      slotOf pipelineId = some k := by
    have hk := k.isLt
    have hint : pipelineId.toInt = (k : ℤ) + 1 := by rw [← h, hids k, toInt_slotId]
    rw [slotOf, dif_pos (by omega)]
    congr 1
    exact Fin.ext (by simp only [hint]; omega)
  cases hfound : getPipelineById pipelines pipelineId with
  | some k => exact (hslot k (getPipelineById_eq_some hfound)).symm
  | none =>
    cases hk : slotOf pipelineId with
    | none => rfl
    | some k =>
      unfold slotOf at hk
      split at hk
      case isFalse => contradiction
      case isTrue hrange =>
        obtain rfl := Option.some.inj hk
        have hlt : pipelineId.toInt.toNat - 1 < maxPipelines := by omega
        have hid : (pipelines ⟨pipelineId.toInt.toNat - 1, hlt⟩).pipelineId = pipelineId := by
          apply Int32.toInt_inj.mp
          rw [hids, toInt_slotId, Fin.val_mk]
          omega
        obtain ⟨k', hk'⟩ := (getPipelineById_isSome_iff pipelines pipelineId).mpr ⟨_, hid⟩
        rw [hfound] at hk'
        contradiction

/-- The parameter list of a module is the one its definition names. -/
theorem stageOf_cachedModule (c : ConfigState) (mdef : ModuleDefinition)
    (hparam : 1 ≤ mdef.paramId.toInt ∧ mdef.paramId.toInt ≤ maxModules) :
    c.stageOf (cachedModule libs mdef) = mdef.stage libs c.moduleParameterLists := by
  have hone : (1 : Int32).toInt = 1 := rfl
  have hmax : ((maxModules : ℕ) : ℤ) = 20 := rfl
  have hsub : (mdef.paramId - 1).toInt = mdef.paramId.toInt - 1 := by
    rw [Int32.toInt_sub, hone, Int.bmod_def]
    split <;> omega
  have hindex : (mdef.paramId - 1).toInt.toNat = mdef.paramId.toInt.toNat - 1 := by omega
  have hlt : mdef.paramId.toInt.toNat - 1 < maxModules := by
    have hsize : maxModules = 20 := rfl
    omega
  rw [ModuleDefinition.stage, dif_pos hparam, cachedModule, stageOf_eq c _
    ⟨by simp only [hsub]; omega, by simp only [hindex]; exact hlt⟩]
  simp only [hindex]

/-- The stages of a pipeline that shows a safe definition are those of the definition. -/
theorem stages_of_shows {k : Fin maxPipelines} {pdef : PipelineDefinition} {pipeline : Pipeline}
    (hshows : pipeline.Shows libs k pdef) (hsafe : pdef.Safe libs) (c : ConfigState) :
    pipeline.stages c = pdef.modules.map (·.stage libs c.moduleParameterLists) := by
  rw [Pipeline.stages, hshows.2.2, List.map_map]
  apply List.map_congr_left
  intro mdef hmdef
  exact stageOf_cachedModule libs c mdef (hsafe.2 mdef hmdef).2

/-- Every stored pipeline parameter decodes to its definition. -/
def ConfigState.Stores (c : ConfigState) : Prop :=
  ∀ k, Decodes libs libs.pipelineDefinitionUnpack (c.pipelineParams k) (defs k)

/-- Every pipeline entry shows its definition, and the cache is marked as set up. -/
structure ConfigState.Ready (c : ConfigState) : Prop where
  isSetup : c.isSetup = true
  shows : ∀ k, (c.pipelines k).Shows libs k (defs k)

variable {platform} {defs}

/-- A coherent cache that is set up is ready. -/
theorem ConfigState.Coherent.ready {c : ConfigState} (hc : c.Coherent libs)
    (hstores : c.Stores libs defs) (hsetup : c.isSetup = true) : c.Ready libs defs := by
  refine ⟨hsetup, fun k => ?_⟩
  obtain ⟨pipeline, hview, hid, hcount, hlive⟩ := hc hsetup (.pipeline k) (defs k) (hstores k)
  obtain ⟨hid', hcount', hlive'⟩ := SlotView.pipeline.inj hview
  exact ⟨hid'.trans hid, hcount'.trans hcount, hlive'.trans hlive⟩

/-- Before a batch is processed the cache is made ready, with the lists that the batch inherits. -/
theorem setupCache_ready (hallocates : platform.Allocates) (s : ProcessState W)
    (hs : s.config.Coherent libs) (hstores : s.config.Stores libs defs)
    (hroom : ∀ k, (defs k).modules.length ≤ maxModules) :
    ∃ c, setupCache platform libs s = .ok { s with config := c } ∧ c.Ready libs defs ∧
      c.Coherent libs ∧ c.pipelineParams = s.config.pipelineParams ∧
      c.moduleParams = s.config.moduleParams ∧
      c.moduleParameterLists = s.inherited.currentLists platform libs s.config.moduleParams := by
  obtain ⟨c, hc⟩ := setupCacheIfNeeded_succeeds libs (platform.rebuildEnv s.world) s.config
    fun _ k pdef hmessage => HoldsDefinition.room libs ((hallocates s.world).1 k)
      ⟨defs k, hstores k, hroom k⟩ hmessage
  have hsetup : setupCache platform libs s = .ok { s with config := c } := by
    simp only [setupCache, hc]
  have hcoherent := setupCache_coherent libs hallocates hsetup hs
  cases hflag : s.config.isSetup with
  | true =>
    rw [setupCacheIfNeeded, hflag] at hc
    obtain rfl := Except.ok.inj hc
    refine ⟨s.config, hsetup, hcoherent.ready libs hstores hflag, hcoherent, rfl, rfl, ?_⟩
    exact (if_pos hflag).symm
  | false =>
    obtain ⟨entry, log, rfl, -⟩ := setupCacheIfNeeded_sound libs _ _ _ hflag hc
    refine ⟨_, hsetup, hcoherent.ready libs hstores rfl, hcoherent, rfl, rfl, ?_⟩
    exact (if_neg (by simp [ProcessState.inherited, hflag])).symm

/-- In a ready configuration the batch's run is performed, and a failure invalidates the cache. -/
theorem loadPipelineAndExecute_batchRun (hreliable : platform.Reliable) (hclean : platform.Clean)
    (hsafe : ∀ k, (defs k).Safe libs) {s : ProcessState W} (hready : s.config.Ready libs defs)
    (batch : ImageBatch) (run : Stages.Run W Stage ImageBatch ModuleRun)
    (hrun : run = batchRun platform libs defs s.config.moduleParameterLists batch s.world) :
    ∃ s', loadPipelineAndExecute platform batch s =
        .ok ⟨if (slotOf batch.pipelineId).isSome && !run.failed then .success else .failure,
          run.value, s'⟩ ∧
      Advanced s s' run.steps run.world ∧ s'.config.isSetup = !run.failed := by
  have hfound := getPipelineById_eq_slotOf (fun k => (hready.shows k).1) batch.pipelineId
  cases hslot : slotOf batch.pipelineId with
  | none =>
    simp only [batchRun, hslot] at hrun
    subst hrun
    rw [hslot] at hfound
    refine ⟨s.setErrorParam ErrorCode.internalPidNotFound.value, ?_, ?_, hready.isSetup⟩
    · simp only [loadPipelineAndExecute, hfound]
      rfl
    · exact ⟨rfl, rfl, rfl, rfl, rfl, rfl, rfl, rfl, (List.append_nil _).symm⟩
  | some k =>
    have hroom : (s.config.pipelines k).numModules ≤ maxModules := by
      rw [(hready.shows k).2.1]
      exact (hsafe k).1
    simp only [batchRun, hslot] at hrun
    rw [← stages_of_shows libs (hready.shows k) (hsafe k)] at hrun
    rw [hslot] at hfound
    obtain ⟨s', hload, hadvanced, hsetup, -⟩ :=
      loadPipelineAndExecute_run hreliable hclean s batch k hfound hroom run hrun
    refine ⟨s', ?_, hadvanced, ?_⟩
    · rw [hload, runStatus]
      cases run.failed <;> rfl
    · rw [hsetup, hready.isSetup, Bool.true_and]

/-- A walk whose iterations all write hands all its elements on. -/
theorem mapM_element {iterations : List UploadIteration} {elements : List (List UInt8)}
    (h : iterations.map UploadIteration.element = elements.map some) :
    iterations.mapM UploadIteration.element = some elements := by
  induction iterations generalizing elements with
  | nil =>
    obtain rfl : elements = [] := by simpa using h.symm
    rfl
  | cons iteration rest ih =>
    cases elements with
    | nil => contradiction
    | cons element later =>
      obtain ⟨hhead, htail⟩ := List.cons.inj h
      rw [List.mapM_cons, hhead, ih htail]
      rfl

/-- A segment of blocks is uploaded as its first blocks. -/
theorem uploadToRing_of_blocks {mem : Mapped.Memory} {batch : ImageBatch}
    {blocks : List (List UInt8)} (hholds : Mapped.Holds mem blocks.flatten)
    (hlen : batch.batchSize.toInt = blocks.flatten.length)
    (hblocks : ∀ block ∈ blocks, IsBlock (blockLength libs.metadataUnpack) block)
    (s : ProcessState W) :
    uploadToRing libs mem batch s =
      .ok { s with ring := s.ring ++ blocks.take batch.numImages.toInt.toNat } := by
  have hlength : blocks.flatten.length < 2 ^ 31 := by
    have hupper := batch.batchSize.toInt_lt
    omega
  have hunsigned : batch.batchSize.toUInt32.toNat = blocks.flatten.length := by
    rw [toNat_toUInt32_of_nonneg (by omega), hlen, Int.toNat_natCast]
  have hsplit := splitBlocks_flatten (blockLength_selfDelimiting libs.metadataUnpack) blocks
    hblocks [] batch.numImages.toInt.toNat (Or.inr rfl)
  rw [List.append_nil] at hsplit
  have helements := (uploadFrom_of_split libs.metadataUnpack hholds hlength _ hunsigned
    batch.numImages.toInt.toNat 0 (Nat.zero_le _) hsplit).2
  have hall : (upload libs.metadataUnpack mem batch.numImages batch.batchSize).mapM
      UploadIteration.element = some (blocks.take batch.numImages.toInt.toNat) :=
    mapM_element helements
  simp only [uploadToRing, hall]

/-- A segment that can be detached and removed is removed. -/
theorem removeSegment_eq (hshared : platform.SharesMemory) (shmid : Int32) (s : ProcessState W) :
    removeSegment platform shmid s = { s with removed := s.removed ++ [shmid] } := by
  simp [removeSegment, hshared.shmdt, hshared.shmctl]

/-- What processing a batch changes: the ring grows by its elements, its segment is removed, its
modules were called, and a failure invalidates the cache. -/
structure Processed (s s' : ProcessState W) (outcome : BatchOutcome W)
    (elements : List (List UInt8)) (w : W) : Prop where
  queue : s'.queue = s.queue
  ring : s'.ring = s.ring ++ elements
  removed : s'.removed = s.removed ++ [outcome.run.value.shmid]
  calls : s'.calls = s.calls ++ outcome.run.steps
  world : s'.world = w
  isSetup : s'.config.isSetup = !outcome.run.failed
  pipelineParams : s'.config.pipelineParams = s.config.pipelineParams
  moduleParams : s'.config.moduleParams = s.config.moduleParams
  moduleParameterLists : s'.config.moduleParameterLists = s.config.moduleParameterLists

/-- In a ready configuration, processing a batch comes to its outcome. -/
theorem process_outcome (hreliable : platform.Reliable) (hclean : platform.Clean)
    (hshared : platform.SharesMemory) (hsafe : ∀ k, (defs k).Safe libs) (s : ProcessState W)
    (hready : s.config.Ready libs defs) (batch : ImageBatch)
    (run : Stages.Run W Stage ImageBatch ModuleRun)
    (hrun : run = batchRun platform libs defs s.config.moduleParameterLists batch s.world)
    (outcome : BatchOutcome W) (houtcome : outcome = ⟨(slotOf batch.pipelineId).isSome, run,
      (platform.shmat run.world run.value.shmid).1⟩)
    (blocks : List (List UInt8))
    (hblocks : outcome.delivered = true → outcome.Holds libs blocks) :
    ∃ batch' s', process platform libs batch s = .ok (batch', s') ∧
      Processed s s' outcome (outcome.contribution blocks)
        (platform.shmat run.world run.value.shmid).2 := by
  obtain ⟨executed, hload, hadvanced, hsetup⟩ :=
    loadPipelineAndExecute_batchRun libs hreliable hclean hsafe hready batch run hrun
  obtain ⟨address, mem, hattached⟩ := hshared.shmat run.world run.value.shmid
  have hworld := hadvanced.world
  simp only [process, hload, hworld]
  generalize platform.shmat run.world run.value.shmid = attach at hattached houtcome ⊢
  obtain ⟨attachment, w⟩ := attach
  obtain rfl : attachment = .attached address mem := hattached
  have hdelivered : ((slotOf batch.pipelineId).isSome && !run.failed) = outcome.delivered := by
    rw [houtcome]
    rfl
  have hfinal : outcome.run = run := by rw [houtcome]
  have hremoved : executed.removed ++ [run.value.shmid] =
      s.removed ++ [outcome.run.value.shmid] := by rw [hfinal, hadvanced.removed]
  have hcalls : executed.calls = s.calls ++ outcome.run.steps := by rw [hfinal, hadvanced.calls]
  have hflag : executed.config.isSetup = !outcome.run.failed := by rw [hfinal, hsetup]
  rw [hdelivered]
  cases hcase : outcome.delivered with
  | false =>
    have hring : executed.ring = s.ring ++ [] := by rw [hadvanced.ring, List.append_nil]
    refine ⟨run.value, _, rfl, ?_⟩
    rw [removeSegment_eq hshared, BatchOutcome.contribution, hcase]
    exact ⟨hadvanced.queue, hring, hremoved, hcalls, rfl, hflag, hadvanced.pipelineParams,
      hadvanced.moduleParams, hadvanced.moduleParameterLists⟩
  | true =>
    obtain ⟨address', mem', hsegment, hholds, hlen, hwell⟩ := hblocks hcase
    rw [hfinal] at hlen
    obtain ⟨rfl, rfl⟩ := Attachment.attached.inj ((congrArg _ houtcome).symm.trans hsegment)
    have hring : executed.ring ++ blocks.take run.value.numImages.toInt.toNat =
        s.ring ++ blocks.take run.value.numImages.toInt.toNat := by rw [hadvanced.ring]
    simp only [if_true, Attachment.memory, uploadToRing_of_blocks libs hholds hlen hwell]
    refine ⟨_, _, rfl, ?_⟩
    rw [removeSegment_eq hshared, BatchOutcome.contribution, hcase, hfinal]
    exact ⟨hadvanced.queue, hring, hremoved, hcalls, rfl, hflag, hadvanced.pipelineParams,
      hadvanced.moduleParams, hadvanced.moduleParameterLists⟩

end Dipp
