import Dipp.Process.Senders
import Dipp.Upload.Camera

/-!
# What the modules make of the images

A batch is a few numbers and the id of a segment; what it is about are the images in
that segment. Modules that compute partial functions on these images, and that leave the
segments of other batches alone, make a pipeline compute the composition of the
functions. Draining the queue then hands to the ring, batch by batch, the images that
the pipelines of the stored definitions make of the images in the queue.
-/

namespace Dipp

open LittleEndian Framing

variable {W : Type*} (platform : Platform W) (libs : Libraries)

/-- The segment of the batch holds these images, one behind the other, as many as the batch says. -/
structure Pictures (w : W) (batch : ImageBatch) (images : List CameraImage) : Prop where
  attached : ∃ address mem, (platform.shmat w batch.shmid).1 = .attached address mem ∧
    Mapped.Holds mem (images.map CameraImage.block).flatten
  described : ∀ image ∈ images, image.Described libs.metadataUnpack
  batchSize : batch.batchSize.toInt = Dipp.batchSize images
  numImages : batch.numImages.toInt = images.length

/-- What each module makes of the images of a batch; it fails on some. -/
abbrev Development :=
  ModuleFunction → Option ModuleParameterList → List CameraImage → Option (List CameraImage)

/-- The modules develop the images of their batches in this way, and neither touch nor return the
segment of another batch. The other calls that move the world on leave the images alone. -/
structure Platform.Develops (effect : Development) : Prop where
  fork : ∀ w batch images, Pictures platform libs w batch images →
    Pictures platform libs (platform.fork w).2 batch images
  attach : ∀ w shmid batch images, Pictures platform libs w batch images →
    Pictures platform libs (platform.shmat w shmid).2 batch images
  fails : ∀ w function config batch images, Pictures platform libs w batch images →
    (platform.runModule w function batch config).1.result batch = none →
      effect function config images = none
  develops : ∀ w function config batch images next, Pictures platform libs w batch images →
    (platform.runModule w function batch config).1.result batch = some next →
      ∃ developed, effect function config images = some developed ∧
        Pictures platform libs (platform.runModule w function batch config).2 next developed
  others : ∀ w function config batch other images, Pictures platform libs w other images →
    other.shmid ≠ batch.shmid →
      Pictures platform libs (platform.runModule w function batch config).2 other images ∧
        ∀ next, (platform.runModule w function batch config).1.result batch = some next →
          other.shmid ≠ next.shmid

variable (effect : Development)

/-- What a module makes of the images; one that could not be loaded fails. -/
def Stage.develop (images : List CameraImage) (stage : Stage) : Option (List CameraImage) :=
  stage.function.bind fun function => effect function stage.config images

variable (defs : Fin maxPipelines → PipelineDefinition) (mcons : Fin maxModules → ModuleConfig)

/-- The parameter list of a configuration. -/
def ModuleConfig.list (mcon : ModuleConfig) : ModuleParameterList :=
  ⟨mcon.parameters.length, .array (mcon.parameters.map cachedParameter)⟩

/-- What the pipeline with this id makes of the images: the modules of its definition develop them
in order, each with the stored parameters that it names. -/
def developBatch (pipelineId : Int32) (images : List CameraImage) : Option (List CameraImage) :=
  match slotOf pipelineId with
  | none => none
  | some k => ((defs k).modules.map (·.stage libs fun j => (mcons j).list)).foldlM
      (Stage.develop effect) images

variable {platform libs effect}

/-- A module that yields no next batch fails on the images. -/
theorem Platform.Develops.observe_fails (hdevelops : platform.Develops libs effect) (w : W)
    (stage : Stage) (batch : ImageBatch) (images : List CameraImage)
    (h : Pictures platform libs w batch images)
    (hresult : (observe platform w stage batch).1.result batch = none) :
    stage.develop effect images = none := by
  have hfork := hdevelops.fork w batch images h
  obtain ⟨function, config⟩ := stage
  cases function with
  | none => rfl
  | some function => exact hdevelops.fails _ function config batch images hfork hresult

/-- A next batch pictures what the module makes of the images. -/
theorem Platform.Develops.observe_develops (hdevelops : platform.Develops libs effect) (w : W)
    (stage : Stage) (batch : ImageBatch) (images : List CameraImage) (next : ImageBatch)
    (h : Pictures platform libs w batch images)
    (hresult : (observe platform w stage batch).1.result batch = some next) :
    ∃ developed, stage.develop effect images = some developed ∧
      Pictures platform libs (observe platform w stage batch).2 next developed := by
  have hfork := hdevelops.fork w batch images h
  obtain ⟨function, config⟩ := stage
  cases function with
  | none => cases hresult
  | some function => exact hdevelops.develops _ function config batch images next hfork hresult

/-- A module leaves the images of other batches alone. -/
theorem Platform.Develops.observe_others (hdevelops : platform.Develops libs effect)
    {other : ImageBatch} {images : List CameraImage} (w : W) (stage : Stage) (batch : ImageBatch)
    (h : Pictures platform libs w other images) (hother : other.shmid ≠ batch.shmid) :
    Pictures platform libs (observe platform w stage batch).2 other images ∧
      ∀ next, (observe platform w stage batch).1.result batch = some next →
        other.shmid ≠ next.shmid := by
  have hfork := hdevelops.fork w other images h
  obtain ⟨function, config⟩ := stage
  cases function with
  | none => exact ⟨hfork, nofun⟩
  | some function => exact hdevelops.others _ function config batch other images hfork hother

/-- A batch is run through the composition of the functions of its modules. -/
theorem Platform.Develops.batchRun (hdevelops : platform.Develops libs effect) {w : W}
    {batch : ImageBatch} {images : List CameraImage} (h : Pictures platform libs w batch images)
    (lists : Fin maxModules → ModuleParameterList) (hlists : lists = fun j => (mcons j).list)
    (run : Stages.Run W Stage ImageBatch ModuleRun)
    (hrun : run = Dipp.batchRun platform libs defs lists batch w) :
    match developBatch libs effect defs mcons batch.pipelineId images with
    | none => ((slotOf batch.pipelineId).isSome && !run.failed) = false
    | some developed => ((slotOf batch.pipelineId).isSome && !run.failed) = true ∧
        Pictures platform libs run.world run.value developed := by
  subst hrun hlists
  rw [Dipp.batchRun, developBatch]
  cases slotOf batch.pipelineId with
  | none => rfl
  | some k =>
    have hcomputes := Stages.run_computes (Stage.develop effect) hdevelops.observe_fails
      hdevelops.observe_develops
      ((defs k).modules.map (·.stage libs fun j => (mcons j).list)) batch w images h
    simp only [Option.isSome_some, Bool.true_and]
    cases hfold : ((defs k).modules.map (·.stage libs fun j => (mcons j).list)).foldlM
        (Stage.develop effect) images with
    | none =>
      rw [hfold] at hcomputes
      exact congrArg not hcomputes
    | some developed =>
      rw [hfold] at hcomputes
      exact ⟨congrArg not hcomputes.1, hcomputes.2⟩

/-- The run of a batch leaves the images of other batches alone. -/
theorem Platform.Develops.batchRun_others (hdevelops : platform.Develops libs effect) {w : W}
    {batch other : ImageBatch} {images : List CameraImage}
    (h : Pictures platform libs w other images) (hother : other.shmid ≠ batch.shmid)
    (lists : Fin maxModules → ModuleParameterList) :
    Pictures platform libs (Dipp.batchRun platform libs defs lists batch w).world other images := by
  rw [Dipp.batchRun]
  cases slotOf batch.pipelineId with
  | none => exact h
  | some k =>
    exact Stages.run_keeps (fun world stage value hworld hvalue =>
      hdevelops.observe_others world stage value hworld hvalue) _ batch w h hother

/-- The batch comes to these images: it is not delivered if there are none, and otherwise its final
segment holds them. -/
def BatchOutcome.Yields (libs : Libraries) (outcome : BatchOutcome W) :
    Option (List CameraImage) → Prop
  | none => outcome.delivered = false
  | some images => outcome.delivered = true ∧
      outcome.Holds libs (images.map CameraImage.block) ∧
      outcome.run.value.numImages.toInt = images.length ∧
      ∀ image ∈ images, image.Described libs.metadataUnpack ∧ image.block.length < 2 ^ 31

/-- An image is not larger than its batch. -/
theorem CameraImage.length_block_le {images : List CameraImage} {image : CameraImage}
    (himage : image ∈ images) : image.block.length ≤ batchSize images := by
  rw [← length_flatten_blocks]
  exact (List.sublist_flatten_of_mem (List.mem_map_of_mem himage)).length_le

/-- A described image is a block. -/
theorem CameraImage.Described.isBlock {unpack : List UInt8 → Option Metadata}
    {image : CameraImage} (h : image.Described unpack) (hlength : image.block.length < 2 ^ 31) :
    IsBlock (blockLength unpack) image.block := by
  obtain ⟨metadata, hunpack, hsize⟩ := h
  rw [image.length_block] at hlength
  exact isBlock_encodeBlock unpack hunpack hsize (by omega)

/-- The blocks of described images are well formed. -/
theorem isBlock_of_described {unpack : List UInt8 → Option Metadata} {images : List CameraImage}
    (hdescribed : ∀ image ∈ images, image.Described unpack) (hfits : batchSize images < 2 ^ 31) :
    ∀ block ∈ images.map CameraImage.block, IsBlock (blockLength unpack) block := by
  intro block hblock
  obtain ⟨image, himage, rfl⟩ := List.mem_map.mp hblock
  exact (hdescribed image himage).isBlock
    (Nat.lt_of_le_of_lt (CameraImage.length_block_le himage) hfits)

/-- The images of a batch are not larger than an `int` can count. -/
theorem Pictures.batchSize_lt {w : W} {batch : ImageBatch} {images : List CameraImage}
    (h : Pictures platform libs w batch images) : Dipp.batchSize images < 2 ^ 31 := by
  have hint := batch.batchSize.toInt_lt
  rw [h.batchSize] at hint
  omega

/-- What a segment is attached as, if it pictures images, holds their blocks. -/
theorem Pictures.holds {w : W} {batch : ImageBatch} {images : List CameraImage}
    (h : Pictures platform libs w batch images) {outcome : BatchOutcome W}
    (hvalue : outcome.run.value = batch)
    (hsegment : outcome.segment = (platform.shmat w batch.shmid).1) :
    outcome.Holds libs (images.map CameraImage.block) := by
  obtain ⟨address, mem, hattached, hholds⟩ := h.attached
  refine ⟨address, mem, hsegment.trans hattached, hholds, ?_, fun block hblock => ?_⟩
  · rw [hvalue, length_flatten_blocks]
    exact h.batchSize
  · exact isBlock_of_described h.described h.batchSize_lt block hblock

variable {moduleParams : Fin maxModules → ParamData}

/-- After any predecessors, a batch comes to what its pipeline makes of its images. -/
theorem Platform.Develops.outcome_yields (hdevelops : platform.Develops libs effect)
    (hallocates : platform.Allocates)
    (hconfigs : ∀ j, Decodes libs libs.moduleConfigUnpack (moduleParams j) (mcons j))
    {inherited : Inherited W} (hinherited : inherited.Coherent libs moduleParams)
    {batch : ImageBatch} {images : List CameraImage}
    (h : Pictures platform libs inherited.world batch images) :
    (inherited.outcome platform libs defs moduleParams batch).Yields libs
      (developBatch libs effect defs mcons batch.pipelineId images) := by
  have hlists : inherited.currentLists platform libs moduleParams = fun j => (mcons j).list :=
    funext fun j => hinherited.currentLists libs hallocates j (mcons j) (hconfigs j)
  have hrun := hdevelops.batchRun defs mcons h _ hlists _ rfl
  cases hdevelop : developBatch libs effect defs mcons batch.pipelineId images with
  | none =>
    rw [hdevelop] at hrun
    exact hrun
  | some developed =>
    rw [hdevelop] at hrun
    obtain ⟨hdelivered, hpictures⟩ := hrun
    exact ⟨hdelivered, hpictures.holds rfl rfl, hpictures.numImages, fun image himage =>
      ⟨hpictures.described image himage,
        Nat.lt_of_le_of_lt (CameraImage.length_block_le himage) hpictures.batchSize_lt⟩⟩

/-- It leaves the images of the other batches to its successors. -/
theorem Platform.Develops.next_pictures (hdevelops : platform.Develops libs effect)
    {inherited : Inherited W} {batch other : ImageBatch} {images : List CameraImage}
    (h : Pictures platform libs inherited.world other images)
    (hother : other.shmid ≠ batch.shmid) :
    Pictures platform libs (inherited.next platform libs defs moduleParams batch).world other
      images :=
  hdevelops.attach _ _ _ _ (hdevelops.batchRun_others defs h hother _)

/-- A batch that is delivered adds the blocks of the images it comes to. -/
theorem BatchOutcome.Yields.contribution {outcome : BatchOutcome W}
    {developed : Option (List CameraImage)} (h : outcome.Yields libs developed) :
    outcome.contribution ((developed.getD []).map CameraImage.block) =
      (developed.getD []).map CameraImage.block := by
  cases developed with
  | none => rw [BatchOutcome.contribution, h]; rfl
  | some images =>
    obtain ⟨hdelivered, -, hcount, -⟩ := h
    rw [BatchOutcome.contribution, if_pos hdelivered]
    exact List.take_of_length_le (by rw [Option.getD_some, List.length_map]; omega)

/-- Its final segment holds them. -/
theorem BatchOutcome.Yields.holds {outcome : BatchOutcome W}
    {developed : Option (List CameraImage)} (h : outcome.Yields libs developed)
    (hdelivered : outcome.delivered = true) :
    outcome.Holds libs ((developed.getD []).map CameraImage.block) := by
  cases developed with
  | none => exact absurd (h.symm.trans hdelivered) Bool.false_ne_true
  | some images => exact h.2.1

/-- They can be described and counted. -/
theorem BatchOutcome.Yields.described {outcome : BatchOutcome W}
    {developed : Option (List CameraImage)} (h : outcome.Yields libs developed) :
    ∀ image ∈ developed.getD [],
      image.Described libs.metadataUnpack ∧ image.block.length < 2 ^ 31 := by
  cases developed with
  | none => exact nofun
  | some images => exact h.2.2.2

/-- Where the cache is coherent, a batch inherits lists that show the stored configurations if they
are marked as current. -/
theorem ConfigState.Coherent.inherited {s : ProcessState W} (hs : s.config.Coherent libs) :
    s.inherited.Coherent libs s.config.moduleParams := by
  intro hsetup j mcon hdecodes
  obtain ⟨list, hview, hlist⟩ := hs hsetup (.module j) mcon hdecodes
  have heq : s.inherited.lists j = list := SlotView.module.inj hview
  exact heq ▸ hlist

/-- What processing a batch changes, seen from outside: the ring grows by the blocks of these
images, and what is stored, the queue and the images of other batches stay. -/
structure Developed (libs : Libraries) (platform : Platform W) (s s' : ProcessState W)
    (batch : ImageBatch) (images : List CameraImage) : Prop where
  coherent : s'.config.Coherent libs
  pipelineParams : s'.config.pipelineParams = s.config.pipelineParams
  moduleParams : s'.config.moduleParams = s.config.moduleParams
  queue : s'.queue = s.queue
  ring : s'.ring = s.ring ++ images.map CameraImage.block
  others : ∀ (other : ImageBatch) (otherImages : List CameraImage),
    Pictures platform libs s.world other otherImages → other.shmid ≠ batch.shmid →
      Pictures platform libs s'.world other otherImages

variable {defs mcons}

/-- Processing a message whose segment holds images hands to the ring what its pipeline makes of
them. -/
theorem Platform.Develops.processMessage (hdevelops : platform.Develops libs effect)
    (hreliable : platform.Reliable) (hclean : platform.Clean) (hshared : platform.SharesMemory)
    (hallocates : platform.Allocates) {s : ProcessState W} (hs : s.config.Coherent libs)
    (hstores : s.config.Stores libs defs) (hsafe : ∀ k, (defs k).Safe libs)
    (hconfigs : ∀ j, Decodes libs libs.moduleConfigUnpack (s.config.moduleParams j) (mcons j))
    {message : Message} (hfull : message.mtext.length = sizeofImageBatch)
    {images : List CameraImage} (h : Pictures platform libs s.world message.batch images)
    (developed : List CameraImage)
    (hdeveloped : developed =
      (developBatch libs effect defs mcons message.batch.pipelineId images).getD [])
    (datarcv : ImageBatch) :
    (∃ batch' s', Dipp.processMessage platform libs message (datarcv, s) = .ok (batch', s') ∧
        Developed libs platform s s' message.batch developed) ∧
      ∀ image ∈ developed, image.Described libs.metadataUnpack ∧ image.block.length < 2 ^ 31 := by
  subst hdeveloped
  have hyields := hdevelops.outcome_yields defs mcons hallocates hconfigs hs.inherited h
  refine ⟨?_, hyields.described⟩
  obtain ⟨c, hsetup, hready, hc, hpipelines, hmodules, hlists⟩ := setupCache_ready libs
    hallocates s hs hstores fun k => (hsafe k).1
  obtain ⟨batch', s', hprocess, hprocessed⟩ := process_outcome libs hreliable hclean hshared
    hsafe { s with config := c } hready message.batch
    (s.inherited.run platform libs defs s.config.moduleParams message.batch)
    (by rw [Inherited.run, hlists]; rfl)
    (s.inherited.outcome platform libs defs s.config.moduleParams message.batch) rfl
    _ hyields.holds
  refine ⟨batch', s', ?_, ?_⟩
  · simp only [Dipp.processMessage, hsetup, copyMessage_of_full datarcv hfull, hprocess]
  · refine ⟨(process_tablesKept platform libs hprocess).coherent libs hc,
      hprocessed.pipelineParams.trans hpipelines, hprocessed.moduleParams.trans hmodules,
      hprocessed.queue, hprocessed.ring.trans ?_, fun other otherImages hother hshmid => ?_⟩
    · rw [hyields.contribution]
    · rw [hprocessed.world]
      exact hdevelops.next_pictures defs hother hshmid

end Dipp
