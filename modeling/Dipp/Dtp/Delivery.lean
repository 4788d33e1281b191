import Dipp.Dtp.Observations
import Dipp.Process.ImageService
import Mathlib.Data.List.Flatten

/-!
# From the camera to the client

The camera puts images into a segment and announces it in the queue, the processing
thread runs the pipeline that the announcement asks for, the uploader writes what is left
in the segment to the ring, and a client asks for it by number. Where the modules compute
functions on images, the clients are served what the pipelines make of the images that
were sent, each with its own metadata, in the order of the queue, and nothing else.
-/

namespace Dipp

open LittleEndian Framing Mapped

/-- What the camera simulator announces: the images of a segment, for the first pipeline. What
follows the four integers is whatever its memory holds. -/
def cameraMessage (images : List CameraImage) (shmid : Int32) (stray : List UInt8) : Message where
  mtype := 1
  mtext := intBytes (Int32.ofNat images.length) ++ (intBytes (Int32.ofNat (batchSize images)) ++
    (intBytes shmid ++ (intBytes 1 ++ stray)))

/-- The announcement is received as the batch it describes. -/
theorem batch_cameraMessage (images : List CameraImage) (shmid : Int32) (stray : List UInt8)
    (hstray : stray.length = 16) :
    (cameraMessage images shmid stray).batch =
      ⟨1, Int32.ofNat images.length, Int32.ofNat (batchSize images), shmid, 1,
        UInt64.ofNat (decode (stray.take 8))⟩ := by
  have hdata : encode 8 (UInt64.ofNat (decode (stray.take 8))).toNat = stray.take 8 := by
    have hlength : (stray.take 8).length = 8 := by rw [List.length_take]; omega
    have hlt := decode_lt (stray.take 8)
    have hencode := encode_decode (stray.take 8)
    rw [hlength] at hlt hencode
    rw [UInt64.toNat_ofNat_of_lt' hlt, hencode]
  have hbytes : encode 8 (1 : Int64).toUInt64.toNat ++ (cameraMessage images shmid stray).mtext =
      ImageBatch.toBytes ⟨1, Int32.ofNat images.length, Int32.ofNat (batchSize images), shmid, 1,
        UInt64.ofNat (decode (stray.take 8))⟩ ++ stray.drop 8 := by
    simp only [ImageBatch.toBytes, hdata, cameraMessage, List.append_assoc,
      List.take_append_drop]
  change ImageBatch.ofBytes
    ((encode 8 (1 : Int64).toUInt64.toNat ++ (cameraMessage images shmid stray).mtext).take
      sizeofImageBatch) = _
  rw [hbytes, List.take_left' (ImageBatch.length_toBytes _), ImageBatch.ofBytes_toBytes]

variable {W : Type*} {platform : Platform W} {libs : Libraries}

/-- Each image takes four bytes at least. -/
theorem length_le_batchSize (images : List CameraImage) : 4 * images.length ≤ batchSize images := by
  induction images with
  | nil => exact Nat.zero_le _
  | cons image rest ih =>
    rw [List.length_cons, batchSize, List.map_cons, List.sum_cons]
    rw [batchSize] at ih
    omega

/-- The batch of an announcement pictures the images that the camera put into the segment. -/
theorem cameraMessage_pictures (images : List CameraImage)
    (hdescribed : ∀ image ∈ images, image.Described libs.metadataUnpack)
    (hfits : batchSize images < 2 ^ 31) (segment : List UInt8)
    (hsegment : segment.length = batchSize images) (shmid : Int32) (w : W) (address : UInt64)
    (mem : Mapped.Memory) (hattached : (platform.shmat w shmid).1 = .attached address mem)
    (hholds : Holds mem (fillBatch images 0 segment)) (stray : List UInt8)
    (hstray : stray.length = 16) :
    Pictures platform libs w (cameraMessage images shmid stray).batch images := by
  have hcount := length_le_batchSize images
  rw [fillBatch_eq images segment hsegment hfits] at hholds
  rw [batch_cameraMessage images shmid stray hstray]
  exact ⟨⟨address, mem, hattached, hholds⟩, hdescribed, Int32.toInt_ofNat_of_lt hfits,
    Int32.toInt_ofNat_of_lt (by omega)⟩

variable {R : Type*} (ring : RingDriver R) (unpack : List UInt8 → Option Metadata) (r : R)

/-- The image is served at the index, with the metadata that it was packed with. -/
def ServedImage (index : UInt16) (image : CameraImage) : Prop :=
  ∃ metadata, unpack image.packed = some metadata ∧
    ServedAs ring r unpack index image.block image.packed.length metadata

variable {ring unpack r}

/-- At the head of the block of an image stands the metadata that it was packed with. -/
theorem HeadBlock.image {image : CameraImage} {metaSize length : ℕ} {metadata : Metadata}
    (h : HeadBlock unpack image.block metaSize metadata length)
    (hlength : image.block.length < 2 ^ 31) :
    metaSize = image.packed.length ∧ unpack image.packed = some metadata := by
  have hpacked : image.packed.length < 256 ^ 4 := by
    rw [image.length_block] at hlength
    omega
  have hsize : metaSize = image.packed.length := by
    rw [h.metaSize_eq, CameraImage.block, encodeBlock, List.take_left' (length_encode 4 _),
      decode_encode_of_lt hpacked]
  have hunpack := h.unpack_eq
  rw [hsize, CameraImage.block, encodeBlock, List.drop_left' (length_encode 4 _),
    List.take_left' rfl] at hunpack
  exact ⟨hsize, hunpack⟩

/-- The block of an image is served as the image. -/
theorem ServedAs.image {index : UInt16} {image : CameraImage} {metaSize : ℕ} {metadata : Metadata}
    (h : ServedAs ring r unpack index image.block metaSize metadata)
    (hlength : image.block.length < 2 ^ 31) : ServedImage ring unpack r index image := by
  obtain ⟨rfl, hunpack⟩ := h.block.image hlength
  exact ⟨metadata, hunpack, h⟩

/-- A ring that holds the blocks of images serves the images and nothing else. -/
theorem served_of_holds {images : List CameraImage}
    (hring : ring.Holds r (images.map CameraImage.block))
    (himages : ∀ image ∈ images, image.Described unpack ∧ image.block.length < 2 ^ 31)
    (hcount : images.length < 2 ^ 16) :
    (∀ (i : ℕ) (hi : i < images.length),
        ServedImage ring unpack r (UInt16.ofNat i) images[i]) ∧
      ∀ index : UInt16, images.length ≤ index.toNat → NotServed ring r unpack index := by
  constructor
  · intro i hi
    obtain ⟨hdescribed, hlength⟩ := himages images[i] (List.getElem_mem hi)
    have helement : (images.map CameraImage.block)[(UInt16.ofNat i).toNat]? =
        some images[i].block := by
      rw [UInt16.toNat_ofNat', Nat.mod_eq_of_lt (by omega), List.getElem?_map,
        List.getElem?_eq_getElem hi]
      rfl
    obtain ⟨metaSize, metadata, hserved⟩ := servedAs_of_holds hring helement
      (by omega) (hdescribed.isBlock hlength)
    exact hserved.image hlength
  · intro index hindex
    exact refused_of_holds hring (by rwa [List.length_map])

variable {effect : Development}

/-- Over any lifetime of the processing thread, in which definitions are stored, shots arrive, runs
of either kind follow, modules fail cleanly and the process is restarted, while system calls and
allocations succeed and the ring evicts nothing, clients are served, by number, the images that the
service delivers: what the pipelines that were stored at the time make of each shot, in the order of
the queue, every one with its own block and its own metadata. All other numbers are refused. -/
theorem lifetime_serves (hdevelops : platform.Develops libs effect)
    (hreliable : platform.Reliable) (hclean : platform.Clean) (hshared : platform.SharesMemory)
    (hallocates : platform.Allocates) (lifetime : List (ServiceEvent W × ServiceOp))
    (s : ProcessState W) (service last : ImageService) (h : Renders libs platform s service)
    (hmeans : Execution.Along (fun s event => serviceStep libs platform s event.1)
      (fun s event => event.1.Means libs platform s event.2) lifetime s)
    (hlast : last = (lifetime.map Prod.snd).foldl (ImageService.step libs effect) service)
    (ring : RingDriver R) (empty : R) (unevicted : List (List UInt8) → Prop)
    (hkeeps : ring.Keeps empty unevicted)
    (hunevicted : unevicted (last.delivered.map CameraImage.block))
    (hcount : last.delivered.length < 2 ^ 16) :
    ∃ s', Execution.run (serviceStep libs platform) (lifetime.map Prod.fst) s = .ok s' ∧
      Renders libs platform s' last ∧
      (∀ (i : ℕ) (hi : i < last.delivered.length),
        ServedImage ring libs.metadataUnpack (s'.ring.foldl ring.write empty) (UInt16.ofNat i)
          last.delivered[i]) ∧
      ∀ index : UInt16, last.delivered.length ≤ index.toNat →
        NotServed ring (s'.ring.foldl ring.write empty) libs.metadataUnpack index := by
  obtain ⟨s', hrun, hrenders⟩ := lifetime_renders hdevelops hreliable hclean hshared hallocates
    lifetime h hmeans
  rw [← hlast] at hrenders
  refine ⟨s', hrun, hrenders, ?_⟩
  rw [hrenders.ring]
  exact served_of_holds (hkeeps _ hunevicted) hrenders.described hcount

/-- The images that a segment holds, all of which can be described, and counted by an `int`. -/
structure Film (unpack : List UInt8 → Option Metadata) where
  images : List CameraImage
  described : ∀ image ∈ images, image.Described unpack
  fits : batchSize images < 2 ^ 31

/-- Some of the images in order. -/
def Film.cut (film : Film unpack) {images : List CameraImage} (h : images.Sublist film.images) :
    Film unpack where
  images := images
  described := fun image himage => film.described image (h.subset himage)
  fits := by
    have hle := (h.map CameraImage.block).flatten.length_le
    rw [length_flatten_blocks, length_flatten_blocks] at hle
    exact Nat.lt_of_le_of_lt hle film.fits

/-- Of the first images, all but the very first. -/
def Film.discard (film : Film unpack) (count : ℕ) : Film unpack :=
  film.cut ((List.tail_sublist (film.images.take count)).trans (List.take_sublist _ _))

/-- Every module discards the first image of its batch, and fails if there is none. -/
def discardFirst : Development := fun _ _ images =>
  if images.isEmpty then none else some images.tail

/-- The batch after a module that discards its first image. -/
def ImageBatch.discard (batch : ImageBatch) (images : List CameraImage) : ImageBatch :=
  { batch with
    numImages := Int32.ofNat images.tail.length
    batchSize := Int32.ofNat (Dipp.batchSize images.tail) }

/-- A world of segments with images, in which the modules do so and every call succeeds. -/
def darkroom (unpack : List UInt8 → Option Metadata) : Platform (Int32 → Film unpack) where
  outputPipeOpens := fun _ => true
  errorPipeOpens := fun _ => true
  fork := fun w => (true, w)
  runModule := fun w _ batch _ =>
    let shown := (w batch.shmid).images.take batch.numImages.toInt.toNat
    if shown.isEmpty then (⟨[], .killed⟩, w)
    else (⟨[], .returned (batch.discard shown)⟩,
      Function.update w batch.shmid ((w batch.shmid).discard batch.numImages.toInt.toNat))
  waitpidDelivers := fun _ => true
  uninitializedStatus := fun _ => .exited 0
  readFails := fun _ _ => false
  shmat := fun w shmid =>
    (.attached 0x7f0000000000 (ofBuffer ((w shmid).images.map CameraImage.block).flatten), w)
  shmdtSucceeds := fun _ => true
  shmctlSucceeds := fun _ _ => true
  rebuildEnv := fun _ => ⟨fun _ => .ample, fun _ => .ample⟩

/-- What is found alone in memory is the beginning of what was put there. -/
theorem exists_append_of_holds {data buffer : List UInt8} (h : Holds (ofBuffer data) buffer) :
    ∃ tail, buffer ++ tail = data := by
  apply List.prefix_iff_getElem?.mpr
  intro i hi
  exact (h i hi).trans (List.getElem?_eq_getElem hi)

/-- The image with this block. -/
def CameraImage.ofBlock (block : List UInt8) : CameraImage where
  packed := (block.drop 4).take (decode (block.take 4))
  pixels := (block.drop 4).drop (decode (block.take 4))

/-- An image is known by its block. -/
theorem CameraImage.ofBlock_block {image : CameraImage} (hlength : image.block.length < 2 ^ 31) :
    CameraImage.ofBlock image.block = image := by
  rw [length_block] at hlength
  have hpacked : image.packed.length < 256 ^ 4 := by omega
  simp only [ofBlock, block, encodeBlock, List.take_left' (length_encode 4 _),
    List.drop_left' (length_encode 4 _), decode_encode_of_lt hpacked, List.take_left' rfl,
    List.drop_left' rfl]

/-- So are images in a row. -/
theorem map_ofBlock_block {images : List CameraImage} (hfits : batchSize images < 2 ^ 31) :
    (images.map CameraImage.block).map CameraImage.ofBlock = images := by
  have hid : ∀ image ∈ images, (CameraImage.ofBlock ∘ CameraImage.block) image = id image := by
    intro image himage
    apply CameraImage.ofBlock_block
    exact Nat.lt_of_le_of_lt (CameraImage.length_block_le himage) hfits
  rw [List.map_map, List.map_congr_left hid, List.map_id]

/-- The images that a batch pictures are the first ones of its segment. -/
theorem Pictures.eq_take {w : Int32 → Film libs.metadataUnpack} {batch : ImageBatch}
    {images : List CameraImage} (h : Pictures (darkroom libs.metadataUnpack) libs w batch images) :
    (w batch.shmid).images.take batch.numImages.toInt.toNat = images := by
  obtain ⟨address, mem, hattached, hholds⟩ := h.attached
  obtain ⟨-, rfl⟩ := Attachment.attached.inj hattached
  obtain ⟨tail, htail⟩ := exists_append_of_holds hholds
  have hfits := h.batchSize_lt
  have hreader := blockLength_selfDelimiting libs.metadataUnpack
  have hcut := splitBlocks_flatten hreader _ (isBlock_of_described h.described hfits) tail
    images.length (Or.inl (Nat.le_of_eq (List.length_map _).symm))
  have hfilm := splitBlocks_flatten hreader _
    (isBlock_of_described (w batch.shmid).described (w batch.shmid).fits) [] images.length
    (Or.inr rfl)
  rw [List.append_nil, ← htail, hcut, List.take_of_length_le (Nat.le_of_eq (List.length_map _)),
    ← List.map_take] at hfilm
  have hstored := map_ofBlock_block
    ((w batch.shmid).cut (List.take_sublist images.length _)).fits
  rw [h.numImages, Int.toNat_natCast]
  calc (w batch.shmid).images.take images.length
      = (((w batch.shmid).images.take images.length).map CameraImage.block).map
          CameraImage.ofBlock := hstored.symm
    _ = (images.map CameraImage.block).map CameraImage.ofBlock := by
          rw [Option.some.inj hfilm]
    _ = images := map_ofBlock_block hfits

/-- What a module of the darkroom does with a batch that pictures images. -/
theorem runModule_darkroom {w : Int32 → Film libs.metadataUnpack} {batch : ImageBatch}
    {images : List CameraImage} (h : Pictures (darkroom libs.metadataUnpack) libs w batch images)
    (function : ModuleFunction) (config : Option ModuleParameterList) :
    (darkroom libs.metadataUnpack).runModule w function batch config =
      if images.isEmpty then (⟨[], .killed⟩, w)
      else (⟨[], .returned (batch.discard images)⟩,
        Function.update w batch.shmid ((w batch.shmid).discard batch.numImages.toInt.toNat)) := by
  simp only [darkroom, h.eq_take]

/-- The batch that it returns pictures the images that are left. -/
theorem Pictures.discard {w : Int32 → Film libs.metadataUnpack} {batch : ImageBatch}
    {images : List CameraImage} (h : Pictures (darkroom libs.metadataUnpack) libs w batch images) :
    Pictures (darkroom libs.metadataUnpack) libs
      (Function.update w batch.shmid ((w batch.shmid).discard batch.numImages.toInt.toNat))
      (batch.withResult (batch.discard images)) images.tail := by
  have hfilm : ((w batch.shmid).discard batch.numImages.toInt.toNat).images = images.tail :=
    congrArg List.tail h.eq_take
  have hfits := ((w batch.shmid).discard batch.numImages.toInt.toNat).fits
  rw [hfilm] at hfits
  have hcount := length_le_batchSize images.tail
  refine ⟨⟨_, _, rfl, ?_⟩, ?_, Int32.toInt_ofNat_of_lt hfits, Int32.toInt_ofNat_of_lt (by omega)⟩
  · simp only [ImageBatch.withResult, ImageBatch.discard, Function.update_self, hfilm]
    exact holds_ofBuffer _
  · exact fun image himage => h.described image (List.mem_of_mem_tail himage)

/-- In the darkroom, the modules discard images. -/
theorem darkroom_develops : (darkroom libs.metadataUnpack).Develops libs discardFirst where
  fork := fun _ _ _ h => h
  attach := fun _ _ _ _ h => h
  fails := fun w function config batch images h hresult => by
    rw [runModule_darkroom h] at hresult
    by_cases hempty : images.isEmpty
    · exact if_pos hempty
    · rw [if_neg hempty] at hresult
      cases hresult
  develops := fun w function config batch images next h hresult => by
    rw [runModule_darkroom h] at hresult ⊢
    by_cases hempty : images.isEmpty
    · rw [if_pos hempty] at hresult
      cases hresult
    · rw [if_neg hempty] at hresult ⊢
      cases hresult
      exact ⟨images.tail, if_neg hempty, h.discard⟩
  others := fun w function config batch other images h hother => by
    simp only [darkroom]
    split
    · exact ⟨h, nofun⟩
    · refine ⟨?_, fun next hnext => ?_⟩
      · obtain ⟨⟨address, mem, hattached, hholds⟩, hdescribed, hsize, hcount⟩ := h
        refine ⟨⟨address, mem, ?_, hholds⟩, hdescribed, hsize, hcount⟩
        rw [← hattached]
        simp only [darkroom, Function.update_of_ne hother]
      · cases hnext
        exact hother

/-- In the darkroom, system calls succeed and modules have well-defined outcomes. -/
theorem darkroom_wellBehaved :
    (darkroom unpack).Reliable ∧ (darkroom unpack).Clean ∧ (darkroom unpack).SharesMemory ∧
      (darkroom unpack).Allocates := by
  refine ⟨⟨fun _ => rfl, fun _ => rfl, fun _ => rfl, fun _ => rfl, fun _ _ => rfl⟩,
    fun w function batch config => ?_, ⟨fun w shmid => ⟨_, _, rfl⟩, fun _ => rfl, fun _ _ => rfl⟩,
    fun w => ⟨fun _ => CallEnv.ample_succeeds, fun _ => CallEnv.ample_succeeds⟩⟩
  simp only [darkroom]
  split
  · trivial
  · rfl

/-- The sample libraries with the sample metadata. -/
def darkroomLibraries : Libraries := { definitionLibraries with metadataUnpack := sampleUnpack }

/-- An image without pixels, and one with one byte of them. -/
def sampleImages : List CameraImage := [⟨[], []⟩, ⟨[0x08, 0x01], [0xff]⟩]

/-- The sample images can be described. -/
theorem sampleImages_described : ∀ image ∈ sampleImages, image.Described sampleUnpack := by
  simp only [sampleImages, List.mem_cons, List.not_mem_nil, or_false, forall_eq_or_imp, forall_eq]
  exact ⟨⟨⟨0, 0⟩, by decide, by decide⟩, ⟨⟨1, 0⟩, by decide, by decide⟩⟩

/-- A world in which they lie in segment 7. -/
def sampleWorld (shmid : Int32) : Film sampleUnpack :=
  if shmid = 7 then ⟨sampleImages, sampleImages_described, by decide⟩ else ⟨[], nofun, by decide⟩

/-- An announcement of the images of one of its segments pictures them. -/
theorem sampleWorld_pictures (shmid : Int32) :
    Pictures (darkroom sampleUnpack) darkroomLibraries sampleWorld
      (cameraMessage (sampleWorld shmid).images shmid (List.replicate 16 0)).batch
      (sampleWorld shmid).images := by
  have hfill := fillBatch_eq (sampleWorld shmid).images
    (List.replicate (batchSize (sampleWorld shmid).images) 0) List.length_replicate
    (sampleWorld shmid).fits
  exact cameraMessage_pictures _ (sampleWorld shmid).described (sampleWorld shmid).fits _
    List.length_replicate shmid sampleWorld _
    (ofBuffer ((sampleWorld shmid).images.map CameraImage.block).flatten) rfl
    (by rw [hfill]; exact holds_ofBuffer _) _ List.length_replicate

/-- A message is put behind the others. -/
theorem serviceStep_arrival {s s' : ProcessState W} {world : W} {message : Message}
    {queue : List Message} (hqueue : s.queue = some queue)
    (h : serviceStep libs platform s (.arrival world message) = .ok s') :
    s'.queue = some (queue ++ [message]) ∧ s'.world = world := by
  obtain rfl := Except.ok.inj h
  exact ⟨congrArg (Option.map (· ++ [message])) hqueue, rfl⟩

/-- A pipeline is defined, an empty batch and the sample images arrive, the process is restarted,
and a run for all messages follows. -/
def sampleLifetime : List (ServiceEvent (Int32 → Film sampleUnpack) × ServiceOp) :=
  [(.command (.writePipeline 0 (.ofStream (storedStream packedDefinition)) .ample),
      .define 0 ⟨[⟨[0x61], 1⟩]⟩),
    (.arrival sampleWorld (cameraMessage [] 8 (List.replicate 16 0)), .shoot ⟨1, []⟩),
    (.arrival sampleWorld (cameraMessage sampleImages 7 (List.replicate 16 0)),
      .shoot ⟨1, sampleImages⟩),
    (.restart, .idle), (.processAll 3 ⟨0, 0, 0, 0, 0, 0⟩, .processAll)]

/-- A new process with nothing stored. -/
def sampleBoot : ProcessState (Int32 → Film sampleUnpack) :=
  .boot (.boot (fun _ => .zero) (fun _ => .zero) 0) sampleWorld (some [])

/-- It renders the empty service. -/
theorem sampleBoot_renders :
    Renders darkroomLibraries (darkroom sampleUnpack) sampleBoot
      ⟨fun _ => ⟨[]⟩, fun _ => ⟨[]⟩, [], []⟩ :=
  boot_renders (fun _ => decodes_of_empty _ (by decide) (by decide))
    (fun _ => ⟨Nat.zero_le _, fun _ h => absurd h List.not_mem_nil⟩)
    (fun _ => decodes_of_empty _ (by decide) (by decide)) 0 sampleWorld

/-- The events mean what they are paired with. -/
theorem sampleLifetime_means :
    Execution.Along (fun s event => serviceStep darkroomLibraries (darkroom sampleUnpack) s event.1)
      (fun s event => event.1.Means darkroomLibraries (darkroom sampleUnpack) s event.2)
      sampleLifetime sampleBoot := by
  refine ⟨.define 0 _ _ _ CallEnv.ample_succeeds decodes_packedDefinition
    ((sampleState_stores []).2 0), fun defined hdefined => ?_⟩
  obtain ⟨c, rfl⟩ := serviceStep_command hdefined
  have hqueue : { sampleBoot with config := c }.queue = some [] := rfl
  have hnone : { sampleBoot with config := c }.waiting = [] := rfl
  refine ⟨.shoot sampleWorld _ [] rfl (by decide) (sampleWorld_pictures 8) (by rw [hnone]; nofun)
    (fun _ _ _ h => h), fun first hfirst => ?_⟩
  obtain ⟨hone, hfirstWorld⟩ := serviceStep_arrival hqueue hfirst
  refine ⟨.shoot sampleWorld _ sampleImages rfl (by decide) (sampleWorld_pictures 7) ?_
    (fun _ _ _ h => hfirstWorld ▸ h), fun second hsecond => ?_⟩
  · rw [waiting_of_queue hone]
    decide
  obtain ⟨htwo, -⟩ := serviceStep_arrival hone hsecond
  refine ⟨.restart, fun third hthird => ⟨.processAll 3 _ ?_, fun _ _ => trivial⟩⟩
  obtain rfl := Except.ok.inj hthird
  have hrestarted : second.restarted.queue = second.queue := rfl
  rw [waiting_of_queue (hrestarted.trans htwo)]
  decide

/-- In this lifetime, the second of the sample images is served. -/
theorem lifetime_serves_sample :
    ∃ s', Execution.run (serviceStep darkroomLibraries (darkroom sampleUnpack))
        (sampleLifetime.map Prod.fst) sampleBoot = .ok s' ∧
      ServedImage listRing sampleUnpack (s'.ring.foldl listRing.write []) 0
        ⟨[0x08, 0x01], [0xff]⟩ ∧
      NotServed listRing (s'.ring.foldl listRing.write []) sampleUnpack 1 := by
  have hdevelops : (darkroom darkroomLibraries.metadataUnpack).Develops darkroomLibraries
      discardFirst := darkroom_develops
  obtain ⟨hreliable, hclean, hshared, hallocates⟩ :=
    @darkroom_wellBehaved darkroomLibraries.metadataUnpack
  obtain ⟨s', hrun, -, hserved, hrefused⟩ := lifetime_serves hdevelops hreliable hclean hshared
    hallocates sampleLifetime sampleBoot _ _ sampleBoot_renders sampleLifetime_means rfl listRing []
    _ listRing_keeps (by decide) (by decide)
  exact ⟨s', hrun, hserved 0 (by decide), hrefused 1 (by decide)⟩

end Dipp
