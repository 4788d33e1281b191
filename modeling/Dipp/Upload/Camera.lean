import Dipp.Upload.Safety

/-!
# From the camera to the ring

The camera simulator fills a segment with a running `int` offset: for each image the
size of the packed metadata, the metadata, and the pixels. The upload loop walks over
the same segment with an unsigned offset and finds the length of each image in its
metadata. What it hands to the ring are the images the camera put in.
-/

namespace Dipp

open LittleEndian Framing Mapped

/-- An image as the camera has it: packed metadata and pixels. -/
structure CameraImage where
  packed : List UInt8
  pixels : List UInt8
  deriving DecidableEq

/-- The bytes of an image in a batch. -/
def CameraImage.block (image : CameraImage) : List UInt8 := encodeBlock image.packed image.pixels

/-- The size of a batch of images. -/
def batchSize (images : List CameraImage) : ℕ :=
  (images.map fun image => image.pixels.length + 4 + image.packed.length).sum

/-- Copy bytes into the segment at an offset. -/
def copyAt (segment : List UInt8) (offset : Int32) (bytes : List UInt8) : List UInt8 :=
  segment.take offset.toInt.toNat ++ bytes ++ segment.drop (offset.toInt.toNat + bytes.length)

/-- The loop that fills the segment, from an offset on. -/
def fillBatch : List CameraImage → (offset : Int32) → (segment : List UInt8) → List UInt8
  | [], _, segment => segment
  | image :: rest, offset, segment =>
    let sized := copyAt segment offset (encode 4 image.packed.length)
    let afterSize := offset + 4
    let described := copyAt sized afterSize image.packed
    let afterMetadata := afterSize + Int32.ofNat image.packed.length
    let complete := copyAt described afterMetadata image.pixels
    fillBatch rest (afterMetadata + Int32.ofNat image.pixels.length) complete

/-- An image's block is as long as the batch size counts it. -/
@[simp] theorem CameraImage.length_block (image : CameraImage) :
    image.block.length = image.pixels.length + 4 + image.packed.length := by
  simp only [block, encodeBlock, List.length_append, length_encode]
  omega

/-- The blocks of a batch fill it. -/
theorem length_flatten_blocks (images : List CameraImage) :
    (images.map CameraImage.block).flatten.length = batchSize images := by
  induction images with
  | nil => rfl
  | cons image rest ih =>
    rw [List.map_cons, List.flatten_cons, List.length_append, ih, image.length_block]
    rfl

/-- Copying at the end of what is already written replaces the bytes that follow. -/
theorem copyAt_append (done rest bytes : List UInt8) (offset : Int32)
    (hoffset : offset.toInt = done.length) :
    copyAt (done ++ rest) offset bytes = done ++ bytes ++ rest.drop bytes.length := by
  rw [copyAt, hoffset, Int.toNat_natCast, List.take_left, List.drop_append, Nat.add_sub_cancel_left,
    List.drop_eq_nil_of_le (Nat.le_add_right _ _), List.nil_append]

/-- The offset moves past bytes that still fit into an `int`. -/
theorem toInt_add_ofNat (offset : Int32) (n count : ℕ) (hoffset : offset.toInt = n)
    (hfits : n + count < 2 ^ 31) : (offset + Int32.ofNat count).toInt = ((n + count : ℕ) : ℤ) := by
  have hcount : (Int32.ofNat count).toInt = count := Int32.toInt_ofNat_of_lt (by omega)
  rw [Int32.toInt_add, hoffset, hcount, Int.bmod_def]
  split <;> omega

/-- One pass of the loop appends the block of its image to what is already written. -/
theorem fillBatch_cons (image : CameraImage) (images : List CameraImage) (done rest : List UInt8)
    (offset : Int32) (hoffset : offset.toInt = done.length)
    (hfits : done.length + image.block.length < 2 ^ 31) :
    ∃ next : Int32, next.toInt = (done ++ image.block).length ∧
      fillBatch (image :: images) offset (done ++ rest) =
        fillBatch images next (done ++ image.block ++ rest.drop image.block.length) := by
  rw [image.length_block] at hfits
  have hword : (encode 4 image.packed.length).length = 4 := length_encode 4 _
  have hsize : (offset + 4).toInt = ((done.length + 4 : ℕ) : ℤ) :=
    toInt_add_ofNat offset done.length 4 hoffset (by omega)
  have hmetadata : (offset + 4 + Int32.ofNat image.packed.length).toInt =
      ((done.length + 4 + image.packed.length : ℕ) : ℤ) :=
    toInt_add_ofNat _ _ _ hsize (by omega)
  have hpixels : (offset + 4 + Int32.ofNat image.packed.length +
      Int32.ofNat image.pixels.length).toInt =
        ((done.length + 4 + image.packed.length + image.pixels.length : ℕ) : ℤ) :=
    toInt_add_ofNat _ _ _ hmetadata (by omega)
  refine ⟨offset + 4 + Int32.ofNat image.packed.length + Int32.ofNat image.pixels.length, ?_, ?_⟩
  · rw [hpixels, List.length_append, image.length_block]
    congr 1
    omega
  · rw [fillBatch, copyAt_append done rest _ offset hoffset,
      copyAt_append _ _ image.packed _ (by rw [hsize, List.length_append, hword]),
      copyAt_append _ _ image.pixels _ (by
        rw [hmetadata, List.length_append, List.length_append, hword])]
    congr 1
    rw [image.length_block, List.drop_drop, List.drop_drop, hword]
    simp only [CameraImage.block, encodeBlock, List.append_assoc]
    congr 5
    omega

/-- The loop writes the blocks of its images in order and leaves the rest of the segment. -/
theorem fillBatch_append (images : List CameraImage) (done rest : List UInt8) (offset : Int32)
    (hoffset : offset.toInt = done.length) (hfits : done.length + batchSize images < 2 ^ 31) :
    fillBatch images offset (done ++ rest) =
      done ++ (images.map CameraImage.block).flatten ++ rest.drop (batchSize images) := by
  induction images generalizing done rest offset with
  | nil => simp [fillBatch, batchSize]
  | cons image images ih =>
    have hsize : batchSize (image :: images) = image.block.length + batchSize images := by
      rw [image.length_block]
      rfl
    rw [hsize] at hfits
    obtain ⟨next, hnext, hstep⟩ := fillBatch_cons image images done rest offset hoffset (by omega)
    rw [hstep, ih _ _ next hnext (by rw [List.length_append]; omega), hsize, List.drop_drop,
      List.map_cons, List.flatten_cons, List.append_assoc done]

/-- A segment of the size of the batch ends up as the sequence of the blocks. -/
theorem fillBatch_eq (images : List CameraImage) (segment : List UInt8)
    (hsegment : segment.length = batchSize images) (hfits : batchSize images < 2 ^ 31) :
    fillBatch images 0 segment = (images.map CameraImage.block).flatten := by
  have h := fillBatch_append images [] segment 0 rfl (by simpa using hfits)
  rwa [List.nil_append, List.nil_append, List.drop_eq_nil_of_le hsegment.le, List.append_nil] at h

variable (unpack : List UInt8 → Option Metadata)

/-- The metadata of the image can be unpacked and counts its pixels. -/
def CameraImage.Described (image : CameraImage) : Prop :=
  ∃ metadata, unpack image.packed = some metadata ∧ metadata.size.toInt = image.pixels.length

/-- Uploading a batch that the camera filled hands the blocks of its first images to the ring, one
by one and complete, as many as were asked for. -/
theorem upload_fillBatch (images : List CameraImage)
    (hdescribed : ∀ image ∈ images, image.Described unpack) (segment : List UInt8)
    (hsegment : segment.length = batchSize images) (hfits : batchSize images < 2 ^ 31)
    (mem : Memory) (hholds : Holds mem (fillBatch images 0 segment)) (num : Int32)
    (hnum : 0 ≤ num.toInt) :
    (upload unpack mem num (Int32.ofNat (batchSize images))).map UploadIteration.element =
        ((images.map CameraImage.block).take num.toInt.toNat).map some ∧
      ((upload unpack mem num (Int32.ofNat (batchSize images))).length : ℤ) =
        min num.toInt images.length ∧
      (images.map CameraImage.block).flatten = fillBatch images 0 segment := by
  rw [fillBatch_eq images segment hsegment hfits] at hholds ⊢
  have hdata := length_flatten_blocks images
  have hblocks : ∀ block ∈ images.map CameraImage.block, IsBlock (blockLength unpack) block := by
    intro block hblock
    obtain ⟨image, himage, rfl⟩ := List.mem_map.mp hblock
    obtain ⟨metadata, hunpack, hsize⟩ := hdescribed image himage
    have hpart : image.block.length ≤ (images.map CameraImage.block).flatten.length :=
      (List.sublist_flatten_of_mem hblock).length_le
    rw [image.length_block] at hpart
    exact isBlock_encodeBlock unpack hunpack hsize (by omega)
  have hsplit : splitBlocks (blockLength unpack) num.toInt.toNat
      ((images.map CameraImage.block).flatten.drop (0 : UInt32).toNat) =
        some ((images.map CameraImage.block).take num.toInt.toNat) := by
    have h := splitBlocks_flatten (blockLength_selfDelimiting unpack) _ hblocks []
      num.toInt.toNat (Or.inr rfl)
    rwa [List.append_nil] at h
  have hlen : (Int32.ofNat (batchSize images)).toUInt32.toNat = batchSize images := by
    rw [Int32.toUInt32_ofNat', UInt32.toNat_ofNat']
    omega
  obtain ⟨-, helements⟩ := uploadFrom_of_split unpack hholds (by omega) _ (hlen.trans hdata.symm)
    num.toInt.toNat 0 (Nat.zero_le _) hsplit
  refine ⟨helements, ?_, rfl⟩
  have hcount := congrArg List.length helements
  simp only [List.length_map, List.length_take] at hcount
  rw [upload, hcount]
  omega

/-- Two images, the first without pixels and metadata, of which one is asked for. -/
theorem upload_fillBatch_pair :
    (upload sampleUnpack
        (ofBuffer (fillBatch [⟨[], []⟩, ⟨[0x08, 0x01], [0xff]⟩] 0 (List.replicate 11 0))) 1
        (Int32.ofNat (batchSize [⟨[], []⟩, ⟨[0x08, 0x01], [0xff]⟩]))).map UploadIteration.element =
      [some [0x00, 0x00, 0x00, 0x00]] := by
  refine (upload_fillBatch sampleUnpack [⟨[], []⟩, ⟨[0x08, 0x01], [0xff]⟩] ?_ (List.replicate 11 0)
    (by decide) (by decide) _ (holds_ofBuffer _) 1 (by decide)).1.trans (by decide)
  simp only [List.mem_cons, List.not_mem_nil, or_false, forall_eq_or_imp, forall_eq]
  exact ⟨⟨⟨0, 0⟩, by decide, by decide⟩, ⟨⟨1, 0⟩, by decide, by decide⟩⟩

end Dipp
