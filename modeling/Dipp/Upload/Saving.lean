import Dipp.Upload.Camera
import Mathlib.Logic.Function.Basic

/-!
# Saving a batch

`save_images` walks over a batch as `upload` does, and writes the pixels of each image to a
file that is named after its index. The name is printed into a buffer of twenty bytes, and
the loop ends where a file cannot be opened. On the batches that are uploaded safely, what
is saved are the ends of the elements that are uploaded, each under a name of its own.
-/

namespace Dipp

open LittleEndian Framing Mapped

/-- A number as `%d` prints it. -/
def decimal (n : ℕ) : CString := (Nat.toDigits 10 n).map fun digit => UInt8.ofNat digit.toNat

/-- The name of the file of an image. -/
def imageFilename (filenameBase : CString) (imageIndex : ℕ) : CString :=
  filenameBase ++ decimal imageIndex ++ ".raw".toUTF8.data.toList

/-- The size of the buffer for the name. -/
def filenameSize : ℕ := 20

/-- The files that there are, with their contents. -/
abbrev Folder := CString → Option (List UInt8)

/-- How saving ends: it returns, reads memory that is not mapped, uses metadata that could not be
unpacked, or writes behind the buffer for the name. -/
inductive SaveEnding where
  | returned
  | unreadable
  | nullMetadata
  | nameTooLong
  deriving DecidableEq, Repr

/-- What saving leaves. -/
structure Saved where
  folder : Folder
  ending : SaveEnding

variable (unpack : List UInt8 → Option Metadata) (mem : Memory) (opens : CString → Bool)
  (filenameBase : CString)

/-- The body of the loop at an offset, up to the next one or to the end of the loop. A file is empty
from when it is opened, and the size of an image is converted to a `size_t`. -/
def saveImage (imageIndex : ℕ) (offset : UInt32) (folder : Folder) :
    Except Saved (UInt32 × Folder) :=
  match readBytes mem offset.toNat 4 with
  | none => .error ⟨folder, .unreadable⟩
  | some word =>
    let metaSize := UInt32.ofNat (decode word)
    let offset := offset + 4
    match readBytes mem offset.toNat metaSize.toNat with
    | none => .error ⟨folder, .unreadable⟩
    | some packed =>
      let offset := offset + metaSize
      let filename := imageFilename filenameBase imageIndex
      if filenameSize ≤ filename.length then .error ⟨folder, .nameTooLong⟩
      else if opens filename = false then .error ⟨folder, .returned⟩
      else
        let opened := Function.update folder filename (some [])
        match unpack packed with
        | none => .error ⟨opened, .nullMetadata⟩
        | some metadata =>
          match readBytes mem offset.toNat (metadata.size.toInt % 2 ^ 64).toNat with
          | none => .error ⟨opened, .unreadable⟩
          | some pixels =>
            .ok (offset + metadata.size.toUInt32, Function.update folder filename (some pixels))

/-- The loop, from an image and an offset on. -/
def saveFrom (batchSize : UInt32) : (remaining imageIndex : ℕ) → (offset : UInt32) → Folder → Saved
  | 0, _, _, folder => ⟨folder, .returned⟩
  | remaining + 1, imageIndex, offset, folder =>
    if offset < batchSize then
      match saveImage unpack mem opens filenameBase imageIndex offset folder with
      | .error saved => saved
      | .ok (offset, folder) => saveFrom batchSize remaining (imageIndex + 1) offset folder
    else ⟨folder, .returned⟩

/-- Save a batch; its size is converted to the type of the offset. -/
def saveImages (numImages batchSize : Int32) (folder : Folder) : Saved :=
  saveFrom unpack mem opens filenameBase batchSize.toUInt32 numImages.toInt.toNat 0 0 folder

/-- The digits of a number can be read from what is printed. -/
theorem map_ofNat_decimal (n : ℕ) :
    (decimal n).map (fun byte => Char.ofNat byte.toNat) = Nat.toDigits 10 n := by
  rw [decimal, List.map_map]
  refine (List.map_congr_left fun digit hdigit => ?_).trans (List.map_id _)
  obtain ⟨-, hnine⟩ :=
    Char.isDigit_iff_toNat.mp (Nat.isDigit_of_mem_toDigits (by decide) (by decide) hdigit)
  have hsmall : digit.toNat < 2 ^ 8 := Nat.lt_of_le_of_lt hnine (by decide)
  rw [Function.comp_apply, UInt8.toNat_ofNat_of_lt' hsmall, Char.ofNat_toNat]
  rfl

/-- Printed numbers can be told apart. -/
theorem decimal_injective : Function.Injective decimal := by
  intro m n h
  have hdigits : Nat.toDigits 10 m = Nat.toDigits 10 n := by
    rw [← map_ofNat_decimal m, h, map_ofNat_decimal n]
  have hvalue := congrArg (fun digits => Nat.ofDigitChars 10 digits 0) hdigits
  rwa [Nat.ofDigitChars_ten_toDigits, Nat.ofDigitChars_ten_toDigits] at hvalue

/-- So can the files of the images. -/
theorem imageFilename_injective : Function.Injective (imageFilename filenameBase) := by
  intro m n h
  exact decimal_injective (List.append_cancel_left (List.append_cancel_right h))

/-- With six characters before the index, nine digits fit into the buffer. -/
theorem length_imageFilename_lt (hbase : filenameBase.length ≤ 6) {imageIndex : ℕ}
    (hindex : imageIndex < 10 ^ 9) :
    (imageFilename filenameBase imageIndex).length < filenameSize := by
  have hdigits : (Nat.toDigits 10 imageIndex).length ≤ 9 :=
    (Nat.length_toDigits_le_iff (by decide) (by decide)).mpr hindex
  have hsuffix : (".raw".toUTF8.data.toList).length = 4 := by decide
  rw [imageFilename, List.length_append, List.length_append, hsuffix, decimal, List.length_map,
    filenameSize]
  omega

/-- The contents under the names from an index on, up to the first file that cannot be opened. -/
def saveContents : (imageIndex : ℕ) → (contents : List (List UInt8)) → Folder → Folder
  | _, [], folder => folder
  | imageIndex, pixels :: rest, folder =>
    if opens (imageFilename filenameBase imageIndex) then
      saveContents (imageIndex + 1) rest
        (Function.update folder (imageFilename filenameBase imageIndex) (some pixels))
    else folder

/-- The names of so many files from an index on, up to the first one that cannot be opened. -/
def savedNames (imageIndex count : ℕ) : List CString :=
  ((List.range' imageIndex count).map (imageFilename filenameBase)).takeWhile opens

variable {opens filenameBase}

/-- One name more. -/
theorem savedNames_succ (imageIndex count : ℕ) :
    savedNames opens filenameBase imageIndex (count + 1) =
      if opens (imageFilename filenameBase imageIndex) then
        imageFilename filenameBase imageIndex ::
          savedNames opens filenameBase (imageIndex + 1) count
      else [] := by
  rw [savedNames, List.range'_succ, List.map_cons, List.takeWhile_cons]
  rfl

/-- The files from an index on have other names than the earlier ones. -/
theorem imageFilename_notMem_savedNames {earlier imageIndex : ℕ} (h : earlier < imageIndex)
    (count : ℕ) :
    imageFilename filenameBase earlier ∉ savedNames opens filenameBase imageIndex count := by
  intro hmem
  obtain ⟨later, hlater, hsame⟩ := List.mem_map.mp ((List.takeWhile_sublist _).subset hmem)
  obtain ⟨hle, -⟩ := List.mem_range'_1.mp hlater
  obtain rfl := imageFilename_injective filenameBase hsame
  omega

/-- All other files are left alone. -/
theorem saveContents_of_notMem {imageIndex : ℕ} {contents : List (List UInt8)} {folder : Folder}
    {name : CString} (hname : name ∉ savedNames opens filenameBase imageIndex contents.length) :
    saveContents opens filenameBase imageIndex contents folder name = folder name := by
  induction contents generalizing imageIndex folder with
  | nil => rfl
  | cons pixels rest ih =>
    rw [List.length_cons, savedNames_succ] at hname
    rw [saveContents]
    by_cases hopens : opens (imageFilename filenameBase imageIndex)
    · rw [if_pos hopens] at hname ⊢
      rw [ih (List.not_mem_of_not_mem_cons hname),
        Function.update_of_ne (List.ne_of_not_mem_cons hname)]
    · rw [if_neg hopens]

/-- The files with these names have the contents. -/
theorem saveContents_imageFilename {imageIndex : ℕ} {contents : List (List UInt8)}
    (folder : Folder) {i : ℕ}
    (hi : i < (savedNames opens filenameBase imageIndex contents.length).length) :
    ∃ pixels, contents[i]? = some pixels ∧
      saveContents opens filenameBase imageIndex contents folder
        (imageFilename filenameBase (imageIndex + i)) = some pixels := by
  induction contents generalizing imageIndex folder i with
  | nil => simp [savedNames] at hi
  | cons pixels rest ih =>
    rw [List.length_cons, savedNames_succ] at hi
    rw [saveContents]
    by_cases hopens : opens (imageFilename filenameBase imageIndex)
    · rw [if_pos hopens] at hi ⊢
      cases i with
      | zero =>
        have hlater : imageFilename filenameBase imageIndex ∉
            savedNames opens filenameBase (imageIndex + 1) rest.length :=
          imageFilename_notMem_savedNames (Nat.lt_add_one imageIndex) _
        exact ⟨pixels, rfl, (saveContents_of_notMem hlater).trans (Function.update_self _ _ _)⟩
      | succ i =>
        rw [List.length_cons] at hi
        obtain ⟨content, hcontent, hsaved⟩ := ih _ (Nat.lt_of_succ_lt_succ hi)
        rw [Nat.add_right_comm] at hsaved
        exact ⟨content, hcontent, hsaved⟩
    · rw [if_neg hopens] at hi
      exact absurd hi (Nat.not_lt_zero i)

/-- The pixels of a block stand behind its metadata. -/
def blockPixels (block : List UInt8) : List UInt8 := block.drop (4 + decode (block.take 4))

variable {unpack mem} {data : List UInt8}

/-- A block is made up of its metadata and its pixels. -/
theorem eq_encodeBlock_of_isBlock {block : List UInt8}
    (hblock : IsBlock (blockLength unpack) block) :
    ∃ packed, block = encodeBlock packed (blockPixels block) := by
  obtain ⟨metaSize, metadata, rfl, -, -, hlength, -⟩ := (blockLength_eq_some unpack).mp hblock
  have hword : (block.take 4).length = 4 := by
    rw [List.length_take]
    omega
  have hpacked : ((block.drop 4).take (decode (block.take 4))).length = decode (block.take 4) := by
    rw [List.length_take, List.length_drop]
    omega
  have hencode := encode_decode (block.take 4)
  rw [hword] at hencode
  refine ⟨(block.drop 4).take (decode (block.take 4)), ?_⟩
  rw [encodeBlock, hpacked, hencode, blockPixels, ← List.drop_drop, List.take_append_drop,
    List.take_append_drop]

/-- Each block takes four bytes at least. -/
theorem length_le_of_isBlock {blocks : List (List UInt8)}
    (hblocks : ∀ block ∈ blocks, IsBlock (blockLength unpack) block) :
    4 * blocks.length ≤ blocks.flatten.length := by
  induction blocks with
  | nil => exact Nat.zero_le _
  | cons block rest ih =>
    obtain ⟨metaSize, metadata, -, -, -, hlength, -⟩ :=
      (blockLength_eq_some unpack).mp (hblocks block List.mem_cons_self)
    have hrest := ih fun later hlater => hblocks later (List.mem_cons_of_mem _ hlater)
    rw [List.flatten_cons, List.length_append, List.length_cons]
    omega

/-- At a well-formed block, the pixels of the block are saved if the file can be opened. -/
theorem saveImage_of_block (hholds : Holds mem data) (hlength : data.length < 2 ^ 31)
    (offset : UInt32) {n : ℕ} (hblock : blockLength unpack (data.drop offset.toNat) = some n)
    {imageIndex : ℕ} (hname : (imageFilename filenameBase imageIndex).length < filenameSize)
    (folder : Folder) :
    ∃ stop : UInt32, stop.toNat = offset.toNat + n ∧
      saveImage unpack mem opens filenameBase imageIndex offset folder =
        if opens (imageFilename filenameBase imageIndex) then
          .ok (stop, Function.update folder (imageFilename filenameBase imageIndex)
            (some (blockPixels ((data.drop offset.toNat).take n))))
        else .error ⟨folder, .returned⟩ := by
  obtain ⟨metaSize, metadata, hmetaSize, hunpack, hsize, hn, hinside⟩ :=
    (blockLength_eq_some unpack).mp hblock
  rw [List.length_drop] at hinside
  rw [List.drop_drop] at hunpack
  have hmeta : (UInt32.ofNat metaSize).toNat = metaSize := by
    rw [UInt32.toNat_ofNat']
    omega
  have hfour : (4 : UInt32).toNat = 4 := rfl
  have hoffset : (offset + 4).toNat = offset.toNat + 4 := by
    rw [UInt32.toNat_add, hfour]
    omega
  have hmetaEnd : (offset + 4 + UInt32.ofNat metaSize).toNat = offset.toNat + 4 + metaSize := by
    rw [UInt32.toNat_add, hoffset, hmeta]
    omega
  have hstop : (offset + 4 + UInt32.ofNat metaSize + metadata.size.toUInt32).toNat =
      offset.toNat + n := by
    rw [UInt32.toNat_add, hmetaEnd, toNat_toUInt32_of_nonneg hsize]
    omega
  have hcount : (metadata.size.toInt % 2 ^ 64).toNat = metadata.size.toInt.toNat := by
    have hupper := metadata.size.toInt_lt
    omega
  have hpixels : blockPixels ((data.drop offset.toNat).take n) =
      (data.drop (offset.toNat + 4 + metaSize)).take metadata.size.toInt.toNat := by
    rw [blockPixels, List.take_take, Nat.min_eq_left (by omega), ← hmetaSize, List.drop_take,
      List.drop_drop, ← Nat.add_assoc]
    congr 1
    omega
  refine ⟨_, hstop, ?_⟩
  rw [hpixels]
  simp only [saveImage, readBytes_of_holds hholds offset.toNat 4 (by omega), ← hmetaSize, hoffset,
    hmeta, readBytes_of_holds hholds (offset.toNat + 4) metaSize (by omega), hunpack,
    if_neg (Nat.not_le_of_lt hname), hmetaEnd, hcount,
    readBytes_of_holds hholds (offset.toNat + 4 + metaSize) metadata.size.toInt.toNat (by omega)]
  cases opens (imageFilename filenameBase imageIndex) <;> rfl

/-- Where the data can be cut into blocks, the pixels of these blocks are saved. -/
theorem saveFrom_of_split (hholds : Holds mem data) (hlength : data.length < 2 ^ 31)
    (len : UInt32) (hlen : len.toNat = data.length) (remaining imageIndex : ℕ) (offset : UInt32)
    {blocks : List (List UInt8)}
    (hblocks : splitBlocks (blockLength unpack) remaining (data.drop offset.toNat) = some blocks)
    (hnames : ∀ i < imageIndex + blocks.length,
      (imageFilename filenameBase i).length < filenameSize) (folder : Folder) :
    saveFrom unpack mem opens filenameBase len remaining imageIndex offset folder =
      ⟨saveContents opens filenameBase imageIndex (blocks.map blockPixels) folder, .returned⟩ := by
  induction remaining generalizing imageIndex offset blocks folder with
  | zero =>
    obtain rfl : [] = blocks := Option.some.inj hblocks
    rfl
  | succ remaining ih =>
    rw [saveFrom]
    by_cases hmore : offset < len
    · rw [if_pos hmore]
      have hne : data.drop offset.toNat ≠ [] := by
        rw [UInt32.lt_iff_toNat_lt, hlen] at hmore
        simpa using hmore
      rw [splitBlocks_succ _ _ hne] at hblocks
      obtain ⟨n, hn, hblocks⟩ := Option.bind_eq_some_iff.mp hblocks
      obtain ⟨later, hlater, rfl⟩ := Option.map_eq_some_iff.mp hblocks
      rw [List.length_cons] at hnames
      obtain ⟨stop, hstop, himage⟩ := saveImage_of_block hholds hlength offset hn
        (hnames imageIndex (by omega)) folder
      rw [List.drop_drop, ← hstop] at hlater
      rw [himage, List.map_cons, saveContents]
      by_cases hopens : opens (imageFilename filenameBase imageIndex)
      · rw [if_pos hopens, if_pos hopens]
        exact ih (imageIndex + 1) stop hlater (fun i hi => hnames i (by omega)) _
      · rw [if_neg hopens, if_neg hopens]
    · have hend : data.drop offset.toNat = [] := by
        rw [UInt32.lt_iff_toNat_lt, hlen] at hmore
        simpa using hmore
      rw [if_neg hmore]
      rw [hend] at hblocks
      obtain rfl : [] = blocks := Option.some.inj hblocks
      rfl

/-- Saving agrees with uploading: of a sequence of well-formed blocks, what is uploaded for an image
consists of metadata and the pixels that are saved in the file of this image, up to the first
file that cannot be opened, the files of different images are different, and no other file is
touched. -/
theorem saveImages_agrees_upload (data : List UInt8) (mem : Memory) (hholds : Holds mem data)
    (num len : Int32) (hlen : len.toInt = data.length)
    (hframed : Framed (blockLength unpack) num.toInt.toNat data) (opens : CString → Bool)
    (filenameBase : CString) (hbase : filenameBase.length ≤ 6) (folder : Folder) :
    ∃ (elements : List (List UInt8)) (saved : Folder),
      (upload unpack mem num len).map UploadIteration.element = elements.map some ∧
      saveImages unpack mem opens filenameBase num len folder = ⟨saved, .returned⟩ ∧
      (∀ i < (savedNames opens filenameBase 0 elements.length).length, ∃ element packed,
        elements[i]? = some element ∧ element = encodeBlock packed (blockPixels element) ∧
          saved (imageFilename filenameBase i) = some (blockPixels element)) ∧
      Function.Injective (imageFilename filenameBase) ∧
      ∀ name ∉ savedNames opens filenameBase 0 elements.length, saved name = folder name := by
  have hlength : data.length < 2 ^ 31 := by
    have hupper := len.toInt_lt
    omega
  have hunsigned : len.toUInt32.toNat = data.length := by
    rw [toNat_toUInt32_of_nonneg (by omega), hlen, Int.toNat_natCast]
  have hreader := blockLength_selfDelimiting unpack
  obtain ⟨blocks, hblocks⟩ := (splitBlocks_isSome_iff hreader _ data).mpr hframed
  obtain ⟨tail, htail, hwellFormed, -, -⟩ := splitBlocks_sound hreader _ data blocks hblocks
  have hfew : 4 * blocks.length ≤ data.length := by
    have hflatten := congrArg List.length htail
    rw [List.length_append] at hflatten
    have hle := length_le_of_isBlock hwellFormed
    omega
  have hstart : splitBlocks (blockLength unpack) num.toInt.toNat
      (data.drop (0 : UInt32).toNat) = some blocks := hblocks
  have hsaved : saveImages unpack mem opens filenameBase num len folder =
      ⟨saveContents opens filenameBase 0 (blocks.map blockPixels) folder, .returned⟩ :=
    saveFrom_of_split hholds hlength _ hunsigned _ 0 0 hstart
      (fun i hi => length_imageFilename_lt filenameBase hbase (by omega)) folder
  have hcount : (blocks.map blockPixels).length = blocks.length := List.length_map _
  refine ⟨blocks, _, (uploadFrom_of_split unpack hholds hlength _ hunsigned _ 0 (Nat.zero_le _)
    hstart).2, hsaved, fun i hi => ?_, imageFilename_injective filenameBase,
      fun name hname => ?_⟩
  · rw [← hcount] at hi
    obtain ⟨pixels, hpixels, hcontent⟩ := saveContents_imageFilename folder hi
    rw [List.getElem?_map] at hpixels
    obtain ⟨block, hblock, rfl⟩ := Option.map_eq_some_iff.mp hpixels
    obtain ⟨packed, hpacked⟩ := eq_encodeBlock_of_isBlock
      (hwellFormed block (List.mem_of_getElem? hblock))
    rw [Nat.zero_add] at hcontent
    exact ⟨block, packed, hblock, hpacked, hcontent⟩
  · rw [← hcount] at hname
    exact saveContents_of_notMem hname

/-- Of two images, the second one can be found as `output1.raw`. -/
theorem saveImages_agrees_upload_pair :
    ∃ saved, saveImages sampleUnpack
        (ofBuffer (encodeBlock [] [] ++ encodeBlock [0x08, 0x01] [0xff])) (fun _ => true)
        "output".toUTF8.data.toList 2 11 (fun _ => none) = ⟨saved, .returned⟩ ∧
      saved "output1.raw".toUTF8.data.toList = some [0xff] := by
  have hframed : Framed (blockLength sampleUnpack) 2
      (encodeBlock [] [] ++ encodeBlock [0x08, 0x01] [0xff]) := by
    refine ⟨[encodeBlock [] [], encodeBlock [0x08, 0x01] [0xff]], [], by simp, ?_, by decide,
      Or.inr rfl⟩
    simp only [List.mem_cons, List.not_mem_nil, or_false, forall_eq_or_imp, forall_eq, IsBlock]
    decide
  obtain ⟨elements, saved, helements, hsaved, hfiles, -⟩ := saveImages_agrees_upload _ _
    (holds_ofBuffer _) 2 11 (by decide) hframed (fun _ => true) "output".toUTF8.data.toList
    (by decide) fun _ => none
  have hrun : (upload sampleUnpack
      (ofBuffer (encodeBlock [] [] ++ encodeBlock [0x08, 0x01] [0xff])) 2 11).map
        UploadIteration.element =
      [encodeBlock [] [], encodeBlock [0x08, 0x01] [0xff]].map some := by decide
  obtain rfl := List.map_injective_iff.mpr (Option.some_injective _) (helements.symm.trans hrun)
  obtain ⟨element, packed, helement, -, hfile⟩ := hfiles 1 (by decide)
  obtain rfl := Option.some.inj helement
  exact ⟨saved, hsaved, hfile⟩

end Dipp
