import Dipp.Upload.Blocks
import Dipp.Library.Memory
import Mathlib.Data.List.Chain

/-!
# The upload loop

`upload` walks over the attached batch with a 32-bit offset. Each iteration reads a size
word, unpacks the metadata behind it, and hands the bytes from the start of the block to
the start of the next one to the ring. None of the three additions to the offset is
checked, neither is the result of unpacking, and the length of the batch is looked at
only between two iterations. A run is recorded as its iterations; it goes no further
once one of them touches memory that is not there.
-/

namespace Dipp

open LittleEndian Framing Mapped

/-- One iteration: where it starts, what it reads, where it stops, and what it writes. -/
inductive UploadIteration where
  | sizeUnreadable (start : UInt32)
  | metadataUnreadable (start metaSize : UInt32)
  | nullMetadata (start metaSize : UInt32)
  | elementUnreadable (start metaSize : UInt32) (metadata : Metadata) (stop : UInt32)
  | written (start metaSize : UInt32) (metadata : Metadata) (stop : UInt32)
      (element : List UInt8)
  deriving DecidableEq

/-- The element that an iteration hands to `vmem_ring_write`. -/
def UploadIteration.element : UploadIteration → Option (List UInt8)
  | .written _ _ _ _ element => some element
  | _ => none

variable (unpack : List UInt8 → Option Metadata) (mem : Memory)

/-- The body of the loop at an offset; the additions wrap. -/
def uploadIteration (start : UInt32) : UploadIteration :=
  match readBytes mem start.toNat 4 with
  | none => .sizeUnreadable start
  | some word =>
    let metaSize := UInt32.ofNat (decode word)
    let offset := start + 4
    match readBytes mem offset.toNat metaSize.toNat with
    | none => .metadataUnreadable start metaSize
    | some packed =>
      match unpack packed with
      | none => .nullMetadata start metaSize
      | some metadata =>
        let stop := offset + metaSize + metadata.size.toUInt32
        match readBytes mem start.toNat (stop - start).toNat with
        | none => .elementUnreadable start metaSize metadata stop
        | some element => .written start metaSize metadata stop element

/-- The iterations from an offset on, as long as images remain and the offset is below `len`. -/
def uploadFrom (len : UInt32) : (remaining : ℕ) → (offset : UInt32) → List UploadIteration
  | 0, _ => []
  | remaining + 1, offset =>
    if offset < len then
      match uploadIteration unpack mem offset with
      | .written start metaSize metadata stop element =>
        .written start metaSize metadata stop element :: uploadFrom len remaining stop
      | stuck => [stuck]
    else []

/-- Walk over the batch; `len` is converted to the type of the offset. -/
def upload (num len : Int32) : List UploadIteration :=
  uploadFrom unpack mem len.toUInt32 num.toInt.toNat 0

/-- What an iteration that writes has read. -/
theorem uploadIteration_eq_written {offset start metaSize stop : UInt32} {metadata : Metadata}
    {element : List UInt8} :
    uploadIteration unpack mem offset = .written start metaSize metadata stop element ↔
      start = offset ∧ stop = offset + 4 + metaSize + metadata.size.toUInt32 ∧
        (∃ word, readBytes mem offset.toNat 4 = some word ∧
          metaSize = UInt32.ofNat (decode word)) ∧
        (∃ packed, readBytes mem (offset + 4).toNat metaSize.toNat = some packed ∧
          unpack packed = some metadata) ∧
        readBytes mem offset.toNat (stop - offset).toNat = some element := by
  unfold uploadIteration
  constructor
  · intro h
    split at h
    · contradiction
    · rename_i word hword
      dsimp only at h
      split at h
      · contradiction
      · rename_i packed hpacked
        split at h
        · contradiction
        · rename_i metadata' hmetadata
          split at h
          · contradiction
          · rename_i element' helement
            obtain ⟨rfl, rfl, rfl, rfl, rfl⟩ := UploadIteration.written.inj h
            exact ⟨rfl, rfl, ⟨word, hword, rfl⟩, ⟨packed, hpacked, hmetadata⟩, helement⟩
  · rintro ⟨rfl, rfl, ⟨word, hword, rfl⟩, ⟨packed, hpacked, hmetadata⟩, helement⟩
    simp only [hword, hpacked, hmetadata, helement]

/-- Where an iteration starts. -/
def UploadIteration.start : UploadIteration → UInt32
  | .sizeUnreadable start => start
  | .metadataUnreadable start _ => start
  | .nullMetadata start _ => start
  | .elementUnreadable start _ _ _ => start
  | .written start _ _ _ _ => start

/-- Every iteration records the offset it starts from. -/
@[simp] theorem uploadIteration_start (offset : UInt32) :
    (uploadIteration unpack mem offset).start = offset := by
  unfold uploadIteration
  split
  · rfl
  · dsimp only
    split
    · rfl
    · split
      · rfl
      · split <;> rfl

/-- The second iteration starts where the first one, having written its element, stopped. -/
def UploadIteration.Adjacent (first second : UploadIteration) : Prop :=
  ∃ start metaSize metadata element,
    first = .written start metaSize metadata second.start element

/-- A walk starts at its offset, and each further iteration where the previous one stopped. -/
theorem uploadFrom_adjacent (len : UInt32) (remaining : ℕ) (offset : UInt32) :
    (∀ first ∈ (uploadFrom unpack mem len remaining offset).head?, first.start = offset) ∧
      (uploadFrom unpack mem len remaining offset).IsChain UploadIteration.Adjacent := by
  induction remaining generalizing offset with
  | zero => simp [uploadFrom]
  | succ remaining ih =>
    rw [uploadFrom]
    split
    · have hstart := uploadIteration_start unpack mem offset
      cases hiteration : uploadIteration unpack mem offset with
      | written start metaSize metadata stop element =>
        rw [hiteration] at hstart
        obtain ⟨hhead, hchain⟩ := ih stop
        refine ⟨by simpa using hstart, List.isChain_cons.mpr ⟨?_, hchain⟩⟩
        intro second hsecond
        exact ⟨start, metaSize, metadata, element, by rw [hhead second hsecond]⟩
      | sizeUnreadable start => rw [hiteration] at hstart; simpa using hstart
      | metadataUnreadable start metaSize => rw [hiteration] at hstart; simpa using hstart
      | nullMetadata start metaSize => rw [hiteration] at hstart; simpa using hstart
      | elementUnreadable start metaSize metadata stop =>
        rw [hiteration] at hstart; simpa using hstart
    · simp

/-- A write that stays inside the batch: the size word and the metadata are read from it, no
addition wraps, and the slice handed to the ring is a non-empty part of it. -/
structure SafeWrite (data : List UInt8) (start metaSize : UInt32) (metadata : Metadata)
    (stop : UInt32) (element : List UInt8) : Prop where
  metadata_inside : start.toNat + 4 + metaSize.toNat ≤ data.length
  size_nonneg : 0 ≤ metadata.size.toInt
  stop_eq : stop.toNat = start.toNat + 4 + metaSize.toNat + metadata.size.toInt.toNat
  nonempty : start < stop
  inside : stop.toNat ≤ data.length
  element_eq : element = (data.drop start.toNat).take (stop.toNat - start.toNat)

/-- An iteration is safe if it completes with a safe write. -/
def UploadIteration.Safe (data : List UInt8) : UploadIteration → Prop
  | .written start metaSize metadata stop element =>
    SafeWrite data start metaSize metadata stop element
  | _ => False

/-- A non-negative `int` is converted to the unsigned number of the same value. -/
theorem toNat_toUInt32_of_nonneg {size : Int32} (h : 0 ≤ size.toInt) :
    size.toUInt32.toNat = size.toInt.toNat :=
  Int32.toNat_toUInt32_of_le (Int32.le_iff_toInt_le.mpr h)

variable {mem} {data : List UInt8}

/-- At a well-formed block, an iteration writes exactly the block and stops behind it. -/
theorem uploadIteration_of_block (hholds : Holds mem data) (hlength : data.length < 2 ^ 31)
    (offset : UInt32) {n : ℕ} (hblock : blockLength unpack (data.drop offset.toNat) = some n) :
    ∃ metaSize metadata stop, uploadIteration unpack mem offset =
        .written offset metaSize metadata stop ((data.drop offset.toNat).take n) ∧
      stop.toNat = offset.toNat + n ∧
      SafeWrite data offset metaSize metadata stop ((data.drop offset.toNat).take n) := by
  obtain ⟨metaSize, metadata, hmetaSize, hunpack, hsize, hn, hinside⟩ :=
    (blockLength_eq_some unpack).mp hblock
  rw [List.length_drop] at hinside
  rw [List.drop_drop] at hunpack
  have hmeta : (UInt32.ofNat metaSize).toNat = metaSize := by
    rw [UInt32.toNat_ofNat']
    omega
  have hfour : (4 : UInt32).toNat = 4 := rfl
  have hoffset : (offset + 4).toNat = offset.toNat + 4 := by
    rw [UInt32.toNat_add, hfour]
    omega
  have hstop : (offset + 4 + UInt32.ofNat metaSize + metadata.size.toUInt32).toNat =
      offset.toNat + n := by
    rw [UInt32.toNat_add, UInt32.toNat_add, hoffset, hmeta, toNat_toUInt32_of_nonneg hsize]
    omega
  have hlt : offset < offset + 4 + UInt32.ofNat metaSize + metadata.size.toUInt32 := by
    rw [UInt32.lt_iff_toNat_lt, hstop]
    omega
  have hwidth :
      (offset + 4 + UInt32.ofNat metaSize + metadata.size.toUInt32 - offset).toNat = n := by
    rw [UInt32.toNat_sub_of_le _ _ (UInt32.le_of_lt hlt), hstop]
    omega
  refine ⟨UInt32.ofNat metaSize, metadata, _, ?_, hstop, ?_⟩
  · refine (uploadIteration_eq_written unpack mem).mpr ⟨rfl, rfl,
      ⟨_, readBytes_of_holds hholds _ 4 (by omega), by rw [hmetaSize]⟩, ⟨_, ?_, hunpack⟩, ?_⟩
    · rw [hoffset, hmeta]
      exact readBytes_of_holds hholds _ metaSize (by omega)
    · rw [hwidth]
      exact readBytes_of_holds hholds _ n (by omega)
  · refine ⟨by omega, hsize, ?_, hlt, by omega, ?_⟩
    · rw [hstop, hmeta]
      omega
    · rw [hstop, Nat.add_sub_cancel_left]

/-- A safe iteration has found a well-formed block. -/
theorem block_of_safe (hholds : Holds mem data) (hlength : data.length < 2 ^ 31)
    {offset start metaSize stop : UInt32} {metadata : Metadata} {element : List UInt8}
    (hiteration : uploadIteration unpack mem offset = .written start metaSize metadata stop element)
    (hsafe : SafeWrite data start metaSize metadata stop element) :
    ∃ n, blockLength unpack (data.drop offset.toNat) = some n ∧
      stop.toNat = offset.toNat + n := by
  obtain ⟨rfl, -, ⟨word, hword, hmetaSize⟩, ⟨packed, hpacked, hunpack⟩, -⟩ :=
    (uploadIteration_eq_written unpack mem).mp hiteration
  obtain ⟨hmetadata, hsize, hstop, -, hinside, -⟩ := hsafe
  have hfour : (4 : UInt32).toNat = 4 := rfl
  have hoffset : (start + 4).toNat = start.toNat + 4 := by
    rw [UInt32.toNat_add, hfour]
    omega
  rw [readBytes_of_holds hholds _ 4 (by omega)] at hword
  obtain rfl := Option.some.inj hword
  rw [hoffset, readBytes_of_holds hholds _ _ (by omega)] at hpacked
  obtain rfl := Option.some.inj hpacked
  have hdecode : metaSize.toNat = decode ((data.drop start.toNat).take 4) := by
    have hbound := decode_lt ((data.drop start.toNat).take 4)
    rw [List.length_take, List.length_drop, Nat.min_eq_left (by omega)] at hbound
    rw [hmetaSize, UInt32.toNat_ofNat']
    omega
  refine ⟨4 + metaSize.toNat + metadata.size.toInt.toNat, ?_, by omega⟩
  apply (blockLength_eq_some unpack).mpr
  refine ⟨metaSize.toNat, metadata, hdecode, ?_, hsize, rfl, ?_⟩
  · rw [List.drop_drop, hunpack]
  · rw [List.length_drop]
    omega

/-- Where the data can be cut into blocks, the walk writes exactly these blocks, safely. -/
theorem uploadFrom_of_split (hholds : Holds mem data) (hlength : data.length < 2 ^ 31)
    (len : UInt32) (hlen : len.toNat = data.length) (remaining : ℕ) (offset : UInt32)
    (hoffset : offset.toNat ≤ data.length) {blocks : List (List UInt8)}
    (hblocks : splitBlocks (blockLength unpack) remaining (data.drop offset.toNat) = some blocks) :
    (∀ iteration ∈ uploadFrom unpack mem len remaining offset, iteration.Safe data) ∧
      (uploadFrom unpack mem len remaining offset).map UploadIteration.element =
        blocks.map some := by
  induction remaining generalizing offset blocks with
  | zero =>
    obtain rfl : [] = blocks := Option.some.inj hblocks
    simp [uploadFrom]
  | succ remaining ih =>
    rw [uploadFrom]
    by_cases hmore : offset < len
    · rw [if_pos hmore]
      have hlt : offset.toNat < data.length := by
        rw [UInt32.lt_iff_toNat_lt] at hmore
        omega
      have hne : data.drop offset.toNat ≠ [] := by
        simpa using hlt
      rw [splitBlocks_succ _ _ hne] at hblocks
      obtain ⟨n, hn, hblocks⟩ := Option.bind_eq_some_iff.mp hblocks
      obtain ⟨later, hlater, rfl⟩ := Option.map_eq_some_iff.mp hblocks
      obtain ⟨metaSize, metadata, stop, hiteration, hstop, hsafe⟩ :=
        uploadIteration_of_block unpack hholds hlength offset hn
      have hinside := hsafe.inside
      rw [List.drop_drop, ← hstop] at hlater
      obtain ⟨hrest, helements⟩ := ih stop hinside hlater
      simp only [hiteration]
      refine ⟨?_, ?_⟩
      · intro iteration hmem
        rcases List.mem_cons.mp hmem with rfl | hmem
        · exact hsafe
        · exact hrest iteration hmem
      · rw [List.map_cons, helements]
        rfl
    · have hend : data.drop offset.toNat = [] := by
        rw [UInt32.lt_iff_toNat_lt] at hmore
        simpa using (by omega : data.length ≤ offset.toNat)
      rw [if_neg hmore]
      rw [hend] at hblocks
      obtain rfl : [] = blocks := Option.some.inj hblocks
      simp

/-- A walk of safe iterations only has cut the data into blocks. -/
theorem split_of_safe (hholds : Holds mem data) (hlength : data.length < 2 ^ 31)
    (len : UInt32) (hlen : len.toNat = data.length) (remaining : ℕ) (offset : UInt32)
    (hoffset : offset.toNat ≤ data.length)
    (hsafe : ∀ iteration ∈ uploadFrom unpack mem len remaining offset, iteration.Safe data) :
    ∃ blocks,
      splitBlocks (blockLength unpack) remaining (data.drop offset.toNat) = some blocks := by
  induction remaining generalizing offset with
  | zero => exact ⟨[], rfl⟩
  | succ remaining ih =>
    rw [uploadFrom] at hsafe
    by_cases hmore : offset < len
    · rw [if_pos hmore] at hsafe
      have hne : data.drop offset.toNat ≠ [] := by
        rw [UInt32.lt_iff_toNat_lt] at hmore
        simpa using (by omega : offset.toNat < data.length)
      cases hiteration : uploadIteration unpack mem offset with
      | written start metaSize metadata stop element =>
        simp only [hiteration, List.forall_mem_cons] at hsafe
        obtain ⟨n, hn, hstop⟩ := block_of_safe unpack hholds hlength hiteration hsafe.1
        obtain ⟨later, hlater⟩ := ih stop hsafe.1.inside hsafe.2
        rw [splitBlocks_succ _ _ hne, hn, Option.bind_some, List.drop_drop, ← hstop, hlater]
        exact ⟨_, rfl⟩
      | sizeUnreadable start => simp [hiteration, UploadIteration.Safe] at hsafe
      | metadataUnreadable start metaSize => simp [hiteration, UploadIteration.Safe] at hsafe
      | nullMetadata start metaSize => simp [hiteration, UploadIteration.Safe] at hsafe
      | elementUnreadable start metaSize metadata stop =>
        simp [hiteration, UploadIteration.Safe] at hsafe
    · have hend : data.drop offset.toNat = [] := by
        rw [UInt32.lt_iff_toNat_lt] at hmore
        simpa using (by omega : data.length ≤ offset.toNat)
      rw [hend]
      exact ⟨[], rfl⟩

end Dipp
