import Dipp.Messages
import Dipp.Library.Framing
import Dipp.Library.LittleEndian

/-!
# The blocks of an image batch

A batch is a sequence of blocks, one for each image: a 32-bit size, that many bytes of
packed metadata, and as many pixel bytes as the metadata says. A block delimits itself,
so a batch can be cut into its blocks without any outer index.
-/

namespace Dipp

open LittleEndian Framing

variable (unpack : List UInt8 → Option Metadata)

/-- The length of the well-formed block at the head of the data. -/
def blockLength (data : List UInt8) : Option ℕ :=
  let metaSize := decode (data.take 4)
  match unpack ((data.drop 4).take metaSize) with
  | none => none
  | some metadata =>
    let length := 4 + metaSize + metadata.size.toInt.toNat
    if 0 ≤ metadata.size.toInt ∧ length ≤ data.length then some length else none

/-- The head of the data is a block of this length, with this metadata. -/
structure HeadBlock (data : List UInt8) (metaSize : ℕ) (metadata : Metadata) (length : ℕ) :
    Prop where
  metaSize_eq : metaSize = decode (data.take 4)
  unpack_eq : unpack ((data.drop 4).take metaSize) = some metadata
  size_nonneg : 0 ≤ metadata.size.toInt
  length_eq : length = 4 + metaSize + metadata.size.toInt.toNat
  inside : length ≤ data.length

/-- A block length is reported exactly if there is a block. -/
theorem blockLength_eq_some {data : List UInt8} {length : ℕ} :
    blockLength unpack data = some length ↔
      ∃ metaSize metadata, HeadBlock unpack data metaSize metadata length := by
  unfold blockLength
  constructor
  · intro h
    cases hunpack : unpack ((data.drop 4).take (decode (data.take 4))) with
    | none => simp [hunpack] at h
    | some metadata =>
      simp only [hunpack] at h
      split at h
      case isTrue hcond =>
        obtain rfl := Option.some.inj h
        exact ⟨_, metadata, rfl, hunpack, hcond.1, rfl, hcond.2⟩
      case isFalse => contradiction
  · rintro ⟨metaSize, metadata, rfl, hunpack, hsize, rfl, hinside⟩
    simp only [hunpack]
    exact if_pos ⟨hsize, hinside⟩

/-- A range of the head of the data is the same range of the data. -/
theorem take_drop_take_append (data tail : List UInt8) (n start count : ℕ)
    (hrange : start + count ≤ n) (hn : n ≤ data.length) :
    ((data.take n ++ tail).drop start).take count = (data.drop start).take count := by
  have hlength : (data.take n).length = n := by rw [List.length_take, Nat.min_eq_left hn]
  rw [List.drop_append_of_le_length (by omega), List.take_append_of_le_length (by
    rw [List.length_drop]; omega), List.drop_take, List.take_take, Nat.min_eq_left (by omega)]

/-- Blocks delimit themselves. -/
theorem blockLength_selfDelimiting : SelfDelimiting (blockLength unpack) where
  positive := by
    intro data n h
    obtain ⟨metaSize, metadata, hblock⟩ := (blockLength_eq_some unpack).mp h
    have hlength := hblock.length_eq
    omega
  bounded := by
    intro data n h
    obtain ⟨metaSize, metadata, hblock⟩ := (blockLength_eq_some unpack).mp h
    exact hblock.inside
  determined := by
    intro data n tail h
    obtain ⟨metaSize, metadata, hsize, hunpack, hnonneg, hlength, hinside⟩ :=
      (blockLength_eq_some unpack).mp h
    apply (blockLength_eq_some unpack).mpr
    refine ⟨metaSize, metadata, ?_, ?_, hnonneg, hlength, ?_⟩
    · have hword := take_drop_take_append data tail n 0 4 (by omega) hinside
      rw [List.drop_zero, List.drop_zero] at hword
      rw [hword, hsize]
    · rw [take_drop_take_append data tail n 4 metaSize (by omega) hinside, hunpack]
    · rw [List.length_append, List.length_take, Nat.min_eq_left hinside]
      exact Nat.le_add_right n _

/-- The block of an image: the size of its metadata, the metadata, and the pixels. -/
def encodeBlock (packed pixels : List UInt8) : List UInt8 :=
  encode 4 packed.length ++ (packed ++ pixels)

/-- An encoded image is a block if its metadata counts its pixels. -/
theorem isBlock_encodeBlock {packed pixels : List UInt8} {metadata : Metadata}
    (hunpack : unpack packed = some metadata) (hsize : metadata.size.toInt = pixels.length)
    (hpacked : packed.length < 2 ^ 32) :
    IsBlock (blockLength unpack) (encodeBlock packed pixels) := by
  have hword : decode ((encodeBlock packed pixels).take 4) = packed.length := by
    rw [encodeBlock, List.take_left' (length_encode 4 _),
      decode_encode_of_lt (by simpa using hpacked)]
  have hrest : (encodeBlock packed pixels).drop 4 = packed ++ pixels := by
    rw [encodeBlock, List.drop_left' (length_encode 4 _)]
  have hpixels : metadata.size.toInt.toNat = pixels.length := by rw [hsize, Int.toNat_natCast]
  have hlength : (encodeBlock packed pixels).length = 4 + packed.length + pixels.length := by
    simp [encodeBlock, Nat.add_assoc]
  apply (blockLength_eq_some unpack).mpr
  refine ⟨packed.length, metadata, hword.symm, ?_, ?_, ?_, le_rfl⟩
  · rw [hrest, List.take_left, hunpack]
  · rw [hsize]
    exact Int.natCast_nonneg _
  · rw [hlength, hpixels]

end Dipp
