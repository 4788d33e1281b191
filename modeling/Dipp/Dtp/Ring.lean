import Dipp.Upload.Safety

/-!
# The image ring as its users see it

The ring `vmem_images` belongs to a library: the upload loop writes elements into it, and
the DTP side asks for the validity of an index, for the size of an element, and for the
offset at which a part of an element is to be read. What the library is relied on for is
that it keeps the elements in the order of their writes, as long as none is evicted.
-/

namespace Dipp

open Framing Mapped

/-- The functions of the ring library that the program calls, over the states of a ring. -/
structure RingDriver (R : Type*) where
  write : R → List UInt8 → R
  isValidIndex : R → (index : UInt32) → Bool
  elementSize : R → (index : UInt32) → UInt32
  amountOfElements : R → UInt32
  offset : R → (index offset : UInt32) → UInt32
  read : R → (offset size : UInt32) → List UInt8

variable {R : Type*} (ring : RingDriver R)

/-- The ring contains these elements: the valid indices are those below their number, and a read at
an offset inside an element returns its bytes. -/
structure RingDriver.Holds (r : R) (elements : List (List UInt8)) : Prop where
  valid_iff : ∀ index, ring.isValidIndex r index = true ↔ index.toNat < elements.length
  elementSize : ∀ index element, elements[index.toNat]? = some element →
    (ring.elementSize r index).toNat = element.length
  read : ∀ index element offset size, elements[index.toNat]? = some element →
    offset.toNat + size.toNat ≤ element.length →
      ring.read r (ring.offset r index offset) size =
        (element.drop offset.toNat).take size.toNat

/-- From an empty ring on, the elements that were written are contained if none of them had to be
evicted. -/
def RingDriver.Keeps (empty : R) (unevicted : List (List UInt8) → Prop) : Prop :=
  ∀ elements, unevicted elements → ring.Holds (elements.foldl ring.write empty) elements

/-- A call of `upload`: the memory it is given, the number of images, and the length. -/
structure UploadCall where
  mem : Memory
  num : Int32
  len : Int32

variable (unpack : List UInt8 → Option Metadata)

/-- The elements that a call hands to `vmem_ring_write`. -/
def UploadCall.elements (call : UploadCall) : List (List UInt8) :=
  (upload unpack call.mem call.num call.len).filterMap UploadIteration.element

/-- The ring after a call. -/
def RingDriver.upload (r : R) (call : UploadCall) : R :=
  (call.elements unpack).foldl ring.write r

/-- The call is for a batch of which these are the blocks. -/
def UploadCall.Delivers (call : UploadCall) (blocks : List (List UInt8)) : Prop :=
  ∃ data, Holds call.mem data ∧ call.len.toInt = data.length ∧
    splitBlocks (blockLength unpack) call.num.toInt.toNat data = some blocks

variable {ring unpack}

/-- What is uploaded from a well-formed batch are its blocks. -/
theorem UploadCall.Delivers.elements_eq {call : UploadCall} {blocks : List (List UInt8)}
    (h : call.Delivers unpack blocks) :
    call.elements unpack = blocks ∧ ∀ block ∈ blocks, IsBlock (blockLength unpack) block := by
  obtain ⟨data, hholds, hlen, hsplit⟩ := h
  have hlength : data.length < 2 ^ 31 := by
    have hupper := call.len.toInt_lt
    omega
  have hunsigned : call.len.toUInt32.toNat = data.length := by
    rw [toNat_toUInt32_of_nonneg (by omega), hlen, Int.toNat_natCast]
  have helements := (uploadFrom_of_split unpack hholds hlength _ hunsigned call.num.toInt.toNat 0
    (Nat.zero_le _) hsplit).2
  constructor
  · have hwalk : (upload unpack call.mem call.num call.len).map UploadIteration.element =
        blocks.map some := helements
    have hwritten := congrArg (List.filterMap id) hwalk
    rw [List.filterMap_map, List.filterMap_map] at hwritten
    exact hwritten.trans List.filterMap_some
  · obtain ⟨-, -, hblocks, -⟩ :=
      splitBlocks_sound (blockLength_selfDelimiting unpack) _ _ _ hsplit
    exact hblocks

/-- A block of a batch is not longer than the `int` of its size allows. -/
theorem UploadCall.Delivers.length_lt {call : UploadCall} {blocks : List (List UInt8)}
    (h : call.Delivers unpack blocks) {block : List UInt8} (hblock : block ∈ blocks) :
    block.length < 2 ^ 32 := by
  obtain ⟨data, -, hlen, hsplit⟩ := h
  obtain ⟨tail, hdata, -⟩ := splitBlocks_sound (blockLength_selfDelimiting unpack) _ _ _ hsplit
  have hpart := (List.sublist_flatten_of_mem hblock).length_le
  have hlength := congrArg List.length hdata
  rw [List.length_append] at hlength
  have hupper := call.len.toInt_lt
  omega

/-- Uploads of well-formed batches write their blocks one after the other. -/
theorem RingDriver.foldl_upload (calls : List (UploadCall × List (List UInt8)))
    (hcalls : ∀ call ∈ calls, call.1.Delivers unpack call.2) (r : R) :
    (calls.map Prod.fst).foldl (ring.upload unpack) r =
      (calls.flatMap Prod.snd).foldl ring.write r := by
  induction calls generalizing r with
  | nil => rfl
  | cons call rest ih =>
    obtain ⟨hhead, -⟩ := (hcalls call List.mem_cons_self).elements_eq
    rw [List.map_cons, List.foldl_cons, ih fun later hlater =>
      hcalls later (List.mem_cons_of_mem _ hlater), List.flatMap_cons, List.foldl_append,
      RingDriver.upload, hhead]

/-- A ring without any limit but the width of its offsets: the elements lie one behind the other. -/
def listRing : RingDriver (List (List UInt8)) where
  write := fun r element => r ++ [element]
  isValidIndex := fun r index => index.toNat < r.length
  elementSize := fun r index => UInt32.ofNat (r.getD index.toNat []).length
  amountOfElements := fun r => UInt32.ofNat r.length
  offset := fun r index offset => UInt32.ofNat (r.take index.toNat).flatten.length + offset
  read := fun r offset size => (r.flatten.drop offset.toNat).take size.toNat

/-- Writing appends. -/
theorem listRing_foldl_write (elements r : List (List UInt8)) :
    elements.foldl listRing.write r = r ++ elements := by
  induction elements generalizing r with
  | nil => rw [List.foldl_nil, List.append_nil]
  | cons element rest ih =>
    rw [List.foldl_cons, ih, listRing, List.append_assoc, List.singleton_append]

/-- It keeps its elements as long as their bytes can be counted. -/
theorem listRing_keeps :
    listRing.Keeps [] fun elements => elements.flatten.length < 2 ^ 32 := by
  intro elements hsize
  rw [listRing_foldl_write, List.nil_append]
  have hflatten {n : ℕ} {element : List UInt8} (helement : elements[n]? = some element) :
      elements.flatten =
        (elements.take n).flatten ++ (element ++ (elements.drop (n + 1)).flatten) := by
    obtain ⟨hn, rfl⟩ := List.getElem?_eq_some_iff.mp helement
    rw [← List.flatten_cons, ← List.drop_eq_getElem_cons hn, ← List.flatten_append,
      List.take_append_drop]
  refine ⟨fun index => decide_eq_true_iff, ?_, ?_⟩
  · intro index element helement
    have hlength := congrArg List.length (hflatten helement)
    simp only [List.length_append] at hlength
    simp only [listRing, List.getD_eq_getElem?_getD, helement, Option.getD_some,
      UInt32.toNat_ofNat']
    omega
  · intro index element offset size helement hinside
    have hall := hflatten helement
    have hlength := congrArg List.length hall
    simp only [List.length_append] at hlength
    have hoffset : (listRing.offset elements index offset).toNat =
        (elements.take index.toNat).flatten.length + offset.toNat := by
      simp only [listRing, UInt32.toNat_add, UInt32.toNat_ofNat']
      omega
    change (elements.flatten.drop (listRing.offset elements index offset).toNat).take _ = _
    rw [hoffset, hall, ← List.drop_drop, List.drop_left,
      List.drop_append_of_le_length (by omega),
      List.take_append_of_le_length (by rw [List.length_drop]; omega)]

end Dipp
