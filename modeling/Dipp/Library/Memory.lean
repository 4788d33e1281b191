import Mathlib.Data.List.Basic

/-!
# Byte-addressed memory

A memory says what each address holds, and that nothing is there where no memory is
mapped. A read of a range succeeds if every address in it is mapped. Where a buffer is
known to lie, reads inside it return its bytes, whatever surrounds it.
-/

namespace Mapped

/-- The byte at each address, absent where nothing is mapped. -/
abbrev Memory := ℕ → Option UInt8

/-- The bytes of a range, if all of it is mapped. -/
def readBytes (mem : Memory) : (start count : ℕ) → Option (List UInt8)
  | _, 0 => some []
  | start, count + 1 =>
    match mem start with
    | none => none
    | some byte => (readBytes mem (start + 1) count).map (List.cons byte)

/-- The buffer lies at the beginning of the memory. -/
def Holds (mem : Memory) (buffer : List UInt8) : Prop :=
  ∀ i < buffer.length, mem i = buffer[i]?

/-- Nothing but the buffer is mapped. -/
def ofBuffer (buffer : List UInt8) : Memory := fun i => buffer[i]?

/-- A buffer alone in memory lies where it should. -/
theorem holds_ofBuffer (buffer : List UInt8) : Holds (ofBuffer buffer) buffer :=
  fun _ _ => rfl

/-- A read inside a buffer returns the bytes of the range. -/
theorem readBytes_of_holds {mem : Memory} {buffer : List UInt8} (hholds : Holds mem buffer)
    (start count : ℕ) (hinside : start + count ≤ buffer.length) :
    readBytes mem start count = some ((buffer.drop start).take count) := by
  induction count generalizing start with
  | zero => simp [readBytes]
  | succ count ih =>
    have hstart : start < buffer.length := by omega
    have hbyte : mem start = some buffer[start] := by
      rw [hholds start hstart, List.getElem?_eq_getElem hstart]
    rw [readBytes, hbyte]
    simp only
    rw [ih (start + 1) (by omega), List.drop_eq_getElem_cons hstart, List.take_succ_cons]
    rfl

end Mapped
