import Dipp.Library.Execution
import Mathlib.Data.List.OfFn
import Mathlib.Logic.Function.Basic

/-!
# Buffers that are written out now and then

A buffer has a fixed number of slots and counts the used ones. An entry goes into the next
slot; flushing writes the used slots out in order and starts over. Compared with a ledger
that has room for everything, such a buffer loses nothing as long as no stretch between
two flushes is longer than the buffer, and beyond that there is no slot for the next entry.
Where the entries come from the steps of a machine, the stretches are those of its runs.
-/

namespace BoundedBuffer

variable {α : Type*} {capacity : ℕ}

/-- The slots, and how many of them are used. -/
structure Buffer (α : Type*) (capacity : ℕ) where
  slots : Fin capacity → α
  count : ℕ
  count_le : count ≤ capacity

/-- The used slots in order. -/
def Buffer.contents (buffer : Buffer α capacity) : List α :=
  List.ofFn fun i : Fin buffer.count => buffer.slots (i.castLE buffer.count_le)

/-- Put an entry into the next slot, if there is one. -/
def Buffer.push (buffer : Buffer α capacity) (entry : α) : Option (Buffer α capacity) :=
  if h : buffer.count < capacity then
    some ⟨Function.update buffer.slots ⟨buffer.count, h⟩ entry, buffer.count + 1, h⟩
  else none

/-- Start over; the slots keep what they hold. -/
def Buffer.clear (buffer : Buffer α capacity) : Buffer α capacity :=
  ⟨buffer.slots, 0, Nat.zero_le _⟩

/-- A cleared buffer has no entries. -/
@[simp] theorem Buffer.contents_clear (buffer : Buffer α capacity) :
    buffer.clear.contents = [] := rfl

/-- Add an entry, or write the entries out. -/
inductive Operation (α : Type*) where
  | push (entry : α)
  | flush

/-- A buffer with what was written out at each flush. -/
structure Log (α : Type*) (capacity : ℕ) where
  buffer : Buffer α capacity
  written : List (List α)

/-- An entry without a slot is an error. -/
def step (log : Log α capacity) : Operation α → Except Unit (Log α capacity)
  | .push entry =>
    match log.buffer.push entry with
    | none => .error ()
    | some buffer => .ok { log with buffer := buffer }
  | .flush => .ok ⟨log.buffer.clear, log.written ++ [log.buffer.contents]⟩

/-- The entries since the last flush, and what was written out at each flush. -/
structure Ledger (α : Type*) where
  pending : List α
  written : List (List α)

/-- The ledger has room for everything. -/
def Ledger.step (ledger : Ledger α) : Operation α → Ledger α
  | .push entry => { ledger with pending := ledger.pending ++ [entry] }
  | .flush => ⟨[], ledger.written ++ [ledger.pending]⟩

/-- What a log has recorded. -/
def Log.ledger (log : Log α capacity) : Ledger α := ⟨log.buffer.contents, log.written⟩

/-- With so many entries since the last flush, every stretch up to a flush fits. -/
def Fits (capacity : ℕ) : (count : ℕ) → List (Operation α) → Prop
  | _, [] => True
  | count, .push _ :: rest => count < capacity ∧ Fits capacity (count + 1) rest
  | _, .flush :: rest => Fits capacity 0 rest

section Stretches

variable {State Operation Error : Type*} (step : State → Operation → Except Error State)
  (adds clears : State → Operation → Bool) (capacity : ℕ)

/-- With so many entries in the buffer, there are slots for those that come before it is cleared. -/
def HasRoom (count : ℕ) (operations : List Operation) (state : State) : Prop :=
  ∀ stretch later, operations = stretch ++ later →
    Execution.count step clears stretch state = 0 →
    count + Execution.count step adds stretch state ≤ capacity

variable {step adds clears capacity}

/-- Where there is room with more entries in the buffer, there is with fewer. -/
theorem HasRoom.mono {count fewer : ℕ} {operations : List Operation} {state : State}
    (h : HasRoom step adds clears capacity count operations state) (hle : fewer ≤ count) :
    HasRoom step adds clears capacity fewer operations state := by
  intro stretch later hsplit hnone
  have hstretch := h stretch later hsplit hnone
  omega

end Stretches

end BoundedBuffer
