import Dipp.Library.Execution
import Mathlib.Algebra.Order.Ring.Nat

/-!
# Variables at fixed places of a store

A store is read and written at offsets. A layout gives every variable a region of its own,
so the store behaves as a map from variables to their contents: a write replaces one
content and leaves the others alone, and after any run of writes every variable has the
content that was written to it last.
-/

namespace Regions

variable {D α ι : Type*} {size : ℕ}

/-- A store of a given size. Inside of it a read returns what was last written to its place, and a
write leaves every other place alone. -/
structure Driver (D α : Type*) (size : ℕ) where
  read : D → (offset count : ℕ) → List α
  write : D → (offset : ℕ) → List α → D
  length_read : ∀ d offset count, offset + count ≤ size → (read d offset count).length = count
  read_write : ∀ d offset data, offset + data.length ≤ size →
    read (write d offset data) offset data.length = data
  read_write_of_disjoint : ∀ d offset data offset' count, offset + data.length ≤ size →
    offset' + count ≤ size → offset + data.length ≤ offset' ∨ offset' + count ≤ offset →
      read (write d offset data) offset' count = read d offset' count

/-- The cells of a memory after data was written at an offset. -/
def overwrite (d : ℕ → α) (offset : ℕ) (data : List α) (i : ℕ) : α :=
  (if offset ≤ i then data[i - offset]? else none).getD (d i)

/-- The plain memory, of any size. -/
def memory (α : Type*) (size : ℕ) : Driver (ℕ → α) α size where
  read d offset count := (List.range count).map fun i => d (offset + i)
  write := overwrite
  length_read d offset count _ := by rw [List.length_map, List.length_range]
  read_write d offset data _ := by
    apply List.ext_getElem
    · rw [List.length_map, List.length_range]
    · intro i hleft hright
      simp [overwrite, hright]
  read_write_of_disjoint d offset data offset' count _ _ hdisjoint := by
    apply List.map_congr_left
    intro i hi
    have hcount := List.mem_range.mp hi
    by_cases hbefore : offset ≤ offset' + i
    · have hbehind : data.length ≤ offset' + i - offset := by omega
      rw [overwrite, if_pos hbefore, List.getElem?_eq_none hbehind, Option.getD_none]
    · rw [overwrite, if_neg hbefore, Option.getD_none]

/-- A place for every variable, no two of which overlap. -/
structure Layout (ι : Type*) (size : ℕ) where
  offset : ι → ℕ
  length : ι → ℕ
  inside : ∀ i, offset i + length i ≤ size
  disjoint : ∀ i j, i ≠ j → offset i + length i ≤ offset j ∨ offset j + length j ≤ offset i

variable (driver : Driver D α size) (layout : Layout ι size)

/-- The content of a variable. -/
def load (d : D) (i : ι) : List α := driver.read d (layout.offset i) (layout.length i)

/-- Give a variable a content. -/
def store (d : D) (i : ι) (data : List α) : D := driver.write d (layout.offset i) data

/-- A content has the length of its variable. -/
@[simp] theorem length_load (d : D) (i : ι) :
    (load driver layout d i).length = layout.length i :=
  driver.length_read d _ _ (layout.inside i)

variable {driver layout}

/-- The content that was stored is loaded again. -/
theorem load_store_self (d : D) {i : ι} {data : List α} (hdata : data.length = layout.length i) :
    load driver layout (store driver layout d i data) i = data := by
  have hinside : layout.offset i + data.length ≤ size := hdata ▸ layout.inside i
  rw [load, store, ← hdata]
  exact driver.read_write d _ data hinside

/-- The other variables keep their contents. -/
theorem load_store_of_ne (d : D) {i j : ι} {data : List α} (hdata : data.length = layout.length i)
    (hne : j ≠ i) :
    load driver layout (store driver layout d i data) j = load driver layout d j := by
  have hdisjoint := layout.disjoint i j hne.symm
  rw [← hdata] at hdisjoint
  exact driver.read_write_of_disjoint d _ data _ _ (hdata ▸ layout.inside i) (layout.inside j)
    hdisjoint

end Regions
