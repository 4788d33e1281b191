import Mathlib.Data.Finmap
import Mathlib.Data.Finset.Lattice.Fold
import Mathlib.Data.List.Perm.Basic
import Mathlib.Logic.Function.Basic
import Mathlib.Order.Lattice.Nat

/-!
# A heap of allocated blocks

A heap says which addresses hold a live block, and what is in it. An allocation that does not
fail places its block at an address that is not in use. Only live blocks can be accessed, and
only live blocks and the null pointer can be freed, so a computation that raises no fault frees
nothing twice.

A computation that leaves the blocks of others alone extends the heap it starts from by the
blocks of its own. Holders own a heap exactly if every pointer of theirs leads to a live block
and every live block is held by exactly one of them.
-/

namespace Heap

variable {Address Block Content : Type*} [DecidableEq Address]

/-- The live blocks by their addresses. -/
abbrev Blocks (Address Block : Type*) := Finmap fun _ : Address => Block

/-- Where the allocator places a block, given the addresses in use. -/
structure Placer (Address : Type*) where
  place : Finset Address → Address
  place_notMem : ∀ used, place used ∉ used

/-- The allocator that places each block above all others. -/
def Placer.above : Placer ℕ where
  place := fun used => used.sup id + 1
  place_notMem := fun _ hused => absurd (Finset.le_sup (f := id) hused) (Nat.not_succ_le_self _)

/-- An access or a release of what is not a live block of the expected kind. -/
inductive Fault where
  | badAccess
  | badFree
  deriving DecidableEq, Repr

/-- Allocate a block; the pointer is null if no memory is available. -/
def malloc (placer : Placer Address) (available : Bool) (block : Block)
    (heap : Blocks Address Block) : Option Address × Blocks Address Block :=
  if available then
    (some (placer.place heap.keys), heap.insert (placer.place heap.keys) block)
  else (none, heap)

/-- Free a block; the null pointer is ignored. -/
def free (pointer : Option Address) (heap : Blocks Address Block) :
    Except Fault (Blocks Address Block) :=
  match pointer with
  | none => .ok heap
  | some a => if a ∈ heap then .ok (heap.erase a) else .error .badFree

/-- What a part of the block behind a pointer holds, if the pointer leads to such a block. -/
def read (part : Block → Option Content) (pointer : Option Address)
    (heap : Blocks Address Block) : Option Content :=
  pointer.bind fun a => (heap.lookup a).bind part

/-- Read a part of the block behind a pointer. -/
def load (part : Block → Option Content) (pointer : Option Address)
    (heap : Blocks Address Block) : Except Fault Content :=
  match read part pointer heap with
  | some content => .ok content
  | none => .error .badAccess

/-- Write to a part of the block behind a pointer. -/
def modify (change : Block → Option Block) (pointer : Option Address)
    (heap : Blocks Address Block) : Except Fault (Blocks Address Block) :=
  match pointer, read change pointer heap with
  | some a, some block => .ok (heap.insert a block)
  | _, _ => .error .badAccess

variable {base middle heap : Blocks Address Block} {own new : List Address} {a : Address}

/-- Without memory an allocation changes nothing. -/
@[simp] theorem malloc_false (placer : Placer Address) (block : Block) :
    malloc placer false block heap = (none, heap) := rfl

/-- With memory the block is placed at an unused address. -/
theorem malloc_true (placer : Placer Address) (block : Block) (heap : Blocks Address Block) :
    ∃ a, a ∉ heap ∧ malloc placer true block heap = (some a, heap.insert a block) :=
  ⟨placer.place heap.keys,
    fun hlive => placer.place_notMem heap.keys (Finmap.mem_keys.mpr hlive), rfl⟩

/-- An allocation yields null exactly if no memory is available. -/
theorem malloc_eq_none_iff (placer : Placer Address) (available : Bool) (block : Block) :
    (malloc placer available block heap).1 = none ↔ available = false := by
  cases available <;> simp [malloc]

/-- What is read depends only on the block that the pointer leads to. -/
theorem read_congr {heap' : Blocks Address Block} (part : Block → Option Content)
    (pointer : Option Address) (h : ∀ a, pointer = some a → heap'.lookup a = heap.lookup a) :
    read part pointer heap' = read part pointer heap := by
  cases pointer with
  | none => rfl
  | some a => simp only [read, Option.bind_some, h a rfl]

/-- A part of a live block can be read. -/
theorem read_of_lookup {block : Block} (part : Block → Option Content)
    (h : heap.lookup a = some block) : read part (some a) heap = part block := by
  simp only [read, Option.bind_some, h]

/-- What was allocated can be read. -/
theorem read_malloc (placer : Placer Address) (available : Bool) (block : Block)
    (part : Block → Option Content) :
    read part (malloc placer available block heap).1 (malloc placer available block heap).2 =
      if available then part block else none := by
  cases available with
  | false => rfl
  | true => exact read_of_lookup part (Finmap.lookup_insert heap)

/-- What can be read can be loaded. -/
theorem load_of_read {part : Block → Option Content} {pointer : Option Address}
    {content : Content} (h : read part pointer heap = some content) :
    load part pointer heap = .ok content := by
  rw [load, h]

/-- A live block can be written. -/
theorem modify_of_lookup {block block' : Block} {change : Block → Option Block}
    (h : heap.lookup a = some block) (hchange : change block = some block') :
    modify change (some a) heap = .ok (heap.insert a block') := by
  simp only [modify, read_of_lookup change h, hchange]

/-- The heap is the base with the listed blocks added. -/
structure Extends (base heap : Blocks Address Block) (own : List Address) : Prop where
  nodup : own.Nodup
  fresh : ∀ a ∈ own, a ∉ base
  mem_iff : ∀ a, a ∈ heap ↔ a ∈ base ∨ a ∈ own
  frame : ∀ a ∈ base, heap.lookup a = base.lookup a

namespace Extends

/-- Every heap extends itself by nothing. -/
theorem refl (heap : Blocks Address Block) : Extends heap heap [] where
  nodup := List.nodup_nil
  fresh := fun _ ha => absurd ha List.not_mem_nil
  mem_iff := fun _ => by simp
  frame := fun _ _ => rfl

/-- The added blocks are live. -/
theorem live (h : Extends base heap own) (ha : a ∈ own) : a ∈ heap := (h.mem_iff a).mpr (.inr ha)

/-- Blocks of different parts are different. -/
theorem ne_of_mem {b : Address} (h : Extends base heap (new ++ own)) (ha : a ∈ new)
    (hb : b ∈ own) : a ≠ b :=
  (List.nodup_append.mp h.nodup).2.2 a ha b hb

/-- The order of the added blocks does not matter. -/
theorem perm (h : Extends base heap own) (hperm : own.Perm new) : Extends base heap new where
  nodup := hperm.nodup_iff.mp h.nodup
  fresh := fun a ha => h.fresh a (hperm.mem_iff.mpr ha)
  mem_iff := fun a => by rw [h.mem_iff, hperm.mem_iff]
  frame := h.frame

/-- A block at an unused address is added. -/
theorem insert_new (h : Extends base heap own) (ha : a ∉ heap) (block : Block) :
    Extends base (heap.insert a block) (a :: own) := by
  obtain ⟨hbase, hown⟩ := not_or.mp (mt (h.mem_iff a).mpr ha)
  constructor
  case nodup => exact List.nodup_cons.mpr ⟨hown, h.nodup⟩
  case fresh =>
    intro other hother
    rcases List.mem_cons.mp hother with rfl | hother
    · exact hbase
    · exact h.fresh other hother
  case mem_iff =>
    intro other
    rw [Finmap.mem_insert, h.mem_iff, List.mem_cons]
    exact or_left_comm
  case frame =>
    intro other hother
    rw [Finmap.lookup_insert_of_ne _ (ne_of_mem_of_not_mem hother hbase), h.frame other hother]

/-- An added block can be written. -/
theorem insert_own (h : Extends base heap own) (ha : a ∈ own) (block : Block) :
    Extends base (heap.insert a block) own where
  nodup := h.nodup
  fresh := h.fresh
  mem_iff := by
    intro other
    rw [Finmap.mem_insert, h.mem_iff]
    constructor
    · rintro (rfl | hother)
      · exact .inr ha
      · exact hother
    · exact .inr
  frame := by
    intro other hother
    rw [Finmap.lookup_insert_of_ne _ (ne_of_mem_of_not_mem hother (h.fresh a ha)),
      h.frame other hother]

/-- An added block can be erased. -/
theorem erase (h : Extends base heap (a :: own)) : Extends base (heap.erase a) own := by
  obtain ⟨hown, hnodup⟩ := List.nodup_cons.mp h.nodup
  have hbase := h.fresh a List.mem_cons_self
  constructor
  case nodup => exact hnodup
  case fresh => exact fun other hother => h.fresh other (List.mem_cons_of_mem a hother)
  case mem_iff =>
    intro other
    rw [Finmap.mem_erase, h.mem_iff, List.mem_cons]
    constructor
    · rintro ⟨hne, hother | heq | hother⟩
      · exact .inl hother
      · exact absurd heq hne
      · exact .inr hother
    · rintro (hother | hother)
      · exact ⟨ne_of_mem_of_not_mem hother hbase, .inl hother⟩
      · exact ⟨ne_of_mem_of_not_mem hother hown, .inr (.inr hother)⟩
  case frame =>
    intro other hother
    rw [Finmap.lookup_erase_ne (ne_of_mem_of_not_mem hother hbase), h.frame other hother]

/-- Extensions compose. -/
theorem trans (h : Extends base middle own) (h' : Extends middle heap new) :
    Extends base heap (new ++ own) where
  nodup := h'.nodup.append h.nodup fun a hnew hown => h'.fresh a hnew (h.live hown)
  fresh := by
    intro a ha
    rcases List.mem_append.mp ha with hnew | hown
    · exact fun hbase => h'.fresh a hnew ((h.mem_iff a).mpr (.inl hbase))
    · exact h.fresh a hown
  mem_iff := by
    intro a
    rw [h'.mem_iff, h.mem_iff, List.mem_append, or_assoc, or_comm (a := a ∈ own)]
  frame := by
    intro a ha
    rw [h'.frame a ((h.mem_iff a).mpr (.inl ha)), h.frame a ha]

/-- Each live block extends the rest of the heap. -/
theorem of_erase (ha : a ∈ heap) : Extends (heap.erase a) heap [a] where
  nodup := List.nodup_singleton a
  fresh := by
    intro other hother
    rw [List.mem_singleton.mp hother]
    exact Finmap.notMem_erase_self
  mem_iff := by
    intro other
    rw [Finmap.mem_erase, List.mem_singleton]
    by_cases heq : other = a
    · simp [heq, ha]
    · simp [heq]
  frame := fun other hother => (Finmap.lookup_erase_ne (Finmap.mem_erase.mp hother).1).symm

/-- An extension that may have rewritten one of the added blocks composes as well. -/
theorem trans_erase (h : Extends base middle own) (ha : a ∈ own)
    (h' : Extends (middle.erase a) heap (new ++ [a])) : Extends base heap (new ++ own) := by
  obtain ⟨front, back, rfl⟩ := List.append_of_mem ha
  have hmoved : (front ++ a :: back).Perm (a :: (front ++ back)) := List.perm_middle
  have hcomposed := (h.perm hmoved).erase.trans h'
  refine hcomposed.perm ?_
  rw [List.append_assoc]
  exact hmoved.symm.append_left new

/-- An allocation adds its block, if there is one, and leaves the others alone. -/
theorem malloc (h : Extends base heap own) (placer : Placer Address) (available : Bool)
    (block : Block) :
    Extends base (malloc placer available block heap).2
        ((malloc placer available block heap).1.toList ++ own) ∧
      ∀ a ∈ own, (Heap.malloc placer available block heap).2.lookup a = heap.lookup a := by
  cases available with
  | false => exact ⟨h, fun _ _ => rfl⟩
  | true =>
    obtain ⟨placed, hplaced, hmalloc⟩ := malloc_true placer block heap
    rw [hmalloc]
    refine ⟨h.insert_new hplaced block, fun a ha => ?_⟩
    exact Finmap.lookup_insert_of_ne _ (ne_of_mem_of_not_mem (h.live ha) hplaced)

/-- Freeing an added block, or nothing, raises no fault and leaves the others alone. -/
theorem free {pointer : Option Address} (h : Extends base heap (pointer.toList ++ own)) :
    ∃ heap', free pointer heap = .ok heap' ∧ Extends base heap' own ∧
      ∀ a ∈ own, heap'.lookup a = heap.lookup a := by
  cases pointer with
  | none => exact ⟨heap, rfl, h, fun _ _ => rfl⟩
  | some a =>
    refine ⟨heap.erase a, if_pos (h.live List.mem_cons_self), h.erase, fun other hother => ?_⟩
    have hown : a ∉ own := (List.nodup_cons.mp h.nodup).1
    exact Finmap.lookup_erase_ne (ne_of_mem_of_not_mem hother hown)

/-- Freeing what was added first, or nothing, leaves what was added later. -/
theorem free_first {pointer : Option Address} (h : Extends base middle pointer.toList)
    (h' : Extends middle heap own) :
    ∃ heap', Heap.free pointer heap = .ok heap' ∧ Extends base heap' own ∧
      ∀ a ∈ own, heap'.lookup a = heap.lookup a :=
  ((h.trans h').perm List.perm_append_comm).free

end Extends

/-- Every pointer of every holder leads to a live block, and every live block is held by exactly
one of them. -/
structure Owned {Holder : Type*} (heap : Blocks Address Block)
    (pointers : Holder → List (Option Address)) : Prop where
  live : ∀ holder, ∀ pointer ∈ pointers holder, ∃ a ∈ heap, pointer = some a
  owner : ∀ a ∈ heap, ∃! holder, some a ∈ pointers holder

namespace Owned

variable {Holder : Type*} {pointers : Holder → List (Option Address)} {holder : Holder}

omit [DecidableEq Address] in
/-- Nothing is owned by holders of nothing. -/
theorem empty : Owned (∅ : Blocks Address Block) fun _ : Holder => [] where
  live := fun _ _ hpointer => absurd hpointer List.not_mem_nil
  owner := fun _ ha => absurd ha Finmap.notMem_empty

/-- Ownership depends on which blocks are live, not on what is in them. -/
theorem of_extends_nil (h : Owned base pointers) (hextends : Extends base heap []) :
    Owned heap pointers := by
  have hmem (a : Address) : a ∈ heap ↔ a ∈ base := by
    rw [hextends.mem_iff, or_iff_left List.not_mem_nil]
  constructor
  case live =>
    intro holder pointer hpointer
    obtain ⟨a, ha, heq⟩ := h.live holder pointer hpointer
    exact ⟨a, (hmem a).mpr ha, heq⟩
  case owner => exact fun a ha => h.owner a ((hmem a).mp ha)

omit [DecidableEq Address] in
/-- A null pointer is not live. -/
theorem none_notMem (h : Owned heap pointers) : none ∉ pointers holder := by
  intro hnone
  obtain ⟨a, -, heq⟩ := h.live holder none hnone
  contradiction

omit [DecidableEq Address] in
/-- A dangling pointer is not live. -/
theorem mem_of_some_mem (h : Owned heap pointers) (ha : some a ∈ pointers holder) : a ∈ heap := by
  obtain ⟨other, hother, heq⟩ := h.live holder (some a) ha
  rwa [Option.some.inj heq]

/-- When a holder takes the new blocks in exchange for what it held, ownership stays exact if and
only if it held nothing and none of the new pointers is null. -/
theorem update_iff [DecidableEq Holder] (h : Owned base pointers)
    (hextends : Extends base heap own) {taken : List (Option Address)}
    (htaken : ∀ a, some a ∈ taken ↔ a ∈ own) :
    Owned heap (Function.update pointers holder taken) ↔
      pointers holder = [] ∧ none ∉ taken := by
  constructor
  · intro howned
    constructor
    · refine List.eq_nil_iff_forall_not_mem.mpr fun pointer hpointer => ?_
      obtain ⟨a, ha, rfl⟩ := h.live holder pointer hpointer
      obtain ⟨other, hother, -⟩ := howned.owner a ((hextends.mem_iff a).mpr (.inl ha))
      by_cases heq : other = holder
      · simp only [heq, Function.update_self] at hother
        exact hextends.fresh a ((htaken a).mp hother) ha
      · simp only [Function.update_of_ne heq] at hother
        exact heq ((h.owner a ha).unique hother hpointer)
    · have hnone : none ∉ Function.update pointers holder taken holder := howned.none_notMem
      rwa [Function.update_self] at hnone
  · rintro ⟨hnothing, hnone⟩
    constructor
    case live =>
      intro other pointer hpointer
      by_cases heq : other = holder
      · rw [heq, Function.update_self] at hpointer
        cases pointer with
        | none => exact absurd hpointer hnone
        | some a => exact ⟨a, hextends.live ((htaken a).mp hpointer), rfl⟩
      · rw [Function.update_of_ne heq] at hpointer
        obtain ⟨a, ha, hpointer⟩ := h.live other pointer hpointer
        exact ⟨a, (hextends.mem_iff a).mpr (.inl ha), hpointer⟩
    case owner =>
      intro a ha
      rcases (hextends.mem_iff a).mp ha with hbase | hown
      · obtain ⟨other, hother, hunique⟩ := h.owner a hbase
        have hne : other ≠ holder := by
          rintro rfl
          rw [hnothing] at hother
          exact List.not_mem_nil hother
        refine ⟨other, ?_, fun third hthird => ?_⟩
        · simpa only [Function.update_of_ne hne] using hother
        · by_cases heq : third = holder
          · simp only [heq, Function.update_self] at hthird
            exact absurd hbase (hextends.fresh a ((htaken a).mp hthird))
          · simp only [Function.update_of_ne heq] at hthird
            exact hunique third hthird
      · refine ⟨holder, ?_, fun other hother => ?_⟩
        · simpa only [Function.update_self] using (htaken a).mpr hown
        · by_contra hne
          simp only [Function.update_of_ne hne] at hother
          exact hextends.fresh a hown (h.mem_of_some_mem hother)

end Owned

end Heap
