import Dipp.Config.Memory
import Mathlib.Data.List.ReduceOption

/-!
# What copying a configuration allocates and frees

The loops of a setup call only touch blocks that the call allocated itself. While they run, the
blocks of the call are the array and, for each parameter copied so far, those its pointers lead
to. If the last parameter is reached, they stay as they are. If a parameter cannot be allocated,
the array, the parameters and their strings are freed, and the keys are left.
-/

namespace Dipp.Memory

open Heap

variable (libs : Libraries) (env : Env) {base heap : Blocks} {own : List ℕ}

/-- The member that a union holds. -/
def Value.valueCase : Value → ValueCase
  | .uninitialized => .notSet
  | .boolValue _ => .boolValue
  | .intValue _ => .intValue
  | .floatValue _ => .floatValue
  | .stringValue _ => .stringValue

/-- The cached parameter made from the one at an index of a message. -/
def copied (alloc : Allocator) (i : ℕ) (source : ConfigParameter) : ModuleParameter :=
  ⟨Dipp.strdup (alloc.copy i) source.key, source.value.valueCase,
    Dipp.storeValue alloc i source.value⟩

/-- The string of a parameter, if it has one, cannot be copied. -/
def LacksText (alloc : Allocator) (i : ℕ) (source : ConfigParameter) : Prop :=
  source.value.valueCase = .stringValue ∧ alloc.text i = false

/-- The value of a union depends only on the blocks its pointers lead to. -/
theorem Value.view_congr {heap' : Blocks} (value : Value)
    (h : ∀ a, some a ∈ value.pointers → heap'.lookup a = heap.lookup a) :
    value.view heap' = value.view heap := by
  cases value with
  | stringValue text =>
    refine congrArg StoredValue.stringValue (read_congr _ text fun a ha => h a ?_)
    rw [← ha]
    exact List.mem_cons_self
  | _ => rfl

/-- So does the value of a parameter. -/
theorem Parameter.view_congr {heap' : Blocks} (parameter : Parameter)
    (h : ∀ a, some a ∈ parameter.pointers → heap'.lookup a = heap.lookup a) :
    parameter.view heap' = parameter.view heap := by
  have hkey : read Block.asText parameter.key heap' = read Block.asText parameter.key heap :=
    read_congr _ _ fun a ha => h a (by simp [pointers, ha])
  have hvalue := parameter.value.view_congr fun a ha => h a (List.mem_cons_of_mem _ ha)
  rw [view, hkey, hvalue, view]

/-- The first pointer leads to its block, unless it is null. -/
theorem reduceOption_cons (pointer : Pointer) (pointers : List Pointer) :
    (pointer :: pointers).reduceOption = pointer.toList ++ pointers.reduceOption := by
  cases pointer <;> rfl

/-- A copy of a string is null exactly if there is no memory for it. -/
theorem strdup_eq_none_iff (available : Bool) (text : CString) (heap : Blocks) :
    (strdup env available text heap).1 = none ↔ available = false :=
  malloc_eq_none_iff env.placer available (Block.text text)

/-- A copy of a string is in a new block, if there is memory. -/
theorem strdup_spec (h : Extends base heap own) (available : Bool) (text : CString) :
    Extends base (strdup env available text heap).2
        ((strdup env available text heap).1.toList ++ own) ∧
      (∀ a ∈ own, (strdup env available text heap).2.lookup a = heap.lookup a) ∧
      read Block.asText (strdup env available text heap).1 (strdup env available text heap).2 =
        Dipp.strdup available text := by
  obtain ⟨hextends, hsame⟩ := h.malloc env.placer available (Block.text text)
  exact ⟨hextends, hsame, read_malloc env.placer available (Block.text text) Block.asText⟩

/-- A copied union has at most one new block, that of its string. -/
theorem storeValue_spec (h : Extends base heap own) (i : ℕ) (value : ParameterValue) :
    Extends base (storeValue env i value heap).2
        ((storeValue env i value heap).1.pointers.reduceOption ++ own) ∧
      (∀ a ∈ own, (storeValue env i value heap).2.lookup a = heap.lookup a) ∧
      (storeValue env i value heap).1.view (storeValue env i value heap).2 =
        Dipp.storeValue env.alloc i value ∧
      (storeValue env i value heap).1.valueCase = value.valueCase := by
  cases value with
  | stringValue text =>
    obtain ⟨hextends, hsame, hread⟩ := strdup_spec env h (env.alloc.text i) text
    refine ⟨?_, hsame, congrArg StoredValue.stringValue hread, rfl⟩
    rwa [storeValue, Value.pointers, List.reduceOption_singleton]
  | _ => exact ⟨h, fun _ _ => rfl, rfl, rfl⟩

/-- The pointer to the string is null exactly if the string cannot be copied. -/
theorem none_mem_storeValue_iff (i : ℕ) (source : ConfigParameter) (heap : Blocks) :
    none ∈ (storeValue env i source.value heap).1.pointers ↔ LacksText env.alloc i source := by
  unfold LacksText
  cases source.value with
  | stringValue text =>
    simp only [storeValue, Value.pointers, List.mem_singleton, ParameterValue.valueCase, true_and]
    exact eq_comm.trans (strdup_eq_none_iff env (env.alloc.text i) text heap)
  | _ => simp [storeValue, Value.pointers, ParameterValue.valueCase]

/-- A filled parameter shows its source, and it has new blocks for its strings. -/
theorem copyParameter_spec {a : ℕ} (h : Extends base heap own) (ha : a ∈ own)
    (hblock : heap.lookup a = some (.parameter .fresh)) (i : ℕ) (source : ConfigParameter) :
    ∃ parameter heap', copyParameter env (some a) i source heap = .ok heap' ∧
      Extends base heap' (parameter.pointers.reduceOption ++ own) ∧
      (∀ b ∈ own, b ≠ a → heap'.lookup b = heap.lookup b) ∧
      heap'.lookup a = some (.parameter parameter) ∧
      parameter.view heap' = copied env.alloc i source ∧
      parameter.value.valueCase = parameter.valueCase ∧
      (none ∈ parameter.pointers ↔ env.alloc.copy i = false ∨ LacksText env.alloc i source) := by
  obtain ⟨hkeyExtends, hkeySame, hkeyRead⟩ := strdup_spec env h (env.alloc.copy i) source.key
  have hkeyNull := strdup_eq_none_iff env (env.alloc.copy i) source.key heap
  unfold copyParameter
  generalize strdup env (env.alloc.copy i) source.key heap = key at *
  -- the key and the value case are assigned before the value is copied
  let keyed : Parameter := ⟨key.1, source.value.valueCase, .uninitialized⟩
  have ha' : a ∈ key.1.toList ++ own := List.mem_append_right _ ha
  have hkeyed : modify (Block.setKey key.1 source.value.valueCase) (some a) key.2 =
      .ok (key.2.insert a (.parameter keyed)) :=
    modify_of_lookup ((hkeySame a ha).trans hblock) rfl
  obtain ⟨hvalueExtends, hvalueSame, hvalueView, hvalueCase⟩ :=
    storeValue_spec env (hkeyExtends.insert_own ha' (.parameter keyed)) i source.value
  have hvalueNull := none_mem_storeValue_iff env i source (key.2.insert a (.parameter keyed))
  simp only [hkeyed, bind, Except.bind]
  generalize storeValue env i source.value (key.2.insert a (.parameter keyed)) = value at *
  have hvalued : value.2.lookup a = some (.parameter keyed) :=
    (hvalueSame a ha').trans (Finmap.lookup_insert _)
  let parameter : Parameter := ⟨key.1, source.value.valueCase, value.1⟩
  have hsame (b : ℕ) (hb : b ∈ key.1.toList ++ own) (hne : b ≠ a) :
      (value.2.insert a (.parameter parameter)).lookup b = key.2.lookup b := by
    rw [Finmap.lookup_insert_of_ne _ hne, hvalueSame b hb, Finmap.lookup_insert_of_ne _ hne]
  refine ⟨parameter, _, modify_of_lookup hvalued rfl, ?_, ?_, Finmap.lookup_insert _, ?_,
    hvalueCase, ?_⟩
  · have hwritten := hvalueExtends.insert_own (List.mem_append_right _ ha') (.parameter parameter)
    refine hwritten.perm ?_
    rw [Parameter.pointers, reduceOption_cons, List.append_assoc]
    exact List.perm_append_comm_assoc _ _ _
  · intro b hb hne
    rw [hsame b (List.mem_append_right _ hb) hne, hkeySame b hb]
  · have hkeyView : read Block.asText key.1 (value.2.insert a (.parameter parameter)) =
        read Block.asText key.1 key.2 := by
      refine read_congr _ _ fun k hkey => ?_
      have hk : k ∈ key.1.toList := by simp [hkey]
      exact hsame k (List.mem_append_left _ hk) (hkeyExtends.ne_of_mem hk ha)
    have hvalueView' : value.1.view (value.2.insert a (.parameter parameter)) =
        value.1.view value.2 :=
      value.1.view_congr fun b hb => Finmap.lookup_insert_of_ne _
        (hvalueExtends.ne_of_mem (List.reduceOption_mem_iff.mpr hb) ha')
    rw [Parameter.view, copied, hkeyView, hkeyRead, hvalueView', hvalueView]
  · rw [Parameter.pointers, List.mem_cons, hvalueNull]
    exact or_congr_left (eq_comm.trans hkeyNull)

/-- A parameter and the address of its block. -/
structure Cell where
  address : ℕ
  parameter : Parameter

/-- The pointers reached through a slot that leads to the cell. -/
def Cell.pointers (cell : Cell) : List Pointer := some cell.address :: cell.parameter.pointers

/-- The cell is the copy of the parameter at an index of a message. -/
structure Cell.Copies (cell : Cell) (alloc : Allocator) (heap : Blocks) (i : ℕ)
    (source : ConfigParameter) : Prop where
  block : heap.lookup cell.address = some (.parameter cell.parameter)
  view : cell.parameter.view heap = copied alloc i source
  tagged : cell.parameter.value.valueCase = cell.parameter.valueCase
  null : none ∈ cell.parameter.pointers ↔ alloc.copy i = false ∨ LacksText alloc i source

/-- A copy stays one while its own blocks are left alone. -/
theorem Cell.Copies.congr {cell : Cell} {alloc : Allocator} {heap' : Blocks} {i : ℕ}
    {source : ConfigParameter} (h : cell.Copies alloc heap i source)
    (hsame : ∀ a, some a ∈ cell.pointers → heap'.lookup a = heap.lookup a) :
    cell.Copies alloc heap' i source where
  block := (hsame cell.address List.mem_cons_self).trans h.block
  view := by
    rw [← h.view]
    exact cell.parameter.view_congr fun a ha => hsame a (List.mem_cons_of_mem _ ha)
  tagged := h.tagged
  null := h.null

/-- The cells are the copies of the first parameters of a message, and the array leads to them. -/
structure Filled (alloc : Allocator) (heap : Blocks) (array : ℕ) (sources : List ConfigParameter)
    (cells : List Cell) : Prop where
  slots : ∃ slots, heap.lookup array = some (.array slots) ∧ slots.length = sources.length ∧
    slots.take cells.length = cells.map fun cell => some cell.address
  copies : ∀ i cell, cells[i]? = some cell →
    ∃ source, sources[i]? = some source ∧ Cell.Copies cell alloc heap i source

/-- The blocks of the array and of the cells. -/
def blocks (array : ℕ) (cells : List Cell) : List ℕ :=
  (cells.flatMap Cell.pointers).reduceOption ++ [array]

/-- The blocks of each cell are among those of all cells. -/
theorem Cell.mem_reduceOption {cells : List Cell} {cell : Cell} {a : ℕ} (hcell : cell ∈ cells)
    (ha : some a ∈ cell.pointers) : a ∈ (cells.flatMap Cell.pointers).reduceOption :=
  List.reduceOption_mem_iff.mpr (List.mem_flatMap.mpr ⟨cell, hcell, ha⟩)

/-- Where the array was read, its first slots lead to the cells. -/
theorem Filled.of_lookup {alloc : Allocator} {array : ℕ} {sources : List ConfigParameter}
    {cells : List Cell} {slots : List Pointer} (h : Filled alloc heap array sources cells)
    (hslots : heap.lookup array = some (.array slots)) :
    slots.length = sources.length ∧
      slots.take cells.length = cells.map fun cell => some cell.address := by
  obtain ⟨slots', hslots', hfilled⟩ := h.slots
  obtain rfl : slots' = slots := Block.array.inj (Option.some.inj (hslots'.symm.trans hslots))
  exact hfilled

/-- The slot of each cell leads to it. -/
theorem Filled.slot {alloc : Allocator} {array i : ℕ} {sources : List ConfigParameter}
    {cells : List Cell} {cell : Cell} {slots : List Pointer}
    (h : Filled alloc heap array sources cells)
    (hslots : heap.lookup array = some (.array slots)) (hcell : cells[i]? = some cell) :
    slots[i]? = some (some cell.address) := by
  obtain ⟨hi, -⟩ := List.getElem?_eq_some_iff.mp hcell
  have hslot := congrArg (·[i]?) (h.of_lookup hslots).2
  simpa only [List.getElem?_take, hi, if_true, List.getElem?_map, hcell, Option.map_some]
    using hslot

/-- The cells stay copies while the blocks are left alone. -/
theorem Filled.congr {alloc : Allocator} {heap' : Blocks} {array : ℕ}
    {sources : List ConfigParameter} {cells : List Cell}
    (h : Filled alloc heap array sources cells)
    (hsame : ∀ a ∈ blocks array cells, heap'.lookup a = heap.lookup a) :
    Filled alloc heap' array sources cells where
  slots := by
    rw [hsame array (List.mem_append_right _ List.mem_cons_self)]
    exact h.slots
  copies := by
    intro i cell hcell
    obtain ⟨source, hsource, hcopies⟩ := h.copies i cell hcell
    refine ⟨source, hsource, hcopies.congr fun a ha => hsame a (List.mem_append_left _ ?_)⟩
    exact Cell.mem_reduceOption (List.mem_of_getElem? hcell) ha

/-- Freeing the string of a parameter leaves its own block and its key. -/
theorem freeString_spec {cell : Cell} (h : Extends base heap (cell.pointers.reduceOption ++ own))
    (hblock : heap.lookup cell.address = some (.parameter cell.parameter))
    (htagged : cell.parameter.value.valueCase = cell.parameter.valueCase) :
    ∃ heap', freeString (some cell.address) heap = .ok heap' ∧
      Extends base heap'
        ((some cell.address).toList ++ (cell.parameter.key.toList ++ own)) ∧
      ∀ a ∈ own, heap'.lookup a = heap.lookup a := by
  obtain ⟨address, key, valueCase, value⟩ := cell
  obtain rfl : value.valueCase = valueCase := htagged
  dsimp only at hblock ⊢
  have hparameter := load_of_read (read_of_lookup Block.asParameter hblock)
  rw [Cell.pointers, Parameter.pointers, reduceOption_cons, reduceOption_cons,
    List.append_assoc, List.append_assoc] at h
  simp only [freeString, hparameter, bind, Except.bind]
  cases value with
  | stringValue text =>
    have htext := load_of_read (read_of_lookup Block.stringValue hblock)
    have hfirst : Extends base heap
        (text.toList ++ ((some address).toList ++ (key.toList ++ own))) := by
      refine h.perm ?_
      rw [Value.pointers, List.reduceOption_singleton]
      simpa only [List.append_assoc] using
        List.perm_append_comm_assoc ((some address).toList ++ key.toList) text.toList own
    obtain ⟨remaining, hfree, hextends, hsame⟩ := hfirst.free
    refine ⟨remaining, ?_, hextends, fun a ha => hsame a (by simp [ha])⟩
    simp only [Value.valueCase, if_true, htext]
    exact hfree
  | _ => exact ⟨heap, rfl, h, fun _ _ => rfl⟩

/-- A parameter is freed with its string, but without its key. -/
theorem freeParameter_spec {cell : Cell} {array j : ℕ}
    (h : Extends base heap (cell.pointers.reduceOption ++ own))
    (hslot : read (Block.slot j) (some array) heap = some (some cell.address))
    (hblock : heap.lookup cell.address = some (.parameter cell.parameter))
    (htagged : cell.parameter.value.valueCase = cell.parameter.valueCase) :
    ∃ heap', freeParameter (some array) j heap = .ok heap' ∧
      Extends base heap' (cell.parameter.key.toList ++ own) ∧
      ∀ a ∈ own, heap'.lookup a = heap.lookup a := by
  obtain ⟨remaining, hremaining, hextends, hsame⟩ := freeString_spec h hblock htagged
  obtain ⟨heap', hfree, hextends', hsame'⟩ := hextends.free
  refine ⟨heap', ?_, hextends', fun a ha => ?_⟩
  · simp only [freeParameter, load_of_read hslot, hremaining, bind, Except.bind]
    exact hfree
  · rw [hsame' a (List.mem_append_right _ ha), hsame a ha]

/-- The second loop frees what the cells lead to, except for their keys. -/
theorem freeParameters_spec {cells : List Cell} {array j : ℕ} (hown : array ∈ own)
    (h : Extends base heap ((cells.flatMap Cell.pointers).reduceOption ++ own))
    (hslots : ∀ i cell, cells[i]? = some cell →
      read (Block.slot (j + i)) (some array) heap = some (some cell.address))
    (hblocks : ∀ cell ∈ cells, heap.lookup cell.address = some (.parameter cell.parameter) ∧
      cell.parameter.value.valueCase = cell.parameter.valueCase) :
    ∃ heap', freeParameters (some array) j cells.length heap = .ok heap' ∧
      Extends base heap' ((cells.map fun cell => cell.parameter.key).reduceOption ++ own) ∧
      ∀ a ∈ own, heap'.lookup a = heap.lookup a := by
  induction cells generalizing heap own j with
  | nil => exact ⟨heap, rfl, h, fun _ _ => rfl⟩
  | cons cell rest ih =>
    obtain ⟨hblock, htagged⟩ := hblocks cell List.mem_cons_self
    have hslot : read (Block.slot j) (some array) heap = some (some cell.address) :=
      hslots 0 cell rfl
    rw [List.flatMap_cons, List.reduceOption_append, List.append_assoc] at h
    obtain ⟨remaining, hfree, hextends, hsame⟩ :=
      freeParameter_spec h hslot hblock htagged
    have hrest : Extends base remaining
        ((rest.flatMap Cell.pointers).reduceOption ++ (cell.parameter.key.toList ++ own)) :=
      hextends.perm (List.perm_append_comm_assoc _ _ _)
    have haddress (other : Cell) (hother : other ∈ rest) :
        other.address ∈ (rest.flatMap Cell.pointers).reduceOption ++ own :=
      List.mem_append_left _ (Cell.mem_reduceOption hother List.mem_cons_self)
    obtain ⟨heap', hfreeRest, hextends', hsame'⟩ := ih (List.mem_append_right _ hown) hrest
      (fun i other hother => by
        have harray (a : ℕ) (ha : some array = some a) : remaining.lookup a = heap.lookup a :=
          Option.some.inj ha ▸ hsame array (List.mem_append_right _ hown)
        rw [read_congr _ _ harray, Nat.add_assoc, Nat.add_comm 1 i]
        exact hslots (i + 1) other hother)
      (fun other hother => by
        rw [hsame _ (haddress other hother)]
        exact hblocks other (List.mem_cons_of_mem _ hother))
    refine ⟨heap', ?_, ?_, fun a ha => ?_⟩
    · simp only [List.length_cons, freeParameters, hfree, bind, Except.bind]
      exact hfreeRest
    · refine hextends'.perm ?_
      rw [List.map_cons, reduceOption_cons, List.append_assoc]
      exact List.perm_append_comm_assoc _ _ _
    · rw [hsame' a (List.mem_append_right _ ha), hsame a (List.mem_append_right _ ha)]

/-- The blocks with one more cell. -/
theorem blocks_concat (array : ℕ) (cells : List Cell) (cell : Cell) :
    (cell.parameter.pointers.reduceOption ++ [cell.address] ++ blocks array cells).Perm
      (blocks array (cells ++ [cell])) := by
  refine List.perm_iff_count.mpr fun a => ?_
  simp only [blocks, List.flatMap_append, List.flatMap_singleton, List.reduceOption_append,
    Cell.pointers, List.reduceOption_cons_of_some, List.count_append, List.count_cons,
    List.count_nil]
  omega

/-- The copied cells, with one more. -/
theorem Filled.concat {alloc : Allocator} {heap' : Blocks} {array : ℕ}
    {sources : List ConfigParameter} {cells : List Cell} {cell : Cell} {source : ConfigParameter}
    {slots : List Pointer} (h : Filled alloc heap array sources cells)
    (hsource : sources[cells.length]? = some source)
    (hslots : heap.lookup array = some (.array slots))
    (hassigned : heap'.lookup array =
      some (.array (slots.set cells.length (some cell.address))))
    (hcopies : cell.Copies alloc heap' cells.length source)
    (hsame : ∀ a ∈ (cells.flatMap Cell.pointers).reduceOption, heap'.lookup a = heap.lookup a) :
    Filled alloc heap' array sources (cells ++ [cell]) := by
  obtain ⟨hroom, -⟩ := List.getElem?_eq_some_iff.mp hsource
  constructor
  case slots =>
    obtain ⟨hlength, htake⟩ := h.of_lookup hslots
    refine ⟨_, hassigned, by rw [List.length_set, hlength], ?_⟩
    have hroom' : cells.length < (slots.set cells.length (some cell.address)).length := by
      rw [List.length_set, hlength]
      exact hroom
    rw [List.length_append, List.length_singleton, List.take_succ_eq_append_getElem hroom',
      List.take_set_of_le (le_refl _), htake, List.getElem_set_self, List.map_append]
    rfl
  case copies =>
    intro i other hother
    by_cases hi : i < cells.length
    · rw [List.getElem?_append_left hi] at hother
      obtain ⟨earlier, hearlier, hcopy⟩ := h.copies i other hother
      refine ⟨earlier, hearlier, hcopy.congr fun a ha => hsame a ?_⟩
      exact Cell.mem_reduceOption (List.mem_of_getElem? hother) ha
    · rw [List.getElem?_append_right (by omega), List.getElem?_singleton] at hother
      split at hother
      case isTrue hzero =>
        obtain rfl : cell = other := Option.some.inj hother
        obtain rfl : i = cells.length := by omega
        exact ⟨source, hsource, hcopies⟩
      case isFalse => contradiction

section Loop

variable {array : ℕ} {sources : List ConfigParameter} {cells : List Cell}

/-- The slot of the next parameter can be assigned. -/
theorem Filled.assign {alloc : Allocator} {heap' : Blocks} {source : ConfigParameter}
    (h : Filled alloc heap array sources cells) (hsource : sources[cells.length]? = some source)
    (hsame : heap'.lookup array = heap.lookup array) (pointer : Pointer) :
    ∃ slots, heap.lookup array = some (.array slots) ∧
      modify (Block.setSlot cells.length pointer) (some array) heap' =
        .ok (heap'.insert array (.array (slots.set cells.length pointer))) := by
  obtain ⟨slots, hslots, hlength, -⟩ := h.slots
  obtain ⟨hroom, -⟩ := List.getElem?_eq_some_iff.mp hsource
  exact ⟨slots, hslots, modify_of_lookup (hsame.trans hslots) (if_pos (by omega))⟩

/-- If the next parameter can be allocated, it is copied, and the loop goes on behind it. -/
theorem copyParameters_next {source : ConfigParameter} (rest : List ConfigParameter)
    (h : Extends base heap (blocks array cells))
    (hfilled : Filled env.alloc heap array sources cells)
    (hsource : sources[cells.length]? = some source)
    (halloc : env.alloc.parameter cells.length = true) :
    ∃ cell heap',
      copyParameters env (some array) cells.length (source :: rest) heap =
        copyParameters env (some array) (cells.length + 1) rest heap' ∧
      Extends base heap' (blocks array (cells ++ [cell])) ∧
      Filled env.alloc heap' array sources (cells ++ [cell]) := by
  have harray : array ∈ blocks array cells := List.mem_append_right _ List.mem_cons_self
  obtain ⟨a, ha, hmalloc⟩ := malloc_true env.placer (Block.parameter .fresh) heap
  have hne : array ≠ a := ne_of_mem_of_not_mem (h.live harray) ha
  obtain ⟨slots, hslots, hassign⟩ := hfilled.assign hsource
    (Finmap.lookup_insert_of_ne (b := Block.parameter .fresh) heap hne) (some a)
  -- only the array is rewritten, so it counts as a block of this step
  have hassigned : Extends (heap.erase array)
      ((heap.insert a (.parameter .fresh)).insert array
        (.array (slots.set cells.length (some a)))) ([a] ++ [array]) :=
    ((Extends.of_erase (h.live harray)).insert_new ha _).insert_own
      (List.mem_cons_of_mem a List.mem_cons_self) _
  have hfresh : ((heap.insert a (.parameter .fresh)).insert array
      (.array (slots.set cells.length (some a)))).lookup a = some (.parameter .fresh) := by
    rw [Finmap.lookup_insert_of_ne _ hne.symm, Finmap.lookup_insert]
  obtain ⟨parameter, heap', hcopy, hextends, hsame, hblock, hview, htagged, hnull⟩ :=
    copyParameter_spec env hassigned List.mem_cons_self hfresh cells.length source
  rw [← List.append_assoc] at hextends
  refine ⟨⟨a, parameter⟩, heap', ?_,
    (h.trans_erase harray hextends).perm (blocks_concat array cells ⟨a, parameter⟩), ?_⟩
  · simp only [copyParameters, halloc, hmalloc, hassign, hcopy, bind, Except.bind, reduceCtorEq,
      if_false]
  · refine hfilled.concat hsource hslots ?_ ⟨hblock, hview, htagged, hnull⟩ fun other hother => ?_
    · rw [hsame array (List.mem_cons_of_mem a List.mem_cons_self) hne, Finmap.lookup_insert]
    · have hother' : other ≠ array := h.ne_of_mem hother List.mem_cons_self
      have hlive := Finmap.mem_erase.mpr ⟨hother', h.live (List.mem_append_left _ hother)⟩
      rw [hextends.frame other hlive, Finmap.lookup_erase_ne hother']

/-- If the next parameter cannot be allocated, the array is freed, and the keys of the earlier
parameters are all that is left. -/
theorem copyParameters_fails {source : ConfigParameter} (rest : List ConfigParameter)
    (h : Extends base heap (blocks array cells))
    (hfilled : Filled env.alloc heap array sources cells)
    (hsource : sources[cells.length]? = some source)
    (halloc : env.alloc.parameter cells.length = false) :
    ∃ heap',
      copyParameters env (some array) cells.length (source :: rest) heap = .ok (false, heap') ∧
      Extends base heap' (cells.map fun cell => cell.parameter.key).reduceOption ∧
      array ∉ heap' := by
  have harray : array ∈ blocks array cells := List.mem_append_right _ List.mem_cons_self
  obtain ⟨slots, hslots, hassign⟩ := hfilled.assign hsource rfl none
  have hassigned := h.insert_own harray (.array (slots.set cells.length none))
  obtain ⟨remaining, hfreeAll, hextends, -⟩ := freeParameters_spec (j := 0)
    List.mem_cons_self hassigned
    (by
      intro i cell hcell
      obtain ⟨hi, -⟩ := List.getElem?_eq_some_iff.mp hcell
      rw [read_of_lookup _ (Finmap.lookup_insert _), Nat.zero_add, Block.slot,
        List.getElem?_set_ne (by omega), hfilled.slot hslots hcell])
    (by
      intro cell hcell
      obtain ⟨i, hi⟩ := List.mem_iff_getElem?.mp hcell
      obtain ⟨earlier, -, hcopies⟩ := hfilled.copies i cell hi
      have hne : cell.address ≠ array :=
        h.ne_of_mem (Cell.mem_reduceOption hcell List.mem_cons_self) List.mem_cons_self
      rw [Finmap.lookup_insert_of_ne _ hne]
      exact ⟨hcopies.block, hcopies.tagged⟩)
  have hlast : Extends base remaining ((some array).toList ++
      (cells.map fun cell => cell.parameter.key).reduceOption) :=
    hextends.perm List.perm_append_comm
  obtain ⟨heap', hfree, hextends', -⟩ := hlast.free
  refine ⟨heap', ?_, hextends', fun hlive => ?_⟩
  · simp only [copyParameters, halloc, malloc_false, hassign, hfreeAll, hfree, bind, Except.bind,
      if_true]
  · rcases (hextends'.mem_iff array).mp hlive with hbase | hkey
    · exact h.fresh array harray hbase
    · exact (List.nodup_cons.mp hlast.nodup).1 hkey

/-- The loop copies all parameters, or it stops at the first one that cannot be allocated. -/
theorem copyParameters_cases {rest : List ConfigParameter}
    (hrest : sources.drop cells.length = rest) (hroom : cells.length ≤ sources.length)
    (h : Extends base heap (blocks array cells))
    (hfilled : Filled env.alloc heap array sources cells) :
    (∃ heap' cells', copyParameters env (some array) cells.length rest heap = .ok (true, heap') ∧
      cells'.length = sources.length ∧ Extends base heap' (blocks array cells') ∧
      Filled env.alloc heap' array sources cells' ∧
      ∀ i, cells.length ≤ i → i < sources.length → env.alloc.parameter i = true) ∨
    ∃ heap' keys, copyParameters env (some array) cells.length rest heap = .ok (false, heap') ∧
      Extends base heap' keys ∧ array ∉ heap' ∧
      ∃ i < sources.length, env.alloc.parameter i = false := by
  induction rest generalizing heap cells with
  | nil =>
    have hlength : cells.length = sources.length :=
      le_antisymm hroom (List.drop_eq_nil_iff.mp hrest)
    exact .inl ⟨heap, cells, rfl, hlength, h, hfilled, fun i hlower hupper => by omega⟩
  | cons source rest ih =>
    have hsource : sources[cells.length]? = some source := by
      have hhead := congrArg (·[0]?) hrest
      simpa using hhead
    obtain ⟨hcount, -⟩ := List.getElem?_eq_some_iff.mp hsource
    cases halloc : env.alloc.parameter cells.length with
    | false =>
      obtain ⟨heap', hcopy, hextends, hdead⟩ :=
        copyParameters_fails env rest h hfilled hsource halloc
      exact .inr ⟨heap', _, hcopy, hextends, hdead, cells.length, hcount, halloc⟩
    | true =>
      obtain ⟨cell, next, hnext, hextends, hfilled'⟩ :=
        copyParameters_next env rest h hfilled hsource halloc
      have hlength : (cells ++ [cell]).length = cells.length + 1 := by simp
      have hrest' : sources.drop (cells ++ [cell]).length = rest := by
        rw [hlength, ← List.tail_drop, hrest, List.tail_cons]
      have hloop := ih hrest' (by omega) hextends hfilled'
      rw [hlength, ← hnext] at hloop
      refine hloop.imp_left ?_
      rintro ⟨heap', cells', hcopy, hlength', hextends', hfilled'', hall⟩
      refine ⟨heap', cells', hcopy, hlength', hextends', hfilled'', fun i hlower hupper => ?_⟩
      rcases hlower.eq_or_lt with rfl | hlater
      · exact halloc
      · exact hall i hlater hupper

end Loop

/-- The values of the parameters, if each of them can be allocated. -/
theorem copyParameters_eq_some {alloc : Allocator} {i : ℕ} {sources : List ConfigParameter}
    (h : ∀ k < sources.length, alloc.parameter (i + k) = true) :
    Dipp.copyParameters alloc i sources =
      some (sources.mapIdx fun k source => copied alloc (i + k) source) := by
  induction sources generalizing i with
  | nil => rfl
  | cons source rest ih =>
    have hrest := ih (i := i + 1) fun k hk => by
      have hlater := h (k + 1) (by simpa using hk)
      rwa [← Nat.add_assoc, Nat.add_right_comm] at hlater
    have hfirst : alloc.parameter i = true := h 0 (by simp)
    rw [Dipp.copyParameters, if_pos hfirst, hrest, List.mapIdx_cons]
    simp only [Option.map_some, Nat.add_assoc, Nat.add_comm 1, Nat.add_zero]
    rfl

/-- There are none if one of them cannot be allocated. -/
theorem copyParameters_eq_none {alloc : Allocator} {i k : ℕ} {sources : List ConfigParameter}
    (hk : k < sources.length) (h : alloc.parameter (i + k) = false) :
    Dipp.copyParameters alloc i sources = none := by
  induction sources generalizing i k with
  | nil => exact absurd hk (Nat.not_lt_zero k)
  | cons source rest ih =>
    rw [Dipp.copyParameters]
    cases k with
    | zero => exact if_neg (by simp [show alloc.parameter i = false from h])
    | succ k =>
      have hrest := ih (i := i + 1) (Nat.lt_of_succ_lt_succ hk) (by
        rwa [Nat.add_assoc, Nat.add_comm 1])
      rw [hrest]
      split <;> rfl

/-- What copying a message comes to. The array cannot be allocated, or one of the parameters, or
everything but possibly some of the strings can. -/
inductive CopyResult (alloc : Allocator) (mcon : ModuleConfig) (heap : Blocks) : Copied → Prop
  | noArray (heap' : Blocks) (hparameters : alloc.parameters = false)
      (hextends : Extends heap heap' []) : CopyResult alloc mcon heap ⟨none, false, heap'⟩
  | rolledBack (array : ℕ) (keys : List ℕ) (heap' : Blocks) (hparameters : alloc.parameters = true)
      (hparameter : ∃ i < mcon.parameters.length, alloc.parameter i = false)
      (hextends : Extends heap heap' keys) (hdead : array ∉ heap') :
      CopyResult alloc mcon heap ⟨some array, false, heap'⟩
  | complete (array : ℕ) (cells : List Cell) (heap' : Blocks)
      (hparameters : alloc.parameters = true)
      (hparameter : ∀ i < mcon.parameters.length, alloc.parameter i = true)
      (hlength : cells.length = mcon.parameters.length)
      (hextends : Extends heap heap' (blocks array cells))
      (hfilled : Filled alloc heap' array mcon.parameters cells) :
      CopyResult alloc mcon heap ⟨some array, true, heap'⟩

/-- Copying a message raises no fault and has one of these results. -/
theorem copyConfig_spec (mcon : ModuleConfig) (heap : Blocks) :
    ∃ result, copyConfig env mcon heap = .ok result ∧ CopyResult env.alloc mcon heap result := by
  unfold copyConfig
  cases hparameters : env.alloc.parameters with
  | false => exact ⟨_, rfl, .noArray heap hparameters (.refl heap)⟩
  | true =>
    obtain ⟨array, harray, hmalloc⟩ := malloc_true env.placer
      (.array (List.replicate mcon.parameters.length none)) heap
    have hextends : Extends heap (heap.insert array
        (.array (List.replicate mcon.parameters.length none))) (blocks array []) :=
      (Extends.refl heap).insert_new harray _
    have hfilled : Filled env.alloc (heap.insert array
        (.array (List.replicate mcon.parameters.length none))) array mcon.parameters [] :=
      ⟨⟨_, Finmap.lookup_insert heap, List.length_replicate, rfl⟩,
        fun i cell hcell => by simp at hcell⟩
    simp only [hmalloc, reduceCtorEq, if_false]
    rcases copyParameters_cases env rfl (Nat.zero_le _) hextends hfilled with
      ⟨heap', cells, hcopy, hlength, hextends', hfilled', hall⟩ |
        ⟨heap', keys, hcopy, hextends', hdead, hfails⟩
    · refine ⟨⟨some array, true, heap'⟩, ?_, .complete array cells heap' hparameters
        (fun i hi => hall i (Nat.zero_le i) hi) hlength hextends' hfilled'⟩
      exact congrArg (Except.bind · _) hcopy
    · refine ⟨⟨some array, false, heap'⟩, ?_, .rolledBack array keys heap' hparameters hfails
        hextends' hdead⟩
      exact congrArg (Except.bind · _) hcopy

end Dipp.Memory
