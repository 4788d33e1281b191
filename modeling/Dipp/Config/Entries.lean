import Dipp.Config.Copying

/-!
# What a setup call makes of a table entry

The pointers reached from an entry and the values read through them depend only on the blocks
that these pointers lead to. A setup call leaves the blocks of earlier calls alone, and the entry
that it completes leads to its cells. Where the table owns the heap exactly, the values of all
entries are those of the setup that works on values.
-/

namespace Dipp.Memory

open Heap

variable (libs : Libraries) (env : Env) {heap heap' : Blocks}

/-- What is reached through a slot depends on the array and on what it leads to. -/
theorem slotPointers_congr {array : Pointer} {i : ℕ}
    (harray : ∀ a, array = some a → heap'.lookup a = heap.lookup a)
    (h : ∀ a, some a ∈ slotPointers heap array i → heap'.lookup a = heap.lookup a) :
    slotPointers heap' array i = slotPointers heap array i ∧
      parameterAt heap' array i = parameterAt heap array i := by
  have hslot : read (Block.slot i) array heap' = read (Block.slot i) array heap :=
    read_congr _ array harray
  have hparameter : parameterAt heap' array i = parameterAt heap array i := by
    rw [parameterAt, hslot]
    exact read_congr _ _ fun a ha => h a (List.mem_cons.mpr (.inl ha.symm))
  exact ⟨by rw [slotPointers, hslot, hparameter, slotPointers], hparameter⟩

/-- What is reached from an entry depends on the blocks that it leads to. -/
theorem ParameterList.pointers_congr (list : ParameterList)
    (h : ∀ a, some a ∈ list.pointers heap → heap'.lookup a = heap.lookup a) :
    list.pointers heap' = list.pointers heap := by
  unfold pointers at h ⊢
  split_ifs at h ⊢ with hnull
  · rfl
  · refine congrArg _ (List.flatMap_congr fun i hi => ?_)
    apply (slotPointers_congr _ _).1
    · exact fun a ha => h a (List.mem_cons.mpr (.inl ha.symm))
    · exact fun a ha => h a (List.mem_cons_of_mem _ (List.mem_flatMap.mpr ⟨i, hi, ha⟩))

/-- So does its value. -/
theorem ParameterList.view_congr (list : ParameterList)
    (h : ∀ a, some a ∈ list.pointers heap → heap'.lookup a = heap.lookup a) :
    list.view heap' = list.view heap := by
  obtain ⟨n, array⟩ := list
  unfold view
  cases array with
  | none => rfl
  | some array =>
    simp only [pointers, reduceCtorEq, and_false, if_false] at h
    have harray (a : ℕ) (ha : some array = some a) : heap'.lookup a = heap.lookup a :=
      h a (List.mem_cons.mpr (.inl ha.symm))
    have hlive : array ∈ heap' ↔ array ∈ heap := by
      rw [Finmap.mem_iff, Finmap.mem_iff, harray array rfl]
    have hparameters : ∀ i ∈ List.range n,
        (parameterAt heap' (some array) i).map (Parameter.view heap') =
          (parameterAt heap (some array) i).map (Parameter.view heap) := by
      intro i hi
      have hslot (a : ℕ) (ha : some a ∈ slotPointers heap (some array) i) :
          heap'.lookup a = heap.lookup a :=
        h a (List.mem_cons_of_mem _ (List.mem_flatMap.mpr ⟨i, hi, ha⟩))
      rw [(slotPointers_congr harray hslot).2]
      cases hparameter : parameterAt heap (some array) i with
      | none => rfl
      | some parameter =>
        refine congrArg some (parameter.view_congr fun a ha => hslot a ?_)
        rw [slotPointers, hparameter]
        exact List.mem_cons_of_mem _ ha
    simp only [hlive, List.filterMap_congr hparameters]

/-- A function of the index that computes each element of a list lists its values. -/
theorem map_range_length {α β : Type*} {xs : List α} {f : ℕ → β} {g : α → β}
    (h : ∀ i x, xs[i]? = some x → f i = g x) : (List.range xs.length).map f = xs.map g := by
  apply List.ext_getElem
  · simp
  · intro i hleft hright
    have hi : i < xs.length := by simpa using hright
    rw [List.getElem_map, List.getElem_map, List.getElem_range]
    exact h i _ (List.getElem?_eq_getElem hi)

section Filled

variable {alloc : Allocator} {array : ℕ} {sources : List ConfigParameter} {cells : List Cell}

/-- The slots of a filled array lead to the cells. -/
theorem Filled.parameterAt (h : Filled alloc heap array sources cells) {i : ℕ} {cell : Cell}
    (hcell : cells[i]? = some cell) :
    parameterAt heap (some array) i = some cell.parameter ∧
      slotPointers heap (some array) i = cell.pointers := by
  obtain ⟨slots, hslots, -⟩ := h.slots
  obtain ⟨source, -, hcopies⟩ := h.copies i cell hcell
  have hread : read (Block.slot i) (some array) heap = some (some cell.address) := by
    rw [read_of_lookup _ hslots, Block.slot, h.slot hslots hcell]
  have hparameter : Memory.parameterAt heap (some array) i = some cell.parameter := by
    rw [Memory.parameterAt, hread]
    exact read_of_lookup _ hcopies.block
  refine ⟨hparameter, ?_⟩
  rw [slotPointers, hread, hparameter]
  rfl

/-- The pointers of an entry whose array is filled. -/
theorem Filled.pointers (h : Filled alloc heap array sources cells)
    (hlength : cells.length = sources.length) :
    (ParameterList.mk sources.length (some array)).pointers heap =
      some array :: cells.flatMap Cell.pointers := by
  simp only [ParameterList.pointers, reduceCtorEq, and_false, if_false, ← hlength]
  rw [List.flatMap_def, map_range_length fun i cell hcell => (h.parameterAt hcell).2,
    ← List.flatMap_def]

/-- They lead to the blocks of the array and of the cells. -/
theorem Filled.some_mem_iff (a : ℕ) :
    some a ∈ some array :: cells.flatMap Cell.pointers ↔ a ∈ blocks array cells := by
  rw [blocks, List.mem_append, List.mem_singleton, List.reduceOption_mem_iff, List.mem_cons,
    Option.some.injEq]
  exact or_comm

/-- None of them is null exactly if every key and every string could be copied. -/
theorem Filled.none_notMem_iff (h : Filled alloc heap array sources cells)
    (hlength : cells.length = sources.length) :
    none ∉ some array :: cells.flatMap Cell.pointers ↔
      ∀ i source, sources[i]? = some source → alloc.copy i = true ∧ ¬ LacksText alloc i source := by
  have hcell (cell : Cell) : none ∈ cell.pointers ↔ none ∈ cell.parameter.pointers := by
    simp [Cell.pointers]
  simp only [List.mem_cons, reduceCtorEq, false_or, List.mem_flatMap, hcell, not_exists, not_and]
  constructor
  · intro hnone i source hsource
    obtain ⟨hi, -⟩ := List.getElem?_eq_some_iff.mp hsource
    obtain ⟨cell, hcell⟩ : ∃ cell, cells[i]? = some cell :=
      ⟨_, List.getElem?_eq_getElem (hlength ▸ hi)⟩
    obtain ⟨source', hsource', hcopies⟩ := h.copies i cell hcell
    obtain rfl : source' = source := Option.some.inj (hsource'.symm.trans hsource)
    have hnull := mt hcopies.null.mpr (hnone cell (List.mem_of_getElem? hcell))
    simpa using hnull
  · intro hall cell hmem hnone
    obtain ⟨i, hi⟩ := List.mem_iff_getElem?.mp hmem
    obtain ⟨source, hsource, hcopies⟩ := h.copies i cell hi
    obtain ⟨hkey, htext⟩ := hall i source hsource
    rcases hcopies.null.mp hnone with hlost | hlost
    · rw [hkey] at hlost
      contradiction
    · exact htext hlost

/-- The value of an entry whose array is filled. -/
theorem Filled.view (h : Filled alloc heap array sources cells)
    (hlength : cells.length = sources.length) :
    (ParameterList.mk sources.length (some array)).view heap =
      ⟨sources.length, .array (sources.mapIdx (copied alloc))⟩ := by
  obtain ⟨slots, hslots, -⟩ := h.slots
  have hlive : array ∈ heap := Finmap.mem_of_lookup_eq_some hslots
  have hcells : cells.map (fun cell => cell.parameter.view heap) =
      sources.mapIdx (copied alloc) := by
    apply List.ext_getElem
    · simpa using hlength
    · intro i hleft hright
      have hi : i < cells.length := by simpa using hleft
      obtain ⟨source, hsource, hcopies⟩ := h.copies i cells[i] (List.getElem?_eq_getElem hi)
      obtain ⟨hi', rfl⟩ := List.getElem?_eq_some_iff.mp hsource
      rw [List.getElem_map, List.getElem_mapIdx, hcopies.view]
  have hrange : (List.range cells.length).map (fun i =>
      (Memory.parameterAt heap (some array) i).map (Parameter.view heap)) =
        cells.map (some ∘ fun cell => cell.parameter.view heap) := by
    refine map_range_length fun i cell hcell => ?_
    rw [(h.parameterAt hcell).1]
    rfl
  have hvalues := congrArg List.reduceOption hrange
  simp only [List.reduceOption, List.filterMap_map, Function.id_comp] at hvalues
  simp only [ParameterList.view, hlive, if_true, ← hlength, hvalues, List.filterMap_eq_map, hcells]

end Filled

/-- The configuration that a content is unpacked to, if memory for it is available. -/
def Env.message (content : ParamData) : Option ModuleConfig :=
  if env.unpacked then moduleMessage libs env.toCallEnv content else none

/-- Unpacking a content raises no fault and leaves the block of the message, if there is one. -/
theorem unpack_spec (content : ParamData) (err : ErrorState) (heap : Blocks) :
    ∃ unpacked, unpack libs env content err heap = .ok unpacked ∧
      unpacked.mcon = env.message libs content ∧
      unpacked.err = (getParamBuffer libs env.toCallEnv content err).2 ∧
      (env.message libs content = none → unpacked.block = none) ∧
      Extends heap unpacked.heap unpacked.block.toList := by
  have hmessage : (if env.unpacked = true then libs.moduleConfigUnpack
      (getParamBuffer libs env.toCallEnv content err).1.contents else none) =
        env.message libs content := by
    rw [getParamBuffer_contents]
    rfl
  unfold unpack
  simp only [hmessage]
  obtain ⟨hbuffer, -⟩ := (Extends.refl heap).malloc env.placer
    (getParamBuffer libs env.toCallEnv content err).1.buffer.isSome Block.buffer
  generalize malloc env.placer (getParamBuffer libs env.toCallEnv content err).1.buffer.isSome
    Block.buffer heap = buffer at *
  rw [List.append_nil] at hbuffer
  obtain ⟨hmalloc, -⟩ := (Extends.refl buffer.2).malloc env.placer
    (env.message libs content).isSome Block.message
  rw [List.append_nil] at hmalloc
  obtain ⟨remaining, hfree, hextends, -⟩ := hbuffer.free_first hmalloc
  refine ⟨⟨env.message libs content, _, remaining, _⟩, ?_, rfl, rfl, fun hnone => ?_, hextends⟩
  · simp only [hfree, bind, Except.bind]
  · simp only [hnone, Option.isSome_none, malloc_false]

/-- What a setup call comes to: it is skipped, or its entry is replaced by the result of copying
the message. -/
inductive SetupResult (j : Fin maxModules) (content : ParamData) (c : State) : State → Prop
  | skipped (heap' : Blocks) (hmessage : env.message libs content = none)
      (hextends : Extends c.heap heap' []) :
      SetupResult j content c
        ⟨heap', c.lists, (getParamBuffer libs env.toCallEnv content c.err).2⟩
  | replaced (mcon : ModuleConfig) (result : Copied)
      (hmessage : env.message libs content = some mcon)
      (hresult : CopyResult env.alloc mcon c.heap result) :
      SetupResult j content c {
        heap := result.heap
        lists := Function.update c.lists j ⟨mcon.parameters.length, result.array⟩
        err :=
          if result.complete then (getParamBuffer libs env.toCallEnv content c.err).2
          else setErrorParam ErrorCode.memoryMalloc.value
            (getParamBuffer libs env.toCallEnv content c.err).2 }

/-- The message can be freed behind the copying. -/
theorem CopyResult.free {alloc : Allocator} {mcon : ModuleConfig} {base middle : Blocks}
    {block : Pointer} {result : Copied} (hblock : Extends base middle block.toList)
    (h : CopyResult alloc mcon middle result) :
    ∃ heap', Heap.free block result.heap = .ok heap' ∧
      CopyResult alloc mcon base { result with heap := heap' } := by
  cases h with
  | noArray heap hparameters hextends =>
    obtain ⟨heap', hfree, hextends', -⟩ := hblock.free_first hextends
    exact ⟨heap', hfree, .noArray heap' hparameters hextends'⟩
  | rolledBack array keys heap hparameters hparameter hextends hdead =>
    obtain ⟨heap', hfree, hextends', -⟩ := hblock.free_first hextends
    refine ⟨heap', hfree, .rolledBack array keys heap' hparameters hparameter hextends' ?_⟩
    intro hlive
    apply hdead
    rcases (hextends'.mem_iff array).mp hlive with hbase | hkey
    · exact (hextends.mem_iff array).mpr (.inl ((hblock.mem_iff array).mpr (.inl hbase)))
    · exact hextends.live hkey
  | complete array cells heap hparameters hparameter hlength hextends hfilled =>
    obtain ⟨heap', hfree, hextends', hsame⟩ := hblock.free_first hextends
    exact ⟨heap', hfree, .complete array cells heap' hparameters hparameter hlength hextends'
      (hfilled.congr hsame)⟩

/-- Every setup call goes through, whatever it finds: nothing is freed twice, and nothing is used
after it was freed. -/
theorem setupModuleConfig_spec (j : Fin maxModules) (content : ParamData) (c : State) :
    ∃ c', setupModuleConfig libs env j content c = .ok c' ∧
      SetupResult libs env j content c c' := by
  obtain ⟨⟨mcon, block, heap, err⟩, hunpack, hmcon, herr, hblock, hextends⟩ :=
    unpack_spec libs env content c.err c.heap
  dsimp only at hmcon herr hblock hextends
  subst hmcon herr
  simp only [setupModuleConfig, hunpack, bind, Except.bind]
  cases hmessage : env.message libs content with
  | none =>
    rw [hblock hmessage] at hextends
    exact ⟨_, rfl, .skipped heap hmessage hextends⟩
  | some mcon =>
    obtain ⟨result, hcopy, hresult⟩ := copyConfig_spec env mcon heap
    obtain ⟨heap', hfree, hresult'⟩ := hresult.free hextends
    simp only [hcopy, hfree]
    exact ⟨_, rfl, .replaced mcon { result with heap := heap' } hmessage hresult'⟩

/-- The values of the table entries. -/
def State.view (c : State) : Fin maxModules → ModuleParameterList :=
  fun j => (c.lists j).view c.heap

/-- The value of an entry after a message was copied. -/
theorem CopyResult.view {mcon : ModuleConfig} {result : Copied}
    (h : CopyResult env.alloc mcon heap result) (old : ModuleParameterList) :
    (ParameterList.mk mcon.parameters.length result.array).view result.heap =
      listAfter env.toCallEnv (some mcon) old := by
  cases h with
  | noArray heap' hparameters => simp [ParameterList.view, listAfter, hparameters]
  | rolledBack array keys heap' hparameters hparameter _ hdead =>
    obtain ⟨i, hi, hfails⟩ := hparameter
    have hnone : Dipp.copyParameters env.alloc 0 mcon.parameters = none :=
      copyParameters_eq_none hi (by rwa [Nat.zero_add])
    simp [ParameterList.view, listAfter, hparameters, hdead, hnone]
  | complete array cells heap' hparameters hparameter hlength _ hfilled =>
    have hsome : Dipp.copyParameters env.alloc 0 mcon.parameters =
        some (mcon.parameters.mapIdx (copied env.alloc)) := by
      rw [copyParameters_eq_some fun k hk => by rw [Nat.zero_add]; exact hparameter k hk]
      simp only [Nat.zero_add]
    simp [hfilled.view hlength, listAfter, hparameters, hsome]

/-- What is reached from a table that owns its heap exactly is live. -/
theorem State.OwnsExactly.live_of_reached {c : State} (howns : c.OwnsExactly) (i : Fin maxModules)
    {a : ℕ} (ha : some a ∈ (c.lists i).pointers c.heap) : a ∈ c.heap := by
  obtain ⟨b, hb, heq⟩ := howns.live i (some a) ha
  rwa [Option.some.inj heq]

/-- Copying a message extends the heap. -/
theorem CopyResult.extends {alloc : Allocator} {mcon : ModuleConfig} {result : Copied}
    (h : CopyResult alloc mcon heap result) : ∃ own, Extends heap result.heap own := by
  cases h with
  | noArray _ _ hextends => exact ⟨_, hextends⟩
  | rolledBack _ _ _ _ _ hextends _ => exact ⟨_, hextends⟩
  | complete _ _ _ _ _ _ hextends _ => exact ⟨_, hextends⟩

/-- Where the table owns the heap exactly, an entry that a call does not replace keeps its value
and leads to the same pointers. -/
theorem CopyResult.frame {c : State} {mcon : ModuleConfig} {result : Copied}
    (howns : c.OwnsExactly) (h : CopyResult env.alloc mcon c.heap result) (i : Fin maxModules) :
    (c.lists i).pointers result.heap = (c.lists i).pointers c.heap ∧
      (c.lists i).view result.heap = (c.lists i).view c.heap := by
  obtain ⟨own, hextends⟩ := h.extends
  have hsame (a : ℕ) (ha : some a ∈ (c.lists i).pointers c.heap) :
      result.heap.lookup a = c.heap.lookup a :=
    hextends.frame a (howns.live_of_reached i ha)
  exact ⟨(c.lists i).pointers_congr hsame, (c.lists i).view_congr hsame⟩

/-- Copying is complete exactly if the setup on values gets an array. -/
theorem CopyResult.complete_iff {mcon : ModuleConfig} {result : Copied}
    (h : CopyResult env.alloc mcon heap result) :
    result.complete = (env.alloc.parameters &&
      (Dipp.copyParameters env.alloc 0 mcon.parameters).isSome) := by
  cases h with
  | noArray _ hparameters => rw [hparameters]; rfl
  | rolledBack _ _ _ _ hparameter =>
    obtain ⟨i, hi, hfails⟩ := hparameter
    rw [copyParameters_eq_none hi (by rwa [Nat.zero_add])]
    simp
  | complete _ _ _ hparameters hparameter =>
    rw [copyParameters_eq_some fun k hk => by rw [Nat.zero_add]; exact hparameter k hk, hparameters]
    rfl

/-- On a table that owns its heap exactly, the call does to the values what the setup on values
does. -/
theorem setupModuleConfig_refines {j : Fin maxModules} {content : ParamData} {c c' : State}
    (howns : c.OwnsExactly) (hunpacked : env.unpacked = true)
    (h : setupModuleConfig libs env j content c = .ok c') (cache : ConfigState)
    (hlists : cache.moduleParameterLists = c.view) (hcontent : cache.moduleParams j = content)
    (herr : cache.err = c.err) :
    (Dipp.setupModuleConfig libs env.toCallEnv j cache).moduleParameterLists = c'.view ∧
      (Dipp.setupModuleConfig libs env.toCallEnv j cache).err = c'.err := by
  obtain ⟨other, hother, hresult⟩ := setupModuleConfig_spec libs env j content c
  obtain rfl : other = c' := Except.ok.inj (hother.symm.trans h)
  have hmodule : moduleMessage libs env.toCallEnv content = env.message libs content :=
    (if_pos hunpacked).symm
  constructor
  · obtain ⟨log, hvalues⟩ := setupModuleConfig_eq libs env.toCallEnv j cache
    rw [hvalues]
    dsimp only
    rw [hcontent, hmodule, hlists]
    funext i
    cases hresult with
    | skipped heap' hmessage hextends =>
      have hsame (a : ℕ) (ha : some a ∈ (c.lists i).pointers c.heap) :
          heap'.lookup a = c.heap.lookup a :=
        hextends.frame a (howns.live_of_reached i ha)
      rw [hmessage, listAfter, Function.update_eq_self]
      exact ((c.lists i).view_congr hsame).symm
    | replaced mcon result hmessage hcopied =>
      rw [hmessage]
      by_cases heq : i = j
      · subst heq
        simp only [State.view, Function.update_self]
        exact (hcopied.view env _).symm
      · simp only [State.view, Function.update_of_ne heq]
        exact (hcopied.frame env howns i).2.symm
  · simp only [Dipp.setupModuleConfig, hcontent, herr, getParamBuffer_contents]
    rw [show libs.moduleConfigUnpack (paramContents libs env.toCallEnv content) =
      env.message libs content from hmodule]
    cases hresult with
    | skipped heap' hmessage hextends => rw [hmessage]
    | replaced mcon result hmessage hcopied =>
      rw [hmessage, hcopied.complete_iff]
      dsimp only
      cases env.alloc.parameters with
      | false => rfl
      | true => cases Dipp.copyParameters env.alloc 0 mcon.parameters <;> rfl

end Dipp.Memory
