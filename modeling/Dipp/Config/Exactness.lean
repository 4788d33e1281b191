import Dipp.Config.Entries
import Dipp.Config.Safety

/-!
# Where the parameter lists own their memory exactly

Nothing that a setup call frees is freed again or used later, in any sequence of calls. But an
entry that is replaced is not freed, the strings are not checked for null, the number of
parameters is set before there is an array, and a rollback keeps the keys and leaves the entry
pointing to the freed array. So the table owns its memory exactly as long as each call that
unpacks a message finds an entry that no earlier call gave an array, and gets all the memory that
it asks for.
-/

namespace Dipp.Memory

open Heap Execution

variable (libs : Libraries) (env : Env)

/-- There is memory for everything that copying a message allocates. -/
structure Available (alloc : Allocator) (mcon : ModuleConfig) : Prop where
  parameters : alloc.parameters = true
  parameter : ∀ i < mcon.parameters.length, alloc.parameter i = true
  strings : ∀ i source, mcon.parameters[i]? = some source →
    alloc.copy i = true ∧ ¬ LacksText alloc i source

/-- A call that unpacks a message finds its entry without an array, and there is memory for the
copy, unless there is nothing to copy. -/
def Acquires (c : State) (call : Call) : Prop :=
  ∀ mcon, call.env.message libs call.content = some mcon →
    (c.lists call.index).parameters = none ∧
      (mcon.parameters = [] ∨ Available call.env.alloc mcon)

/-- The call returns, and the table owns the heap exactly afterwards. -/
def StaysExact (c : State) (call : Call) : Prop :=
  ∃ next, step libs c call = .ok next ∧ next.OwnsExactly

/-- A new process owns nothing. -/
theorem State.boot_ownsExactly (logStatus : UInt32) : (State.boot logStatus).OwnsExactly :=
  Owned.empty

/-- In a table that owns its heap exactly, an entry leads nowhere exactly if its array is null. -/
theorem State.OwnsExactly.pointers_eq_nil_iff {c : State} (h : c.OwnsExactly)
    (j : Fin maxModules) :
    (c.lists j).pointers c.heap = [] ↔ (c.lists j).parameters = none := by
  have hlive : none ∉ (c.lists j).pointers c.heap := by
    intro hnone
    obtain ⟨a, -, heq⟩ := h.live j none hnone
    contradiction
  unfold ParameterList.pointers at hlive ⊢
  split_ifs at hlive ⊢ with hnull
  · exact iff_of_true rfl hnull.2
  · refine iff_of_false id fun harray => hlive ?_
    exact List.mem_cons.mpr (.inl harray.symm)

/-- An entry without an array leads to null only. -/
theorem pointers_noArray (heap : Blocks) (n : ℕ) :
    (∀ a, some a ∉ (ParameterList.mk n none).pointers heap) ∧
      (none ∉ (ParameterList.mk n none).pointers heap ↔ n = 0) := by
  have hslot (i : ℕ) : slotPointers heap none i = [none] := rfl
  by_cases hzero : n = 0
  · simp [ParameterList.pointers, hzero]
  · simp [ParameterList.pointers, hzero, hslot]

/-- After a message was copied to an entry, the table owns the heap exactly if and only if the
entry had no array, and there was memory for the copy or nothing to copy. -/
theorem CopyResult.stays_iff {c : State} {mcon : ModuleConfig} {result : Copied}
    (howns : c.OwnsExactly) (h : CopyResult env.alloc mcon c.heap result) (j : Fin maxModules)
    (err : ErrorState) :
    (State.mk result.heap
        (Function.update c.lists j ⟨mcon.parameters.length, result.array⟩) err).OwnsExactly ↔
      (c.lists j).parameters = none ∧ (mcon.parameters = [] ∨ Available env.alloc mcon) := by
  have hpointers : (fun i => (Function.update c.lists j
        ⟨mcon.parameters.length, result.array⟩ i).pointers result.heap) =
      Function.update (fun i => (c.lists i).pointers c.heap) j
        ((ParameterList.mk mcon.parameters.length result.array).pointers result.heap) := by
    funext i
    by_cases heq : i = j
    · rw [heq, Function.update_self, Function.update_self]
    · rw [Function.update_of_ne heq, Function.update_of_ne heq, (h.frame env howns i).1]
  unfold State.OwnsExactly
  dsimp only
  rw [hpointers, ← howns.pointers_eq_nil_iff j]
  cases h with
  | noArray heap hparameters hextends =>
    obtain ⟨hnull, hnone⟩ := pointers_noArray heap mcon.parameters.length
    have hunavailable : ¬ Available env.alloc mcon := fun havailable => by
      rw [havailable.parameters] at hparameters
      contradiction
    rw [howns.update_iff hextends fun a => iff_of_false (hnull a) List.not_mem_nil, hnone,
      List.length_eq_zero_iff, or_iff_left hunavailable]
  | rolledBack array keys heap hparameters hparameter hextends hdead =>
    obtain ⟨i, hi, hfails⟩ := hparameter
    refine iff_of_false (fun howned => hdead ?_) ?_
    · apply howned.mem_of_some_mem (a := array)
      rw [Function.update_self]
      simp [ParameterList.pointers]
    · rintro ⟨-, hempty | havailable⟩
      · rw [hempty] at hi
        exact Nat.not_lt_zero i hi
      · rw [havailable.parameter i hi] at hfails
        contradiction
  | complete array cells heap hparameters hparameter hlength hextends hfilled =>
    rw [hfilled.pointers hlength, howns.update_iff hextends Filled.some_mem_iff,
      hfilled.none_notMem_iff hlength]
    refine and_congr_right fun _ => ⟨fun hstrings => .inr ⟨hparameters, hparameter, hstrings⟩, ?_⟩
    rintro (hempty | havailable)
    · intro i source hsource
      rw [hempty] at hsource
      contradiction
    · exact havailable.strings

/-- On a table that owns its heap exactly, it does so after a call if and only if the call acquires
what it asks for. -/
theorem staysExact_iff {c : State} (howns : c.OwnsExactly) (call : Call) :
    StaysExact libs c call ↔ Acquires libs c call := by
  obtain ⟨next, hnext, hresult⟩ :=
    setupModuleConfig_spec libs call.env call.index call.content c
  have hstays : StaysExact libs c call ↔ next.OwnsExactly := by
    constructor
    · rintro ⟨other, hother, hexact⟩
      rwa [Except.ok.inj (hnext.symm.trans hother)]
    · exact fun hexact => ⟨next, hnext, hexact⟩
  rw [hstays]
  cases hresult with
  | skipped heap hmessage hextends =>
    refine iff_of_true ?_ fun mcon hmcon => ?_
    · have hpointers (i : Fin maxModules) :
          (c.lists i).pointers heap = (c.lists i).pointers c.heap :=
        (c.lists i).pointers_congr fun a ha => hextends.frame a (howns.live_of_reached i ha)
      unfold State.OwnsExactly
      simp only [hpointers]
      exact Owned.of_extends_nil howns hextends
    · rw [hmessage] at hmcon
      contradiction
  | replaced mcon result hmessage hcopied =>
    rw [hcopied.stays_iff call.env howns call.index]
    unfold Acquires
    simp only [hmessage, Option.some.injEq, forall_eq']

/-- In any sequence of setup calls, on any parameters with any contents, whatever allocations fail:
every call returns and leaves a table that owns the heap exactly, if and only if every call that
unpacks a message finds its entry without an array and gets the memory that it asks for. -/
theorem ownsExactly_iff (logStatus : UInt32) (calls : List Call) :
    (∀ executed, executed <+: calls →
      ∃ c, run (step libs) executed (.boot logStatus) = .ok c ∧ c.OwnsExactly) ↔
      Along (step libs) (Acquires libs) calls (.boot logStatus) := by
  rw [reached_iff_along, and_iff_right (State.boot_ownsExactly logStatus)]
  refine along_congr_of_invariant State.OwnsExactly
    (fun c call howns => staysExact_iff libs howns call) ?_ calls _
    (State.boot_ownsExactly logStatus)
  rintro c call next - ⟨other, hother, hexact⟩ hnext
  rwa [← Except.ok.inj (hother.symm.trans hnext)]

/-- The calls of `setup_all_module_configs`. -/
def rebuildCalls (contents : Fin maxModules → ParamData) (env : Fin maxModules → Env)
    (js : List (Fin maxModules)) : List Call :=
  js.map fun j => ⟨j, contents j, env j⟩

/-- As long as the table owns its heap exactly, setting up every module parameter does to the
values what the setup on values does. -/
theorem setupAllModuleConfigs_refines (env : Fin maxModules → Env)
    (hunpacked : ∀ j, (env j).unpacked = true) (cache : ConfigState) {c c' : State}
    (howns : c.OwnsExactly) (hlists : cache.moduleParameterLists = c.view)
    (herr : cache.err = c.err)
    (halong : Along (step libs) (StaysExact libs)
      (rebuildCalls cache.moduleParams env (List.finRange maxModules)) c)
    (hrun : run (step libs)
      (rebuildCalls cache.moduleParams env (List.finRange maxModules)) c = .ok c') :
    (setupAllModuleConfigs libs (fun j => (env j).toCallEnv) cache).moduleParameterLists =
        c'.view ∧
      (setupAllModuleConfigs libs (fun j => (env j).toCallEnv) cache).err = c'.err := by
  unfold setupAllModuleConfigs
  generalize List.finRange maxModules = js at halong hrun ⊢
  induction js generalizing c cache with
  | nil =>
    obtain rfl : c = c' := Except.ok.inj hrun
    exact ⟨hlists, herr⟩
  | cons j js ih =>
    obtain ⟨next, hnext, hrest⟩ := run_cons_eq_ok hrun
    obtain ⟨⟨other, hother, hexact⟩, hlater⟩ := halong
    obtain rfl : other = next := Except.ok.inj (hother.symm.trans hnext)
    obtain ⟨hlists', herr'⟩ :=
      setupModuleConfig_refines libs (env j) howns (hunpacked j) hnext cache hlists rfl herr
    obtain ⟨log, hcache⟩ := setupModuleConfig_eq libs (env j).toCallEnv j cache
    have hparams : (Dipp.setupModuleConfig libs (env j).toCallEnv j cache).moduleParams =
        cache.moduleParams := by rw [hcache]
    rw [List.foldl_cons]
    refine ih _ hexact hlists' herr' ?_ ?_
    · rw [hparams]
      exact hlater other hnext
    · rw [hparams]
      exact hrest

/-- No sequence of setup calls frees anything twice, or uses anything that was freed. -/
theorem setupCalls_return (calls : List Call) (c : State) :
    ∃ c', run (step libs) calls c = .ok c' := by
  induction calls generalizing c with
  | nil => exact ⟨c, rfl⟩
  | cons call rest ih =>
    obtain ⟨next, hnext, -⟩ := setupModuleConfig_spec libs call.env call.index call.content c
    obtain ⟨c', hrest⟩ := ih next
    exact ⟨c', by rw [run_cons_ok rest (show step libs c call = .ok next from hnext), hrest]⟩

/-- An entry keeps its array in a call of another parameter, or without a message. -/
theorem step_keeps {c next : State} {call : Call} {j : Fin maxModules}
    (hnext : step libs c call = .ok next)
    (hother : call.index = j → call.env.message libs call.content = none) :
    next.lists j = c.lists j := by
  obtain ⟨other, hother', hresult⟩ :=
    setupModuleConfig_spec libs call.env call.index call.content c
  obtain rfl : other = next := Except.ok.inj (hother'.symm.trans hnext)
  cases hresult with
  | skipped => rfl
  | replaced mcon result hmessage =>
    refine Function.update_of_ne (fun heq => ?_) _ _
    rw [hother heq.symm] at hmessage
    contradiction

/-- Once an entry has an array, a run that stays exact unpacks no further message for it. -/
theorem no_message_of_array {calls : List Call} {c : State} {j : Fin maxModules}
    (harray : (c.lists j).parameters ≠ none)
    (halong : Along (step libs) (Acquires libs) calls c) :
    ∀ call ∈ calls, call.index = j → call.env.message libs call.content = none := by
  induction calls generalizing c with
  | nil => exact fun _ hcall => absurd hcall List.not_mem_nil
  | cons call rest ih =>
    have hfirst (hindex : call.index = j) : call.env.message libs call.content = none := by
      refine Option.eq_none_iff_forall_ne_some.mpr fun mcon hmcon => harray ?_
      exact hindex ▸ (halong.1 mcon hmcon).1
    obtain ⟨next, hnext, -⟩ := setupModuleConfig_spec libs call.env call.index call.content c
    intro later hlater
    rcases List.mem_cons.mp hlater with rfl | hlater
    · exact hfirst
    · refine ih ?_ (halong.2 next hnext) later hlater
      rwa [step_keeps libs hnext hfirst]

/-- In a run that stays exact, a parameter from which a configuration with parameters was unpacked
is not unpacked a second time: the cache can be built, but not rebuilt. -/
theorem unpacked_once {c : State} {call : Call} {later : List Call} {mcon : ModuleConfig}
    (hmessage : call.env.message libs call.content = some mcon) (hparameters : mcon.parameters ≠ [])
    (halong : Along (step libs) (Acquires libs) (call :: later) c) :
    ∀ other ∈ later, other.index = call.index →
      other.env.message libs other.content = none := by
  obtain ⟨next, hnext, hresult⟩ :=
    setupModuleConfig_spec libs call.env call.index call.content c
  refine no_message_of_array libs ?_ (halong.2 next hnext)
  have havailable := (halong.1 mcon hmessage).2.resolve_left hparameters
  cases hresult with
  | skipped heap hnone =>
    rw [hnone] at hmessage
    contradiction
  | replaced other result hother hcopied =>
    obtain rfl : other = mcon := Option.some.inj (hother.symm.trans hmessage)
    dsimp only
    rw [Function.update_self]
    cases hcopied with
    | noArray heap hnone =>
      rw [havailable.parameters] at hnone
      contradiction
    | rolledBack array => exact Option.some_ne_none array
    | complete array => exact Option.some_ne_none array

/-- The packed configuration of one parameter named `a`, the string `b`. -/
def packedConfig : List UInt8 := [0x0a, 0x06, 0x0a, 0x01, 0x61, 0x2a, 0x01, 0x62]

/-- The libraries as far as this configuration goes. -/
def configLibraries : Libraries :=
  { sampleLibraries packedConfig ⟨[]⟩ with
    moduleConfigUnpack := fun data =>
      if data = packedConfig then some ⟨[⟨[0x61], .stringValue [0x62]⟩]⟩ else none }

/-- The first module parameter is set up with this configuration, and no allocation fails. -/
def configCall : Call := ⟨0, .ofStream (storedStream packedConfig), .ample⟩

/-- When the parameter is set up a second time, the blocks of the first time are lost. -/
theorem ownsExactly_not_always :
    ¬ ∀ (libs : Libraries) (logStatus : UInt32) (calls : List Call),
        (∀ call ∈ calls, (call.env.message libs call.content).isSome = true) →
        ∀ executed, executed <+: calls →
          ∃ c, run (step libs) executed (.boot logStatus) = .ok c ∧ c.OwnsExactly := by
  intro h
  have hdecodable : ∀ call ∈ [configCall, configCall],
      (call.env.message configLibraries call.content).isSome = true := by decide
  have hreached := h configLibraries 0 [configCall, configCall] hdecodable
  obtain ⟨-, ⟨first, hfirst, hexact⟩, hsecond⟩ := reached_iff_along.mp hreached
  obtain ⟨mcon, hmcon⟩ := Option.isSome_iff_exists.mp (hdecodable configCall List.mem_cons_self)
  have hacquires := (staysExact_iff configLibraries hexact configCall).mp (hsecond first hfirst).1
  have hnull : (first.lists 0).parameters = none := (hacquires mcon hmcon).1
  have harray : (step configLibraries (.boot 0) configCall).map
      (fun c => (c.lists 0).parameters.isSome) = .ok true := by decide
  rw [hfirst] at harray
  simp [Except.map, hnull] at harray

end Dipp.Memory
