import Dipp.Config.Entries
import Dipp.Config.Safety

/-!
# Parameters that cannot be decoded

A parameter can be rejected by the Brotli decoder, for want of memory for the decoded
buffer, or by unpacking. Only the last of the three makes a setup call return early. The
other two hand an empty buffer to unpacking, and since zero bytes are a valid encoding of
the empty message, the table entry is overwritten by an empty definition. For a module
parameter this includes a pointer to an array of no bytes, which is another one each time.
-/

namespace Dipp

variable (libs : Libraries) (env : CallEnv)

/-- The Brotli decoder fails on the parameter. -/
def BrotliRejects (param : ParamData) : Prop :=
  isBufferEmpty param.bytes = false ∧
    libs.brotliDecoderDecompress (brotliInput env param) dataParamSize = none

/-- The parameter is decompressed, but there is no memory for the decoded buffer. -/
def AllocationFails (param : ParamData) : Prop :=
  isBufferEmpty param.bytes = false ∧ env.alloc.decoded = false ∧
    ∃ decoded, libs.brotliDecoderDecompress (brotliInput env param) dataParamSize = some decoded

/-- The parameter is decompressed into a buffer that unpacking does not accept. -/
def UnpackRejects {Message : Type} (unpack : List UInt8 → Option Message) (param : ParamData) :
    Prop :=
  isBufferEmpty param.bytes = false ∧ env.alloc.decoded = true ∧
    ∃ decoded, libs.brotliDecoderDecompress (brotliInput env param) dataParamSize = some decoded ∧
      unpack decoded = none

/-- The parameter is rejected at one of the three stages. -/
def Rejected {Message : Type} (unpack : List UInt8 → Option Message) (param : ParamData) : Prop :=
  BrotliRejects libs env param ∨ AllocationFails libs env param ∨
    UnpackRejects libs env unpack param

/-- Among rejected parameters, unpacking fails exactly on those it rejects itself; on the others
it is given no bytes. -/
theorem rejected_contents {Message : Type} {unpack : List UInt8 → Option Message}
    {param : ParamData} (hrejected : Rejected libs env unpack param) :
    (UnpackRejects libs env unpack param ∧ unpack (paramContents libs env param) = none) ∨
      (¬ UnpackRejects libs env unpack param ∧ paramContents libs env param = []) := by
  rcases hrejected with ⟨hbytes, hbrotli⟩ | ⟨hbytes, halloc, decoded, hbrotli⟩ | hunpack
  · right
    refine ⟨?_, by simp [paramContents, hbytes, hbrotli]⟩
    rintro ⟨-, -, decoded, hdecoded, -⟩
    rw [hbrotli] at hdecoded
    contradiction
  · right
    refine ⟨?_, by simp [paramContents, hbytes, hbrotli, halloc]⟩
    rintro ⟨-, hdecoded, -⟩
    rw [halloc] at hdecoded
    contradiction
  · left
    obtain ⟨hbytes, halloc, decoded, hbrotli, hnone⟩ := hunpack
    exact ⟨⟨hbytes, halloc, decoded, hbrotli, hnone⟩,
      by simp [paramContents, hbytes, hbrotli, halloc, hnone]⟩

/-- Installing the empty definition changes nothing exactly if the entry is already empty. -/
theorem installed_empty_eq_iff (k : Fin maxPipelines) (old : Pipeline) :
    installed libs env k ⟨[]⟩ old = old ↔
      old.pipelineId = Int32.ofNat (k + 1) ∧ old.numModules = 0 := by
  obtain ⟨pipelineId, modules, numModules⟩ := old
  simp only [installed, overlay_nil, List.length_nil, Pipeline.mk.injEq, true_and]
  exact ⟨fun h => ⟨h.1.symm, h.2.symm⟩, fun h => ⟨h.1.symm, h.2.symm⟩⟩

/-- A rejected pipeline parameter leaves the tables alone exactly if unpacking rejected it, or the
pipeline was set up and empty before. -/
theorem setupPipeline_rejected (hempty : libs.pipelineDefinitionUnpack [] = some ⟨[]⟩)
    (k : Fin maxPipelines) (c : ConfigState)
    (hrejected : Rejected libs env libs.pipelineDefinitionUnpack (c.pipelineParams k)) :
    ∃ c', setupPipeline libs env k c = .ok c' ∧
      ((c'.pipelines = c.pipelines ∧ c'.moduleParameterLists = c.moduleParameterLists) ↔
        UnpackRejects libs env libs.pipelineDefinitionUnpack (c.pipelineParams k) ∨
          ((c.pipelines k).pipelineId = Int32.ofNat (k + 1) ∧ (c.pipelines k).numModules = 0)) := by
  obtain ⟨log, hsetup⟩ := setupPipeline_eq libs env k c
  rcases rejected_contents libs env hrejected with ⟨hunpack, hnone⟩ | ⟨hother, hnil⟩
  · rw [pipelineMessage, hnone, slotAfter] at hsetup
    refine ⟨_, hsetup, ?_⟩
    simp only [Function.update_eq_self, hunpack, true_or, and_self]
  · simp only [pipelineMessage, hnil, hempty, slotAfter, List.length_nil, Nat.zero_le,
      if_true] at hsetup
    refine ⟨_, hsetup, ?_⟩
    simp only [hother, false_or, and_true, Function.update_eq_self_iff]
    exact installed_empty_eq_iff libs env k (c.pipelines k)

namespace Memory

open Heap

variable {libs : Libraries}

/-- The table is as it was: it has the same pointers, and what was live is unchanged. -/
structure State.SameTable (c c' : State) : Prop where
  lists : c'.lists = c.lists
  frame : ∀ a ∈ c.heap, c'.heap.lookup a = c.heap.lookup a

/-- An entry without parameters is null or leads to a live array. -/
def State.EmptyLive (c : State) : Prop :=
  ∀ j a, c.lists j = ⟨0, some a⟩ → a ∈ c.heap

/-- A setup call keeps the arrays of such entries. -/
theorem SetupResult.emptyLive {env : Env} {j : Fin maxModules} {content : ParamData}
    {c c' : State} (h : SetupResult libs env j content c c') (hc : c.EmptyLive) :
    c'.EmptyLive := by
  intro i a hentry
  cases h with
  | skipped heap' hmessage hextends => exact (hextends.mem_iff a).mpr (.inl (hc i a hentry))
  | replaced mcon result hmessage hresult =>
    by_cases hi : i = j
    · subst hi
      dsimp only at hentry ⊢
      rw [Function.update_self] at hentry
      obtain ⟨hlength, harray⟩ := ParameterList.mk.inj hentry
      cases hresult with
      | noArray => contradiction
      | rolledBack array keys heap' hparameters hparameter =>
        obtain ⟨k, hk, -⟩ := hparameter
        omega
      | complete array cells heap' hparameters hparameter hcells hextends hfilled =>
        obtain rfl : array = a := Option.some.inj harray
        exact hextends.live (List.mem_append_right _ (List.mem_singleton_self array))
    · dsimp only at hentry ⊢
      rw [Function.update_of_ne hi] at hentry
      obtain ⟨own, hextends⟩ := hresult.extends
      exact (hextends.mem_iff a).mpr (.inl (hc i a hentry))

/-- In every reachable state, the entries without parameters are of this kind. -/
theorem run_emptyLive {calls : List Call} {logStatus : UInt32} {c : State}
    (h : Execution.run (step libs) calls (.boot logStatus) = .ok c) : c.EmptyLive := by
  refine Execution.run_invariant State.EmptyLive ?_ calls _ c ?_ h
  · intro c call next hc hstep
    obtain ⟨c', hc', hresult⟩ := setupModuleConfig_spec libs call.env call.index call.content c
    obtain rfl : c' = next := Except.ok.inj (hc'.symm.trans hstep)
    exact hresult.emptyLive hc
  · intro j a hentry
    exact absurd (congrArg ParameterList.parameters hentry) (Option.some_ne_none a).symm

/-- From a rejected parameter no message is unpacked, or the empty one. -/
theorem Env.message_rejected (hempty : libs.moduleConfigUnpack [] = some ⟨[]⟩) (env : Env)
    {content : ParamData}
    (hrejected : Rejected libs env.toCallEnv libs.moduleConfigUnpack content) :
    ((UnpackRejects libs env.toCallEnv libs.moduleConfigUnpack content ∨ env.unpacked = false) ∧
        env.message libs content = none) ∨
      (¬ (UnpackRejects libs env.toCallEnv libs.moduleConfigUnpack content ∨
          env.unpacked = false) ∧ env.message libs content = some ⟨[]⟩) := by
  cases hunpacked : env.unpacked with
  | false => exact .inl ⟨.inr rfl, if_neg (by simp [hunpacked])⟩
  | true =>
    have hmessage : env.message libs content =
        libs.moduleConfigUnpack (paramContents libs env.toCallEnv content) := if_pos hunpacked
    rw [hmessage]
    rcases rejected_contents libs env.toCallEnv hrejected with ⟨hunpack, hnone⟩ | ⟨hother, hnil⟩
    · exact .inl ⟨.inl hunpack, hnone⟩
    · exact .inr ⟨not_or.mpr ⟨hother, Bool.noConfusion⟩, by rw [hnil, hempty]⟩

/-- A rejected module parameter leaves the table alone exactly if no message is unpacked, or if the
entry is null and its new array cannot be allocated. -/
theorem setupModuleConfig_rejected (hempty : libs.moduleConfigUnpack [] = some ⟨[]⟩) (env : Env)
    {c : State} (hc : c.EmptyLive) (j : Fin maxModules) {content : ParamData}
    (hrejected : Rejected libs env.toCallEnv libs.moduleConfigUnpack content) :
    ∃ c', setupModuleConfig libs env j content c = .ok c' ∧
      (c.SameTable c' ↔ (UnpackRejects libs env.toCallEnv libs.moduleConfigUnpack content ∨
        env.unpacked = false) ∨ (env.alloc.parameters = false ∧ c.lists j = ⟨0, none⟩)) := by
  obtain ⟨c', hsetup, hresult⟩ := setupModuleConfig_spec libs env j content c
  refine ⟨c', hsetup, ?_⟩
  rcases env.message_rejected hempty hrejected with ⟨hskipped, hnone⟩ | ⟨hother, hsome⟩
  · cases hresult with
    | skipped heap' hmessage hextends =>
      exact iff_of_true ⟨rfl, hextends.frame⟩ (.inl hskipped)
    | replaced mcon result hmessage =>
      rw [hnone] at hmessage
      contradiction
  · cases hresult with
    | skipped heap' hmessage =>
      rw [hsome] at hmessage
      contradiction
    | replaced mcon result hmessage hresult =>
      obtain rfl := Option.some.inj (hsome.symm.trans hmessage)
      rw [or_iff_right hother]
      cases hresult with
      | noArray heap' hparameters hextends =>
        rw [and_iff_right hparameters]
        constructor
        · intro hsame
          exact (Function.update_eq_self_iff.mp hsame.lists).symm
        · intro hentry
          exact ⟨Function.update_eq_self_iff.mpr hentry.symm, hextends.frame⟩
      | rolledBack array keys heap' hparameters hparameter =>
        obtain ⟨k, hk, -⟩ := hparameter
        exact absurd hk (Nat.not_lt_zero k)
      | complete array cells heap' hparameters hparameter hcells hextends hfilled =>
        -- the array is new, but that of an entry without parameters would be live
        refine iff_of_false (fun hsame => ?_) fun hboth => ?_
        · have hentry : c.lists j = ⟨0, some array⟩ :=
            (Function.update_eq_self_iff.mp hsame.lists).symm
          exact hextends.fresh array (List.mem_append_right _ (List.mem_singleton_self array))
            (hc j array hentry)
        · rw [hparameters] at hboth
          exact Bool.noConfusion hboth.1

end Memory

/-- Exactly which rejected parameters are skipped. A pipeline parameter: if unpacking rejects it, or
the entry is already that of the empty definition. A module parameter, in every state that setup
calls reach: if nothing is unpacked from it, or the entry is null and there is no memory for an
array of no bytes; the pipelines it leaves alone in any case. -/
theorem rejected_skipped_iff (hpipeline : libs.pipelineDefinitionUnpack [] = some ⟨[]⟩)
    (hmodule : libs.moduleConfigUnpack [] = some ⟨[]⟩) :
    (∀ (env : CallEnv) (c : ConfigState) (k : Fin maxPipelines),
      Rejected libs env libs.pipelineDefinitionUnpack (c.pipelineParams k) →
      ∃ c', setupPipeline libs env k c = .ok c' ∧
        ((c'.pipelines = c.pipelines ∧ c'.moduleParameterLists = c.moduleParameterLists) ↔
          UnpackRejects libs env libs.pipelineDefinitionUnpack (c.pipelineParams k) ∨
            ((c.pipelines k).pipelineId = Int32.ofNat (k + 1) ∧
              (c.pipelines k).numModules = 0))) ∧
    (∀ (env : CallEnv) (c : ConfigState) (j : Fin maxModules),
      (setupModuleConfig libs env j c).pipelines = c.pipelines) ∧
    ∀ (env : Memory.Env) (calls : List Memory.Call) (logStatus : UInt32) (c : Memory.State),
      Execution.run (Memory.step libs) calls (.boot logStatus) = .ok c →
      ∀ (j : Fin maxModules) (content : ParamData),
        Rejected libs env.toCallEnv libs.moduleConfigUnpack content →
        ∃ c', Memory.setupModuleConfig libs env j content c = .ok c' ∧
          (c.SameTable c' ↔
            (UnpackRejects libs env.toCallEnv libs.moduleConfigUnpack content ∨
              env.unpacked = false) ∨
                (env.alloc.parameters = false ∧ c.lists j = ⟨0, none⟩)) := by
  refine ⟨fun env c k => setupPipeline_rejected libs env hpipeline k c, fun env c j => ?_, ?_⟩
  · obtain ⟨log, hsetup⟩ := setupModuleConfig_eq libs env j c
    rw [hsetup]
  · intro env calls logStatus c hrun j content hrejected
    exact Memory.setupModuleConfig_rejected hmodule env (Memory.run_emptyLive hrun) j hrejected

/-- A parameter that claims one byte of stream and holds an incomplete one. -/
def truncatedParam : ParamData := .ofStream [0x00]

/-- A configured first pipeline whose stored definition was then overwritten. -/
def configuredThenTruncated : ConfigState :=
  { ConfigState.boot (fun _ => truncatedParam) (fun _ => .zero) 0 with
    pipelines := fun _ => ⟨1, fun _ => ⟨some [0x61], some ⟨0x1000⟩, 0⟩, 1⟩
    isSetup := true }

/-- In that state the setup call does not leave the tables alone. Nor does a setup call of a module
parameter that finds its entry set up and empty: the array is another one. -/
theorem rejected_skipped_iff_truncated :
    (∃ c', setupPipeline (sampleLibraries packedWithoutParamId ⟨[⟨[0x61], 0⟩]⟩) .ample 0
        configuredThenTruncated = .ok c' ∧
      ¬ (c'.pipelines = configuredThenTruncated.pipelines ∧
        c'.moduleParameterLists = configuredThenTruncated.moduleParameterLists)) ∧
    ∃ c c', Memory.step (sampleLibraries packedWithoutParamId ⟨[⟨[0x61], 0⟩]⟩) (.boot 0)
        ⟨0, truncatedParam, .ample⟩ = .ok c ∧ c.lists 0 = ⟨0, some 2⟩ ∧
      Memory.setupModuleConfig (sampleLibraries packedWithoutParamId ⟨[⟨[0x61], 0⟩]⟩) .ample 0
        truncatedParam c = .ok c' ∧ ¬ c.SameTable c' := by
  obtain ⟨hpipelines, -, hmodules⟩ := rejected_skipped_iff
    (sampleLibraries packedWithoutParamId ⟨[⟨[0x61], 0⟩]⟩) (by decide) (by decide)
  have hbrotli : (sampleLibraries packedWithoutParamId
      ⟨[⟨[0x61], 0⟩]⟩).brotliDecoderDecompress (brotliInput .ample truncatedParam)
        dataParamSize = none := by decide
  constructor
  · obtain ⟨c', hsetup, hiff⟩ :=
      hpipelines .ample configuredThenTruncated 0 (Or.inl ⟨by decide, by decide⟩)
    refine ⟨c', hsetup, fun hsame => ?_⟩
    rcases hiff.mp hsame with ⟨-, -, decoded, hdecoded, -⟩ | ⟨-, hcount⟩
    · have hnone := hbrotli.symm.trans hdecoded
      contradiction
    · exact absurd hcount (by decide)
  · obtain ⟨c, hstep, hentry⟩ : ∃ c, Memory.step (sampleLibraries packedWithoutParamId
        ⟨[⟨[0x61], 0⟩]⟩) (.boot 0) ⟨0, truncatedParam, .ample⟩ = .ok c ∧
          c.lists 0 = ⟨0, some 2⟩ := ⟨_, rfl, rfl⟩
    obtain ⟨c', hsetup, hiff⟩ := hmodules .ample [⟨0, truncatedParam, .ample⟩] 0 c hstep 0
      truncatedParam (Or.inl ⟨by decide, hbrotli⟩)
    refine ⟨c, c', hstep, hentry, hsetup, fun hsame => ?_⟩
    rcases hiff.mp hsame with (⟨-, -, decoded, hdecoded, -⟩ | hunpacked) | ⟨hparameters, -⟩
    · have hnone := hbrotli.symm.trans hdecoded
      contradiction
    · contradiction
    · contradiction

/-- The undecodable content empties the pipeline that was configured. -/
theorem rejected_not_always_skipped :
    ¬ ∀ (libs : Libraries) (env : CallEnv) (c : ConfigState) (k : Fin maxPipelines),
        libs.pipelineDefinitionUnpack [] = some ⟨[]⟩ →
        Rejected libs env libs.pipelineDefinitionUnpack (c.pipelineParams k) →
        ∃ c', setupPipeline libs env k c = .ok c' ∧ c'.pipelines = c.pipelines ∧
          c'.moduleParameterLists = c.moduleParameterLists := by
  intro h
  obtain ⟨c', hsetup, hpipelines, -⟩ := h
    (sampleLibraries packedWithoutParamId ⟨[⟨[0x61], 0⟩]⟩) .ample configuredThenTruncated 0
    (by decide) (Or.inl ⟨by decide, by decide⟩)
  have hentry : (setupPipeline (sampleLibraries packedWithoutParamId ⟨[⟨[0x61], 0⟩]⟩) .ample 0
      configuredThenTruncated).map (fun c => (c.pipelines 0).numModules) = .ok 0 := rfl
  rw [hsetup] at hentry
  have hcount : (c'.pipelines 0).numModules = 0 := Except.ok.inj hentry
  rw [hpipelines] at hcount
  exact absurd hcount (by decide)

end Dipp
