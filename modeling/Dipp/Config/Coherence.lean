import Dipp.Config.Safety
import Dipp.Library.WriteThrough

/-!
# The cached configuration is the stored configuration

Seen through the entries in use, the tables are write-through views of the stored
parameters with a lazy rebuild: a write is a store followed by its callback, the rebuild
is the synchronization, and `is_setup` is the flag. The abstract coherence of that
machine then says what every reader of the tables needs: once the cache is set up, each
entry shows the definition stored in its parameter.
-/

namespace Dipp

variable (libs : Libraries)

/-- The bytes a content decodes to, wherever the local copy of it lies. -/
def Payload (param : ParamData) (payload : List UInt8) : Prop :=
  (isBufferEmpty param.bytes = true ∧ payload = []) ∨
    (isBufferEmpty param.bytes = false ∧ ∀ env : CallEnv,
      libs.brotliDecoderDecompress (brotliInput env param) dataParamSize = some payload)

/-- The content is decoded and unpacked to this message. -/
def Decodes {Message : Type} (unpack : List UInt8 → Option Message) (param : ParamData)
    (message : Message) : Prop :=
  ∃ payload, Payload libs param payload ∧ unpack payload = some message

/-- The cached entry of a module that was loaded under its name. -/
def cachedModule (mdef : ModuleDefinition) : Module :=
  ⟨some mdef.name, moduleFunctionOf libs mdef.name, mdef.paramId - 1⟩

/-- The union member that a value is stored in. -/
def ParameterValue.stored : ParameterValue → StoredValue
  | .notSet => .uninitialized
  | .boolValue value => .boolValue value
  | .intValue value => .intValue value
  | .floatValue bits => .floatValue bits
  | .stringValue value => .stringValue (some value)

/-- The cached copy of a configuration parameter. -/
def cachedParameter (parameter : ConfigParameter) : ModuleParameter :=
  ⟨some parameter.key, parameter.value.valueCase, parameter.value.stored⟩

/-- The pipeline shows the definition: its id, its length, and its modules in order. -/
def Pipeline.Shows (k : Fin maxPipelines) (pdef : PipelineDefinition) (pipeline : Pipeline) :
    Prop :=
  pipeline.pipelineId = Int32.ofNat (k + 1) ∧ pipeline.numModules = pdef.modules.length ∧
    pipeline.live = pdef.modules.map (cachedModule libs)

/-- The list shows the configuration: its parameters, in order. -/
def ModuleParameterList.Shows (mcon : ModuleConfig) (list : ModuleParameterList) : Prop :=
  list = ⟨mcon.parameters.length, .array (mcon.parameters.map cachedParameter)⟩

/-- With memory available, a content reaches unpacking as the bytes it decodes to. -/
theorem paramContents_of_payload {env : CallEnv} (halloc : env.alloc.Succeeds)
    {param : ParamData} {payload : List UInt8} (h : Payload libs param payload) :
    paramContents libs env param = payload := by
  rcases h with ⟨hempty, rfl⟩ | ⟨hbytes, hbrotli⟩
  · simp [paramContents, hempty]
  · simp [paramContents, hbytes, hbrotli env, halloc.decoded]

/-- A definition that decodes and fits is installed completely. -/
theorem installed_shows {env : CallEnv} (halloc : env.alloc.Succeeds) (k : Fin maxPipelines)
    (pdef : PipelineDefinition) (old : Pipeline) (hroom : pdef.modules.length ≤ maxModules) :
    (installed libs env k pdef old).Shows libs k pdef := by
  refine ⟨rfl, rfl, ?_⟩
  rw [installed_live libs env k pdef old hroom]
  apply List.ext_getElem
  · simp
  · intro i hleft hright
    simp [moduleEntry, cachedModule, strdup, halloc.copy]

/-- The setup of a slot whose content decodes leaves an entry that shows the definition. -/
theorem slotAfter_shows {env : CallEnv} (halloc : env.alloc.Succeeds) (k : Fin maxPipelines)
    {param : ParamData} {pdef : PipelineDefinition} {old entry : Pipeline}
    (hdecodes : Decodes libs libs.pipelineDefinitionUnpack param pdef)
    (h : slotAfter libs env k (pipelineMessage libs env param) old = .ok entry) :
    entry.Shows libs k pdef := by
  obtain ⟨payload, hpayload, hunpack⟩ := hdecodes
  rw [pipelineMessage, paramContents_of_payload libs halloc hpayload, hunpack, slotAfter] at h
  by_cases hroom : pdef.modules.length ≤ maxModules
  · rw [if_pos hroom] at h
    exact Except.ok.inj h ▸ installed_shows libs halloc k pdef old hroom
  · rw [if_neg hroom] at h
    contradiction

/-- With memory available, all parameters are copied. -/
theorem copyParameters_succeeds {alloc : Allocator} (halloc : alloc.Succeeds)
    (parameters : List ConfigParameter) (i : ℕ) :
    copyParameters alloc i parameters = some (parameters.map cachedParameter) := by
  induction parameters generalizing i with
  | nil => rfl
  | cons parameter rest ih =>
    have hvalue : storeValue alloc i parameter.value = parameter.value.stored := by
      cases parameter.value <;> simp [storeValue, ParameterValue.stored, strdup, halloc.text]
    rw [copyParameters, if_pos (halloc.parameter i), ih, hvalue]
    simp [cachedParameter, strdup, halloc.copy]

/-- The setup of a list whose content decodes leaves an entry that shows the configuration. -/
theorem listAfter_shows {env : CallEnv} (halloc : env.alloc.Succeeds) {param : ParamData}
    {mcon : ModuleConfig} (old : ModuleParameterList)
    (hdecodes : Decodes libs libs.moduleConfigUnpack param mcon) :
    (listAfter env (moduleMessage libs env param) old).Shows mcon := by
  obtain ⟨payload, hpayload, hunpack⟩ := hdecodes
  rw [moduleMessage, paramContents_of_payload libs halloc hpayload, hunpack]
  simp [listAfter, halloc.parameters, copyParameters_succeeds halloc, ModuleParameterList.Shows]

/-- A parameter of either kind. -/
inductive Slot where
  | pipeline (k : Fin maxPipelines)
  | module (j : Fin maxModules)
  deriving DecidableEq

/-- What a reader sees of a table entry. -/
inductive SlotView where
  | pipeline (pipelineId : Int32) (numModules : ℕ) (live : List Module)
  | module (list : ModuleParameterList)

/-- What a reader sees of a pipeline entry. -/
def Pipeline.slotView (pipeline : Pipeline) : SlotView :=
  .pipeline pipeline.pipelineId pipeline.numModules pipeline.live

/-- The stored content of a slot. -/
def ConfigState.storeOf (c : ConfigState) : Slot → ParamData
  | .pipeline k => c.pipelineParams k
  | .module j => c.moduleParams j

/-- The part of a table entry that readers see. -/
def ConfigState.viewOf (c : ConfigState) : Slot → SlotView
  | .pipeline k => (c.pipelines k).slotView
  | .module j => .module (c.moduleParameterLists j)

/-- The configuration as a write-through store. -/
def ConfigState.abstract (c : ConfigState) : WriteThrough.State Slot ParamData SlotView :=
  ⟨c.storeOf, c.viewOf, c.isSetup⟩

/-- A view shows every message its content decodes to. -/
def slotShows : Slot → ParamData → SlotView → Prop
  | .pipeline k, param, view => ∀ pdef, Decodes libs libs.pipelineDefinitionUnpack param pdef →
      ∃ pipeline : Pipeline, view = pipeline.slotView ∧ pipeline.Shows libs k pdef
  | .module _, param, view => ∀ mcon, Decodes libs libs.moduleConfigUnpack param mcon →
      ∃ list, view = .module list ∧ list.Shows mcon

/-- An operator's view of the configuration: a write runs the callback after the store. -/
inductive Command where
  | writePipeline (k : Fin maxPipelines) (content : ParamData) (env : CallEnv)
  | writeModule (j : Fin maxModules) (content : ParamData) (env : CallEnv)
  | setupCacheIfNeeded (env : RebuildEnv)
  | invalidateCache

/-- The operations a command consists of. -/
def Command.ops : Command → List ConfigOp
  | .writePipeline k content env => [.storePipeline k content, .setupPipeline k env]
  | .writeModule j content env => [.storeModule j content, .setupModuleConfig j env]
  | .setupCacheIfNeeded env => [.setupCacheIfNeeded env]
  | .invalidateCache => [.invalidateCache]

/-- The allocations of a rebuild succeed. -/
def RebuildEnv.Succeeds (env : RebuildEnv) : Prop :=
  (∀ k, (env.pipeline k).alloc.Succeeds) ∧ ∀ j, (env.module j).alloc.Succeeds

/-- The allocations of a command succeed. -/
def Command.Allocates : Command → Prop
  | .writePipeline _ _ env => env.alloc.Succeeds
  | .writeModule _ _ env => env.alloc.Succeeds
  | .setupCacheIfNeeded env => env.Succeeds
  | .invalidateCache => True

/-- Perform a command. -/
def commandStep (c : ConfigState) (command : Command) : Except Stop ConfigState :=
  Execution.run (configStep libs) command.ops c

/-- Storing a pipeline parameter and replacing its entry is a write of the abstract store. -/
theorem abstract_writePipeline (c : ConfigState) (k : Fin maxPipelines) (content : ParamData)
    (entry : Pipeline) (err : ErrorState) :
    ConfigState.abstract { c with
      pipelineParams := Function.update c.pipelineParams k content
      pipelines := Function.update c.pipelines k entry
      err := err } =
    WriteThrough.step c.abstract
      (.write (.pipeline k) content entry.slotView) := by
  simp only [ConfigState.abstract, WriteThrough.step, WriteThrough.State.mk.injEq, and_true]
  constructor
  · funext slot
    cases slot with
    | pipeline k' => by_cases hk : k' = k <;> simp [ConfigState.storeOf, hk]
    | module j => simp [ConfigState.storeOf]
  · funext slot
    cases slot with
    | pipeline k' => by_cases hk : k' = k <;> simp [ConfigState.viewOf, hk]
    | module j => simp [ConfigState.viewOf]

/-- Storing a module parameter and replacing its list is a write of the abstract store. -/
theorem abstract_writeModule (c : ConfigState) (j : Fin maxModules) (content : ParamData)
    (list : ModuleParameterList) (err : ErrorState) :
    ConfigState.abstract { c with
      moduleParams := Function.update c.moduleParams j content
      moduleParameterLists := Function.update c.moduleParameterLists j list
      err := err } =
    WriteThrough.step c.abstract (.write (.module j) content (.module list)) := by
  simp only [ConfigState.abstract, WriteThrough.step, WriteThrough.State.mk.injEq, and_true]
  constructor
  · funext slot
    cases slot with
    | pipeline k => simp [ConfigState.storeOf]
    | module j' => by_cases hj : j' = j <;> simp [ConfigState.storeOf, hj]
  · funext slot
    cases slot with
    | pipeline k => simp [ConfigState.viewOf]
    | module j' => by_cases hj : j' = j <;> simp [ConfigState.viewOf, hj]

/-- A command is an operation of the write-through store, with the views of its contents. -/
theorem commandStep_refines (c c' : ConfigState) (command : Command)
    (halloc : command.Allocates) (h : commandStep libs c command = .ok c') :
    ∃ op : WriteThrough.Op Slot ParamData SlotView, op.Faithful (slotShows libs) c.abstract ∧
      c'.abstract = WriteThrough.step c.abstract op := by
  cases command with
  | writePipeline k content env =>
    obtain ⟨stored, hstored, h⟩ := Execution.run_cons_eq_ok h
    obtain rfl := Except.ok.inj hstored
    obtain ⟨last, hlast, h⟩ := Execution.run_cons_eq_ok h
    obtain rfl := Except.ok.inj h
    obtain ⟨log, heq⟩ := setupPipeline_eq libs env k
      { c with pipelineParams := Function.update c.pipelineParams k content }
    dsimp only at heq
    rw [configStep, heq, Function.update_self] at hlast
    cases hslot : slotAfter libs env k (pipelineMessage libs env content) (c.pipelines k) with
    | error stop => rw [hslot] at hlast; contradiction
    | ok entry =>
      rw [hslot] at hlast
      obtain rfl := Except.ok.inj hlast
      exact ⟨.write (.pipeline k) content entry.slotView,
        fun pdef hdecodes => ⟨entry, rfl, slotAfter_shows libs halloc k hdecodes hslot⟩,
        abstract_writePipeline c k content entry _⟩
  | writeModule j content env =>
    obtain ⟨stored, hstored, h⟩ := Execution.run_cons_eq_ok h
    obtain rfl := Except.ok.inj hstored
    obtain ⟨last, hlast, h⟩ := Execution.run_cons_eq_ok h
    obtain rfl := Except.ok.inj h
    obtain ⟨log, heq⟩ := setupModuleConfig_eq libs env j
      { c with moduleParams := Function.update c.moduleParams j content }
    dsimp only at heq
    rw [configStep, heq, Function.update_self] at hlast
    obtain rfl := Except.ok.inj hlast
    exact ⟨.write (.module j) content _,
      fun mcon hdecodes => ⟨_, rfl, listAfter_shows libs halloc _ hdecodes⟩,
      abstract_writeModule c j content _ _⟩
  | setupCacheIfNeeded env =>
    obtain ⟨last, hlast, h⟩ := Execution.run_cons_eq_ok h
    obtain rfl := Except.ok.inj h
    cases hsetup : c.isSetup with
    | true =>
      rw [configStep, setupCacheIfNeeded, hsetup] at hlast
      obtain rfl := Except.ok.inj hlast
      refine ⟨.sync c.viewOf, ?_, (WriteThrough.step_sync_of_fresh c.abstract _ hsetup).symm⟩
      intro hstale
      exact absurd hsetup (by rw [show c.isSetup = false from hstale]; decide)
    | false =>
      obtain ⟨entry, log, rfl, hentry⟩ := setupCacheIfNeeded_sound libs env c last hsetup hlast
      refine ⟨.sync (ConfigState.viewOf _), ?_,
        (WriteThrough.step_sync_of_stale c.abstract _ hsetup).symm⟩
      intro _ slot
      cases slot with
      | pipeline k =>
        intro pdef hdecodes
        exact ⟨entry k, rfl, slotAfter_shows libs (halloc.1 k) k hdecodes (hentry k)⟩
      | module j =>
        intro mcon hdecodes
        exact ⟨_, rfl, listAfter_shows libs (halloc.2 j) _ hdecodes⟩
  | invalidateCache =>
    obtain ⟨last, hlast, h⟩ := Execution.run_cons_eq_ok h
    obtain rfl := Except.ok.inj h
    obtain rfl := Except.ok.inj hlast
    exact ⟨.invalidate, trivial, rfl⟩

/-- A pipeline parameter holds a definition that fits the module array. -/
def HoldsDefinition (param : ParamData) : Prop :=
  ∃ pdef, Decodes libs libs.pipelineDefinitionUnpack param pdef ∧ pdef.modules.length ≤ maxModules

/-- A module parameter holds a configuration. -/
def HoldsConfig (param : ParamData) : Prop :=
  ∃ mcon, Decodes libs libs.moduleConfigUnpack param mcon

/-- Every stored parameter can be decoded. -/
def ConfigState.Decodable (c : ConfigState) : Prop :=
  (∀ k, HoldsDefinition libs (c.pipelineParams k)) ∧ ∀ j, HoldsConfig libs (c.moduleParams j)

/-- The command writes contents that can be decoded, and its allocations succeed. -/
def Command.Admissible (command : Command) : Prop :=
  command.Allocates ∧
    match command with
    | .writePipeline _ content _ => HoldsDefinition libs content
    | .writeModule _ content _ => HoldsConfig libs content
    | _ => True

/-- There is room for the definition that a decodable parameter delivers. -/
theorem HoldsDefinition.room {env : CallEnv} (halloc : env.alloc.Succeeds) {param : ParamData}
    (hholds : HoldsDefinition libs param) {pdef : PipelineDefinition}
    (h : pipelineMessage libs env param = some pdef) : pdef.modules.length ≤ maxModules := by
  obtain ⟨stored, ⟨payload, hpayload, hunpack⟩, hroom⟩ := hholds
  rw [pipelineMessage, paramContents_of_payload libs halloc hpayload, hunpack] at h
  exact Option.some.inj h ▸ hroom

/-- The definitions that an admissible command decodes fit the module array. -/
theorem command_room (c : ConfigState) (command : Command) (hc : c.Decodable libs)
    (hadmissible : command.Admissible libs) (k : Fin maxPipelines) (pdef : PipelineDefinition)
    (hpdef : pdef ∈ definitions libs k command.ops c.pipelineParams c.isSetup) :
    pdef.modules.length ≤ maxModules := by
  obtain ⟨halloc, hcontent⟩ := hadmissible
  obtain ⟨call, hcall, hmessage⟩ := (mem_definitions libs).mp hpdef
  cases command with
  | writePipeline k' content env =>
    by_cases hk : k' = k
    · subst hk
      simp only [Command.ops, runCalls, slotCalls, paramsAfter, Function.update_self, if_true,
        List.nil_append, List.append_nil, List.mem_singleton] at hcall
      subst hcall
      exact HoldsDefinition.room libs halloc hcontent hmessage
    · simp [Command.ops, runCalls, slotCalls, hk] at hcall
  | writeModule j content env => simp [Command.ops, runCalls, slotCalls] at hcall
  | setupCacheIfNeeded env =>
    cases hsetup : c.isSetup with
    | true => simp [Command.ops, runCalls, slotCalls, hsetup] at hcall
    | false =>
      simp only [Command.ops, runCalls, slotCalls, hsetup, Bool.false_eq_true, if_false,
        List.append_nil, List.mem_singleton] at hcall
      subst hcall
      exact HoldsDefinition.room libs (halloc.1 k) (hc.1 k) hmessage
  | invalidateCache => simp [Command.ops, runCalls, slotCalls] at hcall

/-- An admissible command leaves every parameter decodable. -/
theorem command_decodable (c c' : ConfigState) (command : Command) (hc : c.Decodable libs)
    (hadmissible : command.Admissible libs) (h : commandStep libs c command = .ok c') :
    c'.Decodable libs := by
  obtain ⟨hpipelines, -, -, -⟩ := run_sound libs command.ops c c' h
  have hmodules := run_moduleParams libs command.ops c c' h
  cases command with
  | writePipeline k content env =>
    refine ⟨fun k' => ?_, fun j => hmodules ▸ hc.2 j⟩
    rw [hpipelines]
    by_cases hk : k' = k
    · subst hk
      simpa [Command.ops, paramsAfter] using hadmissible.2
    · simpa [Command.ops, paramsAfter, hk] using hc.1 k'
  | writeModule j content env =>
    refine ⟨fun k => hpipelines ▸ hc.1 k, fun j' => ?_⟩
    rw [hmodules]
    by_cases hj : j' = j
    · subst hj
      simpa [Command.ops, moduleParamsAfter] using hadmissible.2
    · simpa [Command.ops, moduleParamsAfter, hj] using hc.2 j'
  | setupCacheIfNeeded env => exact ⟨fun k => hpipelines ▸ hc.1 k, fun j => hmodules ▸ hc.2 j⟩
  | invalidateCache => exact ⟨fun k => hpipelines ▸ hc.1 k, fun j => hmodules ▸ hc.2 j⟩

/-- Every parameter is decodable, and the cache is coherent with the storage. -/
structure ConfigState.Consistent (c : ConfigState) : Prop where
  decodable : c.Decodable libs
  coherent : WriteThrough.Coherent (slotShows libs) c.abstract

/-- An admissible command goes through and keeps the configuration consistent. -/
theorem commandStep_consistent (c : ConfigState) (command : Command) (hc : c.Consistent libs)
    (hadmissible : command.Admissible libs) :
    ∃ c', commandStep libs c command = .ok c' ∧ c'.Consistent libs := by
  obtain ⟨c', hc'⟩ := run_succeeds libs command.ops c
    (command_room libs c command hc.decodable hadmissible)
  refine ⟨c', hc', command_decodable libs c c' command hc.decodable hadmissible hc', ?_⟩
  obtain ⟨op, hfaithful, hop⟩ := commandStep_refines libs c c' command hadmissible.1 hc'
  rw [hop]
  exact WriteThrough.coherent_step c.abstract op hc.coherent hfaithful

/-- Every entry shows the message that its stored parameter decodes to. -/
def ConfigState.ShowsStorage (c : ConfigState) : Prop :=
  (∀ k, ∃ pdef, Decodes libs libs.pipelineDefinitionUnpack (c.pipelineParams k) pdef ∧
      pdef.modules.length ≤ maxModules ∧ (c.pipelines k).Shows libs k pdef) ∧
    ∀ j, ∃ mcon, Decodes libs libs.moduleConfigUnpack (c.moduleParams j) mcon ∧
      (c.moduleParameterLists j).Shows mcon

/-- Readers of the tables cannot tell the two configurations apart. -/
def ConfigState.SameCache (c c' : ConfigState) : Prop :=
  ∀ slot, c.viewOf slot = c'.viewOf slot

/-- In a consistent configuration that is set up, every entry shows its parameter. -/
theorem ConfigState.Consistent.showsStorage {c : ConfigState} (hc : c.Consistent libs)
    (hsetup : c.isSetup = true) : c.ShowsStorage libs := by
  constructor
  · intro k
    obtain ⟨pdef, hdecodes, hroom⟩ := hc.decodable.1 k
    obtain ⟨pipeline, hview, hid, hcount, hlive⟩ := hc.coherent hsetup (.pipeline k) pdef hdecodes
    obtain ⟨hid', hcount', hlive'⟩ := SlotView.pipeline.inj hview
    exact ⟨pdef, hdecodes, hroom, hid'.trans hid, hcount'.trans hcount, hlive'.trans hlive⟩
  · intro j
    obtain ⟨mcon, hdecodes⟩ := hc.decodable.2 j
    obtain ⟨list, hview, hlist⟩ := hc.coherent hsetup (.module j) mcon hdecodes
    exact ⟨mcon, hdecodes, SlotView.module.inj hview ▸ hlist⟩

/-- A content decodes to one message only. -/
theorem Decodes.unique {Message : Type} {unpack : List UInt8 → Option Message}
    {param : ParamData} {first second : Message} (hfirst : Decodes libs unpack param first)
    (hsecond : Decodes libs unpack param second) : first = second := by
  obtain ⟨payload, hpayload, hunpack⟩ := hfirst
  obtain ⟨payload', hpayload', hunpack'⟩ := hsecond
  have hcontents := paramContents_of_payload libs CallEnv.ample_succeeds hpayload
  rw [paramContents_of_payload libs CallEnv.ample_succeeds hpayload'] at hcontents
  rw [← hcontents, hunpack'] at hunpack
  exact (Option.some.inj hunpack).symm

/-- A parameter of zero bytes decodes to what no bytes at all are unpacked to. -/
theorem decodes_of_empty {Message : Type} {unpack : List UInt8 → Option Message}
    {param : ParamData} {message : Message} (hempty : isBufferEmpty param.bytes = true)
    (hunpack : unpack [] = some message) : Decodes libs unpack param message :=
  ⟨[], Or.inl ⟨hempty, rfl⟩, hunpack⟩

/-- Two configurations that show the same storage look the same to readers. -/
theorem ConfigState.ShowsStorage.sameCache {c c' : ConfigState} (hc : c.ShowsStorage libs)
    (hc' : c'.ShowsStorage libs) (hpipelines : c'.pipelineParams = c.pipelineParams)
    (hmodules : c'.moduleParams = c.moduleParams) : c.SameCache c' := by
  intro slot
  cases slot with
  | pipeline k =>
    obtain ⟨pdef, hdecodes, -, hid, hcount, hlive⟩ := hc.1 k
    obtain ⟨pdef', hdecodes', -, hid', hcount', hlive'⟩ := hc'.1 k
    rw [hpipelines] at hdecodes'
    obtain rfl := hdecodes.unique libs hdecodes'
    simp only [ConfigState.viewOf, Pipeline.slotView, hid, hid', hcount, hcount', hlive, hlive']
  | module j =>
    obtain ⟨mcon, hdecodes, hlist⟩ := hc.2 j
    obtain ⟨mcon', hdecodes', hlist'⟩ := hc'.2 j
    rw [hmodules] at hdecodes'
    obtain rfl := hdecodes.unique libs hdecodes'
    rw [ModuleParameterList.Shows] at hlist hlist'
    simp only [ConfigState.viewOf, hlist, hlist']

/-- A new process over decodable parameters is consistent, its cache not being set up yet. -/
theorem boot_consistent {pipelineParams : Fin maxPipelines → ParamData}
    {moduleParams : Fin maxModules → ParamData} (logStatus : UInt32)
    (hpipelines : ∀ k, HoldsDefinition libs (pipelineParams k))
    (hmodules : ∀ j, HoldsConfig libs (moduleParams j)) :
    (ConfigState.boot pipelineParams moduleParams logStatus).Consistent libs :=
  ⟨⟨hpipelines, hmodules⟩, fun hfresh => absurd hfresh Bool.false_ne_true⟩

/-- Setting the cache up shows the storage of a consistent configuration and leaves it as it is. -/
theorem setupCacheIfNeeded_shows (env : RebuildEnv) (henv : env.Succeeds) (c : ConfigState)
    (hc : c.Consistent libs) :
    ∃ c', setupCacheIfNeeded libs env c = .ok c' ∧ c'.Consistent libs ∧ c'.ShowsStorage libs ∧
      c'.pipelineParams = c.pipelineParams ∧ c'.moduleParams = c.moduleParams := by
  obtain ⟨c', hstep, hconsistent⟩ :=
    commandStep_consistent libs c (.setupCacheIfNeeded env) hc ⟨henv, trivial⟩
  obtain ⟨hparams, hsetup, -, -⟩ := run_sound libs _ c c' hstep
  have hmodules := run_moduleParams libs _ c c' hstep
  obtain ⟨last, hlast, hend⟩ := Execution.run_cons_eq_ok hstep
  obtain rfl := Except.ok.inj hend
  exact ⟨last, hlast, hconsistent, hconsistent.showsStorage libs hsetup, hparams, hmodules⟩

/-- After every setup of the cache, at the end of any run of writes, setups and invalidations
from process start, the tables show the stored parameters: entries for a definition in order, none
for a parameter that is all zero, and nothing that a new process would build differently. -/
theorem cache_shows_storage (hpipeline : libs.pipelineDefinitionUnpack [] = some ⟨[]⟩)
    (hmodule : libs.moduleConfigUnpack [] = some ⟨[]⟩)
    (pipelineParams : Fin maxPipelines → ParamData) (moduleParams : Fin maxModules → ParamData)
    (logStatus : UInt32) (hpipelines : ∀ k, HoldsDefinition libs (pipelineParams k))
    (hmodules : ∀ j, HoldsConfig libs (moduleParams j)) (commands : List Command)
    (hadmissible : ∀ command ∈ commands, command.Admissible libs) (env : RebuildEnv)
    (henv : env.Succeeds) :
    ∃ c, Execution.run (commandStep libs) (commands ++ [.setupCacheIfNeeded env])
        (.boot pipelineParams moduleParams logStatus) = .ok c ∧
      c.ShowsStorage libs ∧
      (∀ k, isBufferEmpty (c.pipelineParams k).bytes = true → (c.pipelines k).live = []) ∧
      (∀ j, isBufferEmpty (c.moduleParams j).bytes = true →
        c.moduleParameterLists j = ⟨0, .array []⟩) ∧
      ∀ (freshEnv : RebuildEnv) (freshLog : UInt32), freshEnv.Succeeds →
        ∃ fresh, setupCacheIfNeeded libs freshEnv
          (.boot c.pipelineParams c.moduleParams freshLog) = .ok fresh ∧ c.SameCache fresh := by
  obtain ⟨c, hrun, hc⟩ := Execution.run_succeeds (ConfigState.Consistent libs)
    (Command.Admissible libs) (commandStep_consistent libs) commands _
    (boot_consistent libs logStatus hpipelines hmodules) hadmissible
  obtain ⟨c', hsetup, hc', hshows, -, -⟩ := setupCacheIfNeeded_shows libs env henv c hc
  have hlast : commandStep libs c (.setupCacheIfNeeded env) = .ok c' := by
    rw [commandStep, Command.ops, Execution.run_cons_ok [] hsetup, Execution.run_nil]
  refine ⟨c', ?_, hshows, ?_, ?_, ?_⟩
  · rw [Execution.run_append, hrun]
    exact Execution.run_cons_ok [] hlast
  · intro k hempty
    obtain ⟨pdef, hdecodes, -, -, -, hlive⟩ := hshows.1 k
    obtain rfl := hdecodes.unique libs (decodes_of_empty libs hempty hpipeline)
    exact hlive
  · intro j hempty
    obtain ⟨mcon, hdecodes, hlist⟩ := hshows.2 j
    obtain rfl := hdecodes.unique libs (decodes_of_empty libs hempty hmodule)
    exact hlist
  · intro freshEnv freshLog hfreshEnv
    obtain ⟨fresh, hfresh, -, hfreshShows, hp, hm⟩ := setupCacheIfNeeded_shows libs freshEnv
      hfreshEnv _ (boot_consistent libs freshLog hc'.decodable.1 hc'.decodable.2)
    exact ⟨fresh, hfresh, hshows.sameCache libs hfreshShows hp hm⟩

/-- A content that carries the packed definition decodes to it. -/
theorem decodes_packedDefinition :
    Decodes definitionLibraries definitionLibraries.pipelineDefinitionUnpack
      (.ofStream (storedStream packedDefinition)) ⟨[⟨[0x61], 1⟩]⟩ := by
  refine ⟨packedDefinition, Or.inr ⟨by decide, fun env => ?_⟩, by decide⟩
  rw [brotliInput_ofStream env _ (by decide)]
  decide

/-- A written definition is shown after the cache was invalidated and set up again. -/
theorem cache_shows_storage_written :
    ∃ c, Execution.run (commandStep definitionLibraries)
        ([.writePipeline 0 (.ofStream (storedStream packedDefinition)) .ample, .invalidateCache] ++
          [.setupCacheIfNeeded ⟨fun _ => .ample, fun _ => .ample⟩])
        (.boot (fun _ => .zero) (fun _ => .zero) 0) = .ok c ∧
      c.ShowsStorage definitionLibraries := by
  have hzero : HoldsDefinition definitionLibraries .zero :=
    ⟨⟨[]⟩, decodes_of_empty _ (by decide) (by decide), Nat.zero_le _⟩
  have hzeroConfig : HoldsConfig definitionLibraries .zero :=
    ⟨⟨[]⟩, decodes_of_empty _ (by decide) (by decide)⟩
  obtain ⟨c, hrun, hshows, -⟩ := cache_shows_storage definitionLibraries (by decide) (by decide)
    (fun _ => .zero) (fun _ => .zero) 0 (fun _ => hzero) (fun _ => hzeroConfig)
    [.writePipeline 0 (.ofStream (storedStream packedDefinition)) .ample, .invalidateCache]
    (by
      simp only [List.mem_cons, List.not_mem_nil, or_false, forall_eq_or_imp, forall_eq]
      exact ⟨⟨CallEnv.ample_succeeds, _, decodes_packedDefinition, by decide⟩, trivial, trivial⟩)
    ⟨fun _ => .ample, fun _ => .ample⟩
    ⟨fun _ => CallEnv.ample_succeeds, fun _ => CallEnv.ample_succeeds⟩
  exact ⟨c, hrun, hshows⟩

end Dipp
