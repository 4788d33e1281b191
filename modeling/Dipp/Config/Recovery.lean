import Dipp.Config.Persistence

/-!
# Recovery from the storage

Only what was stored matters to a rebuild. A process may be stopped between a write and
its callback, allocations may have failed so that the tables hold nothing or freed memory,
and errors may have been reported at any time: once the tables are given up, by a new
process or by an invalidation, the next rebuild shows what was last written, and nothing
on the way leaves an array.
-/

namespace Dipp

open Regions

variable (libs : Libraries)

/-- What the operation stores can be decoded. -/
def StorageOp.StoresDecodable : StorageOp → Prop
  | .config (.storePipeline _ content) => HoldsDefinition libs content
  | .config (.storeModule _ content) => HoldsConfig libs content
  | _ => True

/-- The stored pipeline parameters after an operation. -/
def StorageOp.pipelineParamsAfter (params : Fin maxPipelines → ParamData) :
    StorageOp → Fin maxPipelines → ParamData
  | .config op => paramsAfter params op
  | _ => params

/-- The stored module parameters after an operation. -/
def StorageOp.moduleParamsAfter (params : Fin maxModules → ParamData) :
    StorageOp → Fin maxModules → ParamData
  | .config op => Dipp.moduleParamsAfter params op
  | _ => params

/-- The node of the radio after an operation. -/
def StorageOp.radioNodeIdAfter (node : UInt8) : StorageOp → UInt8
  | .setRadioNodeId value => value
  | _ => node

/-- The timeout of the modules after an operation. -/
def StorageOp.moduleTimeoutAfter (timeout : UInt32) : StorageOp → UInt32
  | .setModuleTimeout value => value
  | _ => timeout

/-- The parameters hold what the operations last wrote to them. -/
structure PersistentState.HoldsWritten (before : PersistentState) (ops : List StorageOp)
    (after : PersistentState) : Prop where
  pipelineParams : after.config.pipelineParams =
    ops.foldl StorageOp.pipelineParamsAfter before.config.pipelineParams
  moduleParams : after.config.moduleParams =
    ops.foldl StorageOp.moduleParamsAfter before.config.moduleParams
  radioNodeId : after.radioNodeId = ops.foldl StorageOp.radioNodeIdAfter before.radioNodeId
  moduleTimeout : after.moduleTimeout =
    ops.foldl StorageOp.moduleTimeoutAfter before.moduleTimeout

/-- Without an operation nothing is written. -/
theorem PersistentState.HoldsWritten.refl (state : PersistentState) : state.HoldsWritten [] state :=
  ⟨rfl, rfl, rfl, rfl⟩

/-- What two lists of operations write one after the other. -/
theorem PersistentState.HoldsWritten.append {before middle after : PersistentState}
    {first rest : List StorageOp} (hfirst : before.HoldsWritten first middle)
    (hrest : middle.HoldsWritten rest after) : before.HoldsWritten (first ++ rest) after where
  pipelineParams := by rw [List.foldl_append, ← hfirst.pipelineParams, hrest.pipelineParams]
  moduleParams := by rw [List.foldl_append, ← hfirst.moduleParams, hrest.moduleParams]
  radioNodeId := by rw [List.foldl_append, ← hfirst.radioNodeId, hrest.radioNodeId]
  moduleTimeout := by rw [List.foldl_append, ← hfirst.moduleTimeout, hrest.moduleTimeout]

/-- A step changes the parameters as the operation says. -/
theorem paramStep_holdsWritten {state next : PersistentState} {op : StorageOp}
    (h : paramStep libs state op = .ok next) : state.HoldsWritten [op] next := by
  cases op with
  | config op =>
    rw [paramStep] at h
    cases hstep : configStep libs state.config op with
    | error stop => rw [hstep] at h; contradiction
    | ok config =>
      rw [hstep] at h
      obtain rfl := Except.ok.inj h
      obtain ⟨hpipelines, -, -, -⟩ := configStep_sound libs state.config config op hstep
      have hmodules := run_moduleParams libs [op] state.config config
        (Execution.run_cons_ok [] hstep)
      exact ⟨hpipelines, hmodules, rfl, rfl⟩
  | setLogStatus value => obtain rfl := Except.ok.inj h; exact ⟨rfl, rfl, rfl, rfl⟩
  | setRadioNodeId value => obtain rfl := Except.ok.inj h; exact ⟨rfl, rfl, rfl, rfl⟩
  | setModuleTimeout value => obtain rfl := Except.ok.inj h; exact ⟨rfl, rfl, rfl, rfl⟩
  | restart => obtain rfl := Except.ok.inj h; exact ⟨rfl, rfl, rfl, rfl⟩

/-- So does a run. -/
theorem run_holdsWritten (ops : List StorageOp) {state last : PersistentState}
    (h : Execution.run (paramStep libs) ops state = .ok last) : state.HoldsWritten ops last := by
  induction ops generalizing state with
  | nil =>
    obtain rfl : state = last := Except.ok.inj h
    exact .refl state
  | cons op rest ih =>
    obtain ⟨next, hnext, hrest⟩ := Execution.run_cons_eq_ok h
    exact (paramStep_holdsWritten libs hnext).append (ih hrest)

variable {libs}

/-- With or without memory, a decodable parameter delivers a definition that fits. -/
theorem HoldsDefinition.room_of_any (hempty : libs.pipelineDefinitionUnpack [] = some ⟨[]⟩)
    {env : CallEnv} {param : ParamData} (hholds : HoldsDefinition libs param)
    {pdef : PipelineDefinition} (h : pipelineMessage libs env param = some pdef) :
    pdef.modules.length ≤ maxModules := by
  obtain ⟨stored, ⟨payload, hpayload, hunpack⟩, hroom⟩ := hholds
  have hcontents : paramContents libs env param = payload ∨ paramContents libs env param = [] := by
    unfold paramContents
    rcases hpayload with ⟨hzero, rfl⟩ | ⟨hnonzero, hdecoded⟩
    · exact .inl (if_pos hzero)
    · rw [if_neg (by simp [hnonzero]), hdecoded env]
      cases env.alloc.decoded with
      | true => exact .inl rfl
      | false => exact .inr rfl
  rcases hcontents with hcontents | hcontents
  · rw [pipelineMessage, hcontents, hunpack] at h
    exact Option.some.inj h ▸ hroom
  · rw [pipelineMessage, hcontents, hempty] at h
    exact Option.some.inj h ▸ Nat.zero_le _

/-- The stored definitions can be decoded after an operation that stores nothing else. -/
theorem StorageOp.StoresDecodable.pipelineParams {op : StorageOp} (hop : op.StoresDecodable libs)
    {params : Fin maxPipelines → ParamData} (hparams : ∀ k, HoldsDefinition libs (params k))
    (k : Fin maxPipelines) : HoldsDefinition libs (op.pipelineParamsAfter params k) := by
  cases op with
  | config op =>
    cases op with
    | storePipeline k' content =>
      by_cases hk : k = k'
      · rw [hk, pipelineParamsAfter, paramsAfter, Function.update_self]
        exact hop
      · rw [pipelineParamsAfter, paramsAfter, Function.update_of_ne hk]
        exact hparams k
    | _ => exact hparams k
  | _ => exact hparams k

/-- So can the stored configurations. -/
theorem StorageOp.StoresDecodable.moduleParams {op : StorageOp} (hop : op.StoresDecodable libs)
    {params : Fin maxModules → ParamData} (hparams : ∀ j, HoldsConfig libs (params j))
    (j : Fin maxModules) : HoldsConfig libs (op.moduleParamsAfter params j) := by
  cases op with
  | config op =>
    cases op with
    | storeModule j' content =>
      by_cases hj : j = j'
      · rw [hj, moduleParamsAfter, Dipp.moduleParamsAfter, Function.update_self]
        exact hop
      · rw [moduleParamsAfter, Dipp.moduleParamsAfter, Function.update_of_ne hj]
        exact hparams j
    | _ => exact hparams j
  | _ => exact hparams j

/-- While what is stored can be decoded, an operation goes through, and what is stored can still
be decoded. -/
theorem paramStep_succeeds (hempty : libs.pipelineDefinitionUnpack [] = some ⟨[]⟩)
    (state : PersistentState) (op : StorageOp) (hstate : state.config.Decodable libs)
    (hop : op.StoresDecodable libs) :
    ∃ next, paramStep libs state op = .ok next ∧ next.config.Decodable libs := by
  have hnext : ∃ next, paramStep libs state op = .ok next := by
    cases op with
    | config op =>
      have hroom : ∀ k, ∀ call ∈ slotCalls libs k state.config.pipelineParams state.config.isSetup
          op, ∀ pdef, call.2 = some pdef → pdef.modules.length ≤ maxModules := by
        intro k call hcall pdef hpdef
        have hparam : ∃ env, call.2 = pipelineMessage libs env (state.config.pipelineParams k) := by
          cases op with
          | setupPipeline k' env =>
            by_cases hk : k' = k
            · rw [slotCalls, if_pos hk, List.mem_singleton] at hcall
              exact ⟨env, hcall ▸ rfl⟩
            · simp [slotCalls, hk] at hcall
          | setupCacheIfNeeded env =>
            cases hsetup : state.config.isSetup with
            | true => simp [slotCalls, hsetup] at hcall
            | false =>
              simp only [slotCalls, hsetup, Bool.false_eq_true, if_false,
                List.mem_singleton] at hcall
              exact ⟨env.pipeline k, hcall ▸ rfl⟩
          | _ => simp [slotCalls] at hcall
        obtain ⟨env, henv⟩ := hparam
        exact (hstate.1 k).room_of_any hempty (henv.symm.trans hpdef)
      obtain ⟨config, hconfig⟩ := configStep_succeeds libs state.config op hroom
      exact ⟨state.withConfig config, by rw [paramStep, hconfig]; rfl⟩
    | _ => exact ⟨_, rfl⟩
  obtain ⟨next, hnext⟩ := hnext
  refine ⟨next, hnext, ?_, ?_⟩
  · intro k
    rw [(paramStep_holdsWritten libs hnext).pipelineParams]
    exact hop.pipelineParams hstate.1 k
  · intro j
    rw [(paramStep_holdsWritten libs hnext).moduleParams]
    exact hop.moduleParams hstate.2 j

/-- The ways to give up the tables: a new process, or an invalidation. -/
def StorageOp.GivesUpTables (op : StorageOp) : Prop :=
  op = .restart ∨ op = .config .invalidateCache

/-- Once the tables are given up, the next rebuild shows the storage. -/
theorem rebuild_shows {state : PersistentState} (hstate : state.config.Decodable libs)
    {reset : StorageOp} (hreset : reset.GivesUpTables) {env : RebuildEnv} (henv : env.Succeeds) :
    ∃ last, Execution.run (paramStep libs) [reset, .config (.setupCacheIfNeeded env)] state =
      .ok last ∧ last.config.ShowsStorage libs := by
  have hgiven : ∃ next, paramStep libs state reset = .ok next ∧ next.config.Consistent libs := by
    rcases hreset with rfl | rfl
    · exact ⟨_, rfl, boot_consistent libs _ hstate.1 hstate.2⟩
    · exact ⟨_, rfl, hstate, fun hfresh => absurd hfresh Bool.false_ne_true⟩
  obtain ⟨next, hnext, hconsistent⟩ := hgiven
  obtain ⟨config, hsetup, -, hshows, -, -⟩ :=
    setupCacheIfNeeded_shows libs env henv next.config hconsistent
  have hrebuild : paramStep libs next (.config (.setupCacheIfNeeded env)) =
      .ok (next.withConfig config) := by
    rw [paramStep, configStep, hsetup]
    rfl
  refine ⟨next.withConfig config, ?_, hshows⟩
  rw [Execution.run_cons_ok _ hnext, Execution.run_cons_ok _ hrebuild, Execution.run_nil]

variable (libs) {D : Type*} (driver : Driver D UInt8 storageSize)

/-- Whatever happens to the file and the tables as long as the contents that are written can be
decoded, with new processes at any point and with any allocations failing: no array is left, and
once the tables are given up, a rebuild shows the contents that were last written. -/
theorem rebuild_recovers (hempty : libs.pipelineDefinitionUnpack [] = some ⟨[]⟩)
    (ops : List StorageOp) (hops : ∀ op ∈ ops, op.StoresDecodable libs) (s : StoredConfig D)
    (hs : (s.view driver).config.Decodable libs) (reset : StorageOp)
    (hreset : reset.GivesUpTables) (env : RebuildEnv) (henv : env.Succeeds) :
    ∃ last, Execution.run (storageStep driver libs)
        (ops ++ [reset, .config (.setupCacheIfNeeded env)]) s = .ok last ∧
      (last.view driver).config.ShowsStorage libs ∧
      (s.view driver).HoldsWritten ops (last.view driver) := by
  obtain ⟨middle, hmiddle, hdecodable⟩ := Execution.run_succeeds
    (fun state : PersistentState => state.config.Decodable libs) (StorageOp.StoresDecodable libs)
    (paramStep_succeeds hempty) ops (s.view driver) hs hops
  obtain ⟨rebuilt, hrebuilt, hshows⟩ := rebuild_shows hdecodable hreset henv
  have hrun : Execution.run (paramStep libs)
      (ops ++ [reset, .config (.setupCacheIfNeeded env)]) (s.view driver) = .ok rebuilt := by
    rw [Execution.run_append, hmiddle]
    exact hrebuilt
  have hkept : middle.HoldsWritten [] rebuilt := by
    have hlast := run_holdsWritten libs _ hrebuilt
    rcases hreset with rfl | rfl
    · exact ⟨hlast.pipelineParams, hlast.moduleParams, hlast.radioNodeId, hlast.moduleTimeout⟩
    · exact ⟨hlast.pipelineParams, hlast.moduleParams, hlast.radioNodeId, hlast.moduleTimeout⟩
  have hwritten := (run_holdsWritten libs _ hmiddle).append hkept
  rw [List.append_nil] at hwritten
  rw [← Execution.run_map (StoredConfig.view driver) (view_storageStep driver libs)] at hrun
  cases hlast : Execution.run (storageStep driver libs)
      (ops ++ [reset, .config (.setupCacheIfNeeded env)]) s with
  | error stop => rw [hlast] at hrun; contradiction
  | ok last =>
    rw [hlast] at hrun
    obtain rfl : last.view driver = rebuilt := Except.ok.inj hrun
    exact ⟨last, rfl, hshows, hwritten⟩

/-- A parameter in a file of zeros was never written. -/
theorem isBufferEmpty_zeroFile (data : DataParam) :
    isBufferEmpty (paramGetData (memory UInt8 storageSize) (fun _ => 0) data).bytes = true := by
  simp [isBufferEmpty, paramGetData, load, memory]

/-- A file of zeros can be decoded. -/
theorem zeroFile_decodable :
    ((StoredConfig.boot fun _ : ℕ => (0 : UInt8)).view
      (memory UInt8 storageSize)).config.Decodable definitionLibraries := by
  constructor
  · intro k
    exact ⟨⟨[]⟩, decodes_of_empty _ (isBufferEmpty_zeroFile _) (by decide), Nat.zero_le _⟩
  · intro j
    exact ⟨⟨[]⟩, decodes_of_empty _ (isBufferEmpty_zeroFile _) (by decide)⟩

/-- A definition is written, and the process stops before the callback: the next one shows it. -/
theorem rebuild_recovers_interrupted :
    ∃ last, Execution.run (storageStep (memory UInt8 storageSize) definitionLibraries)
        ([.config (.storePipeline 0 (.ofStream (storedStream packedDefinition)))] ++
          [.restart, .config (.setupCacheIfNeeded ⟨fun _ => .ample, fun _ => .ample⟩)])
        (.boot fun _ => 0) = .ok last ∧
      (last.view (memory UInt8 storageSize)).config.ShowsStorage definitionLibraries ∧
      (last.view (memory UInt8 storageSize)).config.pipelineParams 0 =
        .ofStream (storedStream packedDefinition) := by
  obtain ⟨last, hrun, hshows, hwritten⟩ := rebuild_recovers definitionLibraries
    (memory UInt8 storageSize) (by decide)
    [.config (.storePipeline 0 (.ofStream (storedStream packedDefinition)))]
    (by
      intro op hop
      rw [List.mem_singleton.mp hop]
      exact ⟨_, decodes_packedDefinition, by decide⟩)
    (.boot fun _ => 0) zeroFile_decodable .restart (.inl rfl) ⟨fun _ => .ample, fun _ => .ample⟩
    ⟨fun _ => CallEnv.ample_succeeds, fun _ => CallEnv.ample_succeeds⟩
  refine ⟨last, hrun, hshows, ?_⟩
  rw [hwritten.pipelineParams]
  rfl

end Dipp
