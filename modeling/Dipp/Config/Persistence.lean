import Dipp.Config.Coherence
import Dipp.Config.Storage

/-!
# The storage file is a map of parameters

Through the contents of its regions the file is a map from parameters to values, and what
the process does with the file is what it does with that map: every operation on the bytes
is the operation of the same name on the parameters. In particular an error report, which
is written to the file in the middle of a setup call, changes no stored definition, and a
new process finds the parameters as the last one left them.
-/

namespace Dipp

open LittleEndian Regions

variable {D : Type*} (driver : Driver D UInt8 storageSize)

/-- The parameters that the storage holds, with the tables built from them. -/
structure PersistentState where
  config : ConfigState
  radioNodeId : UInt8
  moduleTimeout : UInt32

/-- What is stored in the file, and what the process keeps. -/
def StoredConfig.view (s : StoredConfig D) : PersistentState where
  config :=
    { pipelineParams := fun k => paramGetData driver s.file (pipelineConfigParams k)
      moduleParams := fun j => paramGetData driver s.file (moduleConfigParams j)
      pipelines := s.pipelines
      moduleParameterLists := s.moduleParameterLists
      isSetup := s.isSetup
      err := Storage.errorState driver s }
  radioNodeId := paramGetUint8 driver s.file .radioNodeId
  moduleTimeout := paramGetUint32 driver s.file .moduleTimeout

/-- Replace the configuration of a state. -/
def PersistentState.withConfig (state : PersistentState) (config : ConfigState) :
    PersistentState := { state with config := config }

/-- Replace the error state. -/
def PersistentState.withErr (state : PersistentState) (err : ErrorState) : PersistentState :=
  state.withConfig { state.config with err := err }

/-- The configuration after it was replaced. -/
@[simp] theorem PersistentState.withConfig_config (state : PersistentState)
    (config : ConfigState) : (state.withConfig config).config = config := rfl

/-- Of two replacements the second counts. -/
@[simp] theorem PersistentState.withConfig_withConfig (state : PersistentState)
    (config config' : ConfigState) :
    (state.withConfig config).withConfig config' = state.withConfig config' := rfl

/-- The configuration after the error state was replaced. -/
@[simp] theorem PersistentState.withErr_config (state : PersistentState) (err : ErrorState) :
    (state.withErr err).config = { state.config with err := err } := rfl

/-- A configuration comes with its own error state. -/
@[simp] theorem PersistentState.withErr_withConfig (state : PersistentState) (err : ErrorState)
    (config : ConfigState) : (state.withErr err).withConfig config = state.withConfig config := rfl

/-- The operations on the map of parameters. -/
def paramStep (libs : Libraries) (state : PersistentState) :
    StorageOp → Except Stop PersistentState
  | .config op => (configStep libs state.config op).map state.withConfig
  | .setLogStatus value => .ok (state.withErr { state.config.err with logStatus := value })
  | .setRadioNodeId value => .ok { state with radioNodeId := value }
  | .setModuleTimeout value => .ok { state with moduleTimeout := value }
  | .restart => .ok (state.withConfig (.boot state.config.pipelineParams
      state.config.moduleParams state.config.err.logStatus))

/-- Bytes that are written are read back. -/
theorem paramGetData_set_self (file : D) (data : DataParam) (content : ParamData) :
    paramGetData driver (paramSetData driver data content file) data = content := by
  have hload : load driver storageLayout (paramSetData driver data content file) data.param =
      content.bytes := load_store_self file (content.length_eq.trans data.size_eq.symm)
  obtain ⟨bytes, hlength⟩ := content
  simp only [paramGetData, hload]

/-- A `uint32_t` that is written is read back. -/
theorem paramGetUint32_set_self (file : D) {param : StoredParam} (h : param.size = 4)
    (value : UInt32) :
    paramGetUint32 driver (paramSetUint32 driver param value file) param = value := by
  have hlength : (encode 4 value.toNat).length = storageLayout.length param :=
    (length_encode 4 _).trans h.symm
  rw [paramGetUint32, paramSetUint32, load_store_self file hlength,
    decode_encode_of_lt value.toNat_lt, UInt32.ofNat_toNat]

/-- A `uint8_t` that is written is read back. -/
theorem paramGetUint8_set_self (file : D) {param : StoredParam} (h : param.size = 1)
    (value : UInt8) :
    paramGetUint8 driver (paramSetUint8 driver param value file) param = value := by
  have hlength : (encode 1 value.toNat).length = storageLayout.length param :=
    (length_encode 1 _).trans h.symm
  rw [paramGetUint8, paramSetUint8, load_store_self file hlength,
    decode_encode_of_lt value.toNat_lt, UInt8.ofNat_toNat]

/-- Writing bytes keeps the other parameters. -/
theorem load_paramSetData_of_ne (file : D) (data : DataParam) {other : StoredParam}
    (content : ParamData) (hne : other ≠ data.param) :
    load driver storageLayout (paramSetData driver data content file) other =
      load driver storageLayout file other :=
  load_store_of_ne file (content.length_eq.trans data.size_eq.symm) hne

/-- So does writing a `uint32_t`. -/
theorem load_paramSetUint32_of_ne (file : D) {param other : StoredParam} (value : UInt32)
    (h : param.size = 4) (hne : other ≠ param) :
    load driver storageLayout (paramSetUint32 driver param value file) other =
      load driver storageLayout file other :=
  load_store_of_ne file ((length_encode 4 _).trans h.symm) hne

/-- So does writing a `uint8_t`. -/
theorem load_paramSetUint8_of_ne (file : D) {param other : StoredParam} (value : UInt8)
    (h : param.size = 1) (hne : other ≠ param) :
    load driver storageLayout (paramSetUint8 driver param value file) other =
      load driver storageLayout file other :=
  load_store_of_ne file ((length_encode 1 _).trans h.symm) hne

/-- The bytes of a parameter are those of its region. -/
theorem paramGetData_congr {file file' : D} {data : DataParam}
    (h : load driver storageLayout file' data.param = load driver storageLayout file data.param) :
    paramGetData driver file' data = paramGetData driver file data := by
  simp only [paramGetData, h]

/-- The value of a `uint32_t` parameter depends on its region. -/
theorem paramGetUint32_congr {file file' : D} {param : StoredParam}
    (h : load driver storageLayout file' param = load driver storageLayout file param) :
    paramGetUint32 driver file' param = paramGetUint32 driver file param := by
  rw [paramGetUint32, paramGetUint32, h]

/-- So does that of a `uint8_t` parameter. -/
theorem paramGetUint8_congr {file file' : D} {param : StoredParam}
    (h : load driver storageLayout file' param = load driver storageLayout file param) :
    paramGetUint8 driver file' param = paramGetUint8 driver file param := by
  rw [paramGetUint8, paramGetUint8, h]

/-- States that agree in every parameter and in what the process keeps are equal. -/
theorem view_eq_of_file (s : StoredConfig D) (file : D) (state : PersistentState)
    (hpipelines : ∀ k, paramGetData driver file (pipelineConfigParams k) =
      state.config.pipelineParams k)
    (hmodules : ∀ j, paramGetData driver file (moduleConfigParams j) =
      state.config.moduleParams j)
    (hlog : paramGetUint32 driver file .logStatus = state.config.err.logStatus)
    (hradio : paramGetUint8 driver file .radioNodeId = state.radioNodeId)
    (htimeout : paramGetUint32 driver file .moduleTimeout = state.moduleTimeout)
    (htables : state.config.pipelines = s.pipelines ∧
      state.config.moduleParameterLists = s.moduleParameterLists ∧
      state.config.isSetup = s.isSetup ∧
      state.config.err.errCurrentPipeline = s.errCurrentPipeline ∧
      state.config.err.errCurrentModule = s.errCurrentModule) :
    StoredConfig.view driver { s with file := file } = state := by
  obtain ⟨⟨_, _, _, _, _, ⟨_, _, _⟩⟩, _, _⟩ := state
  obtain ⟨rfl, rfl, rfl, rfl, rfl⟩ := htables
  simp only [StoredConfig.view, Storage.errorState, hpipelines, hmodules, hlog, hradio, htimeout]

/-- Writing a pipeline parameter replaces the definition of that pipeline. -/
theorem view_storePipeline (s : StoredConfig D) (k : Fin maxPipelines) (content : ParamData) :
    StoredConfig.view driver
        { s with file := paramSetData driver (pipelineConfigParams k) content s.file } =
      (s.view driver).withConfig { (s.view driver).config with
        pipelineParams := Function.update (s.view driver).config.pipelineParams k content } := by
  have hothers {other : StoredParam} (hne : other ≠ .pipelineConfig k) :=
    load_paramSetData_of_ne driver s.file (pipelineConfigParams k) content hne
  apply view_eq_of_file
  case hpipelines =>
    intro k'
    change _ = Function.update (s.view driver).config.pipelineParams k content k'
    by_cases hk : k' = k
    · rw [hk, paramGetData_set_self, Function.update_self]
    · rw [Function.update_of_ne hk]
      exact paramGetData_congr driver (hothers fun h => hk (StoredParam.pipelineConfig.inj h))
  case hmodules => exact fun j => paramGetData_congr driver (hothers nofun)
  case hlog => exact paramGetUint32_congr driver (hothers nofun)
  case hradio => exact paramGetUint8_congr driver (hothers nofun)
  case htimeout => exact paramGetUint32_congr driver (hothers nofun)
  case htables => exact ⟨rfl, rfl, rfl, rfl, rfl⟩

/-- Writing a module parameter replaces the configuration of that module. -/
theorem view_storeModule (s : StoredConfig D) (j : Fin maxModules) (content : ParamData) :
    StoredConfig.view driver
        { s with file := paramSetData driver (moduleConfigParams j) content s.file } =
      (s.view driver).withConfig { (s.view driver).config with
        moduleParams := Function.update (s.view driver).config.moduleParams j content } := by
  have hothers {other : StoredParam} (hne : other ≠ .moduleParam j) :=
    load_paramSetData_of_ne driver s.file (moduleConfigParams j) content hne
  apply view_eq_of_file
  case hpipelines => exact fun k => paramGetData_congr driver (hothers nofun)
  case hmodules =>
    intro j'
    change _ = Function.update (s.view driver).config.moduleParams j content j'
    by_cases hj : j' = j
    · rw [hj, paramGetData_set_self, Function.update_self]
    · rw [Function.update_of_ne hj]
      exact paramGetData_congr driver (hothers fun h => hj (StoredParam.moduleParam.inj h))
  case hlog => exact paramGetUint32_congr driver (hothers nofun)
  case hradio => exact paramGetUint8_congr driver (hothers nofun)
  case htimeout => exact paramGetUint32_congr driver (hothers nofun)
  case htables => exact ⟨rfl, rfl, rfl, rfl, rfl⟩

/-- Writing `log_status` changes the error state only. -/
theorem view_setLogStatus (s : StoredConfig D) (value : UInt32) :
    StoredConfig.view driver { s with file := paramSetUint32 driver .logStatus value s.file } =
      (s.view driver).withErr { (s.view driver).config.err with logStatus := value } := by
  have hothers {other : StoredParam} (hne : other ≠ .logStatus) :=
    load_paramSetUint32_of_ne driver s.file value rfl hne
  apply view_eq_of_file
  case hpipelines => exact fun k => paramGetData_congr driver (hothers nofun)
  case hmodules => exact fun j => paramGetData_congr driver (hothers nofun)
  case hlog => exact paramGetUint32_set_self driver s.file rfl value
  case hradio => exact paramGetUint8_congr driver (hothers nofun)
  case htimeout => exact paramGetUint32_congr driver (hothers nofun)
  case htables => exact ⟨rfl, rfl, rfl, rfl, rfl⟩

/-- Writing the node of the radio changes nothing else. -/
theorem view_setRadioNodeId (s : StoredConfig D) (value : UInt8) :
    StoredConfig.view driver { s with file := paramSetUint8 driver .radioNodeId value s.file } =
      { s.view driver with radioNodeId := value } := by
  have hothers {other : StoredParam} (hne : other ≠ .radioNodeId) :=
    load_paramSetUint8_of_ne driver s.file value rfl hne
  apply view_eq_of_file
  case hpipelines => exact fun k => paramGetData_congr driver (hothers nofun)
  case hmodules => exact fun j => paramGetData_congr driver (hothers nofun)
  case hlog => exact paramGetUint32_congr driver (hothers nofun)
  case hradio => exact paramGetUint8_set_self driver s.file rfl value
  case htimeout => exact paramGetUint32_congr driver (hothers nofun)
  case htables => exact ⟨rfl, rfl, rfl, rfl, rfl⟩

/-- Writing the timeout of the modules changes nothing else. -/
theorem view_setModuleTimeout (s : StoredConfig D) (value : UInt32) :
    StoredConfig.view driver
        { s with file := paramSetUint32 driver .moduleTimeout value s.file } =
      { s.view driver with moduleTimeout := value } := by
  have hothers {other : StoredParam} (hne : other ≠ .moduleTimeout) :=
    load_paramSetUint32_of_ne driver s.file value rfl hne
  apply view_eq_of_file
  case hpipelines => exact fun k => paramGetData_congr driver (hothers nofun)
  case hmodules => exact fun j => paramGetData_congr driver (hothers nofun)
  case hlog => exact paramGetUint32_congr driver (hothers nofun)
  case hradio => exact paramGetUint8_congr driver (hothers nofun)
  case htimeout => exact paramGetUint32_set_self driver s.file rfl value
  case htables => exact ⟨rfl, rfl, rfl, rfl, rfl⟩

/-- Reporting an error is reporting it in the map of parameters. -/
theorem view_setErrorParam (code : UInt32) (s : StoredConfig D) :
    (Storage.setErrorParam driver code s).view driver =
      (s.view driver).withErr (setErrorParam code (s.view driver).config.err) :=
  view_setLogStatus driver s _

variable (libs : Libraries) (env : CallEnv)

/-- The buffer is the same, and so are the errors on the way to it. -/
theorem view_getParamBuffer (param : ParamData) (s : StoredConfig D) :
    (Storage.getParamBuffer driver libs env param s).1 =
        (getParamBuffer libs env param (s.view driver).config.err).1 ∧
      (Storage.getParamBuffer driver libs env param s).2.view driver =
        (s.view driver).withErr (getParamBuffer libs env param (s.view driver).config.err).2 := by
  unfold Storage.getParamBuffer getParamBuffer
  cases isBufferEmpty param.bytes with
  | true => exact ⟨rfl, rfl⟩
  | false =>
    cases libs.brotliDecoderDecompress (brotliInput env param) dataParamSize with
    | none => exact ⟨rfl, view_setErrorParam driver _ s⟩
    | some decoded =>
      cases env.alloc.decoded with
      | true => exact ⟨rfl, rfl⟩
      | false => exact ⟨rfl, view_setErrorParam driver _ s⟩

/-- The function that is loaded is the same, and so are the errors. -/
theorem view_loadModule (moduleName : CString) (s : StoredConfig D) :
    (Storage.loadModule driver libs moduleName s).1 =
        (loadModule libs moduleName (s.view driver).config.err).1 ∧
      (Storage.loadModule driver libs moduleName s).2.view driver =
        (s.view driver).withErr (loadModule libs moduleName (s.view driver).config.err).2 := by
  unfold Storage.loadModule loadModule
  cases libs.dlopen (moduleFilename moduleName) with
  | none => exact ⟨rfl, view_setErrorParam driver _ s⟩
  | some handle =>
    dsimp only
    cases libs.dlsym handle "run".toUTF8.data.toList with
    | none => exact ⟨rfl, view_setErrorParam driver _ s⟩
    | some function => exact ⟨rfl, rfl⟩

/-- After errors only, tables that are replaced are replaced in the map of parameters. -/
theorem view_with_pipelines {s : StoredConfig D} {state : PersistentState} {err : ErrorState}
    (h : s.view driver = state.withErr err) (pipelines : Fin maxPipelines → Pipeline) :
    StoredConfig.view driver { s with pipelines := pipelines } =
      state.withConfig { state.config with pipelines := pipelines, err := err } :=
  congrArg (fun seen : PersistentState =>
    seen.withConfig { seen.config with pipelines := pipelines }) h

/-- So are parameter lists. -/
theorem view_with_lists {s : StoredConfig D} {state : PersistentState} {err : ErrorState}
    (h : s.view driver = state.withErr err) (lists : Fin maxModules → ModuleParameterList) :
    StoredConfig.view driver { s with moduleParameterLists := lists } =
      state.withConfig { state.config with moduleParameterLists := lists, err := err } :=
  congrArg (fun seen : PersistentState =>
    seen.withConfig { seen.config with moduleParameterLists := lists }) h

/-- The loop that writes into the table leaves the pipeline that the loop over a copy returns. -/
theorem view_setupModules (k : Fin maxPipelines) (mdefs : List ModuleDefinition) (idx : ℕ)
    (s : StoredConfig D) :
    (Storage.setupModules driver libs env k idx mdefs s).map (StoredConfig.view driver) =
      (setupModules libs env idx mdefs (s.pipelines k) (s.view driver).config.err).map
        fun written => (s.view driver).withConfig { (s.view driver).config with
          pipelines := Function.update s.pipelines k written.1
          err := written.2 } := by
  induction mdefs generalizing idx s with
  | nil =>
    simp only [Storage.setupModules, setupModules, Except.map, Function.update_eq_self]
    rfl
  | cons mdef rest ih =>
    obtain ⟨hfunction, hview⟩ := view_loadModule driver libs mdef.name s
    rw [Storage.setupModules, setupModules]
    generalize Storage.loadModule driver libs mdef.name s = loaded at hfunction hview
    generalize loadModule libs mdef.name (s.view driver).config.err = loaded' at hfunction hview
    obtain ⟨function, s'⟩ := loaded
    obtain ⟨function', err'⟩ := loaded'
    obtain rfl : function = function' := hfunction
    have htables : s'.pipelines = s.pipelines :=
      congrArg (fun state => state.config.pipelines) hview
    dsimp only at hview ⊢
    rw [htables]
    cases (s.pipelines k).setModule idx
        ⟨strdup (env.alloc.copy idx) mdef.name, function, mdef.paramId - 1⟩ with
    | error stop => rfl
    | ok written =>
      have hrest := ih (idx + 1) { s' with pipelines := Function.update s.pipelines k written }
      rw [view_with_pipelines driver hview] at hrest
      simp only [PersistentState.withConfig_withConfig, PersistentState.withConfig_config,
        Function.update_self, Function.update_idem] at hrest
      exact hrest

/-- Rebuilding a pipeline from the file is rebuilding it from the map of parameters. -/
theorem view_setupPipeline (k : Fin maxPipelines) (s : StoredConfig D) :
    (Storage.setupPipeline driver libs env (pipelineConfigParams k) s).map
        (StoredConfig.view driver) =
      (setupPipeline libs env k (s.view driver).config).map (s.view driver).withConfig := by
  obtain ⟨hbuffer, hview⟩ := view_getParamBuffer driver libs env
    (paramGetData driver s.file (pipelineConfigParams k)) s
  have hparam : (s.view driver).config.pipelineParams k =
      paramGetData driver s.file (pipelineConfigParams k) := rfl
  rw [Storage.setupPipeline, setupPipeline, hparam]
  generalize Storage.getParamBuffer driver libs env
    (paramGetData driver s.file (pipelineConfigParams k)) s = got at hbuffer hview
  generalize getParamBuffer libs env
    (paramGetData driver s.file (pipelineConfigParams k)) (s.view driver).config.err = got'
    at hbuffer hview
  obtain ⟨buffer, s'⟩ := got
  obtain ⟨buffer', err'⟩ := got'
  obtain rfl : buffer = buffer' := hbuffer
  have htables : s'.pipelines = s.pipelines :=
    congrArg (fun state => state.config.pipelines) hview
  dsimp only at hview ⊢
  cases libs.pipelineDefinitionUnpack buffer.contents with
  | none => exact congrArg Except.ok hview
  | some pdef =>
    have hindex : tableIndex pipelineParamidOffset maxPipelines (pipelineConfigParams k).param.id =
        some k := tableIndex_pipelineConfig k
    have hentry : (s.view driver).config.pipelines = s.pipelines := rfl
    have hloop := view_setupModules driver libs env k pdef.modules 0
      { s' with pipelines := Function.update s.pipelines k { s.pipelines k with
          pipelineId := Int32.ofNat (k + 1), numModules := pdef.modules.length } }
    rw [view_with_pipelines driver hview] at hloop
    simp only [PersistentState.withConfig_withConfig, PersistentState.withConfig_config,
      Function.update_self, Function.update_idem] at hloop
    simp only [hindex, Storage.startPipeline, htables, hentry]
    rw [hloop]
    generalize setupModules libs env 0 pdef.modules _ err' = filled
    cases filled with
    | error stop => rfl
    | ok written => rfl

/-- Rebuilding a parameter list from the file is rebuilding it from the map of parameters. -/
theorem view_setupModuleConfig (j : Fin maxModules) (s : StoredConfig D) :
    (Storage.setupModuleConfig driver libs env (moduleConfigParams j) s).map
        (StoredConfig.view driver) =
      .ok ((s.view driver).withConfig (setupModuleConfig libs env j (s.view driver).config)) := by
  obtain ⟨hbuffer, hview⟩ := view_getParamBuffer driver libs env
    (paramGetData driver s.file (moduleConfigParams j)) s
  have hparam : (s.view driver).config.moduleParams j =
      paramGetData driver s.file (moduleConfigParams j) := rfl
  rw [Storage.setupModuleConfig, setupModuleConfig, hparam]
  generalize Storage.getParamBuffer driver libs env
    (paramGetData driver s.file (moduleConfigParams j)) s = got at hbuffer hview
  generalize getParamBuffer libs env
    (paramGetData driver s.file (moduleConfigParams j)) (s.view driver).config.err = got'
    at hbuffer hview
  obtain ⟨buffer, s'⟩ := got
  obtain ⟨buffer', err'⟩ := got'
  obtain rfl : buffer = buffer' := hbuffer
  have htables : s'.moduleParameterLists = s.moduleParameterLists :=
    congrArg (fun state => state.config.moduleParameterLists) hview
  dsimp only at hview ⊢
  cases libs.moduleConfigUnpack buffer.contents with
  | none => exact congrArg Except.ok hview
  | some mcon =>
    have hindex : tableIndex moduleParamidOffset maxModules (moduleConfigParams j).param.id =
        some j := tableIndex_moduleParam j
    have hset (parameters : ParameterArray) := view_with_lists driver hview
      (Function.update s.moduleParameterLists j ⟨mcon.parameters.length, parameters⟩)
    have hfailed (parameters : ParameterArray) :
        (Storage.setErrorParam driver ErrorCode.memoryMalloc.value { s' with
          moduleParameterLists := Function.update s.moduleParameterLists j
            ⟨mcon.parameters.length, parameters⟩ }).view driver =
          (s.view driver).withConfig { (s.view driver).config with
            moduleParameterLists := Function.update s.moduleParameterLists j
              ⟨mcon.parameters.length, parameters⟩
            err := setErrorParam ErrorCode.memoryMalloc.value err' } := by
      rw [view_setErrorParam, hset]
      rfl
    simp only [hindex, htables]
    cases env.alloc.parameters with
    | true =>
      cases copyParameters env.alloc 0 mcon.parameters with
      | some parameters => exact congrArg Except.ok (hset _)
      | none => exact congrArg Except.ok (hfailed _)
    | false => exact congrArg Except.ok (hfailed _)

variable {driver} in
/-- What holds of the calls of a loop holds of the loop. -/
theorem view_foldlM {β : Type} {f : StoredConfig D → β → Except Stop (StoredConfig D)}
    {g : ConfigState → β → Except Stop ConfigState}
    (h : ∀ s b, (f s b).map (StoredConfig.view driver) =
      (g (s.view driver).config b).map (s.view driver).withConfig) (bs : List β)
    (s : StoredConfig D) :
    (bs.foldlM f s).map (StoredConfig.view driver) =
      (bs.foldlM g (s.view driver).config).map (s.view driver).withConfig := by
  induction bs generalizing s with
  | nil => rfl
  | cons b rest ih =>
    have hb := h s b
    rw [List.foldlM_cons, List.foldlM_cons]
    cases hf : f s b with
    | error stop =>
      cases hg : g (s.view driver).config b with
      | error stop' => rw [hf, hg] at hb; exact hb
      | ok c => rw [hf, hg] at hb; contradiction
    | ok next =>
      cases hg : g (s.view driver).config b with
      | error stop' => rw [hf, hg] at hb; contradiction
      | ok c =>
        rw [hf, hg] at hb
        have hnext : next.view driver = (s.view driver).withConfig c := Except.ok.inj hb
        have hrest := ih next
        rw [hnext] at hrest
        exact hrest

/-- A loop whose calls cannot fail is a plain fold. -/
theorem foldlM_ok {β : Type} (g : ConfigState → β → ConfigState) (bs : List β) (c : ConfigState) :
    bs.foldlM (fun c b => (.ok (g c b) : Except Stop ConfigState)) c = .ok (bs.foldl g c) := by
  induction bs generalizing c with
  | nil => rfl
  | cons b rest ih => exact ih (g c b)

/-- Setting up every pipeline from the file is setting them up from the map of parameters. -/
theorem view_setupAllPipelines (env : Fin maxPipelines → CallEnv) (s : StoredConfig D) :
    (Storage.setupAllPipelines driver libs env s).map (StoredConfig.view driver) =
      (setupAllPipelines libs env (s.view driver).config).map (s.view driver).withConfig :=
  view_foldlM (g := fun c k => setupPipeline libs (env k) k c)
    (fun s k => view_setupPipeline driver libs (env k) k s) _ s

/-- So is setting up every module configuration. -/
theorem view_setupAllModuleConfigs (env : Fin maxModules → CallEnv) (s : StoredConfig D) :
    (Storage.setupAllModuleConfigs driver libs env s).map (StoredConfig.view driver) =
      .ok ((s.view driver).withConfig
        (setupAllModuleConfigs libs env (s.view driver).config)) := by
  have hloop := view_foldlM (g := fun c j => .ok (setupModuleConfig libs (env j) j c))
    (fun s j => view_setupModuleConfig driver libs (env j) j s) (List.finRange maxModules) s
  rw [foldlM_ok] at hloop
  exact hloop

/-- Rebuilding the tables from the file is rebuilding them from the map of parameters. -/
theorem view_setupCacheIfNeeded (env : RebuildEnv) (s : StoredConfig D) :
    (Storage.setupCacheIfNeeded driver libs env s).map (StoredConfig.view driver) =
      (setupCacheIfNeeded libs env (s.view driver).config).map (s.view driver).withConfig := by
  have hflag : (s.view driver).config.isSetup = s.isSetup := rfl
  have hpipelines := view_setupAllPipelines driver libs env.pipeline s
  rw [Storage.setupCacheIfNeeded, setupCacheIfNeeded, hflag]
  cases s.isSetup with
  | true => rfl
  | false =>
    simp only [Bool.false_eq_true, if_false]
    cases hbuilt : setupAllPipelines libs env.pipeline (s.view driver).config with
    | error stop =>
      cases hstored : Storage.setupAllPipelines driver libs env.pipeline s with
      | error stop' => rw [hbuilt, hstored] at hpipelines; exact hpipelines
      | ok built => rw [hbuilt, hstored] at hpipelines; contradiction
    | ok c =>
      cases hstored : Storage.setupAllPipelines driver libs env.pipeline s with
      | error stop' => rw [hbuilt, hstored] at hpipelines; contradiction
      | ok built =>
        rw [hbuilt, hstored] at hpipelines
        have hview : built.view driver = (s.view driver).withConfig c := Except.ok.inj hpipelines
        have hmodules := view_setupAllModuleConfigs driver libs env.module built
        dsimp only
        cases hlast : Storage.setupAllModuleConfigs driver libs env.module built with
        | error stop' => rw [hlast] at hmodules; contradiction
        | ok last =>
          rw [hlast, hview] at hmodules
          have hlastView := Except.ok.inj hmodules
          exact congrArg (fun seen : PersistentState =>
            Except.ok (seen.withConfig { seen.config with isSetup := true })) hlastView

/-- Every operation on the file and the tables is the operation of that name on the parameters. -/
theorem view_storageStep (s : StoredConfig D) (op : StorageOp) :
    (storageStep driver libs s op).map (StoredConfig.view driver) =
      paramStep libs (s.view driver) op := by
  cases op with
  | config op =>
    cases op with
    | storePipeline k content => exact congrArg Except.ok (view_storePipeline driver s k content)
    | storeModule j content => exact congrArg Except.ok (view_storeModule driver s j content)
    | setupPipeline k env => exact view_setupPipeline driver libs env k s
    | setupModuleConfig j env => exact view_setupModuleConfig driver libs env j s
    | setupCacheIfNeeded env => exact view_setupCacheIfNeeded driver libs env s
    | invalidateCache => rfl
  | setLogStatus value => exact congrArg Except.ok (view_setLogStatus driver s value)
  | setRadioNodeId value => exact congrArg Except.ok (view_setRadioNodeId driver s value)
  | setModuleTimeout value => exact congrArg Except.ok (view_setModuleTimeout driver s value)
  | restart => rfl

/-- In every run over the file, with new processes at any point, the parameters and the tables are
what the same run makes of a map of parameters: no write, and no error that is reported while a
definition is read, touches the bytes of another parameter. -/
theorem storage_refines_parameters (ops : List StorageOp) (s : StoredConfig D) :
    (Execution.run (storageStep driver libs) ops s).map (StoredConfig.view driver) =
      Execution.run (paramStep libs) ops (s.view driver) :=
  Execution.run_map (StoredConfig.view driver) (view_storageStep driver libs) ops s

end Dipp
