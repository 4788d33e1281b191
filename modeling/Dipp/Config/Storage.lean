import Dipp.Config.Setup
import Dipp.Library.LittleEndian
import Dipp.Library.Regions
import Mathlib.Data.Fin.VecNotation

/-!
# The storage file behind the parameters

The parameters that outlive a process lie in one file, `storage.vmem`, at the addresses of
`vmem_storage.h`: six pipelines, twenty modules, the latest error, the node of the radio
and the timeout of the modules. Every access goes through the file. A setup call reads its
parameter there, and an error that it meets on the way is written there, between the
definitions that it is reading. These are the functions of `dipp_config.c` again, over the
bytes of the file and with the tables changed in place.
-/

namespace Dipp

open LittleEndian Regions

/-- The parameters in the storage. -/
inductive StoredParam where
  | pipelineConfig (k : Fin maxPipelines)
  | moduleParam (j : Fin maxModules)
  | logStatus
  | radioNodeId
  | moduleTimeout
  deriving DecidableEq

/-- The size of the storage file. -/
def storageSize : ℕ := 10000

/-- The addresses `VMEM_CONF_PIPELINE_1` to `VMEM_CONF_PIPELINE_6`. -/
def vmemConfPipeline : Fin maxPipelines → ℕ := ![0x00, 0xBC, 0x178, 0x234, 0x2F0, 0x3AC]

/-- The addresses `VMEM_CONF_MODULE_1` to `VMEM_CONF_MODULE_20`. -/
def vmemConfModule : Fin maxModules → ℕ :=
  ![0x468, 0x524, 0x5E0, 0x69C, 0x758, 0x814, 0x8D0, 0x98C, 0xA48, 0xB04,
    0xBC0, 0xC7C, 0xD38, 0xDF4, 0xEB0, 0xF6C, 0x1028, 0x10E4, 0x11A0, 0x125C]

/-- The address of a parameter. -/
def StoredParam.address : StoredParam → ℕ
  | .pipelineConfig k => vmemConfPipeline k
  | .moduleParam j => vmemConfModule j
  | .logStatus => 0x1318
  | .radioNodeId => 0x131C
  | .moduleTimeout => 0x131D

/-- The number of bytes of a parameter. -/
def StoredParam.size : StoredParam → ℕ
  | .pipelineConfig _ => dataParamSize
  | .moduleParam _ => dataParamSize
  | .logStatus => 4
  | .radioNodeId => 1
  | .moduleTimeout => 4

/-- A parameter of `DATA_PARAM_SIZE` bytes. -/
structure DataParam where
  param : StoredParam
  size_eq : param.size = dataParamSize

/-- The array `pipeline_config_params`. -/
def pipelineConfigParams (k : Fin maxPipelines) : DataParam := ⟨.pipelineConfig k, rfl⟩

/-- The array `module_config_params`. -/
def moduleConfigParams (j : Fin maxModules) : DataParam := ⟨.moduleParam j, rfl⟩

/-- `PIPELINE_PARAMID_OFFSET`. -/
def pipelineParamidOffset : ℕ := 10

/-- `MODULE_PARAMID_OFFSET`. -/
def moduleParamidOffset : ℕ := 30

/-- The ids `PARAMID_PIPELINE_CONFIG_1` to `PARAMID_PIPELINE_CONFIG_6`. -/
def paramidPipelineConfig : Fin maxPipelines → ℕ := ![10, 11, 12, 13, 14, 15]

/-- The ids `PARAMID_MODULE_PARAM_1` to `PARAMID_MODULE_PARAM_20`. -/
def paramidModuleParam : Fin maxModules → ℕ :=
  ![30, 31, 32, 33, 34, 35, 36, 37, 38, 39, 40, 41, 42, 43, 44, 45, 46, 47, 48, 49]

/-- The id of a parameter. -/
def StoredParam.id : StoredParam → ℕ
  | .pipelineConfig k => paramidPipelineConfig k
  | .moduleParam j => paramidModuleParam j
  | .logStatus => 2
  | .radioNodeId => 3
  | .moduleTimeout => 4

/-- The entry of a table that an id minus its offset selects. -/
def tableIndex (offset n id : ℕ) : Option (Fin n) :=
  if h : offset ≤ id ∧ id - offset < n then some ⟨id - offset, h.2⟩ else none

/-- The id of a pipeline parameter selects the entry of the pipeline. -/
theorem tableIndex_pipelineConfig (k : Fin maxPipelines) :
    tableIndex pipelineParamidOffset maxPipelines (StoredParam.pipelineConfig k).id = some k := by
  revert k
  decide

/-- The id of a module parameter selects the entry of the module. -/
theorem tableIndex_moduleParam (j : Fin maxModules) :
    tableIndex moduleParamidOffset maxModules (StoredParam.moduleParam j).id = some j := by
  revert j
  decide

/-- The pipeline parameters lie one behind the other. -/
theorem vmemConfPipeline_eq (k : Fin maxPipelines) : vmemConfPipeline k = dataParamSize * k := by
  revert k
  decide

/-- The module parameters lie behind them, one behind the other. -/
theorem vmemConfModule_eq (j : Fin maxModules) :
    vmemConfModule j = dataParamSize * (maxPipelines + j) := by
  revert j
  decide

/-- Every parameter lies in the file. -/
theorem StoredParam.inside (param : StoredParam) : param.address + param.size ≤ storageSize := by
  cases param with
  | pipelineConfig k =>
    have hk : (k : ℕ) < 6 := k.isLt
    simp only [address, size, vmemConfPipeline_eq, storageSize, dataParamSize]
    omega
  | moduleParam j =>
    have hj : (j : ℕ) < 20 := j.isLt
    simp only [address, size, vmemConfModule_eq, storageSize, dataParamSize, maxPipelines]
    omega
  | logStatus => decide
  | radioNodeId => decide
  | moduleTimeout => decide

/-- The place of a parameter in the order of the addresses. -/
def StoredParam.rank : StoredParam → ℕ
  | .pipelineConfig k => k
  | .moduleParam j => maxPipelines + j
  | .logStatus => maxPipelines + maxModules
  | .radioNodeId => maxPipelines + maxModules + 1
  | .moduleTimeout => maxPipelines + maxModules + 2

/-- No two parameters have the same place. -/
theorem StoredParam.rank_injective : Function.Injective StoredParam.rank := by
  intro param param' h
  cases param <;> cases param' <;> simp only [rank, maxPipelines, maxModules] at h <;>
    first | rfl | (congr 1; omega)

/-- A parameter ends where a later one starts, or before. -/
theorem StoredParam.end_le {param param' : StoredParam} (h : param.rank < param'.rank) :
    param.address + param.size ≤ param'.address := by
  cases param <;> cases param' <;>
    simp only [rank, address, size, vmemConfPipeline_eq, vmemConfModule_eq, dataParamSize,
      maxPipelines, maxModules] at h ⊢ <;> omega

/-- The layout of the file. -/
def storageLayout : Layout StoredParam storageSize where
  offset := StoredParam.address
  length := StoredParam.size
  inside := StoredParam.inside
  disjoint param param' hne := by
    rcases lt_or_gt_of_ne (StoredParam.rank_injective.ne hne) with hlt | hgt
    · exact .inl (StoredParam.end_le hlt)
    · exact .inr (StoredParam.end_le hgt)

/-- The storage file, with what the process itself keeps of the configuration. -/
structure StoredConfig (D : Type*) where
  file : D
  pipelines : Fin maxPipelines → Pipeline
  moduleParameterLists : Fin maxModules → ModuleParameterList
  isSetup : Bool
  errCurrentPipeline : UInt8
  errCurrentModule : UInt8

/-- A new process over a file. -/
def StoredConfig.boot {D : Type*} (file : D) : StoredConfig D where
  file := file
  pipelines := fun _ => .zero
  moduleParameterLists := fun _ => ⟨0, .null⟩
  isSetup := false
  errCurrentPipeline := 0
  errCurrentModule := 0

variable {D : Type*} (driver : Driver D UInt8 storageSize)

/-- The bytes of a parameter. -/
def paramGetData (file : D) (data : DataParam) : ParamData where
  bytes := load driver storageLayout file data.param
  length_eq := (length_load driver storageLayout file data.param).trans data.size_eq

/-- The value of a `uint32_t` parameter. -/
def paramGetUint32 (file : D) (param : StoredParam) : UInt32 :=
  UInt32.ofNat (decode (load driver storageLayout file param))

/-- The value of a `uint8_t` parameter. -/
def paramGetUint8 (file : D) (param : StoredParam) : UInt8 :=
  UInt8.ofNat (decode (load driver storageLayout file param))

/-- Write the bytes of a parameter. -/
def paramSetData (data : DataParam) (content : ParamData) (file : D) : D :=
  store driver storageLayout file data.param content.bytes

/-- Write a `uint32_t` parameter. -/
def paramSetUint32 (param : StoredParam) (value : UInt32) (file : D) : D :=
  store driver storageLayout file param (encode 4 value.toNat)

/-- Write a `uint8_t` parameter. -/
def paramSetUint8 (param : StoredParam) (value : UInt8) (file : D) : D :=
  store driver storageLayout file param (encode 1 value.toNat)

namespace Storage

/-- The error globals, and `log_status` as the file has it. -/
def errorState (s : StoredConfig D) : ErrorState :=
  ⟨s.errCurrentPipeline, s.errCurrentModule, paramGetUint32 driver s.file .logStatus⟩

/-- Write an error code, with its suffix, to `log_status`. -/
def setErrorParam (code : UInt32) (s : StoredConfig D) : StoredConfig D :=
  let value := getErrorAsUint32 code (errorState driver s)
  { s with file := paramSetUint32 driver .logStatus value s.file }

variable (libs : Libraries) (env : CallEnv)

/-- Decompress the bytes of a parameter into an allocated buffer. -/
def getParamBuffer (param : ParamData) (s : StoredConfig D) : ParamBuffer × StoredConfig D :=
  if isBufferEmpty param.bytes then (⟨none, 0⟩, s)
  else
    match libs.brotliDecoderDecompress (brotliInput env param) dataParamSize with
    | none => (⟨none, 0⟩, setErrorParam driver ErrorCode.internalBrotliDecode.value s)
    | some decoded =>
      if env.alloc.decoded then (⟨some decoded, decoded.length⟩, s)
      else (⟨none, 0⟩, setErrorParam driver ErrorCode.memoryMalloc.value s)

/-- Load a shared object and look up its `run` function. -/
def loadModule (moduleName : CString) (s : StoredConfig D) :
    Option ModuleFunction × StoredConfig D :=
  match libs.dlopen (moduleFilename moduleName) with
  | none => (none, setErrorParam driver ErrorCode.internalSoNotFound.value s)
  | some handle =>
    match libs.dlsym handle "run".toUTF8.data.toList with
    | none => (none, setErrorParam driver ErrorCode.internalRunNotFound.value s)
    | some function => (some function, s)

/-- The loop over the modules of a definition, which writes into the table. -/
def setupModules (k : Fin maxPipelines) : (idx : ℕ) → List ModuleDefinition → StoredConfig D →
    Except Stop (StoredConfig D)
  | _, [], s => .ok s
  | idx, mdef :: rest, s =>
    let loaded := loadModule driver libs mdef.name s
    match (loaded.2.pipelines k).setModule idx
        ⟨strdup (env.alloc.copy idx) mdef.name, loaded.1, mdef.paramId - 1⟩ with
    | .error stop => .error stop
    | .ok written =>
      setupModules k (idx + 1) rest
        { loaded.2 with pipelines := Function.update loaded.2.pipelines k written }

/-- The entry of a pipeline with the id and the length of a definition. -/
def startPipeline (k : Fin maxPipelines) (pdef : PipelineDefinition) (s : StoredConfig D) :
    StoredConfig D :=
  { s with pipelines := Function.update s.pipelines k { s.pipelines k with
      pipelineId := Int32.ofNat (k + 1), numModules := pdef.modules.length } }

/-- Rebuild the pipeline of a parameter. -/
def setupPipeline (data : DataParam) (s : StoredConfig D) : Except Stop (StoredConfig D) :=
  let got := getParamBuffer driver libs env (paramGetData driver s.file data) s
  match libs.pipelineDefinitionUnpack got.1.contents with
  | none => .ok got.2
  | some pdef =>
    match tableIndex pipelineParamidOffset maxPipelines data.param.id with
    | none => .error .outOfBounds
    | some k => setupModules driver libs env k 0 pdef.modules (startPipeline k pdef got.2)

/-- Rebuild the parameter list of a module parameter. -/
def setupModuleConfig (data : DataParam) (s : StoredConfig D) : Except Stop (StoredConfig D) :=
  let got := getParamBuffer driver libs env (paramGetData driver s.file data) s
  match libs.moduleConfigUnpack got.1.contents with
  | none => .ok got.2
  | some mcon =>
    match tableIndex moduleParamidOffset maxModules data.param.id with
    | none => .error .outOfBounds
    | some j =>
      let set (parameters : ParameterArray) := { got.2 with
        moduleParameterLists := Function.update got.2.moduleParameterLists j
          ⟨mcon.parameters.length, parameters⟩ }
      if env.alloc.parameters then
        match copyParameters env.alloc 0 mcon.parameters with
        | some parameters => .ok (set (.array parameters))
        | none => .ok (setErrorParam driver ErrorCode.memoryMalloc.value (set .freed))
      else .ok (setErrorParam driver ErrorCode.memoryMalloc.value (set .null))

/-- Set up the parameters of the array `pipeline_config_params`. -/
def setupAllPipelines (env : Fin maxPipelines → CallEnv) (s : StoredConfig D) :
    Except Stop (StoredConfig D) :=
  (List.finRange maxPipelines).foldlM
    (fun s k => setupPipeline driver libs (env k) (pipelineConfigParams k) s) s

/-- Set up the parameters of the array `module_config_params`. -/
def setupAllModuleConfigs (env : Fin maxModules → CallEnv) (s : StoredConfig D) :
    Except Stop (StoredConfig D) :=
  (List.finRange maxModules).foldlM
    (fun s j => setupModuleConfig driver libs (env j) (moduleConfigParams j) s) s

/-- Rebuild both tables unless they are marked as set up. -/
def setupCacheIfNeeded (env : RebuildEnv) (s : StoredConfig D) : Except Stop (StoredConfig D) :=
  if s.isSetup then .ok s
  else
    match setupAllPipelines driver libs env.pipeline s with
    | .error stop => .error stop
    | .ok pipelines =>
      match setupAllModuleConfigs driver libs env.module pipelines with
      | .error stop => .error stop
      | .ok built => .ok { built with isSetup := true }

/-- Mark the tables as not set up. -/
def invalidateCache (s : StoredConfig D) : StoredConfig D := { s with isSetup := false }

end Storage

/-- What can happen to the storage: an operation on the configuration, a write of one of the other
parameters, or a new process over the same file. -/
inductive StorageOp where
  | config (op : ConfigOp)
  | setLogStatus (value : UInt32)
  | setRadioNodeId (value : UInt8)
  | setModuleTimeout (value : UInt32)
  | restart

/-- Perform an operation on the file and the tables. -/
def storageStep (libs : Libraries) (s : StoredConfig D) :
    StorageOp → Except Stop (StoredConfig D)
  | .config (.storePipeline k content) =>
    .ok { s with file := paramSetData driver (pipelineConfigParams k) content s.file }
  | .config (.storeModule j content) =>
    .ok { s with file := paramSetData driver (moduleConfigParams j) content s.file }
  | .config (.setupPipeline k env) =>
    Storage.setupPipeline driver libs env (pipelineConfigParams k) s
  | .config (.setupModuleConfig j env) =>
    Storage.setupModuleConfig driver libs env (moduleConfigParams j) s
  | .config (.setupCacheIfNeeded env) => Storage.setupCacheIfNeeded driver libs env s
  | .config .invalidateCache => .ok (Storage.invalidateCache s)
  | .setLogStatus value => .ok { s with file := paramSetUint32 driver .logStatus value s.file }
  | .setRadioNodeId value => .ok { s with file := paramSetUint8 driver .radioNodeId value s.file }
  | .setModuleTimeout value =>
    .ok { s with file := paramSetUint32 driver .moduleTimeout value s.file }
  | .restart => .ok (.boot s.file)

end Dipp
