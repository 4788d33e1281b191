import Dipp.Error
import Dipp.Messages
import Mathlib.Logic.Function.Basic
import Mathlib.Data.List.FinRange

/-!
# Stored parameters and the tables built from them

The configuration lives twice: as the 188-byte contents of the stored parameters, and
as the `pipelines` and `module_parameter_lists` tables that the processing code reads.
A pipeline entry has room for `MAX_MODULES` modules, of which the first `num_modules`
are in use; what an earlier, longer definition left behind them stays in place.
-/

namespace Dipp

/-- `MAX_MODULES`. -/
abbrev maxModules : ℕ := 20

/-- `MAX_PIPELINES`. -/
abbrev maxPipelines : ℕ := 6

/-- There is a first module. -/
instance : NeZero maxModules := ⟨by decide⟩

/-- There is a first pipeline. -/
instance : NeZero maxPipelines := ⟨by decide⟩

/-- `DATA_PARAM_SIZE`. -/
abbrev dataParamSize : ℕ := 188

/-- The content of a stored pipeline or module parameter. -/
structure ParamData where
  bytes : List UInt8
  length_eq : bytes.length = dataParamSize

/-- A parameter that was never written. -/
def ParamData.zero : ParamData := ⟨List.replicate dataParamSize 0, List.length_replicate⟩

/-- An entry of a cached pipeline; a null pointer is `none`. -/
structure Module where
  moduleName : Option CString
  moduleFunction : Option ModuleFunction
  moduleParamId : Int32
  deriving DecidableEq, Repr

/-- A cached pipeline. -/
structure Pipeline where
  pipelineId : Int32
  modules : Fin maxModules → Module
  numModules : ℕ

/-- An entry of the zero-initialised `pipelines` array. -/
def Pipeline.zero : Pipeline := ⟨0, fun _ => ⟨none, none, 0⟩, 0⟩

/-- The entries in use, in order. -/
def Pipeline.live (pipeline : Pipeline) : List Module :=
  ((List.finRange maxModules).take pipeline.numModules).map pipeline.modules

/-- The union of a cached parameter; nothing is written to it for an unset value. -/
inductive StoredValue where
  | uninitialized
  | boolValue (value : Int32)
  | intValue (value : Int32)
  | floatValue (bits : UInt32)
  | stringValue (value : Option CString)
  deriving DecidableEq, Repr

/-- A cached configuration parameter; its strings are copies, null if the copy failed. -/
structure ModuleParameter where
  key : Option CString
  valueCase : ValueCase
  value : StoredValue
  deriving DecidableEq, Repr

/-- The `parameters` pointer of a list: null, an array of parameters, or memory already freed. -/
inductive ParameterArray where
  | null
  | array (parameters : List ModuleParameter)
  | freed
  deriving DecidableEq, Repr

/-- An entry of `module_parameter_lists`. -/
structure ModuleParameterList where
  nParameters : ℕ
  parameters : ParameterArray
  deriving DecidableEq, Repr

/-- The stored parameters, the tables, the `is_setup` flag and the error state. -/
structure ConfigState where
  pipelineParams : Fin maxPipelines → ParamData
  moduleParams : Fin maxModules → ParamData
  pipelines : Fin maxPipelines → Pipeline
  moduleParameterLists : Fin maxModules → ModuleParameterList
  isSetup : Bool
  err : ErrorState

/-- A new process: zero tables, and whatever an earlier process left in the storage. -/
def ConfigState.boot (pipelineParams : Fin maxPipelines → ParamData)
    (moduleParams : Fin maxModules → ParamData) (logStatus : UInt32) : ConfigState where
  pipelineParams := pipelineParams
  moduleParams := moduleParams
  pipelines := fun _ => .zero
  moduleParameterLists := fun _ => ⟨0, .null⟩
  isSetup := false
  err := .boot logStatus

end Dipp
