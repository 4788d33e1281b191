import Mathlib.Data.Nat.Notation

/-!
# Decoded messages and the libraries that decode them

The structures are those of the generated protobuf code, without the fields that no
modelled function reads. Brotli, protobuf-c and the dynamic loader are not part of the
program: they enter as the functions the program calls, and what a result assumes of
them is a hypothesis of that result.
-/

namespace Dipp

/-- A C string, as the bytes before its terminating zero. -/
abbrev CString := List UInt8

/-- A module of a pipeline definition: the name of its shared object and its parameter id. -/
structure ModuleDefinition where
  name : CString
  paramId : Int32
  deriving DecidableEq, Repr

/-- A decoded pipeline parameter. -/
structure PipelineDefinition where
  modules : List ModuleDefinition
  deriving DecidableEq, Repr

/-- The `value` union of a configuration parameter; floats are carried as their bits. -/
inductive ParameterValue where
  | notSet
  | boolValue (value : Int32)
  | intValue (value : Int32)
  | floatValue (bits : UInt32)
  | stringValue (value : CString)
  deriving DecidableEq, Repr

/-- The tag that says which member of the union is set. -/
inductive ValueCase where
  | notSet
  | boolValue
  | intValue
  | floatValue
  | stringValue
  deriving DecidableEq, Repr

/-- The tag of a value. -/
def ParameterValue.valueCase : ParameterValue → ValueCase
  | .notSet => .notSet
  | .boolValue _ => .boolValue
  | .intValue _ => .intValue
  | .floatValue _ => .floatValue
  | .stringValue _ => .stringValue

/-- A key with its value, as decoded from a module parameter. -/
structure ConfigParameter where
  key : CString
  value : ParameterValue
  deriving DecidableEq, Repr

/-- A decoded module parameter. -/
structure ModuleConfig where
  parameters : List ConfigParameter
  deriving DecidableEq, Repr

/-- The image metadata: the number of pixel bytes that follow it and the observation id. -/
structure Metadata where
  size : Int32
  obid : Int32
  deriving DecidableEq, Repr

/-- The address of a module's `run` function. -/
structure ModuleFunction where
  address : ℕ
  deriving DecidableEq, Repr

/-- The library functions the program calls; `none` is the failure or null result. -/
structure Libraries where
  brotliDecoderDecompress : (encoded : List UInt8) → (capacity : ℕ) → Option (List UInt8)
  pipelineDefinitionUnpack : List UInt8 → Option PipelineDefinition
  moduleConfigUnpack : List UInt8 → Option ModuleConfig
  metadataUnpack : List UInt8 → Option Metadata
  dlopen : CString → Option ℕ
  dlsym : (handle : ℕ) → CString → Option ModuleFunction

end Dipp
