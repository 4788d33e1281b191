import Dipp.Config.Tables

/-!
# Building the tables

The functions of `dipp_config.c`. A parameter starts with the length of its Brotli
stream. It is decompressed into a fresh buffer, unpacked, and copied into the table
entry of its index. Every failing stage reports an error and hands the next stage a
buffer of size zero, except unpacking, whose null result makes the caller return.

What a call depends on besides its arguments is passed as its environment: which of its
allocations succeed, and the stack bytes behind the local copy of the parameter, which
the decoder is given when the length prefix exceeds the parameter.
-/

namespace Dipp

/-- Which allocations of a call succeed; the copies are those of names, keys and strings. -/
structure Allocator where
  decoded : Bool
  parameters : Bool
  parameter : ℕ → Bool
  copy : ℕ → Bool
  text : ℕ → Bool

/-- No allocation of the call fails. -/
structure Allocator.Succeeds (alloc : Allocator) : Prop where
  decoded : alloc.decoded = true
  parameters : alloc.parameters = true
  parameter : ∀ i, alloc.parameter i = true
  copy : ∀ i, alloc.copy i = true
  text : ∀ i, alloc.text i = true

/-- The environment of one setup call. -/
structure CallEnv where
  stack : ℕ → UInt8
  alloc : Allocator

/-- An environment without allocation failures. -/
def CallEnv.ample : CallEnv :=
  ⟨fun _ => 0, ⟨true, true, fun _ => true, fun _ => true, fun _ => true⟩⟩

/-- Such an environment exists. -/
theorem CallEnv.ample_succeeds : CallEnv.ample.alloc.Succeeds :=
  ⟨rfl, rfl, fun _ => rfl, fun _ => rfl, fun _ => rfl⟩

/-- The environments of the setup calls of one rebuild. -/
structure RebuildEnv where
  pipeline : Fin maxPipelines → CallEnv
  module : Fin maxModules → CallEnv

variable (libs : Libraries) (env : CallEnv)

/-- A copy of a string, null if memory runs out. -/
def strdup (available : Bool) (text : CString) : Option CString :=
  if available then some text else none

/-- Whether all bytes are zero. -/
def isBufferEmpty (buffer : List UInt8) : Bool := buffer.all (· == 0)

/-- The bytes the decoder is given: as many as the prefix says, wherever the parameter ends. -/
def brotliInput (param : ParamData) : List UInt8 :=
  let size := (param.bytes.headD 0).toNat
  (param.bytes.tail ++ (List.range size).map env.stack).take size

/-- The buffer pointer and size that `get_param_buffer` hands back. -/
structure ParamBuffer where
  buffer : Option (List UInt8)
  size : ℕ

/-- The bytes the unpacking functions read through the pointer and the size. -/
def ParamBuffer.contents (got : ParamBuffer) : List UInt8 := (got.buffer.getD []).take got.size

/-- Decompress a stored parameter into an allocated buffer. -/
def getParamBuffer (param : ParamData) (err : ErrorState) : ParamBuffer × ErrorState :=
  if isBufferEmpty param.bytes then (⟨none, 0⟩, err)
  else
    match libs.brotliDecoderDecompress (brotliInput env param) dataParamSize with
    | none => (⟨none, 0⟩, setErrorParam ErrorCode.internalBrotliDecode.value err)
    | some decoded =>
      if env.alloc.decoded then (⟨some decoded, decoded.length⟩, err)
      else (⟨none, 0⟩, setErrorParam ErrorCode.memoryMalloc.value err)

/-- The path of a module's shared object, cut to the 255 characters of the local buffer. -/
def moduleFilename (moduleName : CString) : CString :=
  ("/usr/share/pipeline/".toUTF8.data.toList ++ moduleName ++ ".so".toUTF8.data.toList).take 255

/-- Load a shared object and look up its `run` function. -/
def loadModule (moduleName : CString) (err : ErrorState) : Option ModuleFunction × ErrorState :=
  match libs.dlopen (moduleFilename moduleName) with
  | none => (none, setErrorParam ErrorCode.internalSoNotFound.value err)
  | some handle =>
    match libs.dlsym handle "run".toUTF8.data.toList with
    | none => (none, setErrorParam ErrorCode.internalRunNotFound.value err)
    | some function => (some function, err)

/-- Write one module entry; there is no room behind the last one. -/
def Pipeline.setModule (pipeline : Pipeline) (idx : ℕ) (entry : Module) : Except Stop Pipeline :=
  if h : idx < maxModules then
    .ok { pipeline with modules := Function.update pipeline.modules ⟨idx, h⟩ entry }
  else .error .outOfBounds

/-- The loop of `setup_pipeline` over the modules of a definition, from an index on. -/
def setupModules : (idx : ℕ) → List ModuleDefinition → Pipeline → ErrorState →
    Except Stop (Pipeline × ErrorState)
  | _, [], pipeline, err => .ok (pipeline, err)
  | idx, mdef :: rest, pipeline, err =>
    let loaded := loadModule libs mdef.name err
    match pipeline.setModule idx
        ⟨strdup (env.alloc.copy idx) mdef.name, loaded.1, mdef.paramId - 1⟩ with
    | .error stop => .error stop
    | .ok written => setupModules (idx + 1) rest written loaded.2

/-- Rebuild the pipeline of a parameter; `param->id - PIPELINE_PARAMID_OFFSET` is its index. -/
def setupPipeline (k : Fin maxPipelines) (c : ConfigState) : Except Stop ConfigState :=
  let got := getParamBuffer libs env (c.pipelineParams k) c.err
  match libs.pipelineDefinitionUnpack got.1.contents with
  | none => .ok { c with err := got.2 }
  | some pdef =>
    let pipeline := { c.pipelines k with
      pipelineId := Int32.ofNat (k + 1), numModules := pdef.modules.length }
    match setupModules libs env 0 pdef.modules pipeline got.2 with
    | .error stop => .error stop
    | .ok (written, err) =>
      .ok { c with pipelines := Function.update c.pipelines k written, err := err }

/-- Copy the union member that the value case selects. -/
def storeValue (alloc : Allocator) (i : ℕ) : ParameterValue → StoredValue
  | .notSet => .uninitialized
  | .boolValue value => .boolValue value
  | .intValue value => .intValue value
  | .floatValue bits => .floatValue bits
  | .stringValue value => .stringValue (strdup (alloc.text i) value)

/-- Copy the parameters from an index on; `none` if one of them cannot be allocated. -/
def copyParameters (alloc : Allocator) : (i : ℕ) → List ConfigParameter →
    Option (List ModuleParameter)
  | _, [] => some []
  | i, parameter :: rest =>
    if alloc.parameter i then
      (copyParameters alloc (i + 1) rest).map
        (List.cons ⟨strdup (alloc.copy i) parameter.key, parameter.value.valueCase,
          storeValue alloc i parameter.value⟩)
    else none

/-- Rebuild the parameter list of a module parameter; its id minus the offset is its index. -/
def setupModuleConfig (j : Fin maxModules) (c : ConfigState) : ConfigState :=
  let got := getParamBuffer libs env (c.moduleParams j) c.err
  match libs.moduleConfigUnpack got.1.contents with
  | none => { c with err := got.2 }
  | some mcon =>
    let n := mcon.parameters.length
    let set (parameters : ParameterArray) :=
      Function.update c.moduleParameterLists j ⟨n, parameters⟩
    if env.alloc.parameters then
      match copyParameters env.alloc 0 mcon.parameters with
      | some parameters => { c with moduleParameterLists := set (.array parameters), err := got.2 }
      | none =>
        { c with
          moduleParameterLists := set .freed
          err := setErrorParam ErrorCode.memoryMalloc.value got.2 }
    else
      { c with
        moduleParameterLists := set .null
        err := setErrorParam ErrorCode.memoryMalloc.value got.2 }

/-- Set up every pipeline, in index order. -/
def setupAllPipelines (env : Fin maxPipelines → CallEnv) (c : ConfigState) :
    Except Stop ConfigState :=
  (List.finRange maxPipelines).foldlM (fun c k => setupPipeline libs (env k) k c) c

/-- Set up every module configuration, in index order. -/
def setupAllModuleConfigs (env : Fin maxModules → CallEnv) (c : ConfigState) : ConfigState :=
  (List.finRange maxModules).foldl (fun c j => setupModuleConfig libs (env j) j c) c

/-- Rebuild both tables unless they are marked as set up. -/
def setupCacheIfNeeded (env : RebuildEnv) (c : ConfigState) : Except Stop ConfigState :=
  if c.isSetup then .ok c
  else do
    let built ← setupAllPipelines libs env.pipeline c
    pure { setupAllModuleConfigs libs env.module built with isSetup := true }

/-- Mark the tables as not set up. -/
def invalidateCache (c : ConfigState) : ConfigState := { c with isSetup := false }

/-- What can happen to the configuration: a parameter is stored, its callback runs, the cache is
set up or invalidated. -/
inductive ConfigOp where
  | storePipeline (k : Fin maxPipelines) (content : ParamData)
  | storeModule (j : Fin maxModules) (content : ParamData)
  | setupPipeline (k : Fin maxPipelines) (env : CallEnv)
  | setupModuleConfig (j : Fin maxModules) (env : CallEnv)
  | setupCacheIfNeeded (env : RebuildEnv)
  | invalidateCache

/-- Perform one operation on the configuration. -/
def configStep (c : ConfigState) : ConfigOp → Except Stop ConfigState
  | .storePipeline k content =>
    .ok { c with pipelineParams := Function.update c.pipelineParams k content }
  | .storeModule j content =>
    .ok { c with moduleParams := Function.update c.moduleParams j content }
  | .setupPipeline k env => setupPipeline libs env k c
  | .setupModuleConfig j env => .ok (setupModuleConfig libs env j c)
  | .setupCacheIfNeeded env => setupCacheIfNeeded libs env c
  | .invalidateCache => .ok (invalidateCache c)

end Dipp
