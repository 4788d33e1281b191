import Dipp.Config.Slots
import Dipp.Library.Heap

/-!
# The memory behind the parameter lists

`setup_module_config` once more, with the blocks that it allocates and frees. An entry of
`module_parameter_lists` points to an array of pointers to parameters, which in turn point to
copies of their keys and strings. The array is assigned to the entry before it is filled, and
when a parameter cannot be allocated, the ones before it are freed in a second loop.

A call allocates the decoded buffer, the unpacked message, the array and, for each parameter,
its block, its key and its string, in this order. The message is one block here; the library
allocates and frees it as a whole.
-/

namespace Dipp.Memory

open Heap

/-- A pointer to an allocated block; null is `none`. -/
abbrev Pointer := Option ℕ

/-- The union of a parameter; nothing is written to it for an unset value. -/
inductive Value where
  | uninitialized
  | boolValue (value : Int32)
  | intValue (value : Int32)
  | floatValue (bits : UInt32)
  | stringValue (value : Pointer)
  deriving DecidableEq, Repr

/-- A parameter, with the pointers to its strings. -/
structure Parameter where
  key : Pointer
  valueCase : ValueCase
  value : Value
  deriving DecidableEq, Repr

/-- What a block was allocated for. -/
inductive Block where
  | buffer
  | message
  | array (slots : List Pointer)
  | parameter (parameter : Parameter)
  | text (text : CString)
  deriving DecidableEq, Repr

/-- The live blocks. -/
abbrev Blocks := Heap.Blocks ℕ Block

/-- An entry of `module_parameter_lists`. -/
structure ParameterList where
  nParameters : ℕ
  parameters : Pointer
  deriving DecidableEq, Repr

/-- The heap, the table that points into it, and the error state. -/
structure State where
  heap : Blocks
  lists : Fin maxModules → ParameterList
  err : ErrorState

/-- A new process has allocated nothing. -/
def State.boot (logStatus : UInt32) : State := ⟨∅, fun _ => ⟨0, none⟩, .boot logStatus⟩

/-- The environment of a setup call: besides what it is for the values, where blocks are placed
and whether there is memory for the unpacked message. -/
structure Env extends CallEnv where
  placer : Placer ℕ
  unpacked : Bool

/-- An environment without allocation failures. -/
def Env.ample : Env := ⟨.ample, .above, true⟩

/-- A parameter that nothing has been written to. -/
def Parameter.fresh : Parameter := ⟨none, .notSet, .uninitialized⟩

/-- `parameters[i]`, read. -/
def Block.slot (i : ℕ) : Block → Option Pointer
  | .array slots => slots[i]?
  | _ => none

/-- `parameters[i] = pointer`. -/
def Block.setSlot (i : ℕ) (pointer : Pointer) : Block → Option Block
  | .array slots => if i < slots.length then some (.array (slots.set i pointer)) else none
  | _ => none

/-- The parameter in a block. -/
def Block.asParameter : Block → Option Parameter
  | .parameter stored => some stored
  | _ => none

/-- `parameters[i]->key` and `parameters[i]->value_case` are assigned. -/
def Block.setKey (key : Pointer) (valueCase : ValueCase) : Block → Option Block
  | .parameter stored => some (.parameter { stored with key := key, valueCase := valueCase })
  | _ => none

/-- A member of the union is assigned. -/
def Block.setValue (value : Value) : Block → Option Block
  | .parameter stored => some (.parameter { stored with value := value })
  | _ => none

/-- `parameters[i]->string_value`, read; the other members are no pointers. -/
def Block.stringValue : Block → Option Pointer
  | .parameter ⟨_, _, .stringValue value⟩ => some value
  | _ => none

/-- The string in a block. -/
def Block.asText : Block → Option CString
  | .text stored => some stored
  | _ => none

variable (libs : Libraries) (env : Env)

/-- A copy of a string in a block of its own. -/
def strdup (available : Bool) (text : CString) (heap : Blocks) : Pointer × Blocks :=
  malloc env.placer available (.text text) heap

/-- Copy the union member that the value case selects. -/
def storeValue (i : ℕ) (value : ParameterValue) (heap : Blocks) : Value × Blocks :=
  match value with
  | .notSet => (.uninitialized, heap)
  | .boolValue value => (.boolValue value, heap)
  | .intValue value => (.intValue value, heap)
  | .floatValue bits => (.floatValue bits, heap)
  | .stringValue value =>
    let copy := strdup env (env.alloc.text i) value heap
    (.stringValue copy.1, copy.2)

/-- Fill the allocated parameter at an index. -/
def copyParameter (pointer : Pointer) (i : ℕ) (source : ConfigParameter) (heap : Blocks) :
    Except Fault Blocks := do
  let key := strdup env (env.alloc.copy i) source.key heap
  let keyed ← modify (Block.setKey key.1 source.value.valueCase) pointer key.2
  let value := storeValue env i source.value keyed
  modify (Block.setValue value.1) pointer value.2

/-- Free the string of a parameter, if its value is one. -/
def freeString (pointer : Pointer) (heap : Blocks) : Except Fault Blocks := do
  let parameter ← load Block.asParameter pointer heap
  if parameter.valueCase = .stringValue then do
    let value ← load Block.stringValue pointer heap
    free value heap
  else .ok heap

/-- Free the parameter at an index, with its string. -/
def freeParameter (array : Pointer) (j : ℕ) (heap : Blocks) : Except Fault Blocks := do
  let pointer ← load (Block.slot j) array heap
  let remaining ← freeString pointer heap
  free pointer remaining

/-- Free a number of parameters from an index on. -/
def freeParameters (array : Pointer) : (j count : ℕ) → Blocks → Except Fault Blocks
  | _, 0, heap => .ok heap
  | j, count + 1, heap => do
    let remaining ← freeParameter array j heap
    freeParameters array (j + 1) count remaining

/-- Allocate and fill the parameters from an index on. If one of them cannot be allocated, the
earlier ones and the array are freed. -/
def copyParameters (array : Pointer) : (i : ℕ) → List ConfigParameter → Blocks →
    Except Fault (Bool × Blocks)
  | _, [], heap => .ok (true, heap)
  | i, source :: rest, heap => do
    let parameter := malloc env.placer (env.alloc.parameter i) (.parameter .fresh) heap
    let assigned ← modify (Block.setSlot i parameter.1) array parameter.2
    if parameter.1 = none then do
      let remaining ← freeParameters array 0 i assigned
      let cleaned ← free array remaining
      .ok (false, cleaned)
    else do
      let filled ← copyParameter env parameter.1 i source assigned
      copyParameters array (i + 1) rest filled

/-- A message, if there is one, with the block that it occupies. -/
structure Unpacked where
  mcon : Option ModuleConfig
  block : Pointer
  heap : Blocks
  err : ErrorState

/-- Decode a parameter into a buffer, unpack the buffer and free it. -/
def unpack (content : ParamData) (err : ErrorState) (heap : Blocks) : Except Fault Unpacked := do
  let got := getParamBuffer libs env.toCallEnv content err
  let buffer := malloc env.placer got.1.buffer.isSome .buffer heap
  let mcon := if env.unpacked then libs.moduleConfigUnpack got.1.contents else none
  let message := malloc env.placer mcon.isSome .message buffer.2
  let remaining ← free buffer.1 message.2
  .ok ⟨mcon, message.1, remaining, got.2⟩

/-- The array pointer that an entry is given, whether its parameters were all copied, and the
heap. -/
structure Copied where
  array : Pointer
  complete : Bool
  heap : Blocks

/-- Allocate the array and the parameters of a message. -/
def copyConfig (mcon : ModuleConfig) (heap : Blocks) : Except Fault Copied := do
  let array := malloc env.placer env.alloc.parameters
    (.array (List.replicate mcon.parameters.length none)) heap
  if array.1 = none then .ok ⟨none, false, array.2⟩
  else do
    let copied ← copyParameters env array.1 0 mcon.parameters array.2
    .ok ⟨array.1, copied.1, copied.2⟩

/-- Rebuild the parameter list of a module parameter. What the entry pointed to before is
overwritten. -/
def setupModuleConfig (j : Fin maxModules) (content : ParamData) (c : State) :
    Except Fault State := do
  let unpacked ← unpack libs env content c.err c.heap
  match unpacked.mcon with
  | none => .ok { c with heap := unpacked.heap, err := unpacked.err }
  | some mcon =>
    let copied ← copyConfig env mcon unpacked.heap
    let remaining ← free unpacked.block copied.heap
    .ok {
      heap := remaining
      lists := Function.update c.lists j ⟨mcon.parameters.length, copied.array⟩
      err :=
        if copied.complete then unpacked.err
        else setErrorParam ErrorCode.memoryMalloc.value unpacked.err }

/-- A setup call: the index of its module parameter, the content it finds there, and its
environment. -/
structure Call where
  index : Fin maxModules
  content : ParamData
  env : Env

/-- Perform one setup call. -/
def step (c : State) (call : Call) : Except Fault State :=
  setupModuleConfig libs call.env call.index call.content c

/-- The parameter behind a slot of an array. -/
def parameterAt (heap : Blocks) (array : Pointer) (i : ℕ) : Option Parameter :=
  read Block.asParameter (read (Block.slot i) array heap).join heap

/-- The pointers in a union: that to a string. -/
def Value.pointers : Value → List Pointer
  | .stringValue value => [value]
  | _ => []

/-- The pointers in a parameter: its key and, for a string, its value. -/
def Parameter.pointers (parameter : Parameter) : List Pointer :=
  parameter.key :: parameter.value.pointers

/-- The pointers reached through a slot of an array. -/
def slotPointers (heap : Blocks) (array : Pointer) (i : ℕ) : List Pointer :=
  (read (Block.slot i) array heap).join ::
    ((parameterAt heap array i).map Parameter.pointers).getD []

/-- The pointers reachable from a table entry; an entry without parameters may be null. -/
def ParameterList.pointers (heap : Blocks) (list : ParameterList) : List Pointer :=
  if list.nParameters = 0 ∧ list.parameters = none then []
  else list.parameters :: (List.range list.nParameters).flatMap (slotPointers heap list.parameters)

/-- Every pointer reachable from the table leads to a live block, and every live block is
reachable from exactly one table entry. -/
def State.OwnsExactly (c : State) : Prop :=
  Owned c.heap fun j => (c.lists j).pointers c.heap

/-- The value of a union, with its string. -/
def Value.view (heap : Blocks) : Value → StoredValue
  | .uninitialized => .uninitialized
  | .boolValue value => .boolValue value
  | .intValue value => .intValue value
  | .floatValue bits => .floatValue bits
  | .stringValue value => .stringValue (read Block.asText value heap)

/-- The value of a parameter, with its strings. -/
def Parameter.view (heap : Blocks) (parameter : Parameter) : ModuleParameter :=
  ⟨read Block.asText parameter.key heap, parameter.valueCase, parameter.value.view heap⟩

/-- The value of a table entry, with its parameters. -/
def ParameterList.view (heap : Blocks) (list : ParameterList) : ModuleParameterList where
  nParameters := list.nParameters
  parameters :=
    match list.parameters with
    | none => .null
    | some array =>
      if array ∈ heap then
        .array ((List.range list.nParameters).filterMap fun i =>
          (parameterAt heap (some array) i).map (Parameter.view heap))
      else .freed

end Dipp.Memory
