import Dipp.Batch
import Dipp.Config.Setup
import Dipp.Library.Memory
import Dipp.Library.Stages

/-!
# The operating system and the modules

What the processing thread meets outside of its own code: system calls that may fail,
modules that run in a process of their own, attached segments, and the memory available
to a rebuild of the cache. All of it is a function of a world that moves on with every
fork, every module run and every attachment, so that a later call may have another
outcome than an earlier one.
-/

namespace Dipp

/-- How a module process ends: it returns a batch, calls `exit` itself, dies by a signal, or runs
into the timeout. -/
inductive ModuleEnding where
  | returned (result : ImageBatch)
  | exited (status : UInt8)
  | killed
  | timedOut
  deriving DecidableEq, Repr

/-- The error codes a module writes to its error pipe, and how it ends. -/
structure ModuleRun where
  codes : List UInt16
  ending : ModuleEnding
  deriving DecidableEq, Repr

/-- The status that `waitpid` delivers. -/
inductive WaitStatus where
  | exited (status : UInt8)
  | signaled
  deriving DecidableEq, Repr

/-- The result of `shmat`: a null pointer, `(void *)-1`, or the address of a segment. -/
inductive Attachment where
  | null
  | failed
  | attached (address : UInt64) (mem : Mapped.Memory)

/-- A module as it is called: its function, null if it could not be loaded, and the parameter list
that its index selects, if the index lies in the table. -/
structure Stage where
  function : Option ModuleFunction
  config : Option ModuleParameterList
  deriving DecidableEq

/-- System calls, modules and memory, as functions of the world. -/
structure Platform (W : Type*) where
  outputPipeOpens : W → Bool
  errorPipeOpens : W → Bool
  fork : W → Bool × W
  runModule : W → ModuleFunction → ImageBatch → Option ModuleParameterList → ModuleRun × W
  waitpidDelivers : W → Bool
  uninitializedStatus : W → WaitStatus
  readFails : W → PipeName → Bool
  shmat : W → Int32 → Attachment × W
  shmdtSucceeds : W → Bool
  shmctlSucceeds : W → Int32 → Bool
  rebuildEnv : W → RebuildEnv

/-- Neither `fork` nor `pipe`, `read` or `waitpid` fails. -/
structure Platform.Reliable {W : Type*} (platform : Platform W) : Prop where
  outputPipeOpens : ∀ w, platform.outputPipeOpens w = true
  errorPipeOpens : ∀ w, platform.errorPipeOpens w = true
  fork : ∀ w, (platform.fork w).1 = true
  waitpidDelivers : ∀ w, platform.waitpidDelivers w = true
  readFails : ∀ w name, platform.readFails w name = false

/-- What the child process does with a module: a null function crashes it. -/
def Platform.runStage {W : Type*} (platform : Platform W) (w : W) (stage : Stage)
    (batch : ImageBatch) : ModuleRun × W :=
  match stage.function with
  | none => (⟨[], .killed⟩, w)
  | some function => platform.runModule w function batch stage.config

/-- The number that `MODULE_EXIT_TIMEOUT` is written as. -/
def timeoutCode : UInt16 := 602

/-- The two bytes of an error code. -/
def codeBytes (code : UInt16) : List UInt8 := LittleEndian.encode 2 code.toNat

/-- The codes that reach the error pipe; `timeout_handler` adds its own. -/
def ModuleRun.writtenCodes (moduleRun : ModuleRun) : List UInt16 :=
  match moduleRun.ending with
  | .timedOut => moduleRun.codes ++ [timeoutCode]
  | _ => moduleRun.codes

/-- The bytes that reach the output pipe. -/
def ModuleRun.resultBytes (moduleRun : ModuleRun) : List UInt8 :=
  match moduleRun.ending with
  | .returned result => result.toBytes
  | _ => []

/-- The status of the child process. -/
def ModuleRun.waitStatus (moduleRun : ModuleRun) : WaitStatus :=
  match moduleRun.ending with
  | .returned _ => .exited 0
  | .exited status => .exited status
  | .killed => .signaled
  | .timedOut => .exited 1

/-- The platform on which every system call succeeds, given what the modules do and what the
segments hold. -/
def Platform.ofModules (behave : ModuleFunction → ImageBatch → ModuleRun)
    (segment : Int32 → List UInt8) : Platform Unit where
  outputPipeOpens := fun _ => true
  errorPipeOpens := fun _ => true
  fork := fun _ => (true, ())
  runModule := fun _ function batch _ => (behave function batch, ())
  waitpidDelivers := fun _ => true
  uninitializedStatus := fun _ => .exited 0
  readFails := fun _ _ => false
  shmat := fun _ shmid => (.attached 0x7f0000000000 (Mapped.ofBuffer (segment shmid)), ())
  shmdtSucceeds := fun _ => true
  shmctlSucceeds := fun _ _ => true
  rebuildEnv := fun _ => ⟨fun _ => .ample, fun _ => .ample⟩

/-- It is reliable. -/
theorem Platform.ofModules_reliable (behave : ModuleFunction → ImageBatch → ModuleRun)
    (segment : Int32 → List UInt8) : (Platform.ofModules behave segment).Reliable :=
  ⟨fun _ => rfl, fun _ => rfl, fun _ => rfl, fun _ => rfl, fun _ _ => rfl⟩

end Dipp
