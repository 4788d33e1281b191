import Dipp.Library.Pipe
import Mathlib.Algebra.Order.Ring.Nat

/-!
# Return codes, abnormal ends and the error parameter

`log_status` holds the latest error as a decimal composition: the error code, one digit
for the pipeline and two digits for the module. The two globals that supply the digits
are zero outside a pipeline run. All arithmetic is that of the 32-bit parameter.

A modelled thread that does not return stops for one of a few reasons, which later
theorems rule out or characterize: it left an array, it touched memory that is not
there, or it blocks.
-/

namespace Dipp

/-- The processes that can hold a pipe end: the DIPP process and the module it forked. -/
inductive Holder where
  | parent
  | child
  deriving DecidableEq, Repr

/-- The two pipes shared with a module process. -/
inductive PipeName where
  | output
  | error
  deriving DecidableEq, Repr

/-- Why a thread of the DIPP process goes no further. -/
inductive Stop where
  | outOfBounds
  | badMemory
  | blockedRead (name : PipeName) (pipe : Posix.Pipe Holder)
  | waitsForMessage
  | outOfFuel

/-- The return codes `SUCCESS` and `FAILURE`. -/
inductive Status where
  | success
  | failure
  deriving DecidableEq, Repr

/-- The error codes that the modelled functions report. -/
inductive ErrorCode where
  | memoryMalloc
  | msgqNotFound
  | msgqEmpty
  | shmDetach
  | shmRemove
  | shmAttach
  | pipeRead
  | pipeEmpty
  | pipeCreate
  | internalPidNotFound
  | internalSoNotFound
  | internalRunNotFound
  | internalBrotliDecode
  | moduleExitCrash
  | moduleExitNormal
  | moduleExitTimeout
  | moduleExitCustom
  deriving DecidableEq, Repr

/-- The number of each error code. -/
def ErrorCode.value : ErrorCode → UInt32
  | .memoryMalloc => 100
  | .msgqNotFound => 200
  | .msgqEmpty => 201
  | .shmDetach => 301
  | .shmRemove => 302
  | .shmAttach => 303
  | .pipeRead => 400
  | .pipeEmpty => 401
  | .pipeCreate => 402
  | .internalPidNotFound => 500
  | .internalSoNotFound => 501
  | .internalRunNotFound => 502
  | .internalBrotliDecode => 516
  | .moduleExitCrash => 600
  | .moduleExitNormal => 601
  | .moduleExitTimeout => 602
  | .moduleExitCustom => 700

/-- The globals `err_current_pipeline` and `err_current_module`, and the `log_status` parameter. -/
structure ErrorState where
  errCurrentPipeline : UInt8
  errCurrentModule : UInt8
  logStatus : UInt32
  deriving DecidableEq, Repr

/-- The error globals of a new process; `log_status` is persistent and survives. -/
def ErrorState.boot (logStatus : UInt32) : ErrorState := ⟨0, 0, logStatus⟩

/-- The error state while a pipeline is executed. -/
def ErrorState.inPipeline (pipelineId : Int32) (err : ErrorState) : ErrorState :=
  { err with errCurrentPipeline := UInt8.ofInt pipelineId.toInt }

/-- The error state while the module at an index runs. -/
def ErrorState.atModule (i : ℕ) (err : ErrorState) : ErrorState :=
  { err with errCurrentModule := UInt8.ofNat (i + 1) }

/-- Compose the error code with the current pipeline and module. -/
def getErrorAsUint32 (code : UInt32) (err : ErrorState) : UInt32 :=
  code * 1000 + err.errCurrentPipeline.toUInt32 * 100 + err.errCurrentModule.toUInt32

/-- Store an error code, with its suffix, in `log_status`. -/
def setErrorParam (code : UInt32) (err : ErrorState) : ErrorState :=
  { err with logStatus := getErrorAsUint32 code err }

/-- No code that fits sixteen bits makes the composition wrap. -/
theorem getErrorAsUint32_toNat (code : UInt32) (err : ErrorState) (hcode : code.toNat < 2 ^ 16) :
    (getErrorAsUint32 code err).toNat =
      code.toNat * 1000 + err.errCurrentPipeline.toNat * 100 + err.errCurrentModule.toNat := by
  have hpipeline := err.errCurrentPipeline.toNat_lt
  have hmodule := err.errCurrentModule.toNat_lt
  simp only [getErrorAsUint32, UInt32.toNat_add, UInt32.toNat_mul, UInt8.toNat_toUInt32]
  have hthousand : (1000 : UInt32).toNat = 1000 := rfl
  have hhundred : (100 : UInt32).toNat = 100 := rfl
  rw [hthousand, hhundred]
  omega

end Dipp
