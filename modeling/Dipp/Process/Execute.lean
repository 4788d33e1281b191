import Dipp.Process.Platform
import Mathlib.Data.Finset.Card

/-!
# Executing a pipeline

Each module runs in a forked process that shares two pipes with the DIPP process: one
for the resulting batch, one for an error code. The parent waits for the child, reads
the error pipe if the exit status asks for it, and then the output pipe. It keeps its
own write ends of both pipes open until the run is over.
-/

namespace Dipp

open LittleEndian

/-- A pipe with the two descriptors that the global variables hold for it. -/
structure PipeEnds where
  readEnd : ℕ
  writeEnd : ℕ
  pipe : Posix.Pipe Holder

/-- The processing thread's view: the configuration, the world, the global pipes, the open
descriptors, the module calls made so far, the ring, the message queue, and removed segments. -/
structure ProcessState (W : Type*) where
  config : ConfigState
  world : W
  outputPipe : PipeEnds
  errorPipe : PipeEnds
  descriptors : Finset ℕ
  calls : List (Stages.Step Stage ImageBatch ModuleRun)
  ring : List (List UInt8)
  queue : Option (List Message)
  removed : List Int32

variable {W : Type*}

/-- The processing thread before its first batch: no pipes yet, and the standard descriptors. -/
def ProcessState.boot (config : ConfigState) (world : W) (queue : Option (List Message)) :
    ProcessState W where
  config := config
  world := world
  outputPipe := ⟨0, 0, ⟨[], ∅⟩⟩
  errorPipe := ⟨0, 0, ⟨[], ∅⟩⟩
  descriptors := {0, 1, 2}
  calls := []
  ring := []
  queue := queue
  removed := []

/-- Report an error in `log_status`. -/
def ProcessState.setErrorParam (code : UInt32) (s : ProcessState W) : ProcessState W :=
  { s with config := { s.config with err := Dipp.setErrorParam code s.config.err } }

/-- Set `err_current_pipeline`. -/
def ProcessState.inPipeline (pipelineId : Int32) (s : ProcessState W) : ProcessState W :=
  { s with config := { s.config with err := s.config.err.inPipeline pipelineId } }

/-- Set `err_current_module` for the module at an index. -/
def ProcessState.atModule (i : ℕ) (s : ProcessState W) : ProcessState W :=
  { s with config := { s.config with err := s.config.err.atModule i } }

/-- Mark the cache to be rebuilt before the next batch. -/
def ProcessState.invalidateCache (s : ProcessState W) : ProcessState W :=
  { s with config := Dipp.invalidateCache s.config }

/-- The lowest descriptor that is not open. -/
def lowestFree (descriptors : Finset ℕ) : ℕ :=
  ((List.range (descriptors.card + 1)).find? (· ∉ descriptors)).getD 0

/-- The ends of a pipe that was just created with these descriptors open. -/
def PipeEnds.create (descriptors : Finset ℕ) : PipeEnds :=
  let readEnd := lowestFree descriptors
  ⟨readEnd, lowestFree (insert readEnd descriptors), .create .parent⟩

/-- The parent closes both ends of a pipe. -/
def PipeEnds.close (ends : PipeEnds) : PipeEnds := { ends with pipe := ends.pipe.close .parent }

variable (platform : Platform W)

/-- A call of `read` on one of the two pipes. -/
def ProcessState.read (name : PipeName) (count : ℕ) (s : ProcessState W) :
    Posix.ReadResult × ProcessState W :=
  if platform.readFails s.world name then (.failed, s)
  else
    match name with
    | .output =>
      let got := s.outputPipe.pipe.read count
      (got.1, { s with outputPipe := { s.outputPipe with pipe := got.2 } })
    | .error =>
      let got := s.errorPipe.pipe.read count
      (got.1, { s with errorPipe := { s.errorPipe with pipe := got.2 } })

/-- What a child writes into a pipe and leaves behind when it has exited. -/
def PipeEnds.afterChild (bytes : List UInt8) (ends : PipeEnds) : PipeEnds :=
  { ends with pipe := ((ends.pipe.inherit .parent .child).write bytes).close .child }

/-- The child process from its start to its end. -/
def runChild (stage : Stage) (input : ImageBatch) (s : ProcessState W) :
    ModuleRun × ProcessState W :=
  let ran := platform.runStage s.world stage input
  (ran.1, { s with
    world := ran.2
    outputPipe := s.outputPipe.afterChild ran.1.resultBytes
    errorPipe := s.errorPipe.afterChild (ran.1.writtenCodes.flatMap codeBytes)
    calls := s.calls ++ [⟨stage, input, ran.1⟩] })

/-- Fork and wait: the status the parent sees and the state after it. Without a child, or when
waiting fails, the status variable is never written. -/
def forkAndWait (stage : Stage) (input : ImageBatch) (s : ProcessState W) :
    WaitStatus × ProcessState W :=
  let forked := platform.fork s.world
  if forked.1 then
    let ran := runChild platform stage input { s with world := forked.2 }
    if platform.waitpidDelivers ran.2.world then (ran.1.waitStatus, ran.2)
    else (platform.uninitializedStatus ran.2.world, ran.2)
  else (platform.uninitializedStatus forked.2, { s with world := forked.2 })

/-- The error reported for the bytes of a module's error code. -/
def moduleErrorCode (data : List UInt8) : UInt32 :=
  let moduleError := UInt32.ofNat (decode data)
  if moduleError < 100 then ErrorCode.moduleExitCustom.value + moduleError else moduleError

/-- The parent's handling of a child that exited with a non-zero status. -/
def reportExit (s : ProcessState W) : Except Stop (ProcessState W) :=
  let got := s.read platform .error 2
  match got.1 with
  | .blocks => .error (.blockedRead .error got.2.errorPipe.pipe)
  | .failed => .ok (got.2.setErrorParam ErrorCode.pipeRead.value)
  | .endOfFile => .ok (got.2.setErrorParam ErrorCode.moduleExitNormal.value)
  | .bytes data => .ok (got.2.setErrorParam (moduleErrorCode data))

/-- Run a module in a process of its own. -/
def executeModuleInProcess (stage : Stage) (input : ImageBatch) (s : ProcessState W) :
    Except Stop (Status × ProcessState W) :=
  let waited := forkAndWait platform stage input s
  match waited.1 with
  | .exited status =>
    if status ≠ 0 then
      match reportExit platform waited.2 with
      | .error stop => .error stop
      | .ok reported => .ok (.failure, reported.invalidateCache)
    else .ok (.success, waited.2)
  | .signaled =>
    .ok (.failure, (waited.2.setErrorParam ErrorCode.moduleExitCrash.value).invalidateCache)

/-- The fields that a module's result replaces. -/
def ImageBatch.withResult (batch result : ImageBatch) : ImageBatch :=
  { batch with
    shmid := result.shmid
    numImages := result.numImages
    batchSize := result.batchSize
    pipelineId := result.pipelineId }

/-- A status, with the batch and the state it is returned in. -/
structure Outcome (W : Type*) where
  status : Status
  batch : ImageBatch
  state : ProcessState W

/-- The entry of the parameter lists that an index points to. -/
def ConfigState.parameterList (c : ConfigState) (index : Int32) : Option ModuleParameterList :=
  if h : 0 ≤ index.toInt ∧ index.toInt.toNat < maxModules then
    some (c.moduleParameterLists ⟨index.toInt.toNat, h.2⟩)
  else none

/-- The module with its parameter list. -/
def ConfigState.stageOf (c : ConfigState) (entry : Module) : Stage :=
  ⟨entry.moduleFunction, c.parameterList entry.moduleParamId⟩

/-- The parent closes its ends of both pipes. -/
def ProcessState.closePipes (s : ProcessState W) : ProcessState W :=
  { s with
    outputPipe := s.outputPipe.close
    errorPipe := s.errorPipe.close
    descriptors := (((s.descriptors.erase s.outputPipe.readEnd).erase
      s.outputPipe.writeEnd).erase s.errorPipe.readEnd).erase s.errorPipe.writeEnd }

/-- The parent's handling of the result of a module that succeeded; `none` ends the run. -/
def takeResult (batch : ImageBatch) (s : ProcessState W) :
    Except Stop (Option ImageBatch × ProcessState W) :=
  let got := s.read platform .output sizeofImageBatch
  match got.1 with
  | .blocks => .error (.blockedRead .output got.2.outputPipe.pipe)
  | .failed => .ok (none, got.2.setErrorParam ErrorCode.pipeRead.value)
  | .endOfFile => .ok (none, got.2.setErrorParam ErrorCode.pipeEmpty.value)
  | .bytes data => .ok (some (batch.withResult (.ofBytes data)), got.2)

/-- The loop over the modules of a pipeline from index `i` on; the pipes are closed where the
source closes them. -/
def executeModules (pipeline : Pipeline) : (remaining i : ℕ) → ImageBatch → ProcessState W →
    Except Stop (Outcome W)
  | 0, _, batch, s => .ok ⟨.success, batch, s.closePipes⟩
  | remaining + 1, i, batch, s =>
    if h : i < maxModules then
      let current := s.atModule i
      let stage := current.config.stageOf (pipeline.modules ⟨i, h⟩)
      match executeModuleInProcess platform stage batch current with
      | .error stop => .error stop
      | .ok (.failure, failed) => .ok ⟨.failure, batch, failed.closePipes⟩
      | .ok (.success, ran) =>
        match takeResult platform batch ran with
        | .error stop => .error stop
        | .ok (none, unread) => .ok ⟨.failure, batch, unread⟩
        | .ok (some next, taken) => executeModules pipeline remaining (i + 1) next taken
    else .error .outOfBounds

/-- Create the two pipes, and whether both could be created. -/
def openPipes (s : ProcessState W) : Bool × ProcessState W :=
  if platform.outputPipeOpens s.world then
    let output := PipeEnds.create s.descriptors
    let first := { s with
      outputPipe := output
      descriptors := insert output.writeEnd (insert output.readEnd s.descriptors) }
    if platform.errorPipeOpens s.world then
      let error := PipeEnds.create first.descriptors
      (true, { first with
        errorPipe := error
        descriptors := insert error.writeEnd (insert error.readEnd first.descriptors) })
    else (false, first)
  else (false, s)

/-- Execute all modules of a pipeline on a batch. -/
def executePipeline (pipeline : Pipeline) (batch : ImageBatch) (s : ProcessState W) :
    Except Stop (Outcome W) :=
  match openPipes platform s with
  | (false, failed) => .ok ⟨.failure, batch, failed.setErrorParam ErrorCode.pipeCreate.value⟩
  | (true, opened) => executeModules platform pipeline pipeline.numModules 0 batch opened

/-- The first pipeline with the given id. -/
def getPipelineById (pipelines : Fin maxPipelines → Pipeline) (pipelineId : Int32) :
    Option (Fin maxPipelines) :=
  (List.finRange maxPipelines).find? fun k => (pipelines k).pipelineId == pipelineId

/-- A pipeline is found exactly if some slot has the id. -/
theorem getPipelineById_isSome_iff (pipelines : Fin maxPipelines → Pipeline) (pipelineId : Int32) :
    (∃ k, getPipelineById pipelines pipelineId = some k) ↔
      ∃ k, (pipelines k).pipelineId = pipelineId := by
  rw [← Option.isSome_iff_exists, getPipelineById, List.find?_isSome]
  simp

/-- A found pipeline has the id that was asked for. -/
theorem getPipelineById_eq_some {pipelines : Fin maxPipelines → Pipeline} {pipelineId : Int32}
    {k : Fin maxPipelines} (h : getPipelineById pipelines pipelineId = some k) :
    (pipelines k).pipelineId = pipelineId := by
  have hfound := List.find?_some h
  simpa using hfound

/-- Find the pipeline that a batch asks for and execute it. -/
def loadPipelineAndExecute (batch : ImageBatch) (s : ProcessState W) : Except Stop (Outcome W) :=
  match getPipelineById s.config.pipelines batch.pipelineId with
  | none => .ok ⟨.failure, batch, s.setErrorParam ErrorCode.internalPidNotFound.value⟩
  | some k =>
    let pipeline := s.config.pipelines k
    executePipeline platform pipeline batch (s.inPipeline pipeline.pipelineId)

end Dipp
