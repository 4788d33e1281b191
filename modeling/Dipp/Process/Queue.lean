import Dipp.Process.Execute
import Dipp.Upload.Walker

/-!
# From the message queue to the ring

`process` executes the pipeline of a batch, attaches its segment, uploads it if the
pipeline succeeded, and removes the segment. `process_all` does so for one message after
the other: it receives into one batch variable, in raw memory, and takes messages of
type 1 only. A walk that touches memory that is not there ends the thread.
-/

namespace Dipp

open LittleEndian

variable {W : Type*} (platform : Platform W) (libs : Libraries)

/-- The memory that an attached address leads to; there is none behind `(void *)-1`. -/
def Attachment.memory : Attachment → Mapped.Memory
  | .attached _ mem => mem
  | _ => fun _ => none

/-- The address that `shmat` returned. -/
def Attachment.address : Attachment → UInt64
  | .null => 0
  | .failed => 0xffffffffffffffff
  | .attached address _ => address

/-- Hand the elements of a walk to the ring, if the walk goes through. -/
def uploadToRing (mem : Mapped.Memory) (batch : ImageBatch) (s : ProcessState W) :
    Except Stop (ProcessState W) :=
  match (upload libs.metadataUnpack mem batch.numImages batch.batchSize).mapM
      UploadIteration.element with
  | none => .error .badMemory
  | some elements => .ok { s with ring := s.ring ++ elements }

/-- Detach the segment and remove it; each failure is reported. -/
def removeSegment (shmid : Int32) (s : ProcessState W) : ProcessState W :=
  let detached := if platform.shmdtSucceeds s.world then s
    else s.setErrorParam ErrorCode.shmDetach.value
  if platform.shmctlSucceeds detached.world shmid then
    { detached with removed := detached.removed ++ [shmid] }
  else detached.setErrorParam ErrorCode.shmRemove.value

/-- Reset the globals that name the current pipeline and module. -/
def ProcessState.outsidePipeline (s : ProcessState W) : ProcessState W :=
  { s with config := { s.config with
      err := { s.config.err with errCurrentPipeline := 0, errCurrentModule := 0 } } }

/-- Process one batch; the caller's batch variable is updated. -/
def process (batch : ImageBatch) (s : ProcessState W) :
    Except Stop (ImageBatch × ProcessState W) :=
  match loadPipelineAndExecute platform batch s with
  | .error stop => .error stop
  | .ok ⟨status, out, executed⟩ =>
    let attach := platform.shmat executed.world out.shmid
    let s := { executed.outsidePipeline with world := attach.2 }
    match attach.1 with
    | .null => .ok (out, s.setErrorParam ErrorCode.shmAttach.value)
    | attachment =>
      match status with
      | .failure => .ok (out, removeSegment platform out.shmid s)
      | .success =>
        match uploadToRing libs attachment.memory out s with
        | .error stop => .error stop
        | .ok uploaded =>
          .ok ({ out with data := attachment.address }, removeSegment platform out.shmid uploaded)

/-- The first message of type 1 and the queue without it. -/
def takeMessage : List Message → Option (Message × List Message)
  | [] => none
  | message :: rest =>
    if message.mtype = 1 then some (message, rest)
    else (takeMessage rest).map fun taken => (taken.1, message :: taken.2)

/-- Copy as many bytes of the received buffer, type and text, as the text is long. -/
def copyMessage (message : Message) (datarcv : ImageBatch) : ImageBatch :=
  let size := message.mtext.length
  .ofBytes ((encode 8 message.mtype.toUInt64.toNat ++ message.mtext).take size ++
    datarcv.toBytes.drop size)

/-- Receive a message into the batch variable. A text that is too long fails the call and leaves
the message in the queue. -/
def getMessageFromQueue (doWait : Bool) (datarcv : ImageBatch) (s : ProcessState W) :
    Except Stop (Outcome W) :=
  match s.queue with
  | none => .ok ⟨.failure, datarcv, s.setErrorParam ErrorCode.msgqNotFound.value⟩
  | some queue =>
    match takeMessage queue with
    | none =>
      if doWait then .error .waitsForMessage
      else .ok ⟨.failure, datarcv, s.setErrorParam ErrorCode.msgqEmpty.value⟩
    | some (message, rest) =>
      if message.mtext.length ≤ sizeofImageBatch then
        .ok ⟨.success, copyMessage message datarcv, { s with queue := some rest }⟩
      else .ok ⟨.failure, datarcv, s.setErrorParam ErrorCode.msgqEmpty.value⟩

/-- Set up the cache with the memory the platform has. -/
def setupCache (s : ProcessState W) : Except Stop (ProcessState W) :=
  match setupCacheIfNeeded libs (platform.rebuildEnv s.world) s.config with
  | .error stop => .error stop
  | .ok config => .ok { s with config := config }

/-- Process one message, receiving into an uninitialised variable. -/
def processOne (doWait : Bool) (datarcv : ImageBatch) (s : ProcessState W) :
    Except Stop (ProcessState W) :=
  match setupCache platform libs s with
  | .error stop => .error stop
  | .ok ready =>
    match getMessageFromQueue doWait datarcv ready with
    | .error stop => .error stop
    | .ok ⟨.failure, _, s'⟩ => .ok s'
    | .ok ⟨.success, batch, s'⟩ =>
      match process platform libs batch s' with
      | .error stop => .error stop
      | .ok (_, s'') => .ok s''

/-- Process messages as long as one is received. The loop is bounded by the fuel. -/
def processAll (doWait : Bool) : (fuel : ℕ) → (datarcv : ImageBatch) → ProcessState W →
    Except Stop (ImageBatch × ProcessState W)
  | 0, _, _ => .error .outOfFuel
  | fuel + 1, datarcv, s =>
    match getMessageFromQueue doWait datarcv s with
    | .error stop => .error stop
    | .ok ⟨.failure, batch, s'⟩ => .ok (batch, s')
    | .ok ⟨.success, batch, received⟩ =>
      match setupCache platform libs received with
      | .error stop => .error stop
      | .ok ready =>
        match process platform libs batch ready with
        | .error stop => .error stop
        | .ok (batch', s') => processAll doWait fuel batch' s'

end Dipp
