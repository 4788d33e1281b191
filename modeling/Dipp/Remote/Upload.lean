import Dipp.Error

/-!
# The upload to the buffer of another node

The variant of `upload` in `vmem_upload.c` keeps a ring of images in a buffer on the radio
node. The positions of the ring are parameters of that node: `head` and `tail` are indices
into a list of offsets, and an image in a slot ends at the offset of the slot behind it. An
upload pulls the parameters, chooses a place for the image and evicts what is in the way,
pushes the new parameters one by one, and sends the bytes of the image last.

The network answers each of these operations, or does not. A push without an answer may
or may not have reached the node, and a transfer may break off anywhere.
-/

namespace Dipp.Remote

/-- `BUFFER_LIST_SIZE`, the number of slots. -/
def bufferListSize : ℕ := 10

/-- `BUFFER_VMEM_SIZE`, the number of bytes in the buffer. -/
def bufferVmemSize : UInt32 := 100000000

/-- The error codes that the remote upload reports. -/
inductive ErrorCode where
  | internalRemoteParamPull
  | internalRemoteParamPush
  | internalVmemNotFound
  | internalVmemUpload
  deriving DecidableEq, Repr

/-- The number of each error code. -/
def ErrorCode.value : ErrorCode → UInt32
  | .internalRemoteParamPull => 512
  | .internalRemoteParamPush => 513
  | .internalVmemNotFound => 514
  | .internalVmemUpload => 515

/-- Going from the old to the new position, the target is passed. -/
def overtake (old target new : Int32) : Bool :=
  if old < target && target < new then true
  else if target < old && target < new && new < old then true
  else false

/-- The slot behind a slot. -/
def next (current : Int32) : Int32 := (current + 1) % 10

/-- `next` as it is called, with an unsigned argument and an unsigned result. -/
def nextSlot (current : UInt32) : UInt32 := (next current.toInt32).toUInt32

/-- The ring parameters of the node, and its memory. -/
structure Buffer where
  head : UInt32
  tail : UInt32
  list : Fin bufferListSize → UInt32
  memory : UInt64 → UInt8

/-- What the remote operations write. -/
inductive Write where
  | head (value : UInt32)
  | tail (value : UInt32)
  | list (index value : UInt32)
  | data (address : UInt64) (count : ℕ) (bytes : ℕ → UInt8)

/-- The buffer after a write. -/
def Buffer.apply (buffer : Buffer) : Write → Buffer
  | .head value => { buffer with head := value }
  | .tail value => { buffer with tail := value }
  | .list index value =>
    { buffer with list := fun slot => if slot.val = index.toNat then value else buffer.list slot }
  | .data address count bytes =>
    { buffer with memory := fun at_ =>
        if (at_ - address).toNat < count then bytes (at_ - address).toNat else buffer.memory at_ }

/-- The static variables `vmem_file.vaddr` and `buffer_node_id`. -/
structure Client where
  vaddr : UInt64
  bufferNodeId : UInt8
  deriving DecidableEq, Repr

/-- The static variables of a new process. -/
def Client.boot : Client := ⟨0, 0⟩

/-- The answer to `vmem_client_find`: none in time, or a list with or without the buffer in it. -/
inductive FindAnswer where
  | failed
  | answered (vaddr : Option UInt64)
  deriving DecidableEq, Repr

/-- What becomes of a push. -/
inductive Delivery where
  | acknowledged
  | unacknowledged
  | lost
  deriving DecidableEq, Repr

/-- What becomes of the transfer of the data. -/
inductive Transfer where
  | complete
  | broken (count : ℕ)
  deriving DecidableEq, Repr

/-- What the network does in the course of an upload. -/
structure Network where
  find : FindAnswer
  pullHead : Bool
  pullTail : Bool
  pullList : Bool
  pushHead : Delivery
  pushTail : Delivery
  pushList : Delivery
  data : Transfer
  deriving DecidableEq, Repr

/-- A pulled list is read at an index that is not checked. -/
def listAt (list : Fin bufferListSize → UInt32) (index : UInt32) : Except Stop UInt32 :=
  if h : index.toNat < bufferListSize then .ok (list ⟨index.toNat, h⟩) else .error .outOfBounds

/-- The loop that moves the tail past the images in the way. -/
def evict (list : Fin bufferListSize → UInt32) (newHeadOffset : UInt32) :
    (fuel : ℕ) → (tailOffset nextTail : UInt32) → Except Stop UInt32
  | 0, _, _ => .error .outOfFuel
  | fuel + 1, tailOffset, nextTail => do
    let nextTailOffset ← listAt list nextTail
    if overtake tailOffset.toInt32 newHeadOffset.toInt32 nextTailOffset.toInt32 then
      return nextTail
    else evict list newHeadOffset fuel nextTailOffset (nextSlot nextTail)

/-- Where the image goes, and the ring parameters that follow from it. -/
structure Placement where
  insertOffset : UInt32
  newHeadOffset : UInt32
  newHead : UInt32
  newTail : UInt32
  deriving DecidableEq, Repr

/-- The tail behind the images that the new one overtakes. -/
def evictedTail (fuel : ℕ) (list : Fin bufferListSize → UInt32)
    (headOffset tailOffset newHeadOffset tail : UInt32) : Except Stop UInt32 :=
  if overtake headOffset.toInt32 tailOffset.toInt32 newHeadOffset.toInt32 then
    evict list newHeadOffset fuel tailOffset (nextSlot tail)
  else .ok tail

/-- The part of `upload` between the pulls and the pushes. -/
def place (fuel : ℕ) (head tail : UInt32) (list : Fin bufferListSize → UInt32) (len : Int32) :
    Except Stop Placement := do
  let headOffset ← listAt list head
  let tailOffset ← listAt list tail
  let insertOffset := if headOffset + len.toUInt32 > bufferVmemSize then 0 else headOffset
  let newHeadOffset := insertOffset + len.toUInt32
  let tail ← evictedTail fuel list headOffset tailOffset newHeadOffset tail
  let newHead := nextSlot head
  return {
    insertOffset, newHeadOffset, newHead
    newTail := if tail = newHead then nextSlot tail else tail }

/-- The part of `upload` that looks the buffer up, unless it is known already. -/
def Client.find (node : UInt8) (answer : FindAnswer) (client : Client) : Option Client :=
  if client.vaddr = 0 ∨ node ≠ client.bufferNodeId then
    match answer with
    | .failed => none
    | .answered vaddr => some ⟨vaddr.getD client.vaddr, node⟩
  else some client

/-- A buffer at address zero counts as not found, but the upload goes on. -/
def Client.check (client : Client) : Client × List ErrorCode :=
  if client.vaddr = 0 then ({ client with bufferNodeId := 0 }, [.internalVmemNotFound])
  else (client, [])

/-- What an operation changed at the node, and the error that the upload ends with if it failed. -/
abbrev Attempt := Option Write × Option ErrorCode

/-- `param_push_single` -/
def push (delivery : Delivery) (write : Write) : Attempt :=
  match delivery with
  | .acknowledged => (some write, none)
  | .unacknowledged => (some write, some .internalRemoteParamPush)
  | .lost => (none, some .internalRemoteParamPush)

/-- `vmem_upload` -/
def transfer (outcome : Transfer) (address : UInt64) (length : ℕ) (bytes : ℕ → UInt8) : Attempt :=
  match outcome with
  | .complete => (some (.data address length bytes), none)
  | .broken count => (some (.data address (min count length) bytes), some .internalVmemUpload)

/-- The upload returns at the first operation that fails. -/
def perform : List Attempt → List Write × List ErrorCode
  | [] => ([], [])
  | (write, some code) :: _ => (write.toList, [code])
  | (write, none) :: rest => (write.toList ++ (perform rest).1, (perform rest).2)

/-- The result of an upload: the static variables, the writes that took effect, the errors that
were reported, and how it ended if it did not return. -/
structure Outcome where
  client : Client
  writes : List Write := []
  errors : List ErrorCode := []
  stop : Option Stop := none

/-- The pushes and the transfer of the data, in their order. -/
def publish (network : Network) (vaddr : UInt64) (placement : Placement) (data : ℕ → UInt8)
    (len : Int32) : List Attempt :=
  [push network.pushHead (.head placement.newHead),
    push network.pushTail (.tail placement.newTail),
    push network.pushList (.list placement.newHead placement.newHeadOffset),
    transfer network.data (vaddr + placement.insertOffset.toUInt64) len.toUInt32.toNat data]

/-- `upload` of `vmem_upload.c`, for the node that `radio_node_id` names. -/
def upload (fuel : ℕ) (node : UInt8) (network : Network) (buffer : Buffer) (client : Client)
    (data : ℕ → UInt8) (len : Int32) : Outcome :=
  match client.find node network.find with
  | none => { client, errors := [.internalVmemNotFound] }
  | some found =>
    let (client, notFound) := found.check
    if !(network.pullHead && network.pullTail && network.pullList) then
      { client, errors := notFound ++ [.internalRemoteParamPull] }
    else
      match place fuel buffer.head buffer.tail buffer.list len with
      | .error stop => { client, errors := notFound, stop := some stop }
      | .ok placement =>
        let (writes, failed) := perform (publish network client.vaddr placement data len)
        { client, writes, errors := notFound ++ failed }

/-- The pulls are answered. -/
def Network.Answers (network : Network) : Prop :=
  network.pullHead = true ∧ network.pullTail = true ∧ network.pullList = true
  deriving Decidable

variable {fuel : ℕ} {node : UInt8} {network : Network} {buffer : Buffer} {client found : Client}
  {data : ℕ → UInt8} {len : Int32}

/-- The buffer is not found exactly if it has to be looked up and there is no answer. -/
theorem Client.find_eq_none_iff {answer : FindAnswer} : client.find node answer = none ↔
    (client.vaddr = 0 ∨ node ≠ client.bufferNodeId) ∧ answer = .failed := by
  unfold find
  split
  · rename_i hunknown
    cases answer with
    | failed => exact iff_of_true rfl ⟨hunknown, rfl⟩
    | answered vaddr =>
      apply iff_of_false
      · exact Option.some_ne_none _
      · rintro ⟨-, hfailed⟩
        contradiction
  · rename_i hknown
    apply iff_of_false
    · exact Option.some_ne_none _
    · exact fun h => hknown h.1

/-- Without the buffer, an upload does nothing. -/
theorem upload_of_failed (hfind : client.find node network.find = none) :
    upload fuel node network buffer client data len =
      { client, errors := [.internalVmemNotFound] } := by
  rw [upload, hfind]

/-- Without the parameters of the node, an upload does nothing. -/
theorem upload_of_not_answers (hfind : client.find node network.find = some found)
    (hpulls : ¬ network.Answers) :
    upload fuel node network buffer client data len =
      { client := found.check.1, errors := found.check.2 ++ [.internalRemoteParamPull] } := by
  rw [upload, hfind]
  simp only
  rw [if_pos]
  simpa only [Network.Answers, Bool.not_eq_true', ← Bool.not_eq_true, Bool.and_eq_true, and_assoc]
    using hpulls

/-- An upload that finds no place does not return. -/
theorem upload_of_place_error {stop : Stop} (hfind : client.find node network.find = some found)
    (hpulls : network.Answers)
    (hplace : place fuel buffer.head buffer.tail buffer.list len = .error stop) :
    upload fuel node network buffer client data len =
      { client := found.check.1, errors := found.check.2, stop := some stop } := by
  obtain ⟨hhead, htail, hlist⟩ := hpulls
  rw [upload, hfind, hplace, hhead, htail, hlist]
  rfl

/-- Otherwise it publishes its image. -/
theorem upload_of_place {placement : Placement} (hfind : client.find node network.find = some found)
    (hpulls : network.Answers)
    (hplace : place fuel buffer.head buffer.tail buffer.list len = .ok placement) :
    upload fuel node network buffer client data len =
      { client := found.check.1
        writes := (perform (publish network found.check.1.vaddr placement data len)).1
        errors := found.check.2 ++
          (perform (publish network found.check.1.vaddr placement data len)).2 } := by
  obtain ⟨hhead, htail, hlist⟩ := hpulls
  rw [upload, hfind, hplace, hhead, htail, hlist]
  rfl

end Dipp.Remote
