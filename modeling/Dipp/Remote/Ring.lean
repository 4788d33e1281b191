import Dipp.Library.Execution
import Dipp.Remote.Placement

/-!
# The remote ring over many uploads

Beside the buffer, a run of uploads has a ledger of what was written for the slots: whether
the list entry behind the slot is that of its image, and which image lies where. An image is
published in a slot from the tail up to the head. As long as every upload finds a place that
is clear of the images that stay, the published images are those of a layout in laps, and
their bytes are in the buffer. An upload that does not is not noticed: two images of the
size of the buffer are both published, and one of them has been overwritten.
-/

namespace Dipp.Remote

open Laps

/-- An image as it is passed to `upload`. -/
structure Image where
  data : ℕ → UInt8
  len : Int32

/-- An image that was stored at an address. -/
structure Stored where
  address : UInt64
  image : Image

/-- The client and the buffer, and what was written for each slot since it was last published. -/
structure Ring where
  client : Client
  buffer : Buffer
  described : Fin bufferListSize → Bool
  stored : Fin bufferListSize → Option Stored

/-- The empty buffer with any memory, before the first upload of a client. -/
def Ring.empty (client : Client) (memory : UInt64 → UInt8) : Ring :=
  ⟨client, ⟨0, 0, fun _ => 0, memory⟩, fun _ => false, fun _ => none⟩

/-- A write of the upload of an image into a slot. Moving the head publishes the slot; what it held
before does not count any more. -/
def Ring.write (slot : Fin bufferListSize) (image : Image) (ring : Ring) (write : Write) : Ring :=
  let ring := { ring with buffer := ring.buffer.apply write }
  match write with
  | .head _ =>
    { ring with
      described := Function.update ring.described slot false
      stored := Function.update ring.stored slot none }
  | .tail _ => ring
  | .list _ _ => { ring with described := Function.update ring.described slot true }
  | .data address count _ =>
    if count = image.len.toUInt32.toNat then
      { ring with stored := Function.update ring.stored slot (some ⟨address, image⟩) }
    else ring

/-- The ring after some of the writes of an upload. -/
def Ring.after (ring : Ring) (image : Image) (writes : List Write) : Ring :=
  writes.foldl (Ring.write (slotOf ring.buffer.head.toNat) image) ring

/-- An upload of an image to the buffer of the ring. -/
def Ring.upload (fuel : ℕ) (node : UInt8) (ring : Ring) (network : Network) (image : Image) :
    Outcome :=
  Remote.upload fuel node network ring.buffer ring.client image.data image.len

/-- The ring after an upload, unless it does not return. -/
def Ring.step (fuel : ℕ) (node : UInt8) (ring : Ring) (event : Network × Image) :
    Except Stop Ring :=
  let outcome := ring.upload fuel node event.1 event.2
  match outcome.stop with
  | some stop => .error stop
  | none => .ok { ring.after event.2 outcome.writes with client := outcome.client }

/-- A network in which every operation succeeds, with the buffer at an address. -/
def Network.succeeding (vaddr : UInt64) : Network :=
  ⟨.answered (some vaddr), true, true, true, .acknowledged, .acknowledged, .acknowledged, .complete⟩

/-- The upload of an image over a network in which every operation succeeds. -/
def Ring.uploaded (fuel : ℕ) (node : UInt8) (vaddr : UInt64) (ring : Ring) (image : Image) :
    Except Stop Ring :=
  ring.step fuel node (Network.succeeding vaddr, image)

/-- The number of steps from one slot to another one, around the list. -/
def distance (origin slot : ℕ) : ℕ :=
  (slot + bufferListSize - origin % bufferListSize) % bufferListSize

/-- The published slots are those from the tail up to the head. -/
def Buffer.Published (buffer : Buffer) (slot : Fin bufferListSize) : Prop :=
  distance buffer.tail.toNat slot < distance buffer.tail.toNat buffer.head.toNat
  deriving Decidable

/-- The bytes of the image that was stored for a slot are all in the buffer. -/
def Ring.Intact (ring : Ring) (slot : Fin bufferListSize) : Prop :=
  ∃ stored, ring.stored slot = some stored ∧ ∀ i < stored.image.len.toInt.toNat,
    ring.buffer.memory (stored.address + UInt64.ofNat i) = stored.image.data i

/-- The new image is clear of the images that stay. -/
def Ring.Clears (ring : Ring) (image : Image) : Prop :=
  Remote.Clears (fun i => offsetAt ring.buffer.list (ring.buffer.tail.toNat + i))
    (distance ring.buffer.tail.toNat ring.buffer.head.toNat) image.len.toInt.toNat
  deriving Decidable

/-- Where the client has the buffer, or will find it. -/
def Client.address (node : UInt8) (vaddr : UInt64) (client : Client) : UInt64 :=
  if client.vaddr = 0 ∨ node ≠ client.bufferNodeId then vaddr else client.vaddr

/-- The client finds the buffer, always at the same address. -/
theorem Client.find_succeeding (node : UInt8) (vaddr : UInt64) (client : Client) :
    ∃ found, client.find node (.answered (some vaddr)) = some found ∧
      found.check.1.vaddr = client.address node vaddr ∧
      found.check.1.address node vaddr = client.address node vaddr := by
  rw [find, address]
  split_ifs with hunknown
  · refine ⟨⟨vaddr, node⟩, rfl, ?_⟩
    rw [check, address]
    split_ifs <;> simp_all
  · refine ⟨client, rfl, ?_⟩
    rw [check, address]
    split_ifs <;> simp_all

/-- What an upload leaves if all its writes take effect. -/
def Ring.place (ring : Ring) (client : Client) (image : Image) (placement : Placement)
    (address : UInt64) : Ring where
  client := client
  buffer := {
    head := placement.newHead
    tail := placement.newTail
    list := fun slot => if slot.val = placement.newHead.toNat then placement.newHeadOffset
      else ring.buffer.list slot
    memory := fun byte => if (byte - address).toNat < image.len.toUInt32.toNat
      then image.data (byte - address).toNat else ring.buffer.memory byte }
  described := Function.update ring.described (slotOf ring.buffer.head.toNat) true
  stored := Function.update ring.stored (slotOf ring.buffer.head.toNat) (some ⟨address, image⟩)

/-- What a successful upload does to the ring. -/
theorem Ring.uploaded_eq_ok {fuel : ℕ} {node : UInt8} {vaddr : UInt64} {ring last : Ring}
    {image : Image} (h : ring.uploaded fuel node vaddr image = .ok last) :
    ∃ placement client,
      Remote.place fuel ring.buffer.head ring.buffer.tail ring.buffer.list image.len =
        .ok placement ∧
      client.address node vaddr = ring.client.address node vaddr ∧
      last = ring.place client image placement
        (ring.client.address node vaddr + placement.insertOffset.toUInt64) := by
  obtain ⟨found, hfound, haddress, hclient⟩ := ring.client.find_succeeding node vaddr
  rw [uploaded, step, upload] at h
  cases hplace : Remote.place fuel ring.buffer.head ring.buffer.tail ring.buffer.list image.len with
  | error stop =>
    rw [upload_of_place_error hfound ⟨rfl, rfl, rfl⟩ hplace] at h
    contradiction
  | ok placement =>
    rw [upload_of_place hfound ⟨rfl, rfl, rfl⟩ hplace] at h
    refine ⟨placement, found.check.1, rfl, hclient, ?_⟩
    rw [← haddress, ← Except.ok.inj h]
    simp only [Ring.place, after, publish, Network.succeeding, push, transfer, perform,
      Option.toList, List.append_nil, List.cons_append, List.nil_append, List.foldl, write,
      Buffer.apply, if_true, Function.update_idem]

/-- Where in the buffer the image of a slot was stored. -/
def Ring.start (address : UInt64) (ring : Ring) (j : ℕ) : ℕ :=
  match ring.stored (slotOf j) with
  | some stored => (stored.address - address).toNat
  | none => 0

/-- The images with these numbers are in the buffer, as a layout in laps. -/
structure Ring.Laid (address : UInt64) (ring : Ring) (first last turn : ℕ) : Prop where
  head : ring.buffer.head.toNat = last % bufferListSize
  tail : ring.buffer.tail.toNat = first % bufferListSize
  few : last ≤ first + 9
  list : ∀ slot, (ring.buffer.list slot).toNat ≤ bufferVmemSize.toNat
  layout : Layout bufferVmemSize.toNat (offsetAt ring.buffer.list) (ring.start address) first last
    turn
  unused : first = last → offsetAt ring.buffer.list last = 0
  images : ∀ j, first ≤ j → j < last → ∃ stored, ring.stored (slotOf j) = some stored ∧
    ring.start address j + stored.image.len.toInt.toNat = offsetAt ring.buffer.list (j + 1) ∧
    ∀ i < stored.image.len.toInt.toNat,
      ring.buffer.memory (stored.address + UInt64.ofNat i) = stored.image.data i

/-- The empty buffer is a layout without images. -/
theorem Ring.laid_empty (address : UInt64) (client : Client) (memory : UInt64 → UInt8) :
    (Ring.empty client memory).Laid address 0 0 0 where
  head := rfl
  tail := rfl
  few := Nat.zero_le _
  list := fun _ => Nat.zero_le _
  layout := .empty (Nat.zero_le _)
  unused := fun _ => rfl
  images := fun j _ hj => absurd hj (Nat.not_lt_zero j)

variable {ring : Ring} {address : UInt64} {first last turn : ℕ}

/-- The first of the numbers is at most the last one. -/
theorem Ring.Laid.first_le_last (h : ring.Laid address first last turn) : first ≤ last :=
  h.layout.first_le_turn.trans h.layout.turn_le_last

/-- Running numbers that are not too far apart are apart by the distance of their slots. -/
theorem distance_mod {i j : ℕ} (hle : i ≤ j) (hfew : j ≤ i + 9) :
    distance (i % bufferListSize) (j % bufferListSize) = j - i := by
  unfold distance bufferListSize
  omega

/-- The published slots are those of the images in the layout. -/
theorem Ring.Laid.published_iff (h : ring.Laid address first last turn)
    (slot : Fin bufferListSize) :
    ring.buffer.Published slot ↔ ∃ j, first ≤ j ∧ j < last ∧ slotOf j = slot := by
  have hle := h.first_le_last
  have hfew := h.few
  have hslot : slot.val < 10 := slot.isLt
  have hdistance : distance (first % bufferListSize) slot.val =
      (slot.val + 10 - first % 10) % 10 := by
    rw [distance, Nat.mod_mod]
    rfl
  rw [Buffer.Published, h.head, h.tail, distance_mod hle hfew, hdistance]
  constructor
  · intro hlt
    refine ⟨first + (slot.val + 10 - first % 10) % 10, by omega, by omega, Fin.ext ?_⟩
    change (first + (slot.val + 10 - first % 10) % 10) % 10 = slot.val
    omega
  · rintro ⟨j, hfirst, hlast, rfl⟩
    change (j % 10 + 10 - first % 10) % 10 < last - first
    omega

/-- The condition on a new image, in the numbers of the layout. -/
theorem Ring.Laid.clears_iff (h : ring.Laid address first last turn) (image : Image) :
    ring.Clears image ↔ Remote.Clears (fun i => offsetAt ring.buffer.list (first + i))
      (last - first) image.len.toInt.toNat := by
  have hoffsets : (fun i => offsetAt ring.buffer.list (first % bufferListSize + i)) =
      fun i => offsetAt ring.buffer.list (first + i) := by
    funext i
    have hslot : slotOf (first % bufferListSize + i) = slotOf (first + i) :=
      Fin.ext (Nat.mod_add_mod _ _ _)
    rw [offsetAt, hslot, offsetAt]
  rw [Ring.Clears, h.head, h.tail, distance_mod h.first_le_last h.few, hoffsets]

/-- The distance between two places in the buffer does not depend on its address. -/
theorem toNat_place_sub {address : UInt64} {offset insertOffset : ℕ}
    (hoffset : offset ≤ bufferVmemSize.toNat) (hinsert : insertOffset ≤ bufferVmemSize.toNat) :
    (address + UInt64.ofNat offset - (address + UInt64.ofNat insertOffset)).toNat =
      if insertOffset ≤ offset then offset - insertOffset else 2 ^ 64 + offset - insertOffset := by
  have hsize : bufferVmemSize.toNat = 100000000 := rfl
  have haddress := address.toNat_lt
  simp only [UInt64.toNat_sub, UInt64.toNat_add, UInt64.toNat_ofNat']
  split_ifs <;> omega

/-- The image in a slot begins where it was stored. -/
theorem Ring.address_eq {stored : Stored} {j : ℕ} (h : ring.stored (slotOf j) = some stored) :
    stored.address = address + UInt64.ofNat (ring.start address j) := by
  rw [Ring.start, h, UInt64.ofNat_toNat, UInt64.add_comm, UInt64.sub_add_cancel]

/-- The offset behind a new image is that of its slot; the other slots keep theirs. -/
theorem offsetAt_update (list : Fin bufferListSize → UInt32) (index value : UInt32) (j : ℕ) :
    offsetAt (fun slot => if slot.val = index.toNat then value else list slot) j =
      if j % bufferListSize = index.toNat then value.toNat else offsetAt list j := by
  change (if j % bufferListSize = index.toNat then value else list (slotOf j)).toNat = _
  split_ifs <;> rfl

/-- Numbers that are less than a round apart have different slots. -/
theorem slotOf_ne {i j : ℕ} (hlt : i < j) (hfew : j < i + 10) : slotOf i ≠ slotOf j := by
  intro h
  have hmod : i % bufferListSize = j % bufferListSize := congrArg Fin.val h
  rw [mod_bufferListSize_eq_iff hlt.le hfew.le] at hmod
  omega

/-- An image in a slot of the layout stays there untouched while a new one is put into a free place.
-/
theorem Ring.Laid.image_stays {placement : Placement} {image : Image} {client : Client}
    {first' j : ℕ} (h : ring.Laid address first last turn) (hlen : 0 ≤ image.len.toInt)
    (hends : placement.newHeadOffset.toNat =
      placement.insertOffset.toNat + image.len.toInt.toNat)
    (hinside : placement.newHeadOffset.toNat ≤ bufferVmemSize.toNat)
    (hfree : Free (offsetAt ring.buffer.list) (ring.start address) first' last
      placement.insertOffset.toNat placement.newHeadOffset.toNat)
    (hj : first' ≤ j) (hlast : j < last) {stored : Stored}
    (hstored : ring.stored (slotOf j) = some stored)
    (hlength : ring.start address j + stored.image.len.toInt.toNat =
      offsetAt ring.buffer.list (j + 1)) {i : ℕ} (hi : i < stored.image.len.toInt.toNat) :
    (ring.place client image placement (address + placement.insertOffset.toUInt64)).buffer.memory
        (stored.address + UInt64.ofNat i) =
      ring.buffer.memory (stored.address + UInt64.ofNat i) := by
  have hsize : bufferVmemSize.toNat = 100000000 := rfl
  have hunsigned : image.len.toUInt32.toNat = image.len.toInt.toNat :=
    toNat_toUInt32_of_nonneg hlen
  have hbound := h.list (slotOf (j + 1))
  change offsetAt ring.buffer.list (j + 1) ≤ _ at hbound
  have hplace := (UInt64.ofNat_uInt32ToNat placement.insertOffset).symm
  have haside : ¬ (stored.address + UInt64.ofNat i -
      (address + placement.insertOffset.toUInt64)).toNat < image.len.toUInt32.toNat := by
    rw [Ring.address_eq hstored, UInt64.add_assoc, ← UInt64.ofNat_add, hplace,
      toNat_place_sub (by omega) (by omega), hunsigned]
    rcases hfree j hj hlast with hbefore | hbehind
    · rw [if_neg (by omega)]
      omega
    · rw [if_pos (by omega)]
      omega
  exact if_neg haside

/-- The bytes of a new image are where it was put. -/
theorem Ring.place_bytes {placement : Placement} {image : Image} {client : Client} {i : ℕ}
    (hlen : 0 ≤ image.len.toInt) (hi : i < image.len.toInt.toNat) :
    (ring.place client image placement address).buffer.memory (address + UInt64.ofNat i) =
      image.data i := by
  have hunsigned : image.len.toUInt32.toNat = image.len.toInt.toNat :=
    toNat_toUInt32_of_nonneg hlen
  have hbelow := image.len.toUInt32.toNat_lt
  have hoffset : (address + UInt64.ofNat i - address).toNat = i := by
    rw [UInt64.add_comm, UInt64.add_sub_cancel]
    exact UInt64.toNat_ofNat_of_lt' (by change i < 2 ^ 64; omega)
  change (if _ then _ else _) = _
  rw [hoffset, if_pos (by omega)]

section Place

variable {placement : Placement} {image : Image} {client : Client}

/-- The slot at the old head has the running number of the new image. -/
theorem slotOf_head {head : ℕ} (hhead : head = last % bufferListSize) :
    slotOf head = slotOf last := by
  rw [hhead]
  exact Fin.ext (Nat.mod_mod _ _)

/-- The slots of the images that stay are not the one of the new image. -/
theorem Ring.stored_place (hhead : ring.buffer.head.toNat = last % bufferListSize) {j : ℕ}
    (hj : j < last) (hfew : last < j + 10) :
    (ring.place client image placement address).stored (slotOf j) = ring.stored (slotOf j) := by
  change Function.update _ _ _ _ = _
  rw [slotOf_head hhead, Function.update_of_ne (slotOf_ne hj hfew)]

/-- The new image is in the slot at the old head. -/
theorem Ring.stored_place_last (hhead : ring.buffer.head.toNat = last % bufferListSize) :
    (ring.place client image placement address).stored (slotOf last) = some ⟨address, image⟩ := by
  change Function.update _ _ _ _ = _
  rw [slotOf_head hhead, Function.update_self]

/-- The images that stay begin where they did. -/
theorem Ring.start_place {base : UInt64} (hhead : ring.buffer.head.toNat = last % bufferListSize)
    {j : ℕ} (hj : j < last) (hfew : last < j + 10) :
    (ring.place client image placement address).start base j = ring.start base j := by
  rw [Ring.start, Ring.stored_place hhead hj hfew, Ring.start]

/-- The new image begins at its place. -/
theorem Ring.start_place_last (hhead : ring.buffer.head.toNat = last % bufferListSize) :
    (ring.place client image placement (address + placement.insertOffset.toUInt64)).start address
      last = placement.insertOffset.toNat := by
  rw [Ring.start, Ring.stored_place_last hhead, UInt64.add_comm]
  simp only [UInt64.add_sub_cancel, UInt32.toNat_toUInt64]

/-- The offsets of the images that stay are what they were. -/
theorem Ring.offsetAt_place (hhead : placement.newHead.toNat = (last + 1) % bufferListSize) {j : ℕ}
    (hj : j ≤ last) (hfew : last + 1 < j + 10) :
    offsetAt (ring.place client image placement address).buffer.list j =
      offsetAt ring.buffer.list j := by
  rw [Ring.place, offsetAt_update, hhead, if_neg]
  rw [mod_bufferListSize_eq_iff (by omega) (by omega)]
  omega

/-- The offset behind the new image is in the slot at the new head. -/
theorem Ring.offsetAt_place_last (hhead : placement.newHead.toNat = (last + 1) % bufferListSize) :
    offsetAt (ring.place client image placement address).buffer.list (last + 1) =
      placement.newHeadOffset.toNat := by
  rw [Ring.place, offsetAt_update, hhead, if_pos rfl]

/-- An image that is put clear of the images that stay is one more image of a layout. -/
theorem Ring.Laid.place {first' : ℕ} (h : ring.Laid address first last turn)
    (hpositive : 0 < image.len.toInt) (hfits : image.len.toInt ≤ bufferVmemSize.toNat)
    (hclears : ring.Clears image)
    (hplaced : Placed ring.buffer.list first last image.len.toInt.toNat placement first') :
    ∃ turn', (ring.place client image placement
      (address + placement.insertOffset.toUInt64)).Laid address first' (last + 1) turn' := by
  have hsize : bufferVmemSize.toNat = 100000000 := rfl
  obtain ⟨hfree, hroom⟩ := hplaced.room h.layout h.few h.unused (by omega) (by omega)
    ((h.clears_iff image).mp hclears)
  obtain ⟨hfirst, hlast, hfew⟩ := hplaced.stays.mem_range h.first_le_last h.few
  obtain ⟨next, hnext⟩ : ∃ next, next = ring.place client image placement
    (address + placement.insertOffset.toUInt64) := ⟨_, rfl⟩
  have hbound (j : ℕ) (hj : first' ≤ j) (hle : j ≤ last) :
      offsetAt next.buffer.list j = offsetAt ring.buffer.list j := by
    rw [hnext, Ring.offsetAt_place hplaced.newHead hle (by omega)]
  have hnewBound : offsetAt next.buffer.list (last + 1) = placement.newHeadOffset.toNat := by
    rw [hnext, Ring.offsetAt_place_last hplaced.newHead]
  have hstart (j : ℕ) (hj : first' ≤ j) (hlt : j < last) :
      next.start address j = ring.start address j := by
    rw [hnext, Ring.start_place h.head hlt (by omega)]
  have hnewStart : next.start address last = placement.insertOffset.toNat := by
    rw [hnext, Ring.start_place_last h.head]
  obtain ⟨turn', hlayout⟩ := hroom _ _ hbound hstart hnewBound hnewStart
  have hinside := hlayout.inside (last + 1) (by omega) le_rfl
  rw [hnewBound] at hinside
  rw [← hnext]
  refine ⟨turn', ?_⟩
  constructor
  case head => rw [hnext, Ring.place, hplaced.newHead]
  case tail => rw [hnext, Ring.place, hplaced.newTail]
  case few => exact hfew
  case list =>
    intro slot
    rw [hnext, Ring.place]
    simp only
    split_ifs
    · exact hinside
    · exact h.list slot
  case layout => exact hlayout
  case unused =>
    intro hnone
    omega
  case images =>
    intro j hj hlt
    rcases Nat.lt_succ_iff_lt_or_eq.mp hlt with hold | rfl
    · obtain ⟨stored, hslot, hlength, hbytes⟩ := h.images j (by omega) hold
      refine ⟨stored, ?_, ?_, fun i hi => ?_⟩
      · rw [hnext, Ring.stored_place h.head hold (by omega), hslot]
      · rw [hstart j hj hold, hlength, hbound (j + 1) (by omega) hold]
      · rw [← hbytes i hi, hnext]
        exact h.image_stays hpositive.le hplaced.ends hinside hfree hj hold hslot hlength hi
    · refine ⟨⟨address + placement.insertOffset.toUInt64, image⟩, ?_, ?_, fun i hi => ?_⟩
      · rw [hnext, Ring.stored_place_last h.head]
      · rw [hnewStart, hnewBound, hplaced.ends]
      · rw [hnext]
        exact Ring.place_bytes hpositive.le hi

end Place

/-- A successful upload of an image that is clear of the images that stay keeps the layout, with the
image in it. -/
theorem Ring.Laid.uploaded {fuel : ℕ} {node : UInt8} {vaddr : UInt64} {next : Ring} {image : Image}
    (hlaid : ring.Laid (ring.client.address node vaddr) first last turn)
    (hpositive : 0 < image.len.toInt) (hfits : image.len.toInt ≤ bufferVmemSize.toNat)
    (hclears : ring.Clears image) (h : ring.uploaded fuel node vaddr image = .ok next) :
    ∃ first' turn', next.Laid (next.client.address node vaddr) first' (last + 1) turn' ∧
      first' ≤ last ∧ ∃ address, next.stored (slotOf last) = some ⟨address, image⟩ := by
  obtain ⟨placement, client, hplace, hclient, rfl⟩ := Ring.uploaded_eq_ok h
  obtain ⟨first', hplaced⟩ := place_eq_ok hlaid.list hpositive hfits hlaid.first_le_last hlaid.few
    hlaid.head hlaid.tail ((hlaid.clears_iff image).mp hclears) hplace
  obtain ⟨-, hlast, -⟩ := hplaced.stays.mem_range hlaid.first_le_last hlaid.few
  have hplaced' : ∃ turn', (ring.place client image placement
      (ring.client.address node vaddr + placement.insertOffset.toUInt64)).Laid
        (ring.client.address node vaddr) first' (last + 1) turn' :=
    hlaid.place hpositive hfits hclears hplaced
  obtain ⟨turn', hlaid'⟩ := hplaced'
  refine ⟨first', turn', ?_, hlast, _, Ring.stored_place_last hlaid.head⟩
  change Ring.Laid (client.address node vaddr) _ _ _ _
  rw [hclient]
  exact hlaid'

/-- The images in a layout are intact. -/
theorem Ring.Laid.intact (h : ring.Laid address first last turn) {slot : Fin bufferListSize}
    (hslot : ring.buffer.Published slot) : ring.Intact slot := by
  obtain ⟨j, hfirst, hlast, rfl⟩ := (h.published_iff slot).mp hslot
  obtain ⟨stored, hstored, -, hbytes⟩ := h.images j hfirst hlast
  exact ⟨stored, hstored, hbytes⟩

/-- The length of an image is positive and at most the size of the buffer. -/
def Image.Fits (image : Image) : Prop :=
  0 < image.len.toInt ∧ image.len.toInt ≤ bufferVmemSize.toNat

/-- From a layout on, uploads of images that are clear of those that stay lead to layouts. -/
theorem Ring.Laid.run {fuel : ℕ} {node : UInt8} {vaddr : UInt64} {images : List Image}
    (hfits : ∀ image ∈ images, image.Fits)
    (hclears : Execution.Along (Ring.uploaded fuel node vaddr) Ring.Clears images ring)
    (hlaid : ring.Laid (ring.client.address node vaddr) first last turn) {next : Ring}
    (hrun : Execution.run (Ring.uploaded fuel node vaddr) images ring = .ok next) :
    ∃ first' last' turn', next.Laid (next.client.address node vaddr) first' last' turn' := by
  induction images generalizing ring first last turn with
  | nil =>
    obtain rfl : ring = next := Except.ok.inj hrun
    exact ⟨first, last, turn, hlaid⟩
  | cons image rest ih =>
    obtain ⟨middle, hmiddle, hrest⟩ := Execution.run_cons_eq_ok hrun
    obtain ⟨hpositive, hsize⟩ := hfits image List.mem_cons_self
    obtain ⟨first', turn', hlaid', -⟩ := hlaid.uploaded hpositive hsize hclears.1 hmiddle
    apply ih _ (hclears.2 middle hmiddle) hlaid' hrest
    exact fun later hlater => hfits later (List.mem_cons_of_mem _ hlater)

/-- If each new image is clear of the images that stay, then after each upload all the images that
are published are intact, the new one among them. -/
theorem published_intact_of_clears {fuel : ℕ} {node : UInt8} {vaddr : UInt64} {images : List Image}
    (hfits : ∀ image ∈ images, image.Fits) {client : Client} {memory : UInt64 → UInt8}
    (hclears : Execution.Along (Ring.uploaded fuel node vaddr) Ring.Clears images
      (Ring.empty client memory))
    {earlier later : List Image} {image : Image} (hsplit : images = earlier ++ [image] ++ later)
    {ring : Ring} (hrun : Execution.run (Ring.uploaded fuel node vaddr) (earlier ++ [image])
      (Ring.empty client memory) = .ok ring) :
    (∀ slot, ring.buffer.Published slot → ring.Intact slot) ∧
      ∃ slot address, ring.buffer.Published slot ∧ ring.stored slot = some ⟨address, image⟩ := by
  subst hsplit
  have hfits' : ∀ older ∈ earlier ++ [image], older.Fits := fun older holder =>
    hfits older (List.mem_append_left _ holder)
  obtain ⟨middle, hmiddle, hlatest⟩ := Execution.run_append_eq_ok hrun
  obtain ⟨first, last, turn, hlaid⟩ := (Ring.laid_empty _ client memory).run
    (fun older holder => hfits' older (List.mem_append_left _ holder))
    hclears.of_append.of_append hmiddle
  obtain ⟨next, hnext, hend⟩ := Execution.run_cons_eq_ok hlatest
  obtain rfl : next = ring := Except.ok.inj hend
  have hclear : middle.Clears image := (hclears.of_append.append_right hmiddle).1
  obtain ⟨hpositive, hsize⟩ := hfits' image (List.mem_append_right _ List.mem_cons_self)
  obtain ⟨first', turn', hlaid', hlast, address, hstored⟩ :=
    hlaid.uploaded hpositive hsize hclear hnext
  constructor
  · exact fun slot hslot => hlaid'.intact hslot
  · refine ⟨slotOf last, address, ?_, hstored⟩
    exact (hlaid'.published_iff _).mpr ⟨last, hlast, Nat.lt_succ_self _, rfl⟩

/-- An image of equal bytes. -/
def Image.constant (byte : UInt8) (len : Int32) : Image := ⟨fun _ => byte, len⟩

/-- An image of sixty million bytes is evicted by one of fifty million bytes, which is intact. -/
theorem published_intact_of_sixty_fifty :
    ∃ ring, Execution.run (Ring.uploaded 1 0 1)
        ([Image.constant 6 60000000] ++ [Image.constant 5 50000000])
        (Ring.empty Client.boot fun _ => 0) = .ok ring ∧
      (∀ slot, ring.buffer.Published slot → ring.Intact slot) ∧
        ∃ slot address, ring.buffer.Published slot ∧
          ring.stored slot = some ⟨address, Image.constant 5 50000000⟩ := by
  have hfits : ∀ image ∈ [Image.constant 6 60000000] ++ [Image.constant 5 50000000] ++ [],
      image.Fits := by
    simp only [List.append_nil, List.cons_append, List.nil_append, List.mem_cons, List.not_mem_nil,
      or_false]
    rintro image (rfl | rfl) <;> exact ⟨by decide, by decide⟩
  have hfirst : (Ring.empty Client.boot fun _ => 0).Clears (Image.constant 6 60000000) := by decide
  have hclears : Execution.Along (Ring.uploaded 1 0 1) Ring.Clears
      ([Image.constant 6 60000000] ++ [Image.constant 5 50000000] ++ [])
      (Ring.empty Client.boot fun _ => 0) := by
    refine ⟨hfirst, fun next hnext => ⟨?_, fun _ _ => trivial⟩⟩
    obtain rfl := Except.ok.inj hnext
    decide
  exact ⟨_, rfl, published_intact_of_clears hfits hclears rfl rfl⟩

/-- Two images of the size of the buffer are both published, although the second one overwrites the
first. -/
theorem published_not_always_intact :
    ¬ ∀ (fuel : ℕ) (node : UInt8) (vaddr : UInt64) (images : List Image)
      (_ : ∀ image ∈ images, image.Fits) (client : Client) (memory : UInt64 → UInt8)
      (earlier later : List Image) (image : Image) (_ : images = earlier ++ [image] ++ later)
      (ring : Ring) (_ : Execution.run (Ring.uploaded fuel node vaddr) (earlier ++ [image])
        (Ring.empty client memory) = .ok ring),
      (∀ slot, ring.buffer.Published slot → ring.Intact slot) ∧
        ∃ slot address, ring.buffer.Published slot ∧ ring.stored slot = some ⟨address, image⟩ := by
  intro h
  have hfits : ∀ image ∈ [Image.constant 1 100000000] ++ [Image.constant 2 100000000] ++ [],
      image.Fits := by
    simp only [List.append_nil, List.cons_append, List.nil_append, List.mem_cons, List.not_mem_nil,
      or_false]
    rintro image (rfl | rfl) <;> exact ⟨by decide, by decide⟩
  obtain ⟨hintact, -⟩ := h 1 0 1 _ hfits Client.boot (fun _ => 0) _ _ _ rfl _ rfl
  obtain ⟨stored, hstored, hbytes⟩ := hintact (slotOf 0) (by decide)
  have hoverwritten : some (⟨1, Image.constant 1 100000000⟩ : Stored) = some stored := hstored
  obtain rfl := Option.some.inj hoverwritten
  exact absurd (hbytes 0 (by decide)) (by decide)

end Dipp.Remote
