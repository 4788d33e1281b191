import Dipp.Remote.Bounds

/-!
# What a reader can tell from the ring parameters

A reader sees the head, the tail and the list. The offset behind the latest image is in the
list, but not where the image begins: that is the end of the one before it, or zero if the
image would not have fitted there, and the reader does not know by how much it failed to
fit. Two lengths from the same ring lead to the same parameters with different images in two
cases only: one image is put behind the latest one, the other one at zero, and they end at
the same offset.
-/

namespace Dipp.Remote

open Execution

/-- A reader cannot tell the buffers apart. -/
structure Buffer.Looks (buffer other : Buffer) : Prop where
  head : buffer.head = other.head
  tail : buffer.tail = other.tail
  list : buffer.list = other.list

/-- Where an image was stored for a slot, and its length. -/
def Ring.region (ring : Ring) (slot : Fin bufferListSize) : Option (UInt64 × Int32) :=
  (ring.stored slot).map fun stored => (stored.address, stored.image.len)

/-- One of the lengths fits behind the offset, the other one does not, and both images end at the
same offset. -/
def Aliased (headOffset length other : ℕ) : Prop :=
  length + headOffset = other ∧ bufferVmemSize.toNat < headOffset + other ∨
    other + headOffset = length ∧ bufferVmemSize.toNat < headOffset + length
  deriving Decidable

variable {fuel : ℕ} {node : UInt8} {vaddr : UInt64} {ring next : Ring} {image : Image}

/-- What an upload publishes, and where it stores the image: the offset behind the image decides
about head, tail and list. -/
structure Ring.Publishes (fuel : ℕ) (address : UInt64) (ring next : Ring) (image : Image)
    (insertOffset newHeadOffset stays : UInt32) : Prop where
  ends : newHeadOffset.toNat = insertOffset.toNat + image.len.toInt.toNat
  inserted : if offsetAt ring.buffer.list ring.buffer.head.toNat + image.len.toInt.toNat ≤
      bufferVmemSize.toNat
    then insertOffset.toNat = offsetAt ring.buffer.list ring.buffer.head.toNat
    else insertOffset.toNat = 0
  evicted : evictedTail fuel ring.buffer.list (ring.buffer.list (slotOf ring.buffer.head.toNat))
    (ring.buffer.list (slotOf ring.buffer.tail.toNat)) newHeadOffset ring.buffer.tail = .ok stays
  head : next.buffer.head = nextSlot ring.buffer.head
  tail : next.buffer.tail = if stays = nextSlot ring.buffer.head then nextSlot stays else stays
  list : next.buffer.list = fun slot =>
    if slot.val = (nextSlot ring.buffer.head).toNat then newHeadOffset else ring.buffer.list slot
  region : next.region (slotOf ring.buffer.head.toNat) =
    some (address + insertOffset.toUInt64, image.len)

/-- Every upload of an image that fits does so. -/
theorem Buffer.InRange.publishes (h : ring.buffer.InRange) (hfits : image.Fits)
    (hnext : ring.uploaded fuel node vaddr image = .ok next) :
    ∃ insertOffset newHeadOffset stays, Ring.Publishes fuel (ring.client.address node vaddr) ring
      next image insertOffset newHeadOffset stays := by
  obtain ⟨placement, client, hplace, -, rfl⟩ := Ring.uploaded_eq_ok hnext
  obtain ⟨stays, hevicted, hinsert, hends, hnewHead, hnewTail⟩ := place_cases
    (Nat.mod_eq_of_lt h.head).symm (Nat.mod_eq_of_lt h.tail).symm hplace
  obtain ⟨hsum, -, hinserted⟩ := insertOffset_eq hfits.1.le hfits.2
    (h.list (slotOf ring.buffer.head.toNat)) hinsert
  refine ⟨placement.insertOffset, placement.newHeadOffset, stays, ?_⟩
  constructor
  case ends => rw [hends, hsum]
  case inserted => exact hinserted
  case evicted => exact hevicted
  case head => exact hnewHead
  case tail => exact hnewTail
  case list =>
    rw [← hnewHead]
    rfl
  case region =>
    have hstored : (ring.place client image placement (ring.client.address node vaddr +
        placement.insertOffset.toUInt64)).stored (slotOf ring.buffer.head.toNat) =
          some ⟨ring.client.address node vaddr + placement.insertOffset.toUInt64, image⟩ :=
      Function.update_self _ _ _
    rw [Ring.region, hstored]
    rfl

variable {address : UInt64} {next' : Ring} {image' : Image}
  {insertOffset newHeadOffset stays insertOffset' newHeadOffset' stays' : UInt32}

/-- Two uploads from one ring look the same if and only if they end at the same offset. -/
theorem Ring.Publishes.looks_iff (hhead : ring.buffer.head.toNat < bufferListSize)
    (h : Ring.Publishes fuel address ring next image insertOffset newHeadOffset stays)
    (h' : Ring.Publishes fuel address ring next' image' insertOffset' newHeadOffset' stays') :
    next.buffer.Looks next'.buffer ↔ newHeadOffset = newHeadOffset' := by
  constructor
  · rintro ⟨-, -, hlist⟩
    have hslot := congrFun hlist ⟨(nextSlot ring.buffer.head).toNat, nextSlot_lt hhead⟩
    rw [h.list, h'.list] at hslot
    simpa only [if_true] using hslot
  · rintro rfl
    have hstays : stays = stays' := Except.ok.inj (h.evicted.symm.trans h'.evicted)
    refine ⟨h.head.trans h'.head.symm, ?_, h.list.trans h'.list.symm⟩
    rw [h.tail, h'.tail, hstays]

/-- They store the same region if and only if they begin at the same offset, with one length. -/
theorem Ring.Publishes.region_eq_iff
    (h : Ring.Publishes fuel address ring next image insertOffset newHeadOffset stays)
    (h' : Ring.Publishes fuel address ring next' image' insertOffset' newHeadOffset' stays') :
    next.region (slotOf ring.buffer.head.toNat) = next'.region (slotOf ring.buffer.head.toNat) ↔
      insertOffset.toNat = insertOffset'.toNat ∧ image.len = image'.len := by
  rw [h.region, h'.region, Option.some.injEq, Prod.mk.injEq, UInt64.add_right_inj,
    UInt32.toUInt64_inj, UInt32.toNat_inj]

/-- Two lengths from one ring that fit are told apart if and only if they are not aliased. -/
theorem Ring.Publishes.told_apart_iff (hhead : ring.buffer.head.toNat < bufferListSize)
    (hfits : image.Fits) (hfits' : image'.Fits)
    (h : Ring.Publishes fuel address ring next image insertOffset newHeadOffset stays)
    (h' : Ring.Publishes fuel address ring next' image' insertOffset' newHeadOffset' stays') :
    (next.buffer.Looks next'.buffer → next.region (slotOf ring.buffer.head.toNat) =
        next'.region (slotOf ring.buffer.head.toNat)) ↔
      ¬ Aliased (offsetAt ring.buffer.list ring.buffer.head.toNat) image.len.toInt.toNat
        image'.len.toInt.toNat := by
  obtain ⟨hpositive, hsize⟩ := hfits
  obtain ⟨hpositive', hsize'⟩ := hfits'
  have hlen : image.len = image'.len ↔ image.len.toInt.toNat = image'.len.toInt.toNat := by
    rw [← Int32.toInt_inj]
    omega
  have hsame : newHeadOffset = newHeadOffset' ↔ newHeadOffset.toNat = newHeadOffset'.toNat :=
    UInt32.toNat_inj.symm
  have hends := h.ends
  have hends' := h'.ends
  have hinserted := h.inserted
  have hinserted' := h'.inserted
  rw [h.looks_iff hhead h', h.region_eq_iff h', hlen, hsame, Aliased]
  split_ifs at hinserted hinserted' <;> omega

/-- Two uploads from a ring in range are told apart if and only if their lengths are not aliased. -/
theorem Buffer.InRange.told_apart_iff (h : ring.buffer.InRange) (hfits : image.Fits)
    (hfits' : image'.Fits) (hnext : ring.uploaded fuel node vaddr image = .ok next)
    (hnext' : ring.uploaded fuel node vaddr image' = .ok next') :
    (next.buffer.Looks next'.buffer → next.region (slotOf ring.buffer.head.toNat) =
        next'.region (slotOf ring.buffer.head.toNat)) ↔
      ¬ Aliased (offsetAt ring.buffer.list ring.buffer.head.toNat) image.len.toInt.toNat
        image'.len.toInt.toNat := by
  obtain ⟨_, _, _, hpublishes⟩ := h.publishes hfits hnext
  obtain ⟨_, _, _, hpublishes'⟩ := h.publishes hfits' hnext'
  exact hpublishes.told_apart_iff h.head hfits hfits' hpublishes'

/-- From every ring that uploads of images that fit lead to, two further uploads between which a
reader cannot tell store the same region, if and only if their lengths are not aliased. -/
theorem looks_determine_region_iff {images : List Image} (hfits : ∀ image ∈ images, image.Fits)
    {client : Client} {memory : UInt64 → UInt8} {earlier : ℕ}
    (hrun : run (Ring.uploaded earlier node vaddr) images (Ring.empty client memory) = .ok ring)
    (hfit : image.Fits) (hfit' : image'.Fits)
    (hnext : ring.uploaded fuel node vaddr image = .ok next)
    (hnext' : ring.uploaded fuel node vaddr image' = .ok next') :
    (next.buffer.Looks next'.buffer → next.region (slotOf ring.buffer.head.toNat) =
        next'.region (slotOf ring.buffer.head.toNat)) ↔
      ¬ Aliased (offsetAt ring.buffer.list ring.buffer.head.toNat) image.len.toInt.toNat
        image'.len.toInt.toNat :=
  (Buffer.InRange.of_run hfits hrun).told_apart_iff hfit hfit' hnext hnext'

/-- Behind an image of sixty million bytes, ten and twenty million bytes are told apart. -/
theorem looks_determine_region_sixty :
    ∃ ring next next', run (Ring.uploaded 1 0 1) [Image.constant 6 60000000]
        (Ring.empty Client.boot fun _ => 0) = .ok ring ∧
      ring.uploaded 1 0 1 (Image.constant 1 10000000) = .ok next ∧
      ring.uploaded 1 0 1 (Image.constant 2 20000000) = .ok next' ∧
      (next.buffer.Looks next'.buffer → next.region (slotOf ring.buffer.head.toNat) =
        next'.region (slotOf ring.buffer.head.toNat)) := by
  have hrun : run (Ring.uploaded 1 0 1) [Image.constant 6 60000000]
      (Ring.empty Client.boot fun _ => 0) = .ok _ := rfl
  have hten : (Image.constant 1 10000000).Fits := ⟨by decide, by decide⟩
  have htwenty : (Image.constant 2 20000000).Fits := ⟨by decide, by decide⟩
  exact ⟨_, _, _, hrun, rfl, rfl,
    (looks_determine_region_iff sixty_fits hrun hten htwenty rfl rfl).mpr (by decide)⟩

/-- Behind an image of sixty million bytes, an image of ten million bytes lies behind it, and one of
seventy million bytes at zero; the parameters are the same. -/
theorem looks_not_always_determine_region :
    ¬ ∀ (earlier fuel : ℕ) (node : UInt8) (vaddr : UInt64) (images : List Image)
      (_ : ∀ image ∈ images, image.Fits) (client : Client) (memory : UInt64 → UInt8)
      (ring next next' : Ring) (image image' : Image)
      (_ : run (Ring.uploaded earlier node vaddr) images (Ring.empty client memory) = .ok ring)
      (_ : image.Fits) (_ : image'.Fits) (_ : ring.uploaded fuel node vaddr image = .ok next)
      (_ : ring.uploaded fuel node vaddr image' = .ok next'),
      next.buffer.Looks next'.buffer → next.region (slotOf ring.buffer.head.toNat) =
        next'.region (slotOf ring.buffer.head.toNat) := by
  intro h
  have hrun : run (Ring.uploaded 1 0 1) [Image.constant 6 60000000]
      (Ring.empty Client.boot fun _ => 0) = .ok _ := rfl
  have hten : (Image.constant 1 10000000).Fits := ⟨by decide, by decide⟩
  have hseventy : (Image.constant 2 70000000).Fits := ⟨by decide, by decide⟩
  have hregion := h 1 1 0 1 _ sixty_fits _ _ _ _ _ _ _ hrun hten hseventy rfl rfl
  have hrange := Buffer.InRange.of_run sixty_fits hrun
  exact (@Buffer.InRange.told_apart_iff 1 0 1 _ _ _ _ _ hrange hten hseventy rfl rfl).mp hregion
    (by decide)

end Dipp.Remote
