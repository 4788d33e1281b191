import Dipp.Remote.Ring

/-!
# Staying inside of the remote buffer

The length of an image is an `int`, the offsets are unsigned, and an image that does not fit
behind the latest one is put at zero without a look at its length. As long as no length is
negative or above the size of the buffer, nothing wraps around, every image lies inside of
the buffer, and the ring parameters stay in their ranges. An upload of another length that
gets as far as the pushes writes outside, and spoils the list.
-/

namespace Dipp.Remote

open Execution

/-- Head and tail are slots, and the offsets are at most the size of the buffer. -/
structure Buffer.InRange (buffer : Buffer) : Prop where
  head : buffer.head.toNat < bufferListSize
  tail : buffer.tail.toNat < bufferListSize
  list : ∀ slot, (buffer.list slot).toNat ≤ bufferVmemSize.toNat

/-- The empty buffer is in range. -/
theorem Buffer.InRange.empty (client : Client) (memory : UInt64 → UInt8) :
    (Ring.empty client memory).buffer.InRange :=
  ⟨Nat.zero_lt_succ 9, Nat.zero_lt_succ 9, fun _ => Nat.zero_le _⟩

/-- The parameters of a write are in range. -/
def Write.InRange : Write → Prop
  | .head value => value.toNat < bufferListSize
  | .tail value => value.toNat < bufferListSize
  | .list _ value => value.toNat ≤ bufferVmemSize.toNat
  | .data _ _ _ => True

/-- Writes in range keep a buffer in range. -/
theorem Buffer.InRange.apply {buffer : Buffer} (h : buffer.InRange) {write : Write}
    (hwrite : write.InRange) : (buffer.apply write).InRange := by
  obtain ⟨hhead, htail, hlist⟩ := h
  cases write with
  | head value => exact ⟨hwrite, htail, hlist⟩
  | tail value => exact ⟨hhead, hwrite, hlist⟩
  | list index value =>
    refine ⟨hhead, htail, fun slot => ?_⟩
    change (if slot.val = index.toNat then value else buffer.list slot).toNat ≤ _
    split_ifs
    · exact hwrite
    · exact hlist slot
  | data address count bytes => exact ⟨hhead, htail, hlist⟩

/-- Any of the writes of an upload keep it in range. -/
theorem Buffer.InRange.after {ring : Ring} (h : ring.buffer.InRange) (image : Image)
    {writes : List Write} (hwrites : ∀ write ∈ writes, write.InRange) :
    (ring.after image writes).buffer.InRange := by
  unfold Ring.after
  generalize slotOf ring.buffer.head.toNat = slot
  induction writes generalizing ring with
  | nil => exact h
  | cons write rest ih =>
    rw [List.foldl_cons]
    apply ih
    · have hbuffer : (ring.write slot image write).buffer = ring.buffer.apply write := by
        cases write with
        | data address count bytes =>
          rw [Ring.write]
          split_ifs <;> rfl
        | _ => rfl
      rw [hbuffer]
      exact h.apply (hwrites write List.mem_cons_self)
    · exact fun later hlater => hwrites later (List.mem_cons_of_mem _ hlater)

/-- What takes effect is among what was attempted. -/
theorem mem_perform {attempts : List Attempt} {write : Write}
    (h : write ∈ (perform attempts).1) : ∃ failed, (some write, failed) ∈ attempts := by
  induction attempts with
  | nil => exact absurd h List.not_mem_nil
  | cons attempt rest ih =>
    obtain ⟨first, failed⟩ := attempt
    cases failed with
    | some code =>
      obtain rfl : first = some write := Option.mem_toList.mp h
      exact ⟨some code, List.mem_cons_self⟩
    | none =>
      rcases List.mem_append.mp h with hfirst | hrest
      · obtain rfl : first = some write := Option.mem_toList.mp hfirst
        exact ⟨none, List.mem_cons_self⟩
      · obtain ⟨later, hlater⟩ := ih hrest
        exact ⟨later, List.mem_cons_of_mem _ hlater⟩

/-- The length is neither negative nor above the size of the buffer. -/
def Image.Bounded (image : Image) : Prop :=
  0 ≤ image.len.toInt ∧ image.len.toInt ≤ bufferVmemSize.toNat

/-- The upload fails before anything is changed: the buffer is not found, the parameters are not
pulled, or the push of the head does not arrive. -/
def Ring.Fails (node : UInt8) (ring : Ring) (network : Network) : Prop :=
  ring.client.find node network.find = none ∨ ¬ network.Answers ∨ network.pushHead = .lost

/-- The image lies inside of the buffer, the parameters are in range, and no sum has wrapped. -/
structure Placement.Inside (placement : Placement) (headOffset : UInt32) (len : Int32) : Prop where
  tried : ((headOffset + len.toUInt32).toNat : ℤ) = headOffset.toNat + len.toInt
  ends : (placement.newHeadOffset.toNat : ℤ) = placement.insertOffset.toNat + len.toInt
  inside : placement.insertOffset.toNat + len.toUInt32.toNat ≤ bufferVmemSize.toNat
  newHeadOffset : placement.newHeadOffset.toNat ≤ bufferVmemSize.toNat
  newHead : placement.newHead.toNat < bufferListSize
  newTail : placement.newTail.toNat < bufferListSize

/-- The next slot is a slot. -/
theorem nextSlot_lt {slot : UInt32} (h : slot.toNat < bufferListSize) :
    (nextSlot slot).toNat < bufferListSize := by
  rw [toNat_nextSlot h]
  exact Nat.mod_lt _ (by decide)

/-- The loop stops at a slot. -/
theorem evict_lt {list : Fin bufferListSize → UInt32} {newHeadOffset result : UInt32} {fuel : ℕ}
    {tailOffset nextTail : UInt32}
    (h : evict list newHeadOffset fuel tailOffset nextTail = .ok result) :
    result.toNat < bufferListSize := by
  induction fuel generalizing tailOffset nextTail with
  | zero => contradiction
  | succ fuel ih =>
    rw [evict, listAt] at h
    by_cases hslot : nextTail.toNat < bufferListSize
    · rw [dif_pos hslot] at h
      simp only [bind, Except.bind] at h
      split at h
      · rw [← Except.ok.inj h]
        exact hslot
      · exact ih h
    · rw [dif_neg hslot] at h
      contradiction

/-- So is the tail behind the evicted images. -/
theorem evictedTail_lt {list : Fin bufferListSize → UInt32}
    {headOffset tailOffset newHeadOffset tail result : UInt32} {fuel : ℕ}
    (htail : tail.toNat < bufferListSize)
    (h : evictedTail fuel list headOffset tailOffset newHeadOffset tail = .ok result) :
    result.toNat < bufferListSize := by
  rw [evictedTail] at h
  split at h
  · exact evict_lt h
  · rw [← Except.ok.inj h]
    exact htail

variable {fuel : ℕ} {node : UInt8}

/-- An image of a bounded length is placed inside. -/
theorem Buffer.InRange.place {buffer : Buffer} (h : buffer.InRange) {image : Image}
    (hbounded : image.Bounded) {placement : Placement}
    (hplace : place fuel buffer.head buffer.tail buffer.list image.len = .ok placement) :
    placement.Inside (buffer.list (slotOf buffer.head.toNat)) image.len := by
  obtain ⟨hnonneg, hfits⟩ := hbounded
  have hsize : bufferVmemSize.toNat = 100000000 := rfl
  have hlen : image.len.toUInt32.toNat = image.len.toInt.toNat := toNat_toUInt32_of_nonneg hnonneg
  have hlist := h.list (slotOf buffer.head.toNat)
  obtain ⟨stays, hevicted, hinsert, hends, hnewHead, hnewTail⟩ := place_cases
    (Nat.mod_eq_of_lt h.head).symm (Nat.mod_eq_of_lt h.tail).symm hplace
  obtain ⟨hsum, hinside, -⟩ := insertOffset_eq hnonneg hfits hlist hinsert
  rw [← hends] at hsum
  have hstays := evictedTail_lt h.tail hevicted
  constructor
  case tried =>
    rw [UInt32.toNat_add]
    omega
  case ends => omega
  case inside => omega
  case newHeadOffset => omega
  case newHead =>
    rw [hnewHead]
    exact nextSlot_lt h.head
  case newTail =>
    rw [hnewTail]
    split_ifs
    · exact nextSlot_lt hstays
    · exact hstays

/-- The writes of an image that is placed inside are in range. -/
theorem Placement.Inside.publish {placement : Placement} {headOffset : UInt32} {image : Image}
    (h : placement.Inside headOffset image.len) (network : Network) (vaddr : UInt64) :
    ∀ write ∈ (perform (publish network vaddr placement image.data image.len)).1,
      write.InRange := by
  intro write hwrite
  obtain ⟨failed, hattempt⟩ := mem_perform hwrite
  have hpush {delivery : Delivery} {pushed : Write}
      (hsame : (some write, failed) = push delivery pushed) (hpushed : pushed.InRange) :
      write.InRange := by
    cases delivery <;> simp only [push, Prod.mk.injEq, Option.some.injEq, reduceCtorEq,
      false_and] at hsame
    all_goals exact hsame.1 ▸ hpushed
  simp only [Remote.publish, List.mem_cons, List.not_mem_nil, or_false] at hattempt
  rcases hattempt with hhead | htail | hlist | hdata
  · exact hpush hhead h.newHead
  · exact hpush htail h.newTail
  · exact hpush hlist h.newHeadOffset
  · cases hdelivered : network.data with
    | complete =>
      simp only [transfer, hdelivered, Prod.mk.injEq, Option.some.injEq] at hdata
      exact hdata.1 ▸ trivial
    | broken count =>
      simp only [transfer, hdelivered, Prod.mk.injEq, Option.some.injEq] at hdata
      exact hdata.1 ▸ trivial

/-- An upload that returns reports an error and writes nothing, or the image is placed inside; and
the parameters are in range afterwards. -/
def Ring.Contained (fuel : ℕ) (node : UInt8) (ring : Ring) (event : Network × Image) : Prop :=
  ∀ next, ring.step fuel node event = .ok next →
    (((ring.upload fuel node event.1 event.2).errors ≠ [] ∧
        (ring.upload fuel node event.1 event.2).writes = []) ∨
      ∃ headOffset placement, listAt ring.buffer.list ring.buffer.head = .ok headOffset ∧
        Remote.place fuel ring.buffer.head ring.buffer.tail ring.buffer.list event.2.len =
          .ok placement ∧
        placement.Inside headOffset event.2.len) ∧
    next.buffer.InRange

/-- An upload that returns fails before anything is changed, or is one of a bounded length. -/
def Ring.Admissible (fuel : ℕ) (node : UInt8) (ring : Ring) (event : Network × Image) : Prop :=
  ∀ next, ring.step fuel node event = .ok next → ring.Fails node event.1 ∨ event.2.Bounded

variable {ring next : Ring} {event : Network × Image}

/-- An upload that returns has no place for the image, or publishes it. -/
theorem Ring.step_cases (h : ring.step fuel node event = .ok next) :
    ((ring.client.find node event.1.find = none ∨ ¬ event.1.Answers) ∧
        (ring.upload fuel node event.1 event.2).errors ≠ [] ∧
        (ring.upload fuel node event.1 event.2).writes = [] ∧ next.buffer = ring.buffer) ∨
      ∃ found placement, ring.client.find node event.1.find = some found ∧ event.1.Answers ∧
        Remote.place fuel ring.buffer.head ring.buffer.tail ring.buffer.list event.2.len =
          .ok placement ∧
        (ring.upload fuel node event.1 event.2).writes =
          (perform (publish event.1 found.check.1.vaddr placement event.2.data event.2.len)).1 ∧
        (ring.upload fuel node event.1 event.2).errors = found.check.2 ++
          (perform (publish event.1 found.check.1.vaddr placement event.2.data event.2.len)).2 ∧
        next.buffer =
          (ring.after event.2 (ring.upload fuel node event.1 event.2).writes).buffer := by
  rw [step] at h
  cases hfind : ring.client.find node event.1.find with
  | none =>
    rw [upload, upload_of_failed hfind] at h ⊢
    obtain rfl := Except.ok.inj h
    exact .inl ⟨.inl rfl, List.cons_ne_nil _ _, rfl, rfl⟩
  | some found =>
    by_cases hpulls : event.1.Answers
    · cases hplace : Remote.place fuel ring.buffer.head ring.buffer.tail ring.buffer.list
          event.2.len with
      | error stop =>
        rw [upload, upload_of_place_error hfind hpulls hplace] at h
        contradiction
      | ok placement =>
        rw [upload, upload_of_place hfind hpulls hplace] at h ⊢
        obtain rfl := Except.ok.inj h
        exact .inr ⟨found, placement, rfl, hpulls, rfl, rfl, rfl, rfl⟩
    · rw [upload, upload_of_not_answers hfind hpulls] at h ⊢
      obtain rfl := Except.ok.inj h
      refine .inl ⟨.inr hpulls, ?_, rfl, rfl⟩
      exact List.append_ne_nil_of_right_ne_nil _ (List.cons_ne_nil _ _)

/-- A bounded length is the same number without a sign. -/
theorem Image.bounded_iff {image : Image} :
    image.Bounded ↔ image.len.toUInt32.toNat ≤ bufferVmemSize.toNat := by
  have hsize : bufferVmemSize.toNat = 100000000 := rfl
  constructor
  · rintro ⟨hnonneg, hfits⟩
    rw [toNat_toUInt32_of_nonneg hnonneg]
    omega
  · intro hfits
    have hunsigned : image.len.toBitVec.toNat = image.len.toUInt32.toNat := rfl
    have hsigned : image.len.toInt = image.len.toBitVec.toNat :=
      BitVec.toInt_eq_toNat_of_lt (by omega)
    unfold Bounded
    omega

/-- If the push of the head does not arrive, that is all. -/
theorem perform_publish_of_lost {network : Network} (h : network.pushHead = .lost) (vaddr : UInt64)
    (placement : Placement) (data : ℕ → UInt8) (len : Int32) :
    perform (publish network vaddr placement data len) = ([], [.internalRemoteParamPush]) := by
  rw [publish, h]
  rfl

/-- If it arrives, there is a write. -/
theorem perform_publish_ne_nil {network : Network} (h : network.pushHead ≠ .lost) (vaddr : UInt64)
    (placement : Placement) (data : ℕ → UInt8) (len : Int32) :
    (perform (publish network vaddr placement data len)).1 ≠ [] := by
  rw [publish]
  cases hpush : network.pushHead with
  | acknowledged => exact List.cons_ne_nil _ _
  | unacknowledged => exact List.cons_ne_nil _ _
  | lost => exact absurd hpush h

/-- In range, an upload is contained if and only if it is admissible. -/
theorem Ring.contained_iff (h : ring.buffer.InRange) :
    ring.Contained fuel node event ↔ ring.Admissible fuel node event := by
  refine forall₂_congr fun next hnext => ?_
  rcases step_cases hnext with ⟨hfails, herrors, hwrites, hbuffer⟩ |
    ⟨found, placement, hfound, hpulls, hplace, hwrites, herrors, hbuffer⟩
  · refine iff_of_true ⟨.inl ⟨herrors, hwrites⟩, hbuffer ▸ h⟩ (.inl ?_)
    exact hfails.imp_right .inl
  · by_cases hlost : event.1.pushHead = .lost
    · rw [perform_publish_of_lost hlost] at hwrites herrors
      rw [hwrites] at hbuffer
      refine iff_of_true ⟨.inl ⟨?_, hwrites⟩, hbuffer ▸ h⟩ (.inl (.inr (.inr hlost)))
      rw [herrors]
      exact List.append_ne_nil_of_right_ne_nil _ (List.cons_ne_nil _ _)
    · constructor
      · rintro ⟨⟨-, hnothing⟩ | ⟨headOffset, placed, -, -, hinside⟩, -⟩
        · rw [hwrites] at hnothing
          exact absurd hnothing (perform_publish_ne_nil hlost _ _ _ _)
        · exact .inr (Image.bounded_iff.mpr (Nat.le_of_add_left_le hinside.inside))
      · rintro ((hmissing | hunanswered | hgone) | hbounded)
        · rw [hfound] at hmissing
          contradiction
        · exact absurd hpulls hunanswered
        · exact absurd hgone hlost
        · have hinside := h.place hbounded hplace
          have hread := listAt_eq ring.buffer.list (Nat.mod_eq_of_lt h.head).symm
          refine ⟨.inr ⟨_, placement, hread, hplace, hinside⟩, ?_⟩
          rw [hbuffer]
          apply h.after
          rw [hwrites]
          exact hinside.publish _ _

/-- In any sequence of uploads from the empty buffer, over any network and with any lengths, every
upload that returns is contained if and only if each of them fails before anything is changed or is
one of a bounded length. -/
theorem uploads_contained_iff (fuel : ℕ) (node : UInt8) (client : Client)
    (memory : UInt64 → UInt8) (events : List (Network × Image)) :
    Along (Ring.step fuel node) (Ring.Contained fuel node) events (Ring.empty client memory) ↔
      Along (Ring.step fuel node) (Ring.Admissible fuel node) events
        (Ring.empty client memory) := by
  apply along_congr_of_invariant fun ring => ring.buffer.InRange
  · exact fun ring event h => Ring.contained_iff h
  · exact fun ring event next _ hcontained hnext => (hcontained next hnext).2
  · exact Buffer.InRange.empty client memory

/-- An image that fits keeps the buffer in range. -/
theorem Buffer.InRange.uploaded {vaddr : UInt64} {image : Image} (h : ring.buffer.InRange)
    (hfits : image.Fits) (hnext : ring.uploaded fuel node vaddr image = .ok next) :
    next.buffer.InRange := by
  have hadmissible : ring.Admissible fuel node (Network.succeeding vaddr, image) :=
    fun _ _ => .inr ⟨hfits.1.le, hfits.2⟩
  exact ((Ring.contained_iff h).mpr hadmissible next hnext).2

/-- So do uploads of images that fit, one after the other. -/
theorem Buffer.InRange.of_run {vaddr : UInt64} {images : List Image}
    (hfits : ∀ image ∈ images, image.Fits) {client : Client} {memory : UInt64 → UInt8}
    (hrun : run (Ring.uploaded fuel node vaddr) images (Ring.empty client memory) = .ok ring) :
    ring.buffer.InRange := by
  refine run_invariant_along (fun ring => ring.buffer.InRange) (fun _ image => image.Fits) ?_ images
    _ ring (Buffer.InRange.empty client memory) ?_ hrun
  · exact fun _ _ _ h hfits hnext => h.uploaded hfits hnext
  · exact Along.of_forall (fun image himage _ => hfits image himage) _

/-- The run of one image of sixty million bytes. -/
theorem sixty_fits : ∀ image ∈ [Image.constant 6 60000000], image.Fits := by
  intro image himage
  rw [List.mem_singleton.mp himage]
  exact ⟨by decide, by decide⟩

/-- An image of length minus one is written as four gigabytes. -/
theorem uploads_not_always_contained :
    ¬ ∀ (fuel : ℕ) (node : UInt8) (client : Client) (memory : UInt64 → UInt8)
        (events : List (Network × Image)),
        Along (Ring.step fuel node) (Ring.Contained fuel node) events
          (Ring.empty client memory) := by
  intro h
  obtain ⟨hcontained, -⟩ := h 1 0 Client.boot (fun _ => 0)
    [(Network.succeeding 1, Image.constant 0 (-1))]
  have hlength : (Image.constant 0 (-1)).len.toUInt32.toNat = 4294967295 := rfl
  have hsize : bufferVmemSize.toNat = 100000000 := rfl
  rcases (hcontained _ rfl).1 with ⟨herrors, -⟩ | ⟨headOffset, placement, -, -, hinside⟩
  · exact herrors rfl
  · have hlarge := hinside.inside
    rw [hlength] at hlarge
    omega

end Dipp.Remote
