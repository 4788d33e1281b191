import Dipp.Remote.Bounds

/-!
# When the eviction loop ends

The loop that evicts images goes around the list and looks for two neighbouring offsets with
the end of the new image strictly between them. It looks at all ten pairs, whatever slot it
starts from, those of slots that are not in use among them, and has no other way to end.
After ten steps without such a pair it goes on forever. With images of one size the end of
a new image equals an offset of the lap before, and is not between any two.
-/

namespace Dipp.Remote

open Execution

variable {list : Fin bufferListSize → UInt32} {n : UInt32} {fuel : ℕ}

/-- The loop ends within a number of tests if one of so many pairs has the new offset in between. -/
theorem evict_isOk_iff (hlist : ∀ slot, (list slot).toNat ≤ bufferVmemSize.toNat)
    (hn : n.toNat ≤ bufferVmemSize.toNat) {j : ℕ} {nextTail : UInt32}
    (hnext : nextTail.toNat = (j + 1) % bufferListSize) :
    (∃ result, evict list n fuel (list (slotOf j)) nextTail = .ok result) ↔
      ∃ i < fuel, Overtakes (offsetAt list (j + i)) n.toNat (offsetAt list (j + i + 1)) := by
  induction fuel generalizing j nextTail with
  | zero => simp [evict]
  | succ fuel ih =>
    have hread := listAt_eq list hnext
    have htest := overtake_iff (hlist (slotOf j)) hn (hlist (slotOf (j + 1)))
    have hslot : nextTail.toNat < bufferListSize := hnext ▸ Nat.mod_lt _ (by decide)
    rw [evict, hread]
    simp only [bind, Except.bind]
    by_cases hstop : Overtakes (offsetAt list j) n.toNat (offsetAt list (j + 1))
    · rw [if_pos (htest.mpr hstop)]
      exact iff_of_true ⟨nextTail, rfl⟩ ⟨0, Nat.succ_pos _, hstop⟩
    · rw [if_neg (mt htest.mp hstop), ih (by rw [toNat_nextSlot hslot, hnext, Nat.mod_add_mod])]
      constructor
      · rintro ⟨i, hi, hends⟩
        exact ⟨i + 1, by omega, by rwa [← Nat.add_assoc, Nat.add_right_comm j i 1]⟩
      · rintro ⟨i, hi, hends⟩
        cases i with
        | zero => exact absurd hends hstop
        | succ i =>
          refine ⟨i, by omega, ?_⟩
          rwa [← Nat.add_assoc, Nat.add_right_comm j i 1] at hends

/-- Ten numbers in a row go through all slots. -/
theorem exists_slot_iff {p : Fin bufferListSize → Prop} (j : ℕ) :
    (∃ i < bufferListSize, p (slotOf (j + i))) ↔ ∃ slot, p slot := by
  constructor
  · rintro ⟨i, -, hi⟩
    exact ⟨_, hi⟩
  · rintro ⟨slot, hslot⟩
    have hlt : slot.val < 10 := slot.isLt
    have hsame : slotOf (j + (slot.val + 10 - j % 10) % 10) = slot := by
      apply Fin.ext
      change (j + (slot.val + 10 - j % 10) % 10) % 10 = slot.val
      omega
    refine ⟨(slot.val + 10 - j % 10) % 10, Nat.mod_lt _ (by decide), ?_⟩
    rwa [hsame]

/-- Two neighbouring slots have an offset strictly between them, on the way up or from the end of
the buffer. -/
def Encloses (list : Fin bufferListSize → UInt32) (newHeadOffset : ℕ) : Prop :=
  ∃ slot : Fin bufferListSize,
    Overtakes (list slot).toNat newHeadOffset (list (slotOf (slot.val + 1))).toNat
  deriving Decidable

/-- The ten tests of the loop are those of all pairs of neighbours. -/
theorem encloses_iff (j newHeadOffset : ℕ) : Encloses list newHeadOffset ↔
    ∃ i < bufferListSize,
      Overtakes (offsetAt list (j + i)) newHeadOffset (offsetAt list (j + i + 1)) := by
  rw [Encloses, ← exists_slot_iff j]
  refine exists_congr fun i => and_congr_right fun _ => ?_
  have hnext : slotOf ((slotOf (j + i)).val + 1) = slotOf (j + i + 1) :=
    Fin.ext (Nat.mod_add_mod _ _ _)
  rw [hnext, offsetAt, offsetAt]

/-- If no pair encloses the new offset, more tests do not help. -/
theorem encloses_of_evict {j i newHeadOffset : ℕ}
    (h : Overtakes (offsetAt list (j + i)) newHeadOffset (offsetAt list (j + i + 1))) :
    Encloses list newHeadOffset :=
  (encloses_iff (j + i) newHeadOffset).mpr ⟨0, Nat.succ_pos _, h⟩

/-- From ten tests on, the loop ends if and only if a pair encloses the new offset. -/
theorem evict_isOk_iff_encloses (hlist : ∀ slot, (list slot).toNat ≤ bufferVmemSize.toNat)
    (hn : n.toNat ≤ bufferVmemSize.toNat) (hfuel : bufferListSize ≤ fuel) {j : ℕ}
    {nextTail : UInt32} (hnext : nextTail.toNat = (j + 1) % bufferListSize) :
    (∃ result, evict list n fuel (list (slotOf j)) nextTail = .ok result) ↔
      Encloses list n.toNat := by
  rw [evict_isOk_iff hlist hn hnext]
  constructor
  · rintro ⟨i, -, hends⟩
    exact encloses_of_evict hends
  · intro hencloses
    obtain ⟨i, hi, hends⟩ := (encloses_iff j n.toNat).mp hencloses
    exact ⟨i, lt_of_lt_of_le hi hfuel, hends⟩

/-- Where the new image will end: behind the latest one, or behind zero. -/
def Buffer.newEnd (buffer : Buffer) (length : ℕ) : ℕ :=
  let headOffset := offsetAt buffer.list buffer.head.toNat
  if headOffset + length ≤ bufferVmemSize.toNat then headOffset + length else length

/-- If the new image overtakes the oldest one, two neighbouring offsets enclose its end. -/
def Buffer.FindsEnd (buffer : Buffer) (length : ℕ) : Prop :=
  Overtakes (offsetAt buffer.list buffer.head.toNat) (offsetAt buffer.list buffer.tail.toNat)
      (buffer.newEnd length) →
    Encloses buffer.list (buffer.newEnd length)
  deriving Decidable

/-- From ten tests on, the oldest image that stays is found if and only if the new one does not
overtake the oldest one, or a pair encloses its end. -/
theorem evictedTail_isOk_iff (hlist : ∀ slot, (list slot).toNat ≤ bufferVmemSize.toNat)
    (hn : n.toNat ≤ bufferVmemSize.toNat) (hfuel : bufferListSize ≤ fuel) {tail : UInt32}
    (htail : tail.toNat < bufferListSize) (slot : Fin bufferListSize) :
    (∃ result, evictedTail fuel list (list slot) (list (slotOf tail.toNat)) n tail =
        .ok result) ↔
      (Overtakes (list slot).toNat (offsetAt list tail.toNat) n.toNat →
        Encloses list n.toNat) := by
  have htest := overtake_iff (hlist slot) (hlist (slotOf tail.toNat)) hn
  rw [evictedTail]
  by_cases hover : Overtakes (list slot).toNat (offsetAt list tail.toNat) n.toNat
  · rw [if_pos (htest.mpr hover), evict_isOk_iff_encloses hlist hn hfuel (toNat_nextSlot htail)]
    exact (imp_iff_right hover).symm
  · rw [if_neg (mt htest.mp hover)]
    exact iff_of_true ⟨tail, rfl⟩ fun h => absurd h hover

/-- An image is placed if the oldest image that stays is found. -/
theorem place_isOk_iff {head tail : UInt32} {len : Int32} {headOffset tailOffset : UInt32}
    (hhead : listAt list head = .ok headOffset) (htail : listAt list tail = .ok tailOffset) :
    (∃ placement, place fuel head tail list len = .ok placement) ↔
      ∃ result, evictedTail fuel list headOffset tailOffset
        ((if headOffset + len.toUInt32 > bufferVmemSize then 0 else headOffset) + len.toUInt32)
        tail = .ok result := by
  rw [place, hhead, htail]
  simp only [bind, Except.bind]
  cases evictedTail fuel list headOffset tailOffset
      ((if headOffset + len.toUInt32 > bufferVmemSize then 0 else headOffset) + len.toUInt32)
      tail with
  | error stop => simp
  | ok stays => exact iff_of_true ⟨_, rfl⟩ ⟨stays, rfl⟩

/-- In range, the upload of an image that fits finds a place within ten tests, or any larger number
of them, if and only if it finds its end. -/
theorem Buffer.InRange.place_isOk_iff {buffer : Buffer} (h : buffer.InRange)
    (hfuel : bufferListSize ≤ fuel) {image : Image} (hfits : image.Fits) :
    (∃ placement, Remote.place fuel buffer.head buffer.tail buffer.list image.len =
        .ok placement) ↔ buffer.FindsEnd image.len.toInt.toNat := by
  have hhead := listAt_eq buffer.list (Nat.mod_eq_of_lt h.head).symm
  have htail := listAt_eq buffer.list (Nat.mod_eq_of_lt h.tail).symm
  obtain ⟨hsum, hinside, hinserted⟩ := insertOffset_eq hfits.1.le hfits.2
    (h.list (slotOf buffer.head.toNat)) rfl
  rw [Remote.place_isOk_iff hhead htail]
  have hend : ((if buffer.list (slotOf buffer.head.toNat) + image.len.toUInt32 > bufferVmemSize
      then 0 else buffer.list (slotOf buffer.head.toNat)) + image.len.toUInt32).toNat =
        buffer.newEnd image.len.toInt.toNat := by
    rw [hsum, Buffer.newEnd, offsetAt]
    split_ifs at hinserted ⊢ <;> omega
  rw [evictedTail_isOk_iff h.list (by omega) hfuel h.tail, hend]
  rfl

/-- In every ring that uploads of images that fit lead to, the next one finds a place within ten
tests, or any larger number of them, if and only if it finds its end. -/
theorem eviction_ends_iff {node : UInt8} {vaddr : UInt64} {earlier : ℕ} {images : List Image}
    (hfits : ∀ image ∈ images, image.Fits) {client : Client} {memory : UInt64 → UInt8} {ring : Ring}
    (hrun : run (Ring.uploaded earlier node vaddr) images (Ring.empty client memory) = .ok ring)
    {image : Image} (hfit : image.Fits) {tests : ℕ} (htests : bufferListSize ≤ tests) :
    (∃ placement, place tests ring.buffer.head ring.buffer.tail ring.buffer.list image.len =
        .ok placement) ↔ ring.buffer.FindsEnd image.len.toInt.toNat :=
  (Buffer.InRange.of_run hfits hrun).place_isOk_iff htests hfit

/-- Behind an image of sixty million bytes, one of fifty million bytes finds a place. -/
theorem eviction_ends_sixty_fifty :
    ∃ ring, run (Ring.uploaded 1 0 1) [Image.constant 6 60000000]
        (Ring.empty Client.boot fun _ => 0) = .ok ring ∧
      ∃ placement, place 10 ring.buffer.head ring.buffer.tail ring.buffer.list 50000000 =
        .ok placement := by
  have hrun : run (Ring.uploaded 1 0 1) [Image.constant 6 60000000]
      (Ring.empty Client.boot fun _ => 0) = .ok _ := rfl
  have hfit : (Image.constant 5 50000000).Fits := ⟨by decide, by decide⟩
  exact ⟨_, hrun, (eviction_ends_iff sixty_fits hrun hfit le_rfl).mpr (by decide)⟩

/-- Behind two images of forty million bytes, a third one finds no place. -/
theorem eviction_not_always_ends :
    ¬ ∀ (earlier : ℕ) (node : UInt8) (vaddr : UInt64) (images : List Image)
      (_ : ∀ image ∈ images, image.Fits) (client : Client) (memory : UInt64 → UInt8) (ring : Ring)
      (_ : run (Ring.uploaded earlier node vaddr) images (Ring.empty client memory) = .ok ring)
      (image : Image) (_ : image.Fits), ∃ placement, place bufferListSize ring.buffer.head
        ring.buffer.tail ring.buffer.list image.len = .ok placement := by
  intro h
  have hfit : (Image.constant 0 40000000).Fits := ⟨by decide, by decide⟩
  have hfits : ∀ image ∈ List.replicate 2 (Image.constant 0 40000000), image.Fits := by
    intro image himage
    rw [List.eq_of_mem_replicate himage]
    exact hfit
  have hrun : run (Ring.uploaded 1 0 1) (List.replicate 2 (Image.constant 0 40000000))
      (Ring.empty Client.boot fun _ => 0) = .ok _ := rfl
  have hplace := h 1 0 1 _ hfits _ _ _ hrun _ hfit
  exact absurd (((Buffer.InRange.of_run hfits hrun).place_isOk_iff le_rfl hfit).mp hplace)
    (by decide)

end Dipp.Remote
