import Dipp.Library.Laps
import Dipp.Remote.Upload
import Dipp.Upload.Walker

/-!
# Where the remote upload puts an image

In a ring of at most nine images the offsets in the slots from the tail on are the bounds of
a layout in laps. The test `overtake` tells from three of these offsets whether the oldest
image is in the way, and the loop of the upload stops behind the image in which the new one
ends. The offsets do not say everything: with the oldest offset equal to the latest one, or
with a new image at least as long as the latest lap, the test does not see the images that
are overwritten. What it takes for the new image to be clear of those that stay is stated
here on the offsets.
-/

namespace Dipp.Remote

open Laps

/-- Going from the old to the new position, the target is passed. -/
def Overtakes (old target new : ℕ) : Prop :=
  old < target ∧ target < new ∨ target < old ∧ target < new ∧ new < old
  deriving Decidable

/-- An offset in the buffer is not negative as an `int`. -/
theorem toInt_toInt32 {x : UInt32} (h : x.toNat ≤ bufferVmemSize.toNat) :
    x.toInt32.toInt = x.toNat := by
  have hsize : bufferVmemSize.toNat = 100000000 := rfl
  have hsigned : x.toInt32.toInt = x.toBitVec.toInt := rfl
  have hunsigned : x.toBitVec.toNat = x.toNat := rfl
  rw [hsigned, BitVec.toInt_eq_toNat_of_lt (by omega), hunsigned]

/-- The test compares positions in the buffer. -/
theorem overtake_iff {old target new : UInt32} (hold : old.toNat ≤ bufferVmemSize.toNat)
    (htarget : target.toNat ≤ bufferVmemSize.toNat) (hnew : new.toNat ≤ bufferVmemSize.toNat) :
    overtake old.toInt32 target.toInt32 new.toInt32 = true ↔
      Overtakes old.toNat target.toNat new.toNat := by
  simp only [overtake, Overtakes, Bool.and_eq_true, decide_eq_true_eq, Int32.lt_iff_toInt_lt,
    toInt_toInt32 hold, toInt_toInt32 htarget, toInt_toInt32 hnew, Nat.cast_lt]
  split_ifs <;> simp_all

/-- The slot behind the last one is the first one. -/
theorem toNat_nextSlot {slot : UInt32} (h : slot.toNat < bufferListSize) :
    (nextSlot slot).toNat = (slot.toNat + 1) % bufferListSize := by
  have hall : ∀ n : Fin bufferListSize,
      (nextSlot (UInt32.ofNat n)).toNat = (n.val + 1) % bufferListSize := by decide
  have hslot := hall ⟨slot.toNat, h⟩
  rwa [UInt32.ofNat_toNat] at hslot

/-- Two slots with running numbers not too far apart. -/
theorem mod_bufferListSize_eq_iff {i j : ℕ} (hle : i ≤ j) (hfew : j ≤ i + 10) :
    i % bufferListSize = j % bufferListSize ↔ j = i ∨ j = i + 10 := by
  unfold bufferListSize
  omega

/-- The slot with a running number. -/
def slotOf (j : ℕ) : Fin bufferListSize := ⟨j % bufferListSize, Nat.mod_lt _ (by decide)⟩

/-- The offset in the slot with a running number. -/
def offsetAt (list : Fin bufferListSize → UInt32) (j : ℕ) : ℕ := (list (slotOf j)).toNat

/-- A slot is read under its number. -/
theorem listAt_eq (list : Fin bufferListSize → UInt32) {index : UInt32} {j : ℕ}
    (h : index.toNat = j % bufferListSize) : listAt list index = .ok (list (slotOf j)) := by
  have hlt : index.toNat < bufferListSize := h ▸ Nat.mod_lt _ (by decide)
  have hslot : (⟨index.toNat, hlt⟩ : Fin bufferListSize) = slotOf j := Fin.ext h
  rw [listAt, dif_pos hlt, hslot]

variable {list : Fin bufferListSize → UInt32}

/-- The loop stops behind an image in which the new one ends, at the latest behind any given one. -/
theorem evict_eq_ok (hlist : ∀ slot, (list slot).toNat ≤ bufferVmemSize.toNat) {n result : UInt32}
    (hn : n.toNat ≤ bufferVmemSize.toNat) {fuel j limit : ℕ} (hlimit : j ≤ limit)
    (hends : Overtakes (offsetAt list limit) n.toNat (offsetAt list (limit + 1)))
    {nextTail : UInt32} (hnext : nextTail.toNat = (j + 1) % bufferListSize)
    (h : evict list n fuel (list (slotOf j)) nextTail = .ok result) :
    ∃ i, j ≤ i ∧ i ≤ limit ∧ result.toNat = (i + 1) % bufferListSize ∧
      Overtakes (offsetAt list i) n.toNat (offsetAt list (i + 1)) := by
  induction fuel generalizing j nextTail with
  | zero => contradiction
  | succ fuel ih =>
    have hread := listAt_eq list hnext
    have htest := overtake_iff (hlist (slotOf j)) hn (hlist (slotOf (j + 1)))
    by_cases hstop : Overtakes (offsetAt list j) n.toNat (offsetAt list (j + 1))
    · rw [evict, hread] at h
      simp only [bind, Except.bind, if_pos (htest.mpr hstop)] at h
      obtain rfl : nextTail = result := Except.ok.inj h
      exact ⟨j, le_rfl, hlimit, hnext, hstop⟩
    · rw [evict, hread] at h
      simp only [bind, Except.bind, if_neg (mt htest.mp hstop)] at h
      have hbefore : j + 1 ≤ limit := by
        rcases Nat.lt_or_ge j limit with hlt | hge
        · exact hlt
        · obtain rfl : j = limit := Nat.le_antisymm hlimit hge
          exact absurd hends hstop
      have hslot : nextTail.toNat < bufferListSize := hnext ▸ Nat.mod_lt _ (by decide)
      obtain ⟨i, hi, hrest⟩ := ih hbefore
        (by rw [toNat_nextSlot hslot, hnext, Nat.mod_add_mod]) h
      exact ⟨i, by omega, hrest⟩

/-- The tail stays if the oldest image is not overtaken; otherwise it moves behind an image in which
the new one ends. -/
theorem evictedTail_eq_ok (hlist : ∀ slot, (list slot).toNat ≤ bufferVmemSize.toNat)
    {n tail result : UInt32} (hn : n.toNat ≤ bufferVmemSize.toNat) {fuel first last : ℕ}
    (htail : tail.toNat = first % bufferListSize)
    (hends : Overtakes (offsetAt list last) (offsetAt list first) n.toNat →
      ∃ j, first ≤ j ∧ j < last ∧ Overtakes (offsetAt list j) n.toNat (offsetAt list (j + 1)))
    (h : evictedTail fuel list (list (slotOf last)) (list (slotOf first)) n tail = .ok result) :
    (¬ Overtakes (offsetAt list last) (offsetAt list first) n.toNat ∧ result = tail) ∨
      ∃ i, Overtakes (offsetAt list last) (offsetAt list first) n.toNat ∧ first ≤ i ∧ i < last ∧
        result.toNat = (i + 1) % bufferListSize ∧
        Overtakes (offsetAt list i) n.toNat (offsetAt list (i + 1)) := by
  have htest := overtake_iff (hlist (slotOf last)) (hlist (slotOf first)) hn
  rw [evictedTail] at h
  by_cases hover : Overtakes (offsetAt list last) (offsetAt list first) n.toNat
  · right
    rw [if_pos (htest.mpr hover)] at h
    obtain ⟨j, hj, hlast, hstop⟩ := hends hover
    have hslot : tail.toNat < bufferListSize := htail ▸ Nat.mod_lt _ (by decide)
    obtain ⟨i, hi, hlimit, hresult, hover'⟩ := evict_eq_ok hlist hn hj hstop
      (by rw [toNat_nextSlot hslot, htail, Nat.mod_add_mod]) h
    exact ⟨i, hover, hi, by omega, hresult, hover'⟩
  · left
    rw [if_neg (mt htest.mp hover)] at h
    exact ⟨hover, (Except.ok.inj h).symm⟩

/-- If the new image overtakes the oldest one, it ends in the middle of a later one. -/
def EndsInside (offsets : ℕ → ℕ) (count newHeadOffset : ℕ) : Prop :=
  Overtakes (offsets count) (offsets 0) newHeadOffset →
    ∃ i < count, offsets i < newHeadOffset ∧ newHeadOffset < offsets (i + 1)

instance (offsets : ℕ → ℕ) (count newHeadOffset : ℕ) :
    Decidable (EndsInside offsets count newHeadOffset) :=
  decidable_of_iff (Overtakes (offsets count) (offsets 0) newHeadOffset →
    ∃ i ∈ List.range count, offsets i < newHeadOffset ∧ newHeadOffset < offsets (i + 1)) (by
      simp only [EndsInside, List.mem_range])

/-- An image that is put behind the latest one does not reach an image that stays: the oldest offset
is another one or that of an image at the turn of a lap, or the list is full, the oldest image goes
for that reason only, and the new one ends in its place or the turn of the lap comes next. -/
def ClearsStraight (offsets : ℕ → ℕ) (count newHeadOffset : ℕ) : Prop :=
  (offsets count = offsets 0 → offsets 1 < offsets 0) ∨
    count = 9 ∧ ¬ Overtakes (offsets count) (offsets 0) newHeadOffset ∧
      (newHeadOffset ≤ offsets 1 ∨ offsets 2 < offsets 1)
  deriving Decidable

/-- An image that is put at zero does not reach an image that stays: the images lie in one piece in
front of the latest offset, once an image at the turn of a lap is overtaken, and the new one is
shorter than that; or the list is full, and the image that goes is the one at the turn. -/
def ClearsTurn (offsets : ℕ → ℕ) (count newHeadOffset : ℕ) : Prop :=
  offsets 0 < offsets count ∧ newHeadOffset < offsets count ∧
      (offsets 1 < offsets 0 → offsets 0 < newHeadOffset) ∨
    count = 9 ∧ ¬ Overtakes (offsets count) (offsets 0) newHeadOffset ∧
      offsets 1 < offsets 0 ∧ newHeadOffset ≤ offsets 1
  deriving Decidable

/-- A new image of some length is clear of the images that stay, for the offsets in the slots from
the tail on and the number of images. -/
def Clears (offsets : ℕ → ℕ) (count length : ℕ) : Prop :=
  count = 0 ∨
    if offsets count + length ≤ bufferVmemSize.toNat then
      EndsInside offsets count (offsets count + length) ∧
        ClearsStraight offsets count (offsets count + length)
    else EndsInside offsets count length ∧ ClearsTurn offsets count length
  deriving Decidable

/-- The images that stay when a new one ends at some offset, by the number of the oldest one. -/
inductive Stays (bound : ℕ → ℕ) (first last newHeadOffset : ℕ) : ℕ → Prop
  | all (hlast : last ≠ first + 9)
      (hkeeps : ¬ Overtakes (bound last) (bound first) newHeadOffset) :
      Stays bound first last newHeadOffset first
  | full (hlast : last = first + 9)
      (hkeeps : ¬ Overtakes (bound last) (bound first) newHeadOffset) :
      Stays bound first last newHeadOffset (first + 1)
  | evicted {i : ℕ} (hover : Overtakes (bound last) (bound first) newHeadOffset)
      (hfirst : first ≤ i) (hlast : i < last)
      (hends : Overtakes (bound i) newHeadOffset (bound (i + 1))) :
      Stays bound first last newHeadOffset (i + 1)

variable {bound start : ℕ → ℕ} {size first last turn n first' : ℕ}

/-- The oldest image that stays is one of the images, and there is a slot for the new one. -/
theorem Stays.mem_range (h : Stays bound first last n first') (hle : first ≤ last)
    (hfew : last ≤ first + 9) : first ≤ first' ∧ first' ≤ last ∧ last + 1 ≤ first' + 9 := by
  cases h with
  | all hlast hkeeps => omega
  | full hlast hkeeps => omega
  | evicted hover hfirst hlast hends => omega

/-- A new image that ends in an image of the layout ends in front of its bound. -/
theorem ends_before (hlayout : Layout size bound start first last turn) {i : ℕ} (hfirst : first ≤ i)
    (hlast : i < last) (hends : Overtakes (bound i) n (bound (i + 1))) :
    n < bound (i + 1) ∧ (i = turn → n < bound i) := by
  by_cases hturn : i = turn
  · subst hturn
    have hdescends := (hlayout.turns hlast).2
    rcases hends with hstraight | hwrap
    · omega
    · exact ⟨hwrap.2.1, fun _ => hwrap.1⟩
  · have hascends := (hlayout.ascends i hfirst hlast hturn).2
    rcases hends with hstraight | hwrap
    · exact ⟨hstraight.2, fun h => absurd h hturn⟩
    · omega

/-- Behind the latest image, the images that stay leave room for the new one. -/
theorem Stays.room_straight (hlayout : Layout size bound start first last turn)
    (hn : bound last < n)
    (hclears : first < last → ClearsStraight (fun i => bound (first + i)) (last - first) n)
    (hstays : Stays bound first last n first') :
    ∃ turn', Layout size bound start first' last turn' ∧
      (first' < turn' → turn' < last → n ≤ bound first') := by
  have hfirst_turn := hlayout.first_le_turn
  have hturn_last := hlayout.turn_le_last
  have hcount : first + (last - first) = last := by omega
  simp only [ClearsStraight, hcount, Nat.add_zero] at hclears
  cases hstays with
  | all hlast hkeeps =>
    refine ⟨turn, hlayout, fun hlt hturn => ?_⟩
    have hapart := hlayout.apart hlt hturn
    have hascends := (hlayout.ascends first le_rfl (by omega) (by omega)).2
    rcases hclears (by omega) with hother | ⟨hnine, -⟩
    · simp only [Overtakes] at hkeeps
      omega
    · omega
  | full hlast hkeeps =>
    by_cases hturn : turn = first
    · exact ⟨last, hlayout.drop_after (by omega) (by omega), fun _ hlt => absurd hlt (by omega)⟩
    refine ⟨turn, hlayout.drop_before (Nat.le_succ _) (by omega), fun hlt hlast' => ?_⟩
    have hapart := hlayout.apart (by omega) hlast'
    have hascends := (hlayout.ascends first le_rfl (by omega) (by omega)).2
    have hascends' : bound (first + 1) < bound (first + 2) :=
      (hlayout.ascends (first + 1) (by omega) (by omega) (by omega)).2
    rcases hclears (by omega) with hother | ⟨-, -, hinside⟩
    · simp only [Overtakes] at hkeeps
      omega
    · omega
  | @evicted i hover hfirst hlast hends =>
    -- the latest offset is below the oldest one, so that a lap ends in between
    have hahead : bound last < bound first := by
      rcases hover with hstraight | hwrap <;> omega
    have hturn : turn < last := by
      rcases hturn_last.lt_or_eq with hlt | rfl
      · exact hlt
      · have := hlayout.bound_le_of_before le_rfl (by omega) le_rfl
        omega
    obtain ⟨hbefore, -⟩ := ends_before hlayout hfirst hlast hends
    have hold : i < turn := by
      rcases Nat.lt_or_ge i turn with hlt | hge
      · exact hlt
      · have := hlayout.bound_le_last hge hlast
        omega
    exact ⟨turn, hlayout.drop_before (by omega) hold, fun _ _ => hbefore.le⟩

/-- At zero, the images that stay leave room for the new one. -/
theorem Stays.room_turn (hlayout : Layout size bound start first last turn) (hlt : first < last)
    (hclears : ClearsTurn (fun i => bound (first + i)) (last - first) n)
    (hstays : Stays bound first last n first') :
    Layout size bound start first' last last ∧ n ≤ bound first' ∧ n < bound last := by
  have hfirst_turn := hlayout.first_le_turn
  have hturn_last := hlayout.turn_le_last
  have hcount : first + (last - first) = last := by omega
  simp only [ClearsTurn, hcount, Nat.add_zero] at hclears
  have hturn : turn = last ∨ turn = first ∧ bound (first + 1) < bound first ∨
      bound last ≤ bound first ∧ bound first < bound (first + 1) := by
    by_cases hlatest : turn = last
    · exact .inl hlatest
    by_cases holdest : turn = first
    · subst holdest
      exact .inr (.inl ⟨rfl, (hlayout.turns hlt).2⟩)
    · exact .inr (.inr ⟨hlayout.apart (by omega) (by omega),
        (hlayout.ascends first le_rfl hlt (Ne.symm holdest)).2⟩)
  cases hstays with
  | all hlast hkeeps =>
    simp only [Overtakes] at hkeeps
    obtain rfl : turn = last := by omega
    exact ⟨hlayout, by omega, by omega⟩
  | full hlast hkeeps =>
    rcases hclears with ⟨hbelow, hlatest, hoverturns⟩ | ⟨-, -, hdescends, hinside⟩
    · simp only [Overtakes] at hkeeps
      obtain rfl : turn = last := by omega
      have hascends := (hlayout.ascends first le_rfl hlt (by omega)).2
      exact ⟨hlayout.drop_before (Nat.le_succ _) (by omega), by omega, hlatest⟩
    · have holdest : turn = first := by
        by_contra hne
        have hascends := (hlayout.ascends first le_rfl hlt (Ne.symm hne)).2
        omega
      have hone : Layout size bound start (first + 1) last last :=
        hlayout.drop_after (by omega) (by omega)
      have hahead := (hone.ascends (first + 1) le_rfl (by omega) (by omega)).2
      have hlater := hone.bound_le_of_before (Nat.le_add_right (first + 1) 1) (by omega) le_rfl
      exact ⟨hone, hinside, by omega⟩
  | @evicted i hover hfirst hlast hends =>
    obtain ⟨hbefore, hold⟩ := ends_before hlayout hfirst hlast hends
    rcases hclears with ⟨hbelow, hlatest, hoverturns⟩ | ⟨-, hkeeps, -⟩
    · simp only [Overtakes] at hover
      rcases hturn with rfl | ⟨rfl, hdescends⟩ | hapart
      · exact ⟨hlayout.drop_before (by omega) hlast, hbefore.le, hlatest⟩
      · exact ⟨hlayout.drop_after (by omega) hlast, hbefore.le, hlatest⟩
      · omega
    · exact absurd hover hkeeps

/-- What the ring parameters after an upload say: the offset behind the new image, which is put
behind the latest one or at zero, and the oldest image that stays. -/
structure Placed (list : Fin bufferListSize → UInt32) (first last length : ℕ)
    (placement : Placement) (first' : ℕ) : Prop where
  newHead : placement.newHead.toNat = (last + 1) % bufferListSize
  newTail : placement.newTail.toNat = first' % bufferListSize
  ends : placement.newHeadOffset.toNat = placement.insertOffset.toNat + length
  inserted : if offsetAt list last + length ≤ bufferVmemSize.toNat
    then placement.insertOffset.toNat = offsetAt list last else placement.insertOffset.toNat = 0
  stays : Stays (offsetAt list) first last placement.newHeadOffset.toNat first'

/-- How the parts of a placement follow from one another. -/
theorem place_cases {head tail : UInt32} {len : Int32} {fuel first last : ℕ}
    (hhead : head.toNat = last % bufferListSize) (htail : tail.toNat = first % bufferListSize)
    {placement : Placement} (h : place fuel head tail list len = .ok placement) :
    ∃ stays, evictedTail fuel list (list (slotOf last)) (list (slotOf first))
        placement.newHeadOffset tail = .ok stays ∧
      placement.insertOffset = (if list (slotOf last) + len.toUInt32 > bufferVmemSize then 0
        else list (slotOf last)) ∧
      placement.newHeadOffset = placement.insertOffset + len.toUInt32 ∧
      placement.newHead = nextSlot head ∧
      placement.newTail = if stays = nextSlot head then nextSlot stays else stays := by
  rw [place, listAt_eq list hhead, listAt_eq list htail] at h
  simp only [bind, Except.bind] at h
  split at h
  · contradiction
  · next stays hstays =>
    obtain rfl := Except.ok.inj h
    exact ⟨stays, hstays, rfl, rfl, rfl, rfl⟩

/-- An image that fits the buffer is put behind the latest one, if there is room at the end. -/
theorem insertOffset_eq {headOffset : UInt32} {len : Int32} (hnonneg : 0 ≤ len.toInt)
    (hfits : len.toInt ≤ bufferVmemSize.toNat) (hhead : headOffset.toNat ≤ bufferVmemSize.toNat)
    {insertOffset : UInt32}
    (h : insertOffset = if headOffset + len.toUInt32 > bufferVmemSize then 0 else headOffset) :
    (insertOffset + len.toUInt32).toNat = insertOffset.toNat + len.toInt.toNat ∧
      insertOffset.toNat + len.toInt.toNat ≤ bufferVmemSize.toNat ∧
      if headOffset.toNat + len.toInt.toNat ≤ bufferVmemSize.toNat
        then insertOffset.toNat = headOffset.toNat else insertOffset.toNat = 0 := by
  have hsize : bufferVmemSize.toNat = 100000000 := rfl
  have hlen : len.toUInt32.toNat = len.toInt.toNat := toNat_toUInt32_of_nonneg hnonneg
  have hsum : (headOffset + len.toUInt32).toNat = headOffset.toNat + len.toInt.toNat := by
    rw [UInt32.toNat_add, hlen]
    omega
  have hwraps : headOffset + len.toUInt32 > bufferVmemSize ↔
      bufferVmemSize.toNat < headOffset.toNat + len.toInt.toNat := by
    rw [gt_iff_lt, UInt32.lt_iff_toNat_lt, hsum]
  by_cases hroom : headOffset.toNat + len.toInt.toNat ≤ bufferVmemSize.toNat
  · rw [if_neg (mt hwraps.mp (Nat.not_lt.mpr hroom))] at h
    subst h
    exact ⟨hsum, hroom, by rw [if_pos hroom]⟩
  · rw [if_pos (hwraps.mpr (Nat.not_le.mp hroom))] at h
    subst h
    rw [UInt32.zero_add, hlen, if_neg hroom, UInt32.toNat_zero]
    omega

/-- If the images are clear of the new one, and that overtakes the oldest of them, it ends in one of
them. -/
theorem Clears.endsInside {length : ℕ} (hclears :
      Clears (fun i => offsetAt list (first + i)) (last - first) length) (hle : first ≤ last)
    {placement : Placement}
    (hends : placement.newHeadOffset.toNat = placement.insertOffset.toNat + length)
    (hinserted : if offsetAt list last + length ≤ bufferVmemSize.toNat
      then placement.insertOffset.toNat = offsetAt list last
      else placement.insertOffset.toNat = 0) :
    Overtakes (offsetAt list last) (offsetAt list first) placement.newHeadOffset.toNat →
      ∃ j, first ≤ j ∧ j < last ∧
        Overtakes (offsetAt list j) placement.newHeadOffset.toNat (offsetAt list (j + 1)) := by
  intro hover
  have hcount : first + (last - first) = last := by omega
  have hinside : EndsInside (fun i => offsetAt list (first + i)) (last - first)
      placement.newHeadOffset.toNat := by
    rcases hclears with hnone | hclears
    · obtain rfl : first = last := by omega
      rcases hover with hover | hover <;> omega
    · simp only [hcount] at hclears
      split_ifs at hclears hinserted
      · rw [hends, hinserted]
        exact hclears.1
      · rw [hends, hinserted, Nat.zero_add]
        exact hclears.1
  simp only [EndsInside, hcount, Nat.add_zero] at hinside
  obtain ⟨i, hi, hbelow, habove⟩ := hinside hover
  exact ⟨first + i, by omega, by omega, .inl ⟨hbelow, habove⟩⟩

/-- An upload of an image that fits the buffer places it so. -/
theorem place_eq_ok (hlist : ∀ slot, (list slot).toNat ≤ bufferVmemSize.toNat)
    {head tail : UInt32} {len : Int32} (hpositive : 0 < len.toInt)
    (hfits : len.toInt ≤ bufferVmemSize.toNat) {fuel first last : ℕ} (hle : first ≤ last)
    (hfew : last ≤ first + 9) (hhead : head.toNat = last % bufferListSize)
    (htail : tail.toNat = first % bufferListSize) (hclears :
      Clears (fun i => offsetAt list (first + i)) (last - first) len.toInt.toNat)
    {placement : Placement} (h : place fuel head tail list len = .ok placement) :
    ∃ first', Placed list first last len.toInt.toNat placement first' := by
  obtain ⟨stays, hevict, hinsert, hends, hnewHead, hnewTail⟩ := place_cases hhead htail h
  obtain ⟨hend, hinside, hinserted⟩ :=
    insertOffset_eq hpositive.le hfits (hlist (slotOf last)) hinsert
  rw [← hends] at hend
  have hnext : (nextSlot head).toNat = (last + 1) % bufferListSize := by
    rw [toNat_nextSlot (hhead ▸ Nat.mod_lt _ (by decide)), hhead, Nat.mod_add_mod]
  have hnext' : (nextSlot tail).toNat = (first + 1) % bufferListSize := by
    rw [toNat_nextSlot (htail ▸ Nat.mod_lt _ (by decide)), htail, Nat.mod_add_mod]
  have hover := evictedTail_eq_ok hlist (hend ▸ hinside) htail
    (hclears.endsInside hle hend hinserted) hevict
  rcases hover with ⟨hkeeps, rfl⟩ | ⟨i, hover, hfirst, hlast, hresult, hover'⟩
  · by_cases hfull : last = first + 9
    · have hsame : stays = nextSlot head := by
        rw [← UInt32.toNat_inj, htail, hnext, mod_bufferListSize_eq_iff (by omega) (by omega)]
        omega
      refine ⟨first + 1, hnewHead ▸ hnext, ?_, hend, hinserted, .full hfull hkeeps⟩
      rw [hnewTail, if_pos hsame, hnext']
    · have hother : stays ≠ nextSlot head := by
        rw [ne_eq, ← UInt32.toNat_inj, htail, hnext,
          mod_bufferListSize_eq_iff (by omega) (by omega)]
        omega
      refine ⟨first, hnewHead ▸ hnext, ?_, hend, hinserted, .all hfull hkeeps⟩
      rw [hnewTail, if_neg hother, htail]
  · have hother : stays ≠ nextSlot head := by
      rw [ne_eq, ← UInt32.toNat_inj, hresult, hnext,
        mod_bufferListSize_eq_iff (by omega) (by omega)]
      omega
    refine ⟨i + 1, hnewHead ▸ hnext, ?_, hend, hinserted, .evicted hover hfirst hlast hover'⟩
    rw [hnewTail, if_neg hother, hresult]

/-- The place of the new image is free, and with it the images that stay are a layout again. -/
theorem Placed.room (hlayout : Layout bufferVmemSize.toNat (offsetAt list) start first last turn)
    (hfew : last ≤ first + 9) (hunused : first = last → offsetAt list last = 0) {length : ℕ}
    (hpositive : 0 < length) (hfits : length ≤ bufferVmemSize.toNat) (hclears :
      Clears (fun i => offsetAt list (first + i)) (last - first) length) {placement : Placement}
    (hplaced : Placed list first last length placement first') :
    Free (offsetAt list) start first' last placement.insertOffset.toNat
        placement.newHeadOffset.toNat ∧
      ∀ bound' start' : ℕ → ℕ,
        (∀ j, first' ≤ j → j ≤ last → bound' j = offsetAt list j) →
        (∀ j, first' ≤ j → j < last → start' j = start j) →
        bound' (last + 1) = placement.newHeadOffset.toNat →
        start' last = placement.insertOffset.toNat →
        ∃ turn', Layout bufferVmemSize.toNat bound' start' first' (last + 1) turn' := by
  obtain ⟨-, -, hends, hinserted, hstays⟩ := hplaced
  have hle := hlayout.first_le_turn.trans hlayout.turn_le_last
  have hcount : first + (last - first) = last := by omega
  obtain ⟨-, hfirst', -⟩ := hstays.mem_range hle hfew
  simp only [Clears, hcount] at hclears
  split_ifs at hclears hinserted with hroom
  · obtain ⟨turn', hlayout', hhigh⟩ := hstays.room_straight hlayout (by omega) (by
      intro hlt
      rw [hends, hinserted]
      exact (hclears.resolve_left (by omega)).2)
    constructor
    · rw [hinserted]
      exact hlayout'.free_straight hhigh
    · intro bound' start' hbound hstart hnewBound hnewStart
      have hlast := hbound last hfirst' le_rfl
      refine (hlayout'.congr hbound hstart).append_straight ?_ ?_ ?_ ?_
      · rw [hnewStart, hinserted, hlast]
      · rw [hlast, hnewBound]
        omega
      · omega
      · intro hlt hlt'
        rw [hnewBound, hbound first' le_rfl hfirst']
        exact hhigh hlt hlt'
  · have hlt : first < last := by
      refine lt_of_le_of_ne hle fun heq => ?_
      have hempty := hunused heq
      omega
    rw [hinserted, Nat.zero_add] at hends
    obtain ⟨hlayout', hhigh, hlower⟩ := hstays.room_turn hlayout hlt (by
      rw [hends]
      exact (hclears.resolve_left (by omega)).2)
    constructor
    · rw [hinserted]
      exact hlayout'.free_turn fun _ => hhigh
    · intro bound' start' hbound hstart hnewBound hnewStart
      refine ⟨last, (hlayout'.congr hbound hstart).append_turn ?_ ?_ ?_⟩
      · rw [hnewStart, hinserted]
      · rw [hnewBound, hbound last hfirst' le_rfl]
        exact hlower
      · intro _
        rw [hnewBound, hbound first' le_rfl hfirst']
        exact hhigh

end Dipp.Remote
