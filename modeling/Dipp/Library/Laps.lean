import Mathlib.Algebra.Order.Ring.Nat

/-!
# Records of any size, laid out in laps

A store takes numbered records one behind the other. A record that does not fit into what
is left of the store begins a new lap at zero, where the oldest records give way to it.
All that is known of the records is a sequence of bounds: a record ends at the bound of its
successor, and begins at its own bound unless it begins a lap. As long as the records that
stay are at most a lap long, a new record gets a place that none of them occupies.
-/

namespace Laps

/-- The records from `first` up to `last` lie in a store of the given size. All of them begin at
their own bounds, which ascend, except that the record `turn` begins a new lap, if it is one of
them; the bounds of the new lap do not pass the oldest record. -/
structure Layout (size : ℕ) (bound start : ℕ → ℕ) (first last turn : ℕ) : Prop where
  first_le_turn : first ≤ turn
  turn_le_last : turn ≤ last
  ascends : ∀ j, first ≤ j → j < last → j ≠ turn → start j = bound j ∧ bound j < bound (j + 1)
  turns : turn < last → start turn = 0 ∧ bound (turn + 1) < bound turn
  apart : first < turn → turn < last → bound last ≤ bound first
  inside : ∀ j, first ≤ j → j ≤ last → bound j ≤ size

variable {size : ℕ} {bound start bound' start' : ℕ → ℕ} {first last turn : ℕ}

/-- A layout without records. -/
theorem Layout.empty (h : bound first ≤ size) : Layout size bound start first first first where
  first_le_turn := le_rfl
  turn_le_last := le_rfl
  ascends := fun _ hfirst hlast => absurd hlast (Nat.not_lt.mpr hfirst)
  turns := fun h => absurd h (Nat.lt_irrefl _)
  apart := fun h => absurd h (Nat.lt_irrefl _)
  inside := fun _ hfirst hlast => (Nat.le_antisymm hlast hfirst) ▸ h

/-- A layout depends on the bounds and starts of its own records only. -/
theorem Layout.congr (h : Layout size bound start first last turn)
    (hbound : ∀ j, first ≤ j → j ≤ last → bound' j = bound j)
    (hstart : ∀ j, first ≤ j → j < last → start' j = start j) :
    Layout size bound' start' first last turn where
  first_le_turn := h.first_le_turn
  turn_le_last := h.turn_le_last
  ascends := by
    intro j hfirst hlast hturn
    rw [hstart j hfirst hlast, hbound j hfirst hlast.le, hbound (j + 1) (by omega) hlast]
    exact h.ascends j hfirst hlast hturn
  turns := by
    intro hturn
    rw [hstart turn h.first_le_turn hturn, hbound turn h.first_le_turn hturn.le,
      hbound (turn + 1) (Nat.le_succ_of_le h.first_le_turn) hturn]
    exact h.turns hturn
  apart := by
    intro hfirst hlast
    have hfirst_le := h.first_le_turn.trans h.turn_le_last
    rw [hbound last hfirst_le le_rfl, hbound first le_rfl hfirst_le]
    exact h.apart hfirst hlast
  inside := by
    intro j hfirst hlast
    rw [hbound j hfirst hlast]
    exact h.inside j hfirst hlast

/-- Up to the turn, bounds ascend. -/
theorem Layout.bound_le_of_before (h : Layout size bound start first last turn) {i j : ℕ}
    (hi : first ≤ i) (hij : i ≤ j) (hj : j ≤ turn) : bound i ≤ bound j := by
  induction j, hij using Nat.le_induction with
  | base => exact le_rfl
  | succ j hij ih =>
    have hturn := h.turn_le_last
    have hstep := (h.ascends j (hi.trans hij) (by omega) (by omega)).2
    exact (ih (by omega)).trans hstep.le

/-- Behind the turn, they ascend again. -/
theorem Layout.bound_le_of_after (h : Layout size bound start first last turn) {i j : ℕ}
    (hi : turn < i) (hij : i ≤ j) (hj : j ≤ last) : bound i ≤ bound j := by
  induction j, hij using Nat.le_induction with
  | base => exact le_rfl
  | succ j hij ih =>
    have hfirst := h.first_le_turn
    have hstep := (h.ascends j (by omega) (by omega) (by omega)).2
    exact (ih (by omega)).trans hstep.le

/-- A record of the new lap ends below the bound of the latest one. -/
theorem Layout.bound_le_last (h : Layout size bound start first last turn) {j : ℕ}
    (hj : turn ≤ j) (hlast : j < last) : bound (j + 1) ≤ bound last :=
  h.bound_le_of_after (Nat.lt_succ_of_le hj) hlast le_rfl

/-- Giving up records in front of the turn leaves a layout. -/
theorem Layout.drop_before (h : Layout size bound start first last turn) {first' : ℕ}
    (hfirst : first ≤ first') (hturn : first' ≤ turn) :
    Layout size bound start first' last turn where
  first_le_turn := hturn
  turn_le_last := h.turn_le_last
  ascends := fun j hj => h.ascends j (hfirst.trans hj)
  turns := h.turns
  apart := by
    intro hlt hlast
    exact (h.apart (by omega) hlast).trans (h.bound_le_of_before le_rfl hfirst hturn)
  inside := fun j hj => h.inside j (hfirst.trans hj)

/-- Giving up the record that turns leaves a layout in one piece. -/
theorem Layout.drop_after (h : Layout size bound start first last turn) {first' : ℕ}
    (hturn : turn < first') (hlast : first' ≤ last) :
    Layout size bound start first' last last where
  first_le_turn := hlast
  turn_le_last := le_rfl
  ascends := by
    intro j hj hlt _
    have hfirst := h.first_le_turn
    exact h.ascends j (by omega) hlt (by omega)
  turns := fun hlt => absurd hlt (Nat.lt_irrefl _)
  apart := fun _ hlt => absurd hlt (Nat.lt_irrefl _)
  inside := fun j hj => h.inside j ((h.first_le_turn.trans hturn.le).trans hj)

/-- The place between two offsets is not taken by any of the records. -/
def Free (bound start : ℕ → ℕ) (first last low high : ℕ) : Prop :=
  ∀ j, first ≤ j → j < last → bound (j + 1) ≤ low ∨ high ≤ start j

/-- Behind the latest record there is a free place, up to the oldest one if a lap ends there. -/
theorem Layout.free_straight (h : Layout size bound start first last turn) {high : ℕ}
    (hhigh : first < turn → turn < last → high ≤ bound first) :
    Free bound start first last (bound last) high := by
  intro j hfirst hlast
  rcases Nat.lt_or_ge j turn with hbefore | hafter
  · by_cases hturn : turn = last
    · left
      exact h.bound_le_of_before (Nat.le_succ_of_le hfirst) (by omega) hturn.ge
    · right
      have hlt : turn < last := lt_of_le_of_ne h.turn_le_last hturn
      rw [(h.ascends j hfirst hlast (by omega)).1]
      exact (hhigh (by omega) hlt).trans (h.bound_le_of_before le_rfl hfirst hbefore.le)
  · exact .inl (h.bound_le_last hafter hlast)

/-- In front of records in one piece there is a free place. -/
theorem Layout.free_turn (h : Layout size bound start first last last) {high : ℕ}
    (hhigh : first < last → high ≤ bound first) : Free bound start first last 0 high := by
  intro j hfirst hlast
  right
  rw [(h.ascends j hfirst hlast (by omega)).1]
  exact (hhigh (by omega)).trans (h.bound_le_of_before le_rfl hfirst hlast.le)

/-- A record that is added behind the latest one belongs to the same lap. -/
theorem Layout.append_straight (h : Layout size bound start first last turn)
    (hstart : start last = bound last) (hascends : bound last < bound (last + 1))
    (hinside : bound (last + 1) ≤ size)
    (hhigh : first < turn → turn < last → bound (last + 1) ≤ bound first) :
    ∃ turn', Layout size bound start first (last + 1) turn' := by
  have hinside' : ∀ j, first ≤ j → j ≤ last + 1 → bound j ≤ size := by
    intro j hfirst hlast
    rcases Nat.le_succ_iff.mp hlast with hold | rfl
    · exact h.inside j hfirst hold
    · exact hinside
  by_cases hturn : turn = last
  · refine ⟨last + 1, ?_, le_rfl, ?_, fun hlt => absurd hlt (Nat.lt_irrefl _),
      fun _ hlt => absurd hlt (Nat.lt_irrefl _), hinside'⟩
    · exact (h.first_le_turn.trans h.turn_le_last).trans (Nat.le_succ _)
    · intro j hfirst hlast _
      rcases Nat.lt_succ_iff_lt_or_eq.mp hlast with hold | rfl
      · exact h.ascends j hfirst hold (by omega)
      · exact ⟨hstart, hascends⟩
  · have hlt : turn < last := lt_of_le_of_ne h.turn_le_last hturn
    refine ⟨turn, h.first_le_turn, by omega, ?_, fun _ => h.turns hlt, fun hfirst _ =>
      hhigh hfirst hlt, hinside'⟩
    intro j hfirst hlast hne
    rcases Nat.lt_succ_iff_lt_or_eq.mp hlast with hold | rfl
    · exact h.ascends j hfirst hold hne
    · exact ⟨hstart, hascends⟩

/-- A record that is added at zero begins a new lap. -/
theorem Layout.append_turn (h : Layout size bound start first last last)
    (hstart : start last = 0) (hlower : bound (last + 1) < bound last)
    (hhigh : first < last → bound (last + 1) ≤ bound first) :
    Layout size bound start first (last + 1) last where
  first_le_turn := h.first_le_turn
  turn_le_last := Nat.le_succ _
  ascends := fun j hfirst hlast hne => h.ascends j hfirst (by omega) hne
  turns := fun _ => ⟨hstart, hlower⟩
  apart := fun hfirst _ => hhigh hfirst
  inside := by
    intro j hfirst hlast
    rcases Nat.le_succ_iff.mp hlast with hold | rfl
    · exact h.inside j hfirst hold
    · exact hlower.le.trans (h.inside last h.first_le_turn le_rfl)

end Laps
