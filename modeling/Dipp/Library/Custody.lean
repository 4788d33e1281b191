import Dipp.Library.Execution
import Mathlib.Data.Multiset.AddSub

/-!
# Custody of things that are handed out

Things are taken from somewhere, and released again. Only what is owned can be released, so
a run of moves stops at the first release of a thing that is not owned. What is owned at the
end of a run, and what was released in it, add up to what was owned before and what was
taken. A run that starts and ends with nothing releases each thing as often as it takes it.
-/

namespace Custody

open Execution

variable {Thing : Type*} [DecidableEq Thing]

/-- A thing is taken, or released. -/
inductive Move (Thing : Type*) where
  | take (thing : Thing)
  | release (thing : Thing)
  deriving DecidableEq

/-- A thing that is released without being owned is an error. -/
def move (owned : Multiset Thing) : Move Thing → Except Thing (Multiset Thing)
  | .take thing => .ok (thing ::ₘ owned)
  | .release thing => if thing ∈ owned then .ok (owned.erase thing) else .error thing

/-- Releasing succeeds for what is owned. -/
theorem move_release_eq_ok {owned next : Multiset Thing} {thing : Thing}
    (h : move owned (.release thing) = .ok next) : owned = thing ::ₘ next := by
  rw [move] at h
  split at h
  case isTrue howned =>
    rw [← Except.ok.inj h, Multiset.cons_erase howned]
  case isFalse => contradiction

/-- What is owned after a run and what was released in it is what was owned before and what was
taken in it. -/
theorem count_of_run {moves : List (Move Thing)} {owned last : Multiset Thing}
    (h : run move moves owned = .ok last) (thing : Thing) :
    last.count thing + moves.count (.release thing) =
      owned.count thing + moves.count (.take thing) := by
  induction moves generalizing owned with
  | nil =>
    obtain rfl : owned = last := Except.ok.inj h
    rfl
  | cons first rest ih =>
    obtain ⟨next, hnext, hrest⟩ := run_cons_eq_ok h
    have hcount := ih hrest
    cases first with
    | take other =>
      obtain rfl : other ::ₘ owned = next := Except.ok.inj hnext
      rw [Multiset.count_cons] at hcount
      simp only [List.count_cons, beq_iff_eq, reduceCtorEq, if_false, Move.take.injEq] at hcount ⊢
      simp only [eq_comm (a := thing)] at hcount
      omega
    | release other =>
      obtain rfl : owned = other ::ₘ next := move_release_eq_ok hnext
      rw [Multiset.count_cons]
      simp only [List.count_cons, beq_iff_eq, reduceCtorEq, if_false, Move.release.injEq]
      simp only [eq_comm (a := thing)]
      omega

/-- Nothing is released more often than it was taken. -/
theorem count_release_le {moves : List (Move Thing)} {last : Multiset Thing}
    (h : run move moves 0 = .ok last) (thing : Thing) :
    moves.count (.release thing) ≤ moves.count (.take thing) := by
  have hcount := count_of_run h thing
  rw [Multiset.count_zero] at hcount
  omega

end Custody
