import Mathlib.Logic.Function.Basic
import Mathlib.Data.List.Basic

/-!
# A store with write-through views and a lazy rebuild

Every key has a stored content and a view of it that readers use. A write replaces both.
A flag says whether the views are known to be current; when it is down, the next
synchronization recomputes all of them from the store. How a content determines its view
is a relation, so that contents without a meaningful view leave it open.
-/

namespace WriteThrough

variable {ι C V : Type*}

/-- Contents, their views, and whether the views are known to be current. -/
structure State (ι C V : Type*) where
  store : ι → C
  view : ι → V
  fresh : Bool

/-- An operation with the views that it computes. -/
inductive Op (ι C V : Type*) where
  | write (i : ι) (content : C) (view : V)
  | sync (view : ι → V)
  | invalidate

variable [DecidableEq ι]

/-- Perform an operation; a synchronization of current views does nothing. -/
def step (state : State ι C V) : Op ι C V → State ι C V
  | .write i content view =>
    { state with
      store := Function.update state.store i content
      view := Function.update state.view i view }
  | .sync view => if state.fresh then state else { state with view := view, fresh := true }
  | .invalidate => { state with fresh := false }

/-- Current views are left alone. -/
theorem step_sync_of_fresh (state : State ι C V) (view : ι → V)
    (h : state.fresh = true) : step state (.sync view) = state := if_pos h

/-- Other views are all replaced. -/
theorem step_sync_of_stale (state : State ι C V) (view : ι → V)
    (h : state.fresh = false) :
    step state (.sync view) = { state with view := view, fresh := true } := by
  simp [step, h]

variable (shows : ι → C → V → Prop)

omit [DecidableEq ι] in
/-- The views an operation computes are views of the contents it computes them from. -/
def Op.Faithful (state : State ι C V) : Op ι C V → Prop
  | .write i content view => shows i content view
  | .sync view => state.fresh = false → ∀ i, shows i (state.store i) (view i)
  | .invalidate => True

omit [DecidableEq ι] in
/-- While the flag is up, every view is a view of its content. -/
def Coherent (state : State ι C V) : Prop :=
  state.fresh = true → ∀ i, shows i (state.store i) (state.view i)

variable {shows}

/-- Faithful operations keep the views current as long as the flag is up. -/
theorem coherent_step (state : State ι C V) (op : Op ι C V) (hcoherent : Coherent shows state)
    (hfaithful : op.Faithful shows state) : Coherent shows (step state op) := by
  cases op with
  | write i content view =>
    intro hfresh i'
    by_cases hi : i' = i
    · subst hi
      simp only [step, Function.update_self]
      exact hfaithful
    · simp only [step, Function.update_of_ne hi]
      exact hcoherent hfresh i'
  | sync view =>
    cases hflag : state.fresh with
    | true =>
      rw [step_sync_of_fresh state view hflag]
      exact hcoherent
    | false =>
      rw [step_sync_of_stale state view hflag]
      exact fun _ => hfaithful hflag
  | invalidate =>
    intro hfresh
    simp [step] at hfresh

end WriteThrough
