import Mathlib.Data.List.Basic

/-!
# Stages run in order, up to the first failure

Each stage works on the value the previous one left and is observed from outside. An
observation either yields the next value or stops the run. The world threads through
every stage, so a stage may depend on anything its predecessors did. The run keeps the
executed steps: they are an initial segment of the stages, and only the last of them
can be a failure.
-/

namespace Stages

variable {W S B O : Type*}

/-- An executed stage, the value it was given, and what was observed of it. -/
structure Step (S B O : Type*) where
  stage : S
  input : B
  observed : O
  deriving DecidableEq

/-- The executed steps, the last value, whether the last step failed, and the world left behind. -/
structure Run (W S B O : Type*) where
  steps : List (Step S B O)
  value : B
  failed : Bool
  world : W

/-- Prepend a step that succeeded. -/
def Run.cons (step : Step S B O) (rest : Run W S B O) : Run W S B O :=
  { rest with steps := step :: rest.steps }

/-- Run the stages in order until one of them yields no next value. -/
def run (observe : W → S → B → O × W) (result : B → O → Option B) :
    List S → B → W → Run W S B O
  | [], value, world => ⟨[], value, false, world⟩
  | stage :: rest, value, world =>
    let seen := observe world stage value
    match result value seen.1 with
    | none => ⟨[⟨stage, value, seen.1⟩], value, true, seen.2⟩
    | some next => (run observe result rest next seen.2).cons ⟨stage, value, seen.1⟩

variable {observe : W → S → B → O × W} {result : B → O → Option B}

/-- A failing stage ends the run with the value it was given. -/
theorem run_cons_none {stage : S} {value : B} {world : W} (rest : List S)
    (h : result value (observe world stage value).1 = none) :
    run observe result (stage :: rest) value world =
      ⟨[⟨stage, value, (observe world stage value).1⟩], value, true,
        (observe world stage value).2⟩ := by
  rw [run]
  simp only [h]

/-- A succeeding stage hands its value and its world to the rest of the run. -/
theorem run_cons_some {stage : S} {value next : B} {world : W} (rest : List S)
    (h : result value (observe world stage value).1 = some next) :
    run observe result (stage :: rest) value world =
      (run observe result rest next (observe world stage value).2).cons
        ⟨stage, value, (observe world stage value).1⟩ := by
  rw [run]
  simp only [h]

/-- The executed stages are an initial segment of the given ones. -/
theorem run_stages_prefix (stages : List S) (value : B) (world : W) :
    (run observe result stages value world).steps.map Step.stage <+: stages := by
  induction stages generalizing value world with
  | nil => exact List.prefix_rfl
  | cons stage rest ih =>
    cases h : result value (observe world stage value).1 with
    | none =>
      rw [run_cons_none rest h]
      exact ⟨rest, rfl⟩
    | some next =>
      rw [run_cons_some rest h]
      exact List.prefix_cons_inj stage |>.mpr (ih next _)

/-- A run without failure executed every stage, and every step yielded a value. -/
theorem run_completed (stages : List S) (value : B) (world : W)
    (h : (run observe result stages value world).failed = false) :
    (run observe result stages value world).steps.map Step.stage = stages ∧
      ∀ step ∈ (run observe result stages value world).steps,
        (result step.input step.observed).isSome := by
  induction stages generalizing value world with
  | nil => exact ⟨rfl, by simp [run]⟩
  | cons stage rest ih =>
    cases hres : result value (observe world stage value).1 with
    | none => rw [run_cons_none rest hres] at h; contradiction
    | some next =>
      rw [run_cons_some rest hres] at h ⊢
      obtain ⟨hstages, hsteps⟩ := ih next _ h
      refine ⟨congrArg (List.cons stage) hstages, ?_⟩
      intro step hstep
      rcases List.mem_cons.mp hstep with rfl | hstep
      · simp [hres]
      · exact hsteps step hstep

/-- A failed run ends in its only failing step. -/
theorem run_failed (stages : List S) (value : B) (world : W)
    (h : (run observe result stages value world).failed = true) :
    ∃ earlier last, (run observe result stages value world).steps = earlier ++ [last] ∧
      result last.input last.observed = none ∧
      ∀ step ∈ earlier, (result step.input step.observed).isSome := by
  induction stages generalizing value world with
  | nil => simp [run] at h
  | cons stage rest ih =>
    cases hres : result value (observe world stage value).1 with
    | none =>
      rw [run_cons_none rest hres]
      exact ⟨[], _, rfl, hres, by simp⟩
    | some next =>
      rw [run_cons_some rest hres] at h ⊢
      obtain ⟨earlier, last, hsteps, hlast, hearlier⟩ := ih next _ h
      refine ⟨⟨stage, value, (observe world stage value).1⟩ :: earlier, last,
        congrArg (List.cons _) hsteps, hlast, ?_⟩
      intro step hstep
      rcases List.mem_cons.mp hstep with rfl | hstep
      · simp [hres]
      · exact hearlier step hstep

/-- Every step was observed in some world on the stage and value it records. -/
theorem run_observed (stages : List S) (value : B) (world : W) :
    ∀ step ∈ (run observe result stages value world).steps,
      ∃ w, step.observed = (observe w step.stage step.input).1 := by
  induction stages generalizing value world with
  | nil => simp [run]
  | cons stage rest ih =>
    cases hres : result value (observe world stage value).1 with
    | none =>
      rw [run_cons_none rest hres]
      intro step hstep
      obtain rfl := List.mem_singleton.mp hstep
      exact ⟨world, rfl⟩
    | some next =>
      rw [run_cons_some rest hres]
      intro step hstep
      rcases List.mem_cons.mp hstep with rfl | hstep
      · exact ⟨world, rfl⟩
      · exact ih next _ step hstep

/-- The final value replays the observations on the initial one. -/
theorem run_value (stages : List S) (value : B) (world : W) :
    (run observe result stages value world).value =
      (run observe result stages value world).steps.foldl
        (fun v step => (result v step.observed).getD v) value := by
  induction stages generalizing value world with
  | nil => rfl
  | cons stage rest ih =>
    cases hres : result value (observe world stage value).1 with
    | none => simp [run_cons_none rest hres, hres]
    | some next =>
      rw [run_cons_some rest hres]
      simp only [Run.cons, List.foldl_cons, hres, Option.getD_some]
      exact ih next _

/-- What every stage keeps of the world, as long as its value is apart from it, a run keeps. -/
theorem run_keeps {Kept : W → Prop} {Apart : B → Prop}
    (hstage : ∀ world stage value, Kept world → Apart value →
      Kept (observe world stage value).2 ∧
        ∀ next, result value (observe world stage value).1 = some next → Apart next)
    (stages : List S) (value : B) (world : W) (hworld : Kept world) (hvalue : Apart value) :
    Kept (run observe result stages value world).world := by
  induction stages generalizing value world with
  | nil => exact hworld
  | cons stage rest ih =>
    obtain ⟨hkept, hapart⟩ := hstage world stage value hworld hvalue
    cases hres : result value (observe world stage value).1 with
    | none =>
      rw [run_cons_none rest hres]
      exact hkept
    | some next =>
      rw [run_cons_some rest hres]
      exact ih next _ hkept (hapart next hres)

/-- The run computes this result: it fails where there is none, and its last value stands for it
otherwise. -/
def Run.Computes {A : Type*} (StandsFor : W → B → A → Prop) (run : Run W S B O) : Option A → Prop
  | none => run.failed = true
  | some a => run.failed = false ∧ StandsFor run.world run.value a

/-- Stages that compute partial functions one by one compute their composition. -/
theorem run_computes {A : Type*} {StandsFor : W → B → A → Prop} (f : A → S → Option A)
    (hfails : ∀ world stage value a, StandsFor world value a →
      result value (observe world stage value).1 = none → f a stage = none)
    (hyields : ∀ world stage value a next, StandsFor world value a →
      result value (observe world stage value).1 = some next →
        ∃ a', f a stage = some a' ∧ StandsFor (observe world stage value).2 next a')
    (stages : List S) (value : B) (world : W) (a : A) (h : StandsFor world value a) :
    (run observe result stages value world).Computes StandsFor (stages.foldlM f a) := by
  induction stages generalizing value world a with
  | nil => exact ⟨rfl, h⟩
  | cons stage rest ih =>
    cases hres : result value (observe world stage value).1 with
    | none =>
      rw [run_cons_none rest hres, List.foldlM_cons, hfails world stage value a h hres]
      rfl
    | some next =>
      obtain ⟨a', ha', hstands⟩ := hyields world stage value a next h hres
      have hrest := ih next _ a' hstands
      rw [run_cons_some rest hres, List.foldlM_cons, ha', Option.bind_eq_bind, Option.bind_some]
      cases hfold : rest.foldlM f a' with
      | none => rw [hfold] at hrest; exact hrest
      | some a'' => rw [hfold] at hrest; exact hrest

end Stages
