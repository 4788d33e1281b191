import Mathlib.Data.List.Induction

/-!
# Runs of a fallible machine

A machine performs one operation at a time and may stop with an error. A run feeds it a
list of operations. What one step preserves, a whole run preserves; and when every step
that satisfies a condition succeeds, so does every run whose operations satisfy it.
-/

namespace Execution

variable {State Operation Error : Type*}

/-- Perform the operations in order, stopping at the first error. -/
def run (step : State → Operation → Except Error State) (operations : List Operation)
    (state : State) : Except Error State :=
  operations.foldlM step state

variable {step : State → Operation → Except Error State}

/-- The empty run changes nothing. -/
@[simp] theorem run_nil (state : State) : run step [] state = .ok state := rfl

/-- A run starts with its first operation. -/
theorem run_cons (operation : Operation) (rest : List Operation) (state : State) :
    run step (operation :: rest) state = (step state operation).bind (run step rest) := rfl

/-- A first step that succeeds is followed by the rest of the run. -/
theorem run_cons_ok {operation : Operation} {state next : State} (rest : List Operation)
    (h : step state operation = .ok next) :
    run step (operation :: rest) state = run step rest next := by
  rw [run_cons, h]
  rfl

/-- A successful run has a successful first step. -/
theorem run_cons_eq_ok {operation : Operation} {rest : List Operation} {state last : State}
    (h : run step (operation :: rest) state = .ok last) :
    ∃ next, step state operation = .ok next ∧ run step rest next = .ok last := by
  rw [run_cons] at h
  cases hstep : step state operation with
  | error e => rw [hstep] at h; contradiction
  | ok next => exact ⟨next, rfl, by rwa [hstep] at h⟩

/-- A run of two lists of operations is the second run after the first. -/
theorem run_append (first rest : List Operation) (state : State) :
    run step (first ++ rest) state = (run step first state).bind (run step rest) :=
  List.foldlM_append

/-- A successful run of two lists of operations consists of two successful runs. -/
theorem run_append_eq_ok {first rest : List Operation} {state last : State}
    (h : run step (first ++ rest) state = .ok last) :
    ∃ middle, run step first state = .ok middle ∧ run step rest middle = .ok last := by
  rw [run_append] at h
  cases hfirst : run step first state with
  | error e => rw [hfirst] at h; contradiction
  | ok middle => exact ⟨middle, rfl, by rwa [hfirst] at h⟩

/-- The last step of a successful run starts where the earlier run ended. -/
theorem run_concat_eq_ok {operations : List Operation} {operation : Operation}
    {state middle last : State} (hmiddle : run step operations state = .ok middle)
    (h : run step (operations ++ [operation]) state = .ok last) :
    step middle operation = .ok last := by
  rw [run_append, hmiddle] at h
  have hsingle : run step [operation] middle = .ok last := h
  obtain ⟨next, hnext, hlast⟩ := run_cons_eq_ok hsingle
  rw [hnext, ← Except.ok.inj hlast]

/-- If every step of a machine is, through a view of its states, a step of another machine, then so
is every run. -/
theorem run_map {State' : Type*} {step' : State' → Operation → Except Error State'}
    (view : State → State')
    (h : ∀ state operation, (step state operation).map view = step' (view state) operation)
    (operations : List Operation) (state : State) :
    (run step operations state).map view = run step' operations (view state) := by
  induction operations generalizing state with
  | nil => rfl
  | cons operation rest ih =>
    rw [run_cons, run_cons, ← h state operation]
    cases step state operation with
    | error e => rfl
    | ok next => exact ih next

/-- Every step of a run meets a condition on the state it is taken in. -/
def Along (step : State → Operation → Except Error State) (condition : State → Operation → Prop) :
    List Operation → State → Prop
  | [], _ => True
  | operation :: rest, state =>
    condition state operation ∧
      ∀ next, step state operation = .ok next → Along step condition rest next

/-- The earlier part of such a run is such a run. -/
theorem Along.of_append {condition : State → Operation → Prop} {first rest : List Operation}
    {state : State} (h : Along step condition (first ++ rest) state) :
    Along step condition first state := by
  induction first generalizing state with
  | nil => trivial
  | cons operation first ih => exact ⟨h.1, fun next hnext => ih (h.2 next hnext)⟩

/-- The later part of such a run is such a run, from where the earlier part ended. -/
theorem Along.append_right {condition : State → Operation → Prop} {first rest : List Operation}
    {state middle : State} (h : Along step condition (first ++ rest) state)
    (hmiddle : run step first state = .ok middle) : Along step condition rest middle := by
  induction first generalizing state with
  | nil =>
    obtain rfl : state = middle := Except.ok.inj hmiddle
    exact h
  | cons operation first ih =>
    obtain ⟨next, hnext, hrest⟩ := run_cons_eq_ok hmiddle
    exact ih (h.2 next hnext) hrest

/-- Along a run, the condition is met by each operation in the state that the earlier ones reach. -/
theorem along_iff {condition : State → Operation → Prop} {operations : List Operation}
    {state : State} :
    Along step condition operations state ↔ ∀ earlier operation later middle,
      operations = earlier ++ [operation] ++ later → run step earlier state = .ok middle →
        condition middle operation := by
  constructor
  · rintro h earlier operation later middle rfl hmiddle
    exact (h.of_append.append_right hmiddle).1
  · intro h
    induction operations generalizing state with
    | nil => trivial
    | cons operation rest ih =>
      refine ⟨h [] operation rest state rfl rfl, fun next hnext => ih ?_⟩
      rintro earlier following later middle rfl hmiddle
      apply h (operation :: earlier) following later middle rfl
      rw [run_cons_ok earlier hnext, hmiddle]

/-- Conditions that agree in every state agree along every run. -/
theorem along_congr {condition condition' : State → Operation → Prop}
    (h : ∀ state operation, condition state operation ↔ condition' state operation)
    (operations : List Operation) (state : State) :
    Along step condition operations state ↔ Along step condition' operations state := by
  induction operations generalizing state with
  | nil => rfl
  | cons operation rest ih => simp only [Along, h, ih]

/-- Conditions that agree while one of them is met and an invariant holds agree along every run, if
the steps that meet it keep the invariant. -/
theorem along_congr_of_invariant {condition condition' : State → Operation → Prop}
    (invariant : State → Prop)
    (hiff : ∀ state operation, invariant state →
      (condition state operation ↔ condition' state operation))
    (hstep : ∀ state operation next, invariant state → condition state operation →
      step state operation = .ok next → invariant next)
    (operations : List Operation) (state : State) (hinit : invariant state) :
    Along step condition operations state ↔ Along step condition' operations state := by
  induction operations generalizing state with
  | nil => rfl
  | cons operation rest ih =>
    rw [Along, Along, ← hiff state operation hinit]
    refine and_congr_right fun hcondition => forall₂_congr fun next hnext => ?_
    exact ih next (hstep state operation next hinit hcondition hnext)

/-- Every state that a run goes through is reached and has a property if and only if the first one
has it, and each step along the run succeeds in a state that has it. -/
theorem reached_iff_along {property : State → Prop} {operations : List Operation} {state : State} :
    (∀ executed, executed <+: operations →
      ∃ last, run step executed state = .ok last ∧ property last) ↔
      property state ∧ Along step
        (fun state operation => ∃ next, step state operation = .ok next ∧ property next)
        operations state := by
  constructor
  · intro h
    constructor
    · obtain ⟨last, hlast, hproperty⟩ := h [] List.nil_prefix
      rwa [Except.ok.inj hlast]
    · induction operations generalizing state with
      | nil => trivial
      | cons operation rest ih =>
        obtain ⟨last, hlast, hproperty⟩ := h [operation] (by simp)
        obtain ⟨next, hnext, hend⟩ := run_cons_eq_ok hlast
        obtain rfl : next = last := Except.ok.inj hend
        refine ⟨⟨next, hnext, hproperty⟩, fun other hother => ih fun executed hexecuted => ?_⟩
        rw [← run_cons_ok executed hother]
        exact h _ (List.cons_prefix_cons.mpr ⟨rfl, hexecuted⟩)
  · rintro ⟨hproperty, halong⟩ executed hexecuted
    induction executed generalizing operations state with
    | nil => exact ⟨state, rfl, hproperty⟩
    | cons operation executed ih =>
      obtain ⟨rest, rfl⟩ := hexecuted
      obtain ⟨⟨next, hnext, hnextProperty⟩, hrest⟩ := halong
      rw [run_cons_ok executed hnext]
      exact ih hnextProperty (hrest next hnext) ⟨rest, rfl⟩

/-- A condition is met along a run if an invariant of its operations implies it. -/
theorem Along.of_invariant {condition : State → Operation → Prop} (invariant : State → Prop)
    (operations : List Operation) (state : State) (hinit : invariant state)
    (hcondition : ∀ operation ∈ operations, ∀ state, invariant state → condition state operation)
    (hstep : ∀ operation ∈ operations, ∀ state next, invariant state →
      step state operation = .ok next → invariant next) :
    Along step condition operations state := by
  induction operations generalizing state with
  | nil => trivial
  | cons operation rest ih =>
    refine ⟨hcondition operation List.mem_cons_self state hinit, fun next hnext => ?_⟩
    apply ih next (hstep operation List.mem_cons_self state next hinit hnext)
    · exact fun later hlater => hcondition later (List.mem_cons_of_mem _ hlater)
    · exact fun later hlater => hstep later (List.mem_cons_of_mem _ hlater)

/-- A condition that the operations meet in every state is met along their run. -/
theorem Along.of_forall {condition : State → Operation → Prop} {operations : List Operation}
    (h : ∀ operation ∈ operations, ∀ state, condition state operation) (state : State) :
    Along step condition operations state :=
  .of_invariant (fun _ => True) operations state trivial
    (fun operation hoperation state _ => h operation hoperation state) fun _ _ _ _ _ _ => trivial

/-- Such runs can be composed. -/
theorem Along.append {condition : State → Operation → Prop} {first rest : List Operation}
    {state : State} (hfirst : Along step condition first state)
    (hrest : ∀ middle, run step first state = .ok middle → Along step condition rest middle) :
    Along step condition (first ++ rest) state := by
  induction first generalizing state with
  | nil => exact hrest state rfl
  | cons operation first ih =>
    refine ⟨hfirst.1, fun next hnext => ih (hfirst.2 next hnext) fun middle hmiddle => ?_⟩
    exact hrest middle (by rw [run_cons_ok first hnext, hmiddle])

/-- What the steps that meet a condition preserve holds at the end of every run of such steps. -/
theorem run_invariant_along (invariant : State → Prop) (condition : State → Operation → Prop)
    (hstep : ∀ state operation next, invariant state → condition state operation →
      step state operation = .ok next → invariant next)
    (operations : List Operation) (state last : State) (hinit : invariant state)
    (halong : Along step condition operations state)
    (h : run step operations state = .ok last) : invariant last := by
  induction operations generalizing state with
  | nil =>
    obtain rfl : state = last := Except.ok.inj h
    exact hinit
  | cons operation rest ih =>
    obtain ⟨next, hnext, hrest⟩ := run_cons_eq_ok h
    exact ih next (hstep state operation next hinit halong.1 hnext) (halong.2 next hnext) hrest

/-- What every step preserves holds at the end of every run. -/
theorem run_invariant (invariant : State → Prop)
    (hstep : ∀ state operation next, invariant state → step state operation = .ok next →
      invariant next)
    (operations : List Operation) (state last : State) (hinit : invariant state)
    (h : run step operations state = .ok last) : invariant last :=
  run_invariant_along invariant (fun _ _ => True)
    (fun state operation next hstate _ => hstep state operation next hstate) operations state last
    hinit (.of_forall (fun _ _ _ => trivial) state) h

/-- What relates the empty list of operations to the first state, and is kept when the list is
extended by a step, relates every list to the state that it leads to. -/
theorem run_history (invariant : List Operation → State → Prop) {state : State}
    (hinit : invariant [] state)
    (hstep : ∀ earlier operation middle next, run step earlier state = .ok middle →
      invariant earlier middle → step middle operation = .ok next →
        invariant (earlier ++ [operation]) next)
    (operations : List Operation) (last : State) (h : run step operations state = .ok last) :
    invariant operations last := by
  induction operations using List.reverseRecOn generalizing last with
  | nil =>
    obtain rfl : state = last := Except.ok.inj h
    exact hinit
  | append_singleton earlier operation ih =>
    obtain ⟨middle, hmiddle, -⟩ := run_append_eq_ok h
    exact hstep earlier operation middle last hmiddle (ih middle hmiddle)
      (run_concat_eq_ok hmiddle h)

/-- If admissible operations succeed and preserve the invariant, so do admissible runs. -/
theorem run_succeeds (invariant : State → Prop) (admissible : Operation → Prop)
    (hstep : ∀ state operation, invariant state → admissible operation →
      ∃ next, step state operation = .ok next ∧ invariant next)
    (operations : List Operation) (state : State) (hinit : invariant state)
    (hadmissible : ∀ operation ∈ operations, admissible operation) :
    ∃ last, run step operations state = .ok last ∧ invariant last := by
  induction operations generalizing state with
  | nil => exact ⟨state, rfl, hinit⟩
  | cons operation rest ih =>
    obtain ⟨next, hnext, hinv⟩ := hstep state operation hinit (hadmissible _ List.mem_cons_self)
    obtain ⟨last, hlast, hend⟩ :=
      ih next hinv fun op hop => hadmissible op (List.mem_cons_of_mem _ hop)
    exact ⟨last, by rw [run_cons_ok rest hnext, hlast], hend⟩

/-- The operations of a run mean operations of another machine, each in the state it is taken in. If
such a step succeeds and leaves related states, so does the run, however the meanings depend on the
states. -/
theorem run_refines {State' Meaning : Type*} {step' : State' → Meaning → State'}
    {means : State → Operation → Meaning → Prop} (relates : State → State' → Prop)
    (hstep : ∀ state state' operation meaning, relates state state' →
      means state operation meaning →
        ∃ next, step state operation = .ok next ∧ relates next (step' state' meaning))
    (operations : List (Operation × Meaning)) (state : State) (state' : State')
    (hinit : relates state state')
    (hmeans : Along (fun state operation => step state operation.1)
      (fun state operation => means state operation.1 operation.2) operations state) :
    ∃ last, run step (operations.map Prod.fst) state = .ok last ∧
      relates last ((operations.map Prod.snd).foldl step' state') := by
  induction operations generalizing state state' with
  | nil => exact ⟨state, rfl, hinit⟩
  | cons operation rest ih =>
    obtain ⟨hfirst, hrest⟩ := hmeans
    obtain ⟨next, hnext, hrelates⟩ := hstep state state' operation.1 operation.2 hinit hfirst
    obtain ⟨last, hlast, hend⟩ := ih next _ hrelates (hrest next hnext)
    exact ⟨last, (run_cons_ok _ hnext).trans hlast, hend⟩

/-- If the steps of a run that succeed follow what they mean, so does the run. -/
theorem run_follows {State' Meaning : Type*} {step' : State' → Meaning → State'}
    {means : State → Operation → Meaning → Prop} (relates : State → State' → Prop)
    (hstep : ∀ state state' operation meaning next, relates state state' →
      means state operation meaning → step state operation = .ok next →
        relates next (step' state' meaning))
    (operations : List (Operation × Meaning)) (state last : State) (state' : State')
    (hinit : relates state state')
    (hmeans : Along (fun state operation => step state operation.1)
      (fun state operation => means state operation.1 operation.2) operations state)
    (h : run step (operations.map Prod.fst) state = .ok last) :
    relates last ((operations.map Prod.snd).foldl step' state') := by
  induction operations generalizing state state' with
  | nil =>
    obtain rfl : state = last := Except.ok.inj h
    exact hinit
  | cons operation rest ih =>
    obtain ⟨next, hnext, hlast⟩ := run_cons_eq_ok h
    exact ih next _ (hstep _ _ _ _ _ hinit hmeans.1 hnext) (hmeans.2 next hnext) hlast

/-- If, until it is done, a machine can always make an allowed step that lowers a bound, then it is
done after a run of no more allowed steps than the bound. -/
theorem run_reaches (invariant : ℕ → State → Prop) (allowed : Operation → Prop)
    (done : State → Prop)
    (hstep : ∀ bound state, invariant bound state → done state ∨
      ∃ operation next lower, allowed operation ∧ step state operation = .ok next ∧
        lower < bound ∧ invariant lower next)
    (bound : ℕ) (state : State) (hinit : invariant bound state) :
    ∃ operations last, operations.length ≤ bound ∧
      (∀ operation ∈ operations, allowed operation) ∧ run step operations state = .ok last ∧
        done last ∧ ∃ lower, invariant lower last := by
  induction bound using Nat.strongRecOn generalizing state with
  | ind bound ih =>
    rcases hstep bound state hinit with
      hdone | ⟨operation, next, lower, hallowed, hnext, hlower, hinv⟩
    · exact ⟨[], state, Nat.zero_le _, nofun, rfl, hdone, bound, hinit⟩
    · obtain ⟨rest, last, hlength, hrest, hrun, hlast⟩ := ih lower hlower next hinv
      refine ⟨operation :: rest, last, ?_, ?_, (run_cons_ok rest hnext).trans hrun, hlast⟩
      · rw [List.length_cons]
        omega
      · exact List.forall_mem_cons.mpr ⟨hallowed, hrest⟩

/-- How many steps of a run meet a condition in the state they are taken in. -/
def count (step : State → Operation → Except Error State)
    (condition : State → Operation → Bool) : List Operation → State → ℕ
  | [], _ => 0
  | operation :: rest, state =>
    (condition state operation).toNat +
      match step state operation with
      | .ok next => count step condition rest next
      | .error _ => 0

/-- A first step that succeeds is counted before the rest of the run. -/
theorem count_cons_ok {condition : State → Operation → Bool} {operation : Operation}
    {state next : State} (rest : List Operation) (h : step state operation = .ok next) :
    count step condition (operation :: rest) state =
      (condition state operation).toNat + count step condition rest next := by
  simp only [count, h]

/-- What a run of two lists of operations counts is what each of the two counts. -/
theorem count_append {condition : State → Operation → Bool} {first : List Operation}
    {state middle : State} (rest : List Operation) (h : run step first state = .ok middle) :
    count step condition (first ++ rest) state =
      count step condition first state + count step condition rest middle := by
  induction first generalizing state with
  | nil =>
    obtain rfl : state = middle := Except.ok.inj h
    rw [List.nil_append, count, Nat.zero_add]
  | cons operation first ih =>
    obtain ⟨next, hnext, hmiddle⟩ := run_cons_eq_ok h
    rw [List.cons_append, count_cons_ok _ hnext, count_cons_ok _ hnext, ih hmiddle, Nat.add_assoc]

/-- If each step that is counted lowers a potential by one, and only certain steps raise it, by at
most their credit, then a run takes no more such steps than its potential and its credits allow. -/
theorem count_add_le {counted credited : State → Operation → Bool} (potential : State → ℕ)
    (credit : ℕ)
    (hstep : ∀ state operation next, step state operation = .ok next →
      (counted state operation).toNat + potential next ≤
        potential state + credit * (credited state operation).toNat)
    (operations : List Operation) (state last : State)
    (h : run step operations state = .ok last) :
    count step counted operations state + potential last ≤
      potential state + credit * count step credited operations state := by
  induction operations generalizing state with
  | nil =>
    obtain rfl : state = last := Except.ok.inj h
    rw [count, Nat.zero_add]
    exact Nat.le_add_right _ _
  | cons operation rest ih =>
    obtain ⟨next, hnext, hrest⟩ := run_cons_eq_ok h
    have hfirst := hstep state operation next hnext
    have hlater := ih next hrest
    rw [count_cons_ok rest hnext, count_cons_ok rest hnext, Nat.mul_add]
    omega

end Execution
