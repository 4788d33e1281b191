import Dipp.Library.Execution
import Mathlib.Logic.Function.Basic

/-!
# Agents around a shared state

Agents take turns in any order. A step of an agent reads and changes the shared state and
the state of that agent only, so what a step does is said once for a single agent. A run
is one interleaving: a list of the agents that move, with the choices they make.

The shared state may contain a flag that an agent takes while it is down, owns, and gives
back. If every step of a single agent keeps to this, at most one agent owns the flag in
every interleaving, and the flag is up exactly while it has an owner.
-/

namespace Agents

variable {ι S A Action : Type*}

/-- The shared state and the state of every agent. -/
structure System (ι S A : Type*) where
  shared : S
  agent : ι → A

variable [DecidableEq ι] (localStep : ι → Action → S → A → Option (S × A))

/-- An agent makes its next step, if it has one. -/
def step (s : System ι S A) (event : ι × Action) : Except Unit (System ι S A) :=
  match localStep event.1 event.2 s.shared (s.agent event.1) with
  | none => .error ()
  | some (shared, agent) => .ok ⟨shared, Function.update s.agent event.1 agent⟩

variable {localStep}

/-- What a step does to the shared state and to its agent is the agent's own step; the other agents
stay as they are. -/
theorem step_eq_ok {s s' : System ι S A} {i : ι} {action : Action}
    (h : step localStep s (i, action) = .ok s') :
    localStep i action s.shared (s.agent i) = some (s'.shared, s'.agent i) ∧
      ∀ j, j ≠ i → s'.agent j = s.agent j := by
  unfold step at h
  cases hlocal : localStep i action s.shared (s.agent i) with
  | none => simp [hlocal] at h
  | some next =>
    simp only [hlocal] at h
    obtain rfl := Except.ok.inj h
    refine ⟨?_, fun j hj => Function.update_of_ne hj _ _⟩
    simp only [Function.update_self]

omit [DecidableEq ι] in
/-- What relates the two states of the agent that moves relates those of every agent, if it relates
a state to itself. -/
theorem relates_of_others (R : A → A → Prop) {s s' : System ι S A} {i : ι}
    (hothers : ∀ j, j ≠ i → s'.agent j = s.agent j) (hself : R (s.agent i) (s'.agent i))
    (hrefl : ∀ agent, R agent agent) (j : ι) : R (s.agent j) (s'.agent j) := by
  by_cases hj : j = i
  · rw [hj]
    exact hself
  · rw [hothers j hj]
    exact hrefl (s.agent j)

/-- An agent that has a next step can make it. -/
theorem step_of_local {s : System ι S A} {i : ι} {action : Action} {shared : S} {agent : A}
    (h : localStep i action s.shared (s.agent i) = some (shared, agent)) :
    ∃ s', step localStep s (i, action) = .ok s' ∧ s'.shared = shared ∧ s'.agent i = agent := by
  refine ⟨⟨shared, Function.update s.agent i agent⟩, ?_, rfl, Function.update_self _ _ _⟩
  simp only [step, h]

/-- The steps of an agent while the others rest. -/
def alone (localStep : ι → Action → S → A → Option (S × A)) (i : ι) :
    List Action → S → A → Option (S × A)
  | [], shared, agent => some (shared, agent)
  | action :: rest, shared, agent =>
    (localStep i action shared agent).bind fun next => alone localStep i rest next.1 next.2

/-- An agent that can make steps on its own can make them in the system. -/
theorem run_alone {i : ι} (actions : List Action) {s : System ι S A} {shared : S} {agent : A}
    (h : alone localStep i actions s.shared (s.agent i) = some (shared, agent)) :
    ∃ s', Execution.run (step localStep) (actions.map (i, ·)) s = .ok s' ∧ s'.shared = shared := by
  induction actions generalizing s with
  | nil => exact ⟨s, rfl, (Prod.mk.inj (Option.some.inj h)).1⟩
  | cons action rest ih =>
    rw [alone] at h
    obtain ⟨next, hnext, hrest⟩ := Option.bind_eq_some_iff.mp h
    obtain ⟨middle, hmiddle, hshared, hagent⟩ := step_of_local hnext
    rw [← hshared, ← hagent] at hrest
    obtain ⟨s', hrun, hlast⟩ := ih hrest
    exact ⟨s', (Execution.run_cons_ok _ hmiddle).trans hrun, hlast⟩

/-- A property that every agent's own step keeps is kept by the steps of the system. -/
theorem step_forall {P : A → Prop}
    (hlocal : ∀ i action shared agent shared' agent', P agent →
      localStep i action shared agent = some (shared', agent') → P agent')
    {s s' : System ι S A} {event : ι × Action} (hs : ∀ i, P (s.agent i))
    (h : step localStep s event = .ok s') (j : ι) : P (s'.agent j) := by
  obtain ⟨i, action⟩ := event
  obtain ⟨hself, hothers⟩ := step_eq_ok h
  apply relates_of_others (fun before after => P before → P after) hothers _ (fun _ => id) j (hs j)
  exact fun hbefore => hlocal _ _ _ _ _ _ hbefore hself

/-- At most one agent has the property. -/
def Unique (owns : A → Prop) (s : System ι S A) : Prop :=
  ∀ i j, owns (s.agent i) → owns (s.agent j) → i = j

/-- The property stays with at most one agent if an agent that gains it is the only one. -/
theorem step_unique {owns : A → Prop} {s s' : System ι S A} {i : ι} {action : Action}
    (hs : Unique owns s) (h : step localStep s (i, action) = .ok s')
    (hgain : owns (s'.agent i) → ¬ owns (s.agent i) → ∀ j, ¬ owns (s.agent j)) :
    Unique owns s' := by
  obtain ⟨-, hothers⟩ := step_eq_ok h
  -- the moving agent had the property before, or nobody had it
  have hmoved (j : ι) (hj : j ≠ i) (hagent : owns (s'.agent i)) : ¬ owns (s.agent j) := by
    intro hother
    by_cases hbefore : owns (s.agent i)
    · exact hj (hs j i hother hbefore)
    · exact hgain hagent hbefore j hother
  intro j k hjowns hkowns
  by_cases hj : j = i <;> by_cases hk : k = i
  · rw [hj, hk]
  · subst hj
    rw [hothers k hk] at hkowns
    exact absurd hkowns (hmoved k hk hjowns)
  · subst hk
    rw [hothers j hj] at hjowns
    exact absurd hjowns (hmoved j hj hkowns)
  · rw [hothers j hj] at hjowns
    rw [hothers k hk] at hkowns
    exact hs j k hjowns hkowns

omit [DecidableEq ι] in
/-- If the only agent with the property loses it, none has it. -/
theorem Unique.none_of_lost {owns : A → Prop} {s s' : System ι S A} {i : ι} (hs : Unique owns s)
    (hothers : ∀ j, j ≠ i → s'.agent j = s.agent j) (howned : owns (s.agent i))
    (hlost : ¬ owns (s'.agent i)) (j : ι) : ¬ owns (s'.agent j) := by
  intro hj
  by_cases hji : j = i
  · rw [hji] at hj
    exact hlost hj
  · rw [hothers j hji] at hj
    exact hji (hs j i hj howned)

/-- What a single agent's step may do with the flag: nothing, take it while it is down, or give it
back. -/
inductive Handover (before after : Bool) (owned owns : Prop) : Prop where
  | keeps (hflag : after = before) (howner : owns ↔ owned)
  | takes (hfree : before = false) (hflag : after = true) (howner : owns)
  | gives (howned : owned) (hflag : after = false) (howner : ¬ owns)

/-- The flag is up exactly while it has an owner, and it has no more than one. -/
structure Owned (flag : S → Bool) (owns : A → Prop) (s : System ι S A) : Prop where
  unique : Unique owns s
  flag_iff : flag s.shared = true ↔ ∃ i, owns (s.agent i)

omit [DecidableEq ι] in
/-- A flag that nobody owns is down. -/
theorem Owned.flag_eq_false_iff {flag : S → Bool} {owns : A → Prop} {s : System ι S A}
    (hs : Owned flag owns s) : flag s.shared = false ↔ ∀ i, ¬ owns (s.agent i) := by
  rw [← Bool.not_eq_true, hs.flag_iff, not_exists]

/-- If every step of an agent hands the flag over in this way, the flag stays with one owner. -/
theorem step_owned {flag : S → Bool} {owns : A → Prop} {s s' : System ι S A} {i : ι}
    {action : Action} (hs : Owned flag owns s) (h : step localStep s (i, action) = .ok s')
    (hstep : Handover (flag s.shared) (flag s'.shared) (owns (s.agent i)) (owns (s'.agent i))) :
    Owned flag owns s' := by
  have hunique : Unique owns s' := by
    refine step_unique hs.unique h fun hgained hbefore => ?_
    cases hstep with
    | keeps hflag howner => exact absurd (howner.mp hgained) hbefore
    | takes hfree hflag howner => exact hs.flag_eq_false_iff.mp hfree
    | gives howned hflag howner => exact absurd hgained howner
  refine ⟨hunique, ?_⟩
  obtain ⟨-, hothers⟩ := step_eq_ok h
  cases hstep with
  | keeps hflag howner =>
    rw [hflag, hs.flag_iff]
    apply exists_congr
    intro j
    by_cases hj : j = i
    · subst hj
      exact howner.symm
    · rw [hothers j hj]
  | takes hfree hflag howner => exact iff_of_true hflag ⟨i, howner⟩
  | gives howned hflag howner =>
    refine iff_of_false (by rw [hflag]; exact Bool.false_ne_true) ?_
    rintro ⟨j, hj⟩
    exact hs.unique.none_of_lost hothers howned howner j hj

end Agents
