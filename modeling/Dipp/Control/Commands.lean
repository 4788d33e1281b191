import Dipp.Control.Exclusion

/-!
# What becomes of a command

The router stores a value and calls back; the callback reads the parameter again. A thread
that ends releases the flag first and clears the parameter afterwards, so between these
two statements a new command can be stored, and even accepted, before the parameter is
cleared. Commands are served as long as no parameter is cleared between the store and the
read of a command, no compare-exchange succeeds while an earlier thread has still to clear
the parameter, and nothing fails between the compare-exchange and the new thread.

Clearing the parameter calls back as well. That callback is an invocation of its own here,
a write of zero at the moment of the clear, and it disturbs nothing if it reads a zero.
-/

namespace Dipp

/-- The callback was called and has not returned. -/
def CallbackPhase.Active : CallbackPhase → Prop
  | .idle | .returned => False
  | .readParam | .exchange _ | .createLogger _ | .logStarted _ | .allocateArgs _
  | .storeAfterMalloc | .createThread _ | .storeAfterCreate | .logDetached => True

/-- A command is being handled: a value other than zero was stored for the callback. -/
structure Invocation.Commanded (inv : Invocation) : Prop where
  active : inv.callback.Active
  command : inv.command ≠ 0

variable {ι : Type*} [DecidableEq ι]

/-- The router handles one command at a time. -/
def OnRouter (s : Control ι) : ι × ControlAction → Prop
  | (_, .write value) => value ≠ 0 → ∀ j, ¬ (s.agent j).Commanded
  | (_, .callback _) => True
  | (_, .thread _) => True

/-- Nobody would lose a command if the parameter became zero. -/
def Control.NoneWaiting (s : Control ι) : Prop :=
  ∀ j, (s.agent j).callback = .readParam → (s.agent j).command = 0

/-- The parameter becomes zero only when no command waits to be read, and the callback of such a
zero reads it; a compare-exchange succeeds only when no thread has still to clear the parameter; and
allocations and creations succeed. -/
def Undisturbed (s : Control ι) : ι × ControlAction → Prop
  | (_, .write value) => value = 0 → s.NoneWaiting
  | (i, .callback succeeds) =>
    ((s.agent i).callback = .readParam → (s.agent i).command = 0 → s.shared.pipelineRun = 0) ∧
      (∀ value, (s.agent i).callback = .exchange value → s.shared.isProcessing = false →
        ∀ j, (s.agent j).thread ≠ .clearParam) ∧
      ((∃ value, (s.agent i).callback = .allocateArgs value) ∨
        (∃ mode, (s.agent i).callback = .createThread mode) → succeeds = true)
  | (i, .thread _) => (s.agent i).thread = .clearParam → s.NoneWaiting

/-- Where a callback may stand on its way to serve its command. -/
def Answering (shared : Shared ι) (inv : Invocation) : Prop :=
  match inv.callback with
  | .idle => True
  | .readParam => inv.command ≠ 0 → shared.pipelineRun = inv.command
  | .exchange value => value = inv.command ∧ inv.command ≠ 0 ∧
      (inv.foundIdle = true → shared.isProcessing = false)
  | .createLogger value | .logStarted value | .allocateArgs value =>
    value = inv.command ∧ inv.command ≠ 0
  | .createThread mode => mode = runMode inv.command ∧ inv.command ≠ 0
  | .storeAfterMalloc | .storeAfterCreate => False
  | .logDetached => inv.started = some (runMode inv.command) ∧ inv.command ≠ 0
  | .returned => inv.command ≠ 0 → inv.foundIdle = true → inv.started = some (runMode inv.command)

omit [DecidableEq ι] in
/-- A callback stays on its way while its value is not cleared and the flag it found down stays
down. -/
theorem Answering.of_shared {shared shared' : Shared ι} {inv : Invocation}
    (hinv : Answering shared inv)
    (hparam : inv.callback = .readParam → inv.command ≠ 0 →
      shared'.pipelineRun = shared.pipelineRun)
    (hflag : ∀ value, inv.callback = .exchange value → inv.command ≠ 0 →
      shared.isProcessing = false → shared'.isProcessing = false) :
    Answering shared' inv := by
  unfold Answering at hinv ⊢
  cases hphase : inv.callback with
  | readParam =>
    rw [hphase] at hinv
    intro hcommand
    rw [hparam hphase hcommand]
    exact hinv hcommand
  | exchange value =>
    rw [hphase] at hinv
    obtain ⟨hvalue, hcommand, hidle⟩ := hinv
    exact ⟨hvalue, hcommand, fun hfound => hflag value hphase hcommand (hidle hfound)⟩
  | _ =>
    rw [hphase] at hinv
    exact hinv

/-- Only a write or a clear changes the parameter. -/
theorem Statement.pipelineRun {i : ι} {action : ControlAction} {shared shared' : Shared ι}
    {inv inv' : Invocation} (h : Statement i shared inv action shared' inv') :
    shared'.pipelineRun = shared.pipelineRun ∨ (∃ value, action = .write value) ∨
      inv.thread = .clearParam ∧ ∃ received, action = .thread received := by
  cases h with
  | write value hphase => exact .inr (.inl ⟨value, rfl⟩)
  | clearParam received hphase => exact .inr (.inr ⟨hphase, received, rfl⟩)
  | _ => left; simp

/-- Only a compare-exchange raises the flag. -/
theorem Statement.exchange_of_raised {i : ι} {action : ControlAction} {shared shared' : Shared ι}
    {inv inv' : Invocation} (h : Statement i shared inv action shared' inv')
    (hbefore : shared.isProcessing = false) (hafter : shared'.isProcessing = true) :
    ∃ value, inv.callback = .exchange value := by
  cases h with
  | accepted succeeds value hphase hidle => exact ⟨value, hphase⟩
  | _ => simp [hbefore] at hafter

omit [DecidableEq ι] in
/-- A callback that has started its thread no longer depends on the shared variables. -/
theorem Answering.of_started {shared shared' : Shared ι} {inv : Invocation}
    (hinv : Answering shared inv) (hwf : inv.WellFormed) (hthread : inv.thread ≠ .notCreated) :
    Answering shared' inv := by
  unfold Answering at hinv ⊢
  rcases hwf.thread hthread with hdetached | hreturned
  · rw [hdetached] at hinv ⊢
    exact hinv
  · rw [hreturned] at hinv ⊢
    exact hinv

/-- A statement of the callback or of its thread keeps the callback on its way, if a callback for
zero reads zero and allocations and creations succeed. -/
theorem Answering.step {i : ι} {action : ControlAction} {shared shared' : Shared ι}
    {inv inv' : Invocation} (hinv : Answering shared inv) (hwf : inv.WellFormed)
    (hzero : inv.callback = .readParam → inv.command = 0 → shared.pipelineRun = 0)
    (hsucceeds : action = .callback false → ¬ (∃ value, inv.callback = .allocateArgs value) ∧
      ¬ ∃ mode, inv.callback = .createThread mode)
    (h : Statement i shared inv action shared' inv') : Answering shared' inv' := by
  cases h with
  | write value hphase => exact fun _ => rfl
  | readZero succeeds hphase hparam =>
    rw [Answering, hphase] at hinv
    intro hcommand
    rw [hparam] at hinv
    exact absurd (hinv hcommand).symm hcommand
  | readValue succeeds hphase hparam =>
    have hcommand : inv.command ≠ 0 := fun hcommand => hparam (hzero hphase hcommand)
    rw [Answering, hphase] at hinv
    refine ⟨hinv hcommand, hcommand, fun hfound => ?_⟩
    simpa using hfound
  | refused succeeds value hphase hbusy =>
    rw [Answering, hphase] at hinv
    intro hcommand hfound
    rw [hinv.2.2 hfound] at hbusy
    contradiction
  | accepted succeeds value hphase hidle =>
    rw [Answering, hphase] at hinv
    exact ⟨hinv.1, hinv.2.1⟩
  | createLogger succeeds value hphase | logStarted succeeds value hphase =>
    rw [Answering, hphase] at hinv
    exact hinv
  | argsAllocated value hphase =>
    rw [Answering, hphase] at hinv
    exact ⟨congrArg runMode hinv.1, hinv.2⟩
  | mallocFailed value hphase => exact absurd ⟨value, hphase⟩ (hsucceeds rfl).1
  | createFailed mode hphase => exact absurd ⟨mode, hphase⟩ (hsucceeds rfl).2
  | storeAfterMalloc succeeds hphase | storeAfterCreate succeeds hphase =>
    rw [Answering, hphase] at hinv
    exact hinv.elim
  | threadCreated mode hphase =>
    rw [Answering, hphase] at hinv
    exact ⟨congrArg some hinv.1, hinv.2⟩
  | logDetached succeeds hphase =>
    rw [Answering, hphase] at hinv
    exact fun _ _ => hinv.1
  | _ => exact hinv.of_started hwf (by simp_all)

/-- Commands are answered: one at a time, by callbacks on their way, and while a thread has still to
clear the parameter no run is in progress. -/
structure Control.CommandsInOrder (s : Control ι) : Prop where
  unique : Agents.Unique Invocation.Commanded s
  answering : ∀ i, Answering s.shared (s.agent i)
  clearing : ∀ i, (s.agent i).thread = .clearParam → ∀ j, ¬ (s.agent j).Owns

omit [DecidableEq ι] in
/-- A callback at the exchange handles a command. -/
theorem Answering.commanded {shared : Shared ι} {inv : Invocation} (hinv : Answering shared inv)
    {value : UInt8} (hphase : inv.callback = .exchange value) : inv.Commanded := by
  rw [Answering, hphase] at hinv
  exact ⟨by rw [hphase]; trivial, hinv.2.1⟩

/-- Only the write of a command makes an invocation handle one. -/
theorem Statement.commanded {i : ι} {action : ControlAction} {shared shared' : Shared ι}
    {inv inv' : Invocation} (h : Statement i shared inv action shared' inv')
    (hafter : inv'.Commanded) (hbefore : ¬ inv.Commanded) :
    ∃ value, action = .write value ∧ value ≠ 0 := by
  cases h with
  | write value hphase => exact ⟨value, rfl, hafter.command⟩
  | readZero | refused | storeAfterMalloc | storeAfterCreate | logDetached =>
    exact hafter.active.elim
  | readValue succeeds hphase | accepted succeeds value hphase
  | createLogger succeeds value hphase | logStarted succeeds value hphase
  | argsAllocated value hphase | mallocFailed value hphase | threadCreated mode hphase
  | createFailed mode hphase =>
    exact absurd ⟨by rw [hphase]; trivial, hafter.command⟩ hbefore
  | _ => exact absurd ⟨hafter.active, hafter.command⟩ hbefore

/-- A thread comes to clear the parameter from its store, with the flag down. -/
theorem Statement.flag_of_clearParam {i : ι} {action : ControlAction} {shared shared' : Shared ι}
    {inv inv' : Invocation} (h : Statement i shared inv action shared' inv')
    (hafter : inv'.thread = .clearParam) (hbefore : inv.thread ≠ .clearParam) :
    shared'.isProcessing = false := by
  cases h with
  | store received hphase => rfl
  | _ => simp_all

/-- An invocation that waits for its read or its exchange moves only in its callback. -/
theorem callback_of_waiting {i : ι} {action : ControlAction} {shared shared' : Shared ι}
    {inv inv' : Invocation} (hwf : inv.WellFormed)
    (hphase : inv.callback = .readParam ∨ ∃ value, inv.callback = .exchange value)
    (h : controlStep i action shared inv = some (shared', inv')) :
    ∃ succeeds, action = .callback succeeds := by
  have hthread : inv.thread = .notCreated := by
    rcases hphase with hphase | ⟨value, hphase⟩ <;>
      exact hwf.notCreated (by simp [hphase]) (by simp [hphase])
  cases action with
  | callback succeeds => exact ⟨succeeds, rfl⟩
  | write value =>
    rcases hphase with hphase | ⟨value, hphase⟩ <;> simp [controlStep, writeParam, hphase] at h
  | thread received => simp [controlStep, processThread, hthread] at h

/-- An undisturbed statement of one invocation leaves the others on their way. -/
theorem Control.CommandsInOrder.answering_others {s s' : Control ι} {i j : ι}
    {action : ControlAction} (hs : s.CommandsInOrder) (hrouter : OnRouter s (i, action))
    (hundisturbed : Undisturbed s (i, action))
    (hstatement : Statement i s.shared (s.agent i) action s'.shared (s'.agent i)) (hj : j ≠ i) :
    Answering s'.shared (s.agent j) := by
  apply (hs.answering j).of_shared
  · intro hphase hcommand
    have hcommanded : (s.agent j).Commanded := ⟨by rw [hphase]; trivial, hcommand⟩
    rcases hstatement.pipelineRun with hsame | ⟨value, rfl⟩ | ⟨hclear, received, rfl⟩
    · exact hsame
    · by_cases hvalue : value = 0
      · exact absurd (hundisturbed hvalue j hphase) hcommand
      · exact absurd hcommanded (hrouter hvalue j)
    · exact absurd (hundisturbed hclear j hphase) hcommand
  · intro value hphase hcommand hdown
    by_contra hup
    rw [Bool.not_eq_false] at hup
    obtain ⟨other, hexchange⟩ := hstatement.exchange_of_raised hdown hup
    exact hj (hs.unique j i ((hs.answering j).commanded hphase)
      ((hs.answering i).commanded hexchange))

/-- Undisturbed statements keep the commands in order. -/
theorem Control.CommandsInOrder.step {s s' : Control ι} {event : ι × ControlAction}
    (hs : s.CommandsInOrder) (hdisciplined : s.Disciplined) (hrouter : OnRouter s event)
    (hundisturbed : Undisturbed s event) (h : Agents.step controlStep s event = .ok s') :
    s'.CommandsInOrder := by
  obtain ⟨i, action⟩ := event
  obtain ⟨hlocal, hothers⟩ := Agents.step_eq_ok h
  have hstatement := controlStep_eq_some hlocal
  have hwf := hdisciplined.wellFormed i
  constructor
  case unique =>
    apply Agents.step_unique hs.unique h
    intro hafter hbefore
    obtain ⟨value, rfl, hvalue⟩ := hstatement.commanded hafter hbefore
    exact hrouter hvalue
  case answering =>
    intro j
    by_cases hj : j = i
    · subst hj
      apply (hs.answering j).step hwf _ _ hstatement
      · intro hphase hcommand
        obtain ⟨succeeds, rfl⟩ := callback_of_waiting hwf (.inl hphase) hlocal
        exact hundisturbed.1 hphase hcommand
      · rintro rfl
        constructor
        · exact fun hallocate => absurd (hundisturbed.2.2 (.inl hallocate)) Bool.false_ne_true
        · exact fun hcreate => absurd (hundisturbed.2.2 (.inr hcreate)) Bool.false_ne_true
    · rw [hothers j hj]
      exact hs.answering_others hrouter hundisturbed hstatement hj
  case clearing =>
    intro j hclear
    by_cases hbefore : (s.agent j).thread = .clearParam
    · intro k howns
      have hnobody := hs.clearing j hbefore
      by_cases hk : k = i
      · subst hk
        obtain ⟨hdown, value, hexchange⟩ := hstatement.taken (hnobody k) howns
        obtain ⟨succeeds, rfl⟩ := callback_of_waiting hwf (.inr ⟨value, hexchange⟩) hlocal
        exact hundisturbed.2.1 value hexchange hdown j hbefore
      · rw [hothers k hk] at howns
        exact hnobody k howns
    · obtain rfl : j = i := by
        by_contra hj
        rw [hothers j hj] at hclear
        exact hbefore hclear
      apply (hdisciplined.step h).owned.flag_eq_false_iff.mp
      exact hstatement.flag_of_clearParam hclear hbefore

omit [DecidableEq ι] in
/-- In a new process there are no commands. -/
theorem Control.boot_commandsInOrder : (Control.boot : Control ι).CommandsInOrder where
  unique := fun _ _ hi => hi.active.elim
  answering := fun _ => trivial
  clearing := by
    intro i hclear
    contradiction

/-- A command whose callback executed while the flag was down has started a run in its mode, and no
thread is about to clear the parameter of a run in progress. The second part is more than that the
parameter is not cleared: it excludes already the state in which the next statement would clear
it. -/
structure Control.CommandsServed (s : Control ι) : Prop where
  served : ∀ i, (s.agent i).callback = .returned → (s.agent i).command ≠ 0 →
    (s.agent i).foundIdle = true → (s.agent i).started = some (runMode (s.agent i).command)
  not_cleared : ∀ i j, (s.agent i).thread = .clearParam → ¬ (s.agent j).Owns

omit [DecidableEq ι] in
/-- Commands in order are served. -/
theorem Control.CommandsInOrder.served {s : Control ι} (hs : s.CommandsInOrder) :
    s.CommandsServed where
  served := by
    intro i hreturned
    have hanswering := hs.answering i
    rw [Answering, hreturned] at hanswering
    exact hanswering
  not_cleared := by
    intro i j hclear
    exact hs.clearing i hclear j

/-- In every interleaving whose writes come from one router and whose statements are undisturbed,
commands are served, in every state that is reached. -/
theorem commands_served_of_undisturbed (events : List (ι × ControlAction))
    (halong : Execution.Along (Agents.step controlStep)
      (fun s event => OnRouter s event ∧ Undisturbed s event) events Control.boot)
    (earlier later : List (ι × ControlAction)) (hsplit : events = earlier ++ later)
    (s : Control ι) (hrun : Control.run earlier = .ok s) : s.CommandsServed := by
  have hearlier := Execution.Along.of_append (hsplit ▸ halong)
  obtain ⟨hinorder, -⟩ := Execution.run_invariant_along
    (fun s : Control ι => s.CommandsInOrder ∧ s.Disciplined)
    (fun s event => OnRouter s event ∧ Undisturbed s event)
    (fun _ _ _ hs hcondition hstep =>
      ⟨hs.1.step hs.2 hcondition.1 hcondition.2 hstep, hs.2.step hstep⟩)
    earlier Control.boot s ⟨Control.boot_commandsInOrder, Control.boot_disciplined⟩ hearlier hrun
  exact hinorder.served

/-- Statements other than writes are nothing to the router. -/
theorem along_onRouter {events : List (ι × ControlAction)}
    (hevents : ∀ event ∈ events, ∀ value, event.2 ≠ .write value) (s : Control ι) :
    Execution.Along (Agents.step controlStep) OnRouter events s := by
  refine Execution.Along.of_forall ?_ s
  rintro ⟨i, action⟩ hevent state
  cases action with
  | write value => exact absurd rfl (hevents _ hevent value)
  | callback succeeds => trivial
  | thread received => trivial

/-- A command for all messages, and its thread on the way. -/
def undisturbedRun : List (Unit × ControlAction) :=
  (((), .write 2) :: List.replicate 7 ((), .callback true)) ++ List.replicate 7 ((), .thread true)

/-- It is served: its thread was started in the mode of its value. -/
theorem commands_served_of_undisturbed_single :
    ∃ s : Control Unit, Control.run undisturbedRun = .ok s ∧
      (s.agent ()).started = some ⟨true, false⟩ ∧ s.CommandsServed := by
  obtain ⟨s, hrun, hstarted⟩ : ∃ s : Control Unit, Control.run undisturbedRun = .ok s ∧
      (s.agent ()).started = some ⟨true, false⟩ := ⟨_, rfl, rfl⟩
  refine ⟨s, hrun, hstarted, commands_served_of_undisturbed undisturbedRun ?_ undisturbedRun []
    (List.append_nil _).symm s hrun⟩
  apply Execution.Along.append
  · refine ⟨⟨fun _ j hj => hj.active.elim, fun h => absurd h (by decide)⟩, fun next hnext => ?_⟩
    apply Execution.Along.of_invariant
      (fun s : Control Unit => (s.agent ()).command = 2 ∧ (s.agent ()).thread ≠ .clearParam)
    · obtain rfl := Except.ok.inj hnext
      exact ⟨rfl, by decide⟩
    · intro event hevent s ⟨hcommand, hthread⟩
      rw [List.eq_of_mem_replicate hevent]
      refine ⟨trivial, ?_, fun _ _ _ _ => hthread, fun _ => rfl⟩
      intro _ hzero
      rw [hcommand] at hzero
      contradiction
    · intro event hevent s s' ⟨hcommand, hthread⟩ hstep
      rw [List.eq_of_mem_replicate hevent] at hstep
      have hstatement := controlStep_eq_some (Agents.step_eq_ok hstep).1
      generalize s'.agent () = inv', s'.shared = shared' at hstatement ⊢
      cases hstatement <;> simp [hcommand, hthread]
  · intro middle hmiddle
    apply Execution.Along.of_invariant (fun s : Control Unit => (s.agent ()).callback = .returned)
    · obtain rfl := Except.ok.inj hmiddle
      rfl
    · intro event hevent s hreturned
      rw [List.eq_of_mem_replicate hevent]
      refine ⟨trivial, fun _ j hwaiting => ?_⟩
      rw [hreturned] at hwaiting
      contradiction
    · intro event hevent s s' hreturned hstep
      rw [List.eq_of_mem_replicate hevent] at hstep
      have hstatement := controlStep_eq_some (Agents.step_eq_ok hstep).1
      generalize s'.agent () = inv', s'.shared = shared' at hstatement ⊢
      cases hstatement <;> exact hreturned

/-- The first invocation runs up to its clear; the router stores a second command; the clear erases
it before it is read. -/
def lostCommand : List (Bool × ControlAction) :=
  (((false, .write 1) :: List.replicate 7 (false, .callback true)) ++
      List.replicate 3 (false, .thread true)) ++
    ((true, .write 1) :: [(false, .thread true), (true, .callback true)])

/-- That command is lost, although no run was in progress and the router did one write at a time. -/
theorem commands_not_always_served :
    ¬ ∀ (events : List (Bool × ControlAction)) (s : Control Bool),
        Execution.Along (Agents.step controlStep) OnRouter events Control.boot →
          Control.run events = .ok s → s.CommandsServed := by
  intro h
  obtain ⟨s, hrun, hreturned, hcommand, hfound, hstarted⟩ : ∃ s : Control Bool,
      Control.run lostCommand = .ok s ∧ (s.agent true).callback = .returned ∧
        (s.agent true).command = 1 ∧ (s.agent true).foundIdle = true ∧
        (s.agent true).started = none := ⟨_, rfl, rfl, rfl, rfl, rfl⟩
  have hrouter : Execution.Along (Agents.step controlStep) OnRouter lostCommand Control.boot := by
    apply Execution.Along.append
    · refine ⟨fun _ j hj => hj.active.elim, fun next _ => along_onRouter ?_ next⟩
      intro event hevent value
      rcases List.mem_append.mp hevent with hcallback | hthread
      · rw [List.eq_of_mem_replicate hcallback]
        exact ControlAction.noConfusion
      · rw [List.eq_of_mem_replicate hthread]
        exact ControlAction.noConfusion
    · intro middle hmiddle
      obtain rfl := Except.ok.inj hmiddle
      refine ⟨fun _ j hj => ?_, fun next _ => along_onRouter ?_ next⟩
      · cases j <;> exact hj.active.elim
      · intro event hevent value
        rcases List.mem_cons.mp hevent with rfl | hlast
        · exact ControlAction.noConfusion
        · rw [List.mem_singleton.mp hlast]
          exact ControlAction.noConfusion
  have hserved := (h lostCommand s hrouter hrun).served true hreturned
    (by rw [hcommand]; decide) hfound
  rw [hstarted] at hserved
  contradiction

end Dipp
