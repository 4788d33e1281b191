import Dipp.Control.Statements

/-!
# Runs exclude each other

An invocation owns the run from the compare-exchange that sets `is_processing` to the
store that clears it. Ownership passes from the callback to its thread when the thread is
created, and ends in one of three stores: after a failed allocation, after a failed
creation, and after the processing. A single invocation keeps to this whatever the others
do, so the flag has one owner in every interleaving.
-/

namespace Dipp

/-- The callback stands between its compare-exchange and the end of its part of the run. -/
def CallbackPhase.Owns : CallbackPhase → Prop
  | .createLogger _ | .logStarted _ | .allocateArgs _ | .storeAfterMalloc | .createThread _
  | .storeAfterCreate => True
  | .idle | .readParam | .exchange _ | .logDetached | .returned => False

/-- The thread has not released the flag yet. -/
def ThreadPhase.Owns : ThreadPhase → Prop
  | .readArgs _ | .processOne | .receive | .logBatchStarted | .logCacheRebuilt | .logBatchDone
  | .store => True
  | _ => False

/-- The thread is inside `process_one` or `process_all`. -/
def ThreadPhase.Inside : ThreadPhase → Prop
  | .processOne | .receive | .logBatchStarted | .logCacheRebuilt | .logBatchDone => True
  | _ => False

/-- The invocation owns the run, in its callback or in its thread. -/
def Invocation.Owns (inv : Invocation) : Prop := inv.callback.Owns ∨ inv.thread.Owns

/-- The callback has not looked for a logger yet. -/
def CallbackPhase.BeforeLogger : CallbackPhase → Prop
  | .idle | .readParam | .exchange _ | .createLogger _ => True
  | .logStarted _ | .allocateArgs _ | .storeAfterMalloc | .createThread _ | .storeAfterCreate
  | .logDetached | .returned => False

/-- How the two phases of an invocation go together: there is a thread only once the callback is
done with starting it, and a logger only once one was asked for. -/
structure Invocation.WellFormed (inv : Invocation) : Prop where
  thread : inv.thread ≠ .notCreated → inv.callback = .logDetached ∨ inv.callback = .returned
  detached : inv.callback = .logDetached → inv.thread ≠ .notCreated
  started : inv.started.isSome ↔ inv.thread ≠ .notCreated
  logger : inv.hasLogger = true → ¬ inv.callback.BeforeLogger

variable {ι : Type*} [DecidableEq ι]

/-- Every statement leaves its invocation well formed. -/
theorem Invocation.WellFormed.step {i : ι} {action : ControlAction} {shared shared' : Shared ι}
    {inv inv' : Invocation} (hinv : inv.WellFormed)
    (h : Statement i shared inv action shared' inv') : inv'.WellFormed := by
  obtain ⟨hthread, hdetached, hstarted, hlogger⟩ := hinv
  cases h <;> constructor <;> simp_all [CallbackPhase.BeforeLogger]

/-- Before its thread exists, and after it has released the flag, an invocation without a part of
the run in its callback does not own it. -/
theorem Invocation.WellFormed.notCreated {inv : Invocation} (hinv : inv.WellFormed)
    (h : inv.callback ≠ .logDetached) (h' : inv.callback ≠ .returned) :
    inv.thread = .notCreated := by
  by_contra hthread
  rcases hinv.thread hthread with hdetached | hreturned
  · exact h hdetached
  · exact h' hreturned

/-- A statement leaves the flag and its owner alone, or takes the free flag in the
compare-exchange, or is a store of the owner that gives it back. -/
theorem Statement.handover {i : ι} {action : ControlAction} {shared shared' : Shared ι}
    {inv inv' : Invocation} (hinv : inv.WellFormed)
    (h : Statement i shared inv action shared' inv') :
    Agents.Handover shared.isProcessing shared'.isProcessing inv.Owns inv'.Owns := by
  cases h with
  | accepted succeeds value hphase hidle => exact .takes hidle rfl (.inl trivial)
  | storeAfterMalloc succeeds hphase =>
    have hthread := hinv.notCreated (by simp [hphase]) (by simp [hphase])
    refine .gives (.inl (by simp [hphase, CallbackPhase.Owns])) rfl ?_
    simp [Invocation.Owns, hthread, CallbackPhase.Owns, ThreadPhase.Owns]
  | storeAfterCreate succeeds hphase =>
    have hthread := hinv.notCreated (by simp [hphase]) (by simp [hphase])
    refine .gives (.inl (by simp [hphase, CallbackPhase.Owns])) rfl ?_
    simp [Invocation.Owns, hthread, CallbackPhase.Owns, ThreadPhase.Owns]
  | store received hphase =>
    refine .gives (.inr (by simp [hphase, ThreadPhase.Owns])) rfl ?_
    rcases hinv.thread (by simp [hphase]) with hcallback | hcallback <;>
      simp [Invocation.Owns, hcallback, CallbackPhase.Owns, ThreadPhase.Owns]
  | _ =>
    refine .keeps (by simp only [Shared.loggerLogPrint_isProcessing,
      Shared.loggerFlush_isProcessing, Shared.loggerDestroy_isProcessing]) ?_
    simp_all [Invocation.Owns, CallbackPhase.Owns, ThreadPhase.Owns]

/-- Every invocation is well formed, and the flag has its owner. -/
structure Control.Disciplined (s : Control ι) : Prop where
  wellFormed : ∀ i, (s.agent i).WellFormed
  owned : Agents.Owned Shared.isProcessing Invocation.Owns s

omit [DecidableEq ι] in
/-- In a new process nobody owns the flag. -/
theorem Control.boot_disciplined : (Control.boot : Control ι).Disciplined where
  wellFormed := by
    intro i
    constructor <;> simp [boot, Invocation.fresh]
  owned := by
    have hnobody (i : ι) : ¬ ((Control.boot : Control ι).agent i).Owns := by
      simp [boot, Invocation.fresh, Invocation.Owns, CallbackPhase.Owns, ThreadPhase.Owns]
    refine ⟨fun i j hi => absurd hi (hnobody i), iff_of_false Bool.false_ne_true ?_⟩
    rintro ⟨i, hi⟩
    exact hnobody i hi

/-- Every statement keeps to the discipline. -/
theorem Control.Disciplined.step {s s' : Control ι} {event : ι × ControlAction}
    (hs : s.Disciplined) (h : Agents.step controlStep s event = .ok s') : s'.Disciplined := by
  obtain ⟨i, action⟩ := event
  have hstatement := controlStep_eq_some (Agents.step_eq_ok h).1
  refine ⟨?_, Agents.step_owned hs.owned h (hstatement.handover (hs.wellFormed i))⟩
  exact Agents.step_forall (fun _ _ _ _ _ _ hinv hlocal => hinv.step (controlStep_eq_some hlocal))
    hs.wellFormed h

/-- So does every interleaving. -/
theorem Control.run_disciplined {events : List (ι × ControlAction)} {s : Control ι}
    (h : Control.run events = .ok s) : s.Disciplined :=
  Execution.run_invariant Control.Disciplined (fun _ _ _ hs hstep => hs.step hstep) events
    Control.boot s boot_disciplined h

/-- The statement that the action leads to stores zero in the flag. -/
def Invocation.StoresZero (inv : Invocation) : ControlAction → Prop
  | .write _ => False
  | .callback _ => inv.callback = .storeAfterMalloc ∨ inv.callback = .storeAfterCreate
  | .thread _ => inv.thread = .store

/-- At most one thread processes; the flag is one exactly while an invocation owns the run. It
becomes the owner in its compare-exchange, none but the owner stores zero, every way to stop owning
the run leaves the flag at zero, and with the flag at zero the next compare-exchange succeeds. -/
structure Control.MutuallyExclusive (s : Control ι) : Prop where
  one_inside : ∀ i j, (s.agent i).thread.Inside → (s.agent j).thread.Inside → i = j
  one_owner : ∀ i j, (s.agent i).Owns → (s.agent j).Owns → i = j
  flag_iff : s.shared.isProcessing = true ↔ ∃ i, (s.agent i).Owns
  taken : ∀ i action s', Agents.step controlStep s (i, action) = .ok s' →
    ¬ (s.agent i).Owns → (s'.agent i).Owns →
      s.shared.isProcessing = false ∧ ∃ value, (s.agent i).callback = .exchange value
  stored_by_owner : ∀ i action, (s.agent i).StoresZero action → (s.agent i).Owns
  cleared_by_store : ∀ i action s', Agents.step controlStep s (i, action) = .ok s' →
    s.shared.isProcessing = true → s'.shared.isProcessing = false → (s.agent i).StoresZero action
  restored : ∀ i action s', Agents.step controlStep s (i, action) = .ok s' →
    (s.agent i).Owns → ¬ (s'.agent i).Owns → s'.shared.isProcessing = false
  accepts : ∀ i value succeeds, (s.agent i).callback = .exchange value →
    s.shared.isProcessing = false →
      ∃ s', Agents.step controlStep s (i, .callback succeeds) = .ok s' ∧ (s'.agent i).Owns

/-- A thread that processes owns the run. -/
theorem ThreadPhase.Inside.owns {thread : ThreadPhase} (h : thread.Inside) : thread.Owns := by
  cases thread <;> trivial

/-- A statement makes its invocation the owner only as a compare-exchange that finds zero. -/
theorem Statement.taken {i : ι} {action : ControlAction} {shared shared' : Shared ι}
    {inv inv' : Invocation} (h : Statement i shared inv action shared' inv')
    (hbefore : ¬ inv.Owns) (hafter : inv'.Owns) :
    shared.isProcessing = false ∧ ∃ value, inv.callback = .exchange value := by
  cases h with
  | accepted succeeds value hphase hidle => exact ⟨hidle, value, hphase⟩
  | _ => simp_all [Invocation.Owns, CallbackPhase.Owns, ThreadPhase.Owns]

/-- The flag falls only in one of the three stores. -/
theorem Statement.storesZero {i : ι} {action : ControlAction} {shared shared' : Shared ι}
    {inv inv' : Invocation} (h : Statement i shared inv action shared' inv')
    (hbefore : shared.isProcessing = true) (hafter : shared'.isProcessing = false) :
    inv.StoresZero action := by
  cases h with
  | storeAfterMalloc succeeds hphase => exact .inl hphase
  | storeAfterCreate succeeds hphase => exact .inr hphase
  | store received hphase => exact hphase
  | _ => simp_all

/-- Who stores zero owns the run. -/
theorem Invocation.StoresZero.owns {inv : Invocation} {action : ControlAction}
    (h : inv.StoresZero action) : inv.Owns := by
  cases action with
  | write value => exact h.elim
  | callback succeeds =>
    refine .inl ?_
    rcases h with h | h <;> simp [h, CallbackPhase.Owns]
  | thread received =>
    refine .inr ?_
    change inv.thread = .store at h
    simp [h, ThreadPhase.Owns]

/-- In every interleaving of any number of callbacks and threads, runs exclude each other. -/
theorem run_mutuallyExclusive (events : List (ι × ControlAction)) (s : Control ι)
    (h : Control.run events = .ok s) : s.MutuallyExclusive := by
  have hs := Control.run_disciplined h
  constructor
  case one_inside =>
    intro i j hi hj
    exact hs.owned.unique i j (.inr hi.owns) (.inr hj.owns)
  case one_owner => exact hs.owned.unique
  case flag_iff => exact hs.owned.flag_iff
  case taken =>
    intro i action s' hstep
    exact (controlStep_eq_some (Agents.step_eq_ok hstep).1).taken
  case stored_by_owner =>
    intro i action hstores
    exact hstores.owns
  case cleared_by_store =>
    intro i action s' hstep
    exact (controlStep_eq_some (Agents.step_eq_ok hstep).1).storesZero
  case restored =>
    intro i action s' hstep howns hgone
    have hstatement := controlStep_eq_some (Agents.step_eq_ok hstep).1
    cases hstatement.handover (hs.wellFormed i) with
    | keeps hflag howner => exact absurd (howner.mpr howns) hgone
    | takes hfree hflag howner => exact absurd howner hgone
    | gives howned hflag howner => exact hflag
  case accepts =>
    intro i value succeeds hphase hidle
    have hlocal : controlStep i (.callback succeeds) s.shared (s.agent i) =
        some ({ s.shared with isProcessing := true },
          { s.agent i with foundIdle := true, callback := .createLogger value }) := by
      simp [controlStep, callbackRun, hphase, hidle]
    obtain ⟨s', hstep, -, hagent⟩ := Agents.step_of_local hlocal
    refine ⟨s', hstep, ?_⟩
    rw [hagent]
    exact .inl trivial

/-- While the thread of the first invocation processes, the second invocation is refused. -/
theorem run_mutuallyExclusive_refused :
    ∃ s : Control Bool, Control.run ((false, .write 2) ::
        List.replicate 6 (false, .callback true) ++ [(false, .thread true), (true, .write 1),
          (true, .callback true), (true, .callback true)]) = .ok s ∧
      (s.agent true).callback = .returned ∧ (s.agent false).thread = .receive ∧
      s.MutuallyExclusive := by
  obtain ⟨s, hrun, hrefused, hreceive⟩ : ∃ s : Control Bool, Control.run ((false, .write 2) ::
      List.replicate 6 (false, .callback true) ++ [(false, .thread true), (true, .write 1),
        (true, .callback true), (true, .callback true)]) = .ok s ∧
      (s.agent true).callback = .returned ∧ (s.agent false).thread = .receive :=
    ⟨_, rfl, rfl, rfl⟩
  exact ⟨s, hrun, hrefused, hreceive, run_mutuallyExclusive _ s hrun⟩

end Dipp
