import Dipp.Control.Exclusion

/-!
# Runs come to an end

Nothing in `callback_run` or `process_thread` repeats a statement but the loop over the
batches: a compare-exchange that fails gives up. So an invocation makes a bounded number of
statements, apart from the four that each received batch costs, and an owner has released the
flag once it has made so many. What is counted are statements that were executed: on an
empty queue a receive may wait forever, and so may the read behind a module that exits
without a report.
-/

namespace Dipp

/-- The most statements that a callback still has before it, with those of the thread that it may
create. -/
def CallbackPhase.remaining : CallbackPhase → ℕ
  | .idle => 15
  | .readParam => 14
  | .exchange _ => 13
  | .createLogger _ => 12
  | .logStarted _ => 11
  | .allocateArgs _ => 10
  | .createThread _ => 9
  | .storeAfterMalloc | .storeAfterCreate | .logDetached => 1
  | .returned => 0

/-- The most statements that a thread still has before it if it receives no more batches. -/
def ThreadPhase.remaining : ThreadPhase → ℕ
  | .notCreated => 0
  | .readArgs _ => 7
  | .processOne | .receive => 6
  | .logBatchStarted => 9
  | .logCacheRebuilt => 8
  | .logBatchDone => 7
  | .store => 5
  | .clearParam => 4
  | .logFinished => 3
  | .flush => 2
  | .destroy => 1
  | .ended => 0

/-- The most statements that an invocation still has before it if it receives no more batches. -/
def Invocation.remaining (inv : Invocation) : ℕ := inv.callback.remaining + inv.thread.remaining

/-- The next statement receives a batch. -/
def Invocation.receives (inv : Invocation) (action : ControlAction) : Bool :=
  inv.thread == .receive && action == .thread true

variable {ι : Type*} [DecidableEq ι]

/-- Each statement is one less that remains, but a batch that is received costs four. -/
theorem Statement.remaining {i : ι} {action : ControlAction} {shared shared' : Shared ι}
    {inv inv' : Invocation} (h : Statement i shared inv action shared' inv') :
    1 + inv'.remaining ≤ inv.remaining + 4 * (inv.receives action).toNat := by
  cases h with
  | received hphase =>
    simp only [Invocation.remaining, Invocation.receives, hphase, ThreadPhase.remaining,
      beq_self_eq_true, Bool.and_self, Bool.toNat_true]
    omega
  | _ =>
    simp_all only [Invocation.remaining, CallbackPhase.remaining, ThreadPhase.remaining]
    omega

/-- An owner has statements before it, and never more than twelve. -/
theorem Invocation.WellFormed.remaining {inv : Invocation} (hinv : inv.WellFormed)
    (howns : inv.Owns) : inv.remaining ≠ 0 ∧ inv.remaining ≤ 12 := by
  rcases howns with howns | howns
  · have hthread : inv.thread = .notCreated := by
      apply hinv.notCreated <;>
        · intro hphase
          rw [hphase] at howns
          exact howns
    cases hphase : inv.callback <;>
      simp_all [Invocation.remaining, CallbackPhase.Owns, CallbackPhase.remaining,
        ThreadPhase.remaining]
  · have hcallback : inv.callback = .logDetached ∨ inv.callback = .returned := by
      apply hinv.thread
      intro hphase
      rw [hphase] at howns
      exact howns
    rcases hcallback with hcallback | hcallback <;> cases hphase : inv.thread <;>
      simp_all [Invocation.remaining, CallbackPhase.remaining, ThreadPhase.Owns,
        ThreadPhase.remaining]

/-- The event is a statement of the invocation. -/
def movesOf (i : ι) (_ : Control ι) (event : ι × ControlAction) : Bool := event.1 = i

/-- The event is the receive of a batch by the invocation. -/
def receivesOf (i : ι) (s : Control ι) (event : ι × ControlAction) : Bool :=
  event.1 = i && (s.agent i).receives event.2

/-- The statements that an invocation makes are bounded by those that remained and by the batches
that it receives. -/
theorem Control.count_moves (i : ι) (events : List (ι × ControlAction)) (s last : Control ι)
    (h : Execution.run (Agents.step controlStep) events s = .ok last) :
    Execution.count (Agents.step controlStep) (movesOf i) events s + (last.agent i).remaining ≤
      (s.agent i).remaining +
        4 * Execution.count (Agents.step controlStep) (receivesOf i) events s := by
  apply Execution.count_add_le (fun s : Control ι => (s.agent i).remaining) 4 _ events s last h
  rintro s ⟨j, action⟩ next hstep
  obtain ⟨hlocal, hothers⟩ := Agents.step_eq_ok hstep
  by_cases hj : j = i
  · subst hj
    have hremaining := (controlStep_eq_some hlocal).remaining
    simpa [movesOf, receivesOf] using hremaining
  · rw [hothers i (Ne.symm hj)]
    simp [movesOf, receivesOf, hj]

/-- An owner that is no longer one has released the flag on the way. -/
theorem Control.Disciplined.released {i : ι} {events : List (ι × ControlAction)}
    {s last : Control ι} (hs : s.Disciplined) (howns : (s.agent i).Owns)
    (h : Execution.run (Agents.step controlStep) events s = .ok last)
    (hlast : ¬ (last.agent i).Owns) :
    ∃ executed, executed <+: events ∧ ∃ middle,
      Execution.run (Agents.step controlStep) executed s = .ok middle ∧
        middle.shared.isProcessing = false := by
  induction events generalizing s with
  | nil =>
    obtain rfl : s = last := Except.ok.inj h
    exact absurd howns hlast
  | cons event rest ih =>
    obtain ⟨next, hnext, hrest⟩ := Execution.run_cons_eq_ok h
    by_cases hkept : (next.agent i).Owns
    · obtain ⟨executed, hexecuted, middle, hmiddle, hflag⟩ := ih (hs.step hnext) hkept hrest
      refine ⟨event :: executed, List.cons_prefix_cons.mpr ⟨rfl, hexecuted⟩, middle, ?_, hflag⟩
      rw [Execution.run_cons_ok executed hnext, hmiddle]
    · refine ⟨[event], List.prefix_append [event] rest, next, ?_, ?_⟩
      · rw [Execution.run_cons_ok [] hnext, Execution.run_nil]
      · obtain ⟨j, action⟩ := event
        obtain ⟨hlocal, hothers⟩ := Agents.step_eq_ok hnext
        have hj : i = j := by
          by_contra hne
          rw [hothers i hne] at hkept
          exact hkept howns
        subst hj
        cases (controlStep_eq_some hlocal).handover (hs.wellFormed i) with
        | keeps hflag howner => exact absurd (howner.mpr howns) hkept
        | takes hfree hflag howner => exact absurd howner hkept
        | gives howned hflag howner => exact hflag

/-- In every interleaving an invocation makes at most fifteen statements, and four for each batch
that it receives; and while the flag is up it has an owner, which lowers it within twelve
statements that it makes, and four for each batch that it receives. -/
theorem Control.run_progresses (events : List (ι × ControlAction)) (s : Control ι)
    (h : Control.run events = .ok s) :
    (∀ i, Execution.count (Agents.step controlStep) (movesOf i) events Control.boot +
        (s.agent i).remaining ≤
          15 + 4 * Execution.count (Agents.step controlStep) (receivesOf i) events Control.boot) ∧
      (s.shared.isProcessing = true → ∃ i, (s.agent i).Owns ∧ ∀ later last,
        Execution.run (Agents.step controlStep) later s = .ok last →
        12 + 4 * Execution.count (Agents.step controlStep) (receivesOf i) later s ≤
          Execution.count (Agents.step controlStep) (movesOf i) later s →
        ∃ executed, executed <+: later ∧ ∃ middle,
          Execution.run (Agents.step controlStep) executed s = .ok middle ∧
            middle.shared.isProcessing = false) := by
  have hs := Control.run_disciplined h
  refine ⟨fun i => Control.count_moves i events Control.boot s h, fun hup => ?_⟩
  obtain ⟨i, howns⟩ := hs.owned.flag_iff.mp hup
  refine ⟨i, howns, fun later last hlater hmoves => hs.released howns hlater fun hlast => ?_⟩
  have hlastDisciplined : Control.Disciplined last :=
    Execution.run_invariant Control.Disciplined (fun _ _ _ hs hstep => hs.step hstep) later s last
      hs hlater
  obtain ⟨hne, -⟩ := (hlastDisciplined.wellFormed i).remaining hlast
  obtain ⟨-, hle⟩ := (hs.wellFormed i).remaining howns
  have hcount := Control.count_moves i later s last hlater
  omega

/-- A command of one batch has made seven of its statements and has the flag; eight remain. -/
theorem Control.run_progresses_started :
    ∃ s : Control Bool, Control.run ((false, .write 1) ::
        List.replicate 6 (false, .callback true)) = .ok s ∧
      ∃ i, (s.agent i).Owns ∧ (s.agent i).remaining = 8 := by
  obtain ⟨-, hreleases⟩ := Control.run_progresses
    ((false, .write 1) :: List.replicate 6 (false, .callback true)) (_ : Control Bool) rfl
  obtain ⟨i, howns, -⟩ := hreleases rfl
  refine ⟨_, rfl, i, howns, ?_⟩
  cases i with
  | false => rfl
  | true => exact howns.elim False.elim False.elim

end Dipp
