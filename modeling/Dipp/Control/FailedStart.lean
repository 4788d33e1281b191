import Dipp.Control.Loggers

/-!
# Starts that fail

A callback that has taken the flag creates a logger, makes it the global one and logs through
it before it allocates the arguments of the thread and creates the thread. Where one of these
fails, it gives back the flag and returns. The command stays in the parameter, the logger
stays open under the global pointer, and its entry waits in the buffer for the next run.
-/

namespace Dipp

variable {ι : Type*} [DecidableEq ι]

/-- The command and the statements of its callback, with what their allocations, creations and
opened files return, while nothing else moves. -/
def commandAlone (i : ι) (value : UInt8) (outcomes : List Bool) : List (ι × ControlAction) :=
  (i, .write value) :: outcomes.map fun succeeds => (i, .callback succeeds)

/-- A command that finds the flag down and whose callback returns without having created a thread,
in any state that statements can lead to. -/
structure FailedStart (i : ι) (value : UInt8) (before after : Control ι) : Prop where
  reached : ∃ history, Control.run history = .ok before
  idle : (before.agent i).callback = .idle
  free : before.shared.isProcessing = false
  command : value ≠ 0
  executed : ∃ outcomes,
    Execution.run (Agents.step controlStep) (commandAlone i value outcomes) before = .ok after
  notStarted : (after.agent i).NotStarted

/-- No later statements bring an entry of the invocation into the file of another one. -/
def Control.NeverSurfaces (i : ι) (after : Control ι) : Prop :=
  ∀ later last, Execution.run (Agents.step controlStep) later after = .ok last →
    ∀ j, j ≠ i → ∀ entry ∈ last.shared.files j, entry.run ≠ i

/-- The shared variables are as before the command: the logger that the callback created is
destroyed and not the global one, and no entry of it is left. -/
structure LeavesNoTrace (i : ι) (before after : Control ι) : Prop where
  released : after.shared.isProcessing = false
  cleared : after.shared.pipelineRun = 0
  closed : (after.agent i).hasLogger = true → i ∈ after.shared.destroyed
  forgotten : after.shared.logger ≠ some i
  buffer : after.shared.buffer = before.shared.buffer
  files : after.shared.files = before.shared.files
  surfaces : after.NeverSurfaces i

/-- What a failed start leaves: the command, and, if it has a logger, this logger under the global
pointer, and an entry that every later run can bring into its own file. -/
structure LeavesTrace (i : ι) (value : UInt8) (before after : Control ι) : Prop where
  released : after.shared.isProcessing = false
  command : after.shared.pipelineRun = value
  pointer : after.shared.logger = if (after.agent i).hasLogger then some i else none
  destroyed : after.shared.destroyed = before.shared.destroyed
  alive : i ∉ after.shared.destroyed
  buffer : after.shared.buffer = before.shared.buffer ++
    if (after.agent i).hasLogger then [⟨i, .processingStarted⟩] else []
  surfaces : (after.agent i).hasLogger = true → ∀ j, (after.agent j).callback = .idle →
    ∃ later last, Execution.run (Agents.step controlStep) later after = .ok last ∧
      ⟨i, .processingStarted⟩ ∈ last.shared.files j

/-- Only created loggers are the global one or destroyed. -/
def Control.LoggersCreated (s : Control ι) : Prop :=
  ∀ i, s.shared.logger = some i ∨ i ∈ s.shared.destroyed → (s.agent i).hasLogger = true

omit [DecidableEq ι] in
/-- It stays so where no logger becomes known and none is created. -/
theorem Control.LoggersCreated.of_known {s s' : Control ι} {i : ι} (hs : s.LoggersCreated)
    (hothers : ∀ j, j ≠ i → s'.agent j = s.agent j)
    (hself : (s'.agent i).hasLogger = (s.agent i).hasLogger)
    (hknown : ∀ j, s'.shared.logger = some j ∨ j ∈ s'.shared.destroyed →
      s.shared.logger = some j ∨ j ∈ s.shared.destroyed) : s'.LoggersCreated := by
  intro j hj
  have hkept := Agents.relates_of_others (fun inv inv' => inv'.hasLogger = inv.hasLogger) hothers
    hself (fun _ => rfl) j
  exact hkept.trans (hs j (hknown j hj))

/-- A destroyed logger was destroyed before or is the global one. -/
theorem Shared.mem_destroyed_loggerDestroy {i j : ι} {shared : Shared ι}
    (h : j ∈ (shared.loggerDestroy i).destroyed) :
    shared.logger = some j ∨ j ∈ shared.destroyed := by
  unfold loggerDestroy useLogger at h
  split at h
  case h_1 => exact .inr h
  case h_2 owner howner =>
    split at h
    · exact .inr h
    · rcases List.mem_append.mp h with hbefore | hnew
      · exact .inr hbefore
      · rw [List.mem_singleton.mp hnew]
        exact .inl howner

/-- A statement keeps to that. -/
theorem Control.LoggersCreated.step {s s' : Control ι} {event : ι × ControlAction}
    (hs : s.LoggersCreated) (hdisciplined : s.Disciplined)
    (h : Agents.step controlStep s event = .ok s') : s'.LoggersCreated := by
  obtain ⟨i, action⟩ := event
  obtain ⟨hlocal, hothers⟩ := Agents.step_eq_ok h
  have hwf := hdisciplined.wellFormed i
  cases (controlStep_eq_some hlocal).loggerEffect hwf with
  | quiet hquiet hshared =>
    apply hs.of_known hothers hquiet.logger
    rw [hshared.logger, hshared.destroyed]
    exact fun _ => id
  | creates succeeds haction value hphase hinv hshared =>
    have hbefore : (s.agent i).hasLogger = false := by
      rw [← Bool.not_eq_true]
      exact fun hlogger => hwf.logger hlogger (by rw [hphase]; trivial)
    intro j hj
    rw [hshared] at hj
    dsimp only at hj
    rcases hj with hpointer | hdestroyed
    · split_ifs at hpointer with hcreated
      rw [← Option.some.inj hpointer]
      exact hcreated
    · have hold := hs j (.inr hdestroyed)
      have hne : j ≠ i := by
        rintro rfl
        rw [hbefore] at hold
        contradiction
      rw [hothers j hne]
      exact hold
  | logs message hquiet huses hthread hpending hshared =>
    apply hs.of_known hothers hquiet.logger
    rw [hshared, Shared.loggerLogPrint_logger, Shared.loggerLogPrint_destroyed]
    exact fun _ => id
  | flushes received haction hphase hinv hshared =>
    apply hs.of_known hothers (by rw [hinv])
    rw [hshared, Shared.loggerFlush_logger, Shared.loggerFlush_destroyed]
    exact fun _ => id
  | destroys hphase hinv hshared =>
    apply hs.of_known hothers (by rw [hinv])
    intro j hj
    rcases hj with hpointer | hdestroyed
    · rw [hshared, Shared.loggerDestroy_logger] at hpointer
      exact .inl hpointer
    · rw [hshared] at hdestroyed
      exact Shared.mem_destroyed_loggerDestroy hdestroyed

/-- So does every interleaving. -/
theorem Control.run_loggersCreated {events : List (ι × ControlAction)} {s : Control ι}
    (h : Control.run events = .ok s) : s.LoggersCreated ∧ s.Disciplined :=
  Execution.run_invariant (fun s => s.LoggersCreated ∧ s.Disciplined)
    (fun _ _ _ hs hstep => ⟨hs.1.step hs.2 hstep, hs.2.step hstep⟩) events Control.boot s
    ⟨fun i hi => by simp [Control.boot, Shared.boot] at hi, boot_disciplined⟩ h

/-- The logger of an invocation that has not looked for one is neither the global one nor
destroyed. -/
theorem Control.run_not_destroyed {events : List (ι × ControlAction)} {s : Control ι}
    (h : Control.run events = .ok s) {i : ι} (hidle : (s.agent i).callback = .idle) :
    i ∉ s.shared.destroyed := by
  obtain ⟨hcreated, hdisciplined⟩ := Control.run_loggersCreated h
  intro hdestroyed
  exact (hdisciplined.wellFormed i).logger (hcreated i (.inr hdestroyed)) (by rw [hidle]; trivial)

/-- The shared variables that a callback has changed up to its first log entry. -/
def Shared.started (i : ι) (value : UInt8) (hasLogger : Bool) (shared : Shared ι) : Shared ι :=
  let pointed := { shared with
    pipelineRun := value
    isProcessing := true
    logger := if hasLogger then some i else none }
  pointed.loggerLogPrint i .processingStarted

/-- What a callback that moves alone has changed before its next statement, while there is no
thread. -/
def Starting (i : ι) (value : UInt8) (before shared : Shared ι) (inv : Invocation) : Prop :=
  match inv.callback with
  | .idle => False
  | .readParam => shared = { before with pipelineRun := value }
  | .exchange read => read = value ∧ shared = { before with pipelineRun := value }
  | .createLogger _ => shared = { before with pipelineRun := value, isProcessing := true }
  | .logStarted _ => shared = { before with
      pipelineRun := value
      isProcessing := true
      logger := if inv.hasLogger then some i else none }
  | .allocateArgs _ | .storeAfterMalloc | .createThread _ | .storeAfterCreate =>
    shared = before.started i value inv.hasLogger
  | .logDetached => inv.thread ≠ .notCreated
  | .returned => inv.thread = .notCreated →
      shared = { before.started i value inv.hasLogger with isProcessing := false }

/-- A statement of the callback keeps to that. -/
theorem Starting.step {i : ι} {value : UInt8} {before shared shared' : Shared ι}
    {inv inv' : Invocation} {succeeds : Bool} (hs : Starting i value before shared inv)
    (hvalue : value ≠ 0) (hfree : before.isProcessing = false)
    (h : Statement i shared inv (.callback succeeds) shared' inv') :
    Starting i value before shared' inv' := by
  cases h <;> simp_all [Starting, Shared.started]

/-- So does the whole callback. -/
theorem Starting.run {i : ι} {value : UInt8} {before : Shared ι} {outcomes : List Bool}
    {s after : Control ι} (hs : Starting i value before s.shared (s.agent i)) (hvalue : value ≠ 0)
    (hfree : before.isProcessing = false)
    (h : Execution.run (Agents.step controlStep)
      (outcomes.map fun succeeds => (i, .callback succeeds)) s = .ok after) :
    Starting i value before after.shared (after.agent i) := by
  induction outcomes generalizing s with
  | nil =>
    obtain rfl : s = after := Except.ok.inj h
    exact hs
  | cons succeeds rest ih =>
    obtain ⟨next, hnext, hrest⟩ := Execution.run_cons_eq_ok h
    have hstatement := controlStep_eq_some (Agents.step_eq_ok hnext).1
    exact ih (hs.step hvalue hfree hstatement) hrest

/-- A failed start is a matter of an interleaving. -/
theorem FailedStart.reached_after {i : ι} {value : UInt8} {before after : Control ι}
    (h : FailedStart i value before after) : ∃ history, Control.run history = .ok after := by
  obtain ⟨history, hhistory⟩ := h.reached
  obtain ⟨outcomes, hrun⟩ := h.executed
  refine ⟨history ++ commandAlone i value outcomes, ?_⟩
  rw [Control.run, Execution.run_append, ← Control.run, hhistory]
  exact hrun

/-- What a failed start has done to the shared variables. -/
theorem FailedStart.shared {i : ι} {value : UInt8} {before after : Control ι}
    (h : FailedStart i value before after) : after.shared =
      { before.shared.started i value (after.agent i).hasLogger with isProcessing := false } := by
  obtain ⟨outcomes, hrun⟩ := h.executed
  obtain ⟨written, hwritten, hrest⟩ := Execution.run_cons_eq_ok hrun
  have hstarting : Starting i value before.shared written.shared (written.agent i) := by
    have hstatement := controlStep_eq_some (Agents.step_eq_ok hwritten).1
    generalize written.shared = shared', written.agent i = inv' at hstatement ⊢
    cases hstatement
    rfl
  have hafter := hstarting.run h.command h.free hrest
  rw [Starting, h.notStarted.callback] at hafter
  exact hafter h.notStarted.thread

/-- Logging leaves what is in the buffer there. -/
theorem Shared.mem_buffer_loggerLogPrint (i : ι) (message : LogMessage) {shared : Shared ι}
    {entry : RunEntry ι} (h : entry ∈ shared.buffer) :
    entry ∈ (shared.loggerLogPrint i message).buffer := by
  unfold loggerLogPrint useLogger
  split
  case h_1 => exact h
  case h_2 =>
    split
    · exact h
    · exact List.mem_append_left _ h

/-- Through a logger that is not destroyed, an entry is added to the buffer. -/
theorem Shared.buffer_loggerLogPrint (i : ι) (message : LogMessage) {owner : ι}
    {shared : Shared ι} (hpointer : shared.logger = some owner)
    (halive : owner ∉ shared.destroyed) :
    (shared.loggerLogPrint i message).buffer = shared.buffer ++ [⟨i, message⟩] := by
  rw [loggerLogPrint, useLogger_some hpointer halive]

/-- Flushing takes what is in the buffer to the file of the global logger. -/
theorem Shared.mem_files_loggerFlush {i owner : ι} {shared : Shared ι} {entry : RunEntry ι}
    (hpointer : shared.logger = some owner) (halive : owner ∉ shared.destroyed)
    (h : entry ∈ shared.buffer) : entry ∈ (shared.loggerFlush i).files owner := by
  rw [loggerFlush, useLogger_some hpointer halive]
  dsimp only
  rw [Function.update_self]
  exact List.mem_append_right _ h

/-- The command of a single batch, all statements of its callback, and those of its thread up to the
flush. -/
def flushingRun : List ControlAction :=
  .write 1 :: (List.replicate 7 (.callback true) ++ List.replicate 6 (.thread true))

/-- While the flag is down, a run that nothing gets in between writes what is in the buffer to its
own file. -/
theorem flushingRun_flushes (j : ι) {shared : Shared ι} {inv : Invocation}
    (hidle : inv.callback = .idle) (hfree : shared.isProcessing = false)
    (halive : j ∉ shared.destroyed) :
    ∃ shared' inv', Agents.alone controlStep j flushingRun shared inv = some (shared', inv') ∧
      ∀ entry ∈ shared.buffer, entry ∈ shared'.files j := by
  obtain ⟨command, callback, thread, foundIdle, started, hasLogger⟩ := inv
  obtain ⟨pipelineRun, isProcessing, logger, destroyed, buffer, files, misuses⟩ := shared
  subst hidle hfree
  refine ⟨_, _, rfl, fun entry hentry => ?_⟩
  apply Shared.mem_files_loggerFlush
  · simp
  · simpa using halive
  · apply Shared.mem_buffer_loggerLogPrint
    exact Shared.mem_buffer_loggerLogPrint j _ (Shared.mem_buffer_loggerLogPrint j _ hentry)

/-- A failed start destroys no logger. -/
theorem FailedStart.destroyed {i : ι} {value : UInt8} {before after : Control ι}
    (h : FailedStart i value before after) : after.shared.destroyed = before.shared.destroyed := by
  rw [h.shared]
  exact Shared.loggerLogPrint_destroyed i _ _

/-- Its own logger is not destroyed either. -/
theorem FailedStart.alive {i : ι} {value : UInt8} {before after : Control ι}
    (h : FailedStart i value before after) : i ∉ before.shared.destroyed := by
  obtain ⟨history, hhistory⟩ := h.reached
  exact Control.run_not_destroyed hhistory h.idle

/-- A logger that it creates leaves an entry in the buffer. -/
theorem FailedStart.buffer {i : ι} {value : UInt8} {before after : Control ι}
    (h : FailedStart i value before after) : after.shared.buffer = before.shared.buffer ++
      if (after.agent i).hasLogger then [⟨i, .processingStarted⟩] else [] := by
  rw [h.shared]
  cases (after.agent i).hasLogger with
  | true =>
    apply Shared.buffer_loggerLogPrint
    · rfl
    · exact h.alive
  | false => exact (List.append_nil _).symm

/-- Every invocation that has not begun can bring this entry into its own file. -/
theorem FailedStart.surfaces {i : ι} {value : UInt8} {before after : Control ι}
    (h : FailedStart i value before after) (hlogger : (after.agent i).hasLogger = true) (j : ι)
    (hidle : (after.agent j).callback = .idle) :
    ∃ later last, Execution.run (Agents.step controlStep) later after = .ok last ∧
      ⟨i, .processingStarted⟩ ∈ last.shared.files j := by
  obtain ⟨history, hhistory⟩ := h.reached_after
  have halive := Control.run_not_destroyed hhistory hidle
  obtain ⟨shared', inv', halone, hflushed⟩ :=
    flushingRun_flushes j hidle (by rw [h.shared]) halive
  obtain ⟨last, hrun, rfl⟩ := Agents.run_alone flushingRun halone
  refine ⟨_, last, hrun, hflushed _ ?_⟩
  rw [h.buffer, hlogger]
  exact List.mem_append_right _ (List.mem_singleton_self _)

/-- A failed start leaves its traces. -/
theorem FailedStart.leavesTrace {i : ι} {value : UInt8} {before after : Control ι}
    (h : FailedStart i value before after) : LeavesTrace i value before after where
  released := by rw [h.shared]
  command := by
    rw [h.shared]
    exact Shared.loggerLogPrint_pipelineRun i _ _
  pointer := by
    rw [h.shared]
    exact Shared.loggerLogPrint_logger i _ _
  destroyed := h.destroyed
  alive := by
    rw [h.destroyed]
    exact h.alive
  buffer := h.buffer
  surfaces := h.surfaces

/-- No start that fails leaves no trace: the command is still in the parameter, and a logger that
was created is neither destroyed nor forgotten, and its entry can surface in every later run. -/
theorem failedStart_leaves_trace (i : ι) (value : UInt8) (before after : Control ι)
    (h : FailedStart i value before after) :
    ¬ LeavesNoTrace i before after ∧ LeavesTrace i value before after := by
  have htrace := h.leavesTrace
  refine ⟨fun hclean => h.command ?_, htrace⟩
  rw [← htrace.command, hclean.cleared]

/-- In a new process, the command of a single batch whose arguments cannot be allocated is such a
start. -/
theorem failedStart_malloc : ∃ after : Control Bool,
    FailedStart false 1 .boot after ∧ (after.agent false).hasLogger = true :=
  ⟨_, ⟨⟨[], rfl⟩, rfl, rfl, by decide, ⟨[true, true, true, true, false, true], rfl⟩, ⟨rfl, rfl⟩⟩,
    rfl⟩

/-- Its entry can get into the file of the other invocation. -/
theorem failedStart_leaves_trace_malloc : ∃ after : Control Bool,
    FailedStart false 1 .boot after ∧ ¬ LeavesNoTrace false .boot after ∧
      LeavesTrace false 1 .boot after ∧ (after.agent false).hasLogger = true := by
  obtain ⟨after, hfailed, hlogger⟩ := failedStart_malloc
  obtain ⟨htrace, hleft⟩ := failedStart_leaves_trace false 1 .boot after hfailed
  exact ⟨after, hfailed, htrace, hleft, hlogger⟩

/-- It leaves the command in the parameter. -/
theorem failedStart_not_always_traceless :
    ¬ ∀ (i : Bool) (value : UInt8) (before after : Control Bool),
        FailedStart i value before after → LeavesNoTrace i before after := by
  intro h
  obtain ⟨after, hfailed, -⟩ := failedStart_malloc
  have hcleared := (h false 1 .boot after hfailed).cleared
  rw [hfailed.leavesTrace.command] at hcleared
  contradiction

end Dipp
