import Dipp.Library.Agents
import Mathlib.Data.Finset.Basic

/-!
# The statements of `callback_run` and `process_thread`

A write to `pipeline_run` stores the value and calls `callback_run`, which reads the
parameter back, takes the flag `is_processing` and starts a thread. The thread processes,
releases the flag, clears the parameter, and writes the log of the run. The two share the
flag, the parameter, and the global `logger` pointer, and nothing else orders them: any
number of callbacks and threads take turns, one statement at a time.

An invocation is a callback together with the thread it starts, and the logger it creates
is named after it. The log entries of the common buffer, and the files they are written
to, record which invocation logged them. What the processing does besides logging plays
no part here, and the capacity of the buffer is a matter of its own.
-/

namespace Dipp

/-- The texts that a run logs. -/
inductive LogMessage where
  | processingStarted
  | threadDetached
  | batchStarted
  | cacheRebuilt
  | processingFinished
  deriving DecidableEq, Repr

/-- The mode in `ProcessThreadArgs`: all messages or one, waiting or not. -/
structure RunMode where
  all : Bool
  wait : Bool
  deriving DecidableEq, Repr

/-- The mode that a value of `pipeline_run` asks for. -/
def runMode (value : UInt8) : RunMode := ⟨value % 2 == 0, value > 2⟩

/-- The statement of `callback_run` that is to be executed next, with the locals it needs. -/
inductive CallbackPhase where
  | idle
  | readParam
  | exchange (value : UInt8)
  | createLogger (value : UInt8)
  | logStarted (value : UInt8)
  | allocateArgs (value : UInt8)
  | storeAfterMalloc
  | createThread (mode : RunMode)
  | storeAfterCreate
  | logDetached
  | returned
  deriving DecidableEq, Repr

/-- The statement of `process_thread` that is to be executed next. -/
inductive ThreadPhase where
  | notCreated
  | readArgs (mode : RunMode)
  | processOne
  | receive
  | logBatchStarted
  | logCacheRebuilt
  | logBatchDone
  | store
  | clearParam
  | logFinished
  | flush
  | destroy
  | ended
  deriving DecidableEq, Repr

/-- A callback with its thread. Besides the two phases it records the value that was stored for it,
whether the flag was down when it looked at the parameter or the flag, the mode its thread was
started in, and whether it has a logger. -/
structure Invocation where
  command : UInt8
  callback : CallbackPhase
  thread : ThreadPhase
  foundIdle : Bool
  started : Option RunMode
  hasLogger : Bool
  deriving DecidableEq, Repr

/-- An invocation before its write. -/
def Invocation.fresh : Invocation := ⟨0, .idle, .notCreated, false, none, false⟩

/-- A log entry and the invocation that logged it. -/
structure RunEntry (ι : Type*) where
  run : ι
  message : LogMessage
  deriving DecidableEq, Repr

/-- The shared variables, with the loggers destroyed so far in order, the file of each logger, and
the uses of destroyed loggers: who used whose. -/
structure Shared (ι : Type*) where
  pipelineRun : UInt8
  isProcessing : Bool
  logger : Option ι
  destroyed : List ι
  buffer : List (RunEntry ι)
  files : ι → List (RunEntry ι)
  misuses : List (ι × ι)

variable {ι : Type*} [DecidableEq ι]

/-- The shared variables of a new process. -/
def Shared.boot : Shared ι := ⟨0, false, none, [], [], fun _ => [], []⟩

/-- Every use of the global pointer: nothing happens for null, and a destroyed logger must not be
used. -/
def Shared.useLogger (i : ι) (use : ι → Shared ι) (shared : Shared ι) : Shared ι :=
  match shared.logger with
  | none => shared
  | some owner =>
    if owner ∈ shared.destroyed then
      { shared with misuses := shared.misuses ++ [(i, owner)] }
    else use owner

/-- Append an entry to the buffer. -/
def Shared.loggerLogPrint (i : ι) (message : LogMessage) (shared : Shared ι) : Shared ι :=
  shared.useLogger i fun _ => { shared with buffer := shared.buffer ++ [⟨i, message⟩] }

/-- Write the buffer to the file of the logger and empty it. -/
def Shared.loggerFlush (i : ι) (shared : Shared ι) : Shared ι :=
  shared.useLogger i fun owner =>
    { shared with
      files := Function.update shared.files owner (shared.files owner ++ shared.buffer)
      buffer := [] }

/-- Close the file of the logger and free it. -/
def Shared.loggerDestroy (i : ι) (shared : Shared ι) : Shared ι :=
  shared.useLogger i fun owner => { shared with destroyed := shared.destroyed ++ [owner] }

/-- Through a null pointer nothing is used. -/
theorem Shared.useLogger_none {i : ι} {use : ι → Shared ι} {shared : Shared ι}
    (h : shared.logger = none) : shared.useLogger i use = shared := by
  simp only [useLogger, h]

/-- A logger that is not destroyed can be used. -/
theorem Shared.useLogger_some {i owner : ι} {use : ι → Shared ι} {shared : Shared ι}
    (h : shared.logger = some owner) (halive : owner ∉ shared.destroyed) :
    shared.useLogger i use = use owner := by
  simp only [useLogger, h, if_neg halive]

/-- What every use that goes through leaves alone, the use as a whole leaves alone. -/
theorem Shared.useLogger_keeps {β : Type*} (field : Shared ι → β) (i : ι) (use : ι → Shared ι)
    (shared : Shared ι) (huse : ∀ owner, field (use owner) = field shared)
    (hmisuse : field { shared with misuses := shared.misuses ++ [(i, shared.logger.getD i)] } =
      field shared) : field (shared.useLogger i use) = field shared := by
  unfold useLogger
  cases hlogger : shared.logger with
  | none => rfl
  | some owner =>
    dsimp only
    rw [hlogger, Option.getD_some] at hmisuse
    split
    · exact hmisuse
    · exact huse owner

/-- Logging does not touch the flag. -/
@[simp] theorem Shared.loggerLogPrint_isProcessing (i : ι) (message : LogMessage)
    (shared : Shared ι) : (shared.loggerLogPrint i message).isProcessing = shared.isProcessing :=
  useLogger_keeps isProcessing i _ shared (fun _ => rfl) rfl

/-- Nor does it touch the parameter. -/
@[simp] theorem Shared.loggerLogPrint_pipelineRun (i : ι) (message : LogMessage)
    (shared : Shared ι) : (shared.loggerLogPrint i message).pipelineRun = shared.pipelineRun :=
  useLogger_keeps pipelineRun i _ shared (fun _ => rfl) rfl

/-- Flushing does not touch the flag. -/
@[simp] theorem Shared.loggerFlush_isProcessing (i : ι) (shared : Shared ι) :
    (shared.loggerFlush i).isProcessing = shared.isProcessing :=
  useLogger_keeps isProcessing i _ shared (fun _ => rfl) rfl

/-- Nor does it touch the parameter. -/
@[simp] theorem Shared.loggerFlush_pipelineRun (i : ι) (shared : Shared ι) :
    (shared.loggerFlush i).pipelineRun = shared.pipelineRun :=
  useLogger_keeps pipelineRun i _ shared (fun _ => rfl) rfl

/-- Destroying a logger does not touch the flag. -/
@[simp] theorem Shared.loggerDestroy_isProcessing (i : ι) (shared : Shared ι) :
    (shared.loggerDestroy i).isProcessing = shared.isProcessing :=
  useLogger_keeps isProcessing i _ shared (fun _ => rfl) rfl

/-- Nor does it touch the parameter. -/
@[simp] theorem Shared.loggerDestroy_pipelineRun (i : ι) (shared : Shared ι) :
    (shared.loggerDestroy i).pipelineRun = shared.pipelineRun :=
  useLogger_keeps pipelineRun i _ shared (fun _ => rfl) rfl

/-- Logging leaves the global pointer alone. -/
@[simp] theorem Shared.loggerLogPrint_logger (i : ι) (message : LogMessage) (shared : Shared ι) :
    (shared.loggerLogPrint i message).logger = shared.logger :=
  useLogger_keeps logger i _ shared (fun _ => rfl) rfl

/-- It destroys no logger. -/
@[simp] theorem Shared.loggerLogPrint_destroyed (i : ι) (message : LogMessage)
    (shared : Shared ι) : (shared.loggerLogPrint i message).destroyed = shared.destroyed :=
  useLogger_keeps destroyed i _ shared (fun _ => rfl) rfl

/-- Flushing leaves the global pointer alone. -/
@[simp] theorem Shared.loggerFlush_logger (i : ι) (shared : Shared ι) :
    (shared.loggerFlush i).logger = shared.logger :=
  useLogger_keeps logger i _ shared (fun _ => rfl) rfl

/-- It destroys no logger. -/
@[simp] theorem Shared.loggerFlush_destroyed (i : ι) (shared : Shared ι) :
    (shared.loggerFlush i).destroyed = shared.destroyed :=
  useLogger_keeps destroyed i _ shared (fun _ => rfl) rfl

/-- Destroying a logger leaves the pointer to it. -/
@[simp] theorem Shared.loggerDestroy_logger (i : ι) (shared : Shared ι) :
    (shared.loggerDestroy i).logger = shared.logger :=
  useLogger_keeps logger i _ shared (fun _ => rfl) rfl

/-- What moves an invocation: the router stores a value for it and calls back, or one of its two
statement sequences goes on, where an allocation, a creation or a receive succeeds or fails. -/
inductive ControlAction where
  | write (value : UInt8)
  | callback (succeeds : Bool)
  | thread (received : Bool)
  deriving DecidableEq, Repr

/-- Store the value and call back. -/
def writeParam (value : UInt8) (shared : Shared ι) (inv : Invocation) :
    Option (Shared ι × Invocation) :=
  match inv.callback with
  | .idle => some ({ shared with pipelineRun := value },
      { inv with command := value, callback := .readParam })
  | _ => none

/-- The next statement of `callback_run`. -/
def callbackRun (i : ι) (succeeds : Bool) (shared : Shared ι) (inv : Invocation) :
    Option (Shared ι × Invocation) :=
  match inv.callback with
  | .idle => none
  | .readParam => some (shared, { inv with
      foundIdle := !shared.isProcessing
      callback := if shared.pipelineRun = 0 then .returned else .exchange shared.pipelineRun })
  | .exchange value =>
    if shared.isProcessing then some (shared, { inv with callback := .returned })
    else some ({ shared with isProcessing := true },
      { inv with foundIdle := true, callback := .createLogger value })
  | .createLogger value =>
    some ({ shared with logger := if succeeds then some i else none },
      { inv with hasLogger := succeeds, callback := .logStarted value })
  | .logStarted value =>
    some (shared.loggerLogPrint i .processingStarted, { inv with callback := .allocateArgs value })
  | .allocateArgs value => some (shared, { inv with
      callback := if succeeds then .createThread (runMode value) else .storeAfterMalloc })
  | .storeAfterMalloc =>
    some ({ shared with isProcessing := false }, { inv with callback := .returned })
  | .createThread mode =>
    if succeeds then some (shared, { inv with
      callback := .logDetached, thread := .readArgs mode, started := some mode })
    else some (shared, { inv with callback := .storeAfterCreate })
  | .storeAfterCreate =>
    some ({ shared with isProcessing := false }, { inv with callback := .returned })
  | .logDetached =>
    some (shared.loggerLogPrint i .threadDetached, { inv with callback := .returned })
  | .returned => none

/-- The next statement of `process_thread`. Clearing the parameter calls back as well, and the
callback returns at once on the value zero. -/
def processThread (i : ι) (received : Bool) (shared : Shared ι) (inv : Invocation) :
    Option (Shared ι × Invocation) :=
  match inv.thread with
  | .notCreated => none
  | .readArgs mode =>
    some (shared, { inv with thread := if mode.all then .receive else .processOne })
  | .processOne => some (shared, { inv with thread := .store })
  | .receive => some (shared, { inv with thread := if received then .logBatchStarted else .store })
  | .logBatchStarted =>
    some (shared.loggerLogPrint i .batchStarted, { inv with thread := .logCacheRebuilt })
  | .logCacheRebuilt =>
    some (shared.loggerLogPrint i .cacheRebuilt, { inv with thread := .logBatchDone })
  | .logBatchDone => some (shared.loggerLogPrint i .batchStarted, { inv with thread := .receive })
  | .store => some ({ shared with isProcessing := false }, { inv with thread := .clearParam })
  | .clearParam => some ({ shared with pipelineRun := 0 }, { inv with thread := .logFinished })
  | .logFinished =>
    some (shared.loggerLogPrint i .processingFinished, { inv with thread := .flush })
  | .flush => some (shared.loggerFlush i, { inv with thread := .destroy })
  | .destroy => some (shared.loggerDestroy i, { inv with thread := .ended })
  | .ended => none

/-- One statement of an invocation. -/
def controlStep (i : ι) (action : ControlAction) (shared : Shared ι) (inv : Invocation) :
    Option (Shared ι × Invocation) :=
  match action with
  | .write value => writeParam value shared inv
  | .callback succeeds => callbackRun i succeeds shared inv
  | .thread received => processThread i received shared inv

/-- Everything that a statement can do: which phase it leaves, under which condition, and what it
changes. -/
inductive Statement (i : ι) (shared : Shared ι) (inv : Invocation) :
    ControlAction → Shared ι → Invocation → Prop where
  | write (value : UInt8) (h : inv.callback = .idle) :
    Statement i shared inv (.write value) { shared with pipelineRun := value }
      { inv with command := value, callback := .readParam }
  | readZero (succeeds : Bool) (h : inv.callback = .readParam) (hzero : shared.pipelineRun = 0) :
    Statement i shared inv (.callback succeeds) shared
      { inv with foundIdle := !shared.isProcessing, callback := .returned }
  | readValue (succeeds : Bool) (h : inv.callback = .readParam) (hvalue : shared.pipelineRun ≠ 0) :
    Statement i shared inv (.callback succeeds) shared
      { inv with foundIdle := !shared.isProcessing, callback := .exchange shared.pipelineRun }
  | refused (succeeds : Bool) (value : UInt8) (h : inv.callback = .exchange value)
      (hbusy : shared.isProcessing = true) :
    Statement i shared inv (.callback succeeds) shared { inv with callback := .returned }
  | accepted (succeeds : Bool) (value : UInt8) (h : inv.callback = .exchange value)
      (hidle : shared.isProcessing = false) :
    Statement i shared inv (.callback succeeds) { shared with isProcessing := true }
      { inv with foundIdle := true, callback := .createLogger value }
  | createLogger (succeeds : Bool) (value : UInt8) (h : inv.callback = .createLogger value) :
    Statement i shared inv (.callback succeeds)
      { shared with logger := if succeeds then some i else none }
      { inv with hasLogger := succeeds, callback := .logStarted value }
  | logStarted (succeeds : Bool) (value : UInt8) (h : inv.callback = .logStarted value) :
    Statement i shared inv (.callback succeeds) (shared.loggerLogPrint i .processingStarted)
      { inv with callback := .allocateArgs value }
  | argsAllocated (value : UInt8) (h : inv.callback = .allocateArgs value) :
    Statement i shared inv (.callback true) shared
      { inv with callback := .createThread (runMode value) }
  | mallocFailed (value : UInt8) (h : inv.callback = .allocateArgs value) :
    Statement i shared inv (.callback false) shared { inv with callback := .storeAfterMalloc }
  | storeAfterMalloc (succeeds : Bool) (h : inv.callback = .storeAfterMalloc) :
    Statement i shared inv (.callback succeeds) { shared with isProcessing := false }
      { inv with callback := .returned }
  | threadCreated (mode : RunMode) (h : inv.callback = .createThread mode) :
    Statement i shared inv (.callback true) shared
      { inv with callback := .logDetached, thread := .readArgs mode, started := some mode }
  | createFailed (mode : RunMode) (h : inv.callback = .createThread mode) :
    Statement i shared inv (.callback false) shared { inv with callback := .storeAfterCreate }
  | storeAfterCreate (succeeds : Bool) (h : inv.callback = .storeAfterCreate) :
    Statement i shared inv (.callback succeeds) { shared with isProcessing := false }
      { inv with callback := .returned }
  | logDetached (succeeds : Bool) (h : inv.callback = .logDetached) :
    Statement i shared inv (.callback succeeds) (shared.loggerLogPrint i .threadDetached)
      { inv with callback := .returned }
  | enterAll (received : Bool) (mode : RunMode) (h : inv.thread = .readArgs mode)
      (hall : mode.all = true) :
    Statement i shared inv (.thread received) shared { inv with thread := .receive }
  | enterOne (received : Bool) (mode : RunMode) (h : inv.thread = .readArgs mode)
      (hone : mode.all = false) :
    Statement i shared inv (.thread received) shared { inv with thread := .processOne }
  | processOne (received : Bool) (h : inv.thread = .processOne) :
    Statement i shared inv (.thread received) shared { inv with thread := .store }
  | received (h : inv.thread = .receive) :
    Statement i shared inv (.thread true) shared { inv with thread := .logBatchStarted }
  | drained (h : inv.thread = .receive) :
    Statement i shared inv (.thread false) shared { inv with thread := .store }
  | logBatchStarted (received : Bool) (h : inv.thread = .logBatchStarted) :
    Statement i shared inv (.thread received) (shared.loggerLogPrint i .batchStarted)
      { inv with thread := .logCacheRebuilt }
  | logCacheRebuilt (received : Bool) (h : inv.thread = .logCacheRebuilt) :
    Statement i shared inv (.thread received) (shared.loggerLogPrint i .cacheRebuilt)
      { inv with thread := .logBatchDone }
  | logBatchDone (received : Bool) (h : inv.thread = .logBatchDone) :
    Statement i shared inv (.thread received) (shared.loggerLogPrint i .batchStarted)
      { inv with thread := .receive }
  | store (received : Bool) (h : inv.thread = .store) :
    Statement i shared inv (.thread received) { shared with isProcessing := false }
      { inv with thread := .clearParam }
  | clearParam (received : Bool) (h : inv.thread = .clearParam) :
    Statement i shared inv (.thread received) { shared with pipelineRun := 0 }
      { inv with thread := .logFinished }
  | logFinished (received : Bool) (h : inv.thread = .logFinished) :
    Statement i shared inv (.thread received) (shared.loggerLogPrint i .processingFinished)
      { inv with thread := .flush }
  | flush (received : Bool) (h : inv.thread = .flush) :
    Statement i shared inv (.thread received) (shared.loggerFlush i) { inv with thread := .destroy }
  | destroy (received : Bool) (h : inv.thread = .destroy) :
    Statement i shared inv (.thread received) (shared.loggerDestroy i) { inv with thread := .ended }

/-- A statement of `callback_run` is one of those above. -/
theorem callbackRun_eq_some {i : ι} {succeeds : Bool} {shared shared' : Shared ι}
    {inv inv' : Invocation} (h : callbackRun i succeeds shared inv = some (shared', inv')) :
    Statement i shared inv (.callback succeeds) shared' inv' := by
  unfold callbackRun at h
  cases hphase : inv.callback with
  | idle => simp [hphase] at h
  | returned => simp [hphase] at h
  | readParam =>
    simp only [hphase] at h
    obtain ⟨rfl, rfl⟩ := Prod.mk.inj (Option.some.inj h)
    by_cases hzero : shared.pipelineRun = 0
    · rw [if_pos hzero]
      exact .readZero succeeds hphase hzero
    · rw [if_neg hzero]
      exact .readValue succeeds hphase hzero
  | exchange value =>
    simp only [hphase] at h
    cases hflag : shared.isProcessing with
    | true =>
      rw [if_pos hflag] at h
      obtain ⟨rfl, rfl⟩ := Prod.mk.inj (Option.some.inj h)
      exact .refused succeeds value hphase hflag
    | false =>
      rw [if_neg (by simp [hflag])] at h
      obtain ⟨rfl, rfl⟩ := Prod.mk.inj (Option.some.inj h)
      exact .accepted succeeds value hphase hflag
  | createLogger value =>
    simp only [hphase] at h
    obtain ⟨rfl, rfl⟩ := Prod.mk.inj (Option.some.inj h)
    exact .createLogger succeeds value hphase
  | logStarted value =>
    simp only [hphase] at h
    obtain ⟨rfl, rfl⟩ := Prod.mk.inj (Option.some.inj h)
    exact .logStarted succeeds value hphase
  | allocateArgs value =>
    simp only [hphase] at h
    obtain ⟨rfl, rfl⟩ := Prod.mk.inj (Option.some.inj h)
    cases succeeds with
    | true => exact .argsAllocated value hphase
    | false => exact .mallocFailed value hphase
  | storeAfterMalloc =>
    simp only [hphase] at h
    obtain ⟨rfl, rfl⟩ := Prod.mk.inj (Option.some.inj h)
    exact .storeAfterMalloc succeeds hphase
  | createThread mode =>
    simp only [hphase] at h
    cases succeeds with
    | true =>
      obtain ⟨rfl, rfl⟩ := Prod.mk.inj (Option.some.inj h)
      exact .threadCreated mode hphase
    | false =>
      obtain ⟨rfl, rfl⟩ := Prod.mk.inj (Option.some.inj h)
      exact .createFailed mode hphase
  | storeAfterCreate =>
    simp only [hphase] at h
    obtain ⟨rfl, rfl⟩ := Prod.mk.inj (Option.some.inj h)
    exact .storeAfterCreate succeeds hphase
  | logDetached =>
    simp only [hphase] at h
    obtain ⟨rfl, rfl⟩ := Prod.mk.inj (Option.some.inj h)
    exact .logDetached succeeds hphase

/-- A statement of `process_thread` is one of those above. -/
theorem processThread_eq_some {i : ι} {received : Bool} {shared shared' : Shared ι}
    {inv inv' : Invocation} (h : processThread i received shared inv = some (shared', inv')) :
    Statement i shared inv (.thread received) shared' inv' := by
  unfold processThread at h
  cases hphase : inv.thread with
  | notCreated => simp [hphase] at h
  | ended => simp [hphase] at h
  | readArgs mode =>
    simp only [hphase] at h
    obtain ⟨rfl, rfl⟩ := Prod.mk.inj (Option.some.inj h)
    cases hall : mode.all with
    | true => exact .enterAll received mode hphase hall
    | false => exact .enterOne received mode hphase hall
  | receive =>
    simp only [hphase] at h
    obtain ⟨rfl, rfl⟩ := Prod.mk.inj (Option.some.inj h)
    cases received with
    | true => exact .received hphase
    | false => exact .drained hphase
  | processOne =>
    simp only [hphase] at h
    obtain ⟨rfl, rfl⟩ := Prod.mk.inj (Option.some.inj h)
    exact .processOne received hphase
  | logBatchStarted =>
    simp only [hphase] at h
    obtain ⟨rfl, rfl⟩ := Prod.mk.inj (Option.some.inj h)
    exact .logBatchStarted received hphase
  | logCacheRebuilt =>
    simp only [hphase] at h
    obtain ⟨rfl, rfl⟩ := Prod.mk.inj (Option.some.inj h)
    exact .logCacheRebuilt received hphase
  | logBatchDone =>
    simp only [hphase] at h
    obtain ⟨rfl, rfl⟩ := Prod.mk.inj (Option.some.inj h)
    exact .logBatchDone received hphase
  | store =>
    simp only [hphase] at h
    obtain ⟨rfl, rfl⟩ := Prod.mk.inj (Option.some.inj h)
    exact .store received hphase
  | clearParam =>
    simp only [hphase] at h
    obtain ⟨rfl, rfl⟩ := Prod.mk.inj (Option.some.inj h)
    exact .clearParam received hphase
  | logFinished =>
    simp only [hphase] at h
    obtain ⟨rfl, rfl⟩ := Prod.mk.inj (Option.some.inj h)
    exact .logFinished received hphase
  | flush =>
    simp only [hphase] at h
    obtain ⟨rfl, rfl⟩ := Prod.mk.inj (Option.some.inj h)
    exact .flush received hphase
  | destroy =>
    simp only [hphase] at h
    obtain ⟨rfl, rfl⟩ := Prod.mk.inj (Option.some.inj h)
    exact .destroy received hphase

/-- A step of an invocation is one of the statements. -/
theorem controlStep_eq_some {i : ι} {action : ControlAction} {shared shared' : Shared ι}
    {inv inv' : Invocation} (h : controlStep i action shared inv = some (shared', inv')) :
    Statement i shared inv action shared' inv' := by
  cases action with
  | write value =>
    rw [controlStep, writeParam] at h
    cases hphase : inv.callback with
    | idle =>
      simp only [hphase] at h
      obtain ⟨rfl, rfl⟩ := Prod.mk.inj (Option.some.inj h)
      exact .write value hphase
    | _ => simp [hphase] at h
  | callback succeeds => exact callbackRun_eq_some h
  | thread received => exact processThread_eq_some h

/-- The shared variables and all invocations. -/
abbrev Control (ι : Type*) := Agents.System ι (Shared ι) Invocation

/-- A new process. -/
def Control.boot : Control ι := ⟨.boot, fun _ => .fresh⟩

/-- The state that an interleaving of statements leads to. -/
def Control.run (events : List (ι × ControlAction)) : Except Unit (Control ι) :=
  Execution.run (Agents.step controlStep) events .boot

end Dipp
