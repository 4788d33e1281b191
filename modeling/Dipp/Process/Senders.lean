import Dipp.Library.Mailbox
import Dipp.Process.Oversized

/-!
# Cameras that send while batches are processed

A camera puts its message into the queue whenever it has taken its images, and the thread
looks at the queue only in `msgrcv`. What is done with a batch does not look there: it
goes the same way whatever the queue holds. So the thread is a consumer in the sense of
the mailbox library, and what `process_all` does while cameras keep sending is what it
does with the messages that came before its last look, sent in advance.
-/

namespace Dipp

variable {W : Type*}

/-- The state with another queue. -/
def ProcessState.withQueue (queue : Option (List Message)) (s : ProcessState W) : ProcessState W :=
  { s with queue := queue }

/-- The outcome with another queue. -/
def Outcome.withQueue (queue : Option (List Message)) (outcome : Outcome W) : Outcome W :=
  { outcome with state := outcome.state.withQueue queue }

variable (platform : Platform W) (libs : Libraries) (queue : Option (List Message))

/-- The world is the same. -/
@[simp] theorem ProcessState.withQueue_world (s : ProcessState W) :
    (s.withQueue queue).world = s.world := rfl

/-- So is the configuration. -/
@[simp] theorem ProcessState.withQueue_config (s : ProcessState W) :
    (s.withQueue queue).config = s.config := rfl

/-- Counting the modules does not look at the queue. -/
theorem ProcessState.atModule_withQueue (i : ℕ) (s : ProcessState W) :
    (s.withQueue queue).atModule i = (s.atModule i).withQueue queue := rfl

/-- Nor does reading a pipe. -/
theorem read_withQueue (name : PipeName) (count : ℕ) (s : ProcessState W) :
    (s.withQueue queue).read platform name count =
      ((s.read platform name count).1, (s.read platform name count).2.withQueue queue) := by
  unfold ProcessState.read
  rw [s.withQueue_world]
  cases platform.readFails s.world name with
  | true => rfl
  | false => cases name <;> rfl

/-- Nor does a child process. -/
theorem forkAndWait_withQueue (stage : Stage) (input : ImageBatch) (s : ProcessState W) :
    forkAndWait platform stage input (s.withQueue queue) =
      ((forkAndWait platform stage input s).1,
        (forkAndWait platform stage input s).2.withQueue queue) := by
  have hchild : runChild platform stage input
      { s.withQueue queue with world := (platform.fork s.world).2 } =
        ((runChild platform stage input { s with world := (platform.fork s.world).2 }).1,
          (runChild platform stage input
            { s with world := (platform.fork s.world).2 }).2.withQueue queue) := rfl
  simp only [forkAndWait, ProcessState.withQueue_world, hchild]
  cases (platform.fork s.world).1 with
  | false => rfl
  | true =>
    simp only [if_true]
    generalize runChild platform stage input { s with world := (platform.fork s.world).2 } = ran
    cases platform.waitpidDelivers ran.2.world <;> rfl

/-- Nor does the report of an exit. -/
theorem reportExit_withQueue (s : ProcessState W) :
    reportExit platform (s.withQueue queue) =
      (reportExit platform s).map (ProcessState.withQueue queue) := by
  unfold reportExit
  rw [read_withQueue]
  generalize s.read platform .error 2 = got
  obtain ⟨result, after⟩ := got
  cases result <;> rfl

/-- Nor does a module. -/
theorem executeModuleInProcess_withQueue (stage : Stage) (input : ImageBatch)
    (s : ProcessState W) :
    executeModuleInProcess platform stage input (s.withQueue queue) =
      (executeModuleInProcess platform stage input s).map
        fun executed => (executed.1, executed.2.withQueue queue) := by
  unfold executeModuleInProcess
  rw [forkAndWait_withQueue]
  generalize forkAndWait platform stage input s = waited
  obtain ⟨status, after⟩ := waited
  cases status with
  | signaled => rfl
  | exited exitStatus =>
    by_cases hstatus : exitStatus ≠ 0
    · simp only [if_pos hstatus, reportExit_withQueue]
      cases reportExit platform after <;> rfl
    · simp only [if_neg hstatus]
      rfl

/-- Nor does the result of a module. -/
theorem takeResult_withQueue (batch : ImageBatch) (s : ProcessState W) :
    takeResult platform batch (s.withQueue queue) =
      (takeResult platform batch s).map fun taken => (taken.1, taken.2.withQueue queue) := by
  unfold takeResult
  rw [read_withQueue]
  generalize s.read platform .output sizeofImageBatch = got
  obtain ⟨result, after⟩ := got
  cases result <;> rfl

/-- Nor does the loop over the modules. -/
theorem executeModules_withQueue (pipeline : Pipeline) (remaining i : ℕ) (batch : ImageBatch)
    (s : ProcessState W) :
    executeModules platform pipeline remaining i batch (s.withQueue queue) =
      (executeModules platform pipeline remaining i batch s).map (Outcome.withQueue queue) := by
  induction remaining generalizing i batch s with
  | zero => rfl
  | succ remaining ih =>
    rw [executeModules, executeModules]
    split
    · rename_i h
      rw [s.atModule_withQueue]
      generalize s.atModule i = current
      simp only [ProcessState.withQueue_config, executeModuleInProcess_withQueue]
      cases executeModuleInProcess platform
          (current.config.stageOf (pipeline.modules ⟨i, h⟩)) batch current with
      | error stop => rfl
      | ok executed =>
        obtain ⟨status, ran⟩ := executed
        cases status with
        | failure => rfl
        | success =>
          simp only [Except.map, takeResult_withQueue]
          cases takeResult platform batch ran with
          | error stop => rfl
          | ok got =>
            obtain ⟨next, taken⟩ := got
            cases next with
            | none => rfl
            | some next => exact ih (i + 1) next taken
    · rfl

/-- Nor does a pipeline. -/
theorem executePipeline_withQueue (pipeline : Pipeline) (batch : ImageBatch)
    (s : ProcessState W) :
    executePipeline platform pipeline batch (s.withQueue queue) =
      (executePipeline platform pipeline batch s).map (Outcome.withQueue queue) := by
  have hopen : openPipes platform (s.withQueue queue) =
      ((openPipes platform s).1, (openPipes platform s).2.withQueue queue) := by
    unfold openPipes
    rw [s.withQueue_world]
    cases platform.outputPipeOpens s.world with
    | false => rfl
    | true =>
      dsimp only
      cases platform.errorPipeOpens s.world <;> rfl
  unfold executePipeline
  rw [hopen]
  generalize openPipes platform s = opened
  obtain ⟨opens, after⟩ := opened
  cases opens with
  | false => rfl
  | true => exact executeModules_withQueue platform queue pipeline _ _ batch after

/-- Nor does looking a pipeline up and executing it. -/
theorem loadPipelineAndExecute_withQueue (batch : ImageBatch) (s : ProcessState W) :
    loadPipelineAndExecute platform batch (s.withQueue queue) =
      (loadPipelineAndExecute platform batch s).map (Outcome.withQueue queue) := by
  unfold loadPipelineAndExecute
  rw [s.withQueue_config]
  cases getPipelineById s.config.pipelines batch.pipelineId with
  | none => rfl
  | some k =>
    exact executePipeline_withQueue platform queue (s.config.pipelines k) batch
      (s.inPipeline (s.config.pipelines k).pipelineId)

/-- Nor does removing a segment. -/
theorem removeSegment_withQueue (shmid : Int32) (s : ProcessState W) :
    removeSegment platform shmid (s.withQueue queue) =
      (removeSegment platform shmid s).withQueue queue := by
  have hremove (detached : ProcessState W) :
      (if platform.shmctlSucceeds (detached.withQueue queue).world shmid then
          { detached.withQueue queue with removed := (detached.withQueue queue).removed ++ [shmid] }
        else (detached.withQueue queue).setErrorParam ErrorCode.shmRemove.value) =
        (if platform.shmctlSucceeds detached.world shmid then
          { detached with removed := detached.removed ++ [shmid] }
        else detached.setErrorParam ErrorCode.shmRemove.value).withQueue queue := by
    rw [detached.withQueue_world]
    cases platform.shmctlSucceeds detached.world shmid <;> rfl
  unfold removeSegment
  rw [s.withQueue_world]
  cases platform.shmdtSucceeds s.world with
  | true => exact hremove s
  | false => exact hremove (s.setErrorParam ErrorCode.shmDetach.value)

/-- Nor does uploading. -/
theorem uploadToRing_withQueue (mem : Mapped.Memory) (batch : ImageBatch) (s : ProcessState W) :
    uploadToRing libs mem batch (s.withQueue queue) =
      (uploadToRing libs mem batch s).map (ProcessState.withQueue queue) := by
  unfold uploadToRing
  cases (upload libs.metadataUnpack mem batch.numImages batch.batchSize).mapM
    UploadIteration.element <;> rfl

/-- A batch is processed the same way whatever the queue holds. -/
theorem process_withQueue (batch : ImageBatch) (s : ProcessState W) :
    process platform libs batch (s.withQueue queue) =
      (process platform libs batch s).map
        fun processed => (processed.1, processed.2.withQueue queue) := by
  unfold process
  rw [loadPipelineAndExecute_withQueue]
  cases loadPipelineAndExecute platform batch s with
  | error stop => rfl
  | ok outcome =>
    obtain ⟨status, out, executed⟩ := outcome
    simp only [Except.map, Outcome.withQueue, ProcessState.withQueue_world]
    generalize platform.shmat executed.world out.shmid = attach
    obtain ⟨attachment, w⟩ := attach
    have hattached : ({ (executed.withQueue queue).outsidePipeline with world := w } :
        ProcessState W) =
      ({ executed.outsidePipeline with world := w } : ProcessState W).withQueue queue := rfl
    rw [hattached]
    generalize ({ executed.outsidePipeline with world := w } : ProcessState W) = attached
    cases attachment with
    | null => rfl
    | _ =>
      cases status with
      | failure => simp only [removeSegment_withQueue]
      | success =>
        simp only [uploadToRing_withQueue]
        cases uploadToRing libs _ out attached with
        | error stop => rfl
        | ok uploaded => simp only [Except.map, removeSegment_withQueue]

/-- The cache is set up the same way. -/
theorem setupCache_withQueue (s : ProcessState W) :
    setupCache platform libs (s.withQueue queue) =
      (setupCache platform libs s).map (ProcessState.withQueue queue) := by
  unfold setupCache
  rw [s.withQueue_world, s.withQueue_config]
  cases setupCacheIfNeeded libs (platform.rebuildEnv s.world) s.config <;> rfl

/-- Set up the cache and process a received message. -/
def processMessage (message : Message) (current : ImageBatch × ProcessState W) :
    Except Stop (ImageBatch × ProcessState W) :=
  match setupCache platform libs current.2 with
  | .error stop => .error stop
  | .ok ready => process platform libs (copyMessage message current.1) ready

/-- A message is processed the same way whatever the queue holds. -/
theorem processMessage_withQueue (message : Message) (current : ImageBatch × ProcessState W) :
    processMessage platform libs message (current.1, current.2.withQueue queue) =
      (processMessage platform libs message current).map
        fun processed => (processed.1, processed.2.withQueue queue) := by
  unfold processMessage
  rw [setupCache_withQueue]
  cases setupCache platform libs current.2 with
  | error stop => rfl
  | ok ready => exact process_withQueue platform libs queue _ ready

/-- It leaves the queue alone. -/
theorem processMessage_queue {message : Message} {current next : ImageBatch × ProcessState W}
    (h : processMessage platform libs message current = .ok next) :
    next.2.queue = current.2.queue := by
  unfold processMessage at h
  cases hsetup : setupCache platform libs current.2 with
  | error stop => rw [hsetup] at h; contradiction
  | ok ready =>
    rw [hsetup] at h
    exact (process_queue platform libs h).trans (setupCache_queue hsetup)

/-- The processing thread with its batch variable, as the consumer of the message queue. -/
def batchConsumer (doWait : Bool) :
    Mailbox.Consumer (ImageBatch × ProcessState W) Message Stop where
  queue current := current.2.queue.getD []
  setQueue queue current := (current.1, current.2.withQueue (some queue))
  wanted message := message.mtype = 1
  fits message := message.Fits
  waits := doWait
  work := processMessage platform libs
  giveUp current := (current.1, current.2.setErrorParam ErrorCode.msgqEmpty.value)
  queue_setQueue _ _ := rfl
  setQueue_setQueue _ _ _ := rfl
  work_queue message current next h := by rw [processMessage_queue platform libs h]
  work_setQueue message queue current :=
    processMessage_withQueue platform libs (some queue) message current
  giveUp_queue _ := rfl
  giveUp_setQueue _ _ := rfl

/-- The consumer takes the message that `msgrcv` takes. -/
theorem take_eq_takeMessage (queue : List Message) :
    Mailbox.take (fun message => decide (message.mtype = 1)) queue = takeMessage queue := by
  induction queue with
  | nil => rfl
  | cons message rest ih =>
    rw [Mailbox.take, takeMessage, ih]
    by_cases htype : message.mtype = 1
    · simp [htype]
    · simp [htype]

/-- What the loop of `process_all` still does from where it stands. -/
def resume (doWait : Bool) (fuel : ℕ) (s : Mailbox.State (ImageBatch × ProcessState W) Message) :
    Except Stop (ImageBatch × ProcessState W) :=
  match s.phase with
  | .receiving => processAll platform libs doWait fuel s.state.1 s.state.2
  | .working message =>
    (processMessage platform libs message s.state).bind fun next =>
      processAll platform libs doWait fuel next.1 next.2
  | .ended => .ok s.state

variable {platform libs}

/-- A message that fits is received. -/
theorem getMessageFromQueue_of_fits (doWait : Bool) (datarcv : ImageBatch) {s : ProcessState W}
    {queue rest : List Message} {message : Message} (hqueue : s.queue = some queue)
    (htake : takeMessage queue = some (message, rest)) (hfits : message.Fits) :
    getMessageFromQueue doWait datarcv s =
      .ok ⟨.success, copyMessage message datarcv, s.withQueue (some rest)⟩ := by
  have hlength : message.mtext.length ≤ sizeofImageBatch := hfits
  simp only [getMessageFromQueue, hqueue, htake, if_pos hlength]
  rfl

/-- One that does not fit is not. -/
theorem getMessageFromQueue_of_oversized (doWait : Bool) (datarcv : ImageBatch)
    {s : ProcessState W} {queue rest : List Message} {message : Message}
    (hqueue : s.queue = some queue) (htake : takeMessage queue = some (message, rest))
    (hoversized : ¬ message.Fits) :
    getMessageFromQueue doWait datarcv s =
      .ok ⟨.failure, datarcv, s.setErrorParam ErrorCode.msgqEmpty.value⟩ := by
  have hlength : ¬ message.mtext.length ≤ sizeofImageBatch := hoversized
  simp only [getMessageFromQueue, hqueue, htake, if_neg hlength]

/-- Without a message, nothing is received. -/
theorem getMessageFromQueue_of_none (datarcv : ImageBatch) {s : ProcessState W}
    {queue : List Message} (hqueue : s.queue = some queue) (htake : takeMessage queue = none) :
    getMessageFromQueue false datarcv s =
      .ok ⟨.failure, datarcv, s.setErrorParam ErrorCode.msgqEmpty.value⟩ := by
  simp only [getMessageFromQueue, hqueue, htake, Bool.false_eq_true, if_false]

/-- A message that is received is processed, and the loop goes on. -/
theorem processAll_of_fits {doWait : Bool} {fuel : ℕ} {datarcv : ImageBatch} {s : ProcessState W}
    {queue rest : List Message} {message : Message} (hqueue : s.queue = some queue)
    (htake : takeMessage queue = some (message, rest)) (hfits : message.Fits) :
    processAll platform libs doWait (fuel + 1) datarcv s =
      (processMessage platform libs message (datarcv, s.withQueue (some rest))).bind
        fun next => processAll platform libs doWait fuel next.1 next.2 := by
  simp only [processAll, getMessageFromQueue_of_fits doWait datarcv hqueue htake hfits,
    processMessage]
  cases setupCache platform libs (s.withQueue (some rest)) with
  | error stop => rfl
  | ok ready =>
    dsimp only
    cases process platform libs (copyMessage message datarcv) ready <;> rfl

/-- The loop ends where nothing is received. -/
theorem processAll_of_failure {doWait : Bool} {fuel : ℕ} {datarcv batch : ImageBatch}
    {s s' : ProcessState W}
    (h : getMessageFromQueue doWait datarcv s = .ok ⟨.failure, batch, s'⟩) :
    processAll platform libs doWait (fuel + 1) datarcv s = .ok (batch, s') := by
  rw [processAll, h]

/-- A mailbox that is there is a message queue. -/
theorem queue_eq_some_of_hasQueue {doWait : Bool}
    {s : Mailbox.State (ImageBatch × ProcessState W) Message}
    (hs : s.HasQueue (batchConsumer platform libs doWait)) :
    ∃ queue, s.state.2.queue = some queue :=
  ⟨_, (congrArg (fun current : ImageBatch × ProcessState W => current.2.queue) hs).symm⟩

/-- A receive of the thread is one of the loop. -/
theorem resume_receive {doWait : Bool}
    {s next : Mailbox.State (ImageBatch × ProcessState W) Message}
    (hs : s.HasQueue (batchConsumer platform libs doWait))
    (h : Mailbox.step (batchConsumer platform libs doWait) s .receive = .ok next) (fuel : ℕ) :
    resume platform libs doWait (fuel + 1) s = resume platform libs doWait fuel next := by
  obtain ⟨⟨datarcv, state⟩, phase, received⟩ := s
  obtain ⟨queue, hqueue⟩ : ∃ queue, state.queue = some queue := queue_eq_some_of_hasQueue hs
  cases phase with
  | working message => contradiction
  | ended => contradiction
  | receiving =>
    simp only [Mailbox.step, Mailbox.receive, batchConsumer, hqueue, Option.getD_some,
      take_eq_takeMessage] at h
    rw [resume]
    cases htake : takeMessage queue with
    | none =>
      rw [htake] at h
      cases doWait with
      | true => simp at h
      | false =>
        simp only [Bool.false_eq_true, if_false] at h
        rw [processAll_of_failure (getMessageFromQueue_of_none datarcv hqueue htake),
          ← Except.ok.inj h]
        rfl
    | some taken =>
      obtain ⟨message, left⟩ := taken
      rw [htake] at h
      by_cases hfits : message.Fits
      · simp only [hfits, decide_true, if_true] at h
        rw [processAll_of_fits hqueue htake hfits, ← Except.ok.inj h]
        rfl
      · simp only [hfits, decide_false, Bool.false_eq_true, if_false] at h
        rw [processAll_of_failure
          (getMessageFromQueue_of_oversized doWait datarcv hqueue htake hfits),
          ← Except.ok.inj h]
        rfl

/-- So is the work on a message, which takes no receive. -/
theorem resume_work {doWait : Bool}
    {s next : Mailbox.State (ImageBatch × ProcessState W) Message}
    (h : Mailbox.step (batchConsumer platform libs doWait) s .work = .ok next) (fuel : ℕ) :
    resume platform libs doWait fuel s = resume platform libs doWait fuel next := by
  obtain ⟨state, phase, received⟩ := s
  cases phase with
  | receiving => contradiction
  | ended => contradiction
  | working message =>
    simp only [Mailbox.step, batchConsumer] at h
    cases hwork : processMessage platform libs message state with
    | error stop => rw [hwork] at h; contradiction
    | ok worked =>
      rw [hwork] at h
      rw [← Except.ok.inj h]
      simp only [resume, hwork]
      rfl

/-- The thread alone, step by step, is the loop of `process_all`. -/
theorem resume_of_run {doWait : Bool} {events : List (Mailbox.Event Message)}
    (hown : ∀ event ∈ events, ∀ message, event ≠ .send message)
    {s last : Mailbox.State (ImageBatch × ProcessState W) Message}
    (hs : s.HasQueue (batchConsumer platform libs doWait))
    (h : Execution.run (Mailbox.step (batchConsumer platform libs doWait)) events s = .ok last)
    (hended : last.phase = .ended) (fuel : ℕ) (hfuel : events.length ≤ fuel) :
    resume platform libs doWait fuel s = .ok last.state := by
  induction events generalizing s fuel with
  | nil =>
    obtain rfl : s = last := Except.ok.inj h
    rw [resume, hended]
  | cons event rest ih =>
    obtain ⟨next, hnext, hrest⟩ := Execution.run_cons_eq_ok h
    have hnextQueue := Mailbox.step_hasQueue hs hnext
    have ih := ih (fun event hevent => hown event (List.mem_cons_of_mem _ hevent)) hnextQueue hrest
    rw [List.length_cons] at hfuel
    cases event with
    | send message => exact absurd rfl (hown _ List.mem_cons_self message)
    | receive =>
      obtain ⟨n, rfl⟩ : ∃ n, fuel = n + 1 := ⟨fuel - 1, by omega⟩
      rw [resume_receive hs hnext]
      exact ih n (by omega)
    | work =>
      rw [resume_work hnext]
      exact ih fuel (by omega)

variable (platform libs)

/-- Whenever cameras send while messages are processed: the messages of type 1 that were received,
followed by those that wait, are those of the queue and those that were sent, in order, and no other
message is touched; and once the loop has ended, it has done what it does with the messages that
came before its last look sent in advance. -/
theorem processAll_with_senders (doWait : Bool) (datarcv : ImageBatch) (s : ProcessState W)
    (queue : List Message) (hqueue : s.queue = some queue) (events : List (Mailbox.Event Message))
    (last : Mailbox.State (ImageBatch × ProcessState W) Message)
    (h : Execution.run (Mailbox.step (batchConsumer platform libs doWait)) events
      (.start (datarcv, s)) = .ok last) :
    (∃ left, last.state.2.queue = some left ∧
      last.received ++ receivable left =
        receivable queue ++ receivable (Mailbox.sent events) ∧
      unreceivable left = unreceivable queue ++ unreceivable (Mailbox.sent events)) ∧
    (last.phase = .ended → ∃ before after batch s' left, Mailbox.sent events = before ++ after ∧
      (∀ fuel, events.length ≤ fuel → processAll platform libs doWait fuel datarcv
        (s.withQueue (some (queue ++ before))) = .ok (batch, s')) ∧
      s'.queue = some left ∧ last.state = (batch, s'.withQueue (some (left ++ after)))) := by
  have hs : (Mailbox.State.start (datarcv, s)).HasQueue (batchConsumer platform libs doWait) :=
    congrArg (Prod.mk datarcv) (show s.withQueue (some (s.queue.getD [])) = s by
      rw [hqueue, Option.getD_some, ← hqueue]
      rfl)
  constructor
  · obtain ⟨left, hleft⟩ := queue_eq_some_of_hasQueue (Mailbox.run_hasQueue hs h)
    obtain ⟨hwanted, hothers⟩ := Mailbox.run_conserves h
    simp only [batchConsumer, Mailbox.State.start, hleft, hqueue, Option.getD_some,
      List.nil_append, ← decide_not] at hwanted hothers
    exact ⟨left, hleft, hwanted, hothers⟩
  · intro hended
    obtain ⟨before, after, alone, hsent, hrun, hlast, -⟩ := Mailbox.run_eq_alone hs h
    have halone : alone.phase = .ended := by
      rw [← hended, hlast]
      rfl
    have haloneQueue := Mailbox.run_hasQueue
      (Mailbox.State.hasQueue_append before (Mailbox.State.start (datarcv, s))) hrun
    obtain ⟨left, hleft⟩ := queue_eq_some_of_hasQueue haloneQueue
    refine ⟨before, after, alone.state.1, alone.state.2, left, hsent, fun fuel hfuel => ?_, hleft,
      ?_⟩
    · have hresume := resume_of_run (fun event hevent => Mailbox.own_ne_send hevent)
        (Mailbox.State.hasQueue_append before (Mailbox.State.start (datarcv, s))) hrun halone fuel
        ((List.length_filter_le _ _).trans hfuel)
      simp only [resume, Mailbox.State.append, Mailbox.State.start, batchConsumer, hqueue,
        Option.getD_some] at hresume
      exact hresume
    · rw [hlast]
      simp only [Mailbox.State.append, batchConsumer, hleft, Option.getD_some]

/-- A message of another type is passed over, and one that comes after the last look waits. -/
theorem processAll_with_senders_late :
    ∃ before after, before ++ after = [sampleMessage 2 7, sampleMessage 1 7] ∧
      ∃ batch s', processAll samplePlatform definitionLibraries false 3 ⟨0, 0, 0, 0, 0, 0⟩
        ((sampleState []).withQueue (some before)) = .ok (batch, s') := by
  obtain ⟨-, hended⟩ := processAll_with_senders samplePlatform
    definitionLibraries false ⟨0, 0, 0, 0, 0, 0⟩ (sampleState []) [] rfl
    [.send (sampleMessage 2 7), .receive, .send (sampleMessage 1 7)] _ rfl
  obtain ⟨before, after, batch, s', left, hsent, hrun, -⟩ := hended rfl
  exact ⟨before, after, hsent.symm, batch, s', hrun 3 (by decide)⟩

end Dipp
