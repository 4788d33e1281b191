import Dipp.Process.ImageService

/-!
# Every announced segment is removed

A camera hands its segment over with the message, and nobody but the processing thread
will remove it. The thread does so behind every batch, whatever became of it: the pipeline
may be unknown, the pipes, the forks, the reads and the waits may fail, modules may crash,
and the segment may not have been attached. As long as modules hand on the segment that
they were given, segments are conserved over whole lifetimes: those that were removed and
those that wait are the announced ones, each of them once and in the order of the messages.
-/

namespace Dipp

variable {W : Type*} (platform : Platform W) (libs : Libraries)

/-- A module that returns a batch returns the segment it was given. -/
def Platform.HandsOn : Prop :=
  ∀ w function batch config result, (platform.runModule w function batch config).1.ending =
    .returned result → result.shmid = batch.shmid

/-- What is in a pipe is nothing, or one result with the segment of a batch. -/
def HoldsResult (shmid : Int32) (content : List UInt8) : Prop :=
  content = [] ∨ ∃ result : ImageBatch, content = result.toBytes ∧ result.shmid = shmid

variable {platform}

/-- A stage writes no other result. -/
theorem holdsResult_runStage (hhands : platform.HandsOn) (w : W) (stage : Stage)
    (batch : ImageBatch) :
    HoldsResult batch.shmid (platform.runStage w stage batch).1.resultBytes := by
  unfold Platform.runStage
  split
  · exact .inl rfl
  · rename_i function hfunction
    unfold ModuleRun.resultBytes
    cases hending : (platform.runModule w function batch stage.config).1.ending with
    | returned result =>
      exact .inr ⟨result, rfl, hhands w function batch stage.config result hending⟩
    | exited status => exact .inl rfl
    | killed => exact .inl rfl
    | timedOut => exact .inl rfl

/-- A child and its report leave the removed segments alone, and in the empty pipe at most its
result. -/
structure Ran (shmid : Int32) (s s' : ProcessState W) : Prop where
  removed : s'.removed = s.removed
  content : s.outputPipe.pipe.content = [] → HoldsResult shmid s'.outputPipe.pipe.content

/-- What a child leaves in the pipe. -/
theorem PipeEnds.content_afterChild (bytes : List UInt8) (ends : PipeEnds) :
    (ends.afterChild bytes).pipe.content = ends.pipe.content ++ bytes := by
  simp only [afterChild, Posix.Pipe.close, Posix.Pipe.write, Posix.Pipe.inherit]
  split <;> rfl

/-- Whether or not there is a child, and whatever waiting for it says. -/
theorem forkAndWait_ran (hhands : platform.HandsOn) (stage : Stage) (input : ImageBatch)
    (s : ProcessState W) : Ran input.shmid s (forkAndWait platform stage input s).2 := by
  have hchild (w : W) :
      Ran input.shmid s (runChild platform stage input { s with world := w }).2 := by
    refine ⟨rfl, fun hempty => ?_⟩
    change HoldsResult _ (s.outputPipe.afterChild _).pipe.content
    rw [PipeEnds.content_afterChild, hempty, List.nil_append]
    exact holdsResult_runStage hhands w stage input
  unfold forkAndWait
  dsimp only
  split_ifs
  · exact hchild _
  · exact hchild _
  · exact ⟨rfl, fun hempty => .inl hempty⟩

/-- Reading the error pipe leaves the output pipe alone. -/
theorem reportExit_keeps {s s' : ProcessState W} (h : reportExit platform s = .ok s') :
    s'.removed = s.removed ∧ s'.outputPipe = s.outputPipe := by
  have hread : (s.read platform .error 2).2.removed = s.removed ∧
      (s.read platform .error 2).2.outputPipe = s.outputPipe := by
    unfold ProcessState.read
    split_ifs <;> exact ⟨rfl, rfl⟩
  unfold reportExit at h
  dsimp only at h
  split at h
  case h_1 => contradiction
  all_goals
    obtain rfl := Except.ok.inj h
    exact hread

/-- However a module ends. -/
theorem executeModuleInProcess_ran (hhands : platform.HandsOn) {stage : Stage} {input : ImageBatch}
    {s s' : ProcessState W} {status : Status}
    (h : executeModuleInProcess platform stage input s = .ok (status, s')) :
    Ran input.shmid s s' := by
  have hwait := forkAndWait_ran hhands stage input s
  unfold executeModuleInProcess at h
  dsimp only at h
  split at h
  case h_1 =>
    split at h
    · split at h
      · contradiction
      · next reported hreported =>
        obtain ⟨-, rfl⟩ := Prod.mk.inj (Except.ok.inj h)
        obtain ⟨hremoved, houtput⟩ := reportExit_keeps hreported
        refine ⟨hremoved.trans hwait.removed, fun hempty => ?_⟩
        change HoldsResult _ reported.outputPipe.pipe.content
        rw [houtput]
        exact hwait.content hempty
    · obtain ⟨-, rfl⟩ := Prod.mk.inj (Except.ok.inj h)
      exact hwait
  case h_2 =>
    obtain ⟨-, rfl⟩ := Prod.mk.inj (Except.ok.inj h)
    exact ⟨hwait.removed, hwait.content⟩

/-- A result that is taken has the segment of the batch and leaves the pipe empty. -/
theorem takeResult_keeps {batch : ImageBatch} {s s' : ProcessState W} {next : Option ImageBatch}
    (hcontent : HoldsResult batch.shmid s.outputPipe.pipe.content)
    (h : takeResult platform batch s = .ok (next, s')) :
    s'.removed = s.removed ∧ ∀ taken, next = some taken →
      taken.shmid = batch.shmid ∧ s'.outputPipe.pipe.content = [] := by
  unfold takeResult ProcessState.read at h
  split_ifs at h
  · obtain ⟨rfl, rfl⟩ := Prod.mk.inj (Except.ok.inj h)
    exact ⟨rfl, nofun⟩
  · dsimp only [Posix.Pipe.read] at h
    rcases hcontent with hempty | ⟨result, hresult, hshmid⟩
    · rw [if_neg (not_not_intro hempty)] at h
      split_ifs at h
      · obtain ⟨rfl, rfl⟩ := Prod.mk.inj (Except.ok.inj h)
        exact ⟨rfl, nofun⟩
    · have hlength := result.length_toBytes
      have hne : result.toBytes ≠ [] := List.ne_nil_of_length_pos (by rw [hlength]; decide)
      rw [hresult, if_pos hne] at h
      obtain ⟨rfl, rfl⟩ := Prod.mk.inj (Except.ok.inj h)
      refine ⟨rfl, fun taken htaken => ?_⟩
      obtain rfl := Option.some.inj htaken
      rw [List.take_of_length_le (Nat.le_of_eq hlength), ImageBatch.ofBytes_toBytes]
      exact ⟨hshmid, List.drop_eq_nil_of_le (Nat.le_of_eq hlength)⟩

/-- The loop over the modules keeps the segment of the batch. -/
theorem executeModules_segment (hhands : platform.HandsOn) {pipeline : Pipeline}
    (remaining i : ℕ) (batch : ImageBatch) (s : ProcessState W)
    (hempty : s.outputPipe.pipe.content = []) {outcome : Outcome W}
    (h : executeModules platform pipeline remaining i batch s = .ok outcome) :
    outcome.batch.shmid = batch.shmid ∧ outcome.state.removed = s.removed := by
  induction remaining generalizing i batch s with
  | zero =>
    obtain rfl := Except.ok.inj h
    exact ⟨rfl, rfl⟩
  | succ remaining ih =>
    rw [executeModules] at h
    split at h
    case isFalse => contradiction
    case isTrue hi =>
      dsimp only at h
      cases hran : executeModuleInProcess platform
          ((s.atModule i).config.stageOf (pipeline.modules ⟨i, hi⟩)) batch (s.atModule i) with
      | error stop => rw [hran] at h; contradiction
      | ok result =>
        obtain ⟨status, ran⟩ := result
        obtain ⟨hremoved, hcontent⟩ := executeModuleInProcess_ran hhands hran
        rw [hran] at h
        cases status with
        | failure =>
          obtain rfl := Except.ok.inj h
          exact ⟨rfl, hremoved⟩
        | success =>
          dsimp only at h
          cases htaken : takeResult platform batch ran with
          | error stop => rw [htaken] at h; contradiction
          | ok got =>
            obtain ⟨next, taken⟩ := got
            obtain ⟨hkept, hnext⟩ := takeResult_keeps (hcontent hempty) htaken
            rw [htaken] at h
            cases next with
            | none =>
              obtain rfl := Except.ok.inj h
              exact ⟨rfl, hkept.trans hremoved⟩
            | some next =>
              obtain ⟨hshmid, hempty'⟩ := hnext next rfl
              obtain ⟨hlast, hrest⟩ := ih (i + 1) next taken hempty' h
              exact ⟨hlast.trans hshmid, hrest.trans (hkept.trans hremoved)⟩

/-- New pipes are empty. -/
theorem openPipes_keeps {s opened : ProcessState W} {created : Bool}
    (h : openPipes platform s = (created, opened)) :
    opened.removed = s.removed ∧ (created = true → opened.outputPipe.pipe.content = []) := by
  unfold openPipes at h
  split_ifs at h <;> obtain ⟨rfl, rfl⟩ := Prod.mk.inj h
  · exact ⟨rfl, fun _ => rfl⟩
  · exact ⟨rfl, nofun⟩
  · exact ⟨rfl, nofun⟩

/-- So does a pipeline, if it is found and its pipes can be created. -/
theorem loadPipelineAndExecute_segment (hhands : platform.HandsOn) {batch : ImageBatch}
    {s : ProcessState W} {outcome : Outcome W}
    (h : loadPipelineAndExecute platform batch s = .ok outcome) :
    outcome.batch.shmid = batch.shmid ∧ outcome.state.removed = s.removed := by
  unfold loadPipelineAndExecute at h
  split at h
  · obtain rfl := Except.ok.inj h
    exact ⟨rfl, rfl⟩
  · rename_i k hk
    dsimp only at h
    unfold executePipeline at h
    cases hopen : openPipes platform (s.inPipeline (s.config.pipelines k).pipelineId) with
    | mk created opened =>
      obtain ⟨hremoved, hempty⟩ := openPipes_keeps hopen
      rw [hopen] at h
      cases created with
      | false =>
        obtain rfl := Except.ok.inj h
        exact ⟨rfl, hremoved⟩
      | true =>
        obtain ⟨hshmid, hkept⟩ := executeModules_segment hhands _ 0 batch opened (hempty rfl) h
        exact ⟨hshmid, hkept.trans hremoved⟩

variable (platform) in
/-- `shmat` returns an address or `(void *)-1`, and segments can be removed. -/
structure Platform.RemovesSegments : Prop where
  shmat : ∀ w shmid, (platform.shmat w shmid).1 ≠ .null
  shmctl : ∀ w shmid, platform.shmctlSucceeds w shmid = true

/-- A segment is removed even if it could not be detached. -/
theorem removed_removeSegment (hremoves : platform.RemovesSegments) (shmid : Int32)
    (s : ProcessState W) :
    (removeSegment platform shmid s).removed = s.removed ++ [shmid] := by
  unfold removeSegment
  dsimp only
  rw [if_pos (hremoves.shmctl _ _)]
  split_ifs <;> rfl

variable {libs}

/-- Behind every batch, its segment is removed. -/
theorem process_removed (hhands : platform.HandsOn) (hremoves : platform.RemovesSegments)
    {batch batch' : ImageBatch} {s s' : ProcessState W}
    (h : process platform libs batch s = .ok (batch', s')) :
    s'.removed = s.removed ++ [batch.shmid] := by
  unfold process at h
  cases hload : loadPipelineAndExecute platform batch s with
  | error stop => rw [hload] at h; contradiction
  | ok outcome =>
    obtain ⟨hshmid, hremoved⟩ := loadPipelineAndExecute_segment hhands hload
    obtain ⟨status, out, executed⟩ := outcome
    have hattach := hremoves.shmat executed.world out.shmid
    rw [hload] at h
    dsimp only at h hshmid hremoved
    generalize platform.shmat executed.world out.shmid = attach at h hattach
    obtain ⟨attachment, w⟩ := attach
    cases attachment with
    | null => exact absurd rfl hattach
    | _ =>
      cases status with
      | failure =>
        obtain ⟨rfl, rfl⟩ := Prod.mk.inj (Except.ok.inj h)
        rw [removed_removeSegment hremoves, ← hshmid, ← hremoved]
        rfl
      | success =>
        dsimp only at h
        unfold uploadToRing at h
        split at h
        · contradiction
        · rename_i uploaded huploaded
          split at huploaded
          · contradiction
          · obtain rfl := Except.ok.inj huploaded
            obtain ⟨rfl, rfl⟩ := Prod.mk.inj (Except.ok.inj h)
            rw [removed_removeSegment hremoves, ← hshmid, ← hremoved]
            rfl

/-- A rebuild of the cache removes nothing and leaves the queue alone. -/
theorem setupCache_keeps {s ready : ProcessState W} (h : setupCache platform libs s = .ok ready) :
    ready.removed = s.removed ∧ ready.queue = s.queue := by
  unfold setupCache at h
  split at h
  · contradiction
  · obtain rfl := Except.ok.inj h
    exact ⟨rfl, rfl⟩

/-- The segments that were handed over to the thread: the removed ones, and those that wait. -/
def ProcessState.segments (s : ProcessState W) : List Int32 :=
  s.removed ++ s.waiting.map ImageBatch.shmid

/-- There is a queue, and the messages that wait in it have full size. -/
def ProcessState.WaitsFull (s : ProcessState W) : Prop :=
  ∃ queue, s.queue = some queue ∧
    ∀ message ∈ receivable queue, message.mtext.length = sizeofImageBatch

/-- The thread keeps the segments in its custody, and full messages in its queue. -/
structure KeepsSegments (s s' : ProcessState W) : Prop where
  full : s'.WaitsFull
  segments : s'.segments = s.segments

/-- What is received from such a queue. -/
inductive Received (doWait : Bool) (datarcv : ImageBatch) (s : ProcessState W) : Prop where
  | nothing (h : getMessageFromQueue doWait datarcv s =
      .ok ⟨.failure, datarcv, s.setErrorParam ErrorCode.msgqEmpty.value⟩)
  | waits (h : getMessageFromQueue doWait datarcv s = .error .waitsForMessage)
  | message (message : Message) (rest : List Message)
      (h : getMessageFromQueue doWait datarcv s =
        .ok ⟨.success, message.batch, { s with queue := some rest }⟩)
      (hfull : ∀ later ∈ receivable rest, later.mtext.length = sizeofImageBatch)
      (hwaiting : s.waiting = message.batch :: (receivable rest).map Message.batch)

/-- The first message is received as a whole. -/
theorem received_of_waitsFull {s : ProcessState W} (h : s.WaitsFull) (doWait : Bool)
    (datarcv : ImageBatch) : Received doWait datarcv s := by
  obtain ⟨queue, hqueue, hfull⟩ := h
  cases htake : takeMessage queue with
  | none =>
    cases doWait with
    | true => exact .waits (by simp [getMessageFromQueue, hqueue, htake])
    | false => exact .nothing (by simp [getMessageFromQueue, hqueue, htake])
  | some taken =>
    obtain ⟨message, rest⟩ := taken
    obtain ⟨hreceivable, -⟩ := takeMessage_eq_some htake
    rw [hreceivable] at hfull
    have hmessage := hfull message List.mem_cons_self
    refine .message message rest ?_
      (fun later hlater => hfull later (List.mem_cons_of_mem _ hlater)) ?_
    · simp only [getMessageFromQueue, hqueue, htake, if_pos (Nat.le_of_eq hmessage),
        copyMessage_of_full datarcv hmessage]
    · rw [waiting_of_queue hqueue, hreceivable, List.map_cons]

/-- Processing a batch that was received moves its segment to the removed ones. -/
theorem process_keepsSegments (hhands : platform.HandsOn) (hremoves : platform.RemovesSegments)
    {s ready s' : ProcessState W} {message : Message} {rest : List Message} {batch' : ImageBatch}
    (h : process platform libs message.batch ready = .ok (batch', s'))
    (hfull : ∀ later ∈ receivable rest, later.mtext.length = sizeofImageBatch)
    (hwaiting : s.waiting = message.batch :: (receivable rest).map Message.batch)
    (hremoved : ready.removed = s.removed) (hqueue : ready.queue = some rest) :
    KeepsSegments s s' := by
  have hleft := (process_queue platform libs h).trans hqueue
  refine ⟨⟨rest, hleft, hfull⟩, ?_⟩
  rw [ProcessState.segments, process_removed hhands hremoves h, waiting_of_queue hleft, hremoved,
    ProcessState.segments, hwaiting, List.map_cons, List.append_assoc, List.singleton_append]

/-- Processing one batch keeps the segments. -/
theorem processOne_keepsSegments (hhands : platform.HandsOn)
    (hremoves : platform.RemovesSegments) {doWait : Bool} {datarcv : ImageBatch}
    {s s' : ProcessState W} (hs : s.WaitsFull)
    (h : processOne platform libs doWait datarcv s = .ok s') : KeepsSegments s s' := by
  unfold processOne at h
  cases hsetup : setupCache platform libs s with
  | error stop => rw [hsetup] at h; contradiction
  | ok ready =>
    obtain ⟨hremoved, hqueue⟩ := setupCache_keeps hsetup
    have hready : ready.WaitsFull := by rwa [ProcessState.WaitsFull, hqueue]
    rw [hsetup] at h
    dsimp only at h
    cases received_of_waitsFull hready doWait datarcv with
    | nothing hreceive =>
      rw [hreceive] at h
      obtain rfl := Except.ok.inj h
      refine ⟨hready, ?_⟩
      change ready.segments = s.segments
      rw [ProcessState.segments, ProcessState.waiting, hremoved, hqueue]
      rfl
    | waits hreceive => rw [hreceive] at h; contradiction
    | message message rest hreceive hfull hwaiting =>
      rw [hreceive] at h
      dsimp only at h
      have hwaiting' : s.waiting = message.batch :: (receivable rest).map Message.batch := by
        rw [← hwaiting, ProcessState.waiting, ProcessState.waiting, hqueue]
      cases hprocess : process platform libs message.batch { ready with queue := some rest } with
      | error stop => rw [hprocess] at h; contradiction
      | ok processed =>
        obtain ⟨batch', last⟩ := processed
        rw [hprocess] at h
        obtain rfl := Except.ok.inj h
        exact process_keepsSegments hhands hremoves hprocess hfull hwaiting' hremoved rfl

/-- So does processing all of them. -/
theorem processAll_keepsSegments (hhands : platform.HandsOn)
    (hremoves : platform.RemovesSegments) {doWait : Bool} {fuel : ℕ} {datarcv last : ImageBatch}
    {s s' : ProcessState W} (hs : s.WaitsFull)
    (h : processAll platform libs doWait fuel datarcv s = .ok (last, s')) : KeepsSegments s s' := by
  induction fuel generalizing datarcv s with
  | zero => contradiction
  | succ fuel ih =>
    rw [processAll] at h
    cases received_of_waitsFull hs doWait datarcv with
    | nothing hreceive =>
      rw [hreceive] at h
      obtain ⟨rfl, rfl⟩ := Prod.mk.inj (Except.ok.inj h)
      exact ⟨hs, rfl⟩
    | waits hreceive => rw [hreceive] at h; contradiction
    | message message rest hreceive hfull hwaiting =>
      rw [hreceive] at h
      dsimp only at h
      cases hsetup : setupCache platform libs { s with queue := some rest } with
      | error stop => rw [hsetup] at h; contradiction
      | ok ready =>
        obtain ⟨hremoved, hqueue⟩ := setupCache_keeps hsetup
        rw [hsetup] at h
        dsimp only at h
        cases hprocess : process platform libs message.batch ready with
        | error stop => rw [hprocess] at h; contradiction
        | ok processed =>
          obtain ⟨batch', next⟩ := processed
          rw [hprocess] at h
          have hkeeps :=
            process_keepsSegments hhands hremoves hprocess hfull hwaiting hremoved hqueue
          obtain ⟨hlast, hsegments⟩ := ih hkeeps.full h
          exact ⟨hlast, hsegments.trans hkeeps.segments⟩

/-- The segments that the events announce, by messages of type 1. -/
def announced : List (ServiceEvent W) → List Int32
  | [] => []
  | .arrival _ message :: rest =>
    if message.mtype = 1 then message.batch.shmid :: announced rest else announced rest
  | _ :: rest => announced rest

/-- A message that the thread will receive has full size. -/
def ServiceEvent.Full : ServiceEvent W → Prop
  | .arrival _ message => message.mtype = 1 → message.mtext.length = sizeofImageBatch
  | _ => True

/-- What an event announces is put behind the segments that the thread has. -/
theorem serviceStep_segments (hhands : platform.HandsOn) (hremoves : platform.RemovesSegments)
    {s s' : ProcessState W} {event : ServiceEvent W} (hs : s.WaitsFull) (hfull : event.Full)
    (h : serviceStep libs platform s event = .ok s') :
    s'.WaitsFull ∧ s'.segments = s.segments ++ announced [event] := by
  cases event with
  | command command =>
    obtain ⟨c, rfl⟩ := serviceStep_command h
    exact ⟨hs, (List.append_nil _).symm⟩
  | arrival world message =>
    obtain rfl := Except.ok.inj h
    obtain ⟨queue, hqueue, hwait⟩ := hs
    have harrived : ProcessState.queue
        { s with world := world, queue := s.queue.map (· ++ [message]) } =
        some (queue ++ [message]) := congrArg (Option.map (· ++ [message])) hqueue
    rw [announced]
    by_cases htype : message.mtype = 1
    · rw [if_pos htype]
      refine ⟨⟨_, harrived, ?_⟩, ?_⟩
      · rw [receivable_concat_of_type htype]
        exact List.forall_mem_append.mpr ⟨hwait, List.forall_mem_singleton.mpr (hfull htype)⟩
      · rw [ProcessState.segments, waiting_of_queue harrived, receivable_concat_of_type htype,
          ProcessState.segments, waiting_of_queue hqueue, List.map_append, List.map_append,
          List.append_assoc]
        rfl
    · rw [if_neg htype]
      refine ⟨⟨_, harrived, ?_⟩, ?_⟩
      · rwa [receivable_concat_of_ne htype]
      · rw [ProcessState.segments, waiting_of_queue harrived, receivable_concat_of_ne htype,
          ProcessState.segments, waiting_of_queue hqueue, announced, List.append_nil]
  | processOne doWait datarcv =>
    obtain ⟨hfull', hsegments⟩ := processOne_keepsSegments hhands hremoves hs h
    exact ⟨hfull', hsegments.trans (List.append_nil _).symm⟩
  | processAll fuel datarcv =>
    rw [serviceStep] at h
    cases hall : processAll platform libs false fuel datarcv s with
    | error stop => rw [hall] at h; contradiction
    | ok result =>
      rw [hall] at h
      obtain rfl := Except.ok.inj h
      obtain ⟨hfull', hsegments⟩ := processAll_keepsSegments hhands hremoves hs hall
      exact ⟨hfull', hsegments.trans (List.append_nil _).symm⟩
  | restart =>
    obtain rfl := Except.ok.inj h
    exact ⟨hs, (List.append_nil _).symm⟩

/-- What some events announce comes before what later ones do. -/
theorem announced_append (earlier later : List (ServiceEvent W)) :
    announced (earlier ++ later) = announced earlier ++ announced later := by
  induction earlier with
  | nil => rfl
  | cons event rest ih =>
    cases event with
    | arrival world message =>
      rw [List.cons_append, announced, announced, ih]
      split_ifs <;> rfl
    | _ => exact ih

/-- Segments are conserved: over any lifetime of commands, messages, calls of `process_one` and
`process_all` and restarts, and whatever fails in it, the segments that were removed and those that
wait are the ones of before and the announced ones, in this order. -/
theorem segments_conserved (hhands : platform.HandsOn) (hremoves : platform.RemovesSegments)
    (events : List (ServiceEvent W)) (hfull : ∀ event ∈ events, event.Full)
    {s last : ProcessState W} (hs : s.WaitsFull)
    (h : Execution.run (serviceStep libs platform) events s = .ok last) :
    last.removed ++ last.waiting.map ImageBatch.shmid =
      s.removed ++ s.waiting.map ImageBatch.shmid ++ announced events := by
  induction events generalizing s with
  | nil =>
    obtain rfl := Except.ok.inj h
    exact (List.append_nil _).symm
  | cons event rest ih =>
    obtain ⟨next, hnext, hrest⟩ := Execution.run_cons_eq_ok h
    obtain ⟨hwaits, hsegments⟩ :=
      serviceStep_segments hhands hremoves hs (hfull event List.mem_cons_self) hnext
    have hlast := ih (fun later hlater => hfull later (List.mem_cons_of_mem _ hlater)) hwaits hrest
    have hsplit : announced (event :: rest) = announced [event] ++ announced rest :=
      announced_append [event] rest
    rw [hlast, hsplit, ← List.append_assoc]
    exact congrArg (· ++ announced rest) hsegments

/-- The platform on which no child can be created and no segment attached or detached. -/
def failingPlatform : Platform Unit :=
  { samplePlatform with
    fork := fun _ => (false, ())
    uninitializedStatus := fun _ => .signaled
    shmat := fun _ _ => (.failed, ())
    shmdtSucceeds := fun _ => false }

/-- A process whose cache is set up, with an empty queue. -/
def sampleStart : ProcessState Unit :=
  .boot sampleConfig () (some [])

/-- Two messages arrive, one of them is processed, the process is restarted, and one arrives. -/
def sampleEvents : List (ServiceEvent Unit) :=
  [.arrival () (sampleMessage 1 7), .arrival () (sampleMessage 1 8),
    .processOne false ⟨0, 0, 0, 0, 0, 0⟩, .restart, .arrival () (sampleMessage 1 9)]

/-- The first segment was removed, although nothing succeeded, and the other ones wait. -/
theorem segments_conserved_failing :
    ∃ last, Execution.run (serviceStep definitionLibraries failingPlatform) sampleEvents
        sampleStart = .ok last ∧
      last.removed ++ last.waiting.map ImageBatch.shmid =
        sampleStart.removed ++ sampleStart.waiting.map ImageBatch.shmid ++
          announced sampleEvents := by
  have hhands : failingPlatform.HandsOn := by
    intro w function batch config result h
    change (if batch.shmid = 7 then ModuleEnding.returned batch else .killed) = _ at h
    split at h
    · exact congrArg ImageBatch.shmid (ModuleEnding.returned.inj h).symm
    · contradiction
  have hremoves : failingPlatform.RemovesSegments := ⟨fun _ _ => nofun, fun _ _ => rfl⟩
  have hfull : ∀ event ∈ sampleEvents, event.Full := by
    simp only [sampleEvents, List.mem_cons, List.not_mem_nil, or_false, forall_eq_or_imp, forall_eq]
    exact ⟨fun _ => rfl, fun _ => rfl, trivial, trivial, fun _ => rfl⟩
  obtain ⟨last, hrun⟩ : ∃ last, Execution.run (serviceStep definitionLibraries failingPlatform)
      sampleEvents sampleStart = .ok last := ⟨_, rfl⟩
  exact ⟨last, hrun, segments_conserved hhands hremoves sampleEvents hfull ⟨[], rfl, nofun⟩ hrun⟩

end Dipp
