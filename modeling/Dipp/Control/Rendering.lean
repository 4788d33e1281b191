import Dipp.Control.Service
import Dipp.Dtp.Delivery

/-!
# Commands, cameras and clients

The whole program in one system: values are stored in the run parameter, callbacks and threads
take their turns, statement by statement, cameras announce images at any time, definitions
are stored between two runs, and the process may be restarted while it is idle. A thread that
has received a message keeps its batch until it has been processed, and meanwhile the batch is
neither in the queue nor in the ring. Counting it as one that still waits, the program renders
the image service in every interleaving, and clients find in the ring what was delivered.
-/

namespace Dipp

variable {W : Type*} {platform : Platform W} {libs : Libraries} {effect : Development}

/-- A message is put back in front of the queue. -/
def ProcessState.putBack (message : Message) (s : ProcessState W) : ProcessState W :=
  s.withQueue (s.queue.map (message :: ·))

/-- It is taken first. -/
theorem takeMessage_cons {message : Message} (htype : message.mtype = 1) (rest : List Message) :
    takeMessage (message :: rest) = some (message, rest) := if_pos htype

/-- The service does not depend on the messages of other types in the queue. -/
theorem Renders.requeue {s : ProcessState W} {service : ImageService}
    (h : Renders libs platform s service) {queue queue' : List Message}
    (hqueue : s.queue = some queue) (hsame : receivable queue' = receivable queue) :
    Renders libs platform (s.withQueue (some queue')) service := by
  have hwaiting : (s.withQueue (some queue')).waiting = s.waiting := by
    rw [waiting_of_queue hqueue, ← hsame]
    rfl
  have hfull := h.full
  rw [hqueue, Option.getD_some, ← hsame] at hfull
  exact ⟨h.coherent, h.stores, h.safe, h.configs, rfl, hfull, hwaiting ▸ h.pending,
    hwaiting ▸ h.apart, h.ring, h.described⟩

/-- A receive takes the message of the first shot, or finds none, or waits for one. -/
theorem Renders.receive {s : ProcessState W} {service : ImageService}
    (h : Renders libs platform s service) (doWait : Bool) (datarcv : ImageBatch) :
    (getMessageFromQueue doWait datarcv s = .error .waitsForMessage ∧ doWait = true ∧
        s.waiting = []) ∨
      (∃ message s', getMessageFromQueue doWait datarcv s = .ok ⟨.success, message.batch, s'⟩ ∧
        message.mtype = 1 ∧ s.waiting ≠ [] ∧ Renders libs platform (s'.putBack message) service) ∨
      ∃ s', getMessageFromQueue doWait datarcv s = .ok ⟨.failure, datarcv, s'⟩ ∧
        doWait = false ∧ s.waiting = [] ∧ Renders libs platform s' service := by
  obtain ⟨queue, hqueue⟩ := Option.isSome_iff_exists.mp h.queue
  cases htake : takeMessage queue with
  | none =>
    have hempty : s.waiting = [] := by
      rw [waiting_of_queue hqueue, (takeMessage_eq_none htake).1]
      rfl
    cases doWait with
    | true =>
      exact .inl ⟨by simp only [getMessageFromQueue, hqueue, htake, if_true], rfl, hempty⟩
    | false =>
      exact .inr (.inr ⟨_, getMessageFromQueue_of_none datarcv hqueue htake, rfl, hempty,
        h.setErrorParam ErrorCode.msgqEmpty.value⟩)
  | some taken =>
    obtain ⟨message, rest⟩ := taken
    obtain ⟨hreceivable, -⟩ := takeMessage_eq_some htake
    have hfirst : message ∈ receivable queue := by
      rw [hreceivable]
      exact List.mem_cons_self
    have htype : message.mtype = 1 := of_decide_eq_true (List.mem_filter.mp hfirst).2
    have hfull := h.full
    rw [hqueue, Option.getD_some] at hfull
    have hlength := hfull message hfirst
    refine .inr (.inl ⟨message, s.withQueue (some rest), ?_, htype, ?_, ?_⟩)
    · rw [getMessageFromQueue_of_fits doWait datarcv hqueue htake (Nat.le_of_eq hlength),
        copyMessage_of_full datarcv hlength]
    · rw [waiting_of_queue hqueue, hreceivable]
      exact List.cons_ne_nil _ _
    · apply h.requeue hqueue
      rw [hreceivable]
      exact (takeMessage_eq_some (takeMessage_cons htype rest)).1

/-- There is a queue that a message was put back into. -/
theorem Renders.queue_of_putBack {s : ProcessState W} {service : ImageService} {message : Message}
    (h : Renders libs platform (s.putBack message) service) : ∃ rest, s.queue = some rest := by
  have hsome := h.queue
  cases hqueue : s.queue with
  | none =>
    rw [ProcessState.putBack, hqueue] at hsome
    contradiction
  | some rest => exact ⟨rest, rfl⟩

/-- A message that was put back waits before the others. -/
theorem waiting_putBack {s : ProcessState W} {rest : List Message} {message : Message}
    (hrest : s.queue = some rest) (htype : message.mtype = 1) :
    (s.putBack message).waiting = message.batch :: s.waiting := by
  have hqueue : (s.putBack message).queue = some (message :: rest) :=
    congrArg (Option.map (message :: ·)) hrest
  rw [waiting_of_queue hqueue, (takeMessage_eq_some (takeMessage_cons htype rest)).1, List.map_cons,
    waiting_of_queue hrest]

/-- While a thread holds a message, the cache can be set up. -/
theorem Renders.setup (hallocates : platform.Allocates) {s : ProcessState W}
    {service : ImageService} {message : Message}
    (h : Renders libs platform (s.putBack message) service) :
    ∃ s', setupCache platform libs s = .ok s' ∧ s'.config.isSetup = true ∧
      Renders libs platform (s'.putBack message) service := by
  obtain ⟨c, hsetup, hready, hc, hpipelines, hmodules, -⟩ := setupCache_ready libs hallocates s
    h.coherent h.stores fun k => (h.safe k).1
  exact ⟨_, hsetup, hready.isSetup, h.unchanged hc hpipelines hmodules rfl rfl rfl⟩

/-- And then the message can be processed, which delivers what is made of the first shot. -/
theorem Renders.processHeld (hdevelops : platform.Develops libs effect)
    (hreliable : platform.Reliable) (hclean : platform.Clean) (hshared : platform.SharesMemory)
    (hallocates : platform.Allocates) {s : ProcessState W} {service : ImageService}
    {message : Message} (h : Renders libs platform (s.putBack message) service)
    (htype : message.mtype = 1) (hsetup : s.config.isSetup = true) :
    ∃ batch' s', process platform libs message.batch s = .ok (batch', s') ∧
      Renders libs platform s' (service.step libs effect .processOne) := by
  obtain ⟨rest, hrest⟩ := h.queue_of_putBack
  have hqueue : (s.putBack message).queue = some (message :: rest) :=
    congrArg (Option.map (message :: ·)) hrest
  have hback : (s.putBack message).withQueue (some rest) = s := by
    rw [← hrest]
    rfl
  obtain ⟨batch', s', hprocess, -, hrenders⟩ := h.message hdevelops hreliable hclean hshared
    hallocates hqueue (takeMessage_cons htype rest) message.batch
  have hnothing : setupCache platform libs s = .ok s := by
    rw [setupCache, setupCacheIfNeeded, hsetup]
    rfl
  have hfull : message.mtext.length = sizeofImageBatch := by
    have hall := h.full
    rw [hqueue, Option.getD_some, (takeMessage_eq_some (takeMessage_cons htype rest)).1] at hall
    exact hall message List.mem_cons_self
  rw [hback, processMessage, hnothing] at hprocess
  dsimp only at hprocess
  rw [copyMessage_of_full message.batch hfull] at hprocess
  exact ⟨batch', s', hprocess, hrenders⟩

/-- A run for one message that is told to wait waits for one. -/
theorem Renders.processOne_waits (hallocates : platform.Allocates) {s : ProcessState W}
    {service : ImageService} (h : Renders libs platform s service) (hempty : s.waiting = [])
    (datarcv : ImageBatch) :
    Dipp.processOne platform libs true datarcv s = .error .waitsForMessage := by
  obtain ⟨c, hsetup, -⟩ := setupCache_ready libs hallocates s h.coherent h.stores
    fun k => (h.safe k).1
  obtain ⟨queue, hqueue⟩ := Option.isSome_iff_exists.mp h.queue
  have htake : takeMessage queue = none := by
    rw [waiting_of_queue hqueue, List.map_eq_nil_iff] at hempty
    exact takeMessage_of_receivable_nil hempty
  simp only [Dipp.processOne, hsetup, getMessageFromQueue, hqueue, htake, if_true]

/-- A run for one message does what the service does for one shot, or waits for one. -/
theorem Renders.processOne_or_waits (hdevelops : platform.Develops libs effect)
    (hreliable : platform.Reliable) (hclean : platform.Clean) (hshared : platform.SharesMemory)
    (hallocates : platform.Allocates) {s : ProcessState W} {service : ImageService}
    (h : Renders libs platform s service) (doWait : Bool) (datarcv : ImageBatch) :
    (Dipp.processOne platform libs doWait datarcv s = .error .waitsForMessage ∧ doWait = true ∧
        s.waiting = []) ∨
      ∃ s', Dipp.processOne platform libs doWait datarcv s = .ok s' ∧
        Renders libs platform s' (service.step libs effect .processOne) := by
  by_cases hwaits : doWait = true ∧ s.waiting = []
  · obtain ⟨rfl, hempty⟩ := hwaits
    exact .inl ⟨h.processOne_waits hallocates hempty datarcv, rfl, hempty⟩
  · exact .inr (h.processOne hdevelops hreliable hclean hshared hallocates datarcv
      fun hwait hempty => hwaits ⟨hwait, hempty⟩)

/-- A thread holds a batch from its receive on until the batch has been processed. -/
def ThreadPhase.Holds : ThreadPhase → Prop
  | .logBatchStarted | .logCacheRebuilt | .logBatchDone => True
  | _ => False

/-- The phase behind the next statement of a thread. -/
def ThreadPhase.next (received : Bool) : ThreadPhase → ThreadPhase
  | .notCreated => .notCreated
  | .readArgs mode => if mode.all then .receive else .processOne
  | .processOne => .store
  | .receive => if received then .logBatchStarted else .store
  | .logBatchStarted => .logCacheRebuilt
  | .logCacheRebuilt => .logBatchDone
  | .logBatchDone => .receive
  | .store => .clearParam
  | .clearParam => .logFinished
  | .logFinished => .flush
  | .flush => .destroy
  | .destroy | .ended => .ended

/-- What the next statement of a thread asks of the service. -/
def ThreadPhase.op : ThreadPhase → ServiceOp
  | .processOne | .logBatchDone => .processOne
  | _ => .idle

/-- A thread that holds a batch owns the run. -/
theorem ThreadPhase.Holds.owns {phase : ThreadPhase} (h : phase.Holds) : phase.Owns := by
  cases phase <;> trivial

/-- A thread that does not own the run will not hold a batch, and asks for nothing. -/
theorem ThreadPhase.next_of_not_owns {phase : ThreadPhase} (h : ¬ phase.Owns) (received : Bool) :
    ¬ (phase.next received).Holds ∧ phase.op = .idle := by
  cases phase with
  | notCreated | clearParam | logFinished | flush | destroy | ended => exact ⟨id, rfl⟩
  | _ => exact absurd trivial h

/-- The batch is that of a message which, put back into the queue, is the first shot. -/
def HoldsBatch (libs : Libraries) (platform : Platform W) (batch : ImageBatch) (s : ProcessState W)
    (service : ImageService) : Prop :=
  ∃ message, message.mtype = 1 ∧ batch = message.batch ∧
    Renders libs platform (s.putBack message) service

/-- At a point of a thread, the service is rendered by the state, with the batch that the thread
holds, and the cache is ready before it is processed. -/
def RendersAt (libs : Libraries) (platform : Platform W) (phase : ThreadPhase) (batch : ImageBatch)
    (s : ProcessState W) (service : ImageService) : Prop :=
  match phase with
  | .logBatchStarted | .logCacheRebuilt => HoldsBatch libs platform batch s service
  | .logBatchDone => s.config.isSetup = true ∧ HoldsBatch libs platform batch s service
  | _ => Renders libs platform s service

/-- Without a batch, the state alone renders the service. -/
theorem rendersAt_of_not_holds {phase : ThreadPhase} (h : ¬ phase.Holds) {batch : ImageBatch}
    {s : ProcessState W} {service : ImageService} :
    RendersAt libs platform phase batch s service ↔ Renders libs platform s service := by
  cases phase with
  | logBatchStarted | logCacheRebuilt | logBatchDone => exact absurd trivial h
  | _ => rfl

/-- The work of a thread does what its statement asks of the service, unless it waits for a
message. -/
theorem RendersAt.work (hdevelops : platform.Develops libs effect)
    (hreliable : platform.Reliable) (hclean : platform.Clean) (hshared : platform.SharesMemory)
    (hallocates : platform.Allocates) {phase : ThreadPhase} {batch : ImageBatch}
    {s : ProcessState W} {service : ImageService}
    (h : RendersAt libs platform phase batch s service) (mode : RunMode) :
    (threadWork platform libs mode phase batch s = .error .waitsForMessage ∧ mode.wait = true ∧
        s.waiting = []) ∨
      ∃ received batch' s', threadWork platform libs mode phase batch s =
          .ok (received, batch', s') ∧
        RendersAt libs platform (phase.next received) batch' s'
          (service.step libs effect phase.op) := by
  cases phase with
  | processOne =>
    rcases Renders.processOne_or_waits hdevelops hreliable hclean hshared hallocates h mode.wait
      batch with ⟨hwaits, htold, hempty⟩ | ⟨s', hprocess, hrenders⟩
    · exact .inl ⟨by rw [threadWork, hwaits]; rfl, htold, hempty⟩
    · exact .inr ⟨false, batch, s', by rw [threadWork, hprocess]; rfl, hrenders⟩
  | receive =>
    rcases Renders.receive h mode.wait batch with ⟨hwaits, htold, hempty⟩ |
      ⟨message, s', hreceive, htype, -, hrenders⟩ | ⟨s', hreceive, -, -, hrenders⟩
    · exact .inl ⟨by rw [threadWork, hwaits]; rfl, htold, hempty⟩
    · exact .inr ⟨true, message.batch, s', by rw [threadWork, hreceive]; rfl,
        message, htype, rfl, hrenders⟩
    · exact .inr ⟨false, batch, s', by rw [threadWork, hreceive]; rfl, hrenders⟩
  | logCacheRebuilt =>
    obtain ⟨message, htype, hbatch, hrenders⟩ := h
    obtain ⟨s', hsetup, hready, hrenders'⟩ := hrenders.setup hallocates
    exact .inr ⟨false, batch, s', by rw [threadWork, hsetup]; rfl,
      hready, message, htype, hbatch, hrenders'⟩
  | logBatchDone =>
    obtain ⟨hready, message, htype, rfl, hrenders⟩ := h
    obtain ⟨batch', s', hprocess, hrenders'⟩ := hrenders.processHeld hdevelops hreliable hclean
      hshared hallocates htype hready
    exact .inr ⟨false, batch', s', by rw [threadWork, hprocess]; rfl, hrenders'⟩
  | readArgs given =>
    refine .inr ⟨false, batch, s, rfl, (rendersAt_of_not_holds ?_).mpr h⟩
    rw [ThreadPhase.next]
    split <;> exact id
  | _ => exact .inr ⟨false, batch, s, rfl, h⟩

/-- The state after the arrival of a message. -/
def ProcessState.arrived (world : W) (message : Message) (s : ProcessState W) : ProcessState W :=
  { s with world := world, queue := s.queue.map (· ++ [message]) }

/-- What an arrival asks of the service, it does at every point of a thread, if it leaves the images
alone of the batches that wait and of the one that the thread holds. -/
theorem RendersAt.arrival (hdevelops : platform.Develops libs effect)
    (hreliable : platform.Reliable) (hclean : platform.Clean) (hshared : platform.SharesMemory)
    (hallocates : platform.Allocates) {phase : ThreadPhase} {batch : ImageBatch}
    {s : ProcessState W} {service : ImageService}
    (h : RendersAt libs platform phase batch s service) {world : W} {message : Message}
    {op : ServiceOp}
    (hmeans : ∀ t : ProcessState W, t.world = s.world →
      (∀ other ∈ t.waiting, other ∈ s.waiting ∨ phase.Holds ∧ other = batch) →
        ServiceEvent.Means libs platform t (.arrival world message) op) :
    RendersAt libs platform phase batch (s.arrived world message)
      (service.step libs effect op) := by
  have harrived (t : ProcessState W) (ht : Renders libs platform t service)
      (hsame : ServiceEvent.Means libs platform t (.arrival world message) op) :
      Renders libs platform (t.arrived world message) (service.step libs effect op) := by
    obtain ⟨t', hstep, hrenders⟩ := Renders.step hdevelops hreliable hclean hshared hallocates t
      service _ op ht hsame
    obtain rfl := Except.ok.inj hstep
    exact hrenders
  have hheld (hholds : phase.Holds) (hbatch : HoldsBatch libs platform batch s service) :
      HoldsBatch libs platform batch (s.arrived world message) (service.step libs effect op) := by
    obtain ⟨held, htype, rfl, hrenders⟩ := hbatch
    obtain ⟨rest, hrest⟩ := hrenders.queue_of_putBack
    have hback := harrived _ hrenders (hmeans _ rfl fun other hother => by
      rw [waiting_putBack hrest htype] at hother
      exact (List.mem_cons.mp hother).elim (fun heq => .inr ⟨hholds, heq⟩) .inl)
    have hsame : (s.putBack held).arrived world message =
        (s.arrived world message).putBack held := by
      simp only [ProcessState.putBack, ProcessState.withQueue, ProcessState.arrived, hrest,
        Option.map_some, List.cons_append]
    exact ⟨held, htype, rfl, hsame ▸ hback⟩
  cases phase with
  | logBatchStarted | logCacheRebuilt => exact hheld trivial h
  | logBatchDone => exact ⟨h.1, hheld trivial h.2⟩
  | _ => exact harrived s h (hmeans s rfl fun other hother => .inl hother)

variable {ι : Type*} [DecidableEq ι]

/-- A statement of a thread leads to its next phase. -/
theorem Statement.thread_eq {i : ι} {received : Bool} {shared shared' : Shared ι}
    {inv inv' : Invocation} (h : Statement i shared inv (.thread received) shared' inv') :
    inv'.thread = inv.thread.next received := by
  cases h <;> simp_all [ThreadPhase.next]

/-- Any other statement leaves the thread where it is, or creates it. -/
theorem Statement.thread_kept {i : ι} {action : ControlAction} {shared shared' : Shared ι}
    {inv inv' : Invocation} (h : Statement i shared inv action shared' inv')
    (hwf : inv.WellFormed) (haction : ∀ received, action ≠ .thread received) :
    inv'.thread = inv.thread ∨ ¬ inv.thread.Holds ∧ ¬ inv'.thread.Holds := by
  cases h with
  | threadCreated mode hphase =>
    have hthread := hwf.notCreated (by simp [hphase]) (by simp [hphase])
    exact .inr ⟨by rw [hthread]; exact id, id⟩
  | enterAll received | enterOne received | processOne received | logBatchStarted received
  | logCacheRebuilt received | logBatchDone received | store received | clearParam received
  | logFinished received | flush received | destroy received => exact absurd rfl (haction received)
  | received | drained => exact absurd rfl (haction _)
  | _ => exact .inl rfl

/-- What happens: a statement is executed, a definition is stored or the cache is given up, a
message arrives, or the process is restarted, with other uninitialised variables. -/
inductive SystemEvent (ι W : Type*) where
  | statement (event : RunServiceEvent ι)
  | command (command : Command)
  | arrival (world : W) (message : Message)
  | restart (batch : ι → ImageBatch)

variable (platform libs)

/-- Let it happen. -/
def systemStep (s : RunService ι W) : SystemEvent ι W → Except Unit (RunService ι W)
  | .statement event => runServiceStep platform libs s event
  | .command command =>
    match serviceStep libs platform s.process (.command command) with
    | .error _ => .error ()
    | .ok process => .ok { s with process := process }
  | .arrival world message => .ok { s with process := s.process.arrived world message }
  | .restart batch => .ok (.start s.process.restarted batch)

/-- A batch that was announced and not processed yet waits in the queue, or is held by a thread. -/
def RunService.Pending (s : RunService ι W) (batch : ImageBatch) : Prop :=
  batch ∈ s.process.waiting ∨
    ∃ i, (s.control.agent i).thread.Holds ∧ batch = s.batch i

/-- What an event asks of the service. Definitions are stored and the process is restarted between
two runs; a message for the thread comes from a camera that has put images into a segment of its
own, and what else happens in the world leaves the images of the pending batches alone. -/
inductive SystemEvent.Means (s : RunService ι W) : SystemEvent ι W → ServiceOp → Prop where
  | write (i : ι) (value : UInt8) : Means s (.statement (.write i value)) .idle
  | callback (i : ι) (succeeds : Bool) : Means s (.statement (.callback i succeeds)) .idle
  | thread (i : ι) (op : ServiceOp) (hop : op = (s.control.agent i).thread.op) :
      Means s (.statement (.thread i)) op
  | command (command : Command) (op : ServiceOp)
      (hbetween : s.control.shared.isProcessing = false)
      (hmeans : ServiceEvent.Means libs platform s.process (.command command) op) :
      Means s (.command command) op
  | shoot (world : W) (message : Message) (images : List CameraImage)
      (htype : message.mtype = 1) (hfull : message.mtext.length = sizeofImageBatch)
      (hpictures : Pictures platform libs world message.batch images)
      (hown : ∀ batch, s.Pending batch → batch.shmid ≠ message.batch.shmid)
      (hkept : ∀ batch, s.Pending batch → ∀ images,
        Pictures platform libs s.process.world batch images →
          Pictures platform libs world batch images) :
      Means s (.arrival world message) (.shoot ⟨message.batch.pipelineId, images⟩)
  | other (world : W) (message : Message) (htype : message.mtype ≠ 1)
      (hkept : ∀ batch, s.Pending batch → ∀ images,
        Pictures platform libs s.process.world batch images →
          Pictures platform libs world batch images) :
      Means s (.arrival world message) .idle
  | restart (batch : ι → ImageBatch) (hbetween : s.control.shared.isProcessing = false) :
      Means s (.restart batch) .idle

/-- The program renders the service: as the processing state while no thread holds a batch, and
otherwise at the point of the thread that does. -/
structure RunService.Rendering (s : RunService ι W) (service : ImageService) : Prop where
  disciplined : s.control.Disciplined
  free : (∀ i, ¬ (s.control.agent i).thread.Holds) → Renders libs platform s.process service
  held : ∀ i, (s.control.agent i).thread.Holds →
    RendersAt libs platform (s.control.agent i).thread (s.batch i) s.process service

variable {platform libs}

omit [DecidableEq ι] in
/-- It is rendered at the point of a thread that owns the run. -/
theorem RunService.Rendering.at_owner {s : RunService ι W} {service : ImageService}
    (hs : s.Rendering platform libs service) {i : ι} (howns : (s.control.agent i).thread.Owns) :
    RendersAt libs platform (s.control.agent i).thread (s.batch i) s.process service := by
  by_cases hholds : (s.control.agent i).thread.Holds
  · exact hs.held i hholds
  · refine (rendersAt_of_not_holds hholds).mpr (hs.free fun j hj => hholds ?_)
    rwa [← hs.disciplined.owned.unique j i (.inr hj.owns) (.inr howns)]

omit [DecidableEq ι] in
/-- Between two runs, nobody holds a batch. -/
theorem RunService.Rendering.between {s : RunService ι W} {service : ImageService}
    (hs : s.Rendering platform libs service) (hdown : s.control.shared.isProcessing = false) :
    (∀ i, ¬ (s.control.agent i).thread.Holds) ∧ Renders libs platform s.process service := by
  have hnobody (i : ι) : ¬ (s.control.agent i).thread.Holds := fun hholds =>
    hs.disciplined.owned.flag_eq_false_iff.mp hdown i (.inr hholds.owns)
  exact ⟨hnobody, hs.free hnobody⟩

omit [DecidableEq ι] in
/-- At any time, the ring holds the blocks of the images that were delivered. -/
theorem RunService.Rendering.ring {s : RunService ι W} {service : ImageService}
    (hs : s.Rendering platform libs service) :
    s.process.ring = service.delivered.map CameraImage.block ∧
      ∀ image ∈ service.delivered,
        image.Described libs.metadataUnpack ∧ image.block.length < 2 ^ 31 := by
  by_cases hholds : ∃ i, (s.control.agent i).thread.Holds
  · obtain ⟨i, hi⟩ := hholds
    have hheld := hs.held i hi
    obtain ⟨message, -, -, hrenders⟩ : HoldsBatch libs platform (s.batch i) s.process service := by
      cases hphase : (s.control.agent i).thread with
      | logBatchStarted | logCacheRebuilt =>
        rw [hphase] at hheld
        exact hheld
      | logBatchDone =>
        rw [hphase] at hheld
        exact hheld.2
      | _ =>
        rw [hphase] at hi
        exact hi.elim
    exact ⟨hrenders.ring, hrenders.described⟩
  · have hrenders := hs.free (not_exists.mp hholds)
    exact ⟨hrenders.ring, hrenders.described⟩

/-- A write or a statement of a callback asks for nothing. -/
theorem RunService.Rendering.callback {s : RunService ι W} {service : ImageService}
    (hs : s.Rendering platform libs service) {control : Control ι} {i : ι} {action : ControlAction}
    (h : Agents.step controlStep s.control (i, action) = .ok control)
    (haction : ∀ received, action ≠ .thread received) :
    RunService.Rendering platform libs { s with control := control } service := by
  obtain ⟨hlocal, hothers⟩ := Agents.step_eq_ok h
  have hkept := (controlStep_eq_some hlocal).thread_kept (hs.disciplined.wellFormed i) haction
  have hsame (j : ι) : (control.agent j).thread = (s.control.agent j).thread ∨
      ¬ (s.control.agent j).thread.Holds ∧ ¬ (control.agent j).thread.Holds := by
    by_cases hj : j = i
    · rw [hj]
      exact hkept
    · exact .inl (by rw [hothers j hj])
  refine ⟨hs.disciplined.step h, fun hnobody => hs.free fun j hj => ?_, fun j hj => ?_⟩
  · rcases hsame j with heq | ⟨hnone, -⟩
    · exact hnobody j (by rwa [heq])
    · exact hnone hj
  · rcases hsame j with heq | ⟨-, hnone⟩
    · dsimp only at hj ⊢
      rw [heq] at hj ⊢
      exact hs.held j hj
    · exact absurd hj hnone

/-- A statement of a thread that does not own the run asks for nothing. -/
theorem RunService.Rendering.thread_apart {s : RunService ι W} {service : ImageService}
    (hs : s.Rendering platform libs service) {control : Control ι} {i : ι} {received : Bool}
    {batch : ImageBatch} {process : ProcessState W}
    (hwork : threadWork platform libs (s.control.agent i).mode (s.control.agent i).thread
      (s.batch i) s.process = .ok (received, batch, process))
    (h : Agents.step controlStep s.control (i, .thread received) = .ok control)
    (howns : ¬ (s.control.agent i).thread.Owns) (served : List (ι × RunMode)) :
    RunService.Rendering platform libs
      ⟨control, process, Function.update s.batch i batch, served⟩ service := by
  obtain ⟨hlocal, hothers⟩ := Agents.step_eq_ok h
  have hnext := (controlStep_eq_some hlocal).thread_eq
  have hnone := (ThreadPhase.next_of_not_owns howns received).1
  rw [← hnext] at hnone
  obtain rfl := threadWork_of_not_inside hwork fun hinside => howns hinside.owns
  refine ⟨hs.disciplined.step h, fun hnobody => hs.free fun j hj => ?_, fun j hj => ?_⟩
  · by_cases hji : j = i
    · exact howns (hji ▸ hj.owns)
    · exact hnobody j (by rwa [hothers j hji])
  · by_cases hji : j = i
    · exact absurd (hji ▸ hj) hnone
    · dsimp only at hj ⊢
      rw [hothers j hji] at hj ⊢
      rw [Function.update_of_ne hji]
      exact hs.held j hj

/-- A statement of the owner does what it asks of the service. -/
theorem RunService.Rendering.thread_owner {s : RunService ι W} {service service' : ImageService}
    (hs : s.Rendering platform libs service) {control : Control ι} {i : ι} {received : Bool}
    {batch : ImageBatch} {process : ProcessState W}
    (hrenders : RendersAt libs platform ((s.control.agent i).thread.next received) batch process
      service')
    (h : Agents.step controlStep s.control (i, .thread received) = .ok control)
    (howns : (s.control.agent i).thread.Owns) (served : List (ι × RunMode)) :
    RunService.Rendering platform libs
      ⟨control, process, Function.update s.batch i batch, served⟩ service' := by
  obtain ⟨hlocal, hothers⟩ := Agents.step_eq_ok h
  have hnext := (controlStep_eq_some hlocal).thread_eq
  rw [← hnext] at hrenders
  refine ⟨hs.disciplined.step h, fun hnobody => ?_, fun j hj => ?_⟩
  · exact (rendersAt_of_not_holds (hnobody i)).mp hrenders
  · by_cases hji : j = i
    · subst hji
      dsimp only
      rwa [Function.update_self]
    · dsimp only at hj
      rw [hothers j hji] at hj
      exact absurd (hs.disciplined.owned.unique j i (.inr hj.owns) (.inr howns)) hji

/-- Every statement of a thread does what it asks of the service. -/
theorem RunService.Rendering.thread (hdevelops : platform.Develops libs effect)
    (hreliable : platform.Reliable) (hclean : platform.Clean) (hshared : platform.SharesMemory)
    (hallocates : platform.Allocates) {s s' : RunService ι W} {service : ImageService} {i : ι}
    (hs : s.Rendering platform libs service)
    (h : runServiceStep platform libs s (.thread i) = .ok s') :
    s'.Rendering platform libs (service.step libs effect (s.control.agent i).thread.op) := by
  obtain ⟨received, batch, process, control, hwork, hcontrol, rfl⟩ := runServiceStep_thread h
  by_cases howns : (s.control.agent i).thread.Owns
  · rcases (hs.at_owner howns).work hdevelops hreliable hclean hshared hallocates
      (s.control.agent i).mode with ⟨hwaits, -⟩ | ⟨_, _, _, hdone, hrenders⟩
    · rw [hwork] at hwaits
      contradiction
    · rw [hwork] at hdone
      obtain ⟨rfl, rfl, rfl⟩ := worked_inj hdone
      exact hs.thread_owner hrenders hcontrol howns _
  · rw [(ThreadPhase.next_of_not_owns howns received).2]
    exact hs.thread_apart hwork hcontrol howns _

omit [DecidableEq ι] in
/-- So does every arrival. -/
theorem RunService.Rendering.arrival (hdevelops : platform.Develops libs effect)
    (hreliable : platform.Reliable) (hclean : platform.Clean) (hshared : platform.SharesMemory)
    (hallocates : platform.Allocates) {s : RunService ι W} {service : ImageService}
    (hs : s.Rendering platform libs service) {world : W} {message : Message} {op : ServiceOp}
    (hmeans : ∀ t : ProcessState W, t.world = s.process.world →
      (∀ other ∈ t.waiting, s.Pending other) →
        ServiceEvent.Means libs platform t (.arrival world message) op) :
    RunService.Rendering platform libs { s with process := s.process.arrived world message }
      (service.step libs effect op) := by
  refine ⟨hs.disciplined, fun hnobody => ?_, fun i hi => ?_⟩
  · have hidle : RendersAt libs platform .ended ⟨0, 0, 0, 0, 0, 0⟩ s.process service :=
      hs.free hnobody
    exact hidle.arrival hdevelops hreliable hclean hshared hallocates fun t hworld hwaiting =>
      hmeans t hworld fun other hother => .inl ((hwaiting other hother).resolve_right (·.1))
  · exact (hs.held i hi).arrival hdevelops hreliable hclean hshared hallocates
      fun t hworld hwaiting => hmeans t hworld fun other hother =>
        (hwaiting other hother).imp_right fun hbatch => ⟨i, hbatch⟩

/-- Every event does what it asks of the service. -/
theorem RunService.Rendering.step (hdevelops : platform.Develops libs effect)
    (hreliable : platform.Reliable) (hclean : platform.Clean) (hshared : platform.SharesMemory)
    (hallocates : platform.Allocates) (s : RunService ι W) (service : ImageService)
    (event : SystemEvent ι W) (op : ServiceOp) (s' : RunService ι W)
    (hs : s.Rendering platform libs service)
    (hmeans : SystemEvent.Means platform libs s event op)
    (h : systemStep platform libs s event = .ok s') :
    s'.Rendering platform libs (service.step libs effect op) := by
  cases hmeans with
  | write i value =>
    rw [systemStep] at h
    obtain ⟨control, hcontrol, rfl⟩ := runServiceStep_write h
    exact hs.callback hcontrol fun _ => ControlAction.noConfusion
  | callback i succeeds =>
    rw [systemStep] at h
    obtain ⟨control, hcontrol, rfl⟩ := runServiceStep_callback h
    exact hs.callback hcontrol fun _ => ControlAction.noConfusion
  | thread i op hop =>
    rw [hop]
    exact hs.thread hdevelops hreliable hclean hshared hallocates h
  | command command op hbetween hcommand =>
    obtain ⟨hnobody, hrenders⟩ := hs.between hbetween
    obtain ⟨process, hstep, hrenders'⟩ := Renders.step hdevelops hreliable hclean hshared
      hallocates s.process service _ op hrenders hcommand
    rw [systemStep, hstep] at h
    obtain rfl := Except.ok.inj h
    exact ⟨hs.disciplined, fun _ => hrenders', fun i hi => absurd hi (hnobody i)⟩
  | shoot world message images htype hfull hpictures hown hkept =>
    obtain rfl := Except.ok.inj h
    refine hs.arrival hdevelops hreliable hclean hshared hallocates fun t hworld hwaiting => ?_
    exact .shoot world message images htype hfull hpictures
      (fun batch hbatch => hown batch (hwaiting batch hbatch))
      fun batch hbatch images hbefore =>
        hkept batch (hwaiting batch hbatch) images (hworld ▸ hbefore)
  | other world message htype hkept =>
    obtain rfl := Except.ok.inj h
    refine hs.arrival hdevelops hreliable hclean hshared hallocates fun t hworld hwaiting => ?_
    exact .other world message htype
      fun batch hbatch images hbefore =>
        hkept batch (hwaiting batch hbatch) images (hworld ▸ hbefore)
  | restart batch hbetween =>
    obtain rfl := Except.ok.inj h
    exact ⟨Control.boot_disciplined, fun _ => (hs.between hbetween).2.restarted,
      fun _ hi => hi.elim⟩

/-- So does every run, from a start on. -/
theorem RunService.Rendering.run (hdevelops : platform.Develops libs effect)
    (hreliable : platform.Reliable) (hclean : platform.Clean) (hshared : platform.SharesMemory)
    (hallocates : platform.Allocates) {events : List (SystemEvent ι W × ServiceOp)}
    {process : ProcessState W} {batch : ι → ImageBatch} {service : ImageService}
    (h : Renders libs platform process service)
    (hmeans : Execution.Along (fun s event => systemStep platform libs s event.1)
      (fun s event => event.1.Means platform libs s event.2) events (.start process batch))
    {s : RunService ι W}
    (hrun : Execution.run (systemStep platform libs) (events.map Prod.fst) (.start process batch) =
      .ok s) :
    s.Rendering platform libs
      ((events.map Prod.snd).foldl (ImageService.step libs effect) service) := by
  have hstart : (RunService.start process batch : RunService ι W).Rendering platform libs service :=
    ⟨Control.boot_disciplined, fun _ => h, fun _ hi => hi.elim⟩
  exact Execution.run_follows (fun s service => RunService.Rendering platform libs s service)
    (RunService.Rendering.step hdevelops hreliable hclean hshared hallocates) events _ s service
    hstart hmeans hrun

omit [DecidableEq ι] in
/-- No statement of a thread fails, except that one may wait for a message. -/
theorem RunService.Rendering.waits (hdevelops : platform.Develops libs effect)
    (hreliable : platform.Reliable) (hclean : platform.Clean) (hshared : platform.SharesMemory)
    (hallocates : platform.Allocates) {s : RunService ι W} {service : ImageService}
    (hs : s.Rendering platform libs service) {i : ι} {stop : Stop}
    (h : threadWork platform libs (s.control.agent i).mode (s.control.agent i).thread (s.batch i)
      s.process = .error stop) :
    stop = .waitsForMessage ∧ (s.control.agent i).mode.wait = true ∧ s.process.waiting = [] := by
  by_cases howns : (s.control.agent i).thread.Owns
  · rcases (hs.at_owner howns).work hdevelops hreliable hclean hshared hallocates
      (s.control.agent i).mode with ⟨hwaits, htold, hempty⟩ | ⟨_, _, _, hdone, -⟩
    · rw [hwaits] at h
      exact ⟨(Except.error.inj h).symm, htold, hempty⟩
    · rw [hdone] at h
      contradiction
  · cases hphase : (s.control.agent i).thread with
    | notCreated | clearParam | logFinished | flush | destroy | ended =>
      rw [hphase] at h
      contradiction
    | _ =>
      rw [hphase] at howns
      exact absurd trivial howns

/-- In every interleaving of run commands, their callbacks and threads, statement by statement, with
cameras that announce images at any time, and with definitions and restarts between the runs, while
system calls and allocations succeed, modules fail cleanly and the ring evicts nothing, the program
renders the image service, from the camera to the client: at any time the ring serves, by number,
the images that were delivered, and no other numbers; the work of no thread, apart from its log,
comes to a halt, unless it was told to wait and no shot waits; and whenever the flag is down,
nothing is lost or pending besides what the service says. -/
theorem commands_serve (hdevelops : platform.Develops libs effect)
    (hreliable : platform.Reliable) (hclean : platform.Clean) (hshared : platform.SharesMemory)
    (hallocates : platform.Allocates) (events : List (SystemEvent ι W × ServiceOp))
    (process : ProcessState W) (batch : ι → ImageBatch) (service last : ImageService)
    (h : Renders libs platform process service)
    (hmeans : Execution.Along (fun s event => systemStep platform libs s event.1)
      (fun s event => event.1.Means platform libs s event.2) events (.start process batch))
    (hlast : last = (events.map Prod.snd).foldl (ImageService.step libs effect) service)
    {s : RunService ι W}
    (hrun : Execution.run (systemStep platform libs) (events.map Prod.fst) (.start process batch) =
      .ok s) {R : Type*} (ring : RingDriver R) (empty : R) (unevicted : List (List UInt8) → Prop)
    (hkeeps : ring.Keeps empty unevicted)
    (hunevicted : unevicted (last.delivered.map CameraImage.block))
    (hcount : last.delivered.length < 2 ^ 16) :
    (∀ (n : ℕ) (hn : n < last.delivered.length),
        ServedImage ring libs.metadataUnpack (s.process.ring.foldl ring.write empty)
          (UInt16.ofNat n) last.delivered[n]) ∧
      (∀ index : UInt16, last.delivered.length ≤ index.toNat →
        NotServed ring (s.process.ring.foldl ring.write empty) libs.metadataUnpack index) ∧
      (∀ i stop, threadWork platform libs (s.control.agent i).mode (s.control.agent i).thread
        (s.batch i) s.process = .error stop →
          stop = .waitsForMessage ∧ (s.control.agent i).mode.wait = true ∧
            s.process.waiting = []) ∧
      (s.control.shared.isProcessing = false → Renders libs platform s.process last) := by
  have hend := RunService.Rendering.run hdevelops hreliable hclean hshared hallocates h hmeans hrun
  rw [← hlast] at hend
  obtain ⟨hring, hdescribed⟩ := hend.ring
  rw [hring]
  obtain ⟨hserved, hrefused⟩ := served_of_holds (hkeeps _ hunevicted) hdescribed hcount
  exact ⟨hserved, hrefused,
    fun i stop hstop => hend.waits hdevelops hreliable hclean hshared hallocates hstop,
    fun hdown => (hend.between hdown).2⟩

/-- The callback of a command for one message, up to the start of its thread. -/
def sampleCallback : List (SystemEvent Unit (Int32 → Film sampleUnpack) × ServiceOp) :=
  (.statement (.write () 1), .idle) :: List.replicate 6 (.statement (.callback () true), .idle)

/-- A pipeline is defined and the sample images are announced. The callback and the thread of the
command follow, up to the end of the processing. -/
def sampleCommands : List (SystemEvent Unit (Int32 → Film sampleUnpack) × ServiceOp) :=
  (.command (.writePipeline 0 (.ofStream (storedStream packedDefinition)) .ample),
      .define 0 ⟨[⟨[0x61], 1⟩]⟩) ::
    (.arrival sampleWorld (cameraMessage sampleImages 7 (List.replicate 16 0)),
      .shoot ⟨1, sampleImages⟩) ::
    (sampleCallback ++
      [(.statement (.thread ()), .idle), (.statement (.thread ()), .processOne)])

/-- The commands mean what they are paired with. -/
theorem sampleCommands_means :
    Execution.Along
      (fun s event => systemStep (darkroom sampleUnpack) darkroomLibraries s event.1)
      (fun s event => event.1.Means (darkroom sampleUnpack) darkroomLibraries s event.2)
      sampleCommands (.start sampleBoot fun _ => ⟨0, 0, 0, 0, 0, 0⟩) := by
  refine ⟨.command _ _ rfl (.define 0 _ _ _ CallEnv.ample_succeeds decodes_packedDefinition
    ((sampleState_stores []).2 0)), fun defined hdefined => ?_⟩
  obtain ⟨c, rfl⟩ : ∃ c, defined = .start { sampleBoot with config := c }
      fun _ => ⟨0, 0, 0, 0, 0, 0⟩ := by
    dsimp only [systemStep] at hdefined
    split at hdefined
    · contradiction
    · rename_i process hprocess
      obtain ⟨c, rfl⟩ := serviceStep_command hprocess
      exact ⟨c, (Except.ok.inj hdefined).symm⟩
  refine ⟨.shoot sampleWorld _ sampleImages rfl (by decide) (sampleWorld_pictures 7) ?_
    (fun _ _ _ h => h), fun arrived harrived => ?_⟩
  · rintro batch (hwaiting | ⟨i, hholds, -⟩)
    · contradiction
    · exact hholds.elim
  obtain rfl := Except.ok.inj harrived
  apply Execution.Along.append
  · refine .of_forall (fun event hevent s => ?_) _
    rcases List.mem_cons.mp hevent with rfl | hcallback
    · exact .write () 1
    · obtain rfl := List.eq_of_mem_replicate hcallback
      exact .callback () true
  · intro created hcreated
    obtain rfl := Except.ok.inj hcreated
    refine ⟨.thread () _ rfl, fun entered hentered => ?_⟩
    obtain rfl := Except.ok.inj hentered
    exact ⟨.thread () _ rfl, fun _ _ => trivial⟩

/-- The commands are executed to the end. -/
theorem sampleCommands_run :
    ∃ s, Execution.run (systemStep (darkroom sampleUnpack) darkroomLibraries)
      (sampleCommands.map Prod.fst) (.start sampleBoot fun _ => ⟨0, 0, 0, 0, 0, 0⟩) = .ok s := by
  have hdone : (Execution.run (systemStep (darkroom sampleUnpack) darkroomLibraries)
      (sampleCommands.map Prod.fst) (.start sampleBoot fun _ => ⟨0, 0, 0, 0, 0, 0⟩)).isOk =
        true := by decide +kernel
  cases hrun : Execution.run (systemStep (darkroom sampleUnpack) darkroomLibraries)
      (sampleCommands.map Prod.fst) (.start sampleBoot fun _ => ⟨0, 0, 0, 0, 0, 0⟩) with
  | error stop => rw [hrun] at hdone; contradiction
  | ok s => exact ⟨s, rfl⟩

/-- In the middle of this run, the second of the sample images is served. -/
theorem commands_serve_sample :
    ∃ s, Execution.run (systemStep (darkroom sampleUnpack) darkroomLibraries)
        (sampleCommands.map Prod.fst) (.start sampleBoot fun _ => ⟨0, 0, 0, 0, 0, 0⟩) = .ok s ∧
      ServedImage listRing sampleUnpack (s.process.ring.foldl listRing.write []) 0
        ⟨[0x08, 0x01], [0xff]⟩ ∧
      NotServed listRing (s.process.ring.foldl listRing.write []) sampleUnpack 1 := by
  have hdevelops : (darkroom darkroomLibraries.metadataUnpack).Develops darkroomLibraries
      discardFirst := darkroom_develops
  obtain ⟨hreliable, hclean, hshared, hallocates⟩ :=
    @darkroom_wellBehaved darkroomLibraries.metadataUnpack
  obtain ⟨s, hrun⟩ := sampleCommands_run
  obtain ⟨hserved, hrefused, -⟩ := commands_serve hdevelops hreliable hclean hshared hallocates
    sampleCommands sampleBoot _ _ _ sampleBoot_renders sampleCommands_means rfl hrun listRing [] _
    listRing_keeps (by decide) (by decide)
  exact ⟨s, hrun, hserved 0 (by decide), hrefused 1 (by decide)⟩

end Dipp
