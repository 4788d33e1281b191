import Dipp.Process.Contract

/-!
# Messages that are too long

A message whose text is longer than the structure makes `msgrcv` fail and stays where it
is, and the loop of `process_all` takes every failure for an empty queue. So a message
behind one that is too long is not reached, in this run or in any later one.
-/

namespace Dipp

variable {W : Type*} (platform : Platform W) (libs : Libraries)

/-- The text of the message fits into the structure. -/
def Message.Fits (message : Message) : Prop := message.mtext.length ≤ sizeofImageBatch

instance (message : Message) : Decidable message.Fits := inferInstanceAs (Decidable (_ ≤ _))

/-- Take the message from the queue and process it, as it should be done with every message that
fits. -/
def serveMessage (current : ImageBatch × ProcessState W) (message : Message) :
    Except Stop (ImageBatch × ProcessState W) :=
  match setupCache platform libs
      { current.2 with queue := current.2.queue.map (·.erase message) } with
  | .error stop => .error stop
  | .ok ready => process platform libs (copyMessage message current.1) ready

/-- No message that fits stands behind one that does not. -/
def OversizedLast (queue : List Message) : Prop :=
  queue.Pairwise fun first second => second.Fits → first.Fits

/-- The queue is served: all messages that fit are taken and processed in order, as if there were no
others, and the others are left. -/
def QueueServed (fuel : ℕ) (datarcv : ImageBatch) (s : ProcessState W) (queue : List Message) :
    Prop :=
  ∃ batch s', Execution.run (serveMessage platform libs) (queue.filter (·.Fits)) (datarcv, s) =
      .ok (batch, s') ∧
    processAll platform libs false fuel datarcv s =
      .ok (batch, s'.setErrorParam ErrorCode.msgqEmpty.value) ∧
    s'.queue = some (queue.filter (¬ ·.Fits))

variable {platform libs}

/-- Setting up the cache keeps the queue. -/
theorem setupCache_queue {s s' : ProcessState W} (h : setupCache platform libs s = .ok s') :
    s'.queue = s.queue := by
  unfold setupCache at h
  split at h
  · contradiction
  · obtain rfl := Except.ok.inj h
    rfl

/-- Serving the message at the head of the queue removes it. -/
theorem serveMessage_queue {current next : ImageBatch × ProcessState W} {message : Message}
    {rest : List Message} (hqueue : current.2.queue = some (message :: rest))
    (h : serveMessage platform libs current message = .ok next) : next.2.queue = some rest := by
  unfold serveMessage at h
  cases hsetup : setupCache platform libs
      { current.2 with queue := current.2.queue.map (·.erase message) } with
  | error stop => rw [hsetup] at h; contradiction
  | ok ready =>
    rw [hsetup] at h
    rw [process_queue platform libs h, setupCache_queue hsetup]
    simp [hqueue]

/-- A message at the head of the queue that fits is served, and the loop goes on. -/
theorem processAll_cons_of_fits (fuel : ℕ) (datarcv : ImageBatch) (s : ProcessState W)
    {message : Message} {rest : List Message} (hqueue : s.queue = some (message :: rest))
    (htype : message.mtype = 1) (hfits : message.Fits) :
    processAll platform libs false (fuel + 1) datarcv s =
      (serveMessage platform libs (datarcv, s) message).bind fun next =>
        processAll platform libs false fuel next.1 next.2 := by
  have htake : takeMessage (message :: rest) = some (message, rest) := by
    rw [takeMessage, if_pos htype]
  have hreceive : getMessageFromQueue false datarcv s =
      .ok ⟨.success, copyMessage message datarcv, { s with queue := some rest }⟩ := by
    simp only [getMessageFromQueue, hqueue, htake]
    exact if_pos hfits
  have hserved : { s with queue := s.queue.map (·.erase message) } =
      { s with queue := some rest } := by simp [hqueue]
  rw [processAll]
  simp only [hreceive, serveMessage, hserved]
  cases setupCache platform libs { s with queue := some rest } with
  | error stop => rfl
  | ok ready =>
    dsimp only
    cases process platform libs (copyMessage message datarcv) ready with
    | error stop => rfl
    | ok next => rfl

/-- A message at the head of the queue that does not fit ends the loop. -/
theorem processAll_cons_of_oversized (fuel : ℕ) (datarcv : ImageBatch) (s : ProcessState W)
    {message : Message} {rest : List Message} (hqueue : s.queue = some (message :: rest))
    (htype : message.mtype = 1) (hoversized : ¬ message.Fits) :
    processAll platform libs false (fuel + 1) datarcv s =
      .ok (datarcv, s.setErrorParam ErrorCode.msgqEmpty.value) := by
  have htake : takeMessage (message :: rest) = some (message, rest) := by
    rw [takeMessage, if_pos htype]
  have hreceive : getMessageFromQueue false datarcv s =
      .ok ⟨.failure, datarcv, s.setErrorParam ErrorCode.msgqEmpty.value⟩ := by
    simp only [getMessageFromQueue, hqueue, htake]
    exact if_neg hoversized
  rw [processAll]
  simp only [hreceive]

/-- So does an empty queue. -/
theorem processAll_nil (fuel : ℕ) (datarcv : ImageBatch) (s : ProcessState W)
    (hqueue : s.queue = some []) :
    processAll platform libs false (fuel + 1) datarcv s =
      .ok (datarcv, s.setErrorParam ErrorCode.msgqEmpty.value) := by
  have hreceive : getMessageFromQueue false datarcv s =
      .ok ⟨.failure, datarcv, s.setErrorParam ErrorCode.msgqEmpty.value⟩ := by
    simp [getMessageFromQueue, hqueue, takeMessage]
  rw [processAll]
  simp only [hreceive]

/-- In front of other messages, one that fits changes nothing about their order. -/
theorem oversizedLast_cons_of_fits {message : Message} {rest : List Message}
    (hfits : message.Fits) : OversizedLast (message :: rest) ↔ OversizedLast rest :=
  List.pairwise_cons.trans (and_iff_right fun _ _ _ => hfits)

/-- Behind one that does not fit, no message may fit. -/
theorem oversizedLast_cons_of_oversized {message : Message} {rest : List Message}
    (hoversized : ¬ message.Fits) :
    OversizedLast (message :: rest) ↔ ∀ later ∈ rest, ¬ later.Fits := by
  rw [OversizedLast, List.pairwise_cons]
  constructor
  · intro h later hlater hfits
    exact hoversized (h.1 later hlater hfits)
  · intro h
    refine ⟨fun later hlater hfits => absurd hfits (h later hlater), ?_⟩
    exact List.Pairwise.imp_of_mem (fun _ hsecond _ hfits => absurd hfits (h _ hsecond))
      (List.pairwise_of_forall fun _ _ => trivial)

/-- Serving the head of the queue leaves the rest of the queue to be served. -/
theorem queueServed_cons_of_fits (fuel : ℕ) {datarcv : ImageBatch} {s : ProcessState W}
    {message : Message} {rest : List Message} (hqueue : s.queue = some (message :: rest))
    (htype : message.mtype = 1) (hfits : message.Fits) {next : ImageBatch × ProcessState W}
    (hserve : serveMessage platform libs (datarcv, s) message = .ok next) :
    QueueServed platform libs (fuel + 1) datarcv s (message :: rest) ↔
      QueueServed platform libs fuel next.1 next.2 rest := by
  have hfitting : (message :: rest).filter (·.Fits) = message :: rest.filter (·.Fits) := by
    simp [hfits]
  have hoversized : (message :: rest).filter (¬ ·.Fits) = rest.filter (¬ ·.Fits) := by
    simp [hfits]
  rw [QueueServed, QueueServed, hfitting, hoversized, Execution.run_cons_ok _ hserve,
    processAll_cons_of_fits fuel datarcv s hqueue htype hfits, hserve]
  rfl

/-- Reporting an error keeps the queue. -/
@[simp] theorem ProcessState.setErrorParam_queue (code : UInt32) (s : ProcessState W) :
    (s.setErrorParam code).queue = s.queue := rfl

/-- Behind a message that is too long, the queue is served exactly if there is nothing to serve. -/
theorem queueServed_cons_of_oversized (fuel : ℕ) {datarcv : ImageBatch} {s : ProcessState W}
    {message : Message} {rest : List Message} (hqueue : s.queue = some (message :: rest))
    (htype : message.mtype = 1) (hoversized : ¬ message.Fits) :
    QueueServed platform libs (fuel + 1) datarcv s (message :: rest) ↔
      ∀ later ∈ rest, ¬ later.Fits := by
  rw [QueueServed, processAll_cons_of_oversized fuel datarcv s hqueue htype hoversized]
  constructor
  · rintro ⟨batch, s', -, hall, hleft⟩
    have hsame := congrArg (fun result => result.2.queue) (Except.ok.inj hall)
    simp only [ProcessState.setErrorParam_queue] at hsame
    rw [← hsame, hqueue] at hleft
    have hrest := Option.some.inj hleft
    intro later hlater
    have hmem : later ∈ (message :: rest).filter (¬ ·.Fits) := by
      rw [← hrest]
      exact List.mem_cons_of_mem _ hlater
    simpa using (List.mem_filter.mp hmem).2
  · intro hnone
    have hfitting : (message :: rest).filter (·.Fits) = [] := by
      simpa [List.filter_eq_nil_iff, hoversized] using hnone
    have hleft : (message :: rest).filter (¬ ·.Fits) = message :: rest := by
      simpa [List.filter_eq_self, hoversized] using hnone
    refine ⟨datarcv, s, ?_, rfl, ?_⟩
    · rw [hfitting]
      rfl
    · rw [hleft, hqueue]

/-- The queue is served exactly if no message that fits stands behind one that is too long, and
processing those that fit, one after the other, goes through. -/
theorem queueServed_iff (fuel : ℕ) (datarcv : ImageBatch) (s : ProcessState W)
    (queue : List Message) (hqueue : s.queue = some queue) (hfuel : queue.length < fuel)
    (htype : ∀ message ∈ queue, message.mtype = 1) :
    QueueServed platform libs fuel datarcv s queue ↔ OversizedLast queue ∧
      ∃ last, Execution.run (serveMessage platform libs) (queue.filter (·.Fits)) (datarcv, s) =
        .ok last := by
  induction queue generalizing fuel datarcv s with
  | nil =>
    obtain ⟨fuel, rfl⟩ := Nat.exists_eq_succ_of_ne_zero (Nat.ne_zero_of_lt hfuel)
    exact iff_of_true ⟨datarcv, s, rfl, processAll_nil fuel datarcv s hqueue, hqueue⟩
      ⟨.nil, _, rfl⟩
  | cons message rest ih =>
    obtain ⟨fuel, rfl⟩ := Nat.exists_eq_succ_of_ne_zero (Nat.ne_zero_of_lt hfuel)
    have hhead := htype message List.mem_cons_self
    by_cases hfits : message.Fits
    · have hfitting : (message :: rest).filter (·.Fits) = message :: rest.filter (·.Fits) := by
        simp [hfits]
      rw [oversizedLast_cons_of_fits hfits, hfitting]
      cases hserve : serveMessage platform libs (datarcv, s) message with
      | error stop =>
        have hrun : Execution.run (serveMessage platform libs) (message :: rest.filter (·.Fits))
            (datarcv, s) = .error stop := by rw [Execution.run_cons, hserve]; rfl
        refine iff_of_false ?_ ?_
        · rintro ⟨batch, s', hserved, -⟩
          rw [hfitting, hrun] at hserved
          contradiction
        · rintro ⟨-, last, hlast⟩
          rw [hrun] at hlast
          contradiction
      | ok next =>
        rw [queueServed_cons_of_fits fuel hqueue hhead hfits hserve,
          ih fuel next.1 next.2 (serveMessage_queue hqueue hserve) (Nat.lt_of_succ_lt_succ hfuel)
            fun later hlater => htype later (List.mem_cons_of_mem _ hlater),
          Execution.run_cons_ok _ hserve]
    · rw [queueServed_cons_of_oversized fuel hqueue hhead hfits,
        oversizedLast_cons_of_oversized hfits]
      refine ⟨fun hnone => ⟨hnone, (datarcv, s), ?_⟩, fun h => h.1⟩
      have hfitting : (message :: rest).filter (·.Fits) = [] := by
        simpa [List.filter_eq_nil_iff, hfits] using hnone
      rw [hfitting]
      rfl

/-- A message that is one byte too long. -/
def oversizedMessage : Message := ⟨1, List.replicate 33 0⟩

/-- The sample thread with its cache set up, in which no pipeline has the id that is asked for. -/
def sampleReady (queue : List Message) : ProcessState Unit :=
  { sampleState queue with config := { (sampleState queue).config with isSetup := true } }

/-- Serving the sample message alone goes through, whatever the queue is. -/
theorem run_sampleMessage (queue : List Message) : ∃ last,
    Execution.run (serveMessage samplePlatform definitionLibraries) [sampleMessage 1 7]
      (⟨0, 0, 0, 0, 0, 0⟩, sampleReady queue) = .ok last := ⟨_, rfl⟩

/-- In front of a message that is too long, the sample message is served. -/
theorem queueServed_iff_sample :
    QueueServed samplePlatform definitionLibraries 3 ⟨0, 0, 0, 0, 0, 0⟩
      (sampleReady [sampleMessage 1 7, oversizedMessage]) [sampleMessage 1 7, oversizedMessage] :=
  (queueServed_iff 3 _ _ _ rfl (by decide) (by decide)).mpr
    ⟨by simp [OversizedLast, oversizedMessage, Message.Fits, sizeofImageBatch],
      run_sampleMessage _⟩

/-- Behind one, it is not. -/
theorem queue_not_always_served :
    ¬ ∀ (s : ProcessState Unit) (queue : List Message), s.queue = some queue →
        (∀ message ∈ queue, message.mtype = 1) →
        (∃ last, Execution.run (serveMessage samplePlatform definitionLibraries)
          (queue.filter (·.Fits)) (⟨0, 0, 0, 0, 0, 0⟩, s) = .ok last) →
        QueueServed samplePlatform definitionLibraries (queue.length + 1) ⟨0, 0, 0, 0, 0, 0⟩ s
          queue := by
  intro h
  have hserved := h (sampleReady [oversizedMessage, sampleMessage 1 7]) _ rfl (by decide)
    (run_sampleMessage _)
  rw [queueServed_cons_of_oversized _ rfl rfl (by decide)] at hserved
  exact hserved _ (List.mem_singleton_self _) (by decide)

end Dipp
