import Dipp.Process.Senders

/-!
# All messages at once, or one after the other

`process_one` sets up the cache, receives and processes; `process_all` receives, sets up
the cache and processes, and goes on with the batch variable that the last message left.
Neither difference shows: the cache is set up the same way before and after a message is
taken, and a message of full size overwrites the variable. So a run over a queue of such
messages does what as many single runs do, and then finds that there is no further one.
-/

namespace Dipp

variable {W : Type*} {platform : Platform W} {libs : Libraries}

/-- A single run takes the first message and processes it. -/
theorem processOne_of_fits (doWait : Bool) (datarcv : ImageBatch) {s : ProcessState W}
    {queue rest : List Message} {message : Message} (hqueue : s.queue = some queue)
    (htake : takeMessage queue = some (message, rest)) (hfits : message.Fits) :
    processOne platform libs doWait datarcv s =
      (processMessage platform libs message (datarcv, s.withQueue (some rest))).map Prod.snd := by
  simp only [processOne, processMessage, setupCache_withQueue]
  cases hsetup : setupCache platform libs s with
  | error stop => rfl
  | ok ready =>
    have hready : ready.queue = some queue := (setupCache_queue hsetup).trans hqueue
    simp only [Except.map, getMessageFromQueue_of_fits doWait datarcv hready htake hfits]
    cases process platform libs (copyMessage message datarcv) (ready.withQueue (some rest)) <;> rfl

/-- What a full-size message is processed as does not depend on the batch variable. -/
theorem processMessage_of_full {message : Message}
    (hfull : message.mtext.length = sizeofImageBatch) (datarcv datarcv' : ImageBatch)
    (s : ProcessState W) :
    processMessage platform libs message (datarcv, s) =
      processMessage platform libs message (datarcv', s) := by
  simp only [processMessage, copyMessage_of_full _ hfull]

/-- What a receive leaves does not depend on it either. -/
theorem getMessageFromQueue_state (doWait : Bool) (datarcv datarcv' : ImageBatch)
    (s : ProcessState W) :
    (getMessageFromQueue doWait datarcv s).map Outcome.state =
      (getMessageFromQueue doWait datarcv' s).map Outcome.state := by
  unfold getMessageFromQueue
  cases s.queue with
  | none => rfl
  | some queue =>
    dsimp only
    cases takeMessage queue with
    | none => cases doWait <;> rfl
    | some taken =>
      obtain ⟨message, rest⟩ := taken
      dsimp only
      split <;> rfl

/-- Without a message of type 1, `process_all` does no more than look for one. -/
theorem processAll_of_none (doWait : Bool) (fuel : ℕ) (datarcv : ImageBatch) {s : ProcessState W}
    {queue : List Message} (hqueue : s.queue = some queue) (htake : takeMessage queue = none) :
    (processAll platform libs doWait (fuel + 1) datarcv s).map Prod.snd =
      (getMessageFromQueue doWait datarcv s).map Outcome.state := by
  simp only [processAll, getMessageFromQueue, hqueue, htake]
  cases doWait <;> rfl

variable (platform libs)

/-- Over a queue whose messages of type 1 have full size, `process_all` comes to the state that as
many calls of `process_one` come to, whatever is left over in their batch variables, followed by a
receive that finds no message. -/
theorem processAll_eq_processOnes (doWait : Bool) (queue : List Message)
    (hfull : ∀ message ∈ receivable queue, message.mtext.length = sizeofImageBatch) (fuel : ℕ)
    (hfuel : (receivable queue).length < fuel) (leftovers : List ImageBatch)
    (hleftovers : leftovers.length = (receivable queue).length) (datarcv : ImageBatch)
    (s : ProcessState W) (hqueue : s.queue = some queue) :
    (processAll platform libs doWait fuel datarcv s).map Prod.snd =
      (Execution.run (fun s leftover => processOne platform libs doWait leftover s) leftovers
        s).bind fun middle => (getMessageFromQueue doWait datarcv middle).map Outcome.state := by
  induction leftovers generalizing queue fuel datarcv s with
  | nil =>
    obtain ⟨n, rfl⟩ : ∃ n, fuel = n + 1 := ⟨fuel - 1, by omega⟩
    cases htake : takeMessage queue with
    | none => exact processAll_of_none doWait n datarcv hqueue htake
    | some taken =>
      obtain ⟨hreceivable, -⟩ := takeMessage_eq_some htake
      rw [hreceivable] at hleftovers
      contradiction
  | cons leftover rest ih =>
    obtain ⟨n, rfl⟩ : ∃ n, fuel = n + 1 := ⟨fuel - 1, by omega⟩
    cases htake : takeMessage queue with
    | none =>
      obtain ⟨hnone, -⟩ := takeMessage_eq_none htake
      rw [hnone] at hleftovers
      contradiction
    | some taken =>
      obtain ⟨message, left⟩ := taken
      obtain ⟨hreceivable, -⟩ := takeMessage_eq_some htake
      rw [hreceivable] at hfull hfuel hleftovers
      have hmessage := hfull message List.mem_cons_self
      have hfits : message.Fits := hmessage.le
      rw [processAll_of_fits hqueue htake hfits, Execution.run_cons,
        processOne_of_fits doWait leftover hqueue htake hfits,
        processMessage_of_full hmessage leftover datarcv]
      cases hprocessed : processMessage platform libs message
          (datarcv, s.withQueue (some left)) with
      | error stop => rfl
      | ok next =>
        have hnext : next.2.queue = some left := processMessage_queue platform libs hprocessed
        have hrest := ih left (fun later hlater => hfull later (List.mem_cons_of_mem _ hlater)) n
          (by simpa using hfuel) (by simpa using hleftovers) next.1 next.2 hnext
        simp only [getMessageFromQueue_state doWait next.1 datarcv] at hrest
        exact hrest

/-- Two messages are processed by one call for all or by two calls for one each. -/
theorem processAll_eq_processOnes_two :
    (processAll samplePlatform definitionLibraries false 3 ⟨0, 0, 0, 0, 0, 0⟩
        (sampleState [sampleMessage 1 7, sampleMessage 1 8])).map Prod.snd =
      (Execution.run (fun s leftover => processOne samplePlatform definitionLibraries false
        leftover s) [⟨1, 1, 1, 1, 1, 1⟩, ⟨2, 2, 2, 2, 2, 2⟩]
        (sampleState [sampleMessage 1 7, sampleMessage 1 8])).bind
        fun middle => (getMessageFromQueue false ⟨0, 0, 0, 0, 0, 0⟩ middle).map Outcome.state :=
  processAll_eq_processOnes samplePlatform definitionLibraries false
    [sampleMessage 1 7, sampleMessage 1 8] (by decide) 3 (by decide)
    [⟨1, 1, 1, 1, 1, 1⟩, ⟨2, 2, 2, 2, 2, 2⟩] rfl ⟨0, 0, 0, 0, 0, 0⟩ _ rfl

end Dipp
