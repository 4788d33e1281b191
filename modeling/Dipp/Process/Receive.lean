import Dipp.Process.Contract

/-!
# What a received batch depends on

`msgrcv` reports the length of the text, which does not count the type in front of it, and
as many bytes are copied into the batch variable, but from the type on. The last eight
bytes of a text never arrive, and a text shorter than the structure leaves part of the
variable as it was: uninitialised in `process_one`, and filled by the message before in
`process_all`. A text of the size of the structure determines the whole batch.
-/

namespace Dipp

open LittleEndian

/-- The four numbers of a batch. -/
def ImageBatch.ints (batch : ImageBatch) : List Int32 :=
  [batch.numImages, batch.batchSize, batch.shmid, batch.pipelineId]

/-- The four numbers at the head of a text. -/
def Message.ints (message : Message) : List Int32 :=
  [intAt 0 message.mtext, intAt 4 message.mtext, intAt 8 message.mtext, intAt 12 message.mtext]

/-- The size of the four numbers. -/
def sizeofInts : ℕ := 16

variable {W : Type*} (platform : Platform W) (libs : Libraries)

/-- The messages that the loop of `process_all` receives, each with the batch that it becomes. -/
def receivedBatches (doWait : Bool) : (fuel : ℕ) → (datarcv : ImageBatch) → ProcessState W →
    List (Message × ImageBatch)
  | 0, _, _ => []
  | fuel + 1, datarcv, s =>
    match s.queue.bind takeMessage, getMessageFromQueue doWait datarcv s with
    | some (message, _), .ok ⟨.success, batch, received⟩ =>
      (message, batch) ::
        match setupCache platform libs received with
        | .error _ => []
        | .ok ready =>
          match process platform libs batch ready with
          | .error _ => []
          | .ok (batch', s') => receivedBatches doWait fuel batch' s'
    | _, _ => []

/-- Receiving a message copies it, if it fits. -/
theorem getMessageFromQueue_success {doWait : Bool} {datarcv batch : ImageBatch}
    {s received : ProcessState W}
    (h : getMessageFromQueue doWait datarcv s = .ok ⟨.success, batch, received⟩) :
    ∃ queue message rest, s.queue = some queue ∧ takeMessage queue = some (message, rest) ∧
      message.mtext.length ≤ sizeofImageBatch ∧ batch = copyMessage message datarcv ∧
      received = { s with queue := some rest } := by
  unfold getMessageFromQueue at h
  cases hqueue : s.queue with
  | none => simp [hqueue] at h
  | some queue =>
    simp only [hqueue] at h
    cases htake : takeMessage queue with
    | none => cases doWait <;> simp [htake] at h
    | some taken =>
      obtain ⟨message, rest⟩ := taken
      simp only [htake] at h
      by_cases hfits : message.mtext.length ≤ sizeofImageBatch
      · simp only [if_pos hfits, Except.ok.injEq, Outcome.mk.injEq] at h
        exact ⟨queue, message, rest, rfl, htake, hfits, h.2.1.symm, h.2.2.symm⟩
      · simp [if_neg hfits] at h

/-- Every received batch is a copy of a fitting message over what was in the variable. -/
theorem receivedBatches_copies (doWait : Bool) (fuel : ℕ) (datarcv : ImageBatch)
    (s : ProcessState W) : ∀ taken ∈ receivedBatches platform libs doWait fuel datarcv s,
      taken.1.mtext.length ≤ sizeofImageBatch ∧
        ∃ earlier, taken.2 = copyMessage taken.1 earlier := by
  induction fuel generalizing datarcv s with
  | zero => simp [receivedBatches]
  | succ fuel ih =>
    rw [receivedBatches]
    split
    · rename_i message rest batch received htake hreceive
      obtain ⟨queue, other, rest', hqueue, htake', hfits, rfl, -⟩ :=
        getMessageFromQueue_success hreceive
      rw [hqueue, Option.bind_some, htake'] at htake
      obtain ⟨rfl, -⟩ := Prod.mk.inj (Option.some.inj htake)
      intro taken htaken
      rcases List.mem_cons.mp htaken with rfl | htaken
      · exact ⟨hfits, datarcv, rfl⟩
      · split at htaken
        · contradiction
        · split at htaken
          · contradiction
          · exact ih _ _ taken htaken
    · simp

/-- An `int` at an offset that was copied is the sender's. -/
theorem intAt_take_append (bytes tail : List UInt8) {offset n : ℕ} (hoffset : offset + 4 ≤ n)
    (hn : n ≤ bytes.length) : intAt offset (bytes.take n ++ tail) = intAt offset bytes := by
  rw [intAt, take_drop_take_append bytes tail n offset 4 hoffset hn, intAt]

/-- From 24 bytes of text on, the four numbers are those of the message. -/
theorem copyMessage_ints (message : Message) (datarcv : ImageBatch)
    (hlength : 24 ≤ message.mtext.length) : (copyMessage message datarcv).ints = message.ints := by
  have hbytes : message.mtext.length ≤
      (encode 8 message.mtype.toUInt64.toNat ++ message.mtext).length := by simp
  have hint (offset : ℕ) (hoffset : offset + 12 ≤ 24) (tail : List UInt8) :
      intAt (8 + offset) ((encode 8 message.mtype.toUInt64.toNat ++ message.mtext).take
        message.mtext.length ++ tail) = intAt offset message.mtext := by
    rw [intAt_take_append _ _ (by omega) hbytes]
    exact length_encode 8 message.mtype.toUInt64.toNat ▸ intAt_append _ _ offset
  simp only [ImageBatch.ints, Message.ints, copyMessage, ImageBatch.ofBytes]
  rw [hint 0 (by omega), hint 4 (by omega), hint 8 (by omega), hint 12 (by omega)]

/-- A batch variable in which only the last byte may differ from zero. -/
def lastByte (high : Bool) : ImageBatch := ⟨0, 0, 0, 0, 0, if high then 0x0100000000000000 else 0⟩

/-- Below the size of the structure, the last byte of the variable is left over. -/
theorem copyMessage_lastByte (message : Message)
    (hlength : message.mtext.length < sizeofImageBatch) :
    ∃ low < 2 ^ 56, ∀ high, (copyMessage message (lastByte high)).data =
      UInt64.ofNat (low + 2 ^ 56 * if high then 1 else 0) := by
  rw [sizeofImageBatch] at hlength
  let copied := (encode 8 message.mtype.toUInt64.toNat ++ message.mtext).take
    message.mtext.length ++ List.replicate (31 - message.mtext.length) 0
  have hcopied : copied.length = 31 := by
    simp [copied]
    omega
  have hupper : (copied.drop 24).length = 7 := by rw [List.length_drop, hcopied]
  refine ⟨decode (copied.drop 24), ?_, fun high => ?_⟩
  · have hbound := decode_lt (copied.drop 24)
    rwa [hupper] at hbound
  · have hbytes : (lastByte high).toBytes =
        List.replicate 31 0 ++ [if high then 1 else 0] := by cases high <;> rfl
    have hall : (encode 8 message.mtype.toUInt64.toNat ++ message.mtext).take
        message.mtext.length ++ (lastByte high).toBytes.drop message.mtext.length =
          copied ++ [if high then 1 else 0] := by
      rw [hbytes, List.drop_append_of_le_length (by rw [List.length_replicate]; omega),
        List.drop_replicate, ← List.append_assoc]
    have hdata : ((copied ++ [if high then (1 : UInt8) else 0]).drop 24).take 8 =
        copied.drop 24 ++ [if high then 1 else 0] := by
      rw [List.drop_append_of_le_length (by omega), List.take_of_length_le (by simp [hcopied])]
    simp only [copyMessage, ImageBatch.ofBytes, hall, hdata, decode_append, hupper]
    cases high <;> rfl

/-- A batch that does not depend on what was in the variable is copied from a full text. -/
theorem full_of_determined (message : Message) (batch : ImageBatch)
    (h : ∀ datarcv, copyMessage message datarcv = batch) :
    sizeofImageBatch ≤ message.mtext.length := by
  by_contra hlength
  obtain ⟨low, hlow, hdata⟩ := copyMessage_lastByte message (Nat.lt_of_not_le hlength)
  have hsame : (copyMessage message (lastByte false)).data =
      (copyMessage message (lastByte true)).data := by rw [h, h]
  rw [hdata, hdata] at hsame
  have hnumbers := congrArg UInt64.toNat hsame
  simp only [UInt64.toNat_ofNat'] at hnumbers
  simp at hnumbers
  omega

/-- The message is received as one and the same batch in every run from the state over any queue,
with the four numbers of its text; without four numbers it is never received. -/
def Message.Determines (s : ProcessState W) (message : Message) : Prop :=
  ∃ batch : ImageBatch, (sizeofInts ≤ message.mtext.length → batch.ints = message.ints) ∧
    ∀ (doWait : Bool) (fuel : ℕ) (datarcv : ImageBatch) (queue : List Message),
      ∀ taken ∈ receivedBatches platform libs doWait fuel datarcv { s with queue := some queue },
        taken.1 = message → sizeofInts ≤ message.mtext.length ∧ taken.2 = batch

/-- A message of type 1 that determines its batch has a full text: it may be the only one in the
queue, and the variable may contain anything. -/
theorem Message.Determines.full {s : ProcessState W} {message : Message}
    (h : message.Determines platform libs s) (htype : message.mtype = 1) :
    sizeofImageBatch ≤ message.mtext.length := by
  obtain ⟨batch, -, hdetermined⟩ := h
  by_contra hshort
  have hfits : message.mtext.length ≤ sizeofImageBatch := by omega
  refine hshort (full_of_determined message batch fun datarcv => ?_)
  have htaken : (message, copyMessage message datarcv) ∈ receivedBatches platform libs false 1
      datarcv { s with queue := some [message] } := by
    simp [receivedBatches, getMessageFromQueue, takeMessage, htype, hfits]
  exact (hdetermined false 1 datarcv [message] _ htaken rfl).2

/-- A message of type 1 is received into a batch that it determines exactly if its text is as long
as the structure, or longer, so that it is not received at all. -/
theorem received_determined_iff (s : ProcessState W) (message : Message)
    (htype : message.mtype = 1) :
    message.Determines platform libs s ↔ sizeofImageBatch ≤ message.mtext.length := by
  constructor
  · intro hdetermines
    exact hdetermines.full platform libs htype
  · intro hfull
    refine ⟨copyMessage message (lastByte false), fun _ => ?_, ?_⟩
    · exact copyMessage_ints message _ (by rw [sizeofImageBatch] at hfull; omega)
    · intro doWait fuel datarcv queue taken htaken hmessage
      obtain ⟨hfits, earlier, hcopy⟩ :=
        receivedBatches_copies platform libs doWait fuel datarcv _ taken htaken
      rw [hmessage] at hfits hcopy
      have hexact := Nat.le_antisymm hfits hfull
      refine ⟨by rw [hexact]; decide, ?_⟩
      rw [hcopy, copyMessage_of_full _ hexact, copyMessage_of_full _ hexact]

/-- A message of full size determines its batch. -/
theorem received_determined_iff_sample :
    (sampleMessage 1 7).Determines samplePlatform definitionLibraries (sampleState []) :=
  (received_determined_iff samplePlatform definitionLibraries (sampleState []) _ rfl).mpr
    (by decide)

/-- A text of just the four numbers does not determine its batch: two of them never arrive. -/
theorem received_not_always_determined :
    ¬ ∀ (s : ProcessState Unit) (message : Message), message.mtype = 1 →
        message.Determines samplePlatform definitionLibraries s := by
  intro h
  have hdetermines := h (sampleState []) ⟨1, List.replicate 16 0⟩ rfl
  exact absurd (hdetermines.full samplePlatform definitionLibraries rfl) (by decide)

end Dipp
