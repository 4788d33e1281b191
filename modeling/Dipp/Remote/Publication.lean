import Dipp.Remote.Ring

/-!
# What a reader of the remote ring can find

An upload changes the ring in four steps, any of which may fail or be the last one so far
when a reader looks: the head, the tail, the list entry, and the bytes of the image. The
head comes first. From the empty buffer on, the first push of a head that takes effect
publishes a slot with neither a list entry nor an image, and if a later step fails, it stays
published. So the ring is consistent at every point exactly if nothing is ever published.
-/

namespace Dipp.Remote

/-- The list entry and the bytes of the image in a slot were completely written. -/
def Ring.Complete (ring : Ring) (slot : Fin bufferListSize) : Prop :=
  ring.described slot = true ∧ (ring.stored slot).isSome = true
  deriving Decidable

/-- Every published slot is complete. -/
def Ring.Consistent (ring : Ring) : Prop := ∀ slot, ring.buffer.Published slot → ring.Complete slot

/-- At every point of an upload, the ring is consistent. -/
def Ring.ConsistentAlong (fuel : ℕ) (node : UInt8) (ring : Ring) (event : Network × Image) : Prop :=
  ∀ written, written <+: (ring.upload fuel node event.1 event.2).writes →
    (ring.after event.2 written).Consistent

/-- An upload returns before the push of the head, or the push is lost. -/
def Ring.Silent (node : UInt8) (ring : Ring) (event : Network × Image) : Prop :=
  (ring.client.vaddr = 0 ∨ node ≠ ring.client.bufferNodeId) ∧ event.1.find = .failed ∨
    ¬ event.1.Answers ∨ event.1.pushHead = .lost
  deriving Decidable

/-- There is nothing in the buffer yet. -/
structure Buffer.Blank (buffer : Buffer) : Prop where
  head : buffer.head = 0
  tail : buffer.tail = 0
  list : ∀ slot, buffer.list slot = 0

variable {fuel : ℕ} {node : UInt8} {ring : Ring} {event : Network × Image}

/-- In a blank buffer no slot is published. -/
theorem Buffer.Blank.not_published {buffer : Buffer} (h : buffer.Blank)
    (slot : Fin bufferListSize) : ¬ buffer.Published slot := by
  rw [Published, h.head, h.tail]
  exact Nat.not_lt_zero _

/-- In a blank buffer the first image finds a place without eviction. -/
theorem Buffer.Blank.place_eq {buffer : Buffer} (h : buffer.Blank) (len : Int32) :
    ∃ placement, place fuel buffer.head buffer.tail buffer.list len = .ok placement ∧
      placement.newHead = 1 := by
  have hread : listAt buffer.list 0 = .ok 0 := by
    rw [listAt_eq buffer.list (j := 0) rfl, h.list]
  have hkeeps : ∀ n, evictedTail fuel buffer.list 0 0 n 0 = .ok 0 := by
    intro n
    rw [evictedTail, if_neg]
    simp [overtake]
  rw [h.head, h.tail, place, hread]
  simp only [bind, Except.bind, hkeeps]
  exact ⟨_, rfl, rfl⟩

/-- A silent upload writes nothing. -/
theorem Ring.Silent.writes_eq_nil (h : ring.Silent node event) :
    (ring.upload fuel node event.1 event.2).writes = [] := by
  rw [upload]
  cases hfind : ring.client.find node event.1.find with
  | none => rw [upload_of_failed hfind]
  | some found =>
    by_cases hpulls : event.1.Answers
    · have hlost : event.1.pushHead = .lost := by
        rcases h with hnone | hunanswered | hlost
        · rw [Client.find_eq_none_iff.mpr hnone] at hfind
          contradiction
        · exact absurd hpulls hunanswered
        · exact hlost
      cases hplace : Remote.place fuel ring.buffer.head ring.buffer.tail ring.buffer.list
          event.2.len with
      | error stop => rw [upload_of_place_error hfind hpulls hplace]
      | ok placement =>
        rw [upload_of_place hfind hpulls hplace]
        simp only [publish, hlost, push, perform, Option.toList]
    · rw [upload_of_not_answers hfind hpulls]

/-- Any other upload pushes the head first. -/
theorem Ring.writes_of_not_silent (hblank : ring.buffer.Blank) (h : ¬ ring.Silent node event) :
    ∃ rest, (ring.upload fuel node event.1 event.2).writes = .head 1 :: rest := by
  rw [Silent, ← Client.find_eq_none_iff, not_or, not_or, not_not] at h
  obtain ⟨hfound, hpulls, hpush⟩ := h
  obtain ⟨found, hfind⟩ := Option.ne_none_iff_exists'.mp hfound
  obtain ⟨placement, hplace, hhead⟩ := hblank.place_eq event.2.len
  rw [upload, upload_of_place hfind hpulls hplace]
  cases hdelivery : event.1.pushHead with
  | acknowledged =>
    simp only [publish, hdelivery, push, perform, hhead, Option.toList, List.cons_append]
    exact ⟨_, rfl⟩
  | unacknowledged =>
    simp only [publish, hdelivery, push, perform, hhead, Option.toList]
    exact ⟨_, rfl⟩
  | lost => exact absurd hdelivery hpush

/-- Then the first slot is published before anything was written for it. -/
theorem Ring.not_consistent_of_head (hblank : ring.buffer.Blank) (image : Image) :
    ¬ (ring.after image [.head 1]).Consistent := by
  intro h
  have hpublished : (ring.after image [.head 1]).buffer.Published (slotOf 0) := by
    change distance ring.buffer.tail.toNat 0 < distance ring.buffer.tail.toNat 1
    rw [hblank.tail]
    decide
  have hdescribed := (h (slotOf 0) hpublished).1
  rw [after, hblank.head] at hdescribed
  change Function.update ring.described (slotOf 0) false (slotOf 0) = true at hdescribed
  rw [Function.update_self] at hdescribed
  contradiction

/-- At a blank buffer, exactly a silent upload keeps the ring consistent at every point. -/
theorem Ring.consistentAlong_iff (hblank : ring.buffer.Blank) :
    ring.ConsistentAlong fuel node event ↔ ring.Silent node event := by
  constructor
  · intro h
    by_contra hloud
    have hfirst : ∃ rest, (ring.upload fuel node event.1 event.2).writes = .head 1 :: rest :=
      Ring.writes_of_not_silent hblank hloud
    obtain ⟨rest, hwrites⟩ := hfirst
    apply Ring.not_consistent_of_head hblank event.2
    apply h
    rw [hwrites]
    exact ⟨rest, rfl⟩
  · intro h written hwritten slot hslot
    rw [h.writes_eq_nil, List.prefix_nil] at hwritten
    rw [hwritten] at hslot
    exact absurd hslot (hblank.not_published slot)

/-- A silent upload leaves the buffer as it was. -/
theorem Ring.Silent.step_eq_ok (h : ring.Silent node event) {next : Ring}
    (hstep : ring.step fuel node event = .ok next) : next.buffer = ring.buffer := by
  rw [step, h.writes_eq_nil] at hstep
  simp only at hstep
  split at hstep
  · contradiction
  · obtain rfl := Except.ok.inj hstep
    rfl

/-- In a run of uploads from a blank buffer on, the ring is consistent at every point exactly if no
upload gets the push of a head through. -/
theorem Ring.consistentAlong_run_iff (hblank : ring.buffer.Blank)
    (events : List (Network × Image)) :
    Execution.Along (Ring.step fuel node) (Ring.ConsistentAlong fuel node) events ring ↔
      Execution.Along (Ring.step fuel node) (Ring.Silent node) events ring := by
  apply Execution.along_congr_of_invariant fun ring => ring.buffer.Blank
  · exact fun ring event hblank => Ring.consistentAlong_iff hblank
  · intro ring event next hblank hconsistent hnext
    have hsilent : ring.Silent node event := (Ring.consistentAlong_iff hblank).mp hconsistent
    rw [hsilent.step_eq_ok hnext]
    exact hblank
  · exact hblank

/-- The empty buffer is blank. -/
theorem Ring.blank_empty (client : Client) (memory : UInt64 → UInt8) :
    (Ring.empty client memory).buffer.Blank := ⟨rfl, rfl, fun _ => rfl⟩

/-- From the empty buffer on, every upload of a run is consistent at every point exactly if every
one returns before the push of the head, or that push is lost. -/
theorem consistent_iff_silent (fuel : ℕ) (node : UInt8) (client : Client) (memory : UInt64 → UInt8)
    (events : List (Network × Image)) :
    (∀ earlier event later ring, events = earlier ++ [event] ++ later →
        Execution.run (Ring.step fuel node) earlier (Ring.empty client memory) = .ok ring →
          ring.ConsistentAlong fuel node event) ↔
      Execution.Along (Ring.step fuel node) (Ring.Silent node) events
        (Ring.empty client memory) := by
  rw [← Ring.consistentAlong_run_iff (Ring.blank_empty client memory), Execution.along_iff]

/-- A network in which the transfer of the data breaks off at once. -/
def Network.breaking : Network := { Network.succeeding 1 with data := .broken 0 }

/-- An upload whose data do not get through leaves a published slot without them. -/
theorem not_always_consistent :
    ¬ ∀ (fuel : ℕ) (node : UInt8) (client : Client) (memory : UInt64 → UInt8)
      (events earlier later : List (Network × Image)) (event : Network × Image) (ring : Ring),
      events = earlier ++ [event] ++ later →
        Execution.run (Ring.step fuel node) earlier (Ring.empty client memory) = .ok ring →
          ring.ConsistentAlong fuel node event := by
  intro h
  have hconsistent := h 0 0 Client.boot (fun _ => 0) _ [] []
    (Network.breaking, Image.constant 1 1) _ rfl rfl _ List.prefix_rfl (slotOf 0) (by decide)
  exact absurd hconsistent (by decide)

end Dipp.Remote
