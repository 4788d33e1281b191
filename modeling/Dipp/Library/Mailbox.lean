import Dipp.Library.Execution

/-!
# A mailbox with many senders and one consumer

Senders append messages at any time. The consumer takes the first message that it wants,
works on it, and comes back for the next, until there is none that it wants or the one it
got does not fit. Its work does not look at the mailbox. So it makes no difference when a
message arrived, as long as it arrived before the consumer looked for the last time: every
interleaving comes to what the consumer does alone, with these messages sent in advance.
-/

namespace Mailbox

variable {S M E : Type*}

/-- A consumer with its state, of which the mailbox is a part that the work leaves alone. -/
structure Consumer (S M E : Type*) where
  queue : S → List M
  setQueue : List M → S → S
  wanted : M → Bool
  fits : M → Bool
  waits : Bool
  work : M → S → Except E S
  giveUp : S → S
  queue_setQueue : ∀ q s, queue (setQueue q s) = q
  setQueue_setQueue : ∀ q q' s, setQueue q (setQueue q' s) = setQueue q s
  work_queue : ∀ message s s', work message s = .ok s' → queue s' = queue s
  work_setQueue : ∀ message q s, work message (setQueue q s) = (work message s).map (setQueue q)
  giveUp_queue : ∀ s, queue (giveUp s) = queue s
  giveUp_setQueue : ∀ q s, giveUp (setQueue q s) = setQueue q (giveUp s)

/-- The first wanted message, and the mailbox without it. -/
def take (wanted : M → Bool) : List M → Option (M × List M)
  | [] => none
  | message :: rest =>
    if wanted message then some (message, rest)
    else (take wanted rest).map fun taken => (taken.1, message :: taken.2)

/-- Where the consumer stands. -/
inductive Phase (M : Type*) where
  | receiving
  | working (message : M)
  | ended

/-- The consumer's state, where it stands, and the messages it has received. -/
structure State (S M : Type*) where
  state : S
  phase : Phase M
  received : List M

/-- The consumer before its first look. -/
def State.start (state : S) : State S M := ⟨state, .receiving, []⟩

/-- What can happen: a message arrives, or the consumer looks for one, or works on it. -/
inductive Event (M : Type*) where
  | send (message : M)
  | receive
  | work

variable (consumer : Consumer S M E)

/-- The consumer looks for a message. Without one it gives up, or cannot go on. -/
def receive (s : State S M) : Except (Option E) (State S M) :=
  match take consumer.wanted (consumer.queue s.state) with
  | none =>
    if consumer.waits then .error none
    else .ok ⟨consumer.giveUp s.state, .ended, s.received⟩
  | some (message, rest) =>
    if consumer.fits message then
      .ok ⟨consumer.setQueue rest s.state, .working message, s.received ++ [message]⟩
    else .ok ⟨consumer.giveUp s.state, .ended, s.received⟩

/-- One event. -/
def step (s : State S M) : Event M → Except (Option E) (State S M)
  | .send message =>
    .ok { s with
      state := consumer.setQueue (consumer.queue s.state ++ [message]) s.state }
  | .receive =>
    match s.phase with
    | .receiving => receive consumer s
    | _ => .error none
  | .work =>
    match s.phase with
    | .working message =>
      match consumer.work message s.state with
      | .error e => .error (some e)
      | .ok worked => .ok ⟨worked, .receiving, s.received⟩
    | _ => .error none

/-- The messages that arrive during a run. -/
def sent (events : List (Event M)) : List M :=
  events.filterMap fun
    | .send message => some message
    | _ => none

/-- The steps of the consumer itself. -/
def own (events : List (Event M)) : List (Event M) :=
  events.filter fun
    | .send _ => false
    | _ => true

/-- None of its own steps is a message that arrives. -/
theorem own_ne_send {events : List (Event M)} {event : Event M} (h : event ∈ own events)
    (message : M) : event ≠ .send message := by
  intro hsend
  subst hsend
  simp [own] at h

/-- The state with more messages at the end of the mailbox. -/
def State.append (messages : List M) (s : State S M) : State S M :=
  { s with state := consumer.setQueue (consumer.queue s.state ++ messages) s.state }

/-- What can be taken from a mailbox can be taken when there are more messages behind. -/
theorem take_append {wanted : M → Bool} {queue rest : List M} {message : M}
    (h : take wanted queue = some (message, rest)) (more : List M) :
    take wanted (queue ++ more) = some (message, rest ++ more) := by
  induction queue generalizing rest with
  | nil => contradiction
  | cons first queue ih =>
    rw [take] at h
    rw [List.cons_append, take]
    cases hwanted : wanted first with
    | true =>
      rw [hwanted, if_pos rfl] at h
      obtain ⟨rfl, rfl⟩ := Prod.mk.inj (Option.some.inj h)
      exact if_pos rfl
    | false =>
      rw [hwanted, if_neg Bool.false_ne_true] at h
      obtain ⟨⟨taken, left⟩, htake, htaken⟩ := Option.map_eq_some_iff.mp h
      obtain ⟨rfl, rfl⟩ := Prod.mk.inj htaken
      rw [if_neg Bool.false_ne_true, ih htake]
      rfl

/-- The mailbox is there: replacing it by itself changes nothing. -/
def State.HasQueue (s : State S M) : Prop :=
  consumer.setQueue (consumer.queue s.state) s.state = s.state

variable {consumer}

/-- There is a mailbox after more messages have arrived. -/
theorem State.hasQueue_append (messages : List M) (s : State S M) :
    (s.append consumer messages).HasQueue consumer := by
  rw [HasQueue, append, consumer.queue_setQueue, consumer.setQueue_setQueue]

/-- If no message arrives, nothing changes. -/
theorem State.append_nil {s : State S M} (hs : s.HasQueue consumer) :
    s.append consumer [] = s := by
  rw [append, List.append_nil, hs]

/-- Messages that arrive one after the other. -/
theorem State.append_append (first rest : List M) (s : State S M) :
    (s.append consumer first).append consumer rest = s.append consumer (first ++ rest) := by
  simp only [append, consumer.queue_setQueue, consumer.setQueue_setQueue, List.append_assoc]

/-- Every step leaves the mailbox there. -/
theorem step_hasQueue {s t : State S M} {event : Event M} (hs : s.HasQueue consumer)
    (h : step consumer s event = .ok t) : t.HasQueue consumer := by
  obtain ⟨state, phase, received⟩ := s
  have hstate : consumer.setQueue (consumer.queue state) state = state := hs
  have hgiveUp : consumer.setQueue (consumer.queue (consumer.giveUp state))
      (consumer.giveUp state) = consumer.giveUp state := by
    have hsame := consumer.giveUp_setQueue (consumer.queue state) state
    rw [hstate] at hsame
    rw [hsame, consumer.queue_setQueue, consumer.setQueue_setQueue]
  cases event with
  | send message =>
    obtain rfl := Except.ok.inj h
    rw [State.HasQueue, consumer.queue_setQueue, consumer.setQueue_setQueue]
  | receive =>
    cases phase with
    | working message => contradiction
    | ended => contradiction
    | receiving =>
      simp only [step, receive] at h
      split at h
      · split at h
        · contradiction
        · obtain rfl := Except.ok.inj h
          exact hgiveUp
      · split at h
        · obtain rfl := Except.ok.inj h
          rw [State.HasQueue, consumer.queue_setQueue, consumer.setQueue_setQueue]
        · obtain rfl := Except.ok.inj h
          exact hgiveUp
  | work =>
    cases phase with
    | receiving => contradiction
    | ended => contradiction
    | working message =>
      simp only [step] at h
      cases hwork : consumer.work message state with
      | error e => rw [hwork] at h; contradiction
      | ok worked =>
        have hsame := consumer.work_setQueue message (consumer.queue state) state
        rw [hstate, hwork] at hsame
        rw [hwork] at h
        obtain rfl := Except.ok.inj h
        rw [State.HasQueue, consumer.work_queue message state worked hwork]
        exact (Except.ok.inj hsame).symm

/-- So does every run. -/
theorem run_hasQueue {events : List (Event M)} {s t : State S M} (hs : s.HasQueue consumer)
    (h : Execution.run (step consumer) events s = .ok t) : t.HasQueue consumer :=
  Execution.run_invariant (State.HasQueue consumer) (fun _ _ _ => step_hasQueue) events s t hs h

/-- A look that finds a message finds it when there are more messages behind. -/
theorem receive_append {s t : State S M} (h : receive consumer s = .ok t)
    (hphase : t.phase ≠ .ended) (messages : List M) :
    receive consumer (s.append consumer messages) = .ok (t.append consumer messages) := by
  unfold receive at h
  cases htake : take consumer.wanted (consumer.queue s.state) with
  | none =>
    rw [htake] at h
    cases hwaits : consumer.waits with
    | true => simp [hwaits] at h
    | false =>
      simp only [hwaits, Bool.false_eq_true, if_false] at h
      exact absurd (by rw [← Except.ok.inj h]) hphase
  | some taken =>
    obtain ⟨message, rest⟩ := taken
    rw [htake] at h
    cases hfits : consumer.fits message with
    | false =>
      simp only [hfits, Bool.false_eq_true, if_false] at h
      exact absurd (by rw [← Except.ok.inj h]) hphase
    | true =>
      simp only [hfits, if_true] at h
      obtain rfl := Except.ok.inj h
      have hmore := take_append htake messages
      simp only [receive, State.append, consumer.queue_setQueue, hmore, hfits, if_true,
        consumer.setQueue_setQueue]

/-- A step of the consumer that does not end its loop is the same step with more messages behind. -/
theorem step_append {s t : State S M} {event : Event M}
    (hown : ∀ message, event ≠ .send message) (h : step consumer s event = .ok t)
    (hphase : t.phase ≠ .ended) (messages : List M) :
    step consumer (s.append consumer messages) event = .ok (t.append consumer messages) := by
  obtain ⟨state, phase, received⟩ := s
  cases event with
  | send message => exact absurd rfl (hown message)
  | receive =>
    cases phase with
    | receiving => exact receive_append h hphase messages
    | working message => contradiction
    | ended => contradiction
  | work =>
    cases phase with
    | receiving => contradiction
    | ended => contradiction
    | working message =>
      simp only [step] at h
      cases hwork : consumer.work message state with
      | error e => rw [hwork] at h; contradiction
      | ok worked =>
        rw [hwork] at h
        obtain rfl := Except.ok.inj h
        have hqueue := consumer.work_queue message state worked hwork
        simp only [step, State.append, consumer.work_setQueue, hwork, Except.map, hqueue]

/-- Once its loop has ended, messages still arrive, and nothing else happens. -/
theorem run_ended {events : List (Event M)} {s t : State S M} (hs : s.HasQueue consumer)
    (hphase : s.phase = .ended) (h : Execution.run (step consumer) events s = .ok t) :
    own events = [] ∧ t = s.append consumer (sent events) := by
  induction events generalizing s with
  | nil =>
    obtain rfl : s = t := Except.ok.inj h
    exact ⟨rfl, (State.append_nil hs).symm⟩
  | cons event rest ih =>
    obtain ⟨next, hnext, hrest⟩ := Execution.run_cons_eq_ok h
    cases event with
    | send message =>
      obtain rfl : s.append consumer [message] = next := Except.ok.inj hnext
      obtain ⟨hown, rfl⟩ := ih (s.hasQueue_append [message]) hphase hrest
      exact ⟨hown, State.append_append [message] (sent rest) s⟩
    | receive => rw [step, hphase] at hnext; contradiction
    | work => rw [step, hphase] at hnext; contradiction

/-- Every interleaving comes to what the consumer does alone, with the messages that arrive before
its last look sent in advance, and the others at the end. -/
theorem run_eq_alone {events : List (Event M)} {s t : State S M} (hs : s.HasQueue consumer)
    (h : Execution.run (step consumer) events s = .ok t) :
    ∃ before after last, sent events = before ++ after ∧
      Execution.run (step consumer) (own events) (s.append consumer before) = .ok last ∧
      t = last.append consumer after ∧ (t.phase ≠ .ended → after = []) := by
  induction events generalizing s with
  | nil =>
    obtain rfl : s = t := Except.ok.inj h
    exact ⟨[], [], s, rfl, by rw [State.append_nil hs]; rfl, (State.append_nil hs).symm,
      fun _ => rfl⟩
  | cons event rest ih =>
    obtain ⟨next, hnext, hrest⟩ := Execution.run_cons_eq_ok h
    by_cases hsend : ∃ message, event = .send message
    · obtain ⟨message, rfl⟩ := hsend
      obtain rfl : s.append consumer [message] = next := Except.ok.inj hnext
      by_cases hended : s.phase = .ended
      · obtain ⟨hown, rfl⟩ := run_ended (s.hasQueue_append [message]) hended hrest
        refine ⟨[], message :: sent rest, s, rfl, ?_, State.append_append [message] _ s, ?_⟩
        · rw [State.append_nil hs, show own (Event.send message :: rest) = own rest from rfl, hown,
            Execution.run_nil]
        · exact fun hphase => absurd hended hphase
      · obtain ⟨before, after, last, hsent, hrun, hlast, hphase⟩ :=
          ih (s.hasQueue_append [message]) hrest
        rw [State.append_append] at hrun
        exact ⟨message :: before, after, last, congrArg (message :: ·) hsent, hrun, hlast, hphase⟩
    · have hown : ∀ message, event ≠ .send message := fun message hevent =>
        hsend ⟨message, hevent⟩
      have howns : own (event :: rest) = event :: own rest := by
        cases event with
        | send message => exact absurd rfl (hown message)
        | _ => rfl
      have hsents : sent (event :: rest) = sent rest := by
        cases event with
        | send message => exact absurd rfl (hown message)
        | _ => rfl
      have hnextQueue := step_hasQueue hs hnext
      rw [howns, hsents]
      by_cases hended : next.phase = .ended
      · obtain ⟨hrestOwn, rfl⟩ := run_ended hnextQueue hended hrest
        refine ⟨[], sent rest, next, rfl, ?_, rfl, fun hphase => absurd hended hphase⟩
        rw [State.append_nil hs, hrestOwn, Execution.run_cons_ok [] hnext, Execution.run_nil]
      · obtain ⟨before, after, last, hsent, hrun, hlast, hphase⟩ := ih hnextQueue hrest
        refine ⟨before, after, last, hsent, ?_, hlast, hphase⟩
        rw [Execution.run_cons_ok _ (step_append hown hnext hended before)]
        exact hrun

/-- What is taken is the first wanted message, and the others stay in order. -/
theorem take_eq_some {wanted : M → Bool} {queue rest : List M} {message : M}
    (h : take wanted queue = some (message, rest)) :
    queue.filter wanted = message :: rest.filter wanted ∧
      queue.filter (!wanted ·) = rest.filter (!wanted ·) := by
  induction queue generalizing rest with
  | nil => contradiction
  | cons first queue ih =>
    rw [take] at h
    cases hwanted : wanted first with
    | true =>
      rw [hwanted, if_pos rfl] at h
      obtain ⟨rfl, rfl⟩ := Prod.mk.inj (Option.some.inj h)
      simp [hwanted]
    | false =>
      rw [hwanted, if_neg Bool.false_ne_true] at h
      obtain ⟨⟨taken, left⟩, htake, htaken⟩ := Option.map_eq_some_iff.mp h
      obtain ⟨rfl, rfl⟩ := Prod.mk.inj htaken
      obtain ⟨hfirst, hothers⟩ := ih htake
      simp [hwanted, hfirst, hothers]

/-- The wanted messages, received or still waiting, are those of the mailbox and those that
arrived, in order; the others are all waiting. -/
structure Conserved (consumer : Consumer S M E) (s t : State S M) (arrived : List M) : Prop where
  wanted : t.received ++ (consumer.queue t.state).filter consumer.wanted =
    s.received ++ (consumer.queue s.state).filter consumer.wanted ++
      arrived.filter consumer.wanted
  others : (consumer.queue t.state).filter (!consumer.wanted ·) =
    (consumer.queue s.state).filter (!consumer.wanted ·) ++ arrived.filter (!consumer.wanted ·)

/-- A step loses no message, and delivers none twice or out of order. -/
theorem step_conserves {s t : State S M} {event : Event M} (h : step consumer s event = .ok t) :
    Conserved consumer s t (sent [event]) := by
  obtain ⟨state, phase, received⟩ := s
  cases event with
  | send message =>
    obtain rfl := Except.ok.inj h
    constructor
    · simp [sent, consumer.queue_setQueue]
    · simp [sent, consumer.queue_setQueue]
  | receive =>
    cases phase with
    | working message => contradiction
    | ended => contradiction
    | receiving =>
      simp only [step, receive] at h
      split at h
      · split at h
        · contradiction
        · obtain rfl := Except.ok.inj h
          exact ⟨by simp [sent, consumer.giveUp_queue], by simp [sent, consumer.giveUp_queue]⟩
      · rename_i message rest htake
        obtain ⟨hwanted, hothers⟩ := take_eq_some htake
        split at h
        · obtain rfl := Except.ok.inj h
          exact ⟨by simp [sent, consumer.queue_setQueue, hwanted],
            by simp [sent, consumer.queue_setQueue, hothers]⟩
        · obtain rfl := Except.ok.inj h
          exact ⟨by simp [sent, consumer.giveUp_queue], by simp [sent, consumer.giveUp_queue]⟩
  | work =>
    cases phase with
    | receiving => contradiction
    | ended => contradiction
    | working message =>
      simp only [step] at h
      cases hwork : consumer.work message state with
      | error e => rw [hwork] at h; contradiction
      | ok worked =>
        rw [hwork] at h
        obtain rfl := Except.ok.inj h
        have hqueue := consumer.work_queue message state worked hwork
        exact ⟨by simp [sent, hqueue], by simp [sent, hqueue]⟩

/-- So does every interleaving. -/
theorem run_conserves {events : List (Event M)} {s t : State S M}
    (h : Execution.run (step consumer) events s = .ok t) :
    Conserved consumer s t (sent events) := by
  induction events generalizing s with
  | nil =>
    obtain rfl : s = t := Except.ok.inj h
    exact ⟨by simp [sent], by simp [sent]⟩
  | cons event rest ih =>
    obtain ⟨next, hnext, hrest⟩ := Execution.run_cons_eq_ok h
    obtain ⟨hwanted, hothers⟩ := step_conserves hnext
    obtain ⟨hwanted', hothers'⟩ := ih hrest
    have hsent : sent (event :: rest) = sent [event] ++ sent rest := by
      cases event <;> rfl
    constructor
    · rw [hwanted', hwanted, hsent, List.filter_append]
      simp only [List.append_assoc]
    · rw [hothers', hothers, hsent, List.filter_append, List.append_assoc]

end Mailbox
