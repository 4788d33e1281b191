import Dipp.Dtp.Survival
import Dipp.Library.Custody

/-!
# Who owns the packets

The packets come from a pool that the server shares with the network stack. Reading a
request and getting a buffer hand a packet to the server; sending a packet hands it to the
stack, which releases it, and freeing a packet releases it. On each of its three reply
paths the server sends the response and frees it as well, so it releases once more what it
no longer owns. The request is released once in any case.
-/

namespace Dipp

open LittleEndian Execution Custody

/-- The packets of a connection. -/
inductive PacketBuffer where
  | request
  | response
  deriving DecidableEq, Repr

/-- What an event means for the ownership of the packets. -/
def ServerEvent.custody : ServerEvent → Option (Move PacketBuffer)
  | .takeRequest => some (.take .request)
  | .inspect _ => none
  | .takeResponse => some (.take .response)
  | .send _ => some (.release .response)
  | .freeResponse => some (.release .response)
  | .freeRequest => some (.release .request)
  | .close => none

/-- The moves of the packets while a connection is served. -/
def Service.moves (service : Service) : List (Move PacketBuffer) :=
  service.events.filterMap ServerEvent.custody

/-- Only packets that are owned are sent or freed, and none is owned when the connection is done. -/
def Service.ReleasesOnce (service : Service) : Prop :=
  ∃ owned, run move service.moves 0 = .ok owned ∧ (service.fault = none → owned = 0)

variable {R : Type*} (ring : RingDriver R) (unpack : List UInt8 → Option Metadata)

/-- There is a request, of a kind that is not answered. -/
def Connection.Unanswered (connection : Connection R) : Prop :=
  ∃ request, connection.request = some request ∧
    request.byte 0 ≠ dippDtpObservationAmountRequest ∧
    request.byte 0 ≠ dippDtpObservationMetaRequest

/-- There is a request of a kind that is answered, and nothing is missing for the answer. -/
def Connection.Responds (connection : Connection R) : Prop :=
  connection.bufferAvailable = true ∧ ∃ request, connection.request = some request ∧
    (request.byte 0 = dippDtpObservationAmountRequest ∨
      request.byte 0 = dippDtpObservationMetaRequest ∧
        (ring.isValidIndex connection.ring request.index.toUInt32 = true →
          (observationGetMetadata ring unpack connection.ring request.index).isSome = true))

/-- The events of a request of a kind that is not answered. -/
theorem Connection.serve_of_unanswered {connection : Connection R} (h : connection.Unanswered) :
    connection.serve ring unpack =
      ⟨[.takeRequest, .inspect 0, .inspect 0, .freeRequest, .close], none⟩ := by
  obtain ⟨request, hrequest, hamount, hmeta⟩ := h
  rw [serve_of_request ring unpack hrequest, answer, if_neg hamount, if_neg hmeta]
  rfl

/-- A response is sent and freed, and then the request is freed. -/
theorem Connection.serve_of_responds {connection : Connection R}
    (h : connection.Responds ring unpack) :
    ∃ inspected payload, connection.serve ring unpack =
      ⟨[.takeRequest] ++ List.map ServerEvent.inspect inspected ++
        [.takeResponse, .send payload, .freeResponse, .freeRequest, .close], none⟩ := by
  obtain ⟨hbuffer, request, hrequest, hkind⟩ := h
  rw [serve_of_request ring unpack hrequest, answer]
  by_cases hamount : request.byte 0 = dippDtpObservationAmountRequest
  · rw [if_pos hamount, respond, if_pos hbuffer]
    exact ⟨[0], _, rfl⟩
  · obtain ⟨hmeta, hmetadata⟩ := hkind.resolve_left hamount
    rw [if_neg hamount, if_pos hmeta]
    rcases connection.answerMeta_cases ring unpack request.index with
      ⟨-, -, payload, hresponse⟩ | ⟨hmissing, -⟩
    · rw [hresponse]
      exact ⟨[0, 0, 1, 2], payload, rfl⟩
    · exact absurd ⟨hbuffer, hmetadata⟩ hmissing

/-- Otherwise a null pointer is used before there is a response. -/
theorem Connection.serve_of_neither {connection : Connection R}
    (hanswered : ¬ connection.Unanswered) (hresponds : ¬ connection.Responds ring unpack) :
    ∃ taken inspected fault, connection.serve ring unpack =
      ⟨taken ++ List.map ServerEvent.inspect inspected, some fault⟩ ∧
        (taken = [] ∨ taken = [.takeRequest]) := by
  cases hrequest : connection.request with
  | none =>
    refine ⟨[], [], .missingRequest, ?_, .inl rfl⟩
    rw [serve, hrequest]
    rfl
  | some request =>
    rw [serve_of_request ring unpack hrequest, answer]
    by_cases hamount : request.byte 0 = dippDtpObservationAmountRequest
    · rw [if_pos hamount]
      rcases connection.respond_cases
          (encode 4 (ring.amountOfElements connection.ring).toNat) with
        ⟨hbuffer, -⟩ | ⟨-, hresponse⟩
      · exact absurd ⟨hbuffer, request, hrequest, .inl hamount⟩ hresponds
      · rw [hresponse]
        exact ⟨[.takeRequest], [0], .missingResponse, rfl, .inr rfl⟩
    · by_cases hmeta : request.byte 0 = dippDtpObservationMetaRequest
      · rw [if_neg hamount, if_pos hmeta]
        rcases connection.answerMeta_cases ring unpack request.index with
          ⟨hbuffer, hmetadata, -⟩ | ⟨-, fault, hresponse⟩
        · exact absurd ⟨hbuffer, request, hrequest, .inr ⟨hmeta, hmetadata⟩⟩ hresponds
        · rw [hresponse]
          exact ⟨[.takeRequest], [0, 0, 1, 2], fault, rfl, .inr rfl⟩
      · exact absurd ⟨request, hrequest, hamount, hmeta⟩ hanswered

/-- Looking at bytes moves no packet. -/
theorem filterMap_custody_inspect (inspected : List ℕ) :
    (List.map ServerEvent.inspect inspected).filterMap ServerEvent.custody = [] := by
  rw [List.filterMap_map]
  exact List.filterMap_eq_nil_iff.mpr fun _ _ => rfl

/-- The packets move once too often when a response goes out. -/
theorem Connection.moves_of_responds {connection : Connection R}
    (h : connection.Responds ring unpack) : (connection.serve ring unpack).moves =
      [.take .request, .take .response, .release .response, .release .response,
        .release .request] := by
  obtain ⟨inspected, payload, hserve⟩ := connection.serve_of_responds ring unpack h
  rw [hserve, Service.moves, List.filterMap_append, List.filterMap_append,
    filterMap_custody_inspect]
  rfl

/-- A connection that is responded to releases the response twice. -/
theorem Connection.not_releasesOnce_of_responds {connection : Connection R}
    (h : connection.Responds ring unpack) : ¬ (connection.serve ring unpack).ReleasesOnce := by
  rintro ⟨owned, hrun, -⟩
  have hcount := count_release_le hrun .response
  rw [moves_of_responds ring unpack h] at hcount
  exact absurd hcount (by decide)

/-- A connection that is not responded to releases the request once, or ends the server with it. -/
theorem Connection.releasesOnce_of_not_responds {connection : Connection R}
    (h : ¬ connection.Responds ring unpack) : (connection.serve ring unpack).ReleasesOnce := by
  by_cases hunanswered : connection.Unanswered
  · rw [serve_of_unanswered ring unpack hunanswered]
    exact ⟨0, rfl, fun _ => rfl⟩
  · obtain ⟨taken, inspected, fault, hserve, htaken⟩ :=
      connection.serve_of_neither ring unpack hunanswered h
    rw [hserve, Service.ReleasesOnce, Service.moves, List.filterMap_append,
      filterMap_custody_inspect, List.append_nil]
    rcases htaken with rfl | rfl
    · exact ⟨0, rfl, fun _ => rfl⟩
    · exact ⟨{.request}, rfl, fun hnone => by contradiction⟩

/-- A connection is done with if and only if it is not responded to. -/
theorem Connection.serve_releasesOnce_iff (connection : Connection R) :
    (connection.serve ring unpack).ReleasesOnce ↔ ¬ connection.Responds ring unpack :=
  ⟨fun honce h => not_releasesOnce_of_responds ring unpack h honce,
    releasesOnce_of_not_responds ring unpack⟩

/-- What is reached along a list behind passable elements only: the head, and, if the head is
passable, what is reached along the rest. -/
theorem forall_reached_cons {α : Type*} {passable reached : α → Prop} (head : Option α)
    (rest : List (Option α)) :
    (∀ earlier a later, head :: rest = earlier ++ some a :: later →
        (∀ b, some b ∈ earlier → passable b) → reached a) ↔
      (∀ a, head = some a → reached a) ∧ ((∀ a, head = some a → passable a) →
        ∀ earlier a later, rest = earlier ++ some a :: later →
          (∀ b, some b ∈ earlier → passable b) → reached a) := by
  constructor
  · intro h
    constructor
    · rintro a rfl
      exact h [] a rest rfl fun b hb => absurd hb List.not_mem_nil
    · rintro hhead earlier a later rfl hearlier
      refine h (head :: earlier) a later rfl fun b hb => ?_
      rcases List.mem_cons.mp hb with hb | hb
      · exact hhead b hb.symm
      · exact hearlier b hb
  · rintro ⟨hhead, hrest⟩ earlier a later hsplit hearlier
    cases earlier with
    | nil => exact hhead a (List.cons.inj hsplit).1
    | cons first earlier =>
      obtain ⟨rfl, rfl⟩ := List.cons.inj hsplit
      apply hrest _ earlier a later rfl
      · exact fun b hb => hearlier b (List.mem_cons_of_mem _ hb)
      · rintro b rfl
        exact hearlier b List.mem_cons_self

/-- Whatever is accepted over time, every packet is released exactly once if and only if no response
goes out: the first connection whose request is of an answered kind, if any, ends the server. -/
theorem dtpIndecesServer_releasesOnce_iff (accepted : List (Option (Connection R))) :
    (∀ service ∈ dtpIndecesServer ring unpack accepted, service.ReleasesOnce) ↔
      ∀ earlier connection later, accepted = earlier ++ some connection :: later →
        (∀ other, some other ∈ earlier → other.Unanswered) →
          ¬ connection.Responds ring unpack := by
  induction accepted with
  | nil => simp [dtpIndecesServer]
  | cons head rest ih =>
    rw [forall_reached_cons, ← ih]
    cases head with
    | none => simp [dtpIndecesServer]
    | some connection =>
      have hhead := connection.serve_releasesOnce_iff ring unpack
      simp only [Option.some.injEq, forall_eq']
      rw [← hhead, dtpIndecesServer]
      by_cases hunanswered : connection.Unanswered
      · have hfault : (connection.serve ring unpack).fault = none := by
          rw [connection.serve_of_unanswered ring unpack hunanswered]
        simp only [hfault, List.forall_mem_cons, hunanswered, forall_const]
      · -- the loop ends here, or it has gone wrong already
        simp only [hunanswered, false_imp_iff, and_true]
        by_cases hresponds : connection.Responds ring unpack
        · have hfirst : connection.serve ring unpack ∈
              dtpIndecesServer ring unpack (some connection :: rest) := by
            rw [dtpIndecesServer]
            split <;> exact List.mem_cons_self
          exact iff_of_false (fun h => (hhead.mp (h _ hfirst)) hresponds)
            fun h => hhead.mp h hresponds
        · obtain ⟨taken, inspected, fault, hserve, -⟩ :=
            connection.serve_of_neither ring unpack hunanswered hresponds
          have hfault : (connection.serve ring unpack).fault = some fault := by rw [hserve]
          simp only [hfault, List.forall_mem_singleton]

/-- A request for the number of observations releases its response twice. -/
theorem dtpIndecesServer_not_always_releasesOnce :
    ¬ ∀ (ring : RingDriver (List (List UInt8))) (unpack : List UInt8 → Option Metadata)
        (accepted : List (Option (Connection (List (List UInt8))))),
        (∀ connection, some connection ∈ accepted →
          connection.request.isSome = true ∧ connection.bufferAvailable = true) →
        ∀ service ∈ dtpIndecesServer ring unpack accepted, service.ReleasesOnce := by
  intro h
  let connection : Connection (List (List UInt8)) :=
    ⟨some ⟨[dippDtpObservationAmountRequest], fun _ => 0⟩, true, [], 0⟩
  have hresponds : connection.Responds listRing fun _ => none := ⟨rfl, _, rfl, .inl rfl⟩
  apply connection.not_releasesOnce_of_responds _ _ hresponds
  apply h listRing (fun _ => none) [some connection]
  · intro other hother
    obtain rfl : other = connection := Option.some.inj (List.mem_singleton.mp hother)
    exact ⟨rfl, rfl⟩
  · exact List.mem_cons_self

end Dipp
