import Dipp.Dtp.Server
import Mathlib.Data.List.Forall2

/-!
# Which clients the server survives

The result of `csp_read` is used without a check, and so are the response buffer and the
unpacked metadata; the bytes of a request are used without looking at its length. A
connection is handled as it should be exactly if there is a request, long enough for its
kind, a buffer for the response it asks for, and metadata behind the index it names. The
first connection that leaves a null pointer to the server is its last one.
-/

namespace Dipp

open LittleEndian

variable {R : Type*} (ring : RingDriver R) (unpack : List UInt8 → Option Metadata)

/-- A request that contains all the bytes of its kind. -/
def Packet.Complete (request : Packet) : Prop :=
  request.data[0]? = some dippDtpObservationAmountRequest ∨
    request.data[0]? = some dippDtpObservationMetaRequest ∧ 3 ≤ request.data.length

/-- A complete request came in, and there is a buffer for the response. -/
def Connection.Answerable (connection : Connection R) : Prop :=
  connection.bufferAvailable = true ∧ ∃ request ∈ connection.request, request.Complete

/-- How a connection should be served: only bytes of the request are used, there is one response if
it is due and none otherwise, the connection is closed, and the server is alive. -/
structure Service.Proper (connection : Connection R) (service : Service) : Prop where
  inspects : ∀ i, .inspect i ∈ service.events →
    ∃ request ∈ connection.request, i < request.data.length
  responds : connection.Answerable → service.sent.length = 1
  silent : ¬ connection.Answerable → service.sent = []
  closes : .close ∈ service.events
  alive : service.fault = none

/-- There is a request, and what its kind takes is there: for a number, a buffer; for metadata, the
bytes of an index, a buffer, and metadata that can be unpacked if the index is valid. -/
def Connection.Manageable (connection : Connection R) : Prop :=
  ∃ request, connection.request = some request ∧ request.data ≠ [] ∧
    (request.data[0]? = some dippDtpObservationAmountRequest →
      connection.bufferAvailable = true) ∧
    (request.data[0]? = some dippDtpObservationMetaRequest →
      3 ≤ request.data.length ∧ connection.bufferAvailable = true ∧
        (ring.isValidIndex connection.ring request.index.toUInt32 = true →
          (observationGetMetadata ring unpack connection.ring request.index).isSome = true))

/-- A response goes out exactly if there is a buffer for it. -/
theorem Connection.respond_cases (connection : Connection R) (payload : List UInt8) :
    connection.bufferAvailable = true ∧ connection.respond payload =
        ⟨[.takeResponse, .send payload, .freeResponse], none⟩ ∨
      connection.bufferAvailable = false ∧ connection.respond payload =
        ⟨[], some .missingResponse⟩ := by
  unfold respond
  cases connection.bufferAvailable with
  | true => exact .inl ⟨rfl, rfl⟩
  | false => exact .inr ⟨rfl, rfl⟩

/-- A metadata request is answered with one response, or ends the server. -/
theorem Connection.answerMeta_cases (connection : Connection R) (index : UInt16) :
    (connection.bufferAvailable = true ∧
        (ring.isValidIndex connection.ring index.toUInt32 = true →
          (observationGetMetadata ring unpack connection.ring index).isSome = true) ∧
        ∃ payload, connection.answerMeta ring unpack index =
          ⟨[.takeResponse, .send payload, .freeResponse], none⟩) ∨
      ¬ (connection.bufferAvailable = true ∧
        (ring.isValidIndex connection.ring index.toUInt32 = true →
          (observationGetMetadata ring unpack connection.ring index).isSome = true)) ∧
        ∃ fault, connection.answerMeta ring unpack index = ⟨[], some fault⟩ := by
  unfold answerMeta
  by_cases hvalid : ring.isValidIndex connection.ring index.toUInt32 = true
  · rw [if_pos hvalid]
    cases hmetadata : observationGetMetadata ring unpack connection.ring index with
    | none =>
      refine .inr ⟨fun h => absurd (h.2 hvalid) (by simp), .missingMetadata, ?_⟩
      simp only [observationGetDtpMeta, hmetadata, Option.map_none]
    | some metadata =>
      simp only [observationGetDtpMeta, hmetadata, Option.map_some]
      rcases connection.respond_cases (1 :: ObservationMeta.toBytes connection.padding
          ⟨index, metadata.size.toUInt32, metadata.obid.toUInt32⟩) with
        ⟨hbuffer, hsent⟩ | ⟨hbuffer, hsent⟩
      · exact .inl ⟨hbuffer, fun _ => rfl, _, hsent⟩
      · exact .inr ⟨fun h => by simp [hbuffer] at h, _, hsent⟩
  · rw [if_neg hvalid]
    rcases connection.respond_cases [0] with ⟨hbuffer, hsent⟩ | ⟨hbuffer, hsent⟩
    · exact .inl ⟨hbuffer, fun h => absurd h hvalid, _, hsent⟩
    · exact .inr ⟨fun h => by simp [hbuffer] at h, _, hsent⟩

/-- With a request, a connection is answered, and then both are released. -/
theorem Connection.serve_of_request {connection : Connection R} {request : Packet}
    (hrequest : connection.request = some request) :
    connection.serve ring unpack = ((connection.answer ring unpack request).followedBy
      [.freeRequest, .close]).after [.takeRequest] := by
  rw [serve, hrequest]

/-- What follows does not undo what was done. -/
theorem Service.mem_followedBy {service : Service} {event : ServerEvent}
    (h : event ∈ service.events) (later : List ServerEvent) :
    event ∈ (service.followedBy later).events := by
  obtain ⟨events, fault⟩ := service
  cases fault with
  | none => exact List.mem_append_left later h
  | some fault => exact h

/-- The server looks at the first byte whatever came in. -/
theorem Connection.inspect_zero {connection : Connection R} {request : Packet}
    (hrequest : connection.request = some request) :
    .inspect 0 ∈ (connection.serve ring unpack).events := by
  have hanswer : .inspect 0 ∈ (connection.answer ring unpack request).events := by
    unfold answer
    split
    · exact List.mem_cons_self
    · split
      · exact List.mem_cons_self
      · exact List.mem_cons_self
  rw [serve_of_request ring unpack hrequest]
  exact List.mem_cons_of_mem _ (Service.mem_followedBy hanswer _)

/-- A fault is not how a connection should be served. -/
theorem Service.not_proper_of_fault {connection : Connection R} {service : Service}
    (h : service.fault.isSome = true) : ¬ service.Proper connection := by
  intro hproper
  rw [hproper.alive] at h
  contradiction

/-- One response, if it is due, after looking at bytes of the request. -/
theorem Service.proper_of_response {connection : Connection R} {request : Packet}
    (hrequest : connection.request = some request) (hanswerable : connection.Answerable)
    {inspected : List ℕ} (hinspected : ∀ i ∈ inspected, i < request.data.length)
    (payload : List UInt8) : Service.Proper connection
      ⟨.takeRequest :: ((inspected.map ServerEvent.inspect ++
        [.takeResponse, .send payload, .freeResponse]) ++ [.freeRequest, .close]), none⟩ where
  inspects := by
    intro i hi
    refine ⟨request, hrequest, hinspected i ?_⟩
    simpa using hi
  responds := by
    intro _
    simp [Service.sent]
  silent := fun h => absurd hanswerable h
  closes := by simp
  alive := rfl

/-- What manageable means for the request that came in. -/
theorem Connection.manageable_iff {connection : Connection R} {request : Packet}
    (hrequest : connection.request = some request) :
    connection.Manageable ring unpack ↔ request.data ≠ [] ∧
      (request.data[0]? = some dippDtpObservationAmountRequest →
        connection.bufferAvailable = true) ∧
      (request.data[0]? = some dippDtpObservationMetaRequest →
        3 ≤ request.data.length ∧ connection.bufferAvailable = true ∧
          (ring.isValidIndex connection.ring request.index.toUInt32 = true →
            (observationGetMetadata ring unpack connection.ring request.index).isSome = true)) := by
  constructor
  · rintro ⟨other, hother, hmanageable⟩
    obtain rfl : request = other := Option.some.inj (hrequest.symm.trans hother)
    exact hmanageable
  · intro hmanageable
    exact ⟨request, hrequest, hmanageable⟩

/-- The byte at the head of a request is the first one the server looks at. -/
theorem Packet.byte_zero {request : Packet} {kind : UInt8} (hkind : request.data[0]? = some kind) :
    request.byte 0 = kind := by
  rw [byte, List.getD_eq_getElem?_getD, hkind, Option.getD_some]

/-- A request for the number takes a buffer. -/
theorem Connection.serve_proper_iff_of_amount {connection : Connection R} {request : Packet}
    (hrequest : connection.request = some request)
    (hkind : request.data[0]? = some dippDtpObservationAmountRequest) :
    (connection.serve ring unpack).Proper connection ↔ connection.bufferAvailable = true := by
  have hpositive : 0 < request.data.length := (List.getElem?_eq_some_iff.mp hkind).1
  have hanswer : connection.answer ring unpack request =
      (connection.respond (encode 4 (ring.amountOfElements connection.ring).toNat)).after
        [.inspect 0] := by
    rw [answer, Packet.byte_zero hkind, if_pos rfl]
  rw [serve_of_request ring unpack hrequest, hanswer]
  rcases connection.respond_cases (encode 4 (ring.amountOfElements connection.ring).toNat) with
    ⟨hbuffer, hresponse⟩ | ⟨hbuffer, hresponse⟩
  · rw [hresponse]
    refine iff_of_true ?_ hbuffer
    exact Service.proper_of_response hrequest ⟨hbuffer, request, hrequest, .inl hkind⟩
      (List.forall_mem_singleton.mpr hpositive) _
  · rw [hresponse]
    exact iff_of_false (Service.not_proper_of_fault rfl) (by simp [hbuffer])

/-- A request for metadata takes the bytes of an index, a buffer, and the metadata. -/
theorem Connection.serve_proper_iff_of_meta {connection : Connection R} {request : Packet}
    (hrequest : connection.request = some request)
    (hkind : request.data[0]? = some dippDtpObservationMetaRequest) :
    (connection.serve ring unpack).Proper connection ↔ 3 ≤ request.data.length ∧
      connection.bufferAvailable = true ∧
        (ring.isValidIndex connection.ring request.index.toUInt32 = true →
          (observationGetMetadata ring unpack connection.ring request.index).isSome = true) := by
  have hanswer : connection.answer ring unpack request =
      (connection.answerMeta ring unpack request.index).after
        [.inspect 0, .inspect 0, .inspect 1, .inspect 2] := by
    rw [answer, Packet.byte_zero hkind, if_neg (by decide), if_pos rfl]
  rw [serve_of_request ring unpack hrequest, hanswer]
  by_cases hlong : 3 ≤ request.data.length
  · rcases connection.answerMeta_cases ring unpack request.index with
      ⟨hbuffer, hmetadata, payload, hresponse⟩ | ⟨hmissing, fault, hresponse⟩
    · have hinspected : ∀ i ∈ [0, 0, 1, 2], i < request.data.length := by
        simp
        omega
      rw [hresponse]
      refine iff_of_true ?_ ⟨hlong, hbuffer, hmetadata⟩
      exact Service.proper_of_response hrequest
        ⟨hbuffer, request, hrequest, .inr ⟨hkind, hlong⟩⟩ hinspected payload
    · rw [hresponse]
      exact iff_of_false (Service.not_proper_of_fault rfl) fun h => hmissing h.2
  · refine iff_of_false (fun hproper => ?_) fun h => hlong h.1
    obtain ⟨other, hother, hinside⟩ := hproper.inspects 2 (by
      refine List.mem_cons_of_mem _ (Service.mem_followedBy ?_ _)
      exact List.mem_append_left _ (by simp))
    obtain rfl : request = other := Option.some.inj (hrequest.symm.trans hother)
    omega

/-- Nothing is expected from a request of another kind, and nothing is done about it. -/
theorem Connection.serve_proper_of_other {connection : Connection R} {request : Packet}
    (hrequest : connection.request = some request) {kind : UInt8}
    (hkind : request.data[0]? = some kind) (hamount : kind ≠ dippDtpObservationAmountRequest)
    (hmeta : kind ≠ dippDtpObservationMetaRequest) :
    (connection.serve ring unpack).Proper connection := by
  have hpositive : 0 < request.data.length := (List.getElem?_eq_some_iff.mp hkind).1
  have hanswer : connection.answer ring unpack request = ⟨[.inspect 0, .inspect 0], none⟩ := by
    rw [answer, Packet.byte_zero hkind, if_neg hamount, if_neg hmeta]
  have hunanswerable : ¬ connection.Answerable := by
    rintro ⟨-, other, hother, hcomplete⟩
    obtain rfl : request = other := Option.some.inj (hrequest.symm.trans hother)
    rcases hcomplete with hcomplete | ⟨hcomplete, -⟩
    · exact hamount (Option.some.inj (hkind.symm.trans hcomplete))
    · exact hmeta (Option.some.inj (hkind.symm.trans hcomplete))
  rw [serve_of_request ring unpack hrequest, hanswer]
  refine ⟨?_, fun h => absurd h hunanswerable, fun _ => rfl, ?_, rfl⟩
  · intro i hi
    refine ⟨request, hrequest, ?_⟩
    obtain rfl : i = 0 := by simpa [Service.after, Service.followedBy] using hi
    exact hpositive
  · simp [Service.after, Service.followedBy]

/-- A connection is served as it should be exactly if it is manageable. -/
theorem Connection.serve_proper_iff (connection : Connection R) :
    (connection.serve ring unpack).Proper connection ↔ connection.Manageable ring unpack := by
  cases hrequest : connection.request with
  | none =>
    have hfault : (connection.serve ring unpack).fault.isSome = true := by
      rw [serve, hrequest]
      rfl
    refine iff_of_false (Service.not_proper_of_fault hfault) ?_
    rintro ⟨request, hsome, -⟩
    rw [hrequest] at hsome
    contradiction
  | some request =>
    rw [manageable_iff ring unpack hrequest]
    cases hdata : request.data with
    | nil =>
      refine iff_of_false (fun hproper => ?_) fun h => h.1 rfl
      obtain ⟨other, hother, hinside⟩ := hproper.inspects 0 (inspect_zero ring unpack hrequest)
      obtain rfl : request = other := Option.some.inj (hrequest.symm.trans hother)
      simp [hdata] at hinside
    | cons kind rest =>
      rw [← hdata]
      have hkind : request.data[0]? = some kind := by rw [hdata]; rfl
      have hne : request.data ≠ [] := by rw [hdata]; exact List.cons_ne_nil _ _
      by_cases hamount : kind = dippDtpObservationAmountRequest
      · subst hamount
        have hother : request.data[0]? ≠ some dippDtpObservationMetaRequest := by
          rw [hkind]
          decide
        rw [serve_proper_iff_of_amount ring unpack hrequest hkind]
        exact ⟨fun h => ⟨hne, fun _ => h, fun hmeta => absurd hmeta hother⟩, fun h => h.2.1 hkind⟩
      · by_cases hmeta : kind = dippDtpObservationMetaRequest
        · subst hmeta
          have hother : request.data[0]? ≠ some dippDtpObservationAmountRequest := by
            rw [hkind]
            decide
          rw [serve_proper_iff_of_meta ring unpack hrequest hkind]
          exact ⟨fun h => ⟨hne, fun hamount => absurd hamount hother, fun _ => h⟩,
            fun h => h.2.2 hkind⟩
        · refine iff_of_true (serve_proper_of_other ring unpack hrequest hkind hamount hmeta)
            ⟨hne, fun h => ?_, fun h => ?_⟩
          · exact absurd (Option.some.inj (hkind.symm.trans h)) hamount
          · exact absurd (Option.some.inj (hkind.symm.trans h)) hmeta

/-- Every connection is served as it should be, in order. -/
def SurvivesAll (accepted : List (Option (Connection R))) : Prop :=
  List.Forall₂ (fun connection service => Service.Proper connection service)
    (accepted.filterMap id) (dtpIndecesServer ring unpack accepted)

/-- Whatever is accepted over time, the server handles every connection as it should exactly if
every connection is manageable. -/
theorem dtpIndecesServer_survives_iff (accepted : List (Option (Connection R))) :
    SurvivesAll ring unpack accepted ↔
      ∀ connection, some connection ∈ accepted → connection.Manageable ring unpack := by
  induction accepted with
  | nil => exact iff_of_true .nil fun _ h => absurd h List.not_mem_nil
  | cons head rest ih =>
    cases head with
    | none => simpa [SurvivesAll, dtpIndecesServer] using ih
    | some connection =>
      have hhead := connection.serve_proper_iff ring unpack
      have hall : (∀ other, some other ∈ some connection :: rest → other.Manageable ring unpack) ↔
          connection.Manageable ring unpack ∧
            ∀ other, some other ∈ rest → other.Manageable ring unpack := by
        simp [List.mem_cons]
      have hfilter : (some connection :: rest).filterMap id = connection :: rest.filterMap id := rfl
      rw [hall, ← hhead, ← ih, SurvivesAll, SurvivesAll, dtpIndecesServer, hfilter]
      cases hfault : (connection.serve ring unpack).fault with
      | none => exact List.forall₂_cons
      | some fault =>
        -- the server does not go on, and did not handle this connection as it should
        have himproper : ¬ (connection.serve ring unpack).Proper connection :=
          Service.not_proper_of_fault (by rw [hfault]; rfl)
        exact iff_of_false (fun h => himproper (List.forall₂_cons.mp h).1) fun h => himproper h.1

/-- A client that connects and sends nothing ends the server. -/
theorem dtpIndecesServer_not_always_survives :
    ¬ ∀ (ring : RingDriver (List (List UInt8))) (unpack : List UInt8 → Option Metadata)
        (accepted : List (Option (Connection (List (List UInt8))))),
        SurvivesAll ring unpack accepted := by
  intro h
  have hsurvives := h listRing (fun _ => none) [some ⟨none, true, [], 0⟩]
  have halive := (List.forall₂_cons.mp hsurvives).1.alive
  contradiction

end Dipp
