import Dipp.Dtp.Concurrent

/-!
# Sessions

What somebody wants from the server is the answer to one request, one payload, or a
download of everything below the reported amount, over any number of connections. In
every interleaving with the uploads each of them comes to what the ring gave as a whole
at one moment. A download is a snapshot of the ring, however long it takes.
-/

namespace Dipp

open LittleEndian Framing Readers

variable {R : Type*} (ring : RingDriver R) (unpack : List UInt8 → Option Metadata)

/-- A client downloads what the ring has: it asks for the number of observations, and then for the
metadata and the payload behind each index below it. -/
structure Client where
  amountStale : ℕ → UInt8
  stale : ℕ → ℕ → UInt8
  padding : ℕ → UInt16
  plan : ReadPlan

/-- What a client has of one observation: how its request was served, and its payload. -/
structure Observation where
  described : Service
  payload : Option (UInt32 × List (List UInt8))
  deriving DecidableEq, Repr

/-- The amount in a reply. -/
def Service.amount (service : Service) : ℕ := decode service.sent.flatten

/-- An observation of a ring that nobody writes to. -/
def Client.observe (client : Client) (r : R) (i : ℕ) : Observation where
  described :=
    (metaConnection r (UInt16.ofNat i) (client.stale i) (client.padding i)).serve ring unpack
  payload := transfer ring client.plan r (UInt16.ofNat i)

/-- A download from a ring that nobody writes to. -/
def Client.download (client : Client) (r : R) : List Observation :=
  let reply := (amountConnection r client.amountStale 0).serve ring unpack
  (List.range reply.amount).map (client.observe ring unpack r)

namespace Concurrent

/-- An observation, over the connection and the transfer that it takes. -/
def observe (client : Client) (i : ℕ) : Reader R Observation :=
  (serve ring unpack (metaConnection () (UInt16.ofNat i) (client.stale i) (client.padding i))).bind
    fun described => (transfer ring client.plan (UInt16.ofNat i)).map fun payload =>
      ⟨described, payload⟩

/-- A download, over all its connections and transfers. -/
def download (client : Client) : Reader R (List Observation) :=
  (serve ring unpack (amountConnection () client.amountStale 0)).bind fun reply =>
    Reader.all ((List.range reply.amount).map (observe ring unpack client))

variable {ring unpack} {empty : R} {unevicted : List (List UInt8) → Prop}
  {happends : ring.Appends empty unevicted} {elements : List (List UInt8)}

/-- Alone, an observation is made as a whole. -/
theorem runAt_observe (r : R) (client : Client) (i : ℕ) :
    (observe ring unpack client i).runAt r = client.observe ring unpack r i := by
  rw [observe, Reader.runAt_bind, runAt_serve, Reader.runAt_map, runAt_transfer]
  rfl

/-- Alone, a download is made as a whole. -/
theorem runAt_download (r : R) (client : Client) :
    (download ring unpack client).runAt r = client.download ring unpack r := by
  have hobserve : (Reader.runAt r ∘ observe ring unpack client) = client.observe ring unpack r :=
    funext fun i => runAt_observe r client i
  rw [download, Reader.runAt_bind, runAt_serve, Reader.runAt_all, List.map_map, hobserve]
  rfl

/-- An observation at a valid index is settled. -/
theorem observe_settles (hvalid : (growth unpack happends).valid elements) (client : Client) {i : ℕ}
    (hi : i < elements.length) :
    (observe ring unpack client i).Settles (growth unpack happends)
      (client.observe ring unpack (elements.foldl ring.write empty) i) elements := by
  have hindex : (UInt16.ofNat i).toNat < elements.length := by
    rw [UInt16.toNat_ofNat']
    exact Nat.lt_of_le_of_lt (Nat.mod_le _ _) hi
  obtain ⟨service, hservice⟩ :=
    serve_metaConnection_settles hvalid hindex (client.stale i) (client.padding i)
  have hobserve : (observe ring unpack client i).Settles (growth unpack happends)
      ⟨service, some (transferred client.plan elements[(UInt16.ofNat i).toNat])⟩ elements :=
    hservice.bind hvalid fun elements' hgrows hvalid' =>
      (transfer_settles hvalid' (getElem?_of_grows hgrows (List.getElem?_eq_getElem hindex))
        client.plan).map hvalid' _
  have halone := hobserve.runAt hvalid
  rw [runAt_observe] at halone
  rw [← halone] at hobserve
  exact hobserve

/-- The number in the reply is the number of elements. -/
theorem amount_of_contains {r : R} (hring : ring.Contains r elements) (stale : ℕ → UInt8) :
    ((amountConnection r stale 0).serve ring unpack).amount = elements.length := by
  rw [Service.amount, sent_amountConnection, List.flatten_singleton,
    decode_encode_of_lt (ring.amountOfElements r).toNat_lt, hring.amount]

/-- A download has one observation for each element. -/
theorem download_of_contains (client : Client) {r : R} (hring : ring.Contains r elements) :
    client.download ring unpack r =
      (List.range elements.length).map (client.observe ring unpack r) := by
  rw [Client.download, amount_of_contains hring]

/-- A download is linearizable. -/
theorem linearizable_download (client : Client) :
    (download ring unpack client).Linearizable (growth unpack happends) := by
  have hfirst : download ring unpack client =
      (Reader.ask fun r => (amountConnection r client.amountStale 0).serve ring unpack).bind
        fun reply => Reader.all ((List.range reply.amount).map (observe ring unpack client)) := rfl
  rw [hfirst]
  apply Reader.linearizable_ask
  intro elements hvalid
  refine ⟨_, Reader.settles_all hvalid fun i hi => observe_settles hvalid client ?_⟩
  rw [← amount_of_contains (contains_of_valid hvalid) client.amountStale]
  exact List.mem_range.mp hi

/-- What has been written is what was there and what was added. -/
theorem after_eq {ι : Type*} (uploaded : List (List UInt8))
    (events : List (Event ι (List UInt8))) :
    (growth unpack happends).after uploaded events = uploaded ++ written events := by
  rw [Growth.after]
  induction written events generalizing uploaded with
  | nil => exact (List.append_nil uploaded).symm
  | cons element rest ih =>
    rw [List.foldl_cons, ih]
    exact List.append_assoc uploaded [element] rest

/-- While well-formed batches are uploaded, there are blocks of images in the ring. -/
theorem valid_of_written {calls : List (UploadCall × List (List UInt8))}
    (hcalls : ∀ call ∈ calls, call.1.Delivers unpack call.2)
    (hunevicted : unevicted (calls.flatMap Prod.snd)) {ι : Type*} {uploaded : List (List UInt8)}
    {events : List (Event ι (List UInt8))}
    (hwritten : uploaded ++ written events <+: calls.flatMap fun call => call.1.elements unpack) :
    (growth unpack happends).valid (uploaded ++ written events) := by
  have helements : (calls.flatMap fun call => call.1.elements unpack) = calls.flatMap Prod.snd :=
    List.flatMap_congr fun call hcall => (hcalls call hcall).elements_eq.1
  rw [helements] at hwritten
  apply (growth unpack happends).valid_of_grows hwritten
  refine ⟨hunevicted, fun element helement => ?_⟩
  obtain ⟨call, hcall, hblock⟩ := List.mem_flatMap.mp helement
  exact ⟨(hcalls call hcall).elements_eq.2 element hblock, (hcalls call hcall).length_lt hblock⟩

end Concurrent

/-- What somebody wants from the server: one request, one payload, or everything. -/
inductive Session where
  | request (connection : Connection Unit)
  | transfer (plan : ReadPlan) (payloadId : UInt16)
  | download (client : Client)

/-- What comes of it. -/
inductive SessionResult where
  | service (service : Service)
  | payload (payload : Option (UInt32 × List (List UInt8)))
  | observations (observations : List Observation)
  deriving DecidableEq, Repr

/-- The result with a ring that nobody writes to. -/
def Session.alone (r : R) : Session → SessionResult
  | request connection => .service ((connection.withRing r).serve ring unpack)
  | transfer plan payloadId => .payload (Dipp.transfer ring plan r payloadId)
  | download client => .observations (client.download ring unpack r)

/-- The session with a ring that may be written to between two calls of its library. -/
def Session.reader : Session → Reader R SessionResult
  | request connection => (Concurrent.serve ring unpack connection).map .service
  | transfer plan payloadId => (Concurrent.transfer ring plan payloadId).map .payload
  | download client => (Concurrent.download ring unpack client).map .observations

/-- Alone, a session is had as a whole. -/
theorem Session.runAt_reader (r : R) (session : Session) :
    (session.reader ring unpack).runAt r = session.alone ring unpack r := by
  cases session with
  | request connection =>
    rw [reader, Reader.runAt_map, Concurrent.runAt_serve, alone]
  | transfer plan payloadId =>
    rw [reader, Reader.runAt_map, Concurrent.runAt_transfer, alone]
  | download client =>
    rw [reader, Reader.runAt_map, Concurrent.runAt_download, alone]

variable {ring unpack} {empty : R} {unevicted : List (List UInt8) → Prop}

/-- Every session is linearizable. -/
theorem Session.linearizable {happends : ring.Appends empty unevicted} (session : Session) :
    (session.reader ring unpack).Linearizable (Concurrent.growth unpack happends) := by
  cases session with
  | request connection => exact (Concurrent.linearizable_serve connection).map _
  | transfer plan payloadId => exact (Concurrent.linearizable_transfer plan payloadId).map _
  | download client => exact (Concurrent.linearizable_download client).map _

variable {ι : Type*} [DecidableEq ι]

/-- While well-formed batches are uploaded, and in whatever way their elements and the calls of the
sessions follow one another, a session that is done has the result that it would have had alone with
the ring as it was at its first call. -/
theorem sessions_linearizable (happends : ring.Appends empty unevicted)
    (calls : List (UploadCall × List (List UInt8)))
    (hcalls : ∀ call ∈ calls, call.1.Delivers unpack call.2)
    (hunevicted : unevicted (calls.flatMap Prod.snd)) (sessions : ι → Session)
    (uploaded : List (List UInt8)) (events : List (Event ι (List UInt8)))
    (hwritten : uploaded ++ written events <+: calls.flatMap fun call => call.1.elements unpack)
    {last : System ι R SessionResult}
    (hrun : Execution.run (step ring.write) events
      ⟨uploaded.foldl ring.write empty, fun i => (sessions i).reader ring unpack⟩ = .ok last)
    (i : ι) {result : SessionResult} (hdone : last.reader i = .done result) :
    ∃ earlier later, events = earlier ++ later ∧ .look i ∉ earlier ∧
      ((sessions i).reader ring unpack = .done result ∨ later.head? = some (.look i)) ∧
      result = (sessions i).alone ring unpack
        ((uploaded ++ written earlier).foldl ring.write empty) := by
  have hvalid : (Concurrent.growth unpack happends).valid
      ((Concurrent.growth unpack happends).after uploaded events) := by
    rw [Concurrent.after_eq]
    exact Concurrent.valid_of_written hcalls hunevicted hwritten
  obtain ⟨earlier, later, hevents, hnone, hfirst, hresult⟩ :=
    run_linearizable hrun rfl hvalid (sessions i).linearizable hdone
  refine ⟨earlier, later, hevents, hnone, hfirst, ?_⟩
  rw [hresult, Session.runAt_reader, Concurrent.after_eq]
  rfl

/-- The parts that are asked for make up the payload, in their order. -/
def ReadPlan.Complete (plan : ReadPlan) : Prop :=
  ∀ element, element.length < 2 ^ 32 → (Concurrent.transferred plan element).2.flatten = element

/-- The observation shows the element at its index: the values of its metadata and all its bytes. -/
structure Observation.Shows (unpack : List UInt8 → Option Metadata) (observation : Observation)
    (n : ℕ) (element : List UInt8) : Prop where
  described : ∃ metaSize metadata obsMeta,
    HeadBlock unpack element metaSize metadata element.length ∧
      observation.described.sent = [1 :: obsMeta] ∧ ObservationMeta.ofBytes obsMeta =
        ⟨UInt16.ofNat n, metadata.size.toUInt32, metadata.obid.toUInt32⟩
  payload : ∃ parts, observation.payload = some (UInt32.ofNat element.length, parts) ∧
    parts.flatten = element

/-- What is observed at an index shows the element there. -/
theorem Client.observe_shows {happends : ring.Appends empty unevicted}
    {elements : List (List UInt8)} (hvalid : (Concurrent.growth unpack happends).valid elements)
    (client : Client) (hplan : client.plan.Complete) {n : ℕ} (hn : n < 2 ^ 16)
    {element : List UInt8} (helement : elements[n]? = some element) :
    (client.observe ring unpack (elements.foldl ring.write empty) n).Shows unpack n element := by
  obtain ⟨hblock, hlength⟩ := hvalid.2 element (List.mem_of_getElem? helement)
  have hindex : elements[(UInt16.ofNat n).toNat]? = some element := by
    rwa [toNat_ofNat_index hn]
  constructor
  · obtain ⟨metaSize, metadata, hserved⟩ :=
      servedAs_of_holds (Concurrent.contains_of_valid hvalid).toHolds hindex hlength hblock
    obtain ⟨obsMeta, hsent, hvalues⟩ := hserved.reply (client.stale n) (client.padding n)
    exact ⟨metaSize, metadata, obsMeta, hserved.block, hsent, hvalues⟩
  · have htransfer := (Concurrent.transfer_settles hvalid hindex client.plan).runAt hvalid
    rw [Concurrent.runAt_transfer] at htransfer
    exact ⟨_, htransfer, hplan element hlength⟩

/-- As long as there are blocks of images in the ring, a download that is done shows the elements of
one moment. -/
theorem Session.snapshot {happends : ring.Appends empty unevicted} {sessions : ι → Session}
    {uploaded : List (List UInt8)} {events : List (Event ι (List UInt8))}
    (hvalid : (Concurrent.growth unpack happends).valid (uploaded ++ written events))
    {last : System ι R SessionResult}
    (hrun : Execution.run (step ring.write) events
      ⟨uploaded.foldl ring.write empty, fun i => (sessions i).reader ring unpack⟩ = .ok last)
    {i : ι} {client : Client} (hclient : sessions i = .download client)
    (hplan : client.plan.Complete) {observations : List Observation}
    (hdone : last.reader i = .done (.observations observations)) :
    ∃ earlier later, events = earlier ++ .look i :: later ∧ .look i ∉ earlier ∧
      observations.length = (uploaded ++ written earlier).length ∧
      ∀ n < 2 ^ 16, ∀ element, (uploaded ++ written earlier)[n]? = some element →
        ∃ observation, observations[n]? = some observation ∧
          observation.Shows unpack n element := by
  have hafter : (Concurrent.growth unpack happends).valid
      ((Concurrent.growth unpack happends).after uploaded events) := by
    rwa [Concurrent.after_eq]
  obtain ⟨earlier, later, rfl, hnone, hfirst, hresult⟩ :=
    run_linearizable hrun rfl hafter (sessions i).linearizable hdone
  -- a download starts with the question for the amount
  have hlook : later.head? = some (.look i) := by
    apply hfirst.resolve_left
    simp only [hclient]
    nofun
  obtain ⟨rest, rfl⟩ := List.head?_eq_some_iff.mp hlook
  have hearlier : (Concurrent.growth unpack happends).valid (uploaded ++ written earlier) := by
    apply (Concurrent.growth unpack happends).valid_of_grows _ hvalid
    rw [written_append, ← List.append_assoc]
    exact List.prefix_append _ _
  rw [Session.runAt_reader, Concurrent.after_eq, hclient] at hresult
  have hobservations : observations =
      client.download ring unpack ((uploaded ++ written earlier).foldl ring.write empty) :=
    SessionResult.observations.inj hresult
  rw [Concurrent.download_of_contains client (Concurrent.contains_of_valid hearlier)]
    at hobservations
  rw [hobservations]
  refine ⟨earlier, rest, rfl, hnone, by rw [List.length_map, List.length_range],
    fun n hn element helement => ⟨_, ?_, client.observe_shows hearlier hplan hn helement⟩⟩
  rw [List.getElem?_map, List.getElem?_range (List.getElem?_eq_some_iff.mp helement).1]
  rfl

/-- A download is a snapshot: in every interleaving with the uploads and with other sessions, it
shows exactly the elements that the ring had when their number was asked for, as long as they can be
told apart by their indices. -/
theorem download_is_snapshot (happends : ring.Appends empty unevicted)
    (calls : List (UploadCall × List (List UInt8)))
    (hcalls : ∀ call ∈ calls, call.1.Delivers unpack call.2)
    (hunevicted : unevicted (calls.flatMap Prod.snd)) (sessions : ι → Session)
    (uploaded : List (List UInt8)) (events : List (Event ι (List UInt8)))
    (hwritten : uploaded ++ written events <+: calls.flatMap fun call => call.1.elements unpack)
    {last : System ι R SessionResult}
    (hrun : Execution.run (step ring.write) events
      ⟨uploaded.foldl ring.write empty, fun i => (sessions i).reader ring unpack⟩ = .ok last)
    (i : ι) {client : Client} (hclient : sessions i = .download client)
    (hplan : client.plan.Complete) {observations : List Observation}
    (hdone : last.reader i = .done (.observations observations)) :
    ∃ earlier later, events = earlier ++ .look i :: later ∧ .look i ∉ earlier ∧
      observations.length = (uploaded ++ written earlier).length ∧
      ∀ n < 2 ^ 16, ∀ element, (uploaded ++ written earlier)[n]? = some element →
        ∃ observation, observations[n]? = some observation ∧
          observation.Shows unpack n element := by
  have hvalid : (Concurrent.growth unpack happends).valid (uploaded ++ written events) :=
    Concurrent.valid_of_written hcalls hunevicted hwritten
  exact Session.snapshot hvalid hrun hclient hplan hdone

/-- The list of elements is a ring to which elements are appended. -/
theorem listRing_appends :
    listRing.Appends [] fun elements =>
      elements.flatten.length < 2 ^ 32 ∧ elements.length < 2 ^ 32 where
  contains := fun elements ⟨hbytes, hcount⟩ => by
    refine ⟨listRing_keeps elements hbytes, ?_⟩
    rw [listRing_foldl_write, List.nil_append]
    exact UInt32.toNat_ofNat_of_lt' hcount
  unevicted_of_append := fun {elements more} ⟨hbytes, hcount⟩ => by
    rw [List.flatten_append, List.length_append] at hbytes
    rw [List.length_append] at hcount
    omega
  offset := fun {elements more} index offset _ hindex => by
    rw [listRing_foldl_write, listRing_foldl_write, List.nil_append, List.nil_append]
    simp only [listRing, List.take_append_of_le_length (Nat.le_of_lt hindex)]

/-- Every payload in one part. -/
def wholePlan : ReadPlan where
  parts := fun size => [(0, size)]
  inside := fun size part hpart => by
    obtain rfl := List.mem_singleton.mp hpart
    exact Nat.le_of_eq (Nat.zero_add _)

/-- It is complete. -/
theorem wholePlan_complete : wholePlan.Complete := by
  intro element hlength
  have hsize : (UInt32.ofNat element.length).toNat = element.length :=
    UInt32.toNat_ofNat_of_lt' hlength
  simp only [Concurrent.transferred, wholePlan, List.map_singleton, List.flatten_singleton,
    UInt32.toNat_zero, List.drop_zero, hsize, List.take_length]

/-- One asks for the metadata of the first element, and another one for everything. -/
def sampleSessions : Bool → Session
  | false => .request (metaConnection () 0 (fun _ => 0) 0)
  | true => .download ⟨fun _ => 0, fun _ _ => 0, fun _ => 0, wholePlan⟩

/-- The second element is written when the sessions have begun. -/
def sampleSessionEvents : List (Event Bool (List UInt8)) :=
  [.write sampleBlock, .look false, .look true, .look false, .write sampleBlock] ++
    List.replicate 3 (.look false) ++ List.replicate 9 (.look true)

/-- The ring is empty when they come. -/
def sampleSystem : System Bool (List (List UInt8)) SessionResult :=
  ⟨[], fun i => (sampleSessions i).reader listRing sampleUnpack⟩

/-- Two batches of one image are uploaded. -/
theorem sampleSessionEvents_written :
    [] ++ written sampleSessionEvents <+:
      (List.replicate 2 (sampleCall, [sampleBlock])).flatMap fun call =>
        call.1.elements sampleUnpack := by
  decide

/-- The answer to the request is one of the ring with one element. -/
theorem sessions_linearizable_sample :
    ∃ last result, Execution.run (step listRing.write) sampleSessionEvents sampleSystem = .ok last ∧
      last.reader false = .done result ∧
      ∃ earlier later, sampleSessionEvents = earlier ++ later ∧ .look false ∉ earlier ∧
        ((sampleSessions false).reader listRing sampleUnpack = .done result ∨
          later.head? = some (.look false)) ∧
        result = (sampleSessions false).alone listRing sampleUnpack
          (([] ++ written earlier).foldl listRing.write []) :=
  ⟨_, _, rfl, rfl, sessions_linearizable listRing_appends _ (samples_deliver 2) (by decide)
    sampleSessions [] _ sampleSessionEvents_written rfl false rfl⟩

/-- The download shows the element that was there when it began. -/
theorem download_is_snapshot_sample :
    ∃ last observations,
      Execution.run (step listRing.write) sampleSessionEvents sampleSystem = .ok last ∧
      last.reader true = .done (.observations observations) ∧
      ∃ earlier later, sampleSessionEvents = earlier ++ .look true :: later ∧
        .look true ∉ earlier ∧ observations.length = ([] ++ written earlier).length ∧
        ∀ n < 2 ^ 16, ∀ element, ([] ++ written earlier)[n]? = some element →
          ∃ observation, observations[n]? = some observation ∧
            observation.Shows sampleUnpack n element :=
  ⟨_, _, rfl, rfl, download_is_snapshot listRing_appends _ (samples_deliver 2) (by decide)
    sampleSessions [] _ sampleSessionEvents_written rfl true rfl wholePlan_complete rfl⟩

end Dipp
