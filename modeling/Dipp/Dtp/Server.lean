import Dipp.Dtp.Ring

/-!
# The DTP side of the ring

The transfer server asks for the payload behind an id, which is an index of the ring, and
reads it in parts. Next to it, `dtp_indeces_server` answers one request for each
connection: the number of observations, or the metadata of one of them, which it cuts out
of the element and unpacks. Serving a connection is recorded as the statements that touch
the two packets and the connection. A null pointer in the place of the request, of the
response or of the metadata ends the server.
-/

namespace Dipp

open LittleEndian

variable {R : Type*} (ring : RingDriver R) (unpack : List UInt8 → Option Metadata)

/-- Read a part of an observation. The size is returned as it was given. -/
def observationRead (r : R) (index : UInt16) (offsetWithinObservation size : UInt32) :
    List UInt8 × UInt32 :=
  (ring.read r (ring.offset r index.toUInt32 offsetWithinObservation) size, size)

/-- What the transfer server is told about a payload: its size, and the function to read it with. -/
structure PayloadMeta where
  size : UInt32
  read : (index : UInt16) → (offset size : UInt32) → List UInt8 × UInt32

/-- The payload id is interpreted as the index; there is no payload at an invalid index. -/
def getPayloadMeta (r : R) (payloadId : UInt16) : Option PayloadMeta :=
  if ring.isValidIndex r payloadId.toUInt32 then
    some ⟨ring.elementSize r payloadId.toUInt32, observationRead ring r⟩
  else none

/-- The first four bytes of an observation are the size of its metadata. -/
def observationGetMetaSize (r : R) (index : UInt16) : UInt32 :=
  UInt32.ofNat (decode (observationRead ring r index 0 4).1)

/-- Unpack the bytes behind the size; the result may be null. -/
def observationGetMetadata (r : R) (index : UInt16) : Option Metadata :=
  unpack (observationRead ring r index 4 (observationGetMetaSize ring r index)).1

/-- The part of the metadata that is transferred. -/
structure ObservationMeta where
  index : UInt16
  size : UInt32
  obid : UInt32
  deriving DecidableEq, Repr

/-- Take it from the unpacked metadata, which is used without a check. -/
def observationGetDtpMeta (r : R) (index : UInt16) : Option ObservationMeta :=
  (observationGetMetadata ring unpack r index).map fun metadata =>
    ⟨index, metadata.size.toUInt32, metadata.obid.toUInt32⟩

/-- The bytes of the structure: two bytes of padding follow the index. -/
def ObservationMeta.toBytes (padding : UInt16) (obsMeta : ObservationMeta) : List UInt8 :=
  encode 2 obsMeta.index.toNat ++ (encode 2 padding.toNat ++
    (encode 4 obsMeta.size.toNat ++ encode 4 obsMeta.obid.toNat))

/-- The structure whose memory holds the given bytes. -/
def ObservationMeta.ofBytes (bytes : List UInt8) : ObservationMeta where
  index := UInt16.ofNat (decode (bytes.take 2))
  size := UInt32.ofNat (decode ((bytes.drop 4).take 4))
  obid := UInt32.ofNat (decode ((bytes.drop 8).take 4))

/-- The structure survives the trip through a packet, whatever its padding. -/
theorem ObservationMeta.ofBytes_toBytes (padding : UInt16) (obsMeta : ObservationMeta) :
    ofBytes (obsMeta.toBytes padding) = obsMeta := by
  obtain ⟨index, size, obid⟩ := obsMeta
  have hindex : decode (encode 2 index.toNat) = index.toNat :=
    decode_encode_of_lt index.toNat_lt
  have hsize : decode (encode 4 size.toNat) = size.toNat := decode_encode_of_lt size.toNat_lt
  have hobid : decode (encode 4 obid.toNat) = obid.toNat := decode_encode_of_lt obid.toNat_lt
  simp only [ofBytes, toBytes, mk.injEq]
  refine ⟨?_, ?_, ?_⟩
  · rw [List.take_left' (length_encode 2 _), hindex, UInt16.ofNat_toNat]
  · rw [← List.append_assoc, List.drop_left' (by simp), List.take_left' (length_encode 4 _),
      hsize, UInt32.ofNat_toNat]
  · rw [← List.append_assoc, ← List.append_assoc, List.drop_left' (by simp),
      List.take_of_length_le (by simp), hobid, UInt32.ofNat_toNat]

/-- The kind of a request for the number of observations. -/
def dippDtpObservationAmountRequest : UInt8 := 0

/-- The kind of a request for the metadata of an observation. -/
def dippDtpObservationMetaRequest : UInt8 := 1

/-- A packet as it was read: the bytes that came, and what its buffer holds behind them. -/
structure Packet where
  data : List UInt8
  stale : ℕ → UInt8

/-- The byte at a position of the buffer; the length of the packet is not looked at. -/
def Packet.byte (packet : Packet) (i : ℕ) : UInt8 := packet.data.getD i (packet.stale i)

/-- The index in a metadata request. -/
def Packet.index (request : Packet) : UInt16 :=
  (request.byte 1).toUInt16 + (request.byte 2).toUInt16 <<< 8

/-- An accepted connection: what is read from it within the timeout, whether there is a buffer for a
response, the ring at that time, and what the padding of a response happens to be. -/
structure Connection (R : Type*) where
  request : Option Packet
  bufferAvailable : Bool
  ring : R
  padding : UInt16

/-- What the server does with the packets and the connection. -/
inductive ServerEvent where
  | takeRequest
  | inspect (i : ℕ)
  | takeResponse
  | send (payload : List UInt8)
  | freeResponse
  | freeRequest
  | close
  deriving DecidableEq, Repr

/-- The null pointer that is used. -/
inductive Fault where
  | missingRequest
  | missingResponse
  | missingMetadata
  deriving DecidableEq, Repr

/-- How a connection is served: what is done, and whether it ends in a fault. -/
structure Service where
  events : List ServerEvent
  fault : Option Fault
  deriving DecidableEq, Repr

/-- The service with events in front. -/
def Service.after (earlier : List ServerEvent) (service : Service) : Service :=
  { service with events := earlier ++ service.events }

/-- The service with events behind, if it gets so far. -/
def Service.followedBy (later : List ServerEvent) (service : Service) : Service :=
  match service.fault with
  | none => ⟨service.events ++ later, none⟩
  | some fault => ⟨service.events, some fault⟩

/-- Get a buffer, fill it, send it, and free it. -/
def Connection.respond (connection : Connection R) (payload : List UInt8) : Service :=
  if connection.bufferAvailable then ⟨[.takeResponse, .send payload, .freeResponse], none⟩
  else ⟨[], some .missingResponse⟩

/-- The answer to a metadata request. -/
def Connection.answerMeta (connection : Connection R) (index : UInt16) : Service :=
  if ring.isValidIndex connection.ring index.toUInt32 then
    match observationGetDtpMeta ring unpack connection.ring index with
    | none => ⟨[], some .missingMetadata⟩
    | some obsMeta => connection.respond (1 :: obsMeta.toBytes connection.padding)
  else connection.respond [0]

/-- The answer to a request, by its kind. -/
def Connection.answer (connection : Connection R) (request : Packet) : Service :=
  if request.byte 0 = dippDtpObservationAmountRequest then
    (connection.respond (encode 4 (ring.amountOfElements connection.ring).toNat)).after
      [.inspect 0]
  else if request.byte 0 = dippDtpObservationMetaRequest then
    (connection.answerMeta ring unpack request.index).after
      [.inspect 0, .inspect 0, .inspect 1, .inspect 2]
  else ⟨[.inspect 0, .inspect 0], none⟩

/-- One connection, from reading the request to closing it. -/
def Connection.serve (connection : Connection R) : Service :=
  match connection.request with
  | none => ⟨[], some .missingRequest⟩
  | some request =>
    ((connection.answer ring unpack request).followedBy [.freeRequest, .close]).after
      [.takeRequest]

/-- The loop over what `csp_accept` returns: null after a timeout, or a connection. -/
def dtpIndecesServer : List (Option (Connection R)) → List Service
  | [] => []
  | none :: rest => dtpIndecesServer rest
  | some connection :: rest =>
    let service := connection.serve ring unpack
    match service.fault with
    | none => service :: dtpIndecesServer rest
    | some _ => [service]

/-- The payloads that are sent. -/
def Service.sent (service : Service) : List (List UInt8) :=
  service.events.filterMap fun
    | .send payload => some payload
    | _ => none

end Dipp
