import Dipp.Dtp.Reach
import Dipp.Library.Readers

/-!
# Serving while images are uploaded

The transfer server and `dtp_indeces_server` run in threads of their own, next to the one
that uploads, and there is no lock around the ring. An answer is put together from several
calls of the ring library, between which elements may be written. The functions of the
server are programs here with one look at the ring for each of these calls. As long as
nothing is evicted, what belongs to a valid index stays where it is: every answer is
settled by the first look, with which the index turns out to be valid or not.
-/

namespace Dipp

open LittleEndian Framing Readers

variable {R : Type*} (ring : RingDriver R) (unpack : List UInt8 → Option Metadata)

/-- What is relied on while elements are written: from an empty ring on, the elements are contained
as long as none had to be evicted, and they stay at their offsets. -/
structure RingDriver.Appends (empty : R) (unevicted : List (List UInt8) → Prop) : Prop where
  contains : ∀ elements, unevicted elements →
    ring.Contains (elements.foldl ring.write empty) elements
  unevicted_of_append : ∀ {elements more}, unevicted (elements ++ more) → unevicted elements
  offset : ∀ {elements more} (index offset : UInt32), unevicted (elements ++ more) →
    index.toNat < elements.length →
      ring.offset ((elements ++ more).foldl ring.write empty) index offset =
        ring.offset (elements.foldl ring.write empty) index offset

/-- A connection that is served with this ring. -/
def Connection.withRing (connection : Connection Unit) (r : R) : Connection R :=
  { connection with ring := r }

/-- The parts of a payload that a reader asks for once it knows the size, in any order, and some of
them maybe again. -/
structure ReadPlan where
  parts : (size : UInt32) → List (UInt32 × UInt32)
  inside : ∀ size, ∀ part ∈ parts size, part.1.toNat + part.2.toNat ≤ size.toNat

namespace Concurrent

/-- Read a part of an observation: ask for its place, and read there. -/
def observationRead (index : UInt16) (offsetWithinObservation size : UInt32) :
    Reader R (List UInt8 × UInt32) :=
  (Reader.ask fun r => ring.offset r index.toUInt32 offsetWithinObservation).bind fun offset =>
    Reader.ask fun r => (ring.read r offset size, size)

/-- The size of a payload, if its index is valid. -/
def getPayloadMeta (payloadId : UInt16) : Reader R (Option UInt32) :=
  (Reader.ask fun r => ring.isValidIndex r payloadId.toUInt32).bind fun valid =>
    if valid then Reader.ask fun r => some (ring.elementSize r payloadId.toUInt32)
    else .done none

/-- The size of the metadata. -/
def observationGetMetaSize (index : UInt16) : Reader R UInt32 :=
  (observationRead ring index 0 4).map fun word => UInt32.ofNat (decode word.1)

/-- The unpacked metadata. -/
def observationGetMetadata (index : UInt16) : Reader R (Option Metadata) :=
  (observationGetMetaSize ring index).bind fun metaSize =>
    (observationRead ring index 4 metaSize).map fun packed => unpack packed.1

/-- The part of the metadata that is transferred. -/
def observationGetDtpMeta (index : UInt16) : Reader R (Option ObservationMeta) :=
  (observationGetMetadata ring unpack index).map fun result =>
    result.map fun metadata => ⟨index, metadata.size.toUInt32, metadata.obid.toUInt32⟩

/-- The reply for a valid index. -/
def describe (connection : Connection Unit) (index : UInt16) : Reader R Service :=
  (observationGetDtpMeta ring unpack index).map fun
    | none => ⟨[], some .missingMetadata⟩
    | some obsMeta => connection.respond (1 :: obsMeta.toBytes connection.padding)

/-- The answer to a metadata request. -/
def answerMeta (connection : Connection Unit) (index : UInt16) : Reader R Service :=
  (Reader.ask fun r => ring.isValidIndex r index.toUInt32).bind fun valid =>
    if valid then describe ring unpack connection index else .done (connection.respond [0])

/-- The answer to a request, by its kind. -/
def answer (connection : Connection Unit) (request : Packet) : Reader R Service :=
  if request.byte 0 = dippDtpObservationAmountRequest then
    Reader.ask fun r =>
      (connection.respond (encode 4 (ring.amountOfElements r).toNat)).after [.inspect 0]
  else if request.byte 0 = dippDtpObservationMetaRequest then
    (answerMeta ring unpack connection request.index).map
      (Service.after [.inspect 0, .inspect 0, .inspect 1, .inspect 2])
  else .done ⟨[.inspect 0, .inspect 0], none⟩

/-- One connection, from reading the request to closing it. -/
def serve (connection : Connection Unit) : Reader R Service :=
  match connection.request with
  | none => .done ⟨[], some .missingRequest⟩
  | some request =>
    (answer ring unpack connection request).map fun service =>
      (service.followedBy [.freeRequest, .close]).after [.takeRequest]

/-- The parts of a payload that were asked for, behind its size. -/
def transferParts (plan : ReadPlan) (payloadId : UInt16) :
    Option UInt32 → Reader R (Option (UInt32 × List (List UInt8)))
  | none => .done none
  | some size =>
    (Reader.all ((plan.parts size).map fun part =>
      (observationRead ring payloadId part.1 part.2).map Prod.fst)).map fun parts =>
        some (size, parts)

/-- A transfer: the size of the payload, and its parts. -/
def transfer (plan : ReadPlan) (payloadId : UInt16) :
    Reader R (Option (UInt32 × List (List UInt8))) :=
  (getPayloadMeta ring payloadId).bind (transferParts ring plan payloadId)

end Concurrent

/-- A transfer with a ring that nobody writes to. -/
def transfer (plan : ReadPlan) (r : R) (payloadId : UInt16) :
    Option (UInt32 × List (List UInt8)) :=
  (getPayloadMeta ring r payloadId).map fun payload =>
    (payload.size, (plan.parts payload.size).map fun part =>
      (payload.read payloadId part.1 part.2).1)

namespace Concurrent

variable {ring unpack}

/-- Alone, a metadata request is answered as a whole. -/
theorem runAt_answerMeta (r : R) (connection : Connection Unit) (index : UInt16) :
    (answerMeta ring unpack connection index).runAt r =
      (connection.withRing r).answerMeta ring unpack index := by
  have hmeta : (observationGetDtpMeta ring unpack index).runAt r =
      Dipp.observationGetDtpMeta ring unpack r index := rfl
  rw [answerMeta, Reader.runAt_bind, Reader.runAt_ask, Connection.answerMeta]
  have hsame : ring.isValidIndex (connection.withRing r).ring index.toUInt32 =
      ring.isValidIndex r index.toUInt32 := rfl
  rw [hsame]
  split
  · rw [describe, Reader.runAt_map, hmeta]
    rfl
  · rfl

/-- Alone, a connection is served as a whole. -/
theorem runAt_serve (r : R) (connection : Connection Unit) :
    (serve ring unpack connection).runAt r = (connection.withRing r).serve ring unpack := by
  obtain ⟨request, bufferAvailable, ⟨⟩, padding⟩ := connection
  cases request with
  | none => rfl
  | some request =>
    have hanswer : (answer ring unpack ⟨some request, bufferAvailable, (), padding⟩ request).runAt r
        = Connection.answer ring unpack ⟨some request, bufferAvailable, r, padding⟩ request := by
      rw [answer, Connection.answer]
      split
      · rfl
      · split
        · rw [Reader.runAt_map, runAt_answerMeta]
          rfl
        · rfl
    simp only [serve, Reader.runAt_map, hanswer]
    rfl

/-- Alone, a transfer is made as a whole. -/
theorem runAt_transfer (r : R) (plan : ReadPlan) (payloadId : UInt16) :
    (transfer ring plan payloadId).runAt r = Dipp.transfer ring plan r payloadId := by
  rw [transfer, Reader.runAt_bind, getPayloadMeta, Reader.runAt_bind, Reader.runAt_ask,
    Dipp.transfer, Dipp.getPayloadMeta]
  cases ring.isValidIndex r payloadId.toUInt32 with
  | false => rfl
  | true =>
    simp only [if_true, Reader.runAt_ask, transferParts, Reader.runAt_map, Reader.runAt_all,
      List.map_map]
    rfl

variable {empty : R} {unevicted : List (List UInt8) → Prop}

/-- What was written to the ring, and how it grows: the blocks of images, none of them evicted. -/
def growth (unpack : List UInt8 → Option Metadata) (happends : ring.Appends empty unevicted) :
    Growth (List (List UInt8)) ring.write where
  view := fun elements => elements.foldl ring.write empty
  extend := fun elements element => elements ++ [element]
  grows := fun elements elements' => elements <+: elements'
  valid := fun elements => unevicted elements ∧
    ∀ element ∈ elements, IsBlock (blockLength unpack) element ∧ element.length < 2 ^ 32
  refl := fun elements => List.prefix_refl elements
  trans := fun h h' => h.trans h'
  grows_extend := fun elements element => List.prefix_append elements [element]
  valid_of_grows := fun {elements elements'} h hvalid => by
    obtain ⟨more, rfl⟩ := h
    exact ⟨happends.unevicted_of_append hvalid.1,
      fun element helement => hvalid.2 element (List.mem_append_left _ helement)⟩
  view_extend := fun elements element => by
    rw [List.foldl_append, List.foldl_cons, List.foldl_nil]

variable {happends : ring.Appends empty unevicted} {elements : List (List UInt8)}

/-- What has been written is contained. -/
theorem contains_of_valid (hvalid : (growth unpack happends).valid elements) :
    ring.Contains (elements.foldl ring.write empty) elements :=
  happends.contains elements hvalid.1

/-- An element stays at its index. -/
theorem getElem?_of_grows {elements' : List (List UInt8)}
    (h : (growth unpack happends).grows elements elements') {n : ℕ} {element : List UInt8}
    (helement : elements[n]? = some element) : elements'[n]? = some element := by
  obtain ⟨more, rfl⟩ := h
  rw [List.getElem?_append_left (List.getElem?_eq_some_iff.mp helement).1, helement]

/-- Reading inside an element is settled, before and after its place is known. -/
theorem observationRead_settles (hvalid : (growth unpack happends).valid elements) {index : UInt16}
    {element : List UInt8} (helement : elements[index.toNat]? = some element)
    (offset size : UInt32) (hinside : offset.toNat + size.toNat ≤ element.length) :
    (observationRead ring index offset size).Settles (growth unpack happends)
      ((element.drop offset.toNat).take size.toNat, size) elements := by
  have hindex : index.toUInt32.toNat < elements.length := by
    rw [UInt16.toNat_toUInt32]
    exact (List.getElem?_eq_some_iff.mp helement).1
  have hplace : (Reader.ask fun r => ring.offset r index.toUInt32 offset).Settles
      (growth unpack happends)
      (ring.offset (elements.foldl ring.write empty) index.toUInt32 offset) elements := by
    apply Reader.settles_ask
    intro elements' hgrows hvalid'
    obtain ⟨more, rfl⟩ := hgrows
    exact happends.offset _ _ hvalid'.1 hindex
  apply hplace.bind hvalid
  intro elements' hgrows hvalid'
  apply Reader.settles_ask
  intro elements'' hgrows' hvalid''
  have hgrown := (growth unpack happends).trans hgrows hgrows'
  have hread := (contains_of_valid hvalid'').read index.toUInt32 element offset size
    (by rw [UInt16.toNat_toUInt32]; exact getElem?_of_grows hgrown helement) hinside
  obtain ⟨more, rfl⟩ := hgrown
  rw [happends.offset _ _ hvalid''.1 hindex] at hread
  exact Prod.ext hread rfl

/-- So is the metadata of an element. -/
theorem observationGetMetadata_settles (hvalid : (growth unpack happends).valid elements)
    {index : UInt16} {element : List UInt8} (helement : elements[index.toNat]? = some element) :
    ∃ metadata, (observationGetMetadata ring unpack index).Settles (growth unpack happends)
      (some metadata) elements := by
  obtain ⟨hblock, hlength⟩ := hvalid.2 element (List.mem_of_getElem? helement)
  obtain ⟨metaSize, metadata, hhead⟩ := (blockLength_eq_some unpack).mp hblock
  obtain ⟨hmetaSize, hunpack, -, hn, -⟩ := hhead
  have hzero : (0 : UInt32).toNat = 0 := rfl
  have hfour : (4 : UInt32).toNat = 4 := rfl
  have hword := observationRead_settles hvalid helement 0 4 (by rw [hzero, hfour]; omega)
  have hsize : (UInt32.ofNat (decode ((element.drop 0).take 4))).toNat = metaSize := by
    rw [List.drop_zero, UInt32.toNat_ofNat', ← hmetaSize]
    omega
  refine ⟨metadata, (hword.map hvalid _).bind hvalid fun elements' hgrows hvalid' => ?_⟩
  have hpacked := observationRead_settles hvalid' (getElem?_of_grows hgrows helement) 4
    (UInt32.ofNat (decode ((element.drop 0).take 4))) (by rw [hfour, hsize]; omega)
  have hresult := hpacked.map hvalid' fun packed => unpack packed.1
  rw [hfour, hsize, hunpack] at hresult
  exact hresult

/-- So is the reply for a valid index. -/
theorem describe_settles (hvalid : (growth unpack happends).valid elements) {index : UInt16}
    (hindex : index.toNat < elements.length) (connection : Connection Unit) :
    ∃ service, (describe ring unpack connection index).Settles (growth unpack happends) service
      elements := by
  obtain ⟨metadata, hmetadata⟩ :=
    observationGetMetadata_settles hvalid (List.getElem?_eq_getElem hindex)
  exact ⟨_, (hmetadata.map hvalid _).map hvalid _⟩

/-- The index is valid once there is an element. -/
theorem isValidIndex_iff (hvalid : (growth unpack happends).valid elements) (index : UInt16) :
    ring.isValidIndex (elements.foldl ring.write empty) index.toUInt32 = true ↔
      index.toNat < elements.length := by
  rw [(contains_of_valid hvalid).valid_iff, UInt16.toNat_toUInt32]

/-- An index that is valid stays so. -/
theorem isValidIndex_settles {index : UInt16} (hindex : index.toNat < elements.length) :
    (Reader.ask fun r => ring.isValidIndex r index.toUInt32).Settles (growth unpack happends) true
      elements := by
  apply Reader.settles_ask
  intro elements' hgrows hvalid'
  exact (isValidIndex_iff hvalid' index).mpr (Nat.lt_of_lt_of_le hindex hgrows.length_le)

/-- A metadata request for a valid index is settled from the beginning. -/
theorem answerMeta_settles (hvalid : (growth unpack happends).valid elements) {index : UInt16}
    (hindex : index.toNat < elements.length) (connection : Connection Unit) :
    ∃ service, (answerMeta ring unpack connection index).Settles (growth unpack happends) service
      elements := by
  obtain ⟨service, hservice⟩ := describe_settles hvalid hindex connection
  exact ⟨service, (isValidIndex_settles hindex).bind hvalid fun _ hgrows _ =>
    hservice.grow hgrows⟩

/-- What a transfer of an element comes to. -/
def transferred (plan : ReadPlan) (element : List UInt8) : UInt32 × List (List UInt8) :=
  (UInt32.ofNat element.length,
    (plan.parts (UInt32.ofNat element.length)).map fun part =>
      (element.drop part.1.toNat).take part.2.toNat)

/-- The parts of an element are settled. -/
theorem transferParts_settles (hvalid : (growth unpack happends).valid elements)
    {payloadId : UInt16} {element : List UInt8}
    (helement : elements[payloadId.toNat]? = some element) (plan : ReadPlan) :
    (transferParts ring plan payloadId (some (UInt32.ofNat element.length))).Settles
      (growth unpack happends) (some (transferred plan element)) elements := by
  obtain ⟨-, hlength⟩ := hvalid.2 element (List.mem_of_getElem? helement)
  have hparts : ∀ part ∈ plan.parts (UInt32.ofNat element.length),
      ((observationRead ring payloadId part.1 part.2).map Prod.fst).Settles
        (growth unpack happends) ((element.drop part.1.toNat).take part.2.toNat) elements := by
    intro part hpart
    have hinside := plan.inside _ part hpart
    rw [UInt32.toNat_ofNat', Nat.mod_eq_of_lt hlength] at hinside
    exact (observationRead_settles hvalid helement _ _ hinside).map hvalid Prod.fst
  exact (Reader.settles_all hvalid hparts).map hvalid fun parts =>
    some (UInt32.ofNat element.length, parts)

/-- What is done for a valid index: the size is settled, and then the parts are. -/
theorem validTransfer_settles (hvalid : (growth unpack happends).valid elements)
    {payloadId : UInt16} {element : List UInt8}
    (helement : elements[payloadId.toNat]? = some element) (plan : ReadPlan) :
    ((Reader.ask fun r => some (ring.elementSize r payloadId.toUInt32)).bind
      (transferParts ring plan payloadId)).Settles (growth unpack happends)
        (some (transferred plan element)) elements := by
  have hsize : (Reader.ask fun r => some (ring.elementSize r payloadId.toUInt32)).Settles
      (growth unpack happends) (some (UInt32.ofNat element.length)) elements := by
    apply Reader.settles_ask
    intro elements' hgrows hvalid'
    have hsame := (contains_of_valid hvalid').elementSize payloadId.toUInt32 element
      (by rw [UInt16.toNat_toUInt32]; exact getElem?_of_grows hgrows helement)
    rw [← hsame, UInt32.ofNat_toNat]
    rfl
  exact hsize.bind hvalid fun elements' hgrows hvalid' =>
    transferParts_settles hvalid' (getElem?_of_grows hgrows helement) plan

/-- A transfer starts with the question whether the index is valid. -/
theorem transfer_eq (plan : ReadPlan) (payloadId : UInt16) :
    transfer ring plan payloadId =
      (Reader.ask fun r => ring.isValidIndex r payloadId.toUInt32).bind fun valid =>
        (if valid then Reader.ask fun r => some (ring.elementSize r payloadId.toUInt32)
          else Reader.done none).bind (transferParts ring plan payloadId) := rfl

/-- The transfer of an element is settled. -/
theorem transfer_settles (hvalid : (growth unpack happends).valid elements) {payloadId : UInt16}
    {element : List UInt8} (helement : elements[payloadId.toNat]? = some element)
    (plan : ReadPlan) :
    (transfer ring plan payloadId).Settles (growth unpack happends)
      (some (transferred plan element)) elements := by
  rw [transfer_eq]
  exact (isValidIndex_settles (List.getElem?_eq_some_iff.mp helement).1).bind hvalid
    fun _ hgrows hvalid' => validTransfer_settles hvalid' (getElem?_of_grows hgrows helement) plan

/-- A metadata request is linearizable. -/
theorem linearizable_answerMeta (connection : Connection Unit) (index : UInt16) :
    (answerMeta ring unpack connection index).Linearizable (growth unpack happends) := by
  apply Reader.linearizable_ask
  intro elements hvalid
  split
  case isTrue hindex =>
    exact describe_settles hvalid ((isValidIndex_iff hvalid index).mp hindex) connection
  case isFalse => exact ⟨_, rfl⟩

/-- So is every connection. -/
theorem linearizable_serve (connection : Connection Unit) :
    (serve ring unpack connection).Linearizable (growth unpack happends) := by
  obtain ⟨request, bufferAvailable, ⟨⟩, padding⟩ := connection
  cases request with
  | none => trivial
  | some request =>
    apply Reader.Linearizable.map
    rw [answer]
    split
    · exact fun elements hvalid => rfl
    · split
      · exact (linearizable_answerMeta _ _).map _
      · trivial

/-- So is every transfer. -/
theorem linearizable_transfer (plan : ReadPlan) (payloadId : UInt16) :
    (transfer ring plan payloadId).Linearizable (growth unpack happends) := by
  rw [transfer_eq]
  apply Reader.linearizable_ask
  intro elements hvalid
  split
  case isTrue hindex =>
    have hlt := (isValidIndex_iff hvalid payloadId).mp hindex
    exact ⟨_, validTransfer_settles hvalid (List.getElem?_eq_getElem hlt) plan⟩
  case isFalse => exact ⟨none, rfl⟩

/-- The connection for an index is settled if the index is valid. -/
theorem serve_metaConnection_settles (hvalid : (growth unpack happends).valid elements)
    {index : UInt16} (hindex : index.toNat < elements.length) (stale : ℕ → UInt8)
    (padding : UInt16) :
    ∃ service, (serve ring unpack (metaConnection () index stale padding)).Settles
      (growth unpack happends) service elements := by
  have hanswer : answer ring unpack (metaConnection () index stale padding)
      (metaRequest index stale) =
        (answerMeta ring unpack (metaConnection () index stale padding) index).map
          (Service.after [.inspect 0, .inspect 0, .inspect 1, .inspect 2]) := by
    rw [answer, index_metaRequest]
    rfl
  obtain ⟨service, hservice⟩ :=
    answerMeta_settles hvalid hindex (metaConnection () index stale padding)
  have hmapped := hservice.map hvalid
    (Service.after [.inspect 0, .inspect 0, .inspect 1, .inspect 2])
  rw [← hanswer] at hmapped
  exact ⟨_, hmapped.map hvalid _⟩

end Concurrent

end Dipp
