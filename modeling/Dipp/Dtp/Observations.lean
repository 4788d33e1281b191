import Dipp.Dtp.Server
import Mathlib.Data.List.SplitLengths

/-!
# What is served is what was uploaded

The upload loop, the element reader, the metadata extractor and the request decoder have
the layout of a block in common, and nothing else. A block that the loop wrote is served
as the payload behind its index, in parts of any size, and described by its own metadata.
-/

namespace Dipp

open LittleEndian Framing Mapped

variable {R : Type*} {ring : RingDriver R} {r : R} {elements : List (List UInt8)}

/-- Reading inside an observation returns its bytes. -/
theorem observationRead_of_holds (hring : ring.Holds r elements) {index : UInt16}
    {element : List UInt8} (helement : elements[index.toNat]? = some element)
    {offset size : UInt32} (hinside : offset.toNat + size.toNat ≤ element.length) :
    (observationRead ring r index offset size).1 =
      (element.drop offset.toNat).take size.toNat :=
  hring.read index.toUInt32 element offset size (by rwa [UInt16.toNat_toUInt32]) hinside

/-- A reader asks for one part behind the other. -/
def PayloadMeta.readParts (payload : PayloadMeta) (index : UInt16) :
    (offset : UInt32) → (sizes : List UInt32) → List (List UInt8)
  | _, [] => []
  | offset, size :: rest =>
    (payload.read index offset size).1 :: payload.readParts index (offset + size) rest

/-- The parts are the element cut at their sizes. -/
theorem readParts_of_holds (hring : ring.Holds r elements) {index : UInt16} {element : List UInt8}
    (helement : elements[index.toNat]? = some element) (hlength : element.length < 2 ^ 32)
    {payload : PayloadMeta} (hread : payload.read = observationRead ring r) (sizes : List UInt32)
    (offset : UInt32)
    (hinside : offset.toNat + (sizes.map UInt32.toNat).sum ≤ element.length) :
    payload.readParts index offset sizes =
      (sizes.map UInt32.toNat).splitLengths (element.drop offset.toNat) := by
  induction sizes generalizing offset with
  | nil => rfl
  | cons size rest ih =>
    rw [List.map_cons, List.sum_cons] at hinside
    have hnext : (offset + size).toNat = offset.toNat + size.toNat := by
      rw [UInt32.toNat_add]
      omega
    rw [PayloadMeta.readParts, List.map_cons, List.splitLengths_cons, hread,
      observationRead_of_holds hring helement (by omega), ih (offset + size) (by omega), hnext,
      List.drop_drop]

variable {unpack : List UInt8 → Option Metadata}

/-- The metadata of a block is found behind its size. -/
theorem observationGetMetadata_of_holds (hring : ring.Holds r elements) {index : UInt16}
    {element : List UInt8} (helement : elements[index.toNat]? = some element) {metaSize : ℕ}
    {metadata : Metadata} (hblock : HeadBlock unpack element metaSize metadata element.length)
    (hlength : element.length < 2 ^ 32) :
    observationGetMetadata ring unpack r index = some metadata := by
  obtain ⟨hmetaSize, hunpack, -, hn, -⟩ := hblock
  have hzero : (0 : UInt32).toNat = 0 := rfl
  have hfour : (4 : UInt32).toNat = 4 := rfl
  have hword : (observationRead ring r index 0 4).1 = element.take 4 :=
    observationRead_of_holds hring helement (by rw [hzero, hfour]; omega)
  have hsize : (observationGetMetaSize ring r index).toNat = metaSize := by
    rw [observationGetMetaSize, hword, UInt32.toNat_ofNat', ← hmetaSize]
    omega
  have hpacked : (observationRead ring r index 4 (observationGetMetaSize ring r index)).1 =
      (element.drop 4).take metaSize := by
    rw [observationRead_of_holds hring helement (by rw [hsize, hfour]; omega), hsize, hfour]
  rw [observationGetMetadata, hpacked, hunpack]

/-- The request for the metadata of an observation. -/
def metaRequest (index : UInt16) (stale : ℕ → UInt8) : Packet :=
  ⟨dippDtpObservationMetaRequest :: encode 2 index.toNat, stale⟩

/-- The index is read as a little-endian word. -/
theorem Packet.toNat_index (request : Packet) :
    request.index.toNat = decode [request.byte 1, request.byte 2] := by
  have hlow := (request.byte 1).toNat_lt
  have hhigh := (request.byte 2).toNat_lt
  have height : (8 : UInt16).toNat % 16 = 8 := rfl
  simp only [Packet.index, decode, UInt16.toNat_add, UInt16.toNat_shiftLeft,
    UInt8.toNat_toUInt16, height, Nat.shiftLeft_eq]
  omega

/-- The index in a request is read back. -/
theorem index_metaRequest (index : UInt16) (stale : ℕ → UInt8) :
    (metaRequest index stale).index = index := by
  apply UInt16.toNat_inj.mp
  have hword : decode (encode 2 index.toNat) = index.toNat :=
    decode_encode_of_lt index.toNat_lt
  rw [Packet.toNat_index]
  exact hword

variable (ring unpack r)

/-- The connection of a client that asks for the metadata of an observation. -/
def metaConnection (index : UInt16) (stale : ℕ → UInt8) (padding : UInt16) : Connection R :=
  ⟨some (metaRequest index stale), true, r, padding⟩

/-- The block is served at the index: a metadata request is answered with flag one and the values of
its metadata, the payload has the size of its three parts, and its consecutive parts, whatever their
sizes, make up the block. -/
structure ServedAs (index : UInt16) (element : List UInt8) (metaSize : ℕ) (metadata : Metadata) :
    Prop where
  block : HeadBlock unpack element metaSize metadata element.length
  reply : ∀ stale padding, ∃ obsMeta,
    ((metaConnection r index stale padding).serve ring unpack).sent = [1 :: obsMeta] ∧
      ObservationMeta.ofBytes obsMeta = ⟨index, metadata.size.toUInt32, metadata.obid.toUInt32⟩
  payload : ∃ payload, getPayloadMeta ring r index = some payload ∧
    payload.size.toNat = 4 + metaSize + metadata.size.toInt.toNat ∧
      ∀ sizes : List UInt32, (sizes.map UInt32.toNat).sum = payload.size.toNat →
        (payload.readParts index 0 sizes).flatten = element

/-- The index is refused: the reply is flag zero alone, and there is no payload. -/
structure NotServed (index : UInt16) : Prop where
  reply : ∀ stale padding, ((metaConnection r index stale padding).serve ring unpack).sent = [[0]]
  payload : getPayloadMeta ring r index = none

variable {ring unpack r}

/-- What is sent on such a connection. -/
theorem sent_metaConnection (index : UInt16) (stale : ℕ → UInt8) (padding : UInt16) :
    ((metaConnection r index stale padding).serve ring unpack).sent =
      ((metaConnection r index stale padding).answerMeta ring unpack index).sent := by
  have hanswer : (metaConnection r index stale padding).answer ring unpack
      (metaRequest index stale) =
        ((metaConnection r index stale padding).answerMeta ring unpack index).after
          [.inspect 0, .inspect 0, .inspect 1, .inspect 2] := by
    rw [Connection.answer, index_metaRequest]
    rfl
  have hserve : (metaConnection r index stale padding).serve ring unpack =
      (((metaConnection r index stale padding).answer ring unpack
        (metaRequest index stale)).followedBy [.freeRequest, .close]).after [.takeRequest] := rfl
  rw [hserve, hanswer]
  generalize (metaConnection r index stale padding).answerMeta ring unpack index = service
  obtain ⟨events, fault⟩ := service
  cases fault <;> simp [Service.after, Service.followedBy, Service.sent]

/-- A ring that holds a block serves it. -/
theorem servedAs_of_holds (hring : ring.Holds r elements) {index : UInt16} {element : List UInt8}
    (helement : elements[index.toNat]? = some element) (hlength : element.length < 2 ^ 32)
    (hblock : IsBlock (blockLength unpack) element) :
    ∃ metaSize metadata, ServedAs ring r unpack index element metaSize metadata := by
  obtain ⟨metaSize, metadata, hhead⟩ := (blockLength_eq_some unpack).mp hblock
  have hvalid : ring.isValidIndex r index.toUInt32 = true := by
    rw [hring.valid_iff, UInt16.toNat_toUInt32]
    exact (List.getElem?_eq_some_iff.mp helement).1
  have hsize : (ring.elementSize r index.toUInt32).toNat = element.length :=
    hring.elementSize index.toUInt32 element (by rwa [UInt16.toNat_toUInt32])
  refine ⟨metaSize, metadata, hhead, ?_, ?_⟩
  · intro stale padding
    have hmeta : observationGetDtpMeta ring unpack r index =
        some ⟨index, metadata.size.toUInt32, metadata.obid.toUInt32⟩ := by
      rw [observationGetDtpMeta, observationGetMetadata_of_holds hring helement hhead hlength]
      rfl
    refine ⟨_, ?_, ObservationMeta.ofBytes_toBytes padding _⟩
    rw [sent_metaConnection, Connection.answerMeta, metaConnection, if_pos hvalid]
    simp only [hmeta]
    rfl
  · refine ⟨⟨ring.elementSize r index.toUInt32, observationRead ring r⟩, if_pos hvalid,
      hsize.trans hhead.length_eq, fun sizes hsizes => ?_⟩
    have hsum : (sizes.map UInt32.toNat).sum = element.length := hsizes.trans hsize
    have hzero : (0 : UInt32).toNat = 0 := rfl
    rw [readParts_of_holds hring helement hlength rfl sizes 0 (by rw [hzero]; omega), hzero,
      List.drop_zero, List.flatten_splitLengths _ _ (Nat.le_of_eq hsum.symm)]

/-- A ring refuses the indices it has no element for. -/
theorem refused_of_holds (hring : ring.Holds r elements) {index : UInt16}
    (hindex : elements.length ≤ index.toNat) : NotServed ring r unpack index := by
  have hinvalid : ¬ ring.isValidIndex r index.toUInt32 = true := by
    rw [hring.valid_iff, UInt16.toNat_toUInt32]
    exact Nat.not_lt.mpr hindex
  refine ⟨fun stale padding => ?_, if_neg hinvalid⟩
  rw [sent_metaConnection, Connection.answerMeta, metaConnection, if_neg hinvalid]
  rfl

/-- After any sequence of uploads of well-formed batches, the block of every uploaded image is
served at its number, and every other index is refused. -/
theorem served_as_uploaded (empty : R) (unevicted : List (List UInt8) → Prop)
    (hring : ring.Keeps empty unevicted) (calls : List (UploadCall × List (List UInt8)))
    (hcalls : ∀ call ∈ calls, call.1.Delivers unpack call.2)
    (hunevicted : unevicted (calls.flatMap Prod.snd))
    (hcount : (calls.flatMap Prod.snd).length < 2 ^ 16) :
    (∀ (i : ℕ) (hi : i < (calls.flatMap Prod.snd).length), ∃ metaSize metadata,
        ServedAs ring ((calls.map Prod.fst).foldl (ring.upload unpack) empty) unpack
          (UInt16.ofNat i) (calls.flatMap Prod.snd)[i] metaSize metadata) ∧
      ∀ index : UInt16, (calls.flatMap Prod.snd).length ≤ index.toNat →
        NotServed ring ((calls.map Prod.fst).foldl (ring.upload unpack) empty) unpack index := by
  rw [RingDriver.foldl_upload calls hcalls]
  have hholds := hring _ hunevicted
  constructor
  · intro i hi
    have hmem : (calls.flatMap Prod.snd)[i] ∈ calls.flatMap Prod.snd := List.getElem_mem hi
    obtain ⟨call, hcall, hblock⟩ := List.mem_flatMap.mp hmem
    obtain ⟨-, hblocks⟩ := (hcalls call hcall).elements_eq
    refine servedAs_of_holds hholds ?_ ?_ (hblocks _ hblock)
    · rw [UInt16.toNat_ofNat', Nat.mod_eq_of_lt (by omega), List.getElem?_eq_getElem hi]
    · exact (hcalls call hcall).length_lt hblock
  · intro index hindex
    exact refused_of_holds hholds hindex

/-- A batch of one image of one pixel byte. -/
def sampleCall : UploadCall := ⟨ofBuffer (encodeBlock [0x08, 0x01] [0xff]), 1, 7⟩

/-- After two uploads of it, the second element is served, and there is no third one. -/
theorem served_as_uploaded_pair :
    (∃ metaSize metadata, ServedAs listRing
        ([sampleCall, sampleCall].foldl (listRing.upload sampleUnpack) []) sampleUnpack 1
        (encodeBlock [0x08, 0x01] [0xff]) metaSize metadata) ∧
      NotServed listRing ([sampleCall, sampleCall].foldl (listRing.upload sampleUnpack) [])
        sampleUnpack 2 := by
  have hdelivers : sampleCall.Delivers sampleUnpack [encodeBlock [0x08, 0x01] [0xff]] :=
    ⟨encodeBlock [0x08, 0x01] [0xff], holds_ofBuffer _, by decide, by decide⟩
  obtain ⟨hserved, hrefused⟩ := served_as_uploaded [] _ listRing_keeps
    (List.replicate 2 (sampleCall, [encodeBlock [0x08, 0x01] [0xff]]))
    (fun call hcall => by rw [List.eq_of_mem_replicate hcall]; exact hdelivers)
    (by decide) (by decide)
  exact ⟨hserved 1 (by decide), hrefused 2 (by decide)⟩

end Dipp
