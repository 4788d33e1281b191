import Dipp.Dtp.Observations
import Mathlib.Data.Fintype.Card

/-!
# Which observations a client can ask for

The amount that is reported is a 32-bit number, and the ring has room for more entries than
a 16-bit number can count. An index has 16 bits in the request, in the reply, and as the
payload id, so the elements from 65536 on share their handles with earlier ones. Up to that
number each element is described and served at its own index.
-/

namespace Dipp

open LittleEndian Framing Mapped

/-- The ring contains these elements, and reports their number. -/
structure RingDriver.Contains {R : Type*} (ring : RingDriver R) (r : R)
    (elements : List (List UInt8)) : Prop extends ring.Holds r elements where
  amount : (ring.amountOfElements r).toNat = elements.length

variable {R : Type*} (ring : RingDriver R) (r : R) (unpack : List UInt8 → Option Metadata)

/-- The connection of a client that asks for the number of observations. -/
def amountConnection (stale : ℕ → UInt8) (padding : UInt16) : Connection R :=
  ⟨some ⟨[dippDtpObservationAmountRequest], stale⟩, true, r, padding⟩

/-- What a client uses for an element: the index it asks for the metadata with, the index it finds
in the reply, and the id it gets the payload with. -/
structure Handle where
  request : UInt16
  reply : UInt16
  payloadId : UInt16

/-- The element is described and served: the metadata request is answered with flag one and the
values of the element's metadata, and the consecutive parts of the payload make up the element. -/
structure Handle.Reaches (handle : Handle) (element : List UInt8) (metaSize : ℕ)
    (metadata : Metadata) : Prop where
  block : HeadBlock unpack element metaSize metadata element.length
  described : ∀ stale padding, ∃ obsMeta,
    ((metaConnection r handle.request stale padding).serve ring unpack).sent = [1 :: obsMeta] ∧
      ObservationMeta.ofBytes obsMeta =
        ⟨handle.reply, metadata.size.toUInt32, metadata.obid.toUInt32⟩
  served : ∃ payload, getPayloadMeta ring r handle.payloadId = some payload ∧
    payload.size.toNat = 4 + metaSize + metadata.size.toInt.toNat ∧
      ∀ sizes : List UInt32, (sizes.map UInt32.toNat).sum = payload.size.toNat →
        (payload.readParts handle.payloadId 0 sizes).flatten = element

/-- Every element below the amount that the server reports is reached by handles of its own. -/
def EveryElementReached (elements : List (List UInt8)) : Prop :=
  ∀ amount stale padding, amount < 2 ^ 32 →
    ((amountConnection r stale padding).serve ring unpack).sent = [encode 4 amount] →
      ∃ handle : Fin amount → Handle, Function.Injective (fun i => (handle i).request) ∧
        Function.Injective (fun i => (handle i).reply) ∧
        Function.Injective (fun i => (handle i).payloadId) ∧
        ∀ i : Fin amount, ∃ element metaSize metadata, elements[i.val]? = some element ∧
          (handle i).Reaches ring r unpack element metaSize metadata

variable {ring r unpack}

/-- The server reports the amount that the ring reports. -/
theorem sent_amountConnection (stale : ℕ → UInt8) (padding : UInt16) :
    ((amountConnection r stale padding).serve ring unpack).sent =
      [encode 4 (ring.amountOfElements r).toNat] := rfl

/-- There are no more 16-bit indices than that. -/
theorem le_of_injective_index {n : ℕ} (index : Fin n → UInt16)
    (hinjective : Function.Injective index) : n ≤ 2 ^ 16 := by
  let position : Fin n → Fin (2 ^ 16) := fun i => ⟨(index i).toNat, (index i).toNat_lt⟩
  have hposition : Function.Injective position := by
    intro i j hij
    apply hinjective
    exact UInt16.toNat_inj.mp (Fin.mk.inj hij)
  have hcard := Fintype.card_le_of_injective position hposition
  simpa only [Fintype.card_fin] using hcard

/-- A number below 65536 is its own index. -/
theorem toNat_ofNat_index {i : ℕ} (h : i < 2 ^ 16) : (UInt16.ofNat i).toNat = i := by
  rw [UInt16.toNat_ofNat', Nat.mod_eq_of_lt h]

/-- Elements that are all reached can be counted with 16 bits. -/
theorem length_le_of_reached {elements : List (List UInt8)} (hring : ring.Contains r elements)
    (h : EveryElementReached ring r unpack elements) : elements.length ≤ 2 ^ 16 := by
  obtain ⟨handle, hrequest, -⟩ := h _ (fun _ => 0) 0 (ring.amountOfElements r).toNat_lt
    (sent_amountConnection _ _)
  rw [← hring.amount]
  exact le_of_injective_index _ hrequest

/-- Blocks that can be counted with 16 bits are all reached. -/
theorem reached_of_length_le {elements : List (List UInt8)} (hring : ring.Contains r elements)
    (hblocks : ∀ element ∈ elements, IsBlock (blockLength unpack) element ∧ element.length < 2 ^ 32)
    (h : elements.length ≤ 2 ^ 16) : EveryElementReached ring r unpack elements := by
  intro amount stale padding hamount hsent
  -- the amount in the reply is the number of elements
  have hlength : amount = elements.length := by
    rw [sent_amountConnection, List.singleton_inj] at hsent
    have hdecode := congrArg decode hsent
    rw [decode_encode_of_lt (ring.amountOfElements r).toNat_lt, decode_encode_of_lt hamount,
      hring.amount] at hdecode
    exact hdecode.symm
  subst hlength
  have hinjective : Function.Injective fun i : Fin elements.length => UInt16.ofNat i := by
    intro i j hij
    have hnat := congrArg UInt16.toNat hij
    rw [toNat_ofNat_index (by omega), toNat_ofNat_index (by omega)] at hnat
    exact Fin.ext hnat
  refine ⟨fun i => ⟨UInt16.ofNat i, UInt16.ofNat i, UInt16.ofNat i⟩, hinjective, hinjective,
    hinjective, fun i => ?_⟩
  obtain ⟨hblock, hshort⟩ := hblocks elements[i] (List.getElem_mem i.isLt)
  have helement : elements[(UInt16.ofNat i).toNat]? = some elements[i] := by
    rw [toNat_ofNat_index (by omega), List.getElem?_eq_getElem i.isLt]
    rfl
  obtain ⟨metaSize, metadata, hserved⟩ :=
    servedAs_of_holds hring.toHolds helement hshort hblock
  exact ⟨elements[i], metaSize, metadata, List.getElem?_eq_getElem i.isLt, hserved.block,
    hserved.reply, hserved.payload⟩

/-- After any uploads of well-formed batches, whatever was evicted since, every element of the ring
is reached if and only if there are at most 65536. -/
theorem everyElementReached_iff (empty : R) (calls : List (UploadCall × List (List UInt8)))
    (hcalls : ∀ call ∈ calls, call.1.Delivers unpack call.2) {kept : List (List UInt8)}
    (hkept : kept <:+ calls.flatMap Prod.snd)
    (hring : ring.Contains ((calls.map Prod.fst).foldl (ring.upload unpack) empty) kept) :
    EveryElementReached ring ((calls.map Prod.fst).foldl (ring.upload unpack) empty) unpack kept ↔
      kept.length ≤ 2 ^ 16 := by
  constructor
  · exact length_le_of_reached hring
  · apply reached_of_length_le hring
    intro element helement
    obtain ⟨call, hcall, hblock⟩ := List.mem_flatMap.mp (hkept.subset helement)
    obtain ⟨-, hblocks⟩ := (hcalls call hcall).elements_eq
    exact ⟨hblocks element hblock, (hcalls call hcall).length_lt hblock⟩

/-- The block of a batch of one image of one pixel byte. -/
def sampleBlock : List UInt8 := encodeBlock [0x08, 0x01] [0xff]

/-- Batches of that image are delivered as their blocks. -/
theorem samples_deliver (n : ℕ) :
    ∀ call ∈ List.replicate n (sampleCall, [sampleBlock]), call.1.Delivers sampleUnpack call.2 := by
  intro call hcall
  rw [List.eq_of_mem_replicate hcall]
  exact ⟨sampleBlock, holds_ofBuffer _, by decide, by decide⟩

/-- All of these blocks. -/
theorem flatMap_samples (n : ℕ) :
    (List.replicate n (sampleCall, [sampleBlock])).flatMap Prod.snd =
      List.replicate n sampleBlock := by
  rw [List.flatMap_replicate, List.flatten_replicate_singleton]

/-- They fill the ring. -/
theorem listRing_contains_samples (n : ℕ) (hn : n ≤ 500000) :
    listRing.Contains
      (((List.replicate n (sampleCall, [sampleBlock])).map Prod.fst).foldl
        (listRing.upload sampleUnpack) [])
      (List.replicate n sampleBlock) := by
  have hbytes : sampleBlock.length = 7 := rfl
  rw [RingDriver.foldl_upload _ (samples_deliver n), flatMap_samples]
  refine ⟨listRing_keeps _ ?_, ?_⟩
  · change (List.replicate n sampleBlock).flatten.length < 2 ^ 32
    rw [List.length_flatten, List.map_replicate, List.sum_replicate_nat, hbytes]
    omega
  · rw [listRing_foldl_write, List.nil_append]
    simp only [listRing, List.length_replicate, UInt32.toNat_ofNat']
    omega

/-- In a ring of two such elements, both are reached. -/
theorem everyElementReached_iff_pair :
    EveryElementReached listRing ([sampleCall, sampleCall].foldl (listRing.upload sampleUnpack) [])
        sampleUnpack (List.replicate 2 sampleBlock) ↔
      (List.replicate 2 sampleBlock).length ≤ 2 ^ 16 :=
  everyElementReached_iff [] (List.replicate 2 (sampleCall, [sampleBlock])) (samples_deliver 2)
    (List.suffix_refl _) (listRing_contains_samples 2 (by omega))

/-- In a ring of 65537 elements, there is one that is not reached. -/
theorem everyElementReached_not_always :
    ¬ ∀ (ring : RingDriver (List (List UInt8))) (unpack : List UInt8 → Option Metadata)
        (empty : List (List UInt8)) (calls : List (UploadCall × List (List UInt8)))
        (kept : List (List UInt8)), (∀ call ∈ calls, call.1.Delivers unpack call.2) →
        kept <:+ calls.flatMap Prod.snd → kept.length ≤ 500000 →
        ring.Contains ((calls.map Prod.fst).foldl (ring.upload unpack) empty) kept →
          EveryElementReached ring ((calls.map Prod.fst).foldl (ring.upload unpack) empty) unpack
            kept := by
  intro h
  have hring := listRing_contains_samples 65537 (by omega)
  have hreached := length_le_of_reached hring (h listRing sampleUnpack [] _ _
    (samples_deliver 65537) (flatMap_samples 65537 ▸ List.suffix_refl _)
    (by rw [List.length_replicate]; omega) hring)
  rw [List.length_replicate] at hreached
  omega

end Dipp
