import Dipp.Library.LittleEndian

/-!
# The `ImageBatch` structure and its memory image

Batches cross the message queue and the result pipe as raw memory: a 64-bit `mtype`,
four 32-bit integers and a 64-bit pointer, without padding, in little-endian order.
-/

namespace Dipp

open LittleEndian

/-- The batch description that the queue delivers and the modules hand on. -/
structure ImageBatch where
  mtype : Int64
  numImages : Int32
  batchSize : Int32
  shmid : Int32
  pipelineId : Int32
  data : UInt64
  deriving DecidableEq, Repr

/-- A message in a System V queue. -/
structure Message where
  mtype : Int64
  mtext : List UInt8
  deriving DecidableEq, Repr

/-- `sizeof(ImageBatch)`. -/
def sizeofImageBatch : ℕ := 32

/-- The four bytes of an `int`. -/
def intBytes (value : Int32) : List UInt8 := encode 4 value.toUInt32.toNat

/-- The `int` at an offset. -/
def intAt (offset : ℕ) (bytes : List UInt8) : Int32 :=
  (UInt32.ofNat (decode ((bytes.drop offset).take 4))).toInt32

/-- The memory image of a batch. -/
def ImageBatch.toBytes (batch : ImageBatch) : List UInt8 :=
  encode 8 batch.mtype.toUInt64.toNat ++ (intBytes batch.numImages ++
    (intBytes batch.batchSize ++ (intBytes batch.shmid ++
      (intBytes batch.pipelineId ++ encode 8 batch.data.toNat))))

/-- The batch whose memory holds the given bytes. -/
def ImageBatch.ofBytes (bytes : List UInt8) : ImageBatch where
  mtype := (UInt64.ofNat (decode (bytes.take 8))).toInt64
  numImages := intAt 8 bytes
  batchSize := intAt 12 bytes
  shmid := intAt 16 bytes
  pipelineId := intAt 20 bytes
  data := UInt64.ofNat (decode ((bytes.drop 24).take 8))

/-- An `int` occupies four bytes. -/
@[simp] theorem length_intBytes (value : Int32) : (intBytes value).length = 4 :=
  length_encode 4 _

/-- A batch occupies `sizeof(ImageBatch)` bytes. -/
@[simp] theorem ImageBatch.length_toBytes (batch : ImageBatch) :
    batch.toBytes.length = sizeofImageBatch := by
  simp [toBytes, sizeofImageBatch]

/-- Bytes in front of an `int` only shift its offset. -/
theorem intAt_append (before after : List UInt8) (offset : ℕ) :
    intAt (before.length + offset) (before ++ after) = intAt offset after := by
  rw [intAt, ← List.drop_drop, List.drop_left, intAt]

/-- A stored `int` is read back. -/
theorem intAt_intBytes (value : Int32) (after : List UInt8) :
    intAt 0 (intBytes value ++ after) = value := by
  have hdecode : decode (intBytes value) = value.toUInt32.toNat :=
    decode_encode_of_lt value.toUInt32.toNat_lt
  rw [intAt, List.drop_zero, List.take_left' (length_intBytes value), hdecode,
    UInt32.ofNat_toNat, Int32.toInt32_toUInt32]

/-- A batch survives the trip through raw memory. -/
theorem ImageBatch.ofBytes_toBytes (batch : ImageBatch) : ofBytes batch.toBytes = batch := by
  obtain ⟨mtype, numImages, batchSize, shmid, pipelineId, data⟩ := batch
  have hmtype : decode (encode 8 mtype.toUInt64.toNat) = mtype.toUInt64.toNat :=
    decode_encode_of_lt mtype.toUInt64.toNat_lt
  have hdata : decode (encode 8 data.toNat) = data.toNat := decode_encode_of_lt data.toNat_lt
  have skip (before after : List UInt8) (n offset : ℕ) (h : before.length = n) :
      intAt (n + offset) (before ++ after) = intAt offset after :=
    h ▸ intAt_append before after offset
  simp only [ofBytes, toBytes, mk.injEq]
  refine ⟨?_, ?_, ?_, ?_, ?_, ?_⟩
  · rw [List.take_left' (length_encode 8 _), hmtype, UInt64.ofNat_toNat, Int64.toInt64_toUInt64]
  · rw [skip _ _ 8 0 (length_encode 8 _), intAt_intBytes]
  · rw [skip _ _ 8 4 (length_encode 8 _), skip _ _ 4 0 (length_intBytes _), intAt_intBytes]
  · rw [skip _ _ 8 8 (length_encode 8 _), skip _ _ 4 4 (length_intBytes _),
      skip _ _ 4 0 (length_intBytes _), intAt_intBytes]
  · rw [skip _ _ 8 12 (length_encode 8 _), skip _ _ 4 8 (length_intBytes _),
      skip _ _ 4 4 (length_intBytes _), skip _ _ 4 0 (length_intBytes _), intAt_intBytes]
  · simp only [← List.append_assoc]
    rw [List.drop_left' (by simp), List.take_of_length_le (by simp), hdata, UInt64.ofNat_toNat]

end Dipp
