import Dipp.Config.Safety

/-!
# What decoding a parameter depends on

The decoder is called with the bytes of the local buffer from the second one on, and with as
many of them as the first byte says. The first byte is not compared with the size of the
buffer. From 188 on, the decoder is given bytes that lie behind the parameter, and what
becomes of the parameter depends on what an earlier call left on the stack.
-/

namespace Dipp

variable (libs : Libraries) (env : CallEnv) (param : ParamData)

/-- The length prefix of the stored stream. -/
def ParamData.streamLength : ℕ := (param.bytes.headD 0).toNat

/-- The byte at an offset from the start of the local buffer. -/
def CallEnv.byteAt (offset : ℕ) : UInt8 :=
  param.bytes.getD offset (env.stack (offset - dataParamSize))

/-- The offsets that the decoder is called with; it is not called for an empty parameter. -/
def decoderOffsets : List ℕ :=
  if isBufferEmpty param.bytes then [] else List.range' 1 param.streamLength

/-- The decoder is given the bytes of the local buffer from the second one on. -/
theorem brotliInput_eq_map :
    brotliInput env param = (List.range' 1 param.streamLength).map (env.byteAt param) := by
  have hlength := param.length_eq
  apply List.ext_getElem
  · simp [brotliInput, ParamData.streamLength]
  · intro i hleft hright
    have hi : i < param.streamLength := by simpa using hright
    simp only [brotliInput, List.getElem_take, List.getElem_map, List.getElem_range']
    rw [CallEnv.byteAt, List.getD_eq_getElem?_getD, List.getElem_append]
    split
    case isTrue hinside =>
      rw [List.length_tail] at hinside
      rw [List.getElem_tail, List.getElem?_eq_getElem (by omega), Option.getD_some]
      simp only [Nat.one_mul, Nat.add_comm 1 i]
    case isFalse houtside =>
      rw [List.length_tail] at houtside
      rw [List.getElem?_eq_none (by omega), Option.getD_none]
      have hoffset : i - (param.bytes.length - 1) = 1 + 1 * i - dataParamSize := by
        rw [hlength, Nat.one_mul, Nat.add_comm 1 i]
        exact (Nat.add_sub_add_right i 1 187).symm
      rw [List.getElem_map, List.getElem_range, List.length_tail, hoffset]

/-- An empty parameter has no stream. -/
theorem streamLength_of_isBufferEmpty (h : isBufferEmpty param.bytes = true) :
    param.streamLength = 0 := by
  cases hbytes : param.bytes with
  | nil => rw [ParamData.streamLength, hbytes]; rfl
  | cons first rest =>
    rw [hbytes, isBufferEmpty, List.all_cons, Bool.and_eq_true, beq_iff_eq] at h
    rw [ParamData.streamLength, hbytes, List.headD_cons, h.1]
    rfl

/-- The decoder is called with all offsets of the stream. -/
theorem mem_decoderOffsets {offset : ℕ} :
    offset ∈ decoderOffsets param ↔ 1 ≤ offset ∧ offset ≤ param.streamLength := by
  unfold decoderOffsets
  split
  case isTrue hempty =>
    rw [streamLength_of_isBufferEmpty param hempty]
    simp only [List.not_mem_nil, false_iff]
    omega
  case isFalse => simp only [List.mem_range'_1]; omega

variable {env} {env' : CallEnv}

/-- Besides the allocations, the result depends on the bytes at these offsets only. -/
theorem getParamBuffer_congr (err : ErrorState) (halloc : env.alloc = env'.alloc)
    (hbytes : ∀ offset ∈ decoderOffsets param, env.byteAt param offset = env'.byteAt param offset) :
    getParamBuffer libs env param err = getParamBuffer libs env' param err := by
  unfold getParamBuffer
  split
  case isTrue => rfl
  case isFalse hempty =>
    rw [decoderOffsets, if_neg hempty] at hbytes
    have hinput : brotliInput env param = brotliInput env' param := by
      rw [brotliInput_eq_map, brotliInput_eq_map]
      exact List.map_congr_left hbytes
    rw [hinput, halloc]

/-- Decoding depends on the parameter only: the decoder is given bytes of the local buffer, the
result does not depend on what lies behind them, and a stream that does not fit is an error. -/
structure DecodesAlone : Prop where
  inside : ∀ offset ∈ decoderOffsets param, offset < dataParamSize
  same : ∀ err,
    Function.FactorsThrough (fun env => getParamBuffer libs env param err) CallEnv.alloc
  refused : dataParamSize ≤ param.streamLength → ∀ env err, ∃ code : ErrorCode,
    getParamBuffer libs env param err = (⟨none, 0⟩, setErrorParam code.value err)

/-- Inside of the local buffer, nothing of the stack is read. -/
theorem CallEnv.byteAt_congr {offset : ℕ} (h : offset < dataParamSize) :
    env.byteAt param offset = env'.byteAt param offset := by
  have hinside : offset < param.bytes.length := by rwa [param.length_eq]
  simp only [byteAt, List.getD_eq_getElem?_getD, List.getElem?_eq_getElem hinside,
    Option.getD_some]

/-- Decoding depends on the parameter only, if and only if the stream fits behind its length. -/
theorem decodesAlone_iff :
    DecodesAlone libs param ↔ param.streamLength < dataParamSize := by
  constructor
  · intro halone
    by_contra hlong
    -- the offset behind the last one of the buffer is among those of the stream
    have hoffset := (mem_decoderOffsets param).mpr ⟨by decide, not_lt.mp hlong⟩
    exact lt_irrefl _ (halone.inside dataParamSize hoffset)
  · intro hfits
    have hinside : ∀ offset ∈ decoderOffsets param, offset < dataParamSize := by
      intro offset hoffset
      exact lt_of_le_of_lt ((mem_decoderOffsets param).mp hoffset).2 hfits
    refine ⟨hinside, fun err env env' halloc => ?_, fun hlong => absurd hfits (not_lt.mpr hlong)⟩
    apply getParamBuffer_congr libs param err halloc
    intro offset hoffset
    exact CallEnv.byteAt_congr param (hinside offset hoffset)

/-- A stream that does not fit goes on with the first byte of the stack. -/
theorem brotliInput_behind (hlong : dataParamSize ≤ param.streamLength) :
    (brotliInput env param)[187]? = some (env.stack 0) := by
  have hindex : 187 < (List.range' 1 param.streamLength).length := by
    rw [List.length_range']
    exact hlong
  have hbytes : param.bytes[188]? = none := List.getElem?_eq_none param.length_eq.le
  rw [brotliInput_eq_map, List.getElem?_map, List.getElem?_eq_getElem hindex, List.getElem_range',
    Option.map_some, CallEnv.byteAt, List.getD_eq_getElem?_getD, hbytes, Option.getD_none]
  rfl

/-- A stream that does not fit is not empty. -/
theorem isBufferEmpty_of_long (hlong : dataParamSize ≤ param.streamLength) :
    isBufferEmpty param.bytes = false := by
  rw [← Bool.not_eq_true]
  intro hempty
  rw [streamLength_of_isBufferEmpty param hempty] at hlong
  exact absurd hlong (by decide)

variable {libs param}

/-- What the decoder returns is handed on. -/
theorem getParamBuffer_of_decoded {decoded : List UInt8} (err : ErrorState)
    (hfull : isBufferEmpty param.bytes = false) (halloc : env.alloc.decoded = true)
    (h : libs.brotliDecoderDecompress (brotliInput env param) dataParamSize = some decoded) :
    getParamBuffer libs env param err = (⟨some decoded, decoded.length⟩, err) := by
  simp only [getParamBuffer, hfull, h, halloc, Bool.false_eq_true, if_false, if_true]

/-- If it returns nothing, that is reported. -/
theorem getParamBuffer_of_refused (err : ErrorState) (hfull : isBufferEmpty param.bytes = false)
    (h : libs.brotliDecoderDecompress (brotliInput env param) dataParamSize = none) :
    getParamBuffer libs env param err =
      (⟨none, 0⟩, setErrorParam ErrorCode.internalBrotliDecode.value err) := by
  simp only [getParamBuffer, hfull, h, Bool.false_eq_true, if_false]

/-- Where the decoder returns something in one environment and nothing in another one, the result
depends on more than the parameter. -/
theorem not_factorsThrough_of_refused {decoded : List UInt8} (err : ErrorState)
    (hfull : isBufferEmpty param.bytes = false) (halloc : env.alloc.decoded = true)
    (hsame : env.alloc = env'.alloc)
    (h : libs.brotliDecoderDecompress (brotliInput env param) dataParamSize = some decoded)
    (h' : libs.brotliDecoderDecompress (brotliInput env' param) dataParamSize = none) :
    ¬ Function.FactorsThrough (fun env => getParamBuffer libs env param err) CallEnv.alloc := by
  intro hfactors
  have hresult : getParamBuffer libs env param err = getParamBuffer libs env' param err :=
    hfactors hsame
  rw [getParamBuffer_of_decoded err hfull halloc h, getParamBuffer_of_refused err hfull h']
    at hresult
  exact Option.some_ne_none _ (congrArg (fun got => got.1.buffer) hresult)

/-- The libraries with a decoder that looks at one byte of the stream. -/
def lookingLibraries : Libraries :=
  { sampleLibraries [] ⟨[]⟩ with
    brotliDecoderDecompress := fun encoded _ => if encoded[187]? = some 0 then some [] else none }

/-- The environment of a call that finds one byte all over the stack. -/
def CallEnv.filled (byte : UInt8) : CallEnv := { CallEnv.ample with stack := fun _ => byte }

/-- Whatever the decoder is, the result depends on the parameter and the allocations only, if and
only if the stream fits behind its length. -/
theorem getParamBuffer_factorsThrough_iff (param : ParamData) :
    (∀ libs err,
        Function.FactorsThrough (fun env => getParamBuffer libs env param err) CallEnv.alloc) ↔
      param.streamLength < dataParamSize := by
  constructor
  · intro hsame
    by_contra hlong
    rw [not_lt] at hlong
    have hlooks (byte : UInt8) : lookingLibraries.brotliDecoderDecompress
        (brotliInput (.filled byte) param) dataParamSize =
          if byte = 0 then some [] else none := by
      simp only [lookingLibraries, brotliInput_behind param hlong, CallEnv.filled,
        Option.some.injEq]
    have halloc : (CallEnv.filled 0).alloc = (CallEnv.filled 1).alloc := rfl
    exact not_factorsThrough_of_refused (.boot 0) (isBufferEmpty_of_long param hlong) rfl halloc
      (hlooks 0) (hlooks 1) (hsame lookingLibraries (.boot 0))
  · exact fun hfits libs => ((decodesAlone_iff libs param).mpr hfits).same

/-- The parameter whose stream ends with the first byte behind it. -/
def overrunningParam : ParamData := .ofStream (storedStream (List.replicate 184 0))

/-- Its stream is decoded or not, depending on that byte. -/
theorem decodesAlone_not_always :
    ¬ ∀ (libs : Libraries) (param : ParamData), DecodesAlone libs param := by
  intro h
  have hfull : isBufferEmpty overrunningParam.bytes = false := by decide +kernel
  have hdecoded : brotliInput (.filled 3) overrunningParam =
      storedStream (List.replicate 184 0) := by decide +kernel
  have hrefused : brotliInput (.filled 0) overrunningParam ≠
      storedStream (List.replicate 184 0) := by decide +kernel
  have halloc : (CallEnv.filled 3).alloc = (CallEnv.filled 0).alloc := rfl
  have hsame := (h (sampleLibraries (List.replicate 184 0) ⟨[]⟩) overrunningParam).same (.boot 0)
  generalize List.replicate 184 0 = payload, overrunningParam = param
    at hfull hdecoded hrefused hsame
  exact not_factorsThrough_of_refused (.boot 0) hfull rfl halloc (if_pos hdecoded)
    (if_neg hrefused) hsame

end Dipp
