import Dipp.Upload.Walker

/-!
# Which batches are uploaded safely

The loop checks neither the size word, nor the result of unpacking, nor the size of the
image. It is safe all the same on batches that are sequences of well-formed blocks, as
far as the number of images makes it walk, and on no others.
-/

namespace Dipp

open LittleEndian Framing Mapped

/-- Where an iteration that writes stops; the others do not get anywhere. -/
def UploadIteration.stop : UploadIteration → UInt32
  | .written _ _ _ stop _ => stop
  | stuck => stuck.start

/-- A walk is safe if each iteration is, each one starts where the previous one stopped, and no
two of the slices handed to the ring overlap. -/
structure SafeUpload (data : List UInt8) (iterations : List UploadIteration) : Prop where
  each : ∀ iteration ∈ iterations, iteration.Safe data
  adjacent : iterations.IsChain fun first second => first.stop = second.start
  disjoint : iterations.Pairwise fun first second => first.stop ≤ second.start

/-- A safe iteration makes progress. -/
theorem UploadIteration.Safe.start_lt_stop {data : List UInt8} {iteration : UploadIteration}
    (hsafe : iteration.Safe data) : iteration.start < iteration.stop := by
  cases iteration with
  | written start metaSize metadata stop element => exact SafeWrite.nonempty hsafe
  | _ => exact hsafe.elim

/-- Safe slices in a row do not overlap. -/
theorem pairwise_of_adjacent {data : List UInt8} (iterations : List UploadIteration)
    (hsafe : ∀ iteration ∈ iterations, iteration.Safe data)
    (hchain : iterations.IsChain fun first second => first.stop = second.start) :
    iterations.Pairwise fun first second => first.stop ≤ second.start := by
  induction iterations with
  | nil => exact List.Pairwise.nil
  | cons first rest ih =>
    obtain ⟨hhead, htail⟩ := List.isChain_cons.mp hchain
    have hrest := ih (fun i hi => hsafe i (List.mem_cons_of_mem _ hi)) htail
    refine List.pairwise_cons.mpr ⟨?_, hrest⟩
    cases rest with
    | nil => simp
    | cons second later =>
      have hsecond : first.stop = second.start := hhead second rfl
      have hprogress := (hsafe second (by simp)).start_lt_stop
      intro iteration hiteration
      rcases List.mem_cons.mp hiteration with rfl | hiteration
      · exact UInt32.le_of_eq hsecond
      · rw [hsecond]
        exact UInt32.le_trans (UInt32.le_of_lt hprogress)
          ((List.pairwise_cons.mp hrest).1 iteration hiteration)

variable (unpack : List UInt8 → Option Metadata)

/-- Over an attached batch, the upload is safe exactly if the batch is a sequence of well-formed
blocks up to the requested number of images. -/
theorem upload_safe_iff (data : List UInt8) (mem : Memory) (hholds : Holds mem data)
    (num len : Int32) (hlen : len.toInt = data.length) :
    SafeUpload data (upload unpack mem num len) ↔
      Framed (blockLength unpack) num.toInt.toNat data := by
  have hlength : data.length < 2 ^ 31 := by
    have hupper := len.toInt_lt
    omega
  have hunsigned : len.toUInt32.toNat = data.length := by
    rw [toNat_toUInt32_of_nonneg (by omega), hlen, Int.toNat_natCast]
  have hzero : (0 : UInt32).toNat = 0 := rfl
  rw [← splitBlocks_isSome_iff (blockLength_selfDelimiting unpack)]
  constructor
  · rintro ⟨hsafe, -, -⟩
    have hsplit := split_of_safe unpack hholds hlength _ hunsigned num.toInt.toNat 0
      (by rw [hzero]; exact Nat.zero_le _) hsafe
    rwa [hzero, List.drop_zero] at hsplit
  · rintro ⟨blocks, hblocks⟩
    have hstart : splitBlocks (blockLength unpack) num.toInt.toNat
        (data.drop (0 : UInt32).toNat) = some blocks := by
      rwa [hzero, List.drop_zero]
    have hsafe := (uploadFrom_of_split unpack hholds hlength _ hunsigned num.toInt.toNat 0
      (by rw [hzero]; exact Nat.zero_le _) hstart).1
    have hchain : (upload unpack mem num len).IsChain
        fun first second => first.stop = second.start := by
      refine (uploadFrom_adjacent unpack mem len.toUInt32 num.toInt.toNat 0).2.imp ?_
      rintro first second ⟨start, metaSize, metadata, element, rfl⟩
      rfl
    exact ⟨hsafe, hchain, pairwise_of_adjacent _ hsafe hchain⟩

/-- Unpacking as far as the size field of a few metadata goes. -/
def sampleUnpack (packed : List UInt8) : Option Metadata :=
  if packed = [] then some ⟨0, 0⟩ else if packed = [0x08, 0x01] then some ⟨1, 0⟩ else none

/-- A batch of one image of one pixel byte is uploaded safely. -/
theorem upload_safe_iff_single :
    SafeUpload (encodeBlock [0x08, 0x01] [0xff])
      (upload sampleUnpack (ofBuffer (encodeBlock [0x08, 0x01] [0xff])) 1 7) := by
  refine (upload_safe_iff sampleUnpack _ _ (holds_ofBuffer _) 1 7 (by decide)).mpr ?_
  refine ⟨[encodeBlock [0x08, 0x01] [0xff]], [], by simp, ?_, by decide, Or.inr rfl⟩
  intro block hblock
  obtain rfl := List.mem_singleton.mp hblock
  have hunpack : sampleUnpack [0x08, 0x01] = some ⟨1, 0⟩ := by decide
  exact isBlock_encodeBlock sampleUnpack hunpack (by decide) (by decide)

/-- Metadata that cannot be unpacked is used nevertheless. -/
theorem upload_not_always_safe :
    ¬ ∀ (unpack : List UInt8 → Option Metadata) (data : List UInt8) (mem : Memory)
        (num len : Int32), Holds mem data → len.toInt = data.length →
        SafeUpload data (upload unpack mem num len) := by
  intro h
  have hsafe := (h sampleUnpack [0x01, 0x00, 0x00, 0x00, 0x07]
    (ofBuffer [0x01, 0x00, 0x00, 0x00, 0x07]) 1 5 (holds_ofBuffer _) (by decide)).each
  have hrun : upload sampleUnpack (ofBuffer [0x01, 0x00, 0x00, 0x00, 0x07]) 1 5 =
      [.nullMetadata 0 1] := by decide
  rw [hrun] at hsafe
  exact hsafe _ (List.mem_singleton_self _)

end Dipp
