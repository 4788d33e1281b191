import Mathlib.Data.List.Basic

/-!
# Sequences of self-delimiting blocks

A block format is given by a reader that finds the length of the block at the head
of a sequence, if there is one. The reader must depend on that block only. Cutting a
sequence at the lengths it reports then inverts concatenation, and the sequences on
which the cutting never fails are exactly the concatenations of blocks, followed by
anything at all once the limit on the number of blocks is used up.
-/

namespace Framing

variable {α : Type*}

/-- A length reader reports a non-empty head block and is determined by that block. -/
structure SelfDelimiting (blockLength : List α → Option ℕ) : Prop where
  positive : ∀ {data : List α} {n : ℕ}, blockLength data = some n → 0 < n
  bounded : ∀ {data : List α} {n : ℕ}, blockLength data = some n → n ≤ data.length
  determined : ∀ {data : List α} {n : ℕ} (tail : List α), blockLength data = some n →
    blockLength (data.take n ++ tail) = some n

/-- A sequence that is one block from its first to its last element. -/
def IsBlock (blockLength : List α → Option ℕ) (block : List α) : Prop :=
  blockLength block = some block.length

/-- Cut off at most `limit` blocks, failing where the remaining data has no head block. -/
def splitBlocks (blockLength : List α → Option ℕ) : ℕ → List α → Option (List (List α))
  | 0, _ => some []
  | _ + 1, [] => some []
  | limit + 1, first :: rest =>
    match blockLength (first :: rest) with
    | none => none
    | some n =>
      (splitBlocks blockLength limit ((first :: rest).drop n)).map
        (List.cons ((first :: rest).take n))

/-- The data is a sequence of blocks, up to the point where the limit stops the cutting. -/
def Framed (blockLength : List α → Option ℕ) (limit : ℕ) (data : List α) : Prop :=
  ∃ (blocks : List (List α)) (tail : List α), data = blocks.flatten ++ tail ∧
    (∀ block ∈ blocks, IsBlock blockLength block) ∧ blocks.length ≤ limit ∧
    (blocks.length = limit ∨ tail = [])

variable {blockLength : List α → Option ℕ}

/-- One cut at the head of non-empty data. -/
theorem splitBlocks_succ (limit : ℕ) (data : List α) (hdata : data ≠ []) :
    splitBlocks blockLength (limit + 1) data =
      (blockLength data).bind fun n =>
        (splitBlocks blockLength limit (data.drop n)).map (List.cons (data.take n)) := by
  cases data with
  | nil => contradiction
  | cons first rest =>
    rw [splitBlocks]
    cases blockLength (first :: rest) <;> rfl

/-- Data in front of which a block stands has that block's length. -/
theorem IsBlock.append (hreader : SelfDelimiting blockLength) {block : List α}
    (hblock : IsBlock blockLength block) (tail : List α) :
    blockLength (block ++ tail) = some block.length := by
  have h := hreader.determined tail hblock
  rwa [List.take_length] at h

/-- A block is never empty, so every cut makes progress. -/
theorem IsBlock.ne_nil (hreader : SelfDelimiting blockLength) {block : List α}
    (hblock : IsBlock blockLength block) : block ≠ [] :=
  List.ne_nil_of_length_pos (hreader.positive hblock)

/-- What the reader finds at the head of the data is a block. -/
theorem isBlock_take (hreader : SelfDelimiting blockLength) {data : List α} {n : ℕ}
    (h : blockLength data = some n) : IsBlock blockLength (data.take n) := by
  have htake := hreader.determined [] h
  rw [List.append_nil] at htake
  rw [IsBlock, htake, List.length_take, Nat.min_eq_left (hreader.bounded h)]

/-- Cutting a concatenation of blocks returns the blocks it was built from. -/
theorem splitBlocks_flatten (hreader : SelfDelimiting blockLength) (blocks : List (List α))
    (hblocks : ∀ block ∈ blocks, IsBlock blockLength block) (tail : List α) (limit : ℕ)
    (hlimit : limit ≤ blocks.length ∨ tail = []) :
    splitBlocks blockLength limit (blocks.flatten ++ tail) = some (blocks.take limit) := by
  induction limit generalizing blocks with
  | zero => simp [splitBlocks]
  | succ limit ih =>
    cases blocks with
    | nil =>
      have htail : tail = [] := hlimit.resolve_left (by simp)
      subst htail
      rfl
    | cons block blocks =>
      have hblock := hblocks block List.mem_cons_self
      have hrest := ih blocks (fun b hb => hblocks b (List.mem_cons_of_mem _ hb))
        (hlimit.imp_left (by simp))
      have hne : block ++ (blocks.flatten ++ tail) ≠ [] := by
        simp [hblock.ne_nil hreader]
      rw [List.flatten_cons, List.append_assoc, splitBlocks_succ _ _ hne,
        hblock.append hreader, Option.bind_some, List.drop_left, List.take_left, hrest]
      rfl

/-- A successful cutting exhibits the data as blocks and an unread rest. -/
theorem splitBlocks_sound (hreader : SelfDelimiting blockLength) (limit : ℕ) (data : List α)
    (blocks : List (List α)) (h : splitBlocks blockLength limit data = some blocks) :
    ∃ tail, data = blocks.flatten ++ tail ∧ (∀ block ∈ blocks, IsBlock blockLength block) ∧
      blocks.length ≤ limit ∧ (blocks.length = limit ∨ tail = []) := by
  induction limit generalizing data blocks with
  | zero =>
    obtain rfl : [] = blocks := Option.some.inj h
    exact ⟨data, by simp⟩
  | succ limit ih =>
    by_cases hdata : data = []
    · subst hdata
      obtain rfl : [] = blocks := Option.some.inj h
      exact ⟨[], by simp⟩
    · rw [splitBlocks_succ _ _ hdata] at h
      obtain ⟨n, hn, h⟩ := Option.bind_eq_some_iff.mp h
      obtain ⟨later, hlater, rfl⟩ := Option.map_eq_some_iff.mp h
      obtain ⟨tail, htail, hblocks, hlength, hend⟩ := ih _ _ hlater
      refine ⟨tail, ?_, ?_, ?_, ?_⟩
      · rw [List.flatten_cons, List.append_assoc, ← htail, List.take_append_drop]
      · intro block hblock
        rcases List.mem_cons.mp hblock with rfl | hblock
        · exact isBlock_take hreader hn
        · exact hblocks block hblock
      · simpa using hlength
      · simpa using hend

/-- The cutting succeeds exactly on framed data. -/
theorem splitBlocks_isSome_iff (hreader : SelfDelimiting blockLength) (limit : ℕ)
    (data : List α) :
    (∃ blocks, splitBlocks blockLength limit data = some blocks) ↔
      Framed blockLength limit data := by
  constructor
  · rintro ⟨blocks, h⟩
    exact ⟨blocks, splitBlocks_sound hreader limit data blocks h⟩
  · rintro ⟨blocks, tail, rfl, hblocks, hlength, hend⟩
    exact ⟨_, splitBlocks_flatten hreader blocks hblocks tail limit
      (hend.imp_left fun h => Nat.le_of_eq h.symm)⟩

end Framing
