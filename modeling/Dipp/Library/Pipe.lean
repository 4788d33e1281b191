import Mathlib.Data.Finset.Basic

/-!
# POSIX pipes

A pipe is its unread bytes and the set of processes that hold a write end open. A
read returns bytes while there are any. On an empty pipe it reports the end of file
only if nobody holds a write end; otherwise it blocks. Capacity is not modelled: a
write always completes.
-/

namespace Posix

variable {H : Type*}

/-- Unread bytes and the holders of an open write end. -/
structure Pipe (H : Type*) where
  content : List UInt8
  writeEnds : Finset H

/-- What a call of `read` does: fail, deliver bytes, report the end of file, or block. -/
inductive ReadResult where
  | failed
  | bytes (data : List UInt8)
  | endOfFile
  | blocks
  deriving DecidableEq

namespace Pipe

/-- A new pipe, whose write end belongs to the process that created it. -/
def create (owner : H) : Pipe H := ⟨[], {owner}⟩

/-- Bytes are appended behind the unread ones. -/
def write (data : List UInt8) (pipe : Pipe H) : Pipe H :=
  { pipe with content := pipe.content ++ data }

variable [DecidableEq H]

/-- A forked child inherits the write end if its parent holds it. -/
def inherit (parent child : H) (pipe : Pipe H) : Pipe H :=
  if parent ∈ pipe.writeEnds then { pipe with writeEnds := insert child pipe.writeEnds } else pipe

/-- Closing, or exiting, gives up a process's write end. -/
def close (holder : H) (pipe : Pipe H) : Pipe H :=
  { pipe with writeEnds := pipe.writeEnds.erase holder }

/-- Take at most `count` bytes from the front, or report why there are none. -/
def read (count : ℕ) (pipe : Pipe H) : ReadResult × Pipe H :=
  if pipe.content ≠ [] then
    (.bytes (pipe.content.take count), { pipe with content := pipe.content.drop count })
  else if pipe.writeEnds = ∅ then (.endOfFile, pipe)
  else (.blocks, pipe)

/-- A read has something to report: bytes, or that there will be none. -/
def Answers (pipe : Pipe H) : Prop := pipe.content ≠ [] ∨ pipe.writeEnds = ∅

/-- Otherwise it blocks. -/
theorem read_eq_blocks_iff (count : ℕ) (pipe : Pipe H) :
    (pipe.read count).1 = .blocks ↔ ¬ pipe.Answers := by
  unfold read Answers
  split_ifs with hcontent hends
  · exact iff_of_false nofun (not_not_intro (.inl hcontent))
  · exact iff_of_false nofun (not_not_intro (.inr hends))
  · exact iff_of_true rfl (not_or.mpr ⟨hcontent, hends⟩)

/-- Reading does not close anything. -/
@[simp] theorem writeEnds_read (count : ℕ) (pipe : Pipe H) :
    (pipe.read count).2.writeEnds = pipe.writeEnds := by
  unfold read
  split_ifs <;> rfl

/-- A read of a pipe does not fail. -/
theorem read_ne_failed (count : ℕ) (pipe : Pipe H) : (pipe.read count).1 ≠ .failed := by
  unfold read
  split_ifs <;> nofun

/-- The end of file is reported when no write end is left. -/
theorem writeEnds_of_endOfFile {count : ℕ} {pipe : Pipe H}
    (h : (pipe.read count).1 = .endOfFile) : pipe.writeEnds = ∅ := by
  unfold read at h
  split_ifs at h with _ hends
  exact hends

/-- A child that writes and exits leaves the pipe to its parent, with the bytes added. -/
theorem inherit_write_close {parent child : H} (hne : child ≠ parent) (data : List UInt8)
    (pipe : Pipe H) (hends : pipe.writeEnds = {parent}) :
    ((pipe.inherit parent child).write data).close child = ⟨pipe.content ++ data, {parent}⟩ := by
  have hparent : parent ∈ pipe.writeEnds := by rw [hends]; exact Finset.mem_singleton_self _
  have hchild : child ∉ ({parent} : Finset H) := by rwa [Finset.mem_singleton]
  rw [inherit, if_pos hparent]
  simp only [write, close, hends, Finset.erase_insert hchild]

/-- Bytes at the front are delivered, and those behind them stay. -/
theorem read_append (data rest : List UInt8) (ends : Finset H) (hdata : data ≠ []) :
    read data.length ⟨data ++ rest, ends⟩ = (.bytes data, ⟨rest, ends⟩) := by
  have hne : data ++ rest ≠ [] := by simp [hdata]
  simp only [read, if_pos hne, List.take_left, List.drop_left]

end Pipe

end Posix
