import Dipp.Remote.Ring

/-!
# The remote ring as a queue

A reader of the remote buffer finds the head, the tail and the list. It takes the images
from the tail up to the head, and for each of them the bytes between the two offsets around
it, or from zero on where the offsets descend. As long as every image is clear of those that
stay, this is a queue: an upload gives up some of the oldest images, at most nine are left,
the new one among them, and the reader gets all their bytes in the order of the uploads.
-/

namespace Dipp.Remote

open Execution Laps

/-- The bytes of an image. -/
def Image.bytes (image : Image) : List UInt8 :=
  (List.range image.len.toInt.toNat).map image.data

/-- Where a reader lets the image in a slot begin. -/
def Buffer.start (buffer : Buffer) (slot : ℕ) : ℕ :=
  if offsetAt buffer.list slot < offsetAt buffer.list (slot + 1) then offsetAt buffer.list slot
  else 0

/-- The bytes that a reader takes for the image in a slot. -/
def Buffer.read (address : UInt64) (buffer : Buffer) (slot : ℕ) : List UInt8 :=
  (List.range (offsetAt buffer.list (slot + 1) - buffer.start slot)).map fun i =>
    buffer.memory (address + UInt64.ofNat (buffer.start slot + i))

/-- What a reader takes out of the buffer at an address, from the tail up to the head. -/
def Buffer.contents (address : UInt64) (buffer : Buffer) : List (List UInt8) :=
  (List.range (distance buffer.tail.toNat buffer.head.toNat)).map fun i =>
    buffer.read address (buffer.tail.toNat + i)

/-- Slots are counted modulo their number. -/
theorem Buffer.read_congr (address : UInt64) (buffer : Buffer) (first i : ℕ) :
    buffer.read address (first % bufferListSize + i) = buffer.read address (first + i) := by
  have hoffset (k : ℕ) : offsetAt buffer.list (first % bufferListSize + k) =
      offsetAt buffer.list (first + k) := by
    have hslot : slotOf (first % bufferListSize + k) = slotOf (first + k) :=
      Fin.ext (Nat.mod_add_mod _ _ _)
    rw [offsetAt, hslot, offsetAt]
  simp only [Buffer.read, Buffer.start, Nat.add_assoc, hoffset]

variable {ring : Ring} {address : UInt64} {first last turn : ℕ}

/-- A reader finds where an image of the layout begins. -/
theorem Ring.Laid.start_eq (h : ring.Laid address first last turn) {j : ℕ} (hfirst : first ≤ j)
    (hlast : j < last) : ring.buffer.start j = ring.start address j := by
  rw [Buffer.start]
  by_cases hj : j = turn
  · subst hj
    obtain ⟨hzero, hlower⟩ := h.layout.turns hlast
    rw [if_neg (Nat.not_lt.mpr hlower.le), hzero]
  · obtain ⟨hstart, hascends⟩ := h.layout.ascends j hfirst hlast hj
    rw [if_pos hascends, hstart]

/-- It reads the bytes of the image. -/
theorem Ring.Laid.read_eq (h : ring.Laid address first last turn) {j : ℕ} (hfirst : first ≤ j)
    (hlast : j < last) {stored : Stored} (hstored : ring.stored (slotOf j) = some stored) :
    ring.buffer.read address j = stored.image.bytes := by
  obtain ⟨same, hsame, hlength, hbytes⟩ := h.images j hfirst hlast
  obtain rfl : stored = same := Option.some.inj (hstored.symm.trans hsame)
  rw [Buffer.read, h.start_eq hfirst hlast, ← hlength, Nat.add_sub_cancel_left, Image.bytes]
  apply List.map_congr_left
  intro i hi
  rw [UInt64.ofNat_add, ← UInt64.add_assoc, ← Ring.address_eq hstored]
  exact hbytes i (List.mem_range.mp hi)

/-- The images from a number on are those of a layout. -/
structure Ring.Keeps (address : UInt64) (ring : Ring) (images : List Image) (first turn : ℕ) : Prop
    where
  laid : ring.Laid address first images.length turn
  stored : ∀ j image, first ≤ j → images[j]? = some image →
    ∃ place, ring.stored (slotOf j) = some ⟨place, image⟩

variable {images : List Image}

/-- A reader finds these images. -/
theorem Ring.Keeps.contents_eq (h : ring.Keeps address images first turn) :
    ring.buffer.contents address = (images.drop first).map Image.bytes := by
  have hle := h.laid.first_le_last
  rw [Buffer.contents, h.laid.head, h.laid.tail, distance_mod hle h.laid.few]
  apply List.ext_getElem?
  intro i
  rw [List.getElem?_map, List.getElem?_map, List.getElem?_drop]
  by_cases hi : i < images.length - first
  · have hlast : first + i < images.length := by omega
    rw [List.getElem?_range hi, List.getElem?_eq_getElem hlast]
    obtain ⟨place, hplace⟩ :=
      h.stored (first + i) _ (Nat.le_add_right first i) (List.getElem?_eq_getElem hlast)
    rw [Option.map_some, Option.map_some, Buffer.read_congr,
      h.laid.read_eq (Nat.le_add_right first i) hlast hplace]
  · rw [List.getElem?_eq_none (by rw [List.length_range]; omega),
      List.getElem?_eq_none (by omega)]
    rfl

/-- An upload gives up images from the oldest one on, and adds its own. -/
theorem Ring.Keeps.uploaded {fuel : ℕ} {node : UInt8} {vaddr : UInt64} {next : Ring} {image : Image}
    (h : ring.Keeps (ring.client.address node vaddr) images first turn) (hfits : image.Fits)
    (hclears : ring.Clears image) (hnext : ring.uploaded fuel node vaddr image = .ok next) :
    next.client.address node vaddr = ring.client.address node vaddr ∧
      ∃ first' turn', first ≤ first' ∧ first' ≤ images.length ∧
        next.Keeps (next.client.address node vaddr) (images ++ [image]) first' turn' := by
  obtain ⟨hpositive, hsize⟩ := hfits
  have hlaid := h.laid
  obtain ⟨placement, client, hplace, hclient, rfl⟩ := Ring.uploaded_eq_ok hnext
  obtain ⟨first', hplaced⟩ := place_eq_ok hlaid.list hpositive hsize hlaid.first_le_last hlaid.few
    hlaid.head hlaid.tail ((hlaid.clears_iff image).mp hclears) hplace
  obtain ⟨hfirst, hlast, hfew⟩ := hplaced.stays.mem_range hlaid.first_le_last hlaid.few
  obtain ⟨turn', hlaid'⟩ : ∃ turn', (ring.place client image placement
      (ring.client.address node vaddr + placement.insertOffset.toUInt64)).Laid
        (ring.client.address node vaddr) first' (images.length + 1) turn' :=
    hlaid.place hpositive hsize hclears hplaced
  refine ⟨hclient, first', turn', hfirst, hlast, ?_, ?_⟩
  · rw [List.length_append, List.length_singleton]
    change Ring.Laid (client.address node vaddr) _ _ _ _
    rw [hclient]
    exact hlaid'
  · intro j older hj holder
    rcases Nat.lt_or_ge j images.length with hlt | hge
    · rw [List.getElem?_append_left hlt] at holder
      rw [Ring.stored_place hlaid.head hlt (by omega)]
      exact h.stored j older (hfirst.trans hj) holder
    · -- the image that was added last is the one of the upload
      have hlt := (List.getElem?_eq_some_iff.mp holder).1
      rw [List.length_append, List.length_singleton] at hlt
      obtain rfl : j = images.length := by omega
      rw [List.getElem?_concat_length] at holder
      obtain rfl := Option.some.inj holder
      exact ⟨_, Ring.stored_place_last hlaid.head⟩

/-- The uploads make a queue of the ring: after each number of them, a reader gets the images behind
the evicted ones, at most nine and the latest among them, and what is evicted does not come back. -/
structure IsQueue (fuel : ℕ) (node : UInt8) (vaddr : UInt64) (start : Ring) (images : List Image)
    (evicted : ℕ → ℕ) : Prop where
  ascends : ∀ {m n}, m ≤ n → n ≤ images.length → evicted m ≤ evicted n
  contents : ∀ n ≤ images.length, ∃ ring,
    run (Ring.uploaded fuel node vaddr) (images.take n) start = .ok ring ∧
      ring.buffer.contents (start.client.address node vaddr) =
        ((images.take n).drop (evicted n)).map Image.bytes ∧
      n ≤ evicted n + 9 ∧ (0 < n → evicted n < n)

/-- What a run of uploads from the empty buffer keeps. -/
theorem exists_keeps {fuel : ℕ} {node : UInt8} {vaddr : UInt64} {client : Client}
    {memory : UInt64 → UInt8} (hfits : ∀ image ∈ images, image.Fits)
    (hclears : Along (Ring.uploaded fuel node vaddr) Ring.Clears images (Ring.empty client memory))
    (hrun : run (Ring.uploaded fuel node vaddr) images (Ring.empty client memory) = .ok ring) :
    ∃ evicted : ℕ → ℕ, (∀ {m n}, m ≤ n → n ≤ images.length → evicted m ≤ evicted n) ∧
      ∀ n ≤ images.length, ∃ reached turn,
        run (Ring.uploaded fuel node vaddr) (images.take n) (Ring.empty client memory) =
          .ok reached ∧
        reached.client.address node vaddr = client.address node vaddr ∧
        reached.Keeps (client.address node vaddr) (images.take n) (evicted n) turn ∧
        (0 < n → evicted n < n) := by
  induction images using List.reverseRecOn generalizing ring with
  | nil =>
    refine ⟨fun _ => 0, fun _ _ => le_rfl, fun n hn => ?_⟩
    obtain rfl : n = 0 := Nat.le_zero.mp hn
    exact ⟨_, 0, rfl, rfl, ⟨Ring.laid_empty _ client memory, nofun⟩, fun h => h⟩
  | append_singleton images image ih =>
    obtain ⟨before, hbefore, hlatest⟩ := run_append_eq_ok hrun
    obtain ⟨next, hnext, hend⟩ := run_cons_eq_ok hlatest
    obtain ⟨evicted, hascends, hkept⟩ := ih
      (fun older holder => hfits older (List.mem_append_left _ holder)) hclears.of_append hbefore
    obtain ⟨reached, turn, hreached, haddress, hkeeps, -⟩ := hkept images.length le_rfl
    rw [List.take_length] at hreached hkeeps
    obtain rfl : reached = before := Except.ok.inj (hreached.symm.trans hbefore)
    rw [← haddress] at hkeeps
    obtain ⟨hsame, first', turn', hfirst, hlast, hkeeps'⟩ := hkeeps.uploaded
      (hfits image (List.mem_append_right _ List.mem_cons_self))
      (hclears.append_right hbefore).1 hnext
    obtain rfl : next = ring := Except.ok.inj hend
    have hlength : (images ++ [image]).length = images.length + 1 := List.length_append
    have hold (n : ℕ) (hn : n ≤ images.length) :
        Function.update evicted (images.length + 1) first' n = evicted n :=
      Function.update_of_ne (by omega) _ _
    have hnew : Function.update evicted (images.length + 1) first' (images.length + 1) = first' :=
      Function.update_self _ _ _
    rw [hlength]
    refine ⟨Function.update evicted (images.length + 1) first', fun {m n} hle hn => ?_,
      fun n hn => ?_⟩
    · rcases Nat.le_succ_iff.mp hn with hn | rfl
      · rw [hold m (hle.trans hn), hold n hn]
        exact hascends hle hn
      · rcases Nat.le_succ_iff.mp hle with hm | rfl
        · rw [hold m hm, hnew]
          exact (hascends hm le_rfl).trans hfirst
        · exact le_rfl
    · rcases Nat.le_succ_iff.mp hn with hn | rfl
      · rw [hold n hn, List.take_append_of_le_length hn]
        exact hkept n hn
      · rw [hnew, List.take_of_length_le (Nat.le_of_eq hlength)]
        rw [hsame, haddress] at hkeeps'
        exact ⟨next, turn', hrun, hsame.trans haddress, hkeeps', fun _ => Nat.lt_succ_of_le hlast⟩

/-- As long as each image is clear of the images that stay, the ring is a queue. -/
theorem remote_ring_is_queue {fuel : ℕ} {node : UInt8} {vaddr : UInt64} {client : Client}
    {memory : UInt64 → UInt8} (hfits : ∀ image ∈ images, image.Fits)
    (hclears : Along (Ring.uploaded fuel node vaddr) Ring.Clears images (Ring.empty client memory))
    (hrun : run (Ring.uploaded fuel node vaddr) images (Ring.empty client memory) = .ok ring) :
    ∃ evicted, IsQueue fuel node vaddr (Ring.empty client memory) images evicted := by
  obtain ⟨evicted, hascends, hkept⟩ := exists_keeps hfits hclears hrun
  refine ⟨evicted, hascends, fun n hn => ?_⟩
  obtain ⟨reached, turn, hreached, -, hkeeps, hlatest⟩ := hkept n hn
  have hfew := hkeeps.laid.few
  rw [List.length_take_of_le hn] at hfew
  exact ⟨reached, hreached, hkeeps.contents_eq, hfew, hlatest⟩

/-- Behind an image of sixty million bytes, one of fifty million bytes is the only one left. -/
theorem remote_ring_is_queue_sixty_fifty :
    ∃ evicted, IsQueue 1 0 1 (Ring.empty Client.boot fun _ => 0)
      [Image.constant 6 60000000, Image.constant 5 50000000] evicted := by
  have hfits : ∀ image ∈ [Image.constant 6 60000000, Image.constant 5 50000000],
      image.Fits := by
    simp only [List.mem_cons, List.not_mem_nil, or_false, forall_eq_or_imp, forall_eq]
    exact ⟨⟨by decide, by decide⟩, by decide, by decide⟩
  have hfirst : (Ring.empty Client.boot fun _ => 0).Clears (Image.constant 6 60000000) := by decide
  have hclears : Along (Ring.uploaded 1 0 1) Ring.Clears
      [Image.constant 6 60000000, Image.constant 5 50000000]
      (Ring.empty Client.boot fun _ => 0) := by
    refine ⟨hfirst, fun next hnext => ⟨?_, fun _ _ => trivial⟩⟩
    obtain rfl := Except.ok.inj hnext
    decide
  exact remote_ring_is_queue hfits hclears rfl

end Dipp.Remote
