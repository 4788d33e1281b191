import Dipp.Library.Execution
import Mathlib.Logic.Function.Basic

/-!
# Readers of a store that grows

A reader looks at a shared store any number of times before it comes to a result, and a
writer may be at work between two of its looks. A reader is settled once further growth
of the store cannot change its result. A reader that is settled by its first look comes,
in every interleaving, to the result it would have come to had it been alone with the
store of that moment: it is linearizable, with the first look as its point. What it means
to grow is said of what was written, of which the store is a view.
-/

namespace Readers

variable {R A B E S : Type*}

/-- A reader with its result, or before its next look at the store. -/
inductive Reader (R A : Type*) where
  | done (result : A)
  | look (next : R → Reader R A)

namespace Reader

/-- Look once. -/
def ask (f : R → A) : Reader R A := look fun r => done (f r)

/-- Go on with the result. -/
def bind (f : A → Reader R B) : Reader R A → Reader R B
  | done a => f a
  | look next => look fun r => (next r).bind f

/-- Change the result. -/
def map (f : A → B) (reader : Reader R A) : Reader R B := reader.bind fun a => done (f a)

/-- One reader after the other, with all their results. -/
def all : List (Reader R A) → Reader R (List A)
  | [] => done []
  | reader :: rest => reader.bind fun a => (all rest).map (List.cons a)

/-- The result of a reader that is alone with the store. -/
def runAt (r : R) : Reader R A → A
  | done a => a
  | look next => (next r).runAt r

/-- One look is one value of the store. -/
@[simp] theorem runAt_ask (r : R) (f : R → A) : (ask f).runAt r = f r := rfl

/-- Running one reader after the other. -/
@[simp] theorem runAt_bind (r : R) (reader : Reader R A) (f : A → Reader R B) :
    (reader.bind f).runAt r = (f (reader.runAt r)).runAt r := by
  induction reader with
  | done a => rfl
  | look next ih => exact ih r

/-- Running a reader whose result is changed. -/
@[simp] theorem runAt_map (r : R) (reader : Reader R A) (f : A → B) :
    (reader.map f).runAt r = f (reader.runAt r) :=
  runAt_bind r reader _

/-- Running a number of readers. -/
@[simp] theorem runAt_all (r : R) (readers : List (Reader R A)) :
    (all readers).runAt r = readers.map (runAt r) := by
  induction readers with
  | nil => rfl
  | cons reader rest ih => rw [all, runAt_bind, runAt_map, ih, List.map_cons]

end Reader

/-- What was written to a store, and how the store is made from it: it grows by one entry at a time,
and what is valid has been valid from the beginning. -/
structure Growth (S : Type*) (write : R → E → R) where
  view : S → R
  extend : S → E → S
  grows : S → S → Prop
  valid : S → Prop
  refl : ∀ s, grows s s
  trans : ∀ {s s' s''}, grows s s' → grows s' s'' → grows s s''
  grows_extend : ∀ s entry, grows s (extend s entry)
  valid_of_grows : ∀ {s s'}, grows s s' → valid s' → valid s
  view_extend : ∀ s entry, view (extend s entry) = write (view s) entry

variable {write : R → E → R} (growth : Growth S write)

namespace Reader

/-- Whatever the store grows to between its looks, the reader comes to this result. -/
def Settles (result : A) : Reader R A → S → Prop
  | done a, _ => a = result
  | look next, s =>
    ∀ s', growth.grows s s' → growth.valid s' → (next (growth.view s')).Settles result s'

/-- The first look settles a reader on what it comes to alone. -/
def Linearizable : Reader R A → Prop
  | done _ => True
  | look next => ∀ s, growth.valid s →
    (next (growth.view s)).Settles growth ((look next).runAt (growth.view s)) s

variable {growth}

/-- A reader stays settled while the store grows. -/
theorem Settles.grow {result : A} {reader : Reader R A} {s s' : S}
    (h : reader.Settles growth result s) (hgrows : growth.grows s s') :
    reader.Settles growth result s' := by
  cases reader with
  | done a => exact h
  | look next => exact fun s'' hgrows' hvalid => h s'' (growth.trans hgrows hgrows') hvalid

/-- A settled reader comes to that result alone. -/
theorem Settles.runAt {result : A} {reader : Reader R A} {s : S} (hvalid : growth.valid s)
    (h : reader.Settles growth result s) : reader.runAt (growth.view s) = result := by
  induction reader with
  | done a => exact h
  | look next ih => exact ih _ (h s (growth.refl s) hvalid)

/-- A look at what does not change any more. -/
theorem settles_ask {f : R → A} {result : A} {s : S}
    (h : ∀ s', growth.grows s s' → growth.valid s' → f (growth.view s') = result) :
    (ask f).Settles growth result s := h

/-- One settled reader after the other. -/
theorem Settles.bind {result : A} {last : B} {reader : Reader R A} {f : A → Reader R B} {s : S}
    (hvalid : growth.valid s) (h : reader.Settles growth result s)
    (hf : ∀ s', growth.grows s s' → growth.valid s' → (f result).Settles growth last s') :
    (reader.bind f).Settles growth last s := by
  induction reader generalizing s with
  | done a =>
    obtain rfl : a = result := h
    exact hf s (growth.refl s) hvalid
  | look next ih =>
    intro s' hgrows hvalid'
    exact ih _ hvalid' (h s' hgrows hvalid') fun s'' hgrows' =>
      hf s'' (growth.trans hgrows hgrows')

/-- A settled reader whose result is changed. -/
theorem Settles.map {result : A} {reader : Reader R A} {s : S} (hvalid : growth.valid s)
    (h : reader.Settles growth result s) (f : A → B) :
    (reader.map f).Settles growth (f result) s :=
  h.bind hvalid fun _ _ _ => rfl

/-- Settled readers, one after the other. -/
theorem settles_all {I : Type*} {items : List I} {reader : I → Reader R A} {result : I → A} {s : S}
    (hvalid : growth.valid s) (h : ∀ item ∈ items, (reader item).Settles growth (result item) s) :
    (all (items.map reader)).Settles growth (items.map result) s := by
  induction items generalizing s with
  | nil => rfl
  | cons item rest ih =>
    apply (h item List.mem_cons_self).bind hvalid
    intro s' hgrows hvalid'
    have hrest := ih hvalid' fun later hlater =>
      (h later (List.mem_cons_of_mem _ hlater)).grow hgrows
    exact hrest.map hvalid' _

/-- A reader that is settled after one look is linearizable. -/
theorem linearizable_ask {f : R → A} {next : A → Reader R B}
    (h : ∀ s, growth.valid s → ∃ result, (next (f (growth.view s))).Settles growth result s) :
    ((ask f).bind next).Linearizable growth := by
  intro s hvalid
  obtain ⟨result, hresult⟩ := h s hvalid
  have halone := hresult.runAt hvalid
  rw [← halone] at hresult
  exact hresult

/-- A linearizable reader whose result is changed. -/
theorem Linearizable.map {reader : Reader R A} (h : reader.Linearizable growth) (f : A → B) :
    (reader.map f).Linearizable growth := by
  cases reader with
  | done a => trivial
  | look next =>
    intro s hvalid
    have halone := runAt_map (growth.view s) (look next) f
    have hnext := (h s hvalid).map hvalid f
    rw [← halone] at hnext
    exact hnext

end Reader

/-- The store, and a number of readers. -/
structure System (ι R A : Type*) where
  store : R
  reader : ι → Reader R A

/-- The writer writes, or a reader looks. -/
inductive Event (ι E : Type*) where
  | write (entry : E)
  | look (i : ι)

variable {ι : Type*}

/-- The entries that are written. -/
def written : List (Event ι E) → List E
  | [] => []
  | .write entry :: rest => entry :: written rest
  | .look _ :: rest => written rest

/-- First the earlier entries are written. -/
theorem written_append (earlier later : List (Event ι E)) :
    written (earlier ++ later) = written earlier ++ written later := by
  induction earlier with
  | nil => rfl
  | cons event rest ih =>
    cases event with
    | write entry => exact congrArg (List.cons entry) ih
    | look i => exact ih

/-- What has been written after the events. -/
def Growth.after (s : S) (events : List (Event ι E)) : S :=
  (written events).foldl growth.extend s

variable {growth}

/-- It has grown. -/
theorem Growth.grows_after (s : S) (events : List (Event ι E)) :
    growth.grows s (growth.after s events) := by
  rw [after]
  induction written events generalizing s with
  | nil => exact growth.refl s
  | cons entry rest ih => exact growth.trans (growth.grows_extend s entry) (ih _)

/-- Events after an event. -/
theorem Growth.after_cons (s : S) (event : Event ι E) (rest : List (Event ι E)) :
    growth.after s (event :: rest) = growth.after (growth.after s [event]) rest := by
  cases event <;> rfl

variable [DecidableEq ι]

/-- It happens; a reader that is done does not look any more. -/
def step (write : R → E → R) (s : System ι R A) : Event ι E → Except Unit (System ι R A)
  | .write entry => .ok { s with store := write s.store entry }
  | .look i =>
    match s.reader i with
    | .done _ => .error ()
    | .look next => .ok { s with reader := Function.update s.reader i (next s.store) }

/-- A look of a reader. -/
theorem step_look {s s' : System ι R A} {i : ι} (h : step write s (.look i) = .ok s') :
    ∃ next, s.reader i = .look next ∧ s'.reader i = next s.store ∧ s'.store = s.store := by
  simp only [step] at h
  cases hreader : s.reader i with
  | done a => rw [hreader] at h; contradiction
  | look next =>
    rw [hreader] at h
    obtain rfl := Except.ok.inj h
    exact ⟨next, rfl, Function.update_self _ _ _, rfl⟩

/-- Any other step leaves the reader alone. -/
theorem step_reader_of_ne {s s' : System ι R A} {event : Event ι E}
    (h : step write s event = .ok s') {i : ι} (hevent : event ≠ .look i) :
    s'.reader i = s.reader i := by
  cases event with
  | write entry =>
    obtain rfl := Except.ok.inj h
    rfl
  | look j =>
    obtain ⟨next, hlook, -, -⟩ := step_look h
    simp only [step, hlook] at h
    obtain rfl := Except.ok.inj h
    exact Function.update_of_ne (fun hij => hevent (congrArg _ hij.symm)) _ _

/-- The store stays a view of what has been written. -/
theorem step_store {s s' : System ι R A} {event : Event ι E} (h : step write s event = .ok s')
    {a : S} (hstore : s.store = growth.view a) :
    s'.store = growth.view (growth.after a [event]) := by
  cases event with
  | write entry =>
    obtain rfl := Except.ok.inj h
    rw [Growth.after, written, written, List.foldl_cons, List.foldl_nil, growth.view_extend, hstore]
  | look i =>
    obtain ⟨-, -, -, hsame⟩ := step_look h
    rw [hsame, hstore]
    rfl

/-- A settled reader stays settled in every step. -/
theorem step_settles {s s' : System ι R A} {event : Event ι E} (h : step write s event = .ok s')
    {a : S} (hstore : s.store = growth.view a) (hvalid : growth.valid a) {i : ι} {result : A}
    (hsettles : (s.reader i).Settles growth result a) :
    (s'.reader i).Settles growth result (growth.after a [event]) := by
  by_cases hevent : event = .look i
  · subst hevent
    obtain ⟨next, hlook, hnext, -⟩ := step_look h
    rw [hlook] at hsettles
    rw [hnext, hstore]
    exact hsettles a (growth.refl a) hvalid
  · rw [step_reader_of_ne h hevent]
    exact hsettles.grow (growth.grows_after a [event])

/-- And in every run. -/
theorem run_settles {events : List (Event ι E)} {s last : System ι R A}
    (h : Execution.run (step write) events s = .ok last) {a : S} (hstore : s.store = growth.view a)
    (hvalid : growth.valid (growth.after a events)) {i : ι} {result : A}
    (hsettles : (s.reader i).Settles growth result a) :
    (last.reader i).Settles growth result (growth.after a events) := by
  induction events generalizing s a with
  | nil =>
    obtain rfl := Except.ok.inj h
    exact hsettles
  | cons event rest ih =>
    have hstart := growth.valid_of_grows (growth.grows_after a (event :: rest)) hvalid
    obtain ⟨s', hstep, hrest⟩ := Execution.run_cons_eq_ok h
    rw [growth.after_cons] at hvalid ⊢
    exact ih hrest (step_store hstep hstore) hvalid (step_settles hstep hstore hstart hsettles)

/-- A linearizable reader that is done in the end has the result it comes to alone, with the store
as it was at the reader's first look, unless it was done from the beginning. -/
theorem run_linearizable {events : List (Event ι E)} {s last : System ι R A}
    (h : Execution.run (step write) events s = .ok last) {a : S} (hstore : s.store = growth.view a)
    (hvalid : growth.valid (growth.after a events)) {i : ι} {result : A}
    (hlinear : (s.reader i).Linearizable growth) (hdone : last.reader i = .done result) :
    ∃ earlier later, events = earlier ++ later ∧ .look i ∉ earlier ∧
      (s.reader i = .done result ∨ later.head? = some (.look i)) ∧
      result = (s.reader i).runAt (growth.view (growth.after a earlier)) := by
  induction events generalizing s a with
  | nil =>
    obtain rfl := Except.ok.inj h
    refine ⟨[], [], rfl, List.not_mem_nil, .inl hdone, ?_⟩
    rw [hdone]
    rfl
  | cons event rest ih =>
    have hstart := growth.valid_of_grows (growth.grows_after a (event :: rest)) hvalid
    obtain ⟨s', hstep, hrest⟩ := Execution.run_cons_eq_ok h
    rw [growth.after_cons] at hvalid
    by_cases hfirst : event = .look i
    · -- The first look settles the reader.
      subst hfirst
      refine ⟨[], .look i :: rest, rfl, List.not_mem_nil, .inr rfl, ?_⟩
      obtain ⟨next, hlook, hnext, -⟩ := step_look hstep
      rw [hlook] at hlinear ⊢
      have hsettles := hlinear a hstart
      rw [← hstore, ← hnext] at hsettles
      have hlast := run_settles hrest (step_store hstep hstore) hvalid hsettles
      rw [hdone, hstore] at hlast
      exact hlast
    · have hsame : s'.reader i = s.reader i := step_reader_of_ne hstep hfirst
      obtain ⟨earlier, later, hevents, hnone, hhead, hresult⟩ :=
        ih hrest (step_store hstep hstore) hvalid (by rwa [hsame])
      rw [hsame] at hhead
      refine ⟨event :: earlier, later, congrArg _ hevents, ?_, hhead, ?_⟩
      · exact List.not_mem_cons_of_ne_of_not_mem (Ne.symm hfirst) hnone
      · rw [hresult, hsame, growth.after_cons a event earlier]

end Readers
