import Dipp.Library.Execution
import Dipp.Process.Fold

/-!
# Which descriptors a pipeline execution leaves open

The four descriptors of the two pipes are closed behind the last module and behind a module
that failed. They are not closed where the result of a module cannot be read, and the first
pipe is not closed where the second one cannot be created. What is left open stays open: the
next execution stores the descriptors of new pipes in the same variables.
-/

namespace Dipp

open Execution

variable {W : Type*} (platform : Platform W)

/-- The lowest free descriptor is not open. -/
theorem lowestFree_notMem (descriptors : Finset ℕ) : lowestFree descriptors ∉ descriptors := by
  have hcard : descriptors.card < (Finset.range (descriptors.card + 1)).card := by
    rw [Finset.card_range]
    exact Nat.lt_succ_self _
  obtain ⟨free, hrange, hfree⟩ := Finset.exists_mem_notMem_of_card_lt_card hcard
  have hfound : ((List.range (descriptors.card + 1)).find? (· ∉ descriptors)).isSome = true := by
    rw [List.find?_isSome]
    exact ⟨free, List.mem_range.mpr (Finset.mem_range.mp hrange), decide_eq_true hfree⟩
  obtain ⟨lowest, hlowest⟩ := Option.isSome_iff_exists.mp hfound
  have hfree' := List.find?_some hlowest
  rw [lowestFree, hlowest, Option.getD_some]
  exact of_decide_eq_true hfree'

/-- The descriptors of the pipes, and those that are open. -/
structure Ends where
  output : ℕ × ℕ
  error : ℕ × ℕ
  descriptors : Finset ℕ

/-- The descriptors in a state. -/
def ProcessState.ends (s : ProcessState W) : Ends where
  output := (s.outputPipe.readEnd, s.outputPipe.writeEnd)
  error := (s.errorPipe.readEnd, s.errorPipe.writeEnd)
  descriptors := s.descriptors

/-- What the loop over the modules keeps: the descriptors, and the parent's write end. -/
structure ProcessState.KeepsEnds (s s' : ProcessState W) : Prop where
  ends : s'.ends = s.ends
  held : .parent ∈ s.outputPipe.pipe.writeEnds → .parent ∈ s'.outputPipe.pipe.writeEnds

/-- Keeping them twice is keeping them. -/
theorem ProcessState.KeepsEnds.trans {s s' s'' : ProcessState W} (h : s.KeepsEnds s')
    (h' : s'.KeepsEnds s'') : s.KeepsEnds s'' :=
  ⟨h'.ends.trans h.ends, fun hheld => h'.held (h.held hheld)⟩

/-- A child leaves the write end to its parent. -/
theorem PipeEnds.parent_mem_afterChild (bytes : List UInt8) {ends : PipeEnds}
    (h : .parent ∈ ends.pipe.writeEnds) : .parent ∈ (ends.afterChild bytes).pipe.writeEnds := by
  have hne : Holder.parent ≠ Holder.child := nofun
  simp only [afterChild, Posix.Pipe.close, Posix.Pipe.write, Posix.Pipe.inherit, h, if_true]
  exact Finset.mem_erase.mpr ⟨hne, Finset.mem_insert_of_mem h⟩

/-- A read takes bytes only. -/
theorem ProcessState.read_keepsEnds (name : PipeName) (count : ℕ) (s : ProcessState W) :
    s.KeepsEnds (s.read platform name count).2 := by
  unfold ProcessState.read
  split_ifs
  · exact ⟨rfl, id⟩
  · cases name with
    | output => exact ⟨rfl, fun h => (Posix.Pipe.writeEnds_read count s.outputPipe.pipe).symm ▸ h⟩
    | error => exact ⟨rfl, id⟩

/-- So does waiting for a child. -/
theorem forkAndWait_keepsEnds (stage : Stage) (input : ImageBatch) (s : ProcessState W) :
    s.KeepsEnds (forkAndWait platform stage input s).2 := by
  unfold forkAndWait
  dsimp only
  split_ifs
  · exact ⟨rfl, PipeEnds.parent_mem_afterChild _⟩
  · exact ⟨rfl, PipeEnds.parent_mem_afterChild _⟩
  · exact ⟨rfl, id⟩

variable {platform}

/-- So does the report of an exit. -/
theorem reportExit_keepsEnds {s s' : ProcessState W} (h : reportExit platform s = .ok s') :
    s.KeepsEnds s' := by
  have hread := s.read_keepsEnds platform .error 2
  unfold reportExit at h
  dsimp only at h
  split at h
  case h_1 => contradiction
  all_goals
    obtain rfl := Except.ok.inj h
    exact ⟨hread.ends, hread.held⟩

/-- So does a module, however it ends. -/
theorem executeModuleInProcess_keepsEnds {stage : Stage} {input : ImageBatch}
    {s s' : ProcessState W} {status : Status}
    (h : executeModuleInProcess platform stage input s = .ok (status, s')) : s.KeepsEnds s' := by
  have hwait := forkAndWait_keepsEnds platform stage input s
  unfold executeModuleInProcess at h
  dsimp only at h
  split at h
  case h_1 =>
    split at h
    · split at h
      · contradiction
      · next reported hreported =>
        obtain ⟨-, rfl⟩ := Prod.mk.inj (Except.ok.inj h)
        have hreport := hwait.trans (reportExit_keepsEnds hreported)
        exact ⟨hreport.ends, hreport.held⟩
    · obtain ⟨-, rfl⟩ := Prod.mk.inj (Except.ok.inj h)
      exact hwait
  case h_2 =>
    obtain ⟨-, rfl⟩ := Prod.mk.inj (Except.ok.inj h)
    exact ⟨hwait.ends, hwait.held⟩

/-- Without a result that can be read, there is none. -/
theorem takeResult_of_readFails (batch : ImageBatch) {s : ProcessState W}
    (h : platform.readFails s.world .output = true) :
    takeResult platform batch s = .ok (none, s.setErrorParam ErrorCode.pipeRead.value) := by
  simp only [takeResult, ProcessState.read, if_pos h]

/-- Otherwise the pipe is not at its end while the parent holds its write end. -/
theorem takeResult_ne_none {batch : ImageBatch} {s : ProcessState W}
    (hreads : platform.readFails s.world .output = false)
    (hheld : .parent ∈ s.outputPipe.pipe.writeEnds) (s' : ProcessState W) :
    takeResult platform batch s ≠ .ok (none, s') := by
  intro h
  simp only [takeResult, ProcessState.read, hreads, Bool.false_eq_true, if_false] at h
  cases hgot : (s.outputPipe.pipe.read sizeofImageBatch).1 with
  | blocks => simp [hgot] at h
  | bytes data => simp [hgot] at h
  | failed => exact Posix.Pipe.read_ne_failed _ _ hgot
  | endOfFile =>
    rw [Posix.Pipe.writeEnds_of_endOfFile hgot] at hheld
    exact Finset.notMem_empty _ hheld

/-- A result that is taken takes bytes only. -/
theorem takeResult_keepsEnds {batch next : ImageBatch} {s s' : ProcessState W}
    (h : takeResult platform batch s = .ok (some next, s')) : s.KeepsEnds s' := by
  have hread := s.read_keepsEnds platform .output sizeofImageBatch
  unfold takeResult at h
  dsimp only at h
  split at h
  case h_4 =>
    obtain ⟨-, rfl⟩ := Prod.mk.inj (Except.ok.inj h)
    exact hread
  all_goals simp at h

/-- The four descriptors are open, and others than those from before. -/
structure Ends.Beside (before : Finset ℕ) (ends : Ends) : Prop where
  descriptors : ends.descriptors = insert ends.error.2 (insert ends.error.1
    (insert ends.output.2 (insert ends.output.1 before)))
  outputRead : ends.output.1 ∉ before
  outputWrite : ends.output.2 ∉ insert ends.output.1 before
  errorRead : ends.error.1 ∉ insert ends.output.2 (insert ends.output.1 before)
  errorWrite : ends.error.2 ∉ insert ends.error.1
    (insert ends.output.2 (insert ends.output.1 before))

/-- Closing them leaves what was open before. -/
theorem Ends.Beside.closePipes {before : Finset ℕ} {s : ProcessState W}
    (h : s.ends.Beside before) : s.closePipes.descriptors = before := by
  obtain ⟨hopen, houtputRead, houtputWrite, herrorRead, herrorWrite⟩ := h
  simp only [ProcessState.ends] at hopen houtputRead houtputWrite herrorRead herrorWrite
  simp only [Finset.mem_insert, not_or] at houtputWrite herrorRead herrorWrite
  ext descriptor
  simp only [ProcessState.closePipes, hopen, Finset.mem_erase, Finset.mem_insert]
  constructor
  · rintro ⟨herrorWrite', herrorRead', houtputWrite', houtputRead', hmem⟩
    exact (((hmem.resolve_left herrorWrite').resolve_left herrorRead').resolve_left
      houtputWrite').resolve_left houtputRead'
  · intro hmem
    refine ⟨?_, ?_, ?_, ?_, .inr (.inr (.inr (.inr hmem)))⟩
    · rintro rfl
      exact herrorWrite.2.2.2 hmem
    · rintro rfl
      exact herrorRead.2.2 hmem
    · rintro rfl
      exact houtputWrite.2 hmem
    · rintro rfl
      exact houtputRead hmem

/-- Without closing them, more is open than before. -/
theorem Ends.Beside.descriptors_ne {before : Finset ℕ} {ends : Ends} (h : ends.Beside before) :
    ends.descriptors ≠ before := by
  intro hsame
  apply h.outputRead
  rw [← hsame, h.descriptors]
  simp

/-- Every read of a module's result succeeds, as far as the loop goes. -/
def ReadsResults (platform : Platform W) (pipeline : Pipeline) : (remaining i : ℕ) → ImageBatch →
    ProcessState W → Prop
  | 0, _, _, _ => True
  | remaining + 1, i, batch, s => ∀ h : i < maxModules, ∀ ran,
    executeModuleInProcess platform ((s.atModule i).config.stageOf (pipeline.modules ⟨i, h⟩)) batch
        (s.atModule i) = .ok (.success, ran) →
      platform.readFails ran.world .output = false ∧
        ∀ next taken, takeResult platform batch ran = .ok (some next, taken) →
          ReadsResults platform pipeline remaining (i + 1) next taken

/-- Where the loop returns, it has closed the pipes, exactly if every result can be read. -/
theorem executeModules_closes_iff {pipeline : Pipeline} {before : Finset ℕ} (remaining i : ℕ)
    (batch : ImageBatch) (s : ProcessState W) (hbeside : s.ends.Beside before)
    (hheld : .parent ∈ s.outputPipe.pipe.writeEnds) :
    (∀ outcome, executeModules platform pipeline remaining i batch s = .ok outcome →
      outcome.state.descriptors = before) ↔ ReadsResults platform pipeline remaining i batch s := by
  induction remaining generalizing i batch s with
  | zero =>
    refine iff_of_true (fun outcome h => ?_) trivial
    obtain rfl := Except.ok.inj h
    exact hbeside.closePipes
  | succ remaining ih =>
    rw [executeModules, ReadsResults]
    by_cases h : i < maxModules
    swap
    · exact iff_of_true (fun outcome hok => by simp [h] at hok) fun hroom => absurd hroom h
    rw [dif_pos h, forall_prop_of_true h]
    dsimp only
    cases hran : executeModuleInProcess platform
        ((s.atModule i).config.stageOf (pipeline.modules ⟨i, h⟩)) batch (s.atModule i) with
    | error stop => exact iff_of_true (by simp) (by simp)
    | ok result =>
      obtain ⟨status, ran⟩ := result
      have hkeeps := executeModuleInProcess_keepsEnds hran
      have hbeside' : ran.ends.Beside before := hkeeps.ends ▸ hbeside
      have hheld' := hkeeps.held hheld
      cases status with
      | failure =>
        refine iff_of_true (fun outcome hok => ?_) (by simp)
        obtain rfl := Except.ok.inj hok
        exact hbeside'.closePipes
      | success =>
        simp only [Except.ok.injEq, Prod.mk.injEq, true_and, forall_eq']
        -- the one return that closes nothing is behind a read that fails
        cases hfails : platform.readFails ran.world .output with
        | true =>
          rw [takeResult_of_readFails batch hfails]
          refine iff_of_false (fun hclosed => ?_) (fun hreads => ?_)
          · exact hbeside'.descriptors_ne (hclosed _ rfl)
          · exact Bool.noConfusion hreads.1
        | false =>
          rw [eq_self_iff_true, true_and]
          cases htaken : takeResult platform batch ran with
          | error stop => exact iff_of_true (by simp) (by simp)
          | ok taken =>
            obtain ⟨next, taken⟩ := taken
            cases next with
            | none => exact absurd htaken (takeResult_ne_none hfails hheld' taken)
            | some next =>
              have hkeeps' := takeResult_keepsEnds htaken
              have hrest := ih (i + 1) next taken (hkeeps'.ends ▸ hbeside') (hkeeps'.held hheld')
              simpa using hrest

/-- Both pipes are open with descriptors of their own, and the parent holds the write end. -/
theorem openPipes_true {s opened : ProcessState W} (h : openPipes platform s = (true, opened)) :
    opened.ends.Beside s.descriptors ∧ .parent ∈ opened.outputPipe.pipe.writeEnds ∧
      platform.errorPipeOpens s.world = true := by
  unfold openPipes at h
  split_ifs at h with houtput herror
  · obtain ⟨-, rfl⟩ := Prod.mk.inj h
    refine ⟨⟨rfl, ?_, ?_, ?_, ?_⟩, Finset.mem_singleton_self _, herror⟩
    · exact lowestFree_notMem _
    · exact lowestFree_notMem _
    · exact lowestFree_notMem _
    · exact lowestFree_notMem _
  · simp at h
  · simp at h

/-- Where a pipe cannot be created, the first one stays open behind the second. -/
theorem openPipes_false {s failed : ProcessState W} (h : openPipes platform s = (false, failed)) :
    failed.descriptors = s.descriptors ↔
      (platform.outputPipeOpens s.world = true → platform.errorPipeOpens s.world = true) := by
  unfold openPipes at h
  split_ifs at h with houtput herror
  · simp at h
  · obtain ⟨-, rfl⟩ := Prod.mk.inj h
    refine iff_of_false (fun hsame => ?_) (fun hopens => herror (hopens houtput))
    have hopen : lowestFree s.descriptors ∈ insert (PipeEnds.create s.descriptors).writeEnd
        (insert (PipeEnds.create s.descriptors).readEnd s.descriptors) :=
      Finset.mem_insert_of_mem (Finset.mem_insert_self _ _)
    dsimp only at hsame
    rw [hsame] at hopen
    exact lowestFree_notMem _ hopen
  · obtain ⟨-, rfl⟩ := Prod.mk.inj h
    exact iff_of_true rfl fun hopens => absurd hopens houtput

/-- A call of `execute_pipeline`, with the configuration it finds. -/
structure PipelineCall where
  config : ConfigState
  pipeline : Pipeline
  batch : ImageBatch

/-- The state that a call is made in. -/
def PipelineCall.enter (call : PipelineCall) (s : ProcessState W) : ProcessState W :=
  { s with config := call.config }

/-- The state that a call leaves. -/
def executeCall (platform : Platform W) (s : ProcessState W) (call : PipelineCall) :
    Except Stop (ProcessState W) :=
  (executePipeline platform call.pipeline call.batch (call.enter s)).map Outcome.state

/-- Where the call returns, the same descriptors are open as before it. -/
def GivesBack (platform : Platform W) (s : ProcessState W) (call : PipelineCall) : Prop :=
  ∀ next, executeCall platform s call = .ok next → next.descriptors = s.descriptors

/-- Behind the first pipe the second one can be created, and with both of them every read of a
result succeeds. -/
def Unbroken (platform : Platform W) (s : ProcessState W) (call : PipelineCall) : Prop :=
  (platform.outputPipeOpens s.world = true → platform.errorPipeOpens s.world = true) ∧
    ∀ opened, openPipes platform (call.enter s) = (true, opened) →
      ReadsResults platform call.pipeline call.pipeline.numModules 0 call.batch opened

/-- A call gives back its descriptors exactly if it is not broken off. -/
theorem givesBack_iff (s : ProcessState W) (call : PipelineCall) :
    GivesBack platform s call ↔ Unbroken platform s call := by
  have hcall : GivesBack platform s call ↔
      ∀ outcome, executePipeline platform call.pipeline call.batch (call.enter s) = .ok outcome →
        outcome.state.descriptors = s.descriptors := by
    unfold GivesBack executeCall
    cases executePipeline platform call.pipeline call.batch (call.enter s) with
    | error stop => exact iff_of_true (by simp [Except.map]) (by simp)
    | ok outcome =>
      constructor
      · rintro hnext other hother
        obtain rfl := Except.ok.inj hother
        exact hnext _ rfl
      · rintro houtcome next hnext
        obtain rfl := Except.ok.inj hnext
        exact houtcome _ rfl
  rw [hcall, Unbroken, executePipeline]
  cases hopen : openPipes platform (call.enter s) with
  | mk created state =>
    cases created with
    | false =>
      have hfailed := openPipes_false hopen
      refine Iff.trans ⟨fun hsame => hfailed.mp (hsame _ rfl), fun hsecond outcome hok => ?_⟩
        (and_iff_left (by simp)).symm
      obtain rfl := Except.ok.inj hok
      exact hfailed.mpr hsecond
    | true =>
      obtain ⟨hbeside, hheld, hsecond⟩ := openPipes_true hopen
      refine (executeModules_closes_iff _ 0 call.batch state hbeside hheld).trans
        ⟨fun hreads => ⟨fun _ => hsecond, ?_⟩, fun hunbroken => hunbroken.2 state rfl⟩
      intro opened hopened
      rw [← (Prod.mk.inj hopened).2]
      exact hreads

/-- In a run of any calls, every call gives back its descriptors if and only if none of them is
broken off. -/
theorem givesBack_along_iff (platform : Platform W) (calls : List PipelineCall)
    (s : ProcessState W) :
    Along (executeCall platform) (GivesBack platform) calls s ↔
      Along (executeCall platform) (Unbroken platform) calls s :=
  along_congr givesBack_iff calls s

/-- The platform on which everything succeeds but the creation of the second pipe. -/
def firstPipePlatform : Platform Unit :=
  { Platform.ofModules sampleBehave fun _ => [] with errorPipeOpens := fun _ => false }

/-- The first pipeline leaves the first pipe open where the second one cannot be created. -/
theorem givesBack_not_always :
    ¬ ∀ (platform : Platform Unit) (calls : List PipelineCall) (s : ProcessState Unit),
        Along (executeCall platform) (GivesBack platform) calls s := by
  intro h
  have hgives := (h firstPipePlatform
    [⟨sampleConfig, sampleConfig.pipelines 0, ⟨1, 1, 0, 7, 1, 0⟩⟩]
    (.boot sampleConfig () none)).1
  rw [givesBack_iff] at hgives
  exact absurd (hgives.1 rfl) (by decide)

end Dipp
