import Dipp.Process.Fold

/-!
# What a success says about the module

The parent decodes the status variable whether or not `fork` created a child and `waitpid`
wrote the variable. Otherwise the variable holds whatever was there before, and if that looks
like an exit with status zero, the call returns a success without any module. A status other
than zero sends the parent to the error pipe, where it waits for itself if there is nothing
to read.
-/

namespace Dipp

open LittleEndian

variable {W : Type*} (platform : Platform W) (stage : Stage) (input : ImageBatch)

/-- The status variable after `waitpid`: the status of the child if there is one and its status was
delivered, and undefined otherwise. -/
def Platform.statusWord (w : W) : WaitStatus :=
  let forked := platform.fork w
  let ran := observe platform w stage input
  if forked.1 then
    if platform.waitpidDelivers ran.2 then ran.1.waitStatus else platform.uninitializedStatus ran.2
  else platform.uninitializedStatus forked.2

/-- The parent sees what is in the status variable. -/
theorem forkAndWait_fst (s : ProcessState W) :
    (forkAndWait platform stage input s).1 = platform.statusWord stage input s.world := by
  unfold forkAndWait Platform.statusWord
  by_cases hforked : (platform.fork s.world).1 = true
  · simp only [if_pos hforked]
    change (if platform.waitpidDelivers (observe platform s.world stage input).2
      then ((observe platform s.world stage input).1.waitStatus, _)
      else (platform.uninitializedStatus (observe platform s.world stage input).2, _)).1 = _
    split_ifs <;> rfl
  · simp only [if_neg hforked]

/-- Neither the configuration nor the errors change. -/
theorem forkAndWait_config (s : ProcessState W) :
    (forkAndWait platform stage input s).2.config = s.config := by
  unfold forkAndWait
  dsimp only
  split_ifs <;> rfl

/-- A child was created by the call, executed the module function, and ended with status zero. -/
structure RanToSuccess (w : W) : Prop where
  created : (platform.fork w).1 = true
  executed : stage.function.isSome = true
  status : (observe platform w stage input).1.waitStatus = .exited 0

/-- The call returns: with a success only if the module ran to success, with a failure only if it
has set `log_status` to an error. -/
def TellsSuccess (s : ProcessState W) : Prop :=
  ∃ status s', executeModuleInProcess platform stage input s = .ok (status, s') ∧
    (status = .success → RanToSuccess platform stage input s.world) ∧
    (status = .failure → ∃ code, 100 ≤ code ∧ s'.config.err = setErrorParam code s.config.err)

/-- What the status variable holds can be trusted: without a child it does not look like status
zero; nor does it without a delivered status, unless the child ended with that; and where it sends
the parent to the error pipe, a read there fails or has something to report. -/
structure Conclusive (s : ProcessState W) : Prop where
  created : (platform.fork s.world).1 = false →
    platform.uninitializedStatus (platform.fork s.world).2 ≠ .exited 0
  delivered : (platform.fork s.world).1 = true →
    platform.waitpidDelivers (observe platform s.world stage input).2 = false →
      platform.uninitializedStatus (observe platform s.world stage input).2 = .exited 0 →
        (observe platform s.world stage input).1.waitStatus = .exited 0
  answers : ∀ status ≠ 0, platform.statusWord stage input s.world = .exited status →
    platform.readFails (forkAndWait platform stage input s).2.world .error = true ∨
      (forkAndWait platform stage input s).2.errorPipe.pipe.Answers

variable {platform stage input} {s : ProcessState W}

/-- What is reported for bytes of the error pipe is an error code. -/
theorem hundred_le_moduleErrorCode (data : List UInt8) : 100 ≤ moduleErrorCode data := by
  have hcustom : ErrorCode.moduleExitCustom.value.toNat = 700 := rfl
  have hhundred : (100 : UInt32).toNat = 100 := rfl
  unfold moduleErrorCode
  dsimp only
  split_ifs with hsmall
  · rw [UInt32.lt_iff_toNat_lt] at hsmall
    rw [UInt32.le_iff_toNat_le, UInt32.toNat_add]
    omega
  · exact UInt32.not_lt.mp hsmall

/-- The exit of a child is reported if the error pipe answers, or cannot be read. -/
theorem reportExit_isOk (h : platform.readFails s.world .error = true ∨
    s.errorPipe.pipe.Answers) : ∃ s' code, reportExit platform s = .ok s' ∧ 100 ≤ code ∧
      s'.config.err = setErrorParam code s.config.err := by
  unfold reportExit ProcessState.read
  by_cases hfails : platform.readFails s.world .error = true
  · simp only [if_pos hfails]
    exact ⟨_, _, rfl, by decide, rfl⟩
  · simp only [if_neg hfails]
    have hanswers := h.resolve_left hfails
    cases hread : (s.errorPipe.pipe.read 2).1 with
    | failed => exact ⟨_, _, rfl, by decide, rfl⟩
    | bytes data => exact ⟨_, _, rfl, hundred_le_moduleErrorCode data, rfl⟩
    | endOfFile => exact ⟨_, _, rfl, by decide, rfl⟩
    | blocks => exact absurd hanswers ((Posix.Pipe.read_eq_blocks_iff 2 _).mp hread)

/-- Otherwise the parent waits. -/
theorem reportExit_isError (hfails : platform.readFails s.world .error = false)
    (hanswers : ¬ s.errorPipe.pipe.Answers) :
    ∃ stop, reportExit platform s = .error stop := by
  have hread := (Posix.Pipe.read_eq_blocks_iff 2 _).mpr hanswers
  unfold reportExit ProcessState.read
  simp only [hfails, Bool.false_eq_true, if_false, hread]
  exact ⟨_, rfl⟩

/-- A status variable that looks like status zero makes a success. -/
theorem executeModuleInProcess_of_zero
    (hword : platform.statusWord stage input s.world = .exited 0) :
    executeModuleInProcess platform stage input s =
      .ok (.success, (forkAndWait platform stage input s).2) := by
  rw [← forkAndWait_fst platform stage input s] at hword
  simp only [executeModuleInProcess, hword, ne_eq, not_true_eq_false, if_false]

/-- If it looks like the end by a signal, the crash is reported. -/
theorem executeModuleInProcess_of_signaled
    (hword : platform.statusWord stage input s.world = .signaled) :
    ∃ s', executeModuleInProcess platform stage input s = .ok (.failure, s') ∧
      s'.config.err = setErrorParam ErrorCode.moduleExitCrash.value s.config.err := by
  rw [← forkAndWait_fst platform stage input s] at hword
  simp only [executeModuleInProcess, hword]
  refine ⟨_, rfl, ?_⟩
  rw [← forkAndWait_config platform stage input s]
  rfl

/-- If it looks like another exit, that is reported. -/
theorem executeModuleInProcess_of_nonzero {status : UInt8} (hstatus : status ≠ 0)
    (hword : platform.statusWord stage input s.world = .exited status) :
    executeModuleInProcess platform stage input s =
      match reportExit platform (forkAndWait platform stage input s).2 with
      | .error stop => .error stop
      | .ok reported => .ok (.failure, reported.invalidateCache) := by
  rw [← forkAndWait_fst platform stage input s] at hword
  unfold executeModuleInProcess
  dsimp only
  rw [hword]
  exact if_pos hstatus

/-- A null function does not end with status zero. -/
theorem function_isSome_of_zero {w : W}
    (h : (observe platform w stage input).1.waitStatus = .exited 0) :
    stage.function.isSome = true := by
  cases hfunction : stage.function with
  | some function => rfl
  | none =>
    simp only [observe, Platform.runStage, hfunction, ModuleRun.waitStatus] at h
    contradiction

/-- Where the status variable looks like status zero, the module ran to success if and only if that
can be trusted. -/
theorem ranToSuccess_iff_of_zero (hword : platform.statusWord stage input s.world = .exited 0) :
    RanToSuccess platform stage input s.world ↔ Conclusive platform stage input s := by
  constructor
  · intro hran
    refine ⟨fun hforked => ?_, fun _ _ _ => hran.status, fun status hstatus hother => ?_⟩
    · rw [hran.created] at hforked
      contradiction
    · rw [hword] at hother
      exact absurd (WaitStatus.exited.inj hother).symm hstatus
  · intro hconclusive
    unfold Platform.statusWord at hword
    by_cases hforked : (platform.fork s.world).1 = true
    · simp only [if_pos hforked] at hword
      have hstatus : (observe platform s.world stage input).1.waitStatus = .exited 0 := by
        by_cases hdelivers :
            platform.waitpidDelivers (observe platform s.world stage input).2 = true
        · rwa [if_pos hdelivers] at hword
        · rw [if_neg hdelivers] at hword
          exact hconclusive.delivered hforked (Bool.eq_false_of_not_eq_true hdelivers) hword
      exact ⟨hforked, function_isSome_of_zero hstatus, hstatus⟩
    · simp only [if_neg hforked] at hword
      exact absurd hword (hconclusive.created (Bool.eq_false_of_not_eq_true hforked))

/-- Where it looks like another status, that can be trusted if the error pipe answers. -/
theorem conclusive_iff_of_ne_zero
    (hword : platform.statusWord stage input s.world ≠ .exited 0) :
    Conclusive platform stage input s ↔
      ∀ status ≠ 0, platform.statusWord stage input s.world = .exited status →
        platform.readFails (forkAndWait platform stage input s).2.world .error = true ∨
          (forkAndWait platform stage input s).2.errorPipe.pipe.Answers := by
  constructor
  · exact fun h => h.answers
  · intro hanswers
    unfold Platform.statusWord at hword
    refine ⟨fun hforked => ?_, fun hforked hdelivers hzero => ?_, hanswers⟩
    · simpa only [hforked, Bool.false_eq_true, if_false] using hword
    · simp only [hforked, hdelivers, Bool.false_eq_true, if_false, if_true] at hword
      exact absurd hzero hword

/-- A call of a module tells about the module what it should, if and only if its status variable can
be trusted. -/
theorem tellsSuccess_iff (platform : Platform W) (stage : Stage) (input : ImageBatch)
    (s : ProcessState W) :
    TellsSuccess platform stage input s ↔ Conclusive platform stage input s := by
  by_cases hzero : platform.statusWord stage input s.world = .exited 0
  · rw [← ranToSuccess_iff_of_zero hzero, TellsSuccess, executeModuleInProcess_of_zero hzero]
    constructor
    · rintro ⟨status, s', hok, hsuccess, -⟩
      exact hsuccess (congrArg Prod.fst (Except.ok.inj hok)).symm
    · intro hran
      exact ⟨_, _, rfl, fun _ => hran, nofun⟩
  · rw [conclusive_iff_of_ne_zero hzero, TellsSuccess]
    cases hword : platform.statusWord stage input s.world with
    | signaled =>
      obtain ⟨s', hok, herr⟩ := executeModuleInProcess_of_signaled hword
      refine iff_of_true ⟨.failure, s', hok, nofun, fun _ => ⟨_, ?_, herr⟩⟩ fun _ _ h => nomatch h
      decide
    | exited status =>
      have hstatus : status ≠ 0 := fun h => hzero (h ▸ hword)
      rw [executeModuleInProcess_of_nonzero hstatus hword]
      constructor
      · rintro ⟨result, s', hok, -, -⟩ other hother -
        by_contra hsilent
        rw [not_or, Bool.not_eq_true] at hsilent
        obtain ⟨stop, hstop⟩ := reportExit_isError hsilent.1 hsilent.2
        rw [hstop] at hok
        contradiction
      · intro hanswers
        obtain ⟨s', code, hok, hcode, herr⟩ := reportExit_isOk (hanswers status hstatus rfl)
        rw [hok]
        refine ⟨.failure, _, rfl, nofun, fun _ => ⟨code, hcode, ?_⟩⟩
        rw [← forkAndWait_config platform stage input s]
        exact herr

/-- Without a child, a status variable that happens to be zero makes a success. -/
theorem not_always_tellsSuccess :
    ¬ ∀ (platform : Platform Unit) (stage : Stage) (input : ImageBatch) (s : ProcessState Unit),
        TellsSuccess platform stage input s := by
  intro h
  obtain ⟨status, s', hok, hsuccess, -⟩ := h
    { Platform.ofModules sampleBehave fun _ => [] with fork := fun _ => (false, ()) }
    ⟨some ⟨1⟩, none⟩ ⟨1, 1, 0, 7, 1, 0⟩ (.boot sampleConfig () none)
  have hstatus : Status.success = status := congrArg Prod.fst (Except.ok.inj hok)
  exact absurd (hsuccess hstatus.symm).created (by decide)

end Dipp
