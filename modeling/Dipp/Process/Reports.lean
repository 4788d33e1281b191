import Dipp.Process.Contract
import Dipp.Process.Success
import Dipp.Process.Thread

/-!
# What the error parameter can say

Every error is stored in `log_status` with the pipeline and the module that the two globals
name at that moment. Which codes can be reported depends on how far a batch has come: outside of
a pipeline, between the lookup and the first module, or while a module runs. The globals are
zero again behind each batch, so the digits of `log_status` say at any later time what was
reported and where.
-/

namespace Dipp

variable {W : Type*}

/-- The globals stay, and at most errors with such codes have been reported. -/
structure Reported (codes : UInt32 → Prop) (err err' : ErrorState) : Prop where
  errCurrentPipeline : err'.errCurrentPipeline = err.errCurrentPipeline
  errCurrentModule : err'.errCurrentModule = err.errCurrentModule
  logStatus : err'.logStatus = err.logStatus ∨
    ∃ code, codes code ∧ err'.logStatus = getErrorAsUint32 code err

/-- Nothing has been reported. -/
theorem Reported.refl (codes : UInt32 → Prop) (err : ErrorState) : Reported codes err err :=
  ⟨rfl, rfl, .inl rfl⟩

/-- One error has been reported. -/
theorem Reported.of_code {codes : UInt32 → Prop} {code : UInt32} (h : codes code)
    (err : ErrorState) : Reported codes err (setErrorParam code err) :=
  ⟨rfl, rfl, .inr ⟨code, h, rfl⟩⟩

/-- Reports of the one kind followed by reports of the other are reports of both. -/
theorem Reported.trans {codes codes' : UInt32 → Prop} {err err' err'' : ErrorState}
    (h : Reported codes err err') (h' : Reported codes' err' err'') :
    Reported (fun code => codes code ∨ codes' code) err err'' := by
  refine ⟨h'.errCurrentPipeline.trans h.errCurrentPipeline,
    h'.errCurrentModule.trans h.errCurrentModule, ?_⟩
  rcases h'.logStatus with hkept | ⟨code, hcode, hlog⟩
  · rw [hkept]
    exact h.logStatus.imp_right fun ⟨code, hcode, hlog⟩ => ⟨code, .inl hcode, hlog⟩
  · refine .inr ⟨code, .inr hcode, ?_⟩
    rw [hlog, getErrorAsUint32, getErrorAsUint32, h.errCurrentPipeline, h.errCurrentModule]

/-- Reports of a kind are reports of a wider kind. -/
theorem Reported.mono {codes codes' : UInt32 → Prop} {err err' : ErrorState}
    (hcodes : ∀ code, codes code → codes' code) (h : Reported codes err err') :
    Reported codes' err err' :=
  ⟨h.errCurrentPipeline, h.errCurrentModule,
    h.logStatus.imp_right fun ⟨code, hcode, hlog⟩ => ⟨code, hcodes code hcode, hlog⟩⟩

/-- Reports of one kind in a row are reports of that kind. -/
theorem Reported.append {codes : UInt32 → Prop} {err err' err'' : ErrorState}
    (h : Reported codes err err') (h' : Reported codes err' err'') : Reported codes err err'' :=
  (h.trans h').mono fun _ hcode => hcode.elim id id

/-- The codes that are reported outside of a pipeline. -/
def outsideCodes : List ErrorCode :=
  [.memoryMalloc, .internalSoNotFound, .internalRunNotFound, .internalBrotliDecode,
    .msgqNotFound, .msgqEmpty, .internalPidNotFound, .shmAttach, .shmDetach, .shmRemove]

/-- A code from outside of a pipeline. -/
def OutsideCode (code : UInt32) : Prop := ∃ error ∈ outsideCodes, code = error.value

/-- A code that is reported while a module is the current one: it has at least three digits and
fits sixteen bits. -/
def ModuleCode (code : UInt32) : Prop := 100 ≤ code.toNat ∧ code.toNat < 2 ^ 16

/-- Whether a code is one can be decided. -/
instance (code : UInt32) : Decidable (ModuleCode code) := inferInstanceAs (Decidable (_ ∧ _))

section Config

variable (libs : Libraries)

/-- Decoding a parameter reports errors from outside of a pipeline. -/
theorem getParamBuffer_reported (env : CallEnv) (param : ParamData) (err : ErrorState) :
    Reported OutsideCode err (getParamBuffer libs env param err).2 := by
  unfold getParamBuffer
  split
  · exact .refl _ _
  · cases libs.brotliDecoderDecompress (brotliInput env param) dataParamSize with
    | none => exact .of_code ⟨.internalBrotliDecode, by decide, rfl⟩ err
    | some decoded =>
      dsimp only
      split
      · exact .refl _ _
      · exact .of_code ⟨.memoryMalloc, by decide, rfl⟩ err

/-- So does loading a module. -/
theorem loadModule_reported (moduleName : CString) (err : ErrorState) :
    Reported OutsideCode err (loadModule libs moduleName err).2 := by
  unfold loadModule
  cases libs.dlopen (moduleFilename moduleName) with
  | none => exact .of_code ⟨.internalSoNotFound, by decide, rfl⟩ err
  | some handle =>
    dsimp only
    cases libs.dlsym handle "run".toUTF8.data.toList with
    | none => exact .of_code ⟨.internalRunNotFound, by decide, rfl⟩ err
    | some function => exact .refl _ _

/-- So does the loop over the modules of a definition. -/
theorem setupModules_reported (env : CallEnv) (mdefs : List ModuleDefinition) (idx : ℕ)
    (pipeline written : Pipeline) (err err' : ErrorState)
    (h : setupModules libs env idx mdefs pipeline err = .ok (written, err')) :
    Reported OutsideCode err err' := by
  induction mdefs generalizing idx pipeline err with
  | nil =>
    obtain ⟨-, rfl⟩ := Prod.mk.inj (Except.ok.inj h)
    exact .refl _ _
  | cons mdef rest ih =>
    rw [setupModules] at h
    split at h
    · contradiction
    · exact (loadModule_reported libs mdef.name err).append (ih _ _ _ h)

/-- So does a pipeline callback. -/
theorem setupPipeline_reported {env : CallEnv} {k : Fin maxPipelines} {c c' : ConfigState}
    (h : setupPipeline libs env k c = .ok c') : Reported OutsideCode c.err c'.err := by
  have hgot := getParamBuffer_reported libs env (c.pipelineParams k) c.err
  unfold setupPipeline at h
  generalize getParamBuffer libs env (c.pipelineParams k) c.err = got at hgot h
  dsimp only at h
  split at h
  · rw [← Except.ok.inj h]
    exact hgot
  · split at h
    · contradiction
    · rename_i hmodules
      rw [← Except.ok.inj h]
      exact hgot.append (setupModules_reported libs env _ _ _ _ _ _ hmodules)

/-- So does a module callback. -/
theorem setupModuleConfig_reported (env : CallEnv) (j : Fin maxModules) (c : ConfigState) :
    Reported OutsideCode c.err (setupModuleConfig libs env j c).err := by
  have hgot := getParamBuffer_reported libs env (c.moduleParams j) c.err
  have hmalloc : OutsideCode ErrorCode.memoryMalloc.value := ⟨.memoryMalloc, by decide, rfl⟩
  unfold setupModuleConfig
  generalize getParamBuffer libs env (c.moduleParams j) c.err = got at hgot
  dsimp only
  split
  · exact hgot
  · split
    · split
      · exact hgot
      · exact hgot.append (.of_code hmalloc _)
    · exact hgot.append (.of_code hmalloc _)

/-- So does a rebuild, which makes these calls one after the other. -/
theorem setupCacheIfNeeded_reported {env : RebuildEnv} {c c' : ConfigState}
    (h : setupCacheIfNeeded libs env c = .ok c') : Reported OutsideCode c.err c'.err := by
  unfold setupCacheIfNeeded at h
  split at h
  · rw [← Except.ok.inj h]
    exact .refl _ _
  · cases hbuilt : setupAllPipelines libs env.pipeline c with
    | error stop => rw [hbuilt] at h; contradiction
    | ok built =>
      rw [hbuilt] at h
      obtain rfl := Except.ok.inj h
      have hpipelines : Reported OutsideCode c.err built.err :=
        Execution.run_invariant (fun state => Reported OutsideCode c.err state.err)
          (fun _ _ _ hstate hnext => hstate.append (setupPipeline_reported libs hnext))
          (List.finRange maxPipelines) c built (.refl _ _) hbuilt
      have hmodules (js : List (Fin maxModules)) (state : ConfigState)
          (hstate : Reported OutsideCode c.err state.err) : Reported OutsideCode c.err
            (js.foldl (fun c j => setupModuleConfig libs (env.module j) j c) state).err := by
        induction js generalizing state with
        | nil => exact hstate
        | cons j rest ih =>
          exact ih _ (hstate.append (setupModuleConfig_reported libs (env.module j) j state))
      exact hmodules _ built hpipelines

/-- So does any operation on the configuration. -/
theorem configStep_reported {c c' : ConfigState} {op : ConfigOp}
    (h : configStep libs c op = .ok c') : Reported OutsideCode c.err c'.err := by
  cases op with
  | storePipeline k content => rw [← Except.ok.inj h]; exact .refl _ _
  | storeModule j content => rw [← Except.ok.inj h]; exact .refl _ _
  | setupPipeline k env => exact setupPipeline_reported libs h
  | setupModuleConfig j env =>
    rw [← Except.ok.inj h]
    exact setupModuleConfig_reported libs env j c
  | setupCacheIfNeeded env => exact setupCacheIfNeeded_reported libs h
  | invalidateCache => rw [← Except.ok.inj h]; exact .refl _ _

end Config

section Process

variable (platform : Platform W)

/-- Reading a pipe reports nothing. -/
theorem ProcessState.read_config (name : PipeName) (count : ℕ) (s : ProcessState W) :
    (s.read platform name count).2.config = s.config := by
  unfold read
  split
  · rfl
  · cases name <;> rfl

/-- At most as many bytes are read as were asked for. -/
theorem ProcessState.read_length (name : PipeName) {count : ℕ} (s : ProcessState W)
    {data : List UInt8} (h : (s.read platform name count).1 = .bytes data) :
    data.length ≤ count := by
  have hpipe (pipe : Posix.Pipe Holder) (hbytes : (pipe.read count).1 = .bytes data) :
      data.length ≤ count := by
    unfold Posix.Pipe.read at hbytes
    split at hbytes
    · rw [← Posix.ReadResult.bytes.inj hbytes]
      exact List.length_take_le _ _
    · split at hbytes <;> contradiction
  unfold read at h
  split at h
  · contradiction
  · cases name with
    | output => exact hpipe _ h
    | error => exact hpipe _ h

/-- Opening the pipes reports nothing. -/
theorem openPipes_config (s : ProcessState W) : (openPipes platform s).2.config = s.config := by
  unfold openPipes
  split
  · dsimp only
    split <;> rfl
  · rfl

variable {platform}

/-- Two bytes of an error pipe are reported as a code of three to five digits. -/
theorem moduleErrorCode_moduleCode {data : List UInt8} (h : data.length ≤ 2) :
    ModuleCode (moduleErrorCode data) := by
  have hlt : LittleEndian.decode data < 2 ^ 16 :=
    (LittleEndian.decode_lt data).trans_le
      (Nat.pow_le_pow_right (by decide : 0 < 256) h)
  have hnat : (UInt32.ofNat (LittleEndian.decode data)).toNat = LittleEndian.decode data :=
    UInt32.toNat_ofNat_of_lt' (hlt.trans (by decide))
  unfold moduleErrorCode ModuleCode
  dsimp only
  split
  · rename_i hsmall
    rw [UInt32.lt_iff_toNat_lt, hnat] at hsmall
    have hhundred : (100 : UInt32).toNat = 100 := rfl
    have hcustom : ErrorCode.moduleExitCustom.value.toNat = 700 := rfl
    rw [UInt32.toNat_add, hcustom, hnat]
    omega
  · rename_i hlarge
    rw [UInt32.lt_iff_toNat_lt, hnat] at hlarge
    have hhundred : (100 : UInt32).toNat = 100 := rfl
    rw [hnat]
    omega

/-- The exit of a module is reported with a code of a module. -/
theorem reportExit_reported {s s' : ProcessState W} (h : reportExit platform s = .ok s') :
    Reported ModuleCode s.config.err s'.config.err := by
  have hconfig := ProcessState.read_config platform .error 2 s
  unfold reportExit at h
  cases hread : s.read platform .error 2 with
  | mk result after =>
    rw [hread] at h hconfig
    dsimp only at h hconfig
    rw [← hconfig]
    cases result with
    | blocks => contradiction
    | failed => rw [← Except.ok.inj h]; exact .of_code (by decide) _
    | endOfFile => rw [← Except.ok.inj h]; exact .of_code (by decide) _
    | bytes data =>
      rw [← Except.ok.inj h]
      have hdata : data.length ≤ 2 :=
        ProcessState.read_length platform .error s (by rw [hread])
      exact .of_code (moduleErrorCode_moduleCode hdata) _

/-- So is every failure of a module. -/
theorem executeModuleInProcess_reported {stage : Stage} {input : ImageBatch}
    {s s' : ProcessState W} {status : Status}
    (h : executeModuleInProcess platform stage input s = .ok (status, s')) :
    Reported ModuleCode s.config.err s'.config.err := by
  have hconfig := forkAndWait_config platform stage input s
  unfold executeModuleInProcess at h
  generalize forkAndWait platform stage input s = waited at hconfig h
  obtain ⟨waitStatus, after⟩ := waited
  dsimp only at h hconfig
  rw [← hconfig]
  cases waitStatus with
  | exited exitStatus =>
    dsimp only at h
    split at h
    · cases hreport : reportExit platform after with
      | error stop => rw [hreport] at h; contradiction
      | ok reported =>
        rw [hreport] at h
        obtain ⟨-, rfl⟩ := Prod.mk.inj (Except.ok.inj h)
        have hreported := reportExit_reported hreport
        exact hreported
    · obtain ⟨-, rfl⟩ := Prod.mk.inj (Except.ok.inj h)
      exact .refl _ _
  | signaled =>
    obtain ⟨-, rfl⟩ := Prod.mk.inj (Except.ok.inj h)
    exact .of_code (by decide) _

/-- So is a result that cannot be taken. -/
theorem takeResult_reported {batch : ImageBatch} {s s' : ProcessState W}
    {next : Option ImageBatch} (h : takeResult platform batch s = .ok (next, s')) :
    Reported ModuleCode s.config.err s'.config.err := by
  have hconfig := ProcessState.read_config platform .output sizeofImageBatch s
  unfold takeResult at h
  generalize s.read platform .output sizeofImageBatch = got at hconfig h
  obtain ⟨result, after⟩ := got
  dsimp only at h hconfig
  rw [← hconfig]
  cases result with
  | blocks => contradiction
  | failed => obtain ⟨-, rfl⟩ := Prod.mk.inj (Except.ok.inj h); exact .of_code (by decide) _
  | endOfFile => obtain ⟨-, rfl⟩ := Prod.mk.inj (Except.ok.inj h); exact .of_code (by decide) _
  | bytes data => obtain ⟨-, rfl⟩ := Prod.mk.inj (Except.ok.inj h); exact .refl _ _

/-- The pipeline stays the current one, and at most the failure of one of its modules has been
reported. -/
structure ModuleReported (err err' : ErrorState) : Prop where
  errCurrentPipeline : err'.errCurrentPipeline = err.errCurrentPipeline
  logStatus : err'.logStatus = err.logStatus ∨ ∃ i < maxModules, ∃ code, ModuleCode code ∧
    err'.logStatus = getErrorAsUint32 code (err.atModule i)

/-- What is reported of a module is reported of a module of the pipeline. -/
theorem Reported.of_atModule {i : ℕ} (hi : i < maxModules) {err err' : ErrorState}
    (h : Reported ModuleCode (err.atModule i) err') : ModuleReported err err' :=
  ⟨h.errCurrentPipeline,
    h.logStatus.imp_right fun ⟨code, hcode, hlog⟩ => ⟨i, hi, code, hcode, hlog⟩⟩

/-- Modules in a row are modules of the pipeline. -/
theorem ModuleReported.trans {err err' err'' : ErrorState} (h : ModuleReported err err')
    (h' : ModuleReported err' err'') : ModuleReported err err'' := by
  refine ⟨h'.errCurrentPipeline.trans h.errCurrentPipeline, ?_⟩
  rcases h'.logStatus with hkept | ⟨i, hi, code, hcode, hlog⟩
  · rw [hkept]
    exact h.logStatus
  · refine .inr ⟨i, hi, code, hcode, ?_⟩
    rw [hlog, getErrorAsUint32, getErrorAsUint32, ErrorState.atModule, ErrorState.atModule,
      h.errCurrentPipeline]

/-- The loop over the modules reports at most the failure of one of them. -/
theorem executeModules_reported (pipeline : Pipeline) (remaining i : ℕ) (batch : ImageBatch)
    (s : ProcessState W) (outcome : Outcome W)
    (h : executeModules platform pipeline remaining i batch s = .ok outcome) :
    ModuleReported s.config.err outcome.state.config.err := by
  induction remaining generalizing i batch s with
  | zero =>
    rw [← Except.ok.inj h]
    exact ⟨rfl, .inl rfl⟩
  | succ remaining ih =>
    rw [executeModules] at h
    split at h
    · rename_i hi
      dsimp only at h
      cases hexecute : executeModuleInProcess platform
          ((s.atModule i).config.stageOf (pipeline.modules ⟨i, hi⟩)) batch (s.atModule i) with
      | error stop => rw [hexecute] at h; contradiction
      | ok executed =>
        obtain ⟨status, ran⟩ := executed
        have hran : Reported ModuleCode (s.config.err.atModule i) ran.config.err :=
          executeModuleInProcess_reported hexecute
        rw [hexecute] at h
        cases status with
        | failure =>
          rw [← Except.ok.inj h]
          exact hran.of_atModule hi
        | success =>
          dsimp only at h
          cases htake : takeResult platform batch ran with
          | error stop => rw [htake] at h; contradiction
          | ok got =>
            obtain ⟨next, taken⟩ := got
            have htaken := (hran.append (takeResult_reported htake)).of_atModule hi
            rw [htake] at h
            cases next with
            | none => rw [← Except.ok.inj h]; exact htaken
            | some next => exact htaken.trans (ih (i + 1) next taken h)
    · contradiction

/-- The execution of a pipeline reports at most that there are no pipes, or the failure of a module
of a pipeline that has modules. -/
theorem executePipeline_reported {pipeline : Pipeline} {batch : ImageBatch} {s : ProcessState W}
    {outcome : Outcome W} (h : executePipeline platform pipeline batch s = .ok outcome) :
    outcome.state.config.err.logStatus = s.config.err.logStatus ∨
      outcome.state.config.err.logStatus =
        getErrorAsUint32 ErrorCode.pipeCreate.value s.config.err ∨
      pipeline.numModules ≠ 0 ∧ ∃ i < maxModules, ∃ code, ModuleCode code ∧
        outcome.state.config.err.logStatus = getErrorAsUint32 code (s.config.err.atModule i) := by
  have hconfig := openPipes_config platform s
  unfold executePipeline at h
  generalize openPipes platform s = opened at hconfig h
  obtain ⟨opens, after⟩ := opened
  dsimp only at hconfig
  rw [← hconfig]
  cases opens with
  | false =>
    rw [← Except.ok.inj h]
    exact .inr (.inl rfl)
  | true =>
    dsimp only at h
    by_cases hmodules : pipeline.numModules = 0
    · rw [hmodules] at h
      rw [← Except.ok.inj h]
      exact .inl rfl
    · have hran := executeModules_reported _ _ _ _ _ _ h
      exact hran.logStatus.imp_right fun hfailed => .inr ⟨hmodules, hfailed⟩

end Process

/-- What is reported, and where: a pipeline or a module of zero is none. -/
structure Report where
  code : ℕ
  pipeline : ℕ
  module : ℕ
  deriving DecidableEq, Repr

/-- The number that stands for a report. -/
def Report.value (report : Report) : ℕ :=
  report.code * 1000 + report.pipeline * 100 + report.module

/-- The reports there are: an error outside of a pipeline, a pipeline whose pipes could not be
created, or a module of a pipeline that failed. -/
inductive Report.Possible : Report → Prop where
  | outside (error : ErrorCode) (herror : error ∈ outsideCodes) :
      Report.Possible ⟨error.value.toNat, 0, 0⟩
  | noPipes (pipeline : ℕ) (hpipeline : pipeline ≤ maxPipelines) :
      Report.Possible ⟨ErrorCode.pipeCreate.value.toNat, pipeline, 0⟩
  | moduleFailed (code pipeline module : ℕ) (hcode : 100 ≤ code ∧ code < 2 ^ 16)
      (hpipeline : 1 ≤ pipeline ∧ pipeline ≤ maxPipelines)
      (hmodule : 1 ≤ module ∧ module ≤ maxModules) :
      Report.Possible ⟨code, pipeline, module⟩

/-- A possible report leaves room for its digits. -/
theorem Report.Possible.digits {report : Report} (h : report.Possible) :
    report.pipeline < 10 ∧ report.module < 100 := by
  cases h with
  | outside error herror => exact ⟨Nat.zero_lt_succ _, Nat.zero_lt_succ _⟩
  | noPipes pipeline hpipeline => exact ⟨hpipeline.trans_lt (by decide), Nat.zero_lt_succ _⟩
  | moduleFailed code pipeline module hcode hpipeline hmodule =>
    exact ⟨hpipeline.2.trans_lt (by decide), hmodule.2.trans_lt (by decide)⟩

/-- So the number tells which report it stands for. -/
theorem Report.Possible.eq_of_value {report other : Report} (h : report.Possible)
    (hother : other.Possible) (hvalue : report.value = other.value) : report = other := by
  have hdigits := h.digits
  have hothers := hother.digits
  obtain ⟨code, pipeline, module⟩ := report
  obtain ⟨code', pipeline', module'⟩ := other
  simp only [value, mk.injEq] at *
  omega

/-- The parameter shows what was in it first, or a possible report. -/
def Shows (first logStatus : UInt32) : Prop :=
  logStatus = first ∨ ∃ report : Report, report.Possible ∧ logStatus.toNat = report.value

/-- Outside of a pipeline the globals are zero, and the parameter shows a possible report. -/
structure ErrorState.Legible (first : UInt32) (err : ErrorState) : Prop where
  errCurrentPipeline : err.errCurrentPipeline = 0
  errCurrentModule : err.errCurrentModule = 0
  shows : Shows first err.logStatus

/-- Errors from outside of a pipeline are possible reports. -/
theorem ErrorState.Legible.reported {first : UInt32} {err err' : ErrorState} (h : err.Legible first)
    (hreported : Reported OutsideCode err err') : err'.Legible first := by
  refine ⟨hreported.errCurrentPipeline.trans h.errCurrentPipeline,
    hreported.errCurrentModule.trans h.errCurrentModule, ?_⟩
  rcases hreported.logStatus with hkept | ⟨code, ⟨error, herror, rfl⟩, hlog⟩
  · rw [hkept]
    exact h.shows
  · refine .inr ⟨_, .outside error herror, ?_⟩
    have hsmall : error.value.toNat < 2 ^ 16 := by cases error <;> decide
    rw [hlog, getErrorAsUint32_toNat _ _ hsmall, h.errCurrentPipeline, h.errCurrentModule]
    rfl

variable (platform : Platform W) (libs : Libraries)

/-- The number that is composed while a module is the current one. -/
theorem getErrorAsUint32_atModule {code : UInt32} {i : ℕ} (hcode : ModuleCode code)
    (hi : i < maxModules) (err : ErrorState) :
    (getErrorAsUint32 code (err.atModule i)).toNat =
      Report.value ⟨code.toNat, err.errCurrentPipeline.toNat, i + 1⟩ := by
  have hmodule : (UInt8.ofNat (i + 1)).toNat = i + 1 :=
    UInt8.toNat_ofNat_of_lt' ((Nat.succ_le_of_lt hi).trans_lt (by decide))
  rw [getErrorAsUint32_toNat code _ hcode.2, ErrorState.atModule, hmodule]
  rfl

/-- The execution of a pipeline makes possible reports. -/
theorem loadPipelineAndExecute_shows {first : UInt32} {batch : ImageBatch} {s : ProcessState W}
    {outcome : Outcome W} (h : loadPipelineAndExecute platform batch s = .ok outcome)
    (hnumbered : s.config.Numbered) (hs : s.config.err.Legible first) :
    Shows first outcome.state.config.err.logStatus := by
  unfold loadPipelineAndExecute at h
  split at h
  · rw [← Except.ok.inj h]
    exact (hs.reported (.of_code ⟨.internalPidNotFound, by decide, rfl⟩ _)).shows
  · rename_i k hfound
    obtain ⟨hle, hpos⟩ := hnumbered.pipelineId k
    rcases executePipeline_reported h with hkept | hpipes | ⟨hmodules, i, hi, code, hcode, hlog⟩
    · rw [hkept]
      exact hs.shows
    · refine .inr ⟨_, .noPipes _ hle, ?_⟩
      have hcurrent : (s.inPipeline (s.config.pipelines k).pipelineId).config.err.errCurrentModule =
          0 := hs.errCurrentModule
      rw [hpipes, getErrorAsUint32_toNat _ _ (by decide), hcurrent]
      rfl
    · refine .inr ⟨_, .moduleFailed code.toNat _ (i + 1) hcode ⟨hpos hmodules, hle⟩
        ⟨Nat.succ_pos i, hi⟩, ?_⟩
      rw [hlog, getErrorAsUint32_atModule hcode hi]
      rfl

/-- Removing a segment reports errors from outside of a pipeline. -/
theorem removeSegment_reported (shmid : Int32) (s : ProcessState W) :
    Reported OutsideCode s.config.err (removeSegment platform shmid s).config.err := by
  have hdetach : OutsideCode ErrorCode.shmDetach.value := ⟨.shmDetach, by decide, rfl⟩
  have hremove : OutsideCode ErrorCode.shmRemove.value := ⟨.shmRemove, by decide, rfl⟩
  unfold removeSegment
  split <;> dsimp only <;> split
  · exact .refl _ _
  · exact .of_code hremove _
  · exact .of_code hdetach _
  · exact (Reported.of_code hdetach _).append (.of_code hremove _)

/-- Processing a batch leaves the error state legible. -/
theorem process_legible {first : UInt32} {batch batch' : ImageBatch} {s s' : ProcessState W}
    (h : process platform libs batch s = .ok (batch', s')) (hnumbered : s.config.Numbered)
    (hs : s.config.err.Legible first) : s'.config.err.Legible first := by
  unfold process at h
  cases hload : loadPipelineAndExecute platform batch s with
  | error stop => rw [hload] at h; contradiction
  | ok outcome =>
    have hshows := loadPipelineAndExecute_shows platform hload hnumbered hs
    obtain ⟨status, out, executed⟩ := outcome
    rw [hload] at h
    dsimp only at h hshows
    have hreset : executed.outsidePipeline.config.err.Legible first := ⟨rfl, rfl, hshows⟩
    generalize platform.shmat executed.world out.shmid = attach at h
    obtain ⟨attachment, w⟩ := attach
    cases attachment with
    | null =>
      obtain ⟨-, rfl⟩ := Prod.mk.inj (Except.ok.inj h)
      exact hreset.reported (.of_code ⟨.shmAttach, by decide, rfl⟩ _)
    | _ =>
      cases status with
      | failure =>
        obtain ⟨-, rfl⟩ := Prod.mk.inj (Except.ok.inj h)
        exact hreset.reported (removeSegment_reported platform out.shmid
          { executed.outsidePipeline with world := w })
      | success =>
        dsimp only at h
        split at h
        · contradiction
        · rename_i uploaded huploaded
          obtain ⟨-, rfl⟩ := Prod.mk.inj (Except.ok.inj h)
          have hconfig : uploaded.config = executed.outsidePipeline.config := by
            unfold uploadToRing at huploaded
            split at huploaded
            · contradiction
            · rw [← Except.ok.inj huploaded]
          rw [← hconfig] at hreset
          exact hreset.reported (removeSegment_reported platform out.shmid uploaded)

/-- Receiving reports errors from outside of a pipeline. -/
theorem getMessageFromQueue_reported {doWait : Bool} {datarcv : ImageBatch} {s : ProcessState W}
    {outcome : Outcome W} (h : getMessageFromQueue doWait datarcv s = .ok outcome) :
    Reported OutsideCode s.config.err outcome.state.config.err := by
  unfold getMessageFromQueue at h
  split at h
  · rw [← Except.ok.inj h]
    exact .of_code ⟨.msgqNotFound, by decide, rfl⟩ _
  · split at h
    · split at h
      · contradiction
      · rw [← Except.ok.inj h]
        exact .of_code ⟨.msgqEmpty, by decide, rfl⟩ _
    · split at h
      · rw [← Except.ok.inj h]
        exact .refl _ _
      · rw [← Except.ok.inj h]
        exact .of_code ⟨.msgqEmpty, by decide, rfl⟩ _

/-- Between calls the entries have their numbers, and the error state is legible. -/
structure ProcessState.Readable (first : UInt32) (s : ProcessState W) : Prop where
  numbered : s.config.Numbered
  legible : s.config.err.Legible first

variable {platform} {libs} {first : UInt32} {s s' : ProcessState W}

/-- An operation on the configuration keeps this. -/
theorem ProcessState.Readable.configStep (op : ConfigOp) {c : ConfigState}
    (hs : s.Readable first) (h : configStep libs s.config op = .ok c) :
    ({ s with config := c } : ProcessState W).Readable first :=
  ⟨configStep_numbered libs h hs.numbered, hs.legible.reported (configStep_reported libs h)⟩

/-- So does setting up the cache. -/
theorem ProcessState.Readable.setupCache (hs : s.Readable first)
    (h : setupCache platform libs s = .ok s') : s'.Readable first := by
  unfold Dipp.setupCache at h
  cases hsetup : setupCacheIfNeeded libs (platform.rebuildEnv s.world) s.config with
  | error stop => rw [hsetup] at h; contradiction
  | ok config =>
    rw [hsetup] at h
    rw [← Except.ok.inj h]
    exact hs.configStep (.setupCacheIfNeeded (platform.rebuildEnv s.world)) hsetup

/-- So does receiving a message. -/
theorem ProcessState.Readable.getMessageFromQueue {doWait : Bool} {datarcv : ImageBatch}
    {outcome : Outcome W} (hs : s.Readable first)
    (h : getMessageFromQueue doWait datarcv s = .ok outcome) : outcome.state.Readable first := by
  refine ⟨?_, hs.legible.reported (getMessageFromQueue_reported h)⟩
  have hpipelines := (getMessageFromQueue_tablesKept h).pipelines
  intro k
  rw [hpipelines]
  exact hs.numbered k

/-- So does processing a batch. -/
theorem ProcessState.Readable.process {batch batch' : ImageBatch} (hs : s.Readable first)
    (h : process platform libs batch s = .ok (batch', s')) : s'.Readable first := by
  refine ⟨?_, process_legible platform libs h hs.numbered hs.legible⟩
  have hpipelines := (process_tablesKept platform libs h).pipelines
  intro k
  rw [hpipelines]
  exact hs.numbered k

/-- So does a call that processes one message. -/
theorem ProcessState.Readable.processOne {doWait : Bool} {datarcv : ImageBatch}
    (hs : s.Readable first) (h : processOne platform libs doWait datarcv s = .ok s') :
    s'.Readable first := by
  unfold Dipp.processOne at h
  cases hsetup : Dipp.setupCache platform libs s with
  | error stop => rw [hsetup] at h; contradiction
  | ok ready =>
    rw [hsetup] at h
    dsimp only at h
    cases hreceive : Dipp.getMessageFromQueue doWait datarcv ready with
    | error stop => rw [hreceive] at h; contradiction
    | ok outcome =>
      have hreceived := (hs.setupCache hsetup).getMessageFromQueue hreceive
      obtain ⟨status, batch, received⟩ := outcome
      rw [hreceive] at h
      cases status with
      | failure => rwa [← Except.ok.inj h]
      | success =>
        dsimp only at h
        cases hprocess : Dipp.process platform libs batch received with
        | error stop => rw [hprocess] at h; contradiction
        | ok processed =>
          have hprocessed := hreceived.process hprocess
          rw [hprocess] at h
          rwa [← Except.ok.inj h]

/-- So does a call that processes messages until none is left. -/
theorem ProcessState.Readable.processAll {doWait : Bool} {fuel : ℕ} {datarcv batch : ImageBatch}
    (hs : s.Readable first) (h : processAll platform libs doWait fuel datarcv s = .ok (batch, s')) :
    s'.Readable first := by
  induction fuel generalizing datarcv s with
  | zero => contradiction
  | succ fuel ih =>
    rw [Dipp.processAll] at h
    cases hreceive : Dipp.getMessageFromQueue doWait datarcv s with
    | error stop => rw [hreceive] at h; contradiction
    | ok outcome =>
      have hreceived := hs.getMessageFromQueue hreceive
      obtain ⟨status, message, received⟩ := outcome
      rw [hreceive] at h
      cases status with
      | failure =>
        obtain ⟨-, rfl⟩ := Prod.mk.inj (Except.ok.inj h)
        exact hreceived
      | success =>
        dsimp only at h
        cases hsetup : Dipp.setupCache platform libs received with
        | error stop => rw [hsetup] at h; contradiction
        | ok ready =>
          rw [hsetup] at h
          dsimp only at h
          cases hprocess : Dipp.process platform libs message ready with
          | error stop => rw [hprocess] at h; contradiction
          | ok processed =>
            rw [hprocess] at h
            exact ih ((hreceived.setupCache hsetup).process hprocess) h

/-- Whatever happens next keeps this. -/
theorem ProcessState.Readable.threadStep (op : ThreadOp W) (hs : s.Readable first)
    (h : threadStep platform libs s op = .ok s') : s'.Readable first := by
  cases op with
  | config op =>
    cases hstep : Dipp.configStep libs s.config op with
    | error stop => rw [Dipp.threadStep, hstep] at h; contradiction
    | ok c =>
      rw [Dipp.threadStep, hstep] at h
      rw [← Except.ok.inj h]
      exact hs.configStep op hstep
  | elsewhere world queue =>
    rw [← Except.ok.inj h]
    exact ⟨hs.numbered, hs.legible⟩
  | processOne doWait datarcv => exact hs.processOne h
  | processAll doWait fuel datarcv =>
    cases hprocessed : Dipp.processAll platform libs doWait fuel datarcv s with
    | error stop => rw [Dipp.threadStep, hprocessed] at h; contradiction
    | ok processed =>
      rw [Dipp.threadStep, hprocessed] at h
      rw [← Except.ok.inj h]
      exact hs.processAll hprocessed
  | restart =>
    rw [← Except.ok.inj h]
    exact ⟨ConfigState.boot_numbered _ _ _, rfl, rfl, hs.legible.shows⟩

variable (platform libs)

/-- Whatever happens in the life of the processing thread, with any system calls failing and any
restarts: between two calls no pipeline and no module is the current one, and the error parameter
shows what it showed at first, or exactly one of the possible reports. -/
theorem logStatus_legible (ops : List (ThreadOp W)) (pipelineParams : Fin maxPipelines → ParamData)
    (moduleParams : Fin maxModules → ParamData) (first : UInt32) (world : W)
    (queue : Option (List Message)) (last : ProcessState W)
    (h : Execution.run (threadStep platform libs) ops
      (.boot (.boot pipelineParams moduleParams first) world queue) = .ok last) :
    last.config.err.errCurrentPipeline = 0 ∧ last.config.err.errCurrentModule = 0 ∧
      (last.config.err.logStatus = first ∨ ∃! report : Report, report.Possible ∧
        last.config.err.logStatus.toNat = report.value) := by
  have hboot : (ProcessState.boot (.boot pipelineParams moduleParams first) world queue).Readable
      first := ⟨ConfigState.boot_numbered _ _ _, rfl, rfl, .inl rfl⟩
  have hlast := Execution.run_invariant (ProcessState.Readable first)
    (fun _ op _ hstate hnext => hstate.threadStep op hnext) ops _ last hboot h
  refine ⟨hlast.legible.errCurrentPipeline, hlast.legible.errCurrentModule, ?_⟩
  refine hlast.legible.shows.imp_right fun ⟨report, hpossible, hvalue⟩ => ?_
  refine ⟨report, ⟨hpossible, hvalue⟩, ?_⟩
  rintro other ⟨hother, hsame⟩
  exact hother.eq_of_value hpossible (hsame.symm.trans hvalue)

set_option maxRecDepth 20000 in
/-- The crash of the first module of the first pipeline can still be read after a restart. -/
theorem logStatus_legible_crash :
    ∃ last, Execution.run (threadStep samplePlatform definitionLibraries)
        [.processOne false ⟨0, 0, 0, 0, 0, 0⟩, .restart] (sampleState [sampleMessage 1 8]) =
          .ok last ∧
      last.config.err.logStatus = 600101 ∧ ∃! report : Report, report.Possible ∧
        last.config.err.logStatus.toNat = report.value := by
  obtain ⟨-, -, hshows⟩ := logStatus_legible samplePlatform definitionLibraries
    [.processOne false ⟨0, 0, 0, 0, 0, 0⟩, .restart]
    (fun k => if k = 0 then .ofStream (storedStream packedDefinition) else .zero) (fun _ => .zero)
    0 () (some [sampleMessage 1 8]) _ rfl
  refine ⟨_, rfl, rfl, hshows.resolve_left ?_⟩
  decide

end Dipp
