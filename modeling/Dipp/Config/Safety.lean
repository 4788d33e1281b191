import Dipp.Config.Rebuild

/-!
# Which cached pipelines are safe to execute

Execution indexes the module array by `num_modules`, the parameter lists by
`module_param_id`, and calls `module_function`, all unchecked. The setup code checks
none of the three either. A cached pipeline is therefore exactly as safe as the last
definition decoded for it, and a run keeps every pipeline safe exactly if every
definition it decodes is safe.
-/

namespace Dipp

variable (libs : Libraries)

/-- Executing the pipeline stays inside both arrays and calls no null function. -/
def Pipeline.Safe (pipeline : Pipeline) : Prop :=
  pipeline.numModules ≤ maxModules ∧
    ∀ i : Fin maxModules, (i : ℕ) < pipeline.numModules →
      (pipeline.modules i).moduleFunction ≠ none ∧
        0 ≤ (pipeline.modules i).moduleParamId.toInt ∧
        (pipeline.modules i).moduleParamId.toInt < maxModules

/-- A definition fits the array, its modules can be loaded and its parameter ids exist. -/
def PipelineDefinition.Safe (pdef : PipelineDefinition) : Prop :=
  pdef.modules.length ≤ maxModules ∧
    ∀ mdef ∈ pdef.modules, moduleFunctionOf libs mdef.name ≠ none ∧
      1 ≤ mdef.paramId.toInt ∧ mdef.paramId.toInt ≤ maxModules

/-- The zero-initialised entry has nothing to execute. -/
theorem Pipeline.zero_safe : Pipeline.zero.Safe := by
  constructor
  · exact Nat.zero_le _
  · intro i hi
    exact absurd hi (Nat.not_lt_zero _)

/-- Subtracting one maps the ids `1..MAX_MODULES` to the indices of the parameter lists. -/
theorem paramId_sub_one_range (paramId : Int32) :
    (0 ≤ (paramId - 1).toInt ∧ (paramId - 1).toInt < maxModules) ↔
      1 ≤ paramId.toInt ∧ paramId.toInt ≤ maxModules := by
  have hlower := paramId.le_toInt
  have hupper := paramId.toInt_lt
  have hone : (1 : Int32).toInt = 1 := rfl
  have hmax : ((maxModules : ℕ) : ℤ) = 20 := rfl
  rw [Int32.toInt_sub, hone, Int.bmod_def]
  split <;> omega

/-- An installed pipeline is safe exactly if its definition is. -/
theorem installed_safe_iff (env : CallEnv) (k : Fin maxPipelines) (pdef : PipelineDefinition)
    (old : Pipeline) (hroom : pdef.modules.length ≤ maxModules) :
    (installed libs env k pdef old).Safe ↔ pdef.Safe libs := by
  constructor
  · rintro ⟨-, hsafe⟩
    refine ⟨hroom, fun mdef hmdef => ?_⟩
    obtain ⟨i, hi, rfl⟩ := List.getElem_of_mem hmdef
    have hentry := hsafe ⟨i, by omega⟩ hi
    rw [installed_modules libs env k pdef old ⟨i, by omega⟩ hi] at hentry
    exact ⟨hentry.1, (paramId_sub_one_range _).mp hentry.2⟩
  · rintro ⟨-, hsafe⟩
    refine ⟨hroom, fun i hi => ?_⟩
    rw [installed_modules libs env k pdef old i hi]
    obtain ⟨hfunction, hparam⟩ := hsafe _ (List.getElem_mem hi)
    exact ⟨hfunction, (paramId_sub_one_range _).mpr hparam⟩

/-- Safe definitions keep a pipeline entry safe. -/
theorem slotRun_safe (k : Fin maxPipelines) (calls : List (CallEnv × Option PipelineDefinition))
    (old entry : Pipeline) (hold : old.Safe)
    (hsafe : ∀ call ∈ calls, ∀ pdef, call.2 = some pdef → pdef.Safe libs)
    (h : slotRun libs k calls old = .ok entry) : entry.Safe := by
  induction calls generalizing old with
  | nil => exact Except.ok.inj h ▸ hold
  | cons call rest ih =>
    obtain ⟨next, hnext, hrest⟩ := Execution.run_cons_eq_ok h
    refine ih next ?_ (fun c hc => hsafe c (List.mem_cons_of_mem _ hc)) hrest
    cases hmessage : call.2 with
    | none =>
      rw [hmessage, slotAfter] at hnext
      exact Except.ok.inj hnext ▸ hold
    | some pdef =>
      have hpdef := hsafe call List.mem_cons_self pdef hmessage
      simp only [slotAfter, hmessage, if_pos hpdef.1] at hnext
      rw [← Except.ok.inj hnext]
      exact (installed_safe_iff libs _ k pdef old hpdef.1).mpr hpdef

/-- A run that decodes only safe definitions goes through and leaves every pipeline safe. -/
theorem run_safe (ops : List ConfigOp) (c : ConfigState) (hc : ∀ k, (c.pipelines k).Safe)
    (hsafe : ∀ k, ∀ pdef ∈ definitions libs k ops c.pipelineParams c.isSetup, pdef.Safe libs) :
    ∃ c', Execution.run (configStep libs) ops c = .ok c' ∧ ∀ k, (c'.pipelines k).Safe := by
  obtain ⟨c', hrun⟩ := run_succeeds libs ops c fun k pdef hpdef => (hsafe k pdef hpdef).1
  obtain ⟨-, -, -, hslots⟩ := run_sound libs ops c c' hrun
  refine ⟨c', hrun, fun k => slotRun_safe libs k _ _ _ (hc k) ?_ (hslots k)⟩
  intro call hcall pdef hpdef
  exact hsafe k pdef ((mem_definitions libs).mpr ⟨call, hcall, hpdef⟩)

/-- The definition that the last operation of a run decodes for a pipeline is its entry. -/
theorem lastCall_safe (op : ConfigOp) (c c' : ConfigState) (k : Fin maxPipelines)
    (hstep : configStep libs c op = .ok c') (hsafe : (c'.pipelines k).Safe)
    (call : CallEnv × Option PipelineDefinition)
    (hcall : call ∈ slotCalls libs k c.pipelineParams c.isSetup op) (pdef : PipelineDefinition)
    (hpdef : call.2 = some pdef) : pdef.Safe libs := by
  obtain ⟨-, -, -, hslots⟩ := configStep_sound libs c c' op hstep
  have hsingle : slotCalls libs k c.pipelineParams c.isSetup op = [call] := by
    cases op <;> simp only [slotCalls, List.not_mem_nil] at hcall ⊢
    all_goals split at hcall <;> simp_all
  have hslot := hslots k
  rw [hsingle, slotRun, List.foldlM_cons, hpdef, slotAfter] at hslot
  by_cases hroom : pdef.modules.length ≤ maxModules
  · rw [if_pos hroom] at hslot
    rw [← Except.ok.inj hslot] at hsafe
    exact (installed_safe_iff libs _ k pdef _ hroom).mp hsafe
  · rw [if_neg hroom] at hslot
    contradiction

/-- Every state that a run from process start goes through has only safe cached pipelines
exactly if every definition the run decodes is safe. -/
theorem cachedPipelines_safe_iff (pipelineParams : Fin maxPipelines → ParamData)
    (moduleParams : Fin maxModules → ParamData) (logStatus : UInt32) (ops : List ConfigOp) :
    (∀ executed, executed <+: ops → ∃ c, Execution.run (configStep libs) executed
        (.boot pipelineParams moduleParams logStatus) = .ok c ∧ ∀ k, (c.pipelines k).Safe) ↔
      ∀ k, ∀ pdef ∈ definitions libs k ops pipelineParams false, pdef.Safe libs := by
  constructor
  · intro h
    induction ops using List.reverseRecOn with
    | nil => simp [definitions, runCalls]
    | append_singleton ops op ih =>
      have hearlier := ih fun executed hexecuted =>
        h executed (hexecuted.trans (List.prefix_append _ _))
      obtain ⟨c, hc, -⟩ := h ops (List.prefix_append _ _)
      obtain ⟨c', hc', hsafe⟩ := h (ops ++ [op]) List.prefix_rfl
      have hstep := Execution.run_concat_eq_ok hc hc'
      obtain ⟨hparams, hflag, -, -⟩ := run_sound libs ops _ c hc
      intro k pdef hpdef
      obtain ⟨call, hcall, hcallDef⟩ := (mem_definitions libs).mp hpdef
      rw [runCalls_append, List.mem_append] at hcall
      rcases hcall with hcall | hcall
      · exact hearlier k pdef ((mem_definitions libs).mpr ⟨call, hcall, hcallDef⟩)
      · refine lastCall_safe libs op c c' k hstep (hsafe k) call ?_ pdef hcallDef
        rw [hparams, hflag]
        simpa [runCalls, ConfigState.boot] using hcall
  · rintro hsafe executed ⟨rest, rfl⟩
    apply run_safe
    · exact fun _ => Pipeline.zero_safe
    · intro k pdef hpdef
      obtain ⟨call, hcall, hcallDef⟩ := (mem_definitions libs).mp hpdef
      refine hsafe k pdef ((mem_definitions libs).mpr ⟨call, ?_, hcallDef⟩)
      rw [runCalls_append]
      exact List.mem_append_left _ hcall

/-- The Brotli stream of up to 512 bytes in one uncompressed block. -/
def storedStream (payload : List UInt8) : List UInt8 :=
  let n := payload.length - 1
  [UInt8.ofNat (0x0b + 0x80 * (n % 2)), UInt8.ofNat (n / 2), 0x80] ++ payload ++ [0x03]

/-- The parameter content that carries a stream: its length, the stream, and padding. -/
def ParamData.ofStream (stream : List UInt8) : ParamData where
  bytes :=
    (UInt8.ofNat stream.length :: stream ++ List.replicate dataParamSize 0).take dataParamSize
  length_eq := by
    rw [List.length_take, List.length_append, List.length_cons, List.length_replicate]
    omega

/-- The decoder is given exactly the stream that a content carries, whatever lies behind it. -/
theorem brotliInput_ofStream (env : CallEnv) (stream : List UInt8)
    (hlength : stream.length < dataParamSize) :
    brotliInput env (.ofStream stream) = stream := by
  have hsizeof : dataParamSize = 188 := rfl
  have hsize : (UInt8.ofNat stream.length).toNat = stream.length := by
    rw [UInt8.toNat_ofNat']
    omega
  have htake : ((stream ++ List.replicate dataParamSize 0).take (dataParamSize - 1)).take
      stream.length = stream := by
    rw [List.take_take, Nat.min_eq_left (by omega), List.take_left]
  have hroom : stream.length ≤
      ((stream ++ List.replicate dataParamSize 0).take (dataParamSize - 1)).length := by
    rw [List.length_take, List.length_append, List.length_replicate]
    omega
  simp only [brotliInput, ParamData.ofStream, List.cons_append]
  rw [List.take_cons (by omega), List.headD_cons, List.tail_cons, hsize,
    List.take_append_of_le_length hroom, htake]

/-- The libraries as far as one stored payload, one definition and the empty message go. -/
def sampleLibraries (payload : List UInt8) (pdef : PipelineDefinition) : Libraries where
  brotliDecoderDecompress := fun encoded _ =>
    if encoded = storedStream payload then some payload else none
  pipelineDefinitionUnpack := fun data =>
    if data = payload then some pdef else if data = [] then some ⟨[]⟩ else none
  moduleConfigUnpack := fun data => if data = [] then some ⟨[]⟩ else none
  metadataUnpack := fun data => if data = [] then some ⟨0, 0⟩ else none
  dlopen := fun _ => some 1
  dlsym := fun _ _ => some ⟨0x1000⟩

/-- The packed definition of one module named `a`, without its parameter id. -/
def packedWithoutParamId : List UInt8 := [0x0a, 0x03, 0x12, 0x01, 0x61]

/-- The packed definition of one module named `a` with parameter id 1. -/
def packedDefinition : List UInt8 := [0x0a, 0x05, 0x12, 0x01, 0x61, 0x18, 0x01]

/-- The libraries as far as this definition goes. -/
def definitionLibraries : Libraries := sampleLibraries packedDefinition ⟨[⟨[0x61], 1⟩]⟩

/-- A definition that omits a parameter id is cached with the index `-1`. -/
theorem cachedPipelines_not_always_safe :
    ¬ ∀ (libs : Libraries) (pipelineParams : Fin maxPipelines → ParamData)
        (moduleParams : Fin maxModules → ParamData) (logStatus : UInt32) (ops : List ConfigOp),
        ∃ c, Execution.run (configStep libs) ops (.boot pipelineParams moduleParams logStatus) =
          .ok c ∧ ∀ k, (c.pipelines k).Safe := by
  intro h
  obtain ⟨c, hrun, hsafe⟩ := h (sampleLibraries packedWithoutParamId ⟨[⟨[0x61], 0⟩]⟩)
    (fun _ => .zero) (fun _ => .zero) 0
    [.storePipeline 0 (.ofStream (storedStream packedWithoutParamId)), .setupPipeline 0 .ample]
  have hentry : (Execution.run (configStep
      (sampleLibraries packedWithoutParamId ⟨[⟨[0x61], 0⟩]⟩))
      [.storePipeline 0 (.ofStream (storedStream packedWithoutParamId)), .setupPipeline 0 .ample]
      (.boot (fun _ => .zero) (fun _ => .zero) 0)).map (fun c =>
        ((c.pipelines 0).numModules, ((c.pipelines 0).modules 0).moduleParamId)) =
      .ok (1, -1) := rfl
  rw [hrun] at hentry
  obtain ⟨hcount, hparam⟩ := Prod.mk.inj (Except.ok.inj hentry)
  have hindex := ((hsafe 0).2 0 (by rw [hcount]; decide)).2.1
  rw [hparam] at hindex
  exact absurd hindex (by decide)

end Dipp
