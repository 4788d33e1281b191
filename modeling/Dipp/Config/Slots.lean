import Dipp.Config.Setup

/-!
# The effect of a setup call on its table entry

A setup call reads one stored parameter and changes one table entry, apart from the
error parameter. These lemmas compute the new entry from the decoded message and the
old entry, so that later proofs need not follow the loops again.
-/

namespace Dipp

variable (libs : Libraries) (env : CallEnv)

/-- The bytes that reach the unpacking functions: none at all unless decoding succeeded. -/
def paramContents (param : ParamData) : List UInt8 :=
  if isBufferEmpty param.bytes then []
  else
    match libs.brotliDecoderDecompress (brotliInput env param) dataParamSize with
    | none => []
    | some decoded => if env.alloc.decoded then decoded else []

/-- The definition that a pipeline parameter is unpacked to, if it is unpacked at all. -/
def pipelineMessage (param : ParamData) : Option PipelineDefinition :=
  libs.pipelineDefinitionUnpack (paramContents libs env param)

/-- The configuration that a module parameter is unpacked to, if it is unpacked at all. -/
def moduleMessage (param : ParamData) : Option ModuleConfig :=
  libs.moduleConfigUnpack (paramContents libs env param)

/-- The function found for a module name. -/
def moduleFunctionOf (moduleName : CString) : Option ModuleFunction :=
  (libs.dlopen (moduleFilename moduleName)).bind fun handle =>
    libs.dlsym handle "run".toUTF8.data.toList

/-- The table entry made for the module at an index of a definition. -/
def moduleEntry (idx : ℕ) (mdef : ModuleDefinition) : Module :=
  ⟨strdup (env.alloc.copy idx) mdef.name, moduleFunctionOf libs mdef.name, mdef.paramId - 1⟩

/-- The module array after entries for the definitions were written from an index on. -/
def overlay (idx : ℕ) (mdefs : List ModuleDefinition) (modules : Fin maxModules → Module) :
    Fin maxModules → Module :=
  fun i => ((if idx ≤ (i : ℕ) then mdefs[(i : ℕ) - idx]? else none).map
    (moduleEntry libs env i)).getD (modules i)

/-- The pipeline entry after a definition was copied over an old entry. -/
def installed (k : Fin maxPipelines) (pdef : PipelineDefinition) (old : Pipeline) : Pipeline where
  pipelineId := Int32.ofNat (k + 1)
  numModules := pdef.modules.length
  modules := overlay libs env 0 pdef.modules old.modules

/-- The pipeline entry after a setup call that got this message. -/
def slotAfter (k : Fin maxPipelines) (message : Option PipelineDefinition) (old : Pipeline) :
    Except Stop Pipeline :=
  match message with
  | none => .ok old
  | some pdef =>
    if pdef.modules.length ≤ maxModules then .ok (installed libs env k pdef old)
    else .error .outOfBounds

/-- The list entry after a setup call that got this message. -/
def listAfter (message : Option ModuleConfig) (old : ModuleParameterList) : ModuleParameterList :=
  match message with
  | none => old
  | some mcon =>
    ⟨mcon.parameters.length,
      if env.alloc.parameters then
        ((copyParameters env.alloc 0 mcon.parameters).map .array).getD .freed
      else .null⟩

/-- The pointer and size describe exactly the decoded contents. -/
theorem getParamBuffer_contents (param : ParamData) (err : ErrorState) :
    (getParamBuffer libs env param err).1.contents = paramContents libs env param := by
  unfold getParamBuffer paramContents
  split
  · rfl
  · cases libs.brotliDecoderDecompress (brotliInput env param) dataParamSize with
    | none => rfl
    | some decoded => cases env.alloc.decoded <;> simp [ParamBuffer.contents]

/-- Decoding touches nothing of the error state but `log_status`. -/
theorem getParamBuffer_err (param : ParamData) (err : ErrorState) :
    ∃ log, (getParamBuffer libs env param err).2 = { err with logStatus := log } := by
  unfold getParamBuffer
  split
  · exact ⟨_, rfl⟩
  · cases libs.brotliDecoderDecompress (brotliInput env param) dataParamSize with
    | none => exact ⟨_, rfl⟩
    | some decoded => cases env.alloc.decoded <;> exact ⟨_, rfl⟩

/-- Loading a module yields its function and touches only `log_status`. -/
theorem loadModule_eq (moduleName : CString) (err : ErrorState) :
    ∃ log, loadModule libs moduleName err =
      (moduleFunctionOf libs moduleName, { err with logStatus := log }) := by
  unfold loadModule moduleFunctionOf
  cases libs.dlopen (moduleFilename moduleName) with
  | none => exact ⟨_, rfl⟩
  | some handle =>
    cases h : libs.dlsym handle "run".toUTF8.data.toList with
    | none => exact ⟨_, by simp only [Option.bind_some, h]; rfl⟩
    | some function => exact ⟨_, by simp only [Option.bind_some, h]; rfl⟩

/-- No definition changes no entry. -/
theorem overlay_nil (idx : ℕ) (modules : Fin maxModules → Module) :
    overlay libs env idx [] modules = modules := by
  funext i
  simp [overlay]

/-- Writing the entry at an index and then the later ones is writing them all. -/
theorem overlay_cons (idx : ℕ) (hidx : idx < maxModules) (mdef : ModuleDefinition)
    (rest : List ModuleDefinition) (modules : Fin maxModules → Module) :
    overlay libs env (idx + 1) rest
        (Function.update modules ⟨idx, hidx⟩ (moduleEntry libs env idx mdef)) =
      overlay libs env idx (mdef :: rest) modules := by
  funext i
  unfold overlay
  rcases Nat.lt_trichotomy i idx with hlt | heq | hgt
  · have hne : i ≠ ⟨idx, hidx⟩ := fun h => hlt.ne (congrArg Fin.val h)
    rw [if_neg (by omega), if_neg (by omega), Function.update_of_ne hne]
  · obtain rfl : i = ⟨idx, hidx⟩ := Fin.ext heq
    rw [if_neg (by simp), if_pos le_rfl, Function.update_self]
    simp
  · have hne : i ≠ ⟨idx, hidx⟩ := fun h => hgt.ne (congrArg Fin.val h).symm
    have hsub : (i : ℕ) - idx = (i - (idx + 1)) + 1 := by omega
    rw [if_pos (by omega), if_pos (by omega), hsub, List.getElem?_cons_succ,
      Function.update_of_ne hne]

/-- An entry in use after a definition was installed comes from that definition. -/
theorem installed_modules (k : Fin maxPipelines) (pdef : PipelineDefinition) (old : Pipeline)
    (i : Fin maxModules) (hi : (i : ℕ) < pdef.modules.length) :
    (installed libs env k pdef old).modules i = moduleEntry libs env i pdef.modules[(i : ℕ)] := by
  simp [installed, overlay, hi]

/-- The entries in use after a definition was installed are those of the definition, in order. -/
theorem installed_live (k : Fin maxPipelines) (pdef : PipelineDefinition) (old : Pipeline)
    (hroom : pdef.modules.length ≤ maxModules) :
    (installed libs env k pdef old).live = pdef.modules.mapIdx (moduleEntry libs env) := by
  apply List.ext_getElem
  · simpa [Pipeline.live, installed] using hroom
  · intro i hleft hright
    have hi : i < pdef.modules.length := by simpa using hright
    rw [List.getElem_mapIdx]
    simp only [Pipeline.live, List.getElem_map, List.getElem_take, List.getElem_finRange]
    exact installed_modules libs env k pdef old _ (by simpa using hi)

/-- The module loop fills the entries from its index on, as long as there is room. -/
theorem setupModules_eq (mdefs : List ModuleDefinition) (idx : ℕ) (pipeline : Pipeline)
    (err : ErrorState) (hroom : idx + mdefs.length ≤ maxModules) :
    ∃ log, setupModules libs env idx mdefs pipeline err =
      .ok ({ pipeline with modules := overlay libs env idx mdefs pipeline.modules },
        { err with logStatus := log }) := by
  induction mdefs generalizing idx pipeline err with
  | nil => exact ⟨err.logStatus, by rw [overlay_nil, setupModules]⟩
  | cons mdef rest ih =>
    rw [List.length_cons] at hroom
    have hidx : idx < maxModules := by omega
    obtain ⟨loadLog, hload⟩ := loadModule_eq libs mdef.name err
    obtain ⟨log, hrest⟩ := ih (idx + 1)
      { pipeline with
        modules := Function.update pipeline.modules ⟨idx, hidx⟩ (moduleEntry libs env idx mdef) }
      { err with logStatus := loadLog } (by omega)
    refine ⟨log, ?_⟩
    rw [overlay_cons] at hrest
    simp only [setupModules, hload, Pipeline.setModule, dif_pos hidx]
    exact hrest

/-- A definition with too many modules makes the loop leave the array. -/
theorem setupModules_outOfBounds (mdefs : List ModuleDefinition) (idx : ℕ) (pipeline : Pipeline)
    (err : ErrorState) (hidx : idx ≤ maxModules) (hroom : maxModules < idx + mdefs.length) :
    setupModules libs env idx mdefs pipeline err = .error .outOfBounds := by
  induction mdefs generalizing idx pipeline err with
  | nil => rw [List.length_nil] at hroom; omega
  | cons mdef rest ih =>
    rw [List.length_cons] at hroom
    by_cases hfull : idx < maxModules
    · simp only [setupModules, Pipeline.setModule, dif_pos hfull]
      exact ih _ _ _ (by omega) (by omega)
    · simp only [setupModules, Pipeline.setModule, dif_neg hfull]

/-- A pipeline setup replaces one entry as `slotAfter` says, and nothing else but `log_status`. -/
theorem setupPipeline_eq (k : Fin maxPipelines) (c : ConfigState) :
    ∃ log, setupPipeline libs env k c =
      (slotAfter libs env k (pipelineMessage libs env (c.pipelineParams k)) (c.pipelines k)).map
        fun entry => { c with
          pipelines := Function.update c.pipelines k entry
          err := { c.err with logStatus := log } } := by
  obtain ⟨bufferLog, hbuffer⟩ := getParamBuffer_err libs env (c.pipelineParams k) c.err
  unfold setupPipeline pipelineMessage slotAfter
  simp only [getParamBuffer_contents, hbuffer]
  cases libs.pipelineDefinitionUnpack (paramContents libs env (c.pipelineParams k)) with
  | none => exact ⟨bufferLog, by simp only [Except.map, Function.update_eq_self]⟩
  | some pdef =>
    by_cases hroom : pdef.modules.length ≤ maxModules
    · obtain ⟨log, hmodules⟩ := setupModules_eq libs env pdef.modules 0
        { c.pipelines k with
          pipelineId := Int32.ofNat (k + 1), numModules := pdef.modules.length }
        { c.err with logStatus := bufferLog } (by omega)
      dsimp only at hmodules
      refine ⟨log, ?_⟩
      simp only [hmodules, if_pos hroom, Except.map]
      rfl
    · refine ⟨0, ?_⟩
      simp only [setupModules_outOfBounds libs env pdef.modules 0 _ _ (by omega)
        (by omega : maxModules < 0 + pdef.modules.length), if_neg hroom, Except.map]

/-- A module setup replaces one list as `listAfter` says, and nothing else but `log_status`. -/
theorem setupModuleConfig_eq (j : Fin maxModules) (c : ConfigState) :
    ∃ log, setupModuleConfig libs env j c = { c with
      moduleParameterLists := Function.update c.moduleParameterLists j
        (listAfter env (moduleMessage libs env (c.moduleParams j)) (c.moduleParameterLists j))
      err := { c.err with logStatus := log } } := by
  obtain ⟨bufferLog, hbuffer⟩ := getParamBuffer_err libs env (c.moduleParams j) c.err
  unfold setupModuleConfig moduleMessage listAfter
  simp only [getParamBuffer_contents, hbuffer]
  cases libs.moduleConfigUnpack (paramContents libs env (c.moduleParams j)) with
  | none => exact ⟨bufferLog, by simp only [Function.update_eq_self]⟩
  | some mcon =>
    by_cases harray : env.alloc.parameters = true
    · simp only [harray, if_true]
      cases copyParameters env.alloc 0 mcon.parameters with
      | none => exact ⟨_, rfl⟩
      | some parameters => exact ⟨_, rfl⟩
    · simp only [harray]
      exact ⟨_, rfl⟩

end Dipp
