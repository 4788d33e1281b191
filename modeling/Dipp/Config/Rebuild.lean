import Dipp.Config.Slots
import Dipp.Library.Execution

/-!
# Rebuilds and runs, one table entry at a time

The setup loops visit every index once and each visit concerns its own entry only, so a
rebuild acts on the entries independently. A run of configuration operations therefore
acts on one pipeline entry as a sequence of setup calls, whose messages are determined by
the stored contents and the `is_setup` flag, and never by the tables.
-/

namespace Dipp

variable (libs : Libraries)

/-- The setup loop over distinct indices replaces exactly their entries. -/
theorem setupPipelines_sound (env : Fin maxPipelines → CallEnv) (ks : List (Fin maxPipelines))
    (hnodup : ks.Nodup) (c c' : ConfigState)
    (h : ks.foldlM (fun c k => setupPipeline libs (env k) k c) c = .ok c') :
    ∃ entry log, c' = { c with pipelines := entry, err := { c.err with logStatus := log } } ∧
      (∀ k ∈ ks, slotAfter libs (env k) k (pipelineMessage libs (env k) (c.pipelineParams k))
        (c.pipelines k) = .ok (entry k)) ∧
      ∀ k ∉ ks, entry k = c.pipelines k := by
  induction ks generalizing c with
  | nil =>
    obtain rfl : c = c' := Except.ok.inj h
    exact ⟨c.pipelines, c.err.logStatus, rfl, by simp, by simp⟩
  | cons k ks ih =>
    obtain ⟨hk, hks⟩ := List.nodup_cons.mp hnodup
    obtain ⟨firstLog, hfirst⟩ := setupPipeline_eq libs (env k) k c
    rw [List.foldlM_cons, hfirst] at h
    cases hslot : slotAfter libs (env k) k (pipelineMessage libs (env k) (c.pipelineParams k))
        (c.pipelines k) with
    | error stop => rw [hslot] at h; contradiction
    | ok first =>
      rw [hslot] at h
      obtain ⟨entry, log, hc', hentry, hframe⟩ := ih hks { c with
        pipelines := Function.update c.pipelines k first
        err := { c.err with logStatus := firstLog } } h
      dsimp only at hc' hentry hframe
      refine ⟨entry, log, hc', ?_, ?_⟩
      · intro k' hk'
        rcases List.mem_cons.mp hk' with rfl | hk'
        · rw [hslot, hframe k' hk, Function.update_self]
        · have hne : k' ≠ k := fun heq => hk (heq ▸ hk')
          have hlater := hentry k' hk'
          rwa [Function.update_of_ne hne] at hlater
      · intro k' hk'
        obtain ⟨hne, hk'⟩ := not_or.mp (mt List.mem_cons.mpr hk')
        rw [hframe k' hk', Function.update_of_ne hne]

/-- The setup loop succeeds if every one of its calls has room for its definition. -/
theorem setupPipelines_succeeds (env : Fin maxPipelines → CallEnv) (ks : List (Fin maxPipelines))
    (hnodup : ks.Nodup) (c : ConfigState)
    (hroom : ∀ k ∈ ks, ∀ pdef, pipelineMessage libs (env k) (c.pipelineParams k) = some pdef →
      pdef.modules.length ≤ maxModules) :
    ∃ c', ks.foldlM (fun c k => setupPipeline libs (env k) k c) c = .ok c' := by
  induction ks generalizing c with
  | nil => exact ⟨c, rfl⟩
  | cons k ks ih =>
    obtain ⟨firstLog, hfirst⟩ := setupPipeline_eq libs (env k) k c
    obtain ⟨first, hslot⟩ : ∃ first, slotAfter libs (env k) k
        (pipelineMessage libs (env k) (c.pipelineParams k)) (c.pipelines k) = .ok first := by
      cases hmessage : pipelineMessage libs (env k) (c.pipelineParams k) with
      | none => exact ⟨_, rfl⟩
      | some pdef =>
        exact ⟨_, by rw [slotAfter, if_pos (hroom k List.mem_cons_self pdef hmessage)]⟩
    rw [List.foldlM_cons, hfirst, hslot]
    exact ih (List.nodup_cons.mp hnodup).2 _ fun k' hk' => hroom k' (List.mem_cons_of_mem _ hk')

/-- Setting up every module configuration replaces each list on its own. -/
theorem setupAllModuleConfigs_eq (env : Fin maxModules → CallEnv) (c : ConfigState) :
    ∃ log, setupAllModuleConfigs libs env c = { c with
      moduleParameterLists := fun j =>
        listAfter (env j) (moduleMessage libs (env j) (c.moduleParams j)) (c.moduleParameterLists j)
      err := { c.err with logStatus := log } } := by
  have hloop (js : List (Fin maxModules)) (hnodup : js.Nodup) (c : ConfigState) :
      ∃ log, js.foldl (fun c j => setupModuleConfig libs (env j) j c) c = { c with
        moduleParameterLists := fun j =>
          if j ∈ js then listAfter (env j) (moduleMessage libs (env j) (c.moduleParams j))
            (c.moduleParameterLists j) else c.moduleParameterLists j
        err := { c.err with logStatus := log } } := by
    induction js generalizing c with
    | nil => exact ⟨c.err.logStatus, by simp⟩
    | cons j js ih =>
      obtain ⟨hj, hjs⟩ := List.nodup_cons.mp hnodup
      obtain ⟨firstLog, hfirst⟩ := setupModuleConfig_eq libs (env j) j c
      obtain ⟨log, hrest⟩ := ih hjs (setupModuleConfig libs (env j) j c)
      refine ⟨log, ?_⟩
      rw [List.foldl_cons, hrest, hfirst]
      congr 1
      funext j'
      by_cases heq : j' = j
      · subst heq
        simp [hj]
      · simp [heq]
  obtain ⟨log, h⟩ := hloop (List.finRange maxModules) (List.nodup_finRange _) c
  exact ⟨log, by rw [setupAllModuleConfigs, h]; simp⟩

/-- What a rebuild that succeeds leaves behind. -/
theorem setupCacheIfNeeded_sound (env : RebuildEnv) (c c' : ConfigState)
    (hsetup : c.isSetup = false) (h : setupCacheIfNeeded libs env c = .ok c') :
    ∃ entry log, c' = { c with
        pipelines := entry
        moduleParameterLists := fun j => listAfter (env.module j)
          (moduleMessage libs (env.module j) (c.moduleParams j)) (c.moduleParameterLists j)
        isSetup := true
        err := { c.err with logStatus := log } } ∧
      ∀ k, slotAfter libs (env.pipeline k) k
        (pipelineMessage libs (env.pipeline k) (c.pipelineParams k)) (c.pipelines k) =
          .ok (entry k) := by
  rw [setupCacheIfNeeded, hsetup] at h
  cases hpipelines : setupAllPipelines libs env.pipeline c with
  | error stop => rw [hpipelines] at h; contradiction
  | ok built =>
    rw [hpipelines] at h
    obtain ⟨entry, log, rfl, hentry, -⟩ := setupPipelines_sound libs env.pipeline
      (List.finRange maxPipelines) (List.nodup_finRange _) c built hpipelines
    obtain ⟨moduleLog, hmodules⟩ := setupAllModuleConfigs_eq libs env.module
      { c with pipelines := entry, err := { c.err with logStatus := log } }
    refine ⟨entry, moduleLog, ?_, fun k => hentry k (List.mem_finRange k)⟩
    have hc' := Except.ok.inj h
    rw [hmodules] at hc'
    exact hc'.symm

/-- A rebuild succeeds if there is room for every stored definition. -/
theorem setupCacheIfNeeded_succeeds (env : RebuildEnv) (c : ConfigState)
    (hroom : c.isSetup = false → ∀ k pdef,
      pipelineMessage libs (env.pipeline k) (c.pipelineParams k) = some pdef →
        pdef.modules.length ≤ maxModules) :
    ∃ c', setupCacheIfNeeded libs env c = .ok c' := by
  cases hsetup : c.isSetup with
  | true => exact ⟨c, by rw [setupCacheIfNeeded, hsetup]; rfl⟩
  | false =>
    obtain ⟨built, hbuilt⟩ := setupPipelines_succeeds libs env.pipeline
      (List.finRange maxPipelines) (List.nodup_finRange _) c fun k _ => hroom hsetup k
    exact ⟨_, by rw [setupCacheIfNeeded, hsetup, setupAllPipelines, hbuilt]; rfl⟩

/-- The setup calls that an operation makes on a pipeline: their environment and message. -/
def slotCalls (k : Fin maxPipelines) (params : Fin maxPipelines → ParamData) (isSetup : Bool) :
    ConfigOp → List (CallEnv × Option PipelineDefinition)
  | .setupPipeline k' env => if k' = k then [(env, pipelineMessage libs env (params k))] else []
  | .setupCacheIfNeeded env =>
    if isSetup then [] else [(env.pipeline k, pipelineMessage libs (env.pipeline k) (params k))]
  | _ => []

/-- The stored pipeline parameters after an operation. -/
def paramsAfter (params : Fin maxPipelines → ParamData) : ConfigOp → Fin maxPipelines → ParamData
  | .storePipeline k content => Function.update params k content
  | _ => params

/-- The stored module parameters after an operation. -/
def moduleParamsAfter (params : Fin maxModules → ParamData) : ConfigOp → Fin maxModules → ParamData
  | .storeModule j content => Function.update params j content
  | _ => params

/-- The `is_setup` flag after an operation. -/
def isSetupAfter (isSetup : Bool) : ConfigOp → Bool
  | .setupCacheIfNeeded _ => true
  | .invalidateCache => false
  | _ => isSetup

/-- The setup calls that a run makes on a pipeline, in order. -/
def runCalls (k : Fin maxPipelines) : List ConfigOp → (Fin maxPipelines → ParamData) → Bool →
    List (CallEnv × Option PipelineDefinition)
  | [], _, _ => []
  | op :: ops, params, isSetup =>
    slotCalls libs k params isSetup op ++
      runCalls k ops (paramsAfter params op) (isSetupAfter isSetup op)

/-- The calls of two runs in sequence; the second starts from the storage the first leaves. -/
theorem runCalls_append (k : Fin maxPipelines) (first rest : List ConfigOp)
    (params : Fin maxPipelines → ParamData) (isSetup : Bool) :
    runCalls libs k (first ++ rest) params isSetup =
      runCalls libs k first params isSetup ++
        runCalls libs k rest (first.foldl paramsAfter params)
          (first.foldl isSetupAfter isSetup) := by
  induction first generalizing params isSetup with
  | nil => rfl
  | cons op ops ih =>
    simp only [List.cons_append, runCalls, ih, List.append_assoc, List.foldl_cons]

/-- The definitions that a run decodes for a pipeline, in order. -/
def definitions (k : Fin maxPipelines) (ops : List ConfigOp)
    (params : Fin maxPipelines → ParamData) (isSetup : Bool) : List PipelineDefinition :=
  (runCalls libs k ops params isSetup).filterMap Prod.snd

/-- A call that delivered a definition is recorded. -/
theorem mem_definitions {k : Fin maxPipelines} {ops : List ConfigOp}
    {params : Fin maxPipelines → ParamData} {isSetup : Bool} {pdef : PipelineDefinition} :
    pdef ∈ definitions libs k ops params isSetup ↔
      ∃ call ∈ runCalls libs k ops params isSetup, call.2 = some pdef :=
  List.mem_filterMap

/-- Apply setup calls to a pipeline entry, one after the other. -/
def slotRun (k : Fin maxPipelines) (calls : List (CallEnv × Option PipelineDefinition))
    (old : Pipeline) : Except Stop Pipeline :=
  calls.foldlM (fun entry call => slotAfter libs call.1 k call.2 entry) old

/-- One operation, seen from the storage, the flag and each pipeline entry. -/
theorem configStep_sound (c c' : ConfigState) (op : ConfigOp)
    (h : configStep libs c op = .ok c') :
    c'.pipelineParams = paramsAfter c.pipelineParams op ∧
      c'.isSetup = isSetupAfter c.isSetup op ∧
      (c'.err.errCurrentPipeline = c.err.errCurrentPipeline ∧
        c'.err.errCurrentModule = c.err.errCurrentModule) ∧
      ∀ k, slotRun libs k (slotCalls libs k c.pipelineParams c.isSetup op) (c.pipelines k) =
        .ok (c'.pipelines k) := by
  cases op with
  | storePipeline k content =>
    obtain rfl := Except.ok.inj h
    exact ⟨rfl, rfl, ⟨rfl, rfl⟩, fun _ => rfl⟩
  | storeModule j content =>
    obtain rfl := Except.ok.inj h
    exact ⟨rfl, rfl, ⟨rfl, rfl⟩, fun _ => rfl⟩
  | setupPipeline k env =>
    obtain ⟨log, heq⟩ := setupPipeline_eq libs env k c
    rw [configStep, heq] at h
    cases hslot : slotAfter libs env k (pipelineMessage libs env (c.pipelineParams k))
        (c.pipelines k) with
    | error stop => rw [hslot] at h; contradiction
    | ok entry =>
      rw [hslot] at h
      obtain rfl := Except.ok.inj h
      refine ⟨rfl, rfl, ⟨rfl, rfl⟩, fun k' => ?_⟩
      by_cases hk : k = k'
      · subst hk
        simp [slotCalls, slotRun, hslot]
      · simp [slotCalls, slotRun, hk, Function.update_of_ne (Ne.symm hk), pure, Except.pure]
  | setupModuleConfig j env =>
    obtain ⟨log, heq⟩ := setupModuleConfig_eq libs env j c
    obtain rfl := Except.ok.inj h
    rw [heq]
    exact ⟨rfl, rfl, ⟨rfl, rfl⟩, fun _ => rfl⟩
  | setupCacheIfNeeded env =>
    cases hsetup : c.isSetup with
    | true =>
      rw [configStep, setupCacheIfNeeded, hsetup] at h
      obtain rfl := Except.ok.inj h
      exact ⟨rfl, hsetup, ⟨rfl, rfl⟩, fun _ => rfl⟩
    | false =>
      obtain ⟨entry, log, rfl, hentry⟩ := setupCacheIfNeeded_sound libs env c c' hsetup h
      refine ⟨rfl, rfl, ⟨rfl, rfl⟩, fun k => ?_⟩
      simp [slotCalls, slotRun, hentry]
  | invalidateCache =>
    obtain rfl := Except.ok.inj h
    exact ⟨rfl, rfl, ⟨rfl, rfl⟩, fun _ => rfl⟩

/-- An operation succeeds if each of its setup calls has room for its definition. -/
theorem configStep_succeeds (c : ConfigState) (op : ConfigOp)
    (hroom : ∀ k, ∀ call ∈ slotCalls libs k c.pipelineParams c.isSetup op, ∀ pdef,
      call.2 = some pdef → pdef.modules.length ≤ maxModules) :
    ∃ c', configStep libs c op = .ok c' := by
  cases op with
  | storePipeline k content => exact ⟨_, rfl⟩
  | storeModule j content => exact ⟨_, rfl⟩
  | setupPipeline k env =>
    obtain ⟨log, heq⟩ := setupPipeline_eq libs env k c
    rw [configStep, heq]
    cases hmessage : pipelineMessage libs env (c.pipelineParams k) with
    | none => exact ⟨_, rfl⟩
    | some pdef =>
      have hfits := hroom k (env, some pdef) (by simp [slotCalls, hmessage]) pdef rfl
      exact ⟨_, by rw [slotAfter, if_pos hfits]; rfl⟩
  | setupModuleConfig j env => exact ⟨_, rfl⟩
  | setupCacheIfNeeded env =>
    apply setupCacheIfNeeded_succeeds
    intro hsetup k pdef hmessage
    exact hroom k (env.pipeline k, some pdef) (by simp [slotCalls, hsetup, hmessage]) pdef rfl
  | invalidateCache => exact ⟨_, rfl⟩

/-- A run acts on each pipeline entry by its setup calls alone. -/
theorem run_sound (ops : List ConfigOp) (c c' : ConfigState)
    (h : Execution.run (configStep libs) ops c = .ok c') :
    c'.pipelineParams = ops.foldl paramsAfter c.pipelineParams ∧
      c'.isSetup = ops.foldl isSetupAfter c.isSetup ∧
      (c'.err.errCurrentPipeline = c.err.errCurrentPipeline ∧
        c'.err.errCurrentModule = c.err.errCurrentModule) ∧
      ∀ k, slotRun libs k (runCalls libs k ops c.pipelineParams c.isSetup) (c.pipelines k) =
        .ok (c'.pipelines k) := by
  induction ops generalizing c with
  | nil =>
    obtain rfl : c = c' := Except.ok.inj h
    exact ⟨rfl, rfl, ⟨rfl, rfl⟩, fun _ => rfl⟩
  | cons op ops ih =>
    obtain ⟨next, hnext, hrest⟩ := Execution.run_cons_eq_ok h
    obtain ⟨hparams, hflag, herr, hslots⟩ := configStep_sound libs c next op hnext
    obtain ⟨hparamsRest, hflagRest, herrRest, hslotsRest⟩ := ih next hrest
    rw [hparams] at hparamsRest
    rw [hflag] at hflagRest
    refine ⟨hparamsRest, hflagRest, ⟨herrRest.1.trans herr.1, herrRest.2.trans herr.2⟩,
      fun k => ?_⟩
    have hk := hslotsRest k
    rw [hparams, hflag] at hk
    rw [runCalls, slotRun, List.foldlM_append]
    change (slotRun libs k _ _).bind _ = _
    rw [hslots k]
    exact hk

/-- A run succeeds if there is room for each definition it decodes. -/
theorem run_succeeds (ops : List ConfigOp) (c : ConfigState)
    (hroom : ∀ k, ∀ pdef ∈ definitions libs k ops c.pipelineParams c.isSetup,
      pdef.modules.length ≤ maxModules) :
    ∃ c', Execution.run (configStep libs) ops c = .ok c' := by
  induction ops generalizing c with
  | nil => exact ⟨c, rfl⟩
  | cons op ops ih =>
    obtain ⟨next, hnext⟩ := configStep_succeeds libs c op fun k call hcall pdef hpdef =>
      hroom k pdef ((mem_definitions libs).mpr ⟨call, List.mem_append_left _ hcall, hpdef⟩)
    obtain ⟨hparams, hflag, -, -⟩ := configStep_sound libs c next op hnext
    rw [Execution.run_cons_ok ops hnext]
    apply ih
    intro k pdef hpdef
    obtain ⟨call, hcall, hpdef⟩ := (mem_definitions libs).mp hpdef
    rw [hparams, hflag] at hcall
    exact hroom k pdef
      ((mem_definitions libs).mpr ⟨call, List.mem_append_right _ hcall, hpdef⟩)

/-- The stored module parameters change by stores only. -/
theorem run_moduleParams (ops : List ConfigOp) (c c' : ConfigState)
    (h : Execution.run (configStep libs) ops c = .ok c') :
    c'.moduleParams = ops.foldl moduleParamsAfter c.moduleParams := by
  induction ops generalizing c with
  | nil => exact congrArg ConfigState.moduleParams (Except.ok.inj h).symm
  | cons op ops ih =>
    obtain ⟨next, hnext, hrest⟩ := Execution.run_cons_eq_ok h
    rw [ih next hrest, List.foldl_cons]
    congr 1
    cases op with
    | storePipeline k content => obtain rfl := Except.ok.inj hnext; rfl
    | storeModule j content => obtain rfl := Except.ok.inj hnext; rfl
    | setupPipeline k env =>
      obtain ⟨log, heq⟩ := setupPipeline_eq libs env k c
      rw [configStep, heq] at hnext
      cases hslot : slotAfter libs env k (pipelineMessage libs env (c.pipelineParams k))
          (c.pipelines k) with
      | error stop => rw [hslot] at hnext; contradiction
      | ok entry => rw [hslot] at hnext; exact (congrArg _ (Except.ok.inj hnext)).symm
    | setupModuleConfig j env =>
      obtain ⟨log, heq⟩ := setupModuleConfig_eq libs env j c
      rw [configStep, heq] at hnext
      exact (congrArg ConfigState.moduleParams (Except.ok.inj hnext)).symm
    | setupCacheIfNeeded env =>
      cases hsetup : c.isSetup with
      | true =>
        rw [configStep, setupCacheIfNeeded, hsetup] at hnext
        exact (congrArg ConfigState.moduleParams (Except.ok.inj hnext)).symm
      | false =>
        obtain ⟨entry, log, rfl, -⟩ := setupCacheIfNeeded_sound libs env c next hsetup hnext
        rfl
    | invalidateCache => obtain rfl := Except.ok.inj hnext; rfl

end Dipp
