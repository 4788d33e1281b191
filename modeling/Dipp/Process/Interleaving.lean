import Dipp.Config.Safety
import Dipp.Process.Run

/-!
# Two threads on one pipeline entry

`execute_pipeline` holds a pointer into the table and reads the length and the entries
anew in every iteration, with a whole child process between two reads. The router thread
runs `setup_pipeline`, which updates the same entry one field after the other, and
neither thread takes a lock. Here every access is a step of its own, so that a run is one
interleaving of the two threads. What the loop would execute if it were left alone is its
plan: a run executes a single definition as long as no assignment changes the plan.
-/

namespace Dipp

variable (libs : Libraries)

/-- What is executed for an entry: its function, and the index of its parameter list. -/
abbrev ModuleCall := Option ModuleFunction × Int32

/-- The call that an entry stands for. -/
def Module.call (entry : Module) : ModuleCall := (entry.moduleFunction, entry.moduleParamId)

/-- The calls of the entries in use. -/
def Pipeline.calls (pipeline : Pipeline) : List ModuleCall := pipeline.live.map Module.call

/-- The calls that a definition asks for. -/
def PipelineDefinition.calls (pdef : PipelineDefinition) : List ModuleCall :=
  pdef.modules.map fun mdef => (moduleFunctionOf libs mdef.name, mdef.paramId - 1)

/-- The stages of a pipeline are its calls, each with the parameter list it selects. -/
theorem Pipeline.stages_eq_calls (pipeline : Pipeline) (c : ConfigState) :
    pipeline.stages c = pipeline.calls.map fun call => ⟨call.1, c.parameterList call.2⟩ := by
  rw [stages, calls, List.map_map]
  rfl

/-- An installed pipeline makes the calls of its definition. -/
theorem installed_calls (env : CallEnv) (k : Fin maxPipelines) (pdef : PipelineDefinition)
    (old : Pipeline) (hroom : pdef.modules.length ≤ maxModules) :
    (installed libs env k pdef old).calls = pdef.calls libs := by
  rw [Pipeline.calls, installed_live libs env k pdef old hroom]
  apply List.ext_getElem
  · simp [PipelineDefinition.calls]
  · intro i hleft hright
    simp [PipelineDefinition.calls, Module.call, moduleEntry]

/-- A single assignment of `setup_pipeline`. -/
inductive Assignment where
  | pipelineId (value : Int32)
  | numModules (value : ℕ)
  | moduleName (idx : ℕ) (value : Option CString)
  | moduleFunction (idx : ℕ) (value : Option ModuleFunction)
  | moduleParamId (idx : ℕ) (value : Int32)

/-- Change one module entry; there is none behind the last. -/
def Pipeline.updateModule (pipeline : Pipeline) (idx : ℕ) (change : Module → Module) :
    Except Stop Pipeline :=
  if h : idx < maxModules then
    .ok { pipeline with
      modules := Function.update pipeline.modules ⟨idx, h⟩ (change (pipeline.modules ⟨idx, h⟩)) }
  else .error .outOfBounds

/-- Perform an assignment. -/
def Pipeline.assign (pipeline : Pipeline) : Assignment → Except Stop Pipeline
  | .pipelineId value => .ok { pipeline with pipelineId := value }
  | .numModules value => .ok { pipeline with numModules := value }
  | .moduleName idx value => pipeline.updateModule idx fun m => { m with moduleName := value }
  | .moduleFunction idx value =>
    pipeline.updateModule idx fun m => { m with moduleFunction := value }
  | .moduleParamId idx value => pipeline.updateModule idx fun m => { m with moduleParamId := value }

/-- The assignments for the modules of a definition, from an index on. -/
def moduleAssignments (env : CallEnv) : (idx : ℕ) → List ModuleDefinition → List Assignment
  | _, [] => []
  | idx, mdef :: rest =>
    .moduleName idx (strdup (env.alloc.copy idx) mdef.name) ::
      .moduleFunction idx (moduleFunctionOf libs mdef.name) ::
      .moduleParamId idx (mdef.paramId - 1) :: moduleAssignments env (idx + 1) rest

/-- The assignments of one `setup_pipeline` call, in source order. -/
def setupAssignments (env : CallEnv) (k : Fin maxPipelines) (pdef : PipelineDefinition) :
    List Assignment :=
  .pipelineId (Int32.ofNat (k + 1)) :: .numModules pdef.modules.length ::
    moduleAssignments libs env 0 pdef.modules

/-- Without interference, the assignments are the module loop of `setup_pipeline`. -/
theorem run_moduleAssignments (env : CallEnv) (mdefs : List ModuleDefinition) (idx : ℕ)
    (pipeline : Pipeline) (err : ErrorState) :
    Execution.run Pipeline.assign (moduleAssignments libs env idx mdefs) pipeline =
      (setupModules libs env idx mdefs pipeline err).map Prod.fst := by
  induction mdefs generalizing idx pipeline err with
  | nil => rfl
  | cons mdef rest ih =>
    obtain ⟨log, hload⟩ := loadModule_eq libs mdef.name err
    rw [moduleAssignments, setupModules, hload]
    by_cases hidx : idx < maxModules
    · simp only [Pipeline.setModule, dif_pos hidx]
      rw [← ih]
      simp only [Execution.run_cons, Pipeline.assign, Pipeline.updateModule, dif_pos hidx,
        Except.bind, Function.update_self, Function.update_idem]
    · simp only [Pipeline.setModule, dif_neg hidx]
      rw [Execution.run_cons]
      simp only [Pipeline.assign, Pipeline.updateModule, dif_neg hidx]
      rfl

/-- Without interference, a callback replaces the entry as a setup call does. -/
theorem run_setupAssignments (env : CallEnv) (k : Fin maxPipelines) (pdef : PipelineDefinition)
    (old : Pipeline) :
    Execution.run Pipeline.assign (setupAssignments libs env k pdef) old =
      slotAfter libs env k (some pdef) old := by
  rw [setupAssignments, Execution.run_cons_ok _ rfl, Execution.run_cons_ok _ rfl,
    run_moduleAssignments libs env _ _ _ (.boot 0), slotAfter]
  by_cases hroom : pdef.modules.length ≤ maxModules
  · obtain ⟨log, hmodules⟩ := setupModules_eq libs env pdef.modules 0
      { old with pipelineId := Int32.ofNat (k + 1), numModules := pdef.modules.length }
      (.boot 0) (by omega)
    rw [hmodules, if_pos hroom]
    rfl
  · rw [setupModules_outOfBounds libs env _ 0 _ _ (Nat.zero_le _) (by omega), if_neg hroom]
    rfl

/-- A callback that has made all its assignments leaves the calls of its definition. -/
theorem calls_of_setupAssignments {env : CallEnv} {k : Fin maxPipelines}
    {pdef : PipelineDefinition} {old slot : Pipeline}
    (h : Execution.run Pipeline.assign (setupAssignments libs env k pdef) old = .ok slot) :
    slot.calls = pdef.calls libs := by
  rw [run_setupAssignments, slotAfter] at h
  split at h
  · rename_i hroom
    obtain rfl := Except.ok.inj h
    exact installed_calls libs env k pdef old hroom
  · contradiction

/-- Where the module loop stands between two accesses to the entry. -/
inductive LoopPhase where
  | test (i : ℕ)
  | readFunction (i : ℕ)
  | readParamId (i : ℕ) (function : Option ModuleFunction)
  | execute (i : ℕ) (call : ModuleCall)
  | finished (failed : Bool)
  deriving DecidableEq

/-- The shared entry, the assignments the router thread has still to make, the definitions stored
so far, and the loop with the calls it has made. -/
structure SharedRun where
  slot : Pipeline
  updates : List Assignment
  stored : List PipelineDefinition
  phase : LoopPhase
  executed : List ModuleCall

/-- A definition is stored, so that its callback has to run; the router thread makes its next
assignment; or the loop goes on, where a module that is executed succeeds or fails. -/
inductive SharedEvent where
  | store (env : CallEnv) (pdef : PipelineDefinition)
  | assign
  | advance (succeeds : Bool)

/-- The next step of the loop. -/
def SharedRun.advance (succeeds : Bool) (s : SharedRun) : Except Stop SharedRun :=
  match s.phase with
  | .test i =>
    .ok { s with
      phase := if i < s.slot.numModules then .readFunction i else .finished false }
  | .readFunction i =>
    if h : i < maxModules then
      .ok { s with phase := .readParamId i (s.slot.modules ⟨i, h⟩).moduleFunction }
    else .error .outOfBounds
  | .readParamId i function =>
    if h : i < maxModules then
      .ok { s with phase := .execute i (function, (s.slot.modules ⟨i, h⟩).moduleParamId) }
    else .error .outOfBounds
  | .execute i call =>
    .ok { s with
      executed := s.executed ++ [call]
      phase := if succeeds then .test (i + 1) else .finished true }
  | .finished _ => .ok s

/-- One step of either thread. -/
def sharedStep (k : Fin maxPipelines) (s : SharedRun) : SharedEvent → Except Stop SharedRun
  | .store env pdef =>
    .ok { s with
      updates := s.updates ++ setupAssignments libs env k pdef
      stored := s.stored ++ [pdef] }
  | .assign =>
    match s.updates with
    | [] => .ok s
    | assignment :: rest =>
      (s.slot.assign assignment).map fun slot => { s with slot := slot, updates := rest }
  | .advance succeeds => s.advance succeeds

/-- The loop is about to start on an entry that was built from this definition. -/
def SharedRun.start (slot : Pipeline) (pdef : PipelineDefinition) : SharedRun :=
  ⟨slot, [], [pdef], .test 0, []⟩

/-- The call of the entry at an index, if there is one. -/
def Pipeline.callAt (pipeline : Pipeline) (i : ℕ) : List ModuleCall :=
  if h : i < maxModules then [(pipeline.modules ⟨i, h⟩).call] else []

/-- What the loop has still to execute if the entry stays as it is. -/
def LoopPhase.plan (slot : Pipeline) : LoopPhase → List ModuleCall
  | .test i => slot.calls.drop i
  | .readFunction i => slot.callAt i ++ slot.calls.drop (i + 1)
  | .readParamId i function =>
    (slot.callAt i).map (fun call => (function, call.2)) ++ slot.calls.drop (i + 1)
  | .execute i call => call :: slot.calls.drop (i + 1)
  | .finished _ => []

/-- The loop has not looked at the entry yet, or will not do so any more. -/
def LoopPhase.Idle : LoopPhase → Prop
  | .test 0 => True
  | .finished _ => True
  | _ => False

/-- The calls made are those of one stored definition, all of them if the loop has ended without a
failure. -/
def OneDefinition (s : SharedRun) : Prop :=
  ∃ pdef ∈ s.stored, s.executed <+: pdef.calls libs ∧
    (s.phase = .finished false → s.executed = pdef.calls libs)

/-- The loop starts on the calls of a stored definition, and while it runs no assignment changes
what it has still to execute. -/
def Harmless (s : SharedRun) : SharedEvent → Prop
  | .store _ _ => True
  | .assign => s.phase.Idle ∨ ∀ assignment rest slot, s.updates = assignment :: rest →
      s.slot.assign assignment = .ok slot → s.phase.plan slot = s.phase.plan s.slot
  | .advance _ => s.phase = .test 0 → ∃ pdef ∈ s.stored, s.slot.calls = pdef.calls libs

/-- Before its first access the loop has made no call; while it runs, the calls made and the plan
are a stored definition; at its end, the calls made are one as far as it got. -/
inductive LoopInvariant (s : SharedRun) : Prop where
  | before (pdef : PipelineDefinition) (hstored : pdef ∈ s.stored) (hphase : s.phase = .test 0)
      (hexecuted : s.executed = [])
  | running (pdef : PipelineDefinition) (hstored : pdef ∈ s.stored) (hphase : ¬ s.phase.Idle)
      (hplan : s.executed ++ s.phase.plan s.slot = pdef.calls libs)
  | ended (failed : Bool) (hphase : s.phase = .finished failed) (hone : OneDefinition libs s)

/-- The rest of the calls from an index in use is the call at the index and the calls behind. -/
theorem Pipeline.calls_drop (pipeline : Pipeline) (i : ℕ) (hi : i < pipeline.numModules) :
    pipeline.calls.drop i = pipeline.callAt i ++ pipeline.calls.drop (i + 1) := by
  by_cases h : i < maxModules
  · have hlength : i < pipeline.calls.length := by
      simp [calls, live, hi, h]
    rw [List.drop_eq_getElem_cons hlength, callAt, dif_pos h]
    simp [calls, live]
  · have hlength : pipeline.calls.length ≤ i := by
      simp only [calls, live, List.length_map, List.length_take, List.length_finRange]
      omega
    rw [List.drop_eq_nil_of_le hlength, List.drop_eq_nil_of_le (by omega), callAt, dif_neg h]
    rfl

/-- There are no calls from an index behind those in use. -/
theorem Pipeline.calls_drop_eq_nil (pipeline : Pipeline) (i : ℕ) (hi : pipeline.numModules ≤ i) :
    pipeline.calls.drop i = [] := by
  apply List.drop_eq_nil_of_le
  simp only [calls, live, List.length_map, List.length_take, List.length_finRange]
  omega

/-- The invariant is what the property says, and more. -/
theorem LoopInvariant.oneDefinition {s : SharedRun} (h : LoopInvariant libs s) :
    OneDefinition libs s := by
  cases h with
  | before pdef hstored hphase hexecuted =>
    refine ⟨pdef, hstored, ?_, ?_⟩
    · rw [hexecuted]
      exact List.nil_prefix
    · intro hfinished
      rw [hphase] at hfinished
      contradiction
  | running pdef hstored hphase hplan =>
    refine ⟨pdef, hstored, ⟨_, hplan⟩, ?_⟩
    intro hfinished
    rw [hfinished] at hphase
    exact absurd trivial hphase
  | ended failed hphase hone => exact hone

/-- A step of the loop leaves the calls made and the plan together as they are, unless it ends. -/
theorem advance_plan {s s' : SharedRun} {succeeds : Bool} (h : s.advance succeeds = .ok s')
    (hphase : ∀ failed, s.phase ≠ .finished failed) :
    s'.stored = s.stored ∧
      ((¬ s'.phase.Idle ∧ s'.executed ++ s'.phase.plan s'.slot =
          s.executed ++ s.phase.plan s.slot) ∨
        (s'.phase = .finished false ∧ s'.executed = s.executed ++ s.phase.plan s.slot) ∨
        (s'.phase = .finished true ∧ s'.executed <+: s.executed ++ s.phase.plan s.slot)) := by
  obtain ⟨slot, updates, stored, phase, executed⟩ := s
  unfold SharedRun.advance at h
  cases phase with
  | test i =>
    obtain rfl := Except.ok.inj h
    refine ⟨rfl, ?_⟩
    by_cases hi : i < slot.numModules
    · refine .inl ⟨by simp [hi, LoopPhase.Idle], ?_⟩
      simp only [hi, if_true, LoopPhase.plan, slot.calls_drop i hi]
    · refine .inr (.inl ⟨by simp [hi], ?_⟩)
      simp only [LoopPhase.plan, slot.calls_drop_eq_nil i (by omega), List.append_nil]
  | readFunction i =>
    simp only at h
    split at h
    case isFalse => contradiction
    case isTrue hi =>
      obtain rfl := Except.ok.inj h
      refine ⟨rfl, .inl ⟨id, ?_⟩⟩
      simp [LoopPhase.plan, Pipeline.callAt, hi, Module.call]
  | readParamId i function =>
    simp only at h
    split at h
    case isFalse => contradiction
    case isTrue hi =>
      obtain rfl := Except.ok.inj h
      refine ⟨rfl, .inl ⟨id, ?_⟩⟩
      simp [LoopPhase.plan, Pipeline.callAt, hi, Module.call]
  | execute i call =>
    obtain rfl := Except.ok.inj h
    refine ⟨rfl, ?_⟩
    cases succeeds with
    | true => exact .inl ⟨id, by simp [LoopPhase.plan]⟩
    | false => exact .inr (.inr ⟨rfl, by simp [LoopPhase.plan]⟩)
  | finished failed => exact absurd rfl (hphase failed)

/-- Harmless steps keep the invariant. -/
theorem sharedStep_invariant (k : Fin maxPipelines) (s : SharedRun) (event : SharedEvent)
    (s' : SharedRun) (hs : LoopInvariant libs s) (hharmless : Harmless libs s event)
    (h : sharedStep libs k s event = .ok s') : LoopInvariant libs s' := by
  cases event with
  | store env pdef =>
    obtain rfl := Except.ok.inj h
    have hgrows (pdef' : PipelineDefinition) (hmem : pdef' ∈ s.stored) :
        pdef' ∈ s.stored ++ [pdef] := List.mem_append_left _ hmem
    cases hs with
    | before pdef' hstored hphase hexecuted =>
      exact .before pdef' (hgrows _ hstored) hphase hexecuted
    | running pdef' hstored hphase hplan => exact .running pdef' (hgrows _ hstored) hphase hplan
    | ended failed hphase hone =>
      obtain ⟨pdef', hstored, hinitial, hcomplete⟩ := hone
      exact .ended failed hphase ⟨pdef', hgrows _ hstored, hinitial, hcomplete⟩
  | assign =>
    rw [sharedStep] at h
    cases hupdates : s.updates with
    | nil =>
      rw [hupdates] at h
      exact Except.ok.inj h ▸ hs
    | cons assignment rest =>
      rw [hupdates] at h
      cases hassign : s.slot.assign assignment with
      | error stop => simp only [hassign] at h; contradiction
      | ok slot =>
        simp only [hassign] at h
        obtain rfl := Except.ok.inj h
        cases hs with
        | before pdef hstored hphase hexecuted => exact .before pdef hstored hphase hexecuted
        | running pdef hstored hphase hplan =>
          have hkept := hharmless.resolve_left hphase assignment rest slot hupdates hassign
          refine .running pdef hstored hphase ?_
          rw [← hplan, ← hkept]
        | ended failed hphase hone => exact .ended failed hphase hone
  | advance succeeds =>
    rw [sharedStep] at h
    have hcontinue (pdef : PipelineDefinition) (hstored : pdef ∈ s.stored)
        (hphase : ∀ failed, s.phase ≠ .finished failed)
        (hplan : s.executed ++ s.phase.plan s.slot = pdef.calls libs) : LoopInvariant libs s' := by
      obtain ⟨hkept, hnext⟩ := advance_plan h hphase
      rw [← hkept] at hstored
      rw [hplan] at hnext
      rcases hnext with ⟨hidle, hplan'⟩ | ⟨hfinished, hexecuted⟩ | ⟨hfinished, hinitial⟩
      · exact .running pdef hstored hidle hplan'
      · exact .ended false hfinished
          ⟨pdef, hstored, hexecuted ▸ List.prefix_rfl, fun _ => hexecuted⟩
      · exact .ended true hfinished ⟨pdef, hstored, hinitial, fun hok => by simp [hfinished] at hok⟩
    cases hs with
    | before pdef hstored hphase hexecuted =>
      obtain ⟨started, hstarted, hcalls⟩ := hharmless hphase
      refine hcontinue started hstarted (by simp [hphase]) ?_
      rw [hphase, hexecuted]
      exact hcalls
    | running pdef hstored hphase hplan =>
      refine hcontinue pdef hstored ?_ hplan
      intro failed hfinished
      rw [hfinished] at hphase
      exact hphase trivial
    | ended failed hphase hone =>
      rw [SharedRun.advance, hphase] at h
      obtain rfl := Except.ok.inj h
      exact .ended failed hphase hone

/-- In every interleaving whose steps are harmless, what is executed for the batch belongs to a
single stored definition, in every state that is reached. -/
theorem oneDefinition_of_harmless (k : Fin maxPipelines) (slot : Pipeline)
    (pdef : PipelineDefinition) (events : List SharedEvent)
    (hharmless : Execution.Along (sharedStep libs k) (Harmless libs) events (.start slot pdef))
    (earlier later : List SharedEvent) (hsplit : events = earlier ++ later) (s : SharedRun)
    (hrun : Execution.run (sharedStep libs k) earlier (.start slot pdef) = .ok s) :
    OneDefinition libs s := by
  have hearlier : Execution.Along (sharedStep libs k) (Harmless libs) earlier (.start slot pdef) :=
    Execution.Along.of_append (hsplit ▸ hharmless)
  have hstart : LoopInvariant libs (.start slot pdef) :=
    .before pdef (List.mem_singleton_self _) rfl rfl
  exact LoopInvariant.oneDefinition libs (Execution.run_invariant_along (LoopInvariant libs)
    (Harmless libs) (sharedStep_invariant libs k) earlier _ s hstart hearlier hrun)

/-- The definition of the samples: two modules, with the parameter lists 1 and 2. -/
def sampleDefinition : PipelineDefinition := ⟨[⟨[0x61], 1⟩, ⟨[0x62], 2⟩]⟩

/-- The pipeline entry that was built from it. -/
def sampleSlot : Pipeline := installed definitionLibraries .ample 0 sampleDefinition .zero

/-- Storing the definition again in the middle of a run is harmless. -/
theorem oneDefinition_of_harmless_stored :
    ∃ s, Execution.run (sharedStep definitionLibraries 0)
        [.advance true, .store .ample sampleDefinition, .assign, .assign, .advance true,
          .advance true, .advance false] (.start sampleSlot sampleDefinition) = .ok s ∧
      s.executed = [(some ⟨0x1000⟩, 0)] ∧ OneDefinition definitionLibraries s := by
  obtain ⟨s, hrun, hexecuted⟩ : ∃ s, Execution.run (sharedStep definitionLibraries 0)
      [.advance true, .store .ample sampleDefinition, .assign, .assign, .advance true,
        .advance true, .advance false] (.start sampleSlot sampleDefinition) = .ok s ∧
      s.executed = [(some ⟨0x1000⟩, 0)] := ⟨_, rfl, rfl⟩
  refine ⟨s, hrun, hexecuted, oneDefinition_of_harmless definitionLibraries 0 sampleSlot
    sampleDefinition [.advance true, .store .ample sampleDefinition, .assign, .assign,
      .advance true, .advance true, .advance false] ?_ _ [] rfl s hrun⟩
  have hrunning {succeeds : Bool} {s : SharedRun} (h : s.phase ≠ .test 0) :
      Harmless definitionLibraries s (.advance succeeds) := fun hphase => absurd hphase h
  refine ⟨fun _ => ⟨sampleDefinition, List.mem_singleton_self _, rfl⟩, fun _ h => ?_⟩
  obtain rfl := Except.ok.inj h
  refine ⟨trivial, fun _ h => ?_⟩
  obtain rfl := Except.ok.inj h
  refine ⟨.inr fun _ _ _ hupdates hassign => ?_, fun _ h => ?_⟩
  · obtain ⟨rfl, rfl⟩ := List.cons.inj hupdates
    obtain rfl := Except.ok.inj hassign
    rfl
  obtain rfl := Except.ok.inj h
  refine ⟨.inr fun _ _ _ hupdates hassign => ?_, fun _ h => ?_⟩
  · obtain ⟨rfl, rfl⟩ := List.cons.inj hupdates
    obtain rfl := Except.ok.inj hassign
    rfl
  obtain rfl := Except.ok.inj h
  refine ⟨hrunning (by decide), fun _ h => ?_⟩
  obtain rfl := Except.ok.inj h
  refine ⟨hrunning (by decide), fun _ h => ?_⟩
  obtain rfl := Except.ok.inj h
  exact ⟨hrunning (by decide), fun _ _ => trivial⟩

/-- An update between two iterations makes the loop execute the first module of one definition and
the second of another. -/
theorem oneDefinition_not_always :
    ¬ ∀ (libs : Libraries) (k : Fin maxPipelines) (slot : Pipeline) (pdef : PipelineDefinition)
        (events : List SharedEvent) (s : SharedRun), slot.calls = pdef.calls libs →
        Execution.run (sharedStep libs k) events (.start slot pdef) = .ok s →
        OneDefinition libs s := by
  intro h
  obtain ⟨s, hrun, hexecuted, hphase, hstored⟩ : ∃ s, Execution.run
      (sharedStep definitionLibraries 0)
      (List.replicate 4 (.advance true) ++ [.store .ample ⟨[⟨[0x63], 3⟩, ⟨[0x64], 4⟩]⟩] ++
        List.replicate 8 .assign ++ List.replicate 5 (.advance true))
      (.start sampleSlot sampleDefinition) = .ok s ∧
      s.executed = [(some ⟨0x1000⟩, 0), (some ⟨0x1000⟩, 3)] ∧ s.phase = .finished false ∧
      s.stored = [sampleDefinition, ⟨[⟨[0x63], 3⟩, ⟨[0x64], 4⟩]⟩] := ⟨_, rfl, rfl, rfl, rfl⟩
  obtain ⟨pdef, hpdef, -, hcomplete⟩ := h definitionLibraries 0 sampleSlot sampleDefinition _ s
    rfl hrun
  rw [hstored, List.mem_cons, List.mem_singleton] at hpdef
  have hcalls := hcomplete hphase
  rw [hexecuted] at hcalls
  rcases hpdef with rfl | rfl
  · exact absurd hcalls (by decide)
  · exact absurd hcalls (by decide)

/-- Behind the last entry in use the loop ends. -/
theorem run_alone_end (k : Fin maxPipelines) (s : SharedRun) (i : ℕ) (hphase : s.phase = .test i)
    (hend : s.slot.numModules ≤ i) :
    Execution.run (sharedStep libs k) [.advance true] s =
        .ok { s with phase := .finished false } ∧ s.phase.plan s.slot = [] := by
  constructor
  · refine Execution.run_cons_ok [] ?_
    simp [sharedStep, SharedRun.advance, hphase, Nat.not_lt.mpr hend]
  · rw [hphase, LoopPhase.plan, s.slot.calls_drop_eq_nil i hend]

/-- An iteration executes the call of its entry. -/
theorem run_alone_iteration (k : Fin maxPipelines) (s : SharedRun) (i : ℕ)
    (hphase : s.phase = .test i) (hi : i < s.slot.numModules) (h : i < maxModules) :
    Execution.run (sharedStep libs k) (List.replicate 4 (.advance true)) s =
      .ok { s with
        phase := .test (i + 1)
        executed := s.executed ++ [(s.slot.modules ⟨i, h⟩).call] } := by
  simp [List.replicate, Execution.run_cons, sharedStep, SharedRun.advance, hphase, hi, h,
    Except.bind, Module.call]

/-- The loop, left alone between two iterations, executes its plan. -/
theorem run_alone (k : Fin maxPipelines) (remaining i : ℕ) (s : SharedRun)
    (hphase : s.phase = .test i) (hroom : s.slot.numModules ≤ maxModules)
    (hremaining : s.slot.numModules ≤ i + remaining) :
    ∃ n last, Execution.run (sharedStep libs k) (List.replicate n (.advance true)) s = .ok last ∧
      last.phase = .finished false ∧ last.executed = s.executed ++ s.phase.plan s.slot ∧
      last.stored = s.stored := by
  induction remaining generalizing i s with
  | zero =>
    obtain ⟨hrun, hplan⟩ := run_alone_end libs k s i hphase (by omega)
    exact ⟨1, _, hrun, rfl, by rw [hplan, List.append_nil], rfl⟩
  | succ remaining ih =>
    by_cases hi : i < s.slot.numModules
    · have h : i < maxModules := by omega
      have hiteration := run_alone_iteration libs k s i hphase hi h
      obtain ⟨n, last, hrun, hlast, hexecuted, hstored⟩ := ih (i + 1) { s with
        phase := .test (i + 1)
        executed := s.executed ++ [(s.slot.modules ⟨i, h⟩).call] } rfl hroom (by
          dsimp only
          omega)
      refine ⟨4 + n, last, ?_, hlast, ?_, hstored⟩
      · rw [List.replicate_add, Execution.run_append, hiteration]
        exact hrun
      · rw [hexecuted, hphase, LoopPhase.plan, LoopPhase.plan, s.slot.calls_drop i hi,
          Pipeline.callAt, dif_pos h, List.append_assoc]
    · obtain ⟨hrun, hplan⟩ := run_alone_end libs k s i hphase (by omega)
      exact ⟨1, _, hrun, rfl, by rw [hplan, List.append_nil], rfl⟩

/-- Left alone from its start, the loop executes exactly the stages of the pipeline. -/
theorem run_alone_stages (k : Fin maxPipelines) (slot : Pipeline) (pdef : PipelineDefinition)
    (hroom : slot.numModules ≤ maxModules) (c : ConfigState) :
    ∃ n last, Execution.run (sharedStep libs k) (List.replicate n (.advance true))
        (.start slot pdef) = .ok last ∧
      last.executed.map (fun call => ⟨call.1, c.parameterList call.2⟩) = slot.stages c := by
  obtain ⟨n, last, hrun, -, hexecuted, -⟩ := run_alone libs k slot.numModules 0
    (.start slot pdef) rfl hroom (Nat.le_add_left _ _)
  refine ⟨n, last, hrun, ?_⟩
  rw [hexecuted, slot.stages_eq_calls c]
  rfl

/-- If the loop, left alone between two iterations, cannot go wrong any more, then the calls made
and the plan together are a stored definition. -/
theorem plan_of_alone (k : Fin maxPipelines) (i : ℕ) (s : SharedRun) (hphase : s.phase = .test i)
    (hroom : s.slot.numModules ≤ maxModules)
    (halone : ∀ n last, Execution.run (sharedStep libs k) (List.replicate n (.advance true)) s =
      .ok last → OneDefinition libs last) :
    ∃ pdef ∈ s.stored, s.executed ++ s.phase.plan s.slot = pdef.calls libs := by
  obtain ⟨n, last, hrun, hlast, hexecuted, hstored⟩ :=
    run_alone libs k s.slot.numModules i s hphase hroom (Nat.le_add_left _ _)
  obtain ⟨pdef, hpdef, -, hcomplete⟩ := halone n last hrun
  exact ⟨pdef, hstored ▸ hpdef, by rw [← hexecuted, hcomplete hlast]⟩

end Dipp
