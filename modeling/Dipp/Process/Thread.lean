import Dipp.Process.Frame

/-!
# The lifetime of the processing thread

Between two calls of the processing functions anything may happen: parameters are written and
their callbacks run, the cache is invalidated, cameras send messages, modules of another
kind come and go, and the process itself may be restarted, which clears the tables and
the globals and keeps what is stored. A lifetime is any sequence of these and of calls.
-/

namespace Dipp

variable {W : Type*}

/-- What can happen next in the life of the processing thread. -/
inductive ThreadOp (W : Type*) where
  | config (op : ConfigOp)
  | elsewhere (world : W) (queue : Option (List Message))
  | processOne (doWait : Bool) (datarcv : ImageBatch)
  | processAll (doWait : Bool) (fuel : ℕ) (datarcv : ImageBatch)
  | restart

/-- A new process over the same storage, ring, queue and segments. -/
def ProcessState.restarted (s : ProcessState W) : ProcessState W :=
  { ProcessState.boot (.boot s.config.pipelineParams s.config.moduleParams s.config.err.logStatus)
      s.world s.queue with
    ring := s.ring
    removed := s.removed }

variable (platform : Platform W) (libs : Libraries)

/-- Perform it. -/
def threadStep (s : ProcessState W) : ThreadOp W → Except Stop (ProcessState W)
  | .config op => (configStep libs s.config op).map fun c => { s with config := c }
  | .elsewhere world queue => .ok { s with world := world, queue := queue }
  | .processOne doWait datarcv => processOne platform libs doWait datarcv s
  | .processAll doWait fuel datarcv => (processAll platform libs doWait fuel datarcv s).map Prod.snd
  | .restart => .ok s.restarted

/-- A pipeline entry is as a new process finds it, or has the number of its slot. -/
def ConfigState.Numbered (c : ConfigState) : Prop :=
  ∀ k, ((c.pipelines k).pipelineId = 0 ∧ (c.pipelines k).numModules = 0) ∨
    (c.pipelines k).pipelineId = Int32.ofNat (k + 1)

/-- The entries of a new process are as it finds them. -/
theorem ConfigState.boot_numbered (pipelineParams : Fin maxPipelines → ParamData)
    (moduleParams : Fin maxModules → ParamData) (logStatus : UInt32) :
    (ConfigState.boot pipelineParams moduleParams logStatus).Numbered :=
  fun _ => .inl ⟨rfl, rfl⟩

/-- Setup calls leave the entry alone or give it the number of its slot. -/
theorem slotRun_numbered {k : Fin maxPipelines}
    (calls : List (CallEnv × Option PipelineDefinition)) {old entry : Pipeline}
    (h : slotRun libs k calls old = .ok entry)
    (hold : (old.pipelineId = 0 ∧ old.numModules = 0) ∨ old.pipelineId = Int32.ofNat (k + 1)) :
    (entry.pipelineId = 0 ∧ entry.numModules = 0) ∨ entry.pipelineId = Int32.ofNat (k + 1) := by
  have hstep (state : Pipeline) (call : CallEnv × Option PipelineDefinition) (next : Pipeline)
      (hstate : (state.pipelineId = 0 ∧ state.numModules = 0) ∨
        state.pipelineId = Int32.ofNat (k + 1))
      (hnext : slotAfter libs call.1 k call.2 state = .ok next) :
      (next.pipelineId = 0 ∧ next.numModules = 0) ∨ next.pipelineId = Int32.ofNat (k + 1) := by
    obtain ⟨env, message⟩ := call
    cases message with
    | none => rwa [← Except.ok.inj hnext]
    | some pdef =>
      rw [slotAfter] at hnext
      split at hnext
      · rw [← Except.ok.inj hnext]
        exact .inr rfl
      · contradiction
  exact Execution.run_invariant _ hstep calls old entry hold h

/-- An operation on the configuration keeps the numbers. -/
theorem configStep_numbered {c c' : ConfigState} {op : ConfigOp}
    (h : configStep libs c op = .ok c') (hc : c.Numbered) : c'.Numbered := by
  intro k
  obtain ⟨-, -, -, hslots⟩ := configStep_sound libs c c' op h
  exact slotRun_numbered libs _ (hslots k) (hc k)

/-- A found entry has one of the numbers of the slots, or it is empty. -/
theorem ConfigState.Numbered.pipelineId {c : ConfigState} (hc : c.Numbered) (k : Fin maxPipelines) :
    (UInt8.ofInt (c.pipelines k).pipelineId.toInt).toNat ≤ maxPipelines ∧
      ((c.pipelines k).numModules ≠ 0 →
        1 ≤ (UInt8.ofInt (c.pipelines k).pipelineId.toInt).toNat) := by
  have hslot : ∀ k : Fin maxPipelines, (UInt8.ofInt (Int32.ofNat (k + 1)).toInt).toNat ≤
      maxPipelines ∧ 1 ≤ (UInt8.ofInt (Int32.ofNat (k + 1)).toInt).toNat := by decide
  rcases hc k with ⟨hid, hmodules⟩ | hid
  · rw [hid, hmodules]
    exact ⟨by decide, fun h => absurd rfl h⟩
  · rw [hid]
    exact ⟨(hslot k).1, fun _ => (hslot k).2⟩

end Dipp
