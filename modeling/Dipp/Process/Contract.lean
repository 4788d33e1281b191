import Dipp.Process.Outcome

/-!
# A whole run over the message queue

Draining the queue takes the messages of type 1 one after the other, and each of them
comes to its own outcome. Only the lists, the flag and the world go from one batch to
the next, so the ring receives what the delivered batches contribute, in queue order,
and nothing of one batch reaches the output of another.
-/

namespace Dipp

open LittleEndian Framing

variable {W : Type*} (platform : Platform W) (libs : Libraries)

/-- The batch that a full-size message is received as. -/
def Message.batch (message : Message) : ImageBatch :=
  .ofBytes ((encode 8 message.mtype.toUInt64.toNat ++ message.mtext).take sizeofImageBatch)

/-- The messages that are received, in order. -/
def receivable (queue : List Message) : List Message := queue.filter (·.mtype = 1)

/-- The messages that nobody asks for. -/
def unreceivable (queue : List Message) : List Message := queue.filter (·.mtype ≠ 1)

variable (defs : Fin maxPipelines → PipelineDefinition)
  (moduleParams : Fin maxModules → ParamData)

/-- What the batches of a queue come to, in order. -/
def batchOutcomes : List ImageBatch → Inherited W → List (BatchOutcome W)
  | [], _ => []
  | batch :: rest, inherited =>
    inherited.outcome platform libs defs moduleParams batch ::
      batchOutcomes rest (inherited.next platform libs defs moduleParams batch)

/-- A message of type 1 is receivable. -/
theorem receivable_cons_of_type {message : Message} (h : message.mtype = 1) (rest : List Message) :
    receivable (message :: rest) = message :: receivable rest ∧
      unreceivable (message :: rest) = unreceivable rest := by
  simp [receivable, unreceivable, h]

/-- A message of another type is not. -/
theorem receivable_cons_of_ne {message : Message} (h : message.mtype ≠ 1) (rest : List Message) :
    receivable (message :: rest) = receivable rest ∧
      unreceivable (message :: rest) = message :: unreceivable rest := by
  simp [receivable, unreceivable, h]

/-- A queue from which nothing can be taken has no receivable message. -/
theorem takeMessage_eq_none {queue : List Message} (h : takeMessage queue = none) :
    receivable queue = [] ∧ unreceivable queue = queue := by
  induction queue with
  | nil => exact ⟨rfl, rfl⟩
  | cons message rest ih =>
    rw [takeMessage] at h
    split at h
    · contradiction
    · rename_i htype
      obtain ⟨hnone, hall⟩ := ih (Option.map_eq_none_iff.mp h)
      obtain ⟨hreceivable, hunreceivable⟩ := receivable_cons_of_ne htype rest
      rw [hreceivable, hunreceivable, hnone, hall]
      exact ⟨rfl, rfl⟩

/-- Taking a message takes the first receivable one and leaves the others in order. -/
theorem takeMessage_eq_some {queue rest : List Message} {message : Message}
    (h : takeMessage queue = some (message, rest)) :
    receivable queue = message :: receivable rest ∧ unreceivable queue = unreceivable rest ∧
      queue.length = rest.length + 1 ∧ message ∈ queue ∧ rest ⊆ queue := by
  induction queue generalizing rest with
  | nil => contradiction
  | cons first later ih =>
    rw [takeMessage] at h
    split at h
    · rename_i htype
      obtain ⟨rfl, rfl⟩ := Prod.mk.inj (Option.some.inj h)
      obtain ⟨hreceivable, hunreceivable⟩ := receivable_cons_of_type htype later
      exact ⟨hreceivable, hunreceivable, rfl, List.mem_cons_self, List.subset_cons_self _ _⟩
    · rename_i htype
      obtain ⟨⟨taken, remaining⟩, htaken, heq⟩ := Option.map_eq_some_iff.mp h
      obtain ⟨rfl, rfl⟩ := Prod.mk.inj heq
      obtain ⟨hreceivable, hunreceivable, hlength, hmem, hsubset⟩ := ih htaken
      obtain ⟨hlater, hunlater⟩ := receivable_cons_of_ne htype later
      obtain ⟨hremaining, hunremaining⟩ := receivable_cons_of_ne htype remaining
      refine ⟨?_, ?_, congrArg (· + 1) hlength, List.mem_cons_of_mem _ hmem,
        List.cons_subset_cons _ hsubset⟩
      · rw [hlater, hreceivable, hremaining]
      · rw [hunlater, hunreceivable, hunremaining]

/-- A full-size message replaces the whole batch variable. -/
theorem copyMessage_of_full {message : Message} (datarcv : ImageBatch)
    (hfull : message.mtext.length = sizeofImageBatch) :
    copyMessage message datarcv = message.batch := by
  have hdrop : datarcv.toBytes.drop sizeofImageBatch = [] :=
    List.drop_eq_nil_of_le (Nat.le_of_eq datarcv.length_toBytes)
  simp only [copyMessage, Message.batch, hfull, hdrop, List.append_nil]

variable {platform} {defs}

/-- What a run over the queue leaves: the messages nobody asks for, the elements of all outcomes in
order, every final segment removed, and every module called in turn. -/
structure Drained (s s' : ProcessState W) (queue : List Message)
    (outcomes : List (BatchOutcome W)) (blocks : BatchOutcome W → List (List UInt8)) : Prop where
  queue : s'.queue = some (unreceivable queue)
  ring : s'.ring = s.ring ++ outcomes.flatMap fun outcome => outcome.contribution (blocks outcome)
  removed : s'.removed = s.removed ++ outcomes.map fun outcome => outcome.run.value.shmid
  calls : s'.calls = s.calls ++ outcomes.flatMap fun outcome => outcome.run.steps

/-- From a coherent configuration, the messages of a queue are processed as their outcomes say. -/
theorem processAll_drains (hreliable : platform.Reliable) (hclean : platform.Clean)
    (hshared : platform.SharesMemory) (hallocates : platform.Allocates)
    (hsafe : ∀ k, (defs k).Safe libs) (blocks : BatchOutcome W → List (List UInt8)) (fuel : ℕ)
    (queue : List Message) (hfuel : queue.length < fuel)
    (hfull : ∀ message ∈ queue, message.mtext.length = sizeofImageBatch) (datarcv : ImageBatch)
    (s : ProcessState W) (hqueue : s.queue = some queue) (hs : s.config.Coherent libs)
    (hstores : s.config.Stores libs defs) (outcomes : List (BatchOutcome W))
    (houtcomes : outcomes = batchOutcomes platform libs defs s.config.moduleParams
      ((receivable queue).map Message.batch) s.inherited)
    (hblocks : ∀ outcome ∈ outcomes, outcome.delivered = true →
      outcome.Holds libs (blocks outcome)) :
    ∃ batch s', processAll platform libs false fuel datarcv s = .ok (batch, s') ∧
      Drained s s' queue outcomes blocks := by
  induction fuel generalizing queue datarcv s outcomes with
  | zero => contradiction
  | succ fuel ih =>
    rw [processAll]
    cases htake : takeMessage queue with
    | none =>
      obtain ⟨hnone, hall⟩ := takeMessage_eq_none htake
      rw [hnone] at houtcomes
      obtain rfl : outcomes = [] := houtcomes
      refine ⟨datarcv, s.setErrorParam ErrorCode.msgqEmpty.value, ?_, ?_⟩
      · simp [getMessageFromQueue, hqueue, htake]
      · exact ⟨by rw [hall]; exact hqueue, (List.append_nil _).symm, (List.append_nil _).symm,
          (List.append_nil _).symm⟩
    | some taken =>
      obtain ⟨message, rest⟩ := taken
      obtain ⟨hreceivable, hunreceivable, hlength, hmessage, hrest⟩ := takeMessage_eq_some htake
      have hreceive : getMessageFromQueue false datarcv s =
          .ok ⟨.success, message.batch, { s with queue := some rest }⟩ := by
        simp only [getMessageFromQueue, hqueue, htake, if_pos (Nat.le_of_eq (hfull _ hmessage)),
          copyMessage_of_full datarcv (hfull _ hmessage)]
      obtain ⟨c, hsetup, hready, hc, hpipelines, hmodules, hlists⟩ := setupCache_ready libs
        hallocates { s with queue := some rest } hs hstores fun k => (hsafe k).1
      rw [hreceivable, List.map_cons, batchOutcomes] at houtcomes
      obtain ⟨batch', s', hprocess, hprocessed⟩ := process_outcome libs hreliable hclean hshared
        hsafe { s with queue := some rest, config := c } hready message.batch
        (s.inherited.run platform libs defs s.config.moduleParams message.batch)
        (by rw [Inherited.run, hlists]; rfl)
        (s.inherited.outcome platform libs defs s.config.moduleParams message.batch) rfl
        (blocks _) (hblocks _ (by rw [houtcomes]; exact List.mem_cons_self))
      have hinherited : s'.inherited =
          s.inherited.next platform libs defs s.config.moduleParams message.batch := by
        rw [ProcessState.inherited, hprocessed.moduleParameterLists, hprocessed.isSetup,
          hprocessed.world]
        exact congrArg (Inherited.mk · _ _) hlists
      have hparams : s'.config.moduleParams = s.config.moduleParams :=
        hprocessed.moduleParams.trans hmodules
      have hstores' : s'.config.Stores libs defs := by
        intro k
        rw [hprocessed.pipelineParams]
        exact hpipelines ▸ hstores k
      obtain ⟨last, s'', hrun, hqueue', hring, hremoved, hcalls⟩ := ih rest (by omega)
        (fun m hm => hfull m (hrest hm)) batch' s' hprocessed.queue
        ((process_tablesKept platform libs hprocess).coherent libs hc) hstores' _
        (by rw [hinherited, hparams]) fun outcome houtcome =>
          hblocks outcome (by rw [houtcomes]; exact List.mem_cons_of_mem _ houtcome)
      refine ⟨last, s'', ?_, ?_⟩
      · simp only [hreceive, hsetup, hprocess, hrun]
      · rw [houtcomes]
        refine ⟨hunreceivable ▸ hqueue', ?_, ?_, ?_⟩
        · rw [hring, hprocessed.ring, List.flatMap_cons, List.append_assoc]
        · rw [hremoved, hprocessed.removed, List.map_cons, List.append_assoc]
          rfl
        · rw [hcalls, hprocessed.calls, List.flatMap_cons, List.append_assoc]

/-- The lists show the stored configurations if they are marked as current. -/
def Inherited.Coherent (inherited : Inherited W) : Prop :=
  inherited.isSetup = true → ∀ j mcon,
    Decodes libs libs.moduleConfigUnpack (moduleParams j) mcon → (inherited.lists j).Shows mcon

variable {moduleParams}

/-- The lists a batch is processed with show the stored configurations. -/
theorem Inherited.Coherent.currentLists (hallocates : platform.Allocates)
    {inherited : Inherited W} (h : inherited.Coherent libs moduleParams) (j : Fin maxModules)
    (mcon : ModuleConfig) (hdecodes : Decodes libs libs.moduleConfigUnpack (moduleParams j) mcon) :
    (inherited.currentLists platform libs moduleParams j).Shows mcon := by
  unfold Inherited.currentLists
  split
  · exact h ‹_› j mcon hdecodes
  · exact listAfter_shows libs ((hallocates inherited.world).2 j) _ hdecodes

/-- Where the modules depend on nothing but their batch and their parameters, and these can be
decoded, each batch of a sequence comes to what it would come to alone. -/
theorem batchOutcomes_alone [Subsingleton W] (hallocates : platform.Allocates)
    (hconfigs : ∀ j, HoldsConfig libs (moduleParams j)) (batches : List ImageBatch)
    (inherited alone : Inherited W) (hinherited : inherited.Coherent libs moduleParams)
    (halone : alone.Coherent libs moduleParams) :
    batchOutcomes platform libs defs moduleParams batches inherited =
      batches.map (alone.outcome platform libs defs moduleParams) := by
  induction batches generalizing inherited with
  | nil => rfl
  | cons batch rest ih =>
    have hlists : inherited.currentLists platform libs moduleParams =
        alone.currentLists platform libs moduleParams := by
      funext j
      obtain ⟨mcon, hdecodes⟩ := hconfigs j
      have hshows := hinherited.currentLists libs hallocates j mcon hdecodes
      exact Eq.trans hshows (halone.currentLists libs hallocates j mcon hdecodes).symm
    have hworld : inherited.world = alone.world := Subsingleton.elim _ _
    have hhead : inherited.outcome platform libs defs moduleParams batch =
        alone.outcome platform libs defs moduleParams batch := by
      simp only [Inherited.outcome, Inherited.run, hlists, hworld]
    rw [batchOutcomes, List.map_cons, hhead,
      ih _ fun _ => hinherited.currentLists libs hallocates]

/-- In every reachable state, a run over a queue of full-size messages takes all messages of type 1
and no others, and what reaches the ring are, in queue order, the first blocks of the final segment
of each batch whose pipeline was found and whose modules all returned. No batch matters to another
where the modules depend on their batch and their decodable parameters only. -/
theorem processAll_contract (hreliable : platform.Reliable) (hclean : platform.Clean)
    (hshared : platform.SharesMemory) (hallocates : platform.Allocates) (s : ProcessState W)
    (hs : Reachable platform libs s) (defs : Fin maxPipelines → PipelineDefinition)
    (hstores : s.config.Stores libs defs) (hsafe : ∀ k, (defs k).Safe libs)
    (queue : List Message) (hqueue : s.queue = some queue)
    (hfull : ∀ message ∈ queue, message.mtext.length = sizeofImageBatch)
    (outcomes : List (BatchOutcome W))
    (houtcomes : outcomes = batchOutcomes platform libs defs s.config.moduleParams
      ((receivable queue).map Message.batch) s.inherited)
    (blocks : BatchOutcome W → List (List UInt8))
    (hblocks : ∀ outcome ∈ outcomes, outcome.delivered = true →
      outcome.Holds libs (blocks outcome))
    (datarcv : ImageBatch) (fuel : ℕ) (hfuel : queue.length < fuel) :
    (∃ batch s', processAll platform libs false fuel datarcv s = .ok (batch, s') ∧
      Drained s s' queue outcomes blocks) ∧
    (Subsingleton W → (∀ j, HoldsConfig libs (s.config.moduleParams j)) →
      outcomes = ((receivable queue).map Message.batch).map
        (s.inherited.outcome platform libs defs s.config.moduleParams)) := by
  have hcoherent := hs.coherent libs hallocates
  refine ⟨processAll_drains libs hreliable hclean hshared hallocates hsafe blocks fuel queue hfuel
    hfull datarcv s hqueue hcoherent hstores outcomes houtcomes hblocks, ?_⟩
  intro hworld hconfigs
  have hlists : s.inherited.Coherent libs s.config.moduleParams := by
    intro hsetup j mcon hdecodes
    obtain ⟨list, hview, hlist⟩ := hcoherent hsetup (.module j) mcon hdecodes
    have heq : s.inherited.lists j = list := SlotView.module.inj hview
    exact heq ▸ hlist
  rw [houtcomes]
  exact batchOutcomes_alone libs hallocates hconfigs _ _ _ hlists hlists

/-- A message that asks for the first pipeline, with one image of four bytes in this segment. -/
def sampleMessage (mtype : Int64) (shmid : Int32) : Message where
  mtype := mtype
  mtext := intBytes 1 ++ (intBytes 4 ++ (intBytes shmid ++ (intBytes 1 ++ List.replicate 16 0)))

/-- Modules return the batches of segment 7 and crash on all others. -/
def samplePlatform : Platform Unit :=
  .ofModules (fun _ batch => ⟨[], if batch.shmid = 7 then .returned batch else .killed⟩)
    fun _ => [0, 0, 0, 0]

/-- The definitions behind a storage that holds one pipeline. -/
def sampleDefinitions (k : Fin maxPipelines) : PipelineDefinition :=
  if k = 0 then ⟨[⟨[0x61], 1⟩]⟩ else ⟨[]⟩

/-- A processing thread before its first batch, over this storage. -/
def sampleState (queue : List Message) : ProcessState Unit :=
  .boot (.boot (fun k => if k = 0 then .ofStream (storedStream packedDefinition) else .zero)
    (fun _ => .zero) 0) () (some queue)

/-- System calls succeed on the sample platform, and its modules have well-defined outcomes. -/
theorem samplePlatform_wellBehaved :
    samplePlatform.Reliable ∧ samplePlatform.Clean ∧ samplePlatform.SharesMemory ∧
      samplePlatform.Allocates := by
  refine ⟨Platform.ofModules_reliable _ _, fun w function batch config => ?_,
    ⟨fun w shmid => ⟨_, _, rfl⟩, fun _ => rfl, fun _ _ => rfl⟩,
    fun w => ⟨fun _ => CallEnv.ample_succeeds, fun _ => CallEnv.ample_succeeds⟩⟩
  change ModuleRun.Clean ⟨[], if batch.shmid = 7 then .returned batch else .killed⟩
  split
  · rfl
  · trivial

/-- The sample storage decodes to the sample definitions, which are safe. -/
theorem sampleState_stores (queue : List Message) :
    (sampleState queue).config.Stores definitionLibraries sampleDefinitions ∧
      ∀ k, (sampleDefinitions k).Safe definitionLibraries := by
  constructor
  · intro k
    by_cases hk : k = 0
    · subst hk
      exact decodes_packedDefinition
    · simp only [sampleState, ProcessState.boot, ConfigState.boot, sampleDefinitions, if_neg hk]
      exact decodes_of_empty _ (by decide) (by decide)
  · intro k
    by_cases hk : k = 0
    · subst hk
      refine ⟨by decide, fun mdef hmdef => ?_⟩
      obtain rfl := List.mem_singleton.mp hmdef
      exact ⟨by decide, by decide, by decide⟩
    · rw [sampleDefinitions, if_neg hk]
      exact ⟨Nat.zero_le _, by simp⟩

/-- Of three messages, the batch that crashes contributes nothing, the one after it is delivered,
and the one of another type stays. -/
theorem processAll_contract_sample :
    ∃ batch s', processAll samplePlatform definitionLibraries false 4 ⟨0, 0, 0, 0, 0, 0⟩
        (sampleState [sampleMessage 1 8, sampleMessage 2 7, sampleMessage 1 7]) =
          .ok (batch, s') ∧
      s'.queue = some [sampleMessage 2 7] ∧ s'.ring = [[0, 0, 0, 0]] ∧ s'.removed = [8, 7] := by
  obtain ⟨hreliable, hclean, hshared, hallocates⟩ := samplePlatform_wellBehaved
  obtain ⟨hstores, hsafe⟩ :=
    sampleState_stores [sampleMessage 1 8, sampleMessage 2 7, sampleMessage 1 7]
  obtain ⟨⟨batch, s', hrun, hqueue, hring, hremoved, -⟩, -⟩ := processAll_contract
    definitionLibraries hreliable hclean hshared hallocates
    (sampleState [sampleMessage 1 8, sampleMessage 2 7, sampleMessage 1 7]) (.boot _ _ _ _ _)
    sampleDefinitions hstores hsafe _ rfl (by decide) _ rfl (fun _ => [[0, 0, 0, 0]])
    (by
      refine List.forall_mem_cons.mpr ⟨fun h => absurd h (by decide), ?_⟩
      refine List.forall_mem_cons.mpr ⟨fun _ => ?_, fun _ hnil => absurd hnil List.not_mem_nil⟩
      refine ⟨_, _, rfl, Mapped.holds_ofBuffer _, by decide, fun block hblock => ?_⟩
      obtain rfl := List.mem_singleton.mp hblock
      rw [IsBlock]
      decide)
    ⟨0, 0, 0, 0, 0, 0⟩ 4 (by decide)
  exact ⟨batch, s', hrun, hqueue, hring, hremoved⟩

/-- A message of another type is left in the queue. -/
theorem processAll_not_always_empties :
    ¬ ∀ (platform : Platform Unit) (libs : Libraries) (s : ProcessState Unit)
        (defs : Fin maxPipelines → PipelineDefinition) (queue : List Message)
        (blocks : BatchOutcome Unit → List (List UInt8)) (datarcv : ImageBatch) (fuel : ℕ),
        platform.Reliable → platform.Clean → platform.SharesMemory → platform.Allocates →
        Reachable platform libs s → s.config.Stores libs defs → (∀ k, (defs k).Safe libs) →
        s.queue = some queue →
        (∀ message ∈ queue, message.mtext.length = sizeofImageBatch) →
        (∀ outcome ∈ batchOutcomes platform libs defs s.config.moduleParams
          (queue.map Message.batch) s.inherited,
            outcome.delivered = true → outcome.Holds libs (blocks outcome)) →
        queue.length < fuel →
        ∃ batch s', processAll platform libs false fuel datarcv s = .ok (batch, s') ∧
          s'.queue = some [] := by
  intro h
  obtain ⟨hreliable, hclean, hshared, hallocates⟩ := samplePlatform_wellBehaved
  obtain ⟨hstores, hsafe⟩ := sampleState_stores [sampleMessage 2 8]
  obtain ⟨batch, s', hrun, hempty⟩ := h samplePlatform definitionLibraries
    (sampleState [sampleMessage 2 8]) sampleDefinitions [sampleMessage 2 8]
    (fun _ => []) ⟨0, 0, 0, 0, 0, 0⟩ 2 hreliable hclean hshared hallocates
    (.boot _ _ _ _ _) hstores hsafe rfl (by decide)
    (List.forall_mem_cons.mpr ⟨fun h => absurd h (by decide), by simp [batchOutcomes]⟩)
    (by decide)
  obtain ⟨batch', s'', hrun', hdrained⟩ := processAll_drains definitionLibraries hreliable
    hclean hshared hallocates hsafe (fun _ => []) 2
    [sampleMessage 2 8] (by decide) (by decide) ⟨0, 0, 0, 0, 0, 0⟩
    (sampleState [sampleMessage 2 8]) rfl (fun hfresh => absurd hfresh Bool.false_ne_true) hstores
    [] rfl (by simp)
  rw [hrun'] at hrun
  obtain ⟨rfl, rfl⟩ := Prod.mk.inj (Except.ok.inj hrun)
  rw [hdrained.queue] at hempty
  exact absurd (Option.some.inj hempty) (by decide)

end Dipp
