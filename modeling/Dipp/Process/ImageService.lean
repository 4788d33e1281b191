import Dipp.Process.Developing
import Dipp.Process.Modes
import Dipp.Process.Thread
import Mathlib.Data.List.Forall2

/-!
# The service that the processing thread renders

Seen from outside there are no tables, segments, pipes or caches, only pipelines and
configurations that were stored, shots that wait, and images that were delivered. A run
for one shot or for all of them adds what the stored pipelines make of the shots. The
processing thread renders this service over any lifetime: commands are stored at any
time, cameras send shots, runs of either kind follow in any order, modules fail, and the
process may be restarted.
-/

namespace Dipp

open Execution

/-- Images that wait for a pipeline. -/
structure Shot where
  pipelineId : Int32
  images : List CameraImage
  deriving DecidableEq

/-- What is stored, what waits, and what was delivered. -/
structure ImageService where
  definitions : Fin maxPipelines → PipelineDefinition
  configs : Fin maxModules → ModuleConfig
  waiting : List Shot
  delivered : List CameraImage

/-- What is asked of the service. -/
inductive ServiceOp where
  | define (k : Fin maxPipelines) (pdef : PipelineDefinition)
  | configure (j : Fin maxModules) (mcon : ModuleConfig)
  | shoot (shot : Shot)
  | processOne
  | processAll
  | idle

variable (libs : Libraries) (effect : Development)

/-- What the stored pipelines make of a shot; a failure leaves no image. -/
def ImageService.develop (service : ImageService) (shot : Shot) : List CameraImage :=
  (developBatch libs effect service.definitions service.configs shot.pipelineId
    shot.images).getD []

/-- Perform it. -/
def ImageService.step (service : ImageService) : ServiceOp → ImageService
  | .define k pdef => { service with definitions := Function.update service.definitions k pdef }
  | .configure j mcon => { service with configs := Function.update service.configs j mcon }
  | .shoot shot => { service with waiting := service.waiting ++ [shot] }
  | .processOne =>
    { service with
      waiting := service.waiting.tail
      delivered := service.delivered ++
        (service.waiting.head?.map (service.develop libs effect)).getD [] }
  | .processAll =>
    { service with
      waiting := []
      delivered := service.delivered ++ service.waiting.flatMap (service.develop libs effect) }
  | .idle => service

/-- Without a shot, no run does anything. -/
theorem ImageService.step_of_empty {service : ImageService} (h : service.waiting = []) :
    service.step libs effect .processOne = service ∧
      service.step libs effect .processAll = service := by
  obtain ⟨definitions, configs, waiting, delivered⟩ := service
  obtain rfl : waiting = [] := h
  simp [step]

/-- A run for all shots begins with the first one. -/
theorem ImageService.step_of_nonempty {service : ImageService} (h : service.waiting ≠ []) :
    service.step libs effect .processAll =
      (service.step libs effect .processOne).step libs effect .processAll := by
  obtain ⟨shot, shots, hwaiting⟩ := List.exists_cons_of_ne_nil h
  simp only [step, hwaiting, List.flatMap_cons, List.head?_cons, Option.map_some,
    Option.getD_some, List.tail_cons, List.append_assoc]
  rfl

variable {W : Type*} (platform : Platform W)

/-- What happens to the processing thread between and during its calls. -/
inductive ServiceEvent (W : Type*) where
  | command (command : Command)
  | arrival (world : W) (message : Message)
  | processOne (doWait : Bool) (datarcv : ImageBatch)
  | processAll (fuel : ℕ) (datarcv : ImageBatch)
  | restart

/-- Let it happen. -/
def serviceStep (s : ProcessState W) : ServiceEvent W → Except Stop (ProcessState W)
  | .command command => (commandStep libs s.config command).map fun c => { s with config := c }
  | .arrival world message =>
    .ok { s with world := world, queue := s.queue.map (· ++ [message]) }
  | .processOne doWait datarcv => processOne platform libs doWait datarcv s
  | .processAll fuel datarcv => (processAll platform libs false fuel datarcv s).map Prod.snd
  | .restart => .ok s.restarted

variable {libs platform} in
/-- A command changes the configuration only. -/
theorem serviceStep_command {s s' : ProcessState W} {command : Command}
    (h : serviceStep libs platform s (.command command) = .ok s') :
    ∃ c, s' = { s with config := c } := by
  rw [serviceStep] at h
  cases hstep : commandStep libs s.config command with
  | error stop => rw [hstep] at h; contradiction
  | ok c =>
    rw [hstep] at h
    exact ⟨c, (Except.ok.inj h).symm⟩

/-- The batches that wait in the queue. -/
def ProcessState.waiting (s : ProcessState W) : List ImageBatch :=
  (receivable (s.queue.getD [])).map Message.batch

/-- What an event asks of the service. Stored definitions can be decoded and executed, a message for
the thread comes from a camera that has put images into a segment of its own, and what else happens
in the world leaves the images of the waiting batches alone. -/
inductive ServiceEvent.Means (s : ProcessState W) : ServiceEvent W → ServiceOp → Prop where
  | define (k : Fin maxPipelines) (content : ParamData) (env : CallEnv) (pdef : PipelineDefinition)
      (henv : env.alloc.Succeeds)
      (hdecodes : Decodes libs libs.pipelineDefinitionUnpack content pdef)
      (hsafe : pdef.Safe libs) :
      Means s (.command (.writePipeline k content env)) (.define k pdef)
  | configure (j : Fin maxModules) (content : ParamData) (env : CallEnv) (mcon : ModuleConfig)
      (henv : env.alloc.Succeeds)
      (hdecodes : Decodes libs libs.moduleConfigUnpack content mcon) :
      Means s (.command (.writeModule j content env)) (.configure j mcon)
  | rebuild (env : RebuildEnv) (henv : env.Succeeds) :
      Means s (.command (.setupCacheIfNeeded env)) .idle
  | invalidate : Means s (.command .invalidateCache) .idle
  | shoot (world : W) (message : Message) (images : List CameraImage)
      (htype : message.mtype = 1) (hfull : message.mtext.length = sizeofImageBatch)
      (hpictures : Pictures platform libs world message.batch images)
      (hown : ∀ batch ∈ s.waiting, batch.shmid ≠ message.batch.shmid)
      (hkept : ∀ batch ∈ s.waiting, ∀ images, Pictures platform libs s.world batch images →
        Pictures platform libs world batch images) :
      Means s (.arrival world message) (.shoot ⟨message.batch.pipelineId, images⟩)
  | other (world : W) (message : Message) (htype : message.mtype ≠ 1)
      (hkept : ∀ batch ∈ s.waiting, ∀ images, Pictures platform libs s.world batch images →
        Pictures platform libs world batch images) :
      Means s (.arrival world message) .idle
  | processOne (doWait : Bool) (datarcv : ImageBatch) (hwait : doWait = true → s.waiting ≠ []) :
      Means s (.processOne doWait datarcv) .processOne
  | processAll (fuel : ℕ) (datarcv : ImageBatch) (hfuel : s.waiting.length < fuel) :
      Means s (.processAll fuel datarcv) .processAll
  | restart : Means s .restart .idle

/-- The segments of the waiting batches hold the images of the waiting shots. -/
def HoldsShots (w : W) (batches : List ImageBatch) (shots : List Shot) : Prop :=
  List.Forall₂ (fun batch shot => batch.pipelineId = shot.pipelineId ∧
    Pictures platform libs w batch shot.images) batches shots

/-- The processing thread renders the service in this state: what is stored and what waits is as the
service has it, and the ring holds what was delivered. -/
structure Renders (s : ProcessState W) (service : ImageService) : Prop where
  coherent : s.config.Coherent libs
  stores : s.config.Stores libs service.definitions
  safe : ∀ k, (service.definitions k).Safe libs
  configs : ∀ j, Decodes libs libs.moduleConfigUnpack (s.config.moduleParams j) (service.configs j)
  queue : s.queue.isSome
  full : ∀ message ∈ receivable (s.queue.getD []), message.mtext.length = sizeofImageBatch
  pending : HoldsShots libs platform s.world s.waiting service.waiting
  apart : (s.waiting.map ImageBatch.shmid).Nodup
  ring : s.ring = service.delivered.map CameraImage.block
  described : ∀ image ∈ service.delivered,
    image.Described libs.metadataUnpack ∧ image.block.length < 2 ^ 31

variable {libs effect platform}

/-- Where the world keeps the images of the waiting batches, they are still pending. -/
theorem HoldsShots.kept {w w' : W} {batches : List ImageBatch} {shots : List Shot}
    (h : HoldsShots libs platform w batches shots)
    (hkept : ∀ batch ∈ batches, ∀ images, Pictures platform libs w batch images →
      Pictures platform libs w' batch images) : HoldsShots libs platform w' batches shots :=
  ((List.forall₂_and_left _ _).mpr ⟨hkept, h⟩).imp fun _ shot hpending =>
    ⟨hpending.2.1, hpending.1 shot.images hpending.2.2⟩

/-- The stored parameters of a service can be decoded. -/
theorem Renders.consistent {s : ProcessState W} {service : ImageService}
    (h : Renders libs platform s service) : s.config.Consistent libs where
  decodable := ⟨fun k => ⟨_, h.stores k, (h.safe k).1⟩, fun j => ⟨_, h.configs j⟩⟩
  coherent := h.coherent

/-- An event that changes neither what is stored nor what waits nor the ring leaves the service as
it is. -/
theorem Renders.unchanged {s s' : ProcessState W} {service : ImageService}
    (h : Renders libs platform s service) (hcoherent : s'.config.Coherent libs)
    (hpipelines : s'.config.pipelineParams = s.config.pipelineParams)
    (hmodules : s'.config.moduleParams = s.config.moduleParams) (hqueue : s'.queue = s.queue)
    (hworld : s'.world = s.world) (hring : s'.ring = s.ring) :
    Renders libs platform s' service where
  coherent := hcoherent
  stores := fun k => hpipelines ▸ h.stores k
  safe := h.safe
  configs := fun j => hmodules ▸ h.configs j
  queue := hqueue ▸ h.queue
  full := hqueue ▸ h.full
  pending := by
    rw [ProcessState.waiting, hqueue, hworld]
    exact h.pending
  apart := by
    rw [ProcessState.waiting, hqueue]
    exact h.apart
  ring := hring.trans h.ring
  described := h.described

/-- A command goes through, and changes the stored parameters as its operations do. -/
theorem Renders.commandStep {s : ProcessState W} {service : ImageService}
    (h : Renders libs platform s service) {command : Command}
    (hadmissible : command.Admissible libs) :
    ∃ c, Dipp.commandStep libs s.config command = .ok c ∧ c.Coherent libs ∧
      c.pipelineParams = command.ops.foldl paramsAfter s.config.pipelineParams ∧
      c.moduleParams = command.ops.foldl moduleParamsAfter s.config.moduleParams := by
  obtain ⟨c, hstep, hconsistent⟩ := commandStep_consistent libs s.config command h.consistent
    hadmissible
  exact ⟨c, hstep, hconsistent.coherent, (run_sound libs _ _ _ hstep).1,
    run_moduleParams libs _ _ _ hstep⟩

/-- Tables that are related slot by slot are still related after an update of the same slot. -/
theorem update_related {α β γ : Type*} [DecidableEq α] {related : β → γ → Prop} {f : α → β}
    {g : α → γ} (h : ∀ a, related (f a) (g a)) (a : α) {b : β} {c : γ} (hslot : related b c)
    (other : α) : related (Function.update f a b other) (Function.update g a c other) := by
  by_cases hother : other = a
  · subst hother
    rw [Function.update_self, Function.update_self]
    exact hslot
  · rw [Function.update_of_ne hother, Function.update_of_ne hother]
    exact h other

/-- Storing a definition defines the pipeline. -/
theorem Renders.define {s : ProcessState W} {service : ImageService}
    (h : Renders libs platform s service) (k : Fin maxPipelines) {content : ParamData}
    {env : CallEnv} {pdef : PipelineDefinition} (henv : env.alloc.Succeeds)
    (hdecodes : Decodes libs libs.pipelineDefinitionUnpack content pdef) (hsafe : pdef.Safe libs) :
    ∃ s', serviceStep libs platform s (.command (.writePipeline k content env)) = .ok s' ∧
      Renders libs platform s'
        { service with definitions := Function.update service.definitions k pdef } := by
  have hadmissible : (Command.writePipeline k content env).Admissible libs :=
    ⟨henv, pdef, hdecodes, hsafe.1⟩
  obtain ⟨c, hstep, hcoherent, hpipelines, hmodules⟩ := h.commandStep hadmissible
  have hparams : c.pipelineParams = Function.update s.config.pipelineParams k content := hpipelines
  have hkept : c.moduleParams = s.config.moduleParams := hmodules
  refine ⟨{ s with config := c }, by rw [serviceStep, hstep]; rfl, hcoherent, fun k' => ?_,
    (Function.forall_update_iff _ fun _ => PipelineDefinition.Safe libs).mpr
      ⟨hsafe, fun k' _ => h.safe k'⟩,
    fun j => hkept ▸ h.configs j, h.queue, h.full, h.pending, h.apart, h.ring, h.described⟩
  rw [hparams]
  exact update_related h.stores k hdecodes k'

/-- Storing a configuration configures the module. -/
theorem Renders.configure {s : ProcessState W} {service : ImageService}
    (h : Renders libs platform s service) (j : Fin maxModules) {content : ParamData}
    {env : CallEnv} {mcon : ModuleConfig} (henv : env.alloc.Succeeds)
    (hdecodes : Decodes libs libs.moduleConfigUnpack content mcon) :
    ∃ s', serviceStep libs platform s (.command (.writeModule j content env)) = .ok s' ∧
      Renders libs platform s'
        { service with configs := Function.update service.configs j mcon } := by
  have hadmissible : (Command.writeModule j content env).Admissible libs := ⟨henv, mcon, hdecodes⟩
  obtain ⟨c, hstep, hcoherent, hpipelines, hmodules⟩ := h.commandStep hadmissible
  have hparams : c.moduleParams = Function.update s.config.moduleParams j content := hmodules
  have hkept : c.pipelineParams = s.config.pipelineParams := hpipelines
  refine ⟨{ s with config := c }, by rw [serviceStep, hstep]; rfl, hcoherent,
    fun k => hkept ▸ h.stores k, h.safe, fun j' => ?_, h.queue, h.full, h.pending, h.apart, h.ring,
    h.described⟩
  rw [hparams]
  exact update_related h.configs j hdecodes j'

/-- A command that stores nothing leaves the service as it is. -/
theorem Renders.idle {s : ProcessState W} {service : ImageService}
    (h : Renders libs platform s service) {command : Command}
    (hadmissible : command.Admissible libs)
    (hpipelines : command.ops.foldl paramsAfter s.config.pipelineParams = s.config.pipelineParams)
    (hmodules : command.ops.foldl moduleParamsAfter s.config.moduleParams =
      s.config.moduleParams) :
    ∃ s', serviceStep libs platform s (.command command) = .ok s' ∧
      Renders libs platform s' service := by
  obtain ⟨c, hstep, hcoherent, hpipelines', hmodules'⟩ := h.commandStep hadmissible
  exact ⟨{ s with config := c }, by rw [serviceStep, hstep]; rfl,
    h.unchanged hcoherent (hpipelines'.trans hpipelines) (hmodules'.trans hmodules) rfl rfl rfl⟩

/-- A message for the thread waits behind the others. -/
theorem receivable_concat_of_type {message : Message} (htype : message.mtype = 1)
    (queue : List Message) : receivable (queue ++ [message]) = receivable queue ++ [message] := by
  simp [receivable, htype]

/-- A message of another type does not count. -/
theorem receivable_concat_of_ne {message : Message} (htype : message.mtype ≠ 1)
    (queue : List Message) : receivable (queue ++ [message]) = receivable queue := by
  simp [receivable, htype]

/-- The batches that wait when a queue is there. -/
theorem waiting_of_queue {s : ProcessState W} {queue : List Message}
    (hqueue : s.queue = some queue) : s.waiting = (receivable queue).map Message.batch := by
  rw [ProcessState.waiting, hqueue]
  rfl

/-- A camera's message is a shot. -/
theorem Renders.shoot {s : ProcessState W} {service : ImageService}
    (h : Renders libs platform s service) (world : W) {message : Message}
    {images : List CameraImage} (htype : message.mtype = 1)
    (hfull : message.mtext.length = sizeofImageBatch)
    (hpictures : Pictures platform libs world message.batch images)
    (hown : ∀ batch ∈ s.waiting, batch.shmid ≠ message.batch.shmid)
    (hkept : ∀ batch ∈ s.waiting, ∀ images, Pictures platform libs s.world batch images →
      Pictures platform libs world batch images) :
    Renders libs platform { s with world := world, queue := s.queue.map (· ++ [message]) }
      { service with waiting := service.waiting ++ [⟨message.batch.pipelineId, images⟩] } := by
  obtain ⟨queue, hqueue⟩ := Option.isSome_iff_exists.mp h.queue
  have hfullqueue := h.full
  rw [hqueue] at hfullqueue ⊢
  have harrived : ProcessState.waiting
        { s with world := world, queue := some (queue ++ [message]) } =
      s.waiting ++ [message.batch] := by
    rw [waiting_of_queue hqueue, waiting_of_queue rfl, receivable_concat_of_type htype,
      List.map_append, List.map_singleton]
  refine ⟨h.coherent, h.stores, h.safe, h.configs, rfl, ?_, ?_, ?_, h.ring, h.described⟩
  · change ∀ m ∈ receivable (queue ++ [message]), m.mtext.length = sizeofImageBatch
    rw [receivable_concat_of_type htype]
    exact List.forall_mem_append.mpr ⟨hfullqueue, List.forall_mem_singleton.mpr hfull⟩
  · rw [Option.map_some, harrived]
    exact List.rel_append (h.pending.kept hkept) (.cons ⟨rfl, hpictures⟩ .nil)
  · rw [Option.map_some, harrived, List.map_append, List.map_singleton]
    refine List.Nodup.append h.apart (List.nodup_singleton _) ?_
    rw [List.disjoint_singleton]
    intro hmem
    obtain ⟨batch, hbatch, hshmid⟩ := List.mem_map.mp hmem
    exact hown batch hbatch hshmid

/-- A message that nobody asks for changes nothing. -/
theorem Renders.other {s : ProcessState W} {service : ImageService}
    (h : Renders libs platform s service) (world : W) {message : Message}
    (htype : message.mtype ≠ 1)
    (hkept : ∀ batch ∈ s.waiting, ∀ images, Pictures platform libs s.world batch images →
      Pictures platform libs world batch images) :
    Renders libs platform { s with world := world, queue := s.queue.map (· ++ [message]) }
      service := by
  obtain ⟨queue, hqueue⟩ := Option.isSome_iff_exists.mp h.queue
  have hfullqueue := h.full
  rw [hqueue] at hfullqueue ⊢
  have harrived : ProcessState.waiting
      { s with world := world, queue := some (queue ++ [message]) } = s.waiting := by
    rw [waiting_of_queue hqueue, waiting_of_queue rfl, receivable_concat_of_ne htype]
  refine ⟨h.coherent, h.stores, h.safe, h.configs, rfl, ?_, ?_, ?_, h.ring, h.described⟩
  · change ∀ m ∈ receivable (queue ++ [message]), m.mtext.length = sizeofImageBatch
    rw [receivable_concat_of_ne htype]
    exact hfullqueue
  · rw [Option.map_some, harrived]
    exact h.pending.kept hkept
  · rw [Option.map_some, harrived]
    exact h.apart

/-- The first message that waits is the one that is taken. -/
theorem takeMessage_of_receivable {queue later : List Message} {message : Message}
    (h : receivable queue = message :: later) :
    ∃ rest, takeMessage queue = some (message, rest) ∧ receivable rest = later := by
  cases htake : takeMessage queue with
  | none =>
    obtain ⟨hnone, -⟩ := takeMessage_eq_none htake
    rw [hnone] at h
    contradiction
  | some taken =>
    obtain ⟨first, rest⟩ := taken
    obtain ⟨hreceivable, -⟩ := takeMessage_eq_some htake
    rw [hreceivable] at h
    obtain ⟨rfl, rfl⟩ := List.cons.inj h
    exact ⟨rest, rfl, rfl⟩

/-- Without a shot that waits, there is no message to take. -/
theorem takeMessage_of_receivable_nil {queue : List Message} (h : receivable queue = []) :
    takeMessage queue = none := by
  cases htake : takeMessage queue with
  | none => rfl
  | some taken =>
    obtain ⟨hreceivable, -⟩ := takeMessage_eq_some htake
    rw [hreceivable] at h
    contradiction

/-- Processing the first message delivers what its pipeline makes of the first shot. -/
theorem Renders.message (hdevelops : platform.Develops libs effect)
    (hreliable : platform.Reliable) (hclean : platform.Clean) (hshared : platform.SharesMemory)
    (hallocates : platform.Allocates) {s : ProcessState W} {service : ImageService}
    (h : Renders libs platform s service) {queue rest : List Message} {message : Message}
    (hqueue : s.queue = some queue) (htake : takeMessage queue = some (message, rest))
    (datarcv : ImageBatch) :
    ∃ batch' s', processMessage platform libs message (datarcv, s.withQueue (some rest)) =
        .ok (batch', s') ∧ s'.queue = some rest ∧
      Renders libs platform s' (service.step libs effect .processOne) := by
  obtain ⟨hreceivable, -⟩ := takeMessage_eq_some htake
  have hpending := h.pending
  have hapart := h.apart
  have hfull := h.full
  rw [waiting_of_queue hqueue, hreceivable, List.map_cons] at hpending hapart
  rw [hqueue, Option.getD_some, hreceivable, List.forall_mem_cons] at hfull
  cases hwaiting : service.waiting with
  | nil =>
    rw [hwaiting] at hpending
    exact absurd (List.forall₂_nil_right_iff.mp hpending) (List.cons_ne_nil _ _)
  | cons shot shots =>
    rw [hwaiting] at hpending
    obtain ⟨⟨hpipeline, hpictures⟩, hrest⟩ := List.forall₂_cons.mp hpending
    rw [List.map_cons, List.nodup_cons] at hapart
    obtain ⟨hfirst, hothers⟩ := hapart
    obtain ⟨⟨batch', s', hprocess, hdeveloped⟩, hdescribed⟩ := hdevelops.processMessage hreliable
      hclean hshared hallocates h.coherent h.stores h.safe h.configs hfull.1 hpictures
      (service.develop libs effect shot) (by rw [ImageService.develop, hpipeline]) datarcv
    refine ⟨batch', s'.withQueue (some rest), ?_, rfl, ?_⟩
    · rw [processMessage_withQueue platform libs (some rest) message (datarcv, s), hprocess]
      rfl
    have hstep : service.step libs effect .processOne =
        { service with
          waiting := shots
          delivered := service.delivered ++ service.develop libs effect shot } := by
      rw [ImageService.step, hwaiting]
      rfl
    rw [hstep]
    refine ⟨hdeveloped.coherent, fun k => hdeveloped.pipelineParams ▸ h.stores k, h.safe,
      fun j => hdeveloped.moduleParams ▸ h.configs j, rfl, hfull.2, ?_, hothers, ?_, ?_⟩
    · refine HoldsShots.kept hrest fun batch hbatch images hbatchPictures => ?_
      refine hdeveloped.others batch images hbatchPictures fun hshmid => hfirst ?_
      rw [← hshmid]
      exact List.mem_map_of_mem hbatch
    · rw [List.map_append, ← h.ring]
      exact hdeveloped.ring
    · exact List.forall_mem_append.mpr ⟨h.described, hdescribed⟩

/-- Reporting an error leaves the service as it is. -/
theorem Renders.setErrorParam {s : ProcessState W} {service : ImageService}
    (h : Renders libs platform s service) (code : UInt32) :
    Renders libs platform (s.setErrorParam code) service :=
  h.unchanged (TablesKept.coherent libs (.with_err s.config _) h.coherent) rfl rfl rfl rfl rfl

/-- A receive that finds nothing leaves the service as it is. -/
theorem Renders.empty {s : ProcessState W} {service : ImageService}
    (h : Renders libs platform s service) (hempty : service.waiting = []) :
    ∃ queue, s.queue = some queue ∧ takeMessage queue = none := by
  obtain ⟨queue, hqueue⟩ := Option.isSome_iff_exists.mp h.queue
  have hpending := h.pending
  rw [hempty, waiting_of_queue hqueue] at hpending
  have hnone := List.map_eq_nil_iff.mp (List.forall₂_nil_right_iff.mp hpending)
  exact ⟨queue, hqueue, takeMessage_of_receivable_nil hnone⟩

/-- If a shot waits, its message can be taken. -/
theorem Renders.nonempty {s : ProcessState W} {service : ImageService}
    (h : Renders libs platform s service) (hwaiting : service.waiting ≠ []) :
    ∃ queue message rest, s.queue = some queue ∧ takeMessage queue = some (message, rest) ∧
      message.Fits ∧ s.waiting.length = (receivable rest).length + 1 := by
  obtain ⟨queue, hqueue⟩ := Option.isSome_iff_exists.mp h.queue
  have hpending := h.pending
  have hfull := h.full
  rw [hqueue, Option.getD_some] at hfull
  rw [waiting_of_queue hqueue] at hpending ⊢
  cases hreceivable : receivable queue with
  | nil =>
    rw [hreceivable] at hpending
    exact absurd (List.forall₂_nil_left_iff.mp hpending) hwaiting
  | cons message later =>
    obtain ⟨rest, htake, hrest⟩ := takeMessage_of_receivable hreceivable
    rw [hreceivable, List.forall_mem_cons] at hfull
    exact ⟨queue, message, rest, hqueue, htake, Nat.le_of_eq hfull.1, by
      rw [List.length_map, List.length_cons, hrest]⟩

/-- A run for one message does what the service does for one shot. -/
theorem Renders.processOne (hdevelops : platform.Develops libs effect)
    (hreliable : platform.Reliable) (hclean : platform.Clean) (hshared : platform.SharesMemory)
    (hallocates : platform.Allocates) {s : ProcessState W} {service : ImageService}
    (h : Renders libs platform s service) {doWait : Bool} (datarcv : ImageBatch)
    (hwait : doWait = true → s.waiting ≠ []) :
    ∃ s', Dipp.processOne platform libs doWait datarcv s = .ok s' ∧
      Renders libs platform s' (service.step libs effect .processOne) := by
  by_cases hempty : service.waiting = []
  · obtain ⟨queue, hqueue, htake⟩ := h.empty hempty
    have hnowait : doWait = false := by
      cases doWait with
      | false => rfl
      | true =>
        obtain ⟨hnone, -⟩ := takeMessage_eq_none htake
        rw [waiting_of_queue hqueue, hnone] at hwait
        exact absurd rfl (hwait rfl)
    obtain ⟨c, hsetup, -, hc, hpipelines, hmodules, -⟩ := setupCache_ready libs hallocates s
      h.coherent h.stores fun k => (h.safe k).1
    have hready : Renders libs platform { s with config := c } service :=
      h.unchanged hc hpipelines hmodules rfl rfl rfl
    have hreceive := getMessageFromQueue_of_none (s := { s with config := c }) datarcv hqueue htake
    rw [(ImageService.step_of_empty libs effect hempty).1]
    refine ⟨_, ?_, hready.setErrorParam ErrorCode.msgqEmpty.value⟩
    subst hnowait
    simp only [Dipp.processOne, hsetup, hreceive]
  · obtain ⟨queue, message, rest, hqueue, htake, hfits, -⟩ := h.nonempty hempty
    obtain ⟨batch', s', hprocess, -, hrenders⟩ := h.message hdevelops hreliable hclean hshared
      hallocates hqueue htake datarcv
    refine ⟨s', ?_, hrenders⟩
    rw [processOne_of_fits doWait datarcv hqueue htake hfits, hprocess]
    rfl

/-- A run for all messages does what the service does for all shots. -/
theorem Renders.processAll (hdevelops : platform.Develops libs effect)
    (hreliable : platform.Reliable) (hclean : platform.Clean) (hshared : platform.SharesMemory)
    (hallocates : platform.Allocates) (fuel : ℕ) {s : ProcessState W} {service : ImageService}
    (h : Renders libs platform s service) (datarcv : ImageBatch) (hfuel : s.waiting.length < fuel) :
    ∃ s', (Dipp.processAll platform libs false fuel datarcv s).map Prod.snd = .ok s' ∧
      Renders libs platform s' (service.step libs effect .processAll) := by
  induction fuel generalizing s service datarcv with
  | zero => contradiction
  | succ fuel ih =>
    by_cases hempty : service.waiting = []
    · obtain ⟨queue, hqueue, htake⟩ := h.empty hempty
      rw [(ImageService.step_of_empty libs effect hempty).2,
        processAll_of_none false fuel datarcv hqueue htake,
        getMessageFromQueue_of_none datarcv hqueue htake]
      exact ⟨_, rfl, h.setErrorParam ErrorCode.msgqEmpty.value⟩
    · obtain ⟨queue, message, rest, hqueue, htake, hfits, hlength⟩ := h.nonempty hempty
      obtain ⟨batch', s', hprocess, hqueue', hrenders⟩ := h.message hdevelops hreliable hclean
        hshared hallocates hqueue htake datarcv
      have hfewer : s'.waiting.length < fuel := by
        rw [waiting_of_queue hqueue', List.length_map]
        omega
      obtain ⟨s'', hrun, hrest⟩ := ih hrenders batch' hfewer
      rw [ImageService.step_of_nonempty libs effect hempty,
        processAll_of_fits hqueue htake hfits, hprocess]
      exact ⟨s'', hrun, hrest⟩

/-- A new process renders the same service. -/
theorem Renders.restarted {s : ProcessState W} {service : ImageService}
    (h : Renders libs platform s service) : Renders libs platform s.restarted service :=
  h.unchanged (fun hsetup => absurd hsetup Bool.false_ne_true) rfl rfl rfl rfl rfl

/-- Every event does to the thread what it asks of the service. -/
theorem Renders.step (hdevelops : platform.Develops libs effect)
    (hreliable : platform.Reliable) (hclean : platform.Clean) (hshared : platform.SharesMemory)
    (hallocates : platform.Allocates) (s : ProcessState W) (service : ImageService)
    (event : ServiceEvent W) (op : ServiceOp) (h : Renders libs platform s service)
    (hmeans : ServiceEvent.Means libs platform s event op) :
    ∃ s', serviceStep libs platform s event = .ok s' ∧
      Renders libs platform s' (service.step libs effect op) := by
  cases hmeans with
  | define k content env pdef henv hdecodes hsafe => exact h.define k henv hdecodes hsafe
  | configure j content env mcon henv hdecodes => exact h.configure j henv hdecodes
  | rebuild env henv => exact h.idle ⟨henv, trivial⟩ rfl rfl
  | invalidate => exact h.idle ⟨trivial, trivial⟩ rfl rfl
  | shoot world message images htype hfull hpictures hown hkept =>
    exact ⟨_, rfl, h.shoot world htype hfull hpictures hown hkept⟩
  | other world message htype hkept => exact ⟨_, rfl, h.other world htype hkept⟩
  | processOne doWait datarcv hwait =>
    exact h.processOne hdevelops hreliable hclean hshared hallocates datarcv hwait
  | processAll fuel datarcv hfuel =>
    exact h.processAll hdevelops hreliable hclean hshared hallocates fuel datarcv hfuel
  | restart => exact ⟨_, rfl, h.restarted⟩

/-- Over any lifetime, the processing thread renders the service. -/
theorem lifetime_renders (hdevelops : platform.Develops libs effect)
    (hreliable : platform.Reliable) (hclean : platform.Clean) (hshared : platform.SharesMemory)
    (hallocates : platform.Allocates) (lifetime : List (ServiceEvent W × ServiceOp))
    {s : ProcessState W} {service : ImageService} (h : Renders libs platform s service)
    (hmeans : Along (fun s event => serviceStep libs platform s event.1)
      (fun s event => event.1.Means libs platform s event.2) lifetime s) :
    ∃ s', run (serviceStep libs platform) (lifetime.map Prod.fst) s = .ok s' ∧
      Renders libs platform s'
        ((lifetime.map Prod.snd).foldl (ImageService.step libs effect) service) :=
  run_refines (Renders libs platform)
    (Renders.step hdevelops hreliable hclean hshared hallocates) lifetime s service h hmeans

/-- A new process over decodable parameters and an empty queue renders the service of which only the
stored parameters are known. -/
theorem boot_renders {pipelineParams : Fin maxPipelines → ParamData}
    {moduleParams : Fin maxModules → ParamData}
    {definitions : Fin maxPipelines → PipelineDefinition} {configs : Fin maxModules → ModuleConfig}
    (hstores : ∀ k, Decodes libs libs.pipelineDefinitionUnpack (pipelineParams k) (definitions k))
    (hsafe : ∀ k, (definitions k).Safe libs)
    (hconfigs : ∀ j, Decodes libs libs.moduleConfigUnpack (moduleParams j) (configs j))
    (logStatus : UInt32) (w : W) :
    Renders libs platform (.boot (.boot pipelineParams moduleParams logStatus) w (some []))
      ⟨definitions, configs, [], []⟩ where
  coherent := fun hsetup => absurd hsetup Bool.false_ne_true
  stores := hstores
  safe := hsafe
  configs := hconfigs
  queue := rfl
  full := nofun
  pending := .nil
  apart := List.nodup_nil
  ring := rfl
  described := nofun

end Dipp
