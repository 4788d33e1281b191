import Dipp.Config.Safety
import Dipp.Process.Fold
import Dipp.Process.Queue

/-!
# What is done with a segment that was not attached

`shmat` reports a failure as `(void *)-1`, and `process` compares its result with a null
pointer. A failure therefore passes for an address: after a pipeline that succeeded the
upload walks from it, and in any case it is handed to `shmdt`, whose error takes the place
of the missing `SHM_ATTACH`. The calls with an address are recorded next to what `process`
does, in their order.
-/

namespace Dipp

variable {W : Type*} (platform : Platform W) (libs : Libraries)

/-- A call that `process` makes with the address or the id of the segment. -/
inductive SegmentCall where
  | upload (data : UInt64) (numImages batchSize : Int32)
  | shmdt (shmaddr : UInt64)
  | shmctl (shmid : Int32)
  deriving DecidableEq, Repr

/-- What `process` does with the address that it takes for attached, with its calls. -/
def processSegment (attachment : Attachment) (status : Status) (out : ImageBatch)
    (s : ProcessState W) : List SegmentCall × Except Stop (ImageBatch × ProcessState W) :=
  let removing := [.shmdt attachment.address, .shmctl out.shmid]
  match status with
  | .failure => (removing, .ok (out, removeSegment platform out.shmid s))
  | .success =>
    let uploading := [.upload attachment.address out.numImages out.batchSize]
    match uploadToRing libs attachment.memory out s with
    | .error stop => (uploading, .error stop)
    | .ok uploaded =>
      (uploading ++ removing,
        .ok ({ out with data := attachment.address }, removeSegment platform out.shmid uploaded))

/-- `process` with its calls. -/
def processTraced (batch : ImageBatch) (s : ProcessState W) :
    List SegmentCall × Except Stop (ImageBatch × ProcessState W) :=
  match loadPipelineAndExecute platform batch s with
  | .error stop => ([], .error stop)
  | .ok ⟨status, out, executed⟩ =>
    let attach := platform.shmat executed.world out.shmid
    let s := { executed.outsidePipeline with world := attach.2 }
    match attach.1 with
    | .null => ([], .ok (out, s.setErrorParam ErrorCode.shmAttach.value))
    | attachment => processSegment platform libs attachment status out s

/-- The calls are those of `process`. -/
theorem processTraced_snd (batch : ImageBatch) (s : ProcessState W) :
    (processTraced platform libs batch s).2 = process platform libs batch s := by
  unfold processTraced process processSegment
  cases loadPipelineAndExecute platform batch s with
  | error stop => rfl
  | ok outcome =>
    obtain ⟨status, out, executed⟩ := outcome
    generalize hattach : platform.shmat executed.world out.shmid = attach
    obtain ⟨attachment, world⟩ := attach
    cases attachment with
    | null => simp only [hattach]
    | failed =>
      cases status with
      | failure => simp only [hattach]
      | success =>
        simp only [hattach]
        cases uploadToRing libs Attachment.failed.memory out _ <;> rfl
    | attached address mem =>
      cases status with
      | failure => simp only [hattach]
      | success =>
        simp only [hattach]
        cases uploadToRing libs (Attachment.attached address mem).memory out _ <;> rfl

/-- What `shmat` returns for the segment that the pipeline leaves. -/
def Outcome.attachment (outcome : Outcome W) : Attachment :=
  (platform.shmat outcome.state.world outcome.batch.shmid).1

/-- Only attached memory is uploaded, from a pipeline that succeeded; a failure of `shmat` is
reported outside of any pipeline, and leaves the ring and the failed address alone. -/
structure AttachedOnly (batch : ImageBatch) (s : ProcessState W) : Prop where
  uploads : ∀ data numImages batchSize,
    .upload data numImages batchSize ∈ (processTraced platform libs batch s).1 →
      ∃ outcome mem, loadPipelineAndExecute platform batch s = .ok outcome ∧
        outcome.status = .success ∧ outcome.attachment platform = .attached data mem
  failure : ∀ outcome, loadPipelineAndExecute platform batch s = .ok outcome →
    outcome.attachment platform = .failed →
      .shmdt Attachment.failed.address ∉ (processTraced platform libs batch s).1 ∧
        ∃ batch' s', process platform libs batch s = .ok (batch', s') ∧ s'.ring = s.ring ∧
          s'.config.err.logStatus = ErrorCode.shmAttach.value * 1000

variable {platform libs}

/-- An upload is from the address, and follows a success. -/
theorem upload_mem_processSegment {attachment : Attachment} {status : Status} {out : ImageBatch}
    {s : ProcessState W} {data : UInt64} {numImages batchSize : Int32}
    (h : .upload data numImages batchSize ∈
      (processSegment platform libs attachment status out s).1) :
    status = .success ∧ data = attachment.address := by
  unfold processSegment at h
  cases status with
  | failure => simp at h
  | success =>
    dsimp only at h
    split at h
    · simp only [List.mem_singleton, SegmentCall.upload.injEq] at h
      exact ⟨rfl, h.1⟩
    · simp at h
      exact ⟨rfl, h.1⟩

variable (platform libs) in
/-- The address is detached, unless the upload stops the thread. -/
theorem shmdt_mem_processSegment (attachment : Attachment) (status : Status) (out : ImageBatch)
    (s : ProcessState W) :
    .shmdt attachment.address ∈ (processSegment platform libs attachment status out s).1 ∨
      ∃ stop, (processSegment platform libs attachment status out s).2 = .error stop := by
  unfold processSegment
  cases status with
  | failure => exact .inl List.mem_cons_self
  | success =>
    dsimp only
    split
    case h_1 stop _ => exact .inr ⟨stop, rfl⟩
    case h_2 => exact .inl (List.mem_append_right _ List.mem_cons_self)

variable {batch : ImageBatch} {s : ProcessState W}

variable (libs) in
/-- Behind a pipeline run, the calls are those with the segment, unless the address is null. -/
theorem processTraced_of_load {outcome : Outcome W}
    (hload : loadPipelineAndExecute platform batch s = .ok outcome) :
    outcome.attachment platform = .null ∧ (processTraced platform libs batch s).1 = [] ∨
      outcome.attachment platform ≠ .null ∧ ∃ attached,
        processTraced platform libs batch s = processSegment platform libs
          (outcome.attachment platform) outcome.status outcome.batch attached := by
  obtain ⟨status, out, executed⟩ := outcome
  unfold processTraced Outcome.attachment
  rw [hload]
  generalize hattach : platform.shmat executed.world out.shmid = attach
  obtain ⟨attachment, world⟩ := attach
  cases attachment with
  | null => exact .inl (by simp only [hattach, and_self])
  | failed =>
    simp only [hattach]
    exact .inr ⟨nofun, _, rfl⟩
  | attached address mem =>
    simp only [hattach]
    exact .inr ⟨nofun, _, rfl⟩

/-- A failure of `shmat` is never handled as it should be. -/
theorem not_attachedOnly_of_failed {outcome : Outcome W}
    (hload : loadPipelineAndExecute platform batch s = .ok outcome)
    (hfailed : outcome.attachment platform = .failed) : ¬ AttachedOnly platform libs batch s := by
  intro hattached
  obtain ⟨hdetached, batch', s', hprocess, -⟩ := hattached.failure outcome hload hfailed
  rcases processTraced_of_load libs hload with ⟨hnull, -⟩ | ⟨-, attached, htraced⟩
  · rw [hfailed] at hnull
    contradiction
  · rw [hfailed] at htraced
    rw [← processTraced_snd, htraced] at hprocess
    rw [htraced] at hdetached
    rcases shmdt_mem_processSegment platform libs .failed outcome.status outcome.batch
        attached with hshmdt | ⟨stop, hstop⟩
    · exact hdetached hshmdt
    · rw [hstop] at hprocess
      contradiction

/-- Nothing is uploaded from memory that is not attached, and a failed attachment is reported, if
and only if the pipeline run does not return or `shmat` does not fail behind it. -/
theorem attachedOnly_iff (platform : Platform W) (libs : Libraries) (batch : ImageBatch)
    (s : ProcessState W) :
    AttachedOnly platform libs batch s ↔
      ∀ outcome, loadPipelineAndExecute platform batch s = .ok outcome →
        outcome.attachment platform ≠ .failed := by
  constructor
  · intro hattached outcome hload hfailed
    exact not_attachedOnly_of_failed hload hfailed hattached
  · intro hreturned
    refine ⟨fun data numImages batchSize hupload => ?_, fun outcome hload hfailed =>
      absurd hfailed (hreturned outcome hload)⟩
    cases hload : loadPipelineAndExecute platform batch s with
    | error stop => simp [processTraced, hload] at hupload
    | ok outcome =>
      rcases processTraced_of_load libs hload with ⟨-, hnone⟩ | ⟨hnull, attached, htraced⟩
      · simp [hnone] at hupload
      · rw [htraced] at hupload
        obtain ⟨hsuccess, hdata⟩ := upload_mem_processSegment hupload
        cases hattachment : outcome.attachment platform with
        | null => exact absurd hattachment hnull
        | failed => exact absurd hattachment (hreturned outcome hload)
        | attached address mem =>
          rw [hattachment] at hdata
          exact ⟨outcome, mem, rfl, hsuccess, by rw [hdata]; exact hattachment⟩

/-- The platform on which everything succeeds but `shmat`. -/
def detachedPlatform : Platform Unit :=
  { Platform.ofModules sampleBehave fun _ => [] with shmat := fun _ _ => (.failed, ()) }

/-- A batch for a pipeline that does not exist, whose segment is gone, has the address of the
failure detached. -/
theorem not_always_attachedOnly :
    ¬ ∀ (platform : Platform Unit) (libs : Libraries) (batch : ImageBatch) (s : ProcessState Unit),
        (∀ w shmid, (platform.shmat w shmid).1 ≠ .null) → AttachedOnly platform libs batch s := by
  intro h
  have hload : loadPipelineAndExecute detachedPlatform ⟨1, 1, 7, 7, 2, 0⟩
      (.boot sampleConfig () none) = .ok ⟨.failure, ⟨1, 1, 7, 7, 2, 0⟩,
        (ProcessState.boot sampleConfig () none).setErrorParam
          ErrorCode.internalPidNotFound.value⟩ := by
    have hnone : getPipelineById sampleConfig.pipelines 2 = none := by decide
    simp only [loadPipelineAndExecute, ProcessState.boot, hnone]
  refine not_attachedOnly_of_failed hload rfl (h detachedPlatform definitionLibraries _ _ ?_)
  intro w shmid
  simp [detachedPlatform]

end Dipp
