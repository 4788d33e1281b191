import Dipp.Dtp.Delivery
import Dipp.Dtp.Sessions

/-!
# Downloads during a lifetime

Clients do not wait until the processing thread has nothing to do. A download that goes on
while batches are processed and uploaded depicts the first of the images that the service
delivers, as many of them as had been uploaded when it began, whatever is uploaded before
it ends.
-/

namespace Dipp

open Readers

/-- The observation depicts the image at its index: the values of the metadata that the image was
packed with, and the whole image. -/
structure Observation.Depicts (unpack : List UInt8 → Option Metadata) (observation : Observation)
    (n : ℕ) (image : CameraImage) : Prop where
  described : ∃ metadata obsMeta, unpack image.packed = some metadata ∧
    observation.described.sent = [1 :: obsMeta] ∧ ObservationMeta.ofBytes obsMeta =
      ⟨UInt16.ofNat n, metadata.size.toUInt32, metadata.obid.toUInt32⟩
  payload : ∃ parts, observation.payload = some (UInt32.ofNat image.block.length, parts) ∧
    parts.flatten = image.block

/-- What shows the block of an image depicts the image. -/
theorem Observation.Shows.depicts {unpack : List UInt8 → Option Metadata}
    {observation : Observation} {n : ℕ} {image : CameraImage}
    (h : observation.Shows unpack n image.block) (hlength : image.block.length < 2 ^ 31) :
    observation.Depicts unpack n image := by
  obtain ⟨⟨metaSize, metadata, obsMeta, hhead, hsent, hvalues⟩, hpayload⟩ := h
  obtain ⟨-, hunpack⟩ := hhead.image hlength
  exact ⟨⟨metadata, obsMeta, hunpack, hsent, hvalues⟩, hpayload⟩

/-- The first of the blocks of images belong to the first images. -/
theorem getElem?_blocks_of_prefix {images : List CameraImage} {elements : List (List UInt8)}
    (h : elements <+: images.map CameraImage.block) {n : ℕ} (hn : n < elements.length) :
    ∃ image, images[n]? = some image ∧ elements[n]? = some image.block := by
  obtain ⟨more, hmore⟩ := h
  have hblock : (elements ++ more)[n]? = elements[n]? := List.getElem?_append_left hn
  rw [hmore, List.getElem?_map, List.getElem?_eq_getElem hn] at hblock
  obtain ⟨image, himage, hsame⟩ := Option.map_eq_some_iff.mp hblock
  exact ⟨image, himage, by rw [List.getElem?_eq_getElem hn, hsame]⟩

variable {W : Type*} {platform : Platform W} {libs : Libraries} {effect : Development}
  {R : Type*} {ring : RingDriver R} {empty : R} {unevicted : List (List UInt8) → Prop}
  {ι : Type*} [DecidableEq ι]

/-- The blocks that are uploaded for a service are blocks of images. -/
theorem Renders.valid {s : ProcessState W} {service : ImageService}
    (h : Renders libs platform s service) {happends : ring.Appends empty unevicted}
    (hunevicted : unevicted (service.delivered.map CameraImage.block)) :
    (Concurrent.growth libs.metadataUnpack happends).valid s.ring := by
  rw [h.ring]
  refine ⟨hunevicted, fun element helement => ?_⟩
  obtain ⟨image, himage, rfl⟩ := List.mem_map.mp helement
  obtain ⟨hdescribed, hlength⟩ := h.described image himage
  exact ⟨hdescribed.isBlock hlength, by omega⟩

/-- Over any lifetime of the processing thread in which system calls and allocations succeed and
modules fail cleanly, and in every interleaving of its uploads with the ring calls of any number of
sessions, without evictions, a download that is done depicts, by number, the images that the service
delivers, all of them up to the last that had been uploaded when their number was asked for. -/
theorem lifetime_downloads (hdevelops : platform.Develops libs effect)
    (hreliable : platform.Reliable) (hclean : platform.Clean) (hshared : platform.SharesMemory)
    (hallocates : platform.Allocates) (lifetime : List (ServiceEvent W × ServiceOp))
    (s : ProcessState W) (service last : ImageService) (h : Renders libs platform s service)
    (hmeans : Execution.Along (fun s event => serviceStep libs platform s event.1)
      (fun s event => event.1.Means libs platform s event.2) lifetime s)
    (hlast : last = (lifetime.map Prod.snd).foldl (ImageService.step libs effect) service)
    (happends : ring.Appends empty unevicted)
    (hunevicted : unevicted (last.delivered.map CameraImage.block)) (sessions : ι → Session)
    (uploaded : List (List UInt8)) (events : List (Event ι (List UInt8)))
    {final : System ι R SessionResult}
    (hrun : Execution.run (step ring.write) events
      ⟨uploaded.foldl ring.write empty,
        fun i => (sessions i).reader ring libs.metadataUnpack⟩ = .ok final)
    (i : ι) {client : Client} (hclient : sessions i = .download client)
    (hplan : client.plan.Complete) {observations : List Observation}
    (hdone : final.reader i = .done (.observations observations)) :
    ∃ s', Execution.run (serviceStep libs platform) (lifetime.map Prod.fst) s = .ok s' ∧
      Renders libs platform s' last ∧
      (uploaded ++ written events <+: s'.ring →
        ∃ earlier later, events = earlier ++ .look i :: later ∧ .look i ∉ earlier ∧
          observations.length = (uploaded ++ written earlier).length ∧
          ∀ n < 2 ^ 16, n < observations.length →
            ∃ image observation, last.delivered[n]? = some image ∧
              observations[n]? = some observation ∧
              observation.Depicts libs.metadataUnpack n image) := by
  obtain ⟨s', hlifetime, hrenders⟩ := lifetime_renders hdevelops hreliable hclean hshared hallocates
    lifetime h hmeans
  rw [← hlast] at hrenders
  refine ⟨s', hlifetime, hrenders, fun hwritten => ?_⟩
  have hvalid : (Concurrent.growth libs.metadataUnpack happends).valid
      (uploaded ++ written events) :=
    (Concurrent.growth libs.metadataUnpack happends).valid_of_grows hwritten
      (hrenders.valid hunevicted)
  obtain ⟨earlier, later, rfl, hnone, hlength, hshows⟩ :=
    Session.snapshot hvalid hrun hclient hplan hdone
  have hearlier : uploaded ++ written earlier <+: last.delivered.map CameraImage.block := by
    rw [← hrenders.ring]
    refine List.IsPrefix.trans ?_ hwritten
    rw [written_append, ← List.append_assoc]
    exact List.prefix_append _ _
  refine ⟨earlier, later, rfl, hnone, hlength, fun n hn hinside => ?_⟩
  rw [hlength] at hinside
  obtain ⟨image, himage, helement⟩ := getElem?_blocks_of_prefix hearlier hinside
  obtain ⟨observation, hobservation, hshown⟩ := hshows n hn image.block helement
  obtain ⟨-, hsize⟩ := hrenders.described image (List.mem_of_getElem? himage)
  exact ⟨image, observation, himage, hobservation, hshown.depicts hsize⟩

/-- Somebody downloads everything. -/
def sampleDownloads (_ : Unit) : Session :=
  .download ⟨fun _ => 0, fun _ _ => 0, fun _ => 0, wholePlan⟩

/-- The one image that is delivered in the sample lifetime is uploaded before. -/
def sampleDownloadEvents : List (Event Unit (List UInt8)) :=
  .write (encodeBlock [0x08, 0x01] [0xff]) :: List.replicate 10 (.look ())

/-- A download in the sample lifetime depicts the second of the sample images. -/
theorem lifetime_downloads_sample :
    ∃ s' final observation, Execution.run (serviceStep darkroomLibraries (darkroom sampleUnpack))
        (sampleLifetime.map Prod.fst) sampleBoot = .ok s' ∧
      Execution.run (step listRing.write) sampleDownloadEvents
        ⟨[], fun i => (sampleDownloads i).reader listRing sampleUnpack⟩ = .ok final ∧
      final.reader () = .done (.observations [observation]) ∧
      observation.Depicts sampleUnpack 0 ⟨[0x08, 0x01], [0xff]⟩ := by
  have hdevelops : (darkroom darkroomLibraries.metadataUnpack).Develops darkroomLibraries
      discardFirst := darkroom_develops
  obtain ⟨hreliable, hclean, hshared, hallocates⟩ :=
    @darkroom_wellBehaved darkroomLibraries.metadataUnpack
  obtain ⟨s', hrun, hrenders, hdownload⟩ := lifetime_downloads hdevelops hreliable hclean hshared
    hallocates sampleLifetime sampleBoot _ _ sampleBoot_renders sampleLifetime_means rfl
    listRing_appends (by decide) sampleDownloads [] sampleDownloadEvents rfl () rfl
    wholePlan_complete rfl
  obtain ⟨earlier, later, -, -, -, hdepicts⟩ := hdownload (by rw [hrenders.ring]; decide)
  obtain ⟨image, observation, himage, hobservation, hdepicted⟩ := hdepicts 0 (by decide) (by decide)
  obtain rfl := Option.some.inj hobservation
  obtain rfl := Option.some.inj himage
  exact ⟨s', _, _, hrun, rfl, rfl, hdepicted⟩

end Dipp
