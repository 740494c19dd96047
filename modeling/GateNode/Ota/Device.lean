/-
The device from boot to boot: the uploads of `ota_task`, the verification of
the image they lead to, and the bootloader's way back. Rollback is enabled in
the sdkconfig, and there are two partitions for apps, so that the next update
partition is all the time the one that does not run.
-/
import GateNode.Lib.Rollback
import GateNode.Ota.BootImage
import GateNode.Ota.Version

namespace GateNode.Ota

open CString
open Dotted
open GateNode.Http (EspErr)
open Lts

structure Device where
  /-- What the running partition holds. -/
  running : List UInt8
  /-- What the other one holds, while the running image is `ESP_OTA_IMG_PENDING_VERIFY`. -/
  previous : Option (List UInt8)
  /-- `OTA_SERVICE_ROUTINE_EVENT_VALIDATION_PENDING` is posted. -/
  validationPending : Bool
  task : OtaTask := {}
  /-- The calls on images since boot. -/
  calls : List OtaCall := []
deriving DecidableEq

/-- The end of `ota_service_init`: the state of the running partition is asked for, and the event posted by it. -/
def Device.boot (running : List UInt8) (previous : Option (List UInt8)) : Device where
  running := running
  previous := previous
  validationPending := previous.isSome

/-- The bootloader: an image still to be verified is aborted for the one before. -/
def Device.reset (d : Device) : Device :=
  match d.previous with
  | some image => .boot image none
  | none => .boot d.running none

/-- `ota_set_valid`, with the answer of `esp_ota_mark_app_valid_cancel_rollback` or of
`esp_ota_mark_app_invalid_rollback_and_reboot`. -/
def otaSetValid (d : Device) (valid : Bool) : EspErr → Device
  | .espOk => if valid then { d with previous := none } else d.reset
  | .espFail => d

inductive DeviceEvent
  /-- An iteration of `ota_task`. -/
  | ota (msg : OtaMsg (List UInt8)) (idf : Idf)
  /-- `routine_ota_service_events_handler` handles the event posted at boot. -/
  | validate (err : EspErr)
  /-- The power fails, or the device panics. -/
  | reset

def Device.step (d : Device) : DeviceEvent → Option Device
  | .ota msg idf =>
    let calls := d.calls ++ (otaIteration d.task idf msg).1
    match (otaIteration d.task idf msg).2 with
    | some task => some { d with task := task, calls := calls }
    | none => some (.boot (writtenSinceBegin d.task.updateHandle calls) (some d.running))
  | .validate err =>
    if d.validationPending then some (otaSetValid { d with validationPending := false } true err) else none
  | .reset => some d.reset

/-- The call begins an image. -/
def OtaCall.begins : OtaCall → Bool
  | .otaBegin _ _ .espOk => true
  | _ => false

/-- The ESP-IDF answers as documented: the description asked for is that of the running image, no image is begun while
that one is still to be verified, and writes and ends succeed through open handles only. -/
structure Device.Answered (d : Device) (msg : OtaMsg (List UInt8)) (idf : Idf) : Prop where
  runningAppInfo : idf.runningAppInfo = newAppInfo d.running
  begun : ∀ call ∈ (otaIteration d.task idf msg).1, call.begins = true → d.previous = none
  documented : Documented (d.calls ++ (otaIteration d.task idf msg).1)

instance (d : Device) (msg : OtaMsg (List UInt8)) (idf : Idf) : Decidable (d.Answered msg idf) :=
  decidable_of_iff (idf.runningAppInfo = newAppInfo d.running ∧
      (∀ call ∈ (otaIteration d.task idf msg).1, call.begins = true → d.previous = none) ∧
      Documented (d.calls ++ (otaIteration d.task idf msg).1))
    ⟨fun h => ⟨h.1, h.2.1, h.2.2⟩, fun h => ⟨h.runningAppInfo, h.begun, h.documented⟩⟩

def Device.Documented (d : Device) : DeviceEvent → Prop
  | .ota msg idf => d.Answered msg idf
  | _ => True

instance (d : Device) (e : DeviceEvent) : Decidable (d.Documented e) := by
  unfold Device.Documented
  split <;> infer_instance

/-- The images found valid. -/
def Device.confirmed (d : Device) : DeviceEvent → List (List UInt8)
  | .validate .espOk => if d.validationPending then [d.running] else []
  | _ => []

/-- The images found valid in a life that begins with `image`. -/
def confirmedAlong (image : List UInt8) (es : List DeviceEvent) : List (List UInt8) :=
  image :: collect Device.step Device.confirmed (.boot image none) es

/-- The version of an image is the greater one for `strcmp`, the order of `is_firmware_updated`. -/
def NewerByStrcmp (new old : List UInt8) : Prop := cstr (version (newAppInfo old)) < cstr (version (newAppInfo new))

instance : IsTrans (List UInt8) NewerByStrcmp := ⟨fun _ _ _ hab hbc => List.lt_trans hbc hab⟩

/-- Each of the images found valid is newer than those before it, and what runs is the last of them or a newer one on
trial that is given up for it. -/
def Device.Rising (newer : List UInt8 → List UInt8 → Prop) (images : List (List UInt8)) (d : Device) : Prop :=
  images.Pairwise (fun old new => newer new old) ∧
    ∃ last, images.getLast? = some last ∧
      (d.previous = none ∧ d.running = last ∨ d.previous = some last ∧ newer d.running last)

/-- The versions of the images are these releases, and `strcmp` puts any two of them in release order. -/
structure ReleasedInOrder (release : List UInt8 → List Nat) (images : List (List UInt8)) : Prop where
  version : ∀ image ∈ images, cstr (version (newAppInfo image)) = dotted (release image)
  inOrder : ∀ old ∈ images, ∀ new ∈ images, FirstDifferenceInOrder (release old) (release new)

/-- A whole header, of a version newer than the running one. -/
structure Supersedes (image running : List UInt8) : Prop where
  length : imageHeadersSize + appDescSize ≤ image.length
  newer : NewerByStrcmp image running

variable {s t : OtaTask} {d u : Device} {idf : Idf} {msg : OtaMsg (List UInt8)} {calls trace : List OtaCall}
  {image running : List UInt8}

/-! ## What is written -/

theorem newAppInfo_append (h : imageHeadersSize + appDescSize ≤ image.length) (data : List UInt8) :
    newAppInfo (image ++ data) = newAppInfo image := by
  unfold newAppInfo
  rw [List.drop_append_of_le_length (by omega), List.take_append_of_le_length (by rw [List.length_drop]; omega)]

theorem Supersedes.append (h : Supersedes image running) (data : List UInt8) : Supersedes (image ++ data) running := by
  refine ⟨?_, ?_⟩
  · have := h.length
    rw [List.length_append]
    omega
  · unfold NewerByStrcmp
    rw [newAppInfo_append h.length]
    exact h.newer

theorem supersedes_of_accepted (hr : idf.runningAppInfo = newAppInfo running) (h : headerAccepted idf image = true) :
    Supersedes image running := by
  simp only [headerAccepted, Bool.and_eq_true, decide_eq_true_eq, isFirmwareUpdated_iff, hr] at h
  exact ⟨h.1.1.le, h.1.2⟩

/-- What holds of every first packet let through, and goes on to hold as more is written, holds of all that is written
through an open handle. -/
theorem Iteration.opened {P : List UInt8 → Prop} {left : Option OtaTask} (h : Iteration s idf msg calls left)
    (hs : s.Ok trace) (hw : ∀ h, isOpen h trace = true → P (writtenSinceBegin h trace))
    (hfirst : ∀ partition handle data, .otaBegin partition handle .espOk ∈ calls → headerAccepted idf data = true →
      P data)
    (happend : ∀ image data, P image → P (image ++ data)) (handle : Handle)
    (ho : isOpen handle (trace ++ calls) = true) : P (writtenSinceBegin handle (trace ++ calls)) := by
  rw [isOpen_append] at ho
  rw [writtenSinceBegin_append]
  cases h with
  | started | noPartition | ignored | again | rejected => exact hw handle ho
  | beginFailed => exact hw handle ho
  | @firstWritten data _ hchecked haccepted =>
    have hclosed : isOpen handle trace = false := hs.closed (.inr hchecked) handle
    have hown : idf.updateHandle = handle := by simpa [OtaCall.opened, hclosed] using ho
    simp only [List.foldl_cons, List.foldl_nil, OtaCall.image, hown, if_true, List.nil_append]
    exact hfirst _ _ data List.mem_cons_self haccepted
  | firstFailed _ hchecked _ =>
    have hclosed : isOpen handle trace = false := hs.closed (.inr hchecked) handle
    simp [OtaCall.opened, hclosed] at ho
  | @written data _ _ =>
    have himage : P (writtenSinceBegin handle trace) := hw handle ho
    simp only [List.foldl_cons, List.foldl_nil, OtaCall.image]
    split
    · exact happend _ data himage
    · exact himage
  | writeFailed | endFailed | setBootFailed | restarted =>
    simp only [List.foldl_cons, List.foldl_nil, OtaCall.opened, Bool.and_eq_true] at ho
    exact hw handle ho.2

/-! ## From boot to boot -/

/-- What is being written supersedes what runs, and nothing is written while that is on trial. -/
structure Device.Ok (d : Device) : Prop where
  task : d.task.Ok d.calls
  writing : ∀ h, isOpen h d.calls = true → d.previous = none ∧ Supersedes (writtenSinceBegin h d.calls) d.running
  posted : d.validationPending = true → d.previous ≠ none

def Device.slots (d : Device) : Rollback.Slots (List UInt8) := ⟨d.running, d.previous⟩

theorem Device.Ok.boot (running : List UInt8) (previous : Option (List UInt8)) : (Device.boot running previous).Ok :=
  ⟨ok_boot, by simp [Device.boot, isOpen], by simp [Device.boot, Option.isSome_iff_ne_none]⟩

theorem Device.Ok.reset (d : Device) : d.reset.Ok := by
  unfold Device.reset
  split <;> exact .boot _ _

theorem Device.reset_step (d : Device) : d.slots.Step NewerByStrcmp [] d.reset.slots := by
  unfold Device.reset
  split
  · next image hprevious => exact .rollBack image hprevious
  · next hprevious =>
    have hslots : d.slots = ⟨d.running, none⟩ := by rw [slots, hprevious]
    rw [hslots]
    exact .keep

/-- An iteration leaves the images as they are, or puts a newer one on trial. -/
theorem Device.Ok.ota (h : d.Ok) (hd : d.Answered msg idf) (hu : d.step (.ota msg idf) = some u) :
    u.Ok ∧ d.slots.Step NewerByStrcmp [] u.slots := by
  have hiter := otaIteration_spec h.task.next idf msg
  have hwritten := hiter.opened (P := fun image => d.previous = none ∧ Supersedes image d.running) h.task h.writing
    (fun _ _ _ hbegin haccepted =>
      ⟨hd.begun _ hbegin rfl, supersedes_of_accepted hd.runningAppInfo haccepted⟩)
    (fun _ data himage => ⟨himage.1, himage.2.append data⟩)
  have hdocumented := hd.documented
  simp only [Device.step] at hu
  generalize (otaIteration d.task idf msg).1 = calls at hiter hwritten hdocumented hu
  generalize (otaIteration d.task idf msg).2 = left at hiter hu
  cases left with
  | some t =>
    cases hu
    exact ⟨⟨hiter.ok h.task, hwritten, h.posted⟩, .keep⟩
  | none =>
    cases hu
    refine ⟨.boot _ _, ?_⟩
    cases hiter with
    | restarted =>
      -- The end that succeeded was that of an open handle.
      have hopen : isOpen d.task.updateHandle d.calls = true := hdocumented.split
      obtain ⟨hprevious, hsupersedes⟩ := h.writing _ hopen
      refine .install _ hprevious ?_
      rw [writtenSinceBegin_append]
      exact hsupersedes.newer

theorem Device.Ok.step {e : DeviceEvent} (h : d.Ok) (hd : d.Documented e) (hu : d.step e = some u) :
    u.Ok ∧ d.slots.Step NewerByStrcmp (d.confirmed e) u.slots := by
  cases e with
  | ota msg idf => exact h.ota hd hu
  | reset =>
    cases hu
    exact ⟨.reset d, d.reset_step⟩
  | validate err =>
    simp only [Device.step] at hu
    split at hu
    · next hpending =>
      cases hu
      cases err with
      | espOk =>
        obtain ⟨image, hprevious⟩ := Option.ne_none_iff_exists'.mp (h.posted hpending)
        refine ⟨⟨h.task, fun handle ho => ⟨rfl, (h.writing handle ho).2⟩, by simp [otaSetValid]⟩, ?_⟩
        simp only [Device.confirmed, hpending, if_true]
        exact .approve image hprevious
      | espFail => exact ⟨⟨h.task, h.writing, by simp [otaSetValid]⟩, .keep⟩
    · cases hu

/-! ## Release order -/

theorem ReleasedInOrder.newer_iff {release : List UInt8 → List Nat} {images : List (List UInt8)} {old new : List UInt8}
    (h : ReleasedInOrder release images) (hold : old ∈ images) (hnew : new ∈ images) :
    NewerByStrcmp new old ↔ release old < release new := by
  rw [NewerByStrcmp, h.version old hold, h.version new hnew]
  exact dotted_lt_iff_iff.mpr (h.inOrder old hold new hnew)

theorem Device.Rising.released {release : List UInt8 → List Nat} {images : List (List UInt8)}
    (h : d.Rising NewerByStrcmp images) (hr : ReleasedInOrder release (d.running :: images)) :
    d.Rising (fun new old => release old < release new) images := by
  obtain ⟨hpairwise, last, hlast, hruns⟩ := h
  have hmem : last ∈ images := List.mem_of_getLast? hlast
  refine ⟨hpairwise.imp_of_mem fun hold hnew hnewer => ?_, last, hlast, hruns.imp id fun ⟨hprevious, hnewer⟩ => ?_⟩
  · exact (hr.newer_iff (List.mem_cons_of_mem _ hold) (List.mem_cons_of_mem _ hnew)).mp hnewer
  · exact ⟨hprevious, (hr.newer_iff (List.mem_cons_of_mem _ hmem) List.mem_cons_self).mp hnewer⟩

/-- **No upload, failure or loss of power brings the device back behind an image it was found valid with**, in the
order of `strcmp`. Over its whole life the images found valid have rising versions; what runs is the last of them, or a
newer one on trial that the device leaves for the last of them. Where `strcmp` puts their versions in release order,
all of this is so of their releases. -/
theorem confirmed_images_rise (image : List UInt8) (es : List DeviceEvent) (d : Device)
    (hrun : exec Device.step (.boot image none) es = some d)
    (hdoc : Along Device.step Device.Documented (.boot image none) es) :
    d.Rising NewerByStrcmp (confirmedAlong image es) ∧
      ∀ release, ReleasedInOrder release (d.running :: confirmedAlong image es) →
        d.Rising (fun new old => release old < release new) (confirmedAlong image es) := by
  obtain ⟨-, hrising⟩ := Rollback.rising_run (I := Device.Ok) Device.slots hrun hdoc (.boot image none)
    rfl fun _ _ _ hok hl hstep => hok.step hl hstep
  suffices h : d.Rising NewerByStrcmp (confirmedAlong image es) from ⟨h, fun release => h.released⟩
  refine ⟨hrising.pairwise, d.slots.approved, hrising.last, ?_⟩
  cases hprevious : d.previous with
  | none => exact .inl ⟨rfl, by simp [Rollback.Slots.approved, Device.slots, hprevious]⟩
  | some old =>
    have happroved : d.slots.approved = old := by simp [Rollback.Slots.approved, Device.slots, hprevious]
    rw [happroved]
    exact .inr ⟨rfl, hrising.trial old hprevious⟩

/-- What the ESP-IDF answers while the image of that version runs. -/
def whileRunning (v : UInt8) : Idf where
  nextUpdatePartition := some 1
  runningAppInfo := newAppInfo (leastImage v)
  updateHandle := 7

/-- Version 2 comes and is found valid; version 3 comes, and the power fails before it is. -/
def failedUpdateEvents : List DeviceEvent :=
  [.ota .dataArrivalStarting (whileRunning 49), .ota (.dataPacketArrived (leastImage 50)) (whileRunning 49),
    .ota .dataCompletion (whileRunning 49), .validate .espOk,
    .ota .dataArrivalStarting (whileRunning 50), .ota (.dataPacketArrived (leastImage 51)) (whileRunning 50),
    .ota .dataCompletion (whileRunning 50), .reset]

/-- The release of a version of one digit. -/
def oneDigit (image : List UInt8) : List Nat := (cstr (version (newAppInfo image))).map fun b => b.toNat - 48

theorem confirmed_images_rise_failed_update :
    ∃ d, exec Device.step (.boot (leastImage 49) none) failedUpdateEvents = some d ∧ d.running = leastImage 50 ∧
      d.Rising NewerByStrcmp (confirmedAlong (leastImage 49) failedUpdateEvents) ∧
      d.Rising (fun new old => oneDigit old < oneDigit new) (confirmedAlong (leastImage 49) failedUpdateEvents) := by
  have hrise := confirmed_images_rise (leastImage 49) failedUpdateEvents (.boot (leastImage 50) none)
    (by decide +kernel) (by decide +kernel)
  refine ⟨.boot (leastImage 50) none, by decide +kernel, rfl, hrise.1, hrise.2 oneDigit ⟨by decide +kernel, ?_⟩⟩
  have hdigits : ∀ image ∈ (Device.boot (leastImage 50) none).running ::
      confirmedAlong (leastImage 49) failedUpdateEvents, ∀ n ∈ oneDigit image, n < 10 := by decide +kernel
  intro old hold new hnew
  exact firstDifferenceInOrder_of_lt_ten (hdigits old hold) (hdigits new hnew)

end GateNode.Ota
