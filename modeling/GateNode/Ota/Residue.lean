/-
The header check of `ota_task` over the memory it finds. Its descriptions are
locals that nothing initialises: the first packet fills one, and a read of a
partition another, if it succeeds. A read that fails leaves what the stack
held before, and of the running firmware that is compared all the same.
-/
import GateNode.Ota.BootImage
import GateNode.Ota.Version

namespace GateNode.Ota

open CString

/-- The bytes of an `esp_app_desc_t`. -/
structure AppDesc where
  bytes : List UInt8
  size : bytes.length = appDescSize
deriving DecidableEq

/-- `memcpy` of as much of `src` as an `esp_app_desc_t` holds. -/
def AppDesc.copy (desc : AppDesc) (src : List UInt8) : AppDesc where
  bytes := src.take appDescSize ++ desc.bytes.drop src.length
  size := by
    have := desc.size
    simp only [List.length_append, List.length_take, List.length_drop]
    omega

/-- What the locals of the check hold before it. -/
structure HeaderLocals where
  newAppInfo : AppDesc
  runningAppInfo : AppDesc
  invalidAppInfo : AppDesc

/-- What the ESP-IDF answers the check: a description where the read succeeds. -/
structure HeaderReads where
  running : Option AppDesc
  /-- Of the last invalid partition, where there is one. -/
  lastInvalid : Option (Option AppDesc)

/-- `esp_ota_get_partition_description`: whether it succeeds, and the description it leaves. -/
def otaGetPartitionDescription (read : Option AppDesc) (before : AppDesc) : Bool × AppDesc :=
  match read with
  | some desc => (true, desc)
  | none => (false, before)

/-- `is_it_last_invalid_app`, with its local. -/
def isItLastInvalidAppOver (invalidAppInfo : AppDesc) (lastInvalid : Option (Option AppDesc))
    (newVersion : List UInt8) : Bool :=
  match lastInvalid with
  | none => false
  | some read =>
    match otaGetPartitionDescription read invalidAppInfo with
    | (false, _) => false
    | (true, invalidAppInfo) => strcmp (version invalidAppInfo.bytes) newVersion = 0

/-- Where the check leads: to `esp_ota_begin`, or back to `OTA_STATE_IDLE`. -/
inductive Branch
  | begin
  | idle
deriving DecidableEq

/-- The check of a first packet, over what the locals hold. -/
def headerCheck (locals : HeaderLocals) (reads : HeaderReads) (data : List UInt8) : Branch :=
  if data.length > imageHeadersSize + appDescSize then
    let newAppInfo := locals.newAppInfo.copy (data.drop imageHeadersSize)
    -- Whether the read succeeded matters to the log only.
    let (_, runningAppInfo) := otaGetPartitionDescription reads.running locals.runningAppInfo
    if isFirmwareUpdated (version runningAppInfo.bytes) (version newAppInfo.bytes) = false then
      .idle
    else if isItLastInvalidAppOver locals.invalidAppInfo reads.lastInvalid (version newAppInfo.bytes) = true then
      .idle
    else
      .begin
  else
    .idle

/-! ## The check of `Task` -/

/-- The answers as an iteration of `Task` takes them. -/
def HeaderReads.idf (reads : HeaderReads) (locals : HeaderLocals) (idf : Idf) : Idf :=
  { idf with
    runningAppInfo := (reads.running.getD locals.runningAppInfo).bytes
    invalidAppInfo := reads.lastInvalid.join.map AppDesc.bytes }

variable {locals : HeaderLocals} {reads : HeaderReads} {data : List UInt8}

theorem copy_bytes (desc : AppDesc) (h : data.length > imageHeadersSize + appDescSize) :
    (desc.copy (data.drop imageHeadersSize)).bytes = newAppInfo data := by
  have hdrop : desc.bytes.drop (data.drop imageHeadersSize).length = [] := by
    rw [List.drop_eq_nil_iff, desc.size, List.length_drop]
    omega
  show (data.drop imageHeadersSize).take appDescSize ++ _ = _
  rw [hdrop, List.append_nil, newAppInfo]

/-- The local of `is_it_last_invalid_app` is read only once it is filled. -/
theorem isItLastInvalidAppOver_eq (desc : AppDesc) (locals : HeaderLocals) (idf : Idf) (newVersion : List UInt8) :
    isItLastInvalidAppOver desc reads.lastInvalid newVersion =
      isItLastInvalidApp (reads.idf locals idf) newVersion := by
  unfold isItLastInvalidAppOver isItLastInvalidApp HeaderReads.idf
  rcases reads.lastInvalid with _ | _ | invalid <;> rfl

/-- The check is that of `Task`, of the running description it finds itself with. -/
theorem headerCheck_begin (locals : HeaderLocals) (reads : HeaderReads) (data : List UInt8) (idf : Idf) :
    headerCheck locals reads data = .begin ↔ headerAccepted (reads.idf locals idf) data = true := by
  unfold headerCheck headerAccepted
  by_cases hlen : data.length > imageHeadersSize + appDescSize
  · have hrunning : (otaGetPartitionDescription reads.running locals.runningAppInfo).2.bytes =
        (reads.idf locals idf).runningAppInfo := by
      unfold otaGetPartitionDescription HeaderReads.idf
      cases reads.running <;> rfl
    simp only [if_pos hlen, hrunning, copy_bytes _ hlen, isItLastInvalidAppOver_eq _ locals idf]
    cases isFirmwareUpdated (version (reads.idf locals idf).runningAppInfo) (version (newAppInfo data)) <;>
      cases isItLastInvalidApp (reads.idf locals idf) (version (newAppInfo data)) <;> simp [hlen]
  · simp [hlen]

/-! ## Two runs of the check -/

/-- The version in the packet is that of the last invalid partition. -/
def HeaderReads.LastInvalid (reads : HeaderReads) (data : List UInt8) : Prop :=
  ∃ desc, reads.lastInvalid = some (some desc) ∧ cstr (version desc.bytes) = cstr (version (newAppInfo data))

theorem isItLastInvalidAppOver_iff (desc : AppDesc) :
    isItLastInvalidAppOver desc reads.lastInvalid (version (newAppInfo data)) = true ↔ reads.LastInvalid data := by
  unfold isItLastInvalidAppOver HeaderReads.LastInvalid
  rcases reads.lastInvalid with _ | _ | invalid
  · simp
  · simp [otaGetPartitionDescription]
  · simp [otaGetPartitionDescription, strcmp_eq_zero]

/-- What the check asks, and of which memory. -/
theorem headerCheck_begin_iff (locals : HeaderLocals) (reads : HeaderReads) (data : List UInt8) :
    headerCheck locals reads data = .begin ↔
      data.length > imageHeadersSize + appDescSize ∧
        cstr (version (reads.running.getD locals.runningAppInfo).bytes) < cstr (version (newAppInfo data)) ∧
        ¬ reads.LastInvalid data := by
  rw [← isItLastInvalidAppOver_iff locals.invalidAppInfo, isItLastInvalidAppOver_eq _ locals {},
    headerCheck_begin locals reads data {}, headerAccepted, ← isFirmwareUpdated_iff]
  simp [and_assoc, HeaderReads.idf]

theorem branch_eq_iff {b c : Branch} : b = c ↔ (b = .begin ↔ c = .begin) := by
  cases b <;> cases c <;> simp

/-- A description of nothing but zeros. -/
def AppDesc.zeros : AppDesc := ⟨List.replicate appDescSize 0, List.length_replicate⟩

theorem version_zeros : cstr (version AppDesc.zeros.bytes) = [] := by decide +kernel

end GateNode.Ota
