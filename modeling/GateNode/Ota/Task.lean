/-
`ota_service.c`: the iterations of `ota_task`, one for each message it
receives. What the ESP-IDF calls of an iteration answer comes with the
message; the calls that touch an image are recorded with their answers.
-/
import GateNode.Http.Upload

namespace GateNode.Ota

open CString
open GateNode.Http (EspErr HttpServerEvent)

/-- `ota_event_msg_t`, by its event; the other events come with no data. -/
inductive OtaMsg (δ : Type)
  | dataArrivalStarting
  | dataPacketArrived (data : δ)
  | dataCompletion
deriving DecidableEq

/-- `routine_http_server_events_handler`: what it passes on to the OTA service. -/
def routineHttpServerEventsHandler {δ : Type} : HttpServerEvent δ → Option (OtaMsg δ)
  | .fileTransferStarted => some .dataArrivalStarting
  | .fileChunkArrived data => some (.dataPacketArrived data)
  | .fileTransferFailed => none
  | .fileTransferComplete => some .dataCompletion

inductive OtaState
  | idle
  | active
deriving DecidableEq, Repr

/-- `esp_ota_handle_t`. -/
abbrev Handle := UInt32

/-- An `esp_partition_t *` that is not NULL. -/
abbrev Partition := UInt32

/-- `ota_service_state` and the variables of `ota_task`. -/
structure OtaTask where
  state : OtaState := .idle
  imageHeaderWasChecked : Bool := false
  nextState : OtaState := .idle
  updateHandle : Handle := 0
  updatePartition : Option Partition := none
deriving DecidableEq

/-- What the ESP-IDF answers in one iteration, to the calls the iteration makes. -/
structure Idf where
  /-- `esp_ota_get_next_update_partition`. -/
  nextUpdatePartition : Option Partition := none
  /-- `running_app_info` as `esp_ota_get_partition_description` leaves it, whether it fails or not. -/
  runningAppInfo : List UInt8 := []
  /-- `esp_ota_get_last_invalid_partition` finds one and its description is read. -/
  invalidAppInfo : Option (List UInt8) := none
  otaBegin : EspErr := .espOk
  /-- `update_handle` as `esp_ota_begin` leaves it, whether it fails or not. -/
  updateHandle : Handle := 0
  otaWrite : EspErr := .espOk
  otaEnd : EspErr := .espOk
  otaSetBootPartition : EspErr := .espOk
deriving DecidableEq

/-- The calls on images, with their answers. -/
inductive OtaCall
  | otaBegin (partition : Option Partition) (handle : Handle) (err : EspErr)
  | otaWrite (handle : Handle) (data : List UInt8) (err : EspErr)
  | otaAbort (handle : Handle)
  | otaEnd (handle : Handle) (err : EspErr)
  | otaSetBootPartition (partition : Option Partition) (err : EspErr)
deriving DecidableEq

/-! ## The image header -/

/-- `sizeof(esp_image_header_t) + sizeof(esp_image_segment_header_t)`. -/
def imageHeadersSize : Nat := 24 + 8

/-- `sizeof(esp_app_desc_t)`. -/
def appDescSize : Nat := 256

/-- Where `version` stands in an `esp_app_desc_t`. -/
def versionOffset : Nat := 16

def version (appInfo : List UInt8) : List UInt8 := appInfo.drop versionOffset

/-- `new_app_info`, as copied out of the first packet. -/
def newAppInfo (data : List UInt8) : List UInt8 := (data.drop imageHeadersSize).take appDescSize

def isFirmwareUpdated (runningVersion newVersion : List UInt8) : Bool :=
  strcmp newVersion runningVersion > 0

def isItLastInvalidApp (idf : Idf) (newVersion : List UInt8) : Bool :=
  match idf.invalidAppInfo with
  | none => false
  | some invalidAppInfo => strcmp (version invalidAppInfo) newVersion = 0

/-- The three checks of a first packet: its length, a newer version, and one
that is not the last invalid one. -/
def headerAccepted (idf : Idf) (data : List UInt8) : Bool :=
  data.length > imageHeadersSize + appDescSize &&
    isFirmwareUpdated (version idf.runningAppInfo) (version (newAppInfo data)) &&
    !isItLastInvalidApp idf (version (newAppInfo data))

/-! ## One iteration -/

/-- `case OTA_STATE_IDLE`. -/
def idleCase (s : OtaTask) (idf : Idf) : OtaMsg (List UInt8) → OtaTask
  | .dataArrivalStarting =>
    match idf.nextUpdatePartition with
    | some partition => { s with updatePartition := some partition, nextState := .active }
    | none => { s with updatePartition := none }
  | _ => s

/-- The block under `image_header_was_checked == false`: the calls made, the
variables left, and whether it falls through to the write. -/
def checkHeader (s : OtaTask) (idf : Idf) (data : List UInt8) : List OtaCall × OtaTask × Bool :=
  if headerAccepted idf data then
    let t := { s with imageHeaderWasChecked := true, updateHandle := idf.updateHandle }
    let call := .otaBegin s.updatePartition idf.updateHandle idf.otaBegin
    match idf.otaBegin with
    | .espOk => ([call], t, true)
    | .espFail => ([call], { t with nextState := .idle }, false)
  else
    ([], { s with nextState := .idle }, false)

def writePacket (s : OtaTask) (idf : Idf) (data : List UInt8) : List OtaCall × OtaTask :=
  match idf.otaWrite with
  | .espOk => ([.otaWrite s.updateHandle data .espOk], s)
  | .espFail =>
    ([.otaWrite s.updateHandle data .espFail, .otaAbort s.updateHandle], { s with nextState := .idle })

def packetArrived (s : OtaTask) (idf : Idf) (data : List UInt8) : List OtaCall × OtaTask :=
  if s.imageHeaderWasChecked then
    writePacket s idf data
  else
    match checkHeader s idf data with
    | (calls, t, true) => (calls ++ (writePacket t idf data).1, (writePacket t idf data).2)
    | (calls, t, false) => (calls, t)

/-- The completion event in `OTA_STATE_ACTIVE`; no state is left by `esp_restart`. -/
def completion (s : OtaTask) (idf : Idf) : List OtaCall × Option OtaTask :=
  match idf.otaEnd with
  | .espFail => ([.otaEnd s.updateHandle .espFail], some { s with nextState := .idle })
  | .espOk =>
    let calls := [.otaEnd s.updateHandle .espOk, .otaSetBootPartition s.updatePartition idf.otaSetBootPartition]
    match idf.otaSetBootPartition with
    | .espFail => (calls, some { s with nextState := .idle })
    | .espOk => (calls, none)

/-- `case OTA_STATE_ACTIVE`. -/
def activeCase (s : OtaTask) (idf : Idf) : OtaMsg (List UInt8) → List OtaCall × Option OtaTask
  | .dataArrivalStarting => ([], some s)
  | .dataPacketArrived data => ((packetArrived s idf data).1, some (packetArrived s idf data).2)
  | .dataCompletion => completion s idf

/-- An iteration: the calls made, and the variables left unless the device restarts. -/
def otaIteration (s : OtaTask) (idf : Idf) (msg : OtaMsg (List UInt8)) : List OtaCall × Option OtaTask :=
  let (calls, left) := match s.state with
    | .idle => ([], some (idleCase s idf msg))
    | .active => activeCase s idf msg
  (calls, left.map fun t => { t with state := t.nextState })

/-- The buffer given back at the end of an iteration. -/
def bufferUsed {δ : Type} : OtaMsg δ → Option δ
  | .dataPacketArrived data => some data
  | _ => none

end GateNode.Ota
