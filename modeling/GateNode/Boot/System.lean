/-
The start of the node: the calls of `app_main` up to its loop, and the
messages and HTTP requests that arrive meanwhile. Every order of their steps
is a run.

A step of the initialisation may fail. What follows is its caller's: to go on
as if it had not, to return, or to panic, after which the node starts anew.
So does a call of a null pointer.
-/
import GateNode.Lock.System
import GateNode.Http.Server

namespace GateNode.Boot

/-- The members of `lock_system_lock_interface_t`. -/
inductive LockFunction
  | setLockClose
  | setLockOpen
  | getLockStatus
deriving DecidableEq, Repr

inductive Uri
  | root
  | loginHtml
  | dashboardHtml
  | otaHtml
  | loginJs
  | dashboardJs
  | otaJs
  | auth
  | otaUpload
  | logout
  | checkAuth
deriving DecidableEq, Repr

/-- `app_main` and those of the functions it calls that are taken apart. -/
inductive InitFunction
  | appMain
  | linearLockCreate
  | otaServiceInit
  | httpServerInit
deriving DecidableEq, Repr

inductive InitStep
  | espFlashInit
  | guiOpInit
  | syncManagerInit
  | eventSystemAdapterInit
  | routineHandlerInit
  | wifiStationInit
  | lcdInit
  | espNowTransportInit
  | peerRegistryInit
  | peerRegistryAddPeer
  | discoveryServiceInit
  | messageCodecInit
  /- `linear_lock_create` -/
  | gpioConfig
  | commandQueueCreate
  | lockTaskCreate
  | storeUnlockHoldDuration (ms : UInt32)
  | lockTimerCreate
  | storeLockFunction (f : LockFunction)
  | lockDriveInit
  /- `app_main` again -/
  | guiInformBooting
  | startDiscovery
  | syncManagerSignalWait
  | espNowTransportAddPeer
  | guiInformApInit
  /- `ota_service_init` -/
  | otaQueueCreate
  | otaTaskCreate
  | registerValidationPending
  | registerDataBufferUsed
  | checkValidationPending
  /- `http_server_init` -/
  | bufferQueueCreate
  | bufferQueueSend (buffer : Nat)
  | httpdStart
  | httpdRegisterUriHandler (uri : Uri)
  | registerHttpServerEvent (event : Http.HttpServerEvent Unit)
deriving DecidableEq

def InitStep.function : InitStep → InitFunction
  | .gpioConfig | .commandQueueCreate | .lockTaskCreate | .storeUnlockHoldDuration _ | .lockTimerCreate
  | .storeLockFunction _ | .lockDriveInit => .linearLockCreate
  | .otaQueueCreate | .otaTaskCreate | .registerValidationPending | .registerDataBufferUsed
  | .checkValidationPending => .otaServiceInit
  | .bufferQueueCreate | .bufferQueueSend _ | .httpdStart | .httpdRegisterUriHandler _
  | .registerHttpServerEvent _ => .httpServerInit
  | _ => .appMain

def linearLockCreate : List InitStep :=
  [.gpioConfig, .commandQueueCreate, .lockTaskCreate, .storeUnlockHoldDuration 5000, .lockTimerCreate,
    .storeLockFunction .setLockClose, .storeLockFunction .setLockOpen, .storeLockFunction .getLockStatus,
    .lockDriveInit]

def otaServiceInit : List InitStep :=
  [.otaQueueCreate, .otaTaskCreate, .registerValidationPending, .registerDataBufferUsed, .checkValidationPending]

def totalChunkBuffers : Nat := 3

/-- In the order of their registration. -/
def uris : List Uri :=
  [.root, .loginHtml, .dashboardHtml, .otaHtml, .loginJs, .dashboardJs, .otaJs, .auth, .otaUpload, .logout,
    .checkAuth]

/-- The events of HTTP_SERVER, in the order of their registration. -/
def httpServerEvents : List (Http.HttpServerEvent Unit) :=
  [.fileTransferStarted, .fileChunkArrived (), .fileTransferFailed, .fileTransferComplete]

def httpServerInit : List InitStep :=
  .bufferQueueCreate :: (List.range totalChunkBuffers).map .bufferQueueSend ++ .httpdStart ::
    (uris.map .httpdRegisterUriHandler ++ httpServerEvents.map .registerHttpServerEvent)

/-- `app_main` up to its loop. -/
def appMain : List InitStep :=
  [.espFlashInit, .guiOpInit, .syncManagerInit, .eventSystemAdapterInit, .routineHandlerInit, .wifiStationInit,
    .lcdInit, .espNowTransportInit, .peerRegistryInit, .peerRegistryAddPeer, .discoveryServiceInit,
    .messageCodecInit] ++
  linearLockCreate ++
  [.guiInformBooting, .startDiscovery, .syncManagerSignalWait, .espNowTransportAddPeer, .guiInformApInit] ++
  otaServiceInit ++ httpServerInit

/-- What becomes of a failure. -/
inductive Failure
  | ignored
  | returns
  | panics
deriving DecidableEq, Repr

/-- What the code does when the step fails, of those that can. -/
def InitStep.failure : InitStep → Option Failure
  -- Of `esp_now_transport_init` only ESP_FAIL is a failure to `app_main`.
  | .espFlashInit | .wifiStationInit | .espNowTransportInit | .commandQueueCreate | .lockTaskCreate => some .panics
  -- These two check their own calls with ESP_ERROR_CHECK.
  | .guiOpInit | .lcdInit => some .panics
  -- `app_main` reads a member of the registry before it compares it with NULL.
  | .peerRegistryInit => some .panics
  | .lockTimerCreate | .otaQueueCreate | .otaTaskCreate | .bufferQueueCreate | .httpdStart => some .returns
  | .storeUnlockHoldDuration _ | .storeLockFunction _ | .syncManagerSignalWait | .bufferQueueSend _ => none
  | _ => some .ignored

/-! ## Messages and requests -/

inductive MessageEvent
  | commandOpenGate
  | commandCloseGate
  | commandSendGateStatus
  | gateStatusArrived
deriving DecidableEq, Repr

/-- `routine_message_codec_events_handler`: the member of the interface it calls. -/
def routineMessageCodecEventsHandler : MessageEvent → Option LockFunction
  | .commandOpenGate => some .setLockOpen
  | .commandCloseGate => some .setLockClose
  | .commandSendGateStatus => some .getLockStatus
  | .gateStatusArrived => none

/-- What the function behind a member asks of the lock; `get_lock_status` only reads. -/
def LockFunction.request : LockFunction → Option Lock.Request
  | .setLockClose => some .motorClose
  | .setLockOpen => some .motorOpen
  | .getLockStatus => none

def uriOf : Http.Request → Uri
  | .auth _ => .auth
  | .logout _ => .logout
  | .checkAuth _ => .checkAuth
  | .otaUpload _ _ => .otaUpload

/-! ## All of it -/

structure System where
  /-- What is left of `app_main`. -/
  pending : List InitStep := appMain
  /-- The steps that succeeded. -/
  done : List InitStep := []
  lock : Lock.System := .boot 0
  /-- What the request being served has still to post. -/
  posts : List (Http.HttpServerEvent (List UInt8)) := []
deriving DecidableEq

def System.boot : System := {}

/-- `lock_drive_state`. -/
def System.drive (s : System) : Lock.LockDriveState := if .lockDriveInit ∈ s.done then Lock.lockDriveInit else {}

def System.Registered (s : System) : Prop := ∀ e ∈ httpServerEvents, .registerHttpServerEvent e ∈ s.done

instance (s : System) : Decidable s.Registered := by unfold System.Registered; infer_instance

/-- A step that succeeded; one of them has an effect on what is modelled here. -/
def System.succeed (s : System) (x : InitStep) (rest : List InitStep) : System :=
  let s := { s with pending := rest, done := s.done ++ [x] }
  match x with
  | .storeUnlockHoldDuration ms => { s with lock := { s.lock with lock.unlockHoldDuration := ms } }
  | _ => s

/-- A step that failed. -/
def System.fail (s : System) (x : InitStep) (rest : List InitStep) : Failure → System
  | .ignored => { s with pending := rest }
  -- The rest of its function is left out.
  | .returns => { s with pending := rest.dropWhile fun y => y.function = x.function }
  | .panics => .boot

inductive Event
  /-- The next call of the initialisation returns. -/
  | init (ok : Bool)
  /-- A message event is handled. -/
  | message (m : MessageEvent)
  /-- A step of `lock_task` or of its timer. -/
  | lock (e : Lock.Event)
  /-- The server takes a request. -/
  | request (r : Http.Request)
  /-- The handler of the request posts its next event. -/
  | post

/-- The function behind a member is called. -/
def System.call (s : System) (f : LockFunction) : Option System :=
  match f.request with
  | none => some s
  | some r => (s.lock.step s.drive (.userSend r)).map fun l => { s with lock := l }

/-- One step. -/
def System.step (s : System) : Event → Option System
  | .init ok =>
    match s.pending with
    | [] => none
    | x :: rest => if ok then some (s.succeed x rest) else x.failure.map (s.fail x rest)
  | .message m =>
    if .messageCodecInit ∈ s.pending then
      none
    else
      match routineMessageCodecEventsHandler m with
      | none => some s
      | some f => if .storeLockFunction f ∈ s.done then s.call f else some .boot
  | .lock (.userSend _) => none
  | .lock e => (s.lock.step s.drive e).map fun l => { s with lock := l }
  | .request r =>
    if s.posts = [] ∧ .httpdStart ∈ s.done ∧ .httpdRegisterUriHandler (uriOf r) ∈ s.done then
      some { s with posts := r.events }
    else
      none
  | .post =>
    match s.posts with
    | [] => none
    | _ :: rest => some { s with posts := rest }

/-- What a step can do. -/
inductive System.Step (s : System) : Event → System → Prop
  | succeed (x : InitStep) (rest : List InitStep) (hp : s.pending = x :: rest) :
      Step s (.init true) (s.succeed x rest)
  | fail (x : InitStep) (rest : List InitStep) (hp : s.pending = x :: rest) (f : Failure) (hf : x.failure = some f) :
      Step s (.init false) (s.fail x rest f)
  | ignore (m : MessageEvent) (hc : .messageCodecInit ∉ s.pending)
      (hm : routineMessageCodecEventsHandler m = none) :
      Step s (.message m) s
  | nullCall (m : MessageEvent) (hc : .messageCodecInit ∉ s.pending) (f : LockFunction)
      (hm : routineMessageCodecEventsHandler m = some f) (hf : .storeLockFunction f ∉ s.done) :
      Step s (.message m) .boot
  | status (m : MessageEvent) (hc : .messageCodecInit ∉ s.pending) (f : LockFunction)
      (hm : routineMessageCodecEventsHandler m = some f) (hf : .storeLockFunction f ∈ s.done)
      (hr : f.request = none) :
      Step s (.message m) s
  | command (m : MessageEvent) (hc : .messageCodecInit ∉ s.pending) (f : LockFunction)
      (hm : routineMessageCodecEventsHandler m = some f) (hf : .storeLockFunction f ∈ s.done)
      (r : Lock.Request) (hr : f.request = some r) (l : Lock.System)
      (hl : s.lock.step s.drive (.userSend r) = some l) :
      Step s (.message m) { s with lock := l }
  | lock (e : Lock.Event) (he : ∀ r, e ≠ .userSend r) (l : Lock.System) (hl : s.lock.step s.drive e = some l) :
      Step s (.lock e) { s with lock := l }
  | request (r : Http.Request) (hp : s.posts = []) (hs : .httpdStart ∈ s.done)
      (hu : .httpdRegisterUriHandler (uriOf r) ∈ s.done) :
      Step s (.request r) { s with posts := r.events }
  | post (e : Http.HttpServerEvent (List UInt8)) (rest : List (Http.HttpServerEvent (List UInt8)))
      (hp : s.posts = e :: rest) :
      Step s .post { s with posts := rest }

theorem System.step_cases {s t : System} {e : Event} (h : s.step e = some t) : Step s e t := by
  cases e with
  | init ok =>
    simp only [step] at h
    split at h
    · cases h
    · next x rest hp =>
      cases ok with
      | true =>
        cases h
        exact .succeed x rest hp
      | false =>
        obtain ⟨f, hf, rfl⟩ := Option.map_eq_some_iff.mp h
        exact .fail x rest hp f hf
  | message m =>
    simp only [step] at h
    split at h
    · cases h
    · next hc =>
      split at h
      · next hm =>
        cases h
        exact .ignore m hc hm
      · next f hm =>
        split at h
        · next hf =>
          unfold call at h
          split at h
          · next hr =>
            cases h
            exact .status m hc f hm hf hr
          · next r hr =>
            obtain ⟨l, hl, rfl⟩ := Option.map_eq_some_iff.mp h
            exact .command m hc f hm hf r hr l hl
        · next hf =>
          cases h
          exact .nullCall m hc f hm hf
  | lock e =>
    cases e with
    | userSend r => cases h
    | timerExpire | callbackSend | taskReceive | taskAssign | taskCall =>
      obtain ⟨l, hl, rfl⟩ := Option.map_eq_some_iff.mp h
      refine .lock _ (fun r he => ?_) l hl
      cases he
  | request r =>
    simp only [step] at h
    split at h
    · next hr =>
      cases h
      exact .request r hr.1 hr.2.1 hr.2.2
    · cases h
  | post =>
    simp only [step] at h
    split at h
    · cases h
    · next e rest hp =>
      cases h
      exact .post e rest hp

/-- The steps of a run from boot. -/
abbrev run (es : List Event) : Option System := Lts.exec System.step .boot es

end GateNode.Boot
