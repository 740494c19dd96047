/-
`http_server.c`: the session table and the handlers that share it. A handler
takes the table and what the request brings (its header or body, the clock,
the random stream, the outcome of each library call) and answers what it
leaves and says. cJSON is a parameter: a function of the body's string.
-/
import GateNode.Lib.CString

namespace GateNode.Http

open CString

inductive EspErr
  | espOk
  | espFail
deriving DecidableEq, Repr

def maxUsers : Nat := 1

def tokenSize : Nat := 64

/-- `session_t`, less its user name, which nothing reads or writes. -/
structure Session where
  active : Bool := false
  token : List UInt8 := List.replicate tokenSize 0
  lastActivity : UInt32 := 0
deriving DecidableEq, Repr

/-- `current_sessions`. -/
abbrev SessionTable := List Session

def SessionTable.boot : SessionTable := List.replicate maxUsers {}

/-- `portTICK_PERIOD_MS` at 100 Hz. -/
def portTickPeriodMs : UInt32 := 10

/-- `xTaskGetTickCount()*portTICK_PERIOD_MS`, of the count read. -/
def ticksToMs (ticks : UInt32) : UInt32 := ticks * portTickPeriodMs

def sessionTimeoutMs : UInt32 := 180000

/-- The loop of `validate_token`: the first active slot with the token decides. -/
def validateLoop (ticks : UInt32) (token : List UInt8) : SessionTable → Bool × SessionTable
  | [] => (false, [])
  | s :: rest =>
    if s.active ∧ strcmp s.token token = 0 then
      let currentTicks := ticksToMs ticks
      if currentTicks - s.lastActivity > sessionTimeoutMs then
        (false, { s with active := false } :: rest)
      else
        (true, { s with lastActivity := currentTicks } :: rest)
    else
      let (found, rest) := validateLoop ticks token rest
      (found, s :: rest)

def validateToken (ticks : UInt32) (token : List UInt8) (table : SessionTable) : Bool × SessionTable :=
  if strlen token = 0 then (false, table) else validateLoop ticks token table

/-! ## Tokens -/

def tokenLen : Nat := 32

def charset : List UInt8 := ofString "ABCDEFGHIJKLMNOPQRSTUVWXYZabcdefghijklmnopqrstuvwxyz0123456789"

/-- The `len` bytes written to `out`, from the numbers `esp_random` answers. -/
def generateToken (random : Nat → UInt32) (len : Nat) : List UInt8 :=
  if len = 0 then
    []
  else
    (List.range (len - 1)).map (fun i => charset.getD ((random i).toNat % charset.length) 0) ++ [0]

/-- The slot search of `auth_handler`: the token goes into the first slot that is free. -/
def storeToken (ticks : UInt32) (token : List UInt8) : SessionTable → SessionTable
  | [] => []
  | s :: rest =>
    if s.active then
      s :: storeToken ticks token rest
    else
      { s with active := true, token := strncpy token tokenSize, lastActivity := ticksToMs ticks } :: rest

/-! ## Headers and replies -/

/-- `httpd_req_get_hdr_value_str`: the buffer filled, where the header is there and fits. -/
def httpdReqGetHdrValueStr (value : Option (List UInt8)) (size : Nat) : Option (List UInt8) :=
  value.bind fun v => if strlen v < size then some (cstr v ++ [0]) else none

/-- What a reply carries. -/
inductive Body
  | text (message : String)
  /-- A printed object, by its members. -/
  | object (members : List (String × List UInt8))
deriving DecidableEq

inductive Response
  /-- `httpd_resp_send_err`. -/
  | sendErr (status : Nat) (message : String)
  /-- `httpd_resp_sendstr`, under a content type if one was set. -/
  | sendStr (type : Option String) (body : Body)
  /-- `httpd_resp_send` after `httpd_resp_set_status`. -/
  | sendStatus (status : String) (message : String)
deriving DecidableEq

/-- What a handler leaves: the table, its reply, and what it returns to the server. -/
structure Served where
  table : SessionTable
  response : Response
  ret : EspErr

/-- What `httpd_req_recv` answers: an error, or the bytes received (none: the end). -/
abbrev RecvResult := Except Int (List UInt8)

/-! ## `/auth` -/

def loginBufSize : Nat := 256

def username : List UInt8 := ofString "admin"

def password : List UInt8 := ofString "pindora"

/-- The two items `auth_handler` asks the parsed body for, each where it is a string. -/
structure LoginJson where
  username : Option (List UInt8)
  password : Option (List UInt8)

/-- `cJSON_Parse` and the two lookups, as a function of the body's string. -/
abbrev CJson := List UInt8 → Option LoginJson

/-- What a request for `/auth` meets: the first receive, the clock and the
random stream, and which of the reply's allocations succeed. -/
structure AuthRequest where
  recv : RecvResult
  ticks : UInt32
  random : Nat → UInt32
  createObject : Bool := true
  addFirst : Bool := true
  addSecond : Bool := true
  printUnformatted : Bool := true

/-- The members `cJSON_AddStringToObject` got into the reply. -/
def replyMembers (r : AuthRequest) (first second : String × List UInt8) : List (String × List UInt8) :=
  (if r.addFirst then [first] else []) ++ (if r.addSecond then [second] else [])

/-- Both credentials are the expected ones. -/
def credentialsMatch (user pass : List UInt8) : Bool :=
  strcmp user username = 0 && strcmp pass password = 0

def authHandler (cjson : CJson) (table : SessionTable) (r : AuthRequest) : Served :=
  match r.recv with
  | .error _ | .ok [] => ⟨table, .sendErr 400 "Bad Request", .espFail⟩
  | .ok buf =>
    match cjson (cstr (buf.take loginBufSize)) with
    | none => ⟨table, .sendErr 400 "Invalid JSON", .espFail⟩
    | some ⟨some user, some pass⟩ =>
      if credentialsMatch user pass then
        let token := generateToken r.random (tokenLen + 1)
        -- The reply is the same whether or not a slot was free.
        let table := storeToken r.ticks token table
        if !r.createObject then
          ⟨table, .sendErr 500 "Memory error", .espFail⟩
        else if !r.printUnformatted then
          ⟨table, .sendErr 500 "Memory error", .espFail⟩
        else
          let members := replyMembers r ("result", ofString "ok") ("token", cstr token)
          ⟨table, .sendStr (some "application/json") (.object members), .espOk⟩
      else
        let members := replyMembers r ("result", ofString "fail") ("message", ofString "Invalid credentials")
        let body := if r.createObject && r.printUnformatted then
            .object members
          else
            .text "\x7b\"result\":\"fail\"\x7d"
        ⟨table, .sendStr (some "application/json") body, .espOk⟩
    | some _ => ⟨table, .sendErr 400 "username/password required", .espFail⟩

/-! ## `/logout` and `/check-auth` -/

def bearer : List UInt8 := ofString "Bearer "

/-- The token a header buffer carries: what stands behind the first `Bearer `. -/
def bearerToken (buf : List UInt8) : Option (List UInt8) := (strstr buf bearer).map (·.drop 7)

/-- What a request for `/logout` or `/check-auth` brings. -/
structure HeaderRequest where
  authorization : Option (List UInt8)
  ticks : UInt32

/-- `validate_token` of the header's token, read into a buffer of `size` bytes. -/
def validateHeader (size : Nat) (table : SessionTable) (r : HeaderRequest) : Bool × SessionTable :=
  match (httpdReqGetHdrValueStr r.authorization size).bind bearerToken with
  | none => (false, table)
  | some token => validateToken r.ticks token table

def logoutHandler (table : SessionTable) (r : HeaderRequest) : Served :=
  match validateHeader 64 table r with
  | (true, table) =>
    ⟨table.map fun _ => {}, .sendStr none (.text "\x7b\"result\":\"logged_out\"\x7d"), .espOk⟩
  | (false, table) => ⟨table, .sendErr 401 "Invalid token", .espFail⟩

def loggedInChecked (table : SessionTable) (r : HeaderRequest) : EspErr × SessionTable :=
  match validateHeader 128 table r with
  | (true, table) => (.espOk, table)
  | (false, table) => (.espFail, table)

def checkAuthHandler (table : SessionTable) (r : HeaderRequest) : Served :=
  match loggedInChecked table r with
  | (.espOk, table) =>
    ⟨table, .sendStr (some "application/json") (.text "\x7b\"status\":\"ok\"\x7d"), .espOk⟩
  | (.espFail, table) => ⟨table, .sendStatus "401 Unauthorized" "Unauthorized", .espOk⟩

end GateNode.Http
