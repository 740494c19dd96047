/-
How the network splits a login. `auth_handler` receives once, so it judges
the first piece of the body and answers by that; `file_upload_handler`
receives until nothing is left.
-/
import GateNode.Http.Login

namespace GateNode.Http

open CString

/-- A way for `httpd_req_recv` to deliver a body. -/
structure Delivery (body : List UInt8) where
  pieces : List (List UInt8)
  nonempty : ∀ p ∈ pieces, p ≠ []
  flatten : pieces.flatten = body

/-- What the one receive of `auth_handler` gets. -/
def Delivery.first {body : List UInt8} (δ : Delivery body) : List UInt8 := δ.pieces.headD []

/-- The login request whose body comes so. -/
def AuthRequest.delivered (r : AuthRequest) {body : List UInt8} (δ : Delivery body) : AuthRequest :=
  { r with recv := .ok δ.first }

/-- The answer as the client takes it: every 400 says bad request. -/
def Response.answer : Response → Option Response
  | .sendErr 400 _ => none
  | response => some response

/-- What a buffer received is worth as a login. -/
inductive Verdict
  | badRequest
  | wrong
  | right
deriving DecidableEq

/-- Two strings under the names asked for, and these the expected ones, or not. -/
def verdict (cjson : CJson) (buf : List UInt8) : Verdict :=
  if buf = [] then
    .badRequest
  else
    match cjson (cstr (buf.take loginBufSize)) with
    | some ⟨some user, some pass⟩ => if credentialsMatch user pass then .right else .wrong
    | _ => .badRequest

/-- The reply comes without its members: neither of them could be allocated. -/
def AuthRequest.EmptyReply (r : AuthRequest) : Prop :=
  r.createObject = true ∧ r.printUnformatted = true ∧ r.addFirst = false ∧ r.addSecond = false

/-- The reply to the right credentials. -/
def okReply (r : AuthRequest) : Response :=
  if !r.createObject then
    .sendErr 500 "Memory error"
  else if !r.printUnformatted then
    .sendErr 500 "Memory error"
  else
    .sendStr (some "application/json") (.object (replyMembers r ("result", ofString "ok")
      ("token", cstr (generateToken r.random (tokenLen + 1)))))

/-- The reply to wrong ones. -/
def failReply (r : AuthRequest) : Response :=
  .sendStr (some "application/json")
    (if r.createObject && r.printUnformatted then
      .object (replyMembers r ("result", ofString "fail") ("message", ofString "Invalid credentials"))
    else
      .text "\x7b\"result\":\"fail\"\x7d")

/-- What the client is told, by the verdict. -/
def Verdict.answer (r : AuthRequest) : Verdict → Option Response
  | .badRequest => none
  | .wrong => some (failReply r)
  | .right => some (okReply r)

/-- What the table becomes. -/
def Verdict.table (r : AuthRequest) (table : SessionTable) : Verdict → SessionTable
  | .badRequest | .wrong => table
  | .right => storeToken r.ticks (generateToken r.random (tokenLen + 1)) table

variable {table : SessionTable} {r : AuthRequest}

/-- The verdict on what is received decides the answer and the table. -/
theorem authHandler_verdict (cjson : CJson) (table : SessionTable) {buf : List UInt8} (h : r.recv = .ok buf) :
    (authHandler cjson table r).response.answer = (verdict cjson buf).answer r ∧
      (authHandler cjson table r).table = (verdict cjson buf).table r table := by
  unfold authHandler verdict
  rw [h]
  cases buf with
  | nil => exact ⟨rfl, rfl⟩
  | cons b bs =>
    simp only [reduceCtorEq, if_false]
    rcases cjson (cstr ((b :: bs).take loginBufSize)) with _ | ⟨_ | user, _ | pass⟩
    · exact ⟨rfl, rfl⟩
    · exact ⟨rfl, rfl⟩
    · exact ⟨rfl, rfl⟩
    · exact ⟨rfl, rfl⟩
    · by_cases hmatch : credentialsMatch user pass = true
      · simp only [hmatch, if_true, Verdict.answer, okReply]
        cases hcreate : r.createObject <;> cases hprint : r.printUnformatted <;> exact ⟨rfl, rfl⟩
      · simp only [hmatch]
        exact ⟨rfl, rfl⟩

/-- A search that finds a slot free leaves it taken. -/
theorem storeToken_eq_self {ticks : UInt32} {token : List UInt8} :
    storeToken ticks token table = table ↔ ∀ s ∈ table, s.active = true := by
  induction table with
  | nil => simp [storeToken]
  | cons s rest ih =>
    cases hs : s.active with
    | true => simp [storeToken, hs, ih]
    | false =>
      refine iff_of_false (fun h => ?_) (by simp [hs])
      simp only [storeToken, hs, Bool.false_eq_true, if_false, List.cons.injEq] at h
      rw [← h.1] at hs
      cases hs

theorem okReply_eq_failReply : okReply r = failReply r ↔ r.EmptyReply := by
  unfold okReply failReply AuthRequest.EmptyReply replyMembers
  cases r.createObject <;> cases r.printUnformatted <;> cases r.addFirst <;> cases r.addSecond <;>
    simp [ofString]

/-- Right and wrong credentials can be told apart unless the reply is empty and no slot free. -/
theorem right_eq_wrong : (Verdict.right.answer r = Verdict.wrong.answer r ∧
    Verdict.right.table r table = Verdict.wrong.table r table) ↔
      r.EmptyReply ∧ ∀ s ∈ table, s.active = true := by
  rw [Verdict.answer, Verdict.answer, Option.some.injEq, okReply_eq_failReply]
  exact and_congr_right fun _ => storeToken_eq_self

theorem verdict_eq_iff (u v : Verdict) :
    (u.answer r = v.answer r ∧ u.table r table = v.table r table) ↔
      u = v ∨ u ≠ .badRequest ∧ v ≠ .badRequest ∧ r.EmptyReply ∧ ∀ s ∈ table, s.active = true := by
  by_cases huv : u = v
  · simp [huv]
  · cases u with
    | badRequest =>
      cases v with
      | badRequest => exact absurd rfl huv
      | wrong | right => simp [Verdict.answer]
    | wrong =>
      cases v with
      | badRequest => simp [Verdict.answer]
      | wrong => exact absurd rfl huv
      | right =>
        rw [eq_comm (a := Verdict.wrong.answer r), eq_comm (a := Verdict.wrong.table r table), right_eq_wrong]
        simp
    | right =>
      cases v with
      | badRequest => simp [Verdict.answer]
      | wrong =>
        rw [right_eq_wrong]
        simp
      | right => exact absurd rfl huv

/-- **The outcome of a login depends on how its body is split** by the verdict on the first piece alone:
two deliveries get the same answer and leave the same table exactly when their first pieces are judged
alike, or when right and wrong credentials look the same, the reply coming without its members and no
slot being free. -/
theorem login_split_iff (cjson : CJson) (table : SessionTable) (r : AuthRequest) {body : List UInt8}
    (δ ε : Delivery body) :
    ((authHandler cjson table (r.delivered δ)).response.answer =
          (authHandler cjson table (r.delivered ε)).response.answer ∧
        (authHandler cjson table (r.delivered δ)).table = (authHandler cjson table (r.delivered ε)).table) ↔
      verdict cjson δ.first = verdict cjson ε.first ∨
        verdict cjson δ.first ≠ .badRequest ∧ verdict cjson ε.first ≠ .badRequest ∧ r.EmptyReply ∧
          ∀ s ∈ table, s.active = true := by
  obtain ⟨hδ, hδ'⟩ := authHandler_verdict (r := r.delivered δ) cjson table rfl
  obtain ⟨hε, hε'⟩ := authHandler_verdict (r := r.delivered ε) cjson table rfl
  rw [hδ, hδ', hε, hε']
  exact verdict_eq_iff (verdict cjson δ.first) (verdict cjson ε.first)

/-- The dashboard's login, whole and after its first byte. -/
def loginBody : List UInt8 := ofString "\x7b\"username\":\"admin\",\"password\":\"pindora\"\x7d"

def loginWhole : Delivery loginBody := ⟨[loginBody], by decide +kernel, by decide +kernel⟩

def loginAfterOne : Delivery loginBody :=
  ⟨[loginBody.take 1, loginBody.drop 1], by decide +kernel, by decide +kernel⟩

/-- Whole the login is accepted; split after its first byte it is a bad request, and no slot is taken. -/
theorem split_login_refused :
    loginBody.length ≤ loginBufSize ∧
      (authHandler adminJson .boot ((adminLogin 500 0).delivered loginWhole)).response =
        okToken (List.replicate tokenLen 65) ∧
      (authHandler adminJson .boot ((adminLogin 500 0).delivered loginAfterOne)).response =
        .sendErr 400 "Invalid JSON" ∧
      (authHandler adminJson .boot ((adminLogin 500 0).delivered loginWhole)).table ≠
        (authHandler adminJson .boot ((adminLogin 500 0).delivered loginAfterOne)).table := by
  decide +kernel

end GateNode.Http
