/-
Logins whose token never reaches the client. `auth_handler` takes the slot
before it builds the reply, and no exit behind that gives the slot back: not
the two for want of memory, not the one after a send that failed.
-/
import GateNode.Http.Pieces
import GateNode.Http.Slot

namespace GateNode.Http

open CString

/-- What reaches the client: no handler looks at what `httpd_resp_sendstr` or `httpd_resp_send_err` returned. -/
def Served.reaches (served : Served) (sent : Bool) : Option Response :=
  if sent then some served.response else none

/-- Every allocation of the reply succeeds. -/
def AuthRequest.ReplyBuilt (r : AuthRequest) : Prop :=
  r.createObject = true ∧ r.addFirst = true ∧ r.addSecond = true ∧ r.printUnformatted = true

/-- The client gets `ok` and a token. -/
def TokenDelivered (cjson : CJson) (table : SessionTable) (r : AuthRequest) (sent : Bool) : Prop :=
  ∃ t, (authHandler cjson table r).reaches sent = some (okToken t)

variable {cjson : CJson} {table : SessionTable} {r : AuthRequest}

theorem authHandler_correct_response (h : r.correct cjson = true) (table : SessionTable) :
    (authHandler cjson table r).response = okReply r := by
  obtain ⟨b, bs, user, pass, hr, hj, hmatch⟩ := r.exists_of_correct h
  simp only [authHandler, okReply, hr, hj, hmatch, if_true]
  cases r.createObject <;> cases r.printUnformatted <;> rfl

/-- The reply carries a token exactly when every one of its allocations succeeds. -/
theorem okReply_okToken : (∃ t, okReply r = okToken t) ↔ r.ReplyBuilt := by
  constructor
  · rintro ⟨t, h⟩
    unfold okReply okToken replyMembers at h
    unfold AuthRequest.ReplyBuilt
    cases hc : r.createObject <;> cases hp : r.printUnformatted <;> cases hf : r.addFirst <;>
      cases hs : r.addSecond <;> simp_all
  · rintro ⟨hc, hf, hs, hp⟩
    refine ⟨cstr (generateToken r.random (tokenLen + 1)), ?_⟩
    simp [okReply, okToken, replyMembers, hc, hf, hs, hp]

theorem tokenDelivered_iff (h : r.correct cjson = true) (sent : Bool) :
    TokenDelivered cjson table r sent ↔ r.ReplyBuilt ∧ sent = true := by
  unfold TokenDelivered Served.reaches
  rw [authHandler_correct_response h, ← okReply_okToken]
  cases sent <;> simp

/-- A login changes the table exactly when it has the right credentials and finds a slot free. -/
theorem authHandler_table_eq_iff :
    (authHandler cjson table r).table = table ↔ ¬ (Request.auth r).Stores cjson table := by
  cases hc : r.correct cjson with
  | false =>
    refine iff_of_true (authHandler_incorrect hc table) fun h => ?_
    exact Bool.false_ne_true (hc.symm.trans h.1)
  | true =>
    rw [authHandler_correct hc, storeToken_eq_self]
    simp only [Request.Stores, hc, true_and, not_exists, not_and, Bool.not_eq_false]

/-- **A login whose token is not delivered leaves the sessions as they were** exactly when it has not the
right credentials and a free slot, or when its reply is built and sent, the token then being delivered. -/
theorem undelivered_unchanged_iff (cjson : CJson) (table : SessionTable) (r : AuthRequest) (sent : Bool) :
    (¬ TokenDelivered cjson table r sent → (authHandler cjson table r).table = table) ↔
      ¬ (Request.auth r).Stores cjson table ∨ r.ReplyBuilt ∧ sent = true := by
  rw [authHandler_table_eq_iff, ← Classical.or_iff_not_imp_left, or_comm]
  by_cases hs : (Request.auth r).Stores cjson table
  · rw [tokenDelivered_iff hs.1]
  · exact iff_of_true (.inl hs) (.inl hs)

/-- At boot the reply to the right login finds no memory: a 500, and the one slot taken by a token nobody has. -/
theorem lost_token_takes_slot :
    ¬ TokenDelivered adminJson .boot { adminLogin 500 0 with createObject := false } true ∧
      (authHandler adminJson .boot { adminLogin 500 0 with createObject := false }).response =
        .sendErr 500 "Memory error" ∧
      (authHandler adminJson .boot { adminLogin 500 0 with createObject := false }).table ≠ .boot := by
  have hr : (authHandler adminJson .boot { adminLogin 500 0 with createObject := false }).response =
      .sendErr 500 "Memory error" := by decide +kernel
  refine ⟨?_, hr, by decide +kernel⟩
  rintro ⟨t, ht⟩
  rw [Served.reaches, hr] at ht
  cases ht

end GateNode.Http
