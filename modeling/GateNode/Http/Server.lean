/-
The requests the server takes, one at a time, each with all it meets, and
the session table over a history of them.
-/
import Mathlib.Data.List.Induction
import GateNode.Http.Upload

namespace GateNode.Http

open CString

/-- A request and all it meets, by the URI it is for. -/
inductive Request
  | auth (r : AuthRequest)
  | logout (r : HeaderRequest)
  | checkAuth (r : HeaderRequest)
  | otaUpload (header : HeaderRequest) (recvs : List RecvResult)

/-- The session table a request leaves. -/
def Request.serve (cjson : CJson) (table : SessionTable) : Request → SessionTable
  | .auth r => (authHandler cjson table r).table
  | .logout r => (logoutHandler table r).table
  | .checkAuth r => (checkAuthHandler table r).table
  | .otaUpload _ _ => table

/-- The events serving a request posts. -/
def Request.events : Request → List (HttpServerEvent (List UInt8))
  | .otaUpload _ recvs => (fileUploadHandler recvs).1
  | _ => []

/-- Requests are served one at a time. -/
def sessionsAfter (cjson : CJson) (requests : List Request) : SessionTable :=
  requests.foldl (Request.serve cjson) .boot

/-! ## The table keeps its size -/

theorem length_validateLoop (ticks : UInt32) (token : List UInt8) (table : SessionTable) :
    (validateLoop ticks token table).2.length = table.length := by
  induction table with
  | nil => rfl
  | cons s rest ih =>
    simp only [validateLoop]
    split
    · split <;> rfl
    · simp [ih]

theorem length_storeToken (ticks : UInt32) (token : List UInt8) (table : SessionTable) :
    (storeToken ticks token table).length = table.length := by
  induction table with
  | nil => rfl
  | cons s rest ih =>
    simp only [storeToken]
    split <;> simp [ih]

theorem length_validateHeader (size : Nat) (table : SessionTable) (r : HeaderRequest) :
    (validateHeader size table r).2.length = table.length := by
  unfold validateHeader
  split
  · rfl
  · unfold validateToken
    split
    · rfl
    · exact length_validateLoop _ _ _

theorem length_authHandler (cjson : CJson) (table : SessionTable) (r : AuthRequest) :
    (authHandler cjson table r).table.length = table.length := by
  unfold authHandler
  split
  · rfl
  · rfl
  · split
    · rfl
    · split
      · have := length_storeToken r.ticks (generateToken r.random (tokenLen + 1)) table
        split
        · exact this
        · split <;> exact this
      · rfl
    · rfl

theorem length_serve (cjson : CJson) (table : SessionTable) (r : Request) :
    (r.serve cjson table).length = table.length := by
  cases r with
  | auth r => exact length_authHandler cjson table r
  | logout r =>
    have := length_validateHeader 64 table r
    simp only [Request.serve, logoutHandler]
    split
    · next table' h => rw [h] at this; simpa using this
    · next table' h => rw [h] at this; exact this
  | checkAuth r =>
    have := length_validateHeader 128 table r
    simp only [Request.serve, checkAuthHandler, loggedInChecked]
    generalize validateHeader 128 table r = v at this
    obtain ⟨_ | _, table'⟩ := v <;> exact this
  | otaUpload => rfl

theorem length_sessionsAfter (cjson : CJson) (requests : List Request) :
    (sessionsAfter cjson requests).length = maxUsers := by
  induction requests using List.reverseRecOn with
  | nil => rfl
  | append_singleton rs r ih =>
    rw [sessionsAfter, List.foldl_append, List.foldl_cons, List.foldl_nil, length_serve]
    exact ih

/-! ## One slot -/

/-- The slot holds a session that a request bringing `token` at `ticks` may use. -/
def Session.Live (s : Session) (token : List UInt8) (ticks : UInt32) : Prop :=
  s.active = true ∧ cstr s.token = cstr token ∧ ticksToMs ticks - s.lastActivity ≤ sessionTimeoutMs

theorem validateToken_slot {ticks : UInt32} {token : List UInt8} {s : Session} :
    (validateToken ticks token [s]).1 = true ↔ strlen token ≠ 0 ∧ s.Live token ticks := by
  unfold validateToken
  by_cases ht : strlen token = 0
  · simp only [ht, if_true, Bool.false_eq_true, ne_eq, not_true, false_and]
  · simp only [ht, if_false, ne_eq, not_false_iff, true_and, validateLoop, strcmp_eq_zero, Session.Live]
    by_cases hs : s.active = true ∧ cstr s.token = cstr token
    · rw [if_pos hs]
      have hle : ¬ ticksToMs ticks - s.lastActivity > sessionTimeoutMs ↔
          ticksToMs ticks - s.lastActivity ≤ sessionTimeoutMs := UInt32.not_lt
      by_cases hold : ticksToMs ticks - s.lastActivity > sessionTimeoutMs
      · rw [if_pos hold]
        simp only [Bool.false_eq_true, false_iff]
        exact fun h => hle.mpr h.2.2 hold
      · rw [if_neg hold]
        simp only [true_iff]
        exact ⟨hs.1, hs.2, hle.mp hold⟩
    · rw [if_neg hs]
      simp only [Bool.false_eq_true, false_iff]
      exact fun h => hs ⟨h.1, h.2.1⟩

theorem loggedInChecked_fst {table : SessionTable} {r : HeaderRequest} :
    (loggedInChecked table r).1 = .espOk ↔ (validateHeader 128 table r).1 = true := by
  unfold loggedInChecked
  generalize validateHeader 128 table r = v
  obtain ⟨_ | _, table'⟩ := v <;> simp

theorem sessionsAfter_slot (cjson : CJson) (history : List Request) :
    ∃ s, sessionsAfter cjson history = [s] :=
  List.length_eq_one_iff.mp (length_sessionsAfter cjson history)

end GateNode.Http
