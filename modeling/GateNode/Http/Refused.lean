/-
Requests that show no right to a session: a login without the credentials,
a logout or a check whose header brings no active session's token. None of
them touches the table, so a history reads the same without them.
-/
import GateNode.Http.Slot
import GateNode.Lib.Purge

namespace GateNode.Http

open CString

/-- The reply to a request; an upload still being received has none. -/
def Request.response (cjson : CJson) (table : SessionTable) : Request → Option Response
  | .auth r => some (authHandler cjson table r).response
  | .logout r => some (logoutHandler table r).response
  | .checkAuth r => some (checkAuthHandler table r).response
  | .otaUpload _ recvs => (fileUploadHandler recvs).2

/-- The header is missing or too long, carries no token, or the token of no active session. -/
def HeaderRequest.Foreign (size : Nat) (table : SessionTable) (r : HeaderRequest) : Prop :=
  ∀ token ∈ r.token size, ∀ s ∈ table, s.active = true → cstr s.token ≠ cstr token

/-- The request is one to be refused, at the table it meets. -/
def Request.Unauthorised (cjson : CJson) (table : SessionTable) : Request → Prop
  | .auth r => r.correct cjson = false
  | .logout r => r.Foreign 64 table
  | .checkAuth r => r.Foreign 128 table
  | .otaUpload _ _ => False

instance (size : Nat) (table : SessionTable) (r : HeaderRequest) : Decidable (r.Foreign size table) :=
  inferInstanceAs (Decidable (∀ token ∈ r.token size, ∀ s ∈ table, s.active = true → cstr s.token ≠ cstr token))

instance (cjson : CJson) (table : SessionTable) : ∀ r : Request, Decidable (r.Unauthorised cjson table)
  | .auth r => inferInstanceAs (Decidable (r.correct cjson = false))
  | .logout r => inferInstanceAs (Decidable (r.Foreign 64 table))
  | .checkAuth r => inferInstanceAs (Decidable (r.Foreign 128 table))
  | .otaUpload _ _ => inferInstanceAs (Decidable False)

/-- The replies to a history of marked requests. -/
def replies (cjson : CJson) (requests : List (Bool × Request)) : List (Bool × Option Response) :=
  Purge.answers (Request.serve cjson) (Request.response cjson) .boot requests

theorem validateLoop_foreign {ticks : UInt32} {token : List UInt8} {table : SessionTable}
    (h : ∀ s ∈ table, s.active = true → cstr s.token ≠ cstr token) :
    validateLoop ticks token table = (false, table) := by
  induction table with
  | nil => rfl
  | cons s rest ih =>
    have hm : ¬ (s.active = true ∧ strcmp s.token token = 0) := by
      rw [strcmp_eq_zero]
      exact fun hm => h s List.mem_cons_self hm.1 hm.2
    rw [validateLoop, if_neg hm, ih fun t ht => h t (List.mem_cons_of_mem s ht)]

theorem validateHeader_foreign {size : Nat} {table : SessionTable} {r : HeaderRequest} (h : r.Foreign size table) :
    validateHeader size table r = (false, table) := by
  rw [validateHeader_eq]
  cases ht : r.token size with
  | none => rfl
  | some token =>
    show validateToken r.ticks token table = (false, table)
    unfold validateToken
    split
    · rfl
    · exact validateLoop_foreign (h token ht)

/-- A request to be refused leaves the table as it was. -/
theorem serve_unauthorised {cjson : CJson} {table : SessionTable} {r : Request} (h : r.Unauthorised cjson table) :
    r.serve cjson table = table := by
  cases r with
  | auth r => exact authHandler_incorrect h table
  | logout r => rw [Request.serve, logoutHandler, validateHeader_foreign h]
  | checkAuth r => rw [Request.serve, checkAuthHandler, loggedInChecked, validateHeader_foreign h]
  | otaUpload => exact h.elim

/-- **Unauthorised requests have no influence**: deleting any of them from a history changes neither the reply
to a request that stays nor the table at the end. -/
theorem unauthorised_no_influence (cjson : CJson) (requests : List (Bool × Request))
    (h : ∀ before r after, requests = before ++ (false, r) :: after →
      r.Unauthorised cjson (sessionsAfter cjson (before.map Prod.snd))) :
    replies cjson (Purge.kept requests) = Purge.kept (replies cjson requests) ∧
      sessionsAfter cjson ((Purge.kept requests).map Prod.snd) = sessionsAfter cjson (requests.map Prod.snd) := by
  have hidle : History.Always (Purge.Idle (Request.serve cjson) .boot) [] requests := by
    rintro before ⟨mark, r⟩ after rfl hmark
    cases hmark
    exact serve_unauthorised (h before r after rfl)
  exact ⟨(Purge.answers_kept hidle).symm, Purge.state_kept hidle⟩

/-- Between a login and the check of its token: wrong credentials, a check without a header, a logout with
another token. -/
def mixedHistory : List (Bool × Request) :=
  [(true, .auth (adminLogin 500 0)),
    (false, .auth { adminLogin 520 1 with recv := .ok (ofString "\x7b\"username\":\"admin\"\x7d") }),
    (false, .checkAuth ⟨none, 540⟩),
    (false, .logout (bearerRequest (List.replicate 32 66) 560)),
    (true, .checkAuth (bearerRequest (List.replicate tokenLen 65) 600))]

theorem unauthorised_no_influence_mixed :
    (replies adminJson (Purge.kept mixedHistory) = Purge.kept (replies adminJson mixedHistory) ∧
      sessionsAfter adminJson ((Purge.kept mixedHistory).map Prod.snd) =
        sessionsAfter adminJson (mixedHistory.map Prod.snd)) ∧
      replies adminJson (Purge.kept mixedHistory) =
        [(true, some (okToken (List.replicate tokenLen 65))),
          (true, some (.sendStr (some "application/json") (.text "\x7b\"status\":\"ok\"\x7d")))] := by
  refine ⟨unauthorised_no_influence adminJson mixedHistory ?_, by decide +kernel⟩
  intro before r after h
  have hall : History.Always (fun before p => p.1 = false →
      p.2.Unauthorised adminJson (sessionsAfter adminJson (before.map Prod.snd))) [] mixedHistory := by
    simp only [mixedHistory, History.always_cons, History.always_nil, and_true]
    decide +kernel
  exact hall before (false, r) after h rfl

end GateNode.Http
