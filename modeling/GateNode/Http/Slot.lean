/-
The one slot of the session table under one request: the request fills it,
refreshes it, clears it, switches it off or leaves it alone. `SlotStep` says
which, in terms of what the request brings and the slot it meets.
-/
import GateNode.Http.Login

namespace GateNode.Http

open CString

/-- The token a header brings to `validate_token`, where there is one in bounds. -/
def HeaderRequest.token (size : Nat) (r : HeaderRequest) : Option (List UInt8) :=
  (httpdReqGetHdrValueStr r.authorization size).bind bearerToken

/-- The call of `validate_token` a request makes: the token and the clock it reads. -/
def Request.validation : Request → Option (List UInt8 × UInt32)
  | .logout r => (r.token 64).map fun token => (token, r.ticks)
  | .checkAuth r => (r.token 128).map fun token => (token, r.ticks)
  | .auth _ | .otaUpload _ _ => none

/-- The body comes through, parses, and has the credentials `auth_handler` expects. -/
def AuthRequest.correct (cjson : CJson) (r : AuthRequest) : Bool :=
  match r.recv with
  | .error _ | .ok [] => false
  | .ok buf =>
    match cjson (cstr (buf.take loginBufSize)) with
    | some ⟨some user, some pass⟩ => credentialsMatch user pass
    | _ => false

/-- A login with the right credentials meets a free slot. -/
def Request.Stores (cjson : CJson) (table : SessionTable) : Request → Prop
  | .auth r => r.correct cjson = true ∧ ∃ s ∈ table, s.active = false
  | _ => False

/-- The token of the request passes `validate_token`. -/
def Request.Accepted (table : SessionTable) (r : Request) : Prop :=
  ∃ v ∈ r.validation, (validateToken v.2 v.1 table).1 = true

/-- A logout that is answered `logged_out`. -/
def Request.LogsOut (table : SessionTable) : Request → Prop
  | .logout r => (Request.logout r).Accepted table
  | _ => False

/-- The request validates `token` and finds its session expired. -/
def Request.ReportsExpiry (table : SessionTable) (token : List UInt8) (r : Request) : Prop :=
  ∃ v ∈ r.validation, cstr v.1 = cstr token ∧ strlen v.1 ≠ 0 ∧
    ∃ s ∈ table, s.active = true ∧ cstr s.token = cstr v.1 ∧ ticksToMs v.2 - s.lastActivity > sessionTimeoutMs

theorem validateHeader_eq (size : Nat) (table : SessionTable) (r : HeaderRequest) :
    validateHeader size table r =
      match r.token size with
      | none => (false, table)
      | some token => validateToken r.ticks token table := rfl

/-! ## The handlers, of one slot -/

theorem validateToken_live {ticks : UInt32} {token : List UInt8} {s : Session} (hne : strlen token ≠ 0)
    (h : s.Live token ticks) :
    validateToken ticks token [s] = (true, [{ s with lastActivity := ticksToMs ticks }]) := by
  have hm : s.active = true ∧ strcmp s.token token = 0 := ⟨h.1, strcmp_eq_zero.mpr h.2.1⟩
  have hle : ¬ ticksToMs ticks - s.lastActivity > sessionTimeoutMs := UInt32.not_lt.mpr h.2.2
  rw [validateToken, if_neg hne, validateLoop, if_pos hm]
  exact if_neg hle

theorem validateToken_expired {ticks : UInt32} {token : List UInt8} {s : Session} (hne : strlen token ≠ 0)
    (ha : s.active = true) (ht : cstr s.token = cstr token)
    (h : ticksToMs ticks - s.lastActivity > sessionTimeoutMs) :
    validateToken ticks token [s] = (false, [{ s with active := false }]) := by
  have hm : s.active = true ∧ strcmp s.token token = 0 := ⟨ha, strcmp_eq_zero.mpr ht⟩
  rw [validateToken, if_neg hne, validateLoop, if_pos hm]
  exact if_pos h

theorem validateToken_other {ticks : UInt32} {token : List UInt8} {s : Session}
    (h : strlen token = 0 ∨ ¬ (s.active = true ∧ cstr s.token = cstr token)) :
    validateToken ticks token [s] = (false, [s]) := by
  by_cases h0 : strlen token = 0
  · rw [validateToken, if_pos h0]
  · have hm : ¬ (s.active = true ∧ strcmp s.token token = 0) := by
      rw [strcmp_eq_zero]
      exact h.resolve_left h0
    rw [validateToken, if_neg h0, validateLoop, if_neg hm, validateLoop]

/-- What is received parses to a user name and a password, and they are the expected ones. -/
theorem AuthRequest.exists_of_correct {cjson : CJson} {r : AuthRequest} (h : r.correct cjson = true) :
    ∃ b bs user pass, r.recv = .ok (b :: bs) ∧
      cjson (cstr ((b :: bs).take loginBufSize)) = some ⟨some user, some pass⟩ ∧ credentialsMatch user pass = true := by
  unfold AuthRequest.correct at h
  cases hr : r.recv with
  | error e =>
    rw [hr] at h
    cases h
  | ok buf =>
    rw [hr] at h
    cases buf with
    | nil => cases h
    | cons b bs =>
      simp only at h
      split at h
      · next user pass hj => exact ⟨b, bs, user, pass, rfl, hj, h⟩
      · cases h

theorem authHandler_correct {cjson : CJson} {r : AuthRequest} (h : r.correct cjson = true) (table : SessionTable) :
    (authHandler cjson table r).table =
      storeToken r.ticks (generateToken r.random (tokenLen + 1)) table := by
  obtain ⟨b, bs, user, pass, hr, hj, hmatch⟩ := r.exists_of_correct h
  simp only [authHandler, hr, hj, hmatch, if_true]
  split
  · rfl
  · split <;> rfl

theorem authHandler_incorrect {cjson : CJson} {r : AuthRequest} (h : r.correct cjson = false) (table : SessionTable) :
    (authHandler cjson table r).table = table := by
  unfold AuthRequest.correct at h
  unfold authHandler
  split
  · rfl
  · rfl
  · next buf hne hr =>
    simp only [hr] at h
    split
    · rfl
    · next user pass hj =>
      simp only [hj] at h
      rw [if_neg (by rw [h]; exact Bool.false_ne_true)]
    · rfl

/-! ## What a request does to the slot -/

/-- The slot a login leaves, which found it free. -/
def Session.issued (r : AuthRequest) : Session where
  active := true
  token := strncpy (generateToken r.random (tokenLen + 1)) tokenSize
  lastActivity := ticksToMs r.ticks

/-- What serving `r` makes of the slot. -/
inductive SlotStep (cjson : CJson) (s : Session) : Request → Session → Prop
  | store (r : AuthRequest) (hr : r.correct cjson = true) (hs : s.active = false) : SlotStep cjson s (.auth r) (.issued r)
  | refresh (r : HeaderRequest) (token : List UInt8) (hr : r.token 128 = some token) (hne : strlen token ≠ 0)
      (hs : s.Live token r.ticks) : SlotStep cjson s (.checkAuth r) { s with lastActivity := ticksToMs r.ticks }
  | logout (r : HeaderRequest) (token : List UInt8) (hr : r.token 64 = some token) (hne : strlen token ≠ 0)
      (hs : s.Live token r.ticks) : SlotStep cjson s (.logout r) {}
  | expire (r : Request) (hr : r.ReportsExpiry [s] s.token) : SlotStep cjson s r { s with active := false }
  | keep (r : Request) (hstore : ¬ r.Stores cjson [s]) (haccept : ¬ r.Accepted [s])
      (hexpire : ¬ ∃ token, r.ReportsExpiry [s] token) : SlotStep cjson s r s

/-- A token brought to the slot is of its live session, of its expired one, or not of it. -/
theorem Session.cases_token (s : Session) (token : List UInt8) (ticks : UInt32) :
    (strlen token ≠ 0 ∧ s.Live token ticks) ∨
      (strlen token ≠ 0 ∧ s.active = true ∧ cstr s.token = cstr token ∧
        ticksToMs ticks - s.lastActivity > sessionTimeoutMs) ∨
      (strlen token = 0 ∨ ¬ (s.active = true ∧ cstr s.token = cstr token)) := by
  by_cases hne : strlen token = 0
  · exact .inr (.inr (.inl hne))
  by_cases hm : s.active = true ∧ cstr s.token = cstr token
  · by_cases hle : ticksToMs ticks - s.lastActivity ≤ sessionTimeoutMs
    · exact .inl ⟨hne, hm.1, hm.2, hle⟩
    · exact .inr (.inl ⟨hne, hm.1, hm.2, UInt32.not_le.mp hle⟩)
  · exact .inr (.inr (.inr hm))

theorem not_accepted_of_none {r : Request} {table : SessionTable} (h : r.validation = none) :
    ¬ r.Accepted table := by
  rintro ⟨v, hv, -⟩
  rw [h] at hv
  cases hv

theorem not_reportsExpiry_of_none {r : Request} {table : SessionTable} (h : r.validation = none) :
    ¬ ∃ token, r.ReportsExpiry table token := by
  rintro ⟨token, v, hv, -⟩
  rw [h] at hv
  cases hv

theorem Request.validation_logout {r : HeaderRequest} {token : List UInt8} (h : r.token 64 = some token) :
    (Request.logout r).validation = some (token, r.ticks) := by
  simp only [Request.validation, h, Option.map_some]

theorem Request.validation_checkAuth {r : HeaderRequest} {token : List UInt8} (h : r.token 128 = some token) :
    (Request.checkAuth r).validation = some (token, r.ticks) := by
  simp only [Request.validation, h, Option.map_some]

theorem accepted_slot {r : Request} {s : Session} {token : List UInt8} {ticks : UInt32}
    (h : r.validation = some (token, ticks)) : r.Accepted [s] ↔ strlen token ≠ 0 ∧ s.Live token ticks := by
  rw [Request.Accepted, h, ← validateToken_slot]
  simp only [Option.mem_def, Option.some.injEq, exists_eq_left']

theorem reportsExpiry_slot {r : Request} {s : Session} {token : List UInt8} {ticks : UInt32}
    (h : r.validation = some (token, ticks)) (t : List UInt8) :
    r.ReportsExpiry [s] t ↔ cstr token = cstr t ∧ strlen token ≠ 0 ∧ s.active = true ∧
      cstr s.token = cstr token ∧ ticksToMs ticks - s.lastActivity > sessionTimeoutMs := by
  rw [Request.ReportsExpiry, h]
  simp only [Option.mem_def, Option.some.injEq, exists_eq_left', List.mem_singleton, exists_eq_left]

/-- A token that is not of the slot's session leaves it alone. -/
theorem SlotStep.other {cjson : CJson} {s : Session} {r : Request} {token : List UInt8} {ticks : UInt32}
    (hr : r.validation = some (token, ticks)) (hstore : ¬ r.Stores cjson [s])
    (h : strlen token = 0 ∨ ¬ (s.active = true ∧ cstr s.token = cstr token)) : SlotStep cjson s r s := by
  refine .keep r hstore (fun ha => ?_) fun ⟨t, ht⟩ => ?_
  · obtain ⟨hne, hl⟩ := (accepted_slot hr).mp ha
    exact h.elim hne fun hm => hm ⟨hl.1, hl.2.1⟩
  · obtain ⟨-, hne, ha, hm, -⟩ := (reportsExpiry_slot hr t).mp ht
    exact h.elim hne fun hn => hn ⟨ha, hm⟩

theorem serve_slot (cjson : CJson) (s : Session) (r : Request) :
    ∃ t, r.serve cjson [s] = [t] ∧ SlotStep cjson s r t := by
  cases r with
  | auth r =>
    cases hc : r.correct cjson with
    | true =>
      rw [Request.serve, authHandler_correct hc]
      cases hs : s.active with
      | false => exact ⟨.issued r, by simp [storeToken, hs, Session.issued], .store r hc hs⟩
      | true =>
        refine ⟨s, by simp [storeToken, hs], .keep _ ?_ (not_accepted_of_none rfl) (not_reportsExpiry_of_none rfl)⟩
        rintro ⟨-, u, hu, hf⟩
        rw [List.mem_singleton.mp hu, hs] at hf
        cases hf
    | false =>
      rw [Request.serve, authHandler_incorrect hc]
      have hstore : ¬ (Request.auth r).Stores cjson [s] := fun h => Bool.false_ne_true (hc.symm.trans h.1)
      exact ⟨s, rfl, .keep _ hstore (not_accepted_of_none rfl) (not_reportsExpiry_of_none rfl)⟩
  | logout r =>
    rw [Request.serve, logoutHandler, validateHeader_eq]
    cases ht : r.token 64 with
    | none =>
      have hv : (Request.logout r).validation = none := by simp only [Request.validation, ht, Option.map_none]
      exact ⟨s, rfl, .keep _ id (not_accepted_of_none hv) (not_reportsExpiry_of_none hv)⟩
    | some token =>
      have hv := Request.validation_logout ht
      rcases s.cases_token token r.ticks with ⟨hne, hl⟩ | ⟨hne, ha, hm, hold⟩ | ho
      · exact ⟨{}, by simp only [validateToken_live hne hl, List.map_cons, List.map_nil], .logout r token ht hne hl⟩
      · exact ⟨{ s with active := false }, by simp only [validateToken_expired hne ha hm hold],
          .expire _ ((reportsExpiry_slot hv _).mpr ⟨hm.symm, hne, ha, hm, hold⟩)⟩
      · exact ⟨s, by simp only [validateToken_other ho], .other hv id ho⟩
  | checkAuth r =>
    rw [Request.serve, checkAuthHandler, loggedInChecked, validateHeader_eq]
    cases ht : r.token 128 with
    | none =>
      have hv : (Request.checkAuth r).validation = none := by simp only [Request.validation, ht, Option.map_none]
      exact ⟨s, rfl, .keep _ id (not_accepted_of_none hv) (not_reportsExpiry_of_none hv)⟩
    | some token =>
      have hv := Request.validation_checkAuth ht
      rcases s.cases_token token r.ticks with ⟨hne, hl⟩ | ⟨hne, ha, hm, hold⟩ | ho
      · exact ⟨{ s with lastActivity := ticksToMs r.ticks }, by simp only [validateToken_live hne hl],
          .refresh r token ht hne hl⟩
      · exact ⟨{ s with active := false }, by simp only [validateToken_expired hne ha hm hold],
          .expire _ ((reportsExpiry_slot hv _).mpr ⟨hm.symm, hne, ha, hm, hold⟩)⟩
      · exact ⟨s, by simp only [validateToken_other ho], .other hv id ho⟩
  | otaUpload h recvs =>
    exact ⟨s, rfl, .keep _ id (not_accepted_of_none rfl) (not_reportsExpiry_of_none rfl)⟩

end GateNode.Http
