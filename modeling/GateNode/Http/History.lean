/-
What the slot tells of the requests so far. A session is active since a login
stored its token and nobody logged out or presented it after its time; so a
token is accepted only since it was issued, and an abandoned session keeps
the slot for good.
-/
import GateNode.Lib.Since
import GateNode.Http.Slot

namespace GateNode.Http

open CString History

/-- The request ends the session: a logout that is accepted, or a validation that finds it expired. -/
def Request.Frees (table : SessionTable) (r : Request) : Prop :=
  r.LogsOut table ∨ ∃ token, r.ReportsExpiry table token

/-- A login with the right credentials generates `token` and meets a free slot. -/
def Request.Issues (cjson : CJson) (table : SessionTable) (token : List UInt8) : Request → Prop
  | .auth r => r.correct cjson = true ∧ cstr (generateToken r.random (tokenLen + 1)) = cstr token ∧
      ∃ s ∈ table, s.active = false
  | _ => False

/-- A login stored its token, and no request has ended a session since. -/
def Occupied (cjson : CJson) (history : List Request) : Prop :=
  Since (fun pre r => r.Stores cjson (sessionsAfter cjson pre)) (fun pre r => ¬ r.Frees (sessionsAfter cjson pre))
    history

/-- `token` was issued, and since the latest time it was no logout has been accepted and no
validation of it has reported expiry. -/
def IssuedSince (cjson : CJson) (token : List UInt8) (history : List Request) : Prop :=
  Since (fun pre r => r.Issues cjson (sessionsAfter cjson pre) token)
    (fun pre r => ¬ r.Issues cjson (sessionsAfter cjson pre) token ∧ ¬ r.LogsOut (sessionsAfter cjson pre) ∧
      ¬ r.ReportsExpiry (sessionsAfter cjson pre) token) history

theorem Request.Issues.stores {cjson : CJson} {table : SessionTable} {token : List UInt8} {r : Request}
    (h : r.Issues cjson table token) : r.Stores cjson table := by
  cases r with
  | auth r => exact ⟨h.1, h.2.2⟩
  | _ => exact h.elim

theorem sessionsAfter_snoc (cjson : CJson) (history : List Request) (r : Request) :
    sessionsAfter cjson (history ++ [r]) = r.serve cjson (sessionsAfter cjson history) := by
  rw [sessionsAfter, List.foldl_append, List.foldl_cons, List.foldl_nil]
  rfl

/-- The history rule: what holds of the slot at boot and is kept by every step of it. -/
theorem slot_history {cjson : CJson} {I : List Request → Session → Prop} (h0 : I [] {})
    (hs : ∀ history s r t, sessionsAfter cjson history = [s] → I history s → SlotStep cjson s r t →
      I (history ++ [r]) t) {history : List Request} {s : Session} (h : sessionsAfter cjson history = [s]) :
    I history s := by
  induction history using List.reverseRecOn generalizing s with
  | nil =>
    cases h
    exact h0
  | append_singleton history r ih =>
    obtain ⟨u, hu⟩ := sessionsAfter_slot cjson history
    obtain ⟨t, ht, hstep⟩ := serve_slot cjson u r
    rw [sessionsAfter_snoc, hu, ht] at h
    cases h
    exact hs history u r _ hu (ih hu) hstep

/-! ## Active since -/

theorem SlotStep.active_iff {cjson : CJson} {s t : Session} {r : Request} (h : SlotStep cjson s r t) :
    t.active = true ↔ r.Stores cjson [s] ∨ s.active = true ∧ ¬ r.Frees [s] := by
  cases h with
  | store r hr hs => exact iff_of_true rfl (.inl ⟨hr, s, List.mem_singleton.mpr rfl, hs⟩)
  | refresh r token hr hne hs =>
    have hv := Request.validation_checkAuth hr
    refine iff_of_true hs.1 (.inr ⟨hs.1, ?_⟩)
    rintro (hl | ⟨t, ht⟩)
    · exact hl
    · exact UInt32.not_lt.mpr hs.2.2 ((reportsExpiry_slot hv t).mp ht).2.2.2.2
  | logout r token hr hne hs =>
    have hv := Request.validation_logout hr
    refine iff_of_false nofun ?_
    rintro (hst | ⟨-, hn⟩)
    · exact hst
    · exact hn (.inl ((accepted_slot hv).mpr ⟨hne, hs⟩))
  | expire r hr =>
    refine iff_of_false nofun ?_
    rintro (hst | ⟨-, hn⟩)
    · cases r with
      | auth r => exact not_reportsExpiry_of_none rfl ⟨_, hr⟩
      | _ => exact hst
    · exact hn (.inr ⟨_, hr⟩)
  | keep r hstore haccept hexpire =>
    constructor
    · refine fun ha => .inr ⟨ha, ?_⟩
      rintro (hl | he)
      · cases r with
        | logout r => exact haccept hl
        | _ => exact hl
      · exact hexpire he
    · rintro (hst | ⟨ha, -⟩)
      · exact absurd hst hstore
      · exact ha

/-- A session is active exactly since a login stored its token and no request has ended it. -/
theorem active_iff_since {cjson : CJson} {history : List Request} {s : Session}
    (h : sessionsAfter cjson history = [s]) :
    s.active = true ↔ Occupied cjson history := by
  have hsince := @iff_since _ (fun pre r => Request.Stores cjson (sessionsAfter cjson pre) r)
    (fun pre r => ¬ r.Frees (sessionsAfter cjson pre)) history
    (fun history => ∃ s, sessionsAfter cjson history = [s] ∧ s.active = true) ?_ ?_
  · rw [Occupied, ← hsince, h]
    simp only [List.cons.injEq, and_true, exists_eq_left']
  · rintro ⟨s, hs, ha⟩
    cases hs
    cases ha
  · intro pre r
    obtain ⟨u, hu⟩ := sessionsAfter_slot cjson pre
    obtain ⟨t, ht, hstep⟩ := serve_slot cjson u r
    rw [sessionsAfter_snoc, hu, ht]
    simp only [List.cons.injEq, and_true, exists_eq_left']
    exact hstep.active_iff

/-! ## Accepted since -/

theorem Request.issues_congr {cjson : CJson} {table : SessionTable} {token token' : List UInt8} {r : Request}
    (h : cstr token = cstr token') : r.Issues cjson table token ↔ r.Issues cjson table token' := by
  cases r with
  | auth r => simp only [Request.Issues, h]
  | _ => rfl

theorem Request.reportsExpiry_congr {table : SessionTable} {token token' : List UInt8} {r : Request}
    (h : cstr token = cstr token') : r.ReportsExpiry table token ↔ r.ReportsExpiry table token' := by
  simp only [Request.ReportsExpiry, h]

/-- The token in an active slot was issued into it, and no request has issued it again, logged out
or found it expired since. -/
theorem issued_since {cjson : CJson} {history : List Request} {s : Session}
    (h : sessionsAfter cjson history = [s]) (ha : s.active = true) : IssuedSince cjson s.token history := by
  refine slot_history (I := fun history s => s.active = true → IssuedSince cjson s.token history) nofun ?_ h ha
  intro history s r t hs ih hstep ha
  rw [IssuedSince, since_snoc, hs]
  have hactive := hstep.active_iff.mp ha
  cases hstep with
  | store r hr hfree =>
    have hfit : strlen (generateToken r.random (tokenLen + 1)) ≤ tokenSize := by
      rw [strlen_generateToken]
      decide
    exact .inl ⟨hr, (cstr_strncpy hfit).symm, s, List.mem_singleton.mpr rfl, hfree⟩
  | refresh r token hr hne hlive =>
    obtain hst | ⟨-, hn⟩ := hactive
    · exact hst.elim
    · exact .inr ⟨ih hlive.1, fun hi => hi.elim, fun hl => hn (.inl hl), fun he => hn (.inr ⟨_, he⟩)⟩
  | logout | expire => cases ha
  | keep r hstore haccept hexpire =>
    obtain hst | ⟨-, hn⟩ := hactive
    · exact absurd hst hstore
    · exact .inr ⟨ih ha, fun hi => hstore hi.stores, fun hl => hn (.inl hl), fun he => hn (.inr ⟨_, he⟩)⟩

theorem IssuedSince.strlen {cjson : CJson} {token : List UInt8} {history : List Request}
    (h : IssuedSince cjson token history) : strlen token = tokenLen := by
  obtain ⟨pre, r, post, -, hissue, -⟩ := h
  cases r with
  | auth r => rw [CString.strlen, ← hissue.2.1, ← CString.strlen, strlen_generateToken]
  | _ => exact hissue.elim

/-- **A token is accepted only since it was issued**: an earlier login with the right credentials
generated it and stored it in a free slot, and since the latest such login no logout was accepted
and no validation of it has reported expiry. -/
theorem accepted_since_issued (cjson : CJson) (history : List Request) (token : List UInt8) (ticks : UInt32)
    (h : (validateToken ticks token (sessionsAfter cjson history)).1 = true) :
    strlen token = tokenLen ∧ IssuedSince cjson token history := by
  obtain ⟨s, hs⟩ := sessionsAfter_slot cjson history
  rw [hs, validateToken_slot] at h
  obtain ⟨-, ha, ht, -⟩ := h
  have hsince := issued_since hs ha
  simp only [IssuedSince, Request.issues_congr ht, Request.reportsExpiry_congr ht] at hsince
  exact ⟨IssuedSince.strlen hsince, hsince⟩

/-- The first token after boot, checked a second after its login. -/
theorem accepted_since_issued_first :
    strlen (List.replicate tokenLen 65) = tokenLen ∧
      IssuedSince adminJson (List.replicate tokenLen 65) [.auth (adminLogin 500 0)] :=
  accepted_since_issued adminJson [.auth (adminLogin 500 0)] (List.replicate tokenLen 65) 600 (by decide +kernel)

/-! ## Abandoned sessions -/

/-- The token of `r` is in a slot of the table, as stored when `r` was served. -/
def AuthRequest.StoredIn (r : AuthRequest) (table : SessionTable) : Prop :=
  ∃ s ∈ table, s.active = true ∧ cstr s.token = cstr (generateToken r.random (tokenLen + 1)) ∧
    s.lastActivity = ticksToMs r.ticks

/-- **Once every active session has expired, a login with the right credentials gets a slot exactly
when no session is left in one**: none was stored since which there was no logout and nobody
presented its token after its time. -/
theorem expired_login_stored_iff (cjson : CJson) (history : List Request) (r : AuthRequest)
    (hc : r.correct cjson = true)
    (hexp : ∀ s ∈ sessionsAfter cjson history, s.active = true →
      ticksToMs r.ticks - s.lastActivity > sessionTimeoutMs) :
    r.StoredIn (authHandler cjson (sessionsAfter cjson history) r).table ↔
      ¬ Occupied cjson history := by
  obtain ⟨s, hs⟩ := sessionsAfter_slot cjson history
  rw [← active_iff_since hs, authHandler_correct hc, hs, AuthRequest.StoredIn]
  cases ha : s.active with
  | true =>
    -- The slot keeps its own time, which is not the login's.
    refine iff_of_false ?_ (by simp)
    simp only [storeToken, ha, if_true, List.mem_singleton, exists_eq_left]
    rintro ⟨-, -, ht⟩
    have hlt := hexp s (by rw [hs]; exact List.mem_singleton.mpr rfl) ha
    rw [ht, UInt32.sub_self] at hlt
    exact absurd hlt (by decide)
  | false =>
    refine iff_of_true ?_ (by simp)
    have hfit : strlen (generateToken r.random (tokenLen + 1)) ≤ tokenSize := by
      rw [strlen_generateToken]
      decide
    simp only [storeToken, ha, Bool.false_eq_true, if_false, List.mem_singleton, exists_eq_left]
    exact ⟨trivial, cstr_strncpy hfit, trivial⟩

/-- A login whose session is found expired by its own tab, and a second later another one. -/
theorem expired_login_stored_reported :
    let history := [.auth (adminLogin 500 0), .checkAuth (bearerRequest (List.replicate tokenLen 65) 18501)]
    (adminLogin 18601 1).StoredIn (authHandler adminJson (sessionsAfter adminJson history) (adminLogin 18601 1)).table ∧
      ¬ Occupied adminJson history := by
  intro history
  have hstored : (adminLogin 18601 1).StoredIn
      (authHandler adminJson (sessionsAfter adminJson history) (adminLogin 18601 1)).table := by
    unfold AuthRequest.StoredIn
    decide +kernel
  exact ⟨hstored, (expired_login_stored_iff adminJson history (adminLogin 18601 1) (by decide +kernel)
    (by decide +kernel)).mp hstored⟩

/-- A login whose session is abandoned, and another 180010 ms later: the slot is still the first one's. -/
theorem abandoned_session_locks_out :
    (adminLogin 18501 1).correct adminJson = true ∧
      (∀ s ∈ sessionsAfter adminJson [.auth (adminLogin 500 0)], s.active = true →
        ticksToMs (adminLogin 18501 1).ticks - s.lastActivity > sessionTimeoutMs) ∧
      ¬ (adminLogin 18501 1).StoredIn
        (authHandler adminJson (sessionsAfter adminJson [.auth (adminLogin 500 0)]) (adminLogin 18501 1)).table := by
  refine ⟨by decide +kernel, by decide +kernel, ?_⟩
  unfold AuthRequest.StoredIn
  decide +kernel

end GateNode.Http
