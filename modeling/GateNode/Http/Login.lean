/-
What a login's answer is worth. `auth_handler` says `ok` with a token
whether or not a slot took it; the token is usable exactly when one did, or
when chance made it the token of the session already there.
-/
import GateNode.Http.Server

namespace GateNode.Http

open CString

/-- The reply of a login that hands out the token `t`. -/
def okToken (t : List UInt8) : Response :=
  .sendStr (some "application/json") (.object [("result", ofString "ok"), ("token", t)])

/-! ## Tokens -/

theorem charset_ne_zero : ∀ i < charset.length, charset.getD i 0 ≠ 0 := by decide

theorem cstr_generateToken (random : Nat → UInt32) (len : Nat) :
    cstr (generateToken random (len + 1)) =
      (List.range len).map fun i => charset.getD ((random i).toNat % charset.length) 0 := by
  have hne : ∀ b ∈ (List.range len).map (fun i => charset.getD ((random i).toNat % charset.length) 0), b ≠ 0 := by
    intro b hb
    obtain ⟨i, -, rfl⟩ := List.mem_map.mp hb
    exact charset_ne_zero _ (Nat.mod_lt _ (by decide))
  rw [generateToken, if_neg (Nat.succ_ne_zero len), Nat.add_sub_cancel, cstr_append hne]
  exact List.append_nil _

theorem strlen_generateToken (random : Nat → UInt32) (len : Nat) :
    strlen (generateToken random (len + 1)) = len := by
  rw [strlen, cstr_generateToken, List.length_map, List.length_range]

/-! ## Headers -/

theorem bearer_ne_zero : ∀ b ∈ bearer, b ≠ 0 := by decide +kernel

/-- A header of the form clients send carries its token. -/
theorem validateHeader_bearer {size : Nat} {t : List UInt8} (ht : ∀ b ∈ t, b ≠ 0)
    (hl : bearer.length + t.length < size) (table : SessionTable) (ticks : UInt32) :
    validateHeader size table ⟨some (bearer ++ t), ticks⟩ = validateToken ticks t table := by
  have hc : cstr (bearer ++ t) = bearer ++ t := by rw [cstr_append bearer_ne_zero, cstr_eq_self ht]
  have hget : httpdReqGetHdrValueStr (some (bearer ++ t)) size = some (bearer ++ t ++ [0]) := by
    have hlen : strlen (bearer ++ t) < size := by
      rw [strlen, hc, List.length_append]
      exact hl
    simp only [httpdReqGetHdrValueStr, Option.bind_some, if_pos hlen, hc]
  have htoken : bearerToken (bearer ++ t ++ [0]) = some t := by
    rw [bearerToken, List.append_assoc, strstr_append bearer_ne_zero (by decide), cstr_append ht]
    simp [bearer, ofString, cstr_cons]
  simp only [validateHeader, hget, Option.bind_some, htoken]

/-! ## The reply -/

theorem replyMembers_pair {r : AuthRequest} {a b x y : String × List UInt8}
    (h : replyMembers r a b = [x, y]) : a = x ∧ b = y := by
  unfold replyMembers at h
  cases hf : r.addFirst <;> cases hs : r.addSecond <;> simp_all

/-- A login that answers with a token has run its slot search with it. -/
theorem authHandler_okToken {cjson : CJson} {table : SessionTable} {r : AuthRequest} {t : List UInt8}
    (h : (authHandler cjson table r).response = okToken t) :
    t = cstr (generateToken r.random (tokenLen + 1)) ∧
      (authHandler cjson table r).table =
        storeToken r.ticks (generateToken r.random (tokenLen + 1)) table := by
  have hfail : ("result", ofString "fail") ≠ ("result", ofString "ok") := by decide
  revert h
  unfold authHandler okToken
  split
  · intro h; cases h
  · intro h; cases h
  · split
    · intro h; cases h
    · split
      · split
        · intro h; cases h
        · split
          · intro h; cases h
          · intro h
            simp only [Response.sendStr.injEq, Body.object.injEq, true_and] at h
            have := (replyMembers_pair h).2
            simp only [Prod.mk.injEq, true_and] at this
            exact ⟨this.symm, rfl⟩
      · intro h
        simp only [Response.sendStr.injEq, true_and] at h
        split at h
        · simp only [Body.object.injEq] at h
          exact absurd (replyMembers_pair h).1 hfail
        · cases h
    · intro h; cases h

/-! ## The token works -/

/-- A request with a token in the header clients send. -/
def bearerRequest (t : List UInt8) (ticks : UInt32) : HeaderRequest := ⟨some (bearer ++ t), ticks⟩

theorem loggedInChecked_bearer {t : List UInt8} (ht : ∀ b ∈ t, b ≠ 0) (hl : t.length = tokenLen) (s : Session)
    (ticks : UInt32) : (loggedInChecked [s] (bearerRequest t ticks)).1 = .espOk ↔ s.Live t ticks := by
  have hlen : bearer.length + t.length < 128 := by
    rw [hl]
    decide
  have hne : strlen t ≠ 0 := by
    rw [strlen, cstr_eq_self ht, hl]
    decide
  rw [loggedInChecked_fst, bearerRequest, validateHeader_bearer ht hlen, validateToken_slot]
  exact and_iff_right hne

/-- The slot search, of one slot: a free slot takes the token and the time, a taken one keeps its own. -/
theorem storeToken_live {ticks ticks' : UInt32} (s : Session) (random : Nat → UInt32)
    (ht : ticksToMs ticks' - ticksToMs ticks ≤ sessionTimeoutMs) :
    ∃ u, storeToken ticks (generateToken random (tokenLen + 1)) [s] = [u] ∧
      (u.Live (cstr (generateToken random (tokenLen + 1))) ticks' ↔
        s.active = false ∨ s.Live (cstr (generateToken random (tokenLen + 1))) ticks') := by
  cases hs : s.active with
  | true =>
    refine ⟨s, by simp [storeToken, hs], ?_⟩
    simp
  | false =>
    have hfit : strlen (generateToken random (tokenLen + 1)) ≤ tokenSize := by
      rw [strlen_generateToken]
      decide
    refine ⟨⟨true, strncpy (generateToken random (tokenLen + 1)) tokenSize, ticksToMs ticks⟩,
      by simp [storeToken, hs], ?_⟩
    simp only [true_or, iff_true]
    refine ⟨rfl, ?_, ht⟩
    rw [cstr_cstr]
    exact cstr_strncpy hfit

/-- **A login's token is usable exactly when a slot was free for it**, or when it is by chance the
token of the session already there: whatever the history of requests, for a check made within the
session's timeout. -/
theorem login_token_usable_iff (cjson : CJson) (history : List Request) (r : AuthRequest) (t : List UInt8)
    (ticks' : UInt32) (hok : (authHandler cjson (sessionsAfter cjson history) r).response = okToken t)
    (ht : ticksToMs ticks' - ticksToMs r.ticks ≤ sessionTimeoutMs) :
    (loggedInChecked (authHandler cjson (sessionsAfter cjson history) r).table
        (bearerRequest t ticks')).1 = .espOk ↔
      (∃ s ∈ sessionsAfter cjson history, s.active = false) ∨
        ∃ s ∈ sessionsAfter cjson history, s.Live t ticks' := by
  obtain ⟨rfl, htable⟩ := authHandler_okToken hok
  obtain ⟨s, hs⟩ := sessionsAfter_slot cjson history
  obtain ⟨u, hu, hlive⟩ := storeToken_live s r.random ht
  have hne (b : UInt8) (hb : b ∈ cstr (generateToken r.random (tokenLen + 1))) : b ≠ 0 := ne_zero_of_mem_cstr hb
  rw [htable, hs, hu, loggedInChecked_bearer hne (strlen_generateToken _ _), hlive]
  simp only [List.mem_singleton, exists_eq_left]

/-- `cJSON_Parse`, on the one body the dashboard's login sends. -/
def adminJson : CJson := fun body =>
  if body = ofString "\x7b\"username\":\"admin\",\"password\":\"pindora\"\x7d" then
    some ⟨some (ofString "admin"), some (ofString "pindora")⟩
  else
    none

/-- A login with the right credentials at tick `ticks`, each random number being `n`. -/
def adminLogin (ticks n : UInt32) : AuthRequest where
  recv := .ok (ofString "\x7b\"username\":\"admin\",\"password\":\"pindora\"\x7d")
  ticks := ticks
  random := fun _ => n

theorem login_token_usable_first :
    (authHandler adminJson (sessionsAfter adminJson []) (adminLogin 500 0)).response =
        okToken (List.replicate tokenLen 65) ∧
      ((loggedInChecked (authHandler adminJson (sessionsAfter adminJson []) (adminLogin 500 0)).table
          (bearerRequest (List.replicate tokenLen 65) 600)).1 = .espOk ↔
        (∃ s ∈ sessionsAfter adminJson [], s.active = false) ∨
          ∃ s ∈ sessionsAfter adminJson [], s.Live (List.replicate tokenLen 65) 600) := by
  have hok : (authHandler adminJson (sessionsAfter adminJson []) (adminLogin 500 0)).response =
      okToken (List.replicate tokenLen 65) := by decide +kernel
  exact ⟨hok, login_token_usable_iff adminJson [] (adminLogin 500 0) _ 600 hok (by decide)⟩

/-- The second of two logins is told `ok` with a token no slot took. -/
theorem second_login_unusable :
    (authHandler adminJson (sessionsAfter adminJson [.auth (adminLogin 500 0)]) (adminLogin 600 1)).response =
        okToken (List.replicate tokenLen 66) ∧
      (loggedInChecked
          (authHandler adminJson (sessionsAfter adminJson [.auth (adminLogin 500 0)]) (adminLogin 600 1)).table
          (bearerRequest (List.replicate tokenLen 66) 600)).1 = .espFail := by
  decide +kernel

end GateNode.Http
