/-
The session timeout in real time. The tick counter wraps at 32 bits and so
does the product that makes milliseconds of it; the difference of two
products is the true one modulo 2^32, whatever wrapped in between. So the
timeout is right but for idle times that come round to where they began.
-/
import Mathlib.Algebra.Group.Nat.Defs
import GateNode.Http.History

namespace GateNode.Http

open CString History

/-- The request, with the clock read at true tick `n`. -/
def Request.atTick (n : Nat) : Request → Request
  | .auth r => .auth { r with ticks := .ofNat n }
  | .logout r => .logout { r with ticks := .ofNat n }
  | .checkAuth r => .checkAuth { r with ticks := .ofNat n }
  | .otaUpload h recvs => .otaUpload h recvs

/-- Requests at their true ticks, as the server sees them. -/
def timed (requests : List (Nat × Request)) : List Request := requests.map fun p => p.2.atTick p.1

/-- A login is stored or a token accepted. -/
def Request.Uses (cjson : CJson) (table : SessionTable) (r : Request) : Prop :=
  r.Stores cjson table ∨ r.Accepted table

/-- The session was issued or last accepted at true tick `n`. -/
def LastUsed (cjson : CJson) (n : Nat) (requests : List (Nat × Request)) : Prop :=
  Since (fun pre p => p.1 = n ∧ (p.2.atTick p.1).Uses cjson (sessionsAfter cjson (timed pre)))
    (fun pre p => ¬ (p.2.atTick p.1).Uses cjson (sessionsAfter cjson (timed pre))) requests

theorem timed_snoc (requests : List (Nat × Request)) (p : Nat × Request) :
    timed (requests ++ [p]) = timed requests ++ [p.2.atTick p.1] := by
  simp [timed]

theorem Request.atTick_auth {n : Nat} {q : Request} {r : AuthRequest} (h : q.atTick n = .auth r) :
    r.ticks = .ofNat n := by
  cases q <;> cases h
  rfl

theorem Request.atTick_checkAuth {n : Nat} {q : Request} {r : HeaderRequest} (h : q.atTick n = .checkAuth r) :
    r.ticks = .ofNat n := by
  cases q <;> cases h
  rfl

theorem LastUsed.mem {cjson : CJson} {n : Nat} {requests : List (Nat × Request)} (h : LastUsed cjson n requests) :
    ∃ p ∈ requests, p.1 = n := by
  obtain ⟨pre, p, post, rfl, hp, -⟩ := h
  exact ⟨p, by simp, hp.1⟩

/-- The time a slot keeps is the one its session was last used at. -/
theorem lastActivity_lastUsed {cjson : CJson} {requests : List (Nat × Request)} {s : Session}
    (h : sessionsAfter cjson (timed requests) = [s]) (ha : s.active = true) :
    ∃ n, LastUsed cjson n requests ∧ s.lastActivity = ticksToMs (.ofNat n) := by
  induction requests using List.reverseRecOn generalizing s with
  | nil =>
    cases h
    cases ha
  | append_singleton requests p ih =>
    obtain ⟨u, hu⟩ := sessionsAfter_slot cjson (timed requests)
    obtain ⟨t, ht, hstep⟩ := serve_slot cjson u (p.2.atTick p.1)
    rw [timed_snoc, sessionsAfter_snoc, hu, ht] at h
    obtain rfl : t = s := by simpa using h
    simp only [LastUsed, since_snoc, hu]
    generalize hq : p.2.atTick p.1 = r at hstep
    cases hstep with
    | store r hr hfree =>
      have hn : ticksToMs r.ticks = ticksToMs (.ofNat p.1) := by rw [Request.atTick_auth hq]
      exact ⟨p.1, .inl ⟨rfl, .inl ⟨hr, u, List.mem_singleton.mpr rfl, hfree⟩⟩, hn⟩
    | refresh r token hr hne hlive =>
      have hn : ticksToMs r.ticks = ticksToMs (.ofNat p.1) := by rw [Request.atTick_checkAuth hq]
      have hv := Request.validation_checkAuth hr
      exact ⟨p.1, .inl ⟨rfl, .inr ((accepted_slot hv).mpr ⟨hne, hlive⟩)⟩, hn⟩
    | logout | expire => cases ha
    | keep r hstore haccept =>
      obtain ⟨n, hn, hlast⟩ := ih hu ha
      exact ⟨n, .inr ⟨hn, not_or.mpr ⟨hstore, haccept⟩⟩, hlast⟩

/-- The difference of two readings, whatever has wrapped between them. -/
theorem ticksToMs_sub {m n : Nat} (h : m ≤ n) :
    (ticksToMs (.ofNat n) - ticksToMs (.ofNat m)).toNat = (n - m) * 10 % 2 ^ 32 := by
  have hp : portTickPeriodMs = .ofNat 10 := rfl
  have hle : m * 10 ≤ n * 10 := Nat.mul_le_mul_right 10 h
  rw [ticksToMs, ticksToMs, hp, ← UInt32.ofNat_mul, ← UInt32.ofNat_mul, ← UInt32.ofNat_sub hle, ← Nat.sub_mul,
    UInt32.toNat_ofNat']

/-- **The session timeout is right exactly where the idle time does not come round**: a request with
the session's own token, at any tick after the requests so far, is accepted just when at most
180000 ms have passed since the session's issue or last accepted request, unless more have passed
and not more modulo 2^32. -/
theorem session_timeout_iff (cjson : CJson) (requests : List (Nat × Request)) (now : Nat) (token : List UInt8)
    (s : Session) (hnow : ∀ p ∈ requests, p.1 ≤ now) (hs : sessionsAfter cjson (timed requests) = [s])
    (ha : s.active = true) (ht : cstr token = cstr s.token) :
    ∃ n, LastUsed cjson n requests ∧
      (((validateToken (.ofNat now) token (sessionsAfter cjson (timed requests))).1 = true ↔
          (now - n) * 10 ≤ 180000) ↔
        ((now - n) * 10 ≤ 180000 ∨ (now - n) * 10 % 2 ^ 32 > 180000)) := by
  obtain ⟨n, hn, hlast⟩ := lastActivity_lastUsed hs ha
  refine ⟨n, hn, ?_⟩
  have hle : n ≤ now := by
    obtain ⟨p, hp, rfl⟩ := hn.mem
    exact hnow p hp
  have hne : strlen token ≠ 0 := by
    rw [strlen, ht, ← strlen, (issued_since hs ha).strlen]
    decide
  have hlive : s.Live token (.ofNat now) ↔ (now - n) * 10 % 2 ^ 32 ≤ 180000 := by
    rw [Session.Live, hlast, UInt32.le_iff_toNat_le, ticksToMs_sub hle]
    exact ⟨fun h => h.2.2, fun h => ⟨ha, ht.symm, h⟩⟩
  rw [hs, validateToken_slot, hlive, and_iff_right hne]
  have hmod : (now - n) * 10 % 2 ^ 32 ≤ (now - n) * 10 := Nat.mod_le _ _
  omega

/-- A session ten ticks old. -/
theorem session_timeout_young :
    ∃ n, LastUsed adminJson n [(500, .auth (adminLogin 0 0))] ∧
      (((validateToken (.ofNat 510) (List.replicate tokenLen 65)
          (sessionsAfter adminJson (timed [(500, .auth (adminLogin 0 0))]))).1 = true ↔ (510 - n) * 10 ≤ 180000) ↔
        ((510 - n) * 10 ≤ 180000 ∨ (510 - n) * 10 % 2 ^ 32 > 180000)) :=
  session_timeout_iff adminJson [(500, .auth (adminLogin 0 0))] 510 (List.replicate tokenLen 65)
    (.issued (adminLogin 500 0)) (by simp) (by decide +kernel) rfl (by decide +kernel)

/-- A session left alone for 4294967300 ms, 49 days and more, is taken for one that is 4 ms old. -/
theorem stale_session_accepted :
    LastUsed adminJson 500 [(500, .auth (adminLogin 0 0))] ∧
      (validateToken (.ofNat 429497230) (List.replicate tokenLen 65)
        (sessionsAfter adminJson (timed [(500, .auth (adminLogin 0 0))]))).1 = true ∧
      ¬ (429497230 - 500) * 10 ≤ 180000 := by
  have hstores : ((adminLogin 0 0).correct adminJson) = true := by decide +kernel
  refine ⟨⟨[], _, [], rfl, ⟨rfl, .inl ⟨hstores, {}, ?_, rfl⟩⟩, by simp⟩, by decide +kernel, by decide⟩
  exact List.mem_singleton.mpr rfl

end GateNode.Http
