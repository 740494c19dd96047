/-
A session in use. Its owner shows the token at `/check-auth` in time, over and
over, and nobody else has it: then every such request is accepted for good,
over every wrap of the clock, and no other token and no other login gets in,
whatever the others ask in between.
-/
import GateNode.Http.Timeout

namespace GateNode.Http

open CString History

/-- The request brings `token` to `validate_token`. -/
def Request.Brings (token : List UInt8) (r : Request) : Prop := ∃ v ∈ r.validation, cstr v.1 = cstr token

/-- From true tick `n` on, `/check-auth` brings the token again and again within 180000 ms, and no
other request brings it. The others come when they like. -/
inductive KeptAlive (token : List UInt8) : Nat → List (Nat × Request) → Prop
  | nil (n : Nat) : KeptAlive token n []
  | check {n now : Nat} {r : HeaderRequest} {rest : List (Nat × Request)}
      (hr : (Request.checkAuth r).Brings token) (hle : n ≤ now) (hgap : (now - n) * 10 ≤ 180000)
      (hrest : KeptAlive token now rest) : KeptAlive token n ((now, .checkAuth r) :: rest)
  | other {n now : Nat} {r : Request} {rest : List (Nat × Request)} (hr : ¬ r.Brings token)
      (hrest : KeptAlive token n rest) : KeptAlive token n ((now, r) :: rest)

/-- The slot holds the session of `token`, last used at true tick `n`. -/
def Session.Owned (token : List UInt8) (n : Nat) (s : Session) : Prop :=
  s.active = true ∧ cstr s.token = cstr token ∧ s.lastActivity = ticksToMs (.ofNat n)

theorem Request.brings_iff {token t : List UInt8} {ticks : UInt32} {r : Request}
    (h : r.validation = some (t, ticks)) : r.Brings token ↔ cstr t = cstr token := by
  simp only [Request.Brings, h, Option.mem_def, Option.some.injEq, exists_eq_left']

/-- The clock changes nothing about the token. -/
theorem Request.brings_atTick {token : List UInt8} (n : Nat) (r : Request) :
    (r.atTick n).Brings token ↔ r.Brings token := by
  cases r with
  | logout r =>
    show (∃ v ∈ (r.token 64).map fun t => (t, UInt32.ofNat n), _) ↔ ∃ v ∈ (r.token 64).map fun t => (t, r.ticks), _
    cases r.token 64 <;> simp
  | checkAuth r =>
    show (∃ v ∈ (r.token 128).map fun t => (t, UInt32.ofNat n), _) ↔ ∃ v ∈ (r.token 128).map fun t => (t, r.ticks), _
    cases r.token 128 <;> simp
  | auth r => rfl
  | otaUpload h recvs => rfl

theorem Session.Owned.live {token t : List UInt8} {n now : Nat} {s : Session} (h : s.Owned token n)
    (ht : cstr t = cstr token) (hle : n ≤ now) (hgap : (now - n) * 10 ≤ 180000) : s.Live t (.ofNat now) := by
  obtain ⟨ha, hs, hlast⟩ := h
  refine ⟨ha, hs.trans ht.symm, ?_⟩
  rw [hlast, UInt32.le_iff_toNat_le, ticksToMs_sub hle]
  exact (Nat.mod_le _ _).trans hgap

/-! ## One request -/

/-- What passes at an owned slot brings its token. -/
theorem Session.Owned.brings {token : List UInt8} {n : Nat} {s : Session} (h : s.Owned token n) {r : Request}
    (ha : r.Accepted [s]) : r.Brings token := by
  obtain ⟨v, hv, hval⟩ := ha
  obtain ⟨-, -, hm, -⟩ := validateToken_slot.mp hval
  exact ⟨v, hv, hm.symm.trans h.2.1⟩

/-- A request without the token leaves an owned slot as it is. -/
theorem Session.Owned.serve_other {cjson : CJson} {token : List UInt8} {n : Nat} {s : Session}
    (h : s.Owned token n) {r : Request} (hr : ¬ r.Brings token) : r.serve cjson [s] = [s] := by
  obtain ⟨t, ht, hstep⟩ := serve_slot cjson s r
  cases hstep with
  | store r hc hfree => exact absurd (h.1.symm.trans hfree) (by decide)
  | refresh r t hv hne hlive =>
    exact absurd (h.brings ((accepted_slot (Request.validation_checkAuth hv)).mpr ⟨hne, hlive⟩)) hr
  | logout r t hv hne hlive =>
    exact absurd (h.brings ((accepted_slot (Request.validation_logout hv)).mpr ⟨hne, hlive⟩)) hr
  | expire r hexp =>
    obtain ⟨v, hv, htok, -⟩ := hexp
    exact absurd ⟨v, hv, htok.trans h.2.1⟩ hr
  | keep => exact ht

/-- The owner's check in time is accepted, and the time in the slot is the check's. -/
theorem Session.Owned.serve_check {token : List UInt8} {n now : Nat} {s : Session} (h : s.Owned token n)
    (cjson : CJson) (hne : strlen token ≠ 0) {r : HeaderRequest}
    (hr : ((Request.checkAuth r).atTick now).Brings token) (hle : n ≤ now) (hgap : (now - n) * 10 ≤ 180000) :
    ((Request.checkAuth r).atTick now).Accepted [s] ∧
      ∃ t, ((Request.checkAuth r).atTick now).serve cjson [s] = [t] ∧ t.Owned token now := by
  obtain ⟨v, hv, htok⟩ := hr
  have hv' : ((Request.checkAuth r).atTick now).validation = some v := hv
  obtain ⟨tok, htok128, rfl⟩ := Option.map_eq_some_iff.mp hv'
  have hlive := h.live htok hle hgap
  have hne' : strlen tok ≠ 0 := by
    rw [strlen, htok]
    exact hne
  refine ⟨(accepted_slot hv').mpr ⟨hne', hlive⟩, { s with lastActivity := ticksToMs (.ofNat now) }, ?_, h.1, h.2.1, rfl⟩
  have htok' : HeaderRequest.token 128 { r with ticks := .ofNat now } = some tok := htok128
  show (checkAuthHandler [s] { r with ticks := .ofNat now }).table = _
  rw [checkAuthHandler, loggedInChecked, validateHeader_eq, htok']
  simp only [validateToken_live hne' hlive]

/-! ## Every request -/

/-- The request is accepted just when it brings the token, and no login gets the slot. -/
def OwnerOnly (cjson : CJson) (token : List UInt8) (pre : List (Nat × Request)) (p : Nat × Request) : Prop :=
  ((p.2.atTick p.1).Accepted (sessionsAfter cjson (timed pre)) ↔ p.2.Brings token) ∧
    ¬ (p.2.atTick p.1).Stores cjson (sessionsAfter cjson (timed pre))

theorem Session.Owned.not_stores {cjson : CJson} {token : List UInt8} {n : Nat} {s : Session} (h : s.Owned token n)
    (r : Request) : ¬ r.Stores cjson [s] := by
  intro hst
  cases r with
  | auth r =>
    obtain ⟨-, u, hu, hfree⟩ := hst
    rw [List.mem_singleton.mp hu, h.1] at hfree
    cases hfree
  | logout | checkAuth | otaUpload => exact hst

/-- The run lemma: kept alive, the slot stays the owner's. -/
theorem KeptAlive.ownerOnly {cjson : CJson} {token : List UInt8} {n : Nat} {requests run : List (Nat × Request)}
    (h : KeptAlive token n run) (hne : strlen token ≠ 0) {s : Session}
    (hs : sessionsAfter cjson (timed requests) = [s]) (ho : s.Owned token n) :
    Always (OwnerOnly cjson token) requests run := by
  induction h generalizing requests s with
  | nil n => exact always_nil
  | @check n now r rest hr hle hgap hrest ih =>
    obtain ⟨hacc, t, ht, ho'⟩ := ho.serve_check cjson hne ((Request.brings_atTick now _).mpr hr) hle hgap
    refine always_cons.mpr ⟨?_, ih (s := t) ?_ ho'⟩
    · rw [OwnerOnly, hs]
      exact ⟨iff_of_true hacc hr, ho.not_stores _⟩
    · rw [timed_snoc, sessionsAfter_snoc, hs, ht]
  | @other n now r rest hr hrest ih =>
    have hr' : ¬ (r.atTick now).Brings token := fun hb => hr ((Request.brings_atTick now r).mp hb)
    refine always_cons.mpr ⟨?_, ih (s := s) ?_ ho⟩
    · rw [OwnerOnly, hs]
      exact ⟨iff_of_false (fun ha => hr' (ho.brings ha)) hr, ho.not_stores _⟩
    · rw [timed_snoc, sessionsAfter_snoc, hs, ho.serve_other hr']

theorem LastUsed.unique {cjson : CJson} {m n : Nat} {requests : List (Nat × Request)}
    (hm : LastUsed cjson m requests) (hn : LastUsed cjson n requests) : m = n := by
  induction requests using List.reverseRecOn with
  | nil => exact (not_since_nil hm).elim
  | append_singleton requests p ih =>
    rcases since_snoc.mp hm with ⟨rfl, hu⟩ | ⟨hm, hu⟩
    · rcases since_snoc.mp hn with ⟨rfl, -⟩ | ⟨-, hu'⟩
      · rfl
      · exact absurd hu hu'
    · rcases since_snoc.mp hn with ⟨rfl, hu'⟩ | ⟨hn, -⟩
      · exact absurd hu' hu
      · exact ih hm hn

/-- **A session in use is neither lost nor shared**: where it was issued or last accepted at true
tick `n`, and the requests from there on keep it alive, each of them is accepted just when it brings
the session's token, and no login among them gets the slot, however long they go on. -/
theorem session_kept_alive (cjson : CJson) (requests run : List (Nat × Request)) (s : Session) (n : Nat)
    (hs : sessionsAfter cjson (timed requests) = [s]) (ha : s.active = true) (hn : LastUsed cjson n requests)
    (hrun : KeptAlive s.token n run) : Always (OwnerOnly cjson s.token) requests run := by
  obtain ⟨m, hm, hlast⟩ := lastActivity_lastUsed hs ha
  obtain rfl := hn.unique hm
  refine hrun.ownerOnly ?_ hs ⟨ha, rfl, hlast⟩
  rw [(issued_since hs ha).strlen]
  decide

/-- The owner checks in at the last moment; a second login and a stranger's token come in between. -/
theorem session_kept_alive_intruders :
    Always (OwnerOnly adminJson (Session.issued (adminLogin 500 0)).token) [(500, .auth (adminLogin 0 0))]
      [(9000, .auth (adminLogin 0 1)), (9001, .checkAuth (bearerRequest (List.replicate tokenLen 66) 0)),
        (18500, .checkAuth (bearerRequest (List.replicate tokenLen 65) 0))] := by
  have hstores : (adminLogin 0 0).correct adminJson = true := by decide +kernel
  have hlast : LastUsed adminJson 500 [(500, .auth (adminLogin 0 0))] :=
    ⟨[], _, [], rfl, ⟨rfl, .inl ⟨hstores, {}, List.mem_singleton.mpr rfl, rfl⟩⟩, by simp⟩
  have hown : (Request.checkAuth (bearerRequest (List.replicate tokenLen 65) 0)).Brings
      (Session.issued (adminLogin 500 0)).token := by
    refine ⟨(List.replicate tokenLen 65, 0), ?_, ?_⟩ <;> decide +kernel
  have hforeign : ¬ (Request.checkAuth (bearerRequest (List.replicate tokenLen 66) 0)).Brings
      (Session.issued (adminLogin 500 0)).token := by
    have hv : (Request.checkAuth (bearerRequest (List.replicate tokenLen 66) 0)).validation =
        some (List.replicate tokenLen 66, 0) := by decide +kernel
    rw [Request.brings_iff hv]
    decide +kernel
  refine session_kept_alive adminJson [(500, .auth (adminLogin 0 0))] _ _ 500 (by decide +kernel) rfl hlast ?_
  exact .other (by simp [Request.Brings, Request.validation])
    (.other hforeign (.check hown (by decide) (by decide) (.nil _)))

end GateNode.Http
