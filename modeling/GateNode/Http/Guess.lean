/-
How hard a token is to guess. `generate_token` takes 32 numbers of 32 bits
modulo 62, so no token is drawn by more than one in 2^190 of the draws; and
requests that do not know it are accepted no more often than that each.
-/
import Mathlib.Data.List.GetD
import GateNode.Lib.Draws
import GateNode.Http.History

namespace GateNode.Http

open CString

/-- What `esp_random` answers in one `generate_token`. -/
abbrev RandomDraws := Fin tokenLen → Fin UInt32.size

def RandomDraws.random (d : RandomDraws) (i : Nat) : UInt32 :=
  if h : i < tokenLen then UInt32.ofFin (d ⟨i, h⟩) else 0

/-- The login, with these draws. -/
def AuthRequest.drawing (login : AuthRequest) (d : RandomDraws) : AuthRequest := { login with random := d.random }

/-- The request brings the token of these draws. -/
def Request.Guesses (r : Request) (d : RandomDraws) : Prop :=
  ∃ v ∈ r.validation, cstr v.1 = cstr (generateToken d.random (tokenLen + 1))

/-- The numbers that give a letter of the token. -/
def lettersPerChar : Nat := UInt32.size / charset.length + 1

/-- The slot is free, or its session is that of the token. -/
def Session.Only (token : List UInt8) (s : Session) : Prop := s.active = true → cstr s.token = cstr token

variable {cjson : CJson} {s t : Session} {r : Request} {token : List UInt8} {login : AuthRequest} {d : RandomDraws}
  {history : List Request}

/-! ## Draws -/

theorem nodup_charset : charset.Nodup := by decide +kernel

/-- A letter comes from the numbers of one remainder. -/
theorem ncard_letter_le (b : UInt8) :
    {a : Fin UInt32.size | charset.getD (a.val % charset.length) 0 = b}.ncard ≤ lettersPerChar := by
  have hpos : 0 < charset.length := by decide +kernel
  by_cases hnone : ∃ a : Fin UInt32.size, charset.getD (a.val % charset.length) 0 = b
  · obtain ⟨a, ha⟩ := hnone
    have hsub : {a' : Fin UInt32.size | charset.getD (a'.val % charset.length) 0 = b} ⊆
        {a' : Fin UInt32.size | a'.val % charset.length = a.val % charset.length} := by
      intro a' ha'
      have hlt := Nat.mod_lt a.val hpos
      have hlt' := Nat.mod_lt a'.val hpos
      have heq : charset[a'.val % charset.length] = charset[a.val % charset.length] := by
        rw [← List.getD_eq_getElem _ 0 hlt', ← List.getD_eq_getElem _ 0 hlt]
        exact ha'.trans ha.symm
      exact (List.Nodup.getElem_inj_iff nodup_charset).mp heq
    exact (Set.ncard_le_ncard hsub (Set.toFinite _)).trans (Draws.ncard_mod_le _ _)
  · have hempty : {a : Fin UInt32.size | charset.getD (a.val % charset.length) 0 = b} = ∅ := by
      rw [Set.eq_empty_iff_forall_notMem]
      exact fun a ha => hnone ⟨a, ha⟩
    rw [hempty, Set.ncard_empty]
    exact Nat.zero_le _

/-- The letters of the token, each of its own draw. -/
theorem letter_of_token (h : cstr (generateToken d.random (tokenLen + 1)) = token) (i : Fin tokenLen) :
    charset.getD ((d i).val % charset.length) 0 = token.getD i 0 := by
  rw [← h, cstr_generateToken]
  simp [RandomDraws.random, List.getD_eq_getElem?_getD]

theorem ncard_guesses_le (r : Request) : {d | r.Guesses d}.ncard ≤ lettersPerChar ^ tokenLen := by
  cases hr : r.validation with
  | none =>
    have hempty : {d | r.Guesses d} = ∅ := by
      rw [Set.eq_empty_iff_forall_notMem]
      rintro d ⟨v, hv, -⟩
      rw [hr] at hv
      cases hv
    rw [hempty, Set.ncard_empty]
    exact Nat.zero_le _
  | some v =>
    have hsub : {d | r.Guesses d} ⊆
        {d | ∀ i, charset.getD ((d i).val % charset.length) 0 = (cstr v.1).getD i 0} := by
      rintro d ⟨w, hw, hguess⟩ i
      obtain rfl : v = w := Option.some.inj (hr.symm.trans hw)
      exact letter_of_token hguess.symm i
    exact (Set.ncard_le_ncard hsub (Set.toFinite _)).trans
      (Draws.ncard_pointwise_le (fun a : Fin UInt32.size => charset.getD (a.val % charset.length) 0) ncard_letter_le
        fun i => (cstr v.1).getD i 0)

/-- One token among all. -/
theorem token_rare : 2 ^ 190 * lettersPerChar ^ tokenLen ≤ Nat.card RandomDraws := by
  have hletters : lettersPerChar = 69273667 := by decide +kernel
  have hcard : Nat.card RandomDraws = UInt32.size ^ tokenLen := by
    rw [Nat.card_fun, Nat.card_eq_fintype_card, Nat.card_eq_fintype_card, Fintype.card_fin, Fintype.card_fin]
  rw [hletters, hcard]
  decide +kernel

/-! ## Requests -/

/-- No request but a login with the right credentials brings another token into the slot. -/
theorem SlotStep.only (h : SlotStep cjson s r t) (hr : ∀ a, r = .auth a → a.correct cjson = false)
    (hs : s.Only token) : t.Only token := by
  cases h with
  | store a ha _ =>
    rw [hr a rfl] at ha
    cases ha
  | refresh | keep => exact hs
  | logout => exact fun hactive => by cases hactive
  | expire => exact fun hactive => by cases hactive

/-- The session of a login that meets a free slot is its own. -/
theorem SlotStep.only_login (h : SlotStep cjson s (.auth login) t) (hs : s.active = false) :
    t.Only (generateToken login.random (tokenLen + 1)) := by
  cases h with
  | store a ha _ =>
    intro _
    exact cstr_strncpy (by rw [strlen_generateToken]; decide)
  | expire _ hr => exact absurd ⟨_, hr⟩ (not_reportsExpiry_of_none rfl)
  | keep =>
    intro hactive
    rw [hs] at hactive
    cases hactive

theorem only_run (attack : List Request) (hattack : ∀ a, .auth a ∈ attack → a.correct cjson = false)
    (h : sessionsAfter cjson history = [s]) (hs : s.Only token) :
    ∃ t, sessionsAfter cjson (history ++ attack) = [t] ∧ t.Only token := by
  induction attack using List.reverseRecOn with
  | nil => exact ⟨s, by rw [List.append_nil, h], hs⟩
  | append_singleton attack r ih =>
    obtain ⟨u, hu, hu'⟩ := ih fun a ha => hattack a (List.mem_append_left _ ha)
    obtain ⟨t, ht, hstep⟩ := serve_slot cjson u r
    refine ⟨t, ?_, hstep.only (fun a ha => hattack a ?_) hu'⟩
    · rw [← List.append_assoc, sessionsAfter_snoc, hu, ht]
    · rw [ha]
      exact List.mem_append_right _ List.mem_cons_self

/-- **A token is as hard to guess as 190 random bits.** Of the draws of a login that meets a free slot, at most one in
`2 ^ 190` for each request behind it has one of these requests accepted, whatever they bring and whenever they come, as
long as none of them is a login with the right credentials. -/
theorem guesses_rarely_accepted (cjson : CJson) (history attack : List Request) (login : AuthRequest)
    (hfree : ∃ s ∈ sessionsAfter cjson history, s.active = false)
    (hattack : ∀ a, .auth a ∈ attack → a.correct cjson = false) :
    2 ^ 190 * {d : RandomDraws | ∃ pre r post, attack = pre ++ r :: post ∧
        r.Accepted (sessionsAfter cjson (history ++ .auth (login.drawing d) :: pre))}.ncard ≤
      attack.length * Nat.card RandomDraws := by
  have hsub : {d : RandomDraws | ∃ pre r post, attack = pre ++ r :: post ∧
      r.Accepted (sessionsAfter cjson (history ++ .auth (login.drawing d) :: pre))} ⊆
        {d | ∃ r ∈ attack, r.Guesses d} := by
    rintro d ⟨pre, r, post, rfl, haccepted⟩
    refine ⟨r, List.mem_append_right _ List.mem_cons_self, ?_⟩
    obtain ⟨s, hs⟩ := sessionsAfter_slot cjson history
    obtain ⟨u, hu, hfree⟩ := hfree
    rw [hs, List.mem_singleton] at hu
    subst hu
    obtain ⟨t, ht, hlogin⟩ := serve_slot cjson u (.auth (login.drawing d))
    have hafter : sessionsAfter cjson (history ++ [.auth (login.drawing d)]) = [t] := by
      rw [sessionsAfter_snoc, hs, ht]
    obtain ⟨v, hv, honly⟩ := only_run pre (fun a ha => hattack a (List.mem_append_left _ ha)) hafter
      (hlogin.only_login hfree)
    rw [List.append_cons, hv] at haccepted
    obtain ⟨w, hw, hvalid⟩ := haccepted
    rw [validateToken_slot] at hvalid
    exact ⟨w, hw, hvalid.2.2.1.symm.trans (honly hvalid.2.1)⟩
  have hcount := (Set.ncard_le_ncard hsub (Set.toFinite _)).trans
    (Draws.ncard_exists_le attack Request.Guesses fun r _ => ncard_guesses_le r)
  calc _ ≤ 2 ^ 190 * (attack.length * lettersPerChar ^ tokenLen) := Nat.mul_le_mul_left _ hcount
    _ = attack.length * (2 ^ 190 * lettersPerChar ^ tokenLen) := Nat.mul_left_comm _ _ _
    _ ≤ attack.length * Nat.card RandomDraws := Nat.mul_le_mul_left _ token_rare

/-- One guess, at the token of which every number drawn is 0. -/
def zeroGuess : List Request :=
  [.checkAuth ⟨some (bearer ++ List.replicate tokenLen 65), 500⟩]

theorem guesses_rarely_accepted_zero :
    2 ^ 190 * {d : RandomDraws | ∃ pre r post, zeroGuess = pre ++ r :: post ∧
        r.Accepted (sessionsAfter adminJson ([] ++ .auth ((adminLogin 500 0).drawing d) :: pre))}.ncard ≤
      zeroGuess.length * Nat.card RandomDraws :=
  guesses_rarely_accepted adminJson [] zeroGuess (adminLogin 500 0) ⟨{}, by decide, rfl⟩ (by simp [zeroGuess])

end GateNode.Http
