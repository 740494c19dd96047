/-
The tab's token and the server's slot. What a tab stores fits the header it
goes into, so `/check-auth` says whether the slot holds it; and only a login
can put it there.
-/
import Mathlib.Data.List.Basic
import GateNode.Http.History
import GateNode.Web.System

namespace GateNode.Web

open CString
open GateNode.Http (SessionTable CJson Request Session SlotStep bearer tokenLen tokenSize generateToken)

/-- A token fits a header: it is there, has no NUL, and is no longer than those the server makes. -/
structure Fits (token : List UInt8) : Prop where
  ne_nil : token ≠ []
  ne_zero : ∀ b ∈ token, b ≠ 0
  short : token.length ≤ tokenLen

/-- Sessions are under tokens of the server's length. -/
def TableOk (table : SessionTable) : Prop :=
  ∃ x, table = [x] ∧ (x.active = true → strlen x.token = tokenLen)

/-- The slot holds a session under this token. -/
def Holds (table : SessionTable) (token : List UInt8) : Prop := ∃ x ∈ table, x.active = true ∧ cstr x.token = token

instance (table : SessionTable) (token : List UInt8) : Decidable (Holds table token) := by
  unfold Holds; infer_instance

/-- The token of an answer, if it has one. -/
def Answer.token : Answer → Option (List UInt8)
  | .response _ (some members) => members.lookup "token"
  | _ => none

/-- What an answer would have a script store as its token fits. -/
def Answer.Fits (a : Answer) : Prop :=
  ∀ ok members, a = .response ok (some members) → ∀ v ∈ members.lookup "token", Web.Fits v

def Tab.fetches (t : Tab) : List Fetch := t.calls.map (·.fetch)

/-- The fetches a page can have made. Those of the login page are of its listener, or the one check it waits for. -/
inductive Tab.FetchesOk (t : Tab) : Prop
  | check (hp : t.page = .loginHtml) (hl : t.listening = false) (hf : t.fetches = [] ∨ t.fetches = [.checkAuth])
  | form (hp : t.page = .loginHtml) (hl : t.listening = true) (hf : ∀ f ∈ t.fetches, ∃ u p, f = .auth u p)
  | inside (hp : t.page ≠ .loginHtml) (hf : ∀ f ∈ t.fetches, ∀ u p, f ≠ .auth u p)

structure Tab.Ok (t : Tab) : Prop where
  token : ∀ v ∈ t.token, Fits v
  answers : ∀ c ∈ t.calls, ∀ a ∈ c.answer, a.Fits
  fetches : t.FetchesOk
  /-- A check was made with the token the tab has, unless it was logged out since. -/
  sent : ∀ c ∈ t.calls, c.fetch = .checkAuth →
    c.authorization = some (bearer ++ t.authToken) ∨ t.token = none ∧ t.page ≠ .loginHtml

variable {js : Json} {s t : System} {e : Event} {es : List Event} {cjson : CJson} {table : SessionTable}
  {token : List UInt8} {r : Request}

/-! ## The slot -/

theorem fits_null : Fits (ofString "null") := ⟨by decide, by decide +kernel, by decide⟩

theorem fits_undefined : Fits (ofString "undefined") := ⟨by decide, by decide +kernel, by decide⟩

theorem fits_generateToken (random : Nat → UInt32) : Fits (cstr (generateToken random (tokenLen + 1))) := by
  have hlen : (cstr (generateToken random (tokenLen + 1))).length = tokenLen := Http.strlen_generateToken random tokenLen
  refine ⟨fun hnil => ?_, fun b hb => ne_zero_of_mem_cstr hb, hlen.le⟩
  rw [hnil] at hlen
  cases hlen

theorem TableOk.boot : TableOk .boot := ⟨{}, rfl, by simp⟩

theorem TableOk.serve (h : TableOk table) (cjson : CJson) (r : Request) : TableOk (r.serve cjson table) := by
  obtain ⟨x, rfl, hx⟩ := h
  obtain ⟨y, hy, hstep⟩ := Http.serve_slot cjson x r
  refine ⟨y, hy, ?_⟩
  cases hstep with
  | store r =>
    intro _
    have hfit : strlen (generateToken r.random (tokenLen + 1)) ≤ tokenSize := by
      rw [Http.strlen_generateToken]
      decide
    rw [Session.issued, strlen, cstr_strncpy hfit]
    exact Http.strlen_generateToken r.random tokenLen
  | refresh | keep => exact hx
  | logout | expire => simp

/-- A token of another length is not held. -/
theorem TableOk.length_of_holds (h : TableOk table) (ht : Holds table token) : token.length = tokenLen := by
  obtain ⟨x, rfl, hx⟩ := h
  obtain ⟨y, hy, ha, rfl⟩ := ht
  obtain rfl := List.mem_singleton.mp hy
  exact hx ha

/-- Only a login can bring a token into the slot. -/
theorem holds_of_serve (h : TableOk table) (hissue : ¬ r.Issues cjson table token)
    (ht : Holds (r.serve cjson table) token) : Holds table token := by
  obtain ⟨x, rfl, -⟩ := h
  obtain ⟨y, hy, hstep⟩ := Http.serve_slot cjson x r
  rw [hy] at ht
  obtain ⟨z, hz, ha, rfl⟩ := ht
  obtain rfl := List.mem_singleton.mp hz
  cases hstep with
  | store r hr hs =>
    refine absurd ⟨hr, ?_, x, List.mem_singleton.mpr rfl, hs⟩ hissue
    have hfit : strlen (generateToken r.random (tokenLen + 1)) ≤ tokenSize := by
      rw [Http.strlen_generateToken]
      decide
    rw [cstr_cstr, Session.issued, cstr_strncpy hfit]
  | refresh | keep => exact ⟨_, List.mem_singleton.mpr rfl, ha, rfl⟩
  | logout | expire => cases ha

/-- What `/check-auth` says of a token that fits is whether the slot holds it, but for one it finds expired and then
holds no more. -/
theorem checkAuth_holds (h : TableOk table) (hfits : Fits token) (ticks : UInt32) {response : Http.Response}
    (hr : (Request.checkAuth ⟨some (bearer ++ token), ticks⟩).response cjson table = some response) :
    if (answerOf response).ok then Holds table token
    else ¬ Holds ((Request.checkAuth ⟨some (bearer ++ token), ticks⟩).serve cjson table) token := by
  obtain ⟨x, rfl, -⟩ := h
  have hlen : bearer.length + token.length < 128 := by
    have := hfits.short
    have hbearer : bearer.length = 7 := by decide +kernel
    simp only [tokenLen] at this
    omega
  have hself := cstr_eq_self hfits.ne_zero
  simp only [Request.response, Option.some.injEq] at hr
  subst hr
  simp only [Request.serve, Http.checkAuthHandler, Http.loggedInChecked,
    Http.validateHeader_bearer hfits.ne_zero hlen]
  rcases x.cases_token token ticks with ⟨hne, hlive⟩ | ⟨hne, ha, hm, hold⟩ | hother
  · rw [Http.validateToken_live hne hlive]
    exact ⟨x, List.mem_singleton.mpr rfl, hlive.1, hlive.2.1.trans hself⟩
  · rw [Http.validateToken_expired hne ha hm hold]
    rintro ⟨y, hy, ha', -⟩
    rw [List.mem_singleton.mp hy] at ha'
    cases ha'
  · rw [Http.validateToken_other hother]
    rintro ⟨y, hy, ha', hm'⟩
    obtain rfl := List.mem_singleton.mp hy
    rcases hother with h0 | hm
    · rw [strlen, hself] at h0
      exact hfits.ne_nil (List.eq_nil_of_length_eq_zero h0)
    · exact hm ⟨ha', hm'.trans hself.symm⟩

/-! ## The answers -/

theorem lookup_replyMembers (r : Http.AuthRequest) {first second : String × List UInt8} (hf : first.1 ≠ "token")
    {v : List UInt8} (hv : v ∈ (Http.replyMembers r first second).lookup "token") : second = ("token", v) := by
  obtain ⟨f, x⟩ := first
  obtain ⟨k, y⟩ := second
  have hf' : ("token" == f) = false := by simpa using hf.symm
  have hlookup : v ∈ List.lookup "token" [(k, y)] := by
    revert hv
    unfold Http.replyMembers
    cases r.addFirst <;> cases r.addSecond <;> simp [List.lookup_cons, hf']
  rw [List.lookup_cons] at hlookup
  split at hlookup
  · next hk =>
    cases hlookup
    rw [beq_iff_eq] at hk
    rw [hk]
  · cases hlookup

theorem token_text (type : Option String) (message : String) :
    (answerOf (.sendStr type (.text message))).token = none := by
  simp only [answerOf, json]
  split <;> rfl

theorem token_uploadLoop {recvs : List Http.RecvResult} {response : Http.Response}
    (h : (Http.uploadLoop recvs).2 = some response) : (answerOf response).token = none := by
  induction recvs with
  | nil => cases h
  | cons r rest ih =>
    match r with
    | .error _ =>
      cases h
      rfl
    | .ok [] =>
      cases h
      exact token_text none "Upload successful"
    | .ok (_ :: _) => exact ih h

theorem token_authHandler {a : Http.AuthRequest} {v : List UInt8}
    (h : v ∈ (answerOf (Http.authHandler cjson table a).response).token) :
    a.correct cjson = true ∧ v = cstr (generateToken a.random (tokenLen + 1)) := by
  unfold Http.authHandler at h
  split at h
  · cases h
  · cases h
  · next buf hne hr =>
    split at h
    · cases h
    · next user pass hj =>
      split at h
      · next hmatch =>
        have hcorrect : a.correct cjson = true := by
          unfold Http.AuthRequest.correct
          simp only [hr, hj, hmatch]
        split at h
        · cases h
        · split at h
          · cases h
          · cases lookup_replyMembers a (by decide) h
            exact ⟨hcorrect, rfl⟩
      · dsimp only at h
        split at h
        · have := congrArg Prod.fst (lookup_replyMembers a (by decide) h)
          simp at this
        · rw [token_text] at h
          cases h
    · cases h

/-- Only a login with the right credentials is answered with a token, and it is the one it generated. -/
theorem token_answerOf {response : Http.Response} (h : r.response cjson table = some response) {v : List UInt8}
    (hv : v ∈ (answerOf response).token) :
    ∃ a, r = .auth a ∧ a.correct cjson = true ∧ v = cstr (generateToken a.random (tokenLen + 1)) := by
  cases r with
  | auth a =>
    cases h
    exact ⟨a, rfl, token_authHandler hv⟩
  | logout r =>
    cases h
    unfold Http.logoutHandler at hv
    split at hv
    · rw [token_text] at hv
      cases hv
    · cases hv
  | checkAuth r =>
    cases h
    unfold Http.checkAuthHandler at hv
    split at hv
    · rw [token_text] at hv
      cases hv
    · cases hv
  | otaUpload header recvs =>
    rw [token_uploadLoop h] at hv
    cases hv

/-- Whatever the server answers, a token in it fits. -/
theorem fits_answerOf {response : Http.Response} (h : r.response cjson table = some response) :
    (answerOf response).Fits := by
  intro ok members heq v hv
  have htoken : v ∈ (answerOf response).token := by rwa [heq]
  obtain ⟨a, -, -, rfl⟩ := token_answerOf h htoken
  exact fits_generateToken a.random

/-! ## Every step -/

theorem mem_answered {t : Tab} {i : Nat} {a : Answer} {c c' : Call} (hc : t.calls[i]? = some c)
    (hmem : c' ∈ (t.answered i a).calls) : c' ∈ t.calls ∨ c' = { c with answer := some a } := by
  obtain ⟨j, hj⟩ := List.mem_iff_getElem?.mp hmem
  rw [Tab.answered, List.getElem?_modify] at hj
  obtain ⟨c'', hc'', rfl⟩ := Option.map_eq_some_iff.mp hj
  split
  · next heq =>
    subst heq
    rw [hc] at hc''
    cases hc''
    exact .inr rfl
  · exact .inl (List.mem_of_getElem? hc'')

@[simp] theorem fetches_answered (t : Tab) (i : Nat) (a : Answer) : (t.answered i a).fetches = t.fetches := by
  refine List.ext_getElem? fun j => ?_
  simp only [Tab.fetches, Tab.answered, List.getElem?_map, List.getElem?_modify]
  cases t.calls[j]? with
  | none => rfl
  | some c =>
    simp only [Option.map_some, Option.map_eq_map]
    split <;> rfl

/-- An answer that came. -/
theorem Tab.Ok.answered {t : Tab} (h : t.Ok) {i : Nat} {c : Call} (hc : t.calls[i]? = some c) {a : Answer}
    (ha : a.Fits) : (t.answered i a).Ok := by
  have hmem := List.mem_of_getElem? hc
  refine ⟨h.token, fun c' hc' b hb => ?_, ?_, fun c' hc' hf => ?_⟩
  · rcases mem_answered hc hc' with hold | rfl
    · exact h.answers c' hold b hb
    · cases hb
      exact ha
  · cases h.fetches with
    | check hp hl hf => exact .check hp hl (by rwa [fetches_answered])
    | form hp hl hf => exact .form hp hl (by rwa [fetches_answered])
    | inside hp hf => exact .inside hp (by rwa [fetches_answered])
  · rcases mem_answered hc hc' with hold | rfl
    · exact h.sent c' hold hf
    · exact h.sent c hmem hf

/-- Only the page, its listener, its calls and the token matter. -/
theorem Tab.Ok.congr {t u : Tab} (h : t.Ok) (hp : u.page = t.page) (hl : u.listening = t.listening)
    (hc : u.calls = t.calls) (ht : u.token = t.token) : u.Ok := by
  have hauth : u.authToken = t.authToken := by rw [Tab.authToken, Tab.authToken, ht]
  have hfetches : u.fetches = t.fetches := by rw [Tab.fetches, Tab.fetches, hc]
  refine ⟨by rw [ht]; exact h.token, by rw [hc]; exact h.answers, ?_, by rw [hc, hauth, ht, hp]; exact h.sent⟩
  cases h.fetches with
  | check hp' hl' hf => exact .check (hp.trans hp') (hl.trans hl') (by rwa [hfetches])
  | form hp' hl' hf => exact .form (hp.trans hp') (hl.trans hl') (by rwa [hfetches])
  | inside hp' hf => exact .inside (by rwa [hp]) (by rwa [hfetches])

theorem fetches_append (t : Tab) (c : Call) : ({ t with calls := t.calls ++ [c] } : Tab).fetches = t.fetches ++ [c.fetch] :=
  List.map_append

/-- A further call, of a kind the page can make. -/
theorem Tab.Ok.append {t : Tab} (h : t.Ok) {c : Call} (hn : c.answer = none)
    (hf : ({ t with calls := t.calls ++ [c] } : Tab).FetchesOk)
    (hs : c.fetch = .checkAuth → c.authorization = some (bearer ++ t.authToken)) :
    ({ t with calls := t.calls ++ [c] } : Tab).Ok := by
  refine ⟨h.token, fun c' hc' a ha => ?_, hf, fun c' hc' hcheck => ?_⟩
  · rw [List.mem_append, List.mem_singleton] at hc'
    rcases hc' with hc' | rfl
    · exact h.answers c' hc' a ha
    · rw [hn] at ha
      cases ha
  · rw [List.mem_append, List.mem_singleton] at hc'
    rcases hc' with hc' | rfl
    · exact h.sent c' hc' hcheck
    · exact .inl (hs hcheck)

/-- A page inside makes a call. -/
theorem Tab.Ok.fetchBearer {t : Tab} (h : t.Ok) {f : Fetch} (hp : t.page ≠ .loginHtml) (hf : ∀ u p, f ≠ .auth u p) :
    (t.fetchBearer f).Ok := by
  refine h.append rfl (.inside hp fun g hg => ?_) fun _ => rfl
  rw [fetches_append, List.mem_append, List.mem_singleton] at hg
  rcases hg with hg | rfl
  · cases h.fetches with
    | check hp' | form hp' => exact absurd hp' hp
    | inside _ hf' => exact hf' g hg
  · exact hf

/-- The form's listener makes one. -/
theorem Tab.Ok.submit {t : Tab} (h : t.Ok) (username password : List UInt8) (hp : t.page = .loginHtml)
    (hl : t.listening = true) :
    ({ t with calls := t.calls ++ [⟨.auth username password, none, none⟩] } : Tab).Ok := by
  refine h.append rfl (.form hp hl fun f hf => ?_) nofun
  rw [fetches_append, List.mem_append, List.mem_singleton] at hf
  rcases hf with hf | rfl
  · cases h.fetches with
    | check _ hl' =>
      rw [hl] at hl'
      cases hl'
    | form _ _ hf' => exact hf' f hf
    | inside hp' => exact absurd hp hp'
  · exact ⟨username, password, rfl⟩

theorem Tab.Ok.leave {t : Tab} (h : t.Ok) (hp : t.page ≠ .loginHtml) : t.leave.Ok := by
  refine ⟨nofun, h.answers, ?_, fun _ _ _ => .inr ⟨rfl, hp⟩⟩
  cases h.fetches with
  | check hp hl hf => exact .check hp hl hf
  | form hp hl hf => exact .form hp hl hf
  | inside hp hf => exact .inside hp hf

/-- What a page starts with. -/
theorem Tab.Ok.load {t : Tab} (h : t.Ok) (p : Page) : (t.load p).Ok := by
  rcases t.load_cases p with hl | ⟨rfl, hl⟩ <;> rw [hl]
  · refine ⟨h.token, fun c hc a ha => ?_, ?_, fun c hc _ => ?_⟩
    · obtain rfl := List.mem_singleton.mp hc
      cases ha
    · by_cases hp : p = .loginHtml
      · exact .check hp rfl (.inr rfl)
      · refine .inside hp fun f hf => ?_
        obtain rfl := List.mem_singleton.mp hf
        simp
    · obtain rfl := List.mem_singleton.mp hc
      exact .inl rfl
  · exact ⟨h.token, nofun, .form rfl rfl nofun, nofun⟩

theorem Tab.Ok.act {t u : Tab} (h : t.Ok) {a : UserAction} (hu : t.act a = some u) : u.Ok := by
  cases Tab.act_cases hu with
  | submit username password hp hl => exact h.submit username password hp hl
  | submitAnew | menu | refuse | select | noFile | visit => exact h.congr rfl rfl rfl rfl
  | logout hp => exact h.fetchBearer hp nofun
  | leave hp => exact h.leave hp
  | selectNone => exact h
  | update f hp =>
    have hdisabled : ({ t with updateDisabled := true } : Tab).Ok := h.congr rfl rfl rfl rfl
    exact hdisabled.fetchBearer (by simp [hp]) nofun

/-- A call is done with. -/
theorem Tab.Ok.erase {t : Tab} (h : t.Ok) (i : Nat) : ({ t with calls := t.calls.eraseIdx i } : Tab).Ok := by
  have hsub : (t.calls.eraseIdx i).Sublist t.calls := List.eraseIdx_sublist t.calls i
  have hfetches : (({ t with calls := t.calls.eraseIdx i } : Tab).fetches).Sublist t.fetches := hsub.map _
  refine ⟨h.token, fun c hc => h.answers c (hsub.subset hc), ?_, fun c hc => h.sent c (hsub.subset hc)⟩
  cases h.fetches with
  | check hp hl hf =>
    refine .check hp hl ?_
    rcases hf with hf | hf <;> rw [hf] at hfetches
    · exact .inl (List.sublist_nil.mp hfetches)
    · exact List.sublist_singleton.mp hfetches
  | form hp hl hf => exact .form hp hl fun f hf' => hf f (hfetches.subset hf')
  | inside hp hf => exact .inside hp fun f hf' => hf f (hfetches.subset hf')

/-- The form's calls are made on the login page. -/
theorem Tab.Ok.form_of_auth {t : Tab} (h : t.Ok) {f : Fetch} (hf : f ∈ t.fetches) {u p : List UInt8}
    (heq : f = .auth u p) :
    t.page = .loginHtml ∧ t.listening = true ∧ ∀ f ∈ t.fetches, ∃ u p, f = .auth u p := by
  subst heq
  cases h.fetches with
  | check _ _ hf' =>
    rcases hf' with hf' | hf' <;> rw [hf'] at hf
    · cases hf
    · cases List.mem_singleton.mp hf
  | form hp hl hf' => exact ⟨hp, hl, hf'⟩
  | inside _ hf' => exact absurd rfl (hf' _ hf u p)

/-- Calls other than the login page's are made inside. -/
theorem Tab.Ok.inside_of_mem {t : Tab} (h : t.Ok) {f : Fetch} (hf : f ∈ t.fetches) (hcheck : f ≠ .checkAuth)
    (hauth : ∀ u p, f ≠ .auth u p) : t.page ≠ .loginHtml := by
  cases h.fetches with
  | check _ _ hf' =>
    rcases hf' with hf' | hf' <;> rw [hf'] at hf
    · cases hf
    · exact absurd (List.mem_singleton.mp hf) hcheck
  | form _ _ hf' =>
    obtain ⟨u, p, heq⟩ := hf' f hf
    exact absurd heq (hauth u p)
  | inside hp => exact hp

/-- The login page waits for no more than its one check. -/
theorem Tab.Ok.erase_check {t : Tab} (h : t.Ok) {i : Nat} {c : Call} (hc : t.calls[i]? = some c)
    (hf : c.fetch = .checkAuth) (hp : t.page = .loginHtml) : t.calls.eraseIdx i = [] := by
  have hfetch : c.fetch ∈ t.fetches := List.mem_map_of_mem (List.mem_of_getElem? hc)
  cases h.fetches with
  | check _ _ hf' =>
    rcases hf' with hf' | hf'
    · rw [hf'] at hfetch
      cases hfetch
    · have hlen : t.calls.length = 1 := by
        have := congrArg List.length hf'
        simpa [Tab.fetches] using this
      have hi : i < t.calls.length := (List.getElem?_eq_some_iff.mp hc).1
      refine List.eq_nil_of_length_eq_zero ?_
      rw [List.length_eraseIdx_of_lt hi]
      omega
  | form _ _ hf' =>
    obtain ⟨u, p, heq⟩ := hf' c.fetch hfetch
    rw [hf] at heq
    cases heq
  | inside hp' => exact absurd hp hp'

/-- A login stores its token. -/
theorem Tab.Ok.loggedIn {t : Tab} (h : t.Ok) {v : List UInt8} (hv : Fits v) (hp : t.page = .loginHtml)
    (hl : t.listening = true) (hf : ∀ f ∈ t.fetches, ∃ u p, f = .auth u p) :
    ({ t with token := some v, next := some .dashboardHtml } : Tab).Ok := by
  refine ⟨fun v' hv' => ?_, h.answers, .form hp hl hf, fun c hc hcheck => ?_⟩
  · cases hv'
    exact hv
  · obtain ⟨u, p, heq⟩ := hf c.fetch (List.mem_map_of_mem hc)
    rw [hcheck] at heq
    cases heq

/-- A script goes on. -/
theorem Tab.Ok.resume {t : Tab} (h : t.Ok) {i : Nat} {c : Call} (hc : t.calls[i]? = some c) {a : Answer}
    (ha : c.answer = some a) : (({ t with calls := t.calls.eraseIdx i } : Tab).resume c.fetch a).Ok := by
  have herase := h.erase i
  have hmem := List.mem_of_getElem? hc
  have hfetch : c.fetch ∈ t.fetches := List.mem_map_of_mem hmem
  have hstep := Tab.resume_cases { t with calls := t.calls.eraseIdx i } c.fetch a
  generalize Tab.resume _ c.fetch a = u at hstep ⊢
  generalize hf : c.fetch = f at hstep hfetch
  cases hstep with
  | passed | refused | loginFailed | uploadFailed | finalized | finalizeFailed => exact herase.congr rfl rfl rfl rfl
  | stay => exact herase
  | listen a hp =>
    -- The one check is done with, so nothing is left when the listener comes.
    have hnil := h.erase_check hc hf hp
    simp only [hnil]
    exact ⟨h.token, nofun, .form hp rfl nofun, nofun⟩
  | loggedIn username password ok members =>
    obtain ⟨hp, hl, hform⟩ := h.form_of_auth hfetch rfl
    have hsub : (t.calls.eraseIdx i).Sublist t.calls := List.eraseIdx_sublist t.calls i
    refine herase.loggedIn ?_ hp hl fun f hf' => hform f ((hsub.map _).subset hf')
    cases hlookup : members.lookup "token" with
    | none => exact fits_undefined
    | some v => exact h.answers c hmem _ ha ok members rfl v hlookup
  | loggedOut => exact herase.leave (h.inside_of_mem hfetch nofun nofun)
  | uploaded => exact herase.fetchBearer (h.inside_of_mem hfetch nofun nofun) nofun

/-- What holds of every state. -/
structure System.Ok (s : System) : Prop where
  table : TableOk s.table
  tab : s.tab.Ok

theorem System.Ok.boot : System.boot.Ok := ⟨.boot, nofun, nofun, .form rfl rfl nofun, nofun⟩

theorem System.Ok.step (h : s.Ok) (hs : System.Step js s e t) : t.Ok := by
  cases hs with
  | user a tab ha => exact ⟨h.table, h.tab.act ha⟩
  | load p => exact ⟨h.table, h.tab.load p⟩
  | serve i r c hc _ _ response hr => exact ⟨h.table.serve js.parse r, h.tab.answered hc (fits_answerOf hr)⟩
  | reject i c hc => exact ⟨h.table, h.tab.answered hc nofun⟩
  | lose i c hc => exact ⟨h.table, h.tab.answered hc nofun⟩
  | resume i c hc a ha => exact ⟨h.table, h.tab.resume hc ha⟩
  | reset tab ht =>
    refine ⟨h.table, ?_⟩
    unfold Tab.resetOTAPage at ht
    split at ht
    · cases ht
    · cases ht
      exact h.tab.congr rfl rfl rfl rfl
  | other r => exact ⟨h.table.serve js.parse r, h.tab⟩

theorem run_ok (h : run js es = some s) : s.Ok :=
  Lts.exec_invariant h .boot fun _ _ _ hs hl => hs.step (System.step_cases hl)

end GateNode.Web
