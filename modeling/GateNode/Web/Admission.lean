/-
Who gets in. The pages inside are sent to anyone, and it is their own script
that sends a stranger back. So what holds of them holds once they have come
to rest: the server has passed the page's check since it was loaded, and
what the check brought is the token of a login of this tab.
-/
import GateNode.Web.Redirect

namespace GateNode.Web

open CString
open GateNode.Http (bearer tokenLen generateToken)

/-- A login of the tab with the right credentials was served and generated `token`. -/
def LoggedWith (js : Json) (es : List Event) (token : List UInt8) : Prop :=
  ∃ i a, .serve i (.auth a) ∈ es ∧ a.correct js.parse = true ∧ cstr (generateToken a.random (tokenLen + 1)) = token

/-- A token the tab can have: none, one missing from the answer, or that of a login of its own. -/
def Own (js : Json) (es : List Event) (token : List UInt8) : Prop :=
  token = ofString "null" ∨ token = ofString "undefined" ∨ LoggedWith js es token

/-- Since the last page was loaded its check was served, while the server held a session under the token it brought,
and that token is of an earlier login of the tab. -/
def LetIn (js : Json) (es : List Event) : Prop :=
  ∃ before i header after s token, es = before ++ .serve i (.checkAuth header) :: after ∧ .load ∉ after ∧
    run js before = some s ∧ header.authorization = some (bearer ++ token) ∧ Holds s.table token ∧
    LoggedWith js before token

/-- What the run so far has to say of the tab. -/
structure Admitted (js : Json) (es : List Event) (t : Tab) : Prop where
  token : Own js es t.authToken
  tokens : ∀ c ∈ t.calls, ∀ a ∈ c.answer, ∀ v ∈ a.token, LoggedWith js es v
  sent : ∀ c ∈ t.calls, c.fetch = .checkAuth → ∃ token, c.authorization = some (bearer ++ token) ∧ Own js es token
  passed : ∀ c ∈ t.calls, c.fetch = .checkAuth → ∀ a ∈ c.answer, a.ok = true → LetIn js es
  waits : t.page ≠ .loginHtml → t.next = none → .checkAuth ∈ t.fetches ∨ LetIn js es

variable {js : Json} {s : System} {t u : Tab} {e : Event} {es : List Event} {token : List UInt8}

/-! ## What stays so -/

theorem LoggedWith.snoc (h : LoggedWith js es token) (e : Event) : LoggedWith js (es ++ [e]) token := by
  obtain ⟨i, a, hmem, hcorrect, htoken⟩ := h
  exact ⟨i, a, List.mem_append_left _ hmem, hcorrect, htoken⟩

theorem Own.snoc (h : Own js es token) (e : Event) : Own js (es ++ [e]) token := by
  rcases h with h | h | h
  · exact .inl h
  · exact .inr (.inl h)
  · exact .inr (.inr (h.snoc e))

theorem LetIn.snoc (h : LetIn js es) (he : e ≠ .load) : LetIn js (es ++ [e]) := by
  obtain ⟨before, i, header, after, s, token, rfl, hload, hrest⟩ := h
  refine ⟨before, i, header, after ++ [e], s, token, by simp, ?_, hrest⟩
  rw [List.mem_append, List.mem_singleton]
  rintro (hmem | rfl)
  · exact hload hmem
  · exact he rfl

theorem Own.fits (h : Own js es token) : Fits token := by
  rcases h with rfl | rfl | ⟨i, a, -, -, rfl⟩
  · exact fits_null
  · exact fits_undefined
  · exact fits_generateToken a.random

/-- What the server holds a session under is none of the texts that stand for no token. -/
theorem Own.logged (h : Own js es token) {table : Http.SessionTable} (htable : TableOk table)
    (hholds : Holds table token) : LoggedWith js es token := by
  have hlen := htable.length_of_holds hholds
  rcases h with rfl | rfl | h
  · exact absurd hlen (by decide +kernel)
  · exact absurd hlen (by decide +kernel)
  · exact h

/-! ## Every step -/

/-- Further calls but checks, and no page given up or waited for less. -/
theorem Admitted.congr (h : Admitted js es t) (he : e ≠ .load) (htoken : Own js es u.authToken)
    (hcalls : ∀ c ∈ u.calls, c ∈ t.calls ∨ c.answer = none ∧ c.fetch ≠ .checkAuth)
    (hwaits : u.page ≠ .loginHtml → u.next = none →
      t.page ≠ .loginHtml ∧ t.next = none ∧ (.checkAuth ∈ t.fetches → .checkAuth ∈ u.fetches ∨ LetIn js es)) :
    Admitted js (es ++ [e]) u := by
  refine ⟨htoken.snoc e, fun c hc a ha v hv => ?_, fun c hc hf => ?_, fun c hc hf a ha hok => ?_, fun hp hn => ?_⟩
  · rcases hcalls c hc with hold | ⟨hnone, -⟩
    · exact (h.tokens c hold a ha v hv).snoc e
    · rw [hnone] at ha
      cases ha
  · rcases hcalls c hc with hold | ⟨-, hne⟩
    · obtain ⟨token, hauthorization, hown⟩ := h.sent c hold hf
      exact ⟨token, hauthorization, hown.snoc e⟩
    · exact absurd hf hne
  · rcases hcalls c hc with hold | ⟨-, hne⟩
    · exact (h.passed c hold hf a ha hok).snoc he
    · exact absurd hf hne
  · obtain ⟨hp', hn', hkeeps⟩ := hwaits hp hn
    rcases h.waits hp' hn' with hcheck | hin
    · exact (hkeeps hcheck).imp_right fun hin => hin.snoc he
    · exact .inr (hin.snoc he)

theorem Admitted.act (h : Admitted js es t) {a : UserAction} (hu : t.ActStep a u) : Admitted js (es ++ [.user a]) u := by
  have hcalls (f : Fetch) (authorization : Option (List UInt8)) (hf : f ≠ .checkAuth) :
      ∀ c ∈ t.calls ++ [⟨f, authorization, none⟩], c ∈ t.calls ∨ c.answer = none ∧ c.fetch ≠ .checkAuth := by
    intro c hc
    rw [List.mem_append, List.mem_singleton] at hc
    exact hc.imp_right fun heq => by simp [heq, hf]
  have hkeeps (c : Call) : .checkAuth ∈ t.fetches → .checkAuth ∈ (t.calls ++ [c]).map (·.fetch) := by
    rw [List.map_append]
    exact List.mem_append_left _
  cases hu with
  | submit | logout | update =>
    exact h.congr (by simp) h.token (hcalls _ _ (by simp)) fun hp hn => ⟨hp, hn, fun hc => .inl (hkeeps _ hc)⟩
  | submitAnew | menu | visit => exact h.congr (by simp) h.token (fun c hc => .inl hc) fun _ hn => by cases hn
  | leave => exact h.congr (by simp) (.inl rfl) (fun c hc => .inl hc) fun _ hn => by cases hn
  | selectNone | refuse | select | noFile =>
    exact h.congr (by simp) h.token (fun c hc => .inl hc) fun hp hn => ⟨hp, hn, .inl⟩

/-- A page just loaded has its check to make. -/
theorem Admitted.load (h : Admitted js es t) (p : Page) : Admitted js (es ++ [.load]) (t.load p) := by
  have htoken : Own js (es ++ [.load]) t.authToken := h.token.snoc .load
  rcases t.load_cases p with hl | ⟨rfl, hl⟩ <;> rw [hl]
  · refine ⟨htoken, fun c hc a ha => ?_, fun c hc _ => ?_, fun c hc _ a ha => ?_, fun _ _ => .inl ?_⟩
    · obtain rfl := List.mem_singleton.mp hc
      cases ha
    · obtain rfl := List.mem_singleton.mp hc
      exact ⟨t.authToken, rfl, htoken⟩
    · obtain rfl := List.mem_singleton.mp hc
      cases ha
    · exact List.mem_singleton.mpr rfl
  · exact ⟨htoken, by simp, by simp, by simp, fun hp => absurd rfl hp⟩

/-- A call of the tab is answered. -/
theorem Admitted.answered (h : Admitted js es t) (he : e ≠ .load) {i : Nat} {c : Call} (hc : t.calls[i]? = some c)
    {a : Answer} (htokens : ∀ v ∈ a.token, LoggedWith js (es ++ [e]) v)
    (hpassed : c.fetch = .checkAuth → a.ok = true → LetIn js (es ++ [e])) :
    Admitted js (es ++ [e]) (t.answered i a) := by
  refine ⟨h.token.snoc e, fun c' hc' b hb v hv => ?_, fun c' hc' hf => ?_, fun c' hc' hf b hb hok => ?_, fun hp hn => ?_⟩
  · rcases mem_answered hc hc' with hold | rfl
    · exact (h.tokens c' hold b hb v hv).snoc e
    · cases hb
      exact htokens v hv
  · have hsent : ∃ token, c'.authorization = some (bearer ++ token) ∧ Own js es token := by
      rcases mem_answered hc hc' with hold | rfl
      · exact h.sent c' hold hf
      · exact h.sent c (List.mem_of_getElem? hc) hf
    obtain ⟨token, hauthorization, hown⟩ := hsent
    exact ⟨token, hauthorization, hown.snoc e⟩
  · rcases mem_answered hc hc' with hold | rfl
    · exact (h.passed c' hold hf b hb hok).snoc he
    · cases hb
      exact hpassed hf hok
  · rw [fetches_answered]
    exact (h.waits hp hn).imp_right fun hin => hin.snoc he

/-- The server answers it. -/
theorem Admitted.serve (h : Admitted js es s.tab) (hrun : run js es = some s) {i : Nat} {c : Call} {r : Http.Request}
    (hc : s.tab.calls[i]? = some c) (hr : c.Makes js r) {response : Http.Response}
    (hs : r.response js.parse s.table = some response) :
    Admitted js (es ++ [.serve i r]) (s.tab.answered i (answerOf response)) := by
  have hok := run_ok hrun
  refine h.answered (by simp) hc (fun v hv => ?_) fun hf hanswer => ?_
  · obtain ⟨a, rfl, hcorrect, rfl⟩ := token_answerOf hs hv
    exact ⟨i, a, List.mem_append_right _ (List.mem_singleton.mpr rfl), hcorrect, rfl⟩
  · unfold Call.Makes at hr
    rw [hf] at hr
    cases r with
    | checkAuth header =>
      obtain ⟨authorization, ticks⟩ := header
      obtain ⟨token, hauthorization, hown⟩ := h.sent c (List.mem_of_getElem? hc) hf
      obtain rfl : authorization = some (bearer ++ token) := hr.trans hauthorization
      have hholds := checkAuth_holds hok.table hown.fits ticks hs
      rw [hanswer, if_pos rfl] at hholds
      exact ⟨es, i, _, [], s, token, rfl, by simp, hrun, rfl, hholds, hown.logged hok.table hholds⟩
    | auth | logout | otaUpload => exact hr.elim

/-- The script of a call goes on. -/
theorem Admitted.resume (h : Admitted js es t) (hok : t.Ok) {i : Nat} {c : Call} (hc : t.calls[i]? = some c) {a : Answer}
    (ha : c.answer = some a) :
    Admitted js (es ++ [.resume i]) (({ t with calls := t.calls.eraseIdx i } : Tab).resume c.fetch a) := by
  have hmem := List.mem_of_getElem? hc
  have hfetch : c.fetch ∈ t.fetches := List.mem_map_of_mem hmem
  have hless : ∀ c' ∈ t.calls.eraseIdx i, c' ∈ t.calls ∨ c'.answer = none ∧ c'.fetch ≠ .checkAuth :=
    fun c' hc' => .inl ((List.eraseIdx_sublist t.calls i).subset hc')
  -- The check stays under way while another call's script goes on.
  have hstays (hne : c.fetch ≠ .checkAuth) (hcheck : .checkAuth ∈ t.fetches) :
      .checkAuth ∈ (t.calls.eraseIdx i).map (·.fetch) := by
    obtain ⟨c', hc', hf⟩ := List.mem_map.mp hcheck
    obtain ⟨j, hj⟩ := List.mem_iff_getElem?.mp hc'
    have hij : j ≠ i := by
      rintro rfl
      rw [hc] at hj
      cases hj
      exact hne hf
    rw [← hf]
    exact List.mem_map_of_mem (List.mem_eraseIdx_iff_getElem?.mpr ⟨j, hij, hj⟩)
  have hstep := Tab.resume_cases { t with calls := t.calls.eraseIdx i } c.fetch a
  generalize Tab.resume _ c.fetch a = u at hstep ⊢
  generalize hf : c.fetch = f at hstep hfetch
  cases hstep with
  | passed | refused => exact h.congr (by simp) h.token hless fun _ hn => by cases hn
  | listen a hp => exact h.congr (by simp) h.token hless fun hp' => absurd hp hp'
  | stay a hp hanswer =>
    exact h.congr (by simp) h.token hless fun _ hn => ⟨hp, hn, fun _ => .inr (h.passed c hmem hf a ha hanswer)⟩
  | loggedIn username password ok members =>
    have hp := (hok.form_of_auth hfetch rfl).1
    refine h.congr (by simp) ?_ hless fun hp' => absurd hp hp'
    show Own js es ((members.lookup "token").getD (ofString "undefined"))
    cases hlookup : members.lookup "token" with
    | none => exact .inr (.inl rfl)
    | some v => exact .inr (.inr (h.tokens c hmem _ ha v hlookup))
  | loggedOut => exact h.congr (by simp) (.inl rfl) hless fun _ hn => by cases hn
  | loginFailed | uploadFailed | finalized | finalizeFailed =>
    exact h.congr (by simp) h.token hless fun hp hn => ⟨hp, hn, fun hcheck => .inl (hstays (by simp [hf]) hcheck)⟩
  | uploaded =>
    refine h.congr (by simp) h.token (fun c' hc' => ?_) fun hp hn => ⟨hp, hn, fun hcheck => .inl ?_⟩
    · rw [Tab.fetchBearer, List.mem_append, List.mem_singleton] at hc'
      rcases hc' with hc' | rfl
      · exact hless c' hc'
      · exact .inr ⟨rfl, by simp⟩
    · rw [Tab.fetchBearer, fetches_append]
      exact List.mem_append_left _ (hstays (by simp [hf]) hcheck)

theorem admitted_run (h : run js es = some s) : Admitted js es s.tab := by
  refine Lts.exec_history (I := fun es s => Admitted js es s.tab) h ?_ ?_
  · exact ⟨.inl rfl, by simp [System.boot], by simp [System.boot], by simp [System.boot], fun hp => absurd rfl hp⟩
  · intro es s e t hs ih hstep
    cases System.step_cases hstep with
    | user a tab ha => exact ih.act (Tab.act_cases ha)
    | load p => exact ih.load p
    | serve i r c hc _ hr response hresponse => exact ih.serve hs hc hr hresponse
    | reject i c hc => exact ih.answered (by simp) hc (by simp [notFound, Answer.token]) (by simp [notFound, Answer.ok])
    | lose i c hc => exact ih.answered (by simp) hc (by simp [Answer.token]) (by simp [Answer.ok])
    | resume i c hc a ha => exact ih.resume (run_ok hs).tab hc ha
    | reset tab ht =>
      unfold Tab.resetOTAPage at ht
      split at ht
      · cases ht
      · cases ht
        exact ih.congr (by simp) ih.token (fun c hc => .inl hc) fun hp hn => ⟨hp, hn, .inl⟩
    | other r => exact ih.congr (by simp) ih.token (fun c hc => .inl hc) fun hp hn => ⟨hp, hn, .inl⟩

/-- **A page inside that stays was let in by a login of its own tab**: once its check is over and no other page is on
its way, the server has since the page was loaded passed the check, under the token of a login with the right
credentials that it served to the tab before. -/
theorem inside_by_own_login (js : Json) (es : List Event) (s : System) (hrun : run js es = some s)
    (hin : s.tab.page ≠ .loginHtml) (hstays : s.tab.next = none) (hchecked : .checkAuth ∉ s.tab.fetches) :
    LetIn js es :=
  ((admitted_run hrun).waits hin hstays).resolve_left hchecked

/-- A login, and the check of the dashboard behind it. -/
def admittedEvents : List Event := loginEvents ++ [.serve 0 (.checkAuth ⟨some (bearer ++ loginToken), 600⟩), .resume 0]

theorem inside_by_own_login_dashboard : LetIn adminJson admittedEvents := by
  have hrun : (run adminJson admittedEvents).map (·.tab) = some { page := .dashboardHtml, token := some loginToken } := by
    decide +kernel
  obtain ⟨s, hs, htab⟩ := Option.map_eq_some_iff.mp hrun
  exact inside_by_own_login adminJson admittedEvents s hs (by rw [htab]; decide) (by rw [htab]) (by rw [htab]; decide)

end GateNode.Web
