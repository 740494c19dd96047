/-
Pages that send each other on. The login page goes to the dashboard when its
check is passed, the dashboard and the update page to the login when theirs
is not. A check not passed shows that the slot has another session or none,
which only a login changes; so between logins the tab soon stays where it
is. A check that fails on the network shows nothing of the kind, and then it
need not.
-/
import GateNode.Lib.Rank
import GateNode.Web.Session

namespace GateNode.Web

open CString
open GateNode.Http (Request bearer tokenLen)

/-- The pages loaded. -/
def System.loads (s : System) : Event → List Page
  | .load => s.tab.next.toList
  | _ => []

/-- The slot holds the tab's token. -/
def System.LoggedIn (s : System) : Prop := Holds s.table s.tab.authToken

instance (s : System) : Decidable s.LoggedIn := by unfold System.LoggedIn; infer_instance

/-- The user leaves the tab alone, the network brings its answers, and no login is given its token anew. -/
def System.Undisturbed (js : Json) (s : System) : Event → Prop
  | .user _ | .lose _ => False
  | .serve _ r | .other r => ¬ r.Issues js.parse s.table s.tab.authToken
  | .load | .reject _ | .resume _ | .reset => True

/-- The script may go on to the dashboard. -/
def Call.Leads (c : Call) : Prop := (∃ u p, c.fetch = .auth u p) ∨ c.fetch = .checkAuth ∧ ∃ a ∈ c.answer, a.ok = true

/-- The script will go back to the login. -/
def Call.Refused (c : Call) : Prop := c.fetch = .checkAuth ∧ ∃ a ∈ c.answer, a.ok = false

variable {js : Json} {s t : System} {e : Event} {es : List Event}

open Classical in
/-- Pages still to be loaded once `p` is there. -/
noncomputable def System.after (s : System) (p : Page) : Nat :=
  if p = .loginHtml then if s.LoggedIn then 2 else 0 else 1

open Classical in
/-- Pages still to be loaded because of what the present one has under way. -/
noncomputable def System.here (s : System) : Nat :=
  if s.tab.page = .loginHtml then
    if s.LoggedIn ∨ ∃ c ∈ s.tab.calls, c.Leads then 2 else 0
  else if s.LoggedIn ∧ ∃ c ∈ s.tab.calls, c.Refused then 3
  else if s.tab.calls = [] then 0 else 1

/-- Pages still to be loaded. -/
noncomputable def System.pages (s : System) : Nat :=
  max (match s.tab.next with
    | some p => 1 + s.after p
    | none => 0) s.here

theorem System.pages_le (s : System) : s.pages ≤ 3 := by
  have hafter (p : Page) : s.after p ≤ 2 := by
    unfold System.after
    split
    · split <;> omega
    · omega
  have hhere : s.here ≤ 3 := by
    unfold System.here
    split
    · split <;> omega
    · split
      · omega
      · split <;> omega
  unfold System.pages
  cases s.tab.next with
  | none => simp only [Nat.zero_max]; exact hhere
  | some p =>
    have := hafter p
    simp only
    omega

/-- A tab without a token is not logged in. -/
theorem System.Ok.token_of_loggedIn (h : s.Ok) (hl : s.LoggedIn) : s.tab.token ≠ none := by
  intro hnone
  have hlen := h.table.length_of_holds hl
  rw [Tab.authToken, hnone] at hlen
  exact absurd hlen (by decide)

theorem after_mono (h : t.LoggedIn → s.LoggedIn) (p : Page) : t.after p ≤ s.after p := by
  unfold System.after
  by_cases hp : p = .loginHtml
  · by_cases ht : t.LoggedIn
    · simp [hp, ht, h ht]
    · simp [hp, ht]
  · simp [hp]

/-- Fewer reasons to load, fewer pages. -/
theorem here_mono (hp : t.tab.page = s.tab.page) (hl : t.LoggedIn → s.LoggedIn)
    (hleads : s.tab.page = .loginHtml → ∀ c ∈ t.tab.calls, c.Leads → s.LoggedIn ∨ ∃ c ∈ s.tab.calls, c.Leads)
    (hrefused : s.tab.page ≠ .loginHtml → t.LoggedIn → ∀ c ∈ t.tab.calls, c.Refused → ∃ c ∈ s.tab.calls, c.Refused)
    (hcalls : s.tab.calls = [] → t.tab.calls = []) : t.here ≤ s.here := by
  unfold System.here
  rw [hp]
  by_cases hpage : s.tab.page = .loginHtml
  · rw [if_pos hpage, if_pos hpage]
    split
    · next h =>
      have h' : s.LoggedIn ∨ ∃ c ∈ s.tab.calls, c.Leads := by
        rcases h with h | ⟨c, hc, hlead⟩
        · exact .inl (hl h)
        · exact hleads hpage c hc hlead
      rw [if_pos h']
    · omega
  · rw [if_neg hpage, if_neg hpage]
    split
    · next h =>
      obtain ⟨hin, c, hc, href⟩ := h
      rw [if_pos ⟨hl hin, hrefused hpage hin c hc href⟩]
    · split
      · omega
      · next hne =>
        rw [if_neg fun hnil => hne (hcalls hnil)]
        split <;> omega

/-- The same page, with as much under way. -/
theorem pages_mono (hnext : t.tab.next = s.tab.next) (hl : t.LoggedIn → s.LoggedIn) (hh : t.here ≤ s.here) :
    t.pages ≤ s.pages := by
  unfold System.pages
  rw [hnext]
  cases s.tab.next with
  | none => simpa using hh
  | some p =>
    have := after_mono hl p
    simp only
    omega

/-- A page inside with a call under way may have one to load. -/
theorem one_le_here {c : Call} (hp : s.tab.page ≠ .loginHtml) (hc : c ∈ s.tab.calls) : 1 ≤ s.here := by
  unfold System.here
  rw [if_neg hp, if_neg (List.ne_nil_of_mem hc)]
  split <;> omega

theorem here_of_leads {c : Call} (hp : s.tab.page = .loginHtml) (hc : c ∈ s.tab.calls) (hl : c.Leads) : s.here = 2 := by
  unfold System.here
  rw [if_pos hp, if_pos (.inr ⟨c, hc, hl⟩)]

theorem here_of_refused {c : Call} (hp : s.tab.page ≠ .loginHtml) (hc : c ∈ s.tab.calls) (hl : s.LoggedIn)
    (hr : c.Refused) : s.here = 3 := by
  unfold System.here
  rw [if_neg hp, if_pos ⟨hl, c, hc, hr⟩]

theorem System.here_le (s : System) : s.here ≤ if s.tab.page = .loginHtml then 2 else if s.LoggedIn then 3 else 1 := by
  unfold here
  split
  · split <;> omega
  · split
    · next h => rw [if_pos h.1]
    · split <;> split <;> omega

theorem here_le_pages (s : System) : s.here ≤ s.pages := le_max_right _ _

/-! ## The steps -/

theorem page_load (t : Tab) (p : Page) : (t.load p).page = p := by
  rcases t.load_cases p with h | ⟨-, h⟩ <;> rw [h]
  rfl

theorem token_load (t : Tab) (p : Page) : (t.load p).token = t.token := by
  rcases t.load_cases p with h | ⟨-, h⟩ <;> rw [h]
  rfl

theorem next_load (t : Tab) (p : Page) : (t.load p).next = none := by
  rcases t.load_cases p with h | ⟨-, h⟩ <;> rw [h]
  rfl

theorem calls_load {t : Tab} {p : Page} {c : Call} (hc : c ∈ (t.load p).calls) :
    c.fetch = .checkAuth ∧ c.answer = none := by
  rcases t.load_cases p with h | ⟨-, h⟩ <;> rw [h] at hc
  · obtain rfl := List.mem_singleton.mp hc
    exact ⟨rfl, rfl⟩
  · cases hc

/-- A page just loaded has its check to make. -/
theorem pages_load (s : System) (p : Page) : ({ s with tab := s.tab.load p } : System).pages ≤ s.after p := by
  have hl : ({ s with tab := s.tab.load p } : System).LoggedIn ↔ s.LoggedIn := by
    unfold System.LoggedIn Tab.authToken
    rw [token_load]
  have hleads : ¬ ∃ c ∈ (s.tab.load p).calls, c.Leads := by
    rintro ⟨c, hc, ⟨u, q, hf⟩ | ⟨-, a, ha, -⟩⟩
    · rw [(calls_load hc).1] at hf
      cases hf
    · rw [(calls_load hc).2] at ha
      cases ha
  have hrefused : ¬ ∃ c ∈ (s.tab.load p).calls, c.Refused := by
    rintro ⟨c, hc, -, a, ha, -⟩
    rw [(calls_load hc).2] at ha
    cases ha
  simp only [System.pages, System.here, System.after, next_load, page_load, hl, hleads, hrefused, or_false, and_false,
    if_false, Nat.zero_max]
  split
  · exact le_rfl
  · split <;> omega

/-- A call of the tab is answered. -/
theorem pages_answered {table : Http.SessionTable} {i : Nat} {c : Call} (hc : s.tab.calls[i]? = some c) {a : Answer}
    (hl : Holds table s.tab.authToken → s.LoggedIn)
    (hpassed : c.fetch = .checkAuth → s.tab.page = .loginHtml → a.ok = true → s.LoggedIn)
    (hrefused : c.fetch = .checkAuth → a.ok = false → ¬ Holds table s.tab.authToken) :
    ({ table := table, tab := s.tab.answered i a } : System).pages ≤ s.pages := by
  refine pages_mono rfl hl (here_mono rfl hl (fun hp c' hc' hlead => ?_) (fun _ hin c' hc' href => ?_) fun hnil => ?_)
  · rcases mem_answered hc hc' with hold | rfl
    · exact .inr ⟨c', hold, hlead⟩
    · rcases hlead with hauth | ⟨hf, b, hb, hok⟩
      · exact .inr ⟨c, List.mem_of_getElem? hc, .inl hauth⟩
      · cases hb
        exact .inl (hpassed hf hp hok)
  · rcases mem_answered hc hc' with hold | rfl
    · exact ⟨c', hold, href⟩
    · obtain ⟨hf, b, hb, hok⟩ := href
      cases hb
      exact absurd hin (hrefused hf hok)
  · rw [hnil] at hc
    cases hc

/-- A script goes on, and the page and the token are as before. -/
theorem pages_of_calls {tab : Tab} {i : Nat} {c : Call} (hc : s.tab.calls[i]? = some c) (hp : tab.page = s.tab.page)
    (ht : tab.token = s.tab.token) (hn : tab.next = s.tab.next)
    (hcalls : ∀ c' ∈ tab.calls, c' ∈ s.tab.calls ∨ c'.fetch = .complete) :
    ({ s with tab := tab } : System).pages ≤ s.pages := by
  have hl : ({ s with tab := tab } : System).LoggedIn → s.LoggedIn := by
    unfold System.LoggedIn Tab.authToken
    rw [ht]
    exact id
  refine pages_mono hn hl (here_mono hp hl (fun _ c' hc' hlead => ?_) (fun _ _ c' hc' href => ?_) fun hnil => ?_)
  · rcases hcalls c' hc' with hmem | hf
    · exact .inr ⟨c', hmem, hlead⟩
    · rcases hlead with ⟨u, p, hf'⟩ | ⟨hf', -⟩ <;> rw [hf] at hf' <;> cases hf'
  · rcases hcalls c' hc' with hmem | hf
    · exact ⟨c', hmem, href⟩
    · have hf' := href.1
      rw [hf] at hf'
      cases hf'
  · rw [hnil] at hc
    cases hc

/-- From the login page to the dashboard. -/
theorem pages_goto_dashboard {tab : Tab} {c : Call} (hc : c ∈ s.tab.calls) (hl : c.Leads)
    (hp : s.tab.page = .loginHtml) (hp' : tab.page = .loginHtml) (hn : tab.next = some .dashboardHtml) :
    ({ s with tab := tab } : System).pages ≤ s.pages := by
  have hhere := System.here_le { s with tab := tab }
  rw [if_pos hp'] at hhere
  refine le_trans ?_ (here_le_pages s)
  rw [here_of_leads hp hc hl]
  simp only [System.pages, hn, System.after]
  rw [if_neg (by decide)]
  omega

/-- From a page inside to the login page. -/
theorem pages_goto_login {tab : Tab} {c : Call} (hc : c ∈ s.tab.calls) (hp : s.tab.page ≠ .loginHtml)
    (hp' : tab.page ≠ .loginHtml) (hn : tab.next = some .loginHtml)
    (hl : ({ s with tab := tab } : System).LoggedIn → s.LoggedIn ∧ c.Refused) :
    ({ s with tab := tab } : System).pages ≤ s.pages := by
  refine le_trans ?_ (here_le_pages s)
  by_cases hin : ({ s with tab := tab } : System).LoggedIn
  · rw [here_of_refused hp hc (hl hin).1 (hl hin).2]
    exact System.pages_le _
  · have hhere := System.here_le { s with tab := tab }
    rw [if_neg hp', if_neg hin] at hhere
    have hone := one_le_here hp hc
    simp only [System.pages, hn, System.after, hin, if_true, if_false]
    omega

/-- The script of a call goes on. -/
theorem pages_resume (h : s.Ok) {i : Nat} {c : Call} (hc : s.tab.calls[i]? = some c) {a : Answer}
    (ha : c.answer = some a) :
    ({ s with tab := ({ s.tab with calls := s.tab.calls.eraseIdx i } : Tab).resume c.fetch a } : System).pages ≤
      s.pages := by
  have hmem := List.mem_of_getElem? hc
  have hsub : (s.tab.calls.eraseIdx i).Sublist s.tab.calls := List.eraseIdx_sublist s.tab.calls i
  have hless : ∀ c' ∈ s.tab.calls.eraseIdx i, c' ∈ s.tab.calls ∨ c'.fetch = .complete :=
    fun c' hc' => .inl (hsub.subset hc')
  have hfetch : c.fetch ∈ s.tab.fetches := List.mem_map_of_mem hmem
  have hstep := Tab.resume_cases { s.tab with calls := s.tab.calls.eraseIdx i } c.fetch a
  generalize Tab.resume _ c.fetch a = tab at hstep ⊢
  generalize hf : c.fetch = f at hstep hfetch
  cases hstep with
  | listen | stay | loginFailed | uploadFailed | finalized | finalizeFailed => exact pages_of_calls hc rfl rfl rfl hless
  | passed a hp hok => exact pages_goto_dashboard hmem (.inr ⟨hf, a, ha, hok⟩) hp hp rfl
  | refused a hp hok => exact pages_goto_login hmem hp hp rfl fun hin => ⟨hin, hf, a, ha, hok⟩
  | loggedIn u p ok members =>
    have hp := (h.tab.form_of_auth hfetch rfl).1
    exact pages_goto_dashboard hmem (.inl ⟨u, p, hf⟩) hp hp rfl
  | loggedOut =>
    have hp := h.tab.inside_of_mem hfetch (by simp) (by simp)
    refine pages_goto_login hmem hp hp rfl fun hin => ?_
    have hok : System.Ok { s with tab := ({ s.tab with calls := s.tab.calls.eraseIdx i } : Tab).leave } :=
      ⟨h.table, (h.tab.erase i).leave hp⟩
    exact absurd rfl (hok.token_of_loggedIn hin)
  | uploaded =>
    refine pages_of_calls hc rfl rfl rfl fun c' hc' => ?_
    rw [Tab.fetchBearer, List.mem_append, List.mem_singleton] at hc'
    rcases hc' with hc' | rfl
    · exact hless c' hc'
    · exact .inr rfl

theorem System.Step.pages_le (h : System.Step js s e t) (hok : s.Ok) (he : s.Undisturbed js e) :
    (s.loads e).length + t.pages ≤ s.pages := by
  cases h with
  | user => exact he.elim
  | lose => exact he.elim
  | load p hp =>
    have := pages_load s p
    simp only [loads, hp, Option.toList_some, List.length_singleton]
    simp only [pages, hp] at this ⊢
    omega
  | serve i r c hc hn hr response hs =>
    show 0 + _ ≤ _
    rw [Nat.zero_add]
    have hfits : Fits s.tab.authToken := by
      unfold Tab.authToken
      cases htoken : s.tab.token with
      | none => exact fits_null
      | some v => exact hok.tab.token v htoken
    have hcheck (hf : c.fetch = .checkAuth) : ∃ ticks, r = .checkAuth ⟨c.authorization, ticks⟩ := by
      unfold Call.Makes at hr
      rw [hf] at hr
      cases r with
      | checkAuth header => exact ⟨header.ticks, by rw [← hr]⟩
      | auth | logout | otaUpload => exact hr.elim
    refine pages_answered hc (holds_of_serve hok.table he) (fun hf hp ha => ?_) fun hf ha hin => ?_
    · obtain ⟨ticks, rfl⟩ := hcheck hf
      have hsent := (hok.tab.sent c (List.mem_of_getElem? hc) hf).resolve_right fun hout => hout.2 hp
      rw [hsent] at hs
      have hholds := checkAuth_holds hok.table hfits ticks hs
      rwa [ha, if_pos rfl] at hholds
    · obtain ⟨ticks, rfl⟩ := hcheck hf
      rcases hok.tab.sent c (List.mem_of_getElem? hc) hf with hsent | ⟨hnone, -⟩
      · rw [hsent] at hs hin
        have hholds := checkAuth_holds hok.table hfits ticks hs
        rw [ha, if_neg Bool.false_ne_true] at hholds
        exact hholds hin
      · have hlen := (hok.table.serve js.parse _).length_of_holds hin
        rw [Tab.authToken, hnone] at hlen
        exact absurd hlen (by decide)
  | reject i c hc hn hu =>
    show 0 + _ ≤ _
    rw [Nat.zero_add]
    have hne : c.fetch ≠ .checkAuth := fun hf => by
      rw [hf] at hu
      cases hu
    exact pages_answered hc id (fun hf => absurd hf hne) fun hf => absurd hf hne
  | resume i c hc a ha =>
    show 0 + _ ≤ _
    rw [Nat.zero_add]
    exact pages_resume hok hc ha
  | reset tab ht =>
    show 0 + _ ≤ _
    rw [Nat.zero_add]
    unfold Tab.resetOTAPage at ht
    split at ht
    · cases ht
    · cases ht
      exact le_rfl
  | other r =>
    show 0 + _ ≤ _
    rw [Nat.zero_add]
    have hl : Holds (r.serve js.parse s.table) s.tab.authToken → s.LoggedIn := holds_of_serve hok.table he
    exact pages_mono rfl hl (here_mono rfl hl (fun _ c hc hlead => .inr ⟨c, hc, hlead⟩)
      (fun _ _ c hc href => ⟨c, hc, href⟩) id)

/-- **A tab left alone is not sent to and fro**: from any state of any run, until the user does something, an answer is
lost on the network or a login is given the tab's token anew, at most three more pages are loaded, whatever others ask
of the server meanwhile. -/
theorem no_redirect_loop (js : Json) (es later : List Event) (s t : System) (hrun : run js es = some s)
    (ht : Lts.exec (System.step js) s later = some t) (hleft : Lts.Along (System.step js) (System.Undisturbed js) s later) :
    (Lts.collect (System.step js) System.loads s later).length ≤ 3 := by
  have hle := (Lts.length_collect_add_rank_le (I := System.Ok) System.pages ht hleft (run_ok hrun)
    fun v e w hv he hstep => ⟨hv.step (System.step_cases hstep), (System.step_cases hstep).pages_le hv he⟩).2
  have := s.pages_le
  omega

/-! ## A login, and what may come of it -/

/-- The JSON of a login with the expected credentials. -/
def adminJson : Json where
  parse := Http.adminJson
  stringify username password :=
    ofString "\x7b\"username\":\"" ++ username ++ ofString "\",\"password\":\"" ++ password ++ ofString "\"\x7d"

def loginEvents : List Event :=
  [.user (.submit (ofString "admin") (ofString "pindora")), .serve 0 (.auth (Http.adminLogin 500 1)), .resume 0, .load]

/-- The token of that login. -/
def loginToken : List UInt8 := List.replicate tokenLen 66

/-- The dashboard is there, its check to be answered. -/
def System.inside : System where
  table := [⟨true, loginToken ++ List.replicate 32 0, Http.ticksToMs 500⟩]
  tab := { page := .dashboardHtml, token := some loginToken, calls := [⟨.checkAuth, some (bearer ++ loginToken), none⟩] }

theorem run_login : run adminJson loginEvents = some .inside := by decide +kernel

/-- The check of the dashboard, which finds the session expired. -/
def expiredEvents : List Event :=
  [.serve 0 (.checkAuth ⟨some (bearer ++ loginToken), 18501⟩), .resume 0, .load]

theorem no_redirect_loop_expired : ∃ t, Lts.exec (System.step adminJson) .inside expiredEvents = some t ∧
    (Lts.collect (System.step adminJson) System.loads .inside expiredEvents).length ≤ 3 := by
  refine ⟨_, rfl, no_redirect_loop adminJson loginEvents expiredEvents .inside _ run_login rfl ?_⟩
  refine Lts.along_of_forall fun e he s => ?_
  simp only [expiredEvents, List.mem_cons, List.not_mem_nil, or_false] at he
  rcases he with rfl | rfl | rfl
  · exact id
  · trivial
  · trivial

/-- The dashboard's check is lost, the login page's is passed. -/
def lostEvents : List Event :=
  [.lose 0, .resume 0, .load, .serve 0 (.checkAuth ⟨some (bearer ++ loginToken), 500⟩), .resume 0, .load]

theorem exec_lost : Lts.exec (System.step adminJson) .inside lostEvents = some .inside := by decide +kernel

/-- A step of the tab alone, which makes no login. -/
def Event.Alone : Event → Prop
  | .user _ | .other _ | .serve _ (.auth _) => False
  | .load | .serve _ _ | .reject _ | .lose _ | .resume _ | .reset => True

/-- **A network that loses the dashboard's checks sends the tab to and fro for as long as it does**: once logged in,
with no one else at the server and nothing from the user. -/
theorem lost_answers_redirect (n : Nat) :
    ∃ s later t, run adminJson loginEvents = some s ∧ (∀ e ∈ later, e.Alone) ∧
      Lts.exec (System.step adminJson) s later = some t ∧
      n ≤ (Lts.collect (System.step adminJson) System.loads s later).length := by
  refine ⟨.inside, (List.replicate n lostEvents).flatten, .inside, run_login, fun e he => ?_,
    Lts.exec_flatten_replicate exec_lost n, ?_⟩
  · obtain ⟨l, hl, he⟩ := List.mem_flatten.mp he
    rw [List.eq_of_mem_replicate hl] at he
    simp only [lostEvents, List.mem_cons, List.not_mem_nil, or_false] at he
    rcases he with rfl | rfl | rfl | rfl | rfl | rfl <;> trivial
  · have htwo : (Lts.collect (System.step adminJson) System.loads .inside lostEvents).length = 2 := by decide +kernel
    rw [Lts.length_collect_flatten_replicate exec_lost, htwo]
    omega

end GateNode.Web
