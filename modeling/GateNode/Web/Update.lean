/-
The update page. Its button is off from a click until a file is selected
anew or the upload has failed. What it says in the end is the answer of
`/ota/complete`, which the server has no handler for.
-/
import GateNode.Web.Session

namespace GateNode.Web

open CString
open GateNode.Http (bearer)

/-- What `handleFileSelect` takes. -/
def File.Selectable (f : File) : Prop := ".bin".toList <:+ f.name.toList ∧ f.content.length ≤ Tab.maxFileSize

instance (f : File) : Decidable f.Selectable := by unfold File.Selectable; infer_instance

/-- What the page has selected, posted and shown. -/
structure Tab.UpdateOk (t : Tab) : Prop where
  selected : ∀ f ∈ t.selectedFile, f.Selectable
  posted : ∀ c ∈ t.calls, ∀ f, c.fetch = .upload f → f.Selectable
  rejected : ∀ c ∈ t.calls, c.fetch = .complete → ∀ a ∈ c.answer, a.ok = false
  status : t.status ≠ some .updateSuccessful
  reset : t.resetDue = 0

/-- The file whose upload begins. -/
def System.uploads (s : System) : Event → List File
  | .user .updateClick => if s.tab.page = .otaHtml ∧ s.tab.updateDisabled = false then s.tab.selectedFile.toList else []
  | _ => []

/-- The file whose selection switches the button on. -/
def System.selections (s : System) : Event → List File
  | .user (.selectFile (some f)) => if s.tab.page = .otaHtml ∧ f.Selectable then [f] else []
  | _ => []

/-- The file whose upload has failed, which switches it on too. -/
def System.failures (s : System) : Event → List File
  | .resume i =>
    match s.tab.calls[i]? with
    | some ⟨.upload f, _, some a⟩ => if a.ok then [] else [f]
    | _ => []
  | _ => []

variable {js : Json} {s t : System} {e : Event} {es : List Event}

/-! ## What it selects, posts and shows -/

theorem Tab.UpdateOk.congr {t u : Tab} (h : t.UpdateOk) (hf : u.selectedFile = t.selectedFile) (hc : u.calls = t.calls)
    (hs : u.status = t.status) (hr : u.resetDue = t.resetDue) : u.UpdateOk :=
  ⟨by rw [hf]; exact h.selected, by rw [hc]; exact h.posted, by rw [hc]; exact h.rejected, by rw [hs]; exact h.status,
    hr.trans h.reset⟩

/-- A further call. -/
theorem Tab.UpdateOk.append {t : Tab} (h : t.UpdateOk) {c : Call} (hn : c.answer = none)
    (hf : ∀ f, c.fetch = .upload f → f.Selectable) : ({ t with calls := t.calls ++ [c] } : Tab).UpdateOk := by
  refine ⟨h.selected, fun c' hc' f hf' => ?_, fun c' hc' hcomplete a ha => ?_, h.status, h.reset⟩
  · rw [List.mem_append, List.mem_singleton] at hc'
    rcases hc' with hc' | rfl
    · exact h.posted c' hc' f hf'
    · exact hf f hf'
  · rw [List.mem_append, List.mem_singleton] at hc'
    rcases hc' with hc' | rfl
    · exact h.rejected c' hc' hcomplete a ha
    · rw [hn] at ha
      cases ha

theorem Tab.UpdateOk.boot : System.boot.tab.UpdateOk := by constructor <;> simp [System.boot]

theorem Tab.UpdateOk.load (t : Tab) (p : Page) : (t.load p).UpdateOk := by
  have hempty : ({ page := p, token := t.token } : Tab).UpdateOk := ⟨by simp, by simp, by simp, by simp, rfl⟩
  rcases t.load_cases p with h | ⟨-, h⟩ <;> rw [h]
  · exact hempty.append rfl (by simp)
  · exact hempty.congr rfl rfl rfl rfl

/-- What is shown, but for a success. -/
theorem Tab.UpdateOk.shown {t : Tab} (h : t.UpdateOk) {status : Status} (hs : status ≠ .updateSuccessful) :
    ({ t with status := some status } : Tab).UpdateOk :=
  ⟨h.selected, h.posted, h.rejected, by simpa using hs, h.reset⟩

theorem Tab.UpdateOk.act {t u : Tab} (h : t.UpdateOk) {a : UserAction} (hu : t.act a = some u) : u.UpdateOk := by
  cases Tab.act_cases hu with
  | submit | logout => exact h.append rfl (by simp)
  | submitAnew | leave | menu | visit => exact h.congr rfl rfl rfl rfl
  | selectNone => exact h
  | refuse f status hs => exact h.shown hs
  | select f hp hname hsize =>
    refine ⟨fun f' hf' => ?_, h.posted, h.rejected, by simp, h.reset⟩
    cases hf'
    exact ⟨hname, hsize⟩
  | noFile => exact h.shown (by decide)
  | update f hp hd hf =>
    have hdisabled : ({ t with updateDisabled := true } : Tab).UpdateOk := h.congr rfl rfl rfl rfl
    refine hdisabled.append rfl fun f' hf' => ?_
    cases hf'
    exact h.selected f hf

/-- A call is answered; that of `/ota/complete` with no success. -/
theorem Tab.UpdateOk.answered {t : Tab} (h : t.UpdateOk) {i : Nat} {c : Call} (hc : t.calls[i]? = some c) {a : Answer}
    (ha : c.fetch = .complete → a.ok = false) : (t.answered i a).UpdateOk := by
  have hmem := List.mem_of_getElem? hc
  refine ⟨h.selected, fun c' hc' f hf => ?_, fun c' hc' hf b hb => ?_, h.status, h.reset⟩
  · rcases mem_answered hc hc' with hold | rfl
    · exact h.posted c' hold f hf
    · exact h.posted c hmem f hf
  · rcases mem_answered hc hc' with hold | rfl
    · exact h.rejected c' hold hf b hb
    · cases hb
      exact ha hf

/-- A call is done with. -/
theorem Tab.UpdateOk.erase {t : Tab} (h : t.UpdateOk) (i : Nat) :
    ({ t with calls := t.calls.eraseIdx i } : Tab).UpdateOk := by
  have hsub : (t.calls.eraseIdx i).Sublist t.calls := List.eraseIdx_sublist t.calls i
  exact ⟨h.selected, fun c hc => h.posted c (hsub.subset hc), fun c hc => h.rejected c (hsub.subset hc), h.status, h.reset⟩

theorem Tab.UpdateOk.resume {t : Tab} (h : t.UpdateOk) {i : Nat} {c : Call} (hc : t.calls[i]? = some c) {a : Answer}
    (ha : c.answer = some a) : (({ t with calls := t.calls.eraseIdx i } : Tab).resume c.fetch a).UpdateOk := by
  have herase := h.erase i
  have hmem := List.mem_of_getElem? hc
  have hstep := Tab.resume_cases { t with calls := t.calls.eraseIdx i } c.fetch a
  generalize Tab.resume _ c.fetch a = u at hstep ⊢
  generalize hf : c.fetch = f at hstep
  cases hstep with
  | passed | listen | refused | loginFailed | loggedIn | loggedOut => exact herase.congr rfl rfl rfl rfl
  | stay => exact herase
  | uploaded => exact herase.append rfl (by simp)
  | uploadFailed =>
    have hshown := herase.shown (by decide : Status.updateFailed ≠ .updateSuccessful)
    exact hshown.congr rfl rfl rfl rfl
  | finalized a hok => exact absurd (hok.symm.trans (h.rejected c hmem hf a ha)) (by decide)
  | finalizeFailed => exact herase.shown (by decide)

theorem run_updateOk (h : run js es = some s) : s.tab.UpdateOk := by
  refine Lts.exec_invariant (I := fun s => s.tab.UpdateOk) h .boot fun s e t hs hl => ?_
  cases System.step_cases hl with
  | user a tab ha => exact hs.act ha
  | load p => exact .load s.tab p
  | serve i r c hc _ hr =>
    refine hs.answered hc fun hf => ?_
    unfold Call.Makes at hr
    rw [hf] at hr
    exact hr.elim
  | reject i c hc => exact hs.answered hc fun _ => rfl
  | lose i c hc => exact hs.answered hc fun _ => rfl
  | resume i c hc a ha => exact hs.resume hc ha
  | reset tab ht =>
    unfold Tab.resetOTAPage at ht
    rw [hs.reset] at ht
    cases ht
  | other => exact hs

/-! ## The button -/

/-- The button, counted as a click to come. -/
def Tab.clicks (t : Tab) : Nat := if t.updateDisabled then 0 else 1

theorem Tab.clicks_le (t : Tab) : t.clicks ≤ 1 := by
  unfold clicks
  split <;> omega

theorem clicks_load (t : Tab) (p : Page) : (t.load p).clicks = 0 := by
  rcases t.load_cases p with h | ⟨-, h⟩
  all_goals
    rw [h]
    rfl

/-- A selection gives the button, an upload takes it, and nothing else the user does matters to it. -/
theorem clicks_act {tab : Tab} {a : UserAction} (ha : s.tab.act a = some tab) :
    (s.uploads (.user a)).length + tab.clicks ≤ s.tab.clicks + (s.selections (.user a)).length := by
  cases Tab.act_cases ha with
  | submit | submitAnew | logout | leave | menu | selectNone | visit | refuse =>
    show 0 + s.tab.clicks ≤ _
    omega
  | select f hp hname hsize =>
    have hselectable : f.Selectable := ⟨hname, hsize⟩
    show 0 + 1 ≤ _
    rw [System.selections, if_pos ⟨hp, hselectable⟩, List.length_singleton]
    omega
  | noFile hp hd hf =>
    rw [System.uploads, if_pos ⟨hp, hd⟩, hf]
    show 0 + s.tab.clicks ≤ _
    omega
  | update f hp hd hf =>
    have hone : s.tab.clicks = 1 := by simp [Tab.clicks, hd]
    rw [System.uploads, if_pos ⟨hp, hd⟩, hf, hone]
    exact Nat.le_add_right _ _

/-- A script that goes on gives it when its upload has failed. -/
theorem clicks_resume {i : Nat} {c : Call} (hc : s.tab.calls[i]? = some c) {a : Answer} (ha : c.answer = some a) :
    (({ s.tab with calls := s.tab.calls.eraseIdx i } : Tab).resume c.fetch a).clicks ≤
      s.tab.clicks + (s.failures (.resume i)).length := by
  obtain ⟨fetch, authorization, answer⟩ := c
  cases ha
  have hstep := Tab.resume_cases { s.tab with calls := s.tab.calls.eraseIdx i } fetch a
  generalize Tab.resume _ fetch a = u at hstep ⊢
  cases hstep with
  | passed | listen | stay | refused | loginFailed | loggedIn | loggedOut | uploaded | finalized | finalizeFailed =>
    exact Nat.le_add_right _ _
  | uploadFailed f a hfail =>
    have hone : (s.failures (.resume i)).length = 1 := by simp [System.failures, hc, hfail]
    rw [hone]
    exact (Tab.clicks_le _).trans (Nat.le_add_left 1 _)

theorem System.Step.uploads_le (h : System.Step js s e t) :
    (s.uploads e).length + t.tab.clicks ≤ s.tab.clicks + ((s.selections e).length + (s.failures e).length) := by
  cases h with
  | user a tab ha =>
    have := clicks_act ha
    show (s.uploads (.user a)).length + tab.clicks ≤ s.tab.clicks + (_ + 0)
    omega
  | load p =>
    show 0 + (s.tab.load p).clicks ≤ _
    rw [clicks_load]
    exact Nat.zero_le _
  | serve | reject | lose | other =>
    show 0 + s.tab.clicks ≤ _
    omega
  | resume i c hc a ha =>
    show 0 + _ ≤ s.tab.clicks + (0 + _)
    rw [Nat.zero_add, Nat.zero_add]
    exact clicks_resume hc ha
  | reset tab ht =>
    unfold Tab.resetOTAPage at ht
    split at ht
    · cases ht
    · cases ht
      exact Nat.zero_le _

/-- **The update page posts only `.bin` files of at most 2 MiB, each after a selection or a failure of its own, and never
says that an update succeeded**, whatever the server made of it. -/
theorem update_page (js : Json) (es : List Event) (s : System) (hrun : run js es = some s) :
    (∀ c ∈ s.tab.calls, ∀ f, c.fetch = .upload f → f.Selectable) ∧
      (Lts.collect (System.step js) System.uploads .boot es).length ≤
        (Lts.collect (System.step js) System.selections .boot es).length +
          (Lts.collect (System.step js) System.failures .boot es).length ∧
      s.tab.status ≠ some .updateSuccessful := by
  have hok := run_updateOk hrun
  refine ⟨hok.posted, ?_, hok.status⟩
  have hle : (Lts.collect (System.step js) System.uploads .boot es).length + s.tab.clicks ≤
      (Lts.collect (System.step js) System.selections .boot es).length +
        (Lts.collect (System.step js) System.failures .boot es).length := by
    refine Lts.exec_history (I := fun es s =>
      (Lts.collect (System.step js) System.uploads .boot es).length + s.tab.clicks ≤
        (Lts.collect (System.step js) System.selections .boot es).length +
          (Lts.collect (System.step js) System.failures .boot es).length) hrun le_rfl ?_
    intro es s e t hs ih hl
    have := (System.step_cases hl).uploads_le
    simp only [Lts.collect_snoc hs, List.length_append]
    omega
  omega

/-- An upload the server receives whole, from a page that is not logged in. -/
def uploadEvents : List Event :=
  [.user (.visit .otaHtml), .load, .user (.selectFile (some ⟨"gate.bin", [0xE9, 0x05]⟩)), .user .updateClick,
    .serve 1 (.otaUpload ⟨some (bearer ++ ofString "null"), 500⟩ [.ok [0xE9, 0x05], .ok []]), .resume 1, .reject 1,
    .resume 1]

/-- Its JSON, which an upload makes no use of. -/
def noJson : Json := ⟨fun _ => none, fun _ _ => []⟩

theorem update_page_upload : ∃ s, run noJson uploadEvents = some s ∧ s.tab.status = some .finalizeFailed ∧
    (∀ c ∈ s.tab.calls, ∀ f, c.fetch = .upload f → f.Selectable) ∧
    (Lts.collect (System.step noJson) System.uploads .boot uploadEvents).length ≤
      (Lts.collect (System.step noJson) System.selections .boot uploadEvents).length +
        (Lts.collect (System.step noJson) System.failures .boot uploadEvents).length ∧
    s.tab.status ≠ some .updateSuccessful :=
  ⟨_, rfl, rfl, update_page noJson uploadEvents _ rfl⟩

end GateNode.Web
