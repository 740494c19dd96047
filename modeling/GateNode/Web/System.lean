/-
A tab at the server. The server takes a request at a time, the tab's or
another's: of other tabs, of pages already left, of anyone. When a request
is served, whether its answer gets through and when the script goes on are
steps of their own.
-/
import GateNode.Lib.Lts
import GateNode.Web.Tab

namespace GateNode.Web

open CString
open GateNode.Http (SessionTable CJson Request RecvResult)

/-- The two ends' JSON: what `/auth` parses, and what `JSON.stringify` makes of the credentials. -/
structure Json where
  parse : CJson
  stringify : List UInt8 → List UInt8 → List UInt8

/-- What the receives bring is of `body`, from its front. -/
def Delivers (body : List UInt8) (recvs : List RecvResult) : Prop :=
  (recvs.flatMap fun r => r.toOption.getD []) <+: body

instance (body : List UInt8) (recvs : List RecvResult) : Decidable (Delivers body recvs) := by
  unfold Delivers; infer_instance

/-- The request as the server meets it is the call's. -/
def Call.Makes (js : Json) (c : Call) (r : Request) : Prop :=
  match c.fetch, r with
  | .checkAuth, .checkAuth h | .logout, .logout h => h.authorization = c.authorization
  | .auth username password, .auth r => Delivers (js.stringify username password) [r.recv]
  | .upload file, .otaUpload h recvs => h.authorization = c.authorization ∧ Delivers file.content recvs
  | _, _ => False

instance (js : Json) (c : Call) (r : Request) : Decidable (c.Makes js r) := by
  unfold Call.Makes
  split <;> infer_instance

structure System where
  table : SessionTable := .boot
  tab : Tab := { listening := true }
deriving DecidableEq

def System.boot : System := {}

inductive Event
  | user (a : UserAction)
  /-- The page the tab was sent to is there. -/
  | load
  /-- The server serves the tab's call `i`, which is `r` to it. -/
  | serve (i : Nat) (r : Request)
  /-- The call `i`, for which there is no handler, is answered. -/
  | reject (i : Nat)
  /-- The call `i` fails on its way there or back. -/
  | lose (i : Nat)
  /-- The script of the call `i` goes on. -/
  | resume (i : Nat)
  /-- `resetOTAPage` -/
  | reset
  /-- The server serves a request that is not the tab's, or not any more. -/
  | other (r : Request)

/-- The answer of the call `i` has come. -/
def Tab.answered (t : Tab) (i : Nat) (a : Answer) : Tab :=
  { t with calls := t.calls.modify i fun c => { c with answer := some a } }

/-- One step. -/
def System.step (js : Json) (s : System) : Event → Option System
  | .user a => (s.tab.act a).map fun tab => { s with tab := tab }
  | .load => s.tab.next.map fun p => { s with tab := s.tab.load p }
  | .serve i r =>
    match s.tab.calls[i]?, r.response js.parse s.table with
    | some c, some response =>
      if c.answer = none ∧ c.Makes js r then
        some { table := r.serve js.parse s.table, tab := s.tab.answered i (answerOf response) }
      else
        none
    | _, _ => none
  | .reject i =>
    match s.tab.calls[i]? with
    | some c => if c.answer = none ∧ c.fetch.uri = none then some { s with tab := s.tab.answered i notFound } else none
    | none => none
  | .lose i =>
    match s.tab.calls[i]? with
    | some c => if c.answer = none then some { s with tab := s.tab.answered i .failed } else none
    | none => none
  | .resume i =>
    match s.tab.calls[i]? with
    | some ⟨fetch, _, some a⟩ =>
      some { s with tab := { s.tab with calls := s.tab.calls.eraseIdx i }.resume fetch a }
    | _ => none
  | .reset => s.tab.resetOTAPage.map fun tab => { s with tab := tab }
  | .other r => some { s with table := r.serve js.parse s.table }

/-- What a step can do. -/
inductive System.Step (js : Json) (s : System) : Event → System → Prop
  | user (a : UserAction) (tab : Tab) (ha : s.tab.act a = some tab) : Step js s (.user a) { s with tab := tab }
  | load (p : Page) (hp : s.tab.next = some p) : Step js s .load { s with tab := s.tab.load p }
  | serve (i : Nat) (r : Request) (c : Call) (hc : s.tab.calls[i]? = some c) (hn : c.answer = none)
      (hr : c.Makes js r) (response : Http.Response) (hs : r.response js.parse s.table = some response) :
      Step js s (.serve i r) { table := r.serve js.parse s.table, tab := s.tab.answered i (answerOf response) }
  | reject (i : Nat) (c : Call) (hc : s.tab.calls[i]? = some c) (hn : c.answer = none) (hu : c.fetch.uri = none) :
      Step js s (.reject i) { s with tab := s.tab.answered i notFound }
  | lose (i : Nat) (c : Call) (hc : s.tab.calls[i]? = some c) (hn : c.answer = none) :
      Step js s (.lose i) { s with tab := s.tab.answered i .failed }
  | resume (i : Nat) (c : Call) (hc : s.tab.calls[i]? = some c) (a : Answer) (ha : c.answer = some a) :
      Step js s (.resume i) { s with tab := { s.tab with calls := s.tab.calls.eraseIdx i }.resume c.fetch a }
  | reset (tab : Tab) (ht : s.tab.resetOTAPage = some tab) : Step js s .reset { s with tab := tab }
  | other (r : Request) : Step js s (.other r) { s with table := r.serve js.parse s.table }

theorem System.step_cases {js : Json} {s t : System} {e : Event} (h : s.step js e = some t) : Step js s e t := by
  cases e with
  | user a =>
    obtain ⟨tab, ha, rfl⟩ := Option.map_eq_some_iff.mp h
    exact .user a tab ha
  | load =>
    obtain ⟨p, hp, rfl⟩ := Option.map_eq_some_iff.mp h
    exact .load p hp
  | serve i r =>
    simp only [step] at h
    split at h
    · next c response hc hs =>
      split at h
      · next hr =>
        cases h
        exact .serve i r c hc hr.1 hr.2 response hs
      · cases h
    · cases h
  | reject i =>
    simp only [step] at h
    split at h
    · next c hc =>
      split at h
      · next hr =>
        cases h
        exact .reject i c hc hr.1 hr.2
      · cases h
    · cases h
  | lose i =>
    simp only [step] at h
    split at h
    · next c hc =>
      split at h
      · next hn =>
        cases h
        exact .lose i c hc hn
      · cases h
    · cases h
  | resume i =>
    simp only [step] at h
    split at h
    · next fetch authorization a hc =>
      cases h
      exact .resume i ⟨fetch, authorization, some a⟩ hc a rfl
    · cases h
  | reset =>
    obtain ⟨tab, ht, rfl⟩ := Option.map_eq_some_iff.mp h
    exact .reset tab ht
  | other r =>
    cases h
    exact .other r

/-- The steps of a run from the server's boot and a tab's first look at its root page. -/
abbrev run (js : Json) (es : List Event) : Option System := Lts.exec (System.step js) .boot es

end GateNode.Web
