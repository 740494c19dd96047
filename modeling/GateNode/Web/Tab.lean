/-
The pages in one tab of a browser: what `login.js`, `dashboard.js` and
`ota.js` do with the tab's `sessionStorage` and the requests they make. A
script runs until its page is left: an answer that comes while the next page
loads is still handled, one that comes after it is not.
-/
import GateNode.Http.Refused
import GateNode.Boot.System

namespace GateNode.Web

open CString
open GateNode.Http (Body Response bearer)

inductive Page
  | loginHtml
  | dashboardHtml
  | otaHtml
deriving DecidableEq, Repr

structure File where
  name : String
  content : List UInt8
deriving DecidableEq

/-- The requests scripts make. -/
inductive Fetch
  | checkAuth
  | auth (username password : List UInt8)
  | logout
  | upload (file : File)
  | complete
deriving DecidableEq

/-- The handler of the request; none is registered for `/ota/complete`. -/
def Fetch.uri : Fetch → Option Boot.Uri
  | .checkAuth => some .checkAuth
  | .auth _ _ => some .auth
  | .logout => some .logout
  | .upload _ => some .otaUpload
  | .complete => none

/-- What a `fetch` comes to: a response, its body as JSON if it is that, or an exception. -/
inductive Answer
  | response (ok : Bool) (json : Option (List (String × List UInt8)))
  | failed
deriving DecidableEq

def Answer.ok : Answer → Bool
  | .response ok _ => ok
  | .failed => false

/-- `response.json()`, which only answers of `/auth` are asked for. -/
def json : Body → Option (List (String × List UInt8))
  | .object members => some members
  | .text message => if message = "\x7b\"result\":\"fail\"\x7d" then some [("result", ofString "fail")] else none

/-- `response.ok` is that of a status from 200 to 299. -/
def answerOf : Response → Answer
  | .sendErr _ _ => .response false none
  | .sendStr _ body => .response true (json body)
  | .sendStatus _ _ => .response false none

/-- 404, where no handler is registered. -/
def notFound : Answer := .response false none

/-- A `fetch` under way, and its answer once it came. -/
structure Call where
  fetch : Fetch
  authorization : Option (List UInt8)
  answer : Option Answer := none
deriving DecidableEq

/-- What `showStatus` is given, less what a server or an exception says. -/
inductive Status
  | selectBin
  | tooLarge
  | noFile
  | updateFailed
  | finalizeFailed
  | updateSuccessful
deriving DecidableEq

def Status.msg : Status → String
  | .selectBin => "Please select a .bin file"
  | .tooLarge => "File size exceeds 2MB limit"
  | .noFile => "No file selected"
  | .updateFailed => "Update failed: "
  | .finalizeFailed => "Finalize failed: "
  | .updateSuccessful => "Firmware update successful! Device will restart..."

structure Tab where
  page : Page := .loginHtml
  /-- `authToken` of `sessionStorage`. -/
  token : Option (List UInt8) := none
  calls : List Call := []
  /-- Where `window.location.href` was last sent, until that page is there. -/
  next : Option Page := none
  /-- `handleLogin` listens for the form's submit. -/
  listening : Bool := false
  loginError : Option String := none
  selectedFile : Option File := none
  updateDisabled : Bool := true
  status : Option Status := none
  /-- `resetOTAPage` is to come, 3000 ms after a success. -/
  resetDue : Nat := 0
deriving DecidableEq

namespace Tab

/-- `getAuthToken()` in a template: without a token, the text of `null`. -/
def authToken (t : Tab) : List UInt8 := t.token.getD (ofString "null")

/-- `if (token)`. -/
def hasToken (t : Tab) : Bool := t.token.any (· ≠ [])

/-- A `fetch` with the header `Authorization`. -/
def fetchBearer (t : Tab) (f : Fetch) : Tab :=
  { t with calls := t.calls ++ [⟨f, some (bearer ++ t.authToken), none⟩] }

def goto (t : Tab) (p : Page) : Tab := { t with next := some p }

/-- The page is there, and its `DOMContentLoaded` handler has run. -/
def load (t : Tab) (p : Page) : Tab :=
  let t : Tab := { page := p, token := t.token }
  match p with
  | .loginHtml => if t.hasToken then t.fetchBearer .checkAuth else { t with listening := true }
  | .dashboardHtml | .otaHtml => t.fetchBearer .checkAuth

/-- `sessionStorage.clear()`, and back to the login. -/
def leave (t : Tab) : Tab := { t with token := none, next := some .loginHtml }

/-- What follows the answer of `/check-auth`. -/
def checked (t : Tab) (a : Answer) : Tab :=
  match t.page with
  | .loginHtml => if a.ok then t.goto .dashboardHtml else { t with listening := true }
  | .dashboardHtml | .otaHtml => if a.ok then t else t.goto .loginHtml

/-- `handleServerLogin` behind its `fetch`. A reply without a token has `undefined` stored. -/
def loggedIn (t : Tab) : Answer → Tab
  | .failed | .response _ none => { t with loginError := some "Connection error. Please try again." }
  | .response ok (some members) =>
    if ok ∧ members.lookup "result" = some (ofString "ok") then
      { t with token := some ((members.lookup "token").getD (ofString "undefined")), next := some .dashboardHtml }
    else
      { t with loginError := some "Invalid username or password" }

/-- `handleOTAUpdate` behind its `fetch`. -/
def uploaded (t : Tab) (a : Answer) : Tab :=
  if a.ok then t.fetchBearer .complete else { t with status := some .updateFailed, updateDisabled := false }

/-- `finalizeOTAUpdate` behind its `fetch`. -/
def finalized (t : Tab) (a : Answer) : Tab :=
  if a.ok then
    { t with status := some .updateSuccessful, resetDue := t.resetDue + 1 }
  else
    { t with status := some .finalizeFailed }

def resetOTAPage (t : Tab) : Option Tab :=
  match t.resetDue with
  | 0 => none
  | n + 1 => some { t with selectedFile := none, updateDisabled := true, resetDue := n }

/-- A script goes on with the answer of its `fetch`. -/
def resume (t : Tab) : Fetch → Answer → Tab
  | .checkAuth, a => t.checked a
  | .auth _ _, a => t.loggedIn a
  | .logout, _ => t.leave
  | .upload _, a => t.uploaded a
  | .complete, a => t.finalized a

end Tab

/-! ## The user -/

inductive UserAction
  | submit (username password : List UInt8)
  | logoutClick
  | menuClick (p : Page)
  | selectFile (file : Option File)
  | updateClick
  /-- A page is opened from outside the pages. -/
  | visit (p : Page)
deriving DecidableEq

namespace Tab

/-- `handleLogin`; without its listener the browser submits the form, which is to load the page anew. -/
def submit (t : Tab) (username password : List UInt8) : Tab :=
  if t.listening then
    { t with calls := t.calls ++ [⟨.auth username password, none, none⟩] }
  else
    t.goto .loginHtml

/-- `handleLogout` of `dashboard.js` asks for a token first, that of `ota.js` does not. -/
def handleLogout (t : Tab) : Option Tab :=
  match t.page with
  | .loginHtml => none
  | .dashboardHtml => some (if t.hasToken then t.fetchBearer .logout else t.leave)
  | .otaHtml => some (t.fetchBearer .logout)

def handleMenuClick (t : Tab) (p : Page) : Option Tab :=
  match t.page, p with
  | .dashboardHtml, .dashboardHtml | .dashboardHtml, .otaHtml | .otaHtml, .dashboardHtml | .otaHtml, .otaHtml =>
    some (t.goto p)
  | _, _ => none

def maxFileSize : Nat := 2 * 1024 * 1024

def handleFileSelect (t : Tab) : Option File → Tab
  | none => t
  | some file =>
    if ¬ ".bin".toList <:+ file.name.toList then
      { t with status := some .selectBin }
    else if file.content.length > maxFileSize then
      { t with status := some .tooLarge }
    else
      { t with selectedFile := some file, updateDisabled := false, status := none }

def handleOTAUpdate (t : Tab) : Tab :=
  match t.selectedFile with
  | none => { t with status := some .noFile }
  | some file => { t with updateDisabled := true }.fetchBearer (.upload file)

/-- What the user does, where the page lets them. -/
def act (t : Tab) : UserAction → Option Tab
  | .submit username password => if t.page = .loginHtml then some (t.submit username password) else none
  | .logoutClick => t.handleLogout
  | .menuClick p => t.handleMenuClick p
  | .selectFile file => if t.page = .otaHtml then some (t.handleFileSelect file) else none
  | .updateClick => if t.page = .otaHtml ∧ t.updateDisabled = false then some t.handleOTAUpdate else none
  | .visit p => some (t.goto p)

/-! ## What an action and an answer can do -/

/-- What an action of the user makes of the tab. -/
inductive ActStep (t : Tab) : UserAction → Tab → Prop
  | submit (username password : List UInt8) (hp : t.page = .loginHtml) (hl : t.listening = true) :
      ActStep t (.submit username password) { t with calls := t.calls ++ [⟨.auth username password, none, none⟩] }
  | submitAnew (username password : List UInt8) : ActStep t (.submit username password) (t.goto .loginHtml)
  | logout (hp : t.page ≠ .loginHtml) : ActStep t .logoutClick (t.fetchBearer .logout)
  | leave (hp : t.page ≠ .loginHtml) : ActStep t .logoutClick t.leave
  | menu (p : Page) : ActStep t (.menuClick p) (t.goto p)
  | selectNone : ActStep t (.selectFile none) t
  | refuse (f : File) (status : Status) (hs : status ≠ .updateSuccessful) :
      ActStep t (.selectFile (some f)) { t with status := some status }
  | select (f : File) (hp : t.page = .otaHtml) (hname : ".bin".toList <:+ f.name.toList)
      (hsize : f.content.length ≤ maxFileSize) :
      ActStep t (.selectFile (some f)) { t with selectedFile := some f, updateDisabled := false, status := none }
  | noFile (hp : t.page = .otaHtml) (hd : t.updateDisabled = false) (hf : t.selectedFile = none) :
      ActStep t .updateClick { t with status := some .noFile }
  | update (f : File) (hp : t.page = .otaHtml) (hd : t.updateDisabled = false) (hf : t.selectedFile = some f) :
      ActStep t .updateClick ({ t with updateDisabled := true }.fetchBearer (.upload f))
  | visit (p : Page) : ActStep t (.visit p) (t.goto p)

/-- What the answer of its `fetch` makes a script do. -/
inductive ResumeStep (t : Tab) : Fetch → Answer → Tab → Prop
  | passed (a : Answer) (hp : t.page = .loginHtml) (ha : a.ok = true) : ResumeStep t .checkAuth a (t.goto .dashboardHtml)
  | listen (a : Answer) (hp : t.page = .loginHtml) (ha : a.ok = false) :
      ResumeStep t .checkAuth a { t with listening := true }
  | stay (a : Answer) (hp : t.page ≠ .loginHtml) (ha : a.ok = true) : ResumeStep t .checkAuth a t
  | refused (a : Answer) (hp : t.page ≠ .loginHtml) (ha : a.ok = false) : ResumeStep t .checkAuth a (t.goto .loginHtml)
  | loginFailed (username password : List UInt8) (a : Answer) (message : String) :
      ResumeStep t (.auth username password) a { t with loginError := some message }
  | loggedIn (username password : List UInt8) (ok : Bool) (members : List (String × List UInt8)) :
      ResumeStep t (.auth username password) (.response ok (some members))
        { t with token := some ((members.lookup "token").getD (ofString "undefined")), next := some .dashboardHtml }
  | loggedOut (a : Answer) : ResumeStep t .logout a t.leave
  | uploaded (f : File) (a : Answer) (ha : a.ok = true) : ResumeStep t (.upload f) a (t.fetchBearer .complete)
  | uploadFailed (f : File) (a : Answer) (ha : a.ok = false) :
      ResumeStep t (.upload f) a { t with status := some .updateFailed, updateDisabled := false }
  | finalized (a : Answer) (ha : a.ok = true) :
      ResumeStep t .complete a { t with status := some .updateSuccessful, resetDue := t.resetDue + 1 }
  | finalizeFailed (a : Answer) (ha : a.ok = false) :
      ResumeStep t .complete a { t with status := some .finalizeFailed }

variable {t u : Tab} {a : UserAction}

/-- A page begins with its check, but for a login page without a token, which listens. -/
theorem load_cases (t : Tab) (p : Page) :
    t.load p = ({ page := p, token := t.token } : Tab).fetchBearer .checkAuth ∨
      p = .loginHtml ∧ t.load p = { page := p, token := t.token, listening := true } := by
  cases p with
  | dashboardHtml | otaHtml => exact .inl rfl
  | loginHtml =>
    by_cases h : ({ page := .loginHtml, token := t.token } : Tab).hasToken
    · exact .inl (if_pos h)
    · exact .inr ⟨rfl, if_neg h⟩

theorem act_cases (h : t.act a = some u) : t.ActStep a u := by
  cases a with
  | submit username password =>
    simp only [act] at h
    split at h
    · next hp =>
      cases h
      unfold submit
      split
      · next hl => exact .submit username password hp hl
      · exact .submitAnew username password
    · cases h
  | logoutClick =>
    simp only [act, handleLogout] at h
    split at h
    · cases h
    · next hp =>
      cases h
      split
      · exact .logout (by rw [hp]; decide)
      · exact .leave (by rw [hp]; decide)
    · next hp =>
      cases h
      exact .logout (by rw [hp]; decide)
  | menuClick p =>
    simp only [act, handleMenuClick] at h
    split at h <;> cases h <;> exact .menu _
  | selectFile file =>
    simp only [act] at h
    split at h
    · next hp =>
      cases h
      cases file with
      | none => exact .selectNone
      | some f =>
        simp only [handleFileSelect]
        split
        · exact .refuse f .selectBin (by decide)
        · next hname =>
          split
          · exact .refuse f .tooLarge (by decide)
          · next hsize => exact .select f hp (by simpa using hname) (by simpa using hsize)
    · cases h
  | updateClick =>
    simp only [act] at h
    split at h
    · next hp =>
      cases h
      unfold handleOTAUpdate
      split
      · next hf => exact .noFile hp.1 hp.2 hf
      · next f hf => exact .update f hp.1 hp.2 hf
    · cases h
  | visit p =>
    cases h
    exact .visit p

theorem resume_cases (t : Tab) (f : Fetch) (a : Answer) : t.ResumeStep f a (t.resume f a) := by
  cases f with
  | checkAuth =>
    simp only [resume, checked]
    split
    · next hp =>
      split
      · next ha => exact .passed a hp ha
      · next ha => exact .listen a hp (by simpa using ha)
    all_goals
      next hp =>
      split
      · next ha => exact .stay a (by rw [hp]; decide) ha
      · next ha => exact .refused a (by rw [hp]; decide) (by simpa using ha)
  | auth username password =>
    simp only [resume, loggedIn]
    split
    · exact .loginFailed username password _ _
    · exact .loginFailed username password _ _
    · next ok members =>
      split
      · exact .loggedIn username password ok members
      · exact .loginFailed username password _ _
  | logout => exact .loggedOut a
  | upload f =>
    simp only [resume, uploaded]
    split
    · next ha => exact .uploaded f a ha
    · next ha => exact .uploadFailed f a (by simpa using ha)
  | complete =>
    simp only [resume, finalized]
    split
    · next ha => exact .finalized a ha
    · next ha => exact .finalizeFailed a (by simpa using ha)

end Tab

end GateNode.Web
