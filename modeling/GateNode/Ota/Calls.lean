/-
What the calls on images say: which handles are open, and what was written
through one since its begin. Handles are opened by a begin that succeeds and
closed by an abort or an end, whether that succeeds or not. Everything an
iteration does to them is said once, by `Iteration`.
-/
import GateNode.Ota.Task

namespace GateNode.Ota

open GateNode.Http (EspErr)

/-! ## Handles -/

/-- Whether `h` is open after a call. -/
def OtaCall.opened (h : Handle) (before : Bool) : OtaCall → Bool
  | .otaBegin _ h' .espOk => h' = h || before
  | .otaAbort h' | .otaEnd h' _ => h' ≠ h && before
  | _ => before

/-- What stands written through `h` after a call. -/
def OtaCall.image (h : Handle) (before : List UInt8) : OtaCall → List UInt8
  | .otaBegin _ h' .espOk => if h' = h then [] else before
  | .otaWrite h' data .espOk => if h' = h then before ++ data else before
  | _ => before

/-- `h` is open: begun, and neither ended nor aborted since. -/
def isOpen (h : Handle) (trace : List OtaCall) : Bool := trace.foldl (OtaCall.opened h) false

/-- The bytes written through `h` since its last begin. -/
def writtenSinceBegin (h : Handle) (trace : List OtaCall) : List UInt8 := trace.foldl (OtaCall.image h) []

/-- No handle is open. -/
def Closed (trace : List OtaCall) : Prop := ∀ h, isOpen h trace = false

/-- As documented, a write or an end succeeds only through an open handle. -/
def OtaCall.Documented (pre : List OtaCall) : OtaCall → Prop
  | .otaWrite h _ .espOk | .otaEnd h .espOk => isOpen h pre = true
  | _ => True

instance (pre : List OtaCall) (c : OtaCall) : Decidable (c.Documented pre) := by
  unfold OtaCall.Documented
  split <;> infer_instance

/-- Every call answered as documented. -/
def Documented (calls : List OtaCall) : Prop :=
  ∀ n, ∀ h : n < calls.length, calls[n].Documented (calls.take n)

instance (calls : List OtaCall) : Decidable (Documented calls) := by unfold Documented; infer_instance

variable {h : Handle} {trace : List OtaCall}

theorem isOpen_append {cs : List OtaCall} :
    isOpen h (trace ++ cs) = cs.foldl (OtaCall.opened h) (isOpen h trace) := List.foldl_append

theorem writtenSinceBegin_append {cs : List OtaCall} :
    writtenSinceBegin h (trace ++ cs) = cs.foldl (OtaCall.image h) (writtenSinceBegin h trace) := List.foldl_append

theorem Documented.split {pre post : List OtaCall} {c : OtaCall} (hd : Documented (pre ++ c :: post)) :
    c.Documented pre := by
  have hlt : pre.length < (pre ++ c :: post).length := by simp
  have := hd pre.length hlt
  rw [List.take_left, List.getElem_append_right (Nat.le_refl _)] at this
  simpa using this

theorem Documented.of_append {pre post : List OtaCall} (hd : Documented (pre ++ post)) : Documented pre := by
  intro n hn
  have := hd n (by rw [List.length_append]; omega)
  rwa [List.getElem_append_left hn, List.take_append_of_le_length (Nat.le_of_lt hn)] at this

/-! ## Iterations -/

def OtaTask.toIdle (s : OtaTask) : OtaTask := { s with state := .idle, nextState := .idle }

/-- The variables once a first packet's checks have passed. -/
def OtaTask.begun (s : OtaTask) (h : Handle) : OtaTask :=
  { s with imageHeaderWasChecked := true, updateHandle := h }

@[simp] theorem begun_state (s : OtaTask) (h : Handle) : (s.begun h).state = s.state := rfl
@[simp] theorem begun_updateHandle (s : OtaTask) (h : Handle) : (s.begun h).updateHandle = h := rfl

/-- What a message can do, by the state and the check it meets: the calls
made, and the variables left unless the device restarts. -/
inductive Iteration (s : OtaTask) (idf : Idf) : OtaMsg (List UInt8) → List OtaCall → Option OtaTask → Prop
  | started {partition : Partition} : s.state = .idle → idf.nextUpdatePartition = some partition →
      Iteration s idf .dataArrivalStarting []
        (some { s with state := .active, nextState := .active, updatePartition := some partition })
  | noPartition : s.state = .idle → idf.nextUpdatePartition = none →
      Iteration s idf .dataArrivalStarting [] (some { s with updatePartition := none })
  | ignored {msg : OtaMsg (List UInt8)} : s.state = .idle → msg ≠ .dataArrivalStarting →
      Iteration s idf msg [] (some s)
  | again : s.state = .active → Iteration s idf .dataArrivalStarting [] (some s)
  | rejected {data : List UInt8} : s.state = .active → s.imageHeaderWasChecked = false →
      headerAccepted idf data = false → Iteration s idf (.dataPacketArrived data) [] (some s.toIdle)
  | beginFailed {data : List UInt8} : s.state = .active → s.imageHeaderWasChecked = false →
      headerAccepted idf data = true →
      Iteration s idf (.dataPacketArrived data) [.otaBegin s.updatePartition idf.updateHandle .espFail]
        (some (s.begun idf.updateHandle).toIdle)
  | firstWritten {data : List UInt8} : s.state = .active → s.imageHeaderWasChecked = false →
      headerAccepted idf data = true →
      Iteration s idf (.dataPacketArrived data)
        [.otaBegin s.updatePartition idf.updateHandle .espOk, .otaWrite idf.updateHandle data .espOk]
        (some (s.begun idf.updateHandle))
  | firstFailed {data : List UInt8} : s.state = .active → s.imageHeaderWasChecked = false →
      headerAccepted idf data = true →
      Iteration s idf (.dataPacketArrived data)
        [.otaBegin s.updatePartition idf.updateHandle .espOk, .otaWrite idf.updateHandle data .espFail,
          .otaAbort idf.updateHandle]
        (some (s.begun idf.updateHandle).toIdle)
  | written {data : List UInt8} : s.state = .active → s.imageHeaderWasChecked = true →
      Iteration s idf (.dataPacketArrived data) [.otaWrite s.updateHandle data .espOk] (some s)
  | writeFailed {data : List UInt8} : s.state = .active → s.imageHeaderWasChecked = true →
      Iteration s idf (.dataPacketArrived data)
        [.otaWrite s.updateHandle data .espFail, .otaAbort s.updateHandle] (some s.toIdle)
  | endFailed : s.state = .active →
      Iteration s idf .dataCompletion [.otaEnd s.updateHandle .espFail] (some s.toIdle)
  | setBootFailed : s.state = .active →
      Iteration s idf .dataCompletion
        [.otaEnd s.updateHandle .espOk, .otaSetBootPartition s.updatePartition .espFail] (some s.toIdle)
  | restarted : s.state = .active →
      Iteration s idf .dataCompletion
        [.otaEnd s.updateHandle .espOk, .otaSetBootPartition s.updatePartition .espOk] none

theorem packetArrived_spec {s : OtaTask} (hs : s.nextState = s.state) (ha : s.state = .active) (idf : Idf)
    (data : List UInt8) :
    Iteration s idf (.dataPacketArrived data) (packetArrived s idf data).1
      (some { (packetArrived s idf data).2 with state := (packetArrived s idf data).2.nextState }) := by
  obtain ⟨state, checked, nextState, handle, partition⟩ := s
  cases ha
  cases hs
  cases checked with
  | true =>
    simp only [packetArrived, if_true, writePacket]
    cases idf.otaWrite with
    | espOk => exact .written rfl rfl
    | espFail => exact .writeFailed rfl rfl
  | false =>
    simp only [packetArrived, Bool.false_eq_true, if_false, checkHeader]
    cases haccepted : headerAccepted idf data with
    | false => exact .rejected rfl rfl haccepted
    | true =>
      simp only [if_true]
      cases idf.otaBegin with
      | espFail => exact .beginFailed rfl rfl haccepted
      | espOk =>
        simp only [writePacket]
        cases idf.otaWrite with
        | espOk => exact .firstWritten rfl rfl haccepted
        | espFail => exact .firstFailed rfl rfl haccepted

theorem completion_spec {s : OtaTask} (hs : s.nextState = s.state) (ha : s.state = .active) (idf : Idf) :
    Iteration s idf .dataCompletion (completion s idf).1
      ((completion s idf).2.map fun t => { t with state := t.nextState }) := by
  obtain ⟨state, checked, nextState, handle, partition⟩ := s
  cases ha
  cases hs
  simp only [completion]
  cases idf.otaEnd with
  | espFail => exact .endFailed rfl
  | espOk =>
    simp only
    cases idf.otaSetBootPartition with
    | espFail => exact .setBootFailed rfl
    | espOk => exact .restarted rfl

/-- An iteration does one of these things; `next_state` is the state when it begins. -/
theorem otaIteration_spec {s : OtaTask} (hs : s.nextState = s.state) (idf : Idf) (msg : OtaMsg (List UInt8)) :
    Iteration s idf msg (otaIteration s idf msg).1 (otaIteration s idf msg).2 := by
  cases hstate : s.state with
  | idle =>
    simp only [otaIteration, hstate, Option.map_some]
    obtain ⟨state, checked, nextState, handle, partition⟩ := s
    cases hstate
    cases hs
    cases msg with
    | dataArrivalStarting =>
      simp only [idleCase]
      cases hpartition : idf.nextUpdatePartition with
      | none => exact .noPartition rfl hpartition
      | some p => exact .started rfl hpartition
    | dataPacketArrived data => exact .ignored rfl nofun
    | dataCompletion => exact .ignored rfl nofun
  | active =>
    simp only [otaIteration, hstate]
    cases msg with
    | dataArrivalStarting =>
      have hleft : { s with state := s.nextState } = s := by
        obtain ⟨state, checked, nextState, handle, partition⟩ := s
        cases hs
        rfl
      simp only [activeCase, Option.map_some, hleft]
      exact .again hstate
    | dataPacketArrived data => exact packetArrived_spec hs hstate idf data
    | dataCompletion => exact completion_spec hs hstate idf

/-! ## The invariant of the task -/

/-- Only the task's own handle may be open, and only while it is active with its header checked. -/
structure OtaTask.Ok (s : OtaTask) (trace : List OtaCall) : Prop where
  next : s.nextState = s.state
  unbegun : s.imageHeaderWasChecked = false → s.updateHandle = 0
  own : ∀ h, isOpen h trace = true → h = s.updateHandle
  closed : s.state = .idle ∨ s.imageHeaderWasChecked = false → Closed trace

theorem ok_boot : OtaTask.Ok {} [] := ⟨rfl, fun _ => rfl, nofun, fun _ _ => rfl⟩

theorem ok_toIdle {s : OtaTask} (hunbegun : s.imageHeaderWasChecked = false → s.updateHandle = 0)
    (hclosed : Closed trace) : s.toIdle.Ok trace :=
  ⟨rfl, hunbegun, fun h ho => absurd ho (by rw [hclosed h]; decide), fun _ => hclosed⟩

/-- A handle that alone may be open leaves none open once it is aborted or ended. -/
theorem closed_of_own {H : Handle} {c : OtaCall} (cs : List OtaCall)
    (hown : ∀ h, isOpen h (trace ++ cs) = true → h = H) (hc : c = .otaAbort H ∨ ∃ err, c = .otaEnd H err) :
    Closed (trace ++ (cs ++ [c])) := by
  intro h
  have hlast : isOpen h (trace ++ (cs ++ [c])) = (decide (H ≠ h) && isOpen h (trace ++ cs)) := by
    rw [← List.append_assoc, isOpen_append]
    rcases hc with rfl | ⟨err, rfl⟩ <;> rfl
  rw [hlast]
  by_cases hH : H = h
  · simp [hH]
  · have hnot : isOpen h (trace ++ cs) = false := by
      rw [Bool.eq_false_iff]
      exact fun ho => hH (hown h ho).symm
    rw [hnot, Bool.and_false]

theorem Iteration.ok {s t : OtaTask} {idf : Idf} {msg : OtaMsg (List UInt8)} {calls : List OtaCall}
    (h : Iteration s idf msg calls (some t)) (hs : s.Ok trace) : t.Ok (trace ++ calls) := by
  obtain ⟨hnext, hunbegun, hown, hclosed⟩ := hs
  cases h with
  | started hstate _ =>
    rw [List.append_nil]
    exact ⟨rfl, hunbegun, hown, fun _ => hclosed (.inl hstate)⟩
  | noPartition hstate _ =>
    rw [List.append_nil]
    exact ⟨hnext, hunbegun, hown, hclosed⟩
  | ignored hstate _ | again hstate =>
    rw [List.append_nil]
    exact ⟨hnext, hunbegun, hown, hclosed⟩
  | rejected hstate hchecked _ =>
    rw [List.append_nil]
    exact ok_toIdle hunbegun (hclosed (.inr hchecked))
  | beginFailed hstate hchecked _ =>
    refine ok_toIdle nofun fun h => ?_
    rw [isOpen_append]
    exact hclosed (.inr hchecked) h
  | firstWritten hstate hchecked _ =>
    refine ⟨hnext, nofun, fun h ho => ?_, ?_⟩
    · rw [isOpen_append] at ho
      simpa [OtaCall.opened, hclosed (.inr hchecked) h, eq_comm] using ho
    · rintro (hidle | hflag)
      · rw [begun_state, hstate] at hidle
        cases hidle
      · cases hflag
  | firstFailed hstate hchecked _ =>
    refine ok_toIdle nofun (closed_of_own (H := idf.updateHandle) [_, _] (fun h ho => ?_) (.inl rfl))
    rw [isOpen_append] at ho
    simpa [OtaCall.opened, hclosed (.inr hchecked) h, eq_comm] using ho
  | @written data hstate hchecked =>
    have hsame (h : Handle) : isOpen h (trace ++ [.otaWrite s.updateHandle data .espOk]) = isOpen h trace :=
      isOpen_append
    exact ⟨hnext, hunbegun, fun h ho => hown h (hsame h ▸ ho), fun hor h => (hsame h).trans (hclosed hor h)⟩
  | writeFailed hstate hchecked =>
    refine ok_toIdle hunbegun (closed_of_own [_] (fun h ho => hown h ?_) (.inl rfl))
    rwa [isOpen_append] at ho
  | endFailed hstate =>
    refine ok_toIdle hunbegun (closed_of_own [] (fun h ho => hown h ?_) (.inr ⟨_, rfl⟩))
    rwa [List.append_nil] at ho
  | setBootFailed hstate =>
    have hended : Closed (trace ++ ([] ++ [.otaEnd s.updateHandle .espOk])) :=
      closed_of_own [] (fun h ho => hown h (by rwa [List.append_nil] at ho)) (.inr ⟨_, rfl⟩)
    refine ok_toIdle hunbegun fun h => ?_
    have := hended h
    rw [isOpen_append] at this ⊢
    exact this

end GateNode.Ota
