/-
Uploads one after another, as `ota_task` meets them: the events of
`file_upload_handler`, less those the event handler keeps back, each with
what the ESP-IDF answers while it is handled. Events come in order, and none
is lost.
-/
import Mathlib.Data.List.Basic
import GateNode.Lib.Lts
import GateNode.Ota.Calls

namespace GateNode.Ota

open GateNode.Http (RecvResult HttpServerEvent uploadLoop fileUploadHandler)
open Lts

/-- An upload that has ended: the answers of its receives, and those of the
ESP-IDF while its `n`-th message is handled. -/
structure Upload where
  recvs : List RecvResult
  ended : (fileUploadHandler recvs).2.isSome = true
  idf : Nat → Idf

/-- A message, with the answers that go with it. -/
abbrev OtaStep := OtaMsg (List UInt8) × Idf

def otaStep (s : OtaTask) (l : OtaStep) : Option OtaTask := (otaIteration s l.2 l.1).2

def otaCalls (s : OtaTask) (l : OtaStep) : List OtaCall := (otaIteration s l.2 l.1).1

/-- What an upload with these receives sends to `ota_task`. -/
def uploadMessages (recvs : List RecvResult) : List (OtaMsg (List UInt8)) :=
  (fileUploadHandler recvs).1.filterMap routineHttpServerEventsHandler

def Upload.steps (u : Upload) : List OtaStep := (uploadMessages u.recvs).mapIdx fun n msg => (msg, u.idf n)

/-- The messages of the uploads, one upload after the other. -/
def uploadSteps (us : List Upload) : List OtaStep := us.flatMap Upload.steps

/-- The calls made on the way from boot. -/
def otaTrace (us : List Upload) : List OtaCall := collect otaStep otaCalls {} (uploadSteps us)

/-! ## The messages of an upload -/

/-- The chunks received before the end. -/
def chunks : List RecvResult → List (List UInt8)
  | .ok (b :: bs) :: rest => (b :: bs) :: chunks rest
  | _ => []

/-- The chunks end with the body, or at least with the connection. -/
def completes : List RecvResult → Bool
  | .ok (_ :: _) :: rest => completes rest
  | .ok [] :: _ => true
  | _ => false

/-- The messages behind the first. -/
def laterMessages (recvs : List RecvResult) : List (OtaMsg (List UInt8)) :=
  (chunks recvs).map .dataPacketArrived ++ if completes recvs then [.dataCompletion] else []

theorem uploadLoop_messages (recvs : List RecvResult) :
    (uploadLoop recvs).1.filterMap routineHttpServerEventsHandler = laterMessages recvs := by
  induction recvs with
  | nil => rfl
  | cons r rest ih =>
    match r with
    | .error _ => rfl
    | .ok [] => rfl
    | .ok (b :: bs) =>
      simp only [uploadLoop, List.filterMap_cons, routineHttpServerEventsHandler, ih]
      rfl

theorem uploadMessages_eq (recvs : List RecvResult) :
    uploadMessages recvs = .dataArrivalStarting :: laterMessages recvs := by
  simp only [uploadMessages, fileUploadHandler, List.filterMap_cons, routineHttpServerEventsHandler,
    uploadLoop_messages]

/-- The steps behind an upload's start. -/
def Upload.rest (u : Upload) : List OtaStep := (laterMessages u.recvs).mapIdx fun n msg => (msg, u.idf (n + 1))

theorem Upload.steps_eq (u : Upload) : u.steps = (.dataArrivalStarting, u.idf 0) :: u.rest := by
  rw [Upload.steps, uploadMessages_eq, List.mapIdx_cons, Upload.rest]

theorem Upload.rest_map_fst (u : Upload) : u.rest.map Prod.fst = laterMessages u.recvs := by
  refine List.ext_getElem? fun i => ?_
  rw [Upload.rest, List.getElem?_map, List.getElem?_mapIdx, Option.map_map]
  exact Option.map_id'

theorem not_starting_of_mem {recvs : List RecvResult} {msg : OtaMsg (List UInt8)}
    (h : msg ∈ laterMessages recvs) : msg ≠ .dataArrivalStarting := by
  rw [laterMessages, List.mem_append, List.mem_map] at h
  rcases h with ⟨data, -, rfl⟩ | h
  · nofun
  · split at h
    · rw [List.mem_singleton] at h
      rw [h]
      nofun
    · cases h

/-- An upload starts once. -/
theorem Upload.rest_not_starting (u : Upload) {l : OtaStep} (hl : l ∈ u.rest) : l.1 ≠ .dataArrivalStarting := by
  have hmem : l.1 ∈ u.rest.map Prod.fst := List.mem_map_of_mem hl
  rw [Upload.rest_map_fst] at hmem
  exact not_starting_of_mem hmem

theorem Upload.rest_of_nil (u : Upload) (h : chunks u.recvs = []) :
    u.rest = if completes u.recvs then [(.dataCompletion, u.idf 1)] else [] := by
  rw [Upload.rest, laterMessages, h]
  cases completes u.recvs <;> rfl

/-- The first chunk meets the answers for the second message. -/
theorem Upload.rest_of_cons (u : Upload) {first : List UInt8} {later : List (List UInt8)}
    (h : chunks u.recvs = first :: later) : ∃ tail, u.rest = (.dataPacketArrived first, u.idf 1) :: tail := by
  rw [Upload.rest, laterMessages, h, List.map_cons, List.cons_append, List.mapIdx_cons]
  exact ⟨_, rfl⟩

/-- The data of the packets among the steps. -/
def packets (ls : List OtaStep) : List (List UInt8) :=
  ls.filterMap fun l => match l.1 with
    | .dataPacketArrived data => some data
    | _ => none

@[simp] theorem packets_nil : packets [] = [] := rfl

theorem packets_snoc (ls : List OtaStep) (data : List UInt8) (idf : Idf) :
    packets (ls ++ [(.dataPacketArrived data, idf)]) = packets ls ++ [data] := by
  simp [packets]

/-- What comes before a completion is all the chunks. -/
theorem chunks_of_completion {cs : List (List UInt8)} {c : Bool} {before after : List (OtaMsg (List UInt8))}
    (h : cs.map OtaMsg.dataPacketArrived ++ (if c then [.dataCompletion] else []) =
      before ++ .dataCompletion :: after) : before = cs.map .dataPacketArrived := by
  induction cs generalizing before with
  | nil =>
    cases before with
    | nil => rfl
    | cons m before => cases c <;> simp at h
  | cons data cs ih =>
    cases before with
    | nil => simp at h
    | cons m before =>
      rw [List.map_cons, List.cons_append, List.cons_append, List.cons.injEq] at h
      rw [List.map_cons, ih h.2, h.1]

theorem packets_of_map_fst {ls : List OtaStep} {cs : List (List UInt8)}
    (h : ls.map Prod.fst = cs.map .dataPacketArrived) : packets ls = cs := by
  induction cs generalizing ls with
  | nil => simp_all
  | cons data cs ih =>
    obtain ⟨l, ls, rfl, hl, hls⟩ := List.map_eq_cons_iff.mp h
    rw [packets, List.filterMap_cons, hl]
    exact congrArg (data :: ·) (ih hls)

theorem Upload.packets_before_completion (u : Upload) {done after : List OtaStep} {l : OtaStep}
    (h : u.rest = done ++ l :: after) (hl : l.1 = .dataCompletion) : packets done = chunks u.recvs := by
  have hfst := congrArg (List.map Prod.fst) h
  rw [u.rest_map_fst, List.map_append, List.map_cons, hl] at hfst
  exact packets_of_map_fst (chunks_of_completion hfst)

/-! ## Runs -/

variable {s t : OtaTask} {l : OtaStep} {ls : List OtaStep} {trace : List OtaCall}

theorem otaStep_iteration (hs : s.nextState = s.state) (h : otaStep s l = some t) :
    Iteration s l.2 l.1 (otaCalls s l) (some t) := by
  rw [← h]
  exact otaIteration_spec hs l.2 l.1

/-- The invariant of the task holds all along. -/
theorem run_ok (hs : s.Ok trace) (h : exec otaStep s ls = some t) :
    t.Ok (trace ++ collect otaStep otaCalls s ls) := by
  refine exec_history (I := fun ls t => t.Ok (trace ++ collect otaStep otaCalls s ls)) h ?_ ?_
  · rw [collect_nil, List.append_nil]
    exact hs
  · intro ls t l u ht hok hstep
    rw [collect_snoc ht, ← List.append_assoc]
    exact (otaStep_iteration hok.next hstep).ok hok

theorem uploadSteps_snoc (us : List Upload) (u : Upload) :
    uploadSteps (us ++ [u]) = uploadSteps us ++ u.steps := by
  simp [uploadSteps]

theorem otaTrace_snoc {us : List Upload} (h : exec otaStep {} (uploadSteps us) = some t) (u : Upload) :
    otaTrace (us ++ [u]) = otaTrace us ++ collect otaStep otaCalls t u.steps := by
  rw [otaTrace, uploadSteps_snoc, collect_append h]
  rfl

theorem uploads_ok {us : List Upload} (h : exec otaStep {} (uploadSteps us) = some t) : t.Ok (otaTrace us) :=
  run_ok ok_boot h

end GateNode.Ota
