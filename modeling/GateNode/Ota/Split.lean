/-
How the network splits an upload. Every piece received goes to `ota_task` as
a packet of its own, and the header is looked for in the first packet only,
which has to hold all of it: a first piece too short turns away an image that
a longer one lets through.
-/
import GateNode.Ota.AfterUpload

namespace GateNode.Ota

open GateNode.Http (EspErr RecvResult)
open Lts

/-- The flash calls succeed. -/
structure Idf.Succeeds (idf : Idf) : Prop where
  otaBegin : idf.otaBegin = .espOk
  otaWrite : idf.otaWrite = .espOk
  otaEnd : idf.otaEnd = .espOk
  otaSetBootPartition : idf.otaSetBootPartition = .espOk

/-- The receives of a body that comes in these pieces. -/
def pieceRecvs (pieces : List (List UInt8)) : List RecvResult := pieces.map .ok ++ [.ok []]

/-- The messages of the upload, each with the same answers of the ESP-IDF. -/
def pieceSteps (idf : Idf) (pieces : List (List UInt8)) : List OtaStep :=
  (uploadMessages (pieceRecvs pieces)).map fun msg => (msg, idf)

/-- What becomes of an upload: whether it is set as boot partition, and the bytes written. -/
structure Outcome where
  booted : Bool
  written : List UInt8
deriving DecidableEq

def OtaCall.boots : OtaCall → Bool
  | .otaSetBootPartition _ .espOk => true
  | _ => false

def OtaCall.written : OtaCall → List UInt8
  | .otaWrite _ data .espOk => data
  | _ => []

/-- The outcome of an upload at boot that comes in these pieces. -/
def pieceOutcome (idf : Idf) (pieces : List (List UInt8)) : Outcome :=
  let calls := collect otaStep otaCalls {} (pieceSteps idf pieces)
  ⟨calls.any OtaCall.boots, calls.flatMap OtaCall.written⟩

/-- The least first packet is longer than the headers. -/
def headerSize : Nat := imageHeadersSize + appDescSize

variable {idf : Idf} {pieces : List (List UInt8)} {s : OtaTask} {ls : List OtaStep} {first more : List UInt8}

/-! ## The messages -/

theorem laterMessages_pieces (h : ∀ p ∈ pieces, p ≠ []) :
    laterMessages (pieceRecvs pieces) = pieces.map .dataPacketArrived ++ [.dataCompletion] := by
  have hboth : chunks (pieceRecvs pieces) = pieces ∧ completes (pieceRecvs pieces) = true := by
    induction pieces with
    | nil => exact ⟨rfl, rfl⟩
    | cons p pieces ih =>
      rw [List.forall_mem_cons] at h
      obtain ⟨hchunks, hcompletes⟩ := ih h.2
      cases p with
      | nil => exact absurd rfl h.1
      | cons b bs => exact ⟨congrArg ((b :: bs) :: ·) hchunks, hcompletes⟩
  rw [laterMessages, hboth.1, hboth.2, if_pos rfl]

theorem pieceSteps_eq (h : ∀ p ∈ pieces, p ≠ []) :
    pieceSteps idf pieces = (.dataArrivalStarting, idf) ::
      (pieces.map fun p => (.dataPacketArrived p, idf)) ++ [(.dataCompletion, idf)] := by
  rw [pieceSteps, uploadMessages_eq, laterMessages_pieces h]
  simp

/-! ## The calls -/

/-- Idle, the task makes no calls for the rest of an upload. -/
theorem collect_ignored (hn : s.nextState = s.state) (hidle : s.state = .idle)
    (hls : ∀ l ∈ ls, l.1 ≠ .dataArrivalStarting) : collect otaStep otaCalls s ls = [] := by
  induction ls with
  | nil => rfl
  | cons l ls ih =>
    rw [List.forall_mem_cons] at hls
    have hcalls : otaCalls s l = [] := by simp [otaCalls, otaIteration, hidle]
    rw [collect, otaStep_ignored hn hidle hls.1, hcalls]
    exact ih hls.2

/-- With the image begun every packet is written, and the completion boots it. -/
theorem collect_writing (hidf : idf.Succeeds) (handle : Handle) (partition : Option Partition) :
    collect otaStep otaCalls ⟨.active, true, .active, handle, partition⟩
        (pieces.map (fun p => (.dataPacketArrived p, idf)) ++ [(.dataCompletion, idf)]) =
      pieces.map (.otaWrite handle · .espOk) ++ [.otaEnd handle .espOk, .otaSetBootPartition partition .espOk] := by
  induction pieces with
  | nil =>
    simp [collect, otaStep, otaCalls, otaIteration, activeCase, completion, hidf.otaEnd, hidf.otaSetBootPartition]
  | cons p pieces ih =>
    have hstep : otaStep ⟨.active, true, .active, handle, partition⟩ (.dataPacketArrived p, idf) =
        some ⟨.active, true, .active, handle, partition⟩ := by
      simp [otaStep, otaIteration, activeCase, packetArrived, writePacket, hidf.otaWrite]
    have hcalls : otaCalls ⟨.active, true, .active, handle, partition⟩ (.dataPacketArrived p, idf) =
        [.otaWrite handle p .espOk] := by
      simp [otaCalls, otaIteration, activeCase, packetArrived, writePacket, hidf.otaWrite]
    rw [List.map_cons, List.cons_append, collect, hstep, hcalls]
    simp only [ih, List.map_cons, List.cons_append, List.nil_append]

theorem written_pieces (handle : Handle) (pieces : List (List UInt8)) :
    (pieces.map (OtaCall.otaWrite handle · .espOk)).flatMap OtaCall.written = pieces.flatten := by
  induction pieces with
  | nil => rfl
  | cons p pieces ih => rw [List.map_cons, List.flatMap_cons, ih, List.flatten_cons, OtaCall.written]

/-- What the first piece is met with at boot, and what follows it. -/
theorem pieceCalls_cons (hidf : idf.Succeeds) (h : ∀ p ∈ first :: pieces, p ≠ []) :
    collect otaStep otaCalls {} (pieceSteps idf (first :: pieces)) =
      if idf.nextUpdatePartition.isSome && headerAccepted idf first then
        .otaBegin idf.nextUpdatePartition idf.updateHandle .espOk ::
          ((first :: pieces).map (.otaWrite idf.updateHandle · .espOk) ++
            [.otaEnd idf.updateHandle .espOk, .otaSetBootPartition idf.nextUpdatePartition .espOk])
      else
        [] := by
  have hlater : ∀ l ∈ pieces.map (fun p => ((.dataPacketArrived p, idf) : OtaStep)) ++ [(.dataCompletion, idf)],
      l.1 ≠ .dataArrivalStarting := by
    intro l hl
    rw [List.mem_append, List.mem_map, List.mem_singleton] at hl
    rcases hl with ⟨p, -, rfl⟩ | rfl <;> nofun
  have hstart : otaCalls {} (.dataArrivalStarting, idf) = [] := rfl
  rw [pieceSteps_eq h, List.map_cons, List.cons_append, List.cons_append, collect, hstart, List.nil_append]
  cases hpartition : idf.nextUpdatePartition with
  | none =>
    have hstep : otaStep {} (.dataArrivalStarting, idf) = some {} := by
      simp [otaStep, otaIteration, idleCase, hpartition]
    rw [hstep]
    refine collect_ignored rfl rfl (List.forall_mem_cons.mpr ⟨nofun, hlater⟩)
  | some partition =>
    have hstep : otaStep {} (.dataArrivalStarting, idf) = some ⟨.active, false, .active, 0, some partition⟩ := by
      simp [otaStep, otaIteration, idleCase, hpartition]
    simp only [hstep, collect]
    cases haccepted : headerAccepted idf first with
    | false =>
      have hpacket : otaIteration ⟨.active, false, .active, 0, some partition⟩ idf (.dataPacketArrived first) =
          ([], some ⟨.idle, false, .idle, 0, some partition⟩) := by
        simp [otaIteration, activeCase, packetArrived, checkHeader, haccepted]
      rw [otaCalls, otaStep, hpacket]
      exact collect_ignored rfl rfl hlater
    | true =>
      have hpacket : otaIteration ⟨.active, false, .active, 0, some partition⟩ idf (.dataPacketArrived first) =
          ([.otaBegin (some partition) idf.updateHandle .espOk, .otaWrite idf.updateHandle first .espOk],
            some ⟨.active, true, .active, idf.updateHandle, some partition⟩) := by
        simp [otaIteration, activeCase, packetArrived, checkHeader, writePacket, haccepted, hidf.otaBegin,
          hidf.otaWrite]
      rw [otaCalls, otaStep, hpacket]
      simp [collect_writing hidf]

/-- The outcome is decided by the first piece. -/
theorem pieceOutcome_cons (hidf : idf.Succeeds) (h : ∀ p ∈ first :: pieces, p ≠ []) :
    pieceOutcome idf (first :: pieces) =
      if idf.nextUpdatePartition.isSome && headerAccepted idf first then
        ⟨true, (first :: pieces).flatten⟩
      else
        ⟨false, []⟩ := by
  rw [pieceOutcome, pieceCalls_cons hidf h]
  cases idf.nextUpdatePartition.isSome && headerAccepted idf first with
  | false => rfl
  | true => simp [OtaCall.boots, OtaCall.written, List.flatMap_append, written_pieces]

/-! ## The first piece -/

/-- A first packet that is long enough is judged as the whole body is. -/
theorem headerAccepted_append (idf : Idf) (first more : List UInt8) :
    headerAccepted idf first = (decide (first.length > headerSize) && headerAccepted idf (first ++ more)) := by
  by_cases hlen : first.length > headerSize
  · have hshort : imageHeadersSize ≤ first.length := by
      have : headerSize = imageHeadersSize + appDescSize := rfl
      omega
    have hinfo : newAppInfo (first ++ more) = newAppInfo first := by
      rw [newAppInfo, List.drop_append_of_le_length hshort, List.take_append_of_le_length, newAppInfo]
      rw [List.length_drop]
      have : headerSize = imageHeadersSize + appDescSize := rfl
      omega
    have hlen' : (first ++ more).length > headerSize := by
      rw [List.length_append]
      omega
    simp only [headerSize] at hlen hlen'
    simp only [headerAccepted, headerSize, hinfo, hlen, hlen', decide_true, Bool.true_and]
  · have hlen' : ¬ first.length > imageHeadersSize + appDescSize := hlen
    simp [headerAccepted, hlen, hlen']

/-- **The outcome of an upload depends on how it is split** only where it would pass whole, and only by
whether the first piece is longer than the headers: two ways to split a body have the same outcome
exactly when there is no partition to write, or the body's header is not acceptable, or both first
pieces are longer than the headers or neither is. -/
theorem split_outcome_iff (idf : Idf) (hidf : idf.Succeeds) (ps qs : List (List UInt8)) (hps : ∀ p ∈ ps, p ≠ [])
    (hqs : ∀ q ∈ qs, q ≠ []) (hbody : ps.flatten = qs.flatten) :
    pieceOutcome idf ps = pieceOutcome idf qs ↔
      idf.nextUpdatePartition = none ∨ headerAccepted idf ps.flatten = false ∨
        ((ps.headD []).length > headerSize ↔ (qs.headD []).length > headerSize) := by
  cases ps with
  | nil =>
    cases qs with
    | nil => simp
    | cons q qs =>
      rw [List.forall_mem_cons] at hqs
      exact absurd (List.append_eq_nil_iff.mp hbody.symm).1 hqs.1
  | cons p ps =>
    cases qs with
    | nil =>
      rw [List.forall_mem_cons] at hps
      exact absurd (List.append_eq_nil_iff.mp hbody).1 hps.1
    | cons q qs =>
      rw [pieceOutcome_cons hidf hps, pieceOutcome_cons hidf hqs, headerAccepted_append idf p ps.flatten,
        headerAccepted_append idf q qs.flatten, ← List.flatten_cons, ← List.flatten_cons, ← hbody]
      cases hpartition : idf.nextUpdatePartition with
      | none => simp
      | some partition =>
        cases haccepted : headerAccepted idf (p :: ps).flatten with
        | false => simp
        | true =>
          by_cases hp : p.length > headerSize <;> by_cases hq : q.length > headerSize <;> simp [hp, hq]

/-- The least image, whole and by its first hundred bytes and the rest. -/
theorem split_outcome_iff_least :
    pieceOutcome allOk [leastImage 50] = pieceOutcome allOk [(leastImage 50).take 100, (leastImage 50).drop 100] ↔
      allOk.nextUpdatePartition = none ∨ headerAccepted allOk [leastImage 50].flatten = false ∨
        (([leastImage 50].headD []).length > headerSize ↔
          ([(leastImage 50).take 100, (leastImage 50).drop 100].headD []).length > headerSize) :=
  split_outcome_iff allOk ⟨rfl, rfl, rfl, rfl⟩ _ _ (by decide +kernel) (by decide +kernel) (by decide +kernel)

/-- Whole it is written and booted, split after a hundred bytes it is turned away. -/
theorem split_turns_away :
    pieceOutcome allOk [leastImage 50] = ⟨true, leastImage 50⟩ ∧
      pieceOutcome allOk [(leastImage 50).take 100, (leastImage 50).drop 100] = ⟨false, []⟩ := by
  decide +kernel

end GateNode.Ota
