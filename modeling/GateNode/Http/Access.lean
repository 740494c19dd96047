/-
Who may upload. `file_upload_handler` reads no header, so what it posts is
authorised exactly when the one who uploads happens to be.
-/
import GateNode.Http.Server

namespace GateNode.Http

open CString

/-- The events that make `ota_task` open, write or activate a partition. -/
def HttpServerEvent.IsTransfer {δ : Type} (e : HttpServerEvent δ) : Prop := e ≠ .fileTransferFailed

/-- The header of a request for a page that is for one who is logged in. -/
def Request.header : Request → Option HeaderRequest
  | .auth _ => none
  | .logout h | .checkAuth h | .otaUpload h _ => some h

/-- Transfer events are posted only under a header that would pass `logged_in_checked`. -/
def Request.Guarded (table : SessionTable) (r : Request) : Prop :=
  (∃ e ∈ r.events, e.IsTransfer) → ∃ h ∈ r.header, (loggedInChecked table h).1 = .espOk

/-- The header carries, in bounds, the token of a session that has not expired. -/
def HeaderRequest.Live (table : SessionTable) (h : HeaderRequest) : Prop :=
  ∃ token ∈ (httpdReqGetHdrValueStr h.authorization 128).bind bearerToken,
    strlen token ≠ 0 ∧ ∃ s ∈ table, s.Live token h.ticks

theorem loggedInChecked_slot {s : Session} {h : HeaderRequest} :
    (loggedInChecked [s] h).1 = .espOk ↔ h.Live [s] := by
  rw [loggedInChecked_fst, validateHeader, HeaderRequest.Live]
  cases (httpdReqGetHdrValueStr h.authorization 128).bind bearerToken with
  | none => simp
  | some token =>
    rw [validateToken_slot]
    simp only [Option.mem_def, Option.some.injEq, List.mem_singleton, exists_eq_left, exists_eq_left']

/-- Every upload posts, whatever it receives. -/
theorem started_mem_events (h : HeaderRequest) (recvs : List RecvResult) :
    .fileTransferStarted ∈ (Request.otaUpload h recvs).events := by
  unfold Request.events fileUploadHandler
  exact List.mem_cons_self

theorem guarded_otaUpload {table : SessionTable} {h : HeaderRequest} {recvs : List RecvResult} :
    (Request.otaUpload h recvs).Guarded table ↔ (loggedInChecked table h).1 = .espOk := by
  constructor
  · intro hg
    have hposts : ∃ e ∈ (Request.otaUpload h recvs).events, e.IsTransfer :=
      ⟨_, started_mem_events h recvs, nofun⟩
    obtain ⟨h', hh, hok⟩ := hg hposts
    cases hh
    exact hok
  · intro hok _
    exact ⟨h, rfl, hok⟩

theorem guarded_of_not_upload {table : SessionTable} {r : Request} (hr : ∀ h recvs, r ≠ .otaUpload h recvs) :
    r.Guarded table := by
  rintro ⟨e, he, -⟩
  cases r with
  | otaUpload h recvs => exact absurd rfl (hr h recvs)
  | _ => cases he

/-- **Over every history of requests, transfer events are posted only for who is logged in exactly
when every upload's header carries the token of the live session it meets.** -/
theorem transfer_events_authorized_iff (cjson : CJson) (requests : List Request) :
    (∀ pre r post, requests = pre ++ r :: post → r.Guarded (sessionsAfter cjson pre)) ↔
      ∀ pre h recvs post, requests = pre ++ .otaUpload h recvs :: post → h.Live (sessionsAfter cjson pre) := by
  have hslot (pre : List Request) (h : HeaderRequest) :
      (loggedInChecked (sessionsAfter cjson pre) h).1 = .espOk ↔ h.Live (sessionsAfter cjson pre) := by
    obtain ⟨s, hs⟩ := sessionsAfter_slot cjson pre
    rw [hs]
    exact loggedInChecked_slot
  constructor
  · intro hg pre h recvs post hsplit
    exact (hslot pre h).mp (guarded_otaUpload.mp (hg pre _ post hsplit))
  · intro hl pre r post hsplit
    by_cases hr : ∃ h recvs, r = .otaUpload h recvs
    · obtain ⟨h, recvs, rfl⟩ := hr
      exact guarded_otaUpload.mpr ((hslot pre h).mpr (hl pre h recvs post hsplit))
    · exact guarded_of_not_upload fun h recvs heq => hr ⟨h, recvs, heq⟩

/-- The first request after boot, with no header at all, posts a whole transfer. -/
theorem anonymous_upload_posts :
    (Request.otaUpload ⟨none, 0⟩ [.ok [0xE9], .ok []]).events =
        [.fileTransferStarted, .fileChunkArrived [0xE9], .fileTransferComplete] ∧
      ¬ (Request.otaUpload ⟨none, 0⟩ [.ok [0xE9], .ok []]).Guarded SessionTable.boot := by
  refine ⟨rfl, ?_⟩
  rw [guarded_otaUpload]
  decide

end GateNode.Http
