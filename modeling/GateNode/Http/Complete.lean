/-
What an upload is reported as. `file_upload_handler` counts the bytes it
receives and logs the length the request announced, but compares neither with
the other: nothing received is taken for the end of the body, and is also
what a connection the peer has closed looks like.
-/
import GateNode.Http.Upload

namespace GateNode.Http

/-- What `httpd_req_recv` may answer while `remaining` bytes of the body are to come: no more than
they are, or an error; nothing where nothing remains, or the peer has closed. -/
def RecvOk : Nat → List RecvResult → Prop
  | _, [] => True
  | remaining, .error _ :: _ => 0 < remaining
  | _, .ok [] :: _ => True
  | remaining, .ok (b :: bs) :: rest =>
    (b :: bs).length ≤ remaining ∧ RecvOk (remaining - (b :: bs).length) rest

/-- The peer closes with bytes of the body still to come. -/
def ClosedEarly : Nat → List RecvResult → Prop
  | _, [] => False
  | _, .error _ :: _ => False
  | remaining, .ok [] :: _ => 0 < remaining
  | remaining, .ok (b :: bs) :: rest => ClosedEarly (remaining - (b :: bs).length) rest

/-- The buffers received, up to the answer that ends the loop. -/
def received : List RecvResult → List (List UInt8)
  | .ok (b :: bs) :: rest => (b :: bs) :: received rest
  | _ => []

/-- The event that says whether a body of `contentLen` bytes arrived whole. -/
def outcome (contentLen : Nat) (chunks : List (List UInt8)) : HttpServerEvent (List UInt8) :=
  if chunks.flatten.length = contentLen then .fileTransferComplete else .fileTransferFailed

/-- Each buffer takes a byte at least, so the loop ends within one answer more than there are bytes. -/
theorem uploadLoop_returns {remaining : Nat} {recvs : List RecvResult} (h : RecvOk remaining recvs)
    (hlen : remaining < recvs.length) : (uploadLoop recvs).2.isSome = true := by
  induction recvs generalizing remaining with
  | nil => exact absurd hlen (Nat.not_lt_zero _)
  | cons r rest ih =>
    rcases r with e | _ | ⟨b, bs⟩
    · rfl
    · rfl
    · obtain ⟨hle, hrest⟩ := h
      have hlt : remaining - (b :: bs).length < rest.length := by
        simp only [List.length_cons] at hle hlen ⊢
        omega
      exact ih hrest hlt

theorem uploadLoop_outcome {remaining : Nat} {recvs : List RecvResult} (h : RecvOk remaining recvs)
    (hret : (uploadLoop recvs).2.isSome = true) :
    (uploadLoop recvs).1 = (received recvs).map .fileChunkArrived ++ [outcome remaining (received recvs)] ↔
      ¬ ClosedEarly remaining recvs := by
  induction recvs generalizing remaining with
  | nil => cases hret
  | cons r rest ih =>
    rcases r with e | _ | ⟨b, bs⟩
    · have hne : 0 ≠ remaining := Nat.ne_of_lt h
      simp [uploadLoop, received, outcome, ClosedEarly, hne]
    · simp only [uploadLoop, received, List.map_nil, List.nil_append, outcome, ClosedEarly, List.flatten_nil,
        List.length_nil, Nat.not_lt, Nat.le_zero]
      by_cases h0 : 0 = remaining
      · simp [← h0]
      · simp [h0, Ne.symm h0]
    · obtain ⟨hle, hrest⟩ := h
      have hsum : outcome remaining ((b :: bs) :: received rest) =
          outcome (remaining - (b :: bs).length) (received rest) := by
        have : ((b :: bs) :: received rest).flatten.length = remaining ↔
            (received rest).flatten.length = remaining - (b :: bs).length := by
          rw [List.flatten_cons, List.length_append]
          omega
        simp only [outcome, this]
      have hchunk : (uploadLoop (.ok (b :: bs) :: rest)).1 = .fileChunkArrived (b :: bs) :: (uploadLoop rest).1 := rfl
      rw [hchunk, received, hsum, List.map_cons, List.cons_append, List.cons.injEq, ClosedEarly]
      simp only [true_and]
      exact ih hrest hret

/-- **An upload is reported as what it was exactly when the peer does not close early**: it posts that
it started, each buffer in order, and one event more, which is the completion just when the whole
body arrived. With answers enough the handler returns. -/
theorem upload_reported_iff (contentLen : Nat) (recvs : List RecvResult) (h : RecvOk contentLen recvs) :
    (contentLen < recvs.length → (fileUploadHandler recvs).2.isSome = true) ∧
      ((fileUploadHandler recvs).2.isSome = true →
        ((fileUploadHandler recvs).1 = .fileTransferStarted :: (received recvs).map .fileChunkArrived ++
            [outcome contentLen (received recvs)] ↔
          ¬ ClosedEarly contentLen recvs)) := by
  refine ⟨uploadLoop_returns h, fun hret => ?_⟩
  rw [← uploadLoop_outcome h hret, List.cons_append]
  exact List.cons_inj_right _

/-- A body of five bytes in three pieces. -/
theorem upload_reported_pieces :
    (fileUploadHandler [.ok [0xE9, 1], .ok [2], .ok [3, 4], .ok []]).1 =
      [.fileTransferStarted, .fileChunkArrived [0xE9, 1], .fileChunkArrived [2], .fileChunkArrived [3, 4],
        .fileTransferComplete] :=
  ((upload_reported_iff 5 [.ok [0xE9, 1], .ok [2], .ok [3, 4], .ok []]
    ⟨by decide, by decide, by decide, trivial⟩).2 rfl).mpr (by simp [ClosedEarly])

/-- One byte of two arrives and the peer closes: the handler reports a whole upload. -/
theorem half_upload_complete :
    RecvOk 2 [.ok [0xE9], .ok []] ∧
      (fileUploadHandler [.ok [0xE9], .ok []]).1 =
        [.fileTransferStarted, .fileChunkArrived [0xE9], .fileTransferComplete] ∧
      (received [.ok [0xE9], .ok []]).flatten.length ≠ 2 :=
  ⟨⟨by decide, trivial⟩, rfl, by decide⟩

end GateNode.Http
