/-
`file_upload_handler` of `http_server.c`. Its loop runs along the answers of
`httpd_req_recv`; where they end before it does, the request is still being
served.
-/
import GateNode.Http.Session

namespace GateNode.Http

/-- The events of `http_server.h`; a chunk's data is `δ`. -/
inductive HttpServerEvent (δ : Type)
  | fileTransferStarted
  | fileChunkArrived (data : δ)
  | fileTransferFailed
  | fileTransferComplete
deriving DecidableEq

/-- `UPLOAD_CHUNK_SIZE`. -/
def uploadChunkSize : Nat := 1024

/-- The loop: the events it posts, and its reply once it is over. -/
def uploadLoop : List RecvResult → List (HttpServerEvent (List UInt8)) × Option Response
  | [] => ([], none)
  | .error _ :: _ => ([.fileTransferFailed], some (.sendErr 500 "Receive error"))
  -- Nothing received is the end of the body, or of the connection.
  | .ok [] :: _ => ([.fileTransferComplete], some (.sendStr none (.text "Upload successful")))
  | .ok (b :: bs) :: rest =>
    let (events, response) := uploadLoop rest
    (.fileChunkArrived (b :: bs) :: events, response)

/-- `file_upload_handler`: no header is read, no session asked for. -/
def fileUploadHandler (recvs : List RecvResult) : List (HttpServerEvent (List UInt8)) × Option Response :=
  let (events, response) := uploadLoop recvs
  (.fileTransferStarted :: events, response)

end GateNode.Http
