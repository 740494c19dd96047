/-
The pages and scripts of the server. `http_server_send_html_resource` and
`http_server_send_js_resource` are one function but for the content type: a
loop that sends the page in pieces of a kilobyte at an unsigned offset, and a
chunk without data that ends the response however the loop is left. Lean
needs the loop to end by itself, so it runs on fuel.
-/
import Mathlib.Data.List.Basic
import GateNode.Lib.CString

namespace GateNode.Http

/-- `ESP_OK`. Any other `esp_err_t` is an error. -/
def espRetOk : Int := 0

def espErrInvalidArg : Int := 0x102

/-- The largest `size_t`, of 32 bits. -/
def sizeMax : Nat := 0xffffffff

/-- `chunk_size`. -/
def chunkSize : UInt32 := 1024

/-- The arguments of `httpd_resp_send_chunk`: where in the page the data starts, `NULL` being `none`. -/
structure RespChunk where
  offset : Option UInt32
  len : UInt32
deriving DecidableEq, Repr

/-- `httpd_resp_send_chunk(req, NULL, 0)`. -/
def RespChunk.terminator : RespChunk := ⟨none, 0⟩

inductive RespCall
  | setType (type : String)
  | setHdr (field value : String)
  | sendChunk (chunk : RespChunk)
deriving DecidableEq, Repr

/-- What the calls return, the chunk calls by their number. -/
structure RespResults where
  setType : Int
  setHdr : Int
  sendChunk : Nat → Int

/-- `MIN(chunk_size, len - offset)`. -/
def thisChunk (len offset : UInt32) : UInt32 :=
  if chunkSize < len - offset then chunkSize else len - offset

/-- The loop from `offset` on, `n` chunks being sent: its chunks, and what the function returns. -/
def chunkLoop (len : UInt32) (results : Nat → Int) : Nat → UInt32 → Nat → Option (List RespChunk × Int)
  | 0, _, _ => none
  | fuel + 1, offset, n =>
    if offset < len then
      let ret := results n
      if ret ≠ espRetOk then
        -- The result of the chunk that ends the response is not looked at here.
        some ([⟨some offset, thisChunk len offset⟩, .terminator], ret)
      else
        (chunkLoop len results fuel (offset + chunkSize) (n + 1)).map fun (chunks, ret) =>
          (⟨some offset, thisChunk len offset⟩ :: chunks, ret)
    else
      some ([.terminator], results n)

/-- The calls a resource function makes, and what it returns. -/
structure Sending where
  calls : List RespCall
  ret : Int
deriving DecidableEq, Repr

def sendResource (type : String) (req : Bool) (pageData : Option (List UInt8)) (len : UInt32)
    (results : RespResults) (fuel : Nat) : Option Sending :=
  if req = false ∨ pageData = none then
    some ⟨[], espErrInvalidArg⟩
  else if results.setType ≠ espRetOk then
    some ⟨[.setType type], results.setType⟩
  else if results.setHdr ≠ espRetOk then
    some ⟨[.setType type, .setHdr "Cache-Control" "no-cache"], results.setHdr⟩
  else
    (chunkLoop len results.sendChunk fuel 0 0).map fun (chunks, ret) =>
      ⟨.setType type :: .setHdr "Cache-Control" "no-cache" :: chunks.map .sendChunk, ret⟩

def httpServerSendHtmlResource := sendResource "text/html; charset=utf-8"

def httpServerSendJsResource := sendResource "application/javascript"

/-! ## What is sent -/

def RespCall.chunk : RespCall → Option RespChunk
  | .sendChunk chunk => some chunk
  | _ => none

def Sending.chunks (s : Sending) : List RespChunk := s.calls.filterMap RespCall.chunk

/-- The bytes of the page a chunk carries. -/
def RespChunk.bytes (page : List UInt8) (c : RespChunk) : List UInt8 :=
  match c.offset with
  | some offset => (page.drop offset.toNat).take c.len.toNat
  | none => []

/-- The chunk carries data, all of it in the page. -/
def RespChunk.DataOf (page : List UInt8) (c : RespChunk) : Prop :=
  0 < c.len ∧ c.len ≤ chunkSize ∧ ∃ offset ∈ c.offset, offset.toNat + c.len.toNat ≤ page.length

/-- The data chunks sent and the value returned, of the page from `from` on, `n` chunks being sent before. -/
structure ServedFrom (page : List UInt8) (results : Nat → Int) (start n : Nat) (data : List RespChunk) (ret : Int) :
    Prop where
  inside : ∀ c ∈ data, c.DataOf page
  prefix_page : data.flatMap (RespChunk.bytes page) <+: page.drop start
  stops : ∀ i < data.length, results (n + i) ≠ espRetOk → i + 1 = data.length
  whole : ret = espRetOk → data.flatMap (RespChunk.bytes page) = page.drop start

variable {page : List UInt8} {results : Nat → Int}

theorem toNat_ofNat_length (h : page.length ≤ sizeMax - chunkSize.toNat) :
    (UInt32.ofNat page.length).toNat = page.length := by
  have hmax : sizeMax - chunkSize.toNat = 4294966271 := by decide
  rw [UInt32.toNat_ofNat', Nat.mod_eq_of_lt]
  omega

theorem thisChunk_toNat {offset len : UInt32} (h : offset < len) :
    (thisChunk len offset).toNat = min 1024 (len.toNat - offset.toNat) := by
  have hle : offset.toNat ≤ len.toNat := Nat.le_of_lt (UInt32.lt_iff_toNat_lt.mp h)
  have hsub : (len - offset).toNat = len.toNat - offset.toNat :=
    UInt32.toNat_sub_of_le _ _ (UInt32.le_iff_toNat_le.mpr hle)
  have hsize : chunkSize.toNat = 1024 := rfl
  unfold thisChunk
  split
  · next hlt =>
    rw [UInt32.lt_iff_toNat_lt, hsub, hsize] at hlt
    omega
  · next hlt =>
    rw [UInt32.lt_iff_toNat_lt, hsub, hsize] at hlt
    omega

variable {len offset : UInt32} {n : Nat} {data : List RespChunk} {ret : Int}

/-- The kilobyte at an offset, or what is left. -/
theorem bytes_thisChunk (h : offset < len) (hlen : len.toNat = page.length) :
    RespChunk.bytes page ⟨some offset, thisChunk len offset⟩ = (page.drop offset.toNat).take 1024 := by
  show (page.drop offset.toNat).take _ = _
  rw [thisChunk_toNat h, hlen, ← List.length_drop, List.take_eq_take_iff]
  omega

theorem dataOf_thisChunk (h : offset < len) (hlen : len.toNat = page.length) :
    RespChunk.DataOf page ⟨some offset, thisChunk len offset⟩ := by
  have hlt := UInt32.lt_iff_toNat_lt.mp h
  have hchunk := thisChunk_toNat h
  refine ⟨?_, ?_, offset, rfl, ?_⟩
  · show 0 < thisChunk len offset
    rw [UInt32.lt_iff_toNat_lt, hchunk]
    show 0 < _
    omega
  · show thisChunk len offset ≤ chunkSize
    rw [UInt32.le_iff_toNat_le, hchunk]
    show _ ≤ 1024
    omega
  · show offset.toNat + (thisChunk len offset).toNat ≤ page.length
    rw [hchunk]
    omega

/-! ## The loop -/

theorem ServedFrom.done (h : page.length ≤ offset.toNat) :
    ServedFrom page results offset.toNat n [] ret := by
  refine ⟨nofun, List.nil_prefix, nofun, fun _ => ?_⟩
  rw [List.drop_of_length_le h, List.flatMap_nil]

theorem ServedFrom.failed (h : offset < len) (hlen : len.toNat = page.length) (hret : results n ≠ espRetOk) :
    ServedFrom page results offset.toNat n [⟨some offset, thisChunk len offset⟩] (results n) := by
  refine ⟨?_, ?_, ?_, fun hok => absurd hok hret⟩
  · intro c hc
    rw [List.mem_singleton.mp hc]
    exact dataOf_thisChunk h hlen
  · rw [List.flatMap_singleton, bytes_thisChunk h hlen]
    exact List.take_prefix _ _
  · intro i hi _
    rw [List.length_singleton] at hi ⊢
    omega

theorem ServedFrom.sent (h : offset < len) (hlen : len.toNat = page.length) (hret : results n = espRetOk)
    (hs : ServedFrom page results (offset.toNat + 1024) (n + 1) data ret) :
    ServedFrom page results offset.toNat n (⟨some offset, thisChunk len offset⟩ :: data) ret := by
  have hsplit : (page.drop offset.toNat).take 1024 ++ page.drop (offset.toNat + 1024) = page.drop offset.toNat := by
    rw [← List.drop_drop, List.take_append_drop]
  constructor
  · exact List.forall_mem_cons.mpr ⟨dataOf_thisChunk h hlen, hs.inside⟩
  · have hprefix := (List.prefix_append_right_inj ((page.drop offset.toNat).take 1024)).mpr hs.prefix_page
    rw [hsplit] at hprefix
    rwa [List.flatMap_cons, bytes_thisChunk h hlen]
  · intro i hi hne
    cases i with
    | zero => exact absurd hret hne
    | succ i =>
      have hi' : i < data.length := by simpa using hi
      have hlast := hs.stops i hi' (by rwa [Nat.add_right_comm, Nat.add_assoc])
      rw [List.length_cons, hlast]
  · intro hok
    rw [List.flatMap_cons, bytes_thisChunk h hlen, hs.whole hok, hsplit]

/-- From any offset on the loop returns, given fuel for what is left of the page. The offset does not wrap: the
page ends a kilobyte before `size_t` does. -/
theorem chunkLoop_spec (hlen : len.toNat = page.length) (hmax : page.length ≤ sizeMax - chunkSize.toNat)
    (results : Nat → Int) (rest : Nat) (offset : UInt32) (n : Nat) (hrest : page.length ≤ offset.toNat + rest) :
    ∃ data ret, ServedFrom page results offset.toNat n data ret ∧
      ∀ fuel, chunkLoop len results (rest + 1 + fuel) offset n = some (data ++ [.terminator], ret) := by
  induction rest generalizing offset n with
  | zero =>
    have hlt : ¬ offset < len := by
      rw [UInt32.lt_iff_toNat_lt, hlen]
      omega
    refine ⟨[], results n, .done hrest, fun fuel => ?_⟩
    rw [Nat.zero_add, Nat.add_comm, chunkLoop, if_neg hlt, List.nil_append]
  | succ rest ih =>
    by_cases hlt : offset < len
    · by_cases hret : results n = espRetOk
      · have hlt' := UInt32.lt_iff_toNat_lt.mp hlt
        have hnext : (offset + chunkSize).toNat = offset.toNat + 1024 := by
          have hbound : sizeMax - chunkSize.toNat = 4294966271 := by decide
          have hsize : chunkSize.toNat = 1024 := rfl
          rw [UInt32.toNat_add, hsize, Nat.mod_eq_of_lt]
          omega
        obtain ⟨data, ret, hserved, hloop⟩ := ih (offset + chunkSize) (n + 1) (by omega)
        rw [hnext] at hserved
        refine ⟨_, ret, .sent hlt hlen hret hserved, fun fuel => ?_⟩
        have hfuel : rest + 1 + 1 + fuel = rest + 1 + fuel + 1 := by omega
        rw [hfuel, chunkLoop, if_pos hlt]
        simp only [hret, ne_eq, not_true, if_false, hloop, Option.map_some, List.cons_append]
      · refine ⟨_, _, .failed hlt hlen hret, fun fuel => ?_⟩
        have hfuel : rest + 1 + 1 + fuel = rest + 1 + fuel + 1 := by omega
        rw [hfuel, chunkLoop, if_pos hlt]
        exact if_pos hret
    · have hge : page.length ≤ offset.toNat := by
        rw [UInt32.lt_iff_toNat_lt, hlen] at hlt
        omega
      refine ⟨[], results n, .done hge, fun fuel => ?_⟩
      have hfuel : rest + 1 + 1 + fuel = rest + 1 + fuel + 1 := by omega
      rw [hfuel, chunkLoop, if_neg hlt, List.nil_append]

/-! ## The two functions -/

theorem chunks_map_sendChunk (type : String) (chunks : List RespChunk) (ret : Int) :
    Sending.chunks
      ⟨.setType type :: .setHdr "Cache-Control" "no-cache" :: chunks.map .sendChunk, ret⟩ = chunks := by
  show (chunks.map .sendChunk).filterMap RespCall.chunk = chunks
  rw [List.filterMap_map]
  exact List.filterMap_some

/-- Whatever the content type, and whatever fails, the chunks are the same. -/
theorem sendResource_chunks (type type' : String) (req : Bool) (pageData : Option (List UInt8)) (len : UInt32)
    (results : RespResults) (fuel : Nat) :
    (sendResource type req pageData len results fuel).map Sending.chunks =
      (sendResource type' req pageData len results fuel).map Sending.chunks := by
  unfold sendResource
  split
  · rfl
  · split
    · rfl
    · split
      · rfl
      · cases chunkLoop len results.sendChunk fuel 0 0 with
        | none => rfl
        | some sent => simp only [Option.map_some, chunks_map_sendChunk]

/-- A page is sent whole, or up to the first chunk that fails, and the response is ended once. -/
structure PageServed (page : List UInt8) (results : Nat → Int) (s : Sending) (data : List RespChunk) : Prop where
  /-- One chunk without data, behind all others. -/
  chunks : s.chunks = data ++ [.terminator]
  inside : ∀ c ∈ data, c.DataOf page
  prefix_page : data.flatMap (RespChunk.bytes page) <+: page
  /-- A chunk that fails is the last with data. -/
  stops : ∀ i < data.length, results i ≠ espRetOk → i + 1 = data.length
  whole : s.ret = espRetOk → data.flatMap (RespChunk.bytes page) = page

theorem sendResource_served (type : String) (hmax : page.length ≤ sizeMax - chunkSize.toNat) (results : RespResults)
    (htype : results.setType = espRetOk) (hhdr : results.setHdr = espRetOk) :
    ∃ s data fuel, PageServed page results.sendChunk s data ∧
      ∀ more, sendResource type true (some page) (UInt32.ofNat page.length) results (fuel + more) = some s := by
  obtain ⟨data, ret, hserved, hloop⟩ := chunkLoop_spec (toNat_ofNat_length hmax) hmax results.sendChunk page.length
    0 0 (Nat.le_add_left _ _)
  refine ⟨⟨.setType type :: .setHdr "Cache-Control" "no-cache" ::
      (data ++ [RespChunk.terminator]).map .sendChunk, ret⟩, data,
    page.length + 1, ?_, fun more => ?_⟩
  · constructor
    · exact chunks_map_sendChunk type _ ret
    · exact hserved.inside
    · exact hserved.prefix_page
    · intro i hi hne
      exact hserved.stops i hi (by rwa [Nat.zero_add])
    · exact hserved.whole
  · have hnull : ¬ (true = false ∨ some page = none) := by simp
    rw [sendResource, if_neg hnull, if_neg (not_not_intro htype), if_neg (not_not_intro hhdr), hloop more]
    rfl

/-- **Pages are served whole**, by both functions and with the same chunks, whatever the chunk calls return. -/
theorem pages_served_whole (page : List UInt8) (hmax : page.length ≤ sizeMax - chunkSize.toNat)
    (results : RespResults) (htype : results.setType = espRetOk) (hhdr : results.setHdr = espRetOk) :
    (∃ s data fuel, PageServed page results.sendChunk s data ∧
        ∀ more, httpServerSendHtmlResource true (some page) (UInt32.ofNat page.length) results (fuel + more) = some s) ∧
      (∃ s data fuel, PageServed page results.sendChunk s data ∧
        ∀ more, httpServerSendJsResource true (some page) (UInt32.ofNat page.length) results (fuel + more) = some s) ∧
      ∀ req pageData len results fuel,
        (httpServerSendHtmlResource req pageData len results fuel).map Sending.chunks =
          (httpServerSendJsResource req pageData len results fuel).map Sending.chunks :=
  ⟨sendResource_served _ hmax results htype hhdr, sendResource_served _ hmax results htype hhdr,
    sendResource_chunks _ _⟩

/-- A page of a kilobyte and one byte whose second chunk fails. -/
theorem pages_served_whole_failing :
    httpServerSendHtmlResource true (some (List.replicate 1025 65)) 1025 ⟨0, 0, fun n => if n = 1 then -1 else 0⟩ 3 =
        some ⟨[.setType "text/html; charset=utf-8", .setHdr "Cache-Control" "no-cache",
          .sendChunk ⟨some 0, 1024⟩, .sendChunk ⟨some 1024, 1⟩, .sendChunk .terminator], -1⟩ ∧
      ((∃ s data fuel, PageServed (List.replicate 1025 65) (fun n => if n = 1 then -1 else 0) s data ∧
          ∀ more, httpServerSendHtmlResource true (some (List.replicate 1025 65))
            (UInt32.ofNat (List.replicate 1025 (65 : UInt8)).length) ⟨0, 0, fun n => if n = 1 then -1 else 0⟩
            (fuel + more) = some s) ∧
        (∃ s data fuel, PageServed (List.replicate 1025 65) (fun n => if n = 1 then -1 else 0) s data ∧
          ∀ more, httpServerSendJsResource true (some (List.replicate 1025 65))
            (UInt32.ofNat (List.replicate 1025 (65 : UInt8)).length) ⟨0, 0, fun n => if n = 1 then -1 else 0⟩
            (fuel + more) = some s) ∧
        ∀ req pageData len results fuel,
          (httpServerSendHtmlResource req pageData len results fuel).map Sending.chunks =
            (httpServerSendJsResource req pageData len results fuel).map Sending.chunks) := by
  refine ⟨by decide +kernel, pages_served_whole (List.replicate 1025 65) ?_ ⟨0, 0, _⟩ rfl rfl⟩
  rw [List.length_replicate]
  decide

end GateNode.Http
