import DenonAvr.Infrastructure.Text
import DenonAvr.Library.Prefixes
import DenonAvr.Library.Utf8

/-!
# The HTTP responses of the receiver

`post_xml` reads a response piece by piece and asks `expected_response_length` after each, which finds the end of the
headers, how the body is framed, and for a chunked body the end of its last chunk.

Whatever it says of a prefix it says of all that has the prefix (`expectedResponseLength_append`). So the response does
not depend on the pieces it came in (`readResponse_congr`).
-/

namespace DenonAvr.Infrastructure

open Domain Library

inductive IoErrorKind
  | invalidData
  | unexpectedEof
deriving DecidableEq

structure HttpError where
  kind : IoErrorKind
  message : String
deriving DecidableEq

structure RawHttpResponse where
  statusLine : List Char
  statusCode : ℕ
  body : List Char
deriving DecidableEq

def maxResponseBytes : ℕ := 1024 * 1024

/-- `usize::MAX`. -/
def usizeMax : ℕ := 2 ^ 64 - 1

def invalidData {α : Type} (message : String) : Except HttpError α := .error ⟨.invalidData, message⟩

def crlf : List UInt8 := [13, 10]

/-! ### Chunked bodies -/

/-- The size in the line, before any extension. -/
def chunkSize (line : List UInt8) : Except HttpError ℕ :=
  match Utf8.decode line with
  | none => invalidData "chunk size is not ASCII"
  | some text =>
    match parseUnsigned 16 usizeMax (trim (text.takeWhile (· ≠ ';'))) with
    | none => invalidData "chunk size is invalid"
    | some size => .ok size

/-- The loop of `decode_chunked_body`, where `rest` is `encoded[cursor..]`. -/
def decodeChunks (decoded : List UInt8) (cursor : ℕ) (rest : List UInt8) : Except HttpError (Option (List UInt8 × ℕ)) :=
  match find crlf rest with
  | none => .ok none
  | some lineLength =>
    match chunkSize (rest.take lineLength) with
    | .error error => .error error
    | .ok size =>
      let afterLine := rest.drop (lineLength + 2)
      if size = 0 then
        if afterLine.take 2 = crlf then .ok (some (decoded, cursor + (lineLength + 2) + 2))
        else
          match find (crlf ++ crlf) afterLine with
          | none => .ok none
          | some trailerLength => .ok (some (decoded, cursor + (lineLength + 2) + trailerLength + 4))
      -- the end of the data, or of the CRLF behind it
      else if usizeMax < cursor + (lineLength + 2) + (size + 2) then invalidData "chunk size overflows"
      else if afterLine.length < size + 2 then .ok none
      else if (afterLine.drop size).take 2 ≠ crlf then invalidData "chunk data has no CRLF terminator"
      else if maxResponseBytes < decoded.length + size then invalidData "decoded HTTP body exceeds bounded size"
      else decodeChunks (decoded ++ afterLine.take size) (cursor + (lineLength + 2) + (size + 2)) (afterLine.drop (size + 2))
termination_by rest.length
decreasing_by
  have hafter : afterLine.length = rest.length - (lineLength + 2) := List.length_drop
  simp only [List.length_drop]
  omega

/-- The body and the length of its encoding, once it is complete. -/
def decodeChunkedBody (encoded : List UInt8) : Except HttpError (Option (List UInt8 × ℕ)) := decodeChunks [] 0 encoded

/-! ### Headers -/

inductive BodyFraming
  | contentLength (length : ℕ)
  | chunked
  | closeDelimited
deriving DecidableEq

/-- The headers that say how the body is framed. -/
structure FramingHeaders where
  contentLength : Option ℕ := none
  transferEncoding : Option (List Char) := none

def eqIgnoreCase (text : List Char) (name : String) : Bool := toAsciiLowercase text == name.toList

/-- One line of the headers. -/
def FramingHeaders.read (headers : FramingHeaders) (line : List Char) : Except HttpError FramingHeaders :=
  match splitOnce [':'] line with
  | none => .ok headers
  | some (name, value) => do
    if eqIgnoreCase name "transfer-encoding" && headers.transferEncoding.isSome then
      invalidData "HTTP response contains duplicate Transfer-Encoding headers"
    let headers := if eqIgnoreCase name "transfer-encoding" then { headers with transferEncoding := some (trim value) } else headers
    if eqIgnoreCase name "content-length" then
      match parseUnsigned 10 usizeMax (trim value) with
      | none => invalidData "Content-Length is invalid"
      | some length =>
        if headers.contentLength.isSome then invalidData "HTTP response contains duplicate Content-Length headers"
        else pure { headers with contentLength := some length }
    else pure headers

def bodyFraming (headers : List Char) : Except HttpError BodyFraming := do
  let framing ← ((textLines headers).drop 1).foldlM FramingHeaders.read {}
  match framing.transferEncoding, framing.contentLength with
  | some value, contentLength =>
    if !eqIgnoreCase value "chunked" then invalidData "HTTP response uses an unsupported Transfer-Encoding"
    else if contentLength.isSome then invalidData "HTTP response has conflicting body framing"
    else pure .chunked
  | none, some length => pure (.contentLength length)
  | none, none => pure .closeDelimited

def findHeaderEnd (bytes : List UInt8) : Option ℕ := find (crlf ++ crlf) bytes

def headerText (bytes : List UInt8) (headerEnd : ℕ) : Except HttpError (List Char) :=
  match Utf8.decode (bytes.take headerEnd) with
  | none => invalidData "HTTP headers are not UTF-8"
  | some headers => .ok headers

/-! ### Responses -/

/-- The status code of a status line. -/
def statusOf (statusLine : List Char) : Except HttpError ℕ :=
  if statusLine.isEmpty then invalidData "HTTP status is empty"
  else
    let protocol := (splitWhitespace statusLine).head?.getD []
    if protocol ≠ "HTTP/1.0".toList ∧ protocol ≠ "HTTP/1.1".toList then
      invalidData "HTTP status line has an invalid protocol"
    else
      match ((splitWhitespace statusLine)[1]?).bind (parseUnsigned 10 65535) with
      | none => invalidData "HTTP status is invalid"
      | some code => if 100 ≤ code ∧ code ≤ 599 then .ok code else invalidData "HTTP status code is out of range"

def bodyOf (framing : BodyFraming) (encodedBody : List UInt8) : Except HttpError (List UInt8) :=
  match framing with
  | .contentLength length =>
    if encodedBody.length ≠ length then .error ⟨.unexpectedEof, "HTTP body length does not match Content-Length"⟩
    else .ok encodedBody
  | .chunked => do
    match ← decodeChunkedBody encodedBody with
    | some (body, _) => pure body
    | none => .error ⟨.unexpectedEof, "chunked HTTP body is incomplete"⟩
  | .closeDelimited => .ok encodedBody

def parseHttpResponse (bytes : List UInt8) : Except HttpError RawHttpResponse :=
  match findHeaderEnd bytes with
  | none => invalidData "HTTP response has no header separator"
  | some headerEnd => do
    let headers ← headerText bytes headerEnd
    let statusLine := (textLines headers).head?.getD []
    let statusCode ← statusOf statusLine
    let body ← bodyOf (← bodyFraming headers) (bytes.drop (headerEnd + 4))
    match Utf8.decode body with
    | none => invalidData "HTTP body is not UTF-8"
    | some body => pure ⟨statusLine, statusCode, body⟩

/-- The length of the response that the bytes begin, if they say. -/
def expectedResponseLength (bytes : List UInt8) : Except HttpError (Option ℕ) :=
  match findHeaderEnd bytes with
  | none => .ok none
  | some headerEnd => do
    let headers ← headerText bytes headerEnd
    let bodyStart := headerEnd + 4
    match ← bodyFraming headers with
    | .contentLength length =>
      if usizeMax < bodyStart + length then invalidData "HTTP body length overflows" else pure (some (bodyStart + length))
    | .chunked =>
      match ← decodeChunkedBody (bytes.drop bodyStart) with
      | none => pure none
      | some (_, encodedLength) =>
        if usizeMax < bodyStart + encodedLength then invalidData "chunked HTTP body length overflows"
        else pure (some (bodyStart + encodedLength))
    | .closeDelimited => pure none

/-- The loop of `post_xml`: one read after another, until the response is complete or the connection is closed, which a
read of nothing shows. -/
def readResponse (bytes : List UInt8) : List (List UInt8) → Except HttpError RawHttpResponse
  | [] => parseHttpResponse bytes
  | chunk :: chunks =>
    if chunk.isEmpty then parseHttpResponse bytes
    else if maxResponseBytes < bytes.length + chunk.length then invalidData "HTTP response exceeds bounded size"
    else
      match expectedResponseLength (bytes ++ chunk) with
      | .error error => .error error
      | .ok none => readResponse (bytes ++ chunk) chunks
      | .ok (some expectedLength) =>
        if maxResponseBytes < expectedLength then invalidData "HTTP response exceeds bounded size"
        else if expectedLength ≤ (bytes ++ chunk).length then parseHttpResponse ((bytes ++ chunk).take expectedLength)
        else readResponse (bytes ++ chunk) chunks

/-! ### What more input does not change -/

section Chunks
variable {decoded encoded rest more : List UInt8} {cursor headerEnd : ℕ} {bytes : List UInt8}

/-- What is found is found in the longer input, and what is before it is the same. -/
theorem find_append_drop {pattern : List UInt8} {i : ℕ} (h : find pattern rest = some i) (more : List UInt8) :
    find pattern (rest ++ more) = some i ∧ (rest ++ more).take i = rest.take i ∧
      (rest ++ more).drop (i + pattern.length) = rest.drop (i + pattern.length) ++ more := by
  have hle := find_le h
  refine ⟨find_append h more, ?_, ?_⟩
  · exact List.take_append_of_le_length (by omega)
  · exact List.drop_append_of_le_length hle

/-- Behind a line with a size. -/
theorem decodeChunks_of_size {lineLength size : ℕ} (decoded : List UInt8) (cursor : ℕ) (hfind : find crlf rest = some lineLength)
    (hsize : chunkSize (rest.take lineLength) = .ok size) :
    decodeChunks decoded cursor rest =
      if size = 0 then
        if (rest.drop (lineLength + 2)).take 2 = crlf then .ok (some (decoded, cursor + (lineLength + 2) + 2))
        else
          match find (crlf ++ crlf) (rest.drop (lineLength + 2)) with
          | none => .ok none
          | some trailerLength => .ok (some (decoded, cursor + (lineLength + 2) + trailerLength + 4))
      else if usizeMax < cursor + (lineLength + 2) + (size + 2) then invalidData "chunk size overflows"
      else if (rest.drop (lineLength + 2)).length < size + 2 then .ok none
      else if ((rest.drop (lineLength + 2)).drop size).take 2 ≠ crlf then invalidData "chunk data has no CRLF terminator"
      else if maxResponseBytes < decoded.length + size then invalidData "decoded HTTP body exceeds bounded size"
      else decodeChunks (decoded ++ (rest.drop (lineLength + 2)).take size) (cursor + (lineLength + 2) + (size + 2))
        ((rest.drop (lineLength + 2)).drop (size + 2)) := by
  rw [decodeChunks, hfind]
  simp only [hsize]

theorem length_le_of_take_two {bytes : List UInt8} (h : bytes.take 2 = crlf) : 2 ≤ bytes.length := by
  have hlength : min 2 bytes.length = 2 := List.length_take ▸ congrArg List.length h
  omega

/-- **More input** changes nothing once the body is complete or wrong. -/
theorem decodeChunks_append (decoded : List UInt8) (cursor : ℕ) (rest more : List UInt8)
    (h : decodeChunks decoded cursor rest ≠ .ok none) :
    decodeChunks decoded cursor (rest ++ more) = decodeChunks decoded cursor rest := by
  induction hn : rest.length using Nat.strong_induction_on generalizing decoded cursor rest with
  | _ n ih =>
    subst hn
    cases hfind : find crlf rest with
    | none =>
      rw [decodeChunks, hfind] at h
      exact absurd rfl h
    | some lineLength =>
      obtain ⟨hfind', htake, hdrop⟩ := find_append_drop hfind more
      cases hsize : chunkSize (rest.take lineLength) with
      | error error =>
        rw [decodeChunks, hfind', decodeChunks, hfind]
        simp only [htake, hsize]
      | ok size =>
        have hdrop' : (rest ++ more).drop (lineLength + 2) = rest.drop (lineLength + 2) ++ more := hdrop
        rw [decodeChunks_of_size decoded cursor hfind hsize] at h ⊢
        rw [decodeChunks_of_size decoded cursor hfind' (htake ▸ hsize), hdrop']
        have hshorter : (rest.drop (lineLength + 2)).length + 2 ≤ rest.length := by
          have hle : lineLength + 2 ≤ rest.length := find_le hfind
          rw [List.length_drop]
          omega
        generalize rest.drop (lineLength + 2) = afterLine at h hshorter ⊢
        by_cases hzero : size = 0
        · rw [if_pos hzero] at h ⊢
          rw [if_pos hzero]
          by_cases hend : afterLine.take 2 = crlf
          · rw [List.take_append_of_le_length (length_le_of_take_two hend), if_pos hend, if_pos hend]
          · rw [if_neg hend] at h ⊢
            cases htrailer : find (crlf ++ crlf) afterLine with
            | none =>
              rw [htrailer] at h
              exact absurd rfl h
            | some trailerLength =>
              have hle : trailerLength + 4 ≤ afterLine.length := find_le htrailer
              rw [List.take_append_of_le_length (by omega), if_neg hend, find_append htrailer]
        · rw [if_neg hzero] at h ⊢
          rw [if_neg hzero]
          by_cases hoverflow : usizeMax < cursor + (lineLength + 2) + (size + 2)
          · rw [if_pos hoverflow, if_pos hoverflow]
          · rw [if_neg hoverflow] at h ⊢
            rw [if_neg hoverflow]
            by_cases hshort : afterLine.length < size + 2
            · rw [if_pos hshort] at h
              exact absurd rfl h
            · have hlonger : ¬ (afterLine ++ more).length < size + 2 := by
                rw [List.length_append]
                omega
              have hdata : 2 ≤ (afterLine.drop size).length := by
                rw [List.length_drop]
                omega
              rw [if_neg hshort] at h ⊢
              rw [if_neg hlonger, List.drop_append_of_le_length (by omega : size ≤ afterLine.length),
                List.drop_append_of_le_length (by omega : size + 2 ≤ afterLine.length),
                List.take_append_of_le_length hdata, List.take_append_of_le_length (by omega : size ≤ afterLine.length)]
              split_ifs at h ⊢
              · rfl
              · rfl
              · refine ih _ ?_ _ _ _ h rfl
                rw [List.length_drop]
                omega

/-- The end of a body is within the input. -/
theorem length_of_decodeChunks (decoded : List UInt8) (cursor : ℕ) (rest : List UInt8) {body : List UInt8} {length : ℕ}
    (h : decodeChunks decoded cursor rest = .ok (some (body, length))) : length ≤ cursor + rest.length := by
  fun_induction decodeChunks decoded cursor rest with
  | case3 decoded cursor rest lineLength hfind afterLine hend hsize =>
    have hle : lineLength + 2 ≤ rest.length := find_le hfind
    have hafter : afterLine.length = rest.length - (lineLength + 2) := List.length_drop
    have htwo := length_le_of_take_two hend
    cases h
    omega
  | case5 decoded cursor rest lineLength hfind afterLine hend trailerLength htrailer hsize =>
    have hle : lineLength + 2 ≤ rest.length := find_le hfind
    have hafter : afterLine.length = rest.length - (lineLength + 2) := List.length_drop
    have htwo : trailerLength + 4 ≤ afterLine.length := find_le htrailer
    cases h
    omega
  | case10 decoded cursor rest lineLength hfind size hsize afterLine hzero hoverflow hshort hcrlf hlarge ih =>
    have hle : lineLength + 2 ≤ rest.length := find_le hfind
    have hafter : afterLine.length = rest.length - (lineLength + 2) := List.length_drop
    have hrest := ih h
    rw [List.length_drop] at hrest
    omega
  | _ => cases h

theorem decodeChunkedBody_append (encoded more : List UInt8) (h : decodeChunkedBody encoded ≠ .ok none) :
    decodeChunkedBody (encoded ++ more) = decodeChunkedBody encoded :=
  decodeChunks_append [] 0 encoded more h

end Chunks

section Response
variable {bytes more : List UInt8} {headerEnd expectedLength : ℕ} {chunks chunks' : List (List UInt8)}

theorem headerText_append (h : findHeaderEnd bytes = some headerEnd) (more : List UInt8) :
    findHeaderEnd (bytes ++ more) = some headerEnd ∧ headerText (bytes ++ more) headerEnd = headerText bytes headerEnd ∧
      (bytes ++ more).drop (headerEnd + 4) = bytes.drop (headerEnd + 4) ++ more := by
  obtain ⟨hfind, htake, hdrop⟩ := find_append_drop h more
  refine ⟨hfind, ?_, hdrop⟩
  unfold headerText
  rw [htake]

/-- **What is expected** of a prefix is expected of all that begins with it. -/
theorem expectedResponseLength_append (more : List UInt8) (h : expectedResponseLength bytes ≠ .ok none) :
    expectedResponseLength (bytes ++ more) = expectedResponseLength bytes := by
  unfold expectedResponseLength at h ⊢
  cases hend : findHeaderEnd bytes with
  | none =>
    rw [hend] at h
    exact absurd rfl h
  | some headerEnd =>
    obtain ⟨hend', htext, hdrop⟩ := headerText_append hend more
    rw [hend] at h
    rw [hend']
    dsimp only at h ⊢
    rw [htext]
    cases hheaders : headerText bytes headerEnd with
    | error error => rfl
    | ok headers =>
      rw [hheaders] at h
      simp only [bind, Except.bind] at h ⊢
      cases hframing : bodyFraming headers with
      | error error => rfl
      | ok framing =>
        rw [hframing] at h
        cases framing with
        | contentLength length => rfl
        | closeDelimited => rfl
        | chunked =>
          dsimp only at h ⊢
          rw [hdrop]
          by_cases hnone : decodeChunkedBody (bytes.drop (headerEnd + 4)) = .ok none
          · rw [hnone] at h
            exact absurd rfl h
          · rw [decodeChunkedBody_append _ more hnone]

/-- What the loop answers after a read, if it ends there. -/
def responseAnswer (bytes : List UInt8) : Option (Except HttpError RawHttpResponse) :=
  match expectedResponseLength bytes with
  | .error error => some (.error error)
  | .ok none => none
  | .ok (some expectedLength) =>
    if maxResponseBytes < expectedLength then some (invalidData "HTTP response exceeds bounded size")
    else if expectedLength ≤ bytes.length then some (parseHttpResponse (bytes.take expectedLength))
    else none

theorem responseAnswer_persistent : Persistent responseAnswer := by
  intro bytes b h more
  have hsame : expectedResponseLength (bytes ++ more) = expectedResponseLength bytes := by
    refine expectedResponseLength_append more fun hnone => ?_
    unfold responseAnswer at h
    rw [hnone] at h
    cases h
  unfold responseAnswer at h ⊢
  rw [hsame]
  cases hexpected : expectedResponseLength bytes with
  | error error =>
    rw [hexpected] at h
    exact h
  | ok expected =>
    rw [hexpected] at h
    cases expected with
    | none => cases h
    | some expectedLength =>
      dsimp only at h ⊢
      split_ifs at h with hlarge hcomplete
      · rw [if_pos hlarge]
        exact h
      · have hlonger : expectedLength ≤ (bytes ++ more).length := by
          rw [List.length_append]
          omega
        rw [if_neg hlarge, if_pos hlonger, List.take_append_of_le_length hcomplete]
        exact h

/-- The pieces in which a response arrives: something each time, and what a buffer of `post_xml` holds at most. -/
def ReadPieces (chunks : List (List UInt8)) : Prop := ∀ chunk ∈ chunks, chunk ≠ [] ∧ chunk.length ≤ 8192

theorem readResponse_eq_readUntil (hreads : ReadPieces chunks) (hsize : (bytes ++ chunks.flatten).length ≤ maxResponseBytes) :
    readResponse bytes chunks = readUntil responseAnswer parseHttpResponse bytes chunks := by
  induction chunks generalizing bytes with
  | nil => rfl
  | cons chunk chunks ih =>
    have hchunk : chunk.isEmpty = false := by
      simpa using (hreads chunk List.mem_cons_self).1
    rw [List.flatten_cons, ← List.append_assoc] at hsize
    have hfits : ¬ maxResponseBytes < bytes.length + chunk.length := by
      rw [List.length_append, List.length_append] at hsize
      omega
    have hrest := ih (fun c hc => hreads c (List.mem_cons_of_mem _ hc)) hsize
    unfold readResponse readUntil responseAnswer
    rw [hchunk, if_neg hfits]
    simp only [Bool.false_eq_true, if_false]
    cases expectedResponseLength (bytes ++ chunk) with
    | error error => rfl
    | ok expected =>
      cases expected with
      | none => exact hrest
      | some expectedLength =>
        dsimp only
        split_ifs
        · rfl
        · rfl
        · exact hrest

/-- **A response does not depend on how it was cut** into reads. -/
theorem readResponse_congr (hreads : ReadPieces chunks) (hreads' : ReadPieces chunks') (hsame : chunks.flatten = chunks'.flatten)
    (hsize : chunks.flatten.length ≤ maxResponseBytes) : readResponse [] chunks = readResponse [] chunks' := by
  rw [readResponse_eq_readUntil hreads hsize, readResponse_eq_readUntil hreads' (hsame ▸ hsize)]
  exact readUntil_eq_of_flatten_eq responseAnswer_persistent (fun chunk h => (hreads chunk h).1)
    (fun chunk h => (hreads' chunk h).1) hsame

/-- A response of two bytes, cut within its headers and before its body. -/
def okResponse : List UInt8 := Utf8.encode "HTTP/1.1 200 OK\r\nContent-Length: 2\r\n\r\nok".toList

theorem readResponse_congr_okResponse :
    readResponse [] [okResponse.take 36, okResponse.drop 36] = readResponse [] [okResponse] :=
  readResponse_congr (by unfold ReadPieces; decide +kernel) (by unfold ReadPieces; decide +kernel) (by decide +kernel)
    (by decide +kernel)

example : readResponse [] [okResponse.take 36, okResponse.drop 36] = .ok ⟨"HTTP/1.1 200 OK".toList, 200, "ok".toList⟩ := by
  decide +kernel

end Response

end DenonAvr.Infrastructure
