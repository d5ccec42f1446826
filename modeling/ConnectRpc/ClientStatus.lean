import ConnectRpc.EndStream
import ConnectRpc.GrpcStatus
import ConnectRpc.Protocol
import ConnectRpc.Compression
import ConnectRpc.Trailers

/-!
# Responses as a client reads them

The parts of a response every client parser shares: the response head, the status
in a header map, the trailer frame of gRPC-Web, and the bounded reading of a body.

A header map has the status OK when its first `grpc-status` reads as 0
(`StatusOk`); `parseGrpcErrorFromTrailers_none_iff` says that the parser returns no
error only then, or where there is no status at all.
-/

namespace ConnectRpc

open Lib

variable (cr : Crates)

/-! ## Bodies -/

/-- What reading a response body yields, up to its end. -/
inductive BodyEvent : Type where
  /-- a data frame -/
  | data : Bytes → BodyEvent
  /-- trailers -/
  | trailers : HeaderMap → BodyEvent
  /-- the transport failed, with the text of its error -/
  | failed : String → BodyEvent
  /-- the deadline of the call fired before the next frame -/
  | deadline : BodyEvent
  deriving DecidableEq

/-- The error of `with_deadline`. -/
def deadlineFired : ConnectError :=
  .deadlineExceeded "client-side deadline exceeded"

/-- `classify_body_read_error`; `late` is whether the deadline has passed. -/
def classifyBodyReadError (context error : String) (late : Bool) : ConnectError :=
  if late then .deadlineExceeded s!"{context} after the deadline elapsed: {error}"
  else .internal s!"{context}: {error}"

/-- `collect_body_bounded`, under the deadline of the call. -/
def collectBodyBounded (maxSize : ℕ) (late : Bool) : Bytes → List BodyEvent →
    Except ConnectError Bytes
  | acc, [] => .ok acc
  | acc, .data d :: body =>
    if (acc ++ d).length > maxSize then
      .error (.resourceExhausted s!"response body size exceeds limit {maxSize}")
    else collectBodyBounded maxSize late (acc ++ d) body
  | acc, .trailers _ :: body => collectBodyBounded maxSize late acc body
  | _, .failed e :: _ => .error (classifyBodyReadError "failed to read response body" e late)
  | _, .deadline :: _ => .error deadlineFired

/-- Whether the deadline of the call fires while a body is collected; the size so far is given. -/
def deadlineReached (maxSize : ℕ) : ℕ → List BodyEvent → Bool
  | _, [] => false
  | len, .data d :: body =>
    decide (len + d.length ≤ maxSize) && deadlineReached maxSize (len + d.length) body
  | len, .trailers _ :: body => deadlineReached maxSize len body
  | _, .failed _ :: _ => false
  | _, .deadline :: _ => true

/-- An error of collecting a body, as the caller gets it: a parser attaches what it has of the
response, but where the deadline fires, `with_deadline` drops the parser and its own error is
bare. -/
def attachUnlessDeadline (maxSize : ℕ) (body : List BodyEvent)
    (attach : ConnectError → ConnectError) (e : ConnectError) : ConnectError :=
  if deadlineReached maxSize 0 body then e else attach e

/-- The largest message where no limit is set. -/
def DEFAULT_MAX_MESSAGE_SIZE : ℕ := 4 * 1024 * 1024

/-- `map_response_decompression_error`. -/
def mapResponseDecompressionError (e : ConnectError) : ConnectError :=
  match e.code with
  | .unimplemented => { e with code := .internal }
  | .invalidArgument => { e with code := .dataLoss }
  | _ => e

/-- `http_status_to_error_code`. -/
def httpStatusToErrorCode (status : StatusCode) : ErrorCode :=
  match status.code with
  | 400 => .internal
  | 401 => .unauthenticated
  | 403 => .permissionDenied
  | 404 => .unimplemented
  | 408 => .deadlineExceeded
  | 429 => .unavailable
  | 502 => .unavailable
  | 503 => .unavailable
  | 504 => .unavailable
  | _ => .unknown

/-! ## The status -/

/-- `is_status_trailer`. -/
def isStatusTrailer (name : HeaderName) : Bool :=
  name = hdr.grpcStatus || name = hdr.grpcMessage || name = hdr.grpcStatusDetailsBin

/-- `error_metadata_from_trailers`. -/
def errorMetadataFromTrailers (trailers : HeaderMap) : HeaderMap :=
  HeaderMap.empty.appendAll (trailers.entries.filter fun e => !isStatusTrailer e.1)

/-- A `grpc-status` value as a number. -/
def statusValue (v : HeaderValue) : Option ℕ :=
  v.toStr.bind fun s => parseUnsigned u32Max s.toList

/-- The details in `grpc-status-details-bin`; none where it is not base64. -/
def statusDetails (trailers : HeaderMap) : List ErrorDetail :=
  match (trailers.get hdr.grpcStatusDetailsBin).bind HeaderValue.toStr with
  | none => []
  | some b64 =>
    match (Base64.decodePad b64.toList).or (Base64.decodeNoPad b64.toList) with
    | none => []
    | some b => GrpcStatus.decodeDetails cr b

/-- The text of `grpc-message`, if it is text. -/
def statusMessage (trailers : HeaderMap) : Option String :=
  ((trailers.get hdr.grpcMessage).bind HeaderValue.toStr).map (grpcPercentDecode cr)

/-- `parse_grpc_error_from_trailers`. -/
def parseGrpcErrorFromTrailers (trailers : HeaderMap) : Option ConnectError :=
  match trailers.get hdr.grpcStatus with
  | none => none
  | some raw =>
    match statusValue raw with
    | none => some (.new .unknown
        s!"protocol error: malformed grpc-status: {cr.debugHeaderValue raw}")
    | some 0 => none
    | some status =>
      some ({ ConnectError.new ((ErrorCode.fromGrpcCode status).getD .unknown)
          ((statusMessage cr trailers).getD "") with
        details := statusDetails cr trailers }.setTrailers (errorMetadataFromTrailers trailers))

/-- The status is OK: the first `grpc-status` reads as 0. -/
def StatusOk (m : HeaderMap) : Prop :=
  (m.get hdr.grpcStatus).bind statusValue = some 0

instance (m : HeaderMap) : Decidable (StatusOk m) :=
  inferInstanceAs (Decidable (_ = _))

theorem parseGrpcErrorFromTrailers_none_iff (m : HeaderMap) :
    parseGrpcErrorFromTrailers cr m = none ↔ m.get hdr.grpcStatus = none ∨ StatusOk m := by
  rw [parseGrpcErrorFromTrailers, StatusOk]
  rcases m.get hdr.grpcStatus with _ | raw
  · simp
  · rcases h : statusValue raw with _ | _ | n <;> simp [h]

theorem contains_of_statusOk {m : HeaderMap} (h : StatusOk m) :
    m.contains hdr.grpcStatus = true := by
  rw [HeaderMap.contains_iff]
  intro h0
  rw [StatusOk, HeaderMap.get, h0] at h
  cases h

theorem get_eq_none_iff {m : HeaderMap} {n : HeaderName} :
    m.get n = none ↔ m.contains n = false := by
  rw [HeaderMap.contains_eq_false, HeaderMap.get, List.head?_eq_none_iff]

/-- Where the parser finds no error but there is a status, it is OK. -/
theorem statusOk_of_none {m : HeaderMap} (h : parseGrpcErrorFromTrailers cr m = none)
    (hc : m.contains hdr.grpcStatus = true) : StatusOk m := by
  rcases (parseGrpcErrorFromTrailers_none_iff cr m).mp h with h | h
  · rw [get_eq_none_iff, hc] at h
    cases h
  · exact h

/-! ## The trailer frame of gRPC-Web -/

/-- The largest payload of a gRPC-Web trailer frame a client accepts. -/
def MAX_GRPC_WEB_TRAILER_SIZE : ℕ := 1024 * 1024

/-- One line of the text block; a line that is not a header is skipped. -/
def trailerEntry (line : List Char) : Option (HeaderName × HeaderValue) :=
  let line := trimEnd (fun c => c = '\r') line
  if line = [] then none
  else
    (splitOnce ':' line).bind fun p => do
      let name ← HeaderName.fromStr (String.ofList (trim isWhitespace p.1))
      let value ← HeaderValue.fromStr cr.opaqueOctets (String.ofList (trim isWhitespace p.2))
      some (name, value)

/-- Append entries until the map is full. -/
def appendCapped (headers : HeaderMap) : List (HeaderName × HeaderValue) → HeaderMap
  | [] => headers
  | e :: rest =>
    match headers.tryAppend cr.headerCap e.1 e.2 with
    | none => headers
    | some headers => appendCapped headers rest

/-- The entries of a text block, up to the capacity of a header map. -/
def trailerBlockHeaders (payload : String) : HeaderMap :=
  appendCapped cr .empty ((splitAll '\n' payload.toList).filterMap (trailerEntry cr))

/-- `parse_grpc_web_trailer_payload`. -/
def parseGrpcWebTrailerPayload (isCompressed : Bool) (rawPayload : Bytes)
    (decompression : Option (CompressionRegistry × String)) : Option HeaderMap :=
  if isCompressed then
    match decompression with
    | none => none
    | some (registry, encoding) =>
      match registry.decompressWithLimit encoding rawPayload MAX_GRPC_WEB_TRAILER_SIZE with
      | .error _ => none
      | .ok payload => (fromUtf8 payload).map (trailerBlockHeaders cr)
  else (fromUtf8 rawPayload).map (trailerBlockHeaders cr)

/-! ## The head of a response -/

/-- A media type without its parameters. -/
def mediaType (ct : String) : List Char :=
  trim isWhitespace (((splitOnce ';' ct.toList).map Prod.fst).getD ct.toList)

/-- The error for a content type that does not fit the call. -/
def unexpectedContentType (code : ErrorCode) (ct expected : String) (headers : HeaderMap) :
    ConnectError :=
  (ConnectError.new code s!"unexpected content-type: {ct} (expected {expected})").setResponseHeaders
    headers

/-- A content type as text; one that is not text counts as empty. -/
def contentTypeText (v : HeaderValue) : String :=
  v.toStr.getD ""

/-- `validate_connect_response_content_type`. -/
def validateConnectResponseContentType (headers : HeaderMap) (codec : CodecFormat)
    (isStreaming : Bool) : Except ConnectError Unit :=
  match headers.get .contentType with
  | none => .ok ()
  | some v =>
    let ct := contentTypeText v
    let expected := Protocol.connect.responseContentType codec isStreaming
    if mediaType ct = expected.toList then .ok ()
    else
      let sameFamily :=
        if isStreaming then "application/connect+".toList.isPrefixOf (mediaType ct)
        else mediaType ct = "application/proto".toList || mediaType ct = "application/json".toList
      .error (unexpectedContentType (if sameFamily then .internal else .unknown) ct expected
        headers)

/-- The bare content type of the gRPC family. -/
def grpcBareContentType : Protocol → String
  | .grpcWeb => "application/grpc-web"
  | _ => "application/grpc"

/-- `validate_grpc_response_content_type`. -/
def validateGrpcResponseContentType (headers : HeaderMap) (protocol : Protocol)
    (codec : CodecFormat) : Except ConnectError Unit :=
  match headers.get .contentType with
  | none => .ok ()
  | some v =>
    let ct := contentTypeText v
    let expected := protocol.responseContentType codec false
    let bare := grpcBareContentType protocol
    if protocol = .connect then .ok ()
    else if mediaType ct = expected.toList ∨ mediaType ct = bare.toList then .ok ()
    else
      let sameFamily := (bare ++ "+").toList.isPrefixOf (mediaType ct)
      .error (unexpectedContentType (if sameFamily then .internal else .unknown) ct expected
        headers)

/-- The error for an HTTP status that tells of no gRPC answer. -/
def httpStatusError (status : StatusCode) (headers : HeaderMap) : ConnectError :=
  (ConnectError.new (httpStatusToErrorCode status) s!"HTTP error {status.code}").setResponseHeaders
    headers

/-- `check_grpc_response_head`. -/
def checkGrpcResponseHead (status : StatusCode) (headers : HeaderMap) (protocol : Protocol)
    (codec : CodecFormat) : Except ConnectError Unit :=
  let contentType := validateGrpcResponseContentType headers protocol codec
  let speaksGrpc := contentType.isOk &&
    (headers.contains .contentType || headers.contains hdr.grpcStatus)
  if !status.isSuccess && !speaksGrpc then
    match contentType with
    | .error err =>
      let detail := err.message.getD ""
      .error { err with
        code := httpStatusToErrorCode status
        message := some s!"HTTP error {status.code}: {detail}" }
    | .ok _ => .error (httpStatusError status headers)
  else contentType

end ConnectRpc
