import ConnectRpc.Head

/-!
# Error responses

The renderings of an error as a whole response: the JSON body of Connect unary, the
END_STREAM envelope of Connect streaming, and the trailers-only response of gRPC and
gRPC-Web, which the unary fast path and the streaming path build alike.

An error that came back from a client call carries the headers of another
connection's response, and each rendering echoes them. `render_safeHead_iff` says
exactly when this does no harm to the head: the deny-list leaves out one
connection-scoped header, and keeps back `grpc-status` and `grpc-message` only where
the rendering itself sets them.
-/

namespace ConnectRpc

open Lib

variable (cr : Crates)

/-! ## Bodies -/

/-- The frames of a body that is given at once (`Full`). -/
def fullFrames (b : Bytes) : List Frame :=
  if b = [] then [] else [.data b]

/-- How the trailers of a gRPC unary response are delivered. -/
inductive GrpcUnaryTrailers : Type where
  /-- an HTTP/2 trailers frame -/
  | http2 : HeaderMap → GrpcUnaryTrailers
  /-- a data frame with the text block -/
  | webBody : Bytes → GrpcUnaryTrailers

/-- The frame the trailers are sent in. -/
def GrpcUnaryTrailers.frame : GrpcUnaryTrailers → Frame
  | http2 m => .trailers m
  | webBody b => .data b

/-- The body of a gRPC unary response. -/
structure GrpcUnaryBody where
  /-- the envelope, or only its header -/
  data : Option Bytes
  /-- the segments of a large payload -/
  payload : List Bytes
  /-- the trailers -/
  trailers : Option GrpcUnaryTrailers

namespace GrpcUnaryBody

/-- `GrpcUnaryBody::poll_frame`. -/
def pollFrame (me : GrpcUnaryBody) : Option Frame × GrpcUnaryBody :=
  match me.data with
  | some data => (some (.data data), { me with data := none })
  | none =>
    match me.payload with
    | segment :: rest => (some (.data segment), { me with payload := rest })
    | [] =>
      match me.trailers with
      | some trailers => (some trailers.frame, { me with trailers := none })
      | none => (none, me)

/-- The frames of the body. -/
def frames (me : GrpcUnaryBody) : List Frame :=
  me.data.toList.map .data ++ me.payload.map .data ++ me.trailers.toList.map GrpcUnaryTrailers.frame

/-- Polling takes the frames one by one. -/
theorem pollFrame_frames (me : GrpcUnaryBody) :
    me.pollFrame.1 = me.frames.head? ∧ me.pollFrame.2.frames = me.frames.tail := by
  obtain ⟨data, payload, trailers⟩ := me
  rcases data with _ | data
  · rcases payload with _ | ⟨segment, rest⟩
    · rcases trailers with _ | trailers
      · exact ⟨rfl, rfl⟩
      · exact ⟨rfl, rfl⟩
    · exact ⟨rfl, rfl⟩
  · exact ⟨rfl, rfl⟩

end GrpcUnaryBody

/-- `Response::map`. -/
def Response.mapBody {β γ : Type} (r : Response β) (f : β → γ) : Response γ :=
  ⟨r.status, r.headers, f r.body⟩

/-! ## The builders -/

/-- The value of `content-type` on a response. -/
def contentTypeValue (protocol : Protocol) (codec : CodecFormat) (isStreaming : Bool) :
    HeaderValue :=
  .static (protocol.responseContentType codec isStreaming) (by
    cases protocol <;> cases codec <;> cases isStreaming <;> rfl)

/-- `application/json` -/
def content_type.JSON : HeaderValue :=
  .static "application/json" (by decide)

/-- `error_response`. -/
def errorResponse (err : ConnectError) : Response Bytes :=
  let response := (ResponseBuilder.withStatus err.httpStatus).header cr.headerCap .contentType
    content_type.JSON
  let response := echoErrorHeaders cr response err
  let response := addTrailers cr response err.trailers
  (response.body (err.toJson cr)).getD ⟨.internalServerError, .empty, []⟩

/-- `connect_streaming_error_response`. -/
def connectStreamingErrorResponse (err : ConnectError) (codec : CodecFormat) :
    Response (List Frame) :=
  let endStream := EndStreamResponse.forError err err.trailers
  let response := (ResponseBuilder.withStatus .ok).header cr.headerCap .contentType
    (contentTypeValue .connect codec true)
  let response := echoErrorHeaders cr response err
  (response.body [StreamFinalizer.endStreamFrame cr endStream]).getD (.new [])

/-- The head of a trailers-only response. On gRPC proper the status is also among
the headers. -/
def trailersOnlyHead (err : ConnectError) (protocol : Protocol) (codec : CodecFormat) :
    ResponseBuilder :=
  let response := (ResponseBuilder.withStatus .ok).header cr.headerCap .contentType
    (contentTypeValue protocol codec true)
  let response :=
    if protocol = .grpc then
      let response := response.header cr.headerCap hdr.grpcStatus (.ofNat err.code.grpcCode)
      match messageValue cr err with
      | some val => response.header cr.headerCap hdr.grpcMessage val
      | none => response
    else response
  echoErrorHeaders cr response err

/-- The trailers of a gRPC response in the form of its protocol. -/
def grpcTrailersOf (protocol : Protocol) (h : protocol ≠ .connect) (trailers : HeaderMap) :
    GrpcUnaryTrailers :=
  match protocol, h with
  | .grpc, _ => .http2 trailers
  | .grpcWeb, _ => .webBody (encodeGrpcWebTrailers trailers)
  | .connect, h => absurd rfl h

/-- `grpc_error_response`, of the streaming path. -/
def grpcErrorResponse (err : ConnectError) (protocol : Protocol) (h : protocol ≠ .connect)
    (codec : CodecFormat) : Response (List Frame) :=
  let grpcTrailers := grpcTrailerBlock cr (some err) err.trailers
  let response := trailersOnlyHead cr err protocol codec
  (response.body [(grpcTrailersOf protocol h grpcTrailers).frame]).getD (.new [])

/-- `grpc_unary_error`, of the unary fast path. -/
def grpcUnaryError (err : ConnectError) (protocol : Protocol) (h : protocol ≠ .connect)
    (codec : CodecFormat) : Response GrpcUnaryBody :=
  let grpcTrailers := grpcTrailerBlock cr (some err) err.trailers
  let response := trailersOnlyHead cr err protocol codec
  (response.body ⟨none, [], some (grpcTrailersOf protocol h grpcTrailers)⟩).getD
    (.new ⟨none, [], none⟩)

/-- `streaming_error_response`. -/
def streamingErrorResponse (err : ConnectError) (protocol : Protocol) (codec : CodecFormat) :
    Response (List Frame) :=
  if h : protocol = .connect then connectStreamingErrorResponse cr err codec
  else grpcErrorResponse cr err protocol h codec

/-- Which builder renders an error. -/
inductive Rendering : Type where
  /-- Connect unary -/
  | connectUnary
  /-- the streaming path of a protocol -/
  | streaming (protocol : Protocol) (codec : CodecFormat)
  /-- the unary fast path of gRPC and gRPC-Web -/
  | grpcUnary (protocol : Protocol) (h : protocol ≠ .connect) (codec : CodecFormat)

namespace Rendering

/-- The response to an error, where there is one: over gRPC and gRPC-Web the block of its trailers is
built at the same time, and `buildGrpcTrailers` panics where they leave no room for the status. -/
def render (err : ConnectError) : Rendering → Response (List Frame)
  | connectUnary => (errorResponse cr err).mapBody fullFrames
  | streaming protocol codec => streamingErrorResponse cr err protocol codec
  | grpcUnary protocol h codec => (grpcUnaryError cr err protocol h codec).mapBody GrpcUnaryBody.frames

/-- The `content-type` of the rendering's own protocol and codec. A Connect unary
error is JSON whatever the codec of the call. -/
def contentType : Rendering → HeaderValue
  | connectUnary => content_type.JSON
  | streaming protocol codec => contentTypeValue protocol codec true
  | grpcUnary protocol _ codec => contentTypeValue protocol codec true

/-- Whether the rendering puts the status of the error in the head. -/
def setsStatus : Rendering → Bool
  | connectUnary => false
  | streaming protocol _ => protocol = .grpc
  | grpcUnary protocol _ _ => protocol = .grpc

/-- The `grpc-status` in the head that is derived from the error's code. -/
def derivedStatus (r : Rendering) (err : ConnectError) : List HeaderValue :=
  if r.setsStatus then [.ofNat err.code.grpcCode] else []

/-- The `grpc-message` in the head that is derived from the error's message. -/
def derivedMessage (r : Rendering) (err : ConnectError) : List HeaderValue :=
  if r.setsStatus then (messageValue cr err).toList else []

/-! ## The head as a list of headers -/

/-- The headers a rendering sets itself. -/
def ownEntries (r : Rendering) (err : ConnectError) : List (HeaderName × HeaderValue) :=
  (.contentType, r.contentType) ::
    ((r.derivedStatus err).map (hdr.grpcStatus, ·) ++
      (r.derivedMessage cr err).map (hdr.grpcMessage, ·))

/-- The trailers a rendering puts in the head: those of a Connect unary error. -/
def headTrailers (err : ConnectError) : Rendering → Option (List (HeaderName × HeaderValue))
  | connectUnary => prefixedTrailers err.trailers
  | streaming _ _ => some []
  | grpcUnary _ _ _ => some []

/-- All headers of the response, in the order they are added. -/
def headEntries (r : Rendering) (err : ConnectError) :
    Option (List (HeaderName × HeaderValue)) :=
  (r.headTrailers err).map fun ts =>
    r.ownEntries cr err ++ echoed ((r.ownEntries cr err).map Prod.fst) err ++ ts

/-- The head can be built: its trailers have names that are not too long, and all
headers fit the map. -/
def HeadFits (r : Rendering) (err : ConnectError) : Prop :=
  ∃ es, r.headEntries cr err = some es ∧ Room cr.headerCap es

theorem headerCap_pos : 0 < cr.headerCap :=
  Nat.lt_of_lt_of_le (by omega) cr.headerCap_large

/-- A trailers-only head is its own headers and what is echoed. -/
theorem trailersOnlyHead_eq (err : ConnectError) (protocol : Protocol) (codec : CodecFormat) :
    trailersOnlyHead cr err protocol codec =
      (ResponseBuilder.withStatus .ok).headers cr.headerCap
        ((streaming protocol codec).ownEntries cr err ++
          echoed (((streaming protocol codec).ownEntries cr err).map Prod.fst) err) := by
  have hown : (if protocol = .grpc then
      match messageValue cr err with
      | some val => (((ResponseBuilder.withStatus .ok).header cr.headerCap .contentType
          (contentTypeValue protocol codec true)).header cr.headerCap hdr.grpcStatus
            (.ofNat err.code.grpcCode)).header cr.headerCap hdr.grpcMessage val
      | none => ((ResponseBuilder.withStatus .ok).header cr.headerCap .contentType
          (contentTypeValue protocol codec true)).header cr.headerCap hdr.grpcStatus
            (.ofNat err.code.grpcCode)
      else (ResponseBuilder.withStatus .ok).header cr.headerCap .contentType
        (contentTypeValue protocol codec true)) =
      (ResponseBuilder.withStatus .ok).headers cr.headerCap
        ((streaming protocol codec).ownEntries cr err) := by
    by_cases hp : protocol = .grpc
    · rcases hm : messageValue cr err with _ | val
      · simp [ownEntries, derivedStatus, derivedMessage, setsStatus, contentType, hp, hm]
      · simp [ownEntries, derivedStatus, derivedMessage, setsStatus, contentType, hp, hm]
    · simp [ownEntries, derivedStatus, derivedMessage, setsStatus, contentType, hp]
  rw [← echoErrorHeaders_withStatus, ← hown]
  rfl

/-- The status of the response. -/
def status (err : ConnectError) : Rendering → StatusCode
  | connectUnary => err.httpStatus
  | streaming _ _ => .ok
  | grpcUnary _ _ _ => .ok

/-- The body of the response: the JSON of the error, or the last frame of a stream
that fails at once. -/
def bodyFrames (err : ConnectError) : Rendering → List Frame
  | connectUnary => fullFrames (err.toJson cr)
  | streaming protocol _ => [protocol.finalizer.error cr err err.trailers]
  | grpcUnary protocol _ _ => [protocol.finalizer.error cr err err.trailers]

/-- What is sent if the head cannot be built. -/
def fallback : Rendering → Response (List Frame)
  | connectUnary => ⟨.internalServerError, .empty, []⟩
  | streaming _ _ => .new []
  | grpcUnary _ _ _ => .new []

theorem frame_grpcTrailersOf (err : ConnectError) (protocol : Protocol)
    (h : protocol ≠ .connect) :
    (grpcTrailersOf protocol h (grpcTrailerBlock cr (some err) err.trailers)).frame =
      protocol.finalizer.error cr err err.trailers := by
  cases protocol with
  | connect => exact absurd rfl h
  | grpc => rfl
  | grpcWeb => rfl

/-- The builder of the head, in one form for all renderings. -/
def head (r : Rendering) (err : ConnectError) : ResponseBuilder :=
  (r.headEntries cr err).bind fun es =>
    (ResponseBuilder.withStatus (r.status err)).headers cr.headerCap es

theorem head_streaming (err : ConnectError) (protocol : Protocol) (codec : CodecFormat) :
    (streaming protocol codec).head cr err =
      (ResponseBuilder.withStatus .ok).headers cr.headerCap
        ((streaming protocol codec).ownEntries cr err ++
          echoed (((streaming protocol codec).ownEntries cr err).map Prod.fst) err) := by
  rw [head, headEntries, headTrailers, Option.map_some, Option.bind_some, List.append_nil]
  rfl

theorem head_connectUnary (err : ConnectError) :
    addTrailers cr (echoErrorHeaders cr ((ResponseBuilder.withStatus err.httpStatus).header
      cr.headerCap .contentType content_type.JSON) err) err.trailers =
        connectUnary.head cr err := by
  have hecho := echoErrorHeaders_withStatus cr err.httpStatus (connectUnary.ownEntries cr err) err
  have hown : (ResponseBuilder.withStatus err.httpStatus).headers cr.headerCap
      (connectUnary.ownEntries cr err) =
      (ResponseBuilder.withStatus err.httpStatus).header cr.headerCap .contentType
        content_type.JSON := rfl
  rw [hown] at hecho
  rw [hecho, addTrailers_eq, head, headEntries, headTrailers]
  rcases prefixedTrailers err.trailers with _ | ts
  · rfl
  · simp only [Option.bind_some, Option.map_some, ResponseBuilder.headers_append]
    rfl

/-- Every rendering is a head and a body, with a fallback if there is no head. -/
theorem render_eq (r : Rendering) (err : ConnectError) :
    r.render cr err = (ResponseBuilder.body (r.head cr err) (r.bodyFrames cr err)).getD r.fallback := by
  cases r with
  | connectUnary =>
    rw [render, errorResponse, head_connectUnary]
    rcases connectUnary.head cr err with _ | p
    · rfl
    · rfl
  | streaming protocol codec =>
    by_cases hp : protocol = .connect
    · subst hp
      rw [render, streamingErrorResponse, dif_pos rfl, connectStreamingErrorResponse, head_streaming,
        ← echoErrorHeaders_withStatus]
      rfl
    · rw [render, streamingErrorResponse, dif_neg hp, grpcErrorResponse, trailersOnlyHead_eq,
        head_streaming, frame_grpcTrailersOf]
      rfl
  | grpcUnary protocol hp codec =>
    have hhead : (grpcUnary protocol hp codec).head cr err =
        (streaming protocol codec).head cr err := rfl
    have hbody : GrpcUnaryBody.frames ⟨none, [], some (grpcTrailersOf protocol hp
        (grpcTrailerBlock cr (some err) err.trailers))⟩ =
        (grpcUnary protocol hp codec).bodyFrames cr err := by
      rw [bodyFrames, ← frame_grpcTrailersOf cr err protocol hp]
      rfl
    rw [hhead, render, grpcUnaryError, trailersOnlyHead_eq, head_streaming, ← hbody]
    rcases (ResponseBuilder.withStatus .ok).headers cr.headerCap _ with _ | p
    · rfl
    · rfl

/-- What is rendered if the head can be built. -/
theorem render_of_room {r : Rendering} {err : ConnectError}
    {es : List (HeaderName × HeaderValue)} (hes : r.headEntries cr err = some es)
    (hroom : Room cr.headerCap es) :
    r.render cr err =
      ⟨r.status err, HeaderMap.empty.appendAll es, r.bodyFrames cr err⟩ := by
  rw [render_eq, head, hes, Option.bind_some,
    ResponseBuilder.headers_withStatus (headerCap_pos cr), if_pos hroom]
  rfl

/-- What is rendered if it cannot. -/
theorem render_of_not_fits {r : Rendering} {err : ConnectError} (h : ¬ r.HeadFits cr err) :
    r.render cr err = r.fallback := by
  have hhead : r.head cr err = none := by
    rw [head]
    rcases hes : r.headEntries cr err with _ | es
    · rfl
    · rw [Option.bind_some, ResponseBuilder.headers_withStatus (headerCap_pos cr),
        if_neg fun hroom => h ⟨es, hes, hroom⟩]
  rw [render_eq, hhead]
  rfl

/-! ## The values of one name -/

/-- The names a rendering sets itself. -/
theorem mem_ownEntries {r : Rendering} {err : ConnectError} {n : HeaderName} :
    n ∈ (r.ownEntries cr err).map Prod.fst ↔
      n = .contentType ∨ (r.setsStatus = true ∧ n = hdr.grpcStatus) ∨
        (r.setsStatus = true ∧ (messageValue cr err).isSome = true ∧ n = hdr.grpcMessage) := by
  rw [ownEntries, derivedStatus, derivedMessage]
  rcases r.setsStatus with _ | _
  · simp
  · rcases messageValue cr err with _ | v
    · simp
    · simp

/-- The values of a name other than a prefixed one: the rendering's own, and the
error's if they are echoed. -/
theorem getAll_headEntries {r : Rendering} {err : ConnectError}
    {es : List (HeaderName × HeaderValue)} (hes : r.headEntries cr err = some es)
    {n : HeaderName} (hn : isPrefixed n = false) :
    (HeaderMap.empty.appendAll es).getAll n =
      HeaderMap.getAll ⟨r.ownEntries cr err⟩ n ++
        if isUnforwardableHeader n = true ∨ n ∈ (r.ownEntries cr err).map Prod.fst then []
        else err.responseHeaders.getAll n := by
  obtain ⟨ts, hts, rfl⟩ := Option.map_eq_some_iff.mp hes
  have hnone : HeaderMap.getAll ⟨ts⟩ n = [] := by
    cases r with
    | connectUnary => exact getAll_prefixedTrailers hts hn
    | streaming _ _ => cases hts; rfl
    | grpcUnary _ _ _ => cases hts; rfl
  rw [HeaderMap.getAll_appendAll, HeaderMap.getAll_empty, List.nil_append,
    HeaderMap.getAll_append_entries, HeaderMap.getAll_append_entries, getAll_echoed, hnone,
    List.append_nil]

/-- A name that is held back or that the rendering sets has the rendering's own
values. -/
theorem getAll_of_own {r : Rendering} {err : ConnectError}
    {es : List (HeaderName × HeaderValue)} (hes : r.headEntries cr err = some es)
    {n : HeaderName} (hn : isPrefixed n = false)
    (h : isUnforwardableHeader n = true ∨ n ∈ (r.ownEntries cr err).map Prod.fst) :
    (HeaderMap.empty.appendAll es).getAll n = HeaderMap.getAll ⟨r.ownEntries cr err⟩ n := by
  rw [getAll_headEntries cr hes hn, if_pos h, List.append_nil]

/-- Any other name has the error's values. -/
theorem getAll_of_echoed {r : Rendering} {err : ConnectError}
    {es : List (HeaderName × HeaderValue)} (hes : r.headEntries cr err = some es)
    {n : HeaderName} (hn : isPrefixed n = false) (hun : isUnforwardableHeader n = false)
    (hown : n ∉ (r.ownEntries cr err).map Prod.fst) :
    (HeaderMap.empty.appendAll es).getAll n = err.responseHeaders.getAll n := by
  have hno : ¬ (isUnforwardableHeader n = true ∨ n ∈ (r.ownEntries cr err).map Prod.fst) := by
    rintro (h | h)
    · rw [hun] at h
      cases h
    · exact hown h
  rw [getAll_headEntries cr hes hn, if_neg hno, HeaderMap.getAll_eq_nil_iff.mpr hown, List.nil_append]

theorem getAll_own (r : Rendering) (err : ConnectError) (n : HeaderName) :
    HeaderMap.getAll ⟨r.ownEntries cr err⟩ n =
      (if n = .contentType then [r.contentType] else []) ++
        (if n = hdr.grpcStatus then r.derivedStatus err else []) ++
        if n = hdr.grpcMessage then r.derivedMessage cr err else [] := by
  have hmap : ∀ (k : HeaderName) (l : List HeaderValue),
      HeaderMap.getAll ⟨l.map (k, ·)⟩ n = if n = k then l else [] := by
    intro k l
    rw [HeaderMap.getAll, List.filter_map, List.map_map]
    by_cases h : n = k
    · subst h
      simp [Function.comp_def]
    · simp [Function.comp_def, h, Ne.symm h]
  rw [ownEntries, HeaderMap.getAll_cons, HeaderMap.getAll_append_entries, hmap, hmap]
  by_cases h : n = .contentType
  · subst h
    simp
  · simp [h, Ne.symm h]

end Rendering

/-! ## A safe head -/

/-- `proxy-connection` -/
def HeaderName.proxyConnection : HeaderName := ⟨"proxy-connection", by decide⟩

/-- The headers that belong to one connection. -/
def hopByHop : List HeaderName :=
  [.connection, .keepAlive, .proxyConnection, .proxyAuthenticate, .proxyAuthorization, .te,
    .trailer, .transferEncoding, .upgrade]

/-- The headers that describe the bytes of one body. -/
def bodyFraming : List HeaderName :=
  [.contentLength, .contentEncoding, hdr.grpcEncoding, hdr.connectContentEncoding]

/-- A head that the headers of the error have not corrupted. -/
structure SafeHead (r : Rendering) (err : ConnectError) (head : HeaderMap) : Prop where
  /-- one `content-type`, the rendering's own -/
  contentType : head.getAll .contentType = [r.contentType]
  /-- no header of another connection or of another body -/
  notForwarded : ∀ n ∈ hopByHop ++ bodyFraming, head.getAll n = []
  /-- no status but the one derived from the code -/
  status : head.getAll hdr.grpcStatus = r.derivedStatus err
  /-- no message but the one derived from the message -/
  message : head.getAll hdr.grpcMessage = r.derivedMessage cr err
  /-- the details are never in a head -/
  details : head.getAll hdr.grpcStatusDetailsBin = []

/-- The headers of an error that a rendering can take. -/
structure Forwardable (r : Rendering) (err : ConnectError) : Prop where
  /-- all of it can be put in a head -/
  fits : r.HeadFits cr err
  /-- no `proxy-connection` -/
  proxyConnection : err.responseHeaders.getAll .proxyConnection = []
  /-- no `grpc-status` where the rendering sets none -/
  status : r.setsStatus = false → err.responseHeaders.getAll hdr.grpcStatus = []
  /-- no `grpc-message` where the rendering sets none -/
  message : (r.setsStatus && err.message.isSome) = false →
    err.responseHeaders.getAll hdr.grpcMessage = []

/-- A `grpc-message` is derived exactly from a message. -/
theorem messageValue_isSome (err : ConnectError) :
    (messageValue cr err).isSome = err.message.isSome := by
  rcases hm : err.message with _ | m
  · rw [messageValue, hm]
    rfl
  · obtain ⟨v, hv, -⟩ := messageValue_eq cr hm
    rw [hv]
    rfl

namespace Rendering

/-- Of the headers a response must not take over, only `proxy-connection` is not on
the deny-list. -/
theorem unforwardable_of_mem {n : HeaderName} (h : n ∈ hopByHop ++ bodyFraming)
    (hne : n ≠ .proxyConnection) : isUnforwardableHeader n = true := by
  have hall : (hopByHop ++ bodyFraming).all
      (fun n => n == .proxyConnection || isUnforwardableHeader n) = true := by decide
  have hn := List.all_eq_true.mp hall n h
  rw [Bool.or_eq_true, beq_iff_eq] at hn
  exact hn.resolve_left hne

/-- None of them is a name a rendering sets, nor a prefixed one. -/
theorem not_own_of_mem {n : HeaderName} (h : n ∈ hopByHop ++ bodyFraming) :
    n ≠ .contentType ∧ n ≠ hdr.grpcStatus ∧ n ≠ hdr.grpcMessage ∧ isPrefixed n = false := by
  have hall : (hopByHop ++ bodyFraming).all (fun n => n != .contentType && n != hdr.grpcStatus &&
      n != hdr.grpcMessage && !isPrefixed n) = true := by decide
  have hn := List.all_eq_true.mp hall n h
  simp only [Bool.and_eq_true, bne_iff_ne, Bool.not_eq_true'] at hn
  exact ⟨hn.1.1.1, hn.1.1.2, hn.1.2, hn.2⟩

/-- So none of them is in the head. -/
theorem getAll_of_mem {r : Rendering} {err : ConnectError} {es : List (HeaderName × HeaderValue)}
    (hes : r.headEntries cr err = some es) {n : HeaderName} (hn : n ∈ hopByHop ++ bodyFraming)
    (hne : n ≠ .proxyConnection) : (HeaderMap.empty.appendAll es).getAll n = [] := by
  obtain ⟨h1, h2, h3, h4⟩ := not_own_of_mem hn
  rw [getAll_of_own cr hes h4 (.inl (unforwardable_of_mem hn hne)), getAll_own, if_neg h1,
    if_neg h2, if_neg h3]
  rfl

/-- An error is not rendered with the framing of another body. -/
theorem getAll_bodyFraming (r : Rendering) (err : ConnectError) {n : HeaderName}
    (h : n ∈ bodyFraming) : (r.render cr err).headers.getAll n = [] := by
  by_cases hfits : r.HeadFits cr err
  · obtain ⟨es, hes, hroom⟩ := hfits
    rw [render_of_room cr hes hroom]
    have hne : n ≠ .proxyConnection := by
      rintro rfl
      exact absurd h (by decide)
    exact getAll_of_mem cr hes (List.mem_append_right _ h) hne
  · rw [render_of_not_fits cr hfits]
    cases r <;> rfl

theorem getAll_proxyConnection {r : Rendering} {err : ConnectError}
    {es : List (HeaderName × HeaderValue)} (hes : r.headEntries cr err = some es) :
    (HeaderMap.empty.appendAll es).getAll .proxyConnection =
      err.responseHeaders.getAll .proxyConnection := by
  refine getAll_of_echoed cr hes (by decide) (by decide) ?_
  rw [mem_ownEntries]
  rintro (h | ⟨-, h⟩ | ⟨-, -, h⟩)
  · exact absurd h (by decide)
  · exact absurd h (by decide)
  · exact absurd h (by decide)

/-- The status in the head is the derived one unless the error brings one and the
rendering sets none. -/
theorem getAll_status_iff {r : Rendering} {err : ConnectError}
    {es : List (HeaderName × HeaderValue)} (hes : r.headEntries cr err = some es) :
    (HeaderMap.empty.appendAll es).getAll hdr.grpcStatus = r.derivedStatus err ↔
      (r.setsStatus = false → err.responseHeaders.getAll hdr.grpcStatus = []) := by
  rcases hset : r.setsStatus with _ | _
  · have hown : hdr.grpcStatus ∉ (r.ownEntries cr err).map Prod.fst := by
      rw [mem_ownEntries, hset]
      rintro (h | ⟨h, -⟩ | ⟨h, -⟩)
      · exact absurd h (by decide)
      · cases h
      · cases h
    rw [getAll_of_echoed cr hes (by decide) (by decide) hown, derivedStatus, hset]
    exact ⟨fun h _ => h, fun h => h rfl⟩
  · have hown : hdr.grpcStatus ∈ (r.ownEntries cr err).map Prod.fst :=
      (mem_ownEntries cr).mpr (.inr (.inl ⟨hset, rfl⟩))
    rw [getAll_of_own cr hes (by decide) (.inr hown), getAll_own]
    refine ⟨fun _ h => (by cases h), fun _ => ?_⟩
    exact List.append_nil _

/-- The message in the head is the derived one unless the error brings one and the
rendering sets none. -/
theorem getAll_message_iff {r : Rendering} {err : ConnectError}
    {es : List (HeaderName × HeaderValue)} (hes : r.headEntries cr err = some es) :
    (HeaderMap.empty.appendAll es).getAll hdr.grpcMessage = r.derivedMessage cr err ↔
      ((r.setsStatus && err.message.isSome) = false →
        err.responseHeaders.getAll hdr.grpcMessage = []) := by
  have hmem : hdr.grpcMessage ∈ (r.ownEntries cr err).map Prod.fst ↔
      (r.setsStatus && err.message.isSome) = true := by
    rw [mem_ownEntries, messageValue_isSome, Bool.and_eq_true]
    refine ⟨?_, fun h => .inr (.inr ⟨h.1, h.2, rfl⟩)⟩
    rintro (h | ⟨-, h⟩ | ⟨h1, h2, -⟩)
    · exact absurd h (by decide)
    · exact absurd h (by decide)
    · exact ⟨h1, h2⟩
  rcases hset : (r.setsStatus && err.message.isSome) with _ | _
  · have hown : hdr.grpcMessage ∉ (r.ownEntries cr err).map Prod.fst := by
      rw [hmem, hset]
      exact Bool.false_ne_true
    have hnone : r.derivedMessage cr err = [] := by
      rw [derivedMessage]
      rcases hs : r.setsStatus with _ | _
      · rfl
      · have hm := messageValue_isSome cr err
        rw [hs, Bool.true_and] at hset
        rw [hset, Option.isSome_eq_false_iff, Option.isNone_iff_eq_none] at hm
        rw [hm]
        rfl
    rw [getAll_of_echoed cr hes (by decide) (by decide) hown, hnone]
    exact ⟨fun h _ => h, fun h => h rfl⟩
  · rw [getAll_of_own cr hes (by decide) (.inr (hmem.mpr hset)), getAll_own]
    exact ⟨fun _ h => (by cases h), fun _ => rfl⟩

/-- **A propagated error cannot corrupt the head, where it can be forwarded.** For
every error and every rendering, the head has the rendering's own content type and
status only, and no header of another connection or body, if and only if the error's
headers fit, bring no `proxy-connection`, and bring no status or message that the
rendering does not set itself. An error whose trailers leave no room for the status has no head over
gRPC and gRPC-Web. -/
theorem render_safeHead_iff (r : Rendering) (err : ConnectError) :
    SafeHead cr r err (r.render cr err).headers ↔ Forwardable cr r err := by
  by_cases hfits : r.HeadFits cr err
  · obtain ⟨es, hes, hroom⟩ := hfits
    rw [render_of_room cr hes hroom]
    have hct : (HeaderMap.empty.appendAll es).getAll .contentType = [r.contentType] := by
      have hun : isUnforwardableHeader .contentType = true := by decide
      rw [getAll_of_own cr hes (by decide) (.inl hun), getAll_own]
      rfl
    have hdetails : (HeaderMap.empty.appendAll es).getAll hdr.grpcStatusDetailsBin = [] := by
      have hun : isUnforwardableHeader hdr.grpcStatusDetailsBin = true := by decide
      rw [getAll_of_own cr hes (by decide) (.inl hun), getAll_own]
      rfl
    -- the three names that are not on the deny-list
    have hproxy := getAll_proxyConnection cr hes
    have hstatus := getAll_status_iff cr hes
    have hmessage := getAll_message_iff cr hes
    refine ⟨?_, ?_⟩
    · intro h
      refine ⟨⟨es, hes, hroom⟩, ?_, hstatus.mp h.status, hmessage.mp h.message⟩
      rw [← hproxy]
      exact h.notForwarded _ (by decide)
    · intro h
      refine ⟨hct, ?_, hstatus.mpr h.status, hmessage.mpr h.message, hdetails⟩
      intro n hn
      by_cases hp : n = .proxyConnection
      · subst hp
        exact hproxy.trans h.proxyConnection
      · exact getAll_of_mem cr hes hn hp
  · rw [render_of_not_fits cr hfits]
    refine ⟨?_, fun h => absurd h.fits hfits⟩
    intro h
    have hempty : r.fallback.headers = .empty := by
      cases r <;> rfl
    have hct := h.contentType
    rw [hempty, HeaderMap.getAll_empty] at hct
    cases hct

end Rendering

/-- An error from an upstream whose response head had a status of 13, which a
gateway returns under another code. -/
def upstreamError : ConnectError :=
  (ConnectError.unavailable "upstream is down").setResponseHeaders ⟨[(hdr.grpcStatus, .ofNat 13)]⟩

/-- On gRPC-Web the upstream's status gets into the head. -/
theorem upstreamError_unsafe :
    ¬ SafeHead .std (.streaming .grpcWeb .proto) upstreamError
      ((Rendering.streaming .grpcWeb .proto).render .std upstreamError).headers := by
  intro h
  have hstatus := h.status
  revert hstatus
  decide

end ConnectRpc
