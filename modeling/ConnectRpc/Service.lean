import ConnectRpc.Interceptors
import ConnectRpc.RequestMessage

/-!
# The service

How a service answers a request: `handleRequest` chooses by method, content type and route
among the ways of reading the request (whole, as one envelope, or as a stream of messages),
each of which runs the handler through the interceptors and builds the response.

A run is `Traced`: it comes with what could be observed of it, in order. Time is not part of
the model; a `Course` tells how long things take, as far as a deadline may cut them short.
The deadline that a policy may put on the messages of a streaming response is left out.
-/

namespace ConnectRpc

open Lib

/-! ## Requests -/

/-- A request. -/
structure HttpRequest (X : Type) where
  /-- its method -/
  method : Method
  /-- the path of its URI -/
  path : String
  /-- the query of its URI -/
  query : Option String
  /-- its headers -/
  headers : HeaderMap
  /-- its extensions -/
  extensions : X
  /-- its body -/
  body : RequestBody

/-- The body of a streaming response: the frames of an error, or what a stream is batched
into. -/
inductive StreamingResponseBody : Type where
  | frames : List Frame → StreamingResponseBody
  | stream : BatchingEnvelopeStream → StreamingResponseBody

/-- The body of a response. -/
inductive ConnectRpcBody : Type where
  | full : Bytes → ConnectRpcBody
  | grpcUnary : GrpcUnaryBody → ConnectRpcBody
  | streaming : StreamingResponseBody → ConnectRpcBody

/-- A service. -/
structure Service (X : Type) where
  /-- whether it is built with the `json` feature -/
  json : Bool
  /-- its routes -/
  dispatcher : Dispatcher X
  /-- its limits -/
  limits : Limits
  /-- the compression providers -/
  compression : CompressionRegistry
  /-- when it compresses -/
  compressionPolicy : CompressionPolicy
  /-- what it makes of timeouts -/
  deadlinePolicy : DeadlinePolicy
  /-- its interceptors, in registration order -/
  interceptors : List (Interceptor X)
  /-- renders the error of the base64 decoder -/
  base64Error : Bytes → String
  /-- renders the error of a response that cannot be built -/
  httpError : EncodedResponse → String

/-- How long things take. -/
structure Course where
  /-- the time at which the request arrives -/
  now : ℕ
  /-- the last time there is -/
  latest : ℕ
  /-- how often the body may be pending before a deadline passes -/
  receipt : ℕ
  /-- how many steps of the call a deadline leaves time for -/
  call : ℕ
  /-- what happens to the request stream once the call has answered -/
  afterwards : List RequestAction

/-- `absolute_deadline`. -/
def Course.absoluteDeadline (course : Course) (timeout : Option Duration) : Option ℕ :=
  timeout.bind fun t => if course.now + t ≤ course.latest then some (course.now + t) else none

/-! ## Runs -/

/-- A result, with what could be observed before. -/
abbrev Traced (X α : Type) := List (ServiceEvent X) × α

namespace Traced

variable {X α β : Type}

/-- Nothing happens. -/
def pure (a : α) : Traced X α := ([], a)

/-- Go on with the result. -/
def andThen (t : Traced X α) (f : α → Traced X β) : Traced X β :=
  (t.1 ++ (f t.2).1, (f t.2).2)

/-- Change the result. -/
def map (f : α → β) (t : Traced X α) : Traced X β :=
  (t.1, f t.2)

end Traced

variable {X : Type}

/-- `collect_body_limited` under a deadline: the polls of the body, and what they have
got. -/
def collectBodyLimited (limit : ℕ) :
    Option ℕ → List (Poll RequestFrame) → Bytes → Traced X (Except ConnectError Bytes)
  | _, [], got => ([.bodyPolled (.ready none)], .ok got)
  | patience, .pending :: rest, got =>
    match spend patience with
    | none => ([.bodyPolled .pending], .error (.deadlineExceeded "request timeout"))
    | some patience =>
      let r := collectBodyLimited limit patience rest got
      (.bodyPolled .pending :: r.1, r.2)
  | patience, .ready (.data d) :: rest, got =>
    if limit < got.length + d.length then
      ([.bodyPolled (.ready (some (.data d)))],
        .error (.resourceExhausted s!"request body size exceeds limit {limit}"))
    else
      let r := collectBodyLimited limit patience rest (got ++ d)
      (.bodyPolled (.ready (some (.data d))) :: r.1, r.2)
  | patience, .ready .trailers :: rest, got =>
    let r := collectBodyLimited limit patience rest got
    (.bodyPolled (.ready (some .trailers)) :: r.1, r.2)
  | _, .ready (.failed e) :: _, _ =>
    ([.bodyPolled (.ready (some (.failed e)))],
      .error (.internal s!"failed to read request body: {e}"))

/-- Read a whole body within the limits and the deadline. -/
def receive (limits : Limits) (course : Course) (deadline : Option ℕ) (body : RequestBody) :
    Traced X (Except ConnectError Bytes) :=
  collectBodyLimited limits.maxRequestBodySize (deadline.map fun _ => course.receipt) body.polls []

/-- Read a whole body and forget it. -/
def drainBody (limits : Limits) (course : Course) (deadline : Option ℕ) (body : RequestBody) :
    Traced X Unit :=
  (receive limits course deadline body).map fun _ => ()

/-- No request stream. -/
def RequestRun.none : RequestRun := ⟨⟨Option.none, Option.none⟩, false⟩

/-- An action on the request stream, as a call observes it. -/
def requestStep (r : RequestRun) (a : RequestAction) :
    RequestRun × List (ServiceEvent X) × StreamAnswer :=
  ((r.step a).1, (r.step a).2.map .request, (answersIn (r.step a).2).head?)

/-- Run a call, within its deadline if there is one. A call that is cut short lets go of
the request stream. -/
def runCall {Res : Type} (course : Course) (limited : Bool) (requests : RequestRun)
    (flow : CallFlow X Res) : Traced X (Except ConnectError Res) :=
  let r := flow.run requestStep (if limited then some course.call else none) requests
  match r.2.2 with
  | some answer => (r.1 ++ (r.2.1.trace course.afterwards).map .request, answer)
  | none =>
    (r.1 ++ (r.2.1.trace (.drop :: course.afterwards)).map .request,
      .error (.deadlineExceeded "request timeout"))

/-! ## Responses -/

/-- `CompressionRegistry::negotiate_encoding`. -/
def CompressionRegistry.negotiateEncoding (reg : CompressionRegistry)
    (acceptEncoding requestEncoding : Option String) : Option String :=
  match acceptEncoding with
  | some accept =>
    ((splitAll ',' accept.toList).map fun s => String.ofList (trim isWhitespace s)).find?
      fun encoding => encoding ≠ "identity" && reg.supports encoding
  | none => requestEncoding.filter fun encoding => encoding ≠ "identity" && reg.supports encoding

variable (cr : Crates)

/-- `CompressionRegistry::accept_encoding_value`. -/
def CompressionRegistry.acceptEncodingValue (reg : CompressionRegistry) : Option HeaderValue :=
  if reg.providers.isEmpty then none
  else
    HeaderValue.fromStr cr.opaqueOctets
      (", ".intercalate ((reg.providers.map (·.name)).mergeSort fun a b => a ≤ b))

/-- `response_head`. The names of providers are tokens, so that they are header values. -/
def responseHead (contentType : HeaderValue) (encodingHeader : HeaderName)
    (encoding : Option String) (acceptEncodingHeader : HeaderName)
    (compression : CompressionRegistry) : ResponseBuilder :=
  let response := (ResponseBuilder.withStatus .ok).header cr.headerCap .contentType contentType
  let response :=
    match encoding.bind (HeaderValue.fromStr cr.opaqueOctets) with
    | some encoding => response.header cr.headerCap encodingHeader encoding
    | none => response
  match compression.acceptEncodingValue cr with
  | some accept => response.header cr.headerCap acceptEncodingHeader accept
  | none => response

namespace Service

variable (s : Service X)

/-- The body of a unary response, and the encoding it is compressed with. -/
def unaryResponseBody (responseEncoding : Option String) (resp : EncodedResponse) :
    Bytes × Option String :=
  match responseEncoding with
  | some encoding =>
    if (s.compressionPolicy.withOverride resp.compress).shouldCompress resp.body.len then
      match s.compression.compress encoding resp.body.intoContiguous with
      | .ok compressed => (compressed, some encoding)
      | .error _ => (resp.body.intoContiguous, none)
    else (resp.body.intoContiguous, none)
  | none => (resp.body.intoContiguous, none)

/-- The response of a Connect unary call. -/
def unaryResponse (metadata : RequestMetadata) (codec : CodecFormat) (resp : EncodedResponse) :
    Except ConnectError (Response Bytes) :=
  let responseEncoding :=
    s.compression.negotiateEncoding metadata.unaryAcceptEncoding metadata.unaryEncoding
  let (finalBody, contentEncoding) := s.unaryResponseBody responseEncoding resp
  let response := responseHead cr (contentTypeValue .connect codec false) .contentEncoding
    contentEncoding .acceptEncoding s.compression
  let response := response.headers cr.headerCap resp.headers.entries
  let response := addTrailers cr response resp.trailers
  match response.body finalBody with
  | some response => .ok response
  | none => .error (.internal s!"failed to build response: {s.httpError resp}")

/-- The encoding of the enveloped messages of a response. -/
def streamingEncoding (metadata : RequestMetadata) : Option String :=
  s.compression.negotiateEncoding metadata.streamingAcceptEncoding metadata.streamingEncoding

/-- The head of a response with enveloped messages. -/
def envelopedHead (protocol : Protocol) (metadata : RequestMetadata) (codec : CodecFormat)
    (headers : HeaderMap) : ResponseBuilder :=
  (responseHead cr (contentTypeValue protocol codec true) protocol.contentEncodingHeader
    (s.streamingEncoding metadata) protocol.acceptEncodingHeader s.compression).headers
      cr.headerCap headers.entries

/-- The response of a gRPC unary call. There is none where the source panics, as the payload
does not fit the length field. -/
def grpcUnaryResponse (protocol : Protocol) (h : protocol ≠ .connect) (metadata : RequestMetadata)
    (codec : CodecFormat) (resp : EncodedResponse) : Option (Response GrpcUnaryBody) :=
  (grpcUnaryBody cr protocol h s.compression s.compressionPolicy (s.streamingEncoding metadata)
    resp).map fun body =>
      ((s.envelopedHead cr protocol metadata codec resp.headers).body body).getD
        (grpcUnaryError cr (.internal "failed to build response") protocol h codec)

/-- The response of a streaming call; `failed` is the error where it cannot be built. -/
def streamingResponse (failed : String) (protocol : Protocol) (metadata : RequestMetadata)
    (codec : CodecFormat) (resp : HandlerResponse (List SourceEvent)) :
    Response StreamingResponseBody :=
  let streamCompression := (s.streamingEncoding metadata).map (s.compression, ·)
  let effectivePolicy := s.compressionPolicy.withOverride resp.compress
  let body := BatchingEnvelopeStream.new resp.body resp.trailers streamCompression effectivePolicy
    protocol.finalizer
  ((s.envelopedHead cr protocol metadata codec resp.headers).body
    (.stream body)).getD
      ((streamingErrorResponse cr (.internal failed) protocol codec).mapBody .frames)

/-! ## Unary calls of Connect -/

/-- The metadata of a request, with its timeout as the service grants it. -/
def metadataOf (req : HttpRequest X) (protocol : Protocol) : RequestMetadata :=
  let metadata := RequestMetadata.fromHeaders req.headers protocol
  { metadata with timeout := s.deadlinePolicy.moderate metadata.timeout }

end Service

/-- The context of a handler. -/
def HttpRequest.context (req : HttpRequest X) (deadline : Option ℕ) (spec : Option Spec)
    (protocol : Protocol) (path : String) (limits : Limits) : RequestContext X where
  headers := req.headers
  deadline := deadline
  extensions := req.extensions
  spec := spec
  protocol := some protocol
  path := some ("/" ++ path)
  decodeOptions := limits.decodeOptions

namespace ConnectError

/-- `ConnectError::with_http_status`. -/
def withHttpStatus (e : ConnectError) (status : StatusCode) : ConnectError :=
  { e with httpStatusOverride := some status }

/-- `ConnectError::unsupported_media_type`. -/
def unsupportedMediaType (message : String) : ConnectError :=
  (new .unknown message).withHttpStatus ⟨415, by decide⟩

/-- `ConnectError::method_not_allowed`. -/
def methodNotAllowed (message : String) : ConnectError :=
  (new .unknown message).withHttpStatus ⟨405, by decide⟩

/-- The error of a path without a route. -/
def methodNotFound (path : String) : ConnectError :=
  unimplemented s!"method not found: {path}"

end ConnectError

namespace Service

variable (s : Service X)

/-- The message of a `GET` request, and its codec. -/
def getRequestBody (query : Option String) (desc : MethodDescriptor) (limits : Limits) :
    Except ConnectError (Bytes × CodecFormat) :=
  if desc.idempotent = false then
    .error (.methodNotAllowed "GET requests are only supported for idempotent methods")
  else
    parseGetQueryParams query >>= fun params =>
      if params.connectVersion.any (· ≠ "v1") then
        .error (.invalidArgument "unsupported protocol version")
      else
        decodeGetMessage s.base64Error params s.compression limits.maxMessageSize >>= fun message =>
          let encoding := params.encoding.getD "proto"
          match CodecFormat.fromCodec s.json encoding with
          | some codec => .ok (message, codec)
          | none => .error (.unsupportedMediaType s!"unsupported encoding: {encoding}")

/-- The message of a `POST` request, and its codec. -/
def postRequestBody (metadata : RequestMetadata) (limits : Limits) (postBody : Bytes) :
    Except ConnectError (Bytes × CodecFormat) :=
  if metadata.protocolVersion.any (· ≠ "1") then
    .error (.invalidArgument "unsupported protocol version")
  else
    let contentType := metadata.contentType.getD "application/proto"
    match CodecFormat.fromContentType s.json contentType with
    | none => .error (.unsupportedMediaType s!"unsupported content type: {contentType}")
    | some codec =>
      s.compression.unpack metadata.unaryEncoding postBody limits.maxMessageSize >>= fun body =>
        (checkMessageSize limits.maxMessageSize body).map fun body => (body, codec)

/-- What a Connect unary request comes to: its route, its message and its codec. -/
def unaryRequest (path : String) (desc : Option MethodDescriptor) (req : HttpRequest X)
    (limits : Limits) (postBody : Bytes) :
    Except ConnectError (MethodDescriptor × Bytes × CodecFormat) :=
  match desc with
  | none => .error ((ConnectError.methodNotFound path).withHttpStatus ⟨404, by decide⟩)
  | some desc =>
    if req.method = .GET then (s.getRequestBody req.query desc limits).map fun r => (desc, r)
    else if req.method = .POST then
      (s.postRequestBody (s.metadataOf req .connect) limits postBody).map fun r => (desc, r)
    else .error (.methodNotAllowed "only GET and POST methods are supported")

/-- `handle_unary_request`. -/
def handleUnaryRequest (path : String) (desc : Option MethodDescriptor) (req : HttpRequest X)
    (limits : Limits) (course : Course) : Traced X (Except ConnectError (Response Bytes)) :=
  let metadata := s.metadataOf req .connect
  let deadline := course.absoluteDeadline metadata.timeout
  (receive limits course deadline req.body).andThen fun
  | .error e => .pure (.error e)
  | .ok postBody =>
    match s.unaryRequest path desc req limits postBody with
    | .error e => .pure (.error e)
    | .ok (desc, body, codec) =>
      let ctx := req.context deadline desc.spec .connect path limits
      (runCall course deadline.isSome .none
        (callUnaryIntercepted s.dispatcher s.interceptors path ctx body codec)).map
          fun resp => resp.bind (s.unaryResponse cr metadata codec)

/-! ## gRPC unary calls -/

/-- What a request is decoded with. -/
def requestSetup (metadata : RequestMetadata) (limits : Limits) : RequestSetup :=
  ⟨limits.maxMessageSize, metadata.streamingEncoding, s.compression⟩

/-- The encoding of a request that no provider is registered for. -/
def unsupportedEncoding (metadata : RequestMetadata) : Option String :=
  metadata.streamingEncoding.filter fun encoding =>
    encoding ≠ "identity" && !s.compression.supports encoding

/-- `handle_grpc_unary_request`. -/
def handleGrpcUnaryRequest (path : String) (spec : Option Spec) (req : HttpRequest X)
    (protocol : Protocol) (h : protocol ≠ .connect) (codec : CodecFormat) (limits : Limits)
    (course : Course) : Traced X (Option (Response GrpcUnaryBody)) :=
  let metadata := s.metadataOf req protocol
  let deadline := course.absoluteDeadline metadata.timeout
  let grpcUnaryError := fun err : ConnectError => some (grpcUnaryError cr err protocol h codec)
  if req.method ≠ .POST then
    (drainBody limits course deadline req.body).map fun _ =>
      grpcUnaryError (.internal s!"invalid method for gRPC: {req.method.name}")
  else
    match s.unsupportedEncoding metadata with
    | some encoding =>
      (drainBody limits course deadline req.body).map fun _ =>
        grpcUnaryError (.unimplemented s!"unsupported compression: {encoding}")
    | none =>
      (receive limits course deadline req.body).andThen fun
      | .error e => .pure (grpcUnaryError e)
      | .ok postBody =>
        match grpcUnaryRequestBody protocol (s.requestSetup metadata limits) postBody with
        | .error e => .pure (grpcUnaryError e)
        | .ok body =>
          let ctx := req.context deadline spec protocol path limits
          (runCall course deadline.isSome .none
            (callUnaryIntercepted s.dispatcher s.interceptors path ctx body codec)).map fun
            | .error e => grpcUnaryError e
            | .ok resp => s.grpcUnaryResponse cr protocol h metadata codec resp

/-! ## Streaming calls -/

/-- An error of a streaming call. -/
def streamingError (protocol : Protocol) (codec : CodecFormat) (err : ConnectError) :
    Response StreamingResponseBody :=
  (streamingErrorResponse cr err protocol codec).mapBody .frames

/-- What becomes of the answer of a streaming call. -/
def answerStreaming (failed : String) (protocol : Protocol) (metadata : RequestMetadata)
    (codec : CodecFormat) :
    Except ConnectError (HandlerResponse (List SourceEvent)) → Response StreamingResponseBody
  | .error e => streamingError cr protocol codec e
  | .ok resp => s.streamingResponse cr failed protocol metadata codec resp

/-- One message as the stream of a response. -/
def oneItem (resp : EncodedResponse) : HandlerResponse (List SourceEvent) :=
  resp.mapBody fun body => [.item body]

/-- `handle_client_streaming_request`. -/
def handleClientStreamingRequest (path : String) (spec : Option Spec) (req : HttpRequest X)
    (protocol : Protocol) (codec : CodecFormat) (limits : Limits) (course : Course) :
    Traced X (Response StreamingResponseBody) :=
  let metadata := s.metadataOf req protocol
  let ctx := req.context (course.absoluteDeadline metadata.timeout) spec protocol path limits
  (runCall course metadata.timeout.isSome (.start (s.requestSetup metadata limits) req.body)
    (callClientStreamingIntercepted s.dispatcher s.interceptors path ctx codec)).map fun answer =>
      s.answerStreaming cr "failed to build client streaming response" protocol metadata codec
        (answer.map oneItem)

/-- `handle_bidi_streaming_request`. -/
def handleBidiStreamingRequest (path : String) (spec : Option Spec) (req : HttpRequest X)
    (protocol : Protocol) (codec : CodecFormat) (limits : Limits) (course : Course) :
    Traced X (Response StreamingResponseBody) :=
  let metadata := s.metadataOf req protocol
  let ctx := req.context (course.absoluteDeadline metadata.timeout) spec protocol path limits
  (runCall course metadata.timeout.isSome (.start (s.requestSetup metadata limits) req.body)
    (callBidiStreamingIntercepted s.dispatcher s.interceptors path ctx codec)).map
      (s.answerStreaming cr "failed to build bidi streaming response" protocol metadata codec)

/-- How a streaming request with one message is dispatched. -/
inductive StreamingDispatchKind : Type where
  | serverStreaming
  | unary
  deriving DecidableEq

/-- The dispatch of a request that is not client-streaming or bidi. -/
def dispatchKind (path : String) (protocol : Protocol) :
    Option MethodKind → Except ConnectError StreamingDispatchKind
  | none => .error (.methodNotFound path)
  | some .unary =>
    if protocol = .connect then
      .error (.invalidArgument "streaming content type used for unary method")
    else .ok .unary
  | some _ => .ok .serverStreaming

/-- The call of a streaming request with one message. -/
def callStreaming (kind : StreamingDispatchKind) (path : String) (ctx : RequestContext X)
    (body : Bytes) (codec : CodecFormat) : CallFlow X (HandlerResponse (List SourceEvent)) :=
  match kind with
  | .serverStreaming =>
    callServerStreamingIntercepted s.dispatcher s.interceptors path ctx body codec
  | .unary =>
    (callUnaryIntercepted s.dispatcher s.interceptors path ctx body codec).map
      fun answer => answer.map oneItem

/-- A streaming request with one message: it is read whole. -/
def handleSingleRequest (path : String) (desc : Option MethodDescriptor) (req : HttpRequest X)
    (protocol : Protocol) (codec : CodecFormat) (limits : Limits) (course : Course) :
    Traced X (Response StreamingResponseBody) :=
  let metadata := s.metadataOf req protocol
  let deadline := course.absoluteDeadline metadata.timeout
  (receive limits course deadline req.body).andThen fun
  | .error e => .pure (streamingError cr protocol codec e)
  | .ok postBody =>
    match dispatchKind path protocol (desc.map MethodDescriptor.kind) with
    | .error e => .pure (streamingError cr protocol codec e)
    | .ok kind =>
      match serverStreamingRequestBody protocol (s.requestSetup metadata limits) postBody with
      | .error e => .pure (streamingError cr protocol codec e)
      | .ok body =>
        let ctx := req.context deadline (desc.bind (·.spec)) protocol path limits
        (runCall course deadline.isSome .none (s.callStreaming kind path ctx body codec)).map
          (s.answerStreaming cr "failed to build streaming response" protocol metadata codec)

/-- `handle_streaming_request`. -/
def handleStreamingRequest (path : String) (desc : Option MethodDescriptor) (req : HttpRequest X)
    (protocol : Protocol) (codec : CodecFormat) (limits : Limits) (course : Course) :
    Traced X (Response StreamingResponseBody) :=
  let metadata := s.metadataOf req protocol
  let deadline := course.absoluteDeadline metadata.timeout
  if protocol ≠ .connect ∧ req.method ≠ .POST then
    (drainBody limits course deadline req.body).map fun _ =>
      streamingError cr protocol codec (.internal s!"invalid method for gRPC: {req.method.name}")
  else
    match s.unsupportedEncoding metadata with
    | some encoding =>
      (drainBody limits course deadline req.body).map fun _ =>
        streamingError cr protocol codec (.unimplemented s!"unsupported compression: {encoding}")
    | none =>
      match desc.map MethodDescriptor.kind with
      | some .bidiStreaming =>
        s.handleBidiStreamingRequest cr path (desc.bind (·.spec)) req protocol codec limits course
      | some .clientStreaming =>
        s.handleClientStreamingRequest cr path (desc.bind (·.spec)) req protocol codec limits course
      | _ => s.handleSingleRequest cr path desc req protocol codec limits course

/-! ## Any request -/

/-- `deadline_from_headers`. -/
def deadlineFromHeaders (req : HttpRequest X) (protocol : Protocol) (course : Course) : Option ℕ :=
  course.absoluteDeadline (s.deadlinePolicy.moderate (timeoutFromHeaders req.headers protocol))

/-- The path of a request as routes have it. -/
def routePath (path : String) : String :=
  .ofList ((stripPrefix ['/'] path.toList).getD path.toList)

/-- The descriptor of the route of a request. -/
def descriptor (req : HttpRequest X) : Option MethodDescriptor :=
  s.dispatcher.lookup (routePath req.path)

/-- The limits on a request: those of its route, if it has any. -/
def limitsOf (req : HttpRequest X) : Limits :=
  ((s.descriptor req).bind (·.limits)).getD s.limits

/-- What the checks of the head are shown. -/
def requestHead (req : HttpRequest X) (protocol : Protocol) : RequestHead X where
  path := req.path
  spec := (s.descriptor req).bind (·.spec)
  headers := req.headers
  protocol := protocol
  extensions := req.extensions

/-- `intercept_heads`: what was observed, the request with its extensions put back, and the
verdict. -/
def interceptHeads (req : HttpRequest X) (protocol : Protocol) :
    List (ServiceEvent X) × HttpRequest X × Except ConnectError Unit :=
  let r := runHeads 0 s.interceptors (s.requestHead req protocol)
  (r.1, { req with extensions := r.2.1 }, r.2.2)

/-- Check the head, and go on with the request if all checks pass. -/
def afterHeads {α : Type} (req : HttpRequest X) (protocol : Protocol) (failed : ConnectError → α)
    (go : HttpRequest X → Traced X α) : Traced X α :=
  match s.interceptHeads req protocol with
  | (evs, _, .error e) => (evs, failed e)
  | (evs, req, .ok ()) => (evs ++ (go req).1, (go req).2)

/-- A response without a body, with one header. -/
def bareResponse (status : StatusCode) (n : HeaderName) (v : HeaderValue) : Response ConnectRpcBody :=
  ⟨status, HeaderMap.empty.append n v, .full []⟩

/-- The `allow` header of a route. -/
def allowValue (desc : MethodDescriptor) : HeaderValue :=
  if desc.kind = .unary ∧ desc.idempotent = true then .static "GET, POST" (by decide)
  else .static "POST" (by decide)

/-- `reject_unsupported_method`. -/
def rejectUnsupportedMethod (req : HttpRequest X) (course : Course) :
    Traced X (Except ConnectError (Response ConnectRpcBody)) :=
  (drainBody (s.limitsOf req) course (s.deadlineFromHeaders req .connect course) req.body).map
    fun _ =>
      match s.descriptor req with
      | some desc => .ok (bareResponse ⟨405, by decide⟩ ⟨"allow", by decide⟩ (allowValue desc))
      | none =>
        .error ((ConnectError.methodNotFound (routePath req.path)).withHttpStatus ⟨404, by decide⟩)

/-- The content types a service tells that it accepts. -/
def ACCEPT_POST (json : Bool) : HeaderValue :=
  if json then
    .static ("application/connect+json, application/connect+proto, application/grpc, " ++
      "application/grpc+json, application/grpc+proto, application/grpc-web, " ++
      "application/grpc-web+json, application/grpc-web+proto, application/json, " ++
      "application/proto") (by decide +kernel)
  else
    .static ("application/connect+proto, application/grpc, application/grpc+proto, " ++
      "application/grpc-web, application/grpc-web+proto, application/proto") (by decide +kernel)

/-- The protocol of gRPC that a content type starts like. -/
def grpcLike (contentType : String) : Option Protocol :=
  if "application/grpc-web".toList.isPrefixOf contentType.toList then some .grpcWeb
  else if "application/grpc".toList.isPrefixOf contentType.toList then some .grpc
  else none

/-- The response to a `POST` of an unknown content type. -/
def unknownContentType (contentType : String) : Response ConnectRpcBody :=
  match grpcLike contentType with
  | some protocol =>
    (streamingErrorResponse cr (.unimplemented "unsupported content type") protocol
      .proto).mapBody fun frames => .streaming (.frames frames)
  | none => bareResponse ⟨415, by decide⟩ ⟨"accept-post", by decide⟩ (ACCEPT_POST s.json)

/-- A `POST` of an unknown content type. -/
def rejectContentType (req : HttpRequest X) (course : Course) :
    Traced X (Response ConnectRpcBody) :=
  let contentType := (req.headers.text .contentType).getD ""
  let protocol := (grpcLike contentType).getD .connect
  (drainBody (s.limitsOf req) course (s.deadlineFromHeaders req protocol course) req.body).map
    fun _ => s.unknownContentType cr contentType

/-- A request with enveloped messages whose head has passed. There is no response where the
source panics. -/
def handleEnveloped (rp : RequestProtocol) (course : Course) (req : HttpRequest X) :
    Traced X (Option (Response ConnectRpcBody)) :=
  let path := routePath req.path
  let desc := s.descriptor req
  let limits := s.limitsOf req
  if rp.isTextMode then
    (drainBody limits course (s.deadlineFromHeaders req rp.protocol course) req.body).map fun _ =>
      some ((streamingErrorResponse cr
        (.unimplemented "gRPC-Web text mode (application/grpc-web-text) is not supported")
          .grpcWeb rp.codecFormat).mapBody fun frames => .streaming (.frames frames))
  else if h : rp.protocol ≠ .connect ∧ desc.map MethodDescriptor.kind = some .unary then
    (s.handleGrpcUnaryRequest cr path (desc.bind (·.spec)) req rp.protocol h.1 rp.codecFormat
      limits course).map fun response => response.map fun r => r.mapBody .grpcUnary
  else
    (s.handleStreamingRequest cr path desc req rp.protocol rp.codecFormat limits course).map
      fun r => some (r.mapBody .streaming)

/-- A Connect unary request whose head has passed. -/
def handleUnary (course : Course) (req : HttpRequest X) :
    Traced X (Except ConnectError (Option (Response ConnectRpcBody))) :=
  (s.handleUnaryRequest cr (routePath req.path) (s.descriptor req) req (s.limitsOf req) course).map
    fun response => response.map fun r => some (r.mapBody .full)

/-- The error response of a request with enveloped messages. -/
def envelopedError (rp : RequestProtocol) (e : ConnectError) : Response ConnectRpcBody :=
  (streamingError cr rp.protocol rp.codecFormat e).mapBody .streaming

/-- `handle_request`. There is no response where the source panics. -/
def handleRequest (req : HttpRequest X) (course : Course) :
    Traced X (Except ConnectError (Option (Response ConnectRpcBody))) :=
  if req.method ≠ .GET ∧ req.method ≠ .POST then
    (s.rejectUnsupportedMethod req course).map fun response => response.map some
  else if req.method = .GET then
    s.afterHeads req .connect .error (s.handleUnary cr course)
  else
    match Protocol.detect s.json req.headers with
    | none => (s.rejectContentType cr req course).map fun response => .ok (some response)
    | some rp =>
      if rp.isStreaming then
        (s.afterHeads req rp.protocol (fun e => some (envelopedError cr rp e))
          (s.handleEnveloped cr rp course)).map .ok
      else s.afterHeads req .connect .error (s.handleUnary cr course)

/-- `ConnectRpcService::call`. -/
def call (req : HttpRequest X) (course : Course) : Traced X (Option (Response ConnectRpcBody)) :=
  (s.handleRequest cr req course).map fun
  | .ok response => response
  | .error e => some ((errorResponse cr e).mapBody .full)

end Service

end ConnectRpc
