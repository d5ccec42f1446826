import ConnectRpc.RequestMetadata
import ConnectRpc.Service
import ConnectRpc.UnaryClient

/-!
# Requests of a client

How each of the five entry points of the client puts its request together: the options of
the call are laid over the defaults of the configuration, the message is encoded, the URI is
joined from the base and the procedure, and the headers are the ones the protocol asks for,
then the ones of the user.

A step can fail with an error, or panic: `http`'s header map panics when it is full, and the
builder of a request, once it was given a value that no header can have, has no map to add
the headers of the user to.
-/

namespace ConnectRpc

open Lib

/-! ## Configuration and options -/

/-- The URI that the paths of procedures are put under. -/
structure BaseUri where
  /-- its scheme -/
  scheme : Option String
  /-- its authority -/
  authority : Option String
  /-- its path -/
  path : String
  /-- a path holds neither the start of a query nor that of a fragment -/
  plain : '?' ∉ path.toList ∧ '#' ∉ path.toList

/-- The configuration of a client. -/
structure ClientConfig where
  /-- where the service is -/
  baseUri : BaseUri
  /-- the protocol -/
  protocol : Protocol
  /-- the codec -/
  codecFormat : CodecFormat
  /-- the compression providers -/
  compression : CompressionRegistry
  /-- the encoding of requests, if they are compressed -/
  requestCompression : Option String
  /-- when a message is compressed -/
  compressionPolicy : CompressionPolicy
  /-- the timeout of calls that set none -/
  defaultTimeout : Option Duration
  /-- the limit on messages of calls that set none -/
  defaultMaxMessageSize : Option ℕ
  /-- the memory for elements of calls that set none -/
  defaultElementMemoryLimit : Option ℕ
  /-- headers of all requests -/
  defaultHeaders : HeaderMap

/-- The options of one call. -/
structure CallOptions where
  /-- its headers -/
  headers : HeaderMap
  /-- its timeout -/
  timeout : Option Duration
  /-- its limit on messages -/
  maxMessageSize : Option ℕ
  /-- its memory for elements -/
  elementMemoryLimit : Option ℕ
  /-- whether it is compressed, whatever the policy says -/
  compress : Option Bool

/-- Why there is no request. -/
inductive Failure : Type where
  | error : ConnectError → Failure
  | panic : Failure

/-- What comes of a step that may panic. -/
def orPanic {α : Type} : Option α → Except Failure α
  | some a => .ok a
  | none => .error .panic

/-- What comes of a step that may fail. -/
def orError {α : Type} : Except ConnectError α → Except Failure α
  | .ok a => .ok a
  | .error e => .error (.error e)

namespace HeaderMap

/-- `HeaderMap::remove`. The real one also moves an entry of another name to the place that
gets free; the values of one name stay in order. -/
def remove (m : HeaderMap) (n : HeaderName) : HeaderMap :=
  ⟨m.entries.filter fun e => e.1 ≠ n⟩

theorem getAll_remove (m : HeaderMap) (n k : HeaderName) :
    (m.remove n).getAll k = if k = n then [] else m.getAll k := by
  simp only [remove, getAll, List.filter_filter]
  by_cases h : k = n
  · rw [if_pos h, List.map_eq_nil_iff, List.filter_eq_nil_iff]
    intro e _ he
    simp only [Bool.and_eq_true, decide_eq_true_eq] at he
    exact he.2 (he.1.trans h)
  · rw [if_neg h]
    congr 1
    refine List.filter_congr fun e _ => ?_
    by_cases hk : e.1 = k
    · simp [hk, h]
    · simp [hk]

/-- Removing several names. -/
theorem getAll_foldl_remove (names : List HeaderName) (m : HeaderMap) (k : HeaderName) :
    (names.foldl remove m).getAll k = if k ∈ names then [] else m.getAll k := by
  induction names generalizing m with
  | nil => simp
  | cons n names ih =>
    rw [List.foldl_cons, ih, getAll_remove]
    by_cases hk : k = n
    · simp [hk]
    · by_cases hmem : k ∈ names <;> simp [hk, hmem]

/-- Where appending does not panic, all entries are there. -/
theorem tryAppendAll_eq_some {cap : ℕ} {m m' : HeaderMap} {es : List (HeaderName × HeaderValue)}
    (h : m.tryAppendAll cap es = some m') : m' = m.appendAll es := by
  induction es generalizing m with
  | nil => exact (Option.some.inj h).symm
  | cons e es ih =>
    obtain ⟨m₁, h₁, h₂⟩ := Option.bind_eq_some_iff.mp h
    rw [ih h₂, tryAppend_eq_some h₁]
    rfl

end HeaderMap

variable (cr : Crates)

/-- `merge_headers`. -/
def mergeHeaders (configDefaults options : HeaderMap) : Except Failure HeaderMap :=
  if configDefaults.isEmpty then .ok options
  else if options.isEmpty then .ok configDefaults
  else
    let merged := options.names.foldl HeaderMap.remove configDefaults
    orPanic (merged.tryAppendAll cr.headerCap options.entries)

/-- `effective_options`. -/
def effectiveOptions (config : ClientConfig) (options : CallOptions) :
    Except Failure CallOptions :=
  (mergeHeaders cr config.defaultHeaders options.headers).map fun headers =>
    { timeout := options.timeout.orElse fun _ => config.defaultTimeout
      maxMessageSize := options.maxMessageSize.orElse fun _ => config.defaultMaxMessageSize
      elementMemoryLimit :=
        options.elementMemoryLimit.orElse fun _ => config.defaultElementMemoryLimit
      compress := options.compress
      headers := headers }

/-- The merged headers of a name: those of the options if they have any, else the defaults. -/
theorem mergeHeaders_getAll {configDefaults options merged : HeaderMap}
    (h : mergeHeaders cr configDefaults options = .ok merged) (n : HeaderName) :
    merged.getAll n =
      if options.contains n then options.getAll n else configDefaults.getAll n := by
  have hno : options.contains n = false → options.getAll n = [] :=
    HeaderMap.contains_eq_false.mp
  rw [mergeHeaders] at h
  by_cases hdefaults : configDefaults.isEmpty = true
  · rw [if_pos hdefaults] at h
    obtain rfl := Except.ok.inj h
    rw [HeaderMap.eq_empty_of_isEmpty hdefaults, HeaderMap.getAll_empty]
    by_cases hc : options.contains n = true
    · rw [if_pos hc]
    · rw [if_neg hc, hno (eq_false_of_ne_true hc)]
  · rw [if_neg hdefaults] at h
    by_cases hoptions : options.isEmpty = true
    · rw [if_pos hoptions] at h
      obtain rfl := Except.ok.inj h
      rw [HeaderMap.eq_empty_of_isEmpty hoptions]
      rfl
    · rw [if_neg hoptions] at h
      simp only [orPanic] at h
      split at h
      · rename_i m hm
        obtain rfl := Except.ok.inj h
        rw [HeaderMap.tryAppendAll_eq_some hm, HeaderMap.getAll_appendAll,
          HeaderMap.getAll_foldl_remove]
        by_cases hc : options.contains n = true
        · have hmem : n ∈ options.names := HeaderMap.mem_names.mpr (HeaderMap.contains_iff.mp hc)
          rw [if_pos hmem, if_pos hc, List.nil_append]
        · have hnil := hno (eq_false_of_ne_true hc)
          have hmem : n ∉ options.names := fun hmem => HeaderMap.mem_names.mp hmem hnil
          rw [if_neg hmem, if_neg hc]
          exact (congrArg (configDefaults.getAll n ++ ·) hnil).trans (List.append_nil _)
      · cases h

/-! ## Timeouts -/

/-- The most milliseconds that Connect can ask for. -/
def CONNECT_TIMEOUT_MAX_MILLIS : ℕ := 9999999999

/-- The most units that gRPC can ask for. -/
def GRPC_TIMEOUT_MAX_SECONDS : ℕ := 99999999

namespace Duration

/-- `Duration::as_secs` -/
def asSecs (t : Duration) : ℕ := t / 1000000000

/-- `Duration::as_millis` -/
def asMillis (t : Duration) : ℕ := t / 1000000

/-- `Duration::as_micros` -/
def asMicros (t : Duration) : ℕ := t / 1000

end Duration

/-- A timeout as it is written. -/
inductive EncodedTimeout : Type where
  | connect (millis : ℕ) : EncodedTimeout
  | grpc (value : ℕ) (unit : Char) (duration : Duration) : EncodedTimeout
  deriving DecidableEq

/-- `EncodedTimeout::header_value`. -/
def EncodedTimeout.headerValue : EncodedTimeout → String
  | connect millis => toString millis
  | grpc value unit _ => toString value ++ String.ofList [unit]

/-- The timeout of gRPC: the coarsest unit that is exact, else the finest that fits. -/
def grpcEncodedTimeout (timeout : Duration) : EncodedTimeout :=
  let max := GRPC_TIMEOUT_MAX_SECONDS
  if timeout = 0 then .grpc 0 'n' 0
  else if timeout % 1000000000 = 0 ∧ timeout.asSecs ≤ max then
    .grpc timeout.asSecs 'S' (.fromSecs timeout.asSecs)
  else if timeout % 1000000 = 0 ∧ timeout.asMillis ≤ max then
    .grpc timeout.asMillis 'm' (.fromMillis timeout.asMillis)
  else if timeout % 1000 = 0 ∧ timeout.asMicros ≤ max then
    .grpc timeout.asMicros 'u' (.fromMicros timeout.asMicros)
  else if timeout ≤ max then .grpc timeout 'n' (.fromNanos timeout)
  else if timeout.asMicros ≤ max then .grpc timeout.asMicros 'u' (.fromMicros timeout.asMicros)
  else if timeout.asMillis ≤ max then .grpc timeout.asMillis 'm' (.fromMillis timeout.asMillis)
  else if timeout.asSecs ≤ max then .grpc timeout.asSecs 'S' (.fromSecs timeout.asSecs)
  else .grpc max 'S' (.fromSecs GRPC_TIMEOUT_MAX_SECONDS)

/-- `encoded_timeout`. -/
def encodedTimeout (timeout : Duration) : Protocol → EncodedTimeout
  | .connect => .connect (min timeout.asMillis CONNECT_TIMEOUT_MAX_MILLIS)
  | .grpc => grpcEncodedTimeout timeout
  | .grpcWeb => grpcEncodedTimeout timeout

/-- `format_timeout`. -/
def formatTimeout (timeout : Duration) (protocol : Protocol) : String :=
  (encodedTimeout timeout protocol).headerValue

/-! ## Procedures and URIs -/

/-- The shape of a call. -/
inductive StreamType : Type where
  | unary
  | clientStream
  | serverStream
  | bidiStream
  deriving DecidableEq

/-- Which side a description of a method was made for. -/
inductive SpecOrigin : Type where
  | server
  | client
  deriving DecidableEq

/-- The description of a method that a caller passes. -/
structure CallSpec where
  /-- its path, with the leading slash -/
  procedure : String
  /-- its shape -/
  streamType : StreamType
  /-- the side it is for -/
  origin : SpecOrigin
  deriving DecidableEq

namespace StreamType

/-- The name of a shape, as `{:?}` writes it. -/
def debug : StreamType → String
  | unary => "Unary"
  | clientStream => "ClientStream"
  | serverStream => "ServerStream"
  | bidiStream => "BidiStream"

/-- `entry_point_for`. -/
def entryPoint : StreamType → String
  | unary => "call_unary"
  | clientStream => "call_client_stream"
  | serverStream => "call_server_stream"
  | bidiStream => "call_bidi_stream"

end StreamType

/-- A path with its query, as `http` keeps it: the text up to a fragment. -/
structure PathAndQuery where
  /-- the text -/
  data : List Char
  deriving DecidableEq

/-- The query. -/
def PathAndQuery.query (pq : PathAndQuery) : Option String :=
  (splitOnce '?' pq.data).map fun parts => .ofList parts.2

/-- What `http` thinks of URIs, and how it and `std` render them. -/
structure UriCrates where
  /-- the error of a text that is no path with a query -/
  pathError : String → Option String
  /-- the error of `Uri::from_parts` for the scheme and the authority of a base -/
  partsError : BaseUri → Option String
  /-- `{}` of a URI -/
  display : BaseUri → String
  /-- `{:?}` of a text -/
  debugStr : String → String

/-- `PathAndQuery::from_maybe_shared`: a fragment is dropped. -/
def PathAndQuery.fromShared (ur : UriCrates) (s : String) : Except String PathAndQuery :=
  match ur.pathError s with
  | some e => .error e
  | none => .ok ⟨s.toList.takeWhile (· ≠ '#')⟩

/-- The URI of a request. -/
structure RequestUri where
  /-- its scheme -/
  scheme : Option String
  /-- its authority -/
  authority : Option String
  /-- its path and query -/
  pathAndQuery : PathAndQuery
  deriving DecidableEq

variable (ur : UriCrates)

/-- `procedure_is_well_formed`: a slash at the start, and another one. -/
def procedureIsWellFormed (procedure : String) : Bool :=
  match procedure.toList with
  | '/' :: rest => rest.contains '/'
  | _ => false

/-- `check_client_spec`. -/
def checkClientSpec (spec : CallSpec) (expected : StreamType) (entryPoint : String) :
    Except ConnectError Unit :=
  if spec.streamType ≠ expected then
    .error (.internal (s!"{entryPoint} called with a {spec.streamType.debug} Spec for " ++
      s!"{spec.procedure}; use {spec.streamType.entryPoint}"))
  else if spec.origin ≠ .client then
    .error (.internal (s!"{entryPoint} called with a server-side Spec for {spec.procedure}; pass " ++
      "FOO_SPEC.with_origin(SpecOrigin::Client) or Spec::client(..)"))
  else if procedureIsWellFormed spec.procedure = false then
    .error (.internal (s!"Spec::procedure {ur.debugStr spec.procedure} must look like " ++
      "\"/package.Service/Method\""))
  else .ok ()

/-- `procedure_uri`. -/
def procedureUri (config : ClientConfig) (procedure : String) (query : Option String) :
    Except ConnectError RequestUri :=
  let basePath := String.ofList (trimEnd (· = '/') config.baseUri.path.toList)
  let text := basePath ++ procedure ++ (query.map ("?" ++ ·)).getD ""
  match PathAndQuery.fromShared ur text with
  | .error e => .error (.internal s!"invalid request path: {e}")
  | .ok pathAndQuery =>
    match ur.partsError config.baseUri with
    | some e => .error (.internal s!"invalid request URI from base {ur.display config.baseUri}: {e}")
    | none => .ok ⟨config.baseUri.scheme, config.baseUri.authority, pathAndQuery⟩

/-! ## Headers -/

/-- A request under construction, as its headers; `none` once a step of it failed. -/
abbrev RequestBuilder := Option HeaderMap

namespace RequestBuilder

/-- `Builder::header`; there may be no value for the text that was given. -/
def header (cap : ℕ) (b : RequestBuilder) (n : HeaderName) (v : Option HeaderValue) :
    RequestBuilder :=
  b.bind fun m => v.bind fun v => m.tryAppend cap n v

/-- A header that is only there in some cases. -/
def optional (cap : ℕ) (b : RequestBuilder) (n : HeaderName) (v : Option (Option HeaderValue)) :
    RequestBuilder :=
  match v with
  | some v => b.header cap n v
  | none => b

end RequestBuilder

/-- A text as a header value. -/
def textValue (s : String) : Option HeaderValue :=
  HeaderValue.fromStr cr.opaqueOctets s

/-- `unary_request_content_type`; the content type of a codec is that of a unary call of
Connect. -/
def unaryRequestContentType (config : ClientConfig) : HeaderValue :=
  contentTypeValue config.protocol config.codecFormat false

/-- `streaming_request_content_type`. -/
def streamingRequestContentType (config : ClientConfig) : HeaderValue :=
  contentTypeValue config.protocol config.codecFormat true

/-- `1` -/
def protocolVersionValue : HeaderValue := .static "1" (by decide)

/-- `trailers` -/
def teValue : HeaderValue := .static "trailers" (by decide)

/-- The value of the timeout header. -/
def timeoutValue (timeout : Option Duration) (protocol : Protocol) : Option (Option HeaderValue) :=
  timeout.map fun timeout => textValue cr (formatTimeout timeout protocol)

/-- The value of an encoding header. -/
def encodingValue (encoding : Option String) : Option (Option HeaderValue) :=
  encoding.map (textValue cr)

/-- The value of an accept header. -/
def acceptValue (config : ClientConfig) : Option (Option HeaderValue) :=
  (config.compression.acceptEncodingValue cr).map some

/-- `add_unary_request_headers`. -/
def addUnaryRequestHeaders (builder : RequestBuilder) (config : ClientConfig)
    (timeout : Option Duration) (appliedContentEncoding : Option String) : RequestBuilder :=
  let cap := cr.headerCap
  let builder := builder.header cap .contentType (some (unaryRequestContentType config))
  let builder :=
    match config.protocol with
    | .connect =>
      let builder := builder.header cap hdr.connectProtocolVersion (some protocolVersionValue)
      let builder :=
        builder.optional cap .contentEncoding (encodingValue cr appliedContentEncoding)
      builder.optional cap .acceptEncoding (acceptValue cr config)
    | .grpc =>
      let builder := builder.header cap .te (some teValue)
      let builder :=
        builder.optional cap hdr.grpcEncoding (encodingValue cr config.requestCompression)
      builder.optional cap hdr.grpcAcceptEncoding (acceptValue cr config)
    | .grpcWeb =>
      let builder :=
        builder.optional cap hdr.grpcEncoding (encodingValue cr config.requestCompression)
      builder.optional cap hdr.grpcAcceptEncoding (acceptValue cr config)
  builder.optional cap config.protocol.timeoutHeader (timeoutValue cr timeout config.protocol)

/-- `add_streaming_request_headers`. -/
def addStreamingRequestHeaders (builder : RequestBuilder) (config : ClientConfig)
    (timeout : Option Duration) : RequestBuilder :=
  let cap := cr.headerCap
  let builder := builder.header cap .contentType (some (streamingRequestContentType config))
  let builder :=
    match config.protocol with
    | .connect => builder.header cap hdr.connectProtocolVersion (some protocolVersionValue)
    | .grpc => builder.header cap .te (some teValue)
    | .grpcWeb => builder
  let builder := builder.optional cap config.protocol.contentEncodingHeader
    (encodingValue cr config.requestCompression)
  let builder :=
    builder.optional cap config.protocol.acceptEncodingHeader (acceptValue cr config)
  builder.optional cap config.protocol.timeoutHeader (timeoutValue cr timeout config.protocol)

/-- The headers of a `GET` request. -/
def addGetRequestHeaders (builder : RequestBuilder) (config : ClientConfig)
    (timeout : Option Duration) : RequestBuilder :=
  let builder :=
    builder.optional cr.headerCap hdr.connectTimeoutMs (timeoutValue cr timeout .connect)
  builder.optional cr.headerCap .acceptEncoding (acceptValue cr config)

/-! ## Bodies -/

/-- The body of a request: bytes, or what an encoder will make of the messages, which it
takes from the caller's stream or from a channel. -/
inductive ClientBody : Type where
  | full : Bytes → ClientBody
  | encoding : EnvelopeEncoder → CodecFormat → ClientBody
  | channel : EnvelopeEncoder → CodecFormat → ClientBody

/-- A request as it is handed to the transport. -/
structure ClientRequest where
  /-- its method -/
  method : Method
  /-- its URI -/
  uri : RequestUri
  /-- its headers -/
  headers : HeaderMap
  /-- its body -/
  body : ClientBody

/-- A message, as its encodings. -/
abbrev ClientMessage := CodecFormat → Except ConnectError Bytes

/-- The encoder of the messages of a request. -/
def requestEncoder (config : ClientConfig) (options : CallOptions) : EnvelopeEncoder :=
  ⟨config.requestCompression.map (config.compression, ·),
    config.compressionPolicy.withOverride options.compress⟩

/-- A whole message compressed as the policy says, and the encoding if it is. -/
def compressWhole (config : ClientConfig) (options : CallOptions) (body : Bytes) :
    Except ConnectError (Bytes × Option String) :=
  match config.requestCompression with
  | some encoding =>
    if (config.compressionPolicy.withOverride options.compress).shouldCompress body.length then
      (config.compression.compress encoding body).map fun compressed => (compressed, some encoding)
    else .ok (body, none)
  | none => .ok (body, none)

/-- The body of a unary request, and the encoding it is compressed with as a whole. -/
def unaryRequestBody (config : ClientConfig) (options : CallOptions) (body : Bytes) :
    Except ConnectError (Bytes × Option String) :=
  match config.protocol with
  | .connect => compressWhole config options body
  | .grpc | .grpcWeb =>
    match (requestEncoder config options).encode body [] with
    | .ok buf => .ok (buf, none)
    | .error e => .error (.internal s!"envelope encode failed: {e.display}")

/-- Add the headers of the user, after those of the protocol. -/
def finishRequest (builder : RequestBuilder) (method : Method) (uri : RequestUri)
    (userHeaders : HeaderMap) (body : ClientBody) : Except Failure ClientRequest :=
  orPanic builder >>= fun headers =>
    orPanic (headers.tryAppendAll cr.headerCap userHeaders.entries) >>= fun headers =>
      .ok ⟨method, uri, headers, body⟩

/-! ## Entry points -/

/-- The headers of a request before there are any. -/
def RequestBuilder.new : RequestBuilder := some .empty

/-- The request of `call_unary`. -/
def callUnary (config : ClientConfig) (spec : CallSpec) (request : ClientMessage)
    (options : CallOptions) : Except Failure ClientRequest := do
  orError (checkClientSpec ur spec .unary "call_unary")
  let options ← effectiveOptions cr config options
  let uri ← orError (procedureUri ur config spec.procedure none)
  let body ← orError (request config.codecFormat)
  let (body, appliedContentEncoding) ← orError (unaryRequestBody config options body)
  let builder :=
    addUnaryRequestHeaders cr .new config options.timeout appliedContentEncoding
  finishRequest cr builder .POST uri options.headers (.full body)

/-- `percent_encoding::NON_ALPHANUMERIC` -/
def nonAlphanumeric (b : UInt8) : Bool :=
  !(charOfByte b).isAlphanum

/-- `URL_SAFE_NO_PAD.encode`: the standard alphabet with two characters changed. -/
def urlSafeEncode (b : Bytes) : List Char :=
  (Base64.encodeNoPad b).map fun c => if c = '+' then '-' else if c = '/' then '_' else c

/-- `build_connect_get_query`. -/
def buildConnectGetQuery (useBase64 : Bool) (compression : Option String) (encoding : String)
    (encodedMessage : List Char) : List Char :=
  "connect=v1".toList ++ (if useBase64 then "&base64=1".toList else []) ++
    (match compression with
      | some enc => "&compression=".toList ++ enc.toList
      | none => []) ++
    "&encoding=".toList ++ encoding.toList ++ "&message=".toList ++ encodedMessage

/-- The name of a codec in a query. -/
def CodecFormat.queryName : CodecFormat → String
  | proto => "proto"
  | json => "json"

/-- The query of a `GET` request for a message in a codec, compressed with an encoding or
not. -/
def getQuery (codec : CodecFormat) (payload : Bytes) (compressedWith : Option String) : String :=
  let useBase64 := codec = .proto || compressedWith.isSome
  let encodedMessage :=
    if useBase64 then urlSafeEncode payload else percentEncode nonAlphanumeric payload
  .ofList (buildConnectGetQuery useBase64 compressedWith codec.queryName encodedMessage)

/-- The request of `call_unary_get`. -/
def callUnaryGet (config : ClientConfig) (spec : CallSpec) (request : ClientMessage)
    (options : CallOptions) : Except Failure ClientRequest := do
  orError (checkClientSpec ur spec .unary "call_unary_get")
  orError (if config.protocol = .connect then .ok () else .error (.invalidArgument
    "call_unary_get requires Protocol::Connect (gRPC/gRPC-Web are POST-only)"))
  let options ← effectiveOptions cr config options
  let body ← orError (request config.codecFormat)
  let (payload, compressedWith) ← orError (compressWhole config options body)
  let query := getQuery config.codecFormat payload compressedWith
  let uri ← orError (procedureUri ur config spec.procedure (some query))
  let builder := addGetRequestHeaders cr .new config options.timeout
  finishRequest cr builder .GET uri options.headers (.full [])

/-- The request of `call_server_stream`. -/
def callServerStream (config : ClientConfig) (spec : CallSpec) (request : ClientMessage)
    (options : CallOptions) : Except Failure ClientRequest := do
  orError (checkClientSpec ur spec .serverStream "call_server_stream")
  let options ← effectiveOptions cr config options
  let uri ← orError (procedureUri ur config spec.procedure none)
  let body ← orError (request config.codecFormat)
  let body ← orError ((requestEncoder config options).encode body [])
  let builder := addStreamingRequestHeaders cr .new config options.timeout
  finishRequest cr builder .POST uri options.headers (.full body)

/-- The request of `call_bidi_stream`. -/
def callBidiStream (config : ClientConfig) (spec : CallSpec) (options : CallOptions) :
    Except Failure ClientRequest := do
  orError (checkClientSpec ur spec .bidiStream "call_bidi_stream")
  let options ← effectiveOptions cr config options
  let uri ← orError (procedureUri ur config spec.procedure none)
  let body := .channel (requestEncoder config options) config.codecFormat
  let builder := addStreamingRequestHeaders cr .new config options.timeout
  finishRequest cr builder .POST uri options.headers body

/-- The request of `call_client_stream`. -/
def callClientStream (config : ClientConfig) (spec : CallSpec) (options : CallOptions) :
    Except Failure ClientRequest := do
  orError (checkClientSpec ur spec .clientStream "call_client_stream")
  let options ← effectiveOptions cr config options
  let uri ← orError (procedureUri ur config spec.procedure none)
  let body := .encoding (requestEncoder config options) config.codecFormat
  let builder := addStreamingRequestHeaders cr .new config options.timeout
  finishRequest cr builder .POST uri options.headers body

/-- The entry points. -/
inductive EntryPoint : Type where
  | unary
  | unaryGet
  | serverStream
  | clientStream
  | bidiStream
  deriving DecidableEq

/-- The request that an entry point makes; those that stream requests have no message yet. -/
def EntryPoint.request (config : ClientConfig) (spec : CallSpec) (message : ClientMessage)
    (options : CallOptions) : EntryPoint → Except Failure ClientRequest
  | unary => callUnary cr ur config spec message options
  | unaryGet => callUnaryGet cr ur config spec message options
  | serverStream => callServerStream cr ur config spec message options
  | clientStream => callClientStream cr ur config spec options
  | bidiStream => callBidiStream cr ur config spec options

/-! ## What a request is made of -/

/-- The timeout of a call. -/
def callTimeout (config : ClientConfig) (options : CallOptions) : Option Duration :=
  options.timeout.orElse fun _ => config.defaultTimeout

/-- The encoding that a whole message is compressed with, if the policy has it compressed. -/
def wholeEncoding (config : ClientConfig) (options : CallOptions) (message : ClientMessage) :
    Option String :=
  match message config.codecFormat with
  | .ok body =>
    if (config.compressionPolicy.withOverride options.compress).shouldCompress body.length then
      config.requestCompression
    else none
  | .error _ => none

/-- What the entry points read of the merged options. -/
theorem effectiveOptions_ok {config : ClientConfig} {options effective : CallOptions}
    (h : effectiveOptions cr config options = .ok effective) :
    mergeHeaders cr config.defaultHeaders options.headers = .ok effective.headers ∧
      effective.timeout = callTimeout config options ∧ effective.compress = options.compress := by
  obtain ⟨merged, hmerged, rfl⟩ := exists_of_map_ok h
  exact ⟨hmerged, rfl, rfl⟩

theorem orError_eq_ok {α : Type} {x : Except ConnectError α} {a : α} (h : orError x = .ok a) :
    x = .ok a := by
  cases x with
  | ok b => rw [Except.ok.inj h]
  | error e => cases h

theorem orPanic_eq_ok {α : Type} {x : Option α} {a : α} (h : orPanic x = .ok a) : x = some a := by
  cases x with
  | some b => rw [Except.ok.inj h]
  | none => cases h

/-- The headers of a finished request. -/
theorem finishRequest_ok {builder : RequestBuilder} {method : Method} {uri : RequestUri}
    {userHeaders : HeaderMap} {body : ClientBody} {req : ClientRequest}
    (h : finishRequest cr builder method uri userHeaders body = .ok req) :
    ∃ generated, builder = some generated ∧
      req = ⟨method, uri, generated.appendAll userHeaders.entries, body⟩ := by
  obtain ⟨generated, hgenerated, h⟩ := exists_of_bind_ok h
  obtain ⟨headers, hheaders, h⟩ := exists_of_bind_ok h
  refine ⟨generated, orPanic_eq_ok hgenerated, ?_⟩
  rw [← HeaderMap.tryAppendAll_eq_some (orPanic_eq_ok hheaders)]
  exact (Except.ok.inj h).symm

/-- The encoding that is announced for a whole message is the one the policy has it compressed
with. -/
theorem compressWhole_ok {config : ClientConfig} {options effective : CallOptions}
    {message : ClientMessage} {body payload : Bytes} {applied : Option String}
    (hbody : message config.codecFormat = .ok body) (hcompress : effective.compress = options.compress)
    (h : compressWhole config effective body = .ok (payload, applied)) :
    applied = wholeEncoding config options message := by
  rw [compressWhole, hcompress] at h
  rw [wholeEncoding, hbody]
  simp only
  cases hencoding : config.requestCompression with
  | none =>
    rw [hencoding] at h
    rw [ite_self]
    exact (Prod.mk.inj (Except.ok.inj h)).2.symm
  | some encoding =>
    rw [hencoding] at h
    simp only at h
    split at h
    · rename_i hpolicy
      obtain ⟨z, -, h⟩ := exists_of_map_ok h
      rw [if_pos hpolicy]
      exact (Prod.mk.inj h).2.symm
    · rename_i hpolicy
      rw [if_neg hpolicy]
      exact (Prod.mk.inj (Except.ok.inj h)).2.symm

end ConnectRpc
