import ConnectRpc.Compression
import ConnectRpc.Protocol
import ConnectRpc.Lib.Base64
import ConnectRpc.Lib.Fallible
import ConnectRpc.Lib.Percent
import ConnectRpc.Lib.Text

/-!
# What a service reads off a request

Everything about a request that comes before its body: the method, the descriptor of
its route, the protocol that its `content-type` stands for, the headers that say how
its messages are written, its timeout, and the query of a `GET` request, which holds
the message itself.

A build without the `json` feature knows no JSON content types; `json` says whether it
has it.
-/

namespace ConnectRpc

open Lib

/-! ## Methods and routes -/

/-- An HTTP method. -/
structure Method where
  /-- its name -/
  name : String
  deriving DecidableEq

/-- `GET` -/
def Method.GET : Method := ⟨"GET"⟩

/-- `POST` -/
def Method.POST : Method := ⟨"POST"⟩

/-- The kind of an RPC method. -/
inductive MethodKind : Type where
  | unary
  | serverStreaming
  | clientStreaming
  | bidiStreaming
  deriving DecidableEq

/-- What is told about a method when it is registered. -/
structure Spec where
  /-- its path, with the leading slash -/
  procedure : String
  deriving DecidableEq

/-- The limits on requests. -/
structure Limits where
  /-- on the body of a request that is read whole -/
  maxRequestBodySize : ℕ
  /-- on one message, decompressed -/
  maxMessageSize : ℕ
  /-- on the memory that the elements of a message may take -/
  elementMemoryLimit : ℕ
  deriving DecidableEq

/-- `buffa::DecodeOptions`, as far as they are set here. -/
structure DecodeOptions where
  /-- the memory that the elements of a message may take -/
  elementMemoryLimit : ℕ
  deriving DecidableEq

/-- The default of `buffa`. -/
def DecodeOptions.new : DecodeOptions := ⟨32 * 1024 * 1024⟩

/-- The decode options that limits imply. -/
def Limits.decodeOptions (l : Limits) : DecodeOptions :=
  ⟨l.elementMemoryLimit⟩

/-- What a dispatcher knows about a route. -/
structure MethodDescriptor where
  /-- the kind of the method -/
  kind : MethodKind
  /-- whether it may be called by `GET` -/
  idempotent : Bool
  /-- what was told about it -/
  spec : Option Spec
  /-- limits of its own -/
  limits : Option Limits

/-! ## Content types -/

/-- What a `content-type` stands for. -/
structure RequestProtocol where
  /-- the wire protocol -/
  protocol : Protocol
  /-- the codec -/
  codecFormat : CodecFormat
  /-- whether messages are enveloped -/
  isStreaming : Bool
  /-- whether this is the text mode of gRPC-Web -/
  isTextMode : Bool
  deriving DecidableEq

/-- The codec of a gRPC subtype. -/
def grpcSubtypeToCodec (json : Bool) (suffix : List Char) : Option CodecFormat :=
  if suffix = [] then some .proto
  else if suffix = "+proto".toList then some .proto
  else if json ∧ suffix = "+json".toList then some .json
  else none

/-- `str::strip_prefix` -/
def stripPrefix (pre cs : List Char) : Option (List Char) :=
  if pre.isPrefixOf cs then some (cs.drop pre.length) else none

/-- `Protocol::detect_from_content_type`. -/
def Protocol.detectFromContentType (json : Bool) (contentType : String) : Option RequestProtocol :=
  let contentType := trim isWhitespace (contentType.toList.takeWhile (· ≠ ';'))
  match stripPrefix "application/grpc-web-text".toList contentType with
  | some rest =>
    if rest = [] ∨ rest = "+proto".toList then some ⟨.grpcWeb, .proto, true, true⟩ else none
  | none =>
    match stripPrefix "application/grpc-web".toList contentType with
    | some rest => (grpcSubtypeToCodec json rest).map (⟨.grpcWeb, ·, true, false⟩)
    | none =>
      match stripPrefix "application/grpc".toList contentType with
      | some rest => (grpcSubtypeToCodec json rest).map (⟨.grpc, ·, true, false⟩)
      | none =>
        match stripPrefix "application/connect+".toList contentType with
        | some rest =>
          if rest = "proto".toList then some ⟨.connect, .proto, true, false⟩
          else if json ∧ rest = "json".toList then some ⟨.connect, .json, true, false⟩
          else none
        | none =>
          if contentType = "application/proto".toList then some ⟨.connect, .proto, false, false⟩
          else if json ∧ contentType = "application/json".toList then
            some ⟨.connect, .json, false, false⟩
          else none

/-- The value of a header as text. -/
def HeaderMap.text (headers : HeaderMap) (n : HeaderName) : Option String :=
  (headers.get n).bind HeaderValue.toStr

/-- `Protocol::detect`. -/
def Protocol.detect (json : Bool) (headers : HeaderMap) : Option RequestProtocol :=
  (headers.text .contentType).bind (Protocol.detectFromContentType json)

/-- `CodecFormat::from_content_type`. -/
def CodecFormat.fromContentType (json : Bool) (contentType : String) : Option CodecFormat :=
  let cs := contentType.toList
  if "application/proto".toList.isPrefixOf cs || "application/connect+proto".toList.isPrefixOf cs then
    some .proto
  else if json && ("application/json".toList.isPrefixOf cs ||
      "application/connect+json".toList.isPrefixOf cs) then some .json
  else none

/-- `CodecFormat::from_codec`. -/
def CodecFormat.fromCodec (json : Bool) (codec : String) : Option CodecFormat :=
  if codec = "proto" then some .proto
  else if json ∧ codec = "json" then some .json
  else none

/-! ## Timeouts -/

/-- The largest `u64`. -/
def u64Max : ℕ := 0xFFFFFFFFFFFFFFFF

/-- A span of time, in nanoseconds. -/
abbrev Duration := ℕ

namespace Duration

/-- So many seconds. -/
def fromSecs (n : ℕ) : Duration := n * 1000000000

/-- So many milliseconds. -/
def fromMillis (n : ℕ) : Duration := n * 1000000

/-- So many microseconds. -/
def fromMicros (n : ℕ) : Duration := n * 1000

/-- So many nanoseconds. -/
def fromNanos (n : ℕ) : Duration := n

end Duration

/-- `u64::checked_mul`, of a number that fits. -/
def checkedMul (n k : ℕ) : Option ℕ :=
  if n * k ≤ u64Max then some (n * k) else none

/-- A number with a unit, as gRPC writes a timeout. -/
def parseGrpcTimeout (s : List Char) : Option Duration :=
  if s = [] ∨ s.all asciiChar = false then none
  else
    let digits := s.dropLast
    if digits = [] ∨ 8 < digits.length then none
    else
      match parseUnsigned u64Max digits, s.getLast? with
      | some value, some 'H' => (checkedMul value 3600).map .fromSecs
      | some value, some 'M' => (checkedMul value 60).map .fromSecs
      | some value, some 'S' => some (.fromSecs value)
      | some value, some 'm' => some (.fromMillis value)
      | some value, some 'u' => some (.fromMicros value)
      | some value, some 'n' => some (.fromNanos value)
      | _, _ => none

/-- `parse_timeout`. -/
def parseTimeout (s : String) : Protocol → Option Duration
  | .connect =>
    if s = "" ∨ 10 < (asBytes s).length then none
    else (parseUnsigned u64Max s.toList).map .fromMillis
  | .grpc => parseGrpcTimeout s.toList
  | .grpcWeb => parseGrpcTimeout s.toList

namespace hdr

/-- `connect-timeout-ms` -/
def connectTimeoutMs : HeaderName := ⟨"connect-timeout-ms", by decide⟩

/-- `grpc-timeout` -/
def grpcTimeout : HeaderName := ⟨"grpc-timeout", by decide⟩

/-- `connect-protocol-version` -/
def connectProtocolVersion : HeaderName := ⟨"connect-protocol-version", by decide⟩

end hdr

/-- The header a protocol has its timeout in. -/
def Protocol.timeoutHeader : Protocol → HeaderName
  | .connect => hdr.connectTimeoutMs
  | .grpc => hdr.grpcTimeout
  | .grpcWeb => hdr.grpcTimeout

/-- `timeout_from_headers`. -/
def timeoutFromHeaders (headers : HeaderMap) (protocol : Protocol) : Option Duration :=
  (headers.text protocol.timeoutHeader).bind (parseTimeout · protocol)

/-- What a service makes of the timeout that a client asks for. -/
structure DeadlinePolicy where
  /-- the least it grants -/
  min : Duration
  /-- the most it grants -/
  max : Option Duration
  /-- what it grants to a client that asks for none -/
  default : Option Duration

/-- The largest `Duration`. -/
def Duration.MAX : Duration := u64Max * 1000000000 + 999999999

/-- `DeadlinePolicy::moderate`. -/
def DeadlinePolicy.moderate (p : DeadlinePolicy) : Option Duration → Option Duration
  | some asserted =>
    let upper := p.max.getD .MAX
    let lower := Min.min p.min upper
    some (if asserted < lower then lower else if upper < asserted then upper else asserted)
  | none => p.default

/-! ## Metadata -/

/-- What the headers of a request say about its messages. -/
structure RequestMetadata where
  /-- `content-type` -/
  contentType : Option String
  /-- the timeout -/
  timeout : Option Duration
  /-- the encoding of a unary request -/
  unaryEncoding : Option String
  /-- the encoding of enveloped messages -/
  streamingEncoding : Option String
  /-- the encodings a unary response may have -/
  unaryAcceptEncoding : Option String
  /-- the encodings enveloped messages of the response may have -/
  streamingAcceptEncoding : Option String
  /-- `connect-protocol-version` -/
  protocolVersion : Option String
  /-- all headers -/
  headers : HeaderMap

/-- `RequestMetadata::from_headers`. -/
def RequestMetadata.fromHeaders (headers : HeaderMap) (protocol : Protocol) : RequestMetadata where
  contentType := headers.text .contentType
  timeout := timeoutFromHeaders headers protocol
  unaryEncoding := headers.text .contentEncoding
  streamingEncoding := headers.text protocol.contentEncodingHeader
  unaryAcceptEncoding := headers.text .acceptEncoding
  streamingAcceptEncoding := headers.text protocol.acceptEncodingHeader
  protocolVersion := headers.text hdr.connectProtocolVersion
  headers := headers

/-! ## The query of a `GET` request -/

/-- The parameters of a `GET` request. -/
structure GetQueryParams where
  /-- the message -/
  message : Option String
  /-- its codec -/
  encoding : Option String
  /-- whether the message is base64 -/
  base64 : Bool
  /-- the encoding it is compressed with -/
  compression : Option String
  /-- the version of the protocol -/
  connectVersion : Option String

/-- Take one parameter; unknown ones are ignored, and a later one replaces an earlier one. -/
def GetQueryParams.set (params : GetQueryParams) (pair : List Char) : GetQueryParams :=
  let (key, value) := (splitOnce '=' pair).getD (pair, [])
  if key = "message".toList then { params with message := some (.ofList value) }
  else if key = "encoding".toList then { params with encoding := some (.ofList value) }
  else if key = "base64".toList then { params with base64 := value = "1".toList }
  else if key = "compression".toList then { params with compression := some (.ofList value) }
  else if key = "connect".toList then { params with connectVersion := some (.ofList value) }
  else params

/-- `parse_get_query_params`. -/
def parseGetQueryParams : Option String → Except ConnectError GetQueryParams
  | none => .error (.invalidArgument "GET request requires query parameters")
  | some query =>
    let params := (splitAll '&' query.toList).foldl GetQueryParams.set ⟨none, none, false, none, none⟩
    if params.encoding = none then
      .error (.invalidArgument "GET request requires 'encoding' query parameter")
    else .ok params

/-- `percent_decode`: also `+` stands for a blank. -/
def percentDecodeQuery (input : String) : Bytes :=
  percentDecode (asBytes (.ofList (input.toList.map fun c => if c = '+' then ' ' else c)))

/-- A byte of the URL-safe alphabet as a character of the standard one. -/
def urlSafeChar (b : UInt8) : Char :=
  if charOfByte b = '-' then '+'
  else if charOfByte b = '_' then '/'
  else if charOfByte b = '+' ∨ charOfByte b = '/' then '-'
  else charOfByte b

/-- URL-safe base64, without padding or with it. -/
def decodeUrlSafe (message : Bytes) : Option Bytes :=
  match Base64.decodeNoPad (message.map urlSafeChar) with
  | some b => some b
  | none => Base64.decodePad (message.map urlSafeChar)

/-- The error of a message that is too large. -/
def messageTooLarge (size maxMessageSize : ℕ) : ConnectError :=
  .resourceExhausted s!"message size {size} exceeds limit {maxMessageSize}"

/-- A message within the limit. -/
def checkMessageSize (maxMessageSize : ℕ) (body : Bytes) : Except ConnectError Bytes :=
  if maxMessageSize < body.length then .error (messageTooLarge body.length maxMessageSize)
  else .ok body

/-- The message of a `GET` request as it was sent; `base64Error` renders the error of the
decoder. -/
def GetQueryParams.sent (base64Error : Bytes → String) (params : GetQueryParams)
    (encodedMessage : String) : Except ConnectError Bytes :=
  if params.base64 then
    let message :=
      if '%' ∈ encodedMessage.toList then percentDecodeQuery encodedMessage
      else asBytes encodedMessage
    match decodeUrlSafe message with
    | some decoded => .ok decoded
    | none => .error (.invalidArgument s!"invalid base64 encoding: {base64Error message}")
  else .ok (percentDecodeQuery encodedMessage)

/-- A message as it was sent, decompressed if it has an encoding. -/
def CompressionRegistry.unpack (compression : CompressionRegistry) (encoding : Option String)
    (sent : Bytes) (maxMessageSize : ℕ) : Except ConnectError Bytes :=
  match encoding with
  | some encoding => compression.decompressWithLimit encoding sent maxMessageSize
  | none => .ok sent

/-- `decode_get_message`. -/
def decodeGetMessage (base64Error : Bytes → String) (params : GetQueryParams)
    (compression : CompressionRegistry) (maxMessageSize : ℕ) : Except ConnectError Bytes :=
  match params.message with
  | none => .ok []
  | some encodedMessage =>
    params.sent base64Error encodedMessage >>= fun decoded =>
      compression.unpack (params.compression.filter (· ≠ "identity")) decoded maxMessageSize >>=
        checkMessageSize maxMessageSize

end ConnectRpc
