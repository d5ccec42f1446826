import ConnectRpc.UnaryResponse
import ConnectRpc.RequestStream
import ConnectRpc.RequestMetadata
import ConnectRpc.Lib.Chain

/-!
# Interceptors

Handlers, the interceptors in front of them, and how a call runs through them. An
interceptor has three entry points: a check of the head of a request, and one wrapper for
unary calls and one for streaming calls. The code behind them is not part of the library,
so it is a `Program`, which may do anything that its arguments allow: hand the request on
to the rest of the chain, poll the request stream or let go of it, and answer.

`X` is the type of a request's extensions.
-/

namespace ConnectRpc

open Lib

/-! ## Payloads -/

/-- The body of a message, decoded and encoded when it is asked for. -/
structure Payload where
  /-- the bytes as received -/
  bytes : Bytes
  /-- the codec of the body -/
  format : CodecFormat
  /-- the message that has been put in its place, by how it is encoded -/
  replaced : Option (CodecFormat → Except ConnectError Bytes)
  /-- the limits on decoding it -/
  decodeOptions : DecodeOptions

namespace Payload

/-- `Payload::new`. -/
def new (bytes : Bytes) (format : CodecFormat) : Payload :=
  ⟨bytes, format, none, .new⟩

/-- `Payload::with_decode_options`. -/
def withDecodeOptions (p : Payload) (options : DecodeOptions) : Payload :=
  { p with decodeOptions := options }

/-- `Payload::encoded`: the bytes to send. -/
def encoded (p : Payload) : Except ConnectError Bytes :=
  match p.replaced with
  | none => .ok p.bytes
  | some encode => encode p.format

/-- `{:?}` of a codec. -/
def formatName : CodecFormat → String
  | .proto => "Proto"
  | .json => "Json"

/-- `Payload::encoded_as`. -/
def encodedAs (p : Payload) (format : CodecFormat) : Except ConnectError Bytes :=
  if format = p.format then p.encoded
  else
    match p.replaced with
    | some encode => encode format
    | none => .error (.internal (s!"payload carries {formatName p.format} wire bytes but the " ++
        s!"call negotiated {formatName format}"))

end Payload

/-! ## Requests and responses of a call -/

/-- What a handler is told about a request. -/
structure RequestContext (X : Type) where
  /-- the headers -/
  headers : HeaderMap
  /-- when the call has to be over -/
  deadline : Option ℕ
  /-- the extensions -/
  extensions : X
  /-- what was told about the method -/
  spec : Option Spec
  /-- the protocol -/
  protocol : Option Protocol
  /-- the path, with its leading slash -/
  path : Option String
  /-- the limits on decoding messages -/
  decodeOptions : DecodeOptions

/-- What a check of the head sees of a request; only the extensions may be changed. -/
structure RequestHead (X : Type) where
  /-- the path, with its leading slash -/
  path : String
  /-- what was told about the method -/
  spec : Option Spec
  /-- the headers -/
  headers : HeaderMap
  /-- the protocol -/
  protocol : Protocol
  /-- the extensions -/
  extensions : X

/-- A unary request. -/
structure UnaryRequest (X : Type) where
  /-- its context -/
  ctx : RequestContext X
  /-- its body -/
  payload : Payload

/-- The messages of a streaming request. -/
inductive Inbound : Type where
  /-- what a stream of one message yields first -/
  | once : Option (Except ConnectError Payload) → Inbound
  /-- those of the request stream, which is polled as part of the program -/
  | requests

/-- A streaming request, with its messages. -/
structure StreamRequest (X : Type) where
  /-- its context -/
  ctx : RequestContext X
  /-- its messages -/
  inbound : Inbound

/-- A unary response, as interceptors see it. -/
abbrev Interceptor.UnaryResponse := HandlerResponse Payload

/-- What a poll of a stream of payloads answers. -/
abbrev PayloadEvent := Poll (Except ConnectError Payload)

/-- A streaming response. -/
abbrev StreamResponse := HandlerResponse (List PayloadEvent)

/-- Another body. -/
def HandlerResponse.mapBody {β γ : Type} (r : HandlerResponse β) (f : β → γ) : HandlerResponse γ :=
  ⟨f r.body, r.headers, r.trailers, r.compress⟩

/-- `UnaryResponse::from_encoded`. -/
def Interceptor.UnaryResponse.fromEncoded (resp : EncodedResponse) (format : CodecFormat) :
    Interceptor.UnaryResponse :=
  resp.mapBody fun body => .new body.intoContiguous format

/-- `UnaryResponse::into_encoded_as`. -/
def Interceptor.UnaryResponse.intoEncodedAs (resp : Interceptor.UnaryResponse)
    (format : CodecFormat) : Except ConnectError EncodedResponse :=
  (resp.body.encodedAs format).map fun body => resp.mapBody fun _ => .contiguous body

/-- `StreamResponse::from_encoded`. -/
def StreamResponse.fromEncoded (resp : HandlerResponse (List SourceEvent)) (format : CodecFormat) :
    StreamResponse :=
  resp.mapBody fun source => source.map fun
    | .pending => .pending
    | .item body => .ready (.ok (.new body.intoContiguous format))
    | .error e => .ready (.error e)

/-- `StreamResponse::into_encoded`. -/
def StreamResponse.intoEncoded (resp : StreamResponse) : HandlerResponse (List SourceEvent) :=
  resp.mapBody fun source => source.map fun
    | .pending => .pending
    | .ready (.error e) => .error e
    | .ready (.ok payload) =>
      match payload.encoded with
      | .ok body => .item (.contiguous body)
      | .error e => .error e

/-! ## Interceptors and handlers -/

/-- What a poll of the request stream has answered, if it was a poll and did. -/
abbrev StreamAnswer := Option (Option (Except ConnectError Bytes))

/-- The code of an interceptor or a handler, once it is called. -/
abbrev Code (Req Res : Type) := Program RequestAction StreamAnswer Req (Except ConnectError Res)

/-- An interceptor. -/
structure Interceptor (X : Type) where
  /-- check a head: the verdict, and the extensions after it -/
  interceptHead : RequestHead X → Except ConnectError Unit × X
  /-- wrap a unary call -/
  interceptUnary : UnaryRequest X → Code (UnaryRequest X) Interceptor.UnaryResponse
  /-- wrap a streaming call -/
  interceptStreaming : StreamRequest X → Code (StreamRequest X) StreamResponse

/-- The methods that an interceptor has by default. -/
def Interceptor.passthrough {X : Type} : Interceptor X where
  interceptHead head := (.ok (), head.extensions)
  interceptUnary req := .next req .answer
  interceptStreaming req := .next req .answer

/-- The routes of a service. -/
structure Dispatcher (X : Type) where
  /-- the descriptor of a path without its leading slash -/
  lookup : String → Option MethodDescriptor
  /-- call a unary handler -/
  callUnary : String → RequestContext X → Payload → CodecFormat → Code Empty EncodedResponse
  /-- call a server-streaming handler -/
  callServerStreaming : String → RequestContext X → Bytes → CodecFormat →
    Code Empty (HandlerResponse (List SourceEvent))
  /-- call a client-streaming handler -/
  callClientStreaming : String → RequestContext X → Inbound → CodecFormat →
    Code Empty EncodedResponse
  /-- call a bidi handler -/
  callBidiStreaming : String → RequestContext X → Inbound → CodecFormat →
    Code Empty (HandlerResponse (List SourceEvent))

/-- What can be observed of a service at work on a request. -/
inductive ServiceEvent (X : Type) : Type where
  /-- the check of the head by an interceptor has returned -/
  | head : ℕ → Except ConnectError Unit → ServiceEvent X
  /-- the service itself has polled the body -/
  | bodyPolled : Poll (Option RequestFrame) → ServiceEvent X
  /-- the service calls the chain, with the message if it has read it -/
  | called : RequestContext X → Option Bytes → ServiceEvent X
  /-- an interceptor wraps the call -/
  | intercepted : ℕ → RequestContext X → ServiceEvent X
  /-- the handler runs -/
  | handled : RequestContext X → ServiceEvent X
  /-- something is observed of the request stream -/
  | request : RequestEvent → ServiceEvent X

variable {X : Type}

/-- What a call does. -/
abbrev CallFlow (X Res : Type) :=
  Flow RequestAction StreamAnswer (ServiceEvent X) (Except ConnectError Res)

/-- Run a handler. -/
def runHandler {Res : Type} (ctx : RequestContext X) (code : Code Empty Res) : CallFlow X Res :=
  .event (.handled ctx) code.alone

/-- `DispatchTerminal`. -/
def dispatchTerminal (dispatcher : Dispatcher X) (path : String) (format : CodecFormat)
    (req : UnaryRequest X) : CallFlow X Interceptor.UnaryResponse :=
  (runHandler req.ctx (dispatcher.callUnary path req.ctx req.payload format)).map
    fun resp => resp.map (Interceptor.UnaryResponse.fromEncoded · format)

/-- `call_unary_intercepted`. -/
def callUnaryIntercepted (dispatcher : Dispatcher X) (interceptors : List (Interceptor X))
    (path : String) (ctx : RequestContext X) (body : Bytes) (format : CodecFormat) :
    CallFlow X EncodedResponse :=
  let payload := (Payload.new body format).withDecodeOptions ctx.decodeOptions
  .event (.called ctx (some body)) <|
    if interceptors.isEmpty then
      runHandler ctx (dispatcher.callUnary path ctx payload format)
    else
      (chain (fun n req => .intercepted n req.ctx) Interceptor.interceptUnary
        (dispatchTerminal dispatcher path format) 0 interceptors ⟨ctx, payload⟩).map
          fun resp => resp.bind (Interceptor.UnaryResponse.intoEncodedAs · format)

/-- The chain of a streaming call. -/
def streamChain (interceptors : List (Interceptor X))
    (terminal : StreamRequest X → CallFlow X StreamResponse) :
    StreamRequest X → CallFlow X StreamResponse :=
  chain (fun n req => .intercepted n req.ctx) Interceptor.interceptStreaming terminal 0 interceptors

/-- The message of a stream of one, as a server-streaming handler gets it. -/
def Inbound.message : Inbound → Except ConnectError Bytes
  | .once (some (.ok payload)) => payload.encoded
  | .once (some (.error e)) => .error e
  | .once none => .error (.internal
      "server-streaming interceptor consumed the request without replacing it")
  | .requests => .error (.internal
      "server-streaming interceptor consumed the request without replacing it")

/-- `ServerStreamingTerminal`. -/
def serverStreamingTerminal (dispatcher : Dispatcher X) (path : String) (format : CodecFormat)
    (req : StreamRequest X) : CallFlow X StreamResponse :=
  match req.inbound.message with
  | .error e => .answer (.error e)
  | .ok body =>
    (runHandler req.ctx (dispatcher.callServerStreaming path req.ctx body format)).map
      fun resp => resp.map (StreamResponse.fromEncoded · format)

/-- `call_server_streaming_intercepted`. -/
def callServerStreamingIntercepted (dispatcher : Dispatcher X) (interceptors : List (Interceptor X))
    (path : String) (ctx : RequestContext X) (body : Bytes) (format : CodecFormat) :
    CallFlow X (HandlerResponse (List SourceEvent)) :=
  .event (.called ctx (some body)) <|
    if interceptors.isEmpty then
      runHandler ctx (dispatcher.callServerStreaming path ctx body format)
    else
      let payload := (Payload.new body format).withDecodeOptions ctx.decodeOptions
      (streamChain interceptors (serverStreamingTerminal dispatcher path format)
        ⟨ctx, .once (some (.ok payload))⟩).map fun resp => resp.map StreamResponse.intoEncoded

/-- `ClientStreamingTerminal`: its one response as a stream of one. -/
def clientStreamingTerminal (dispatcher : Dispatcher X) (path : String) (format : CodecFormat)
    (req : StreamRequest X) : CallFlow X StreamResponse :=
  (runHandler req.ctx (dispatcher.callClientStreaming path req.ctx req.inbound format)).map
    fun resp => resp.map fun resp =>
      resp.mapBody fun body => [.ready (.ok (.new body.intoContiguous format))]

/-- The one response of a client-streaming call, taken out of its stream again. -/
def StreamResponse.one (resp : StreamResponse) : Except ConnectError EncodedResponse :=
  match (ready resp.body).head? with
  | some (.ok payload) => payload.encoded.map fun body => resp.mapBody fun _ => .contiguous body
  | some (.error e) => .error e
  | none => .error (.internal
      "client-streaming interceptor consumed the response without replacing it")

/-- `call_client_streaming_intercepted`. -/
def callClientStreamingIntercepted (dispatcher : Dispatcher X) (interceptors : List (Interceptor X))
    (path : String) (ctx : RequestContext X) (format : CodecFormat) : CallFlow X EncodedResponse :=
  .event (.called ctx none) <|
    if interceptors.isEmpty then
      runHandler ctx (dispatcher.callClientStreaming path ctx .requests format)
    else
      (streamChain interceptors (clientStreamingTerminal dispatcher path format)
        ⟨ctx, .requests⟩).map fun resp => resp.bind StreamResponse.one

/-- `BidiStreamingTerminal`. -/
def bidiStreamingTerminal (dispatcher : Dispatcher X) (path : String) (format : CodecFormat)
    (req : StreamRequest X) : CallFlow X StreamResponse :=
  (runHandler req.ctx (dispatcher.callBidiStreaming path req.ctx req.inbound format)).map
    fun resp => resp.map (StreamResponse.fromEncoded · format)

/-- `call_bidi_streaming_intercepted`. -/
def callBidiStreamingIntercepted (dispatcher : Dispatcher X) (interceptors : List (Interceptor X))
    (path : String) (ctx : RequestContext X) (format : CodecFormat) :
    CallFlow X (HandlerResponse (List SourceEvent)) :=
  .event (.called ctx none) <|
    if interceptors.isEmpty then
      runHandler ctx (dispatcher.callBidiStreaming path ctx .requests format)
    else
      (streamChain interceptors (bidiStreamingTerminal dispatcher path format)
        ⟨ctx, .requests⟩).map fun resp => resp.map StreamResponse.intoEncoded

/-! ## Heads -/

/-- The checks of a head from the `n`th interceptor on, up to the first that fails; what
they report, and the extensions after them. -/
def runHeads : ℕ → List (Interceptor X) → RequestHead X →
    List (ServiceEvent X) × X × Except ConnectError Unit
  | _, [], head => ([], head.extensions, .ok ())
  | n, i :: rest, head =>
    match i.interceptHead head with
    | (.error e, extensions) => ([.head n (.error e)], extensions, .error e)
    | (.ok (), extensions) =>
      let r := runHeads (n + 1) rest { head with extensions := extensions }
      (.head n (.ok ()) :: r.1, r.2)

end ConnectRpc
