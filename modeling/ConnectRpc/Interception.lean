import ConnectRpc.Interceptors
import Mathlib.Data.List.Forall2

/-!
# Messages through interceptors

What interceptors do to the messages of a call. They see messages as payloads, and there are
six places where a payload becomes bytes: the request of a unary call, that of a
server-streaming call, each message of a request stream, the response of a unary call, that of a
client-streaming call, and each message of a response stream.

A stream is what polls of it answer here, so that an interceptor may hand on any other. What
interceptors and handlers do besides is up to a machine, as in `Lib.Chain`.
-/

namespace ConnectRpc.Interception

open Lib

/-! ## Streams -/

/-- A stream of payloads. -/
abbrev PayloadStream := List PayloadEvent

/-- A stream of encoded messages. -/
abbrev RequestStream := List (Poll (Except ConnectError Bytes))

/-- A message of a request stream, encoded. -/
def encodeItem : PayloadEvent → Poll (Except ConnectError Bytes)
  | .pending => .pending
  | .ready (.error e) => .ready (.error e)
  | .ready (.ok payload) => .ready payload.encoded

/-- `payload_stream_to_request_stream`. -/
def payloadStreamToRequestStream (stream : PayloadStream) : RequestStream :=
  stream.map encodeItem

/-- `request_stream_to_payload_stream`. -/
def requestStreamToPayloadStream (stream : RequestStream) (format : CodecFormat)
    (decodeOptions : DecodeOptions) : PayloadStream :=
  stream.map fun
    | .pending => .pending
    | .ready (.error e) => .ready (.error e)
    | .ready (.ok bytes) => .ready (.ok ((Payload.new bytes format).withDecodeOptions decodeOptions))

/-- Messages that are wrapped and unwrapped are the same. -/
theorem payloadStreamToRequestStream_requestStream (stream : RequestStream) (format : CodecFormat)
    (decodeOptions : DecodeOptions) :
    payloadStreamToRequestStream (requestStreamToPayloadStream stream format decodeOptions) =
      stream := by
  rw [payloadStreamToRequestStream, requestStreamToPayloadStream, List.map_map]
  refine List.map_id'' (fun item => ?_) stream
  rcases item with _ | _ | bytes <;> rfl

/-! ## Dispatchers and interceptors -/

/-- The code of an interceptor or a handler. -/
abbrev Code (Act Ans Req Res : Type) := Program Act Ans Req (Except ConnectError Res)

/-- A streaming request, and its messages. -/
structure StreamRequest (X : Type) where
  /-- the context -/
  ctx : RequestContext X
  /-- the messages -/
  inbound : PayloadStream

/-- An interceptor. -/
structure Interceptor (X Act Ans : Type) where
  /-- wrap a unary call -/
  interceptUnary : UnaryRequest X → Code Act Ans (UnaryRequest X) Interceptor.UnaryResponse
  /-- wrap a streaming call -/
  interceptStreaming : StreamRequest X → Code Act Ans (StreamRequest X) StreamResponse

/-- The methods that an interceptor has by default. -/
def Interceptor.passthrough {X Act Ans : Type} : Interceptor X Act Ans where
  interceptUnary req := .next req .answer
  interceptStreaming req := .next req .answer

/-- A dispatcher. -/
structure Dispatcher (X Act Ans : Type) where
  /-- call a unary handler -/
  callUnary : String → RequestContext X → Payload → CodecFormat → Code Act Ans Empty EncodedResponse
  /-- call a server-streaming handler -/
  callServerStreaming : String → RequestContext X → Bytes → CodecFormat →
    Code Act Ans Empty (HandlerResponse (List SourceEvent))
  /-- call a client-streaming handler -/
  callClientStreaming : String → RequestContext X → RequestStream → CodecFormat →
    Code Act Ans Empty EncodedResponse
  /-- call a bidi handler -/
  callBidiStreaming : String → RequestContext X → RequestStream → CodecFormat →
    Code Act Ans Empty (HandlerResponse (List SourceEvent))

/-- The messages of a request, as a dispatcher gets them. -/
inductive Requests : Type where
  | payload : Payload → Requests
  | message : Bytes → Requests
  | stream : RequestStream → Requests

/-- What a dispatcher is called with. -/
structure DispatcherCall (X : Type) where
  /-- the path -/
  path : String
  /-- the context -/
  ctx : RequestContext X
  /-- the messages -/
  requests : Requests
  /-- the format that was negotiated -/
  format : CodecFormat

/-- What happens in a call. -/
inductive CallEvent (X : Type) : Type where
  /-- an interceptor is entered -/
  | intercepted : ℕ → RequestContext X → CallEvent X
  /-- the dispatcher is called, with what the chain has handed on -/
  | dispatched : PayloadStream → DispatcherCall X → CallEvent X
  /-- the response of a unary call, as the chain has returned it, is encoded -/
  | answered : Payload → Except ConnectError Bytes → CallEvent X
  /-- that of a client-streaming call is -/
  | collapsed : PayloadStream → Except ConnectError Bytes → CallEvent X
  /-- that of another streaming call is -/
  | streamed : PayloadStream → List SourceEvent → CallEvent X

variable {X Act Ans : Type}

/-- What a call does. -/
abbrev CallFlow (X Act Ans Res : Type) := Flow Act Ans (CallEvent X) (Except ConnectError Res)

/-- Call the dispatcher. -/
def dispatch {Res : Type} (given : PayloadStream) (call : DispatcherCall X)
    (code : Code Act Ans Empty Res) : CallFlow X Act Ans Res :=
  .event (.dispatched given call) code.alone

/-- Go on with a response, if it is one. -/
def withResponse {Res Res' : Type} (f : CallFlow X Act Ans Res) (g : Res → CallFlow X Act Ans Res') :
    CallFlow X Act Ans Res' :=
  f.bind fun
    | .error e => .answer (.error e)
    | .ok resp => g resp

/-! ## Unary calls -/

/-- `Dispatcher::call_unary`. -/
def dispatchUnary (dispatcher : Dispatcher X Act Ans) (path : String) (format : CodecFormat)
    (req : UnaryRequest X) : CallFlow X Act Ans EncodedResponse :=
  dispatch [.ready (.ok req.payload)] ⟨path, req.ctx, .payload req.payload, format⟩
    (dispatcher.callUnary path req.ctx req.payload format)

/-- `DispatchTerminal`. -/
def dispatchTerminal (dispatcher : Dispatcher X Act Ans) (path : String) (format : CodecFormat)
    (req : UnaryRequest X) : CallFlow X Act Ans Interceptor.UnaryResponse :=
  withResponse (dispatchUnary dispatcher path format req) fun resp =>
    .answer (.ok (Interceptor.UnaryResponse.fromEncoded resp format))

/-- `UnaryResponse::into_encoded_as`, reported. -/
def answerUnary (format : CodecFormat) (resp : Interceptor.UnaryResponse) :
    CallFlow X Act Ans EncodedResponse :=
  .event (.answered resp.body (resp.body.encodedAs format)) (.answer (resp.intoEncodedAs format))

/-- `call_unary_intercepted`. -/
def callUnaryIntercepted (dispatcher : Dispatcher X Act Ans) (interceptors : List (Interceptor X Act Ans))
    (path : String) (ctx : RequestContext X) (body : Bytes) (format : CodecFormat) :
    CallFlow X Act Ans EncodedResponse :=
  let req : UnaryRequest X := ⟨ctx, (Payload.new body format).withDecodeOptions ctx.decodeOptions⟩
  if interceptors.isEmpty then dispatchUnary dispatcher path format req
  else
    withResponse (chain (fun n req => .intercepted n req.ctx) Interceptor.interceptUnary
      (dispatchTerminal dispatcher path format) 0 interceptors req) (answerUnary format)

/-! ## Streaming calls -/

/-- The chain of a streaming call. -/
def streamChain (interceptors : List (Interceptor X Act Ans))
    (terminal : StreamRequest X → CallFlow X Act Ans StreamResponse) :
    StreamRequest X → CallFlow X Act Ans StreamResponse :=
  chain (fun n req => .intercepted n req.ctx) Interceptor.interceptStreaming terminal 0 interceptors

/-- `StreamResponse::into_encoded`, reported. -/
def answerStream (resp : StreamResponse) : CallFlow X Act Ans (HandlerResponse (List SourceEvent)) :=
  .event (.streamed resp.body resp.intoEncoded.body) (.answer (.ok resp.intoEncoded))

/-- The one message of a stream. -/
def oneMessage (what : String) (stream : PayloadStream) : Except ConnectError Bytes :=
  match (ready stream).head? with
  | some (.ok payload) => payload.encoded
  | some (.error e) => .error e
  | none => .error (.internal s!"{what} without replacing it")

/-- `Dispatcher::call_server_streaming`. -/
def dispatchServerStreaming (dispatcher : Dispatcher X Act Ans) (path : String)
    (format : CodecFormat) (req : StreamRequest X) (body : Bytes) :
    CallFlow X Act Ans (HandlerResponse (List SourceEvent)) :=
  dispatch req.inbound ⟨path, req.ctx, .message body, format⟩
    (dispatcher.callServerStreaming path req.ctx body format)

/-- `ServerStreamingTerminal`. -/
def serverStreamingTerminal (dispatcher : Dispatcher X Act Ans) (path : String)
    (format : CodecFormat) (req : StreamRequest X) : CallFlow X Act Ans StreamResponse :=
  match oneMessage "server-streaming interceptor consumed the request" req.inbound with
  | .error e => .answer (.error e)
  | .ok body =>
    withResponse (dispatchServerStreaming dispatcher path format req body) fun resp =>
      .answer (.ok (StreamResponse.fromEncoded resp format))

/-- `call_server_streaming_intercepted`. -/
def callServerStreamingIntercepted (dispatcher : Dispatcher X Act Ans)
    (interceptors : List (Interceptor X Act Ans)) (path : String) (ctx : RequestContext X)
    (body : Bytes) (format : CodecFormat) : CallFlow X Act Ans (HandlerResponse (List SourceEvent)) :=
  let req : StreamRequest X :=
    ⟨ctx, [.ready (.ok ((Payload.new body format).withDecodeOptions ctx.decodeOptions))]⟩
  if interceptors.isEmpty then dispatchServerStreaming dispatcher path format req body
  else
    withResponse (streamChain interceptors (serverStreamingTerminal dispatcher path format) req)
      answerStream

/-- `Dispatcher::call_client_streaming`. -/
def dispatchClientStreaming (dispatcher : Dispatcher X Act Ans) (path : String)
    (format : CodecFormat) (req : StreamRequest X) : CallFlow X Act Ans EncodedResponse :=
  let requests := payloadStreamToRequestStream req.inbound
  dispatch req.inbound ⟨path, req.ctx, .stream requests, format⟩
    (dispatcher.callClientStreaming path req.ctx requests format)

/-- `ClientStreamingTerminal`: its one response as a stream of one. -/
def clientStreamingTerminal (dispatcher : Dispatcher X Act Ans) (path : String)
    (format : CodecFormat) (req : StreamRequest X) : CallFlow X Act Ans StreamResponse :=
  withResponse (dispatchClientStreaming dispatcher path format req) fun resp =>
    .answer (.ok (resp.mapBody fun body => [.ready (.ok (.new body.intoContiguous format))]))

/-- The one response of a client-streaming call, taken out of its stream again. -/
def answerOne (resp : StreamResponse) : CallFlow X Act Ans EncodedResponse :=
  let body := oneMessage "client-streaming interceptor consumed the response" resp.body
  .event (.collapsed resp.body body)
    (.answer (body.map fun body => resp.mapBody fun _ => .contiguous body))

/-- `call_client_streaming_intercepted`. -/
def callClientStreamingIntercepted (dispatcher : Dispatcher X Act Ans)
    (interceptors : List (Interceptor X Act Ans)) (path : String) (ctx : RequestContext X)
    (requests : RequestStream) (format : CodecFormat) : CallFlow X Act Ans EncodedResponse :=
  let inbound := requestStreamToPayloadStream requests format ctx.decodeOptions
  if interceptors.isEmpty then
    dispatch inbound ⟨path, ctx, .stream requests, format⟩
      (dispatcher.callClientStreaming path ctx requests format)
  else
    withResponse (streamChain interceptors (clientStreamingTerminal dispatcher path format)
      ⟨ctx, inbound⟩) answerOne

/-- `Dispatcher::call_bidi_streaming`. -/
def dispatchBidiStreaming (dispatcher : Dispatcher X Act Ans) (path : String)
    (format : CodecFormat) (req : StreamRequest X) :
    CallFlow X Act Ans (HandlerResponse (List SourceEvent)) :=
  let requests := payloadStreamToRequestStream req.inbound
  dispatch req.inbound ⟨path, req.ctx, .stream requests, format⟩
    (dispatcher.callBidiStreaming path req.ctx requests format)

/-- `BidiStreamingTerminal`. -/
def bidiStreamingTerminal (dispatcher : Dispatcher X Act Ans) (path : String)
    (format : CodecFormat) (req : StreamRequest X) : CallFlow X Act Ans StreamResponse :=
  withResponse (dispatchBidiStreaming dispatcher path format req) fun resp =>
    .answer (.ok (StreamResponse.fromEncoded resp format))

/-- `call_bidi_streaming_intercepted`. -/
def callBidiStreamingIntercepted (dispatcher : Dispatcher X Act Ans)
    (interceptors : List (Interceptor X Act Ans)) (path : String) (ctx : RequestContext X)
    (requests : RequestStream) (format : CodecFormat) :
    CallFlow X Act Ans (HandlerResponse (List SourceEvent)) :=
  let inbound := requestStreamToPayloadStream requests format ctx.decodeOptions
  if interceptors.isEmpty then
    dispatch inbound ⟨path, ctx, .stream requests, format⟩
      (dispatcher.callBidiStreaming path ctx requests format)
  else
    withResponse (streamChain interceptors (bidiStreamingTerminal dispatcher path format)
      ⟨ctx, inbound⟩) answerStream

/-! ## Runs -/

/-- A machine for interceptors and handlers; it reports nothing. -/
def quietly {σ : Type} (world : σ → Act → σ × Ans) (s : σ) (a : Act) :
    σ × List (CallEvent X) × Ans :=
  ((world s a).1, [], (world s a).2)

end ConnectRpc.Interception
