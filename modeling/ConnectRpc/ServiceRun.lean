import ConnectRpc.MessageTooLarge
import ConnectRpc.RequestRoundTrip

/-!
# A service at work on a request that it can read

When the checks of the head pass and the decode path of its form hands over the messages of a
request, `ConnectRpcService::call` runs the chain of interceptors on them and renders what the chain
answers. This file says which answer that is for each form (`unaryAnswer`, `serverStreamAnswer`,
`clientStreamAnswer`, `bidiAnswer`), and that the response is the rendering of this answer and of
nothing else.
-/

namespace ConnectRpc

open Lib

variable (cr : Crates) {X : Type}

/-! ## Receiving in time -/

/-- A body is received in time if its polls are pending no more often than there is time for. -/
def Course.InTime (course : Course) (body : RequestBody) : Prop :=
  pendings body.polls ≤ course.receipt

/-- Patience that lasts does not change what is collected. -/
theorem collectBodyLimited_patient {limit : ℕ} : ∀ {polls : List (Poll RequestFrame)}
    {patience : Option ℕ} {got : Bytes}, (∀ k ∈ patience, pendings polls ≤ k) →
      (collectBodyLimited (X := X) limit patience polls got).2 =
        (collectBodyLimited (X := X) limit none polls got).2
  | [], _, _, _ => rfl
  | .pending :: polls, none, _, _ => rfl
  | .pending :: polls, some 0, _, h => absurd (h 0 rfl) (Nat.not_succ_le_zero _)
  | .pending :: polls, some (k + 1), got, h => by
    rw [collectBodyLimited, collectBodyLimited]
    refine collectBodyLimited_patient fun k' hk' => ?_
    obtain rfl := Option.some.inj hk'
    exact Nat.le_of_succ_le_succ (h (k + 1) rfl)
  | .ready (.data d) :: polls, patience, got, h => by
    rw [collectBodyLimited, collectBodyLimited]
    split
    · rfl
    · exact collectBodyLimited_patient h
  | .ready .trailers :: polls, patience, got, h => by
    rw [collectBodyLimited, collectBodyLimited]
    exact collectBodyLimited_patient h
  | .ready (.failed e) :: polls, patience, got, h => by
    rw [collectBodyLimited, collectBodyLimited]

/-- A body that is received in time is collected as if there were no deadline. -/
theorem receive_inTime {limits : Limits} {course : Course} {body : RequestBody}
    (h : course.InTime body) (deadline : Option ℕ) :
    (receive (X := X) limits course deadline body).2 =
      (collectBodyLimited (X := X) limits.maxRequestBodySize none body.polls []).2 := by
  refine collectBodyLimited_patient fun k hk => ?_
  obtain ⟨_, -, rfl⟩ := Option.map_eq_some_iff.mp hk
  exact h

/-! ## Answers -/

namespace Service

variable (s : Service X)

/-- The context that the chain is given for a request. -/
def contextOf (req : HttpRequest X) (course : Course) (protocol : Protocol) : RequestContext X :=
  req.context (course.absoluteDeadline (s.metadataOf req protocol).timeout)
    ((s.descriptor req).bind (·.spec)) protocol (routePath req.path) (s.limitsOf req)

/-- What the chain answers to a unary call with this message. -/
def unaryAnswer (req : HttpRequest X) (course : Course) (protocol : Protocol) (codec : CodecFormat)
    (message : Bytes) : Except ConnectError EncodedResponse :=
  (runCall course (course.absoluteDeadline (s.metadataOf req protocol).timeout).isSome .none
    (callUnaryIntercepted s.dispatcher s.interceptors (routePath req.path)
      (s.contextOf req course protocol) message codec)).2

/-- What it answers to a server-streaming call. -/
def serverStreamAnswer (req : HttpRequest X) (course : Course) (protocol : Protocol)
    (codec : CodecFormat) (message : Bytes) :
    Except ConnectError (HandlerResponse (List SourceEvent)) :=
  (runCall course (course.absoluteDeadline (s.metadataOf req protocol).timeout).isSome .none
    (callServerStreamingIntercepted s.dispatcher s.interceptors (routePath req.path)
      (s.contextOf req course protocol) message codec)).2

/-- What it answers to a client-streaming call, whose messages it takes from the request
stream. -/
def clientStreamAnswer (req : HttpRequest X) (course : Course) (protocol : Protocol)
    (codec : CodecFormat) : Except ConnectError EncodedResponse :=
  (runCall course (s.metadataOf req protocol).timeout.isSome
    (.start (s.requestSetup (s.metadataOf req protocol) (s.limitsOf req)) req.body)
    (callClientStreamingIntercepted s.dispatcher s.interceptors (routePath req.path)
      (s.contextOf req course protocol) codec)).2

/-- What it answers to a bidi call, whose messages it takes from there as well. -/
def bidiAnswer (req : HttpRequest X) (course : Course) (protocol : Protocol)
    (codec : CodecFormat) : Except ConnectError (HandlerResponse (List SourceEvent)) :=
  (runCall course (s.metadataOf req protocol).timeout.isSome
    (.start (s.requestSetup (s.metadataOf req protocol) (s.limitsOf req)) req.body)
    (callBidiStreamingIntercepted s.dispatcher s.interceptors (routePath req.path)
      (s.contextOf req course protocol) codec)).2

/-- How the answer of a Connect unary call is rendered. -/
def unaryReply (metadata : RequestMetadata) (codec : CodecFormat)
    (answer : Except ConnectError EncodedResponse) : Response Bytes :=
  match answer.bind (s.unaryResponse cr metadata codec) with
  | .ok response => response
  | .error e => errorResponse cr e

/-- How that of a gRPC unary call is. -/
def grpcUnaryReply (protocol : Protocol) (h : protocol ≠ .connect) (metadata : RequestMetadata)
    (codec : CodecFormat) :
    Except ConnectError EncodedResponse → Option (Response GrpcUnaryBody)
  | .error e => some (grpcUnaryError cr e protocol h codec)
  | .ok resp => s.grpcUnaryResponse cr protocol h metadata codec resp

/-! ## Responses -/

section Run

variable {s : Service X} {req : HttpRequest X} {course : Course} {protocol : Protocol}
variable {codec : CodecFormat} {message b : Bytes} {desc : MethodDescriptor}

/-- The body of a checked request is received as it would have been before the checks. -/
theorem receive_checked (htime : course.InTime req.body)
    (hcollect : (collectBodyLimited (X := X) (s.limitsOf req).maxRequestBodySize none
      req.body.polls []).2 = .ok b) (deadline : Option ℕ) :
    (receive (X := X) (s.limitsOf (s.checked req)) course deadline (s.checked req).body).2 =
      .ok b := by
  have hreceive : (receive (X := X) (s.limitsOf req) course deadline req.body).2 = _ :=
    receive_inTime htime deadline
  exact hreceive.trans hcollect

/-- The errors of a Connect unary request are rendered as such. -/
theorem IsUnary.headError_eq (h : s.IsUnary req) (e : ConnectError) :
    s.headError req cr e = (errorResponse cr e).mapBody .full := by
  rcases h with hget | ⟨hpost, rp, hdetect, hstreaming⟩
  · rw [headError, if_pos hget]
  · have hget : req.method ≠ .GET := by
      rw [hpost]
      decide
    rw [headError, if_neg hget, hdetect]
    simp only [hstreaming, Bool.false_eq_true, if_false]

/-- **A Connect unary call** is answered with a rendering of what the chain answers, whether its
message comes in the body or in the query. -/
theorem call_unaryReads (hunary : s.IsUnary req) (hheads : s.HeadPasses req)
    (hroute : s.descriptor req = some desc) (htime : course.InTime req.body)
    (hcollect : (collectBodyLimited (X := X) (s.limitsOf req).maxRequestBodySize none
      req.body.polls []).2 = .ok b)
    (hrequest : s.unaryRequest (routePath req.path) (some desc) req (s.limitsOf req) b =
      .ok (desc, message, codec)) :
    (s.call cr req course).2 = some ((s.unaryReply cr (s.metadataOf req .connect) codec
      (s.unaryAnswer (s.checked req) course .connect codec message)).mapBody .full) := by
  have hroute' : s.descriptor (s.checked req) = some desc := hroute
  have hrequest' : s.unaryRequest (routePath (s.checked req).path) (some desc) (s.checked req)
      (s.limitsOf (s.checked req)) b = .ok (desc, message, codec) := hrequest
  have hhandle : (s.handleUnaryRequest cr (routePath (s.checked req).path)
      (s.descriptor (s.checked req)) (s.checked req) (s.limitsOf (s.checked req)) course).2 =
        (s.unaryAnswer (s.checked req) course .connect codec message).bind
          (s.unaryResponse cr (s.metadataOf req .connect) codec) := by
    simp only [handleUnaryRequest, Traced.andThen, receive_checked htime hcollect, hroute',
      hrequest', unaryAnswer, contextOf, Option.bind_some]
    rfl
  rw [call_unary cr course hunary hheads, handleUnary, Traced.map]
  simp only [hhandle, unaryReply, hunary.headError_eq]
  rcases (s.unaryAnswer (s.checked req) course .connect codec message).bind
    (s.unaryResponse cr (s.metadataOf req .connect) codec) with e | response
  · rfl
  · rfl

/-- A call by `POST`. -/
theorem call_connectUnary (hmethod : req.method = .POST) (hheads : s.HeadPasses req)
    (hdetect : Protocol.detect s.json req.headers = some ⟨.connect, codec, false, false⟩)
    (hroute : s.descriptor req = some desc) (htime : course.InTime req.body)
    (hcollect : (collectBodyLimited (X := X) (s.limitsOf req).maxRequestBodySize none
      req.body.polls []).2 = .ok b)
    (hread : s.postRequestBody (s.metadataOf req .connect) (s.limitsOf req) b =
      .ok (message, codec)) :
    (s.call cr req course).2 = some ((s.unaryReply cr (s.metadataOf req .connect) codec
      (s.unaryAnswer (s.checked req) course .connect codec message)).mapBody .full) := by
  have hget : req.method ≠ .GET := by
    rw [hmethod]
    decide
  apply call_unaryReads cr (.inr ⟨hmethod, _, hdetect, rfl⟩) hheads hroute htime hcollect
  rw [unaryRequest]
  simp only [if_neg hget, if_pos hmethod]
  exact congrArg (Except.map (desc, ·)) hread

/-- A call by `GET`. -/
theorem call_get (hmethod : req.method = .GET) (hheads : s.HeadPasses req)
    (hroute : s.descriptor req = some desc) (htime : course.InTime req.body)
    (hcollect : (collectBodyLimited (X := X) (s.limitsOf req).maxRequestBodySize none
      req.body.polls []).2 = .ok b)
    (hread : s.getRequestBody req.query desc (s.limitsOf req) = .ok (message, codec)) :
    (s.call cr req course).2 = some ((s.unaryReply cr (s.metadataOf req .connect) codec
      (s.unaryAnswer (s.checked req) course .connect codec message)).mapBody .full) := by
  apply call_unaryReads cr (.inl hmethod) hheads hroute htime hcollect
  rw [unaryRequest]
  simp only [if_pos hmethod]
  exact congrArg (Except.map (desc, ·)) hread

/-- **A gRPC unary call** is. -/
theorem call_grpcUnary (hp : protocol ≠ .connect) (hmethod : req.method = .POST)
    (hheads : s.HeadPasses req)
    (hdetect : Protocol.detect s.json req.headers = some ⟨protocol, codec, true, false⟩)
    (hroute : s.descriptor req = some desc) (hkind : desc.kind = .unary)
    (hsupported : s.unsupportedEncoding (s.metadataOf req protocol) = none)
    (htime : course.InTime req.body)
    (hcollect : (collectBodyLimited (X := X) (s.limitsOf req).maxRequestBodySize none
      req.body.polls []).2 = .ok b)
    (hread : grpcUnaryRequestBody protocol (s.requestSetup (s.metadataOf req protocol)
      (s.limitsOf req)) b = .ok message) :
    (s.call cr req course).2 = (s.grpcUnaryReply cr protocol hp (s.metadataOf req protocol) codec
      (s.unaryAnswer (s.checked req) course protocol codec message)).map
        fun r => r.mapBody .grpcUnary := by
  have hroute' : s.descriptor (s.checked req) = some desc := hroute
  have hpost : ¬(s.checked req).method ≠ .POST := fun h => h hmethod
  have hsupported' : s.unsupportedEncoding (s.metadataOf (s.checked req) protocol) = none :=
    hsupported
  have hread' : grpcUnaryRequestBody protocol (s.requestSetup (s.metadataOf (s.checked req) protocol)
      (s.limitsOf (s.checked req))) b = .ok message := hread
  have hdispatch : protocol ≠ .connect ∧
      (s.descriptor (s.checked req)).map MethodDescriptor.kind = some .unary := by
    rw [hroute', Option.map_some, hkind]
    exact ⟨hp, rfl⟩
  rw [call_enveloped cr course hmethod hdetect rfl hheads, handleEnveloped]
  simp only [Bool.false_eq_true, if_false, dif_pos hdispatch, Traced.map, handleGrpcUnaryRequest,
    if_neg hpost, hsupported', Traced.andThen, receive_checked htime hcollect, hread']
  rw [unaryAnswer, contextOf]
  generalize (runCall course _ _ _).2 = answer
  cases answer with
  | error e => rfl
  | ok resp => rfl

/-- A streaming request that is not refused comes to the handler of its kind. -/
theorem call_streaming {kind : MethodKind} (hmethod : req.method = .POST)
    (hheads : s.HeadPasses req)
    (hdetect : Protocol.detect s.json req.headers = some ⟨protocol, codec, true, false⟩)
    (hroute : s.descriptor req = some desc) (hkind : desc.kind = kind) (hstreams : kind ≠ .unary)
    (hsupported : s.unsupportedEncoding (s.metadataOf req protocol) = none) :
    (s.call cr req course).2 = some ((match kind with
      | .bidiStreaming =>
        s.handleBidiStreamingRequest cr (routePath req.path)
          ((s.descriptor (s.checked req)).bind (·.spec)) (s.checked req) protocol codec
          (s.limitsOf req) course
      | .clientStreaming =>
        s.handleClientStreamingRequest cr (routePath req.path)
          ((s.descriptor (s.checked req)).bind (·.spec)) (s.checked req) protocol codec
          (s.limitsOf req) course
      | _ =>
        s.handleSingleRequest cr (routePath req.path) (s.descriptor (s.checked req)) (s.checked req)
          protocol codec (s.limitsOf req) course).2.mapBody .streaming) := by
  have hroute' : s.descriptor (s.checked req) = some desc := hroute
  -- neither the fast path of gRPC nor one of the two refusals
  have hdispatch : ¬(protocol ≠ .connect ∧
      (s.descriptor (s.checked req)).map MethodDescriptor.kind = some .unary) := by
    rw [hroute', Option.map_some, hkind]
    rintro ⟨-, h⟩
    exact hstreams (Option.some.inj h)
  have hpost : ¬(protocol ≠ .connect ∧ (s.checked req).method ≠ .POST) := fun h => h.2 hmethod
  have hsupported' : s.unsupportedEncoding (s.metadataOf (s.checked req) protocol) = none :=
    hsupported
  rw [call_enveloped cr course hmethod hdetect rfl hheads, handleEnveloped]
  simp only [Bool.false_eq_true, if_false, dif_neg hdispatch, Traced.map, handleStreamingRequest,
    if_neg hpost, hsupported', hroute', Option.map_some, hkind]
  cases kind with
  | unary => exact absurd rfl hstreams
  | serverStreaming => rfl
  | clientStreaming => rfl
  | bidiStreaming => rfl

/-- **A server-streaming call** is answered with the stream that the chain answers. -/
theorem call_serverStream (hmethod : req.method = .POST) (hheads : s.HeadPasses req)
    (hdetect : Protocol.detect s.json req.headers = some ⟨protocol, codec, true, false⟩)
    (hroute : s.descriptor req = some desc) (hkind : desc.kind = .serverStreaming)
    (hsupported : s.unsupportedEncoding (s.metadataOf req protocol) = none)
    (htime : course.InTime req.body)
    (hcollect : (collectBodyLimited (X := X) (s.limitsOf req).maxRequestBodySize none
      req.body.polls []).2 = .ok b)
    (hread : serverStreamingRequestBody protocol (s.requestSetup (s.metadataOf req protocol)
      (s.limitsOf req)) b = .ok message) :
    (s.call cr req course).2 = some ((s.answerStreaming cr "failed to build streaming response"
      protocol (s.metadataOf req protocol) codec
        (s.serverStreamAnswer (s.checked req) course protocol codec message)).mapBody
          .streaming) := by
  have hroute' : s.descriptor (s.checked req) = some desc := hroute
  have hreceive : (receive (X := X) (s.limitsOf req) course
      (course.absoluteDeadline (s.metadataOf (s.checked req) protocol).timeout)
        (s.checked req).body).2 = .ok b := receive_checked htime hcollect _
  have hread' : serverStreamingRequestBody protocol
      (s.requestSetup (s.metadataOf (s.checked req) protocol) (s.limitsOf req)) b =
        .ok message := hread
  have hkind' : (s.descriptor (s.checked req)).map MethodDescriptor.kind =
      some .serverStreaming := by
    rw [hroute', Option.map_some, hkind]
  rw [call_streaming cr hmethod hheads hdetect hroute hkind (by decide) hsupported]
  simp only [handleSingleRequest, Traced.andThen, hreceive, hkind', dispatchKind, hread']
  rfl

/-- **A client-streaming call** is answered with a stream of the one message that the chain answers,
whatever the handler takes from the request stream. -/
theorem call_clientStream (hmethod : req.method = .POST) (hheads : s.HeadPasses req)
    (hdetect : Protocol.detect s.json req.headers = some ⟨protocol, codec, true, false⟩)
    (hroute : s.descriptor req = some desc) (hkind : desc.kind = .clientStreaming)
    (hsupported : s.unsupportedEncoding (s.metadataOf req protocol) = none) :
    (s.call cr req course).2 = some ((s.answerStreaming cr
      "failed to build client streaming response" protocol (s.metadataOf req protocol) codec
        ((s.clientStreamAnswer (s.checked req) course protocol codec).map oneItem)).mapBody
          .streaming) := by
  rw [call_streaming cr hmethod hheads hdetect hroute hkind (by decide) hsupported]
  rfl

/-- **A bidi call** is answered with the stream that the chain answers. -/
theorem call_bidi (hmethod : req.method = .POST) (hheads : s.HeadPasses req)
    (hdetect : Protocol.detect s.json req.headers = some ⟨protocol, codec, true, false⟩)
    (hroute : s.descriptor req = some desc) (hkind : desc.kind = .bidiStreaming)
    (hsupported : s.unsupportedEncoding (s.metadataOf req protocol) = none) :
    (s.call cr req course).2 = some ((s.answerStreaming cr
      "failed to build bidi streaming response" protocol (s.metadataOf req protocol) codec
        (s.bidiAnswer (s.checked req) course protocol codec)).mapBody .streaming) := by
  rw [call_streaming cr hmethod hheads hdetect hroute hkind (by decide) hsupported]
  rfl

end Run

end Service

end ConnectRpc
