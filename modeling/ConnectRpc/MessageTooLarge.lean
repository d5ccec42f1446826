import ConnectRpc.MessageLimit

/-!
# Requests with a message that is too large

What becomes of a call whose request has a message beyond the limit. Where the service reads
the message itself, before it calls the chain, the call fails with a `ResourceExhausted`
and no code runs (`call_oversized`). Where the handler reads a stream of messages, the
error is what the stream yields in place of the message (`call_streams_oversized`), and
it is for the handler to say what the call answers.
-/

namespace ConnectRpc

open Lib

variable {X : Type}

/-! ## The request stream of a call -/

/-- What an event tells of the request stream. -/
def ServiceEvent.ofRequest : ServiceEvent X → Option RequestEvent
  | .request ev => some ev
  | _ => none

/-- What is observed of the request stream. -/
def requestEvents (evs : List (ServiceEvent X)) : List RequestEvent :=
  evs.filterMap ServiceEvent.ofRequest

theorem requestEvents_append (evs evs' : List (ServiceEvent X)) :
    requestEvents (evs ++ evs') = requestEvents evs ++ requestEvents evs' :=
  List.filterMap_append

theorem requestEvents_requests (evs : List RequestEvent) :
    requestEvents (evs.map (ServiceEvent.request : RequestEvent → ServiceEvent X)) = evs := by
  rw [requestEvents, List.filterMap_map]
  exact List.filterMap_some

theorem requestEvents_passed (n : ℕ) : requestEvents (passed n : List (ServiceEvent X)) = [] := by
  rw [requestEvents, List.filterMap_eq_nil_iff]
  intro ev hev
  obtain ⟨i, rfl⟩ := mem_passed hev
  rfl

/-- Entering code tells nothing of the request stream. -/
theorem entered_elsewhere (K : RequestContext X → Prop) :
    Entered (fun ev : ServiceEvent X => ev.ofRequest = none) K :=
  ⟨fun _ _ _ => rfl, fun _ _ => rfl⟩

/-- **The request stream of a call** goes through a run of its own, whatever the call does. -/
theorem requestEvents_runCall {Res : Type} {course : Course} {limited : Bool}
    {requests : RequestRun} {flow : CallFlow X Res}
    (hflow : flow.Emits fun ev => ev.ofRequest = none) :
    ∃ as, requestEvents (runCall course limited requests flow).1 = requests.trace as := by
  have hkeeps : ∃ done, ∀ as,
      requests.trace (done ++ as) =
        requestEvents (flow.run requestStep (if limited then some course.call else none)
            requests).1 ++
          (flow.run requestStep (if limited then some course.call else none)
            requests).2.1.trace as := by
    refine @Flow.run_keeps _ _ _ _ _ _
      (fun evs (r : RequestRun) => ∃ done, ∀ as,
        requests.trace (done ++ as) = requestEvents evs ++ r.trace as)
      requestStep ?_ ?_ flow _ [] requests hflow ⟨[], fun as => rfl⟩
    · rintro evs r a ⟨done, h⟩
      refine ⟨done ++ [a], fun as => ?_⟩
      have hstep : requestEvents (requestStep r a : RequestRun × List (ServiceEvent X) × _).2.1 =
          (r.step a).2 := requestEvents_requests _
      rw [List.append_assoc, requestEvents_append, hstep, List.append_assoc]
      exact h (a :: as)
    · rintro evs r e he ⟨done, h⟩
      refine ⟨done, fun as => ?_⟩
      have hnone : requestEvents [e] = [] := by
        rw [requestEvents, List.filterMap_cons_none he, List.filterMap_nil]
      rw [requestEvents_append, hnone, List.append_nil]
      exact h as
  obtain ⟨done, h⟩ := hkeeps
  rw [runCall]
  split
  · refine ⟨done ++ course.afterwards, ?_⟩
    rw [requestEvents_append, requestEvents_requests]
    exact (h _).symm
  · refine ⟨done ++ .drop :: course.afterwards, ?_⟩
    rw [requestEvents_append, requestEvents_requests]
    exact (h _).symm

/-! ## Requests whose head passes -/

namespace Service

variable (cr : Crates) (s : Service X) (req : HttpRequest X) (course : Course)

/-- All checks of the head pass. -/
def HeadPasses : Prop :=
  (s.interceptHeads req (s.headProtocol req)).2.2 = .ok ()

/-- The request is a Connect unary one. -/
def IsUnary : Prop :=
  req.method = .GET ∨ req.method = .POST ∧
    ∃ rp, Protocol.detect s.json req.headers = some rp ∧ rp.isStreaming = false

variable {s req}

/-- The checks of a Connect unary request are told so. -/
theorem IsUnary.headProtocol_eq (h : s.IsUnary req) : s.headProtocol req = .connect := by
  rcases h with hget | ⟨hpost, rp, hdetect, hstreaming⟩
  · exact if_pos hget
  · have hget : req.method ≠ .GET := by
      rw [hpost]
      decide
    rw [headProtocol, if_neg hget, hdetect]
    simp only [hstreaming, Bool.false_eq_true, if_false]

/-- The checks of a request with enveloped messages are told its protocol. -/
theorem headProtocol_enveloped {rp : RequestProtocol} (hpost : req.method = .POST)
    (hdetect : Protocol.detect s.json req.headers = some rp) (hstreaming : rp.isStreaming = true) :
    s.headProtocol req = rp.protocol := by
  have hget : req.method ≠ .GET := by
    rw [hpost]
    decide
  rw [headProtocol, if_neg hget, hdetect]
  simp only [hstreaming, if_true]

theorem afterHeads_passes {α : Type} {protocol : Protocol} {failed : ConnectError → α}
    {go : HttpRequest X → Traced X α} (h : (s.interceptHeads req protocol).2.2 = .ok ()) :
    s.afterHeads req protocol failed go =
      (passed s.interceptors.length ++ (go (s.interceptHeads req protocol).2.1).1,
        (go (s.interceptHeads req protocol).2.1).2) := by
  rcases runHeads_cases s.interceptors 0 (s.requestHead req protocol) with
    ⟨ext, hrun⟩ | ⟨k, e, ext, -, hrun⟩
  · rw [afterHeads, interceptHeads, hrun, passed, List.range_eq_range']
  · rw [interceptHeads, hrun] at h
    cases h

/-- A Connect unary request goes on to its handler. -/
theorem call_unary (hunary : s.IsUnary req) (hpasses : s.HeadPasses req) :
    s.call cr req course =
      (passed s.interceptors.length ++ (s.handleUnary cr course (s.checked req)).1,
        match (s.handleUnary cr course (s.checked req)).2 with
        | .ok response => response
        | .error e => some (s.headError req cr e)) := by
  have hprotocol := hunary.headProtocol_eq
  rw [HeadPasses, hprotocol] at hpasses
  rw [checked, hprotocol]
  rcases hunary with hget | ⟨hpost, rp, hdetect, hstreaming⟩
  · have herror : ∀ e, s.headError req cr e = (errorResponse cr e).mapBody .full := by
      intro e
      rw [headError, if_pos hget]
    have hverb : ¬ (req.method ≠ .GET ∧ req.method ≠ .POST) := fun h => h.1 hget
    rw [call, handleRequest, if_neg hverb, if_pos hget, afterHeads_passes hpasses]
    simp only [herror]
    rfl
  · have hget : req.method ≠ .GET := by
      rw [hpost]
      decide
    have herror : ∀ e, s.headError req cr e = (errorResponse cr e).mapBody .full := by
      intro e
      rw [headError, if_neg hget, hdetect]
      simp only [hstreaming, Bool.false_eq_true, if_false]
    have hverb : ¬ (req.method ≠ .GET ∧ req.method ≠ .POST) := fun h => h.2 hpost
    rw [call, handleRequest, if_neg hverb, if_neg hget, hdetect]
    simp only [hstreaming, Bool.false_eq_true, if_false]
    rw [afterHeads_passes hpasses]
    simp only [herror]
    rfl

/-- A request with enveloped messages goes on to its handler. -/
theorem call_enveloped {rp : RequestProtocol} (hpost : req.method = .POST)
    (hdetect : Protocol.detect s.json req.headers = some rp) (hstreaming : rp.isStreaming = true)
    (hpasses : s.HeadPasses req) :
    s.call cr req course =
      (passed s.interceptors.length ++ (s.handleEnveloped cr rp course (s.checked req)).1,
        (s.handleEnveloped cr rp course (s.checked req)).2) := by
  have hget : req.method ≠ .GET := by
    rw [hpost]
    decide
  have hverb : ¬ (req.method ≠ .GET ∧ req.method ≠ .POST) := fun h => h.2 hpost
  rw [HeadPasses, headProtocol_enveloped hpost hdetect hstreaming] at hpasses
  rw [call, handleRequest, if_neg hverb, if_neg hget, hdetect]
  simp only [hstreaming, if_true]
  rw [afterHeads_passes hpasses, checked, headProtocol_enveloped hpost hdetect hstreaming]
  rfl

end Service

/-! ## Messages that the service reads -/

/-- A message that is too large is refused when it is decompressed, or when its length is
checked. -/
theorem unpack_oversized {reg : CompressionRegistry} (hreports : reg.ReportsExcess)
    {encoding : Option String} {sent d : Bytes} {limit : ℕ} (hd : reg.Expands encoding sent d)
    (hlimit : limit < d.length) :
    ∃ err : ConnectError, err.code = .resourceExhausted ∧
      (reg.unpack encoding sent limit = .error err ∨
        reg.unpack encoding sent limit = .ok sent ∧ checkMessageSize limit sent = .error err) := by
  rcases encoding with _ | encoding
  · obtain rfl : d = sent := hd
    exact ⟨messageTooLarge d.length limit, rfl, .inr ⟨rfl, if_pos hlimit⟩⟩
  · obtain ⟨err, herr, hcode⟩ := hreports.refused hd hlimit
    exact ⟨err, hcode, .inl herr⟩

namespace Service

/-- A request whose message is read by the service, from the query or from this body, and is
too large. The checks that come before the message is read find nothing. -/
inductive ReadsOversized (s : Service X) (req : HttpRequest X) (postBody : Bytes) : Prop where
  /-- from the query -/
  | get {desc : MethodDescriptor} {params : GetQueryParams} {encodedMessage : String}
      {sent d : Bytes} : req.method = .GET → s.descriptor req = some desc →
      desc.idempotent = true → parseGetQueryParams req.query = .ok params →
      params.connectVersion.any (· ≠ "v1") = false → params.message = some encodedMessage →
      params.sent s.base64Error encodedMessage = .ok sent →
      s.compression.Expands (params.compression.filter (· ≠ "identity")) sent d →
      (s.limitsOf req).maxMessageSize < d.length → ReadsOversized s req postBody
  /-- the body is the message -/
  | post {rp : RequestProtocol} {desc : MethodDescriptor} {codec : CodecFormat} {d : Bytes} :
      req.method = .POST → Protocol.detect s.json req.headers = some rp →
      rp.isStreaming = false → s.descriptor req = some desc →
      (s.metadataOf req .connect).protocolVersion.any (· ≠ "1") = false →
      CodecFormat.fromContentType s.json
        ((s.metadataOf req .connect).contentType.getD "application/proto") = some codec →
      s.compression.Expands (s.metadataOf req .connect).unaryEncoding postBody d →
      (s.limitsOf req).maxMessageSize < d.length → ReadsOversized s req postBody
  /-- the body is one envelope -/
  | enveloped {rp : RequestProtocol} : req.method = .POST →
      Protocol.detect s.json req.headers = some rp → rp.isStreaming = true →
      rp.isTextMode = false → s.unsupportedEncoding (s.metadataOf req rp.protocol) = none →
      ((s.descriptor req).map MethodDescriptor.kind = some .serverStreaming ∨
        rp.protocol ≠ .connect ∧ (s.descriptor req).map MethodDescriptor.kind = some .unary) →
      OversizedEnvelope (s.requestSetup (s.metadataOf req rp.protocol) (s.limitsOf req)) []
        postBody → ReadsOversized s req postBody

/-- What a call answers that fails with an error. -/
inductive FailsWith (cr : Crates) (s : Service X) (req : HttpRequest X) (err : ConnectError) :
    Option (Response ConnectRpcBody) → Prop where
  /-- the error in the protocol of the request -/
  | error : FailsWith cr s req err (some (s.headError req cr err))
  /-- the same for a unary call of gRPC -/
  | grpcUnary {rp : RequestProtocol} (h : rp.protocol ≠ .connect) :
      Protocol.detect s.json req.headers = some rp → FailsWith cr s req err
        (some ((grpcUnaryError cr err rp.protocol h rp.codecFormat).mapBody .grpcUnary))

section Whole

variable (cr : Crates) {s : Service X} {req : HttpRequest X} (course : Course) {postBody : Bytes}

/-- The message of a Connect unary request that is too large is refused. -/
theorem unaryRequest_get {path : String} {desc : MethodDescriptor} {params : GetQueryParams}
    {encodedMessage : String} {sent d : Bytes} {limits : Limits}
    (hreports : s.compression.ReportsExcess) (hget : req.method = .GET)
    (hidempotent : desc.idempotent = true) (hparams : parseGetQueryParams req.query = .ok params)
    (hversion : params.connectVersion.any (· ≠ "v1") = false)
    (hmessage : params.message = some encodedMessage)
    (hsent : params.sent s.base64Error encodedMessage = .ok sent)
    (hd : s.compression.Expands (params.compression.filter (· ≠ "identity")) sent d)
    (hlimit : limits.maxMessageSize < d.length) :
    ∃ err : ConnectError, err.code = .resourceExhausted ∧
      s.unaryRequest path (some desc) req limits postBody = .error err := by
  obtain ⟨err, hcode, hunpack⟩ := unpack_oversized hreports hd hlimit
  have hdecode : decodeGetMessage s.base64Error params s.compression limits.maxMessageSize =
      .error err := by
    rw [decodeGetMessage, hmessage]
    simp only [hsent]
    rcases hunpack with hunpack | ⟨hunpack, hcheck⟩
    · exact congrArg (· >>= checkMessageSize limits.maxMessageSize) hunpack
    · exact (congrArg (· >>= checkMessageSize limits.maxMessageSize) hunpack).trans hcheck
  have hbody : s.getRequestBody req.query desc limits = .error err := by
    have hguard : ¬ desc.idempotent = false := by
      rw [hidempotent]
      decide
    have hversion' : ¬ params.connectVersion.any (· ≠ "v1") = true := by
      rw [hversion]
      decide
    rw [getRequestBody, if_neg hguard, hparams]
    change (if params.connectVersion.any (· ≠ "v1") = true then _ else _) = _
    rw [if_neg hversion', hdecode]
    rfl
  refine ⟨err, hcode, ?_⟩
  rw [unaryRequest]
  simp only [if_pos hget, hbody]
  rfl

theorem unaryRequest_post {path : String} {desc : MethodDescriptor} {codec : CodecFormat}
    {d : Bytes} {limits : Limits} (hreports : s.compression.ReportsExcess)
    (hpost : req.method = .POST)
    (hversion : (s.metadataOf req .connect).protocolVersion.any (· ≠ "1") = false)
    (hcodec : CodecFormat.fromContentType s.json
      ((s.metadataOf req .connect).contentType.getD "application/proto") = some codec)
    (hd : s.compression.Expands (s.metadataOf req .connect).unaryEncoding postBody d)
    (hlimit : limits.maxMessageSize < d.length) :
    ∃ err : ConnectError, err.code = .resourceExhausted ∧
      s.unaryRequest path (some desc) req limits postBody = .error err := by
  obtain ⟨err, hcode, hunpack⟩ := unpack_oversized hreports hd hlimit
  have hbody : s.postRequestBody (s.metadataOf req .connect) limits postBody = .error err := by
    have hversion' : ¬ (s.metadataOf req .connect).protocolVersion.any (· ≠ "1") = true := by
      rw [hversion]
      decide
    rw [postRequestBody, if_neg hversion']
    simp only [hcodec]
    rcases hunpack with hunpack | ⟨hunpack, hcheck⟩
    · rw [hunpack]
      rfl
    · rw [hunpack]
      exact congrArg (Except.map fun body => (body, codec)) hcheck
  have hget : ¬ req.method = .GET := by
    rw [hpost]
    decide
  refine ⟨err, hcode, ?_⟩
  rw [unaryRequest]
  simp only [if_neg hget, if_pos hpost, hbody]
  rfl

/-- A refused message is all that comes of a Connect unary request. -/
theorem handleUnary_refused {err : ConnectError}
    (hreceive : (receive (s.limitsOf req) course
      (course.absoluteDeadline (s.metadataOf req .connect).timeout) req.body :
        Traced X _).2 = .ok postBody)
    (hrefused : s.unaryRequest (routePath req.path) (s.descriptor req) req (s.limitsOf req)
      postBody = .error err) :
    s.handleUnary cr course req =
      ((receive (s.limitsOf req) course
        (course.absoluteDeadline (s.metadataOf req .connect).timeout) req.body).1, .error err) := by
  rw [handleUnary, handleUnaryRequest, Traced.andThen, hreceive]
  simp only [hrefused]
  rw [Traced.map, Traced.pure, List.append_nil]
  rfl

/-- So it is for a unary call of gRPC. -/
theorem handleGrpcUnaryRequest_refused {path : String} {spec : Option Spec} {protocol : Protocol}
    (h : protocol ≠ .connect) {codec : CodecFormat} {limits : Limits} {err : ConnectError}
    (hpost : req.method = .POST) (hencoding : s.unsupportedEncoding (s.metadataOf req protocol) = none)
    (hreceive : (receive limits course
      (course.absoluteDeadline (s.metadataOf req protocol).timeout) req.body :
        Traced X _).2 = .ok postBody)
    (hrefused : grpcUnaryRequestBody protocol (s.requestSetup (s.metadataOf req protocol) limits)
      postBody = .error err) :
    s.handleGrpcUnaryRequest cr path spec req protocol h codec limits course =
      ((receive limits course (course.absoluteDeadline (s.metadataOf req protocol).timeout)
        req.body).1, some (grpcUnaryError cr err protocol h codec)) := by
  have hverb : ¬ req.method ≠ .POST := fun hne => hne hpost
  rw [handleGrpcUnaryRequest, if_neg hverb, hencoding]
  simp only [Traced.andThen, hreceive, hrefused]
  rw [Traced.pure, List.append_nil]

/-- And for a streaming request with one message. -/
theorem handleSingleRequest_refused {path : String} {desc : Option MethodDescriptor}
    {protocol : Protocol} {codec : CodecFormat} {limits : Limits} {err : ConnectError}
    (hkind : desc.map MethodDescriptor.kind = some .serverStreaming)
    (hreceive : (receive limits course
      (course.absoluteDeadline (s.metadataOf req protocol).timeout) req.body :
        Traced X _).2 = .ok postBody)
    (hrefused : serverStreamingRequestBody protocol
      (s.requestSetup (s.metadataOf req protocol) limits) postBody = .error err) :
    s.handleSingleRequest cr path desc req protocol codec limits course =
      ((receive limits course (course.absoluteDeadline (s.metadataOf req protocol).timeout)
        req.body).1, streamingError cr protocol codec err) := by
  have hdispatch : dispatchKind path protocol (desc.map MethodDescriptor.kind) =
      .ok .serverStreaming := by
    rw [hkind]
    rfl
  rw [handleSingleRequest]
  simp only [Traced.andThen, hreceive, hdispatch, hrefused]
  rw [Traced.pure, List.append_nil]

section Enveloped

variable {rp : RequestProtocol} {err : ConnectError}

theorem handleEnveloped_unary (hpost : req.method = .POST) (hbinary : rp.isTextMode = false)
    (hencoding : s.unsupportedEncoding (s.metadataOf req rp.protocol) = none)
    (h : rp.protocol ≠ .connect)
    (hkind : (s.descriptor req).map MethodDescriptor.kind = some .unary)
    (hreceive : (receive (s.limitsOf req) course
      (course.absoluteDeadline (s.metadataOf req rp.protocol).timeout) req.body :
        Traced X _).2 = .ok postBody)
    (hrefused : grpcUnaryRequestBody rp.protocol
      (s.requestSetup (s.metadataOf req rp.protocol) (s.limitsOf req)) postBody = .error err) :
    s.handleEnveloped cr rp course req =
      ((receive (s.limitsOf req) course
        (course.absoluteDeadline (s.metadataOf req rp.protocol).timeout) req.body).1,
        some ((grpcUnaryError cr err rp.protocol h rp.codecFormat).mapBody .grpcUnary)) := by
  have htext : ¬ rp.isTextMode = true := by
    rw [hbinary]
    exact Bool.false_ne_true
  have hroute : rp.protocol ≠ .connect ∧
      (s.descriptor req).map MethodDescriptor.kind = some .unary := ⟨h, hkind⟩
  rw [handleEnveloped, if_neg htext]
  refine (dif_pos hroute).trans ?_
  rw [handleGrpcUnaryRequest_refused cr course h hpost hencoding hreceive hrefused]
  rfl

theorem handleEnveloped_single (hpost : req.method = .POST) (hbinary : rp.isTextMode = false)
    (hencoding : s.unsupportedEncoding (s.metadataOf req rp.protocol) = none)
    (hkind : (s.descriptor req).map MethodDescriptor.kind = some .serverStreaming)
    (hreceive : (receive (s.limitsOf req) course
      (course.absoluteDeadline (s.metadataOf req rp.protocol).timeout) req.body :
        Traced X _).2 = .ok postBody)
    (hrefused : serverStreamingRequestBody rp.protocol
      (s.requestSetup (s.metadataOf req rp.protocol) (s.limitsOf req)) postBody = .error err) :
    s.handleEnveloped cr rp course req =
      ((receive (s.limitsOf req) course
        (course.absoluteDeadline (s.metadataOf req rp.protocol).timeout) req.body).1,
        some (envelopedError cr rp err)) := by
  have htext : ¬ rp.isTextMode = true := by
    rw [hbinary]
    exact Bool.false_ne_true
  have hroute : ¬ (rp.protocol ≠ .connect ∧
      (s.descriptor req).map MethodDescriptor.kind = some .unary) := by
    rw [hkind]
    rintro ⟨-, hunary⟩
    cases hunary
  have hverb : ¬ (rp.protocol ≠ .connect ∧ req.method ≠ .POST) := fun hne => hne.2 hpost
  rw [handleEnveloped, if_neg htext]
  refine (dif_neg hroute).trans ?_
  rw [handleStreamingRequest, if_neg hverb, hencoding]
  simp only [hkind]
  rw [handleSingleRequest_refused cr course hkind hreceive hrefused]
  rfl

end Enveloped

/-- The events of a call that only checks the head and reads the body run no code. -/
theorem runsCode_received {n : ℕ} {deadline : Option ℕ} {limits : Limits} {body : RequestBody}
    {ev : ServiceEvent X} (h : ev ∈ passed n ++ (receive limits course deadline body).1) :
    ev.runsCode = false := by
  rcases List.mem_append.mp h with h | h
  · obtain ⟨i, rfl⟩ := mem_passed h
    rfl
  · obtain ⟨x, rfl⟩ := mem_receive h
    rfl

/-- **A call whose message is too large**, where the service reads the message, fails with a
`ResourceExhausted`, and no code runs. -/
theorem call_oversized (hreports : s.compression.ReportsExcess) (hpasses : s.HeadPasses req)
    (hreceive : (receive (s.limitsOf req) course
      (course.absoluteDeadline (s.metadataOf req (s.headProtocol req)).timeout) req.body :
        Traced X _).2 = .ok postBody) (hover : s.ReadsOversized req postBody) :
    ∃ err : ConnectError, err.code = .resourceExhausted ∧
      s.FailsWith cr req err (s.call cr req course).2 ∧
      ∀ ev ∈ (s.call cr req course).1, ev.runsCode = false := by
  have hunary : s.IsUnary req →
      (∃ err : ConnectError, err.code = .resourceExhausted ∧
        s.unaryRequest (routePath req.path) (s.descriptor req) (s.checked req) (s.limitsOf req)
          postBody = .error err) →
      ∃ err : ConnectError, err.code = .resourceExhausted ∧
        s.FailsWith cr req err (s.call cr req course).2 ∧
        ∀ ev ∈ (s.call cr req course).1, ev.runsCode = false := by
    rintro hunary ⟨err, hcode, hrefused⟩
    rw [hunary.headProtocol_eq] at hreceive
    have hhandle :=
      @handleUnary_refused X cr s (s.checked req) course postBody err hreceive hrefused
    rw [call_unary cr course hunary hpasses, hhandle]
    exact ⟨err, hcode, .error, fun ev => runsCode_received course⟩
  cases hover with
  | get hget hdesc hidempotent hparams hversion hmessage hsent hd hlimit =>
    refine hunary (.inl hget) ?_
    rw [hdesc]
    exact unaryRequest_get hreports hget hidempotent hparams hversion hmessage hsent hd hlimit
  | @post rp desc codec d hpost hdetect hstreaming hdesc hversion hcodec hd hlimit =>
    refine hunary (.inr ⟨hpost, rp, hdetect, hstreaming⟩) ?_
    rw [hdesc]
    exact unaryRequest_post hreports hpost hversion hcodec hd hlimit
  | @enveloped rp hpost hdetect hstreaming hbinary hencoding hkind hover =>
    rw [headProtocol_enveloped hpost hdetect hstreaming] at hreceive
    rw [call_enveloped cr course hpost hdetect hstreaming hpasses]
    rcases hkind with hkind | ⟨hne, hkind⟩
    · obtain ⟨err, hrefused, hcode⟩ :
          ∃ err, serverStreamingRequestBody rp.protocol
            (s.requestSetup (s.metadataOf req rp.protocol) (s.limitsOf req)) postBody =
              .error err ∧ err.code = .resourceExhausted := hover.single hreports _ _
      have herror : s.headError req cr err = envelopedError cr rp err := by
        have hget : req.method ≠ .GET := by
          rw [hpost]
          decide
        rw [headError, if_neg hget, hdetect]
        simp only [hstreaming, if_true]
      have hhandle := @handleEnveloped_single X cr s (s.checked req) course postBody rp err hpost
        hbinary hencoding hkind hreceive hrefused
      rw [hhandle, ← herror]
      exact ⟨err, hcode, .error, fun ev => runsCode_received course⟩
    · obtain ⟨err, hrefused, hcode⟩ :
          ∃ err, grpcUnaryRequestBody rp.protocol
            (s.requestSetup (s.metadataOf req rp.protocol) (s.limitsOf req)) postBody =
              .error err ∧ err.code = .resourceExhausted := hover.single hreports _ _
      have hhandle := @handleEnveloped_unary X cr s (s.checked req) course postBody rp err hpost
        hbinary hencoding hne hkind hreceive hrefused
      rw [hhandle]
      exact ⟨err, hcode, .grpcUnary hne hdetect, fun ev => runsCode_received course⟩

end Whole

end Service

/-! ## Streams of messages -/

/-- A request whose handler reads a stream of messages. -/
structure Service.StreamsMessages (s : Service X) (req : HttpRequest X) (rp : RequestProtocol) :
    Prop where
  /-- it is a `POST` -/
  post : req.method = .POST
  /-- its protocol is told by its headers -/
  detect : Protocol.detect s.json req.headers = some rp
  /-- its messages are enveloped -/
  streaming : rp.isStreaming = true
  /-- and not in text mode -/
  binary : rp.isTextMode = false
  /-- there is a provider for its encoding -/
  encoding : s.unsupportedEncoding (s.metadataOf req rp.protocol) = none
  /-- its route streams requests -/
  kind : (s.descriptor req).map MethodDescriptor.kind = some .clientStreaming ∨
    (s.descriptor req).map MethodDescriptor.kind = some .bidiStreaming

section Streams

variable (cr : Crates) {s : Service X} {req : HttpRequest X} (course : Course)
variable {rp : RequestProtocol}

/-- What the service decodes the messages of a request with. -/
def Service.setupOf (s : Service X) (req : HttpRequest X) : RequestSetup :=
  s.requestSetup (s.metadataOf req (s.headProtocol req)) (s.limitsOf req)

theorem Service.StreamsMessages.setupOf_eq (h : s.StreamsMessages req rp) :
    s.setupOf req = s.requestSetup (s.metadataOf req rp.protocol) (s.limitsOf req) := by
  rw [setupOf, headProtocol_enveloped h.post h.detect h.streaming]

/-- The call of such a request polls its request stream, and nothing else polls the body. -/
theorem Service.StreamsMessages.requestEvents_call (h : s.StreamsMessages req rp)
    (hpasses : s.HeadPasses req) :
    ∃ as, requestEvents (s.call cr req course).1 =
      (RequestRun.start (s.setupOf req) req.body).trace as := by
  have hkind : ¬ (rp.protocol ≠ .connect ∧
      (s.descriptor req).map MethodDescriptor.kind = some .unary) := by
    rintro ⟨-, hunary⟩
    rcases h.kind with hkind | hkind
    · rw [hunary] at hkind
      cases hkind
    · rw [hunary] at hkind
      cases hkind
  have hverb : ¬ (rp.protocol ≠ .connect ∧ (s.checked req).method ≠ .POST) := fun hne => hne.2 h.post
  have hbinary : ¬ rp.isTextMode = true := by
    rw [h.binary]
    exact Bool.false_ne_true
  have henveloped : (s.handleEnveloped cr rp course (s.checked req)).1 =
      (s.handleStreamingRequest cr (routePath req.path) (s.descriptor req) (s.checked req)
        rp.protocol rp.codecFormat (s.limitsOf req) course).1 := by
    rw [handleEnveloped, if_neg hbinary]
    exact congrArg Prod.fst (dif_neg hkind)
  rw [s.call_enveloped cr course h.post h.detect h.streaming hpasses, requestEvents_append,
    requestEvents_passed, List.nil_append, henveloped, h.setupOf_eq, handleStreamingRequest,
    if_neg hverb]
  have hencoding : s.unsupportedEncoding (s.metadataOf (s.checked req) rp.protocol) = none :=
    h.encoding
  rw [hencoding]
  rcases h.kind with hkind | hkind
  · rw [hkind]
    exact requestEvents_runCall (emits_callClientStreamingIntercepted (entered_elsewhere fun _ => True)
      (fun i _ => i.handsOn_any) rfl trivial)
  · rw [hkind]
    exact requestEvents_runCall (emits_callBidiStreamingIntercepted (entered_elsewhere fun _ => True)
      (fun i _ => i.handsOn_any) rfl trivial)

/-- **The polls of a call** answer what the body says, from the front. -/
theorem Service.StreamsMessages.answers (h : s.StreamsMessages req rp) (hpasses : s.HeadPasses req) :
    answersIn (requestEvents (s.call cr req course).1) =
      (requestAnswers ((s.setupOf req).reading (requestRest (ready req.body.polls)).1
        (requestRest (ready req.body.polls)).2)).take
          (answersIn (requestEvents (s.call cr req course).1)).length := by
  obtain ⟨as, hrun⟩ := h.requestEvents_call cr course hpasses
  rw [hrun]
  exact RequestRun.answersIn_trace as (.start (s.setupOf req) req.body) (live_start _ _)

/-- **A message that is too large is not yielded**: the polls answer the messages before it,
then a `ResourceExhausted`, and then the end. -/
theorem Service.StreamsMessages.oversized (h : s.StreamsMessages req rp)
    (hpasses : s.HeadPasses req) (hreports : s.compression.ReportsExcess) {es : List Envelope}
    {msgs : List Bytes} {rest b : Bytes} {bodyEnd : RequestEnd}
    (hbody : requestRest (ready req.body.polls) = (es.flatMap Envelope.wire ++ b, bodyEnd))
    (hes : ∀ e ∈ es, e.data.length ≤ u32Max ∧ e.data.length ≤ (s.limitsOf req).maxMessageSize)
    (hmsgs : es.map (s.setupOf req).decodeEnvelope = msgs.map (fun d => .ok (.message d)))
    (hover : OversizedEnvelope (s.setupOf req) rest b) :
    ∃ err : ConnectError, err.code = .resourceExhausted ∧
      answersIn (requestEvents (s.call cr req course).1) =
        (requestAnswers (msgs, some err)).take
          (answersIn (requestEvents (s.call cr req course).1)).length := by
  obtain ⟨err, hreading, hcode⟩ := hover.reading hreports bodyEnd
  refine ⟨err, hcode, ?_⟩
  have hanswers := h.answers cr course hpasses
  rw [hbody, reading_messages bodyEnd b hes hmsgs, hreading, List.append_nil] at hanswers
  exact hanswers

end Streams

/-! ## The limit -/

/-- **The limit on messages.** For every service whose providers keep to the bound they are
given, and every request: the messages that the service hands over, whole or through the
request stream, are within the limit of the route, or of the service if the route has none.
A message that is too large is never cut: where the service reads it, the call fails
with a `ResourceExhausted` before any code runs; where the handler reads a stream, that
error takes its place. -/
theorem message_limit (cr : Crates) (s : Service X) (req : HttpRequest X) (course : Course)
    (hhonours : s.compression.HonoursLimit) :
    (∀ ctx m, .called ctx (some m) ∈ (s.call cr req course).1 →
      m.length ≤ (s.limitsOf req).maxMessageSize) ∧
    (∀ d, .request (.answered (some (.ok d))) ∈ (s.call cr req course).1 →
      d.length ≤ (s.limitsOf req).maxMessageSize) ∧
    (s.compression.ReportsExcess → s.HeadPasses req →
      (∀ postBody, (receive (s.limitsOf req) course
          (course.absoluteDeadline (s.metadataOf req (s.headProtocol req)).timeout) req.body :
            Traced X _).2 = .ok postBody → s.ReadsOversized req postBody →
        ∃ err : ConnectError, err.code = .resourceExhausted ∧
          s.FailsWith cr req err (s.call cr req course).2 ∧
          ∀ ev ∈ (s.call cr req course).1, ev.runsCode = false) ∧
      ∀ (rp : RequestProtocol) (es : List Envelope) (msgs : List Bytes) (rest b : Bytes)
        (bodyEnd : RequestEnd), s.StreamsMessages req rp →
        requestRest (ready req.body.polls) = (es.flatMap Envelope.wire ++ b, bodyEnd) →
        (∀ e ∈ es, e.data.length ≤ u32Max ∧ e.data.length ≤ (s.limitsOf req).maxMessageSize) →
        es.map (s.setupOf req).decodeEnvelope = msgs.map (fun d => .ok (.message d)) →
        OversizedEnvelope (s.setupOf req) rest b →
        ∃ err : ConnectError, err.code = .resourceExhausted ∧
          answersIn (requestEvents (s.call cr req course).1) =
            (requestAnswers (msgs, some err)).take
              (answersIn (requestEvents (s.call cr req course).1)).length) := by
  have hgate : GateCase cr s req
      (ServiceEvent.Lawful (fun _ => True) (fun _ => True)
        fun m => m.length ≤ (s.limitsOf req).maxMessageSize) (s.call cr req course) :=
    call_gate cr (s.delivers_bounded hhonours _) (fun i _ => i.handsOn_any)
      (fun _ _ _ _ => trivial) fun _ _ => trivial
  refine ⟨fun ctx m hcalled => (hgate.lawful hcalled rfl).2 m rfl,
    fun d hanswered => hgate.lawful hanswered rfl, fun hreports hpasses => ⟨?_, ?_⟩⟩
  · intro postBody hreceive hover
    exact Service.call_oversized cr course hreports hpasses hreceive hover
  · intro rp es msgs rest b bodyEnd hstreams hbody hes hmsgs hover
    exact hstreams.oversized cr course hpasses hreports hbody hes hmsgs hover

/-- A service with one client-streaming method. -/
def clientStreamingService (handler : Code Empty EncodedResponse) : Service Unit where
  json := false
  dispatcher :=
    { lookup := fun _ => some ⟨.clientStreaming, false, none, none⟩
      callUnary := fun path _ _ _ => .answer (.error (.methodNotFound path))
      callServerStreaming := fun path _ _ _ => .answer (.error (.methodNotFound path))
      callClientStreaming := fun _ _ _ _ => handler
      callBidiStreaming := fun path _ _ _ => .answer (.error (.methodNotFound path)) }
  limits := ⟨64, 4, 64⟩
  compression := .new
  compressionPolicy := .disabled
  deadlinePolicy := ⟨0, none, none⟩
  interceptors := []
  base64Error _ := ""
  httpError _ := ""

/-- An empty message. -/
def emptyResponse : EncodedResponse :=
  ⟨.contiguous [], .empty, .empty, none⟩

/-- A handler that reads one message, and passes on an error. -/
def attentive : Code Empty EncodedResponse :=
  .act .poll fun
  | some (some (.error e)) => .answer (.error e)
  | _ => .answer (.ok emptyResponse)

/-- A handler that does not read. -/
def heedless : Code Empty EncodedResponse :=
  .answer (.ok emptyResponse)

/-- A request whose one message declares five bytes. -/
def declaresFive : HttpRequest Unit where
  method := .POST
  path := "/s/m"
  query := none
  headers := HeaderMap.empty.append .contentType (contentTypeValue .grpc .proto true)
  extensions := ()
  body := ⟨[.ready (.data [0, 0, 0, 0, 5])], fun _ => false⟩

/-- A course without waiting. -/
def promptly : Course := ⟨0, 0, 0, 0, []⟩

theorem oversized_declaresFive (handler : Code Empty EncodedResponse) :
    OversizedEnvelope ((clientStreamingService handler).setupOf declaresFive) []
      [0, 0, 0, 0, 5] := by
  have hlimit : 4 < fromBeBytes (List.drop 1 [0, 0, 0, 0, 5]) := by decide
  have hover : OversizedEnvelope ((clientStreamingService handler).setupOf declaresFive) []
      ([0, 0, 0, 0, 5] ++ []) := .declared (by decide) hlimit
  exact hover

theorem message_limit_attentive :
    ∃ err : ConnectError, err.code = .resourceExhausted ∧
      answersIn (requestEvents
        ((clientStreamingService attentive).call Crates.std declaresFive promptly).1) =
          (requestAnswers ([], some err)).take 1 := by
  have hhonours : (clientStreamingService attentive).compression.HonoursLimit :=
    fun p hp => by cases hp
  have hreports : (clientStreamingService attentive).compression.ReportsExcess :=
    fun p hp => by cases hp
  have hstreams : (clientStreamingService attentive).StreamsMessages declaresFive
      ⟨.grpc, .proto, true, false⟩ :=
    ⟨by decide, by decide +kernel, rfl, rfl, by decide +kernel, .inl rfl⟩
  have hbody : requestRest (ready declaresFive.body.polls) =
      (([] : List Envelope).flatMap Envelope.wire ++ [0, 0, 0, 0, 5], .eof) := rfl
  have hlength : (answersIn (requestEvents
      ((clientStreamingService attentive).call Crates.std declaresFive promptly).1)).length = 1 := by
    decide +kernel
  have hlimit := message_limit Crates.std (clientStreamingService attentive) declaresFive promptly
    hhonours
  obtain ⟨err, hcode, hanswers⟩ := (hlimit.2.2 hreports rfl).2 _ [] [] _ _ _ hstreams hbody
    (fun e he => absurd he List.not_mem_nil) rfl (oversized_declaresFive attentive)
  rw [hlength] at hanswers
  exact ⟨err, hcode, hanswers⟩

/-- The frames of a streaming response, by so many polls. -/
def ConnectRpcBody.frames (n : ℕ) : ConnectRpcBody → List (Option Frame)
  | .streaming (.stream b) => ready (polls (BatchingEnvelopeStream.pollNext Crates.std) n b)
  | _ => []

/-- A handler that does not read its messages answers with success, one that is too large
among them or not. -/
theorem heedless_succeeds :
    OversizedEnvelope ((clientStreamingService heedless).setupOf declaresFive) []
        [0, 0, 0, 0, 5] ∧
      requestRest (ready declaresFive.body.polls) = ([0, 0, 0, 0, 5], .eof) ∧
      ((clientStreamingService heedless).call Crates.std declaresFive promptly).2.map
          (fun r => r.body.frames 3) =
        some [some (.data [0, 0, 0, 0, 0]),
          some (.trailers (HeaderMap.empty.append hdr.grpcStatus (.static "0" (by decide)))),
          none] := by
  refine ⟨oversized_declaresFive heedless, rfl, ?_⟩
  decide +kernel

end ConnectRpc
