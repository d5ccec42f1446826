import ConnectRpc.AcceptEncoding
import ConnectRpc.Delivery

/-!
# A call from the client to the handler and back

The whole way of a call: the client builds a request, the service reads it, runs its chain on the
messages and renders the answer, and the client reads the response. `unary_exchange`,
`serverStream_exchange` and `bidi_exchange` say that what the client gets is what the chain has
answered to the messages of the caller, with every protocol, codec and encoding, and however the
two bodies are cut on their way.
-/

namespace ConnectRpc

open Lib

variable (cr : Crates) (ur : UriCrates) {X α : Type}

/-! ## The request -/

/-- The kind of the methods that are called in a form. -/
def PostForm.kind : PostForm → MethodKind
  | unary => .unary
  | serverStream => .serverStreaming
  | clientStream => .clientStreaming
  | bidiStream => .bidiStreaming

/-- A request of a client that a service can read. -/
structure Posted (s : Service X) (config : ClientConfig) (spec : CallSpec) (message : ClientMessage)
    (options : CallOptions) (form : PostForm) (messages : List Bytes) (creq : ClientRequest)
    (sent : Bytes) (course : Course) (req : HttpRequest X) : Prop where
  /-- the client builds it -/
  built : form.entryPoint.request cr ur config spec message options = .ok creq
  /-- with these messages -/
  sends : form.Sends config message messages
  /-- which it frames so -/
  framed : creq.body.bytes messages = .ok sent
  /-- its method arrives -/
  method : req.method = creq.method
  /-- its headers arrive -/
  headers : req.headers = creq.headers
  /-- its body arrives, cut and delayed -/
  carries : req.body.Carries sent
  /-- but before any deadline -/
  inTime : course.InTime req.body
  /-- there is a method to call -/
  route : ∃ desc, s.descriptor req = some desc ∧ desc.kind = form.kind
  /-- the checks of the head pass -/
  heads : s.HeadPasses req
  /-- the service undoes the compression of the client -/
  inverts : ∀ name ∈ config.requestCompression, Inverts config.compression s.compression name
  /-- the request is within its limits -/
  limits : WithinLimits (s.limitsOf req) config options form messages sent
  /-- and it can be told how to read it -/
  arrives : Arrives s (s.limitsOf req) config options message form messages

/-- A request that is not for the query of a `GET` is a `POST`. -/
theorem PostForm.method_request {form : PostForm} {config : ClientConfig} {spec : CallSpec}
    {message : ClientMessage} {options : CallOptions} {creq : ClientRequest}
    (h : form.entryPoint.request cr ur config spec message options = .ok creq) :
    creq.method = .POST := by
  cases form with
  | unary =>
    obtain ⟨-, -, h⟩ := exists_of_bind_ok h
    obtain ⟨_, -, h⟩ := exists_of_bind_ok h
    obtain ⟨_, -, h⟩ := exists_of_bind_ok h
    obtain ⟨_, -, h⟩ := exists_of_bind_ok h
    obtain ⟨_, -, h⟩ := exists_of_bind_ok h
    obtain ⟨_, -, rfl⟩ := finishRequest_ok cr h
    rfl
  | serverStream =>
    obtain ⟨-, -, h⟩ := exists_of_bind_ok h
    obtain ⟨_, -, h⟩ := exists_of_bind_ok h
    obtain ⟨_, -, h⟩ := exists_of_bind_ok h
    obtain ⟨_, -, h⟩ := exists_of_bind_ok h
    obtain ⟨_, -, h⟩ := exists_of_bind_ok h
    obtain ⟨_, -, rfl⟩ := finishRequest_ok cr h
    rfl
  | clientStream =>
    obtain ⟨-, -, h⟩ := exists_of_bind_ok h
    obtain ⟨_, -, h⟩ := exists_of_bind_ok h
    obtain ⟨_, -, h⟩ := exists_of_bind_ok h
    obtain ⟨_, -, rfl⟩ := finishRequest_ok cr h
    rfl
  | bidiStream =>
    obtain ⟨-, -, h⟩ := exists_of_bind_ok h
    obtain ⟨_, -, h⟩ := exists_of_bind_ok h
    obtain ⟨_, -, h⟩ := exists_of_bind_ok h
    obtain ⟨_, -, rfl⟩ := finishRequest_ok cr h
    rfl

section Posted

variable {cr ur} {s : Service X} {config : ClientConfig} {spec : CallSpec} {message : ClientMessage}
variable {options : CallOptions} {form : PostForm} {messages : List Bytes} {creq : ClientRequest}
variable {sent : Bytes} {course : Course} {req : HttpRequest X}

/-- Its content type is taken for what it is. -/
theorem Posted.detected
    (h : Posted cr ur s config spec message options form messages creq sent course req) :
    Protocol.detect s.json req.headers =
      some ⟨config.protocol, config.codecFormat, form.enveloped config.protocol, false⟩ := by
  rw [Protocol.detect, h.headers, form.text_contentType cr ur h.built, form.detect_contentType,
    if_pos h.arrives.codec]

/-- Messages in envelopes come out of them. -/
theorem Posted.reads_enveloped
    (h : Posted cr ur s config spec message options form messages creq sent course req)
    (henveloped : form.enveloped config.protocol = true) :
    s.unsupportedEncoding (s.metadataOf req config.protocol) = none ∧
      s.Reads (s.limitsOf req) (s.metadataOf req config.protocol) config.protocol
        config.codecFormat sent messages form := by
  have htext : (s.metadataOf req config.protocol).streamingEncoding =
      config.requestCompression.or
        (userText config options config.protocol.contentEncodingHeader) := by
    have hheader := form.text_contentEncodingHeader cr ur h.built henveloped fun name hname =>
      (h.inverts name hname).isHttpToken
    rw [← h.headers] at hheader
    exact hheader
  obtain ⟨es, hes, rfl⟩ := form.request_enveloped cr ur h.built h.sends h.framed henveloped
  have hunderstands : (s.requestSetup (s.metadataOf req config.protocol)
      (s.limitsOf req)).Understands (requestEncoder config options).compression := by
    intro reg name hname
    obtain ⟨name', hcompression, heq⟩ := Option.map_eq_some_iff.mp hname
    obtain ⟨rfl, rfl⟩ := Prod.mk.inj heq
    rw [hcompression, Option.some_or] at htext
    exact ⟨htext, h.inverts name' hcompression⟩
  refine ⟨(s.unsupportedEncoding_iff htext h.inverts).mpr (h.arrives.unnamed henveloped), ?_⟩
  apply (s.reads_enveloped_iff hunderstands hes h.sends henveloped h.limits).mpr
  intro m hm hflags
  obtain ⟨hid, hcompresses⟩ := flagsIdentity_iff.mp hflags
  rw [h.arrives.unflagged henveloped hid m hm] at hcompresses
  cases hcompresses

/-- A message sent whole is read. -/
theorem Posted.reads_whole
    (h : Posted cr ur s config spec message options .unary messages creq sent course req)
    (hp : config.protocol = .connect) :
    ∃ m, messages = [m] ∧ sent.length ≤ (s.limitsOf req).maxRequestBodySize ∧
      s.postRequestBody (s.metadataOf req .connect) (s.limitsOf req) sent =
        .ok (m, config.codecFormat) := by
  obtain ⟨generated, hgenerated, hvalues⟩ := EntryPoint.unary.request_values cr ur h.built
  obtain ⟨-, hversion, hwritten⟩ := unaryHeaders_connect cr hp hgenerated
  obtain ⟨body, hbody, hwhole⟩ := callUnary_whole cr ur h.built hp h.framed
  obtain ⟨body', hbody', rfl⟩ := h.sends
  obtain rfl := Except.ok.inj (hbody.symm.trans hbody')
  have htoken : ∀ name ∈ wholeEncoding config options message, isHttpToken name = true := by
    intro name hname
    obtain ⟨hnone, -⟩ | ⟨name', hname', hsome, -⟩ := compressWhole_payload hwhole
    · rw [hnone] at hname
      cases hname
    · rw [hsome] at hname
      exact Option.some.inj hname ▸ (h.inverts name' hname').isHttpToken
  have htype := PostForm.unary.text_contentType cr ur h.built
  rw [← h.headers, PostForm.contentType, hp] at htype
  have hone : (s.metadataOf req .connect).protocolVersion = some "1" := by
    have htext := ConnectRpc.text_contentType (hvalues _) hversion
    rw [← h.headers] at htext
    exact htext
  have hencoding : (s.metadataOf req .connect).unaryEncoding =
      (wholeEncoding config options message).or (userText config options .contentEncoding) := by
    have htext := text_encoding cr (hvalues _) hwritten htoken
    rw [← h.headers] at htext
    exact htext
  have hwholly : PostForm.unary.enveloped config.protocol = false := by
    rw [hp]
    rfl
  refine ⟨body, rfl, h.limits.body (.inl rfl), ?_⟩
  exact (s.reads_whole_iff h.arrives.codec hone htype hencoding hbody hwhole h.inverts
    (h.limits.message body List.mem_cons_self)).mpr fun hnone name hname =>
      h.arrives.whole hwholly hnone name hname body List.mem_cons_self

/-- The body is collected. -/
theorem Posted.collects
    (h : Posted cr ur s config spec message options form messages creq sent course req)
    (hform : form = .unary ∨ form = .serverStream) :
    (collectBodyLimited (X := X) (s.limitsOf req).maxRequestBodySize none req.body.polls []).2 =
      .ok sent :=
  collectBodyLimited_of_carries h.carries (by
    rw [List.length_nil, Nat.zero_add]
    exact h.limits.body hform)

/-- The service answers a unary call with a rendering of what its chain answers to the message. -/
theorem Posted.call_unary
    (h : Posted cr ur s config spec message options .unary messages creq sent course req) :
    ∃ m, messages = [m] ∧ (s.call cr req course).2 =
      s.unaryRendering cr config.protocol (s.metadataOf req config.protocol) config.codecFormat
        (s.unaryAnswer (s.checked req) course config.protocol config.codecFormat m) := by
  have hmethod : req.method = .POST := h.method.trans (PostForm.method_request cr ur h.built)
  have hdetected := h.detected
  obtain ⟨desc, hroute, hkind⟩ := h.route
  unfold Service.unaryRendering
  by_cases hp : config.protocol = .connect
  · obtain ⟨m, hmessages, -, hread⟩ := h.reads_whole hp
    refine ⟨m, hmessages, ?_⟩
    rw [dif_pos hp, hp]
    rw [hp] at hdetected
    exact Service.call_connectUnary cr hmethod h.heads hdetected hroute h.inTime
      (h.collects (.inl rfl)) hread
  · have henveloped : PostForm.unary.enveloped config.protocol = true := decide_eq_true hp
    obtain ⟨hsupported, m, hmessages, hcollects⟩ := h.reads_enveloped henveloped
    rw [if_neg hp] at hcollects
    rw [henveloped] at hdetected
    obtain ⟨b, hcollect, hread⟩ := hcollects req.body h.carries
    refine ⟨m, hmessages, ?_⟩
    rw [dif_neg hp]
    exact Service.call_grpcUnary cr hp hmethod h.heads hdetected hroute hkind hsupported h.inTime
      hcollect hread

/-- A server-streaming call is answered with the stream that the chain answers to the message. -/
theorem Posted.call_serverStream
    (h : Posted cr ur s config spec message options .serverStream messages creq sent course req) :
    ∃ m, messages = [m] ∧ (s.call cr req course).2 =
      some ((s.answerStreaming cr "failed to build streaming response" config.protocol
        (s.metadataOf req config.protocol) config.codecFormat
        (s.serverStreamAnswer (s.checked req) course config.protocol config.codecFormat
          m)).mapBody .streaming) := by
  have hmethod : req.method = .POST := h.method.trans (PostForm.method_request cr ur h.built)
  have hdetected := h.detected
  obtain ⟨desc, hroute, hkind⟩ := h.route
  obtain ⟨hsupported, m, hmessages, hcollects⟩ := h.reads_enveloped rfl
  obtain ⟨b, hcollect, hread⟩ := hcollects req.body h.carries
  exact ⟨m, hmessages, Service.call_serverStream cr hmethod h.heads hdetected hroute hkind
    hsupported h.inTime hcollect hread⟩

/-- A client-streaming call is answered with the message that the chain answers to the request
stream, which yields the messages. -/
theorem Posted.call_clientStream
    (h : Posted cr ur s config spec message options .clientStream messages creq sent course req) :
    Yields (s.requestSetup (s.metadataOf req config.protocol) (s.limitsOf req)) req.body messages ∧
      (s.call cr req course).2 =
        some ((s.answerStreaming cr "failed to build client streaming response" config.protocol
          (s.metadataOf req config.protocol) config.codecFormat
          ((s.clientStreamAnswer (s.checked req) course config.protocol config.codecFormat).map
            Service.oneItem)).mapBody .streaming) := by
  have hmethod : req.method = .POST := h.method.trans (PostForm.method_request cr ur h.built)
  obtain ⟨desc, hroute, hkind⟩ := h.route
  obtain ⟨hsupported, hyields⟩ := h.reads_enveloped rfl
  exact ⟨hyields req.body h.carries, Service.call_clientStream cr hmethod h.heads h.detected hroute
    hkind hsupported⟩

/-- A bidi call is answered with the stream that the chain answers to the request stream, which
yields the messages. -/
theorem Posted.call_bidi
    (h : Posted cr ur s config spec message options .bidiStream messages creq sent course req) :
    Yields (s.requestSetup (s.metadataOf req config.protocol) (s.limitsOf req)) req.body messages ∧
      (s.call cr req course).2 =
        some ((s.answerStreaming cr "failed to build bidi streaming response" config.protocol
          (s.metadataOf req config.protocol) config.codecFormat
          (s.bidiAnswer (s.checked req) course config.protocol config.codecFormat)).mapBody
            .streaming) := by
  have hmethod : req.method = .POST := h.method.trans (PostForm.method_request cr ur h.built)
  obtain ⟨desc, hroute, hkind⟩ := h.route
  obtain ⟨hsupported, hyields⟩ := h.reads_enveloped rfl
  exact ⟨hyields req.body h.carries, Service.call_bidi cr hmethod h.heads h.detected hroute hkind
    hsupported⟩

end Posted

/-! ## The response -/

/-- A client that is set up to read the response to its request. -/
structure Awaits (s : Service X) (c : CallConfig α) (config : ClientConfig) (options : CallOptions)
    (entry : EntryPoint) : Prop where
  /-- the protocol of the request -/
  protocol : c.protocol = config.protocol
  /-- its codec -/
  codec : c.codecFormat = config.codecFormat
  /-- its registry -/
  compression : c.compression = config.compression
  /-- the user leaves the negotiation alone -/
  undisturbed : Undisturbed config options
    [entry.acceptName config.protocol, entry.encodingName config.protocol]
  /-- a client without encodings names none -/
  providers : config.compression.providers = [] →
    ∀ name ∈ config.requestCompression, name = "identity"
  /-- an encoding that both have is the same encoding -/
  undoes : ∀ name, s.compression.supports name = true → c.compression.supports name = true →
    Inverts s.compression c.compression name

section Awaits

variable {cr ur} {s : Service X} {c : CallConfig α} {config : ClientConfig} {spec : CallSpec}
variable {message : ClientMessage} {options : CallOptions} {entry : EntryPoint}
variable {creq : ClientRequest}

/-- It undoes what is negotiated. -/
theorem Awaits.inverts (h : Awaits s c config options entry)
    (hbuilt : entry.request cr ur config spec message options = .ok creq) {name : String}
    (hnegotiated : s.compression.negotiateEncoding
      (creq.headers.text (entry.acceptName config.protocol))
      (creq.headers.text (entry.encodingName config.protocol)) = some name) :
    Inverts s.compression c.compression name := by
  have hboth (n : HeaderName) (hn : n = entry.acceptName config.protocol ∨
      n = entry.encodingName config.protocol) : Undisturbed config options [n] := by
    intro k hk
    obtain rfl := List.mem_singleton.mp hk
    exact h.undisturbed k (by simpa using hn)
  apply h.undoes name (negotiateEncoding_iff.mp hnegotiated).registered
  rw [h.compression]
  apply CompressionRegistry.supports_of_negotiated cr
    (text_acceptName cr ur hbuilt (hboth _ (.inl rfl))) _ hnegotiated
  intro hempty
  exact identity_encodingName cr ur hbuilt (hboth _ (.inr rfl)) (h.providers hempty)

end Awaits

/-! ## There and back -/

section Exchange

variable {cr ur} {s : Service X} {c : CallConfig α} {config : ClientConfig} {spec : CallSpec}
variable {message : ClientMessage} {options : CallOptions} {messages : List Bytes}
variable {creq : ClientRequest} {sent : Bytes} {course : Course} {req : HttpRequest X}

/-- **A unary call, there and back.** The service answers, and however its response is cut the
client answers what the chain has answered to the caller's message. -/
theorem unary_exchange
    (h : Posted cr ur s config spec message options .unary messages creq sent course req)
    (hclient : Awaits s c config options .unary)
    (hreadable : ∀ m ∈ messages, UnaryAnswerReadable cr s c
      (s.unaryAnswer (s.checked req) course config.protocol config.codecFormat m)) :
    ∃ m r, messages = [m] ∧ (s.call cr req course).2 = some r ∧ (∃ got, ArrivesAs cr r got) ∧
      ∀ got, ArrivesAs cr r got → ∀ late,
        UnaryConveyed c (s.unaryAnswer (s.checked req) course config.protocol config.codecFormat m)
          (parseUnaryResponse cr c got late) := by
  obtain ⟨m, rfl, hcall⟩ := h.call_unary
  have hinverts : ∀ name ∈ s.unaryNegotiated c.protocol (s.metadataOf req config.protocol),
      Inverts s.compression c.compression name := by
    intro name hname
    apply hclient.inverts h.built
    rw [← h.headers]
    rw [Service.unaryNegotiated, hclient.protocol] at hname
    by_cases hp : config.protocol = .connect
    · rw [if_pos hp] at hname
      rw [EntryPoint.acceptName, EntryPoint.encodingName, hp]
      exact hname
    · have henveloped : EntryPoint.unary.enveloped config.protocol = true := decide_eq_true hp
      rw [if_neg hp] at hname
      rw [EntryPoint.acceptName, EntryPoint.encodingName, if_pos henveloped, if_pos henveloped]
      exact hname
  obtain ⟨r, hr, hconveyed⟩ := unary_conveyed (hreadable m List.mem_cons_self) hinverts
  rw [hclient.protocol, hclient.codec] at hr
  exact ⟨m, r, rfl, hcall.trans hr, hconveyed⟩

/-- The encoding of a streaming response is undone. -/
theorem Awaits.streaming_inverts {entry : EntryPoint} (h : Awaits s c config options entry)
    (hbuilt : entry.request cr ur config spec message options = .ok creq)
    (henveloped : entry.enveloped config.protocol = true) (hheaders : req.headers = creq.headers) :
    ∀ name ∈ s.streamingEncoding (s.metadataOf req config.protocol),
      Inverts s.compression c.compression name := by
  intro name hname
  apply h.inverts hbuilt
  rw [← hheaders, EntryPoint.acceptName, EntryPoint.encodingName, if_pos henveloped,
    if_pos henveloped]
  exact hname

/-- **A server-streaming call, there and back.** The client's stream yields the messages that the
chain answers to the caller's message, in order, and ends as it does. -/
theorem serverStream_exchange {msgs : List α}
    (h : Posted cr ur s config spec message options .serverStream messages creq sent course req)
    (hclient : Awaits s c config options .serverStream)
    (hreadable : ∀ m ∈ messages, StreamAnswerReadable cr s c (s.metadataOf req config.protocol) msgs
      (s.serverStreamAnswer (s.checked req) course config.protocol config.codecFormat m)) :
    ∃ m r, messages = [m] ∧ (s.call cr req course).2 = some r ∧ (∃ got, ArrivesAs cr r got) ∧
      ∀ got, ArrivesAs cr r got → ∀ late,
        StreamAnswerConveyed cr s c (s.metadataOf req config.protocol) msgs got late
          (s.serverStreamAnswer (s.checked req) course config.protocol config.codecFormat m) := by
  obtain ⟨m, rfl, hcall⟩ := h.call_serverStream
  have hconveyed := streamAnswer_conveyed cr (hreadable m List.mem_cons_self)
    (hclient.streaming_inverts h.built rfl h.headers) "failed to build streaming response"
  rw [hclient.protocol, hclient.codec] at hconveyed
  exact ⟨m, _, rfl, hcall, hconveyed⟩

/-- **A bidi call, there and back.** The handler's stream yields the messages of the caller, and
the client's stream those that the chain answers. -/
theorem bidi_exchange {msgs : List α}
    (h : Posted cr ur s config spec message options .bidiStream messages creq sent course req)
    (hclient : Awaits s c config options .bidiStream)
    (hreadable : StreamAnswerReadable cr s c (s.metadataOf req config.protocol) msgs
      (s.bidiAnswer (s.checked req) course config.protocol config.codecFormat)) :
    Yields (s.requestSetup (s.metadataOf req config.protocol) (s.limitsOf req)) req.body messages ∧
      ∃ r, (s.call cr req course).2 = some r ∧ (∃ got, ArrivesAs cr r got) ∧
        ∀ got, ArrivesAs cr r got → ∀ late,
          StreamAnswerConveyed cr s c (s.metadataOf req config.protocol) msgs got late
            (s.bidiAnswer (s.checked req) course config.protocol config.codecFormat) := by
  obtain ⟨hyields, hcall⟩ := h.call_bidi
  have hconveyed := streamAnswer_conveyed cr hreadable
    (hclient.streaming_inverts h.built rfl h.headers) "failed to build bidi streaming response"
  rw [hclient.protocol, hclient.codec] at hconveyed
  exact ⟨hyields, _, hcall, hconveyed⟩

end Exchange

/-! ## A call of each kind -/

/-- A service with one method, which answers its message, in a stream with a second one behind it
or with an error. -/
def echoService (kind : MethodKind) : Service Unit where
  json := false
  dispatcher :=
    { lookup := fun _ => some ⟨kind, false, none, none⟩
      callUnary := fun _ _ _ _ => .answer (.ok ⟨.contiguous [7], .empty, .empty, none⟩)
      callServerStreaming := fun _ _ message _ => .answer (.ok
        ⟨[.item (.contiguous message), .pending, .item (.contiguous [9])], .empty, .empty, none⟩)
      callClientStreaming := fun _ _ _ _ => .answer (.ok ⟨.contiguous [7], .empty, .empty, none⟩)
      callBidiStreaming := fun _ _ _ _ => .answer (.ok
        ⟨[.item (.contiguous [7]), .error (.internal "x")], .empty, .empty, none⟩) }
  limits := ⟨64, 64, 64⟩
  compression := .new
  compressionPolicy := .disabled
  deadlinePolicy := ⟨0, none, none⟩
  interceptors := []
  base64Error _ := ""
  httpError _ := ""

/-- A gRPC client without defaults. -/
def echoConfig : ClientConfig :=
  { plainConfig with
    defaultTimeout := none
    defaultHeaders := .empty }

/-- A call without options. -/
def bareCall : CallOptions := ⟨.empty, none, none, none, none⟩

/-- The method of a form. -/
def echoSpec : PostForm → CallSpec
  | .unary => ⟨"/pkg.Service/Method", .unary, .client⟩
  | .serverStream => ⟨"/pkg.Service/Method", .serverStream, .client⟩
  | .clientStream => ⟨"/pkg.Service/Method", .clientStream, .client⟩
  | .bidiStream => ⟨"/pkg.Service/Method", .bidiStream, .client⟩

/-- A request with its body in one piece. -/
def echoRequest (creq : ClientRequest) (sent : Bytes) : HttpRequest Unit :=
  ⟨creq.method, "/pkg.Service/Method", none, creq.headers, (),
    ⟨[.ready (.data sent)], fun _ => false⟩⟩

/-- A course with time enough. -/
def patiently : Course := ⟨0, 0, 1, 4, []⟩

/-- The service can read the request of the client for a message of one byte. -/
theorem exists_posted (form : PostForm) :
    ∃ creq, Posted .std laxUris (echoService form.kind) echoConfig (echoSpec form)
      (fun _ => .ok [7]) bareCall form [[7]] creq [0, 0, 0, 0, 1, 7] patiently
        (echoRequest creq [0, 0, 0, 0, 1, 7]) := by
  obtain ⟨creq, hbuilt, hframed⟩ : ∃ creq, form.entryPoint.request .std laxUris echoConfig
      (echoSpec form) (fun _ => .ok [7]) bareCall = .ok creq ∧
        creq.body.bytes [[7]] = .ok [0, 0, 0, 0, 1, 7] := by
    cases form with
    | unary => exact ⟨_, rfl, rfl⟩
    | serverStream => exact ⟨_, rfl, rfl⟩
    | clientStream => exact ⟨_, rfl, rfl⟩
    | bidiStream => exact ⟨_, rfl, rfl⟩
  have hsends : form.Sends echoConfig (fun _ => .ok [7]) [[7]] := by
    cases form with
    | unary => exact ⟨_, rfl, rfl⟩
    | serverStream => exact ⟨_, rfl, rfl⟩
    | clientStream => trivial
    | bidiStream => trivial
  have hlimits : (echoService form.kind).limitsOf (echoRequest creq [0, 0, 0, 0, 1, 7]) =
      ⟨64, 64, 64⟩ := rfl
  have hnone (name : String) (hname : name ∈ echoConfig.requestCompression) : False := by
    cases hname
  refine ⟨creq, hbuilt, hsends, hframed, rfl, rfl, rfl, Nat.zero_le _, ⟨_, rfl, rfl⟩, rfl,
    fun name hname => (hnone name hname).elim, ?_, ?_⟩
  · rw [hlimits]
    refine ⟨by decide, fun _ m hm e he => ?_, fun _ => by decide⟩
    obtain rfl := List.mem_singleton.mp hm
    obtain rfl := Except.ok.inj he
    decide
  · refine ⟨.inr rfl, fun _ hid => ?_, fun _ _ name hname => ?_, fun _ _ name hname => ?_⟩
    · cases hid
    · cases hname
    · cases hname

/-- A client awaits its response. -/
theorem awaits_echo (kind : MethodKind) (entry : EntryPoint) :
    Awaits (echoService kind) (bytesClient .grpc none) echoConfig bareCall entry where
  protocol := rfl
  codec := rfl
  compression := rfl
  undisturbed _ _ := ⟨rfl, rfl⟩
  providers _ name hname := by cases hname
  undoes name hname := by cases hname

/-- A unary call is answered with a message of one byte. -/
theorem unary_exchange_echo :
    ∃ creq r, ((echoService .unary).call .std (echoRequest creq [0, 0, 0, 0, 1, 7]) patiently).2 =
        some r ∧ ∀ got, ArrivesAs .std r got → ∀ late,
      UnaryConveyed (bytesClient .grpc none) (.ok ⟨.contiguous [7], .empty, .empty, none⟩)
        (parseUnaryResponse .std (bytesClient .grpc none) got late) := by
  obtain ⟨creq, hposted⟩ := exists_posted .unary
  have hanswer : (echoService .unary).unaryAnswer
      ((echoService .unary).checked (echoRequest creq [0, 0, 0, 0, 1, 7])) patiently .grpc .proto
        [7] = .ok ⟨.contiguous [7], .empty, .empty, none⟩ := by
    rw [Service.unaryAnswer]
    generalize (patiently.absoluteDeadline _).isSome = limited
    cases limited with
    | false => rfl
    | true => rfl
  have hreadable : UnaryReadable .std (echoService .unary) (bytesClient .grpc none)
      ⟨.contiguous [7], .empty, .empty, none⟩ [7] := by
    refine ⟨⟨rfl, rfl, rfl, by decide⟩, fun h => ?_, by decide, fun name z hz => ?_, rfl, trivial,
      by decide⟩
    · cases h
    · rw [CompressionRegistry.compress] at hz
      split at hz
      · obtain rfl := Except.ok.inj hz
        decide
      · cases hz
  obtain ⟨m, r, hm, hcall, -, hconveyed⟩ := unary_exchange hposted (awaits_echo .unary .unary)
    fun m hm => by
      obtain rfl := List.mem_singleton.mp hm
      exact hanswer ▸ ⟨[7], hreadable⟩
  obtain ⟨rfl, -⟩ := List.cons.inj hm
  exact ⟨creq, r, hcall, fun got hgot late => hanswer ▸ hconveyed got hgot late⟩

/-- Nothing is compressed. -/
theorem encoderOf_echo (kind : MethodKind) (metadata : RequestMetadata) :
    (echoService kind).encoderOf metadata none = ⟨none, .disabled⟩ := by
  have hnone : (echoService kind).streamingEncoding metadata = none := by
    rw [Option.eq_none_iff_forall_not_mem]
    intro name hname
    have hregistered := (negotiateEncoding_iff.mp hname).registered
    cases hregistered
  rw [Service.encoderOf, hnone]
  rfl

/-- Messages of one byte are within the limits. -/
theorem withinLimit_echo {source : List SourceEvent}
    (h : ∀ body, .item body ∈ source → ∃ b, body = .contiguous [b]) :
    WithinLimit (bytesClient .grpc none).messageLimit ⟨none, .disabled⟩ source := by
  have hone : 1 ≤ (bytesClient .grpc none).messageLimit := by decide
  intro body hbody
  obtain ⟨b, rfl⟩ := h body hbody
  refine ⟨hone, fun e he => ?_⟩
  obtain rfl := Except.ok.inj he
  exact hone

/-- A server-streaming call yields both messages. -/
theorem serverStream_exchange_echo :
    ∃ creq r, ((echoService .serverStreaming).call .std (echoRequest creq [0, 0, 0, 0, 1, 7])
        patiently).2 = some r ∧ ∀ got, ArrivesAs .std r got → ∀ late,
      StreamSucceeds .std (bytesClient .grpc none) got late [[7], [9]] .empty := by
  obtain ⟨creq, hposted⟩ : ∃ creq, Posted .std laxUris (echoService .serverStreaming) echoConfig
      (echoSpec .serverStream) (fun _ => .ok [7]) bareCall .serverStream [[7]] creq
        [0, 0, 0, 0, 1, 7] patiently (echoRequest creq [0, 0, 0, 0, 1, 7]) :=
    exists_posted .serverStream
  let resp : HandlerResponse (List SourceEvent) :=
    ⟨[.item (.contiguous [7]), .pending, .item (.contiguous [9])], .empty, .empty, none⟩
  have hanswer : (echoService .serverStreaming).serverStreamAnswer
      ((echoService .serverStreaming).checked (echoRequest creq [0, 0, 0, 0, 1, 7])) patiently
        echoConfig.protocol echoConfig.codecFormat [7] = .ok resp := by
    rw [Service.serverStreamAnswer]
    generalize (patiently.absoluteDeadline _).isSome = limited
    cases limited with
    | false => rfl
    | true => rfl
  have hreadable (metadata : RequestMetadata) : StreamReadable .std (echoService .serverStreaming)
      (bytesClient .grpc none) metadata resp [[7], [9]] := by
    refine ⟨⟨rfl, rfl, rfl, by decide⟩, ?_, ?_, ?_⟩
    · rw [encoderOf_echo]
      exact withinLimit_echo (by simp [resp])
    · rw [encoderOf_echo]
      exact .cons rfl (.cons rfl .nil)
    · rw [encoderOf_echo]
      exact ⟨trivial, by decide⟩
  obtain ⟨m, r, hm, hcall, -, hconveyed⟩ :=
    @serverStream_exchange _ _ _ _ _ _ _ _ _ _ _ _ _ _ _ [[7], [9]] hposted
      (awaits_echo .serverStreaming .serverStream) fun m hm => by
      obtain rfl := List.mem_singleton.mp hm
      rw [hanswer]
      exact hreadable _
  obtain ⟨rfl, -⟩ := List.cons.inj hm
  refine ⟨creq, r, hcall, fun got hgot late => ?_⟩
  have hstream := hconveyed got hgot late
  rw [hanswer, StreamAnswerConveyed, encoderOf_echo] at hstream
  exact hstream

/-- A bidi call yields its message and then the error. -/
theorem bidi_exchange_echo :
    ∃ creq r, ((echoService .bidiStreaming).call .std (echoRequest creq [0, 0, 0, 0, 1, 7])
        patiently).2 = some r ∧ ∀ got, ArrivesAs .std r got → ∀ late,
      ∃ e, StreamFails .std (bytesClient .grpc none) got late [[7]] e ∧
        ComesBack false false (.internal "x") e := by
  obtain ⟨creq, hposted⟩ : ∃ creq, Posted .std laxUris (echoService .bidiStreaming) echoConfig
      (echoSpec .bidiStream) (fun _ => .ok [7]) bareCall .bidiStream [[7]] creq
        [0, 0, 0, 0, 1, 7] patiently (echoRequest creq [0, 0, 0, 0, 1, 7]) :=
    exists_posted .bidiStream
  let resp : HandlerResponse (List SourceEvent) :=
    ⟨[.item (.contiguous [7]), .error (.internal "x")], .empty, .empty, none⟩
  have hanswer : (echoService .bidiStreaming).bidiAnswer
      ((echoService .bidiStreaming).checked (echoRequest creq [0, 0, 0, 0, 1, 7])) patiently
        echoConfig.protocol echoConfig.codecFormat = .ok resp := by
    rw [Service.bidiAnswer]
    generalize (Service.metadataOf _ _ _).timeout.isSome = limited
    cases limited with
    | false => rfl
    | true => rfl
  have hreadable (metadata : RequestMetadata) : StreamReadable .std (echoService .bidiStreaming)
      (bytesClient .grpc none) metadata resp [[7]] := by
    refine ⟨⟨rfl, rfl, rfl, by decide⟩, ?_, ?_, ?_⟩
    · rw [encoderOf_echo]
      exact withinLimit_echo (by simp [resp])
    · rw [encoderOf_echo]
      exact .cons rfl .nil
    · rw [encoderOf_echo]
      exact ⟨rfl, fun _ => rfl, (by decide : BlockRoom .std (some (.internal "x")) .empty)⟩
  obtain ⟨-, r, hcall, -, hconveyed⟩ :=
    @bidi_exchange _ _ _ _ _ _ _ _ _ _ _ _ _ _ _ [[7]] hposted
      (awaits_echo .bidiStreaming .bidiStream) (by
      rw [hanswer]
      exact hreadable _)
  refine ⟨creq, r, hcall, fun got hgot late => ?_⟩
  have hstream := hconveyed got hgot late
  rw [hanswer, StreamAnswerConveyed, encoderOf_echo] at hstream
  exact hstream

end ConnectRpc
