import ConnectRpc.GetRoundTrip
import ConnectRpc.HeaderPrecedence
import ConnectRpc.MessageLimit
import ConnectRpc.ResponseCompression

/-!
# Requests from the client to the handler

A client writes a request body and says in a header how its messages are encoded; the
server reads the body as that header says. This file follows the messages of a `POST`
request from one to the other: which values the headers have that the server asks for,
what the envelopes of a request are decoded as, and when the handler is given exactly the
messages of the caller (`request_roundTrips_iff`).
-/

namespace ConnectRpc

open Lib

variable (cr : Crates) (ur : UriCrates) {X : Type}

/-! ## What the generated headers say -/

/-- The values of a header that is written for a text, or not at all. -/
def Written (text : Option String) (values : List HeaderValue) : Prop :=
  match text with
  | none => values = []
  | some s => ∃ v, textValue cr s = some v ∧ values = [v]

namespace RequestBuilder

variable {cap : ℕ} {b : RequestBuilder} {n : HeaderName} {m : HeaderMap}

theorem header_ok {v : Option HeaderValue} (h : b.header cap n v = some m) :
    ∃ m' w, b = some m' ∧ v = some w ∧
      ∀ k, m.getAll k = m'.getAll k ++ if n = k then [w] else [] := by
  obtain ⟨m', hm', hrest⟩ := Option.bind_eq_some_iff.mp h
  obtain ⟨w, hw, hadd⟩ := Option.bind_eq_some_iff.mp hrest
  refine ⟨m', w, hm', hw, fun k => ?_⟩
  rw [HeaderMap.tryAppend_eq_some hadd, HeaderMap.getAll_append]

theorem optional_ok {v : Option (Option HeaderValue)} (h : b.optional cap n v = some m) :
    ∃ m' ws, b = some m' ∧ (v = none ∧ ws = [] ∨ ∃ w, v = some (some w) ∧ ws = [w]) ∧
      ∀ k, m.getAll k = m'.getAll k ++ if n = k then ws else [] := by
  cases v with
  | none =>
    refine ⟨m, [], h, .inl ⟨rfl, rfl⟩, fun k => ?_⟩
    rw [ite_self, List.append_nil]
  | some v =>
    obtain ⟨m', w, hm', rfl, hvalues⟩ := header_ok h
    exact ⟨m', [w], hm', .inr ⟨w, rfl, rfl⟩, hvalues⟩

/-- A header for an encoding, if there is one. -/
theorem encoding_ok {text : Option String}
    (h : b.optional cap n (encodingValue cr text) = some m) :
    ∃ m' ws, b = some m' ∧ Written cr text ws ∧
      ∀ k, m.getAll k = m'.getAll k ++ if n = k then ws else [] := by
  obtain ⟨m', ws, hm', hws, hvalues⟩ := optional_ok h
  refine ⟨m', ws, hm', ?_, hvalues⟩
  cases text with
  | none =>
    obtain ⟨-, rfl⟩ | ⟨w, hw, -⟩ := hws
    · rfl
    · cases hw
  | some s =>
    obtain ⟨hnone, -⟩ | ⟨w, hw, rfl⟩ := hws
    · cases hnone
    · exact ⟨w, Option.some.inj hw, rfl⟩

end RequestBuilder

/-- What the server asks for of a unary request on Connect. -/
theorem unaryHeaders_connect {config : ClientConfig} {timeout : Option Duration}
    {applied : Option String} {m : HeaderMap} (hp : config.protocol = .connect)
    (h : addUnaryRequestHeaders cr .new config timeout applied = some m) :
    m.getAll .contentType = [unaryRequestContentType config] ∧
      m.getAll hdr.connectProtocolVersion = [protocolVersionValue] ∧
        Written cr applied (m.getAll .contentEncoding) := by
  unfold addUnaryRequestHeaders at h
  simp only [hp] at h
  obtain ⟨m₁, ws₁, h, -, heq₁⟩ := RequestBuilder.optional_ok h
  obtain ⟨m₂, ws₂, h, -, heq₂⟩ := RequestBuilder.optional_ok h
  obtain ⟨m₃, ws₃, h, hwritten, heq₃⟩ := RequestBuilder.encoding_ok cr h
  obtain ⟨m₄, w₄, h, hw₄, heq₄⟩ := RequestBuilder.header_ok h
  obtain ⟨m₅, w₅, h, hw₅, heq₅⟩ := RequestBuilder.header_ok h
  obtain rfl := Option.some.inj h
  obtain rfl := Option.some.inj hw₄
  obtain rfl := Option.some.inj hw₅
  simp +decide only [heq₁, heq₂, heq₃, heq₄, heq₅, HeaderMap.getAll_empty, if_false, if_true,
    List.nil_append, List.append_nil]
  exact ⟨trivial, trivial, hwritten⟩

/-- The content type and the encoding of a unary request with an envelope. -/
theorem unaryHeaders_enveloped {config : ClientConfig} {timeout : Option Duration}
    {applied : Option String} {m : HeaderMap} (hp : config.protocol ≠ .connect)
    (h : addUnaryRequestHeaders cr .new config timeout applied = some m) :
    m.getAll .contentType = [unaryRequestContentType config] ∧
      Written cr config.requestCompression (m.getAll config.protocol.contentEncodingHeader) := by
  unfold addUnaryRequestHeaders at h
  obtain ⟨m₁, ws₁, h, -, heq₁⟩ := RequestBuilder.optional_ok h
  rcases hprotocol : config.protocol with _ | _ | _
  · exact absurd hprotocol hp
  · rw [hprotocol] at h heq₁
    obtain ⟨m₂, ws₂, h, -, heq₂⟩ := RequestBuilder.optional_ok h
    obtain ⟨m₃, ws₃, h, hwritten, heq₃⟩ := RequestBuilder.encoding_ok cr h
    obtain ⟨m₄, w₄, h, -, heq₄⟩ := RequestBuilder.header_ok h
    obtain ⟨m₅, w₅, h, hw₅, heq₅⟩ := RequestBuilder.header_ok h
    obtain rfl := Option.some.inj h
    obtain rfl := Option.some.inj hw₅
    simp +decide only [heq₁, heq₂, heq₃, heq₄, heq₅, HeaderMap.getAll_empty, if_false, if_true,
      List.nil_append, List.append_nil]
    exact ⟨trivial, hwritten⟩
  · rw [hprotocol] at h heq₁
    obtain ⟨m₂, ws₂, h, -, heq₂⟩ := RequestBuilder.optional_ok h
    obtain ⟨m₃, ws₃, h, hwritten, heq₃⟩ := RequestBuilder.encoding_ok cr h
    obtain ⟨m₄, w₄, h, hw₄, heq₄⟩ := RequestBuilder.header_ok h
    obtain rfl := Option.some.inj h
    obtain rfl := Option.some.inj hw₄
    simp +decide only [heq₁, heq₂, heq₃, heq₄, HeaderMap.getAll_empty, if_false, if_true,
      List.nil_append, List.append_nil]
    exact ⟨trivial, hwritten⟩

/-- Those of a streaming request. -/
theorem streamingHeaders_enveloped {config : ClientConfig} {timeout : Option Duration}
    {m : HeaderMap} (h : addStreamingRequestHeaders cr .new config timeout = some m) :
    m.getAll .contentType = [streamingRequestContentType config] ∧
      Written cr config.requestCompression (m.getAll config.protocol.contentEncodingHeader) := by
  unfold addStreamingRequestHeaders at h
  obtain ⟨m₁, ws₁, h, -, heq₁⟩ := RequestBuilder.optional_ok h
  obtain ⟨m₂, ws₂, h, -, heq₂⟩ := RequestBuilder.optional_ok h
  obtain ⟨m₃, ws₃, h, hwritten, heq₃⟩ := RequestBuilder.encoding_ok cr h
  rcases hprotocol : config.protocol with _ | _ | _
  · rw [hprotocol] at h heq₁ heq₂ heq₃
    obtain ⟨m₄, w₄, h, -, heq₄⟩ := RequestBuilder.header_ok h
    obtain ⟨m₅, w₅, h, hw₅, heq₅⟩ := RequestBuilder.header_ok h
    obtain rfl := Option.some.inj h
    obtain rfl := Option.some.inj hw₅
    simp +decide only [heq₁, heq₂, heq₃, heq₄, heq₅, HeaderMap.getAll_empty, if_false, if_true,
      List.nil_append, List.append_nil]
    exact ⟨trivial, hwritten⟩
  · rw [hprotocol] at h heq₁ heq₂ heq₃
    obtain ⟨m₄, w₄, h, -, heq₄⟩ := RequestBuilder.header_ok h
    obtain ⟨m₅, w₅, h, hw₅, heq₅⟩ := RequestBuilder.header_ok h
    obtain rfl := Option.some.inj h
    obtain rfl := Option.some.inj hw₅
    simp +decide only [heq₁, heq₂, heq₃, heq₄, heq₅, HeaderMap.getAll_empty, if_false, if_true,
      List.nil_append, List.append_nil]
    exact ⟨trivial, hwritten⟩
  · rw [hprotocol] at h heq₁ heq₂ heq₃
    obtain ⟨m₄, w₄, h, hw₄, heq₄⟩ := RequestBuilder.header_ok h
    obtain rfl := Option.some.inj h
    obtain rfl := Option.some.inj hw₄
    simp +decide only [heq₁, heq₂, heq₃, heq₄, HeaderMap.getAll_empty, if_false, if_true,
      List.nil_append, List.append_nil]
    exact ⟨trivial, hwritten⟩

/-- What a header says that is written for a token, or not at all. -/
theorem Written.text {text : Option String} {values : List HeaderValue} (h : Written cr text values)
    (htoken : ∀ name ∈ text, isHttpToken name = true) :
    values.head?.bind HeaderValue.toStr = text := by
  cases text with
  | none =>
    rw [Written] at h
    rw [h]
    rfl
  | some name =>
    obtain ⟨v, hv, rfl⟩ := h
    have hname := htoken name rfl
    simp only [isHttpToken, Bool.and_eq_true, List.all_eq_true] at hname
    have hascii : asBytes name = name.toList.map byteOfChar :=
      utf8_ascii fun c hc => (visibleByte_of_token (hname.2 c hc)).1
    have hbytes := HeaderValue.bytes_of_fromStr hv
    have hvisible : v.visible = true := by
      rw [HeaderValue.visible, hbytes, hascii, List.all_map, List.all_eq_true]
      exact fun c hc => (visibleByte_of_token (hname.2 c hc)).2
    have hback : (v.bytes.map charOfByte) = name.toList := by
      rw [hbytes, hascii, List.map_map]
      conv => rhs; rw [← List.map_id name.toList]
      exact List.map_congr_left fun c hc =>
        charOfByte_byteOfChar (visibleByte_of_token (hname.2 c hc)).1
    rw [List.head?_cons, Option.bind_some, HeaderValue.toStr, if_pos hvisible, hback,
      String.ofList_toList]

/-- What compresses for a server is named by a token. -/
theorem Inverts.isHttpToken {sender receiver : CompressionRegistry} {encoding : String}
    (h : Inverts sender receiver encoding) : isHttpToken encoding = true := by
  by_cases hid : encoding = "identity"
  · rw [hid]
    decide +kernel
  · obtain ⟨p, hp⟩ := Option.isSome_iff_exists.mp (h.registered hid)
    exact CompressionRegistry.isHttpToken_of_get hp

/-- The text of a header that the user sets, if the protocol does not. -/
def userText (config : ClientConfig) (options : CallOptions) (n : HeaderName) : Option String :=
  (userValues config options n).head?.bind HeaderValue.toStr

/-- The server reads the encoding that is written, or else that of the user. -/
theorem text_encoding {headers generated : HeaderMap} {config : ClientConfig}
    {options : CallOptions} {n : HeaderName} {text : Option String}
    (hvalues : headers.getAll n = generated.getAll n ++ userValues config options n)
    (hwritten : Written cr text (generated.getAll n))
    (htoken : ∀ name ∈ text, isHttpToken name = true) :
    headers.text n = text.or (userText config options n) := by
  have hread := hwritten.text cr htoken
  rw [HeaderMap.text, HeaderMap.get, hvalues, List.head?_append]
  cases text with
  | none =>
    rw [Written] at hwritten
    rw [hwritten]
    rfl
  | some name =>
    obtain ⟨v, -, hone⟩ := hwritten
    rw [hone] at hread ⊢
    exact hread

/-- And the content type that is written. -/
theorem text_contentType {headers generated : HeaderMap} {config : ClientConfig}
    {options : CallOptions} {n : HeaderName} {v : HeaderValue}
    (hvalues : headers.getAll n = generated.getAll n ++ userValues config options n)
    (hwritten : generated.getAll n = [v]) : headers.text n = v.toStr := by
  rw [HeaderMap.text, HeaderMap.get, hvalues, hwritten]
  rfl

/-! ## Request forms -/

/-- The forms of a `POST` request. -/
inductive PostForm : Type where
  | unary
  | serverStream
  | clientStream
  | bidiStream
  deriving DecidableEq

namespace PostForm

/-- The entry point of a form. -/
def entryPoint : PostForm → EntryPoint
  | unary => .unary
  | serverStream => .serverStream
  | clientStream => .clientStream
  | bidiStream => .bidiStream

/-- Whether the messages of a form have envelopes. -/
def enveloped (protocol : Protocol) (form : PostForm) : Bool :=
  form ≠ .unary || protocol ≠ .connect

/-- The messages that are sent in a form: the one that the call was given, or whatever the
caller streams. -/
def Sends (config : ClientConfig) (message : ClientMessage) (messages : List Bytes) :
    PostForm → Prop
  | unary | serverStream => ∃ body, message config.codecFormat = .ok body ∧ messages = [body]
  | clientStream | bidiStream => True

end PostForm

/-- The bytes of a body: those there are, or the messages as the encoder puts them into
frames, one by one. -/
def ClientBody.bytes (messages : List Bytes) : ClientBody → Except ConnectError Bytes
  | .full b => .ok b
  | .encoding encoder _ | .channel encoder _ =>
    (messages.mapM fun m => encoder.encode m []).map List.flatten

/-- A body with these bytes, however it is cut, is collected within the limits and decoded
to this. -/
def Collects (X : Type) {α : Type} (limits : Limits) (decode : Bytes → Except ConnectError α)
    (sent : Bytes) (a : α) : Prop :=
  ∀ body : RequestBody, body.Carries sent → ∃ b,
    (collectBodyLimited (X := X) limits.maxRequestBodySize none body.polls []).2 = .ok b ∧
      decode b = .ok a

namespace Service

variable (s : Service X)

/-- What the handler of a form is given of a body. -/
def Reads (limits : Limits) (metadata : RequestMetadata) (protocol : Protocol)
    (codec : CodecFormat) (sent : Bytes) (messages : List Bytes) : PostForm → Prop
  | .unary => ∃ m, messages = [m] ∧
    if protocol = .connect then
      Collects X limits (s.postRequestBody metadata limits) sent (m, codec)
    else Collects X limits (grpcUnaryRequestBody protocol (s.requestSetup metadata limits)) sent m
  | .serverStream => ∃ m, messages = [m] ∧
    Collects X limits (serverStreamingRequestBody protocol (s.requestSetup metadata limits)) sent m
  | .clientStream | .bidiStream =>
    ∀ body : RequestBody, body.Carries sent →
      Yields (s.requestSetup metadata limits) body messages

/-- The decode path of a form hands exactly these messages to the handler. -/
structure HandsOver (limits : Limits) (http : HttpRequest X) (form : PostForm)
    (protocol : Protocol) (codec : CodecFormat) (sent : Bytes) (messages : List Bytes) : Prop where
  /-- the content type is taken for what it is -/
  detected : Protocol.detect s.json http.headers =
    some ⟨protocol, codec, form.enveloped protocol, false⟩
  /-- the encoding of envelopes is not refused -/
  supported : form.enveloped protocol = true →
    s.unsupportedEncoding (s.metadataOf http protocol) = none
  /-- the messages come out of the body -/
  read : s.Reads limits (s.metadataOf http protocol) protocol codec sent messages form

end Service

/-- Collecting a body gives what it carries. -/
theorem collectBodyLimited_of_carries {limit : ℕ} : ∀ {polls : List (Poll RequestFrame)}
    {b got : Bytes}, requestRest (ready polls) = (b, .eof) → got.length + b.length ≤ limit →
      (collectBodyLimited (X := X) limit none polls got).2 = .ok (got ++ b)
  | [], b, got, h, _ => by
    obtain rfl := (Prod.mk.inj h).1
    rw [List.append_nil]
    rfl
  | .pending :: polls, b, got, h, hlimit => by
    rw [ready_pending] at h
    rw [collectBodyLimited]
    exact collectBodyLimited_of_carries h hlimit
  | .ready (.data d) :: polls, b, got, h, hlimit => by
    rw [ready_ready, requestRest] at h
    obtain ⟨rfl, hend⟩ := Prod.mk.inj h
    rw [List.length_append] at hlimit
    have hfits : ¬ limit < got.length + d.length := by omega
    rw [collectBodyLimited, if_neg hfits, ← List.append_assoc]
    refine collectBodyLimited_of_carries (Prod.ext rfl hend) ?_
    rw [List.length_append]
    omega
  | .ready .trailers :: polls, b, got, h, hlimit => by
    rw [ready_ready, requestRest] at h
    rw [collectBodyLimited]
    exact collectBodyLimited_of_carries h hlimit
  | .ready (.failed e) :: polls, b, got, h, _ => by
    rw [ready_ready, requestRest] at h
    cases h

/-- Some body carries any bytes. -/
theorem exists_carries (b : Bytes) : ∃ body : RequestBody, body.Carries b := by
  refine ⟨⟨[.ready (.data b)], fun _ => false⟩, ?_⟩
  rw [RequestBody.Carries, ready_ready, ready_nil, requestRest, requestRest, List.append_nil]

/-- A body within the limit is decoded as its bytes are. -/
theorem collects_iff {α : Type} {limits : Limits} {decode : Bytes → Except ConnectError α}
    {sent : Bytes} {a : α} (hlimit : sent.length ≤ limits.maxRequestBodySize) :
    Collects X limits decode sent a ↔ decode sent = .ok a := by
  have hcollect (body : RequestBody) (hbody : body.Carries sent) :
      (collectBodyLimited (X := X) limits.maxRequestBodySize none body.polls []).2 = .ok sent :=
    collectBodyLimited_of_carries hbody (by rw [List.length_nil, Nat.zero_add]; exact hlimit)
  constructor
  · intro h
    obtain ⟨body, hbody⟩ := exists_carries sent
    obtain ⟨b, hb, ha⟩ := h body hbody
    obtain rfl := Except.ok.inj ((hcollect body hbody).symm.trans hb)
    exact ha
  · exact fun h body hbody => ⟨sent, hcollect body hbody, h⟩

/-! ## Envelopes -/

/-- A server set up for what a client sends: it is told the encoding, and its registry undoes
the client's. -/
def RequestSetup.Understands (t : RequestSetup)
    (compression : Option (CompressionRegistry × String)) : Prop :=
  ∀ reg encoding, compression = some (reg, encoding) →
    t.streamingEncoding = some encoding ∧ Inverts reg t.compression encoding

/-- An encoder flags a message as compressed, though under `identity` there is nothing to
decompress. -/
def EnvelopeEncoder.FlagsIdentity (enc : EnvelopeEncoder) (m : Bytes) : Prop :=
  enc.policy.shouldCompress m.length = true ∧ ∃ reg, enc.compression = some (reg, "identity")

section Envelopes

variable {t : RequestSetup} {enc : EnvelopeEncoder} {m : Bytes} {e : Envelope}

/-- The message comes out of its envelope unless that is flagged under `identity`. -/
theorem requestPayload_envelope_iff (hunderstands : t.Understands enc.compression)
    (he : enc.envelope (.contiguous m) = .ok e) (hlen : m.length ≤ t.maxMessageSize)
    (header : String) :
    requestPayload header t.streamingEncoding t.compression t.maxMessageSize e = .ok m ↔
      ¬ enc.FlagsIdentity m := by
  rw [requestPayload_ok_iff, EnvelopeEncoder.FlagsIdentity]
  rcases EnvelopeEncoder.envelope_cases he with ⟨rfl, hplain⟩ | ⟨reg, name, z, hc, hs, hz, rfl⟩
  · obtain ⟨hdata, -, -⟩ := Envelope.kind_eq (Envelope.kind_data m)
    refine iff_of_true (.inl ⟨hdata, rfl⟩) ?_
    rintro ⟨hs, reg, hreg⟩
    rcases hplain with hnone | hno
    · rw [hnone] at hreg
      cases hreg
    · exact absurd (hs.symm.trans hno) (by decide)
  · obtain ⟨hname, hinverts⟩ := hunderstands reg name hc
    obtain ⟨hcompressed, -, -⟩ := Envelope.kind_eq (Envelope.kind_compressed z)
    rw [hcompressed, hname]
    constructor
    · rintro (⟨hfalse, -⟩ | ⟨-, name', hname', hid, -⟩) ⟨-, reg', hreg'⟩
      · cases hfalse
      · obtain rfl := Option.some.inj hname'
        exact hid (Prod.mk.inj (Option.some.inj (hc.symm.trans hreg'))).2
    · intro hno
      refine .inr ⟨rfl, name, rfl, ?_, hinverts.decompress_compress hz hlen⟩
      rintro rfl
      exact hno ⟨hs, reg, hc⟩

/-- A message is not flagged END_STREAM. -/
theorem isEndStream_envelope (he : enc.envelope (.contiguous m) = .ok e) : e.isEndStream = false := by
  rw [Envelope.isEndStream]
  rcases StreamSetup.message_flags he with h | h
  · rw [h]
    rfl
  · rw [h]
    rfl

theorem decodeEnvelope_envelope_iff (hunderstands : t.Understands enc.compression)
    (he : enc.envelope (.contiguous m) = .ok e) (hlen : m.length ≤ t.maxMessageSize) :
    t.decodeEnvelope e = .ok (.message m) ↔ ¬ enc.FlagsIdentity m := by
  rw [← requestPayload_envelope_iff hunderstands he hlen "connect-content-encoding",
    RequestSetup.decodeEnvelope, isEndStream_envelope he, if_neg Bool.false_ne_true]
  rcases requestPayload "connect-content-encoding" t.streamingEncoding t.compression
    t.maxMessageSize e with err | d
  · exact iff_of_false (fun h => by cases h) (fun h => by cases h)
  · constructor
    · intro h
      rw [Decoded.message.inj (Except.ok.inj h)]
    · intro h
      rw [Except.ok.inj h]
      rfl

/-- Exactly the messages are read where every envelope gives its own. -/
theorem reading_messages_iff : ∀ {es : List Envelope} {messages : List Bytes},
    (∀ e ∈ es, e.isEndStream = false ∧ e.data.length ≤ u32Max ∧
      e.data.length ≤ t.maxMessageSize) →
    (t.reading (es.flatMap Envelope.wire) .eof = (messages, none) ↔
      es.map t.decodeEnvelope = messages.map fun d => .ok (.message d)) := by
  have hnothing : t.reading [] .eof = ([], none) :=
    RequestSetup.reading_none (decodeWith_short (by decide))
  intro es
  induction es with
  | nil =>
    intro messages _
    rw [List.flatMap_nil, hnothing, List.map_nil, Prod.mk.injEq, and_iff_left rfl, eq_comm,
      eq_comm (a := []), List.map_eq_nil_iff]
  | cons e es ih =>
    intro messages hes
    obtain ⟨hend, hsize, hlimit⟩ := hes e List.mem_cons_self
    have hrest := fun messages => @ih messages fun e' he' => hes e' (List.mem_cons_of_mem _ he')
    have hitem : decodeWith t.limits ((e :: es).flatMap Envelope.wire) =
        .ok (some (e, es.flatMap Envelope.wire)) := by
      rw [List.flatMap_cons]
      exact decodeWith_wire _ hsize hlimit
    rw [RequestSetup.reading_item .eof hitem, List.map_cons]
    rcases hdecoded : t.decodeEnvelope e with err | x
    · refine iff_of_false (fun h => ?_) (fun h => ?_)
      · cases h
      · rcases messages with _ | ⟨m, messages⟩
        · cases h
        · cases (List.cons.inj h).1
    · obtain ⟨htrue, -⟩ | ⟨-, d, rfl, -⟩ := decodeEnvelope_cases hdecoded
      · rw [hend] at htrue
        cases htrue
      · rcases messages with _ | ⟨m, messages⟩
        · exact iff_of_false (fun h => by cases h) (fun h => by cases h)
        · simp only [List.cons.injEq, List.map_cons, ← hrest messages, Except.ok.injEq,
            Decoded.message.injEq, Prod.ext_iff, and_assoc]

/-- Envelopes that fit. -/
theorem envelopes_sound {limit : ℕ} {messages : List Bytes} {es : List Envelope}
    (hes : List.Forall₂ (fun m e => enc.envelope (.contiguous m) = .ok e) messages es)
    (hlimit : ∀ m ∈ messages, ∀ e, enc.envelope (.contiguous m) = .ok e → e.data.length ≤ limit) :
    ∀ e ∈ es, e.isEndStream = false ∧ e.data.length ≤ u32Max ∧ e.data.length ≤ limit := by
  induction hes with
  | nil => exact fun e he => absurd he List.not_mem_nil
  | cons he _ ih =>
    rw [List.forall_mem_cons] at hlimit ⊢
    exact ⟨⟨isEndStream_envelope he, EnvelopeEncoder.envelope_length he, hlimit.1 _ he⟩, ih hlimit.2⟩

/-- **Streams of messages** are read as they were sent if and only if none of them is flagged
under `identity`. -/
theorem reading_envelopes_iff (hunderstands : t.Understands enc.compression)
    {messages : List Bytes} {es : List Envelope}
    (hes : List.Forall₂ (fun m e => enc.envelope (.contiguous m) = .ok e) messages es)
    (hlimit : ∀ m ∈ messages, m.length ≤ t.maxMessageSize ∧
      ∀ e, enc.envelope (.contiguous m) = .ok e → e.data.length ≤ t.maxMessageSize) :
    t.reading (es.flatMap Envelope.wire) .eof = (messages, none) ↔
      ∀ m ∈ messages, ¬ enc.FlagsIdentity m := by
  rw [reading_messages_iff (envelopes_sound hes fun m hm => (hlimit m hm).2)]
  induction hes with
  | nil => exact iff_of_true rfl fun m hm => absurd hm List.not_mem_nil
  | cons he _ ih =>
    have hrest := ih fun m hm => hlimit m (List.mem_cons_of_mem _ hm)
    rw [List.map_cons, List.map_cons, List.cons.injEq, List.forall_mem_cons,
      decodeEnvelope_envelope_iff hunderstands he (hlimit _ List.mem_cons_self).1, hrest]

/-- One envelope, collected whole. -/
theorem decodeSingleMessage_envelope_iff (hunderstands : t.Understands enc.compression)
    (he : enc.envelope (.contiguous m) = .ok e) (hlen : m.length ≤ t.maxMessageSize)
    (hlimit : e.data.length ≤ t.maxMessageSize) (texts : SingleMessageTexts) (header : String) :
    decodeSingleMessage texts header t e.wire = .ok m ↔ ¬ enc.FlagsIdentity m := by
  have hitem : decodeWith t.limits e.wire = .ok (some (e, [])) :=
    decodeWith_eq_item_iff.mpr ⟨rfl, EnvelopeEncoder.envelope_length he, hlimit⟩
  rw [← requestPayload_envelope_iff hunderstands he hlen header, decodeSingleMessage_ok_iff]
  constructor
  · rintro ⟨e', he', hpayload⟩
    obtain ⟨rfl, -⟩ := Prod.mk.inj (Option.some.inj (Except.ok.inj (hitem.symm.trans he')))
    exact hpayload
  · exact fun hpayload => ⟨e, hitem, hpayload⟩

end Envelopes

/-! ## What is sent -/

section Sent

variable {config : ClientConfig} {spec : CallSpec} {message : ClientMessage}
variable {options effective : CallOptions} {req : ClientRequest} {form : PostForm}
variable {messages : List Bytes} {sent : Bytes}

/-- The encoder only depends on whether the call overrides the policy. -/
theorem requestEncoder_congr (h : effective.compress = options.compress) :
    requestEncoder config effective = requestEncoder config options := by
  rw [requestEncoder, requestEncoder, h]

/-- One message as the encoder frames it. -/
theorem encode_ok {enc : EnvelopeEncoder} {m : Bytes} (h : enc.encode m [] = .ok sent) :
    ∃ e, enc.envelope (.contiguous m) = .ok e ∧ sent = e.wire := by
  rw [EnvelopeEncoder.encode_eq] at h
  obtain ⟨e, he, hsent⟩ := exists_of_map_ok h
  exact ⟨e, he, hsent.symm⟩

/-- All of them. -/
theorem mapM_encode_ok {enc : EnvelopeEncoder} : ∀ {messages : List Bytes} {ws : List Bytes},
    (messages.mapM fun m => enc.encode m []) = .ok ws →
      ∃ es, List.Forall₂ (fun m e => enc.envelope (.contiguous m) = .ok e) messages es ∧
        ws.flatten = es.flatMap Envelope.wire := by
  intro messages
  induction messages with
  | nil =>
    intro ws h
    obtain rfl := Except.ok.inj h
    exact ⟨[], .nil, rfl⟩
  | cons m messages ih =>
    intro ws h
    rw [List.mapM_cons] at h
    obtain ⟨w, hw, h⟩ := exists_of_bind_ok h
    obtain ⟨ws, hws, h⟩ := exists_of_bind_ok h
    obtain rfl := Except.ok.inj h
    obtain ⟨e, he, rfl⟩ := encode_ok hw
    obtain ⟨es, hes, hflat⟩ := ih hws
    exact ⟨e :: es, .cons he hes, by rw [List.flatten_cons, List.flatMap_cons, hflat]⟩

/-- One message is sent as one envelope. -/
theorem bytes_full {enc : EnvelopeEncoder} {body w : Bytes}
    (hmessage : ∃ body', message config.codecFormat = .ok body' ∧ messages = [body'])
    (hbody : message config.codecFormat = .ok body) (hw : enc.encode body [] = .ok w)
    (hsent : (ClientBody.full w).bytes messages = .ok sent) :
    ∃ es, List.Forall₂ (fun m e => enc.envelope (.contiguous m) = .ok e) messages es ∧
      sent = es.flatMap Envelope.wire := by
  obtain ⟨body', hbody', rfl⟩ := hmessage
  obtain rfl := Except.ok.inj (hbody.symm.trans hbody')
  obtain rfl := Except.ok.inj hsent
  obtain ⟨e, he, rfl⟩ := encode_ok hw
  exact ⟨[e], .cons he .nil, by rw [List.flatMap_cons, List.flatMap_nil, List.append_nil]⟩

/-- **Enveloped requests** are the envelopes of their messages. -/
theorem PostForm.request_enveloped
    (h : form.entryPoint.request cr ur config spec message options = .ok req)
    (hmessages : form.Sends config message messages) (hsent : req.body.bytes messages = .ok sent)
    (henveloped : form.enveloped config.protocol = true) :
    ∃ es, List.Forall₂ (fun m e =>
        (requestEncoder config options).envelope (.contiguous m) = .ok e) messages es ∧
      sent = es.flatMap Envelope.wire := by
  cases form with
  | unary =>
    obtain ⟨-, -, h⟩ := exists_of_bind_ok h
    obtain ⟨effective, he, h⟩ := exists_of_bind_ok h
    obtain ⟨uri, -, h⟩ := exists_of_bind_ok h
    obtain ⟨body, hbody, h⟩ := exists_of_bind_ok h
    obtain ⟨⟨payload, applied⟩, hpayload, h⟩ := exists_of_bind_ok h
    obtain ⟨generated, -, rfl⟩ := finishRequest_ok cr h
    have hpayload := orError_eq_ok hpayload
    have hp : config.protocol ≠ .connect := by simpa [PostForm.enveloped] using henveloped
    have hframed : (requestEncoder config effective).encode body [] = .ok payload := by
      unfold unaryRequestBody at hpayload
      rcases hprotocol : config.protocol with _ | _ | _
      · exact absurd hprotocol hp
      · rw [hprotocol] at hpayload
        rcases hencode : (requestEncoder config effective).encode body [] with err | w
        · simp only [hencode] at hpayload
          cases hpayload
        · simp only [hencode] at hpayload
          rw [(Prod.mk.inj (Except.ok.inj hpayload)).1]
      · rw [hprotocol] at hpayload
        rcases hencode : (requestEncoder config effective).encode body [] with err | w
        · simp only [hencode] at hpayload
          cases hpayload
        · simp only [hencode] at hpayload
          rw [(Prod.mk.inj (Except.ok.inj hpayload)).1]
    rw [requestEncoder_congr (effectiveOptions_ok cr he).2.2] at hframed
    exact bytes_full hmessages (orError_eq_ok hbody) hframed hsent
  | serverStream =>
    obtain ⟨-, -, h⟩ := exists_of_bind_ok h
    obtain ⟨effective, he, h⟩ := exists_of_bind_ok h
    obtain ⟨uri, -, h⟩ := exists_of_bind_ok h
    obtain ⟨body, hbody, h⟩ := exists_of_bind_ok h
    obtain ⟨framed, hframed, h⟩ := exists_of_bind_ok h
    obtain ⟨generated, -, rfl⟩ := finishRequest_ok cr h
    have hframed := orError_eq_ok hframed
    rw [requestEncoder_congr (effectiveOptions_ok cr he).2.2] at hframed
    exact bytes_full hmessages (orError_eq_ok hbody) hframed hsent
  | clientStream =>
    obtain ⟨-, -, h⟩ := exists_of_bind_ok h
    obtain ⟨effective, he, h⟩ := exists_of_bind_ok h
    obtain ⟨uri, -, h⟩ := exists_of_bind_ok h
    obtain ⟨generated, -, rfl⟩ := finishRequest_ok cr h
    obtain ⟨ws, hws, rfl⟩ := exists_of_map_ok hsent
    rw [requestEncoder_congr (effectiveOptions_ok cr he).2.2] at hws
    exact mapM_encode_ok hws
  | bidiStream =>
    obtain ⟨-, -, h⟩ := exists_of_bind_ok h
    obtain ⟨effective, he, h⟩ := exists_of_bind_ok h
    obtain ⟨uri, -, h⟩ := exists_of_bind_ok h
    obtain ⟨generated, -, rfl⟩ := finishRequest_ok cr h
    obtain ⟨ws, hws, rfl⟩ := exists_of_map_ok hsent
    rw [requestEncoder_congr (effectiveOptions_ok cr he).2.2] at hws
    exact mapM_encode_ok hws

/-- **Connect unary requests** are the message, compressed where that is announced. -/
theorem callUnary_whole (h : callUnary cr ur config spec message options = .ok req)
    (hp : config.protocol = .connect) (hsent : req.body.bytes messages = .ok sent) :
    ∃ body, message config.codecFormat = .ok body ∧
      compressWhole config options body = .ok (sent, wholeEncoding config options message) := by
  obtain ⟨-, -, h⟩ := exists_of_bind_ok h
  obtain ⟨effective, he, h⟩ := exists_of_bind_ok h
  obtain ⟨uri, -, h⟩ := exists_of_bind_ok h
  obtain ⟨body, hbody, h⟩ := exists_of_bind_ok h
  obtain ⟨⟨payload, applied⟩, hpayload, h⟩ := exists_of_bind_ok h
  obtain ⟨generated, -, rfl⟩ := finishRequest_ok cr h
  obtain rfl := Except.ok.inj hsent
  have hcompress := (effectiveOptions_ok cr he).2.2
  have hwhole := orError_eq_ok hpayload
  rw [unaryRequestBody, hp] at hwhole
  refine ⟨body, orError_eq_ok hbody, ?_⟩
  rw [← compressWhole_ok (orError_eq_ok hbody) hcompress hwhole, ← hwhole]
  simp only [compressWhole, hcompress]

end Sent

/-! ## What the server is told -/

/-- The content type of a request form. -/
def PostForm.contentType (config : ClientConfig) (form : PostForm) : HeaderValue :=
  contentTypeValue config.protocol config.codecFormat (form ≠ .unary)

theorem toStr_contentTypeValue (protocol : Protocol) (codec : CodecFormat) (isStreaming : Bool) :
    (contentTypeValue protocol codec isStreaming).toStr =
      some (protocol.responseContentType codec isStreaming) := by
  cases protocol <;> cases codec <;> cases isStreaming <;> decide +kernel

/-- A content type is taken for what it is, unless a server without JSON is sent some. -/
theorem detectFromContentType_eq (json : Bool) (protocol : Protocol) (codec : CodecFormat)
    (isStreaming : Bool) :
    Protocol.detectFromContentType json (protocol.responseContentType codec isStreaming) =
      if json = true ∨ codec = .proto then
        some ⟨protocol, codec, isStreaming || protocol ≠ .connect, false⟩
      else none := by
  cases protocol <;> cases codec <;> cases isStreaming <;> cases json <;> decide +kernel

theorem PostForm.detect_contentType (json : Bool) (config : ClientConfig) (form : PostForm) :
    (form.contentType config).toStr.bind (Protocol.detectFromContentType json) =
      if json = true ∨ config.codecFormat = .proto then
        some ⟨config.protocol, config.codecFormat, form.enveloped config.protocol, false⟩
      else none := by
  rw [PostForm.contentType, toStr_contentTypeValue, Option.bind_some, detectFromContentType_eq]
  rfl

/-- So is that of a Connect unary request, when its codec is looked up. -/
theorem fromContentType_unary (json : Bool) (codec : CodecFormat) :
    (contentTypeValue .connect codec false).toStr.bind (CodecFormat.fromContentType json) =
      if json = true ∨ codec = .proto then some codec else none := by
  rw [toStr_contentTypeValue, Option.bind_some]
  cases codec <;> cases json <;> decide +kernel

section Told

variable {config : ClientConfig} {spec : CallSpec} {message : ClientMessage}
variable {options : CallOptions} {req : ClientRequest} {form : PostForm}

/-- The content type of a request. -/
theorem PostForm.text_contentType
    (h : form.entryPoint.request cr ur config spec message options = .ok req) :
    req.headers.text .contentType = (form.contentType config).toStr := by
  obtain ⟨generated, hgenerated, hvalues⟩ := form.entryPoint.request_values cr ur h
  refine ConnectRpc.text_contentType (hvalues _) ?_
  cases form with
  | unary =>
    by_cases hp : config.protocol = .connect
    · exact (unaryHeaders_connect cr hp hgenerated).1
    · exact (unaryHeaders_enveloped cr hp hgenerated).1
  | serverStream => exact (streamingHeaders_enveloped cr hgenerated).1
  | clientStream => exact (streamingHeaders_enveloped cr hgenerated).1
  | bidiStream => exact (streamingHeaders_enveloped cr hgenerated).1

/-- The encoding that the envelopes of a request are announced with. -/
theorem PostForm.text_contentEncodingHeader
    (h : form.entryPoint.request cr ur config spec message options = .ok req)
    (henveloped : form.enveloped config.protocol = true)
    (htoken : ∀ name ∈ config.requestCompression, isHttpToken name = true) :
    req.headers.text config.protocol.contentEncodingHeader =
      config.requestCompression.or
        (userText config options config.protocol.contentEncodingHeader) := by
  obtain ⟨generated, hgenerated, hvalues⟩ := form.entryPoint.request_values cr ur h
  refine text_encoding cr (hvalues _) ?_ htoken
  cases form with
  | unary =>
    have hp : config.protocol ≠ .connect := by simpa [PostForm.enveloped] using henveloped
    exact (unaryHeaders_enveloped cr hp hgenerated).2
  | serverStream => exact (streamingHeaders_enveloped cr hgenerated).2
  | clientStream => exact (streamingHeaders_enveloped cr hgenerated).2
  | bidiStream => exact (streamingHeaders_enveloped cr hgenerated).2

end Told

/-! ## The round trip -/

/-- A provider of this name leaves a message as it is: there is one for it, or none is
needed. -/
def CompressionRegistry.Keeps (reg : CompressionRegistry) (name : String) (m : Bytes) (limit : ℕ) :
    Prop :=
  name = "identity" ∨
    ∃ p, reg.get name = some p ∧ (m = [] ∨ p.decompressWithLimit m limit = .ok m)

theorem CompressionRegistry.decompress_self_iff {reg : CompressionRegistry} {name : String}
    {m : Bytes} {limit : ℕ} (hlen : m.length ≤ limit) :
    reg.decompressWithLimit name m limit = .ok m ↔ reg.Keeps name m limit := by
  rw [CompressionRegistry.decompressWithLimit, CompressionRegistry.Keeps]
  by_cases hid : name = "identity"
  · rw [if_pos hid, if_neg (Nat.not_lt.mpr hlen)]
    exact iff_of_true rfl (.inl hid)
  · rw [if_neg hid, or_iff_right hid]
    rcases reg.get name with _ | p
    · exact iff_of_false (fun h => by cases h) (fun h => by obtain ⟨p, hp, -⟩ := h; cases hp)
    · by_cases hempty : m = []
      · simp only [if_pos hempty]
        exact iff_of_true trivial ⟨p, rfl, .inl hempty⟩
      · simp only [if_neg hempty]
        constructor
        · exact fun h => ⟨p, rfl, .inr h⟩
        · rintro ⟨q, hq, hnil | hself⟩
          · exact absurd hnil hempty
          · obtain rfl := Option.some.inj hq
            exact hself

/-- A request is within the limits of a server: each message as it is and as it is sent, and
the body where it is collected. -/
structure WithinLimits (limits : Limits) (config : ClientConfig) (options : CallOptions)
    (form : PostForm) (messages : List Bytes) (sent : Bytes) : Prop where
  /-- the messages -/
  message : ∀ m ∈ messages, m.length ≤ limits.maxMessageSize
  /-- their envelopes -/
  envelope : form.enveloped config.protocol = true → ∀ m ∈ messages, ∀ e,
    (requestEncoder config options).envelope (.contiguous m) = .ok e →
      e.data.length ≤ limits.maxMessageSize
  /-- the body -/
  body : form = .unary ∨ form = .serverStream → sent.length ≤ limits.maxRequestBodySize

/-- When a request arrives as it was sent. -/
structure Arrives (s : Service X) (limits : Limits) (config : ClientConfig) (options : CallOptions)
    (message : ClientMessage) (form : PostForm) (messages : List Bytes) : Prop where
  /-- the server knows the codec -/
  codec : s.json = true ∨ config.codecFormat = .proto
  /-- no message in an envelope is compressed with `identity` -/
  unflagged : form.enveloped config.protocol = true → config.requestCompression = some "identity" →
    ∀ m ∈ messages,
      (config.compressionPolicy.withOverride options.compress).shouldCompress m.length = false
  /-- where envelopes have no encoding, the user names none that the server does not know -/
  unnamed : form.enveloped config.protocol = true → config.requestCompression = none →
    ∀ name ∈ userText config options config.protocol.contentEncodingHeader,
      name = "identity" ∨ s.compression.supports name = true
  /-- where a message is sent as it is, the user names no encoding that changes it -/
  whole : form.enveloped config.protocol = false → wholeEncoding config options message = none →
    ∀ name ∈ userText config options .contentEncoding, ∀ m ∈ messages,
      s.compression.Keeps name m limits.maxMessageSize

section Arrival

variable {s : Service X} {limits : Limits} {http : HttpRequest X}
variable {config : ClientConfig} {spec : CallSpec} {message : ClientMessage}
variable {options : CallOptions} {req : ClientRequest} {form : PostForm}
variable {messages : List Bytes} {sent : Bytes}

/-- An encoder of requests flags a message under `identity` where the policy has the message
compressed. -/
theorem flagsIdentity_iff {m : Bytes} : (requestEncoder config options).FlagsIdentity m ↔
    config.requestCompression = some "identity" ∧
      (config.compressionPolicy.withOverride options.compress).shouldCompress m.length = true := by
  rw [EnvelopeEncoder.FlagsIdentity, requestEncoder, and_comm]
  refine and_congr_left fun _ => ?_
  rcases config.requestCompression with _ | name
  · exact iff_of_false (fun ⟨_, h⟩ => by cases h) (fun h => by cases h)
  · simp only [Option.map_some, Option.some.injEq, Prod.mk.injEq, exists_eq_left']

/-- **Messages in envelopes** are read as they were sent unless one is flagged under
`identity`. -/
theorem Service.reads_enveloped_iff {metadata : RequestMetadata} {es : List Envelope}
    (hunderstands : (s.requestSetup metadata limits).Understands
      (requestEncoder config options).compression)
    (hes : List.Forall₂ (fun m e =>
      (requestEncoder config options).envelope (.contiguous m) = .ok e) messages es)
    (hmessages : form.Sends config message messages)
    (henveloped : form.enveloped config.protocol = true)
    (hlimits : WithinLimits limits config options form messages (es.flatMap Envelope.wire)) :
    s.Reads limits metadata config.protocol config.codecFormat (es.flatMap Envelope.wire) messages
        form ↔
      ∀ m ∈ messages, ¬ (requestEncoder config options).FlagsIdentity m := by
  -- a single message has a single envelope
  have hsingle (hone : ∃ body, message config.codecFormat = .ok body ∧ messages = [body])
      (hform : form = .unary ∨ form = .serverStream) (texts : SingleMessageTexts)
      (header : String) :
      (∃ m, messages = [m] ∧ Collects X limits
        (decodeSingleMessage texts header (s.requestSetup metadata limits))
          (es.flatMap Envelope.wire) m) ↔
        ∀ m ∈ messages, ¬ (requestEncoder config options).FlagsIdentity m := by
    obtain ⟨m, -, rfl⟩ := hone
    rcases hes with _ | ⟨he, hnil⟩
    cases hnil
    have hbody := hlimits.body hform
    rw [List.flatMap_cons, List.flatMap_nil, List.append_nil] at hbody ⊢
    have hiff := decodeSingleMessage_envelope_iff hunderstands he
      (hlimits.message m List.mem_cons_self)
      (hlimits.envelope henveloped m List.mem_cons_self _ he) texts header
    rw [List.forall_mem_singleton, ← hiff, ← collects_iff (X := X) hbody]
    constructor
    · rintro ⟨m', hm', hcollects⟩
      rwa [(List.cons.inj hm').1]
    · exact fun hcollects => ⟨m, rfl, hcollects⟩
  have hstream : (∀ body : RequestBody, body.Carries (es.flatMap Envelope.wire) →
      Yields (s.requestSetup metadata limits) body messages) ↔
        ∀ m ∈ messages, ¬ (requestEncoder config options).FlagsIdentity m := by
    rw [← reading_envelopes_iff hunderstands hes fun m hm =>
      ⟨hlimits.message m hm, hlimits.envelope henveloped m hm⟩]
    constructor
    · intro h
      obtain ⟨body, hbody⟩ := exists_carries (es.flatMap Envelope.wire)
      exact (yields_iff hbody).mp (h body hbody)
    · exact fun h body hbody => (yields_iff hbody).mpr h
  cases form with
  | unary =>
    have hp : config.protocol ≠ .connect := by simpa [PostForm.enveloped] using henveloped
    rw [Service.Reads]
    simp only [if_neg hp]
    exact hsingle hmessages (.inl rfl) _ _
  | serverStream => exact hsingle hmessages (.inr rfl) _ _
  | clientStream => exact hstream
  | bidiStream => exact hstream

/-- The server refuses no encoding that the client has, only one that the user has named. -/
theorem Service.unsupportedEncoding_iff {metadata : RequestMetadata} {named : Option String}
    (hencoding : metadata.streamingEncoding = config.requestCompression.or named)
    (hinverts : ∀ name ∈ config.requestCompression,
      Inverts config.compression s.compression name) :
    s.unsupportedEncoding metadata = none ↔ (config.requestCompression = none →
      ∀ name ∈ named, name = "identity" ∨ s.compression.supports name = true) := by
  rw [Service.unsupportedEncoding, hencoding, Option.filter_eq_none_iff]
  rcases hcompression : config.requestCompression with _ | name
  · have hname (name : String) :
        ¬ (decide (name ≠ "identity") && !s.compression.supports name) = true ↔
          name = "identity" ∨ s.compression.supports name = true := by
      by_cases hid : name = "identity"
      · simp [hid]
      · simp [hid]
    rw [Option.none_or, imp_iff_right rfl]
    exact forall₂_congr fun name _ => hname name
  · refine iff_of_true ?_ fun h => by cases h
    intro name' hname'
    obtain rfl := Option.some.inj hname'
    by_cases hid : name = "identity"
    · simp [hid]
    · simp [hid, (hinverts name hcompression).registered hid]

/-- **A message sent whole** is read as it was sent unless the server decompresses what the
client has not compressed. -/
theorem Service.reads_whole_iff {metadata : RequestMetadata} {body : Bytes}
    (hjson : s.json = true ∨ config.codecFormat = .proto)
    (hversion : metadata.protocolVersion = some "1")
    (htype : metadata.contentType = (contentTypeValue .connect config.codecFormat false).toStr)
    (hencoding : metadata.unaryEncoding =
      (wholeEncoding config options message).or (userText config options .contentEncoding))
    (hbody : message config.codecFormat = .ok body)
    (hsent : compressWhole config options body = .ok (sent, wholeEncoding config options message))
    (hinverts : ∀ name ∈ config.requestCompression,
      Inverts config.compression s.compression name)
    (hlen : body.length ≤ limits.maxMessageSize) :
    s.postRequestBody metadata limits sent = .ok (body, config.codecFormat) ↔
      (wholeEncoding config options message = none →
        ∀ name ∈ userText config options .contentEncoding,
          s.compression.Keeps name body limits.maxMessageSize) := by
  have hcodec := fromContentType_unary s.json config.codecFormat
  rw [if_pos hjson, ← htype] at hcodec
  obtain ⟨text, htext, hcodec⟩ := Option.bind_eq_some_iff.mp hcodec
  have hchecked : checkMessageSize limits.maxMessageSize body = .ok body :=
    if_neg (Nat.not_lt.mpr hlen)
  have hpost : s.postRequestBody metadata limits sent = .ok (body, config.codecFormat) ↔
      s.compression.unpack metadata.unaryEncoding sent limits.maxMessageSize = .ok body := by
    rw [Service.postRequestBody, hversion, htext, Option.getD_some]
    simp only [Option.any_some, ne_eq, not_true_eq_false, decide_false, Bool.false_eq_true,
      if_false, hcodec]
    constructor
    · intro h
      obtain ⟨d, hd, h⟩ := exists_of_bind_ok h
      obtain ⟨d', hd', h⟩ := exists_of_map_ok h
      obtain rfl := (Prod.mk.inj h).1
      rw [checkMessageSize] at hd'
      split at hd'
      · cases hd'
      · rw [hd, Except.ok.inj hd']
    · intro h
      rw [h]
      exact congrArg (Except.map fun body => (body, config.codecFormat)) hchecked
  rw [hpost, hencoding]
  rcases compressWhole_payload hsent with ⟨hnone, rfl⟩ | ⟨name, hname, hsome, hz⟩
  · rw [hnone, Option.none_or, imp_iff_right rfl]
    rcases userText config options .contentEncoding with _ | name
    · exact iff_of_true rfl fun name hname => absurd hname (Option.not_mem_none _)
    · rw [CompressionRegistry.unpack, CompressionRegistry.decompress_self_iff hlen]
      exact ⟨fun h name' hname' => Option.some.inj hname' ▸ h, fun h => h name rfl⟩
  · rw [hsome, Option.some_or]
    refine iff_of_true ?_ fun h => by cases h
    exact (hinverts name hname).decompress_compress hz hlen

/-- **Requests on every form.** For every message or list of messages, protocol, policy,
override and options, whenever the client builds a request and encodes its messages, the
decode path of the server for that form hands exactly these messages to the handler, if and
only if the request arrives: above all, no message is put into an envelope under `identity`
as if it were compressed. -/
theorem request_roundTrips_iff
    (h : form.entryPoint.request cr ur config spec message options = .ok req)
    (hmessages : form.Sends config message messages) (hsent : req.body.bytes messages = .ok sent)
    (hheaders : http.headers = req.headers)
    (hinverts : ∀ name ∈ config.requestCompression,
      Inverts config.compression s.compression name)
    (hlimits : WithinLimits limits config options form messages sent) :
    s.HandsOver limits http form config.protocol config.codecFormat sent messages ↔
      Arrives s limits config options message form messages := by
  have hdetect : Protocol.detect s.json http.headers =
      some ⟨config.protocol, config.codecFormat, form.enveloped config.protocol, false⟩ ↔
        (s.json = true ∨ config.codecFormat = .proto) := by
    rw [Protocol.detect, hheaders, form.text_contentType cr ur h, form.detect_contentType]
    by_cases hjson : s.json = true ∨ config.codecFormat = .proto
    · rw [if_pos hjson]
      exact iff_of_true rfl hjson
    · rw [if_neg hjson]
      exact iff_of_false (fun h => by cases h) hjson
  rcases henveloped : form.enveloped config.protocol with _ | _
  · -- a Connect unary request
    obtain ⟨rfl, hp⟩ : form = .unary ∧ config.protocol = .connect := by
      simpa [PostForm.enveloped] using henveloped
    obtain ⟨generated, hgenerated, hvalues⟩ := EntryPoint.unary.request_values cr ur h
    obtain ⟨-, hversion, hwritten⟩ := unaryHeaders_connect cr hp hgenerated
    obtain ⟨body, hbody, hwhole⟩ := callUnary_whole cr ur h hp hsent
    obtain ⟨body', hbody', rfl⟩ := hmessages
    obtain rfl := Except.ok.inj (hbody.symm.trans hbody')
    have htoken : ∀ name ∈ wholeEncoding config options message, isHttpToken name = true := by
      intro name hname
      obtain ⟨hnone, -⟩ | ⟨name', hname', hsome, -⟩ := compressWhole_payload hwhole
      · rw [hnone] at hname
        cases hname
      · rw [hsome] at hname
        exact Option.some.inj hname ▸ (hinverts name' hname').isHttpToken
    have htype := PostForm.unary.text_contentType cr ur h
    rw [← hheaders, PostForm.contentType, hp] at htype
    have hone : (s.metadataOf http .connect).protocolVersion = some "1" := by
      have htext := ConnectRpc.text_contentType (hvalues _) hversion
      rw [← hheaders] at htext
      exact htext
    have hencoding : (s.metadataOf http .connect).unaryEncoding =
        (wholeEncoding config options message).or
          (userText config options .contentEncoding) := by
      have htext := text_encoding cr (hvalues _) hwritten htoken
      rw [← hheaders] at htext
      exact htext
    have hreads (hjson : s.json = true ∨ config.codecFormat = .proto) :=
      s.reads_whole_iff hjson hone htype hencoding hbody hwhole hinverts
        (hlimits.message body List.mem_cons_self)
    constructor
    · rintro ⟨hdetected, -, hread⟩
      have hjson := hdetect.mp hdetected
      refine ⟨hjson, fun h => ?_, fun h => ?_, fun _ hnone name hname m hm => ?_⟩
      · rw [henveloped] at h
        cases h
      · rw [henveloped] at h
        cases h
      · obtain rfl := List.mem_singleton.mp hm
        rw [Service.Reads, hp] at hread
        obtain ⟨m', hm', hcollects⟩ := hread
        obtain ⟨rfl, -⟩ := List.cons.inj hm'
        exact (hreads hjson).mp ((collects_iff (hlimits.body (.inl rfl))).mp hcollects) hnone name
          hname
    · rintro ⟨hjson, -, -, hkept⟩
      refine ⟨hdetect.mpr hjson, fun h => ?_, ?_⟩
      · rw [henveloped] at h
        cases h
      · rw [Service.Reads, hp]
        refine ⟨body, rfl, (collects_iff (hlimits.body (.inl rfl))).mpr ?_⟩
        exact (hreads hjson).mpr fun hnone name hname =>
          hkept henveloped hnone name hname body List.mem_cons_self
  · have htext := form.text_contentEncodingHeader cr ur h henveloped fun name hname =>
      (hinverts name hname).isHttpToken
    rw [← hheaders] at htext
    obtain ⟨es, hes, rfl⟩ := form.request_enveloped cr ur h hmessages hsent henveloped
    have hunderstands : (s.requestSetup (s.metadataOf http config.protocol) limits).Understands
        (requestEncoder config options).compression := by
      intro reg name hname
      obtain ⟨name', hcompression, heq⟩ := Option.map_eq_some_iff.mp hname
      obtain ⟨rfl, rfl⟩ := Prod.mk.inj heq
      rw [hcompression, Option.some_or] at htext
      exact ⟨htext, hinverts name' hcompression⟩
    have hreads := s.reads_enveloped_iff hunderstands hes hmessages henveloped hlimits
    have hsupported : s.unsupportedEncoding (s.metadataOf http config.protocol) = none ↔ _ :=
      s.unsupportedEncoding_iff htext hinverts
    simp only [flagsIdentity_iff, not_and, Bool.not_eq_true] at hreads
    constructor
    · rintro ⟨hdetected, hencoding, hread⟩
      refine ⟨hdetect.mp hdetected, fun _ hid m hm => hreads.mp hread m hm hid,
        fun _ => hsupported.mp (hencoding henveloped), fun h => ?_⟩
      rw [henveloped] at h
      cases h
    · rintro ⟨hjson, hunflagged, hunnamed, -⟩
      exact ⟨hdetect.mpr hjson, fun _ => hsupported.mpr (hunnamed henveloped),
        hreads.mpr fun m hm hid => hunflagged henveloped hid m hm⟩

end Arrival

/-! ## Two requests -/

/-- A gRPC client that knows `br`, and sends its requests under this encoding. -/
def postConfig (name : String) : ClientConfig :=
  { plainConfig with
    compression := prefixRegistry "br" isHttpToken_br
    requestCompression := some name
    defaultTimeout := none
    defaultHeaders := .empty }

/-- A call that is compressed whatever its size. -/
def compressedCall : CallOptions := ⟨.empty, none, none, none, some true⟩

/-- A request as it reaches a service. -/
def receivedRequest (req : ClientRequest) : HttpRequest Unit :=
  ⟨req.method, "/pkg.Service/Method", none, req.headers, (), ⟨[], fun _ => false⟩⟩

/-- The service undoes what this client does. -/
theorem postConfig_inverts (name : String) (h : name = "br" ∨ name = "identity") :
    Inverts (postConfig name).compression markService.compression name where
  registered hid := by
    rcases h with rfl | rfl
    · decide
    · exact absurd rfl hid
  inverts := by
    intro p q hp hq data z limit hz _
    rcases h with rfl | rfl
    · obtain rfl := Option.some.inj hp
      obtain rfl := Option.some.inj hq
      obtain rfl := Except.ok.inj hz
      rfl
    · cases hp
  nonempty := by
    intro p hp data hz
    rcases h with rfl | rfl
    · obtain rfl := Option.some.inj hp
      cases hz
    · cases hp

/-- The client accepts `br`. -/
theorem acceptValue_post (name : String) : acceptValue .std (postConfig name) = some (some brValue) := by
  have hone : (prefixRegistry "br" isHttpToken_br).acceptEncodingValue .std = some brValue := by
    have hnames : ((prefixRegistry "br" isHttpToken_br).providers.map (·.name)).mergeSort
        (fun a b => a ≤ b) = ["br"] := List.mergeSort_singleton "br"
    rw [CompressionRegistry.acceptEncodingValue, hnames]
    rfl
  exact congrArg (Option.map some) hone

/-- The request of this client for a message of one byte. -/
theorem exists_postRequest {name : String} {sent : Bytes} {v : HeaderValue}
    (hv : textValue .std name = some v)
    (hsent : (requestEncoder (postConfig name) compressedCall).encode [7] [] = .ok sent) :
    ∃ req, PostForm.unary.entryPoint.request .std laxUris (postConfig name) unarySpec
        (fun _ => .ok [7]) compressedCall = .ok req ∧ req.body.bytes [[7]] = .ok sent := by
  have hspec : checkClientSpec laxUris unarySpec .unary "call_unary" = .ok () := rfl
  have hoptions : effectiveOptions .std (postConfig name) compressedCall = .ok compressedCall := rfl
  obtain ⟨uri, huri⟩ : ∃ uri, procedureUri laxUris (postConfig name) unarySpec.procedure none =
      .ok uri := ⟨_, rfl⟩
  have hbody : unaryRequestBody (postConfig name) compressedCall [7] = .ok (sent, none) := by
    have hprotocol : (postConfig name).protocol = .grpc := rfl
    rw [unaryRequestBody, hprotocol]
    simp only [hsent]
  have hencoding : encodingValue .std (postConfig name).requestCompression = some (some v) :=
    congrArg some hv
  have hheaders : addUnaryRequestHeaders .std .new (postConfig name) none none =
      some ((((HeaderMap.empty.append .contentType (contentTypeValue .grpc .proto false)).append
        .te teValue).append hdr.grpcEncoding v).append hdr.grpcAcceptEncoding brValue) := by
    unfold addUnaryRequestHeaders
    rw [acceptValue_post, hencoding]
    rfl
  have hrun : PostForm.unary.entryPoint.request .std laxUris (postConfig name) unarySpec
      (fun _ => .ok [7]) compressedCall =
        (orError (unaryRequestBody (postConfig name) compressedCall [7]) >>= fun r =>
          finishRequest .std (addUnaryRequestHeaders .std .new (postConfig name) none r.2) .POST uri
            .empty (.full r.1)) := by
    rw [PostForm.entryPoint, EntryPoint.request, callUnary, hspec, hoptions, huri]
    rfl
  rw [hrun, hbody, orError_ok_bind, hheaders]
  exact ⟨_, rfl, rfl⟩

/-- Under a registered encoding the message arrives. -/
theorem request_roundTrips_br :
    ∃ req sent, PostForm.unary.entryPoint.request .std laxUris (postConfig "br") unarySpec
        (fun _ => .ok [7]) compressedCall = .ok req ∧
      req.body.bytes [[7]] = .ok sent ∧
      markService.HandsOver markService.limits (receivedRequest req) .unary .grpc .proto sent
        [[7]] := by
  have hframed : (requestEncoder (postConfig "br") compressedCall).encode [7] [] =
      .ok [1, 0, 0, 0, 2, 0, 7] := rfl
  obtain ⟨v, hv, -⟩ := HeaderValue.fromStr_of_visible (o := Crates.std.opaqueOctets)
    (s := "br") (by decide)
  obtain ⟨req, hreq, hsent⟩ := exists_postRequest hv hframed
  have hlimits : WithinLimits markService.limits (postConfig "br") compressedCall .unary [[7]]
      [1, 0, 0, 0, 2, 0, 7] := by
    refine ⟨by decide, fun _ m hm e he => ?_, fun _ => by decide⟩
    obtain rfl := List.mem_singleton.mp hm
    obtain rfl := Except.ok.inj he
    decide
  have hheaders : (receivedRequest req).headers = req.headers := rfl
  have hiff := request_roundTrips_iff .std laxUris (s := markService) hreq ⟨[7], rfl, rfl⟩ hsent
    hheaders (fun name hname => postConfig_inverts name (.inl (Option.some.inj hname).symm)) hlimits
  refine ⟨req, _, hreq, hsent, hiff.mpr ⟨.inr rfl, fun _ hid => ?_, fun _ hnone => ?_, fun h => ?_⟩⟩
  · exact absurd hid (by decide)
  · cases hnone
  · cases h

/-- **Under `identity` it does not**: the envelope is flagged as compressed, and the service
takes `identity` for no encoding. -/
theorem identity_refused :
    Inverts (postConfig "identity").compression markService.compression "identity" ∧
      ∃ req sent, PostForm.unary.entryPoint.request .std laxUris (postConfig "identity") unarySpec
          (fun _ => .ok [7]) compressedCall = .ok req ∧
        req.body.bytes [[7]] = .ok sent ∧
        WithinLimits markService.limits (postConfig "identity") compressedCall .unary [[7]] sent ∧
        grpcUnaryRequestBody .grpc
            (markService.requestSetup (markService.metadataOf (receivedRequest req) .grpc)
              markService.limits) sent =
          .error (.internal
            s!"received compressed message without {hdr.grpcEncoding.text} header") ∧
        ¬ markService.HandsOver markService.limits (receivedRequest req) .unary .grpc .proto sent
          [[7]] := by
  refine ⟨postConfig_inverts "identity" (.inr rfl), ?_⟩
  have hframed : (requestEncoder (postConfig "identity") compressedCall).encode [7] [] =
      .ok [1, 0, 0, 0, 1, 7] := rfl
  obtain ⟨v, hv, -⟩ := HeaderValue.fromStr_of_visible (o := Crates.std.opaqueOctets)
    (s := "identity") (by decide)
  obtain ⟨req, hreq, hsent⟩ := exists_postRequest hv hframed
  have hencoding : (markService.metadataOf (receivedRequest req) .grpc).streamingEncoding =
      some "identity" :=
    PostForm.unary.text_contentEncodingHeader .std laxUris hreq rfl fun name hname =>
      Option.some.inj hname ▸ by decide
  have hitem : decodeWithLimit markService.limits.maxMessageSize [1, 0, 0, 0, 1, 7] =
      .ok (some (⟨flags.COMPRESSED, [7]⟩, [])) :=
    (decodeWith_eq_item_iff (t := ⟨64, none, .new⟩)).mpr ⟨by decide, by decide, by decide⟩
  have hrefused : grpcUnaryRequestBody .grpc
      (markService.requestSetup (markService.metadataOf (receivedRequest req) .grpc)
        markService.limits) [1, 0, 0, 0, 1, 7] =
      .error (.internal s!"received compressed message without {hdr.grpcEncoding.text} header") := by
    have hpayload : ∀ header : String, requestPayload header (some "identity")
        markService.compression markService.limits.maxMessageSize ⟨flags.COMPRESSED, [7]⟩ =
          .error (.internal s!"received compressed message without {header} header") := by
      intro header
      rw [requestPayload, if_pos (by decide)]
      rfl
    rw [grpcUnaryRequestBody, decodeSingleMessage, if_neg (by decide), Service.requestSetup,
      hencoding, hitem]
    exact hpayload _
  refine ⟨req, _, hreq, hsent, ⟨by decide, fun _ m hm e he => ?_, fun _ => by decide⟩, hrefused,
    fun hands => ?_⟩
  · obtain rfl := List.mem_singleton.mp hm
    obtain rfl := Except.ok.inj he
    decide
  · obtain ⟨m, -, hcollects⟩ := hands.read
    have hread := (collects_iff (by decide)).mp hcollects
    exact absurd (hrefused.symm.trans hread) (by intro h; cases h)

end ConnectRpc
