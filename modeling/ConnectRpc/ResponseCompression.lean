import ConnectRpc.Service

/-!
# Compressed responses

Which encoding a response is compressed with, and what the head of the response says about
it. A request lists the encodings that its sender decodes, the first one preferred; a request
that lists none is answered in its own encoding.

`Acceptable` is what the sender of a request can decode, and `negotiateEncoding_iff` says that
nothing else is negotiated. The four ways to respond decide in different places whether the
message is compressed in the end; `Decodable` says for each of them what the head then
announces, and `call_decodable` that every response is one of these.
-/

namespace ConnectRpc

open Lib

/-! ## Negotiation -/

/-- The names that an accept header lists, in its order. -/
def listedEncodings (accept : String) : List String :=
  (splitAll ',' accept.toList).map fun s => String.ofList (trim isWhitespace s)

/-- Whether the providers of a registry compress with an encoding. -/
def CompressionRegistry.offers (reg : CompressionRegistry) (encoding : String) : Bool :=
  encoding ≠ "identity" && reg.supports encoding

/-- What the sender of a request decodes: the first encoding on offer that it lists, or, if it
lists none, the encoding of its request. -/
structure Acceptable (reg : CompressionRegistry) (accept request : Option String)
    (encoding : String) : Prop where
  /-- there is a provider -/
  registered : reg.supports encoding = true
  /-- which does something -/
  compresses : encoding ≠ "identity"
  /-- it is on the list, after nothing that could be used instead -/
  listed : ∀ list, accept = some list → ∃ before after,
    listedEncodings list = before ++ encoding :: after ∧
      ∀ name ∈ before, reg.offers name = false
  /-- without a list, it is that of the request -/
  unlisted : accept = none → request = some encoding

theorem CompressionRegistry.offers_iff {reg : CompressionRegistry} {encoding : String} :
    reg.offers encoding = true ↔ encoding ≠ "identity" ∧ reg.supports encoding = true := by
  simp [offers]

/-- **What is negotiated** is exactly what is acceptable. -/
theorem negotiateEncoding_iff {reg : CompressionRegistry} {accept request : Option String}
    {encoding : String} :
    reg.negotiateEncoding accept request = some encoding ↔
      Acceptable reg accept request encoding := by
  cases accept with
  | none =>
    have hown : reg.negotiateEncoding none request = some encoding ↔
        request = some encoding ∧ reg.offers encoding = true := Option.filter_eq_some_iff
    rw [hown, CompressionRegistry.offers_iff]
    constructor
    · rintro ⟨hrequest, hne, hsupports⟩
      exact ⟨hsupports, hne, fun _ h => absurd h (by simp), fun _ => hrequest⟩
    · intro h
      exact ⟨h.unlisted rfl, h.compresses, h.registered⟩
  | some list =>
    have hfind : reg.negotiateEncoding (some list) request = some encoding ↔
        reg.offers encoding = true ∧ ∃ before after,
          listedEncodings list = before ++ encoding :: after ∧
            ∀ name ∈ before, !reg.offers name := List.find?_eq_some_iff_append
    rw [hfind, CompressionRegistry.offers_iff]
    simp only [Bool.not_eq_true']
    constructor
    · rintro ⟨⟨hne, hsupports⟩, hlisted⟩
      refine ⟨hsupports, hne, fun list' h => ?_, fun h => absurd h (by simp)⟩
      obtain rfl := Option.some.inj h
      exact hlisted
    · intro h
      exact ⟨⟨h.compresses, h.registered⟩, h.listed list rfl⟩

/-- The characters of a token are printable, and none is a blank. -/
theorem token_range {c : Char}
    (h : (c.isAlphanum || "!#$%&'*+-.^_`|~".toList.contains c) = true) :
    33 ≤ c.toNat ∧ c.toNat < 127 := by
  rcases Bool.or_eq_true_iff.mp h with h | h
  · have hletter := isAlphanum_range h
    omega
  · have hmarks : "!#$%&'*+-.^_`|~".toList.all (fun d =>
        decide (33 ≤ d.toNat ∧ d.toNat < 127)) = true := by decide
    exact of_decide_eq_true (List.all_eq_true.mp hmarks c (List.contains_iff_mem.mp h))

theorem visibleByte_of_token {c : Char}
    (h : (c.isAlphanum || "!#$%&'*+-.^_`|~".toList.contains c) = true) :
    asciiChar c = true ∧ visibleByte (byteOfChar c) = true := by
  have hrange := token_range h
  have hall : ∀ n < 127, 33 ≤ n → asciiChar (Char.ofNat n) = true ∧
      visibleByte (byteOfChar (Char.ofNat n)) = true := by decide
  have hc := hall c.toNat hrange.2 hrange.1
  rw [Char.ofNat_toNat] at hc
  exact hc

/-- The name of a provider is a header value. -/
theorem CompressionRegistry.header_of_supports {reg : CompressionRegistry} {encoding : String}
    (h : reg.supports encoding = true) (o : Bool) :
    ∃ v, HeaderValue.fromStr o encoding = some v ∧ v.bytes = asBytes encoding := by
  obtain ⟨p, hp⟩ := Option.isSome_iff_exists.mp h
  have htoken := CompressionRegistry.isHttpToken_of_get hp
  simp only [isHttpToken, Bool.and_eq_true, List.all_eq_true] at htoken
  refine HeaderValue.fromStr_of_visible (List.all_eq_true.mpr fun b hb => ?_)
  rw [asBytes, utf8_ascii fun c hc => (visibleByte_of_token (htoken.2 c hc)).1] at hb
  obtain ⟨c, hc, rfl⟩ := List.mem_map.mp hb
  exact (visibleByte_of_token (htoken.2 c hc)).2

/-! ## What is announced -/

/-- The header that a head has for an encoding, if there is one. -/
def Announces (n : HeaderName) (head : HeaderMap) (encoding : Option String) : Prop :=
  (head.getAll n).map HeaderValue.bytes = encoding.toList.map asBytes

section Head

variable (cr : Crates)

/-- The headers of a head with an encoding. -/
def headOf (contentType : HeaderValue) (encodingHeader : HeaderName) (encoding : Option String)
    (acceptEncodingHeader : HeaderName) (compression : CompressionRegistry) :
    List (HeaderName × HeaderValue) :=
  (.contentType, contentType) ::
    ((encoding.bind (HeaderValue.fromStr cr.opaqueOctets)).toList.map (encodingHeader, ·) ++
      (compression.acceptEncodingValue cr).toList.map (acceptEncodingHeader, ·))

theorem responseHead_eq (contentType : HeaderValue) (encodingHeader : HeaderName)
    (encoding : Option String) (acceptEncodingHeader : HeaderName)
    (compression : CompressionRegistry) :
    responseHead cr contentType encodingHeader encoding acceptEncodingHeader compression =
      (ResponseBuilder.withStatus .ok).headers cr.headerCap
        (headOf cr contentType encodingHeader encoding acceptEncodingHeader compression) := by
  rw [responseHead, headOf]
  rcases encoding.bind (HeaderValue.fromStr cr.opaqueOctets) with _ | v
  · rcases compression.acceptEncodingValue cr with _ | a
    · rfl
    · rfl
  · rcases compression.acceptEncodingValue cr with _ | a
    · rfl
    · rfl

/-- The values of an encoding header in a head, whatever is added to it: those that are added,
after the encoding. -/
theorem getAll_headOf {contentType : HeaderValue} {encodingHeader acceptEncodingHeader : HeaderName}
    (encoding : Option String) (compression : CompressionRegistry)
    (more : List (HeaderName × HeaderValue)) (hcontent : encodingHeader ≠ .contentType)
    (haccept : acceptEncodingHeader ≠ encodingHeader) :
    HeaderMap.getAll
        ⟨headOf cr contentType encodingHeader encoding acceptEncodingHeader compression ++ more⟩
        encodingHeader =
      (encoding.bind (HeaderValue.fromStr cr.opaqueOctets)).toList ++
        HeaderMap.getAll ⟨more⟩ encodingHeader := by
  rw [headOf, HeaderMap.getAll_append_entries, HeaderMap.getAll_cons,
    HeaderMap.getAll_append_entries, if_neg hcontent.symm]
  refine congrArg (· ++ HeaderMap.getAll ⟨more⟩ encodingHeader) ?_
  rcases encoding.bind (HeaderValue.fromStr cr.opaqueOctets) with _ | v
  · rcases compression.acceptEncodingValue cr with _ | a
    · rfl
    · simp [HeaderMap.getAll, haccept]
  · rcases compression.acceptEncodingValue cr with _ | a
    · simp [HeaderMap.getAll]
    · simp [HeaderMap.getAll, haccept]

/-- **A head announces its encoding**, as long as nothing that is added has such a header. -/
theorem announces_of_headers {reg : CompressionRegistry}
    {contentType : HeaderValue} {encodingHeader acceptEncodingHeader : HeaderName}
    {encoding : Option String} {more : List (HeaderName × HeaderValue)} {p : StatusCode × HeaderMap}
    (h : (responseHead cr contentType encodingHeader encoding acceptEncodingHeader reg).headers
      cr.headerCap more = some p)
    (hcontent : encodingHeader ≠ .contentType) (haccept : acceptEncodingHeader ≠ encodingHeader)
    (hencoding : ∀ name, encoding = some name → reg.supports name = true)
    (hmore : HeaderMap.getAll ⟨more⟩ encodingHeader = []) :
    Announces encodingHeader p.2 encoding := by
  rw [responseHead_eq, ← ResponseBuilder.headers_append,
    ResponseBuilder.headers_withStatus (Rendering.headerCap_pos cr)] at h
  split at h
  · obtain rfl := Option.some.inj h
    rw [Announces, HeaderMap.getAll_appendAll, HeaderMap.getAll_empty, List.nil_append,
      getAll_headOf cr encoding reg more hcontent haccept, hmore, List.append_nil]
    cases encoding with
    | none => rfl
    | some name =>
      obtain ⟨v, hv, hbytes⟩ := reg.header_of_supports (hencoding name rfl) cr.opaqueOctets
      rw [Option.bind_some, hv]
      exact congrArg ([·]) hbytes
  · cases h

end Head

/-! ## One message -/

/-- How a message is sent: as it is, or compressed with an encoding that is acceptable. -/
inductive Packed (reg : CompressionRegistry) (accept request : Option String) (message : Bytes) :
    Option String → Bytes → Prop where
  /-- as it is -/
  | asIs : Packed reg accept request message none message
  /-- compressed -/
  | compressed {encoding : String} {z : Bytes} (hencoding : Acceptable reg accept request encoding)
      (hz : reg.compress encoding message = .ok z) :
      Packed reg accept request message (some encoding) z

theorem Packed.acceptable {reg : CompressionRegistry} {accept request : Option String}
    {message sent : Bytes} {encoding : String}
    (h : Packed reg accept request message (some encoding) sent) :
    Acceptable reg accept request encoding := by
  cases h with
  | compressed hencoding hz => exact hencoding

/-- The flags of the envelope of a message. -/
def flagOf (used : Option String) : UInt8 :=
  if used.isSome then flags.COMPRESSED else flags.DATA

/-- An envelope with a message, where one encoding is announced for all. -/
def PackedIn (reg : CompressionRegistry) (accept request negotiated : Option String)
    (message : Bytes) (e : Envelope) : Prop :=
  ∃ used, Packed reg accept request message used e.data ∧ e.flags = flagOf used ∧
    (used = none ∨ used = negotiated)

/-! ## The responses -/

variable {X : Type}

section Responses

variable (cr : Crates) {s : Service X}

/-- The body of a unary response is packed. -/
theorem packed_unaryResponseBody {accept request : Option String} {resp : EncodedResponse} :
    Packed s.compression accept request resp.body.intoContiguous
      (s.unaryResponseBody (s.compression.negotiateEncoding accept request) resp).2
      (s.unaryResponseBody (s.compression.negotiateEncoding accept request) resp).1 := by
  rcases hnegotiated : s.compression.negotiateEncoding accept request with _ | encoding
  · exact .asIs
  · unfold Service.unaryResponseBody
    simp only
    split
    · -- a compressor that fails is not heard of
      rcases hz : s.compression.compress encoding resp.body.intoContiguous with e | z
      · exact .asIs
      · exact .compressed (negotiateEncoding_iff.mp hnegotiated) hz
    · exact .asIs

/-- What an answer becomes as the whole body of a response. -/
structure UnaryPacked (s : Service X) (headers : HeaderMap) (resp : EncodedResponse)
    (r : Response Bytes) : Prop where
  /-- the body is compressed exactly if the head says so -/
  packed : ∃ used, Packed s.compression (headers.text .acceptEncoding)
      (headers.text .contentEncoding) resp.body.intoContiguous used r.body ∧
    (resp.headers.getAll .contentEncoding = [] → Announces .contentEncoding r.headers used)

/-- **Connect unary.** -/
theorem unaryPacked {req : HttpRequest X} {protocol : Protocol} {codec : CodecFormat}
    {resp : EncodedResponse} {r : Response Bytes}
    (h : s.unaryResponse cr (s.metadataOf req protocol) codec resp = .ok r) :
    UnaryPacked s req.headers resp r := by
  have hpacked := @packed_unaryResponseBody X s (req.headers.text .acceptEncoding)
    (req.headers.text .contentEncoding) resp
  rw [Service.unaryResponse] at h
  simp only at h
  split at h
  · rename_i built hbuilt
    obtain rfl := Except.ok.inj h
    obtain ⟨p, hp, rfl⟩ := Option.map_eq_some_iff.mp hbuilt
    refine ⟨_, hpacked, fun hnone => ?_⟩
    rw [addTrailers_eq] at hp
    obtain ⟨ts, hts, hp⟩ := Option.bind_eq_some_iff.mp hp
    rw [← ResponseBuilder.headers_append] at hp
    refine announces_of_headers cr hp (by decide) (by decide) (fun name hname => ?_) ?_
    · change (s.unaryResponseBody (s.compression.negotiateEncoding
        (req.headers.text .acceptEncoding) (req.headers.text .contentEncoding)) resp).2 = _ at hname
      rw [hname] at hpacked
      exact hpacked.acceptable.registered
    · rw [HeaderMap.getAll_append_entries, getAll_prefixedTrailers hts (by decide), List.append_nil]
      exact hnone
  · cases h

/-- What the streaming encoder makes of a message. -/
theorem packedIn_envelope {accept request : Option String} {policy : CompressionPolicy}
    {body : EncodedBody} {e : Envelope}
    (h : EnvelopeEncoder.envelope ⟨(s.compression.negotiateEncoding accept request).map
      (s.compression, ·), policy⟩ body = .ok e) :
    PackedIn s.compression accept request (s.compression.negotiateEncoding accept request)
      body.intoContiguous e := by
  rcases EnvelopeEncoder.envelope_cases h with ⟨rfl, -⟩ | ⟨reg, encoding, z, hreg, -, hz, rfl⟩
  · exact ⟨none, .asIs, rfl, .inl rfl⟩
  · obtain ⟨name, hname, hpair⟩ := Option.map_eq_some_iff.mp hreg
    obtain ⟨rfl, rfl⟩ := Prod.mk.inj hpair
    exact ⟨some name, .compressed (negotiateEncoding_iff.mp hname) hz, rfl, .inr hname.symm⟩

/-- The envelopes of a stream are those of messages of its source. -/
theorem mem_planned {enc : EnvelopeEncoder} {source : List SourceEvent} {e : Envelope}
    (h : e ∈ (planned enc source).1) : ∃ body, .item body ∈ source ∧ enc.envelope body = .ok e := by
  induction source with
  | nil => exact absurd h List.not_mem_nil
  | cons ev source ih =>
    cases ev with
    | pending =>
      obtain ⟨body, hbody, henvelope⟩ := ih h
      exact ⟨body, List.mem_cons_of_mem _ hbody, henvelope⟩
    | error err => exact absurd h List.not_mem_nil
    | item body =>
      rcases he : enc.envelope body with err | e'
      · rw [planned, he] at h
        exact absurd h List.not_mem_nil
      · rw [planned, he] at h
        rcases List.mem_cons.mp h with rfl | h
        · exact ⟨body, List.mem_cons_self, he⟩
        · obtain ⟨body', hbody, henvelope⟩ := ih h
          exact ⟨body', List.mem_cons_of_mem _ hbody, henvelope⟩

/-- What is framed by the fast path. -/
theorem packedIn_grpcUnary {accept request : Option String} {policy : CompressionPolicy}
    {body : EncodedBody} {head : Bytes} {segments : List Bytes}
    (h : grpcUnaryEnvelope s.compression (s.compression.negotiateEncoding accept request) policy
      body = some (head, segments)) :
    ∃ e, head ++ segments.flatten = e.wire ∧
      PackedIn s.compression accept request (s.compression.negotiateEncoding accept request)
        body.intoContiguous e := by
  -- whatever is framed has fitted
  have hframed : ∀ {flag : UInt8} {b : EncodedBody},
      Envelope.encodeBodyParts flag b MIN_CHAIN_SIZE = some (head, segments) →
        head ++ segments.flatten = (Envelope.mk flag b.intoContiguous).wire := by
    intro flag b hb
    by_cases hlen : b.len ≤ u32Max
    · obtain ⟨head', segments', hparts, hwire⟩ := Envelope.encodeBodyParts_eq flag MIN_CHAIN_SIZE hlen
      obtain ⟨rfl, rfl⟩ := Prod.mk.inj (Option.some.inj (hparts.symm.trans hb))
      exact hwire
    · rw [Envelope.encodeBodyParts_none b MIN_CHAIN_SIZE (Nat.lt_of_not_le hlen)] at hb
      cases hb
  have hplain : PackedIn s.compression accept request
      (s.compression.negotiateEncoding accept request) body.intoContiguous
        ⟨flags.DATA, body.intoContiguous⟩ := ⟨none, .asIs, rfl, .inl rfl⟩
  rcases hnegotiated : s.compression.negotiateEncoding accept request with _ | encoding
  · rw [hnegotiated] at h hplain
    exact ⟨_, hframed h, hplain⟩
  · rw [hnegotiated] at h hplain
    unfold grpcUnaryEnvelope at h
    simp only at h
    split at h
    · rcases hz : s.compression.compress encoding body.intoContiguous with err | z
      · rw [hz] at h
        exact ⟨_, hframed h, hplain⟩
      · rw [hz] at h
        exact ⟨_, hframed h, some encoding, .compressed (negotiateEncoding_iff.mp hnegotiated) hz,
          rfl, .inr rfl⟩
    · exact ⟨_, hframed h, hplain⟩

/-! ## Frames without messages -/

/-- A frame that does not begin with a compressed envelope. -/
def Frame.Uncompressed : Frame → Prop
  | .data b => b.headD 0 &&& flags.COMPRESSED = 0
  | .trailers _ => True

theorem uncompressed_endStreamFrame (r : EndStreamResponse) :
    (StreamFinalizer.endStreamFrame cr r).Uncompressed := by
  have hflag : flags.END_STREAM &&& flags.COMPRESSED = 0 := by decide
  have hempty : (Frame.data []).Uncompressed := by
    rw [Frame.Uncompressed]
    decide
  rw [StreamFinalizer.endStreamFrame, EnvelopeEncoder.encodeEndStream, writeEnvelope]
  rcases envelopeLength (r.toJson cr).length with e | n
  · exact hempty
  · exact hflag

/-- No terminal frame is compressed. -/
theorem uncompressed_terminal (fin : StreamFinalizer) (outcome : Option ConnectError)
    (trailers : HeaderMap) : (fin.terminal cr outcome trailers).Uncompressed := by
  have hflag : flags.GRPC_WEB_TRAILER &&& flags.COMPRESSED = 0 := by decide
  cases fin with
  | connectEndStream =>
    cases outcome with
    | none => exact uncompressed_endStreamFrame cr _
    | some err => exact uncompressed_endStreamFrame cr _
  | grpcTrailers =>
    rw [StreamFinalizer.terminal_grpc]
    trivial
  | grpcWebTrailers =>
    rw [StreamFinalizer.terminal_grpcWeb]
    exact hflag

theorem uncompressed_grpcTrailersOf (protocol : Protocol) (h : protocol ≠ .connect)
    (trailers : HeaderMap) : (grpcTrailersOf protocol h trailers).frame.Uncompressed := by
  have hflag : flags.GRPC_WEB_TRAILER &&& flags.COMPRESSED = 0 := by decide
  cases protocol with
  | connect => exact absurd rfl h
  | grpc => trivial
  | grpcWeb => exact hflag

/-! ## Enveloped responses -/

/-- What an answer becomes as the one envelope of a response. -/
structure GrpcUnaryPacked (s : Service X) (headers : HeaderMap) (protocol : Protocol)
    (resp : EncodedResponse) (r : Response GrpcUnaryBody) : Prop where
  /-- the encoding in the head is that of the envelope, if it is compressed -/
  packed : ∃ negotiated e, r.body.data.toList.flatten ++ r.body.payload.flatten = e.wire ∧
    PackedIn s.compression (headers.text protocol.acceptEncodingHeader)
      (headers.text protocol.contentEncodingHeader) negotiated resp.body.intoContiguous e ∧
    (resp.headers.getAll protocol.contentEncodingHeader = [] →
      Announces protocol.contentEncodingHeader r.headers negotiated)
  /-- the trailers are not compressed -/
  trailers : ∀ t, r.body.trailers = some t → t.frame.Uncompressed

/-- What an answer becomes as the envelopes of a streaming response. -/
structure StreamPacked (cr : Crates) (s : Service X) (headers : HeaderMap) (protocol : Protocol)
    (resp : HandlerResponse (List SourceEvent)) (r : Response StreamingResponseBody) : Prop where
  /-- the encoding in the head is that of every envelope that is compressed -/
  packed : ∃ stream negotiated, ∃ envelopes : List Envelope, r.body = .stream stream ∧
    (∀ e ∈ envelopes, ∃ message, .item message ∈ resp.body ∧
      PackedIn s.compression (headers.text protocol.acceptEncodingHeader)
        (headers.text protocol.contentEncodingHeader) negotiated message.intoContiguous e) ∧
    (resp.headers.getAll protocol.contentEncodingHeader = [] →
      Announces protocol.contentEncodingHeader r.headers negotiated) ∧
    -- any polls of the stream answer these envelopes, and then a frame of another kind
    ∃ final : Frame, final.Uncompressed ∧ ∀ n,
      let frames := ready (polls (BatchingEnvelopeStream.pollNext cr) n stream)
      BatchingEnvelopeStream.Partial (envelopes.flatMap Envelope.wire) frames ∨
        BatchingEnvelopeStream.Complete (envelopes.flatMap Envelope.wire) final frames

/-- The head of an enveloped response announces what is negotiated. -/
theorem announces_envelopedHead {req : HttpRequest X} {protocol : Protocol} {codec : CodecFormat}
    {headers : HeaderMap} {p : StatusCode × HeaderMap}
    (h : s.envelopedHead cr protocol (s.metadataOf req protocol) codec headers = some p)
    (hnone : headers.getAll protocol.contentEncodingHeader = []) :
    Announces protocol.contentEncodingHeader p.2
      (s.compression.negotiateEncoding (req.headers.text protocol.acceptEncodingHeader)
        (req.headers.text protocol.contentEncodingHeader)) := by
  refine announces_of_headers cr h ?_ ?_ (fun name hname => ?_) hnone
  · cases protocol <;> decide
  · cases protocol <;> decide
  · exact (negotiateEncoding_iff.mp hname).registered

/-- A response with one envelope is packed, or it is that of an error. -/
theorem grpcUnaryPacked {req : HttpRequest X} {protocol : Protocol} {h : protocol ≠ .connect}
    {codec : CodecFormat} {resp : EncodedResponse} {r : Response GrpcUnaryBody}
    (hr : s.grpcUnaryResponse cr protocol h (s.metadataOf req protocol) codec resp = some r) :
    GrpcUnaryPacked s req.headers protocol resp r ∨
      ∃ e, r = grpcUnaryError cr e protocol h codec := by
  obtain ⟨body, hbody, rfl⟩ := Option.map_eq_some_iff.mp hr
  obtain ⟨-, head, segments, hframed, rfl⟩ := grpcUnaryBody_eq_some hbody
  rcases hhead : s.envelopedHead cr protocol (s.metadataOf req protocol) codec resp.headers with
    _ | p
  · exact .inr ⟨_, rfl⟩
  · obtain ⟨e, hwire, hpacked⟩ := packedIn_grpcUnary hframed
    have hdata : (some head).toList.flatten ++ segments.flatten = e.wire := by simpa using hwire
    refine .inl ⟨⟨_, e, hdata, hpacked, fun hnone => announces_envelopedHead cr hhead hnone⟩,
      fun t ht => ?_⟩
    obtain rfl := Option.some.inj ht
    exact uncompressed_grpcTrailersOf protocol h _

/-- A streaming response is packed, or it is that of an error. -/
theorem streamPacked (failed : String) (req : HttpRequest X) (protocol : Protocol)
    (codec : CodecFormat) (resp : HandlerResponse (List SourceEvent)) :
    StreamPacked cr s req.headers protocol resp
        (s.streamingResponse cr failed protocol (s.metadataOf req protocol) codec resp) ∨
      ∃ e, s.streamingResponse cr failed protocol (s.metadataOf req protocol) codec resp =
        Service.streamingError cr protocol codec e := by
  rw [Service.streamingResponse]
  rcases hhead : s.envelopedHead cr protocol (s.metadataOf req protocol) codec resp.headers with
    _ | p
  · exact .inr ⟨_, rfl⟩
  · have hrun := BatchingEnvelopeStream.sent_new cr resp.body resp.trailers
      ((s.streamingEncoding (s.metadataOf req protocol)).map (s.compression, ·))
      (s.compressionPolicy.withOverride resp.compress) protocol.finalizer
    refine .inl ⟨_, _, _, rfl, fun e he => ?_,
      fun hnone => announces_envelopedHead cr hhead hnone, _,
      uncompressed_terminal cr protocol.finalizer _ resp.trailers,
      fun n => (hrun n).1.frames cr⟩
    obtain ⟨message, hmessage, henvelope⟩ := mem_planned he
    exact ⟨message, hmessage, packedIn_envelope henvelope⟩

end Responses

/-! ## Any response -/

/-- A body without messages. -/
def ConnectRpcBody.Plain (cr : Crates) : ConnectRpcBody → Prop
  | .full b => b = [] ∨ ∃ e : ConnectError, b = e.toJson cr
  | .grpcUnary b => ∀ f ∈ b.frames, f.Uncompressed
  | .streaming (.frames frames) => ∀ f ∈ frames, f.Uncompressed
  | .streaming (.stream _) => False

/-- A response without messages, and that announces no encoding. -/
structure Unencoded (cr : Crates) (r : Response ConnectRpcBody) : Prop where
  /-- no encoding header of any protocol -/
  head : ∀ n ∈ [HeaderName.contentEncoding, hdr.grpcEncoding, hdr.connectContentEncoding],
    r.headers.getAll n = []
  /-- the body of an error, or none -/
  body : r.body.Plain cr

/-- What the chain of a service answers to a unary call. -/
def Service.AnswersUnary (s : Service X) (resp : EncodedResponse) : Prop :=
  ∃ course limited path ctx message codec,
    (runCall course limited .none
      (callUnaryIntercepted s.dispatcher s.interceptors path ctx message codec)).2 = .ok resp

/-- What it answers to a call whose response is a stream, or is sent as one. -/
inductive Service.AnswersStreaming (s : Service X) : HandlerResponse (List SourceEvent) → Prop where
  /-- a client-streaming call -/
  | client {course : Course} {limited : Bool} {requests : RequestRun} {path : String}
      {ctx : RequestContext X} {codec : CodecFormat} {resp : EncodedResponse}
      (h : (runCall course limited requests
        (callClientStreamingIntercepted s.dispatcher s.interceptors path ctx codec)).2 = .ok resp) :
      AnswersStreaming s (oneItem resp)
  /-- a bidi call -/
  | bidi {course : Course} {limited : Bool} {requests : RequestRun} {path : String}
      {ctx : RequestContext X} {codec : CodecFormat} {resp : HandlerResponse (List SourceEvent)}
      (h : (runCall course limited requests
        (callBidiStreamingIntercepted s.dispatcher s.interceptors path ctx codec)).2 = .ok resp) :
      AnswersStreaming s resp
  /-- a call with one request -/
  | single {course : Course} {limited : Bool} {requests : RequestRun}
      {kind : StreamingDispatchKind} {path : String} {ctx : RequestContext X} {message : Bytes}
      {codec : CodecFormat} {resp : HandlerResponse (List SourceEvent)}
      (h : (runCall course limited requests (s.callStreaming kind path ctx message codec)).2 =
        .ok resp) :
      AnswersStreaming s resp

/-- **What a response is**, so that whoever sent the request can decode it. -/
inductive Decodable (cr : Crates) (s : Service X) (headers : HeaderMap) :
    Option (Response ConnectRpcBody) → Prop where
  /-- there is none -/
  | none : Decodable cr s headers none
  /-- it carries no message -/
  | plain {r : Response ConnectRpcBody} (h : Unencoded cr r) : Decodable cr s headers (some r)
  /-- its body is the message -/
  | unary {resp : EncodedResponse} {r : Response Bytes} (hanswer : s.AnswersUnary resp)
      (h : UnaryPacked s headers resp r) : Decodable cr s headers (some (r.mapBody .full))
  /-- its body is one envelope -/
  | grpcUnary {rp : RequestProtocol} {resp : EncodedResponse} {r : Response GrpcUnaryBody}
      (hprotocol : Protocol.detect s.json headers = some rp) (hanswer : s.AnswersUnary resp)
      (h : GrpcUnaryPacked s headers rp.protocol resp r) :
      Decodable cr s headers (some (r.mapBody .grpcUnary))
  /-- its body is a stream of envelopes -/
  | streaming {rp : RequestProtocol} {resp : HandlerResponse (List SourceEvent)}
      {r : Response StreamingResponseBody}
      (hprotocol : Protocol.detect s.json headers = some rp)
      (hanswer : s.AnswersStreaming resp)
      (h : StreamPacked cr s headers rp.protocol resp r) :
      Decodable cr s headers (some (r.mapBody .streaming))

/-- A result of `handle_request` that leads to such a response; errors always do. -/
def SettledResponse (cr : Crates) (s : Service X) (headers : HeaderMap) :
    Except ConnectError (Option (Response ConnectRpcBody)) → Prop
  | .ok response => Decodable cr s headers response
  | .error _ => True

section Call

variable (cr : Crates) {s : Service X} {req : HttpRequest X} {course : Course}

/-- The response of a Connect unary error. -/
theorem unencoded_errorResponse (e : ConnectError) :
    Unencoded cr ((errorResponse cr e).mapBody .full) := by
  refine ⟨fun n hn => ?_, ?_⟩
  · have hmem : n ∈ bodyFraming := List.mem_cons_of_mem _ hn
    exact Rendering.getAll_bodyFraming cr .connectUnary e hmem
  · have hbody : (errorResponse cr e).body = [] ∨ (errorResponse cr e).body = e.toJson cr := by
      rw [errorResponse]
      rcases addTrailers cr _ e.trailers with _ | p
      · exact .inl rfl
      · exact .inr rfl
    exact hbody.imp_right fun h => ⟨e, h⟩

/-- The frames of an error. -/
theorem uncompressed_render {r : Rendering} {e : ConnectError} (h : r ≠ .connectUnary) :
    ∀ f ∈ (r.render cr e).body, f.Uncompressed := by
  have hbody : (r.render cr e).body = r.bodyFrames cr e ∨ (r.render cr e).body = r.fallback.body := by
    rw [Rendering.render_eq]
    rcases r.head cr e with _ | p
    · exact .inr rfl
    · exact .inl rfl
  intro f hf
  cases r with
  | connectUnary => exact absurd rfl h
  | streaming protocol codec =>
    rcases hbody with hbody | hbody
    · rw [hbody] at hf
      obtain rfl := List.mem_singleton.mp hf
      exact uncompressed_terminal cr protocol.finalizer (some e) e.trailers
    · rw [hbody] at hf
      exact absurd hf List.not_mem_nil
  | grpcUnary protocol hp codec =>
    rcases hbody with hbody | hbody
    · rw [hbody] at hf
      obtain rfl := List.mem_singleton.mp hf
      exact uncompressed_terminal cr protocol.finalizer (some e) e.trailers
    · rw [hbody] at hf
      exact absurd hf List.not_mem_nil

theorem unencoded_streamingError (protocol : Protocol) (codec : CodecFormat) (e : ConnectError) :
    Unencoded cr ((Service.streamingError cr protocol codec e).mapBody .streaming) where
  head := fun _ hn =>
    Rendering.getAll_bodyFraming cr (.streaming protocol codec) e (List.mem_cons_of_mem _ hn)
  body := @uncompressed_render cr (.streaming protocol codec) e (by intro h; cases h)

theorem unencoded_grpcUnaryError (protocol : Protocol) (h : protocol ≠ .connect)
    (codec : CodecFormat) (e : ConnectError) :
    Unencoded cr ((grpcUnaryError cr e protocol h codec).mapBody .grpcUnary) where
  head := fun _ hn =>
    Rendering.getAll_bodyFraming cr (.grpcUnary protocol h codec) e (List.mem_cons_of_mem _ hn)
  body := @uncompressed_render cr (.grpcUnary protocol h codec) e (by intro h; cases h)

/-- The answer to a Connect unary request. -/
theorem unaryPacked_handle {path : String} {desc : Option MethodDescriptor} {limits : Limits}
    {r : Response Bytes}
    (h : (s.handleUnaryRequest cr path desc req limits course).2 = .ok r) :
    ∃ resp, s.AnswersUnary resp ∧ UnaryPacked s req.headers resp r := by
  rw [Service.handleUnaryRequest, Traced.andThen] at h
  rcases hreceived : (receive limits course _ req.body : Traced X (Except ConnectError Bytes)).2 with
    e | postBody
  · rw [hreceived] at h
    cases h
  · rw [hreceived] at h
    simp only at h
    split at h
    · cases h
    · rename_i desc' body codec hrequest
      obtain ⟨resp, hresp, hr⟩ := exists_of_bind_ok h
      exact ⟨resp, ⟨_, _, _, _, _, _, hresp⟩, unaryPacked cr hr⟩

/-- The response to a gRPC unary request. -/
theorem decodable_grpcUnary {rp : RequestProtocol} (hrp : Protocol.detect s.json req.headers = some rp)
    {path : String} {spec : Option Spec} (h : rp.protocol ≠ .connect) {limits : Limits} :
    Decodable cr s req.headers ((s.handleGrpcUnaryRequest cr path spec req rp.protocol h rp.codecFormat limits
      course).2.map fun r => r.mapBody .grpcUnary) := by
  have herror : ∀ e, Decodable cr s req.headers
      (some ((grpcUnaryError cr e rp.protocol h rp.codecFormat).mapBody .grpcUnary)) :=
    fun e => .plain (unencoded_grpcUnaryError cr rp.protocol h rp.codecFormat e)
  rw [Service.handleGrpcUnaryRequest]
  split
  · exact herror _
  · split
    · exact herror _
    · rw [Traced.andThen]
      rcases (receive limits course _ req.body : Traced X (Except ConnectError Bytes)).2 with
        e | postBody
      · exact herror _
      · simp only
        split
        · exact herror _
        · rename_i body hbody
          rcases hanswer : (runCall course _ .none (callUnaryIntercepted s.dispatcher s.interceptors
            path _ body rp.codecFormat)).2 with e | resp
          · simp only [Traced.map]
            rw [hanswer]
            exact herror _
          · simp only [Traced.map]
            rw [hanswer]
            simp only
            rcases hr : s.grpcUnaryResponse cr rp.protocol h (s.metadataOf req rp.protocol)
              rp.codecFormat resp with _ | r
            · exact .none
            · rcases grpcUnaryPacked cr hr with hpacked | ⟨e, rfl⟩
              · exact .grpcUnary hrp ⟨_, _, _, _, _, _, hanswer⟩ hpacked
              · exact herror _

/-- What becomes of the answer to a streaming request. -/
theorem decodable_answerStreaming {rp : RequestProtocol}
    (hrp : Protocol.detect s.json req.headers = some rp) (failed : String)
    {answer : Except ConnectError (HandlerResponse (List SourceEvent))}
    (h : ∀ resp, answer = .ok resp → s.AnswersStreaming resp) :
    Decodable cr s req.headers (some ((s.answerStreaming cr failed rp.protocol
      (s.metadataOf req rp.protocol) rp.codecFormat answer).mapBody .streaming)) := by
  rcases answer with e | resp
  · exact .plain (unencoded_streamingError cr rp.protocol rp.codecFormat e)
  · rcases @streamPacked X cr s failed req rp.protocol rp.codecFormat resp with hpacked | ⟨e, he⟩
    · exact .streaming hrp (h resp rfl) hpacked
    · rw [Service.answerStreaming, he]
      exact .plain (unencoded_streamingError cr rp.protocol rp.codecFormat e)

/-- The response to a streaming request. -/
theorem decodable_streaming {rp : RequestProtocol}
    (hrp : Protocol.detect s.json req.headers = some rp) {path : String}
    {desc : Option MethodDescriptor} {limits : Limits} :
    Decodable cr s req.headers (some ((s.handleStreamingRequest cr path desc req rp.protocol rp.codecFormat
      limits course).2.mapBody .streaming)) := by
  have herror : ∀ e, Decodable cr s req.headers
      (some ((Service.streamingError cr rp.protocol rp.codecFormat e).mapBody .streaming)) :=
    fun e => .plain (unencoded_streamingError cr rp.protocol rp.codecFormat e)
  rw [Service.handleStreamingRequest]
  split
  · exact herror _
  · split
    · exact herror _
    · split
      · refine decodable_answerStreaming cr hrp _ fun resp hresp => ?_
        exact .bidi hresp
      · refine decodable_answerStreaming cr hrp _ fun resp hresp => ?_
        obtain ⟨answer, hanswer, rfl⟩ := exists_of_map_ok hresp
        exact .client hanswer
      · rw [Service.handleSingleRequest, Traced.andThen]
        rcases (receive limits course _ req.body : Traced X (Except ConnectError Bytes)).2 with
          e | postBody
        · exact herror _
        · simp only
          split
          · exact herror _
          · split
            · exact herror _
            · refine decodable_answerStreaming cr hrp _ fun resp hresp => ?_
              exact .single hresp

/-- A response that has one header, which is not about an encoding. -/
theorem unencoded_bareResponse (status : StatusCode) {n : HeaderName} (v : HeaderValue)
    (hn : n ∉ [HeaderName.contentEncoding, hdr.grpcEncoding, hdr.connectContentEncoding]) :
    Unencoded cr (Service.bareResponse status n v) where
  head := fun k hk => by
    have hne : n ≠ k := fun h => hn (h ▸ hk)
    exact (HeaderMap.getAll_append_ne _ v hne).trans (HeaderMap.getAll_empty k)
  body := .inl rfl

/-- The response to a request with enveloped messages. -/
theorem decodable_enveloped {rp : RequestProtocol}
    (hrp : Protocol.detect s.json req.headers = some rp) :
    Decodable cr s req.headers (s.handleEnveloped cr rp course req).2 := by
  rw [Service.handleEnveloped]
  split
  · exact .plain (unencoded_streamingError cr .grpcWeb rp.codecFormat _)
  · split
    · rename_i h
      exact decodable_grpcUnary cr hrp h.1
    · exact decodable_streaming cr hrp

/-- A request goes on with its own headers, if it goes on. -/
theorem of_afterHeads {α : Type} {protocol : Protocol} {failed : ConnectError → α}
    {go : HttpRequest X → Traced X α} {P : α → Prop} (hfailed : ∀ e, P (failed e))
    (hgo : ∀ extensions, P (go { req with extensions := extensions }).2) :
    P (s.afterHeads req protocol failed go).2 := by
  rw [Service.afterHeads, Service.interceptHeads]
  rcases runHeads 0 s.interceptors (s.requestHead req protocol) with ⟨evs, extensions, e | ⟨⟩⟩
  · exact hfailed e
  · exact hgo extensions

/-- A Connect unary request, once its head has been checked. -/
theorem settledResponse_handleUnary (extensions : X) :
    SettledResponse cr s req.headers
      (s.handleUnary cr course { req with extensions := extensions }).2 := by
  rw [Service.handleUnary]
  generalize hpath : Service.routePath _ = path
  generalize hdesc : s.descriptor _ = desc
  generalize hlimits : s.limitsOf _ = limits
  rcases h : (s.handleUnaryRequest cr path desc { req with extensions := extensions } limits
    course).2 with e | r
  · rw [Traced.map, h]
    trivial
  · obtain ⟨resp, hanswer, hpacked⟩ := unaryPacked_handle cr h
    rw [Traced.map, h]
    exact .unary hanswer hpacked

theorem settledResponse_handleRequest : SettledResponse cr s req.headers (s.handleRequest cr req course).2 := by
  rw [Service.handleRequest]
  split
  · -- a verb of no protocol
    rw [Service.rejectUnsupportedMethod]
    rcases s.descriptor req with _ | desc
    · trivial
    · exact .plain (unencoded_bareResponse cr _ _ (by decide))
  · split
    · exact of_afterHeads (fun _ => trivial) (settledResponse_handleUnary cr)
    · split
      · -- a content type of no protocol
        rw [Service.rejectContentType, Service.unknownContentType]
        rcases Service.grpcLike _ with _ | protocol
        · exact .plain (unencoded_bareResponse cr _ _ (by decide))
        · exact .plain (unencoded_streamingError cr protocol .proto _)
      · rename_i rp hrp
        split
        · refine of_afterHeads (fun e => ?_) fun extensions => ?_
          · exact .plain (unencoded_streamingError cr rp.protocol rp.codecFormat e)
          · exact @decodable_enveloped X cr s { req with extensions := extensions } course rp hrp
        · exact of_afterHeads (fun _ => trivial) (settledResponse_handleUnary cr)

end Call

/-- **Responses are compressed for whoever asks.** Every response of every service is of a form that
the sender of the request can decode. -/
theorem response_compression (cr : Crates) (s : Service X) (req : HttpRequest X) (course : Course) :
    Decodable cr s req.headers (s.call cr req course).2 := by
  have hsettled := @settledResponse_handleRequest X cr s req course
  rw [Service.call, Traced.map]
  rcases h : (s.handleRequest cr req course).2 with e | response
  · exact .plain (unencoded_errorResponse cr e)
  · rw [h] at hsettled
    exact hsettled

/-- Puts a byte before what it compresses. -/
def markProvider (name : String) : CompressionProvider where
  name := name
  compress data := .ok (0 :: data)
  decompressWithLimit data _ := .ok data.tail

/-- A service with one unary method that compresses everything. -/
def markService : Service Unit where
  json := false
  dispatcher :=
    { lookup := fun _ => some ⟨.unary, false, none, none⟩
      callUnary := fun _ _ _ _ => .answer (.ok ⟨.contiguous [7], .empty, .empty, none⟩)
      callServerStreaming := fun path _ _ _ => .answer (.error (.methodNotFound path))
      callClientStreaming := fun path _ _ _ => .answer (.error (.methodNotFound path))
      callBidiStreaming := fun path _ _ _ => .answer (.error (.methodNotFound path)) }
  limits := ⟨64, 64, 64⟩
  compression := (CompressionRegistry.new.register (markProvider "br") (by decide)).register
    (markProvider "gzip") (by decide)
  compressionPolicy := ⟨true, 0⟩
  deadlinePolicy := ⟨0, none, none⟩
  interceptors := []
  base64Error _ := ""
  httpError _ := ""

/-- The list `br` and a name that is not ASCII. -/
def opaqueList : HeaderValue := ⟨asBytes "br, " ++ [0xFF], by decide⟩

theorem allBytes_gzip : (asBytes "gzip").all valueByte = true := by decide

/-- A request in `gzip` with that list. -/
def opaqueRequest : HttpRequest Unit where
  method := .POST
  path := "/s/m"
  query := none
  headers := ((HeaderMap.empty.append .contentType (contentTypeValue .connect .proto false)).append
    .contentEncoding (.static "gzip" allBytes_gzip)).append .acceptEncoding opaqueList
  extensions := ()
  body := ⟨[], fun _ => false⟩

/-- **A list with a name that is not ASCII** is not read at all: the response is in the encoding of
the request, which is not on it. -/
theorem opaque_list_ignored :
    opaqueRequest.headers.getAll .acceptEncoding = [opaqueList] ∧
      (markService.call .std opaqueRequest ⟨0, 0, 0, 0, []⟩).2.map (fun r =>
        ((r.headers.getAll .contentEncoding).map HeaderValue.bytes,
          match r.body with
          | .full b => b
          | _ => [])) =
        some ([asBytes "gzip"], [0, 7]) := by
  refine ⟨by decide +kernel, ?_⟩
  have hcall : (markService.call .std opaqueRequest ⟨0, 0, 0, 0, []⟩).2 =
      match (markService.unaryResponse .std (markService.metadataOf opaqueRequest .connect) .proto
        ⟨.contiguous [7], .empty, .empty, none⟩).map fun r => some (r.mapBody .full) with
      | .ok response => response
      | .error e => some ((errorResponse .std e).mapBody .full) := rfl
  rw [hcall, Service.unaryResponse]
  simp only [responseHead]
  generalize markService.compression.acceptEncodingValue .std = accept
  rcases accept with _ | v
  · rfl
  · rfl

end ConnectRpc
