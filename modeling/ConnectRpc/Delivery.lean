import ConnectRpc.ErrorRoundTrip
import ConnectRpc.ServiceRun
import ConnectRpc.TrailersSurvive

/-!
# What a client learns of an answer

The response side of a call. `ArrivesAs` is a response on its way: the head as it was sent, the body
cut elsewhere. For an answer that leaves the headers of the protocol alone and is within the limits
of the client, the response is built and conveys the answer (`unary_conveyed`, `grpcUnary_conveyed`,
`stream_conveyed`), and so does that to an error (`Rendering.conveyed`).
-/

namespace ConnectRpc

open Lib

variable (cr : Crates) {X α : Type}

/-! ## On the way -/

/-- The frames that a body has sent when it is over. -/
def ConnectRpcBody.Sends (frames : List Frame) : ConnectRpcBody → Prop
  | .full b => frames = fullFrames b
  | .grpcUnary b => ∃ n, none ∈ b.sent n ∧ frames = (b.sent n).reduceOption
  | .streaming (.frames sent) => frames = sent
  | .streaming (.stream b) =>
    ∃ n, none ∈ ready (polls (BatchingEnvelopeStream.pollNext cr) n b) ∧
      frames = (ready (polls (BatchingEnvelopeStream.pollNext cr) n b)).reduceOption

/-- A response as it arrives. -/
structure ArrivesAs (r : Response ConnectRpcBody) (got : Response (List BodyEvent)) : Prop where
  /-- its status is that of the response -/
  status : got.status = r.status
  /-- so are its headers -/
  headers : got.headers = r.headers
  /-- its body is that of the response, cut elsewhere -/
  body : ∃ frames, r.body.Sends cr frames ∧ Recut frames got.body

/-- Frames arrive as they are, too. -/
theorem Recut.refl (frames : List Frame) :
    Recut frames ([sentBytes frames].map .data ++ (sentTrailers frames).map .trailers) :=
  ⟨[sentBytes frames], by simp, rfl⟩

/-- A body that is over arrives. -/
theorem exists_arrivesAs {r : Response ConnectRpcBody} (h : ∃ frames, r.body.Sends cr frames) :
    ∃ got, ArrivesAs cr r got := by
  obtain ⟨frames, hframes⟩ := h
  exact ⟨⟨r.status, r.headers, _⟩, rfl, rfl, frames, hframes, .refl frames⟩

/-! ## Heads -/

/-- Headers of a handler that leave those of a protocol alone. -/
structure LeavesHead (contentEncoding : HeaderName) (headers : HeaderMap) : Prop where
  /-- no content type -/
  contentType : headers.getAll .contentType = []
  /-- no encoding -/
  encoding : headers.getAll contentEncoding = []
  /-- no status of gRPC -/
  status : headers.getAll hdr.grpcStatus = []
  /-- and not too many -/
  room : 3 + headers.nameCount < cr.headerCap

/-- A head that a client takes for what it is. -/
structure HeadFor (protocol : Protocol) (codec : CodecFormat) (encoding : Option String)
    (head : HeaderMap) : Prop where
  /-- its content type -/
  contentType : head.getAll .contentType = [contentTypeValue protocol codec true]
  /-- its encoding -/
  encoding : (head.get protocol.contentEncodingHeader).bind HeaderValue.toStr = encoding
  /-- it brings no status -/
  status : head.contains hdr.grpcStatus = false

/-- The name of an encoding of a registry reads as it was written. -/
theorem CompressionRegistry.toStr_of_supports {reg : CompressionRegistry} {encoding : String}
    (h : reg.supports encoding = true) (o : Bool) :
    ∃ v, HeaderValue.fromStr o encoding = some v ∧ v.toStr = some encoding := by
  obtain ⟨p, hp⟩ := Option.isSome_iff_exists.mp h
  have htoken := CompressionRegistry.isHttpToken_of_get hp
  simp only [isHttpToken, Bool.and_eq_true, List.all_eq_true] at htoken
  have hvisible : (asBytes encoding).all visibleByte = true := by
    rw [List.all_eq_true, asBytes, utf8_ascii fun c hc => (visibleByte_of_token (htoken.2 c hc)).1]
    intro b hb
    obtain ⟨c, hc, rfl⟩ := List.mem_map.mp hb
    exact (visibleByte_of_token (htoken.2 c hc)).2
  obtain ⟨v, hv, hbytes⟩ := HeaderValue.fromStr_of_visible (o := o) hvisible
  refine ⟨v, hv, HeaderValue.toStr_of_fromStr hv ?_⟩
  rw [HeaderValue.visible, hbytes]
  exact hvisible

/-- The encoding header of a head reads as its encoding. -/
theorem text_of_encoding {reg : CompressionRegistry} {encoding : Option String}
    (h : ∀ name ∈ encoding, reg.supports name = true) {head : HeaderMap} {n : HeaderName}
    (hhead : head.getAll n = (encoding.bind (HeaderValue.fromStr cr.opaqueOctets)).toList) :
    (head.get n).bind HeaderValue.toStr = encoding := by
  rw [HeaderMap.get, hhead]
  cases encoding with
  | none => rfl
  | some name =>
    obtain ⟨v, hv, htext⟩ := reg.toStr_of_supports (h name rfl) cr.opaqueOctets
    rw [Option.bind_some, hv]
    exact htext

/-- The headers of a head are under three names. -/
theorem mem_headOf {contentType : HeaderValue} {encodingHeader acceptEncodingHeader : HeaderName}
    {encoding : Option String} {compression : CompressionRegistry} {e : HeaderName × HeaderValue}
    (h : e ∈ headOf cr contentType encodingHeader encoding acceptEncodingHeader compression) :
    e.1 ∈ [HeaderName.contentType, encodingHeader, acceptEncodingHeader] := by
  rw [headOf] at h
  rcases List.mem_cons.mp h with rfl | h
  · exact List.mem_cons_self
  · rcases List.mem_append.mp h with h | h
    · obtain ⟨v, -, rfl⟩ := List.mem_map.mp h
      simp
    · obtain ⟨v, -, rfl⟩ := List.mem_map.mp h
      simp

/-- Own headers and those of a handler have room if the latter do. -/
theorem room_headOf {contentType : HeaderValue} {encodingHeader acceptEncodingHeader : HeaderName}
    {encoding : Option String} {compression : CompressionRegistry} {headers : HeaderMap}
    (h : 3 + headers.nameCount < cr.headerCap) :
    Room cr.headerCap (headOf cr contentType encodingHeader encoding acceptEncodingHeader
      compression ++ headers.entries) := by
  apply room_of_nameCount
  have hnames : ∀ e ∈ headOf cr contentType encodingHeader encoding acceptEncodingHeader
      compression ++ headers.entries,
      e.1 ∈ [HeaderName.contentType, encodingHeader, acceptEncodingHeader] ∨ e.1 ∈ headers.names := by
    intro e he
    rcases List.mem_append.mp he with he | he
    · exact .inl (mem_headOf cr he)
    · exact .inr (HeaderMap.mem_names_of_mem he)
  exact Nat.lt_of_le_of_lt (HeaderMap.nameCount_appendAll_le hnames) h

/-- Values of one name are not under another. -/
theorem getAll_map_of_ne {n k : HeaderName} (h : n ≠ k) (vs : List HeaderValue) :
    HeaderMap.getAll ⟨vs.map (n, ·)⟩ k = [] := by
  simp [HeaderMap.getAll, h]

/-- Only the headers of a handler are under other names. -/
theorem getAll_headOf_other {contentType : HeaderValue}
    {encodingHeader acceptEncodingHeader : HeaderName} {encoding : Option String}
    {compression : CompressionRegistry} {n : HeaderName}
    (h : n ∉ [HeaderName.contentType, encodingHeader, acceptEncodingHeader])
    (more : List (HeaderName × HeaderValue)) :
    HeaderMap.getAll ⟨headOf cr contentType encodingHeader encoding acceptEncodingHeader
      compression ++ more⟩ n = HeaderMap.getAll ⟨more⟩ n := by
  simp only [List.mem_cons, List.not_mem_nil, or_false, not_or] at h
  obtain ⟨hcontent, hencoding, haccept⟩ := h
  rw [HeaderMap.getAll_append_entries, headOf, HeaderMap.getAll_cons, if_neg (Ne.symm hcontent),
    HeaderMap.getAll_append_entries, getAll_map_of_ne (Ne.symm hencoding),
    getAll_map_of_ne (Ne.symm haccept)]
  rfl

/-- The content type of a head is its own, before any that the handler sets. -/
theorem getAll_headOf_contentType {contentType : HeaderValue}
    {encodingHeader acceptEncodingHeader : HeaderName} {encoding : Option String}
    {compression : CompressionRegistry} (hencoding : encodingHeader ≠ .contentType)
    (haccept : acceptEncodingHeader ≠ .contentType) (more : List (HeaderName × HeaderValue)) :
    HeaderMap.getAll ⟨headOf cr contentType encodingHeader encoding acceptEncodingHeader
      compression ++ more⟩ .contentType =
        contentType :: HeaderMap.getAll ⟨more⟩ .contentType := by
  rw [HeaderMap.getAll_append_entries, headOf, HeaderMap.getAll_cons, if_pos rfl,
    HeaderMap.getAll_append_entries, getAll_map_of_ne hencoding, getAll_map_of_ne haccept]
  rfl

/-- **The head of enveloped messages** is built, and is taken for what it is. -/
theorem Service.envelopedHead_ok {s : Service X} {protocol : Protocol} {metadata : RequestMetadata}
    {codec : CodecFormat} {headers : HeaderMap}
    (h : LeavesHead cr protocol.contentEncodingHeader headers) :
    ∃ head, s.envelopedHead cr protocol metadata codec headers = some (.ok, head) ∧
      HeadFor protocol codec (s.streamingEncoding metadata) head := by
  have hregistered : ∀ name ∈ s.streamingEncoding metadata, s.compression.supports name = true :=
    fun name hname => (negotiateEncoding_iff.mp hname).registered
  have hcontent : protocol.contentEncodingHeader ≠ .contentType := by
    cases protocol <;> decide
  have haccept : protocol.acceptEncodingHeader ≠ .contentType := by
    cases protocol <;> decide
  have hnames : protocol.acceptEncodingHeader ≠ protocol.contentEncodingHeader := by
    cases protocol <;> decide
  have hstatus : hdr.grpcStatus ∉ [HeaderName.contentType, protocol.contentEncodingHeader,
      protocol.acceptEncodingHeader] := by
    cases protocol <;> decide
  let entries := headOf cr (contentTypeValue protocol codec true) protocol.contentEncodingHeader
    (s.streamingEncoding metadata) protocol.acceptEncodingHeader s.compression ++ headers.entries
  have hvalues (n : HeaderName) :
      (HeaderMap.empty.appendAll entries).getAll n = HeaderMap.getAll ⟨entries⟩ n := by
    rw [HeaderMap.getAll_appendAll, HeaderMap.getAll_empty, List.nil_append]
  refine ⟨HeaderMap.empty.appendAll entries, ?_, ?_, text_of_encoding cr hregistered ?_,
    HeaderMap.contains_eq_false.mpr ?_⟩
  · rw [Service.envelopedHead, responseHead_eq, ← ResponseBuilder.headers_append,
      ResponseBuilder.headers_withStatus (Rendering.headerCap_pos cr),
      if_pos (room_headOf cr h.room)]
  · rw [hvalues, getAll_headOf_contentType cr hcontent haccept]
    exact congrArg _ h.contentType
  · rw [hvalues, getAll_headOf cr _ _ _ hcontent hnames]
    exact List.append_right_eq_self.mpr h.encoding
  · rw [hvalues, getAll_headOf_other cr hstatus]
    exact h.status

/-- The client makes a stream of a response with such a head. -/
theorem HeadFor.makeServerStream {c : CallConfig α} {encoding : Option String} {head : HeaderMap}
    (h : HeadFor c.protocol c.codecFormat encoding head) (body : List BodyEvent) (late : Bool) :
    makeServerStream cr c ⟨.ok, head, body⟩ late = .ok (.start (c.setup head late) body) := by
  have hsuccess : (!StatusCode.ok.isSuccess) = false := rfl
  rw [ConnectRpc.makeServerStream]
  by_cases hp : c.protocol = .connect
  · have hcontent := h.contentType
    rw [hp] at hcontent
    rw [if_pos hp, if_pos hp]
    simp only [hsuccess, Bool.false_eq_true, if_false, Rendering.validateConnect_contentType hcontent]
  · have hnone : parseGrpcErrorFromTrailers cr head = none := by
      apply (parseGrpcErrorFromTrailers_none_iff cr head).mpr
      left
      rw [HeaderMap.get, HeaderMap.contains_eq_false.mp h.status]
      rfl
    have hhead : checkGrpcResponseHead .ok head c.protocol c.codecFormat = .ok () := by
      rw [checkGrpcResponseHead]
      simp only [hsuccess, Bool.false_and, Bool.false_eq_true, if_false]
      exact Rendering.validateGrpc_contentType hp h.contentType
    rw [if_neg hp, if_neg hp, checkGrpcHead]
    simp only [hhead, hnone, hsuccess, Bool.false_eq_true, if_false]

/-! ## Streams -/

/-- How the messages of a stream are encoded. -/
def Service.encoderOf (s : Service X) (metadata : RequestMetadata) (compress : Option Bool) :
    EnvelopeEncoder :=
  ⟨(s.streamingEncoding metadata).map (s.compression, ·), s.compressionPolicy.withOverride compress⟩

/-- A stream yields some messages, and ends cleanly with the plain ones of some trailers. -/
def StreamSucceeds (c : CallConfig α) (response : Response (List BodyEvent)) (late : Bool)
    (msgs : List α) (trailers : HeaderMap) : Prop :=
  ∃ s ended, makeServerStream cr c response late = .ok s ∧ s.Run cr msgs ended ∧
    ended.outcome = none ∧ Carried c.protocol trailers (ended.trailers.getD .empty)

/-- A stream of a handler that a client can read. -/
structure StreamReadable (s : Service X) (c : CallConfig α) (metadata : RequestMetadata)
    (resp : HandlerResponse (List SourceEvent)) (msgs : List α) : Prop where
  /-- its headers leave those of the protocol alone -/
  head : LeavesHead cr c.protocol.contentEncodingHeader resp.headers
  /-- its messages are within the limit -/
  limit : WithinLimit c.messageLimit (s.encoderOf metadata resp.compress) resp.body
  /-- those that are sent decode to these -/
  decodes : List.Forall₂ (fun b msg => c.decode b = .ok msg)
    (delivered (s.encoderOf metadata resp.compress) resp.body) msgs
  /-- and its end can be read -/
  ending : match (planned (s.encoderOf metadata resp.compress) resp.body).2 with
    | none => TerminatorReadable cr (c.setup .empty false) resp.trailers ∧
        1 + resp.trailers.nameCount < cr.headerCap
    | some err => err.trailers = .empty ∧
        ErrorReadable cr c.protocol c.messageLimit err resp.trailers ∧
        c.protocol.finalizer.Room cr (some err) resp.trailers

/-- What a client learns of a stream that ends so. -/
def StreamConveyed (c : CallConfig α) (msgs : List α) (trailers : HeaderMap)
    (response : Response (List BodyEvent)) (late : Bool) : Option ConnectError → Prop
  | none => StreamSucceeds cr c response late msgs trailers
  | some err => ∃ e, StreamFails cr c response late msgs e ∧
      ComesBack (c.protocol = .grpcWeb) false err e

/-- **A stream is conveyed**: its messages in order, and then its end. -/
theorem stream_conveyed {s : Service X} {c : CallConfig α} {metadata : RequestMetadata}
    {resp : HandlerResponse (List SourceEvent)} {msgs : List α}
    (h : StreamReadable cr s c metadata resp msgs)
    (hinverts : ∀ name ∈ s.streamingEncoding metadata,
      Inverts s.compression c.compression name) (failed : String) :
    (∃ got, ArrivesAs cr ((s.streamingResponse cr failed c.protocol metadata c.codecFormat
        resp).mapBody .streaming) got) ∧
      ∀ got, ArrivesAs cr ((s.streamingResponse cr failed c.protocol metadata c.codecFormat
          resp).mapBody .streaming) got → ∀ late,
        StreamConveyed cr c msgs resp.trailers got late
          (planned (s.encoderOf metadata resp.compress) resp.body).2 := by
  obtain ⟨head, hhead, hfor⟩ := @Service.envelopedHead_ok cr _ s _ metadata c.codecFormat _
    h.head
  let stream := BatchingEnvelopeStream.new resp.body resp.trailers
    ((s.streamingEncoding metadata).map (s.compression, ·))
    (s.compressionPolicy.withOverride resp.compress) c.protocol.finalizer
  have hresponse : s.streamingResponse cr failed c.protocol metadata c.codecFormat resp =
      ⟨.ok, head, .stream stream⟩ := by
    rw [Service.streamingResponse, hhead]
    rfl
  obtain ⟨hends, hcomplete⟩ := served_complete cr resp.body resp.trailers
    ((s.streamingEncoding metadata).map (s.compression, ·))
    (s.compressionPolicy.withOverride resp.compress) c.protocol.finalizer
  rw [hresponse]
  refine ⟨?_, ?_⟩
  · obtain ⟨n, hn⟩ := hends
    exact exists_arrivesAs cr ⟨_, n, hn, rfl⟩
  · rintro ⟨status, headers, body⟩ ⟨hstatus, hheaders, frames, ⟨n, hn, hframes⟩, hbody⟩ late
    obtain rfl : status = .ok := hstatus
    obtain rfl : headers = head := hheaders
    rw [hframes] at hbody
    have hunderstands : Understands (c.setup headers late)
        ((s.streamingEncoding metadata).map (s.compression, ·)) := by
      intro reg name hname
      obtain ⟨name', hname', heq⟩ := Option.map_eq_some_iff.mp hname
      obtain ⟨rfl, rfl⟩ := Prod.mk.inj heq
      exact ⟨hfor.encoding.trans hname', hinverts name' hname'⟩
    -- the whole of the body decides, up to the terminal frame
    obtain ⟨saw, -, hread⟩ := (c.setup headers late).reading_served cr hunderstands h.limit h.decodes
      (hcomplete n hn) hbody
    have hmake := hfor.makeServerStream cr body late
    have hending := h.ending
    change StreamConveyed cr c msgs resp.trailers _ late (planned
      ⟨(s.streamingEncoding metadata).map (s.compression, ·), _⟩ resp.body).2
    rw [Service.encoderOf] at hending
    rcases houtcome : (planned ⟨(s.streamingEncoding metadata).map (s.compression, ·),
      s.compressionPolicy.withOverride resp.compress⟩ resp.body).2 with _ | err
    · rw [houtcome] at hread hending
      obtain ⟨hterminator, hroom⟩ := hending
      have hterminal := readTerminal_success cr (t := c.setup headers late) hterminator saw
      have hprotocol : (c.setup headers late).protocol = c.protocol := rfl
      rw [hprotocol] at hterminal
      rw [hterminal, List.append_nil] at hread
      have hrun := (ServerStream.run_iff cr
        (ServerStream.start_live (c.setup headers late) body)).mpr
          ⟨_, by rw [ServerStream.toRead_start, hread], rfl⟩
      exact ⟨_, _, hmake, hrun, rfl, carried_receivedTrailers cr c.protocol hroom⟩
    · rw [houtcome] at hread hending
      obtain ⟨hbare, hreadable, -⟩ := hending
      obtain ⟨e, received, hterminal, hback⟩ := readTerminal_error cr (t := c.setup headers late)
        hbare hreadable saw
      have hprotocol : (c.setup headers late).protocol = c.protocol := rfl
      rw [hprotocol] at hterminal
      rw [hterminal, List.append_nil] at hread
      exact streamFails_of_reading cr hmake hread hback

/-! ## Unary responses -/

/-- The header with the encoding of a unary response. -/
def unaryEncodingHeader (protocol : Protocol) : HeaderName :=
  if protocol = .connect then .contentEncoding else protocol.contentEncodingHeader

/-- Trailers of a unary response that a client can read. -/
def UnaryTrailersReadable (protocol : Protocol) (trailers : HeaderMap) : Prop :=
  match protocol with
  | .connect =>
    ∀ e ∈ trailers.entries, trailerPrefix.length + e.1.text.toList.length ≤ maxHeaderNameLen
  | .grpc => True
  | .grpcWeb => AllText trailers ∧
      HEADER_SIZE + (trailerPayload (grpcTrailerBlock cr none trailers)).length ≤
        RESPONSE_BUFFER_TRAILER_SLACK

/-- An answer of a handler that a client can read. -/
structure UnaryReadable (s : Service X) (c : CallConfig α) (resp : EncodedResponse) (message : α) :
    Prop where
  /-- its headers leave those of the protocol alone -/
  head : LeavesHead cr (unaryEncodingHeader c.protocol) resp.headers
  /-- none of them looks like a trailer -/
  unprefixed : c.protocol = .connect → ∀ e ∈ resp.headers.entries, isPrefixed e.1 = false
  /-- its message is within the limits -/
  size : resp.body.len ≤ min c.messageLimit u32Max
  /-- also when it is compressed -/
  compressed : ∀ name z, s.compression.compress name resp.body.intoContiguous = .ok z →
    z.length ≤ min c.messageLimit u32Max
  /-- it decodes to this -/
  decodes : c.decode resp.body.intoContiguous = .ok message
  /-- its trailers can be read -/
  trailers : UnaryTrailersReadable cr c.protocol resp.trailers
  /-- and there are not too many -/
  room : 3 + resp.headers.nameCount + resp.trailers.nameCount < cr.headerCap

/-! ### Connect -/

/-- The content type of a unary response is accepted. -/
theorem validateConnect_unary {headers : HeaderMap} {codec : CodecFormat}
    (h : headers.getAll .contentType = [contentTypeValue .connect codec false]) :
    validateConnectResponseContentType headers codec false = .ok () := by
  have hmedia : mediaType (Protocol.connect.responseContentType codec false) =
      (Protocol.connect.responseContentType codec false).toList := by
    cases codec <;> decide +kernel
  rw [validateConnectResponseContentType, HeaderMap.get, h]
  simp only [List.head?_cons, contentTypeText, toStr_contentTypeValue, Option.getD_some, hmedia,
    if_true]

/-- Headers of which none is prefixed carry no trailers. -/
theorem carried_of_unprefixed {headers : HeaderMap}
    (h : ∀ e ∈ headers.entries, isPrefixed e.1 = false) :
    Carried .connect .empty (carriedTrailers headers) := by
  intro n _ _
  rw [getAll_carriedTrailers, HeaderMap.getAll_empty]
  rcases hk : trailerKey n with _ | k
  · rfl
  · rw [Option.map_some, Option.getD_some, HeaderMap.getAll_eq_nil_iff]
    intro hmem
    obtain ⟨e, he, rfl⟩ := List.mem_map.mp hmem
    have hprefixed : isPrefixed e.1 = true := by
      rw [isPrefixed, text_of_trailerKey hk, String.toList_append]
      exact List.isPrefixOf_iff_prefix.mpr (List.prefix_append _ _)
    rw [h e he] at hprefixed
    cases hprefixed

/-- A packed message is within a limit if it is as it is and compressed. -/
theorem Packed.length_le {reg : CompressionRegistry} {accept request used : Option String}
    {message sent : Bytes} {limit : ℕ} (h : Packed reg accept request message used sent)
    (hlimit : message.length ≤ limit)
    (hz : ∀ name z, reg.compress name message = .ok z → z.length ≤ limit) :
    sent.length ≤ limit := by
  cases h with
  | asIs => exact hlimit
  | compressed _ hcompress => exact hz _ _ hcompress

/-- A head of a unary response that a client takes for what it is. -/
structure UnaryHeadFor (codec : CodecFormat) (encoding : Option String) (head : HeaderMap) :
    Prop where
  /-- its content type -/
  contentType : head.getAll .contentType = [contentTypeValue .connect codec false]
  /-- its encoding -/
  encoding : (head.get .contentEncoding).bind HeaderValue.toStr = encoding
  /-- it carries no trailers -/
  carried : Carried .connect .empty (carriedTrailers head)

/-- The own headers and those of a handler make such a head. -/
theorem unaryHeadFor {reg : CompressionRegistry} {codec : CodecFormat} {encoding : Option String}
    {headers : HeaderMap} (hleaves : LeavesHead cr .contentEncoding headers)
    (hunprefixed : ∀ e ∈ headers.entries, isPrefixed e.1 = false)
    (hregistered : ∀ name ∈ encoding, reg.supports name = true) :
    UnaryHeadFor codec encoding (HeaderMap.empty.appendAll
      (headOf cr (contentTypeValue .connect codec false) .contentEncoding encoding .acceptEncoding
        reg ++ headers.entries)) := by
  refine ⟨?_, text_of_encoding cr hregistered ?_, carried_of_unprefixed fun e he => ?_⟩
  · rw [HeaderMap.getAll_appendAll, HeaderMap.getAll_empty, List.nil_append,
      getAll_headOf_contentType cr (by decide) (by decide)]
    exact congrArg _ hleaves.contentType
  · rw [HeaderMap.getAll_appendAll, HeaderMap.getAll_empty, List.nil_append,
      getAll_headOf cr _ _ _ (by decide) (by decide)]
    exact List.append_right_eq_self.mpr hleaves.encoding
  · obtain ⟨e', he', hname⟩ :=
      List.mem_map.mp (HeaderMap.mem_names_appendAll.mp (HeaderMap.mem_names_of_mem he))
    rw [← hname]
    rcases List.mem_append.mp he' with he' | he'
    · have hown : ∀ n ∈ [HeaderName.contentType, .contentEncoding, .acceptEncoding],
          isPrefixed n = false := by decide
      exact hown _ (mem_headOf cr he')
    · exact hunprefixed e' he'

/-- **A packed message under such a head** is the message that the client answers. -/
theorem UnaryHeadFor.parse {c : CallConfig α} {reg : CompressionRegistry}
    {accept request used : Option String} {flat sent : Bytes} {head : HeaderMap} {message : α}
    (h : UnaryHeadFor c.codecFormat used head) (hpacked : Packed reg accept request flat used sent)
    (hinverts : ∀ name ∈ used, Inverts reg c.compression name) (hlen : flat.length ≤ c.messageLimit)
    (hsent : sent.length ≤ c.messageLimit) (hdecode : c.decode flat = .ok message)
    {datas : List Bytes} (hdatas : datas.flatten = sent) (late : Bool) :
    parseConnectUnaryResponse cr c ⟨.ok, head, datas.map .data⟩ late =
      .ok ⟨plainHeaders head, message, carriedTrailers head⟩ := by
  have hplain : validateConnectResponseContentType (plainHeaders head) c.codecFormat false =
      .ok () := by
    apply validateConnect_unary
    rw [getAll_plainHeaders (by decide)]
    exact h.contentType
  have hcollected : collectBodyBounded c.messageLimit late [] (datas.map .data) = .ok sent := by
    rw [Rendering.collectBodyBounded_datas late (hdatas ▸ hsent), hdatas]
  have hsuccess : (!StatusCode.ok.isSuccess) = false := rfl
  rw [parseConnectUnaryResponse]
  simp only [hsuccess, Bool.false_eq_true, if_false, hplain, hcollected, h.encoding, Except.bind]
  cases hpacked with
  | asIs => simp only [if_neg (Nat.not_lt.mpr hlen), hdecode]
  | compressed hencoding hz =>
    have hunpacked := (hinverts _ rfl).decompress_compress hz hlen
    simp only [hunpacked, Except.mapError, if_neg (Nat.not_lt.mpr hlen), hdecode]

section Connect

variable {cr} {s : Service X} {c : CallConfig α} {metadata : RequestMetadata}
variable {resp : EncodedResponse} {message : α}

/-- **Without trailers** an answer comes through. -/
theorem UnaryReadable.delivered (h : UnaryReadable cr s c resp message) (hp : c.protocol = .connect)
    (hinverts : ∀ name, s.compression.negotiateEncoding metadata.unaryAcceptEncoding
      metadata.unaryEncoding = some name → Inverts s.compression c.compression name) :
    UnaryDelivered cr s c metadata c.codecFormat resp message .empty := by
  have hleaves := h.head
  rw [unaryEncodingHeader, if_pos hp] at hleaves
  have hsize := h.size
  rw [EncodedBody.len_eq] at hsize
  have hpacked := @packed_unaryResponseBody X s metadata.unaryAcceptEncoding
    metadata.unaryEncoding resp
  generalize hbody : s.unaryResponseBody (s.compression.negotiateEncoding
    metadata.unaryAcceptEncoding metadata.unaryEncoding) resp = body at hpacked
  obtain ⟨sent, used⟩ := body
  have hused : ∀ name ∈ used, Acceptable s.compression metadata.unaryAcceptEncoding
      metadata.unaryEncoding name := by
    intro name hname
    obtain rfl : used = some name := hname
    exact hpacked.acceptable
  have hhead := @unaryHeadFor cr _ c.codecFormat _ _ hleaves (h.unprefixed hp)
    fun name hname => (hused name hname).registered
  have hresponse : s.unaryResponse cr metadata c.codecFormat { resp with trailers := .empty } =
      .ok ⟨.ok, HeaderMap.empty.appendAll (headOf cr (contentTypeValue .connect c.codecFormat false)
        .contentEncoding used .acceptEncoding s.compression ++ resp.headers.entries), sent⟩ := by
    have hsame : s.unaryResponseBody (s.compression.negotiateEncoding metadata.unaryAcceptEncoding
        metadata.unaryEncoding) { resp with trailers := .empty } = (sent, used) := hbody
    have hnone : prefixedTrailers .empty = some [] := rfl
    rw [Service.unaryResponse]
    simp only [hsame, responseHead_eq, addTrailers_eq, hnone, Option.bind_some,
      ← ResponseBuilder.headers_append, List.append_nil]
    rw [ResponseBuilder.headers_withStatus (Rendering.headerCap_pos cr),
      if_pos (room_headOf cr hleaves.room)]
    rfl
  have hlimit := Nat.le_trans hsize (Nat.min_le_left _ _)
  have hsent : sent.length ≤ c.messageLimit := by
    apply hpacked.length_le
    · exact hlimit
    · exact fun name z hz => Nat.le_trans (h.compressed name z hz) (Nat.min_le_left _ _)
  refine ⟨_, hresponse, fun datas hdatas late => ?_⟩
  have hparse := hhead.parse cr hpacked
    (fun name hname => hinverts name (negotiateEncoding_iff.mpr (hused name hname))) hlimit hsent
    h.decodes hdatas late
  exact ⟨_, hparse, rfl, hhead.carried⟩

/-- **With its trailers** it comes through as well. -/
theorem UnaryReadable.connect_conveyed (h : UnaryReadable cr s c resp message)
    (hp : c.protocol = .connect)
    (hinverts : ∀ name, s.compression.negotiateEncoding metadata.unaryAcceptEncoding
      metadata.unaryEncoding = some name → Inverts s.compression c.compression name) :
    UnaryDelivered cr s c metadata c.codecFormat resp message resp.trailers := by
  have hreadable := h.trailers
  rw [hp] at hreadable
  let call : ConnectUnaryCall cr X α :=
    ⟨s, c, metadata, c.codecFormat, resp, message, h.delivered hp hinverts⟩
  exact (call.survives_iff h.room).mpr hreadable

end Connect

/-! ### gRPC -/

/-- An answer within the limits is framed. -/
theorem exists_grpcUnaryEnvelope {reg : CompressionRegistry} {body : EncodedBody}
    (hlen : body.len ≤ u32Max)
    (hz : ∀ name z, reg.compress name body.intoContiguous = .ok z → z.length ≤ u32Max)
    (encoding : Option String) (policy : CompressionPolicy) :
    ∃ head segments, grpcUnaryEnvelope reg encoding policy body = some (head, segments) := by
  have hframed (flag : UInt8) {b : EncodedBody} (hb : b.len ≤ u32Max) :
      ∃ head segments, Envelope.encodeBodyParts flag b MIN_CHAIN_SIZE = some (head, segments) := by
    obtain ⟨head, segments, hparts, -⟩ := Envelope.encodeBodyParts_eq flag MIN_CHAIN_SIZE hb
    exact ⟨head, segments, hparts⟩
  unfold grpcUnaryEnvelope
  cases encoding with
  | none => exact hframed _ hlen
  | some name =>
    simp only
    split
    · -- a compressor that fails is not heard of
      rcases hcompress : reg.compress name body.intoContiguous with e | z
      · rw [EncodedBody.len_eq] at hlen
        exact hframed _ hlen
      · exact hframed _ (hz name z hcompress)
    · exact hframed _ hlen

/-- What a packed envelope is to a client that undoes the encoding. -/
theorem PackedIn.decompress {c : CallConfig α} {reg : CompressionRegistry}
    {accept request negotiated : Option String} {flat : Bytes} {e : Envelope} {head : HeaderMap}
    (h : PackedIn reg accept request negotiated flat e) (hp : c.protocol ≠ .connect)
    (hencoding : grpcEncodingOf head = negotiated)
    (hinverts : ∀ name ∈ negotiated, Inverts reg c.compression name)
    (hlen : flat.length ≤ c.messageLimit) :
    (c.setup head false).decompressEnvelope e = .ok flat ∧ ¬ IdentityCompressed head e := by
  obtain ⟨flag, data⟩ := e
  obtain ⟨used, hpacked, hflags, hused⟩ := h
  obtain rfl : flag = flagOf used := hflags
  cases hpacked with
  | asIs =>
    obtain ⟨hplain, -, -⟩ := Envelope.kind_eq (Envelope.kind_data data)
    refine ⟨?_, fun h => ?_⟩
    · rw [StreamSetup.decompressEnvelope, flagOf, Option.isSome_none, if_neg Bool.false_ne_true,
        hplain, if_neg Bool.false_ne_true]
    · have hcompressed := h.1
      rw [flagOf, Option.isSome_none, if_neg Bool.false_ne_true, hplain] at hcompressed
      cases hcompressed
  | @compressed name _ hacceptable hz =>
    obtain ⟨hcompressed, -, -⟩ := Envelope.kind_eq (Envelope.kind_compressed data)
    have hname : negotiated = some name := (hused.resolve_left (by simp)).symm
    refine ⟨?_, fun h => ?_⟩
    · rw [StreamSetup.decompressEnvelope, flagOf, Option.isSome_some, if_pos rfl, hcompressed,
        if_pos rfl, setup_encoding hp, hencoding, hname]
      have hundone := (hinverts name hname).decompress_compress hz hlen
      have hsetup : (c.setup head false).compression = c.compression := rfl
      have hmax : (c.setup head false).maxMessageSize = c.messageLimit := rfl
      simp only [hsetup, hmax, hundone]
      rfl
    · have hidentity := h.2
      rw [hencoding, hname] at hidentity
      exact hacceptable.compresses (Option.some.inj hidentity)

section Grpc

variable {cr} {s : Service X} {c : CallConfig α} {resp : EncodedResponse} {message : α}

/-- **An answer of gRPC comes through**, with its trailers. -/
theorem UnaryReadable.grpc_conveyed (h : UnaryReadable cr s c resp message)
    (hp : c.protocol ≠ .connect) {accept request : Option String} {head : HeaderMap}
    (hhead : HeadFor c.protocol c.codecFormat (s.compression.negotiateEncoding accept request) head)
    (hinverts : ∀ name, s.compression.negotiateEncoding accept request = some name →
      Inverts s.compression c.compression name) :
    ∃ body, grpcUnaryBody cr c.protocol hp s.compression s.compressionPolicy
        (s.compression.negotiateEncoding accept request) resp = some body ∧
      (∃ n, none ∈ body.sent n) ∧
        ∀ n, none ∈ body.sent n → ∀ events, Recut (body.sent n).reduceOption events → ∀ late,
          ∃ u, parseGrpcUnaryResponse cr c ⟨.ok, head, events⟩ late = .ok u ∧
            u.body = message ∧ Carried c.protocol resp.trailers u.trailers := by
  obtain ⟨hlimit, hfits⟩ := Nat.le_min.mp h.size
  obtain ⟨segmentsHead, segments, hframed⟩ := @exists_grpcUnaryEnvelope s.compression _ hfits
    (fun name z hz => (Nat.le_min.mp (h.compressed name z hz)).2)
    (s.compression.negotiateEncoding accept request)
    (s.compressionPolicy.withOverride resp.compress)
  obtain ⟨e, hwire, hpacked⟩ := packedIn_grpcUnary hframed
  rw [EncodedBody.len_eq] at hlimit hfits
  have hheader : c.protocol.contentEncodingHeader = hdr.grpcEncoding := by
    cases hprotocol : c.protocol with
    | connect => exact absurd hprotocol hp
    | grpc => rfl
    | grpcWeb => rfl
  have hencoding : grpcEncodingOf head = s.compression.negotiateEncoding accept request := by
    rw [grpcEncodingOf, ← hheader]
    exact hhead.encoding
  obtain ⟨hdecompress, hidentity⟩ := hpacked.decompress hp hencoding hinverts hlimit
  obtain ⟨used, hone, hflags, hused⟩ := hpacked
  have hdata : e.data.length ≤ min c.messageLimit u32Max := by
    apply hone.length_le
    · exact Nat.le_min.mpr ⟨hlimit, hfits⟩
    · exact h.compressed
  have hkind : e.flags = flags.DATA ∨ e.flags = flags.COMPRESSED := by
    rw [hflags, flagOf]
    split
    · exact .inr rfl
    · exact .inl rfl
  have hmessage : e.isGrpcWebTrailer = false := by
    rw [Envelope.isGrpcWebTrailer]
    rcases hkind with hkind | hkind
    · rw [hkind]
      decide
    · rw [hkind]
      decide
  have hdecoded : decodeWithLimit c.messageLimit e.wire = .ok (some (e, [])) := by
    rw [decodeWithLimit, decodeContiguous_eq, ← List.append_nil e.wire]
    exact decodeWith_wire [] (Nat.le_min.mp hdata).2 (Nat.le_min.mp hdata).1
  have hsupported : ConnectRpc.unsupportedEncoding c head = none := by
    rw [ConnectRpc.unsupportedEncoding, hencoding, Option.filter_eq_none_iff]
    intro name hname
    have hnegotiated : s.compression.negotiateEncoding accept request = some name := hname
    have hcompresses := (negotiateEncoding_iff.mp hnegotiated).compresses
    simp [(hinverts name hnegotiated).registered hcompresses]
  let call : GrpcUnaryCall α :=
    { client := c
      family := hp
      compression := s.compression
      policy := s.compressionPolicy
      encoding := s.compression.negotiateEncoding accept request
      response := resp
      headers := head
      envelope := e
      payload := resp.body.intoContiguous
      message := message
      framed := ⟨segmentsHead, segments, hframed, hwire⟩
      flagged := hkind
      accepted := Rendering.validateGrpc_contentType hp hhead.contentType
      supported := hsupported
      reads := ⟨hdecoded, hmessage, hdecompress, h.decodes⟩
      notIdentity := hidentity
      size := by
        rw [← Bool.not_eq_true, Option.any_eq_true]
        rintro ⟨limit, hmem, hlt⟩
        have hmax : c.messageLimit = limit := by
          rw [CallConfig.messageLimit, hmem]
          rfl
        exact absurd (of_decide_eq_true hlt) (Nat.not_lt.mpr (hmax ▸ hlimit)) }
  have hroom : 1 + resp.trailers.nameCount < cr.headerCap := by
    have hall := h.room
    omega
  have hslack : RESPONSE_BUFFER_TRAILER_SLACK ≤ MAX_GRPC_WEB_TRAILER_SIZE := by decide
  have hmax : MAX_GRPC_WEB_TRAILER_SIZE ≤ u32Max := by decide
  have htrailers := h.trailers
  have hblock : c.protocol = .grpcWeb → BlockFits cr resp.trailers := by
    intro hweb
    rw [hweb] at htrailers
    obtain ⟨-, hle⟩ := htrailers
    rw [BlockFits]
    omega
  refine (call.survives_iff cr hroom hblock).mpr fun hweb => ?_
  have hprotocol : c.protocol = .grpcWeb := hweb
  rw [hprotocol] at htrailers
  obtain ⟨htext, hle⟩ := htrailers
  refine ⟨by omega, htext, ?_⟩
  -- the envelope takes no more than the limit and its header
  change e.wire.length + _ + _ ≤ maxUnaryBuffer c
  rw [e.length_wire, maxUnaryBuffer]
  have hle' := (Nat.le_min.mp hdata).1
  omega

end Grpc

/-! ## Errors -/

/-- An error that a client can read as it is rendered. -/
structure ErrorAnswerReadable (c : CallConfig α) (r : Rendering) (err : ConnectError) : Prop where
  /-- nothing is attached to it -/
  bare : err.Bare
  /-- it has no HTTP status of a success -/
  fails : ∀ status, err.httpStatusOverride = some status → status.isSuccess = false
  /-- and its rendering can be read -/
  readable : r.Readable cr c err

/-- **An error is conveyed**, however it is rendered. -/
theorem Rendering.conveyed {c : CallConfig α} {r : Rendering} {err : ConnectError}
    (h : ErrorAnswerReadable cr c r err) (hsuits : r.Suits c) {body : List BodyEvent}
    (hbody : Recut (r.render cr err).body body) (late : Bool) :
    ∃ e, r.Reports cr c ⟨(r.render cr err).status, (r.render cr err).headers, body⟩ late e ∧
      ComesBack (r.protocol = .grpcWeb) r.drops err e := by
  rw [render_bare cr h.bare r] at hbody ⊢
  cases r with
  | connectUnary =>
    exact connectUnary_comesBack cr h.bare (httpStatus_not_success h.fails) h.readable hbody late
  | streaming protocol codec => exact streaming_comesBack cr h.bare hsuits h.readable hbody late
  | grpcUnary protocol hp codec => exact grpcUnary_comesBack cr h.bare hsuits h.readable hbody late

/-! ## Answers -/

/-- `call_unary`, once there is a response. -/
def parseUnaryResponse (c : CallConfig α) (response : Response (List BodyEvent)) (late : Bool) :
    Except ConnectError (UnaryResponse α) :=
  match c.protocol with
  | .connect => parseConnectUnaryResponse cr c response late
  | .grpc | .grpcWeb => parseGrpcUnaryResponse cr c response late

/-- How the error of a unary call is rendered. -/
def unaryErrorRendering (protocol : Protocol) (codec : CodecFormat) : Rendering :=
  if h : protocol = .connect then .connectUnary else .grpcUnary protocol h codec

/-- How the answer of a unary call is rendered. -/
def Service.unaryRendering (s : Service X) (protocol : Protocol) (metadata : RequestMetadata)
    (codec : CodecFormat) (answer : Except ConnectError EncodedResponse) :
    Option (Response ConnectRpcBody) :=
  if h : protocol = .connect then some ((s.unaryReply cr metadata codec answer).mapBody .full)
  else (s.grpcUnaryReply cr protocol h metadata codec answer).map (·.mapBody .grpcUnary)

/-- The encoding that is negotiated for a unary response. -/
def Service.unaryNegotiated (s : Service X) (protocol : Protocol) (metadata : RequestMetadata) :
    Option String :=
  if protocol = .connect then
    s.compression.negotiateEncoding metadata.unaryAcceptEncoding metadata.unaryEncoding
  else s.streamingEncoding metadata

/-- An answer of the chain that a client can read. -/
def UnaryAnswerReadable (s : Service X) (c : CallConfig α) :
    Except ConnectError EncodedResponse → Prop
  | .ok resp => ∃ message, UnaryReadable cr s c resp message
  | .error err => ErrorAnswerReadable cr c (unaryErrorRendering c.protocol c.codecFormat) err

/-- What a client answers is what the chain has answered: the message and the plain trailers, or
the error. -/
def UnaryConveyed (c : CallConfig α) :
    Except ConnectError EncodedResponse → Except ConnectError (UnaryResponse α) → Prop
  | .ok resp, .ok u => c.decode resp.body.intoContiguous = .ok u.body ∧
      Carried c.protocol resp.trailers u.trailers
  | .error err, .error e => ComesBack (c.protocol = .grpcWeb) false err e
  | _, _ => False

section Answers

variable {cr} {s : Service X} {c : CallConfig α} {metadata : RequestMetadata}
variable {answer : Except ConnectError EncodedResponse}

/-- **A unary answer of Connect is conveyed.** -/
theorem connectUnary_conveyed (hp : c.protocol = .connect)
    (h : UnaryAnswerReadable cr s c answer)
    (hinverts : ∀ name, s.compression.negotiateEncoding metadata.unaryAcceptEncoding
      metadata.unaryEncoding = some name → Inverts s.compression c.compression name) :
    (∃ got, ArrivesAs cr ((s.unaryReply cr metadata c.codecFormat answer).mapBody .full) got) ∧
      ∀ got, ArrivesAs cr ((s.unaryReply cr metadata c.codecFormat answer).mapBody .full) got →
        ∀ late, UnaryConveyed c answer (parseUnaryResponse cr c got late) := by
  refine ⟨exists_arrivesAs cr ⟨_, rfl⟩, ?_⟩
  rintro ⟨status, headers, body⟩ ⟨hstatus, hheaders, frames, hframes, hbody⟩ late
  obtain rfl : frames = fullFrames _ := hframes
  rw [parseUnaryResponse, hp]
  cases answer with
  | ok resp =>
    obtain ⟨message, hread⟩ := h
    obtain ⟨r, hr, hreads⟩ := hread.connect_conveyed hp hinverts
    have hsame : ({ resp with trailers := resp.trailers } : EncodedResponse) = resp := rfl
    have hreply : s.unaryReply cr metadata c.codecFormat (.ok resp) = r := by
      rw [Service.unaryReply]
      simp only [Except.bind]
      rw [← hsame, hr]
    rw [hreply] at hstatus hheaders hbody
    obtain ⟨datas, hdatas, rfl⟩ := hbody
    have hfull : sentBytes (fullFrames r.body) = r.body ∧ sentTrailers (fullFrames r.body) = [] := by
      rw [fullFrames]
      split
      · rename_i hnil
        rw [hnil]
        exact ⟨rfl, rfl⟩
      · exact ⟨List.append_nil _, rfl⟩
    obtain ⟨u, hu, hmessage, hcarried⟩ := hreads datas (hdatas.trans hfull.1) late
    obtain rfl : status = r.status := hstatus
    obtain rfl : headers = r.headers := hheaders
    have hnone : (sentTrailers (fullFrames r.body)).map BodyEvent.trailers = [] := by
      rw [hfull.2]
      rfl
    change UnaryConveyed c _ (parseConnectUnaryResponse cr c ⟨r.status, r.headers, datas.map .data ++
      (sentTrailers (fullFrames r.body)).map .trailers⟩ late)
    rw [hnone, List.append_nil, hu]
    refine ⟨?_, ?_⟩
    · rw [hmessage]
      exact hread.decodes
    · rw [hp]
      exact hcarried
  | error err =>
    have hread : ErrorAnswerReadable cr c (unaryErrorRendering c.protocol c.codecFormat) err := h
    rw [unaryErrorRendering, dif_pos hp] at hread
    obtain ⟨e, hreport, hback⟩ := Rendering.conveyed cr hread hp hbody late
    obtain rfl : status = _ := hstatus
    obtain rfl : headers = _ := hheaders
    have hparse : parseConnectUnaryResponse cr c
        ⟨(errorResponse cr err).status, (errorResponse cr err).headers, body⟩ late = .error e := hreport
    change UnaryConveyed c _ (parseConnectUnaryResponse cr c
      ⟨(errorResponse cr err).status, (errorResponse cr err).headers, body⟩ late)
    rw [hparse]
    change ComesBack _ false err e
    rw [hp]
    exact hback

/-- **So is one of gRPC.** -/
theorem grpcUnary_conveyed (hp : c.protocol ≠ .connect) (h : UnaryAnswerReadable cr s c answer)
    (hinverts : ∀ name ∈ s.streamingEncoding metadata, Inverts s.compression c.compression name) :
    ∃ r, s.grpcUnaryReply cr c.protocol hp metadata c.codecFormat answer = some r ∧
      (∃ got, ArrivesAs cr (r.mapBody .grpcUnary) got) ∧
        ∀ got, ArrivesAs cr (r.mapBody .grpcUnary) got → ∀ late,
          UnaryConveyed c answer (parseUnaryResponse cr c got late) := by
  have hparser (got : Response (List BodyEvent)) (late : Bool) :
      parseUnaryResponse cr c got late = parseGrpcUnaryResponse cr c got late := by
    rw [parseUnaryResponse]
    cases hprotocol : c.protocol with
    | connect => exact absurd hprotocol hp
    | grpc => rfl
    | grpcWeb => rfl
  cases answer with
  | ok resp =>
    obtain ⟨message, hread⟩ := h
    have hleaves := hread.head
    rw [unaryEncodingHeader, if_neg hp] at hleaves
    obtain ⟨head, hhead, hfor⟩ := @Service.envelopedHead_ok cr _ s _ metadata c.codecFormat _
      hleaves
    obtain ⟨body, hbody, ⟨n, hn⟩, hreads⟩ := hread.grpc_conveyed hp hfor hinverts
    have hreply : s.grpcUnaryReply cr c.protocol hp metadata c.codecFormat (.ok resp) =
        some ⟨.ok, head, body⟩ := by
      have hframed : grpcUnaryBody cr c.protocol hp s.compression s.compressionPolicy
          (s.streamingEncoding metadata) resp = some body := hbody
      rw [Service.grpcUnaryReply, Service.grpcUnaryResponse, hframed, hhead]
      rfl
    refine ⟨_, hreply, exists_arrivesAs cr ⟨_, n, hn, rfl⟩, ?_⟩
    rintro ⟨status, headers, events⟩ ⟨hstatus, hheaders, frames, ⟨k, hk, hframes⟩, hevents⟩ late
    obtain rfl : status = .ok := hstatus
    obtain rfl : headers = head := hheaders
    obtain rfl : frames = (body.sent k).reduceOption := hframes
    obtain ⟨u, hu, hmessage, hcarried⟩ := hreads k hk events hevents late
    rw [hparser, hu]
    refine ⟨?_, hcarried⟩
    rw [hmessage]
    exact hread.decodes
  | error err =>
    have hread : ErrorAnswerReadable cr c (unaryErrorRendering c.protocol c.codecFormat) err := h
    rw [unaryErrorRendering, dif_neg hp] at hread
    obtain ⟨n, hn⟩ :=
      GrpcUnaryBody.none_mem_sent (grpcUnaryError cr err c.protocol hp c.codecFormat).body
    refine ⟨_, rfl, exists_arrivesAs cr ⟨_, n, hn, rfl⟩, ?_⟩
    rintro ⟨status, headers, events⟩ ⟨hstatus, hheaders, frames, ⟨k, hk, hframes⟩, hevents⟩ late
    obtain rfl : status = _ := hstatus
    obtain rfl : headers = _ := hheaders
    obtain rfl : frames = _ := hframes
    have hall := GrpcUnaryBody.reduceOption_sent hk
    obtain ⟨e, hreport, hback⟩ := Rendering.conveyed cr hread ⟨rfl, rfl⟩ (hall ▸ hevents) late
    rw [hparser]
    have hparse : parseGrpcUnaryResponse cr c
        ⟨(grpcUnaryError cr err c.protocol hp c.codecFormat).status,
          (grpcUnaryError cr err c.protocol hp c.codecFormat).headers, events⟩ late =
            .error e := hreport
    change UnaryConveyed c _ (parseGrpcUnaryResponse cr c
      ⟨(grpcUnaryError cr err c.protocol hp c.codecFormat).status,
        (grpcUnaryError cr err c.protocol hp c.codecFormat).headers, events⟩ late)
    rw [hparse]
    exact hback

/-- **A unary answer is conveyed**, with every protocol. -/
theorem unary_conveyed (h : UnaryAnswerReadable cr s c answer)
    (hinverts : ∀ name ∈ s.unaryNegotiated c.protocol metadata,
      Inverts s.compression c.compression name) :
    ∃ r, s.unaryRendering cr c.protocol metadata c.codecFormat answer = some r ∧
      (∃ got, ArrivesAs cr r got) ∧
        ∀ got, ArrivesAs cr r got → ∀ late,
          UnaryConveyed c answer (parseUnaryResponse cr c got late) := by
  rw [Service.unaryNegotiated] at hinverts
  rw [Service.unaryRendering]
  by_cases hp : c.protocol = .connect
  · rw [if_pos hp] at hinverts
    rw [dif_pos hp]
    exact ⟨_, rfl, connectUnary_conveyed hp h hinverts⟩
  · rw [if_neg hp] at hinverts
    rw [dif_neg hp]
    obtain ⟨r, hr, hconveyed⟩ := grpcUnary_conveyed hp h hinverts
    exact ⟨_, by rw [hr]; rfl, hconveyed⟩

end Answers

/-- A stream, or its refusal, that a client can read, with the messages it yields. -/
def StreamAnswerReadable (s : Service X) (c : CallConfig α) (metadata : RequestMetadata)
    (msgs : List α) : Except ConnectError (HandlerResponse (List SourceEvent)) → Prop
  | .ok resp => StreamReadable cr s c metadata resp msgs
  | .error err => msgs = [] ∧
      ErrorAnswerReadable cr c (.streaming c.protocol c.codecFormat) err

/-- What a client answers of a streaming call is what the chain has answered. -/
def StreamAnswerConveyed (s : Service X) (c : CallConfig α) (metadata : RequestMetadata)
    (msgs : List α) (response : Response (List BodyEvent)) (late : Bool) :
    Except ConnectError (HandlerResponse (List SourceEvent)) → Prop
  | .ok resp => StreamConveyed cr c msgs resp.trailers response late
      (planned (s.encoderOf metadata resp.compress) resp.body).2
  | .error err => ∃ e, StreamFails cr c response late msgs e ∧
      ComesBack (c.protocol = .grpcWeb) (Rendering.streaming c.protocol c.codecFormat).drops err e

/-- **The answer of a streaming call is conveyed.** -/
theorem streamAnswer_conveyed {s : Service X} {c : CallConfig α} {metadata : RequestMetadata}
    {answer : Except ConnectError (HandlerResponse (List SourceEvent))} {msgs : List α}
    (h : StreamAnswerReadable cr s c metadata msgs answer)
    (hinverts : ∀ name ∈ s.streamingEncoding metadata,
      Inverts s.compression c.compression name) (failed : String) :
    (∃ got, ArrivesAs cr ((s.answerStreaming cr failed c.protocol metadata c.codecFormat
        answer).mapBody .streaming) got) ∧
      ∀ got, ArrivesAs cr ((s.answerStreaming cr failed c.protocol metadata c.codecFormat
          answer).mapBody .streaming) got → ∀ late,
        StreamAnswerConveyed cr s c metadata msgs got late answer := by
  cases answer with
  | ok resp => exact stream_conveyed cr h hinverts failed
  | error err =>
    obtain ⟨rfl, hread⟩ := h
    refine ⟨exists_arrivesAs cr ⟨_, rfl⟩, ?_⟩
    rintro ⟨status, headers, body⟩ ⟨hstatus, hheaders, frames, hframes, hbody⟩ late
    obtain rfl : status = _ := hstatus
    obtain rfl : headers = _ := hheaders
    obtain rfl : frames = _ := hframes
    obtain ⟨e, hreport, hback⟩ := Rendering.conveyed cr hread ⟨rfl, rfl⟩ hbody late
    exact ⟨e, hreport, hback⟩

end ConnectRpc
