import ConnectRpc.ClientStreamScan
import ConnectRpc.Exchange

/-!
# A client-streaming call, there and back

A call with many messages and one answer. The service sends the answer as a stream of one message.
The client reads this stream whole: with gRPC as the response of a unary call, with Connect in the
scan of `parse_connect_client_stream_envelopes`.

`clientStream_exchange` says that both read what the chain has answered, and that the handler's
stream yields the messages of the caller.
-/

namespace ConnectRpc

open Lib

variable (cr : Crates) {X α : Type}

/-- `call_client_stream`, once there is a response. -/
def parseClientStreamResponse (c : CallConfig α) (response : Response (List BodyEvent))
    (late : Bool) : Except ConnectError (UnaryResponse α) :=
  match c.protocol with
  | .connect => parseConnectClientStreamResponse cr c response late
  | .grpc | .grpcWeb => parseGrpcUnaryResponse cr c response late

/-! ## The scan of one message -/

section Scan

variable {cr} {compression : CompressionRegistry} {encoding : Option String} {limit : ℕ}
variable {e : Envelope}

/-- A round of the scan takes the message off the front. -/
theorem scanLoop_message {data : Bytes} (hmessage : e.isEndStream = false)
    (hsize : e.data.length ≤ u32Max) (hlimit : e.data.length ≤ limit)
    (hpayload : scanPayload compression encoding limit
      "received compressed message without encoding header" e = .ok data)
    (hdata : data.length ≤ limit) (fuel : ℕ) (rest : Bytes) :
    scanLoop cr compression encoding limit (fuel + 1) none (e.wire ++ rest) =
      scanLoop cr compression encoding limit fuel (some data) rest := by
  have hne : e.wire ++ rest ≠ [] := by
    rw [Envelope.wire]
    exact List.cons_ne_nil _ _
  have hdecoded : decodeWithLimit limit (e.wire ++ rest) = .ok (some (e, rest)) :=
    @decodeWith_wire (messageLimit limit) e rest hsize hlimit
  rw [scanLoop, if_neg hne, hdecoded]
  simp only [hmessage, Bool.false_eq_true, if_false, Option.isSome_none, hpayload,
    if_neg (Nat.not_lt.mpr hdata)]

/-- The END_STREAM envelope ends it, with or without a message. -/
theorem scanLoop_endStream (hend : e.isEndStream = true) (hsize : e.data.length ≤ u32Max)
    (hlimit : e.data.length ≤ limit) (fuel : ℕ) (message : Option Bytes) :
    scanLoop cr compression encoding limit (fuel + 1) message e.wire =
      (scanEndStream cr compression encoding limit e).map fun trailers =>
        (message, some trailers) := by
  have hne : e.wire ≠ [] := by
    rw [Envelope.wire]
    exact List.cons_ne_nil _ _
  have hdecoded : decodeWithLimit limit e.wire = .ok (some (e, [])) := by
    have hwire : decodeWith (messageLimit limit) (e.wire ++ []) = .ok (some (e, [])) :=
      decodeWith_wire [] hsize hlimit
    rw [List.append_nil] at hwire
    exact hwire
  rw [scanLoop, if_neg hne, hdecoded]
  simp only [hend, if_true]

/-- An END_STREAM record without compression, in the scan. -/
theorem scanPayload_record (missing : String) (json : Bytes) :
    scanPayload compression encoding limit missing ⟨flags.END_STREAM, json⟩ = .ok json := by
  obtain ⟨hplain, -, -⟩ := Envelope.kind_eq (Envelope.kind_endStream json)
  unfold scanPayload
  rw [hplain, if_neg Bool.false_ne_true]

/-- The record of a success gives its trailers. -/
theorem scanEndStream_success (trailers : HeaderMap) :
    scanEndStream cr compression encoding limit
        ⟨flags.END_STREAM, (EndStreamResponse.success trailers).toJson cr⟩ =
      .ok ((receivedTrailers cr .connect trailers).getD .empty) := by
  rw [scanEndStream, scanPayload_record]
  simp only [parseConnectEndStream_success, receivedTrailers]
  cases EndStreamResponse.walkedMetadata cr trailers with
  | none => rfl
  | some metadata => rfl

/-- The record of an error gives it back. -/
theorem scanEndStream_forError {err : ConnectError} {trailers : HeaderMap}
    (hdepth : ((EndStreamResponse.forError err trailers).toJsonValue cr).depth ≤ cr.jsonDepth) :
    ∃ e, scanEndStream cr compression encoding limit
        ⟨flags.END_STREAM, (EndStreamResponse.forError err trailers).toJson cr⟩ = .error e ∧
      ComesBack false false err e := by
  have hback := comesBack_endStream cr err
  rw [scanEndStream, scanPayload_record]
  simp only [parseConnectEndStream_forError cr err trailers hdepth]
  exact ⟨_, rfl, hback.code, hback.message, hback.details⟩

end Scan

/-! ## Answers that can be read -/

/-- Trailers of an answer that a client can read: with Connect, their record is within the limit on
messages and the slack of the body. -/
def LastTrailersReadable (c : CallConfig α) (trailers : HeaderMap) : Prop :=
  match c.protocol with
  | .connect => ((EndStreamResponse.success trailers).toJson cr).length ≤
      min c.messageLimit RESPONSE_BUFFER_TRAILER_SLACK
  | .grpc | .grpcWeb => UnaryTrailersReadable cr c.protocol trailers

/-- An answer of a handler that a client can read from a stream. -/
structure ClientStreamReadable (s : Service X) (c : CallConfig α) (metadata : RequestMetadata)
    (resp : EncodedResponse) (message : α) : Prop where
  /-- its headers leave those of the protocol alone -/
  head : LeavesHead cr c.protocol.contentEncodingHeader resp.headers
  /-- its message is within the limits -/
  size : resp.body.len ≤ min c.messageLimit u32Max
  /-- also when it is compressed -/
  compressed : ∀ name z, s.compression.compress name resp.body.intoContiguous = .ok z →
    z.length ≤ min c.messageLimit u32Max
  /-- and no compressor fails on it -/
  encodes : ∃ e, (s.encoderOf metadata resp.compress).envelope resp.body = .ok e
  /-- it decodes to this -/
  decodes : c.decode resp.body.intoContiguous = .ok message
  /-- its trailers can be read -/
  trailers : LastTrailersReadable cr c resp.trailers
  /-- and there are not too many -/
  room : 3 + resp.headers.nameCount + resp.trailers.nameCount < cr.headerCap

/-- How the error of a client-streaming call is rendered, as far as its client can tell. -/
def lastErrorRendering (protocol : Protocol) (codec : CodecFormat) : Rendering :=
  if h : protocol = .connect then .streaming .connect codec else .grpcUnary protocol h codec

/-- An answer of the chain that a client can read from a stream. -/
def LastAnswerReadable (s : Service X) (c : CallConfig α) (metadata : RequestMetadata) :
    Except ConnectError EncodedResponse → Prop
  | .ok resp => ∃ message, ClientStreamReadable cr s c metadata resp message
  | .error err => ErrorAnswerReadable cr c (lastErrorRendering c.protocol c.codecFormat) err

/-- Only the bytes and the trailers of frames arrive. -/
theorem Recut.congr {l r : List Frame} {body : List BodyEvent} (h : Recut l body)
    (hbytes : sentBytes l = sentBytes r) (htrailers : sentTrailers l = sentTrailers r) :
    Recut r body := by
  obtain ⟨datas, hdatas, hbody⟩ := h
  exact ⟨datas, hdatas.trans hbytes, htrailers ▸ hbody⟩

section Answers

variable {cr} {s : Service X} {c : CallConfig α} {metadata : RequestMetadata}
variable {resp : EncodedResponse} {message : α}

/-- What the stream of an answer sends: its message and the terminal frame. -/
theorem served_oneMessage {e : Envelope} {n : ℕ}
    (he : (s.encoderOf metadata resp.compress).envelope resp.body = .ok e)
    (hn : none ∈ served cr [.item resp.body] resp.trailers
      ((s.streamingEncoding metadata).map (s.compression, ·))
      (s.compressionPolicy.withOverride resp.compress) c.protocol.finalizer n) :
    sentBytes (served cr [.item resp.body] resp.trailers
        ((s.streamingEncoding metadata).map (s.compression, ·))
        (s.compressionPolicy.withOverride resp.compress) c.protocol.finalizer n).reduceOption =
        e.wire ++ sentBytes [c.protocol.finalizer.terminal cr none resp.trailers] ∧
      sentTrailers (served cr [.item resp.body] resp.trailers
        ((s.streamingEncoding metadata).map (s.compression, ·))
        (s.compressionPolicy.withOverride resp.compress) c.protocol.finalizer n).reduceOption =
        sentTrailers [c.protocol.finalizer.terminal cr none resp.trailers] := by
  obtain ⟨-, hcomplete⟩ := served_complete cr [.item resp.body] resp.trailers
    ((s.streamingEncoding metadata).map (s.compression, ·))
    (s.compressionPolicy.withOverride resp.compress) c.protocol.finalizer
  have hplanned : planned ⟨(s.streamingEncoding metadata).map (s.compression, ·),
      s.compressionPolicy.withOverride resp.compress⟩ [.item resp.body] = ([e], none) :=
    planned_oneItem he 0 0
  have hsent := (hcomplete n hn).sent
  rw [hplanned] at hsent
  obtain ⟨hbytes, htrailers⟩ := hsent
  rw [List.flatMap_singleton] at hbytes
  exact ⟨hbytes, htrailers⟩

/-! ### gRPC -/

/-- The fast path of gRPC sends the same. -/
theorem frames_oneMessage (hp : c.protocol ≠ .connect) {e : Envelope} {body : GrpcUnaryBody}
    (he : (s.encoderOf metadata resp.compress).envelope resp.body = .ok e)
    (hbody : grpcUnaryBody cr c.protocol hp s.compression s.compressionPolicy
      (s.streamingEncoding metadata) resp = some body) :
    sentBytes body.frames =
        e.wire ++ sentBytes [c.protocol.finalizer.terminal cr none resp.trailers] ∧
      sentTrailers body.frames =
        sentTrailers [c.protocol.finalizer.terminal cr none resp.trailers] := by
  rw [Service.encoderOf, EnvelopeEncoder.envelope] at he
  rcases hprepare : EnvelopeEncoder.prepare ⟨(s.streamingEncoding metadata).map (s.compression, ·),
    s.compressionPolicy.withOverride resp.compress⟩ resp.body with err | ⟨flag, b⟩
  · rw [hprepare] at he
    cases he
  · rw [hprepare] at he
    rcases hlength : envelopeLength b.len with err | len
    · simp only [hlength] at he
      cases he
    · simp only [hlength] at he
      obtain rfl := Except.ok.inj he
      obtain ⟨-, hfits⟩ := envelopeLength_eq_ok hlength
      -- what is prepared is framed in one piece or in several
      obtain ⟨head, segments, hparts, hwire⟩ :=
        Envelope.encodeBodyParts_eq flag MIN_CHAIN_SIZE hfits
      obtain ⟨-, head', segments', hframed, rfl⟩ := grpcUnaryBody_eq_some hbody
      rw [grpcUnaryEnvelope_eq hprepare, hparts] at hframed
      cases hframed
      apply GrpcUnaryBody.sent_wire _ hwire
      rw [← frame_grpcTrailersOf_success cr _ hp]
      rfl

/-- An answer in a stream of gRPC could be one of a unary call. -/
theorem ClientStreamReadable.unary (h : ClientStreamReadable cr s c metadata resp message)
    (hp : c.protocol ≠ .connect) : UnaryReadable cr s c resp message where
  head := by
    rw [unaryEncodingHeader, if_neg hp]
    exact h.head
  unprefixed hconnect := absurd hconnect hp
  size := h.size
  compressed := h.compressed
  decodes := h.decodes
  trailers := by
    have htrailers := h.trailers
    rw [LastTrailersReadable] at htrailers
    cases hprotocol : c.protocol with
    | connect => exact absurd hprotocol hp
    | grpc => trivial
    | grpcWeb =>
      simp only [hprotocol] at htrailers
      exact htrailers
  room := h.room

/-- **With gRPC** the client reads it as one. -/
theorem ClientStreamReadable.grpc_parses (h : ClientStreamReadable cr s c metadata resp message)
    (hp : c.protocol ≠ .connect) {head : HeaderMap}
    (hfor : HeadFor c.protocol c.codecFormat (s.streamingEncoding metadata) head)
    (hinverts : ∀ name ∈ s.streamingEncoding metadata, Inverts s.compression c.compression name)
    {e : Envelope} (he : (s.encoderOf metadata resp.compress).envelope resp.body = .ok e)
    {frames : List Frame} {events : List BodyEvent}
    (hbytes : sentBytes frames =
      e.wire ++ sentBytes [c.protocol.finalizer.terminal cr none resp.trailers])
    (htrailers : sentTrailers frames =
      sentTrailers [c.protocol.finalizer.terminal cr none resp.trailers])
    (hevents : Recut frames events) (late : Bool) :
    ∃ u, parseGrpcUnaryResponse cr c ⟨.ok, head, events⟩ late = .ok u ∧ u.body = message ∧
      Carried c.protocol resp.trailers u.trailers := by
  obtain ⟨body, hbody, ⟨n, hn⟩, hreads⟩ := (h.unary hp).grpc_conveyed hp hfor hinverts
  -- the unary body would have sent the same bytes and trailers
  obtain ⟨hbytes', htrailers'⟩ := frames_oneMessage hp he hbody
  have hall := GrpcUnaryBody.reduceOption_sent hn
  apply hreads n hn events _ late
  rw [hall]
  exact hevents.congr (hbytes.trans hbytes'.symm) (htrailers.trans htrailers'.symm)

/-! ### Connect -/

/-- The message is within the limit as it is sent. -/
theorem ClientStreamReadable.length_le (h : ClientStreamReadable cr s c metadata resp message)
    {e : Envelope} (he : (s.encoderOf metadata resp.compress).envelope resp.body = .ok e) :
    e.data.length ≤ min c.messageLimit u32Max := by
  rcases EnvelopeEncoder.envelope_cases he with ⟨rfl, -⟩ | ⟨reg, name, z, hc, -, hz, rfl⟩
  · have hsize := h.size
    rw [EncodedBody.len_eq] at hsize
    exact hsize
  · obtain ⟨_, -, heq⟩ := Option.map_eq_some_iff.mp hc
    obtain ⟨rfl, rfl⟩ := Prod.mk.inj heq
    exact h.compressed _ z hz

/-- The slack for trailers fits the length field. -/
theorem slack_le : RESPONSE_BUFFER_TRAILER_SLACK ≤ u32Max := by
  decide

/-- The record with the trailers of an answer. -/
def lastRecord (cr : Crates) (resp : EncodedResponse) : Envelope :=
  ⟨flags.END_STREAM, (EndStreamResponse.success resp.trailers).toJson cr⟩

/-- It can be read. -/
theorem ClientStreamReadable.lastRecord_le (h : ClientStreamReadable cr s c metadata resp message)
    (hp : c.protocol = .connect) :
    (lastRecord cr resp).data.length ≤ min c.messageLimit RESPONSE_BUFFER_TRAILER_SLACK := by
  have hreadable := h.trailers
  rw [LastTrailersReadable] at hreadable
  simp only [hp] at hreadable
  exact hreadable

/-- The scan finds the message and the trailers in two rounds. -/
theorem ClientStreamReadable.scan (h : ClientStreamReadable cr s c metadata resp message)
    (hp : c.protocol = .connect) {encoding : Option String}
    (hencoding : encoding = s.streamingEncoding metadata)
    (hinverts : ∀ name ∈ s.streamingEncoding metadata, Inverts s.compression c.compression name)
    {e : Envelope} (he : (s.encoderOf metadata resp.compress).envelope resp.body = .ok e) :
    scanConnectClientStreamEnvelopes cr (e.wire ++ (lastRecord cr resp).wire) c.compression encoding
        c.messageLimit =
      .ok (resp.body.intoContiguous, (receivedTrailers cr .connect resp.trailers).getD .empty) := by
  obtain ⟨hlimit, hslack⟩ := Nat.le_min.mp (h.lastRecord_le hp)
  obtain ⟨hdata, hdata'⟩ := Nat.le_min.mp (h.length_le he)
  obtain ⟨hsize, -⟩ := Nat.le_min.mp h.size
  let t : StreamSetup α := { c.setup .empty false with encoding := encoding }
  have hunderstands : Understands t ((s.streamingEncoding metadata).map (s.compression, ·)) := by
    intro reg name hname
    obtain ⟨name', hname', heq⟩ := Option.map_eq_some_iff.mp hname
    obtain ⟨rfl, rfl⟩ := Prod.mk.inj heq
    exact ⟨hencoding.trans hname', hinverts name' hname'⟩
  have hpayload : scanPayload c.compression encoding c.messageLimit
      "received compressed message without encoding header" e = .ok resp.body.intoContiguous :=
    (StreamSetup.scanPayload_ok_iff (t := t) _ e _).mpr
      (StreamSetup.decompressEnvelope_message hunderstands he hsize)
  have hmessage : e.isEndStream = false := by
    rw [Envelope.isEndStream]
    rcases StreamSetup.message_flags he with hflags | hflags
    · rw [hflags]
      rfl
    · rw [hflags]
      rfl
  have hend : (lastRecord cr resp).isEndStream = true :=
    (Envelope.kind_eq (Envelope.kind_endStream _)).2.1
  have hfits : (lastRecord cr resp).data.length ≤ u32Max := Nat.le_trans hslack slack_le
  rw [EncodedBody.len_eq] at hsize
  have hheader : HEADER_SIZE = 5 := rfl
  -- the fuel is enough for a round for the message and one for the record
  have hrounds : (e.wire ++ (lastRecord cr resp).wire).length + 1 =
      (e.data.length + (lastRecord cr resp).wire.length + 4) + 2 := by
    rw [List.length_append, e.length_wire]
    omega
  apply (scan_ok_iff cr).mpr
  rw [hrounds, scanLoop_message hmessage hdata' hdata hpayload hsize,
    scanLoop_endStream hend hfits hlimit, lastRecord, scanEndStream_success]
  rfl

/-- What the scan finds in the body of a response that is accepted is answered. -/
theorem parseConnectClientStreamResponse_ok {head trailers : HeaderMap} {body : List BodyEvent}
    {flat data : Bytes} {late : Bool}
    (hvalid : validateConnectResponseContentType head c.codecFormat true = .ok ())
    (hcollected : collectBodyBounded (clientStreamBodyLimit c) late [] body = .ok flat)
    (hscan : scanConnectClientStreamEnvelopes cr flat c.compression
      ((head.get c.protocol.contentEncodingHeader).bind HeaderValue.toStr) c.messageLimit =
        .ok (data, trailers))
    (hdecode : c.decode data = .ok message) :
    parseConnectClientStreamResponse cr c ⟨.ok, head, body⟩ late =
      .ok ⟨head, message, trailers⟩ := by
  have hsuccess : (!StatusCode.ok.isSuccess) = false := rfl
  rw [parseConnectClientStreamResponse]
  simp only [hsuccess, Bool.false_eq_true, if_false, hvalid, hcollected,
    parseConnectClientStreamEnvelopes, hscan, Except.mapError, hdecode]

/-- The error that the scan finds there is, too. -/
theorem parseConnectClientStreamResponse_error {head : HeaderMap} {body : List BodyEvent}
    {flat : Bytes} {e : ConnectError} {late : Bool}
    (hvalid : validateConnectResponseContentType head c.codecFormat true = .ok ())
    (hcollected : collectBodyBounded (clientStreamBodyLimit c) late [] body = .ok flat)
    (hscan : scanConnectClientStreamEnvelopes cr flat c.compression
      ((head.get c.protocol.contentEncodingHeader).bind HeaderValue.toStr) c.messageLimit =
        .error e) :
    parseConnectClientStreamResponse cr c ⟨.ok, head, body⟩ late =
      .error (e.setResponseHeaders head) := by
  have hsuccess : (!StatusCode.ok.isSuccess) = false := rfl
  rw [parseConnectClientStreamResponse]
  simp only [hsuccess, Bool.false_eq_true, if_false, hvalid, hcollected,
    parseConnectClientStreamEnvelopes, hscan, Except.mapError]

/-- A body of data that is within the bound of a client stream is collected, however it is cut. -/
theorem collectBodyBounded_recut {frames : List Frame} {events : List BodyEvent}
    (hevents : Recut frames events) (htrailers : sentTrailers frames = []) {limit : ℕ}
    (hlimit : (sentBytes frames).length ≤ limit) (late : Bool) :
    collectBodyBounded limit late [] events = .ok (sentBytes frames) := by
  obtain ⟨datas, hdatas, rfl⟩ := hevents
  rw [htrailers, List.map_nil, List.append_nil, ← hdatas]
  exact Rendering.collectBodyBounded_datas late (hdatas ▸ hlimit)

/-- **With Connect** the answer comes out of the scan. -/
theorem ClientStreamReadable.connect_parses (h : ClientStreamReadable cr s c metadata resp message)
    (hp : c.protocol = .connect) {head : HeaderMap}
    (hfor : HeadFor c.protocol c.codecFormat (s.streamingEncoding metadata) head)
    (hinverts : ∀ name ∈ s.streamingEncoding metadata, Inverts s.compression c.compression name)
    {e : Envelope} (he : (s.encoderOf metadata resp.compress).envelope resp.body = .ok e)
    {frames : List Frame} {events : List BodyEvent}
    (hbytes : sentBytes frames =
      e.wire ++ sentBytes [c.protocol.finalizer.terminal cr none resp.trailers])
    (htrailers : sentTrailers frames =
      sentTrailers [c.protocol.finalizer.terminal cr none resp.trailers])
    (hevents : Recut frames events) (late : Bool) :
    parseConnectClientStreamResponse cr c ⟨.ok, head, events⟩ late =
      .ok ⟨head, message, (receivedTrailers cr .connect resp.trailers).getD .empty⟩ := by
  obtain ⟨hlimit, hslack⟩ := Nat.le_min.mp (h.lastRecord_le hp)
  have hfits : ((EndStreamResponse.success resp.trailers).toJson cr).length ≤ u32Max :=
    Nat.le_trans hslack slack_le
  have hterminal : c.protocol.finalizer.terminal cr none resp.trailers =
      .data (lastRecord cr resp).wire := by
    rw [hp, Protocol.finalizer, StreamFinalizer.terminal, StreamFinalizer.success,
      endStreamFrame_eq, if_pos hfits]
    rfl
  rw [hterminal] at hbytes htrailers
  have hsent : sentBytes frames = e.wire ++ (lastRecord cr resp).wire := by
    rw [hbytes, sentBytes, sentBytes, List.append_nil]
  -- two headers and the slack leave room for the record
  have hbound : (sentBytes frames).length ≤ clientStreamBodyLimit c := by
    have hmessage := (Nat.le_min.mp (h.length_le he)).1
    rw [hsent, List.length_append, Envelope.length_wire, Envelope.length_wire,
      clientStreamBodyLimit]
    omega
  apply parseConnectClientStreamResponse_ok
    (Rendering.validateConnect_contentType (hp ▸ hfor.contentType))
    (collectBodyBounded_recut hevents htrailers hbound late) _ h.decodes
  rw [hsent]
  exact h.scan hp hfor.encoding hinverts he

/-- What a client-streaming call makes of a response of gRPC. -/
theorem parseClientStreamResponse_grpc (hp : c.protocol ≠ .connect)
    (response : Response (List BodyEvent)) (late : Bool) :
    parseClientStreamResponse cr c response late = parseGrpcUnaryResponse cr c response late := by
  rw [parseClientStreamResponse]
  cases hprotocol : c.protocol with
  | connect => exact absurd hprotocol hp
  | grpc => rfl
  | grpcWeb => rfl

/-- **A message and its trailers are conveyed.** -/
theorem ClientStreamReadable.conveyed (h : ClientStreamReadable cr s c metadata resp message)
    (hinverts : ∀ name ∈ s.streamingEncoding metadata, Inverts s.compression c.compression name)
    (failed : String) :
    (∃ got, ArrivesAs cr ((s.streamingResponse cr failed c.protocol metadata c.codecFormat
        (Service.oneItem resp)).mapBody .streaming) got) ∧
      ∀ got, ArrivesAs cr ((s.streamingResponse cr failed c.protocol metadata c.codecFormat
          (Service.oneItem resp)).mapBody .streaming) got → ∀ late,
        UnaryConveyed c (.ok resp) (parseClientStreamResponse cr c got late) := by
  obtain ⟨e, he⟩ := h.encodes
  obtain ⟨head, hhead, hfor⟩ := @Service.envelopedHead_ok cr _ s _ metadata c.codecFormat _ h.head
  let stream := BatchingEnvelopeStream.new [.item resp.body] resp.trailers
    ((s.streamingEncoding metadata).map (s.compression, ·))
    (s.compressionPolicy.withOverride resp.compress) c.protocol.finalizer
  have hresponse : s.streamingResponse cr failed c.protocol metadata c.codecFormat
      (Service.oneItem resp) = ⟨.ok, head, .stream stream⟩ := by
    have hheaders : (Service.oneItem resp).headers = resp.headers := rfl
    rw [Service.streamingResponse, hheaders, hhead]
    rfl
  obtain ⟨⟨n, hn⟩, -⟩ := served_complete cr [.item resp.body] resp.trailers
    ((s.streamingEncoding metadata).map (s.compression, ·))
    (s.compressionPolicy.withOverride resp.compress) c.protocol.finalizer
  have hroom : 1 + resp.trailers.nameCount < cr.headerCap := by
    have hall := h.room
    omega
  rw [hresponse]
  refine ⟨exists_arrivesAs cr ⟨_, n, hn, rfl⟩, ?_⟩
  rintro ⟨status, headers, events⟩ ⟨hstatus, hheaders, frames, ⟨k, hk, hframes⟩, hevents⟩ late
  obtain rfl : status = .ok := hstatus
  obtain rfl : headers = head := hheaders
  -- however the batches fell, the message and the terminal frame have been sent
  obtain ⟨hbytes, htrailers⟩ := served_oneMessage he hk
  rw [hframes] at hevents
  by_cases hp : c.protocol = .connect
  · have hparse := h.connect_parses hp hfor hinverts he hbytes htrailers hevents late
    rw [parseClientStreamResponse, hp]
    simp only [hparse]
    refine ⟨h.decodes, ?_⟩
    rw [hp]
    exact carried_receivedTrailers cr .connect hroom
  · obtain ⟨u, hparse, hmessage, hcarried⟩ :=
      h.grpc_parses hp hfor hinverts he hbytes htrailers hevents late
    rw [parseClientStreamResponse_grpc hp, hparse]
    exact ⟨hmessage ▸ h.decodes, hcarried⟩

/-! ### Errors -/

/-- An error is rendered on the streaming path of gRPC as it is on the unary one. -/
theorem render_streaming_grpc {err : ConnectError} (hbare : err.Bare) {protocol : Protocol}
    (hp : protocol ≠ .connect) (codec : CodecFormat) :
    (Rendering.streaming protocol codec).render cr err =
      (Rendering.grpcUnary protocol hp codec).render cr err := by
  rw [Rendering.render_bare cr hbare, Rendering.render_bare cr hbare]
  rfl

/-- **An error of Connect** comes out of the scan. -/
theorem connectError_conveyed {err : ConnectError}
    (h : ErrorAnswerReadable cr c (.streaming .connect c.codecFormat) err)
    {events : List BodyEvent}
    (hevents : Recut ((Rendering.streaming .connect c.codecFormat).bodyFrames cr err) events)
    (late : Bool) :
    ∃ e, parseConnectClientStreamResponse cr c
        ⟨.ok, (Rendering.streaming .connect c.codecFormat).headers cr err, events⟩ late =
          .error e ∧ ComesBack false false err e := by
  obtain ⟨hfits, hlimit, hdepth⟩ := h.readable
  -- the record of the error is all of the body
  have hframes : (Rendering.streaming .connect c.codecFormat).bodyFrames cr err =
      [.data (Envelope.mk flags.END_STREAM
        ((EndStreamResponse.forError err .empty).toJson cr)).wire] := by
    rw [Rendering.bodyFrames, h.bare.2, Protocol.finalizer, StreamFinalizer.error,
      endStreamFrame_eq, if_pos hfits]
  rw [hframes] at hevents
  have hsafe := Rendering.safeHead_bare cr h.bare (.streaming .connect c.codecFormat)
  generalize (Rendering.streaming .connect c.codecFormat).headers cr err = head at hsafe ⊢
  generalize hrecord : Envelope.mk flags.END_STREAM
    ((EndStreamResponse.forError err .empty).toJson cr) = record at hevents
  have hsent : sentBytes [.data record.wire] = record.wire := List.append_nil _
  have hend : record.isEndStream = true := by
    rw [← hrecord]
    exact (Envelope.kind_eq (Envelope.kind_endStream _)).2.1
  have hsize : record.data.length ≤ c.messageLimit := by
    rw [← hrecord]
    exact hlimit
  have hbound : (sentBytes [.data record.wire]).length ≤ clientStreamBodyLimit c := by
    rw [hsent, Envelope.length_wire, clientStreamBodyLimit]
    omega
  obtain ⟨e, hscanned, hback⟩ := @scanEndStream_forError cr c.compression
    ((head.get c.protocol.contentEncodingHeader).bind HeaderValue.toStr) c.messageLimit err .empty
    hdepth
  rw [hrecord] at hscanned
  have hscan : scanConnectClientStreamEnvelopes cr record.wire c.compression
      ((head.get c.protocol.contentEncodingHeader).bind HeaderValue.toStr) c.messageLimit =
        .error e := by
    rw [scanConnectClientStreamEnvelopes,
      scanLoop_endStream hend (hrecord ▸ hfits) hsize, hscanned]
    rfl
  refine ⟨e.setResponseHeaders head, ?_, hback.withHeaders head⟩
  apply parseConnectClientStreamResponse_error
    (Rendering.validateConnect_contentType hsafe.contentType)
    (collectBodyBounded_recut hevents rfl hbound late)
  rw [hsent]
  exact hscan

/-- **The answer of a client-streaming call is conveyed**, with every protocol. -/
theorem lastAnswer_conveyed {answer : Except ConnectError EncodedResponse}
    (h : LastAnswerReadable cr s c metadata answer)
    (hinverts : ∀ name ∈ s.streamingEncoding metadata, Inverts s.compression c.compression name)
    (failed : String) :
    (∃ got, ArrivesAs cr ((s.answerStreaming cr failed c.protocol metadata c.codecFormat
        (answer.map Service.oneItem)).mapBody .streaming) got) ∧
      ∀ got, ArrivesAs cr ((s.answerStreaming cr failed c.protocol metadata c.codecFormat
          (answer.map Service.oneItem)).mapBody .streaming) got → ∀ late,
        UnaryConveyed c answer (parseClientStreamResponse cr c got late) := by
  cases answer with
  | ok resp =>
    obtain ⟨message, hread⟩ := h
    exact hread.conveyed hinverts failed
  | error err =>
    have hread : ErrorAnswerReadable cr c (lastErrorRendering c.protocol c.codecFormat) err := h
    rw [lastErrorRendering] at hread
    refine ⟨exists_arrivesAs cr ⟨_, rfl⟩, ?_⟩
    rintro ⟨status, headers, events⟩ ⟨hstatus, hheaders, frames, hframes, hevents⟩ late
    obtain rfl : status = _ := hstatus
    obtain rfl : headers = _ := hheaders
    obtain rfl : frames = _ := hframes
    have hrecut : Recut ((Rendering.streaming c.protocol c.codecFormat).render cr err).body events :=
      hevents
    change UnaryConveyed c _ (parseClientStreamResponse cr c
      ⟨((Rendering.streaming c.protocol c.codecFormat).render cr err).status,
        ((Rendering.streaming c.protocol c.codecFormat).render cr err).headers, events⟩ late)
    by_cases hp : c.protocol = .connect
    · rw [dif_pos hp] at hread
      rw [hp, Rendering.render_bare cr hread.bare] at hrecut
      obtain ⟨e, hparse, hback⟩ := connectError_conveyed hread hrecut late
      rw [parseClientStreamResponse, hp, Rendering.render_bare cr hread.bare]
      simp only [Rendering.status, hparse]
      change ComesBack _ false err e
      rw [hp]
      exact hback
    · -- the parser is the one of unary calls, and so is what it reads
      rw [dif_neg hp] at hread
      rw [render_streaming_grpc hread.bare hp] at hrecut ⊢
      obtain ⟨e, hparse, hback⟩ := Rendering.conveyed cr hread ⟨rfl, rfl⟩ hrecut late
      have hparse' : parseGrpcUnaryResponse cr c _ late = .error e := hparse
      rw [parseClientStreamResponse_grpc hp, hparse']
      exact hback

end Answers

/-! ## There and back -/

section Exchange

variable {cr} {ur : UriCrates} {s : Service X} {c : CallConfig α} {config : ClientConfig}
variable {spec : CallSpec} {message : ClientMessage} {options : CallOptions} {messages : List Bytes}
variable {creq : ClientRequest} {sent : Bytes} {course : Course} {req : HttpRequest X}

/-- **A client-streaming call, there and back.** The handler's stream yields the messages of the
caller, and the client answers what the chain has answered. -/
theorem clientStream_exchange
    (h : Posted cr ur s config spec message options .clientStream messages creq sent course req)
    (hclient : Awaits s c config options .clientStream)
    (hreadable : LastAnswerReadable cr s c (s.metadataOf req config.protocol)
      (s.clientStreamAnswer (s.checked req) course config.protocol config.codecFormat)) :
    Yields (s.requestSetup (s.metadataOf req config.protocol) (s.limitsOf req)) req.body messages ∧
      ∃ r, (s.call cr req course).2 = some r ∧ (∃ got, ArrivesAs cr r got) ∧
        ∀ got, ArrivesAs cr r got → ∀ late,
          UnaryConveyed c
            (s.clientStreamAnswer (s.checked req) course config.protocol config.codecFormat)
            (parseClientStreamResponse cr c got late) := by
  obtain ⟨hyields, hcall⟩ := h.call_clientStream
  have hconveyed := lastAnswer_conveyed hreadable
    (hclient.streaming_inverts h.built rfl h.headers) "failed to build client streaming response"
  rw [hclient.protocol, hclient.codec] at hconveyed
  exact ⟨hyields, _, hcall, hconveyed⟩

end Exchange

/-! ## A call -/

/-- A client-streaming call is answered with a message of one byte. -/
theorem clientStream_exchange_echo :
    ∃ creq r, ((echoService .clientStreaming).call .std (echoRequest creq [0, 0, 0, 0, 1, 7])
        patiently).2 = some r ∧ ∀ got, ArrivesAs .std r got → ∀ late,
      UnaryConveyed (bytesClient .grpc none) (.ok ⟨.contiguous [7], .empty, .empty, none⟩)
        (parseClientStreamResponse .std (bytesClient .grpc none) got late) := by
  obtain ⟨creq, hposted⟩ : ∃ creq, Posted .std laxUris (echoService .clientStreaming) echoConfig
      (echoSpec .clientStream) (fun _ => .ok [7]) bareCall .clientStream [[7]] creq
        [0, 0, 0, 0, 1, 7] patiently (echoRequest creq [0, 0, 0, 0, 1, 7]) :=
    exists_posted .clientStream
  have hanswer : (echoService .clientStreaming).clientStreamAnswer
      ((echoService .clientStreaming).checked (echoRequest creq [0, 0, 0, 0, 1, 7])) patiently
        echoConfig.protocol echoConfig.codecFormat =
          .ok ⟨.contiguous [7], .empty, .empty, none⟩ := by
    rw [Service.clientStreamAnswer]
    generalize (Service.metadataOf _ _ _).timeout.isSome = limited
    cases limited with
    | false => rfl
    | true => rfl
  have hreadable (metadata : RequestMetadata) : ClientStreamReadable .std
      (echoService .clientStreaming) (bytesClient .grpc none) metadata
      ⟨.contiguous [7], .empty, .empty, none⟩ [7] := by
    refine ⟨⟨rfl, rfl, rfl, by decide⟩, by decide, fun name z hz => ?_, ?_, rfl, trivial,
      by decide⟩
    · rw [CompressionRegistry.compress] at hz
      split at hz
      · obtain rfl := Except.ok.inj hz
        decide
      · cases hz
    · rw [encoderOf_echo]
      exact ⟨_, rfl⟩
  obtain ⟨-, r, hcall, -, hconveyed⟩ :=
    clientStream_exchange hposted (awaits_echo .clientStreaming .clientStream) (by
      rw [hanswer]
      exact ⟨[7], hreadable _⟩)
  exact ⟨creq, r, hcall, fun got hgot late => hanswer ▸ hconveyed got hgot late⟩

end ConnectRpc
