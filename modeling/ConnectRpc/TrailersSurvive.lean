import ConnectRpc.ResponseCompression
import ConnectRpc.TrailerValues
import ConnectRpc.UnaryAgreement
import ConnectRpc.UnaryResponse

/-!
# Trailers end to end

The trailers of a call that succeeds, from the handler to the client, in each of the ways
there are to write them. A `SuccessfulCall` is a call that comes through as far as everything
but the trailers goes; `Survives` says that it comes through with its trailers as well: the
answers are those of a success, and the names with plain values are there.

`trailers_survive_iff` says when. HTTP trailers always do. The others fail at their limits,
and the text block of gRPC-Web fails with all trailers and the status when one value in it is
not UTF-8.
-/

namespace ConnectRpc

open Lib

variable (cr : Crates) {X α : Type}

/-! ## Streams -/

/-- A response stream of a server and a client that reads it. -/
structure StreamCall (α : Type) where
  /-- how the client is set up -/
  reader : StreamSetup α
  /-- what the handler yields -/
  source : List SourceEvent
  /-- what the server compresses with -/
  compression : Option (CompressionRegistry × String)
  /-- when it does -/
  policy : CompressionPolicy
  /-- the messages -/
  messages : List α
  /-- the client can undo the compression -/
  understands : Understands reader compression
  /-- the stream ends without an error -/
  good : ∀ ev ∈ source, ev.goesOn ⟨compression, policy⟩ = true
  /-- the messages are within the client's limit -/
  limit : WithinLimit reader.maxMessageSize ⟨compression, policy⟩ source
  /-- they are what the payloads decode to -/
  decodes : List.Forall₂ (fun b msg => reader.decode b = .ok msg) (payloads source) messages
  /-- the head brings no status -/
  head : reader.headers.contains hdr.grpcStatus = false

namespace StreamCall

variable (call : StreamCall α)

/-- What the server has sent in a number of polls. -/
def frames (trailers : HeaderMap) (n : ℕ) : List (Option Frame) :=
  served cr call.source trailers call.compression call.policy call.reader.protocol.finalizer n

/-- The body ends, and however it is cut the client answers the messages, then a clean end
with the trailers. -/
def Survives (trailers : HeaderMap) : Prop :=
  (∃ n, none ∈ call.frames cr trailers n) ∧
    ∀ n, none ∈ call.frames cr trailers n →
      ∀ body, Recut (call.frames cr trailers n).reduceOption body →
        ∃ e, (ServerStream.start call.reader body).Run cr call.messages e ∧ e.outcome = none ∧
          Carried call.reader.protocol trailers (e.trailers.getD .empty)

/-- What the client reads, up to the terminal frame. -/
theorem reading {trailers : HeaderMap} {n : ℕ} {body : List BodyEvent}
    (hn : none ∈ call.frames cr trailers n)
    (hbody : Recut (call.frames cr trailers n).reduceOption body) :
    ∃ saw, call.reader.reading cr body =
      (call.messages ++ (call.reader.readTerminal cr saw
          (call.reader.protocol.finalizer.terminal cr none trailers)).1,
        (call.reader.readTerminal cr saw
          (call.reader.protocol.finalizer.terminal cr none trailers)).2) := by
  obtain ⟨-, hcomplete⟩ := served_complete cr call.source trailers call.compression call.policy
    call.reader.protocol.finalizer
  have hdecodes : List.Forall₂ (fun b msg => call.reader.decode b = .ok msg)
      (delivered ⟨call.compression, call.policy⟩ call.source) call.messages := by
    rw [delivered_of_goesOn call.good]
    exact call.decodes
  obtain ⟨saw, -, hread⟩ := call.reader.reading_served cr call.understands call.limit hdecodes
    (hcomplete n hn) hbody
  rw [(planned_success_iff _ _).mpr call.good] at hread
  exact ⟨saw, hread⟩

end StreamCall

/-- The length of the text block of a success fits the length field of its frame. -/
def BlockFits (trailers : HeaderMap) : Prop :=
  (trailerPayload (grpcTrailerBlock cr none trailers)).length ≤ u32Max

/-- An envelope longer than its limit is an error. -/
theorem readTerminal_tooLong {t : StreamSetup α} {e : Envelope} (hsize : e.data.length ≤ u32Max)
    (hlimit : (t.limits e.flags).2 < e.data.length) (saw : Bool) :
    (t.readTerminal cr saw (.data e.wire)).2.outcome ≠ none := by
  have hheader : (e.flags :: toBeBytes e.data.length).length = HEADER_SIZE := rfl
  have hlength : fromBeBytes (toBeBytes e.data.length) = e.data.length := by
    simpa using fromBeBytes_toBeBytes hsize []
  have herror : decodeWith t.limits (e.wire ++ []) =
      .error (sizeExceeded (t.limits e.flags).1 e.data.length (t.limits e.flags).2) := by
    rw [Envelope.wire, List.append_assoc, decodeWith_header hheader]
    simp only [List.drop_succ_cons, List.drop_zero, List.headD_cons, hlength]
    rw [if_pos hlimit]
  have hdecoded : t.decoded (sentBytes [.data e.wire]) = ⟨[], .error
      (sizeExceeded (t.limits e.flags).1 e.data.length (t.limits e.flags).2)⟩ := by
    rw [StreamSetup.decoded, sentBytes, sentBytes, parse_error herror]
  rw [StreamSetup.readTerminal, hdecoded]
  exact Option.some_ne_none _

/-- Without trailers, and without a status in the head, a stream of the gRPC family does not
end cleanly. -/
theorem classifyGrpcEnd_none {t : StreamSetup α} (hhead : t.headers.contains hdr.grpcStatus = false)
    (saw : Bool) : (t.classifyGrpcEnd cr saw none).outcome ≠ none := by
  rw [StreamSetup.classifyGrpcEnd]
  simp only [Option.bind_none, Option.any_none, hhead, Bool.and_false, Bool.or_self,
    Bool.false_eq_true, if_false, Option.isSome_none]
  cases t.deadlineElapsed <;> exact Option.some_ne_none _

/-- **A terminal frame that the client cannot read is an error.** -/
theorem readTerminal_unreadable {t : StreamSetup α} {trailers : HeaderMap}
    (hhead : t.headers.contains hdr.grpcStatus = false)
    (hblock : t.protocol = .grpcWeb → BlockFits cr trailers)
    (h : ¬ TerminatorReadable cr t trailers) (saw : Bool) :
    (t.readTerminal cr saw
      (t.protocol.finalizer.terminal cr none trailers)).2.outcome ≠ none := by
  rw [TerminatorReadable] at h
  rcases hp : t.protocol with _ | _ | _
  · simp only [hp, not_and, not_le] at h
    rw [Protocol.finalizer, StreamFinalizer.terminal, StreamFinalizer.success, endStreamFrame_eq]
    by_cases hsize : ((EndStreamResponse.success trailers).toJson cr).length ≤ u32Max
    · rw [if_pos hsize]
      have hlimits : (t.limits flags.END_STREAM).2 = t.maxMessageSize := by
        rw [StreamSetup.limits, hp]
        rfl
      exact readTerminal_tooLong cr (e := ⟨flags.END_STREAM, _⟩) hsize (hlimits ▸ h hsize) saw
    · -- nothing is written, and the body is over without an end
      have hend : t.plan cr saw (.rest []) .eof [] = ([], t.endOfBody cr saw .eof) := rfl
      rw [if_neg hsize, StreamSetup.readTerminal, sentBytes, sentBytes, List.nil_append,
        ServerStream.decoded_nil, sentTrailers, sentTrailers, List.map_nil, bodyRest, hend,
        StreamSetup.endOfBody, if_pos hp]
      exact Option.some_ne_none _
  · simp only [hp, not_true_eq_false] at h
  · simp only [hp, not_and] at h
    rw [Protocol.finalizer, StreamFinalizer.terminal_grpcWeb]
    by_cases hlimit : (trailerPayload (grpcTrailerBlock cr none trailers)).length ≤
        MAX_GRPC_WEB_TRAILER_SIZE
    · rw [t.readTerminal_grpcWeb cr hp saw hlimit,
        if_neg fun htext => h hlimit ((allText_grpcTrailerBlock cr none trailers).mp htext)]
      exact classifyGrpcEnd_none cr hhead saw
    · have hlimits : (t.limits flags.GRPC_WEB_TRAILER).2 = MAX_GRPC_WEB_TRAILER_SIZE := by
        rw [StreamSetup.limits, hp]
        rfl
      exact readTerminal_tooLong cr (e := ⟨flags.GRPC_WEB_TRAILER, _⟩) (hblock hp)
        (hlimits ▸ Nat.lt_of_not_le hlimit) saw

/-- **Trailers of a stream.** -/
theorem StreamCall.survives_iff (call : StreamCall α) {trailers : HeaderMap}
    (hroom : 1 + trailers.nameCount < cr.headerCap)
    (hblock : call.reader.protocol = .grpcWeb → BlockFits cr trailers) :
    call.Survives cr trailers ↔ TerminatorReadable cr call.reader trailers := by
  obtain ⟨⟨k, hk⟩, -⟩ := served_complete cr call.source trailers call.compression call.policy
    call.reader.protocol.finalizer
  have hlive := ServerStream.start_live call.reader
  constructor
  · rintro ⟨-, hreads⟩
    by_contra hnot
    obtain ⟨e, hrun, hclean, -⟩ := hreads k hk
      ([sentBytes (call.frames cr trailers k).reduceOption].map .data ++
        (sentTrailers (call.frames cr trailers k).reduceOption).map .trailers)
      ⟨_, by rw [List.flatten_singleton], rfl⟩
    obtain ⟨saw, hread⟩ := call.reading cr hk ⟨_, by rw [List.flatten_singleton], rfl⟩
    obtain ⟨e', he', rfl⟩ := (ServerStream.run_iff cr (hlive _)).mp hrun
    rw [ServerStream.toRead_start, hread] at he'
    obtain ⟨-, rfl⟩ := Prod.mk.inj he'
    apply readTerminal_unreadable cr call.head hblock hnot saw
    exact Option.map_eq_none_iff.mp hclean
  · intro h
    refine ⟨⟨k, hk⟩, fun n hn body hbody => ?_⟩
    obtain ⟨saw, hread⟩ := call.reading cr hn hbody
    rw [readTerminal_success cr h saw, List.append_nil] at hread
    refine ⟨(StreamEnd.mk none (receivedTrailers cr call.reader.protocol trailers)).attachMetadata
      call.reader.headers, ?_, rfl, carried_receivedTrailers cr call.reader.protocol hroom⟩
    apply (ServerStream.run_iff cr (hlive body)).mpr
    exact ⟨_, by rw [ServerStream.toRead_start, hread], rfl⟩

/-! ## Unary responses of gRPC -/

/-- The fast path of a server and a client that expects one message. -/
structure GrpcUnaryCall (α : Type) where
  /-- the client -/
  client : CallConfig α
  /-- it speaks gRPC or gRPC-Web -/
  family : client.protocol ≠ .connect
  /-- the providers of the server -/
  compression : CompressionRegistry
  /-- when it compresses -/
  policy : CompressionPolicy
  /-- the encoding of the response -/
  encoding : Option String
  /-- what the handler answers, but for the trailers -/
  response : EncodedResponse
  /-- the headers that arrive -/
  headers : HeaderMap
  /-- the envelope that is sent -/
  envelope : Envelope
  /-- its payload -/
  payload : Bytes
  /-- the message -/
  message : α
  /-- the envelope is that of the answer -/
  framed : ∃ head segments, grpcUnaryEnvelope compression encoding
    (policy.withOverride response.compress) response.body = some (head, segments) ∧
      head ++ segments.flatten = envelope.wire
  /-- it is flagged as a message -/
  flagged : envelope.flags = flags.DATA ∨ envelope.flags = flags.COMPRESSED
  /-- the client accepts the content type -/
  accepted : validateGrpcResponseContentType headers client.protocol client.codecFormat = .ok ()
  /-- and the encoding -/
  supported : unsupportedEncoding client headers = none
  /-- the envelope reads as the message -/
  reads : OneMessage client headers envelope.wire envelope [] payload message
  /-- it is not compressed with `identity` -/
  notIdentity : ¬ IdentityCompressed headers envelope
  /-- the payload is within the limit -/
  size : client.maxMessageSize.any (fun limit => limit < payload.length) = false

namespace GrpcUnaryCall

variable (call : GrpcUnaryCall α)

/-- The answer with some trailers. -/
def answer (trailers : HeaderMap) : EncodedResponse :=
  { call.response with trailers := trailers }

/-- There is a body, it ends, and however it is cut the client answers the message, with the
trailers. -/
def Survives (trailers : HeaderMap) : Prop :=
  ∃ body, grpcUnaryBody cr call.client.protocol call.family call.compression call.policy
      call.encoding (call.answer trailers) = some body ∧
    (∃ n, none ∈ body.sent n) ∧
      ∀ n, none ∈ body.sent n → ∀ events, Recut (body.sent n).reduceOption events → ∀ late,
        ∃ u, parseGrpcUnaryResponse cr call.client ⟨.ok, call.headers, events⟩ late = .ok u ∧
          u.body = call.message ∧ Carried call.client.protocol trailers u.trailers

/-- Whether the client can read the trailers: the text block of gRPC-Web is text, within its
limit, and fits the client's buffer behind the message. -/
def Readable (trailers : HeaderMap) : Prop :=
  call.client.protocol = .grpcWeb →
    (trailerPayload (grpcTrailerBlock cr none trailers)).length ≤ MAX_GRPC_WEB_TRAILER_SIZE ∧
      AllText trailers ∧
      call.envelope.wire.length + HEADER_SIZE +
        (trailerPayload (grpcTrailerBlock cr none trailers)).length ≤ maxUnaryBuffer call.client

/-- The terminal frame. -/
def terminal (trailers : HeaderMap) : Frame :=
  call.client.protocol.finalizer.terminal cr none trailers

/-- What is sent is the envelope and the terminal frame. -/
theorem exists_body {trailers : HeaderMap} (hroom : BlockRoom cr none trailers) :
    ∃ body, grpcUnaryBody cr call.client.protocol call.family call.compression call.policy
        call.encoding (call.answer trailers) = some body ∧
      sentBytes body.frames = call.envelope.wire ++ sentBytes [call.terminal cr trailers] ∧
      sentTrailers body.frames = sentTrailers [call.terminal cr trailers] := by
  obtain ⟨head, segments, hframed, hwire⟩ := call.framed
  let body : GrpcUnaryBody := ⟨some head, segments, some (grpcTrailersOf call.client.protocol
    call.family (grpcTrailerBlock cr none trailers))⟩
  have hbody : grpcUnaryBody cr call.client.protocol call.family call.compression call.policy
      call.encoding (call.answer trailers) = some body := by
    rw [grpcUnaryBody_of_room hroom]
    simp only [answer, hframed, Option.map_some]
    rfl
  have hframes : body.frames = ([head] ++ segments).map .data ++ [call.terminal cr trailers] := by
    rw [terminal, ← frame_grpcTrailersOf_success cr call.client.protocol call.family]
    rfl
  exact ⟨body, hbody, GrpcUnaryBody.sent_wire hframes hwire⟩

/-- The client's side of it. -/
theorem survives_iff_reads {trailers : HeaderMap} (hroom : BlockRoom cr none trailers) :
    call.Survives cr trailers ↔ ∀ datas : List Bytes,
      datas.flatten = call.envelope.wire ++ sentBytes [call.terminal cr trailers] → ∀ late,
        ∃ u, parseGrpcUnaryResponse cr call.client ⟨.ok, call.headers, datas.map .data ++
            (sentTrailers [call.terminal cr trailers]).map .trailers⟩ late = .ok u ∧
          u.body = call.message ∧ Carried call.client.protocol trailers u.trailers := by
  obtain ⟨body, hbody, hbytes, htrailers⟩ := call.exists_body cr hroom
  constructor
  · rintro ⟨body', hbody', ⟨n, hn⟩, hreads⟩ datas hdatas late
    obtain rfl := Option.some.inj (hbody.symm.trans hbody')
    refine hreads n hn _ ⟨datas, ?_, ?_⟩ late
    · rw [GrpcUnaryBody.reduceOption_sent hn, hbytes, hdatas]
    · rw [GrpcUnaryBody.reduceOption_sent hn, htrailers]
  · intro h
    refine ⟨body, hbody, GrpcUnaryBody.none_mem_sent body, fun n hn events hevents late => ?_⟩
    obtain ⟨datas, hdatas, rfl⟩ := hevents
    rw [GrpcUnaryBody.reduceOption_sent hn] at hdatas ⊢
    rw [htrailers]
    exact h datas (hdatas.trans hbytes) late

/-- The envelope has a length that fits the length field. -/
theorem length_envelope : call.envelope.data.length ≤ u32Max := by
  have h := call.reads.envelope
  rw [decodeWithLimit, decodeContiguous_eq] at h
  exact length_of_decodeWith h

/-- Whatever follows the envelope, the message is the same. -/
theorem oneMessage_append (r : Bytes) :
    OneMessage call.client call.headers (call.envelope.wire ++ r) call.envelope r call.payload
      call.message := by
  have h := call.reads.envelope
  rw [decodeWithLimit, decodeContiguous_eq] at h
  refine ⟨?_, call.reads.message, call.reads.payload, call.reads.decode⟩
  rw [decodeWithLimit, decodeContiguous_eq]
  exact (decodeWith_stable (messageLimit call.client.messageLimit)).item_append r h

/-- There is no other message. -/
theorem eq_of_oneMessage {r r' d : Bytes} {e : Envelope} {m : α}
    (h : OneMessage call.client call.headers (call.envelope.wire ++ r) e r' d m) : r' = r := by
  have hsame := (call.oneMessage_append r).envelope.symm.trans h.envelope
  cases hsame
  rfl

/-- Such data is what the unary parser reads. -/
theorem inScope {r : Bytes} (hfits : (call.envelope.wire ++ r).length ≤ maxUnaryBuffer call.client)
    (hflags : ∀ e ∈ (parse decodeAny r).items, call.client.protocol = .grpcWeb ∧
      e.isGrpcWebTrailer = true) :
    InScope call.client call.headers (call.envelope.wire ++ r) := by
  have hparse : parse decodeAny (call.envelope.wire ++ r) = _ :=
    (decodeWith_stable (messageLimit u32Max)).parse_item (decodeAny_wire call.length_envelope r)
  refine ⟨call.family, call.accepted, hfits, fun e he => ?_⟩
  rw [hparse, Parsed.items_prepend, List.singleton_append] at he
  rcases List.mem_cons.mp he with rfl | he
  · exact call.flagged.imp_right .inl
  · exact .inr (.inr (hflags e he))

/-- The envelope alone fits the buffer. -/
theorem length_wire_le : call.envelope.wire.length ≤ maxUnaryBuffer call.client := by
  have h := call.reads.envelope
  rw [decodeWithLimit, decodeContiguous_eq] at h
  obtain ⟨-, -, -, -, -, hle⟩ := decodeWith_item h
  have hlimit : (messageLimit call.client.messageLimit call.envelope.flags).2 =
      call.client.messageLimit := rfl
  rw [hlimit] at hle
  rw [call.envelope.length_wire, maxUnaryBuffer]
  omega

/-- **The unary parser on a message and what follows it.** -/
theorem reads_iff {r : Bytes} {datas : List Bytes} (trailers : Option HeaderMap) (late : Bool)
    (hfits : (call.envelope.wire ++ r).length ≤ maxUnaryBuffer call.client)
    (hflags : ∀ e ∈ (parse decodeAny r).items, call.client.protocol = .grpcWeb ∧
      e.isGrpcWebTrailer = true)
    (hdatas : datas.flatten = call.envelope.wire ++ r) (th : HeaderMap) :
    (∃ u, parseGrpcUnaryResponse cr call.client (grpcReply call.headers datas trailers) late =
        .ok u ∧ u.body = call.message ∧ u.trailers = th) ↔
      UnaryTrailers cr call.client call.headers trailers r th ∧ StatusOk th := by
  have hscope := call.inScope hfits hflags
  rw [← hdatas] at hscope
  rw [parseGrpcUnaryResponse_reply_iff cr late hscope, hdatas]
  constructor
  · rintro ⟨-, e, r', d, hone, -, -, hend⟩
    rw [call.eq_of_oneMessage hone] at hend
    exact hend
  · intro h
    exact ⟨call.supported, call.envelope, r, call.payload, call.oneMessage_append r,
      call.notIdentity, call.size, h⟩

/-- Over gRPC the trailers are always read. -/
theorem survives_grpc (hp : call.client.protocol = .grpc) {trailers : HeaderMap}
    (hroom : BlockRoom cr none trailers) : call.Survives cr trailers := by
  have hterminal : call.terminal cr trailers = .trailers (grpcTrailerBlock cr none trailers) := by
    rw [terminal, hp, Protocol.finalizer, StreamFinalizer.terminal_grpc]
  apply (call.survives_iff_reads cr hroom).mpr
  intro datas hdatas late
  rw [hterminal, sentBytes, sentBytes] at hdatas
  rw [hterminal, sentTrailers, sentTrailers]
  have hfits : (call.envelope.wire ++ []).length ≤ maxUnaryBuffer call.client := by
    rw [List.append_nil]
    exact call.length_wire_le
  have hnone : ∀ e ∈ (parse decodeAny []).items, call.client.protocol = .grpcWeb ∧
      e.isGrpcWebTrailer = true := by
    intro e he
    have hparse : parse decodeAny [] = _ := parse_none (decodeWith_short (by decide))
    rw [hparse] at he
    cases he
  obtain ⟨u, hu, hmessage, hth⟩ :=
    (call.reads_iff cr (some (grpcTrailerBlock cr none trailers)) late hfits hnone hdatas
      (grpcTrailerBlock cr none trailers)).mpr
        ⟨.inr ⟨rfl, .inl rfl⟩, StreamSetup.statusOk_grpcTrailerBlock cr trailers⟩
  refine ⟨u, hu, hmessage, ?_⟩
  rw [hth]
  exact carried_grpc cr call.family trailers

end GrpcUnaryCall

/-- The trailer frame of a success, as an envelope. -/
def trailerFrame (trailers : HeaderMap) : Envelope :=
  ⟨flags.GRPC_WEB_TRAILER, trailerPayload (grpcTrailerBlock cr none trailers)⟩

/-- When a trailer frame that is all there is can be read, and as what. -/
theorem frameAt_trailerFrame_iff {c : CallConfig α} {headers : HeaderMap} {trailers : HeaderMap}
    (hp : c.protocol = .grpcWeb)
    (hblock : BlockFits cr trailers)
    (th : HeaderMap) :
    FrameAt cr c headers (trailerFrame cr trailers).wire th ↔
      (trailerPayload (grpcTrailerBlock cr none trailers)).length ≤ MAX_GRPC_WEB_TRAILER_SIZE ∧
        AllText trailers ∧ some th = receivedTrailers cr .grpcWeb trailers := by
  obtain ⟨hplain, -, htrailer⟩ := Envelope.kind_eq
    (Envelope.kind_trailer (trailerPayload (grpcTrailerBlock cr none trailers)))
  have hframe : (c.setup headers false).isTrailerFrame (trailerFrame cr trailers) = true := by
    have hprotocol : (c.setup headers false).protocol = .grpcWeb := hp
    rw [StreamSetup.isTrailerFrame, hprotocol, trailerFrame, htrailer]
    rfl
  have hlimit := limits_trailerFrame hframe
  have hread : (c.setup headers false).frameTrailers cr (trailerFrame cr trailers) =
      if AllText trailers then receivedTrailers cr .grpcWeb trailers else none := by
    rw [StreamSetup.frameTrailers, trailerFrame, hplain, parseGrpcWebTrailerPayload_payload]
    simp only [allText_grpcTrailerBlock cr none trailers, mergedTrailers]
    rfl
  constructor
  · rintro ⟨f, rest, hd, -, hth⟩
    have hany := decodeAny_wire (e := trailerFrame cr trailers) hblock []
    rw [List.append_nil] at hany
    cases (decodeAny_of_item hd).symm.trans hany
    obtain ⟨-, -, -, -, -, hle⟩ := decodeWith_item hd
    rw [hlimit] at hle
    rw [hread] at hth
    split at hth
    · rename_i htext
      exact ⟨hle, htext, hth.symm⟩
    · cases hth
  · rintro ⟨hle, htext, hth⟩
    have hwire : decodeWith (c.setup headers false).limits
        ((trailerFrame cr trailers).wire ++ []) = .ok (some (trailerFrame cr trailers, [])) :=
      decodeWith_wire [] hblock (hlimit ▸ hle)
    rw [List.append_nil] at hwire
    refine ⟨_, [], hwire, hframe, ?_⟩
    rw [hread, if_pos htext, hth]

/-- Data that ends with its first trailer frame is too much for a buffer that does not hold
all of it, however it is cut. -/
theorem readUnaryBody_overflow {maxBufSize : ℕ} {late : Bool} (tail : List BodyEvent) :
    ∀ (datas : List Bytes) (acc : UnaryBody), acc.buf.length ≤ maxBufSize →
      maxBufSize < (acc.buf ++ datas.flatten).length →
      grpcWebTrailerFrameEnd (acc.buf ++ datas.flatten) =
        some (acc.buf ++ datas.flatten).length →
      ∃ e, readUnaryBody .grpcWeb maxBufSize true late acc (datas.map .data ++ tail) = .error e := by
  intro datas
  induction datas with
  | nil =>
    intro acc hle hlt
    rw [List.flatten_nil, List.append_nil] at hlt
    omega
  | cons d datas ih =>
    intro acc hle hlt hend
    rw [List.map_cons, List.cons_append, readUnaryBody]
    rw [List.flatten_cons] at hlt hend
    -- what is kept of the frame ends before the data does, so the trailer frame is not complete
    have hsplit : acc.buf ++ (d ++ datas.flatten) =
        acc.buf ++ d.take (min d.length (maxBufSize - acc.buf.length)) ++
          (d.drop (min d.length (maxBufSize - acc.buf.length)) ++ datas.flatten) := by
      rw [List.append_assoc, ← List.append_assoc (d.take _), List.take_append_drop]
    have hkept : (acc.buf ++ d.take (min d.length (maxBufSize - acc.buf.length))).length ≤
        maxBufSize := by
      rw [List.length_append, List.length_take]
      omega
    have hnone : grpcWebTrailerFrameEnd
        (acc.buf ++ d.take (min d.length (maxBufSize - acc.buf.length))) = none := by
      rcases hk : grpcWebTrailerFrameEnd
        (acc.buf ++ d.take (min d.length (maxBufSize - acc.buf.length))) with _ | k
      · rfl
      · obtain ⟨hsame, hshort⟩ := grpcWebTrailerFrameEnd_append _ (Nat.le_refl _) hk
          (d.drop (min d.length (maxBufSize - acc.buf.length)) ++ datas.flatten)
        rw [← hsplit, hend] at hsame
        have := Option.some.inj hsame
        omega
    simp only [if_true, hnone]
    by_cases hfull : min d.length (maxBufSize - acc.buf.length) < d.length
    · rw [if_pos hfull]
      exact ⟨_, rfl⟩
    · rw [if_neg hfull]
      have htake : d.take (min d.length (maxBufSize - acc.buf.length)) = d :=
        List.take_of_length_le (Nat.le_of_not_lt hfull)
      rw [htake] at hkept ⊢
      apply ih
      · exact hkept
      · rw [List.append_assoc]
        exact hlt
      · rw [List.append_assoc]
        exact hend

namespace GrpcUnaryCall

variable (call : GrpcUnaryCall α)

/-- Over gRPC-Web the frame has to be readable and to fit the buffer. -/
theorem survives_grpcWeb_iff (hp : call.client.protocol = .grpcWeb) {trailers : HeaderMap}
    (hroom : 1 + trailers.nameCount < cr.headerCap)
    (hblock : BlockFits cr trailers) :
    call.Survives cr trailers ↔
      (trailerPayload (grpcTrailerBlock cr none trailers)).length ≤ MAX_GRPC_WEB_TRAILER_SIZE ∧
        AllText trailers ∧ call.envelope.wire.length + HEADER_SIZE +
          (trailerPayload (grpcTrailerBlock cr none trailers)).length ≤
            maxUnaryBuffer call.client := by
  have hbytes : sentBytes [call.terminal cr trailers] = (trailerFrame cr trailers).wire := by
    rw [terminal, hp, Protocol.finalizer, StreamFinalizer.terminal_grpcWeb, sentBytes, sentBytes,
      List.append_nil]
    rfl
  have htrailers : sentTrailers [call.terminal cr trailers] = [] := by
    rw [terminal, hp, Protocol.finalizer, StreamFinalizer.terminal_grpcWeb, sentTrailers,
      sentTrailers]
  have hframe : (trailerFrame cr trailers).isGrpcWebTrailer = true :=
    (Envelope.kind_eq (Envelope.kind_trailer _)).2.2
  have hany := decodeAny_wire (e := trailerFrame cr trailers) hblock []
  rw [List.append_nil] at hany
  have hflags : ∀ e ∈ (parse decodeAny (trailerFrame cr trailers).wire).items,
      call.client.protocol = .grpcWeb ∧ e.isGrpcWebTrailer = true := by
    have hparse : parse decodeAny (trailerFrame cr trailers).wire = _ :=
      (decodeWith_stable (messageLimit u32Max)).parse_item hany
    have hrest : parse decodeAny [] = _ := parse_none (decodeWith_short (by decide))
    intro e he
    rw [hparse, Parsed.items_prepend] at he
    change e ∈ [trailerFrame cr trailers] ++ (parse decodeAny []).items at he
    rw [hrest, List.append_nil] at he
    rw [List.mem_singleton.mp he]
    exact ⟨hp, hframe⟩
  have hlength : (call.envelope.wire ++ (trailerFrame cr trailers).wire).length =
      call.envelope.wire.length + HEADER_SIZE +
        (trailerPayload (grpcTrailerBlock cr none trailers)).length := by
    rw [List.length_append, (trailerFrame cr trailers).length_wire, Nat.add_assoc]
    rfl
  rw [call.survives_iff_reads cr (blockRoom_of_nameCount cr hroom), hbytes, htrailers, ← hlength]
  constructor
  · intro h
    obtain ⟨u, hu, hmessage, -⟩ := h [call.envelope.wire ++ (trailerFrame cr trailers).wire]
      List.flatten_singleton false
    have hfits : (call.envelope.wire ++ (trailerFrame cr trailers).wire).length ≤
        maxUnaryBuffer call.client := by
      by_contra hlong
      have hend : grpcWebTrailerFrameEnd (call.envelope.wire ++ (trailerFrame cr trailers).wire) =
          some (call.envelope.wire ++ (trailerFrame cr trailers).wire).length := by
        rw [grpcWebTrailerFrameEnd_item (decodeAny_wire call.length_envelope _),
          call.reads.message, if_neg Bool.false_ne_true, grpcWebTrailerFrameEnd_item hany, hframe,
          if_pos rfl, Option.map_some, List.length_append]
      obtain ⟨e, he⟩ := readUnaryBody_overflow []
        [call.envelope.wire ++ (trailerFrame cr trailers).wire] ⟨[], .empty, false⟩ (Nat.zero_le _)
        (by simpa using hlong) (by simpa using hend)
      obtain ⟨-, -, b, -, -, hb, -⟩ := (parseGrpcUnaryResponse_ok_iff cr).mp hu
      rw [hp] at hb
      rw [List.map_nil] at hb
      cases he.symm.trans hb
    obtain ⟨hend, hstatus⟩ := (call.reads_iff cr none false hfits hflags
      List.flatten_singleton u.trailers).mp ⟨u, hu, hmessage, rfl⟩
    rcases hend with hend | ⟨hnone, -⟩
    · obtain ⟨hle, htext, -⟩ := (frameAt_trailerFrame_iff cr hp hblock _).mp hend
      exact ⟨hle, htext, hfits⟩
    · cases hnone
  · rintro ⟨hle, htext, hfits⟩ datas hdatas late
    have hsome : receivedTrailers cr .grpcWeb trailers =
        some ((receivedTrailers cr .grpcWeb trailers).getD .empty) := rfl
    have hstatus : StatusOk ((receivedTrailers cr .grpcWeb trailers).getD .empty) :=
      statusOk_receivedEntries cr trailers
    obtain ⟨u, hu, hmessage, hth⟩ := (call.reads_iff cr none late hfits hflags hdatas _).mpr
      ⟨.inl ((frameAt_trailerFrame_iff cr hp hblock _).mpr ⟨hle, htext, hsome.symm⟩), hstatus⟩
    refine ⟨u, hu, hmessage, ?_⟩
    rw [hth, hp]
    exact carried_receivedTrailers cr .grpcWeb hroom

/-- **Trailers of a unary response of gRPC.** -/
theorem survives_iff {trailers : HeaderMap} (hroom : 1 + trailers.nameCount < cr.headerCap)
    (hblock : call.client.protocol = .grpcWeb → BlockFits cr trailers) :
    call.Survives cr trailers ↔ call.Readable cr trailers := by
  rw [Readable]
  rcases hp : call.client.protocol with _ | _ | _
  · exact absurd hp call.family
  · simp [call.survives_grpc cr hp (blockRoom_of_nameCount cr hroom)]
  · rw [call.survives_grpcWeb_iff cr hp hroom (hblock hp)]
    simp

end GrpcUnaryCall

/-! ## Unary responses of Connect -/

/-- Headers that carry no trailer stay as they are. -/
theorem getAll_plainHeaders {headers : HeaderMap} {n : HeaderName}
    (h : carriedTrailer n = none) : (plainHeaders headers).getAll n = headers.getAll n := by
  rw [plainHeaders, HeaderMap.getAll_appendAll, HeaderMap.getAll_empty, List.nil_append,
    HeaderMap.getAll, HeaderMap.getAll, List.filter_filter]
  refine congrArg (List.map Prod.snd) (List.filter_congr fun e _ => ?_)
  by_cases he : e.1 = n
  · rw [he, h]
    simp
  · simp [he]

/-- The content type is accepted or not by its first value alone. -/
theorem validateConnect_congr {headers headers' : HeaderMap} {codec : CodecFormat}
    (h : headers.get .contentType = headers'.get .contentType)
    (hok : validateConnectResponseContentType headers' codec false = .ok ()) :
    validateConnectResponseContentType headers codec false = .ok () := by
  rw [validateConnectResponseContentType] at hok ⊢
  rw [h]
  rcases hv : headers'.get .contentType with _ | v
  · rfl
  · rw [hv] at hok
    simp only at hok ⊢
    split at hok
    · rename_i hmedia
      rw [if_pos hmedia]
    · cases hok

/-- What a client makes of a unary response depends on its status, its body and two headers. -/
theorem parseConnectUnaryResponse_congr {c : CallConfig α} {status : StatusCode}
    {headers headers' : HeaderMap} {events : List BodyEvent} {late : Bool} {u : UnaryResponse α}
    (htype : headers.getAll .contentType = headers'.getAll .contentType)
    (hencoding : headers.getAll .contentEncoding = headers'.getAll .contentEncoding)
    (h : parseConnectUnaryResponse cr c ⟨status, headers', events⟩ late = .ok u) :
    parseConnectUnaryResponse cr c ⟨status, headers, events⟩ late =
      .ok ⟨plainHeaders headers, u.body, carriedTrailers headers⟩ := by
  have hget : headers.get .contentEncoding = headers'.get .contentEncoding := by
    rw [HeaderMap.get, HeaderMap.get, hencoding]
  have hplain : (plainHeaders headers).get .contentType =
      (plainHeaders headers').get .contentType := by
    rw [HeaderMap.get, HeaderMap.get, getAll_plainHeaders (by decide),
      getAll_plainHeaders (by decide), htype]
  rw [parseConnectUnaryResponse] at h ⊢
  dsimp only at h ⊢
  rw [hget]
  rcases hs : status.isSuccess with _ | _
  · rw [hs, Bool.not_false, if_pos rfl] at h
    cases h
  · rw [hs, Bool.not_true, if_neg Bool.false_ne_true] at h
    rw [Bool.not_true, if_neg Bool.false_ne_true]
    rcases hvalid : validateConnectResponseContentType (plainHeaders headers') c.codecFormat false
      with e | ⟨⟩
    · rw [hvalid] at h
      cases h
    · rw [hvalid] at h
      rw [validateConnect_congr hplain hvalid]
      dsimp only at h ⊢
      split at h
      · cases h
      · rename_i data hdata
        by_cases hlimit : data.length > c.messageLimit
        · rw [if_pos hlimit] at h
          cases h
        · rw [if_neg hlimit] at h ⊢
          rcases hdecode : c.decode data with e | m
          · rw [hdecode] at h
            cases h
          · rw [hdecode] at h
            obtain rfl := Except.ok.inj h
            rfl

/-- A unary response of Connect with some trailers comes through: it is built, and however its
body is cut the client answers the message, with the trailers. -/
def UnaryDelivered (s : Service X) (c : CallConfig α) (metadata : RequestMetadata)
    (codec : CodecFormat) (response : EncodedResponse) (message : α) (trailers : HeaderMap) :
    Prop :=
  ∃ r, s.unaryResponse cr metadata codec { response with trailers := trailers } = .ok r ∧
    ∀ datas : List Bytes, datas.flatten = r.body → ∀ late,
      ∃ u, parseConnectUnaryResponse cr c ⟨r.status, r.headers, datas.map .data⟩ late = .ok u ∧
        u.body = message ∧ Carried .connect trailers u.trailers

/-- A unary call of Connect that comes through without trailers. -/
structure ConnectUnaryCall (X α : Type) where
  /-- the service -/
  service : Service X
  /-- the client -/
  client : CallConfig α
  /-- what the request says -/
  metadata : RequestMetadata
  /-- the codec of the call -/
  codec : CodecFormat
  /-- what the handler answers, but for the trailers -/
  response : EncodedResponse
  /-- the message -/
  message : α
  /-- it comes through -/
  delivered : UnaryDelivered cr service client metadata codec response message .empty

namespace ConnectUnaryCall

variable {cr} (call : ConnectUnaryCall cr X α)

/-- It comes through with its trailers as well. -/
def Survives (trailers : HeaderMap) : Prop :=
  UnaryDelivered cr call.service call.client call.metadata call.codec call.response call.message
    trailers

/-- The headers of the response, with those that carry trailers at the end. -/
def entries (ts : List (HeaderName × HeaderValue)) : List (HeaderName × HeaderValue) :=
  headOf cr (contentTypeValue .connect call.codec false) .contentEncoding
    (call.service.unaryResponseBody (call.service.compression.negotiateEncoding
      call.metadata.unaryAcceptEncoding call.metadata.unaryEncoding) call.response).2
    .acceptEncoding call.service.compression ++ call.response.headers.entries ++ ts

/-- The body of the response. -/
def body : Bytes :=
  (call.service.unaryResponseBody (call.service.compression.negotiateEncoding
    call.metadata.unaryAcceptEncoding call.metadata.unaryEncoding) call.response).1

/-- The response, if the names of the trailers can be prefixed and there is room. -/
theorem unaryResponse_ok_iff {trailers : HeaderMap} {r : Response Bytes} :
    call.service.unaryResponse cr call.metadata call.codec
        { call.response with trailers := trailers } = .ok r ↔
      ∃ ts, prefixedTrailers trailers = some ts ∧ Room cr.headerCap (call.entries ts) ∧
        r = ⟨.ok, HeaderMap.empty.appendAll (call.entries ts), call.body⟩ := by
  have hcap : 0 < cr.headerCap := Nat.lt_of_lt_of_le (by decide) cr.headerCap_large
  have hbody : ∀ encoding, call.service.unaryResponseBody encoding
      { call.response with trailers := trailers } =
        call.service.unaryResponseBody encoding call.response := fun _ => rfl
  rw [Service.unaryResponse]
  simp only [responseHead_eq, addTrailers_eq, ← ResponseBuilder.headers_append, hbody]
  rcases prefixedTrailers trailers with _ | ts
  · simp [ResponseBuilder.body]
  · have hheaders := ResponseBuilder.headers_withStatus hcap .ok (call.entries ts)
    rw [Option.bind_some, ← entries, hheaders]
    by_cases hroom : Room cr.headerCap (call.entries ts)
    · simp [hroom, ResponseBuilder.body, body, eq_comm]
    · simp [hroom, ResponseBuilder.body]

/-- The headers of the response are few enough if those of the handler are. -/
theorem room_entries {trailers : HeaderMap} {ts : List (HeaderName × HeaderValue)}
    (hts : prefixedTrailers trailers = some ts)
    (hroom : 3 + call.response.headers.nameCount + trailers.nameCount < cr.headerCap) :
    Room cr.headerCap (call.entries ts) := by
  apply room_of_nameCount
  have hsub : (HeaderMap.empty.appendAll (call.entries ts)).names ⊆
      [.contentType, .contentEncoding, .acceptEncoding] ++ call.response.headers.names ++
        trailers.names.filterMap trailerKey := by
    intro n hn
    obtain ⟨e, he, rfl⟩ := List.mem_map.mp (HeaderMap.mem_names_appendAll.mp hn)
    rw [entries] at he
    rcases List.mem_append.mp he with he | he
    · rcases List.mem_append.mp he with he | he
      · refine List.mem_append_left _ (List.mem_append_left _ ?_)
        rw [headOf] at he
        rcases List.mem_cons.mp he with rfl | he
        · exact List.mem_cons_self
        · rcases List.mem_append.mp he with he | he
          · obtain ⟨v, -, rfl⟩ := List.mem_map.mp he
            exact List.mem_cons_of_mem _ List.mem_cons_self
          · obtain ⟨v, -, rfl⟩ := List.mem_map.mp he
            exact List.mem_cons_of_mem _ (List.mem_cons_of_mem _ List.mem_cons_self)
      · exact List.mem_append_left _ (List.mem_append_right _ (HeaderMap.mem_names_of_mem he))
    · obtain ⟨a, ha, hkey⟩ := mem_of_mapM_some hts he
      obtain ⟨k, hk, rfl⟩ := Option.map_eq_some_iff.mp hkey
      refine List.mem_append_right _ (List.mem_filterMap.mpr ⟨a.1, ?_, hk⟩)
      exact HeaderMap.mem_names_of_mem ha
  have hle := (List.subperm_of_subset (HeaderMap.names_nodup _) hsub).length_le
  have hkeys := List.length_filterMap_le trailerKey trailers.names
  rw [List.length_append, List.length_append] at hle
  exact Nat.lt_of_le_of_lt (Nat.le_trans hle (Nat.add_le_add_left hkeys _)) hroom

/-- **Trailers of a unary response of Connect.** -/
theorem survives_iff {trailers : HeaderMap}
    (hroom : 3 + call.response.headers.nameCount + trailers.nameCount < cr.headerCap) :
    call.Survives trailers ↔ ∀ e ∈ trailers.entries,
      trailerPrefix.length + e.1.text.toList.length ≤ maxHeaderNameLen := by
  have hnames : (∀ e ∈ trailers.entries,
      trailerPrefix.length + e.1.text.toList.length ≤ maxHeaderNameLen) ↔
        (prefixedTrailers trailers).isSome = true := by
    rw [prefixedTrailers_isSome_iff]
    exact forall₂_congr fun e _ => trailerKey_isSome_iff.symm
  rw [hnames]
  constructor
  · rintro ⟨r, hr, -⟩
    obtain ⟨ts, hts, -, -⟩ := call.unaryResponse_ok_iff.mp hr
    rw [hts]
    rfl
  · intro h
    obtain ⟨ts, hts⟩ := Option.isSome_iff_exists.mp h
    obtain ⟨r₀, hr₀, hreads⟩ := call.delivered
    obtain ⟨ts₀, hts₀, hroom₀, rfl⟩ := call.unaryResponse_ok_iff.mp hr₀
    have hempty : prefixedTrailers .empty = some [] := rfl
    obtain rfl := Option.some.inj (hempty.symm.trans hts₀)
    have hok := call.unaryResponse_ok_iff.mpr ⟨ts, hts, call.room_entries hts hroom, rfl⟩
    -- headers that are not prefixed are those of the response without trailers
    have hsame : ∀ n, isPrefixed n = false →
        (HeaderMap.empty.appendAll (call.entries ts)).getAll n =
          (HeaderMap.empty.appendAll (call.entries [])).getAll n := by
      intro n hn
      rw [HeaderMap.getAll_appendAll, HeaderMap.getAll_appendAll, entries, entries,
        HeaderMap.getAll_append_entries, getAll_prefixedTrailers hts hn, List.append_nil,
        List.append_nil]
    refine ⟨_, hok, fun datas hdatas late => ?_⟩
    obtain ⟨u, hu, hmessage, hcarried⟩ := hreads datas hdatas late
    refine ⟨_, parseConnectUnaryResponse_congr cr (hsame _ (by decide)) (hsame _ (by decide)) hu,
      hmessage, ?_⟩
    have hbare := parseConnectUnaryResponse_congr cr rfl rfl hu
    have htrailers : u.trailers = carriedTrailers (HeaderMap.empty.appendAll (call.entries [])) :=
      congrArg UnaryResponse.trailers (Except.ok.inj (hu.symm.trans hbare))
    intro n _ _
    have hnone := hcarried n rfl (fun v hv => absurd hv List.not_mem_nil)
    rw [htrailers, getAll_carriedTrailers, HeaderMap.getAll_empty] at hnone
    rw [getAll_carriedTrailers]
    rcases hk : trailerKey n with _ | k
    · -- a name that cannot be prefixed is not there
      rw [Option.map_none, Option.getD_none]
      symm
      rw [← HeaderMap.contains_eq_false, ← Bool.not_eq_true, HeaderMap.contains,
        decide_eq_true_eq]
      intro hmem
      obtain ⟨e, he, rfl⟩ := List.mem_map.mp hmem
      have hsome := prefixedTrailers_isSome_iff.mp h e he
      rw [hk] at hsome
      cases hsome
    · rw [hk, Option.map_some, Option.getD_some, HeaderMap.getAll_appendAll, entries,
        List.append_nil, HeaderMap.getAll_empty, List.nil_append] at hnone
      rw [Option.map_some, Option.getD_some, HeaderMap.getAll_appendAll, entries,
        HeaderMap.getAll_append_entries, getAll_of_prefixedTrailers hts hk,
        HeaderMap.getAll_empty, List.nil_append]
      simp only [hnone]
      rfl

end ConnectUnaryCall

/-! ## All of them -/

/-- A call that succeeds, but for what may become of its trailers. -/
inductive SuccessfulCall (X α : Type) where
  /-- a unary call of Connect, whose trailers are headers -/
  | connectUnary : ConnectUnaryCall cr X α → SuccessfulCall X α
  /-- a unary call of gRPC or gRPC-Web -/
  | grpcUnary : GrpcUnaryCall α → SuccessfulCall X α
  /-- a response stream of any protocol -/
  | stream : StreamCall α → SuccessfulCall X α

namespace SuccessfulCall

variable {cr}

/-- It still succeeds with these trailers, and brings the plain ones. -/
def Survives : SuccessfulCall cr X α → HeaderMap → Prop
  | connectUnary call, trailers => call.Survives trailers
  | grpcUnary call, trailers => call.Survives cr trailers
  | stream call, trailers => call.Survives cr trailers

/-- The client can read the trailers: prefixed names are not too long; a terminal frame is
within its limits; a text block is text. -/
def Readable : SuccessfulCall cr X α → HeaderMap → Prop
  | connectUnary _, trailers => ∀ e ∈ trailers.entries,
      trailerPrefix.length + e.1.text.toList.length ≤ maxHeaderNameLen
  | grpcUnary call, trailers => call.Readable cr trailers
  | stream call, trailers => TerminatorReadable cr call.reader trailers

/-- How many names may stand in a header map next to the trailers. -/
def ownNames : SuccessfulCall cr X α → ℕ
  | connectUnary call => 3 + call.response.headers.nameCount
  | grpcUnary _ => 1
  | stream _ => 1

/-- Whether the trailers are a text block. -/
def isGrpcWeb : SuccessfulCall cr X α → Bool
  | connectUnary _ => false
  | grpcUnary call => call.client.protocol = .grpcWeb
  | stream call => call.reader.protocol = .grpcWeb

end SuccessfulCall

/-- A block that can be read fits. -/
theorem SuccessfulCall.Readable.blockFits {cr : Crates} {call : SuccessfulCall cr X α}
    {trailers : HeaderMap} (h : call.Readable trailers) (hweb : call.isGrpcWeb = true) :
    BlockFits cr trailers := by
  have hle : MAX_GRPC_WEB_TRAILER_SIZE ≤ u32Max := by decide
  cases call with
  | connectUnary call => cases hweb
  | grpcUnary call =>
    obtain ⟨hlimit, -⟩ := h (of_decide_eq_true hweb)
    exact Nat.le_trans hlimit hle
  | stream call =>
    have hreadable : TerminatorReadable cr call.reader trailers := h
    rw [TerminatorReadable, of_decide_eq_true hweb] at hreadable
    exact Nat.le_trans hreadable.1 hle

/-- **Trailers survive where they can be read.** For every call, and all trailers that leave
room in a header map: if the client can read the trailers, the call succeeds with them as
without and brings the plain ones; and only then, as long as the length of a text block is
not cut. -/
theorem trailers_survive_iff {cr : Crates} (call : SuccessfulCall cr X α) {trailers : HeaderMap}
    (hroom : call.ownNames + trailers.nameCount < cr.headerCap) :
    (call.Readable trailers → call.Survives trailers) ∧
      ((call.isGrpcWeb = true → BlockFits cr trailers) →
        call.Survives trailers → call.Readable trailers) := by
  have hiff : (call.isGrpcWeb = true → BlockFits cr trailers) →
      (call.Survives trailers ↔ call.Readable trailers) := by
    intro hblock
    cases call with
    | connectUnary call => exact call.survives_iff hroom
    | grpcUnary call =>
      exact call.survives_iff cr hroom fun hp => hblock (decide_eq_true hp)
    | stream call =>
      exact call.survives_iff cr hroom fun hp => hblock (decide_eq_true hp)
  exact ⟨fun h => (hiff h.blockFits).mpr h, fun hblock => (hiff hblock).mp⟩

/-- A stream of gRPC-Web with one message. -/
def webCall : StreamCall Bytes where
  reader := byteReader .grpcWeb none .new 4096
  source := [.item (.segmented [[7], [9]])]
  compression := none
  policy := .disabled
  messages := [[7, 9]]
  understands _ _ h := by cases h
  good := by decide
  limit body hbody := by
    obtain rfl : body = .segmented [[7], [9]] := by simpa using hbody
    refine ⟨by decide, fun e he => ?_⟩
    obtain rfl : (⟨flags.DATA, [7, 9]⟩ : Envelope) = e := Except.ok.inj he
    decide
  decodes := .cons rfl .nil
  head := rfl

/-- It comes through with a plain trailer, and with one that is not text it does not. -/
theorem webCall_trailers :
    (SuccessfulCall.stream webCall : SuccessfulCall .std Unit Bytes).Survives
        ⟨[(xNote, .letters 3)]⟩ ∧
      ¬ (SuccessfulCall.stream webCall : SuccessfulCall .std Unit Bytes).Survives
        binaryTrailers := by
  have hreadable : TerminatorReadable .std webCall.reader ⟨[(xNote, .letters 3)]⟩ :=
    ⟨by decide, by decide⟩
  have hunreadable : ¬ TerminatorReadable .std webCall.reader binaryTrailers := by
    rintro ⟨-, htext⟩
    revert htext
    decide
  have hfits : BlockFits .std binaryTrailers := by
    rw [BlockFits]
    decide
  refine ⟨(trailers_survive_iff _ (by decide)).1 hreadable, fun h => hunreadable ?_⟩
  exact (trailers_survive_iff _ (by decide)).2 (fun _ => hfits) h

/-- A plain trailer, and one that is not text. -/
def rawTrailers : HeaderMap :=
  ⟨[(xNote, .letters 3), (⟨"x-raw", by decide⟩, ⟨[0xFF], Eq.refl true⟩)]⟩

/-- One value that is not text loses the status and the trailer next to it. -/
theorem webCall_trailers_lost : ¬ webCall.Survives .std rawTrailers := by
  have hfits : BlockFits .std rawTrailers := by
    rw [BlockFits]
    decide
  rw [webCall.survives_iff .std (by decide) (fun _ => hfits)]
  rintro ⟨-, htext⟩
  revert htext
  decide

end ConnectRpc
