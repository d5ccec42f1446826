import ConnectRpc.Batching
import ConnectRpc.CleanEnd
import ConnectRpc.TrailerBlock
import Mathlib.Data.List.ReduceOption

/-!
# Response streams end to end

A client reading what a server's `BatchingEnvelopeStream` has sent. `Recut` is all
that the transport may do in between: cut the bytes into other frames.

`reading_served` says what the client reads in general: the messages that were
sent before the end, then whatever it makes of the terminal frame. For a stream that
ends without an error, `roundTrips_of_readable` puts this together with what the
three terminal frames of a success are read as.
-/

namespace ConnectRpc

open Lib

variable (cr : Crates) {α : Type}

/-! ## The transport -/

/-- The bytes in some frames. -/
def sentBytes : List Frame → Bytes
  | [] => []
  | .data b :: frames => b ++ sentBytes frames
  | .trailers _ :: frames => sentBytes frames

/-- The trailers in some frames. -/
def sentTrailers : List Frame → List HeaderMap
  | [] => []
  | .data _ :: frames => sentTrailers frames
  | .trailers t :: frames => t :: sentTrailers frames

/-- A body that frames may arrive as: their bytes, cut anywhere, and then their
trailers. -/
def Recut (frames : List Frame) (body : List BodyEvent) : Prop :=
  ∃ datas : List Bytes, datas.flatten = sentBytes frames ∧
    body = datas.map .data ++ (sentTrailers frames).map .trailers

theorem sentBytes_append (l r : List Frame) : sentBytes (l ++ r) = sentBytes l ++ sentBytes r := by
  induction l with
  | nil => rfl
  | cons f l ih =>
    cases f with
    | data b => rw [List.cons_append, sentBytes, sentBytes, ih, List.append_assoc]
    | trailers t => exact ih

theorem sentTrailers_append (l r : List Frame) :
    sentTrailers (l ++ r) = sentTrailers l ++ sentTrailers r := by
  induction l with
  | nil => rfl
  | cons f l ih =>
    cases f with
    | data b => exact ih
    | trailers t => rw [List.cons_append, sentTrailers, sentTrailers, ih, List.cons_append]

theorem sentBytes_datas (datas : List Bytes) : sentBytes (datas.map .data) = datas.flatten := by
  induction datas with
  | nil => rfl
  | cons b datas ih => rw [List.map_cons, sentBytes, ih, List.flatten_cons]

theorem sentTrailers_datas (datas : List Bytes) : sentTrailers (datas.map .data) = [] := by
  induction datas with
  | nil => rfl
  | cons b datas ih => exact ih

theorem reduceOption_dataFrames (datas : List Bytes) :
    (BatchingEnvelopeStream.dataFrames datas).reduceOption = datas.map .data := by
  induction datas with
  | nil => rfl
  | cons b datas ih =>
    rw [BatchingEnvelopeStream.dataFrames, List.map_cons, List.reduceOption_cons_of_some,
      List.map_cons]
    exact congrArg (Frame.data b :: ·) ih

/-- What a stream has sent in the end. -/
theorem BatchingEnvelopeStream.Complete.sent {bytes : Bytes} {f : Frame}
    {frames : List (Option Frame)} (h : Complete bytes f frames) :
    sentBytes frames.reduceOption = bytes ++ sentBytes [f] ∧
      sentTrailers frames.reduceOption = sentTrailers [f] := by
  obtain ⟨datas, k, -, hbytes, rfl⟩ := h
  have hreduce : (dataFrames datas ++ some f :: List.replicate k none).reduceOption =
      datas.map .data ++ [f] := by
    rw [List.reduceOption_append, List.reduceOption_cons_of_some,
      List.reduceOption_replicate_none, reduceOption_dataFrames]
  rw [hreduce, sentBytes_append, sentBytes_datas, hbytes, sentTrailers_append,
    sentTrailers_datas]
  exact ⟨rfl, rfl⟩

/-! ## Messages -/

/-- The bodies of the messages a source yields before its end. -/
def delivered (enc : EnvelopeEncoder) : List SourceEvent → List Bytes
  | [] => []
  | .pending :: rest => delivered enc rest
  | .error _ :: _ => []
  | .item body :: rest =>
    match enc.envelope body with
    | .error _ => []
    | .ok _ => body.intoContiguous :: delivered enc rest

/-- The bodies of all messages of a source. -/
def payloads : List SourceEvent → List Bytes
  | [] => []
  | .item body :: rest => body.intoContiguous :: payloads rest
  | _ :: rest => payloads rest

/-- A stream that ends without an error delivers all of them. -/
theorem delivered_of_goesOn {enc : EnvelopeEncoder} {source : List SourceEvent}
    (h : ∀ ev ∈ source, ev.goesOn enc = true) : delivered enc source = payloads source := by
  induction source with
  | nil => rfl
  | cons ev source ih =>
    obtain ⟨hev, hrest⟩ := List.forall_mem_cons.mp h
    cases ev with
    | pending => exact ih hrest
    | error err => cases hev
    | item body =>
      rw [SourceEvent.goesOn] at hev
      rcases he : enc.envelope body with err | e
      · rw [he] at hev
        cases hev
      · rw [delivered, he, payloads, ih hrest]

/-- A client set up for what a server sends: it has the encoding of compressed
messages and its registry undoes the server's. -/
def Understands (t : StreamSetup α) (compression : Option (CompressionRegistry × String)) : Prop :=
  ∀ reg encoding, compression = some (reg, encoding) →
    t.encoding = some encoding ∧ Inverts reg t.compression encoding

/-- Every message of a source is within a size limit, as it is and as it is sent. -/
def WithinLimit (limit : ℕ) (enc : EnvelopeEncoder) (source : List SourceEvent) : Prop :=
  ∀ body, .item body ∈ source → body.len ≤ limit ∧
    ∀ e, enc.envelope body = .ok e → e.data.length ≤ limit

namespace StreamSetup

variable {t : StreamSetup α} {compression : Option (CompressionRegistry × String)}
  {policy : CompressionPolicy}

/-- A message has no flag but that of compression. -/
theorem message_flags {enc : EnvelopeEncoder} {body : EncodedBody} {e : Envelope}
    (h : enc.envelope body = .ok e) : e.flags = flags.DATA ∨ e.flags = flags.COMPRESSED := by
  rcases EnvelopeEncoder.envelope_cases h with ⟨rfl, -⟩ | ⟨_, _, _, -, -, -, rfl⟩
  · exact .inl rfl
  · exact .inr rfl

/-- The limit on a message is the client's own. -/
theorem limits_message {flag : UInt8} (h : flag = flags.DATA ∨ flag = flags.COMPRESSED) :
    (t.limits flag).2 = t.maxMessageSize := by
  rw [limits]
  rcases h with rfl | rfl
  · cases t.protocol <;> rfl
  · cases t.protocol <;> rfl

/-- The client decompresses a message to its body. -/
theorem decompressEnvelope_message {body : EncodedBody} {e : Envelope}
    (hunderstands : Understands t compression)
    (he : EnvelopeEncoder.envelope ⟨compression, policy⟩ body = .ok e)
    (hlen : body.len ≤ t.maxMessageSize) :
    t.decompressEnvelope e = .ok body.intoContiguous := by
  rcases EnvelopeEncoder.envelope_cases he with ⟨rfl, -⟩ | ⟨reg, encoding, z, hc, -, hz, rfl⟩
  · obtain ⟨hplain, -, -⟩ := Envelope.kind_eq (Envelope.kind_data body.intoContiguous)
    rw [decompressEnvelope, hplain, if_neg Bool.false_ne_true]
  · obtain ⟨henc, hinv⟩ := hunderstands reg encoding hc
    obtain ⟨hcompressed, -, -⟩ := Envelope.kind_eq (Envelope.kind_compressed z)
    rw [EncodedBody.len_eq] at hlen
    rw [decompressEnvelope, hcompressed, if_pos rfl, henc]
    simp only
    rw [hinv.decompress_compress hz hlen]
    rfl

/-- A message is dispatched to what its body decodes to. -/
theorem dispatch_of_envelope {body : EncodedBody} {e : Envelope} {msg : α} (saw : Bool)
    (hunderstands : Understands t compression)
    (he : EnvelopeEncoder.envelope ⟨compression, policy⟩ body = .ok e)
    (hlen : body.len ≤ t.maxMessageSize) (hmsg : t.decode body.intoContiguous = .ok msg) :
    t.dispatch cr saw e = .ok msg := by
  have hdecompress := decompressEnvelope_message hunderstands he hlen
  have hflags : e.isGrpcWebTrailer = false ∧ e.isEndStream = false := by
    rw [Envelope.isGrpcWebTrailer, Envelope.isEndStream]
    rcases message_flags he with h | h
    · rw [h]
      exact ⟨rfl, rfl⟩
    · rw [h]
      exact ⟨rfl, rfl⟩
  rw [dispatch, isTrailerFrame, hflags.1, hflags.2, hdecompress, Bool.and_false,
    if_neg Bool.false_ne_true, if_neg Bool.false_ne_true]
  simp only [Except.bind, hmsg, Except.mapError]

/-- Messages at the front of what is planned. -/
theorem plan_messages {saw : Bool} {stop : Stop UInt8 ConnectError} {bodyEnd : BodyEnd}
    {es : List Envelope} {msgs : List α}
    (h : List.Forall₂ (fun e msg => t.dispatch cr saw e = .ok msg) es msgs) (rest : List Envelope) :
    t.plan cr saw stop bodyEnd (es ++ rest) =
      (msgs ++ (t.plan cr saw stop bodyEnd rest).1, (t.plan cr saw stop bodyEnd rest).2) := by
  induction h with
  | nil => rfl
  | cons he _ ih => rw [List.cons_append, plan, he, ih]; rfl

/-- The messages of a source are decoded and dispatched one by one. -/
theorem planned_dispatch (hunderstands : Understands t compression) (saw : Bool) :
    ∀ {source : List SourceEvent} {msgs : List α},
      WithinLimit t.maxMessageSize ⟨compression, policy⟩ source →
      List.Forall₂ (fun b msg => t.decode b = .ok msg) (delivered ⟨compression, policy⟩ source) msgs →
      List.Forall₂ (fun e msg => t.dispatch cr saw e = .ok msg)
        (planned ⟨compression, policy⟩ source).1 msgs := by
  intro source
  induction source with
  | nil =>
    intro msgs _ h
    rw [delivered, List.forall₂_nil_left_iff] at h
    subst h
    exact .nil
  | cons ev source ih =>
    intro msgs hlimit h
    have hrest : WithinLimit t.maxMessageSize ⟨compression, policy⟩ source :=
      fun body hb => hlimit body (List.mem_cons_of_mem _ hb)
    cases ev with
    | pending => exact ih hrest h
    | error err =>
      rw [delivered, List.forall₂_nil_left_iff] at h
      subst h
      exact .nil
    | item body =>
      obtain ⟨hlen, -⟩ := hlimit body List.mem_cons_self
      rcases he : EnvelopeEncoder.envelope ⟨compression, policy⟩ body with err | e
      · simp only [delivered, he, List.forall₂_nil_left_iff] at h
        subst h
        simp only [planned, he]
        exact .nil
      · simp only [delivered, he] at h
        simp only [planned, he]
        cases h with
        | cons hmsg hmsgs =>
          exact .cons (dispatch_of_envelope cr saw hunderstands he hlen hmsg) (ih hrest hmsgs)

/-- Every message sent is one the envelope decoder takes as it is. -/
theorem decodeWith_planned : ∀ {source : List SourceEvent},
    WithinLimit t.maxMessageSize ⟨compression, policy⟩ source →
      ∀ e ∈ (planned ⟨compression, policy⟩ source).1, ∀ r,
        decodeWith t.limits (e.wire ++ r) = .ok (some (e, r)) := by
  intro source
  induction source with
  | nil => exact fun _ e he => by cases he
  | cons ev source ih =>
    intro hlimit e he
    have hrest : WithinLimit t.maxMessageSize ⟨compression, policy⟩ source :=
      fun body hb => hlimit body (List.mem_cons_of_mem _ hb)
    cases ev with
    | pending => exact ih hrest e he
    | error err => cases he
    | item body =>
      obtain ⟨-, hsent⟩ := hlimit body List.mem_cons_self
      rcases hb : EnvelopeEncoder.envelope ⟨compression, policy⟩ body with err | e'
      · simp only [planned, hb] at he
        cases he
      · simp only [planned, hb] at he
        rcases List.mem_cons.mp he with rfl | he
        · intro r
          refine decodeWith_wire r (EnvelopeEncoder.envelope_length hb) ?_
          rw [limits_message (message_flags hb)]
          exact hsent e hb
        · exact ih hrest e he

/-! ## The terminal frame -/

/-- What a client makes of a terminal frame that has arrived after everything
else. -/
def readTerminal (t : StreamSetup α) (saw : Bool) (f : Frame) : List α × StreamEnd :=
  t.plan cr saw (t.decoded (sentBytes [f])).stop
    (bodyRest t.protocol ((sentTrailers [f]).map .trailers)).2 (t.decoded (sentBytes [f])).items

/-- **What a client reads of what a server sent**: the messages before the end, and
then what it makes of the terminal frame. -/
theorem reading_served {source : List SourceEvent} {f : Frame} {frames : List (Option Frame)}
    {body : List BodyEvent} {msgs : List α} (hunderstands : Understands t compression)
    (hlimit : WithinLimit t.maxMessageSize ⟨compression, policy⟩ source)
    (hmsgs : List.Forall₂ (fun b msg => t.decode b = .ok msg)
      (delivered ⟨compression, policy⟩ source) msgs)
    (hframes : BatchingEnvelopeStream.Complete
      ((planned ⟨compression, policy⟩ source).1.flatMap Envelope.wire) f frames)
    (hbody : Recut frames.reduceOption body) :
    ∃ saw, ((planned ⟨compression, policy⟩ source).1 ≠ [] → saw = true) ∧
      t.reading cr body = (msgs ++ (t.readTerminal cr saw f).1, (t.readTerminal cr saw f).2) := by
  obtain ⟨hbytes, htrailers⟩ := hframes.sent
  obtain ⟨datas, hdatas, rfl⟩ := hbody
  rw [hbytes] at hdatas
  rw [htrailers]
  have hnone : (bodyRest t.protocol ((sentTrailers [f]).map .trailers)).1 = [] := by
    cases f with
    | data b => rfl
    | trailers m =>
      rw [sentTrailers, sentTrailers, List.map_cons, List.map_nil, bodyRest]
      by_cases hp : t.protocol = .connect
      · rw [if_pos hp]
        rfl
      · rw [if_neg hp]
  have hrest := bodyRest_datas t.protocol datas ((sentTrailers [f]).map .trailers)
  rw [hnone, List.append_nil, hdatas] at hrest
  have hparse := (decodeWith_stable t.limits).parse_flatMap (decodeWith_planned (t := t) hlimit)
    (sentBytes [f])
  refine ⟨!((planned ⟨compression, policy⟩ source).1.flatMap Envelope.wire ++
    sentBytes [f]).isEmpty, ?_, ?_⟩
  · intro hne
    rcases hplanned : (planned ⟨compression, policy⟩ source).1 with _ | ⟨e, es⟩
    · exact absurd hplanned hne
    · rfl
  · rw [reading, hrest, readingOf, decoded, hparse, Parsed.items_prepend, Parsed.stop_prepend,
      plan_messages cr (planned_dispatch cr hunderstands _ hlimit hmsgs)]
    rfl

/-- One envelope that ends the stream. -/
theorem readTerminal_wire {saw : Bool} {e : Envelope} {ended : StreamEnd}
    (hsize : e.data.length ≤ u32Max) (hlimit : e.data.length ≤ (t.limits e.flags).2)
    (hd : t.dispatch cr saw e = .error ended) :
    t.readTerminal cr saw (.data e.wire) = ([], ended) := by
  have hstable := decodeWith_stable t.limits
  have hwire : decodeWith t.limits (e.wire ++ []) = .ok (some (e, [])) :=
    decodeWith_wire [] hsize hlimit
  have hdecoded : t.decoded (sentBytes [.data e.wire]) = ⟨[e], .rest []⟩ := by
    rw [decoded, sentBytes, sentBytes, hstable.parse_item hwire, parse_none (decodeWith_short (by decide))]
    rfl
  rw [readTerminal, hdecoded]
  simp only [plan, hd]

/-- Trailers with a status of 0 are a clean end. -/
theorem classifyGrpcEnd_of_statusOk {m : HeaderMap} (h : StatusOk m) (saw : Bool) :
    t.classifyGrpcEnd cr saw (some m) = ⟨none, some m⟩ := by
  have hnone := (parseGrpcErrorFromTrailers_none_iff cr m).mpr (.inr h)
  rw [classifyGrpcEnd, Option.bind_some, hnone]
  simp only [Option.any_some, contains_of_statusOk h, Bool.true_or, if_true]

/-- The block of a success says so. -/
theorem statusOk_grpcTrailerBlock (trailers : HeaderMap) :
    StatusOk (grpcTrailerBlock cr none trailers) := by
  rw [StatusOk, get_grpcStatus_grpcTrailerBlock]
  rfl

/-- HTTP trailers. -/
theorem readTerminal_trailers (hp : t.protocol ≠ .connect) (saw : Bool) (m : HeaderMap) :
    t.readTerminal cr saw (.trailers m) = ([], t.classifyGrpcEnd cr saw (some m)) := by
  rw [readTerminal, sentBytes, sentBytes, ServerStream.decoded_nil, sentTrailers, sentTrailers,
    List.map_cons, List.map_nil, bodyRest, if_neg hp]
  rfl

/-- The trailer frame of gRPC-Web, if it is within its limit. -/
theorem readTerminal_grpcWeb (hp : t.protocol = .grpcWeb) (saw : Bool) {m : HeaderMap}
    (hlimit : (trailerPayload m).length ≤ MAX_GRPC_WEB_TRAILER_SIZE) :
    t.readTerminal cr saw (.data (encodeGrpcWebTrailers m)) =
      ([], t.classifyGrpcEnd cr saw (if AllText m then
        some (appendCapped cr .empty (m.entries.filterMap (receivedEntry cr))) else none)) := by
  have hle : MAX_GRPC_WEB_TRAILER_SIZE ≤ u32Max := by decide
  have hlimits : (t.limits flags.GRPC_WEB_TRAILER).2 = MAX_GRPC_WEB_TRAILER_SIZE := by
    rw [limits, hp]
    rfl
  refine readTerminal_wire cr (e := ⟨flags.GRPC_WEB_TRAILER, trailerPayload m⟩)
    (Nat.le_trans hlimit hle) (hlimits ▸ hlimit) ?_
  obtain ⟨hplain, -, htrailer⟩ := Envelope.kind_eq (Envelope.kind_trailer (trailerPayload m))
  have hframe : t.isTrailerFrame ⟨flags.GRPC_WEB_TRAILER, trailerPayload m⟩ = true := by
    rw [isTrailerFrame, hp, htrailer]
    rfl
  rw [dispatch, if_pos hframe, frameTrailers, hplain, parseGrpcWebTrailerPayload_payload]

/-- The END_STREAM envelope, if it is within the limit. -/
theorem readTerminal_endStream (hp : t.protocol = .connect) (saw : Bool) {r : EndStreamResponse}
    (hsize : (r.toJson cr).length ≤ u32Max) (hlimit : (r.toJson cr).length ≤ t.maxMessageSize) :
    t.readTerminal cr saw (StreamFinalizer.endStreamFrame cr r) =
      ([], match parseConnectEndStream cr (r.toJson cr) with
        | .error err => .ofError err
        | .ok endStream => ⟨endStream.error.map endStreamErrorToConnectError,
            endStream.metadata.map (appendMetadataCapped cr .empty)⟩) := by
  have hlimits : (t.limits flags.END_STREAM).2 = t.maxMessageSize := by
    rw [limits, hp]
    rfl
  rw [endStreamFrame_eq, if_pos hsize]
  refine readTerminal_wire cr (e := ⟨flags.END_STREAM, r.toJson cr⟩) hsize (hlimits ▸ hlimit) ?_
  obtain ⟨hplain, hend, -⟩ := Envelope.kind_eq (Envelope.kind_endStream (r.toJson cr))
  have hframe : t.isTrailerFrame ⟨flags.END_STREAM, r.toJson cr⟩ = false := by
    rw [isTrailerFrame, hp]
    rfl
  have hdata : t.decompressEnvelope ⟨flags.END_STREAM, r.toJson cr⟩ = .ok (r.toJson cr) := by
    rw [decompressEnvelope, hplain, if_neg Bool.false_ne_true]
  rw [dispatch, hframe, if_neg Bool.false_ne_true, if_pos hend]
  rcases hparse : parseConnectEndStream cr (r.toJson cr) with err | endStream
  · simp only [processEndStream, hdata, hparse]
  · simp only [processEndStream, hdata, hparse]

end StreamSetup

/-! ## Streams that end without an error -/

/-- Whether a client can read the terminal frame of a success: the END_STREAM record
is within its limit on messages; the text block of gRPC-Web is within the limit on
trailer frames, and is text. -/
def TerminatorReadable (t : StreamSetup α) (trailers : HeaderMap) : Prop :=
  match t.protocol with
  | .connect => ((EndStreamResponse.success trailers).toJson cr).length ≤ u32Max ∧
      ((EndStreamResponse.success trailers).toJson cr).length ≤ t.maxMessageSize
  | .grpc => True
  | .grpcWeb =>
    (trailerPayload (grpcTrailerBlock cr none trailers)).length ≤ MAX_GRPC_WEB_TRAILER_SIZE ∧
      AllText trailers

/-- The status comes first in the block of a success. -/
theorem entries_grpcTrailerBlock (trailers : HeaderMap) :
    ∃ es, (grpcTrailerBlock cr none trailers).entries = (hdr.grpcStatus, .ofNat 0) :: es := by
  have hfirst : ∀ (es : List (HeaderName × HeaderValue)) (e : HeaderName × HeaderValue)
      (l : List (HeaderName × HeaderValue)),
      ∃ r, (HeaderMap.appendAll ⟨e :: l⟩ es).entries = e :: r := by
    intro es
    induction es with
    | nil => exact fun e l => ⟨l, rfl⟩
    | cons x es ih =>
      intro e l
      have hstep : HeaderMap.appendAll ⟨e :: l⟩ (x :: es) =
          HeaderMap.appendAll ⟨appendEntry x.1 x.2 (e :: l)⟩ es := rfl
      rw [hstep, appendEntry]
      split
      · exact ih e _
      · exact ih e _
  rw [grpcTrailerBlock]
  exact hfirst _ _ _

/-- The trailers that are read from the terminal frame of a success. -/
def receivedTrailers (protocol : Protocol) (trailers : HeaderMap) : Option HeaderMap :=
  match protocol with
  | .connect => (EndStreamResponse.walkedMetadata cr trailers).map (appendMetadataCapped cr .empty)
  | .grpc => some (grpcTrailerBlock cr none trailers)
  | .grpcWeb => some (appendCapped cr .empty
      ((grpcTrailerBlock cr none trailers).entries.filterMap (receivedEntry cr)))

/-- The status of a text block is read from it. -/
theorem statusOk_receivedEntries (trailers : HeaderMap) :
    StatusOk (appendCapped cr .empty
      ((grpcTrailerBlock cr none trailers).entries.filterMap (receivedEntry cr))) := by
  obtain ⟨es, hes⟩ := entries_grpcTrailerBlock cr trailers
  have hzero : receivedEntry cr (hdr.grpcStatus, .ofNat 0) = some (hdr.grpcStatus, .ofNat 0) :=
    receivedEntry_of_plain cr _ (by decide)
  rw [hes, List.filterMap_cons_some hzero, StatusOk,
    get_appendCapped_cons cr (hdr.grpcStatus, .ofNat 0)]
  rfl

/-- A clean end is read from the terminal frame of a success. -/
theorem readTerminal_success {t : StreamSetup α} {trailers : HeaderMap}
    (h : TerminatorReadable cr t trailers) (saw : Bool) :
    t.readTerminal cr saw (t.protocol.finalizer.terminal cr none trailers) =
      ([], ⟨none, receivedTrailers cr t.protocol trailers⟩) := by
  rw [TerminatorReadable] at h
  rcases hp : t.protocol with _ | _ | _
  · simp only [hp] at h
    obtain ⟨hsize, hlimit⟩ := h
    rw [Protocol.finalizer, StreamFinalizer.terminal, StreamFinalizer.success,
      t.readTerminal_endStream cr hp saw hsize hlimit, parseConnectEndStream_success]
    rfl
  · have hne : t.protocol ≠ .connect := by
      rw [hp]
      decide
    rw [Protocol.finalizer, StreamFinalizer.terminal_grpc, t.readTerminal_trailers cr hne,
      StreamSetup.classifyGrpcEnd_of_statusOk cr (StreamSetup.statusOk_grpcTrailerBlock cr trailers)]
    rfl
  · simp only [hp] at h
    obtain ⟨hlimit, htext⟩ := h
    rw [Protocol.finalizer, StreamFinalizer.terminal_grpcWeb, t.readTerminal_grpcWeb cr hp saw hlimit,
      if_pos ((allText_grpcTrailerBlock cr none trailers).mpr htext),
      StreamSetup.classifyGrpcEnd_of_statusOk cr (statusOk_receivedEntries cr trailers)]
    rfl

/-! ## The round trip -/

/-- What a server stream has sent in a number of polls. -/
def served (source : List SourceEvent) (trailers : HeaderMap)
    (compression : Option (CompressionRegistry × String)) (policy : CompressionPolicy)
    (fin : StreamFinalizer) (n : ℕ) : List (Option Frame) :=
  ready (polls (BatchingEnvelopeStream.pollNext cr) n
    (.new source trailers compression policy fin))

/-- Once the body of a stream has ended, everything has been sent; and it does
end. -/
theorem served_complete (source : List SourceEvent) (trailers : HeaderMap)
    (compression : Option (CompressionRegistry × String)) (policy : CompressionPolicy)
    (fin : StreamFinalizer) :
    (∃ n, none ∈ served cr source trailers compression policy fin n) ∧
      ∀ n, none ∈ served cr source trailers compression policy fin n →
        BatchingEnvelopeStream.Complete
          ((planned ⟨compression, policy⟩ source).1.flatMap Envelope.wire)
          (fin.terminal cr (planned ⟨compression, policy⟩ source).2 trailers)
          (served cr source trailers compression policy fin n) := by
  have hrun := BatchingEnvelopeStream.sent_new cr source trailers compression policy fin
  refine ⟨?_, ?_⟩
  · obtain ⟨hsent, hle⟩ :=
      hrun (BatchingEnvelopeStream.new source trailers compression policy fin).remaining
    rw [Nat.sub_self] at hle
    have hdone := hsent.done_of_remaining cr (Nat.eq_zero_of_le_zero hle)
    refine ⟨(BatchingEnvelopeStream.new source trailers compression policy fin).remaining + 1, ?_⟩
    rw [served, polls_add, ready_append, polls, BatchingEnvelopeStream.pollNext_done cr hdone]
    exact List.mem_append_right _ List.mem_cons_self
  · intro n hn
    rcases (hrun n).1.frames cr with ⟨datas, -, -, hframes⟩ | hcomplete
    · rw [served, hframes, BatchingEnvelopeStream.dataFrames] at hn
      obtain ⟨b, -, hb⟩ := List.mem_map.mp hn
      cases hb
    · exact hcomplete

/-- The first `k` answers of a stream that yields these messages and then a clean
end. -/
def cleanAnswers (msgs : List α) (k : ℕ) : List (Except ConnectError (Option α)) :=
  List.take k (msgs.map (fun msg => .ok (some msg)) ++ List.replicate k (.ok none))

/-- The round trip of a stream that ends without an error: its terminal frame is built, its
body ends, and whatever frames the transport cuts that body into, the client answers the
payloads in order and then a clean end for ever. -/
structure RoundTrips (t : StreamSetup Bytes) (source : List SourceEvent) (trailers : HeaderMap)
    (compression : Option (CompressionRegistry × String)) (policy : CompressionPolicy) :
    Prop where
  /-- building the terminal frame does not panic -/
  builds : t.protocol.finalizer.Builds cr none trailers
  /-- the body ends -/
  ends : ∃ n, none ∈ served cr source trailers compression policy t.protocol.finalizer n
  /-- what the client reads of it -/
  reads : ∀ n, none ∈ served cr source trailers compression policy t.protocol.finalizer n →
    ∀ body, Recut (served cr source trailers compression policy t.protocol.finalizer n).reduceOption
      body → ∀ k, (ServerStream.start t body).answers cr k = cleanAnswers (payloads source) k

/-- What a stream answers once it is known what it reads. -/
theorem answers_of_reading {t : StreamSetup α} {body : List BodyEvent} {msgs : List α}
    {received : Option HeaderMap} (h : t.reading cr body = (msgs, ⟨none, received⟩)) (k : ℕ) :
    (ServerStream.start t body).answers cr k = cleanAnswers msgs k := by
  rw [ServerStream.answers_eq cr (ServerStream.start_live t body), ServerStream.toRead_start, h,
    ServerStream.answersOf, take_append_const]
  rfl

/-- **Response streams round-trip.** For every source that ends without an error,
every segmentation, policy, encoding that the client's registry undoes, and trailers that
leave room for the status, and every frames the body is cut into: the client answers
exactly the payloads and then a clean end, provided that all of them and the terminal
frame are within its limits. -/
theorem response_roundTrips {t : StreamSetup Bytes} {source : List SourceEvent}
    {trailers : HeaderMap} {compression : Option (CompressionRegistry × String)}
    {policy : CompressionPolicy} (hdecode : t.decode = .ok)
    (hunderstands : Understands t compression)
    (hgood : ∀ ev ∈ source, ev.goesOn ⟨compression, policy⟩ = true)
    (hlimit : WithinLimit t.maxMessageSize ⟨compression, policy⟩ source)
    (hroom : t.protocol.finalizer.Room cr none trailers)
    (hterminator : TerminatorReadable cr t trailers) :
    RoundTrips cr t source trailers compression policy := by
  obtain ⟨hends, hcomplete⟩ :=
    served_complete cr source trailers compression policy t.protocol.finalizer
  refine ⟨(StreamFinalizer.builds_iff cr _ none trailers).mpr hroom, hends, ?_⟩
  intro n hn body hbody k
  have hmsgs : List.Forall₂ (fun b msg => t.decode b = .ok msg)
      (delivered ⟨compression, policy⟩ source) (payloads source) := by
    rw [delivered_of_goesOn hgood, hdecode]
    exact List.forall₂_refl _
  obtain ⟨saw, -, hread⟩ :=
    t.reading_served cr hunderstands hlimit hmsgs (hcomplete n hn) hbody
  rw [(planned_success_iff _ _).mpr hgood] at hread
  rw [readTerminal_success cr hterminator saw, List.append_nil] at hread
  exact answers_of_reading cr hread k

/-! ## Where it fails -/

/-- Bytes sent at once round-trip only if reading them does. -/
theorem RoundTrips.answers {t : StreamSetup Bytes} {source : List SourceEvent} {trailers : HeaderMap}
    {compression : Option (CompressionRegistry × String)} {policy : CompressionPolicy}
    (h : RoundTrips .std t source trailers compression policy) {n : ℕ}
    {frames : List (Option Frame)}
    (hframes : served .std source trailers compression policy t.protocol.finalizer n = frames)
    (hn : none ∈ frames) (datas : List Bytes)
    (hdatas : datas.flatten = sentBytes frames.reduceOption) (k : ℕ) :
    (ServerStream.start t (datas.map .data ++
      (sentTrailers frames.reduceOption).map .trailers)).answers .std k =
        cleanAnswers (payloads source) k := by
  subst hframes
  exact h.reads n hn _ ⟨datas, hdatas, rfl⟩ k

/-- A provider that compresses one message to nothing and puts a byte in front of the
others. -/
def swapProvider : CompressionProvider where
  name := "swap"
  compress data := .ok (if data = [7] then [] else 0 :: data)
  decompressWithLimit z limit :=
    let data := if z = [] then [7] else z.tail
    if data.length ≤ limit then .ok data else .error (.resourceExhausted "too large")

/-- It inverts itself. -/
theorem swapProvider_inverts {data z : Bytes} {limit : ℕ} (hz : swapProvider.compress data = .ok z)
    (hlen : data.length ≤ limit) : swapProvider.decompressWithLimit z limit = .ok data := by
  obtain rfl : (if data = [7] then [] else 0 :: data) = z := Except.ok.inj hz
  by_cases h : data = [7]
  · subst h
    rw [if_pos rfl]
    exact if_pos hlen
  · rw [if_neg h]
    exact if_pos hlen

/-- Its registry. -/
def swapRegistry : CompressionRegistry :=
  CompressionRegistry.new.register swapProvider (by decide)

/-- A trailer that is not text. -/
def binaryTrailers : HeaderMap :=
  ⟨[(xNote, ⟨[0xFF], by decide⟩)]⟩

/-- Three streams that end without an error and do not round-trip: over Connect, where
the reader's limit on messages is less than the END_STREAM record; over gRPC-Web, with
a trailer that is not text; and with a provider that compresses a message to
nothing, and inverts itself. -/
theorem roundTrips_fails :
    ¬ RoundTrips .std (byteReader .connect none .new 1) [] .empty none .disabled ∧
      ¬ RoundTrips .std (byteReader .grpcWeb none .new 4096) [] binaryTrailers none .disabled ∧
      ¬ RoundTrips .std (byteReader .grpc (some "swap") swapRegistry 4096)
        [.item (.contiguous [7])] .empty (some (swapRegistry, "swap")) ⟨true, 0⟩ ∧
      ∀ data z limit, swapProvider.compress data = .ok z → data.length ≤ limit →
        swapProvider.decompressWithLimit z limit = .ok data := by
  refine ⟨?_, ?_, ?_, fun _ _ _ => swapProvider_inverts⟩
  · intro h
    have hread := h.answers (n := 2) rfl (by decide) [[2, 0, 0, 0, 2, 123, 125]] (by decide) 1
    have hok := congrArg (List.map Except.isOk) hread
    revert hok
    decide
  · intro h
    have hread := h.answers (n := 2) rfl (by decide)
      [encodeGrpcWebTrailers (grpcTrailerBlock .std none binaryTrailers)] (by decide) 1
    have hok := congrArg (List.map Except.isOk) hread
    revert hok
    decide
  · intro h
    have hread := h.answers (n := 3) rfl (by decide) [[1, 0, 0, 0, 0]] (by decide) 1
    have hmsg := congrArg (List.map Except.toOption) hread
    revert hmsg
    decide

/-- A stream of one message. -/
theorem oneMessage_roundTrips :
    RoundTrips .std (byteReader .grpcWeb none .new 4096) [.pending, .item (.segmented [[7], [9]])]
      ⟨[(xNote, .letters 3)]⟩ none .disabled := by
  have hnone : Understands (byteReader .grpcWeb none .new 4096) none := by
    intro reg encoding h
    cases h
  refine response_roundTrips .std rfl hnone (by decide) ?_ ?_ ?_
  · intro body hbody
    obtain rfl : body = .segmented [[7], [9]] := by simpa using hbody
    refine ⟨by decide, ?_⟩
    intro e he
    obtain rfl : (⟨flags.DATA, [7, 9]⟩ : Envelope) = e := Except.ok.inj he
    decide
  · exact (by decide : BlockRoom .std none ⟨[(xNote, .letters 3)]⟩)
  · exact ⟨by decide, by decide⟩

end ConnectRpc
