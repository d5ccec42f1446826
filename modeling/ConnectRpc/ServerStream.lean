import ConnectRpc.Assembler
import ConnectRpc.ClientStatus
import ConnectRpc.Lib.Poll

/-!
# The response stream of a client

`ServerStream` reads a response body message by message. The body arrives in frames
cut anywhere; the stream ends by an envelope, by HTTP trailers, by the end of the
body or by an error, and then answers the same for ever.

What a stream reads is fixed by its setup and the body (`reading`): the envelopes
that the contiguous decoder finds in the data, each turned into a message up to the
first that ends the stream, and the end. `message_produces` says that the calls of
`message` answer exactly that, whatever the frames.
-/

namespace ConnectRpc

open Lib

variable (cr : Crates) {α : Type}

/-! ## The end of a stream -/

/-- Why a stream ended, and the trailers that came with the end. -/
structure StreamEnd where
  /-- the error, or none for a clean end -/
  outcome : Option ConnectError
  /-- the trailers -/
  trailers : Option HeaderMap

namespace StreamEnd

/-- An end by an error that came before any trailers. -/
def ofError (e : ConnectError) : StreamEnd := ⟨some e, none⟩

/-- Give an error the metadata of the response (`attach_metadata`). -/
def attachMetadata (s : StreamEnd) (headers : HeaderMap) : StreamEnd :=
  { s with outcome := s.outcome.map fun e =>
    let e := e.setResponseHeaders headers
    match s.trailers with
    | none => e
    | some trailers => e.setTrailers (errorMetadataFromTrailers trailers) }

/-- The answer of a stream that has ended. -/
def replay (s : StreamEnd) : Except ConnectError (Option α) :=
  match s.outcome with
  | none => .ok none
  | some e => .error e

end StreamEnd

/-! ## The stream -/

/-- What a stream is set up with. -/
structure StreamSetup (α : Type) where
  /-- the response headers -/
  headers : HeaderMap
  /-- the encoding of compressed messages -/
  encoding : Option String
  /-- the compression providers -/
  compression : CompressionRegistry
  /-- decode a message, with the codec and the limits of the call -/
  decode : Bytes → Except ConnectError α
  /-- the protocol -/
  protocol : Protocol
  /-- the limit on a message -/
  maxMessageSize : ℕ
  /-- whether the deadline has passed at the end of the stream, the one moment the
  clock is asked -/
  deadlineElapsed : Bool

/-- A response stream. -/
structure ServerStream (α : Type) extends StreamSetup α where
  /-- the body -/
  body : List BodyEvent
  /-- what is left of the current data frame -/
  frame : Bytes
  /-- the envelope decoder -/
  assembler : EnvelopeAssembler
  /-- the end, once reached -/
  ended : Option StreamEnd
  /-- whether any data has arrived -/
  sawBodyData : Bool

/-- A reader of undecoded messages. -/
def byteReader (protocol : Protocol) (encoding : Option String) (compression : CompressionRegistry)
    (maxMessageSize : ℕ) : StreamSetup Bytes where
  headers := .empty
  encoding := encoding
  compression := compression
  decode := .ok
  protocol := protocol
  maxMessageSize := maxMessageSize
  deadlineElapsed := false

/-- `response_assembler`. -/
def responseAssembler (protocol : Protocol) (maxMessageSize : ℕ) : EnvelopeAssembler :=
  match protocol with
  | .grpcWeb =>
    (EnvelopeAssembler.new maxMessageSize).withGrpcWebTrailerLimit MAX_GRPC_WEB_TRAILER_SIZE
  | _ => .new maxMessageSize

namespace StreamSetup

variable (s : StreamSetup α)

/-- The limits of the envelope decoder. -/
def limits : LimitOf :=
  EnvelopeAssembler.limitOf s.maxMessageSize
    (match s.protocol with
    | .grpcWeb => some MAX_GRPC_WEB_TRAILER_SIZE
    | _ => none)

/-- `classify_grpc_end`. -/
def classifyGrpcEnd (sawBodyData : Bool) (trailers : Option HeaderMap) : StreamEnd :=
  let hasStatus := fun h : HeaderMap => h.contains hdr.grpcStatus
  let outcome :=
    match trailers.bind (parseGrpcErrorFromTrailers cr) with
    | some err => some err
    | none =>
      if trailers.any hasStatus || (!sawBodyData && hasStatus s.headers) then none
      else if s.deadlineElapsed then some (.deadlineExceeded "request timeout")
      else if trailers.isSome then
        some (.new .unknown "protocol error: grpc-status missing from trailers")
      else some (.internal "stream ended without grpc-status")
  ⟨outcome, trailers⟩

/-- `decompress_envelope`. -/
def decompressEnvelope (e : Envelope) : Except ConnectError Bytes :=
  if e.isCompressed then
    match s.encoding with
    | none =>
      .error (.internal "received compressed message without content-encoding header")
    | some encoding =>
      (s.compression.decompressWithLimit encoding e.data s.maxMessageSize).mapError
        mapResponseDecompressionError
  else .ok e.data

/-- `process_end_stream`. -/
def processEndStream (e : Envelope) : StreamEnd :=
  match s.decompressEnvelope e with
  | .error err => .ofError err
  | .ok data =>
    match parseConnectEndStream cr data with
    | .error err => .ofError err
    | .ok endStream =>
      ⟨endStream.error.map endStreamErrorToConnectError,
        endStream.metadata.map (appendMetadataCapped cr .empty)⟩

/-- Whether an envelope is a trailer frame of gRPC-Web. -/
def isTrailerFrame (e : Envelope) : Bool :=
  s.protocol = .grpcWeb && e.isGrpcWebTrailer

/-- The trailers in a trailer frame, if they can be read. -/
def frameTrailers (e : Envelope) : Option HeaderMap :=
  parseGrpcWebTrailerPayload cr e.isCompressed e.data
    (s.encoding.map fun encoding => (s.compression, encoding))

/-- What an envelope is: a message, or the end of the stream. -/
def dispatch (sawBodyData : Bool) (e : Envelope) : Except StreamEnd α :=
  if s.isTrailerFrame e then .error (s.classifyGrpcEnd cr sawBodyData (s.frameTrailers cr e))
  else if e.isEndStream then .error (s.processEndStream cr e)
  else ((s.decompressEnvelope e).bind s.decode).mapError .ofError

end StreamSetup

namespace ServerStream

/-- Feed the current frame to the envelope decoder: an envelope is dispatched, and
once the frame is used up `more` goes on. -/
def feedThen (s : ServerStream α) (more : ServerStream α → Except StreamEnd α × ServerStream α) :
    Except StreamEnd α × ServerStream α :=
  match s.assembler.feed s.frame with
  | .error e => (.error (.ofError e), s)
  | .ok (some envelope, frame, assembler) =>
    (s.dispatch cr s.sawBodyData envelope, { s with frame := frame, assembler := assembler })
  | .ok (none, frame, assembler) => more { s with frame := frame, assembler := assembler }

/-- Poll the body and go on with what it yields; trailers are skipped on Connect. -/
def pollBody : List BodyEvent → ServerStream α → Except StreamEnd α × ServerStream α
  | [], s =>
    (.error (if s.protocol = .connect then
        .ofError (.internal "Connect streaming response ended without END_STREAM envelope")
      else s.classifyGrpcEnd cr s.sawBodyData none), { s with body := [] })
  | .data d :: body, s =>
    feedThen cr { s with
      body := body, frame := d, sawBodyData := s.sawBodyData || !d.isEmpty } (pollBody body)
  | .trailers trailers :: body, s =>
    if s.protocol = .connect then pollBody body s
    else (.error (s.classifyGrpcEnd cr s.sawBodyData (some trailers)), { s with body := body })
  | .failed e :: body, s =>
    (.error (.ofError (classifyBodyReadError "failed to read response body" e s.deadlineElapsed)),
      { s with body := body })
  | .deadline :: body, s => (.error (.ofError deadlineFired), { s with body := body })

/-- `next_message_or_end`. -/
def nextMessageOrEnd (s : ServerStream α) : Except StreamEnd α × ServerStream α :=
  feedThen cr s fun s => pollBody cr s.body s

/-- `message`. -/
def message (s : ServerStream α) : Except ConnectError (Option α) × ServerStream α :=
  match s.ended with
  | some e => (e.replay, s)
  | none =>
    match s.nextMessageOrEnd cr with
    | (.ok msg, s) => (.ok (some msg), s)
    | (.error e, s) =>
      ((e.attachMetadata s.headers).replay,
        { s with ended := some (e.attachMetadata s.headers) })

/-- A call of `message` as a poll. -/
def call (s : ServerStream α) : Poll (Except ConnectError (Option α)) × ServerStream α :=
  (.ready (s.message cr).1, (s.message cr).2)

/-- The answers of `n` calls of `message`. -/
def answers (n : ℕ) (s : ServerStream α) : List (Except ConnectError (Option α)) :=
  ready (polls (call cr) n s)

end ServerStream

/-- Messages as answers of `message`. -/
def messageResults (msgs : List α) : List (Except ConnectError (Option α)) :=
  msgs.map fun msg => .ok (some msg)

theorem messageResults_append (msgs rest : List α) :
    messageResults (msgs ++ rest) = messageResults msgs ++ messageResults rest :=
  List.map_append

theorem length_messageResults (msgs : List α) : (messageResults msgs).length = msgs.length := by
  rw [messageResults, List.length_map]

/-! ## What a body says -/

/-- How reading a body stops. -/
inductive BodyEnd : Type where
  /-- at its end -/
  | eof
  /-- at the trailers -/
  | trailers : HeaderMap → BodyEnd
  /-- by a failure of the transport -/
  | failed : String → BodyEnd
  /-- by the deadline -/
  | deadline

/-- The data of a body up to where reading it stops. -/
def bodyRest (protocol : Protocol) : List BodyEvent → Bytes × BodyEnd
  | [] => ([], .eof)
  | .data d :: body => (d ++ (bodyRest protocol body).1, (bodyRest protocol body).2)
  | .trailers trailers :: body =>
    if protocol = .connect then bodyRest protocol body else ([], .trailers trailers)
  | .failed e :: _ => ([], .failed e)
  | .deadline :: _ => ([], .deadline)

/-- Data in front of a body. -/
theorem bodyRest_datas (protocol : Protocol) (datas : List Bytes) (body : List BodyEvent) :
    bodyRest protocol (datas.map .data ++ body) =
      (datas.flatten ++ (bodyRest protocol body).1, (bodyRest protocol body).2) := by
  induction datas with
  | nil => rfl
  | cons b datas ih =>
    rw [List.map_cons, List.cons_append, bodyRest, ih, List.flatten_cons, List.append_assoc]

namespace StreamSetup

variable (s : StreamSetup α)

/-- The end of a stream whose body stops. -/
def endOfBody (sawBodyData : Bool) : BodyEnd → StreamEnd
  | .eof =>
    if s.protocol = .connect then
      .ofError (.internal "Connect streaming response ended without END_STREAM envelope")
    else s.classifyGrpcEnd cr sawBodyData none
  | .trailers trailers => s.classifyGrpcEnd cr sawBodyData (some trailers)
  | .failed e =>
    .ofError (classifyBodyReadError "failed to read response body" e s.deadlineElapsed)
  | .deadline => .ofError deadlineFired

/-- The end of a stream that is left without a complete envelope. -/
def endOf (sawBodyData : Bool) (stop : Stop UInt8 ConnectError) (bodyEnd : BodyEnd) : StreamEnd :=
  match stop with
  | .error e => .ofError e
  | .rest _ => s.endOfBody cr sawBodyData bodyEnd

/-- The messages and the end that envelopes, how decoding them stops and how the
body stops come to. -/
def plan (sawBodyData : Bool) (stop : Stop UInt8 ConnectError) (bodyEnd : BodyEnd) :
    List Envelope → List α × StreamEnd
  | [] => ([], s.endOf cr sawBodyData stop bodyEnd)
  | e :: es =>
    match s.dispatch cr sawBodyData e with
    | .error ended => ([], ended)
    | .ok msg => (msg :: (plan sawBodyData stop bodyEnd es).1, (plan sawBodyData stop bodyEnd es).2)

/-- The envelopes in some data, and how decoding stops. -/
def decoded (b : Bytes) : Parsed UInt8 Envelope ConnectError :=
  parse (decodeWith s.limits) b

/-- What a stream reads from data and the end of a body. -/
def readingOf (sawBodyData : Bool) (b : Bytes) (bodyEnd : BodyEnd) : List α × StreamEnd :=
  s.plan cr sawBodyData (s.decoded b).stop bodyEnd (s.decoded b).items

theorem readingOf_error {sawBodyData : Bool} {b : Bytes} {bodyEnd : BodyEnd} {e : ConnectError}
    (h : decodeWith s.limits b = .error e) :
    s.readingOf cr sawBodyData b bodyEnd = ([], .ofError e) := by
  rw [readingOf, decoded, parse_error h]
  rfl

theorem readingOf_none {sawBodyData : Bool} {b : Bytes} {bodyEnd : BodyEnd}
    (h : decodeWith s.limits b = .ok none) :
    s.readingOf cr sawBodyData b bodyEnd = ([], s.endOfBody cr sawBodyData bodyEnd) := by
  rw [readingOf, decoded, parse_none h]
  rfl

/-- An envelope in front is dispatched, and after a message the rest is read. -/
theorem readingOf_item (sawBodyData : Bool) {b r : Bytes} (bodyEnd : BodyEnd) {e : Envelope}
    (h : decodeWith s.limits b = .ok (some (e, r))) :
    s.readingOf cr sawBodyData b bodyEnd =
      match s.dispatch cr sawBodyData e with
      | .error ended => ([], ended)
      | .ok msg => (msg :: (s.readingOf cr sawBodyData r bodyEnd).1,
          (s.readingOf cr sawBodyData r bodyEnd).2) := by
  rw [readingOf, decoded, (decodeWith_stable s.limits).parse_item h]
  rfl

/-- What a fresh stream reads from a body. -/
def reading (body : List BodyEvent) : List α × StreamEnd :=
  s.readingOf cr (!(bodyRest s.protocol body).1.isEmpty) (bodyRest s.protocol body).1
    (bodyRest s.protocol body).2

end StreamSetup

/-! ## One call -/

namespace ServerStream

/-- The bytes a stream has taken or will take and has not yet turned into an
envelope. -/
def unread (s : ServerStream α) : Bytes :=
  s.assembler.held ++ (s.frame ++ (bodyRest s.protocol s.body).1)

/-- How the body of a stream stops. -/
def bodyEnd (s : ServerStream α) : BodyEnd :=
  (bodyRest s.protocol s.body).2

/-- A stream that has not ended. -/
structure Live (s : ServerStream α) : Prop where
  /-- no end is recorded -/
  ended : s.ended = none
  /-- the decoder is between two calls -/
  valid : s.assembler.Valid s.limits
  /-- what is held has been seen -/
  saw : s.assembler.held ++ s.frame ≠ [] → s.sawBodyData = true

/-- What one call finds in data `b` and the end of the body: with no envelope, the
end; with one, what it is dispatched to, and a live stream with the rest. -/
def Reads (t : StreamSetup α) (saw : Bool) (b : Bytes) (bodyEnd : BodyEnd)
    (r : Except StreamEnd α × ServerStream α) : Prop :=
  r.2.toStreamSetup = t ∧
    match (t.decoded b).items with
    | [] => r.1 = .error (t.endOf cr saw (t.decoded b).stop bodyEnd)
    | e :: es => r.1 = t.dispatch cr saw e ∧ r.2.Live ∧ r.2.sawBodyData = true ∧
        t.decoded r.2.unread = ⟨es, (t.decoded b).stop⟩ ∧ r.2.bodyEnd = bodyEnd

/-- Feeding the current frame: the decoder answers as the contiguous one does on
what is held and the frame, and later data does not change its answer. -/
theorem feedThen_reads {s : ServerStream α}
    {more : ServerStream α → Except StreamEnd α × ServerStream α} (hs : s.Live)
    (hmore : ∀ a, a.Valid s.limits → a.held = s.assembler.held ++ s.frame →
      decodeWith s.limits a.held = .ok none →
      Reads cr s.toStreamSetup
        (s.sawBodyData || !(a.held ++ (bodyRest s.protocol s.body).1).isEmpty)
        (a.held ++ (bodyRest s.protocol s.body).1) s.bodyEnd
        (more { s with frame := [], assembler := a })) :
    Reads cr s.toStreamSetup (s.sawBodyData || !s.unread.isEmpty) s.unread s.bodyEnd
      (feedThen cr s more) := by
  have hstable := decodeWith_stable s.limits
  have hrefines := EnvelopeAssembler.feed_refines s.limits
  rw [unread, ← List.append_assoc]
  rcases hd : decodeWith s.limits (s.assembler.held ++ s.frame) with e | _ | ⟨env, r⟩
  · rw [feedThen, hrefines.error hs.valid hd]
    refine ⟨rfl, ?_⟩
    rw [StreamSetup.decoded, parse_error (hstable.error_append _ hd)]
    rfl
  · obtain ⟨a, hfeed, ha, hheld⟩ := hrefines.need hs.valid hd
    have hthen := hmore a ha hheld (by rw [hheld, hd])
    rw [hheld] at hthen
    rw [feedThen, hfeed]
    exact hthen
  · obtain ⟨a, hfeed, ha, hheld, -⟩ := hrefines.item hs.valid hd
    have hne : s.assembler.held ++ s.frame ≠ [] := by
      intro h0
      have hshort := hstable.shorter hd
      rw [h0] at hshort
      cases hshort
    have hsaw := hs.saw hne
    rw [feedThen, hfeed]
    refine ⟨rfl, ?_⟩
    rw [StreamSetup.decoded, hstable.parse_item (hstable.item_append _ hd), hsaw]
    refine ⟨rfl, ⟨hs.ended, ha, fun _ => rfl⟩, rfl, ?_, ?_⟩
    · simp only [unread, hheld]
      rfl
    · rfl

/-- A body that stops while no envelope can be completed. -/
theorem stop_reads {s s' : ServerStream α} {bodyEnd : BodyEnd} (hs : s.Live)
    (hnone : decodeWith s.limits s.assembler.held = .ok none)
    (hsetup : s'.toStreamSetup = s.toStreamSetup) :
    Reads cr s.toStreamSetup (s.sawBodyData || !(s.assembler.held ++ []).isEmpty)
      (s.assembler.held ++ []) bodyEnd
      (.error (s.endOfBody cr s.sawBodyData bodyEnd), s') := by
  have hsaw : (s.sawBodyData || !(s.assembler.held ++ []).isEmpty) = s.sawBodyData := by
    by_cases h0 : s.assembler.held = []
    · simp [h0]
    · have := hs.saw (by simp [h0])
      simp [this]
  refine ⟨hsetup, ?_⟩
  rw [hsaw, List.append_nil, StreamSetup.decoded, parse_none hnone]
  rfl

/-- Polling the body. The induction is on the body; what the decoder keeps from the
frames before does not complete an envelope. -/
theorem pollBody_reads : ∀ (body : List BodyEvent) (s : ServerStream α), s.Live → s.frame = [] →
    decodeWith s.limits s.assembler.held = .ok none →
      Reads cr s.toStreamSetup
        (s.sawBodyData || !(s.assembler.held ++ (bodyRest s.protocol body).1).isEmpty)
        (s.assembler.held ++ (bodyRest s.protocol body).1) (bodyRest s.protocol body).2
        (pollBody cr body s) := by
  intro body
  induction body with
  | nil =>
    intro s hs hframe hnone
    exact stop_reads cr hs hnone rfl
  | cons ev body ih =>
    intro s hs hframe hnone
    cases ev with
    | data d =>
      have hlive : ServerStream.Live { s with
          body := body, frame := d, sawBodyData := s.sawBodyData || !d.isEmpty } := by
        refine ⟨hs.ended, hs.valid, fun hne => ?_⟩
        by_cases hd : d = []
        · have := hs.saw (by simpa [hd, hframe] using hne)
          simp [this]
        · simp [hd]
      have hfeed := feedThen_reads cr hlive fun a ha hheld hnone' => ih { s with
        body := body, frame := [], assembler := a, sawBodyData := s.sawBodyData || !d.isEmpty }
        ⟨hs.ended, ha, fun hne => hlive.saw (by simpa [hheld] using hne)⟩ rfl hnone'
      have hsaw : (s.sawBodyData || !d.isEmpty ||
          !(s.assembler.held ++ (d ++ (bodyRest s.protocol body).1)).isEmpty) =
            (s.sawBodyData ||
              !(s.assembler.held ++ (d ++ (bodyRest s.protocol body).1)).isEmpty) := by
        cases d <;> simp
      simp only [unread, bodyEnd, hsaw] at hfeed
      exact hfeed
    | trailers trailers =>
      rw [pollBody, bodyRest]
      by_cases hp : s.protocol = .connect
      · rw [if_pos hp, if_pos hp]
        exact ih s hs hframe hnone
      · rw [if_neg hp, if_neg hp]
        exact stop_reads cr hs hnone rfl
    | failed e => exact stop_reads cr hs hnone rfl
    | deadline => exact stop_reads cr hs hnone rfl

/-- **One call finds what the unread data says.** -/
theorem nextMessageOrEnd_reads {s : ServerStream α} (hs : s.Live) :
    Reads cr s.toStreamSetup (s.sawBodyData || !s.unread.isEmpty) s.unread s.bodyEnd
      (s.nextMessageOrEnd cr) := by
  refine feedThen_reads cr hs fun a ha hheld hnone => ?_
  exact pollBody_reads cr s.body { s with frame := [], assembler := a }
    ⟨hs.ended, ha, fun hne => hs.saw (by simpa [hheld] using hne)⟩ rfl hnone

/-! ## All calls -/

/-- What a live stream has yet to read. -/
def toRead (s : ServerStream α) : List α × StreamEnd :=
  s.readingOf cr (s.sawBodyData || !s.unread.isEmpty) s.unread s.bodyEnd

/-- The answers for messages and then for the end, over and over. -/
def answersOf (t : StreamSetup α) (r : List α × StreamEnd) :
    Stream' (Except ConnectError (Option α)) :=
  (r.1.map fun msg => .ok (some msg)) ++ₛ Stream'.const (r.2.attachMetadata t.headers).replay

/-- What a stream will answer. -/
def allAnswers (s : ServerStream α) : Stream' (Except ConnectError (Option α)) :=
  match s.ended with
  | some e => Stream'.const e.replay
  | none => answersOf s.toStreamSetup (s.toRead cr)

/-- A stream that is live or has ended. -/
def Sound (s : ServerStream α) : Prop :=
  s.Live ∨ ∃ e, s.ended = some e

/-- With no data at all there is no envelope. -/
theorem decoded_nil (t : StreamSetup α) : t.decoded [] = ⟨[], .rest []⟩ :=
  parse_none (decodeWith_short (by decide))

/-- Reading a live stream on: the next message, and the stream is live; or the end. -/
theorem Reads.live {s s' : ServerStream α} {answer : Except StreamEnd α}
    (h : Reads cr s.toStreamSetup (s.sawBodyData || !s.unread.isEmpty) s.unread s.bodyEnd
      (answer, s')) :
    s'.toStreamSetup = s.toStreamSetup ∧
      ((∃ msg msgs e, s.toRead cr = (msg :: msgs, e) ∧ answer = .ok msg ∧ s'.Live ∧
          s'.toRead cr = (msgs, e)) ∨
        ∃ e, s.toRead cr = ([], e) ∧ answer = .error e) := by
  obtain ⟨hsetup, hreads⟩ := h
  refine ⟨hsetup, ?_⟩
  simp only [toRead, StreamSetup.readingOf]
  simp only at hsetup
  rcases hitems : (s.decoded s.unread).items with _ | ⟨env, envs⟩
  · -- nothing to dispatch: the end of the data
    rw [hitems] at hreads
    exact .inr ⟨_, rfl, hreads⟩
  · rw [hitems] at hreads
    obtain ⟨hanswer, hlive, hsaw', hdecoded, hend⟩ := hreads
    have hsaw : (s.sawBodyData || !s.unread.isEmpty) = true := by
      rcases hu : s.unread with _ | ⟨b, bs⟩
      · rw [hu, decoded_nil] at hitems
        cases hitems
      · simp
    simp only at hanswer hlive hsaw' hdecoded hend
    rw [hsaw] at hanswer ⊢
    rcases hd : StreamSetup.dispatch cr s.toStreamSetup true env with e | msg
    · rw [hd] at hanswer
      refine .inr ⟨e, ?_, hanswer⟩
      rw [StreamSetup.plan, hd]
    · rw [hd] at hanswer
      refine .inl ⟨msg, (s.plan cr true (s.decoded s.unread).stop s.bodyEnd envs).1,
        (s.plan cr true (s.decoded s.unread).stop s.bodyEnd envs).2, ?_, hanswer, hlive, ?_⟩
      · rw [StreamSetup.plan, hd]
      · simp only [hsetup, hsaw', hdecoded, hend, Bool.true_or]

/-- One call on a live stream: the next message, and the stream is live; or the
end. -/
theorem message_live {s : ServerStream α} (hs : s.Live) :
    (∃ msg msgs e, s.toRead cr = (msg :: msgs, e) ∧ (s.message cr).1 = .ok (some msg) ∧
      (s.message cr).2.Live ∧ (s.message cr).2.toStreamSetup = s.toStreamSetup ∧
      (s.message cr).2.toRead cr = (msgs, e)) ∨
    ∃ e, s.toRead cr = ([], e) ∧ (s.message cr).1 = (e.attachMetadata s.headers).replay ∧
      (s.message cr).2.ended = some (e.attachMetadata s.headers) := by
  have hreads := nextMessageOrEnd_reads cr hs
  simp only [message, hs.ended]
  revert hreads
  generalize s.nextMessageOrEnd cr = r
  obtain ⟨answer, s'⟩ := r
  intro hreads
  obtain ⟨hsetup, hnext⟩ := hreads.live
  rcases hnext with ⟨msg, msgs, e, hread, hanswer, hlive, hread'⟩ | ⟨e, hread, hanswer⟩
  · refine .inl ⟨msg, msgs, e, hread, ?_⟩
    rw [hanswer]
    exact ⟨rfl, hlive, hsetup, hread'⟩
  · refine .inr ⟨e, hread, ?_⟩
    rw [hanswer]
    exact ⟨by simp only [hsetup], by simp only [hsetup]⟩

/-- A call on a stream that has ended answers the end and changes nothing. -/
theorem message_ended {s : ServerStream α} {e : StreamEnd} (h : s.ended = some e) :
    s.message cr = (e.replay, s) := by
  rw [message, h]

/-- **The calls of `message`**: each takes its answer off the front of what the
stream stands for. -/
theorem message_produces : Produces (call (α := α) cr) Sound (allAnswers cr) (fun _ => 0) := by
  refine ⟨?_, ?_, ?_⟩
  · rintro s (hs | ⟨e, he⟩)
    · rcases message_live cr hs with ⟨_, _, _, _, _, hlive, _⟩ | ⟨e, _, _, he⟩
      · exact .inl hlive
      · exact .inr ⟨_, he⟩
    · exact .inr ⟨e, by simp only [call, message_ended cr he, he]⟩
  · intro s _ hp
    cases hp
  · rintro s b (hs | ⟨e, he⟩) hb
    · obtain rfl : (s.message cr).1 = b := by
        cases hb
        rfl
      refine ⟨?_, Nat.le_refl _⟩
      rcases message_live cr hs with ⟨msg, msgs, e, hread, hmsg, hlive, hsetup, hread'⟩ |
        ⟨e, hread, hmsg, he⟩
      · simp only [allAnswers, hs.ended, call, hlive.ended, hread, hread', hmsg, hsetup]
        rfl
      · simp only [allAnswers, hs.ended, call, hread, hmsg, he]
        rw [answersOf, List.map_nil, Stream'.nil_append_stream, ← Stream'.const_eq]
    · refine ⟨?_, Nat.le_refl _⟩
      obtain rfl : e.replay = b := by
        simp only [call, message_ended cr he] at hb
        cases hb
        rfl
      simp only [allAnswers, call, message_ended cr he, he]
      exact Stream'.const_eq _

/-- The calls of `message` on a stream, as many as one likes. -/
theorem answers_eq {s : ServerStream α} (hs : s.Live) (n : ℕ) :
    s.answers cr n = (answersOf s.toStreamSetup (s.toRead cr)).take n := by
  have hsound : s.Sound := .inl hs
  have hinit := (message_produces cr).ready_eq n hsound
  -- a call never answers "not yet"
  have henough : n ≤ 0 + (ready (polls (call cr) n s)).length :=
    (message_produces cr).enough n hsound
  have hmost := length_ready_polls_le (call cr) n s
  have hlen : (ready (polls (call cr) n s)).length = n := by omega
  rw [hlen] at hinit
  rw [answers, hinit, allAnswers, hs.ended]

/-- A clean end is answered exactly when the stream ends cleanly. -/
theorem clean_answer_iff {s : ServerStream α} (hs : s.Live) :
    (∃ n, .ok none ∈ s.answers cr n) ↔ (s.toRead cr).2.outcome = none := by
  rcases hread : s.toRead cr with ⟨msgs, e⟩
  have htake : ∀ n, s.answers cr n =
      ((msgs.map fun msg => .ok (some msg)) ++ₛ
        Stream'.const (e.attachMetadata s.headers).replay).take n := by
    intro n
    rw [answers_eq cr hs, hread]
    rfl
  have hreplay : (e.attachMetadata s.headers).replay = (.ok none : Except ConnectError (Option α)) ↔
      e.outcome = none := by
    rcases e with ⟨_ | err, trailers⟩
    · simp [StreamEnd.attachMetadata, StreamEnd.replay]
    · simp [StreamEnd.attachMetadata, StreamEnd.replay]
  constructor
  · rintro ⟨n, hn⟩
    rw [htake] at hn
    by_contra hne
    have hall : ∀ (l : List α) (n : ℕ), .ok none ∉
        ((l.map fun msg => (.ok (some msg) : Except ConnectError (Option α))) ++ₛ
          Stream'.const (e.attachMetadata s.headers).replay).take n := by
      intro l
      induction l with
      | nil =>
        intro n
        induction n with
        | zero => simp
        | succ n ih =>
          rw [List.map_nil, Stream'.nil_append_stream] at ih ⊢
          rw [Stream'.const_eq, Stream'.take_succ_cons, List.mem_cons, not_or]
          exact ⟨fun h => hne (hreplay.mp h.symm), ih⟩
      | cons m l ih =>
        intro n
        cases n with
        | zero => simp
        | succ n =>
          rw [List.map_cons, Stream'.cons_append_stream, Stream'.take_succ_cons, List.mem_cons,
            not_or]
          exact ⟨by simp, ih n⟩
    exact hall msgs n hn
  · intro hclean
    refine ⟨msgs.length + 1, ?_⟩
    rw [htake, hreplay.mpr hclean]
    have hmem : ∀ l : List α, .ok none ∈
        ((l.map fun msg => (.ok (some msg) : Except ConnectError (Option α))) ++ₛ
          Stream'.const (.ok none)).take (l.length + 1) := by
      intro l
      induction l with
      | nil =>
        rw [List.map_nil, Stream'.nil_append_stream, Stream'.const_eq]
        simp
      | cons m l ih =>
        rw [List.map_cons, Stream'.cons_append_stream, List.length_cons, Stream'.take_succ_cons]
        exact List.mem_cons_of_mem _ ih
    exact hmem msgs

/-- The end is recorded with the first call that does not answer a message, and
stays. -/
theorem ended_after (n : ℕ) : ∀ {s : ServerStream α} {msgs : List α} {e : StreamEnd}, s.Live →
    s.toRead cr = (msgs, e) →
      (after (call cr) n s).ended =
        if n ≤ msgs.length then none else some (e.attachMetadata s.headers) := by
  have hstay : ∀ (n : ℕ) {s : ServerStream α} {e : StreamEnd}, s.ended = some e →
      (after (call cr) n s).ended = some e := by
    intro n
    induction n with
    | zero => exact fun h => h
    | succ n ih =>
      intro s e h
      rw [after]
      refine ih ?_
      rw [call, message_ended cr h]
      exact h
  induction n with
  | zero =>
    intro s msgs e hs _
    rw [if_pos (Nat.zero_le _)]
    exact hs.ended
  | succ n ih =>
    intro s msgs e hs hread
    have hcall : (call cr s).2 = (s.message cr).2 := rfl
    rw [after, hcall]
    rcases message_live cr hs with ⟨msg, msgs', e', heq, -, hlive, hsetup, hread'⟩ |
      ⟨e', heq, -, hended⟩
    · rw [hread] at heq
      obtain ⟨rfl, rfl⟩ := Prod.mk.inj heq
      rw [ih hlive hread', hsetup, List.length_cons]
      simp only [Nat.add_le_add_iff_right]
    · rw [hread] at heq
      obtain ⟨rfl, rfl⟩ := Prod.mk.inj heq
      rw [hstay n hended, List.length_nil, if_neg (Nat.not_succ_le_zero n)]

/-- The whole run of a stream: it answers messages, then the end for ever, and has
recorded that end. -/
structure Run (s : ServerStream α) (msgs : List α) (e : StreamEnd) : Prop where
  /-- the answers -/
  answers : ∀ k, s.answers cr k = (messageResults msgs ++ List.replicate k e.replay).take k
  /-- the record -/
  ended : (after (call cr) (msgs.length + 1) s).ended = some e

/-- **A live stream runs as it has yet to read.** -/
theorem run_iff {s : ServerStream α} (hs : s.Live) {msgs : List α} {e : StreamEnd} :
    s.Run cr msgs e ↔ ∃ e', s.toRead cr = (msgs, e') ∧ e = e'.attachMetadata s.headers := by
  rcases hread : s.toRead cr with ⟨msgs', e'⟩
  have hanswers : ∀ k, s.answers cr k = (messageResults msgs' ++
      List.replicate k (e'.attachMetadata s.headers).replay).take k := by
    intro k
    rw [answers_eq cr hs, hread, answersOf, take_append_const]
    rfl
  have hended := fun n => ended_after cr n hs hread
  constructor
  · intro h
    have hrecord := hended (msgs.length + 1)
    rw [h.ended] at hrecord
    have hle : ¬ msgs.length + 1 ≤ msgs'.length := by
      intro hle
      rw [if_pos hle] at hrecord
      cases hrecord
    rw [if_neg hle] at hrecord
    -- the first `msgs.length` answers are messages on both sides
    have hsame := hanswers msgs.length
    rw [h.answers, List.take_left' (length_messageResults msgs)] at hsame
    have hlen : msgs.length = msgs'.length := by
      by_contra hne
      have hlt : msgs'.length < msgs.length := by omega
      have hget := congrArg (fun l => l[msgs'.length]?) hsame
      simp only [messageResults, List.getElem?_map, List.getElem?_eq_getElem hlt, Option.map_some,
        List.getElem?_take_of_lt hlt] at hget
      rw [List.getElem?_append_right (by rw [List.length_map]), List.length_map, Nat.sub_self,
        List.getElem?_replicate, if_pos (by omega)] at hget
      have hreplay := Option.some.inj hget
      rcases ho : (e'.attachMetadata s.headers).outcome with _ | err
      · rw [StreamEnd.replay, ho] at hreplay
        cases hreplay
      · rw [StreamEnd.replay, ho] at hreplay
        cases hreplay
    have hlen' : (messageResults msgs').length = msgs.length := by
      rw [length_messageResults, hlen]
    rw [List.take_left' hlen'] at hsame
    have hmsgs : msgs = msgs' := by
      refine List.map_injective_iff.mpr ?_ hsame
      intro a b hab
      exact Option.some.inj (Except.ok.inj hab)
    exact ⟨e', by rw [hmsgs], Option.some.inj hrecord⟩
  · rintro ⟨_, heq, rfl⟩
    obtain ⟨rfl, rfl⟩ := Prod.mk.inj heq
    refine ⟨hanswers, ?_⟩
    rw [hended, if_neg (Nat.not_succ_le_self _)]

end ServerStream

/-! ## Making a stream -/

/-- The error in the body of a Connect response that is not a success. -/
def connectErrorBody (compression : CompressionRegistry) (encoding : Option String)
    (maxSize : ℕ) (body : Bytes) : Option ClientError :=
  let body :=
    match encoding with
    | none => some body
    | some encoding => (compression.decompressWithLimit encoding body maxSize).toOption
  body.bind fun body => (cr.jsonRead connectErrorResponse body).toOption

/-- An error record as an error; the HTTP status stands in for a code that is
missing or not known. -/
def ClientError.toConnectError (e : ClientError) (status : StatusCode) : ConnectError :=
  { ConnectError.new ((e.code.bind ErrorCode.fromStr).getD (httpStatusToErrorCode status))
      (e.message.getD "") with
    details := e.details }

/-- What a client is set up with for a call. -/
structure CallConfig (α : Type) where
  /-- the protocol -/
  protocol : Protocol
  /-- the compression providers -/
  compression : CompressionRegistry
  /-- the codec -/
  codecFormat : CodecFormat
  /-- the limit on a message, when one is set -/
  maxMessageSize : Option ℕ
  /-- decode a message -/
  decode : Bytes → Except ConnectError α

namespace CallConfig

variable (c : CallConfig α)

/-- The limit on a message. -/
def messageLimit : ℕ :=
  c.maxMessageSize.getD DEFAULT_MAX_MESSAGE_SIZE

/-- The setup of the stream of a response. -/
def setup (headers : HeaderMap) (late : Bool) : StreamSetup α where
  headers := headers
  encoding := (headers.get c.protocol.contentEncodingHeader).bind HeaderValue.toStr
  compression := c.compression
  decode := c.decode
  protocol := c.protocol
  maxMessageSize := c.messageLimit
  deadlineElapsed := late

end CallConfig

/-- A fresh stream. -/
def ServerStream.start (t : StreamSetup α) (body : List BodyEvent) : ServerStream α where
  toStreamSetup := t
  body := body
  frame := []
  assembler := responseAssembler t.protocol t.maxMessageSize
  ended := none
  sawBodyData := false

/-- The gRPC part of `make_server_stream`: the head, then a status in the
headers. -/
def checkGrpcHead (c : CallConfig α) (response : Response (List BodyEvent)) :
    Except ConnectError Unit :=
  match checkGrpcResponseHead response.status response.headers c.protocol c.codecFormat with
  | .error e => .error e
  | .ok _ =>
    match parseGrpcErrorFromTrailers cr response.headers with
    | some err => .error (err.setResponseHeaders response.headers)
    | none => .ok ()

/-- The part of `make_server_stream` for a response that is not a success. -/
def streamStatusError (c : CallConfig α) (response : Response (List BodyEvent)) (late : Bool) :
    ConnectError :=
  if c.protocol = .connect then
    match collectBodyBounded c.messageLimit late [] response.body with
    | .error e => e
    | .ok body =>
      let encoding := (response.headers.get .contentEncoding).bind HeaderValue.toStr
      match connectErrorBody cr c.compression encoding c.messageLimit body with
      | some error => (error.toConnectError response.status).setResponseHeaders response.headers
      | none => httpStatusError response.status response.headers
  else httpStatusError response.status response.headers

/-- `make_server_stream`. -/
def makeServerStream (c : CallConfig α) (response : Response (List BodyEvent)) (late : Bool) :
    Except ConnectError (ServerStream α) :=
  match (if c.protocol = .connect then .ok () else checkGrpcHead cr c response) with
  | .error e => .error e
  | .ok _ =>
    if !response.status.isSuccess then .error (streamStatusError cr c response late)
    else
      match (if c.protocol = .connect then
          validateConnectResponseContentType response.headers c.codecFormat true
        else .ok ()) with
      | .error e => .error e
      | .ok _ => .ok (.start (c.setup response.headers late) response.body)

namespace ServerStream

theorem start_live (t : StreamSetup α) (body : List BodyEvent) : (start t body).Live := by
  refine ⟨rfl, ?_, fun h => ?_⟩
  · simp only [start, StreamSetup.limits, responseAssembler]
    cases t.protocol with
    | grpcWeb => exact EnvelopeAssembler.withGrpcWebTrailerLimit_valid _ _
    | connect => exact EnvelopeAssembler.new_valid _
    | grpc => exact EnvelopeAssembler.new_valid _
  · refine absurd ?_ h
    simp only [start, responseAssembler]
    cases t.protocol <;> rfl

/-- A fresh stream has the whole body to read. -/
theorem toRead_start (t : StreamSetup α) (body : List BodyEvent) :
    (start t body).toRead cr = t.reading cr body := by
  have hheld : (start t body).assembler.held = [] := by
    simp only [start, responseAssembler]
    cases t.protocol <;> rfl
  have hunread : (start t body).unread = (bodyRest t.protocol body).1 := by
    rw [unread, hheld]
    rfl
  rw [toRead, hunread]
  rfl

end ServerStream

/-- What `make_server_stream` has checked, and what it makes. -/
theorem makeServerStream_ok {c : CallConfig α} {response : Response (List BodyEvent)}
    {late : Bool} {s : ServerStream α} (h : makeServerStream cr c response late = .ok s) :
    s = .start (c.setup response.headers late) response.body ∧
      response.status.isSuccess = true ∧
      (c.protocol ≠ .connect → parseGrpcErrorFromTrailers cr response.headers = none) := by
  rw [makeServerStream] at h
  split at h
  · cases h
  · rename_i hhead
    split at h
    · cases h
    · rename_i hstatus
      split at h
      · cases h
      · refine ⟨(Except.ok.inj h).symm, by simpa using hstatus, fun hp => ?_⟩
        rw [if_neg hp, checkGrpcHead] at hhead
        split at hhead
        · cases hhead
        · split at hhead
          · cases hhead
          · assumption

end ConnectRpc
