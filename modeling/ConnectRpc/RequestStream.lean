import ConnectRpc.Assembler
import ConnectRpc.Compression
import ConnectRpc.Lib.Poll

/-!
# The request stream of a server

A handler of a client-streaming or bidi call reads its messages from a
`RequestBodyStream`. The stream decodes the body while it is polled; when it ends
early, or the handler lets go of it, the rest of the body goes to a drain that reads
and discards it.

`pollNext_cases` says all that one poll can do. From it follow the two halves of the
run law: what the polls answer (`Reported`), and who reads the body (`Owned`).
-/

namespace ConnectRpc

open Lib

/-! ## Bodies -/

/-- What a poll of a request body yields, up to its end. -/
inductive RequestFrame : Type where
  /-- a data frame -/
  | data : Bytes → RequestFrame
  /-- trailers, which carry nothing for the decoder -/
  | trailers : RequestFrame
  /-- the transport failed, with the text of its error -/
  | failed : String → RequestFrame

/-- A request body. -/
structure RequestBody where
  /-- the answers to its polls; with none left it has ended -/
  polls : List (Poll RequestFrame)
  /-- what it tells by `is_end_stream` with these left -/
  endHint : List (Poll RequestFrame) → Bool

/-- `is_end_stream`. -/
def RequestBody.isEndStream (body : RequestBody) : Bool :=
  body.endHint body.polls

/-! ## The decoder -/

/-- One item decoded from a request body. -/
inductive Decoded : Type where
  /-- a message -/
  | message : Bytes → Decoded
  /-- the END_STREAM envelope -/
  | endStream

/-- The payload of an envelope of a request, decompressed if it is flagged so; `header`
is the header that names the encoding. -/
def requestPayload (header : String) (encoding : Option String) (compression : CompressionRegistry)
    (maxMessageSize : ℕ) (e : Envelope) : Except ConnectError Bytes :=
  if e.isCompressed then
    match encoding.filter (· ≠ "identity") with
    | none => .error (.internal s!"received compressed message without {header} header")
    | some encoding => compression.decompressWithLimit encoding e.data maxMessageSize
  else .ok e.data

/-- What a request decoder is set up with. -/
structure RequestSetup where
  /-- the limit on a message -/
  maxMessageSize : ℕ
  /-- the encoding of compressed messages -/
  streamingEncoding : Option String
  /-- the compression providers -/
  compression : CompressionRegistry

/-- What an envelope of a request stream is. -/
def RequestSetup.decodeEnvelope (t : RequestSetup) (e : Envelope) : Except ConnectError Decoded :=
  if e.isEndStream then .ok .endStream
  else
    (requestPayload "connect-content-encoding" t.streamingEncoding t.compression
      t.maxMessageSize e).map .message

/-- `EnvelopeDecoder`. -/
structure EnvelopeDecoder where
  /-- the envelopes -/
  assembler : EnvelopeAssembler
  /-- the encoding of compressed messages -/
  streamingEncoding : Option String
  /-- the compression providers -/
  compression : CompressionRegistry

namespace EnvelopeDecoder

/-- A fresh decoder. -/
def new (t : RequestSetup) : EnvelopeDecoder :=
  ⟨.new t.maxMessageSize, t.streamingEncoding, t.compression⟩

/-- The setup of a decoder. -/
def setup (d : EnvelopeDecoder) : RequestSetup :=
  ⟨d.assembler.maxMessageSize, d.streamingEncoding, d.compression⟩

/-- `EnvelopeDecoder::decode`, with what it leaves of the frame. -/
def decode (d : EnvelopeDecoder) (frame : Bytes) :
    Except ConnectError (Option Decoded) × Bytes × EnvelopeDecoder :=
  match d.assembler.feed frame with
  -- the header that declares too much has been taken off the frame
  | .error e => (.error e, frame.drop (HEADER_SIZE - d.assembler.headerLen), d)
  | .ok (none, frame, assembler) => (.ok none, frame, { d with assembler := assembler })
  | .ok (some envelope, frame, assembler) =>
    ((d.setup.decodeEnvelope envelope).map some, frame, { d with assembler := assembler })

/-- `EnvelopeDecoder::finish`. -/
def finish (d : EnvelopeDecoder) : Except ConnectError Unit :=
  if d.assembler.hasPartial then .error (.invalidArgument "incomplete request envelope")
  else .ok ()

end EnvelopeDecoder

/-! ## The drain -/

/-- The most a drain discards before it stops. -/
def MAX_DRAIN_BYTES : ℕ := 1024 * 1024

/-- The largest `usize`. -/
def usizeMax : ℕ := 0xFFFFFFFFFFFFFFFF

/-- A running drain. -/
structure Drain where
  /-- the body -/
  body : RequestBody
  /-- the bytes discarded so far -/
  bytes : ℕ

/-- `Drained::add`: the bytes discarded, and whether the drain stops. -/
def Drain.add (bytes len : ℕ) : ℕ × Bool :=
  let bytes := min (bytes + len) usizeMax
  (bytes, MAX_DRAIN_BYTES < bytes)

/-- A drain that goes on has counted every byte. -/
theorem Drain.add_of_goesOn {bytes len : ℕ} (h : (add bytes len).2 = false) :
    (add bytes len).1 = bytes + len ∧ bytes + len ≤ MAX_DRAIN_BYTES := by
  have hlimit : ¬ MAX_DRAIN_BYTES < min (bytes + len) usizeMax := of_decide_eq_false h
  have hsize : MAX_DRAIN_BYTES < usizeMax := by decide
  refine ⟨?_, ?_⟩
  · rw [add]
    omega
  · omega

/-- `request_body_drain`: none if what the decoder left behind is over the limit, or if
the body says that it has ended. -/
def requestBodyDrain (body : RequestBody) (discarded : ℕ) : Option Drain :=
  if 0 < discarded && (Drain.add 0 discarded).2 then none
  else if body.isEndStream then none
  else some ⟨body, (Drain.add 0 discarded).1⟩

/-! ## The stream -/

/-- Who reads a body. -/
inductive Reader : Type where
  /-- the stream, for its decoder -/
  | decoder
  /-- the drain -/
  | drain
  deriving DecidableEq

/-- What can be observed of a request stream. -/
inductive RequestEvent : Type where
  /-- the body was polled -/
  | polled : Reader → Poll (Option RequestFrame) → RequestEvent
  /-- the stream answered its handler -/
  | answered : Option (Except ConnectError Bytes) → RequestEvent
  /-- a drain started, with the bytes of the last frame the decoder left behind -/
  | drainStarted : ℕ → RequestEvent

/-- What a stream holds until it ends. -/
structure DecodeState where
  /-- the body -/
  body : RequestBody
  /-- the decoder -/
  decoder : EnvelopeDecoder
  /-- what is left of the last frame -/
  frame : Bytes

/-- The stream of a handler, and the drain it has started. -/
structure RequestBodyStream where
  /-- none once the stream has ended -/
  decoding : Option DecodeState
  /-- the drain, as long as it runs -/
  drain : Option Drain

/-- An answer to a poll, the stream after it, and what was observed. -/
abbrev PollResult : Type :=
  Poll (Option (Except ConnectError Bytes)) × RequestBodyStream × List RequestEvent

/-- Put an event in front. -/
def PollResult.observe (ev : RequestEvent) (r : PollResult) : PollResult :=
  (r.1, r.2.1, ev :: r.2.2)

namespace RequestBodyStream

/-- `decode_request_body`. -/
def start (t : RequestSetup) (body : RequestBody) : RequestBodyStream :=
  ⟨some ⟨body, .new t, []⟩, none⟩

/-- `RequestBodyStream::finish`: the stream ends, and its body goes to a drain. -/
def finish (s : RequestBodyStream) : RequestBodyStream × List RequestEvent :=
  match s.decoding with
  | none => (s, [])
  | some st =>
    match requestBodyDrain st.body st.frame.length with
    | none => ({ s with decoding := none }, [])
    | some drain => (⟨none, some drain⟩, [.drainStarted st.frame.length])

/-- The decoding part of the loop of `poll_next`; once the frame is used up `more` goes
on. -/
def decodeThen (s : RequestBodyStream) (st : DecodeState) (more : DecodeState → PollResult) :
    PollResult :=
  match st.decoder.decode st.frame with
  | (.ok (some (.message data)), frame, decoder) =>
    (.ready (some (.ok data)),
      { s with decoding := some { st with frame := frame, decoder := decoder } }, [])
  | (.ok (some .endStream), frame, decoder) =>
    (.ready none,
      finish { s with decoding := some { st with frame := frame, decoder := decoder } })
  | (.ok none, frame, decoder) => more { st with frame := frame, decoder := decoder }
  | (.error e, frame, decoder) =>
    (.ready (some (.error e)),
      finish { s with decoding := some { st with frame := frame, decoder := decoder } })

/-- The loop of `poll_next` from a poll of the body on. -/
def readBody (s : RequestBodyStream) : List (Poll RequestFrame) → DecodeState → PollResult
  | [], st =>
    (.ready (match st.decoder.finish with
      | .ok _ => none
      | .error e => some (.error e)),
      { s with decoding := none }, [.polled .decoder (.ready none)])
  | .pending :: rest, st =>
    (.pending, { s with decoding := some { st with body.polls := rest } },
      [.polled .decoder .pending])
  | .ready (.data d) :: rest, st =>
    (decodeThen s { st with body.polls := rest, frame := d } (readBody s rest)).observe
      (.polled .decoder (.ready (some (.data d))))
  | .ready .trailers :: rest, st =>
    (decodeThen s { st with body.polls := rest } (readBody s rest)).observe
      (.polled .decoder (.ready (some .trailers)))
  | .ready (.failed e) :: _, _ =>
    (.ready (some (.error (.internal s!"failed to read request body: {e}"))),
      { s with decoding := none }, [.polled .decoder (.ready (some (.failed e)))])

/-- `poll_next`. -/
def pollNext (s : RequestBodyStream) : PollResult :=
  match s.decoding with
  | none => (.ready none, s, [])
  | some st => decodeThen s st fun st => readBody s st.body.polls st

end RequestBodyStream

/-- One round of a drain; `timedOut` is whether its timer has fired. -/
def Drain.poll (d : Drain) (timedOut : Bool) : Option Drain × List RequestEvent :=
  if timedOut then (none, [])
  else
    match d.body.polls with
    | [] => (none, [.polled .drain (.ready none)])
    | .pending :: rest => (some { d with body.polls := rest }, [.polled .drain .pending])
    | .ready (.data b) :: rest =>
      let ev := RequestEvent.polled .drain (.ready (some (.data b)))
      if b = [] then (some { d with body.polls := rest }, [ev])
      else if (add d.bytes b.length).2 then (none, [ev])
      else (some ⟨{ d.body with polls := rest }, (add d.bytes b.length).1⟩, [ev])
    | .ready .trailers :: rest =>
      (some { d with body.polls := rest }, [.polled .drain (.ready (some .trailers))])
    | .ready (.failed e) :: _ => (none, [.polled .drain (.ready (some (.failed e)))])

/-! ## Runs -/

/-- What can happen to a request stream. -/
inductive RequestAction : Type where
  /-- the handler polls it -/
  | poll
  /-- the handler lets go of it -/
  | drop
  /-- its drain runs for one round; whether the timer of the drain has fired -/
  | drain : Bool → RequestAction
  deriving DecidableEq

/-- A request stream and whether the handler holds it. -/
structure RequestRun where
  /-- the stream -/
  stream : RequestBodyStream
  /-- whether the handler holds it -/
  held : Bool

namespace RequestRun

/-- The answer to a poll as an event. -/
def answerOf : Poll (Option (Except ConnectError Bytes)) → List RequestEvent
  | .pending => []
  | .ready a => [.answered a]

/-- One action. -/
def step (r : RequestRun) : RequestAction → RequestRun × List RequestEvent
  | .poll =>
    if r.held then
      let p := r.stream.pollNext
      ({ r with stream := p.2.1 }, p.2.2 ++ answerOf p.1)
    else (r, [])
  | .drop =>
    if r.held then (⟨r.stream.finish.1, false⟩, r.stream.finish.2)
    else (r, [])
  | .drain timedOut =>
    match r.stream.drain with
    | none => (r, [])
    | some d => ({ r with stream.drain := (d.poll timedOut).1 }, (d.poll timedOut).2)

/-- The events of a run. -/
def trace : RequestRun → List RequestAction → List RequestEvent
  | _, [] => []
  | r, a :: as => (r.step a).2 ++ trace (r.step a).1 as

end RequestRun

/-! ## What a body says -/

/-- How a request body stops. -/
inductive RequestEnd : Type where
  /-- at its end -/
  | eof
  /-- by a failure of the transport -/
  | failed : String → RequestEnd

/-- The data of a body up to where it stops. -/
def requestRest : List RequestFrame → Bytes × RequestEnd
  | [] => ([], .eof)
  | .data d :: frames => (d ++ (requestRest frames).1, (requestRest frames).2)
  | .trailers :: frames => requestRest frames
  | .failed e :: _ => ([], .failed e)

namespace RequestSetup

variable (t : RequestSetup)

/-- The limits of the envelope decoder. -/
def limits : LimitOf :=
  messageLimit t.maxMessageSize

/-- The error of a request that stops where no envelope is complete, if it is one. -/
def stopError (stop : Stop UInt8 ConnectError) (bodyEnd : RequestEnd) : Option ConnectError :=
  match stop with
  | .error e => some e
  | .rest r =>
    match bodyEnd with
    | .eof => if r = [] then none else some (.invalidArgument "incomplete request envelope")
    | .failed e => some (.internal s!"failed to read request body: {e}")

/-- The messages and the error that envelopes, how decoding them stops and how the body
stops come to: up to the END_STREAM envelope or the first error. -/
def plan (stop : Stop UInt8 ConnectError) (bodyEnd : RequestEnd) :
    List Envelope → List Bytes × Option ConnectError
  | [] => ([], stopError stop bodyEnd)
  | e :: es =>
    match t.decodeEnvelope e with
    | .error err => ([], some err)
    | .ok .endStream => ([], none)
    | .ok (.message d) => (d :: (plan stop bodyEnd es).1, (plan stop bodyEnd es).2)

/-- What a request stream reads from data and the end of a body. -/
def reading (b : Bytes) (bodyEnd : RequestEnd) : List Bytes × Option ConnectError :=
  t.plan (parse (decodeWith t.limits) b).stop bodyEnd (parse (decodeWith t.limits) b).items

variable {t} {b r : Bytes}

theorem reading_error {e : ConnectError} {bodyEnd : RequestEnd} (h : decodeWith t.limits b = .error e) :
    t.reading b bodyEnd = ([], some e) := by
  rw [reading, parse_error h]
  rfl

theorem reading_none {bodyEnd : RequestEnd} (h : decodeWith t.limits b = .ok none) :
    t.reading b bodyEnd = ([], stopError (.rest b) bodyEnd) := by
  rw [reading, parse_none h]
  rfl

theorem reading_item {e : Envelope} (bodyEnd : RequestEnd)
    (h : decodeWith t.limits b = .ok (some (e, r))) :
    t.reading b bodyEnd =
      match t.decodeEnvelope e with
      | .error err => ([], some err)
      | .ok .endStream => ([], none)
      | .ok (.message d) => (d :: (t.reading r bodyEnd).1, (t.reading r bodyEnd).2) := by
  rw [reading, (decodeWith_stable t.limits).parse_item h]
  rfl

end RequestSetup

/-! ## One poll -/

/-- Whether the decoder polled the body, and the body neither ended nor failed. -/
def RequestEvent.readsOn : RequestEvent → Bool
  | .polled .decoder .pending => true
  | .polled .decoder (.ready (some (.data _))) => true
  | .polled .decoder (.ready (some .trailers)) => true
  | _ => false

/-- Whether the decoder saw the body end or fail. -/
def RequestEvent.bodyOver : RequestEvent → Bool
  | .polled .decoder (.ready none) => true
  | .polled .decoder (.ready (some (.failed _))) => true
  | _ => false

namespace DecodeState

/-- The bytes a stream has taken or will take and has not yet decoded. -/
def unread (st : DecodeState) : Bytes :=
  st.decoder.assembler.held ++ (st.frame ++ (requestRest (ready st.body.polls)).1)

/-- What a stream has yet to read. -/
def toRead (t : RequestSetup) (st : DecodeState) : List Bytes × Option ConnectError :=
  t.reading st.unread (requestRest (ready st.body.polls)).2

/-- A state between two polls. -/
structure Live (t : RequestSetup) (st : DecodeState) : Prop where
  /-- the decoder is between two calls -/
  valid : st.decoder.assembler.Valid t.limits
  /-- the encoding stays -/
  encoding : st.decoder.streamingEncoding = t.streamingEncoding
  /-- the providers stay -/
  compression : st.decoder.compression = t.compression

/-- Some polls of the body lie between two states. -/
structure Moves (st st' : DecodeState) (taken : List (Poll RequestFrame)) : Prop where
  /-- the polls -/
  polls : st.body.polls = taken ++ st'.body.polls
  /-- the body is the same -/
  endHint : st'.body.endHint = st.body.endHint

theorem Live.setup {t : RequestSetup} {st : DecodeState} (h : st.Live t) :
    st.decoder.setup = t := by
  -- a flag byte of 0 has the limit on a message, whatever the limit on trailers
  have hmessage : ∀ (m : ℕ) (w : Option ℕ), (EnvelopeAssembler.limitOf m w 0).2 = m := by
    intro m w
    cases w <;> rfl
  have hlimit : st.decoder.assembler.maxMessageSize = t.maxMessageSize := by
    have hlimits := congrArg Prod.snd (congrFun h.valid.limits_eq 0)
    rw [hmessage] at hlimits
    exact hlimits
  rw [EnvelopeDecoder.setup, hlimit, h.encoding, h.compression]

end DecodeState

/-- **What one poll of a stream that has not ended can do.** -/
inductive PollCase (t : RequestSetup) (s : RequestBodyStream) (st : DecodeState) :
    PollResult → Prop where
  /-- wait for the body -/
  | pending {st' : DecodeState} {taken : List (Poll RequestFrame)} {ev : List RequestEvent} :
    st'.Live t → st'.toRead t = st.toRead t → st.Moves st' (taken ++ [.pending]) →
      ev.all RequestEvent.readsOn = true →
        PollCase t s st (.pending, { s with decoding := some st' }, ev)
  /-- answer a message -/
  | message {st' : DecodeState} {taken : List (Poll RequestFrame)} {ev : List RequestEvent}
    {d : Bytes} {ds : List Bytes} {err : Option ConnectError} :
    st'.Live t → st.toRead t = (d :: ds, err) → st'.toRead t = (ds, err) → st.Moves st' taken →
      ev.all RequestEvent.readsOn = true →
        PollCase t s st (.ready (some (.ok d)), { s with decoding := some st' }, ev)
  /-- end with the body -/
  | stopped (err : Option ConnectError) (ev : List RequestEvent) {last : RequestEvent} :
    st.toRead t = ([], err) → ev.all RequestEvent.readsOn = true → last.bodyOver = true →
      PollCase t s st (.ready (err.map .error), { s with decoding := none }, ev ++ [last])
  /-- end before the body does -/
  | finished (err : Option ConnectError) (ev : List RequestEvent) {st' : DecodeState}
    {taken : List (Poll RequestFrame)} :
    st.toRead t = ([], err) → st.Moves st' taken → ev.all RequestEvent.readsOn = true →
      PollCase t s st (.ready (err.map .error),
        (RequestBodyStream.finish { s with decoding := some st' }).1,
        ev ++ (RequestBodyStream.finish { s with decoding := some st' }).2)

namespace PollCase

variable {t : RequestSetup} {s : RequestBodyStream} {st st₁ : DecodeState} {r : PollResult}

/-- The rest of a poll, after some polls of the body. -/
theorem after (h : PollCase t s st₁ r) (before : List RequestEvent)
    {pre : List (Poll RequestFrame)} (hmove : st.Moves st₁ pre) (hread : st₁.toRead t = st.toRead t)
    (hbefore : before.all RequestEvent.readsOn = true) :
    PollCase t s st (r.1, r.2.1, before ++ r.2.2) := by
  have hmoves : ∀ {st' taken}, st₁.Moves st' taken → st.Moves st' (pre ++ taken) := by
    intro st' taken h'
    refine ⟨?_, h'.endHint.trans hmove.endHint⟩
    rw [hmove.polls, h'.polls, List.append_assoc]
  have hall : ∀ {evs : List RequestEvent}, evs.all RequestEvent.readsOn = true →
      (before ++ evs).all RequestEvent.readsOn = true := by
    intro evs h'
    rw [List.all_append, hbefore, h']
    rfl
  cases h with
  | @pending st' taken evs hlive hsame hm hr =>
    have hm' := hmoves hm
    rw [← List.append_assoc] at hm'
    exact .pending hlive (hsame.trans hread) hm' (hall hr)
  | message hlive h1 h2 hm hr => exact .message hlive (hread.symm.trans h1) h2 (hmoves hm) (hall hr)
  | stopped err evs h1 hr hlast =>
    have hover := PollCase.stopped (s := s) err (before ++ evs) (hread.symm.trans h1) (hall hr) hlast
    rw [List.append_assoc] at hover
    exact hover
  | finished err evs h1 hm hr =>
    have hfinished := PollCase.finished (s := s) err (before ++ evs) (hread.symm.trans h1)
      (hmoves hm) (hall hr)
    rw [List.append_assoc] at hfinished
    exact hfinished

/-- The same body is no move. -/
theorem moves_refl {st' : DecodeState} (h : st'.body = st.body) : st.Moves st' [] :=
  ⟨by rw [h]; rfl, by rw [h]⟩

end PollCase

namespace RequestBodyStream

variable {t : RequestSetup} {s : RequestBodyStream}

/-- Decoding the frame at hand. -/
theorem decodeThen_cases (st : DecodeState) {more : DecodeState → PollResult} (hs : st.Live t)
    (hmore : ∀ st₁ : DecodeState, st₁.Live t → st₁.frame = [] → st₁.body = st.body →
      decodeWith t.limits st₁.decoder.assembler.held = .ok none → PollCase t s st₁ (more st₁)) :
    PollCase t s st (decodeThen s st more) := by
  have hstable := decodeWith_stable t.limits
  have hrefines := EnvelopeAssembler.feed_refines t.limits
  have hunread : st.unread = st.decoder.assembler.held ++ st.frame ++
      (requestRest (ready st.body.polls)).1 := (List.append_assoc _ _ _).symm
  rcases hd : decodeWith t.limits (st.decoder.assembler.held ++ st.frame) with e | _ | ⟨env, r⟩
  · -- too much is declared
    have hdecode : st.decoder.decode st.frame =
        (.error e, st.frame.drop (HEADER_SIZE - st.decoder.assembler.headerLen), st.decoder) := by
      rw [EnvelopeDecoder.decode, hrefines.error hs.valid hd]
    rw [decodeThen, hdecode]
    refine .finished (some e) [] ?_ (PollCase.moves_refl rfl) rfl
    rw [DecodeState.toRead, hunread, RequestSetup.reading_error (hstable.error_append _ hd)]
  · -- the frame is used up
    obtain ⟨a, hfeed, ha, hheld⟩ := hrefines.need hs.valid hd
    have hdecode : st.decoder.decode st.frame =
        (.ok none, [], { st.decoder with assembler := a }) := by
      rw [EnvelopeDecoder.decode, hfeed]
    rw [decodeThen, hdecode]
    refine (hmore { st with frame := [], decoder := { st.decoder with assembler := a } }
      ⟨ha, hs.encoding, hs.compression⟩ rfl rfl (hheld ▸ hd)).after [] (PollCase.moves_refl rfl) ?_ rfl
    rw [DecodeState.toRead, DecodeState.toRead, hunread, DecodeState.unread]
    simp only [hheld, List.nil_append]
  · -- an envelope is complete
    obtain ⟨a, hfeed, ha, hheld, -⟩ := hrefines.item hs.valid hd
    have hdecode : st.decoder.decode st.frame =
        ((t.decodeEnvelope env).map some, r, { st.decoder with assembler := a }) := by
      rw [EnvelopeDecoder.decode, hfeed, hs.setup]
    have hread := RequestSetup.reading_item (requestRest (ready st.body.polls)).2
      (hstable.item_append (requestRest (ready st.body.polls)).1 hd)
    rw [← hunread] at hread
    rw [decodeThen, hdecode]
    rcases henv : t.decodeEnvelope env with e | d | _
    · refine .finished (some e) [] ?_ (PollCase.moves_refl rfl) rfl
      rw [DecodeState.toRead, hread, henv]
    · rw [henv] at hread
      refine .message ⟨ha, hs.encoding, hs.compression⟩ hread ?_ (PollCase.moves_refl rfl) rfl
      rw [DecodeState.toRead, DecodeState.unread]
      simp only [hheld, List.nil_append]
    · refine .finished none [] ?_ (PollCase.moves_refl rfl) rfl
      rw [DecodeState.toRead, hread, henv]

/-- Reading the body. The induction is on the polls of the body; what the decoder keeps
from the frames before does not complete an envelope. -/
theorem readBody_cases : ∀ (polls : List (Poll RequestFrame)) (st : DecodeState),
    st.body.polls = polls → st.Live t → st.frame = [] →
      decodeWith t.limits st.decoder.assembler.held = .ok none →
        PollCase t s st (readBody s polls st) := by
  intro polls
  induction polls with
  | nil =>
    intro st hpolls hs hframe hnone
    have hread : st.toRead t =
        ([], RequestSetup.stopError (.rest st.decoder.assembler.held) .eof) := by
      rw [DecodeState.toRead, DecodeState.unread, hpolls, hframe]
      simp only [ready_nil, requestRest, List.append_nil]
      exact RequestSetup.reading_none hnone
    have hanswer : (match st.decoder.finish with
        | .ok _ => none
        | .error e => some (.error e)) =
          (RequestSetup.stopError (.rest st.decoder.assembler.held) .eof).map
            (Except.error : ConnectError → Except ConnectError Bytes) := by
      have hpart := hs.valid.hasPartial_iff
      rw [EnvelopeDecoder.finish, RequestSetup.stopError]
      by_cases hheld : st.decoder.assembler.held = []
      · rw [if_pos hheld, if_neg (fun h => hpart.mp h hheld)]
        rfl
      · rw [if_neg hheld, if_pos (hpart.mpr hheld)]
        rfl
    rw [readBody, hanswer]
    exact .stopped _ [] hread rfl rfl
  | cons x polls ih =>
    intro st hpolls hs hframe hnone
    rcases x with _ | d | _ | e
    · -- wait here
      have hmove : st.Moves { st with body.polls := polls } ([] ++ [.pending]) := ⟨hpolls, rfl⟩
      refine .pending ⟨hs.valid, hs.encoding, hs.compression⟩ ?_ hmove rfl
      rw [DecodeState.toRead, DecodeState.toRead, DecodeState.unread, DecodeState.unread, hpolls]
      rfl
    · have hmove : st.Moves { st with body.polls := polls, frame := d }
        [.ready (.data d)] := ⟨hpolls, rfl⟩
      have hcase := decodeThen_cases (s := s) { st with body.polls := polls, frame := d }
        ⟨hs.valid, hs.encoding, hs.compression⟩ fun st₁ hlive hframe₁ hbody hnone₁ =>
          ih st₁ (congrArg RequestBody.polls hbody) hlive hframe₁ hnone₁
      refine hcase.after [.polled .decoder (.ready (some (.data d)))] hmove ?_ rfl
      rw [DecodeState.toRead, DecodeState.toRead, DecodeState.unread, DecodeState.unread, hpolls,
        hframe]
      rfl
    · have hmove : st.Moves { st with body.polls := polls } [.ready .trailers] := ⟨hpolls, rfl⟩
      have hcase := decodeThen_cases (s := s) { st with body.polls := polls }
        ⟨hs.valid, hs.encoding, hs.compression⟩ fun st₁ hlive hframe₁ hbody hnone₁ =>
          ih st₁ (congrArg RequestBody.polls hbody) hlive hframe₁ hnone₁
      refine hcase.after [.polled .decoder (.ready (some .trailers))] hmove ?_ rfl
      rw [DecodeState.toRead, DecodeState.toRead, DecodeState.unread, DecodeState.unread, hpolls]
      rfl
    · refine .stopped (some (.internal s!"failed to read request body: {e}")) [] ?_ rfl rfl
      rw [DecodeState.toRead, DecodeState.unread, hpolls, hframe]
      simp only [ready_ready, requestRest, List.append_nil]
      exact RequestSetup.reading_none hnone

/-- **One poll of a stream that has not ended.** -/
theorem pollNext_cases {st : DecodeState} (hdecoding : s.decoding = some st) (hs : st.Live t) :
    PollCase t s st s.pollNext := by
  rw [pollNext, hdecoding]
  exact decodeThen_cases st hs fun st₁ hlive hframe _ hnone =>
    readBody_cases st₁.body.polls st₁ rfl hlive hframe hnone

end RequestBodyStream

/-! ## What the polls answer -/

/-- The answers to polls among some events. -/
def answersIn : List RequestEvent → List (Option (Except ConnectError Bytes))
  | [] => []
  | .answered a :: evs => a :: answersIn evs
  | .polled _ _ :: evs => answersIn evs
  | .drainStarted _ :: evs => answersIn evs

theorem answersIn_append (l evs : List RequestEvent) :
    answersIn (l ++ evs) = answersIn l ++ answersIn evs := by
  induction l with
  | nil => rfl
  | cons ev l ih =>
    cases ev with
    | polled who x => exact ih
    | answered a => exact congrArg (a :: ·) ih
    | drainStarted k => exact ih

/-- The messages, the error if there is one, and then the end for ever. -/
def requestAnswers (r : List Bytes × Option ConnectError) :
    Stream' (Option (Except ConnectError Bytes)) :=
  (r.1.map (fun d => some (.ok d)) ++ r.2.toList.map (fun e => some (.error e))) ++ₛ
    Stream'.const none

theorem requestAnswers_message (d : Bytes) (ds : List Bytes) (err : Option ConnectError) :
    requestAnswers (d :: ds, err) = Stream'.cons (some (.ok d)) (requestAnswers (ds, err)) := rfl

/-- With no message left, the error comes first, and then the end. -/
theorem requestAnswers_end (err : Option ConnectError) :
    requestAnswers ([], err) = Stream'.cons (err.map .error) (requestAnswers ([], none)) := by
  have hend : requestAnswers ([], none) = Stream'.const none := Stream'.nil_append_stream _
  rw [hend]
  cases err with
  | none => exact hend.trans (Stream'.const_eq none)
  | some e => rfl

/-- Polls of the body are no answers. -/
theorem answersIn_readsOn {evs : List RequestEvent} (h : evs.all RequestEvent.readsOn = true) :
    answersIn evs = [] := by
  induction evs with
  | nil => rfl
  | cons ev evs ih =>
    rw [List.all_cons, Bool.and_eq_true] at h
    cases ev with
    | polled who x => exact ih h.2
    | answered a => cases h.1
    | drainStarted k => cases h.1

theorem answersIn_bodyOver {ev : RequestEvent} (h : ev.bodyOver = true) :
    answersIn [ev] = [] := by
  cases ev with
  | polled who x => rfl
  | answered a => cases h
  | drainStarted k => cases h

/-- A drain answers nothing. -/
theorem Drain.answersIn_poll (d : Drain) (timedOut : Bool) :
    answersIn (d.poll timedOut).2 = [] := by
  rw [Drain.poll]
  cases timedOut with
  | true => rfl
  | false =>
    rw [if_neg Bool.false_ne_true]
    rcases d.body.polls with _ | ⟨_ | (b | _ | e), rest⟩
    · rfl
    · rfl
    · simp only
      split
      · rfl
      · split <;> rfl
    · rfl
    · rfl

namespace RequestBodyStream

variable {t : RequestSetup}

/-- Between two polls the decoder is between two calls. -/
def Live (t : RequestSetup) (s : RequestBodyStream) : Prop :=
  ∀ st, s.decoding = some st → st.Live t

/-- The polls of the body that are still to come and not answered. -/
def waits (s : RequestBodyStream) : ℕ :=
  match s.decoding with
  | none => 0
  | some st => pendings st.body.polls

/-- What a stream has yet to answer. -/
def toAnswer (t : RequestSetup) (s : RequestBodyStream) : List Bytes × Option ConnectError :=
  match s.decoding with
  | none => ([], none)
  | some st => st.toRead t

/-- A stream that finishes ends, and answers nothing by that. -/
theorem finish_ends (s : RequestBodyStream) :
    answersIn s.finish.2 = [] ∧ s.finish.1.decoding = none := by
  rw [finish]
  rcases hd : s.decoding with _ | st
  · exact ⟨rfl, hd⟩
  · simp only
    rcases requestBodyDrain st.body st.frame.length with _ | drain
    · exact ⟨rfl, rfl⟩
    · exact ⟨rfl, rfl⟩

theorem live_of_ended {s : RequestBodyStream} (h : s.decoding = none) : s.Live t := by
  intro st hst
  rw [h] at hst
  cases hst

/-- **One poll** takes its answer off the front of what the stream has yet to answer. -/
theorem pollNext_answers {s : RequestBodyStream} (hs : s.Live t) :
    s.pollNext.2.1.Live t ∧ answersIn s.pollNext.2.2 = [] ∧
      match s.pollNext.1 with
      | .pending => s.pollNext.2.1.toAnswer t = s.toAnswer t
      | .ready a => requestAnswers (s.toAnswer t) =
          Stream'.cons a (requestAnswers (s.pollNext.2.1.toAnswer t)) := by
  rcases hd : s.decoding with _ | st
  · have hpoll : s.pollNext = (.ready none, s, []) := by rw [pollNext, hd]
    have hend : s.toAnswer t = ([], none) := by rw [toAnswer, hd]
    rw [hpoll]
    refine ⟨hs, rfl, ?_⟩
    rw [hend]
    exact requestAnswers_end none
  · have hcase := pollNext_cases hd (hs st hd)
    have hread : s.toAnswer t = st.toRead t := by rw [toAnswer, hd]
    rw [hread]
    revert hcase
    generalize s.pollNext = r
    intro hcase
    cases hcase with
    | pending hlive hsame hmove hev =>
      refine ⟨fun st' hst' => ?_, answersIn_readsOn hev, hsame⟩
      obtain rfl := Option.some.inj hst'
      exact hlive
    | message hlive hnow hnext hmove hev =>
      refine ⟨fun st' hst' => ?_, answersIn_readsOn hev, ?_⟩
      · obtain rfl := Option.some.inj hst'
        exact hlive
      · simp only [toAnswer, hnow, hnext]
        exact requestAnswers_message _ _ _
    | stopped err ev hnow hev hlast =>
      refine ⟨live_of_ended rfl, ?_, ?_⟩
      · rw [answersIn_append, answersIn_readsOn hev, answersIn_bodyOver hlast]
        rfl
      · rw [hnow]
        exact requestAnswers_end err
    | @finished err ev st' taken hnow hmove hev =>
      obtain ⟨hnone, hended⟩ := finish_ends { s with decoding := some st' }
      refine ⟨live_of_ended hended, ?_, ?_⟩
      · rw [answersIn_append, answersIn_readsOn hev, hnone]
        rfl
      · have hend : (finish { s with decoding := some st' }).1.toAnswer t = ([], none) := by
          rw [toAnswer, hended]
        simp only [hnow, hend]
        exact requestAnswers_end err

/-- A poll that is not answered has used up one of the body. -/
theorem pollNext_waits {s : RequestBodyStream} (hs : s.Live t) :
    match s.pollNext.1 with
    | .pending => s.pollNext.2.1.waits + 1 ≤ s.waits
    | .ready _ => s.pollNext.2.1.waits ≤ s.waits := by
  rcases hd : s.decoding with _ | st
  · have hpoll : s.pollNext = (.ready none, s, []) := by rw [pollNext, hd]
    rw [hpoll]
  · have hcase := pollNext_cases hd (hs st hd)
    have hwaits : s.waits = pendings st.body.polls := by rw [waits, hd]
    have hended : ∀ {s' : RequestBodyStream}, s'.decoding = none → s'.waits ≤ s.waits := by
      intro s' h
      rw [waits, h]
      exact Nat.zero_le _
    revert hcase
    generalize s.pollNext = r
    intro hcase
    cases hcase with
    | pending hlive hsame hmove hev =>
      rw [hwaits, hmove.polls, pendings_append, pendings_append]
      simp only [waits, pendings]
      omega
    | message hlive hnow hnext hmove hev =>
      rw [hwaits, hmove.polls, pendings_append]
      exact Nat.le_add_left _ _
    | stopped err ev hnow hev hlast => exact hended rfl
    | finished err ev hnow hmove hev => exact hended (finish_ends _).2

end RequestBodyStream

namespace RequestRun

variable {t : RequestSetup}

/-- The stream of a body, in the hands of its handler. -/
def start (t : RequestSetup) (body : RequestBody) : RequestRun :=
  ⟨.start t body, true⟩

/-- Once the handler has let go of the stream there are no answers. -/
theorem answersIn_released : ∀ (as : List RequestAction) (r : RequestRun), r.held = false →
    answersIn (r.trace as) = [] := by
  intro as
  induction as with
  | nil => exact fun _ _ => rfl
  | cons a as ih =>
    intro r hr
    rw [trace, answersIn_append]
    cases a with
    | poll =>
      have hstep : r.step .poll = (r, []) := by rw [step, hr, if_neg Bool.false_ne_true]
      rw [hstep]
      exact ih r hr
    | drop =>
      have hstep : r.step .drop = (r, []) := by rw [step, hr, if_neg Bool.false_ne_true]
      rw [hstep]
      exact ih r hr
    | drain timedOut =>
      rcases hd : r.stream.drain with _ | d
      · have hstep : r.step (.drain timedOut) = (r, []) := by rw [step, hd]
        rw [hstep]
        exact ih r hr
      · have hstep : r.step (.drain timedOut) =
            ({ r with stream.drain := (d.poll timedOut).1 }, (d.poll timedOut).2) := by
          rw [step, hd]
        rw [hstep, d.answersIn_poll timedOut]
        exact ih _ hr

/-- **The answers of a run** are the first ones of those the stream stands for. -/
theorem answersIn_trace : ∀ (as : List RequestAction) (r : RequestRun), r.stream.Live t →
    answersIn (r.trace as) =
      (requestAnswers (r.stream.toAnswer t)).take (answersIn (r.trace as)).length := by
  intro as
  induction as with
  | nil => exact fun _ _ => rfl
  | cons a as ih =>
    intro r hr
    by_cases hheld : r.held = true
    · cases a with
      | poll =>
        have hstep : r.step .poll = ({ r with stream := r.stream.pollNext.2.1 },
            r.stream.pollNext.2.2 ++ answerOf r.stream.pollNext.1) := by
          rw [step, if_pos hheld]
        obtain ⟨hlive, hnone, hanswer⟩ := RequestBodyStream.pollNext_answers hr
        have hrest := ih { r with stream := r.stream.pollNext.2.1 } hlive
        rw [trace, hstep, answersIn_append, answersIn_append, hnone]
        rcases hpoll : r.stream.pollNext.1 with _ | x
        · rw [hpoll] at hanswer
          rw [← hanswer]
          exact hrest
        · rw [hpoll] at hanswer
          rw [hanswer]
          exact congrArg (x :: ·) hrest
      | drop =>
        have hstep : r.step .drop = (⟨r.stream.finish.1, false⟩, r.stream.finish.2) := by
          rw [step, if_pos hheld]
        rw [trace, hstep, answersIn_append, (RequestBodyStream.finish_ends r.stream).1,
          answersIn_released as _ rfl]
        rfl
      | drain timedOut =>
        rcases hd : r.stream.drain with _ | d
        · have hstep : r.step (.drain timedOut) = (r, []) := by rw [step, hd]
          rw [trace, hstep]
          exact ih r hr
        · have hstep : r.step (.drain timedOut) =
              ({ r with stream.drain := (d.poll timedOut).1 }, (d.poll timedOut).2) := by
            rw [step, hd]
          rw [trace, hstep, answersIn_append, d.answersIn_poll timedOut]
          exact ih { r with stream.drain := (d.poll timedOut).1 } hr
    · have hreleased : r.held = false := by simpa using hheld
      rw [answersIn_released _ r hreleased]
      rfl

/-- All but as many polls as the body does not answer are answered, as long as the handler
holds the stream. -/
theorem polls_le_answersIn : ∀ (as : List RequestAction) (r : RequestRun), r.stream.Live t →
    r.held = true → .drop ∉ as →
      as.count .poll ≤ r.stream.waits + (answersIn (r.trace as)).length := by
  intro as
  induction as with
  | nil => exact fun _ _ _ _ => Nat.zero_le _
  | cons a as ih =>
    intro r hr hheld hdrop
    rw [List.mem_cons, not_or] at hdrop
    cases a with
    | poll =>
      have hstep : r.step .poll = ({ r with stream := r.stream.pollNext.2.1 },
          r.stream.pollNext.2.2 ++ answerOf r.stream.pollNext.1) := by
        rw [step, if_pos hheld]
      obtain ⟨hlive, hnone, -⟩ := RequestBodyStream.pollNext_answers hr
      have hwaits := RequestBodyStream.pollNext_waits hr
      have hrest : as.count .poll ≤ r.stream.pollNext.2.1.waits +
          (answersIn (trace { r with stream := r.stream.pollNext.2.1 } as)).length :=
        ih { r with stream := r.stream.pollNext.2.1 } hlive hheld hdrop.2
      rw [trace, hstep, answersIn_append, answersIn_append, hnone, List.count_cons_self]
      rcases hpoll : r.stream.pollNext.1 with _ | x
      · rw [hpoll] at hwaits
        simp only [answerOf, answersIn, List.nil_append] at hwaits ⊢
        omega
      · rw [hpoll] at hwaits
        simp only [answerOf, answersIn, List.nil_append, List.cons_append, List.length_cons]
          at hwaits ⊢
        omega
    | drop => exact absurd rfl hdrop.1
    | drain timedOut =>
      have hcount : (RequestAction.drain timedOut :: as).count .poll = as.count .poll :=
        List.count_cons_of_ne (by simp)
      rw [hcount, trace]
      rcases hd : r.stream.drain with _ | d
      · have hstep : r.step (.drain timedOut) = (r, []) := by rw [step, hd]
        rw [hstep]
        exact ih r hr hheld hdrop.2
      · have hstep : r.step (.drain timedOut) =
            ({ r with stream.drain := (d.poll timedOut).1 }, (d.poll timedOut).2) := by
          rw [step, hd]
        rw [hstep, answersIn_append, d.answersIn_poll timedOut]
        exact ih { r with stream.drain := (d.poll timedOut).1 } hr hheld hdrop.2

end RequestRun

/-! ## Who reads the body -/

/-- Whether something was observed that comes before the stream ends. -/
def RequestEvent.whileReading : RequestEvent → Bool
  | .answered (some (.ok _)) => true
  | ev => ev.readsOn

/-- Whether a stream that has ended answered: its error, or the end. -/
def RequestEvent.afterEnd : RequestEvent → Bool
  | .answered none => true
  | .answered (some (.error _)) => true
  | _ => false

/-- Whether something was observed that comes while a drain runs or later. -/
def RequestEvent.sinceDrain : RequestEvent → Bool
  | .polled .drain _ => true
  | ev => ev.afterEnd

/-- The bytes a drain has discarded. -/
def discarded : List RequestEvent → ℕ
  | [] => 0
  | .polled .drain (.ready (some (.data b))) :: evs => b.length + discarded evs
  | _ :: evs => discarded evs

theorem discarded_append (l evs : List RequestEvent) :
    discarded (l ++ evs) = discarded l + discarded evs := by
  induction l with
  | nil => exact (Nat.zero_add _).symm
  | cons ev l ih =>
    rcases ev with ⟨_ | _, _ | (_ | (b | _ | e))⟩ | a | k
    all_goals first | exact ih | skip
    rw [List.cons_append, discarded, discarded, ih, Nat.add_assoc]

/-- So many bytes are within the limit, or the last frame went over it. -/
def WithinDrainLimit (polls : List (Poll RequestFrame)) (bytes : ℕ) : Prop :=
  bytes ≤ MAX_DRAIN_BYTES ∨
    ∃ d, .ready (.data d) ∈ polls ∧ bytes ≤ MAX_DRAIN_BYTES + d.length

/-- **The events of a lawful run.** The stream reads its body and answers messages.
Then it ends, with its body or early; or a drain starts, which from then on reads the
body alone. -/
inductive LawfulTrace (body : RequestBody) : List RequestEvent → Prop where
  /-- the stream has not ended -/
  | reading {tr : List RequestEvent} :
    tr.all RequestEvent.whileReading = true → LawfulTrace body tr
  /-- the stream has ended, and there is no drain; `last` is where it saw the body end
  or fail, if it did -/
  | ended {tr last post : List RequestEvent} :
    tr.all RequestEvent.whileReading = true → last.length ≤ 1 →
      last.all RequestEvent.bodyOver = true → post.all RequestEvent.afterEnd = true →
        LawfulTrace body (tr ++ last ++ post)
  /-- a drain has started, on a body that does not say that it has ended -/
  | drained {tr post : List RequestEvent} {k : ℕ} {taken rest : List (Poll RequestFrame)} :
    tr.all RequestEvent.whileReading = true → post.all RequestEvent.sinceDrain = true →
      body.polls = taken ++ rest → body.endHint rest = false →
        WithinDrainLimit rest (k + discarded post) →
          LawfulTrace body (tr ++ .drainStarted k :: post)

/-- What is known of a run after the events `tr`. -/
inductive Owned (t : RequestSetup) (body : RequestBody) : List RequestEvent → RequestRun → Prop where
  /-- the stream has the body -/
  | reading {tr : List RequestEvent} {st : DecodeState} {taken : List (Poll RequestFrame)}
    {held : Bool} : st.Live t → body.polls = taken ++ st.body.polls →
      st.body.endHint = body.endHint → tr.all RequestEvent.whileReading = true →
        Owned t body tr ⟨⟨some st, none⟩, held⟩
  /-- nobody has it -/
  | ended {tr last post : List RequestEvent} {held : Bool} :
    tr.all RequestEvent.whileReading = true → last.length ≤ 1 →
      last.all RequestEvent.bodyOver = true → post.all RequestEvent.afterEnd = true →
        Owned t body (tr ++ last ++ post) ⟨⟨none, none⟩, held⟩
  /-- a drain has it, and knows what it has discarded -/
  | draining {tr post : List RequestEvent} {k : ℕ} {taken rest : List (Poll RequestFrame)}
    {held : Bool} {d : Drain} {read : List (Poll RequestFrame)} :
    tr.all RequestEvent.whileReading = true → post.all RequestEvent.sinceDrain = true →
      body.polls = taken ++ rest → body.endHint rest = false → rest = read ++ d.body.polls →
        d.bytes = k + discarded post → d.bytes ≤ MAX_DRAIN_BYTES →
          Owned t body (tr ++ .drainStarted k :: post) ⟨⟨none, some d⟩, held⟩
  /-- the drain is over -/
  | drained {tr post : List RequestEvent} {k : ℕ} {taken rest : List (Poll RequestFrame)}
    {held : Bool} :
    tr.all RequestEvent.whileReading = true → post.all RequestEvent.sinceDrain = true →
      body.polls = taken ++ rest → body.endHint rest = false →
        WithinDrainLimit rest (k + discarded post) →
          Owned t body (tr ++ .drainStarted k :: post) ⟨⟨none, none⟩, held⟩

namespace Owned

variable {t : RequestSetup} {body : RequestBody} {tr : List RequestEvent} {r : RequestRun}

theorem lawful (h : Owned t body tr r) : LawfulTrace body tr := by
  cases h with
  | reading hlive hpolls hhint htr => exact .reading htr
  | ended htr hlen hlast hpost => exact .ended htr hlen hlast hpost
  | draining htr hpost hpolls hhint hread hbytes hle =>
    exact .drained htr hpost hpolls hhint (.inl (hbytes ▸ hle))
  | drained htr hpost hpolls hhint hle => exact .drained htr hpost hpolls hhint hle

theorem whileReading_of_readsOn {evs : List RequestEvent}
    (h : evs.all RequestEvent.readsOn = true) : evs.all RequestEvent.whileReading = true := by
  rw [List.all_eq_true] at h ⊢
  intro ev hev
  have hreads := h ev hev
  cases ev with
  | polled who x => exact hreads
  | answered a => cases hreads
  | drainStarted k => cases hreads

/-- The answer at the end. -/
theorem afterEnd_answer (err : Option ConnectError) :
    [RequestEvent.answered (err.map .error)].all RequestEvent.afterEnd = true := by
  cases err with
  | none => rfl
  | some e => rfl

theorem sinceDrain_of_afterEnd {evs : List RequestEvent}
    (h : evs.all RequestEvent.afterEnd = true) : evs.all RequestEvent.sinceDrain = true := by
  rw [List.all_eq_true] at h ⊢
  intro ev hev
  have hend := h ev hev
  cases ev with
  | polled who x => cases hend
  | answered a => exact hend
  | drainStarted k => cases hend

theorem discarded_of_afterEnd {evs : List RequestEvent}
    (h : evs.all RequestEvent.afterEnd = true) : discarded evs = 0 := by
  induction evs with
  | nil => rfl
  | cons ev evs ih =>
    rw [List.all_cons, Bool.and_eq_true] at h
    cases ev with
    | polled who x => cases h.1
    | answered a => exact ih h.2
    | drainStarted k => cases h.1

/-- **The end before the body**: the body goes to a drain, or nobody reads it any
more. -/
theorem finish {st : DecodeState} {taken : List (Poll RequestFrame)} {held : Bool}
    {post : List RequestEvent} (hpolls : body.polls = taken ++ st.body.polls)
    (hhint : st.body.endHint = body.endHint) (htr : tr.all RequestEvent.whileReading = true)
    (hpost : post.all RequestEvent.afterEnd = true) :
    Owned t body (tr ++ ((RequestBodyStream.finish ⟨some st, none⟩).2 ++ post))
      ⟨(RequestBodyStream.finish ⟨some st, none⟩).1, held⟩ := by
  have hfinish : RequestBodyStream.finish ⟨some st, none⟩ =
      match requestBodyDrain st.body st.frame.length with
      | none => (⟨none, none⟩, [])
      | some drain => (⟨none, some drain⟩, [.drainStarted st.frame.length]) := rfl
  have hended : Owned t body (tr ++ ([] ++ post)) ⟨⟨none, none⟩, held⟩ := by
    rw [← List.append_assoc]
    exact .ended htr (Nat.zero_le 1) rfl hpost
  rw [hfinish, requestBodyDrain]
  by_cases hfull : (0 < st.frame.length && (Drain.add 0 st.frame.length).2) = true
  · rw [if_pos hfull]
    exact hended
  · rw [if_neg hfull]
    rcases hend : st.body.isEndStream with _ | _
    · rw [if_neg Bool.false_ne_true]
      have hgoes : (Drain.add 0 st.frame.length).2 = false := by
        rcases Nat.eq_zero_or_pos st.frame.length with h0 | hpos
        · rw [h0]
          rfl
        · rw [decide_eq_true hpos, Bool.true_and] at hfull
          simpa using hfull
      obtain ⟨hbytes, hle⟩ := Drain.add_of_goesOn hgoes
      rw [Nat.zero_add] at hbytes hle
      have hnone : st.body.polls = [] ++ st.body.polls := rfl
      have hopen : body.endHint st.body.polls = false := hhint ▸ hend
      have hcount : (Drain.add 0 st.frame.length).1 = st.frame.length + discarded post := by
        rw [discarded_of_afterEnd hpost]
        exact hbytes
      have hlimit : (Drain.add 0 st.frame.length).1 ≤ MAX_DRAIN_BYTES := by
        rw [hbytes]
        exact hle
      exact .draining htr (sinceDrain_of_afterEnd hpost) hpolls hopen hnone hcount hlimit
    · rw [if_pos rfl]
      exact hended

/-- One more event since the drain started. -/
theorem all_sinceDrain_append {post evs : List RequestEvent}
    (hpost : post.all RequestEvent.sinceDrain = true)
    (hevs : evs.all RequestEvent.sinceDrain = true) :
    (post ++ evs).all RequestEvent.sinceDrain = true := by
  rw [List.all_append, hpost, hevs]
  rfl

/-- **One round of the drain.** -/
theorem drainRound {post : List RequestEvent} {k : ℕ} {taken rest read : List (Poll RequestFrame)}
    {held : Bool} {d : Drain} (htr : tr.all RequestEvent.whileReading = true)
    (hpost : post.all RequestEvent.sinceDrain = true) (hpolls : body.polls = taken ++ rest)
    (hhint : body.endHint rest = false) (hread : rest = read ++ d.body.polls)
    (hbytes : d.bytes = k + discarded post) (hle : d.bytes ≤ MAX_DRAIN_BYTES) (timedOut : Bool) :
    Owned t body (tr ++ .drainStarted k :: (post ++ (d.poll timedOut).2))
      ⟨⟨none, (d.poll timedOut).1⟩, held⟩ := by
  have hstill : WithinDrainLimit rest (k + discarded post) := .inl (hbytes ▸ hle)
  rw [Drain.poll]
  cases timedOut with
  | true =>
    rw [if_pos rfl, List.append_nil]
    exact .drained htr hpost hpolls hhint hstill
  | false =>
    rw [if_neg Bool.false_ne_true]
    rcases hnext : d.body.polls with _ | ⟨_ | (b | _ | e), left⟩
    · refine .drained htr (all_sinceDrain_append hpost rfl) hpolls hhint ?_
      rw [discarded_append]
      exact hstill
    · have hread' : rest = (read ++ [.pending]) ++ left := by
        rw [hread, hnext, List.append_assoc]
        rfl
      refine .draining htr (all_sinceDrain_append hpost rfl) hpolls hhint hread' ?_ hle
      rw [discarded_append]
      exact hbytes
    · have hread' : rest = (read ++ [.ready (.data b)]) ++ left := by
        rw [hread, hnext, List.append_assoc]
        rfl
      have hdiscarded : k + discarded (post ++ [.polled .drain (.ready (some (.data b)))]) =
          d.bytes + b.length := by
        rw [discarded_append, hbytes, Nat.add_assoc]
        rfl
      simp only
      by_cases hempty : b = []
      · rw [if_pos hempty]
        refine .draining htr (all_sinceDrain_append hpost rfl) hpolls hhint hread' ?_ hle
        rw [hdiscarded, hempty]
        rfl
      · rw [if_neg hempty]
        rcases hadd : (Drain.add d.bytes b.length).2 with _ | _
        · obtain ⟨hcount, hlimit⟩ := Drain.add_of_goesOn hadd
          rw [if_neg Bool.false_ne_true]
          refine .draining htr (all_sinceDrain_append hpost rfl) hpolls hhint hread' ?_ ?_
          · rw [hdiscarded]
            exact hcount
          · exact hcount ▸ hlimit
        · -- this frame goes over the limit
          rw [if_pos rfl]
          refine .drained htr (all_sinceDrain_append hpost rfl) hpolls hhint (.inr ⟨b, ?_, ?_⟩)
          · rw [hread, hnext]
            exact List.mem_append_right _ List.mem_cons_self
          · rw [hdiscarded]
            exact Nat.add_le_add_right hle _
    · have hread' : rest = (read ++ [.ready .trailers]) ++ left := by
        rw [hread, hnext, List.append_assoc]
        rfl
      refine .draining htr (all_sinceDrain_append hpost rfl) hpolls hhint hread' ?_ hle
      rw [discarded_append]
      exact hbytes
    · refine .drained htr (all_sinceDrain_append hpost rfl) hpolls hhint ?_
      rw [discarded_append]
      exact hstill

/-- An answer after the end. -/
theorem pollAgain (h : Owned t body tr r) (hnone : r.stream.decoding = none) :
    Owned t body (tr ++ [.answered none]) r := by
  cases h with
  | reading hlive hpolls hhint htr => cases hnone
  | @ended tr last post held htr hlen hlast hpost =>
    rw [List.append_assoc]
    refine .ended htr hlen hlast ?_
    rw [List.all_append, hpost]
    rfl
  | @draining tr post k taken rest held d read htr hpost hpolls hhint hread hbytes hle =>
    have hcount : d.bytes = k + discarded (post ++ [.answered none]) := by
      rw [discarded_append]
      exact hbytes
    rw [List.append_assoc]
    exact .draining htr (all_sinceDrain_append hpost rfl) hpolls hhint hread hcount hle
  | @drained tr post k taken rest held htr hpost hpolls hhint hle =>
    have hlimit : WithinDrainLimit rest (k + discarded (post ++ [.answered none])) := by
      rw [discarded_append]
      exact hle
    rw [List.append_assoc]
    exact .drained htr (all_sinceDrain_append hpost rfl) hpolls hhint hlimit

/-- **One poll.** -/
theorem poll (h : Owned t body tr r) :
    Owned t body (tr ++ (r.stream.pollNext.2.2 ++ RequestRun.answerOf r.stream.pollNext.1))
      { r with stream := r.stream.pollNext.2.1 } := by
  rcases hd : r.stream.decoding with _ | st
  · have hpoll : r.stream.pollNext = (.ready none, r.stream, []) := by
      rw [RequestBodyStream.pollNext, hd]
    rw [hpoll]
    exact h.pollAgain hd
  · cases h with
    | ended htr hlen hlast hpost => cases hd
    | draining htr hpost hpolls hhint hread hbytes hle => cases hd
    | drained htr hpost hpolls hhint hle => cases hd
    | @reading tr st taken held hlive hpolls hhint htr =>
      have hcase : PollCase t ⟨some st, none⟩ st (RequestBodyStream.pollNext ⟨some st, none⟩) :=
        RequestBodyStream.pollNext_cases rfl hlive
      have hmoved : ∀ {st' : DecodeState} {taken' : List (Poll RequestFrame)},
          st.Moves st' taken' → body.polls = (taken ++ taken') ++ st'.body.polls := by
        intro st' taken' hmove
        rw [hpolls, hmove.polls, List.append_assoc]
      have hsofar : ∀ {evs : List RequestEvent}, evs.all RequestEvent.whileReading = true →
          (tr ++ evs).all RequestEvent.whileReading = true := by
        intro evs hevs
        rw [List.all_append, htr, hevs]
        rfl
      revert hcase
      generalize RequestBodyStream.pollNext ⟨some st, none⟩ = p
      intro hcase
      cases hcase with
      | pending hlive' hsame hmove hev =>
        rw [RequestRun.answerOf, List.append_nil]
        exact .reading hlive' (hmoved hmove) (hmove.endHint.trans hhint)
          (hsofar (whileReading_of_readsOn hev))
      | message hlive' hnow hnext hmove hev =>
        refine .reading hlive' (hmoved hmove) (hmove.endHint.trans hhint) (hsofar ?_)
        rw [List.all_append, whileReading_of_readsOn hev]
        rfl
      | @stopped err ev last hnow hev hlast =>
        have hover : [last].all RequestEvent.bodyOver = true := by
          rw [List.all_cons, hlast]
          rfl
        have hended : Owned t body (tr ++ ev ++ [last] ++ [.answered (err.map .error)])
            ⟨⟨none, none⟩, held⟩ :=
          .ended (hsofar (whileReading_of_readsOn hev)) (Nat.le_refl 1) hover (afterEnd_answer err)
        simp only [List.append_assoc] at hended ⊢
        exact hended
      | @finished err ev st' taken' hnow hmove hev =>
        have hfinished := @Owned.finish t body (tr ++ ev) st' _ held _ (hmoved hmove)
          (hmove.endHint.trans hhint) (hsofar (whileReading_of_readsOn hev)) (afterEnd_answer err)
        simp only [List.append_assoc] at hfinished ⊢
        exact hfinished

/-- The handler lets go. -/
theorem released (h : Owned t body tr r) : Owned t body tr ⟨r.stream, false⟩ := by
  cases h with
  | reading hlive hpolls hhint htr => exact .reading hlive hpolls hhint htr
  | ended htr hlen hlast hpost => exact .ended htr hlen hlast hpost
  | draining htr hpost hpolls hhint hread hbytes hle =>
    exact .draining htr hpost hpolls hhint hread hbytes hle
  | drained htr hpost hpolls hhint hle => exact .drained htr hpost hpolls hhint hle

/-- **One action.** -/
theorem step (h : Owned t body tr r) (a : RequestAction) :
    Owned t body (tr ++ (r.step a).2) (r.step a).1 := by
  have hsame : Owned t body (tr ++ []) r := by
    rw [List.append_nil]
    exact h
  cases a with
  | poll =>
    rw [RequestRun.step]
    by_cases hheld : r.held = true
    · rw [if_pos hheld]
      exact h.poll
    · rw [if_neg hheld]
      exact hsame
  | drop =>
    rw [RequestRun.step]
    by_cases hheld : r.held = true
    · rw [if_pos hheld]
      rcases hd : r.stream.decoding with _ | st
      · have hfinish : r.stream.finish = (r.stream, []) := by rw [RequestBodyStream.finish, hd]
        rw [hfinish, List.append_nil]
        exact h.released
      · cases h with
        | ended htr hlen hlast hpost => cases hd
        | draining htr hpost hpolls hhint hread hbytes hle => cases hd
        | drained htr hpost hpolls hhint hle => cases hd
        | @reading tr st taken held hlive hpolls hhint htr =>
          have hfinished := @Owned.finish t body tr st taken false [] hpolls hhint htr rfl
          rw [List.append_nil] at hfinished
          exact hfinished
    · rw [if_neg hheld]
      exact hsame
  | drain timedOut =>
    rw [RequestRun.step]
    cases h with
    | reading hlive hpolls hhint htr => exact hsame
    | ended htr hlen hlast hpost => exact hsame
    | drained htr hpost hpolls hhint hle => exact hsame
    | draining htr hpost hpolls hhint hread hbytes hle =>
      rw [List.append_assoc]
      exact drainRound htr hpost hpolls hhint hread hbytes hle timedOut

/-- **A run.** -/
theorem trace : ∀ (as : List RequestAction) {tr : List RequestEvent} {r : RequestRun},
    Owned t body tr r → ∃ r', Owned t body (tr ++ r.trace as) r' := by
  intro as
  induction as with
  | nil =>
    intro tr r h
    refine ⟨r, ?_⟩
    rw [RequestRun.trace, List.append_nil]
    exact h
  | cons a as ih =>
    intro tr r h
    obtain ⟨r', h'⟩ := ih (h.step a)
    refine ⟨r', ?_⟩
    rw [RequestRun.trace, ← List.append_assoc]
    exact h'

end Owned

/-! ## The run law -/

namespace RequestSetup

/-- Messages only are read one by one. -/
theorem plan_messages (t : RequestSetup) (stop : Stop UInt8 ConnectError) (bodyEnd : RequestEnd) :
    ∀ (es : List Envelope) (msgs : List Bytes),
      es.map t.decodeEnvelope = msgs.map (fun d => .ok (.message d)) →
        t.plan stop bodyEnd es = (msgs, stopError stop bodyEnd) := by
  intro es
  induction es with
  | nil =>
    intro msgs h
    obtain rfl := List.map_eq_nil_iff.mp h.symm
    rfl
  | cons e es ih =>
    intro msgs h
    rcases msgs with _ | ⟨d, msgs⟩
    · cases h
    · rw [List.map_cons, List.map_cons] at h
      obtain ⟨he, hes⟩ := List.cons.inj h
      rw [plan, he, ih msgs hes]

end RequestSetup

/-- **Run law of a request stream.** Whatever the body yields, and whatever the handler
and the drain do in what order: the polls answer the messages of the envelopes that the
body holds, in order, up to END_STREAM or the first error, then that error, then the end
for ever, and all but as many polls as the body does not answer are answered; the body is
read by the stream, then by at most one drain, within its limit; and a body that ends
inside an envelope gives an error after the messages before it. -/
theorem request_run_law (t : RequestSetup) (body : RequestBody) (as : List RequestAction) :
    answersIn ((RequestRun.start t body).trace as) =
        (requestAnswers (t.reading (requestRest (ready body.polls)).1
          (requestRest (ready body.polls)).2)).take
            (answersIn ((RequestRun.start t body).trace as)).length ∧
      (.drop ∉ as → as.count .poll ≤
        pendings body.polls + (answersIn ((RequestRun.start t body).trace as)).length) ∧
      LawfulTrace body ((RequestRun.start t body).trace as) ∧
      ∀ (r : Bytes) (msgs : List Bytes), (requestRest (ready body.polls)).2 = .eof →
        (parse (decodeWith t.limits) (requestRest (ready body.polls)).1).stop = .rest r → r ≠ [] →
        (parse (decodeWith t.limits) (requestRest (ready body.polls)).1).items.map
            t.decodeEnvelope = msgs.map (fun d => .ok (.message d)) →
          t.reading (requestRest (ready body.polls)).1 (requestRest (ready body.polls)).2 =
            (msgs, some (.invalidArgument "incomplete request envelope")) := by
  have hlive : (RequestBodyStream.start t body).Live t := by
    intro st hst
    obtain rfl := Option.some.inj hst
    exact ⟨EnvelopeAssembler.new_valid _, rfl, rfl⟩
  refine ⟨RequestRun.answersIn_trace as (.start t body) hlive,
    RequestRun.polls_le_answersIn as (.start t body) hlive rfl, ?_, ?_⟩
  · have hnone : body.polls = [] ++ body.polls := rfl
    have hstart : Owned t body [] (.start t body) := .reading (hlive _ rfl) hnone rfl rfl
    obtain ⟨r', h⟩ := hstart.trace as
    exact h.lawful
  · intro r msgs hend hstop hne hmsgs
    rw [RequestSetup.reading, t.plan_messages _ _ _ _ hmsgs, hstop, hend, RequestSetup.stopError]
    simp only [if_neg hne]

end ConnectRpc
