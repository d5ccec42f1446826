import ConnectRpc.Trailers
import ConnectRpc.Lib.Poll

/-!
# The response stream

`BatchingEnvelopeStream` turns the messages of a handler into the frames of a
response body. It gathers encoded messages in a buffer, hands large segments over
uncopied, and ends with one terminal frame; where the source waits, the buffer is
sent as it is.

A state owes the bytes that are buffered or queued and those of the messages still
to come (`owed`). `PollStep` lists what one poll can do to that debt, and
`pollNext_step` shows that it does nothing else; the properties of whole runs are
carried by `ready_invariant` from there.
-/

namespace ConnectRpc

open Lib

variable (cr : Crates)

/-! ## The source -/

/-- What a poll of the message source answers. -/
inductive SourceEvent : Type where
  /-- nothing yet -/
  | pending
  /-- a message -/
  | item : EncodedBody → SourceEvent
  /-- the handler failed -/
  | error : ConnectError → SourceEvent

/-- The envelopes of the messages a source yields up to its end, the first error
or the first message that cannot be encoded, and that error. -/
def planned (enc : EnvelopeEncoder) : List SourceEvent → List Envelope × Option ConnectError
  | [] => ([], none)
  | .pending :: rest => planned enc rest
  | .error err :: _ => ([], some err)
  | .item body :: rest =>
    match enc.envelope body with
    | .error err => ([], some err)
    | .ok e => (e :: (planned enc rest).1, (planned enc rest).2)

/-- Whether an answer of the source lets the stream go on. -/
def SourceEvent.goesOn (enc : EnvelopeEncoder) : SourceEvent → Bool
  | pending => true
  | error _ => false
  | item body => (enc.envelope body).isOk

/-- A stream succeeds when its source ends without an error and every message
encodes. -/
theorem planned_success_iff (enc : EnvelopeEncoder) (source : List SourceEvent) :
    (planned enc source).2 = none ↔ ∀ ev ∈ source, ev.goesOn enc = true := by
  induction source with
  | nil => simp [planned]
  | cons ev source ih =>
    rw [List.forall_mem_cons, ← ih]
    cases ev with
    | pending => simp [planned, SourceEvent.goesOn]
    | error err => simp [planned, SourceEvent.goesOn]
    | item body =>
      rcases h : enc.envelope body with err | e <;>
        simp [planned, SourceEvent.goesOn, h, Except.isOk, Except.toBool]

/-! ## The stream -/

/-- Bytes gathered before a frame is sent. -/
def STREAM_BATCH_THRESHOLD : ℕ := 16 * 1024

/-- The state of a response stream. -/
structure BatchingEnvelopeStream where
  /-- the messages, as the polls of the source will answer; past the end the source
  stays at its end -/
  source : List SourceEvent
  /-- the accumulation buffer -/
  buf : Bytes
  /-- the envelope encoder -/
  encoder : EnvelopeEncoder
  /-- the trailers of the handler -/
  trailers : HeaderMap
  /-- how the terminal frame is built -/
  finalizer : StreamFinalizer
  /-- the terminal frame, staged for the next poll -/
  pendingFinal : Option Frame
  /-- segments of the current envelope not yet sent, in wire order -/
  pendingSegments : List Bytes
  /-- whether the terminal frame is out -/
  done : Bool

namespace BatchingEnvelopeStream

/-- A fresh stream. -/
def new (source : List SourceEvent) (trailers : HeaderMap)
    (compression : Option (CompressionRegistry × String)) (policy : CompressionPolicy)
    (finalizer : StreamFinalizer) : BatchingEnvelopeStream where
  source := source
  buf := []
  encoder := ⟨compression, policy⟩
  trailers := trailers
  finalizer := finalizer
  pendingFinal := none
  pendingSegments := []
  done := false

/-- The loop of `drain_segments`: copy small segments into the buffer, send large
ones by themselves, the buffer before them. -/
def drainLoop (buf : Bytes) : List Bytes → Option Frame × Bytes × List Bytes
  | [] => (none, buf, [])
  | segment :: segments =>
    if segment.length < MIN_CHAIN_SIZE then
      if (buf ++ segment).length ≥ STREAM_BATCH_THRESHOLD then
        (some (.data (buf ++ segment)), [], segments)
      else drainLoop (buf ++ segment) segments
    else if buf = [] then (some (.data segment), [], segments)
    else (some (.data buf), [], segment :: segments)

/-- `drain_segments`. -/
def drainSegments (s : BatchingEnvelopeStream) : Option Frame × BatchingEnvelopeStream :=
  let (frame, buf, segments) := drainLoop s.buf s.pendingSegments
  (frame, { s with buf := buf, pendingSegments := segments })

/-- Send the buffer (`flush_buf`). -/
def flush (s : BatchingEnvelopeStream) : Poll (Option Frame) × BatchingEnvelopeStream :=
  (.ready (some (.data s.buf)), { s with buf := [] })

/-- The stream has ended: send the terminal frame, or the buffer first with the
terminal frame staged. -/
def finish (s : BatchingEnvelopeStream) (final : Frame) :
    Poll (Option Frame) × BatchingEnvelopeStream :=
  if s.buf = [] then (.ready (some final), { s with done := true })
  else { s with pendingFinal := some final }.flush

/-- The loop of `poll_next` over the answers of the source. -/
def pollLoop : List SourceEvent → BatchingEnvelopeStream →
    Poll (Option Frame) × BatchingEnvelopeStream
  | [], s => { s with source := [] }.finish (s.finalizer.success cr s.trailers)
  | .pending :: source, s =>
    if s.buf = [] then (.pending, { s with source := source })
    else { s with source := source }.flush
  | .error err :: source, s =>
    { s with source := source }.finish (s.finalizer.error cr err s.trailers)
  | .item body :: source, s =>
    match s.encoder.encodeChained body s.buf s.pendingSegments (some MIN_CHAIN_SIZE) with
    | .error err => { s with source := source }.finish (s.finalizer.error cr err s.trailers)
    | .ok (buf, segments) =>
      match { s with source := source, buf := buf, pendingSegments := segments }.drainSegments with
      | (some frame, s) => (.ready (some frame), s)
      | (none, s) =>
        if s.buf.length ≥ STREAM_BATCH_THRESHOLD then s.flush else pollLoop source s

/-- `poll_next`. In the poll that comes to the end the source panics if the terminal frame cannot be
built (`StreamFinalizer.Builds`). -/
def pollNext (s : BatchingEnvelopeStream) : Poll (Option Frame) × BatchingEnvelopeStream :=
  if s.done then (.ready none, s)
  else
    match s.drainSegments with
    | (some frame, s) => (.ready (some frame), s)
    | (none, s) =>
      match s.pendingFinal with
      | some frame => (.ready (some frame), { s with pendingFinal := none, done := true })
      | none => s.pollLoop cr s.source

/-! ## What a state owes -/

/-- The bytes still to be sent before the terminal frame. -/
def owed (s : BatchingEnvelopeStream) : Bytes :=
  s.buf ++ (s.pendingSegments.flatten ++ (planned s.encoder s.source).1.flatMap Envelope.wire)

/-- How the stream will end. -/
def outcome (s : BatchingEnvelopeStream) : Option ConnectError :=
  (planned s.encoder s.source).2

/-- The terminal frame the stream will end with. -/
def final (s : BatchingEnvelopeStream) : Frame :=
  s.finalizer.terminal cr s.outcome s.trailers

/-- The source has not ended. -/
structure Active (s : BatchingEnvelopeStream) : Prop where
  /-- nothing is staged -/
  pendingFinal : s.pendingFinal = none
  /-- nothing is out -/
  done : s.done = false

/-- What one poll of an active state can do. -/
inductive PollStep (s : BatchingEnvelopeStream) :
    Poll (Option Frame) → BatchingEnvelopeStream → Prop where
  /-- the source is pending and nothing is buffered -/
  | pending {s' : BatchingEnvelopeStream} (hbuf : s.buf = [])
      (hsegs : s.pendingSegments.flatten = []) (hsource : s.source = .pending :: s'.source)
      (hactive : s'.Active) (hbuf' : s'.buf = []) (howed : s'.owed = s.owed)
      (hfinal : s'.final cr = s.final cr) : PollStep s .pending s'
  /-- some bytes go out -/
  | data {s' : BatchingEnvelopeStream} {b : Bytes} (hb : b ≠ [])
      (hsource : s'.source.length ≤ s.source.length) (hactive : s'.Active) (hbuf' : s'.buf = [])
      (howed : s.owed = b ++ s'.owed) (hfinal : s'.final cr = s.final cr) :
      PollStep s (.ready (some (.data b))) s'
  /-- the last bytes go out, the terminal frame is staged -/
  | last {s' : BatchingEnvelopeStream} (hb : s.owed ≠ []) (hdone : s'.done = false)
      (hbuf' : s'.buf = []) (hsegs' : s'.pendingSegments = [])
      (hstaged : s'.pendingFinal = some (s.final cr)) :
      PollStep s (.ready (some (.data s.owed))) s'
  /-- the terminal frame goes out, all bytes being out -/
  | final {s' : BatchingEnvelopeStream} (howed : s.owed = []) (hdone : s'.done = true) :
      PollStep s (.ready (some (s.final cr))) s'

/-- A step of a state is one of any state that owes the same, as long as it can
answer "not yet" only if that one can. -/
theorem PollStep.of_owed {s t s' : BatchingEnvelopeStream} {a : Poll (Option Frame)}
    (h : PollStep cr t a s') (hwait : t.buf = [] → s.buf = [] ∧ s.pendingSegments.flatten = [] ∧
      s.source = t.source) (howed : t.owed = s.owed)
    (hfinal : t.final cr = s.final cr) (hsource : t.source.length ≤ s.source.length) :
    PollStep cr s a s' := by
  cases h with
  | pending hempty _ hsource' hactive hbuf' howed' hfinal' =>
    obtain ⟨hbuf, hsegs, hsame⟩ := hwait hempty
    exact .pending hbuf hsegs (hsame.trans hsource') hactive hbuf' (howed'.trans howed)
      (hfinal'.trans hfinal)
  | data hb hs hactive hbuf' howed' hfinal' =>
    exact .data hb (Nat.le_trans hs hsource) hactive hbuf' (howed ▸ howed') (hfinal'.trans hfinal)
  | last hb hdone hbuf' hsegs' hstaged =>
    rw [howed]
    exact .last (howed ▸ hb) hdone hbuf' hsegs' (hfinal ▸ hstaged)
  | final howed' hdone =>
    rw [hfinal]
    exact .final (howed ▸ howed') hdone

/-- Draining either empties the queue into the buffer, or answers with a
non-empty frame from the front of what is buffered and queued. -/
theorem drainLoop_eq (segments : List Bytes) : ∀ buf : Bytes,
    drainLoop buf segments = (none, buf ++ segments.flatten, []) ∨
      ∃ b segments', drainLoop buf segments = (some (.data b), [], segments') ∧ b ≠ [] ∧
        buf ++ segments.flatten = b ++ segments'.flatten := by
  induction segments with
  | nil => exact fun buf => .inl (by simp [drainLoop])
  | cons segment segments ih =>
    intro buf
    by_cases hsmall : segment.length < MIN_CHAIN_SIZE
    · by_cases hfull : (buf ++ segment).length ≥ STREAM_BATCH_THRESHOLD
      · refine .inr ⟨buf ++ segment, segments, ?_, ?_, by simp⟩
        · rw [drainLoop, if_pos hsmall, if_pos hfull]
        · intro h
          rw [h] at hfull
          exact absurd hfull (by decide)
      · rw [drainLoop, if_pos hsmall, if_neg hfull, List.flatten_cons, ← List.append_assoc]
        exact ih (buf ++ segment)
    · rw [drainLoop, if_neg hsmall]
      by_cases hbuf : buf = []
      · refine .inr ⟨segment, segments, if_pos hbuf, ?_, by simp [hbuf]⟩
        rintro rfl
        exact hsmall (by decide)
      · exact .inr ⟨buf, segment :: segments, if_neg hbuf, hbuf, rfl⟩

theorem drainSegments_eq (s : BatchingEnvelopeStream) :
    s.drainSegments =
        (none, { s with buf := s.buf ++ s.pendingSegments.flatten, pendingSegments := [] }) ∨
      ∃ b segments, s.drainSegments =
          (some (.data b), { s with buf := [], pendingSegments := segments }) ∧ b ≠ [] ∧
        s.buf ++ s.pendingSegments.flatten = b ++ segments.flatten := by
  rcases drainLoop_eq s.pendingSegments s.buf with h | ⟨b, segments, h, hb, heq⟩
  · exact .inl (by rw [drainSegments, h])
  · exact .inr ⟨b, segments, by rw [drainSegments, h], hb, heq⟩

/-- Sending a buffer that is not empty. -/
theorem flush_step {s t : BatchingEnvelopeStream} (ht : t.Active) (hbuf : t.buf ≠ [])
    (howed : t.owed = s.owed) (hfinal : t.final cr = s.final cr)
    (hsource : t.source.length ≤ s.source.length) : PollStep cr s t.flush.1 t.flush.2 := by
  refine .data hbuf hsource ⟨ht.pendingFinal, ht.done⟩ rfl ?_ hfinal
  rw [← howed]
  rfl

/-- Ending with everything that is owed in the buffer. -/
theorem finish_step {s t : BatchingEnvelopeStream} (ht : t.Active) (hbuf : t.buf = s.owed)
    (hsegs : t.pendingSegments = []) :
    PollStep cr s (t.finish (s.final cr)).1 (t.finish (s.final cr)).2 := by
  rw [finish]
  by_cases h : t.buf = []
  · rw [if_pos h]
    exact .final (hbuf ▸ h) rfl
  · rw [if_neg h, flush, hbuf]
    exact .last (hbuf ▸ h) ht.done rfl hsegs rfl

/-- What the loop does, for any buffer. The induction is on the answers of the
source; once a message is in the buffer the loop cannot answer "not yet", so its step is one
of the state before it (`PollStep.of_owed`). -/
theorem pollLoop_step : ∀ (source : List SourceEvent) (s : BatchingEnvelopeStream), s.Active →
    s.pendingSegments = [] → s.source = source →
      PollStep cr s (s.pollLoop cr source).1 (s.pollLoop cr source).2 := by
  intro source
  induction source with
  | nil =>
    intro s hs hsegs hsource
    have hfinal : s.final cr = s.finalizer.success cr s.trailers := by
      simp [final, outcome, planned, hsource, StreamFinalizer.terminal]
    rw [pollLoop, ← hfinal]
    refine finish_step cr ⟨hs.pendingFinal, hs.done⟩ ?_ hsegs
    simp [owed, hsegs, hsource, planned]
  | cons ev source ih =>
    intro s hs hsegs hsource
    cases ev with
    | pending =>
      rw [pollLoop]
      have howed : { s with source := source }.owed = s.owed := by
        simp [owed, hsource, planned]
      have hfinal : { s with source := source }.final cr = s.final cr := by
        simp [final, outcome, hsource, planned]
      by_cases hbuf : s.buf = []
      · rw [if_pos hbuf]
        exact .pending hbuf (by rw [hsegs]; rfl) hsource ⟨hs.pendingFinal, hs.done⟩ hbuf howed
          hfinal
      · rw [if_neg hbuf]
        exact flush_step cr ⟨hs.pendingFinal, hs.done⟩ hbuf howed hfinal (by simp [hsource])
    | error err =>
      have hfinal : s.final cr = s.finalizer.error cr err s.trailers := by
        simp [final, outcome, planned, hsource, StreamFinalizer.terminal]
      rw [pollLoop, ← hfinal]
      refine finish_step cr ⟨hs.pendingFinal, hs.done⟩ ?_ hsegs
      simp [owed, hsegs, hsource, planned]
    | item body =>
      have henc := EnvelopeEncoder.encodeChained_eq s.encoder body s.buf s.pendingSegments
        (some MIN_CHAIN_SIZE)
      rcases he : s.encoder.envelope body with err | e
      · simp only [he] at henc
        have hfinal : s.final cr = s.finalizer.error cr err s.trailers := by
          simp [final, outcome, planned, hsource, he, StreamFinalizer.terminal]
        simp only [pollLoop, henc]
        rw [← hfinal]
        refine finish_step cr ⟨hs.pendingFinal, hs.done⟩ ?_ hsegs
        simp [owed, hsegs, hsource, planned, he]
      · simp only [he] at henc
        obtain ⟨head, segments, henc, hwire, hhead⟩ := henc
        rw [hsegs, List.nil_append] at henc
        simp only [pollLoop, hsegs, henc]
        have hfinal : ∀ buf segments, BatchingEnvelopeStream.final cr
            { s with source := source, buf := buf, pendingSegments := segments } = s.final cr := by
          intro buf segments
          simp [final, outcome, hsource, planned, he]
        have howed : s.owed = s.buf ++ (e.wire ++
            (planned s.encoder source).1.flatMap Envelope.wire) := by
          simp [owed, hsegs, hsource, planned, he]
        rcases drainSegments_eq
            { s with source := source, buf := s.buf ++ head, pendingSegments := segments } with
          hd | ⟨b, segments', hd, hb, hsplit⟩
        · have hbuf : s.buf ++ head ++ segments.flatten = s.buf ++ e.wire := by
            rw [List.append_assoc, hwire]
          have hne : s.buf ++ e.wire ≠ [] := by
            simp [Envelope.wire]
          simp only [hbuf] at hd
          have howed' : BatchingEnvelopeStream.owed { s with
              source := source, buf := s.buf ++ e.wire, pendingSegments := [] } = s.owed := by
            rw [howed]
            simp [owed]
          rw [hd]
          simp only
          split
          · exact flush_step cr ⟨hs.pendingFinal, hs.done⟩ hne howed' (hfinal _ _)
              (by simp [hsource])
          · have hrec := ih { s with
              source := source, buf := s.buf ++ e.wire, pendingSegments := [] }
              ⟨hs.pendingFinal, hs.done⟩ rfl rfl
            exact hrec.of_owed cr (fun hempty => absurd hempty hne) howed' (hfinal _ _)
              (by simp [hsource])
        · rw [hd]
          simp only at hsplit ⊢
          refine .data hb (by simp [hsource]) ⟨hs.pendingFinal, hs.done⟩ rfl ?_ (hfinal _ _)
          rw [howed, owed]
          simp only [List.nil_append]
          rw [← List.append_assoc b, ← hsplit, List.append_assoc s.buf head, hwire,
            List.append_assoc]

/-- **One poll of an active state** with an empty buffer, as it is between
polls. -/
theorem pollNext_step {s : BatchingEnvelopeStream} (hs : s.Active) (hbuf : s.buf = []) :
    PollStep cr s (s.pollNext cr).1 (s.pollNext cr).2 := by
  rw [pollNext, if_neg (by rw [hs.done]; exact Bool.false_ne_true)]
  rcases drainSegments_eq s with hd | ⟨b, segments, hd, hb, hsplit⟩
  · simp only [hd, hs.pendingFinal]
    have hloop := pollLoop_step cr s.source
      { s with buf := s.buf ++ s.pendingSegments.flatten, pendingSegments := [] }
      ⟨hs.pendingFinal, hs.done⟩ rfl rfl
    simp only [hs.pendingFinal] at hloop
    refine hloop.of_owed cr ?_ (by simp [owed]) rfl (Nat.le_refl _)
    intro hempty
    exact ⟨hbuf, (List.append_eq_nil_iff.mp hempty).2, rfl⟩
  · simp only [hd]
    refine .data hb (Nat.le_refl _) ⟨hs.pendingFinal, hs.done⟩ rfl ?_ rfl
    simp only [owed, List.nil_append]
    rw [← List.append_assoc, hsplit, List.append_assoc]

theorem drainSegments_empty {s : BatchingEnvelopeStream} (h : s.pendingSegments = []) :
    s.drainSegments = (none, s) := by
  cases s
  simp only at h
  subst h
  rfl

/-- One poll with the terminal frame staged. -/
theorem pollNext_staged {s : BatchingEnvelopeStream} {f : Frame} (hdone : s.done = false)
    (hsegs : s.pendingSegments = []) (hstaged : s.pendingFinal = some f) :
    s.pollNext cr = (.ready (some f), { s with pendingFinal := none, done := true }) := by
  rw [pollNext, if_neg (by rw [hdone]; exact Bool.false_ne_true)]
  simp only [drainSegments_empty hsegs, hstaged]

/-- One poll after the terminal frame. -/
theorem pollNext_done {s : BatchingEnvelopeStream} (h : s.done = true) :
    s.pollNext cr = (.ready none, s) := by
  rw [pollNext, if_pos h]

/-! ## Runs -/

/-- Data frames as a stream yields them. -/
def dataFrames (datas : List Bytes) : List (Option Frame) :=
  datas.map fun b => some (.data b)

theorem dataFrames_concat (datas : List Bytes) (b : Bytes) :
    dataFrames datas ++ [some (.data b)] = dataFrames (datas ++ [b]) := by
  simp [dataFrames]

/-- The whole of what a stream has sent, once its terminal frame is out: the bytes
in non-empty frames, the terminal frame, and nothing more. -/
def Complete (bytes : Bytes) (final : Frame) (frames : List (Option Frame)) : Prop :=
  ∃ (datas : List Bytes) (k : ℕ), (∀ b ∈ datas, b ≠ []) ∧ datas.flatten = bytes ∧
    frames = dataFrames datas ++ some final :: List.replicate k none

/-- What has been sent before the terminal frame: some of the bytes, from the
front. -/
def Partial (bytes : Bytes) (frames : List (Option Frame)) : Prop :=
  ∃ datas : List Bytes, (∀ b ∈ datas, b ≠ []) ∧ datas.flatten <+: bytes ∧
    frames = dataFrames datas

/-- The run invariant: a state between polls and what was sent to reach it. -/
inductive Sent (bytes : Bytes) (f : Frame) :
    List (Option Frame) → BatchingEnvelopeStream → Prop where
  /-- the source has not ended -/
  | streaming {datas : List Bytes} {s : BatchingEnvelopeStream} (hne : ∀ b ∈ datas, b ≠ [])
      (hactive : s.Active) (hbuf : s.buf = []) (hbytes : bytes = datas.flatten ++ s.owed)
      (hfinal : s.final cr = f) : Sent bytes f (dataFrames datas) s
  /-- the terminal frame is staged -/
  | staged {datas : List Bytes} {s : BatchingEnvelopeStream} (hne : ∀ b ∈ datas, b ≠ [])
      (hbytes : datas.flatten = bytes) (hdone : s.done = false) (hbuf : s.buf = [])
      (hsegs : s.pendingSegments = []) (hstaged : s.pendingFinal = some f) :
      Sent bytes f (dataFrames datas) s
  /-- the terminal frame is out -/
  | ended {datas : List Bytes} {s : BatchingEnvelopeStream} {k : ℕ} (hne : ∀ b ∈ datas, b ≠ [])
      (hbytes : datas.flatten = bytes) (hdone : s.done = true) :
      Sent bytes f (dataFrames datas ++ some f :: List.replicate k none) s

/-- A bound on the polls until the terminal frame is out. -/
def remaining (s : BatchingEnvelopeStream) : ℕ :=
  if s.done then 0
  else if s.pendingFinal.isSome then 1
  else s.owed.length + s.source.length + 2

theorem remaining_active {s : BatchingEnvelopeStream} (h : s.Active) :
    s.remaining = s.owed.length + s.source.length + 2 := by
  rw [remaining, h.done, h.pendingFinal]
  rfl

theorem remaining_staged {s : BatchingEnvelopeStream} {f : Frame} (hdone : s.done = false)
    (h : s.pendingFinal = some f) : s.remaining = 1 := by
  rw [remaining, hdone, h]
  rfl

theorem remaining_done {s : BatchingEnvelopeStream} (h : s.done = true) : s.remaining = 0 := by
  rw [remaining, h]
  rfl

/-- **One poll of a run**, with what it answers and how near the end it gets. -/
theorem Sent.poll {bytes : Bytes} {f : Frame} {l : List (Option Frame)}
    {s : BatchingEnvelopeStream} (h : Sent cr bytes f l s) :
    (s.pollNext cr).2.remaining ≤ s.remaining - 1 ∧
      match (s.pollNext cr).1 with
      | .pending => Sent cr bytes f l (s.pollNext cr).2
      | .ready b => Sent cr bytes f (l ++ [b]) (s.pollNext cr).2 := by
  cases h with
  | @streaming datas s hne hactive hbuf hbytes hfinal =>
    have hstep := pollNext_step cr hactive hbuf
    rw [remaining_active hactive]
    revert hstep
    generalize s.pollNext cr = r
    obtain ⟨a, s'⟩ := r
    intro hstep
    cases hstep with
    | pending _ _ hsource hactive' hbuf' howed hfinal' =>
      refine ⟨?_, .streaming hne hactive' hbuf' (howed ▸ hbytes) (hfinal'.trans hfinal)⟩
      rw [remaining_active hactive', howed, hsource, List.length_cons]
      omega
    | @data _ b hb hsource hactive' hbuf' howed hfinal' =>
      refine ⟨?_, ?_⟩
      · have hpos := List.length_pos_of_ne_nil hb
        rw [remaining_active hactive', howed, List.length_append]
        omega
      · simp only
        rw [dataFrames_concat]
        refine .streaming ?_ hactive' hbuf' ?_ (hfinal'.trans hfinal)
        · intro d hd
          rcases List.mem_append.mp hd with hd | hd
          · exact hne d hd
          · obtain rfl := List.mem_singleton.mp hd
            exact hb
        · rw [hbytes, howed, List.flatten_concat, List.append_assoc]
    | last hb hdone hbuf' hsegs' hstaged =>
      refine ⟨?_, ?_⟩
      · have h1 := remaining_staged hdone hstaged
        simp only at h1 ⊢
        omega
      · simp only
        rw [dataFrames_concat]
        refine .staged ?_ ?_ hdone hbuf' hsegs' (hfinal ▸ hstaged)
        · intro d hd
          rcases List.mem_append.mp hd with hd | hd
          · exact hne d hd
          · obtain rfl := List.mem_singleton.mp hd
            exact hb
        · rw [hbytes, List.flatten_concat]
    | final howed hdone =>
      refine ⟨?_, ?_⟩
      · have h0 := remaining_done hdone
        simp only at h0 ⊢
        omega
      · simp only
        rw [hfinal]
        refine .ended (k := 0) hne ?_ hdone
        rw [hbytes, howed, List.append_nil]
  | staged hne hbytes hdone hbuf hsegs hstaged =>
    rw [pollNext_staged cr hdone hsegs hstaged]
    exact ⟨Nat.zero_le _, .ended (k := 0) hne hbytes rfl⟩
  | @ended datas s k hne hbytes hdone =>
    rw [pollNext_done cr hdone]
    refine ⟨?_, ?_⟩
    · have h0 := remaining_done hdone
      simp only
      omega
    · simp only
      rw [List.append_assoc, List.cons_append, ← List.replicate_succ']
      exact .ended hne hbytes hdone

/-- The run invariant after any number of polls, with the bound on what remains. -/
theorem sent_polls {bytes : Bytes} {f : Frame} {s : BatchingEnvelopeStream}
    (h : Sent cr bytes f [] s) (n : ℕ) :
    Sent cr bytes f (ready (polls (pollNext cr) n s)) (after (pollNext cr) n s) ∧
      (after (pollNext cr) n s).remaining ≤ s.remaining - n := by
  constructor
  · have hrun := ready_invariant (R := Sent cr bytes f)
      (fun l t ht (ha : (pollNext cr t).1 = .pending) => by
        have hp := (ht.poll cr).2
        rw [ha] at hp
        exact hp)
      (fun l t b ht ha => by
        have hp := (ht.poll cr).2
        rw [ha] at hp
        exact hp)
      n [] s h
    simpa using hrun
  · -- what has been sent so far does not matter for the bound
    have hinv : ∀ t, (∃ l, Sent cr bytes f l t) → ∃ l, Sent cr bytes f l (t.pollNext cr).2 := by
      rintro t ⟨l, ht⟩
      have hp := (ht.poll cr).2
      revert hp
      rcases (t.pollNext cr).1 with _ | b
      · exact fun hp => ⟨l, hp⟩
      · exact fun hp => ⟨_, hp⟩
    have hremaining : ∀ t, (∃ l, Sent cr bytes f l t) →
        (t.pollNext cr).2.remaining ≤ t.remaining - 1 := by
      rintro t ⟨l, ht⟩
      exact (ht.poll cr).1
    exact after_measure hinv hremaining n s ⟨[], h⟩

/-- **Any polls of a fresh stream**, with the bound on what remains. -/
theorem sent_new (source : List SourceEvent) (trailers : HeaderMap)
    (compression : Option (CompressionRegistry × String)) (policy : CompressionPolicy)
    (fin : StreamFinalizer) (n : ℕ) :
    let s := new source trailers compression policy fin
    Sent cr ((planned ⟨compression, policy⟩ source).1.flatMap Envelope.wire)
        (fin.terminal cr (planned ⟨compression, policy⟩ source).2 trailers)
        (ready (polls (pollNext cr) n s)) (after (pollNext cr) n s) ∧
      (after (pollNext cr) n s).remaining ≤ s.remaining - n := by
  refine sent_polls cr ?_ n
  have hnone : ∀ b ∈ ([] : List Bytes), b ≠ [] := by simp
  exact .streaming hnone ⟨rfl, rfl⟩ rfl rfl rfl

/-- A poll that answers "not yet" found the source pending and nothing left to
send. -/
theorem Sent.of_pending {bytes : Bytes} {f : Frame} {l : List (Option Frame)}
    {s : BatchingEnvelopeStream} (h : Sent cr bytes f l s) (hp : (s.pollNext cr).1 = .pending) :
    s.source.head? = some .pending ∧ s.buf ++ s.pendingSegments.flatten = [] ∧
      s.pendingFinal = none ∧ s.done = false := by
  cases h with
  | streaming hne hactive hbuf hbytes hfinal =>
    have hstep := pollNext_step cr hactive hbuf
    rw [hp] at hstep
    cases hstep with
    | pending _ hsegs hsource _ _ _ _ =>
      exact ⟨by rw [hsource]; rfl, by rw [hbuf, hsegs]; rfl, hactive.pendingFinal, hactive.done⟩
  | staged hne hbytes hdone hbuf hsegs hstaged =>
    rw [pollNext_staged cr hdone hsegs hstaged] at hp
    cases hp
  | ended hne hbytes hdone =>
    rw [pollNext_done cr hdone] at hp
    cases hp

/-- A run that has reached the terminal frame, or not yet. -/
theorem Sent.frames {bytes : Bytes} {f : Frame} {l : List (Option Frame)}
    {s : BatchingEnvelopeStream} (h : Sent cr bytes f l s) :
    Partial bytes l ∨ Complete bytes f l := by
  cases h with
  | streaming hne _ _ hbytes _ => exact .inl ⟨_, hne, ⟨_, hbytes.symm⟩, rfl⟩
  | staged hne hbytes => exact .inl ⟨_, hne, ⟨[], by rw [hbytes, List.append_nil]⟩, rfl⟩
  | ended hne hbytes => exact .inr ⟨_, _, hne, hbytes, rfl⟩

theorem Sent.complete {bytes : Bytes} {f : Frame} {l : List (Option Frame)}
    {s : BatchingEnvelopeStream} (h : Sent cr bytes f l s) (h0 : s.remaining = 0) :
    Complete bytes f l := by
  cases h with
  | streaming hne hactive =>
    rw [remaining_active hactive] at h0
    cases h0
  | staged hne hbytes hdone hbuf hsegs hstaged =>
    rw [remaining_staged hdone hstaged] at h0
    cases h0
  | ended hne hbytes => exact ⟨_, _, hne, hbytes, rfl⟩

/-- Nothing remains only once the terminal frame is out. -/
theorem Sent.done_of_remaining {bytes : Bytes} {f : Frame} {l : List (Option Frame)}
    {s : BatchingEnvelopeStream} (h : Sent cr bytes f l s) (h0 : s.remaining = 0) :
    s.done = true := by
  cases h with
  | streaming _ hactive =>
    rw [remaining_active hactive] at h0
    cases h0
  | staged _ _ hdone _ _ hstaged =>
    rw [remaining_staged hdone hstaged] at h0
    cases h0
  | ended _ _ hdone => exact hdone

end BatchingEnvelopeStream

/-! ## The report of the terminal frame -/

/-- Whether a terminal frame, read the way its form is read, reports success: an
END_STREAM envelope without an error, or a first `grpc-status` of 0 in the trailers
or in a whole trailer frame. -/
def ReportsSuccess : StreamFinalizer → Frame → Prop
  | .connectEndStream, .data b => ∃ payload metadata,
      decodeContiguous u32Max b = .ok (some (⟨flags.END_STREAM, payload⟩, [])) ∧
        parseConnectEndStream cr payload = .ok ⟨none, metadata⟩
  | .grpcTrailers, .trailers m =>
      (m.get hdr.grpcStatus).map HeaderValue.bytes = some (asBytes (toString 0))
  | .grpcWebTrailers, .data b => ∃ payload,
      decodeContiguous u32Max b = .ok (some (⟨flags.GRPC_WEB_TRAILER, payload⟩, [])) ∧
        (blockValues (readTrailerBlock payload) hdr.grpcStatus).head? =
          some (asBytes (toString 0))
  | _, _ => False

/-- Whether the terminal frame of a successful stream fits its length field. -/
def TerminalFits (trailers : HeaderMap) : StreamFinalizer → Prop
  | .connectEndStream => ((EndStreamResponse.success trailers).toJson cr).length ≤ u32Max
  | .grpcTrailers => True
  | .grpcWebTrailers => (trailerPayload (grpcTrailerBlock cr none trailers)).length ≤ u32Max

/-- A flag byte, the length of a payload and the payload decode as one whole
envelope exactly when the payload fits the length field. -/
theorem decodeContiguous_frame (flag : UInt8) (payload : Bytes) (e : Envelope) :
    decodeContiguous u32Max (flag :: toBeBytes payload.length ++ payload) = .ok (some (e, [])) ↔
      payload.length ≤ u32Max ∧ e = ⟨flag, payload⟩ := by
  rw [decodeContiguous_eq]
  constructor
  · intro h
    obtain ⟨header, hlen, hbuf, hflag, hdata, -⟩ := decodeWith_item h
    have hsplit : flag :: toBeBytes payload.length = header ∧ payload = e.data := by
      rw [List.append_nil] at hbuf
      exact List.append_inj hbuf hlen.symm
    refine ⟨?_, ?_⟩
    · rw [hsplit.2, hdata]
      exact fromBeBytes_le _
    · rw [← hsplit.1] at hflag
      cases e
      simp_all
  · rintro ⟨hle, rfl⟩
    have h : decodeWith (messageLimit u32Max) ((Envelope.mk flag payload).wire ++ []) =
        .ok (some (⟨flag, payload⟩, [])) := decodeWith_wire [] hle hle
    rwa [Envelope.wire, List.append_nil] at h

theorem endStreamFrame_eq (r : EndStreamResponse) :
    StreamFinalizer.endStreamFrame cr r =
      .data (if (r.toJson cr).length ≤ u32Max then
        (Envelope.mk flags.END_STREAM (r.toJson cr)).wire else []) := by
  rw [StreamFinalizer.endStreamFrame, EnvelopeEncoder.encodeEndStream]
  by_cases h : (r.toJson cr).length ≤ u32Max
  · rw [writeEnvelope_eq h, if_pos h]
    rfl
  · rw [writeEnvelope, envelopeLength, if_neg h, if_neg h]
    rfl

/-- An END_STREAM frame reports success when it could be written and what it says
is not an error. -/
theorem reportsSuccess_endStream (r : EndStreamResponse) :
    ReportsSuccess cr .connectEndStream (StreamFinalizer.endStreamFrame cr r) ↔
      (r.toJson cr).length ≤ u32Max ∧
        ∃ metadata, parseConnectEndStream cr (r.toJson cr) = .ok ⟨none, metadata⟩ := by
  rw [endStreamFrame_eq, ReportsSuccess]
  by_cases h : (r.toJson cr).length ≤ u32Max
  · rw [if_pos h]
    simp only [Envelope.wire, decodeContiguous_frame]
    constructor
    · rintro ⟨payload, metadata, ⟨-, heq⟩, hp⟩
      cases heq
      exact ⟨h, metadata, hp⟩
    · rintro ⟨-, metadata, hp⟩
      exact ⟨_, metadata, ⟨h, rfl⟩, hp⟩
  · rw [if_neg h]
    constructor
    · rintro ⟨payload, metadata, hd, -⟩
      cases hd
    · rintro ⟨hle, -⟩
      exact absurd hle h

/-- An error is never parsed as a clean end. -/
theorem parseConnectEndStream_forError_ne (err : ConnectError) (trailers : HeaderMap)
    (metadata : Option (List (String × List String))) :
    parseConnectEndStream cr ((EndStreamResponse.forError err trailers).toJson cr) ≠
      .ok ⟨none, metadata⟩ := by
  by_cases h : ((EndStreamResponse.forError err trailers).toJsonValue cr).depth ≤ cr.jsonDepth
  · rw [parseConnectEndStream_forError cr err trailers h]
    intro heq
    cases heq
  · obtain ⟨e, he⟩ := parseConnectEndStream_deep cr err trailers (Nat.lt_of_not_le h)
    rw [he]
    intro heq
    cases heq

/-- The first status of a block is that of the outcome, whatever else was merged
into it. -/
theorem get_grpcStatus_grpcTrailerBlock (outcome : Option ConnectError) (custom : HeaderMap) :
    (grpcTrailerBlock cr outcome custom).get hdr.grpcStatus =
      some (.ofNat (statusNumber outcome)) := by
  rw [HeaderMap.get, getAll_grpcTrailerBlock, getAll_statusEntries_status]
  rfl

theorem statusNumber_zero_iff (outcome : Option ConnectError) :
    asBytes (toString (statusNumber outcome)) = asBytes (toString 0) ↔ outcome = none := by
  rcases outcome with _ | err
  · exact ⟨fun _ => rfl, fun _ => rfl⟩
  · have hne : ∀ c : ErrorCode, asBytes (toString c.grpcCode) ≠ asBytes (toString 0) := by
      intro c
      cases c <;> decide
    exact ⟨fun h => absurd h (hne err.code), fun h => by cases h⟩

/-- **What the terminal frame reports**: success exactly for a successful outcome
whose frame fits its length field. -/
theorem reportsSuccess_terminal (fin : StreamFinalizer) (outcome : Option ConnectError)
    (trailers : HeaderMap) :
    ReportsSuccess cr fin (fin.terminal cr outcome trailers) ↔
      outcome = none ∧ TerminalFits cr trailers fin := by
  cases fin with
  | connectEndStream =>
    rcases outcome with _ | err
    · rw [StreamFinalizer.terminal, StreamFinalizer.success, reportsSuccess_endStream,
        parseConnectEndStream_success]
      exact ⟨fun h => ⟨rfl, h.1⟩, fun h => ⟨h.2, _, rfl⟩⟩
    · rw [StreamFinalizer.terminal, StreamFinalizer.error, reportsSuccess_endStream]
      constructor
      · rintro ⟨-, metadata, h⟩
        exact absurd h (parseConnectEndStream_forError_ne cr err trailers metadata)
      · rintro ⟨h, -⟩
        cases h
  | grpcTrailers =>
    rw [StreamFinalizer.terminal_grpc, ReportsSuccess, get_grpcStatus_grpcTrailerBlock,
      Option.map_some, HeaderValue.bytes_ofNat, Option.some_inj, statusNumber_zero_iff]
    exact ⟨fun h => ⟨h, trivial⟩, And.left⟩
  | grpcWebTrailers =>
    have hhead : (blockValues (readTrailerBlock
        (trailerPayload (grpcTrailerBlock cr outcome trailers))) hdr.grpcStatus).head? =
          some (asBytes (toString (statusNumber outcome))) := by
      rw [readTrailerBlock_payload, blockValues_entries, List.head?_map]
      have hget := get_grpcStatus_grpcTrailerBlock cr outcome trailers
      rw [HeaderMap.get] at hget
      rw [hget, Option.map_some, HeaderValue.bytes_ofNat]
    rw [StreamFinalizer.terminal_grpcWeb, encodeGrpcWebTrailers, ReportsSuccess]
    simp only [decodeContiguous_frame]
    constructor
    · rintro ⟨payload, ⟨hle, heq⟩, hs⟩
      cases heq
      rw [hhead, Option.some_inj, statusNumber_zero_iff] at hs
      subst hs
      exact ⟨rfl, hle⟩
    · rintro ⟨rfl, hle⟩
      exact ⟨_, ⟨hle, rfl⟩, hhead⟩

/-! ## Nothing is lost -/

/-- What a response stream must do: for any number of polls, what was sent is some
of the bytes of the envelopes of the messages before the end, from the front, or all
of them, the terminal frame, and nothing more; enough polls reach that; a poll
answers "not yet" only when the source does and no bytes are left to send; and the
terminal frame can be built, is that of the outcome and reports success exactly if the
source ended without an error and every message encoded. -/
structure LosesNothing (source : List SourceEvent) (trailers : HeaderMap)
    (compression : Option (CompressionRegistry × String)) (policy : CompressionPolicy)
    (fin : StreamFinalizer) : Prop where
  /-- what any run has sent -/
  frames : ∀ n, let enc : EnvelopeEncoder := ⟨compression, policy⟩
    let bytes := (planned enc source).1.flatMap Envelope.wire
    let final := fin.terminal cr (planned enc source).2 trailers
    let frames := ready (polls (BatchingEnvelopeStream.pollNext cr) n
      (.new source trailers compression policy fin))
    (BatchingEnvelopeStream.Partial bytes frames ∨
        BatchingEnvelopeStream.Complete bytes final frames) ∧
      (bytes.length + source.length + 2 ≤ n → BatchingEnvelopeStream.Complete bytes final frames)
  /-- when a run waits -/
  waits : ∀ n s, s = after (BatchingEnvelopeStream.pollNext cr) n
      (.new source trailers compression policy fin) → (s.pollNext cr).1 = .pending →
      s.source.head? = some .pending ∧ s.buf ++ s.pendingSegments.flatten = [] ∧
        s.pendingFinal = none ∧ s.done = false
  /-- building the terminal frame does not panic -/
  builds : fin.Builds cr (planned ⟨compression, policy⟩ source).2 trailers
  /-- what the terminal frame reports -/
  reports : let enc : EnvelopeEncoder := ⟨compression, policy⟩
    ReportsSuccess cr fin (fin.terminal cr (planned enc source).2 trailers) ↔
      ∀ ev ∈ source, ev.goesOn enc = true

/-- **The response stream loses, reorders and duplicates nothing**, for every
source and every finalizer, if and only if the trailers leave room for the status and the
terminal frame of a stream that succeeds fits its length field. -/
theorem batching_losesNothing_iff (source : List SourceEvent) (trailers : HeaderMap)
    (compression : Option (CompressionRegistry × String)) (policy : CompressionPolicy)
    (fin : StreamFinalizer) :
    LosesNothing cr source trailers compression policy fin ↔
      fin.Room cr (planned ⟨compression, policy⟩ source).2 trailers ∧
        ((∀ ev ∈ source, ev.goesOn ⟨compression, policy⟩ = true) →
          TerminalFits cr trailers fin) := by
  have hreports : ReportsSuccess cr fin
      (fin.terminal cr (planned ⟨compression, policy⟩ source).2 trailers) ↔
        (∀ ev ∈ source, ev.goesOn ⟨compression, policy⟩ = true) ∧
          TerminalFits cr trailers fin := by
    rw [reportsSuccess_terminal, planned_success_iff]
  constructor
  · intro h
    refine ⟨(fin.builds_iff cr _ trailers).mp h.builds, fun hgood => ?_⟩
    exact (hreports.mp (h.reports.mpr hgood)).2
  · rintro ⟨hroom, hfits⟩
    have hbuilds := (fin.builds_iff cr _ trailers).mpr hroom
    have hrun := BatchingEnvelopeStream.sent_new cr source trailers compression policy fin
    refine ⟨fun n => ⟨(hrun n).1.frames cr, fun hn => (hrun n).1.complete cr ?_⟩, ?_, hbuilds, ?_⟩
    · have hle := (hrun n).2
      have hlen : (BatchingEnvelopeStream.new source trailers compression policy fin).owed =
          (planned ⟨compression, policy⟩ source).1.flatMap Envelope.wire := rfl
      have hactive : (BatchingEnvelopeStream.new source trailers compression policy fin).Active :=
        ⟨rfl, rfl⟩
      rw [BatchingEnvelopeStream.remaining_active hactive, hlen] at hle
      have hsource : (BatchingEnvelopeStream.new source trailers compression policy fin).source =
          source := rfl
      rw [hsource] at hle
      omega
    · rintro n s rfl hp
      exact (hrun n).1.of_pending cr hp
    · exact ⟨fun h => (hreports.mp h).1, fun h => hreports.mpr ⟨h, hfits h⟩⟩

/-- A value of many letters. -/
def HeaderValue.letters (n : ℕ) : HeaderValue :=
  ⟨List.replicate n 97, by
    rw [List.all_eq_true]
    intro b hb
    rw [List.eq_of_mem_replicate hb]
    decide⟩

/-- A value is no longer than a block it is in. -/
theorem length_le_trailerPayload {t : HeaderMap} {n : HeaderName} {v : HeaderValue}
    (h : v ∈ t.getAll n) : v.bytes.length ≤ (trailerPayload t).length := by
  obtain ⟨l, r, hsplit⟩ := List.append_of_mem (HeaderMap.mem_getAll.mp h)
  rw [trailerPayload, hsplit, List.flatMap_append, List.flatMap_cons]
  simp only [List.length_append, trailerLine]
  omega

/-- `x-note` -/
def xNote : HeaderName := ⟨"x-note", by decide⟩

/-- A stream that succeeds with a trailer of `n` letters on gRPC-Web. -/
theorem not_losesNothing_letters {n : ℕ} (h : u32Max < n) :
    ¬ LosesNothing .std [] ⟨[(xNote, .letters n)]⟩ none .disabled
      .grpcWebTrailers := by
  intro hl
  have hreports := hl.reports.mpr (by simp)
  have hfits := ((reportsSuccess_terminal _ _ _ _).mp hreports).2
  have hmem : HeaderValue.letters n ∈ (grpcTrailerBlock .std none
      ⟨[(xNote, .letters n)]⟩).getAll xNote := by
    rw [getAll_grpcTrailerBlock, mergedTrailers]
    exact List.mem_append_right _ (HeaderMap.mem_getAll.mpr List.mem_cons_self)
  have hlen := Nat.le_trans (length_le_trailerPayload hmem) hfits
  rw [HeaderValue.letters, List.length_replicate] at hlen
  exact absurd hlen (Nat.not_le.mpr h)

/-- With a trailer of 4 GiB the terminal frame does not report the success. -/
theorem batching_oversize_trailers :
    ¬ LosesNothing .std [] ⟨[(xNote, .letters 0x100000000)]⟩ none .disabled
      .grpcWebTrailers :=
  not_losesNothing_letters (by decide)

end ConnectRpc
