import ConnectRpc.Batching

/-!
# The batch buffer

Bytes enter the buffer of a response stream at three places: envelopes that are copied whole,
bare headers of envelopes that are not, and the small segments between large ones. It is sent
at other places.

To bound the buffer at all times, a poll is run here together with its moments: what is in the
buffer and in the queue after each write. This is the same poll (`pollNextMoments_snd`).
`PollLaw` says what holds of one, and `batch_buffer_bounded` says so for every poll of every
stream.
-/

namespace ConnectRpc

open Lib

/-- The buffer and the queue of a stream, after one of its writes. -/
structure Moment where
  /-- the accumulation buffer -/
  buf : Bytes
  /-- the segments not yet sent -/
  pendingSegments : List Bytes

/-! ## A poll and its moments -/

/-- Copy segments, one after the other. -/
def putSlices (chained : List Bytes) : Bytes → List Bytes → List Moment
  | _, [] => []
  | dst, segment :: segments =>
    ⟨dst ++ segment, chained⟩ :: putSlices chained (dst ++ segment) segments

/-- The moments of `write_envelope_chained`, which fails before it writes. -/
def writeMoments (flag : UInt8) (body : EncodedBody) (dst : Bytes) (chained : List Bytes)
    (minChain : Option ℕ) : List Moment :=
  match envelopeLength body.len with
  | .error _ => []
  | .ok declared =>
    let head := putEnvelopeHeader flag declared dst
    ⟨dst ++ [flag], chained⟩ :: ⟨head, chained⟩ ::
      if minChain.all (fun bound => body.len < bound) then putSlices chained head body.segments
      else [⟨head, chained ++ body.segments⟩]

/-- The moments of `encode_chained`. -/
def EnvelopeEncoder.encodeMoments (enc : EnvelopeEncoder) (body : EncodedBody) (dst : Bytes)
    (chained : List Bytes) (minChain : Option ℕ) : List Moment :=
  match enc.prepare body with
  | .error _ => []
  | .ok (flag, body) => writeMoments flag body dst chained minChain

namespace BatchingEnvelopeStream

/-- The moments of the loop of `drain_segments`, and its result. -/
def drainLoopMoments (buf : Bytes) :
    List Bytes → List Moment × Option Frame × Bytes × List Bytes
  | [] => ([⟨buf, []⟩], none, buf, [])
  | segment :: segments =>
    if segment.length < MIN_CHAIN_SIZE then
      if (buf ++ segment).length ≥ STREAM_BATCH_THRESHOLD then
        ([⟨buf, segment :: segments⟩, ⟨buf ++ segment, segments⟩],
          some (.data (buf ++ segment)), [], segments)
      else
        let r := drainLoopMoments (buf ++ segment) segments
        (⟨buf, segment :: segments⟩ :: r.1, r.2)
    else if buf = [] then
      ([⟨buf, segment :: segments⟩], some (.data segment), [], segments)
    else ([⟨buf, segment :: segments⟩], some (.data buf), [], segment :: segments)

/-- The moments of `drain_segments`, and its result. -/
def drainSegmentsMoments (s : BatchingEnvelopeStream) :
    List Moment × Option Frame × BatchingEnvelopeStream :=
  let (moments, frame, buf, segments) := drainLoopMoments s.buf s.pendingSegments
  (moments, frame, { s with buf := buf, pendingSegments := segments })

/-- A stream as it is. -/
def moment (s : BatchingEnvelopeStream) : Moment :=
  ⟨s.buf, s.pendingSegments⟩

variable (cr : Crates)

/-- The moments of the loop of `poll_next`, and its result. -/
def pollLoopMoments : List SourceEvent → BatchingEnvelopeStream →
    List Moment × Poll (Option Frame) × BatchingEnvelopeStream
  | [], s => ([s.moment], { s with source := [] }.finish (s.finalizer.success cr s.trailers))
  | .pending :: source, s =>
    ([s.moment], if s.buf = [] then (.pending, { s with source := source })
      else { s with source := source }.flush)
  | .error err :: source, s =>
    ([s.moment], { s with source := source }.finish (s.finalizer.error cr err s.trailers))
  | .item body :: source, s =>
    match s.encoder.encodeChained body s.buf s.pendingSegments (some MIN_CHAIN_SIZE) with
    | .error err =>
      ([s.moment], { s with source := source }.finish (s.finalizer.error cr err s.trailers))
    | .ok (buf, segments) =>
      let written := s.moment ::
        s.encoder.encodeMoments body s.buf s.pendingSegments (some MIN_CHAIN_SIZE)
      match
        { s with source := source, buf := buf, pendingSegments := segments }.drainSegmentsMoments
      with
      | (moments, some frame, s) => (written ++ moments, .ready (some frame), s)
      | (moments, none, s) =>
        if s.buf.length ≥ STREAM_BATCH_THRESHOLD then (written ++ moments, s.flush)
        else
          let r := pollLoopMoments source s
          (written ++ moments ++ r.1, r.2)

/-- The moments of `poll_next`, and its result. -/
def pollNextMoments (s : BatchingEnvelopeStream) :
    List Moment × Poll (Option Frame) × BatchingEnvelopeStream :=
  if s.done then ([s.moment], .ready none, s)
  else
    match s.drainSegmentsMoments with
    | (moments, some frame, s) => (moments, .ready (some frame), s)
    | (moments, none, s) =>
      match s.pendingFinal with
      | some frame => (moments, .ready (some frame), { s with pendingFinal := none, done := true })
      | none => (moments ++ (s.pollLoopMoments cr s.source).1, (s.pollLoopMoments cr s.source).2)

/-! ### It is the same poll -/

theorem drainLoopMoments_snd (segments : List Bytes) :
    ∀ buf : Bytes, (drainLoopMoments buf segments).2 = drainLoop buf segments := by
  induction segments with
  | nil => exact fun buf => rfl
  | cons segment segments ih =>
    intro buf
    rw [drainLoopMoments, drainLoop]
    by_cases hsmall : segment.length < MIN_CHAIN_SIZE
    · rw [if_pos hsmall, if_pos hsmall]
      by_cases hfull : (buf ++ segment).length ≥ STREAM_BATCH_THRESHOLD
      · rw [if_pos hfull, if_pos hfull]
      · rw [if_neg hfull, if_neg hfull]
        exact ih (buf ++ segment)
    · rw [if_neg hsmall, if_neg hsmall]
      by_cases hbuf : buf = []
      · rw [if_pos hbuf, if_pos hbuf]
      · rw [if_neg hbuf, if_neg hbuf]

theorem drainSegmentsMoments_snd (s : BatchingEnvelopeStream) :
    s.drainSegmentsMoments.2 = s.drainSegments := by
  rw [drainSegments, ← drainLoopMoments_snd]
  rfl

theorem pollLoopMoments_snd (source : List SourceEvent) :
    ∀ s : BatchingEnvelopeStream, (pollLoopMoments cr source s).2 = pollLoop cr source s := by
  induction source with
  | nil => exact fun s => rfl
  | cons ev source ih =>
    intro s
    cases ev with
    | pending => rfl
    | error err => rfl
    | item body =>
      rw [pollLoopMoments, pollLoop]
      rcases s.encoder.encodeChained body s.buf s.pendingSegments (some MIN_CHAIN_SIZE) with
        err | ⟨buf, segments⟩
      · rfl
      · simp only
        rw [← drainSegmentsMoments_snd]
        rcases BatchingEnvelopeStream.drainSegmentsMoments _ with ⟨moments, _ | frame, t⟩
        · simp only
          by_cases hfull : t.buf.length ≥ STREAM_BATCH_THRESHOLD
          · rw [if_pos hfull, if_pos hfull]
          · rw [if_neg hfull, if_neg hfull]
            exact ih t
        · rfl

/-- **The poll with its moments** is the poll. -/
theorem pollNextMoments_snd (s : BatchingEnvelopeStream) :
    (s.pollNextMoments cr).2 = s.pollNext cr := by
  rw [pollNextMoments, pollNext, ← drainSegmentsMoments_snd]
  by_cases hdone : s.done = true
  · rw [if_pos hdone, if_pos hdone]
  · rw [if_neg hdone, if_neg hdone]
    rcases s.drainSegmentsMoments with ⟨moments, _ | frame, t⟩
    · simp only
      cases t.pendingFinal with
      | some frame => rfl
      | none => exact pollLoopMoments_snd cr t.source t
    · rfl

/-! ## The bound -/

/-- A segment of a message of the source, as the encoder hands it over. -/
def HandedOver (enc : EnvelopeEncoder) (source : List SourceEvent) (segment : Bytes) : Prop :=
  ∃ body flag sent, .item body ∈ source ∧ enc.prepare body = .ok (flag, sent) ∧
    segment ∈ sent.segments

/-- What holds at every moment. -/
structure Sound (enc : EnvelopeEncoder) (source : List SourceEvent) (m : Moment) : Prop where
  /-- the buffer is bounded -/
  bounded : m.buf.length < STREAM_BATCH_THRESHOLD + HEADER_SIZE + MIN_CHAIN_SIZE
  /-- the queue holds segments of messages -/
  queue : ∀ segment ∈ m.pendingSegments, HandedOver enc source segment

/-- What a data frame is made of: the whole buffer, or a large segment as it is. -/
inductive Emits (m : Moment) : Frame → Prop where
  | whole : Emits m (.data m.buf)
  | chained {segment : Bytes} {segments : List Bytes} : m.buf = [] →
    m.pendingSegments = segment :: segments → MIN_CHAIN_SIZE ≤ segment.length →
    Emits m (.data segment)

/-- What a poll does, from moments to a result. -/
structure PollLaw (enc : EnvelopeEncoder) (source : List SourceEvent)
    (r : List Moment × Poll (Option Frame) × BatchingEnvelopeStream) : Prop where
  /-- it is sound at every moment -/
  sound : ∀ m ∈ r.1, Sound enc source m
  /-- until the stream is done, a frame is made of what is there at the last moment -/
  emits : ∀ frame, r.2.1 = .ready (some frame) → r.2.2.done = false →
    ∃ m, r.1.getLast? = some m ∧ Emits m frame
  /-- the buffer is left below the threshold -/
  buf : r.2.2.buf.length < STREAM_BATCH_THRESHOLD
  /-- the queue holds segments of messages -/
  queue : ∀ segment ∈ r.2.2.pendingSegments, HandedOver enc source segment
  /-- no answers are added to the source -/
  rest : ∀ ev ∈ r.2.2.source, ev ∈ source
  /-- the encoder stays -/
  encoder : r.2.2.encoder = enc

variable {enc : EnvelopeEncoder} {source : List SourceEvent} {s : BatchingEnvelopeStream}

/-- Earlier moments. -/
theorem PollLaw.prepend {moments : List Moment}
    {r : List Moment × Poll (Option Frame) × BatchingEnvelopeStream}
    (hsound : ∀ m ∈ moments, Sound enc source m) (h : PollLaw enc source r) :
    PollLaw enc source (moments ++ r.1, r.2) where
  sound := by
    intro m hm
    rcases List.mem_append.mp hm with hm | hm
    · exact hsound m hm
    · exact h.sound m hm
  emits := by
    intro frame hframe hdone
    obtain ⟨m, hlast, hm⟩ := h.emits frame hframe hdone
    refine ⟨m, ?_, hm⟩
    rw [List.getLast?_append, hlast]
    rfl
  buf := h.buf
  queue := h.queue
  rest := h.rest
  encoder := h.encoder

/-- What the streams have that a poll goes through. -/
structure Running (enc : EnvelopeEncoder) (source : List SourceEvent)
    (s : BatchingEnvelopeStream) : Prop where
  /-- the queue holds segments of messages -/
  queue : ∀ segment ∈ s.pendingSegments, HandedOver enc source segment
  /-- no answers are added to the source -/
  rest : ∀ ev ∈ s.source, ev ∈ source
  /-- the encoder stays -/
  encoder : s.encoder = enc

theorem short_of_empty {buf : Bytes} (h : buf = []) : buf.length < STREAM_BATCH_THRESHOLD := by
  rw [h]
  decide

/-- Sending the buffer. -/
theorem Running.flush (h : Running enc source s) {moments : List Moment}
    (hsound : ∀ m ∈ moments, Sound enc source m)
    (hlast : ∃ m, moments.getLast? = some m ∧ m.buf = s.buf) :
    PollLaw enc source (moments, s.flush) where
  sound := hsound
  emits := by
    intro frame hframe _
    obtain ⟨m, hm, hbuf⟩ := hlast
    obtain rfl := Option.some.inj (Poll.ready.inj hframe)
    exact ⟨m, hm, hbuf ▸ .whole⟩
  buf := short_of_empty rfl
  queue := h.queue
  rest := h.rest
  encoder := h.encoder

/-- Ending. -/
theorem Running.finish (h : Running enc source s) {moments : List Moment}
    (hsound : ∀ m ∈ moments, Sound enc source m)
    (hlast : ∃ m, moments.getLast? = some m ∧ m.buf = s.buf) (final : Frame) :
    PollLaw enc source (moments, s.finish final) := by
  rw [BatchingEnvelopeStream.finish]
  by_cases hbuf : s.buf = []
  · rw [if_pos hbuf]
    refine ⟨hsound, fun frame _ hdone => ?_, short_of_empty hbuf, h.queue, h.rest, h.encoder⟩
    cases hdone
  · rw [if_neg hbuf]
    have hstaged : Running enc source { s with pendingFinal := some final } :=
      ⟨h.queue, h.rest, h.encoder⟩
    exact hstaged.flush hsound hlast

/-- What `drain_segments` does, from a buffer that is small enough. Before a segment is copied,
the buffer is that of a header at most. -/
theorem drainLoopMoments_law (segments : List Bytes)
    (hqueue : ∀ segment ∈ segments, HandedOver enc source segment) :
    ∀ buf : Bytes, buf.length < STREAM_BATCH_THRESHOLD + HEADER_SIZE + MIN_CHAIN_SIZE →
      (segments ≠ [] → buf.length < STREAM_BATCH_THRESHOLD + HEADER_SIZE) →
      let r := drainLoopMoments buf segments
      (∀ m ∈ r.1, Sound enc source m) ∧
      (∃ m, r.1.getLast? = some m ∧ (∀ frame, r.2.1 = some frame → r.2.2.1 = [] ∧ Emits m frame) ∧
        (r.2.1 = none → m.buf = r.2.2.1 ∧ r.2.2.2 = [] ∧
          (r.2.2.1 = buf ∨ r.2.2.1.length < STREAM_BATCH_THRESHOLD))) ∧
      ∀ segment ∈ r.2.2.2, HandedOver enc source segment := by
  induction segments with
  | nil =>
    intro buf hbuf _
    refine ⟨fun m hm => ?_, ⟨⟨buf, []⟩, rfl, ?_, fun _ => ⟨rfl, rfl, .inl rfl⟩⟩, hqueue⟩
    · rw [List.mem_singleton.mp hm]
      exact ⟨hbuf, hqueue⟩
    · intro frame hframe
      cases hframe
  | cons segment segments ih =>
    intro buf hbuf hhead
    have hrest := fun seg h => hqueue seg (List.mem_cons_of_mem segment h)
    have hbuf' := hhead (List.cons_ne_nil segment segments)
    have hnow : Sound enc source ⟨buf, segment :: segments⟩ := ⟨hbuf, hqueue⟩
    rw [drainLoopMoments]
    by_cases hsmall : segment.length < MIN_CHAIN_SIZE
    · -- a small segment is copied
      have hcopied : (buf ++ segment).length <
          STREAM_BATCH_THRESHOLD + HEADER_SIZE + MIN_CHAIN_SIZE := by
        rw [List.length_append]
        omega
      rw [if_pos hsmall]
      by_cases hfull : (buf ++ segment).length ≥ STREAM_BATCH_THRESHOLD
      · rw [if_pos hfull]
        refine ⟨fun m hm => ?_, ⟨⟨buf ++ segment, segments⟩, rfl, ?_, ?_⟩, hrest⟩
        · rcases List.mem_cons.mp hm with rfl | hm
          · exact hnow
          · rw [List.mem_singleton.mp hm]
            exact ⟨hcopied, hrest⟩
        · intro frame hframe
          obtain rfl := Option.some.inj hframe
          exact ⟨rfl, .whole⟩
        · intro hnone
          cases hnone
      · rw [if_neg hfull]
        have hlt := Nat.lt_of_not_le hfull
        obtain ⟨hsound, ⟨m, hlast, hemits, hnone⟩, hqueue'⟩ :=
          ih hrest (buf ++ segment) hcopied fun _ => Nat.lt_add_right HEADER_SIZE hlt
        refine ⟨fun m hm => ?_, ⟨m, ?_, hemits, fun h => ?_⟩, hqueue'⟩
        · rcases List.mem_cons.mp hm with rfl | hm
          · exact hnow
          · exact hsound m hm
        · rw [List.getLast?_cons, hlast]
          rfl
        · obtain ⟨hm, hempty, hsame | hshort⟩ := hnone h
          · exact ⟨hm, hempty, .inr (hsame.symm ▸ hlt)⟩
          · exact ⟨hm, hempty, .inr hshort⟩
    · rw [if_neg hsmall]
      have hsound : ∀ m ∈ [(⟨buf, segment :: segments⟩ : Moment)], Sound enc source m := by
        intro m hm
        rw [List.mem_singleton.mp hm]
        exact hnow
      by_cases hempty : buf = []
      · -- a large segment is sent as it is
        rw [if_pos hempty]
        refine ⟨hsound, ⟨_, rfl, ?_, fun h => by cases h⟩, hrest⟩
        intro frame hframe
        obtain rfl := Option.some.inj hframe
        exact ⟨rfl, .chained hempty rfl (Nat.le_of_not_lt hsmall)⟩
      · rw [if_neg hempty]
        refine ⟨hsound, ⟨_, rfl, ?_, fun h => by cases h⟩, hqueue⟩
        intro frame hframe
        obtain rfl := Option.some.inj hframe
        exact ⟨rfl, .whole⟩

theorem sound_putSlices {chained : List Bytes}
    (hchained : ∀ segment ∈ chained, HandedOver enc source segment) :
    ∀ (segments : List Bytes) (dst : Bytes), dst.length + segments.flatten.length <
      STREAM_BATCH_THRESHOLD + HEADER_SIZE + MIN_CHAIN_SIZE →
      ∀ m ∈ putSlices chained dst segments, Sound enc source m := by
  intro segments
  induction segments with
  | nil =>
    intro dst _ m hm
    cases hm
  | cons segment segments ih =>
    intro dst hfits m hm
    rw [List.flatten_cons, List.length_append] at hfits
    rw [putSlices] at hm
    rcases List.mem_cons.mp hm with rfl | hm
    · refine ⟨?_, hchained⟩
      rw [List.length_append]
      omega
    · refine ih (dst ++ segment) ?_ m hm
      rw [List.length_append]
      omega

/-- What `encode_chained` does to a buffer that is below the threshold. A segment is handed over
only where the buffer grows by a header. -/
theorem encodeChained_law {body : EncodedBody} {dst buf : Bytes} {segments : List Bytes}
    (hbody : .item body ∈ source) (hdst : dst.length < STREAM_BATCH_THRESHOLD)
    (hok : enc.encodeChained body dst [] (some MIN_CHAIN_SIZE) = .ok (buf, segments)) :
    (∀ m ∈ enc.encodeMoments body dst [] (some MIN_CHAIN_SIZE), Sound enc source m) ∧
      buf.length < STREAM_BATCH_THRESHOLD + HEADER_SIZE + MIN_CHAIN_SIZE ∧
      (segments ≠ [] → buf.length < STREAM_BATCH_THRESHOLD + HEADER_SIZE) ∧
      ∀ segment ∈ segments, HandedOver enc source segment := by
  rw [EnvelopeEncoder.encodeChained] at hok
  rw [EnvelopeEncoder.encodeMoments]
  rcases hprepare : enc.prepare body with err | ⟨flag, sent⟩
  · rw [hprepare] at hok
    cases hok
  · rw [hprepare] at hok
    have hqueue : ∀ segment ∈ sent.segments, HandedOver enc source segment :=
      fun segment h => ⟨body, flag, sent, hbody, hprepare, h⟩
    have hnone : ∀ segment ∈ ([] : List Bytes), HandedOver enc source segment := by
      intro segment h
      cases h
    simp only [writeEnvelopeChained] at hok
    simp only [writeMoments]
    rcases hlength : envelopeLength sent.len with err | declared
    · rw [hlength] at hok
      cases hok
    · rw [hlength] at hok
      have hhead : (putEnvelopeHeader flag declared dst).length = dst.length + HEADER_SIZE := by
        rw [putEnvelopeHeader, List.length_append, List.length_cons, length_toBeBytes]
        rfl
      have hflag : Sound enc source ⟨dst ++ [flag], []⟩ := by
        refine ⟨?_, hnone⟩
        rw [List.length_append, List.length_singleton, HEADER_SIZE]
        omega
      have hstart : Sound enc source ⟨putEnvelopeHeader flag declared dst, []⟩ := by
        refine ⟨?_, hnone⟩
        rw [hhead]
        omega
      by_cases hshort : sent.len < MIN_CHAIN_SIZE
      · -- the envelope is copied
        have hfits : (putEnvelopeHeader flag declared dst).length + sent.segments.flatten.length <
            STREAM_BATCH_THRESHOLD + HEADER_SIZE + MIN_CHAIN_SIZE := by
          rw [hhead, EncodedBody.flatten_segments, ← EncodedBody.len_eq]
          omega
        simp only [Except.map, Option.all_some, decide_eq_true hshort, if_true] at hok ⊢
        obtain ⟨rfl, rfl⟩ := Prod.mk.inj (Except.ok.inj hok)
        refine ⟨fun m hm => ?_, ?_, fun h => absurd rfl h, hnone⟩
        · rcases List.mem_cons.mp hm with rfl | hm
          · exact hflag
          · rcases List.mem_cons.mp hm with rfl | hm
            · exact hstart
            · exact sound_putSlices hnone _ _ hfits m hm
        · rw [List.length_append]
          exact hfits
      · simp only [Except.map, Option.all_some, decide_eq_false hshort, Bool.false_eq_true,
          if_false, List.nil_append] at hok ⊢
        obtain ⟨rfl, rfl⟩ := Prod.mk.inj (Except.ok.inj hok)
        refine ⟨fun m hm => ?_, hstart.bounded, fun _ => ?_, hqueue⟩
        · rcases List.mem_cons.mp hm with rfl | hm
          · exact hflag
          · rcases List.mem_cons.mp hm with rfl | hm
            · exact hstart
            · rw [List.mem_singleton.mp hm]
              exact ⟨hstart.bounded, hqueue⟩
        · rw [hhead]
          omega

/-- A stream below the threshold, with nothing in its queue. -/
theorem sound_moment (hsegments : s.pendingSegments = [])
    (hbuf : s.buf.length < STREAM_BATCH_THRESHOLD) : ∀ m ∈ [s.moment], Sound enc source m := by
  intro m hm
  rw [List.mem_singleton.mp hm]
  have hbound : s.buf.length < STREAM_BATCH_THRESHOLD + HEADER_SIZE + MIN_CHAIN_SIZE := by omega
  refine ⟨hbound, fun segment h => ?_⟩
  rw [moment, hsegments] at h
  cases h

theorem running_of_drained (rest : List SourceEvent) (hrest : ∀ ev ∈ rest, ev ∈ source)
    (henc : s.encoder = enc) (hsegments : s.pendingSegments = []) :
    Running enc source { s with source := rest } where
  queue := by
    intro segment h
    rw [hsegments] at h
    cases h
  rest := hrest
  encoder := henc

/-- What `drain_segments` does to a stream. -/
theorem drainSegmentsMoments_law (hs : Running enc source s)
    (hbuf : s.buf.length < STREAM_BATCH_THRESHOLD + HEADER_SIZE + MIN_CHAIN_SIZE)
    (hhead : s.pendingSegments ≠ [] → s.buf.length < STREAM_BATCH_THRESHOLD + HEADER_SIZE) :
    let r := s.drainSegmentsMoments
    (∀ m ∈ r.1, Sound enc source m) ∧ Running enc source r.2.2 ∧
      (∀ frame, r.2.1 = some frame → PollLaw enc source (r.1, .ready (some frame), r.2.2)) ∧
      (r.2.1 = none → r.2.2.pendingSegments = [] ∧
        (r.2.2.buf = s.buf ∨ r.2.2.buf.length < STREAM_BATCH_THRESHOLD) ∧
        ∃ m, r.1.getLast? = some m ∧ m.buf = r.2.2.buf) := by
  obtain ⟨hsound, ⟨m, hlast, hemits, hnone⟩, hqueue⟩ :=
    drainLoopMoments_law s.pendingSegments hs.queue s.buf hbuf hhead
  refine ⟨hsound, ⟨hqueue, hs.rest, hs.encoder⟩, fun frame hframe => ?_, fun h => ?_⟩
  · obtain ⟨hempty, hm⟩ := hemits frame hframe
    refine ⟨hsound, fun frame' hframe' _ => ⟨m, hlast, ?_⟩, short_of_empty hempty, hqueue,
      hs.rest, hs.encoder⟩
    obtain rfl := Option.some.inj (Poll.ready.inj hframe')
    exact hm
  · obtain ⟨hm, hempty, hsame⟩ := hnone h
    exact ⟨hempty, hsame, m, hlast, hm⟩

variable (cr : Crates)

/-- **The loop of `poll_next`**, from a buffer that is below the threshold. The induction is on
the answers of the source. -/
theorem pollLoopMoments_law : ∀ (rest : List SourceEvent) (s : BatchingEnvelopeStream),
    (∀ ev ∈ rest, ev ∈ source) → s.encoder = enc → s.pendingSegments = [] →
    s.buf.length < STREAM_BATCH_THRESHOLD → PollLaw enc source (pollLoopMoments cr rest s) := by
  intro rest
  induction rest with
  | nil =>
    intro s _ henc hsegments hbuf
    have hnow : ∀ m ∈ [s.moment], Sound enc source m := sound_moment hsegments hbuf
    have hrunning : Running enc source { s with source := [] } :=
      running_of_drained [] (by simp) henc hsegments
    exact hrunning.finish hnow ⟨_, rfl, rfl⟩ _
  | cons ev rest ih =>
    intro s hev henc hsegments hbuf
    have hrest : ∀ ev ∈ rest, ev ∈ source := fun ev' h => hev ev' (List.mem_cons_of_mem ev h)
    have hnow : ∀ m ∈ [s.moment], Sound enc source m := sound_moment hsegments hbuf
    have hrunning : Running enc source { s with source := rest } :=
      running_of_drained rest hrest henc hsegments
    cases ev with
    | pending =>
      rw [pollLoopMoments]
      by_cases hempty : s.buf = []
      · rw [if_pos hempty]
        refine ⟨hnow, fun frame hframe => ?_, hbuf, hrunning.queue, hrest, henc⟩
        cases hframe
      · rw [if_neg hempty]
        exact hrunning.flush hnow ⟨_, rfl, rfl⟩
    | error err => exact hrunning.finish hnow ⟨_, rfl, rfl⟩ _
    | item body =>
      rw [pollLoopMoments]
      rcases hencode : s.encoder.encodeChained body s.buf s.pendingSegments
        (some MIN_CHAIN_SIZE) with err | ⟨buf, segments⟩
      · exact hrunning.finish hnow ⟨_, rfl, rfl⟩ _
      · rw [henc, hsegments] at hencode
        obtain ⟨hmoments, hbuf', hhead, hqueue⟩ :=
          encodeChained_law (hev _ List.mem_cons_self) hbuf hencode
        have hwritten : ∀ m ∈ s.moment ::
            s.encoder.encodeMoments body s.buf s.pendingSegments (some MIN_CHAIN_SIZE),
            Sound enc source m := by
          intro m hm
          rw [henc, hsegments] at hm
          rcases List.mem_cons.mp hm with rfl | hm
          · exact hnow _ List.mem_cons_self
          · exact hmoments m hm
        have hnext : Running enc source
            { s with source := rest, buf := buf, pendingSegments := segments } :=
          ⟨hqueue, hrest, henc⟩
        obtain ⟨hsound, hdrained, hframe, hnone⟩ := drainSegmentsMoments_law hnext hbuf' hhead
        simp only
        generalize BatchingEnvelopeStream.drainSegmentsMoments _ = r at *
        obtain ⟨moments, _ | frame, t⟩ := r
        · obtain ⟨hempty, -, hlast⟩ := hnone rfl
          simp only
          by_cases hfull : t.buf.length ≥ STREAM_BATCH_THRESHOLD
          · rw [if_pos hfull]
            exact (hdrained.flush hsound hlast).prepend hwritten
          · rw [if_neg hfull, List.append_assoc]
            have hlaw := ih t hrest hdrained.encoder hempty (Nat.lt_of_not_le hfull)
            exact (hlaw.prepend hsound).prepend hwritten
        · exact (hframe frame rfl).prepend hwritten

/-- **One poll** of a stream whose buffer is below the threshold. -/
theorem pollNextMoments_law (hs : Running enc source s)
    (hbuf : s.buf.length < STREAM_BATCH_THRESHOLD) :
    PollLaw enc source (s.pollNextMoments cr) := by
  have hbound : s.buf.length < STREAM_BATCH_THRESHOLD + HEADER_SIZE + MIN_CHAIN_SIZE := by omega
  rw [pollNextMoments]
  by_cases hdone : s.done = true
  · rw [if_pos hdone]
    refine ⟨fun m hm => ?_, fun frame hframe => ?_, hbuf, hs.queue, hs.rest, hs.encoder⟩
    · rw [List.mem_singleton.mp hm]
      exact ⟨hbound, hs.queue⟩
    · cases hframe
  · rw [if_neg hdone]
    obtain ⟨hsound, hdrained, hframe, hnone⟩ := drainSegmentsMoments_law hs hbound
      fun _ => Nat.lt_add_right HEADER_SIZE hbuf
    rcases hdrain : s.drainSegmentsMoments with ⟨moments, _ | frame, t⟩
    · rw [hdrain] at hsound hdrained hnone
      obtain ⟨hempty, hsame, hlast⟩ := hnone rfl
      have hshort : t.buf.length < STREAM_BATCH_THRESHOLD := by
        rcases hsame with hsame | hshort
        · rw [hsame]
          exact hbuf
        · exact hshort
      simp only
      cases t.pendingFinal with
      | none =>
        exact (pollLoopMoments_law cr t.source t hdrained.rest hdrained.encoder hempty
          hshort).prepend hsound
      | some final =>
        refine ⟨hsound, fun frame _ h => ?_, hshort, hdrained.queue, hdrained.rest,
          hdrained.encoder⟩
        cases h
    · rw [hdrain] at hframe
      exact hframe frame rfl

/-- Every stream that is polled stays below the threshold between the polls. -/
theorem running_after {compression : Option (CompressionRegistry × String)}
    {policy : CompressionPolicy} (trailers : HeaderMap) (fin : StreamFinalizer) (n : ℕ) :
    let s := after (pollNext cr) n (.new source trailers compression policy fin)
    Running ⟨compression, policy⟩ source s ∧ s.buf.length < STREAM_BATCH_THRESHOLD := by
  induction n with
  | zero => exact ⟨⟨nofun, fun _ h => h, rfl⟩, short_of_empty rfl⟩
  | succ n ih =>
    have hlaw := pollNextMoments_law cr ih.1 ih.2
    have hstep : ∀ t : BatchingEnvelopeStream,
        (t.pollNextMoments cr).2.2 = after (pollNext cr) 1 t :=
      fun t => congrArg Prod.snd (pollNextMoments_snd cr t)
    rw [after_add, ← hstep]
    exact ⟨⟨hlaw.queue, hlaw.rest, hlaw.encoder⟩, hlaw.buf⟩

/-- **The batch buffer is bounded**: at every moment of every poll of every stream. And until the
stream is done, a frame that it sends is the whole of the buffer, or it is a large segment of a
message, as the encoder handed it over. -/
theorem batch_buffer_bounded (source : List SourceEvent) (trailers : HeaderMap)
    (compression : Option (CompressionRegistry × String)) (policy : CompressionPolicy)
    (fin : StreamFinalizer) (n : ℕ) :
    let s := after (pollNext cr) n (.new source trailers compression policy fin)
    let moments := (s.pollNextMoments cr).1
    (s.pollNextMoments cr).2 = s.pollNext cr ∧
    (∀ m ∈ moments,
      m.buf.length < STREAM_BATCH_THRESHOLD + HEADER_SIZE + MIN_CHAIN_SIZE) ∧
    ∀ frame, (s.pollNext cr).1 = .ready (some frame) → (s.pollNext cr).2.done = false →
      ∃ m, moments.getLast? = some m ∧ (frame = .data m.buf ∨
        ∃ segment segments, m.buf = [] ∧ m.pendingSegments = segment :: segments ∧
          MIN_CHAIN_SIZE ≤ segment.length ∧ frame = .data segment ∧
          HandedOver ⟨compression, policy⟩ source segment) := by
  intro s moments
  obtain ⟨hrunning, hbuf⟩ := running_after cr trailers fin n
  have hlaw : PollLaw ⟨compression, policy⟩ source (s.pollNextMoments cr) :=
    pollNextMoments_law cr hrunning hbuf
  have hsnd := pollNextMoments_snd cr s
  refine ⟨hsnd, fun m hm => (hlaw.sound m hm).bounded, fun frame hframe hdone => ?_⟩
  rw [← hsnd] at hframe hdone
  obtain ⟨m, hlast, hemits⟩ := hlaw.emits frame hframe hdone
  refine ⟨m, hlast, ?_⟩
  cases hemits with
  | whole => exact .inl rfl
  | @chained segment segments hempty hqueue hlarge =>
    have hsound := hlaw.sound m (List.mem_of_getLast? hlast)
    have hmem : segment ∈ m.pendingSegments := hqueue ▸ List.mem_cons_self
    exact .inr ⟨segment, segments, hempty, hqueue, hlarge, rfl, hsound.queue segment hmem⟩

end BatchingEnvelopeStream

end ConnectRpc
