import ConnectRpc.ServerStream

/-!
# Dropped calls

`message` is an async function: its future may be dropped while it waits for the body,
and `message` may be called again. Here the body is polled and answers "not yet" where
it likes, and a schedule decides at each poll whether the future is dropped first.

All that a future keeps to itself is where it waits (`MessageFuture`); everything else
is in the stream. `pollBody_quiet` says that a waiting future has only moved on in the
body, and `message_function_of_wire` that what is answered depends on the bytes and
the end of the body alone.
-/

namespace ConnectRpc

open Lib

variable (cr : Crates) {α : Type}

/-! ## The stream, poll by poll -/

/-- A response stream over a body that may answer "not yet". -/
structure PolledStream (α : Type) extends StreamSetup α where
  /-- the answers of the body; past the end it stays at its end -/
  body : List (Poll BodyEvent)
  /-- how often the body has been polled -/
  bodyPolls : ℕ
  /-- what is left of the current data frame -/
  frame : Bytes
  /-- the envelope decoder -/
  assembler : EnvelopeAssembler
  /-- the end, once reached -/
  ended : Option StreamEnd
  /-- whether any data has arrived -/
  sawBodyData : Bool

namespace PolledStream

/-- A fresh stream. -/
def start (t : StreamSetup α) (body : List (Poll BodyEvent)) : PolledStream α where
  toStreamSetup := t
  body := body
  bodyPolls := 0
  frame := []
  assembler := responseAssembler t.protocol t.maxMessageSize
  ended := none
  sawBodyData := false

/-- `ServerStream::error`. -/
def error (s : PolledStream α) : Option ConnectError :=
  s.ended.bind fun e => e.outcome

/-- `ServerStream::trailers`. -/
def trailers (s : PolledStream α) : Option HeaderMap :=
  s.ended.bind fun e => e.trailers

/-- Feed the current frame to the envelope decoder, and go on once it is used up. -/
def feedThen (s : PolledStream α)
    (more : PolledStream α → Poll (Except StreamEnd α) × PolledStream α) :
    Poll (Except StreamEnd α) × PolledStream α :=
  match s.assembler.feed s.frame with
  | .error e => (.ready (.error (.ofError e)), s)
  | .ok (some envelope, frame, assembler) =>
    (.ready (s.dispatch cr s.sawBodyData envelope),
      { s with frame := frame, assembler := assembler })
  | .ok (none, frame, assembler) => more { s with frame := frame, assembler := assembler }

/-- Poll the body and go on with what it yields, up to where it is not ready. -/
def pollBody : List (Poll BodyEvent) → PolledStream α →
    Poll (Except StreamEnd α) × PolledStream α
  | [], s =>
    (.ready (.error (if s.protocol = .connect then
        .ofError (.internal "Connect streaming response ended without END_STREAM envelope")
      else s.classifyGrpcEnd cr s.sawBodyData none)),
      { s with body := [], bodyPolls := s.bodyPolls + 1 })
  | .pending :: body, s => (.pending, { s with body := body, bodyPolls := s.bodyPolls + 1 })
  | .ready (.data d) :: body, s =>
    feedThen cr { s with
      body := body, bodyPolls := s.bodyPolls + 1, frame := d,
      sawBodyData := s.sawBodyData || !d.isEmpty } (pollBody body)
  | .ready (.trailers trailers) :: body, s =>
    if s.protocol = .connect then
      pollBody body { s with body := body, bodyPolls := s.bodyPolls + 1 }
    else (.ready (.error (s.classifyGrpcEnd cr s.sawBodyData (some trailers))),
      { s with body := body, bodyPolls := s.bodyPolls + 1 })
  | .ready (.failed e) :: body, s =>
    (.ready (.error (.ofError
        (classifyBodyReadError "failed to read response body" e s.deadlineElapsed))),
      { s with body := body, bodyPolls := s.bodyPolls + 1 })
  | .ready .deadline :: body, s =>
    (.ready (.error (.ofError deadlineFired)),
      { s with body := body, bodyPolls := s.bodyPolls + 1 })

end PolledStream

/-- The future of a call of `message`: not polled yet, or waiting for the body. -/
inductive MessageFuture : Type where
  | start
  | waiting
  deriving DecidableEq

namespace PolledStream

/-- The end of `message`: an end is recorded before it is reported. -/
def record : Poll (Except StreamEnd α) × PolledStream α →
    Poll (Except ConnectError (Option α)) × PolledStream α
  | (.pending, s) => (.pending, s)
  | (.ready (.ok msg), s) => (.ready (.ok (some msg)), s)
  | (.ready (.error e), s) =>
    (.ready (e.attachMetadata s.headers).replay,
      { s with ended := some (e.attachMetadata s.headers) })

/-- Poll the future of a call of `message`. -/
def pollMessage (s : PolledStream α) : MessageFuture →
    Poll (Except ConnectError (Option α)) × PolledStream α
  | .start =>
    match s.ended with
    | some e => (.ready e.replay, s)
    | none => record (feedThen cr s fun s => pollBody cr s.body s)
  | .waiting => record (pollBody cr s.body s)

end PolledStream

/-- A stream and its caller. -/
structure Caller (α : Type) where
  /-- at each poll, whether the future is dropped first and `message` called again -/
  drops : Stream' Bool
  /-- the future at hand -/
  future : MessageFuture
  /-- the stream -/
  stream : PolledStream α

namespace Caller

/-- One poll of the caller. A future that has answered is used up; the next poll is of
the next call. -/
def poll (c : Caller α) : Poll (Except ConnectError (Option α)) × Caller α :=
  match c.stream.pollMessage cr (if c.drops.head then .start else c.future) with
  | (.pending, s) => (.pending, ⟨c.drops.tail, .waiting, s⟩)
  | (.ready r, s) => (.ready r, ⟨c.drops.tail, .start, s⟩)

/-- What the calls have answered in `n` polls. -/
def results (n : ℕ) (c : Caller α) : List (Except ConnectError (Option α)) :=
  ready (polls (poll cr) n c)

end Caller

/-! ## Waiting -/

/-- The polls that are not answered. -/
def waits : List (Poll BodyEvent) → ℕ
  | [] => 0
  | .pending :: body => waits body + 1
  | .ready _ :: body => waits body

namespace PolledStream

/-- The stream without the polls that are not answered. -/
def quiet (s : PolledStream α) : ServerStream α where
  toStreamSetup := s.toStreamSetup
  body := ready s.body
  frame := s.frame
  assembler := s.assembler
  ended := s.ended
  sawBodyData := s.sawBodyData

/-- A stream that has not ended and has used up its frame: a future may wait. -/
structure Waiting (s : PolledStream α) : Prop where
  /-- the stream has not ended -/
  live : s.quiet.Live
  /-- the frame is used up -/
  frame : s.frame = []
  /-- what the decoder holds is no envelope yet -/
  incomplete : decodeWith s.limits s.assembler.held = .ok none

/-- A poll that leaves the future waiting has moved on in the body, and what the
stream has yet to read is the same. -/
structure Waits (s s' : PolledStream α) : Prop where
  /-- a future may wait -/
  waiting : s'.Waiting
  /-- the setup stays -/
  setup : s'.toStreamSetup = s.toStreamSetup
  /-- what is to be read stays -/
  toRead : s'.quiet.toRead cr = s.quiet.toRead cr
  /-- fewer polls are left unanswered -/
  waits : waits s'.body < waits s.body

theorem waiting_mk {s : PolledStream α} (hs : s.quiet.Live) {a : EnvelopeAssembler}
    (ha : a.Valid s.limits) (hheld : a.held = s.assembler.held ++ s.frame)
    (hnone : decodeWith s.limits a.held = .ok none) :
    Waiting { s with frame := [], assembler := a } := by
  refine ⟨⟨hs.ended, ha, fun hne => hs.saw ?_⟩, rfl, hnone⟩
  intro h0
  refine hne ?_
  simp only [quiet] at h0 ⊢
  rw [hheld, h0]
  rfl

/-- What is to be read depends on the setup, the bytes and the end of the body, and on
whether there has been or will be any data. -/
theorem toRead_congr {s s' : ServerStream α} (hsetup : s'.toStreamSetup = s.toStreamSetup)
    (hunread : s'.unread = s.unread) (hend : s'.bodyEnd = s.bodyEnd)
    (hsaw : (s'.sawBodyData || !s.unread.isEmpty) = (s.sawBodyData || !s.unread.isEmpty)) :
    s'.toRead cr = s.toRead cr := by
  rw [ServerStream.toRead, ServerStream.toRead, hunread, hend, hsaw, hsetup]

/-- Feeding the current frame: either it yields an envelope or an error, the same as
without the unanswered polls; or it is used up and the future may wait. -/
theorem feedThen_quiet {s : PolledStream α} (hs : s.quiet.Live)
    (more : PolledStream α → Poll (Except StreamEnd α) × PolledStream α) :
    (∃ r s', feedThen cr s more = (.ready r, s') ∧ waits s'.body = waits s.body ∧
      ∀ more', ServerStream.feedThen cr s.quiet more' = (r, s'.quiet)) ∨
    ∃ s₁, s₁.Waiting ∧ feedThen cr s more = more s₁ ∧
      s₁.toStreamSetup = s.toStreamSetup ∧ s₁.body = s.body ∧
      s₁.quiet.toRead cr = s.quiet.toRead cr ∧
      ∀ more', ServerStream.feedThen cr s.quiet more' = more' s₁.quiet := by
  have hrefines := EnvelopeAssembler.feed_refines s.limits
  have hvalid : s.assembler.Valid s.limits := hs.valid
  rcases hd : decodeWith s.limits (s.assembler.held ++ s.frame) with e | _ | ⟨env, rest⟩
  · have hfeed := hrefines.error hvalid hd
    refine .inl ⟨.error (.ofError e), s, ?_, rfl, fun more' => ?_⟩
    · simp only [feedThen, hfeed]
    · simp only [ServerStream.feedThen, quiet, hfeed]
  · obtain ⟨a, hfeed, ha, hheld⟩ := hrefines.need hvalid hd
    have hnone : decodeWith s.limits a.held = .ok none := hheld ▸ hd
    refine .inr ⟨{ s with frame := [], assembler := a }, waiting_mk hs ha hheld hnone, ?_, rfl,
      rfl, ?_, fun more' => ?_⟩
    · simp only [feedThen, hfeed]
    · refine toRead_congr cr rfl ?_ rfl rfl
      simp only [ServerStream.unread, quiet, hheld, List.nil_append, List.append_assoc]
    · simp only [ServerStream.feedThen, quiet, hfeed]
  · obtain ⟨a, hfeed, -⟩ := hrefines.item hvalid hd
    refine .inl ⟨s.dispatch cr s.sawBodyData env, { s with frame := rest, assembler := a }, ?_,
      rfl, fun more' => ?_⟩
    · simp only [feedThen, hfeed]
    · simp only [ServerStream.feedThen, quiet, hfeed]

/-- The body a stream has is not looked at when another is polled. -/
theorem pollBody_body (body : List BodyEvent) : ∀ (s : ServerStream α) (x : List BodyEvent),
    ServerStream.pollBody cr body { s with body := x } = ServerStream.pollBody cr body s := by
  induction body with
  | nil => exact fun _ _ => rfl
  | cons ev body ih =>
    intro s x
    cases ev with
    | data d => rfl
    | trailers trailers =>
      rw [ServerStream.pollBody, ServerStream.pollBody]
      by_cases hp : s.protocol = .connect
      · rw [if_pos hp, if_pos hp]
        exact ih s x
      · rw [if_neg hp, if_neg hp]
    | failed e => rfl
    | deadline => rfl

/-- **A waiting future has only moved on in the body.** Polling the body either leaves
the future waiting, with the same to be read, or answers as the stream without the
unanswered polls. -/
theorem pollBody_quiet : ∀ (body : List (Poll BodyEvent)) (s : PolledStream α), s.Waiting →
    s.body = body →
      (∃ s', pollBody cr body s = (.pending, s') ∧ Waits cr s s') ∨
      ∃ r s', pollBody cr body s = (.ready r, s') ∧ waits s'.body ≤ waits s.body ∧
        ServerStream.pollBody cr (ready body) s.quiet = (r, s'.quiet) := by
  intro body
  induction body with
  | nil => exact fun s hs hbody => .inr ⟨_, _, rfl, Nat.zero_le _, rfl⟩
  | cons ev body ih =>
    intro s hs hbody
    have hlive := hs.live
    rcases ev with _ | ev
    · -- not ready: this is where the future waits
      refine .inl ⟨_, rfl, ⟨⟨hlive.ended, hlive.valid, hlive.saw⟩, hs.frame, hs.incomplete⟩, rfl,
        ?_, ?_⟩
      · refine toRead_congr cr rfl ?_ ?_ rfl
        · simp only [ServerStream.unread, quiet, hbody, ready_pending]
        · simp only [ServerStream.bodyEnd, quiet, hbody, ready_pending]
      · rw [hbody]
        exact Nat.lt_succ_self _
    · have hwaits : waits body ≤ waits s.body := by
        rw [hbody]
        exact Nat.le_refl _
      cases ev with
      | data d =>
        have hfirst : ServerStream.Live (quiet { s with
            body := body, bodyPolls := s.bodyPolls + 1, frame := d,
            sawBodyData := s.sawBodyData || !d.isEmpty }) := by
          refine ⟨hlive.ended, hlive.valid, fun hne => ?_⟩
          by_cases hd : d = []
          · have := hlive.saw (by simpa [quiet, hd, hs.frame] using hne)
            simpa [quiet] using Or.inl this
          · simp [quiet, hd]
        have hread : (quiet { s with
            body := body, bodyPolls := s.bodyPolls + 1, frame := d,
            sawBodyData := s.sawBodyData || !d.isEmpty }).toRead cr = s.quiet.toRead cr := by
          refine toRead_congr cr rfl ?_ ?_ ?_
          · simp only [ServerStream.unread, quiet, hbody, hs.frame, ready_ready, bodyRest,
              List.nil_append]
          · simp only [ServerStream.bodyEnd, quiet, hbody, ready_ready, bodyRest]
          · simp only [ServerStream.unread, quiet, hbody, hs.frame, ready_ready, bodyRest]
            cases d <;> simp
        rcases feedThen_quiet cr hfirst (pollBody cr body) with
          ⟨r, s', hpoll, hw, hquiet⟩ | ⟨s₁, hwait, hmore, hsetup, hbody₁, hread₁, hquiet⟩
        · exact .inr ⟨r, s', hpoll, hw ▸ hwaits, hquiet _⟩
        · rcases ih s₁ hwait hbody₁ with ⟨s', hpoll, hw⟩ | ⟨r, s', hpoll, hw, hold⟩
          · refine .inl ⟨s', hmore.trans hpoll, hw.waiting, hw.setup.trans hsetup,
              hw.toRead.trans (hread₁.trans hread), ?_⟩
            exact Nat.lt_of_lt_of_le hw.waits (hbody₁ ▸ hwaits)
          · exact .inr ⟨r, s', hmore.trans hpoll, Nat.le_trans hw (hbody₁ ▸ hwaits),
              (hquiet _).trans hold⟩
      | trailers trailers =>
        have hprotocol : s.quiet.protocol = s.protocol := rfl
        rw [pollBody, ready_ready, ServerStream.pollBody, hprotocol]
        by_cases hp : s.protocol = .connect
        · have hskip : Waiting { s with body := body, bodyPolls := s.bodyPolls + 1 } :=
            ⟨⟨hlive.ended, hlive.valid, hlive.saw⟩, hs.frame, hs.incomplete⟩
          have hread : (quiet { s with body := body, bodyPolls := s.bodyPolls + 1 }).toRead cr =
              s.quiet.toRead cr := by
            have hrest : bodyRest s.protocol (ready s.body) = bodyRest s.protocol (ready body) := by
              rw [hbody, ready_ready, bodyRest, if_pos hp]
            refine toRead_congr cr rfl ?_ ?_ rfl
            · simp only [ServerStream.unread, quiet, hrest]
            · simp only [ServerStream.bodyEnd, quiet, hrest]
          rw [if_pos hp, if_pos hp]
          rcases ih _ hskip rfl with ⟨s', hpoll, hw⟩ | ⟨r, s', hpoll, hw, hold⟩
          · exact .inl ⟨s', hpoll, hw.waiting, hw.setup, hw.toRead.trans hread,
              Nat.lt_of_lt_of_le hw.waits hwaits⟩
          · exact .inr ⟨r, s', hpoll, Nat.le_trans hw hwaits,
              (pollBody_body cr (ready body) s.quiet (ready body)).symm.trans hold⟩
        · rw [if_neg hp, if_neg hp]
          exact .inr ⟨_, _, rfl, hwaits, rfl⟩
      | failed e => exact .inr ⟨_, _, rfl, hwaits, rfl⟩
      | deadline => exact .inr ⟨_, _, rfl, hwaits, rfl⟩

/-- A poll of a future of a stream that has not ended: the future waits; or the next
message, and the stream goes on; or the end. -/
theorem pollMessage_live {s : PolledStream α} {f : MessageFuture} (hs : s.quiet.Live)
    (hf : f = .waiting → s.Waiting) :
    (∃ s', s.pollMessage cr f = (.pending, s') ∧ Waits cr s s') ∨
    ∃ r s', s.pollMessage cr f = (.ready r, s') ∧ waits s'.body ≤ waits s.body ∧
      ((∃ msg msgs e, s.quiet.toRead cr = (msg :: msgs, e) ∧ r = .ok (some msg) ∧
          s'.quiet.Live ∧ s'.toStreamSetup = s.toStreamSetup ∧
          s'.quiet.toRead cr = (msgs, e)) ∨
        ∃ e, s.quiet.toRead cr = ([], e) ∧ r = (e.attachMetadata s.headers).replay ∧
          s'.ended = some (e.attachMetadata s.headers)) := by
  have hrecord : ∀ {r : Except StreamEnd α} {s' : PolledStream α},
      ServerStream.Reads cr s.toStreamSetup (s.sawBodyData || !s.quiet.unread.isEmpty)
        s.quiet.unread s.quiet.bodyEnd (r, s'.quiet) → waits s'.body ≤ waits s.body →
      ∃ r₁ s₁, record (.ready r, s') = (.ready r₁, s₁) ∧ waits s₁.body ≤ waits s.body ∧
        ((∃ msg msgs e, s.quiet.toRead cr = (msg :: msgs, e) ∧ r₁ = .ok (some msg) ∧
            s₁.quiet.Live ∧ s₁.toStreamSetup = s.toStreamSetup ∧
            s₁.quiet.toRead cr = (msgs, e)) ∨
          ∃ e, s.quiet.toRead cr = ([], e) ∧ r₁ = (e.attachMetadata s.headers).replay ∧
            s₁.ended = some (e.attachMetadata s.headers)) := by
    intro r s' hreads hw
    obtain ⟨hsetup, hnext⟩ := ServerStream.Reads.live (s := s.quiet) cr hreads
    have hsame : s'.toStreamSetup = s.toStreamSetup := hsetup
    rcases hnext with ⟨msg, msgs, e, hread, rfl, hlive, hread'⟩ | ⟨e, hread, rfl⟩
    · exact ⟨_, _, rfl, hw, .inl ⟨msg, msgs, e, hread, rfl, hlive, hsame, hread'⟩⟩
    · refine ⟨_, _, rfl, hw, .inr ⟨e, hread, ?_, ?_⟩⟩
      · rw [hsame]
      · simp only [hsame]
  have hended : s.ended = none := hs.ended
  cases f with
  | start =>
    simp only [pollMessage, hended]
    rcases feedThen_quiet cr hs (fun s => pollBody cr s.body s) with
      ⟨r, s', hpoll, hw, hquiet⟩ | ⟨s₁, hwait, hmore, hsetup, hbody, hread, hquiet⟩
    · rw [hpoll]
      have hreads := ServerStream.nextMessageOrEnd_reads cr hs
      rw [ServerStream.nextMessageOrEnd, hquiet] at hreads
      exact .inr (hrecord hreads (Nat.le_of_eq hw))
    · rw [hmore]
      rcases pollBody_quiet cr s₁.body s₁ hwait rfl with ⟨s', hpoll, hw⟩ | ⟨r, s', hpoll, hw, hold⟩
      · rw [hpoll]
        refine .inl ⟨s', rfl, hw.waiting, hw.setup.trans hsetup, hw.toRead.trans hread, ?_⟩
        exact hbody ▸ hw.waits
      · rw [hpoll]
        have hreads := ServerStream.nextMessageOrEnd_reads cr hs
        have hrest : s₁.quiet.body = ready s₁.body := rfl
        rw [ServerStream.nextMessageOrEnd, hquiet, hrest, hold] at hreads
        exact .inr (hrecord hreads (hbody ▸ hw))
  | waiting =>
    have hwait := hf rfl
    rw [pollMessage]
    rcases pollBody_quiet cr s.body s hwait rfl with ⟨s', hpoll, hw⟩ | ⟨r, s', hpoll, hw, hold⟩
    · rw [hpoll]
      exact .inl ⟨s', rfl, hw⟩
    · rw [hpoll]
      have hframe : s.quiet.frame = [] := hwait.frame
      have hreads := ServerStream.pollBody_reads cr (ready s.body) s.quiet hs hframe
        hwait.incomplete
      rw [hold] at hreads
      have hunread : s.quiet.unread =
          s.quiet.assembler.held ++ (bodyRest s.protocol (ready s.body)).1 := by
        rw [ServerStream.unread, hframe]
        rfl
      refine .inr (hrecord ?_ hw)
      rw [hunread]
      exact hreads

end PolledStream

/-! ## Runs -/

/-- The first `k` answers for messages and an end. -/
def resultsOf (t : StreamSetup α) (r : List α × StreamEnd) (k : ℕ) :
    List (Except ConnectError (Option α)) :=
  (messageResults r.1 ++ List.replicate k (r.2.attachMetadata t.headers).replay).take k

namespace Caller

/-- What has been answered of a reading, and the state that is left: some messages,
and the rest is yet to be read; or all messages and the end a number of times. -/
inductive Reported (t : StreamSetup α) (r : List α × StreamEnd) :
    List (Except ConnectError (Option α)) → Caller α → Prop where
  /-- the end has not been reported -/
  | reading {done rest : List α} {c : Caller α} (hmsgs : r.1 = done ++ rest)
      (hlive : c.stream.quiet.Live) (hfuture : c.future = .waiting → c.stream.Waiting)
      (hsetup : c.stream.toStreamSetup = t) (hread : c.stream.quiet.toRead cr = (rest, r.2)) :
      Reported t r (messageResults done) c
  /-- the end is recorded and has been reported -/
  | ended {k : ℕ} {c : Caller α} (hended : c.stream.ended = some (r.2.attachMetadata t.headers))
      (hfuture : c.future = .start) :
      Reported t r (messageResults r.1 ++
        List.replicate (k + 1) (r.2.attachMetadata t.headers).replay) c

variable {t : StreamSetup α} {r : List α × StreamEnd}

/-- What a poll does to a caller whose stream has ended: it answers the end, and the
stream is not touched. -/
theorem poll_ended {c : Caller α} {e : StreamEnd} (he : c.stream.ended = some e)
    (hfuture : c.future = .start) :
    c.poll cr = (.ready e.replay, ⟨c.drops.tail, .start, c.stream⟩) := by
  have hstart : (if c.drops.head then MessageFuture.start else c.future) = .start := by
    rw [hfuture, ite_self]
  rw [poll, hstart]
  simp only [PolledStream.pollMessage, he]

/-- Whether or not the future is dropped, it is one the stream can wait for. -/
theorem future_waiting {c : Caller α} (h : c.future = .waiting → c.stream.Waiting) :
    (if c.drops.head then MessageFuture.start else c.future) = .waiting → c.stream.Waiting := by
  by_cases hd : c.drops.head = true
  · rw [if_pos hd]
    intro hf
    cases hf
  · rw [if_neg hd]
    exact h

/-- **One poll.** Dropped or not, it keeps what has been reported in step with the
state. -/
theorem Reported.poll {l : List (Except ConnectError (Option α))} {c : Caller α}
    (h : Reported cr t r l c) :
    ((c.poll cr).1 = .pending ∧ Reported cr t r l (c.poll cr).2 ∧
        waits (c.poll cr).2.stream.body < waits c.stream.body) ∨
      ∃ b, (c.poll cr).1 = .ready b ∧ Reported cr t r (l ++ [b]) (c.poll cr).2 ∧
        waits (c.poll cr).2.stream.body ≤ waits c.stream.body := by
  cases h with
  | @reading done rest _ hmsgs hlive hfuture hsetup hread =>
    rcases PolledStream.pollMessage_live cr hlive (future_waiting hfuture) with
      ⟨s', hpoll, hw⟩ | ⟨b, s', hpoll, hle, hcase⟩
    · refine .inl ?_
      rw [Caller.poll, hpoll]
      exact ⟨rfl, .reading hmsgs hw.waiting.live (fun _ => hw.waiting) (hw.setup.trans hsetup)
        (hw.toRead.trans hread), hw.waits⟩
    · refine .inr ⟨b, ?_⟩
      rw [Caller.poll, hpoll]
      refine ⟨rfl, ?_, hle⟩
      rw [hread] at hcase
      rcases hcase with ⟨msg, msgs, e, heq, rfl, hlive', hsetup', hread'⟩ | ⟨e, heq, rfl, hended⟩
      · -- a message
        obtain ⟨rfl, rfl⟩ := Prod.mk.inj heq
        have hdone : messageResults done ++ [.ok (some msg)] = messageResults (done ++ [msg]) :=
          (messageResults_append done [msg]).symm
        rw [hdone]
        refine .reading (by rw [hmsgs, List.append_assoc]; rfl) hlive' (fun hf => ?_)
          (hsetup'.trans hsetup) hread'
        cases hf
      · -- the end
        obtain ⟨rfl, rfl⟩ := Prod.mk.inj heq
        rw [List.append_nil] at hmsgs
        rw [← hmsgs, hsetup]
        exact .ended (k := 0) (by rw [hended, hsetup]) rfl
  | @ended k _ hended hfuture =>
    refine .inr ⟨(r.2.attachMetadata t.headers).replay, ?_⟩
    rw [poll_ended cr hended hfuture]
    refine ⟨rfl, ?_, Nat.le_refl _⟩
    rw [List.append_assoc, ← List.replicate_succ']
    exact .ended (k := k + 1) hended rfl

/-- **Runs.** What has been reported stays in step with the state, and only so many
polls are not answered. -/
theorem Reported.run (n : ℕ) : ∀ {l : List (Except ConnectError (Option α))} {c : Caller α},
    Reported cr t r l c → Reported cr t r (l ++ c.results cr n) (after (Caller.poll cr) n c) ∧
      n ≤ waits c.stream.body + (c.results cr n).length := by
  induction n with
  | zero =>
    intro l c h
    rw [results, polls, ready_nil, List.append_nil]
    exact ⟨h, Nat.zero_le _⟩
  | succ n ih =>
    intro l c h
    rcases h.poll with ⟨hpending, hnext, hw⟩ | ⟨b, hready, hnext, hw⟩
    · obtain ⟨hreported, hle⟩ := ih hnext
      have hresults : c.results cr (n + 1) = (c.poll cr).2.results cr n := by
        rw [results, polls, hpending]
        rfl
      rw [hresults]
      exact ⟨hreported, by omega⟩
    · obtain ⟨hreported, hle⟩ := ih hnext
      have hresults : c.results cr (n + 1) = b :: (c.poll cr).2.results cr n := by
        rw [results, polls, hready]
        rfl
      rw [List.append_assoc] at hreported
      rw [hresults, List.length_cons]
      exact ⟨hreported, by omega⟩

/-- What has been answered is the beginning of the answers for the reading. -/
theorem Reported.results {l : List (Except ConnectError (Option α))} {c : Caller α}
    (h : Reported cr t r l c) : l = resultsOf t r l.length := by
  cases h with
  | @reading done rest _ hmsgs =>
    rw [resultsOf, hmsgs, messageResults_append, List.append_assoc]
    exact List.take_left.symm
  | @ended k _ _ _ =>
    rw [resultsOf, List.length_append, List.take_append, List.take_of_length_le (Nat.le_add_right _ _),
      Nat.add_sub_cancel_left, List.take_replicate, List.length_replicate,
      Nat.min_eq_left (Nat.le_add_left _ _)]

/-- The end is recorded once it has been answered, and not before. -/
theorem Reported.record {l : List (Except ConnectError (Option α))} {c : Caller α}
    (h : Reported cr t r l c) :
    c.stream.ended =
      if l.length ≤ r.1.length then none else some (r.2.attachMetadata t.headers) := by
  cases h with
  | @reading done rest _ hmsgs hlive =>
    have hle : (messageResults done).length ≤ r.1.length := by
      rw [length_messageResults, hmsgs, List.length_append]
      omega
    rw [if_pos hle]
    exact hlive.ended
  | ended hended =>
    rw [List.length_append, length_messageResults, List.length_replicate, if_neg (by omega)]
    exact hended

/-- A caller whose stream has ended has no call under way. -/
theorem Reported.idle {l : List (Except ConnectError (Option α))} {c : Caller α}
    (h : Reported cr t r l c) {e : StreamEnd} (he : c.stream.ended = some e) :
    c.future = .start := by
  cases h with
  | reading _ hlive =>
    have hnone : c.stream.ended = none := hlive.ended
    rw [hnone] at he
    cases he
  | ended _ hfuture => exact hfuture

/-- After the end, polls answer it and do not touch the stream. -/
theorem polls_ended (m : ℕ) : ∀ {c : Caller α} {e : StreamEnd}, c.stream.ended = some e →
    c.future = .start →
      polls (Caller.poll cr) m c = List.replicate m (.ready e.replay) ∧
        (after (Caller.poll cr) m c).stream = c.stream := by
  induction m with
  | zero => exact fun _ _ => ⟨rfl, rfl⟩
  | succ m ih =>
    intro c e he hfuture
    obtain ⟨hpolls, hstream⟩ := ih (c := ⟨c.drops.tail, .start, c.stream⟩) he rfl
    rw [polls, after, poll_ended cr he hfuture, hpolls]
    exact ⟨rfl, hstream⟩

end Caller

/-! ## What is answered is a function of the wire -/

/-- How a body ends. -/
inductive Terminal : Type where
  /-- with HTTP trailers -/
  | trailers : HeaderMap → Terminal
  /-- cleanly -/
  | eof
  /-- with an error of the transport -/
  | failed : String → Terminal

/-- The end of a body as an event. -/
def Terminal.events : Terminal → List BodyEvent
  | trailers m => [.trailers m]
  | eof => []
  | failed e => [.failed e]

/-- A body delivers some bytes and an end, in frames cut anywhere, and answers "not
yet" anywhere. -/
def Delivers (b : Bytes) (terminal : Terminal) (body : List (Poll BodyEvent)) : Prop :=
  ∃ datas : List Bytes, datas.flatten = b ∧ ready body = datas.map .data ++ terminal.events

/-- What is read of bytes that come in one frame. -/
def wireReading (t : StreamSetup α) (b : Bytes) (terminal : Terminal) : List α × StreamEnd :=
  t.reading cr (.data b :: terminal.events)

/-- The calls of `message` deliver a reading `r`: their answers are those for its
messages and its end, however many there are; only as many polls as the body leaves
unanswered are without one. The end is recorded when it is answered, once; after that,
the stream and with it the body is not touched, and every answer is what `error` says. -/
structure FunctionOfWire (t : StreamSetup α) (r : List α × StreamEnd) (unanswered : ℕ)
    (c : Caller α) : Prop where
  /-- the answers -/
  results : ∀ n, c.results cr n = resultsOf t r (c.results cr n).length
  /-- there are enough of them -/
  progress : ∀ n, n ≤ unanswered + (c.results cr n).length
  /-- the record -/
  record : ∀ n, (after (Caller.poll cr) n c).stream.ended =
    if (c.results cr n).length ≤ r.1.length then none else some (r.2.attachMetadata t.headers)
  /-- it stays, and the body is not polled -/
  untouched : ∀ n, r.1.length < (c.results cr n).length → ∀ m,
    (after (Caller.poll cr) (n + m) c).stream = (after (Caller.poll cr) n c).stream
  /-- every later answer is what the accessors say -/
  replays : ∀ n, r.1.length < (c.results cr n).length → ∀ m,
    polls (Caller.poll cr) m (after (Caller.poll cr) n c) = List.replicate m (.ready
      (match (after (Caller.poll cr) n c).stream.error with
      | none => .ok none
      | some e => .error e))
  /-- the trailers are those of the end -/
  trailers : ∀ n, r.1.length < (c.results cr n).length →
    (after (Caller.poll cr) n c).stream.trailers = r.2.trailers

/-- What a fresh stream is left to read does not depend on the frames. -/
theorem reading_of_delivers {t : StreamSetup α} {b : Bytes} {terminal : Terminal}
    {body : List (Poll BodyEvent)} (h : Delivers b terminal body) :
    t.reading cr (ready body) = wireReading cr t b terminal := by
  obtain ⟨datas, hdatas, hbody⟩ := h
  have hrest : bodyRest t.protocol (ready body) =
      bodyRest t.protocol (.data b :: terminal.events) := by
    rw [hbody, bodyRest_datas, hdatas]
    rfl
  rw [wireReading, StreamSetup.reading, StreamSetup.reading, hrest]

/-- **`message` delivers a function of the wire.** For every setup, bytes and end of
the body, every way they are cut into frames, every delay, and every schedule of
dropped calls: the calls deliver what is read of the bytes. -/
theorem message_function_of_wire {t : StreamSetup α} {b : Bytes} {terminal : Terminal}
    {body : List (Poll BodyEvent)} (hbody : Delivers b terminal body) (drops : Stream' Bool) :
    FunctionOfWire cr t (wireReading cr t b terminal) (waits body)
      ⟨drops, .start, .start t body⟩ := by
  have hlive : (PolledStream.start t body).quiet.Live := ServerStream.start_live t (ready body)
  have hread : (PolledStream.start t body).quiet.toRead cr =
      ([] ++ (wireReading cr t b terminal).1, (wireReading cr t b terminal).2) :=
    (ServerStream.toRead_start cr t (ready body)).trans (reading_of_delivers cr hbody)
  have hstart : Caller.Reported cr t (wireReading cr t b terminal) []
      ⟨drops, .start, .start t body⟩ := by
    have hnone : (messageResults [] : List (Except ConnectError (Option α))) = [] := rfl
    rw [← hnone]
    refine .reading rfl hlive (fun hf => ?_) rfl hread
    cases hf
  have hrun : ∀ n, Caller.Reported cr t (wireReading cr t b terminal)
      (Caller.results cr n ⟨drops, .start, .start t body⟩)
      (after (Caller.poll cr) n ⟨drops, .start, .start t body⟩) := fun n => (hstart.run cr n).1
  have hended : ∀ n, (wireReading cr t b terminal).1.length <
      (Caller.results cr n ⟨drops, .start, .start t body⟩).length →
      (after (Caller.poll cr) n ⟨drops, .start, .start t body⟩).stream.ended =
        some ((wireReading cr t b terminal).2.attachMetadata t.headers) := by
    intro n hn
    rw [(hrun n).record, if_neg (Nat.not_le.mpr hn)]
  refine ⟨fun n => (hrun n).results, fun n => (hstart.run cr n).2, fun n => (hrun n).record, ?_, ?_, ?_⟩
  · intro n hn m
    rw [after_add]
    exact (Caller.polls_ended cr m (hended n hn) ((hrun n).idle cr (hended n hn))).2
  · intro n hn m
    rw [(Caller.polls_ended cr m (hended n hn) ((hrun n).idle cr (hended n hn))).1]
    rw [PolledStream.error, hended n hn]
    rfl
  · intro n hn
    rw [PolledStream.trailers, hended n hn]
    rfl

/-- A message cut in two, the future waiting in between and before the trailers. -/
def cutMessage : List (Poll BodyEvent) :=
  [.ready (.data [0, 0, 0]), .pending, .ready (.data [0, 1, 7]), .pending,
    .ready (.trailers ⟨[(hdr.grpcStatus, .ofNat 0)]⟩)]

theorem cutMessage_delivers :
    Delivers [0, 0, 0, 0, 1, 7] (.trailers ⟨[(hdr.grpcStatus, .ofNat 0)]⟩) cutMessage :=
  ⟨[[0, 0, 0], [0, 1, 7]], rfl, rfl⟩

/-- Read with every waiting future dropped. -/
theorem cutMessage_function_of_wire :
    FunctionOfWire .std (byteReader .grpc none .new 16)
      (wireReading .std (byteReader .grpc none .new 16) [0, 0, 0, 0, 1, 7]
        (.trailers ⟨[(hdr.grpcStatus, .ofNat 0)]⟩)) 2
      ⟨Stream'.const true, .start, .start (byteReader .grpc none .new 16) cutMessage⟩ :=
  message_function_of_wire .std cutMessage_delivers (Stream'.const true)

end ConnectRpc
