import ConnectRpc.MessageFuture

/-!
# The receive half of a bidi stream

The request of a bidi call is sent by a task of its own, and the response stream is made of
the response by another. `message` waits for the first, then for the second, then for the
stream; its future may be dropped at any of these points and `message` be called again. What
it waits for stays in the half: a `RecvState`.

The half is put together here with the future of its caller and with its tasks, which end
when and how they like. `Phase` says what has been observed by the time each state is
reached, one poll at a time (`Phase.step`), and the rest is read off it (`bidi_receive`).
-/

namespace ConnectRpc

open Lib

/-! ## Tasks -/

/-- The handle of a task: the task runs, it has ended, with a value unless it has panicked or
was cancelled, or its end was taken. -/
inductive JoinHandle (β : Type) : Type where
  | running : JoinHandle β
  | finished : Except String β → JoinHandle β
  | spent : JoinHandle β

/-- Poll a handle. It panics once its end was taken. -/
def JoinHandle.poll {β : Type} : JoinHandle β → Option (Poll (Except String β) × JoinHandle β)
  | running => some (.pending, .running)
  | finished r => some (.ready r, .spent)
  | spent => none

/-- The tasks of a half. -/
inductive BidiTask : Type where
  | send
  | construct
  deriving DecidableEq

/-- A response whose body is polled. -/
abbrev PolledResponse := Response (List (Poll BodyEvent))

variable (cr : Crates) {α : Type}

/-- `make_server_stream` on such a response. Of a good one the body is not read yet. -/
def makePolledStream (c : CallConfig α) (response : PolledResponse) (late : Bool) :
    Except ConnectError (PolledStream α) :=
  (makeServerStream cr c ⟨response.status, response.headers, ready response.body⟩ late).map fun _ =>
    .start (c.setup response.headers late) response.body

/-- How the construction task ends: with what `make_server_stream` gives, at the deadline, or
by a panic or a cancellation. -/
inductive BuildEnd : Type where
  | made (late : Bool) : BuildEnd
  | deadline : BuildEnd
  | joinFailed (e : String) : BuildEnd

/-- What the construction task leaves. -/
def BuildEnd.result (c : CallConfig α) (response : PolledResponse) :
    BuildEnd → Except String (Except ConnectError (PolledStream α))
  | made late => .ok (makePolledStream cr c response late)
  | deadline => .ok (.error deadlineFired)
  | joinFailed e => .error e

/-! ## The half -/

/-- The state machine of the receive half. -/
inductive RecvState (α : Type) : Type where
  | awaitingHeaders : JoinHandle (Except ConnectError PolledResponse) → RecvState α
  | constructing : JoinHandle (Except ConnectError (PolledStream α)) → RecvState α
  | ready : PolledStream α → RecvState α
  | failed : ConnectError → RecvState α

/-- The receive half, with the future of its caller and its tasks. -/
structure BidiRecvHalf (α : Type) where
  /-- the state -/
  recv : RecvState α
  /-- the future of the stream's `message`, within that of the half's -/
  future : MessageFuture
  /-- whether the send task is in flight -/
  sending : Bool
  /-- the response that the construction task works on, while it is in flight -/
  building : Option PolledResponse

/-- What can be observed of a half. -/
inductive BidiEvent (α : Type) : Type where
  /-- the send task has ended -/
  | sent : Except String (Except ConnectError PolledResponse) → BidiEvent α
  /-- the construction task was spawned on a response -/
  | spawned : PolledResponse → BidiEvent α
  /-- a task was aborted -/
  | aborted : BidiTask → BidiEvent α
  /-- `message` waits for the body of the response -/
  | waited : BidiEvent α
  /-- `message` has answered -/
  | answered : Except ConnectError (Option α) → BidiEvent α
  /-- a handle was polled after its end was taken -/
  | panicked : BidiEvent α

/-- What can happen: the tasks end, the caller polls its future, or drops it. At a poll,
`late` tells whether the deadline has passed, and `instant` whether a construction task that
is spawned by it has ended before its handle is polled. -/
inductive BidiAction : Type where
  | sent (result : Except String (Except ConnectError PolledResponse)) : BidiAction
  | built (o : BuildEnd) : BidiAction
  | poll (late : Bool) (instant : Option BuildEnd) : BidiAction
  | dropFuture : BidiAction

namespace BidiRecvHalf

/-- The half that `call_bidi_stream` returns. -/
def new : BidiRecvHalf α := ⟨.awaitingHeaders .running, .start, true, none⟩

/-- `JoinHandle::abort`. The task ends at its next step, and nobody sees how. -/
def abort (task : BidiTask) (r : BidiRecvHalf α) : BidiRecvHalf α :=
  match task with
  | .send => { r with sending := false }
  | .construct => { r with building := none }

/-- Store the error and answer it. -/
def fail (r : BidiRecvHalf α) (e : ConnectError) : BidiRecvHalf α × List (BidiEvent α) :=
  ({ r with recv := .failed e, future := .start }, [.answered (.error e)])

/-- The arm of `Ready`: the stream's own `message`. -/
def readyArm (r : BidiRecvHalf α) (stream : PolledStream α) (future : MessageFuture) :
    BidiRecvHalf α × List (BidiEvent α) :=
  match stream.pollMessage cr future with
  | (.pending, stream) => ({ r with recv := .ready stream, future := .waiting }, [.waited])
  | (.ready answer, stream) => ({ r with recv := .ready stream, future := .start }, [.answered answer])

/-- What a task has left, a failure of the task itself rendered as an error. -/
def joined {β : Type} (what : String) : Except String (Except ConnectError β) → Except ConnectError β
  | .ok result => result
  | .error e => .error (.internal s!"{what} task failed: {e}")

/-- The arm of `Constructing`. -/
def constructingArm (r : BidiRecvHalf α) (task : JoinHandle (Except ConnectError (PolledStream α))) :
    BidiRecvHalf α × List (BidiEvent α) :=
  match task.poll with
  | none => (r, [.panicked])
  | some (.pending, task) => ({ r with recv := .constructing task }, [])
  | some (.ready result, _) =>
    match joined "response stream construction" result with
    | .ok stream => readyArm cr r stream .start
    | .error e => r.fail e

/-- The arm of `AwaitingHeaders`. -/
def headersArm (c : CallConfig α) (late : Bool) (instant : Option BuildEnd) (r : BidiRecvHalf α)
    (task : JoinHandle (Except ConnectError PolledResponse)) :
    BidiRecvHalf α × List (BidiEvent α) :=
  match task.poll with
  | none => (r, [.panicked])
  | some (.pending, task) =>
    if late then
      let failed := (r.abort .send).fail deadlineFired
      (failed.1, .aborted .send :: failed.2)
    else ({ r with recv := .awaitingHeaders task }, [])
  | some (.ready result, _) =>
    match joined "transport send" result with
    | .error e =>
      let failed := (r.abort .send).fail e
      (failed.1, .aborted .send :: failed.2)
    | .ok response =>
      let (task, building) :=
        match instant with
        | none => (.running, some response)
        | some o => (.finished (o.result cr c response), none)
      let next := constructingArm cr { r with recv := .constructing task, building := building } task
      (next.1, .spawned response :: next.2)

/-- Poll `message`. The loop of the source goes from one state to the next, never back. -/
def poll (c : CallConfig α) (late : Bool) (instant : Option BuildEnd) (r : BidiRecvHalf α) :
    BidiRecvHalf α × List (BidiEvent α) :=
  match r.recv with
  | .awaitingHeaders task => headersArm cr c late instant r task
  | .constructing task => constructingArm cr r task
  | .ready stream => readyArm cr r stream r.future
  | .failed e => (r, [.answered (.error e)])

/-- The send task ends, if it is in flight; its handle may be gone. -/
def sent (result : Except String (Except ConnectError PolledResponse)) (r : BidiRecvHalf α) :
    BidiRecvHalf α × List (BidiEvent α) :=
  if r.sending then
    let r := { r with sending := false }
    match r.recv with
    | .awaitingHeaders _ => ({ r with recv := .awaitingHeaders (.finished result) }, [.sent result])
    | _ => (r, [.sent result])
  else (r, [])

/-- The construction task ends, if it is in flight; its handle may be gone. -/
def built (c : CallConfig α) (o : BuildEnd) (r : BidiRecvHalf α) : BidiRecvHalf α :=
  match r.building with
  | some response =>
    let r := { r with building := none }
    match r.recv with
    | .constructing _ => { r with recv := .constructing (.finished (o.result cr c response)) }
    | _ => r
  | none => r

/-- One action. -/
def step (c : CallConfig α) (r : BidiRecvHalf α) : BidiAction → BidiRecvHalf α × List (BidiEvent α)
  | .sent result => r.sent result
  | .built o => (r.built cr c o, [])
  | .poll late instant => r.poll cr c late instant
  | .dropFuture => ({ r with future := .start }, [])

/-- A run. -/
def run (c : CallConfig α) : List BidiAction → BidiRecvHalf α → BidiRecvHalf α × List (BidiEvent α)
  | [], r => (r, [])
  | a :: as, r =>
    let next := run c as (r.step cr c a).1
    (next.1, (r.step cr c a).2 ++ next.2)

/-- Drop the half. -/
def drop (r : BidiRecvHalf α) : BidiRecvHalf α × List (BidiEvent α) :=
  match r.recv with
  | .awaitingHeaders _ => (r.abort .send, [.aborted .send])
  | .constructing _ => (r.abort .construct, [.aborted .construct])
  | .ready _ => (r, [])
  | .failed _ => (r, [])

/-- `BidiRecvHalf::error`. -/
def error (r : BidiRecvHalf α) : Option ConnectError :=
  match r.recv with
  | .ready s => s.error
  | .failed e => some e
  | _ => none

/-- The tasks in flight. -/
def inFlight (r : BidiRecvHalf α) : List BidiTask :=
  (if r.sending then [.send] else []) ++ (if r.building.isSome then [.construct] else [])

end BidiRecvHalf

/-! ## What is observed -/

namespace BidiEvent

/-- The end of the send task. -/
def sentOf : BidiEvent α → Option (Except String (Except ConnectError PolledResponse))
  | sent r => some r
  | _ => none

/-- The response of a construction. -/
def spawnedOf : BidiEvent α → Option PolledResponse
  | spawned r => some r
  | _ => none

/-- The answer of `message`. -/
def answerOf : BidiEvent α → Option (Except ConnectError (Option α))
  | answered r => some r
  | _ => none

/-- Whether `message` waits for the body. -/
def isWait : BidiEvent α → Bool
  | waited => true
  | _ => false

/-- Whether a spent handle was polled. -/
def isPanic : BidiEvent α → Bool
  | panicked => true
  | _ => false

end BidiEvent

/-- The ends of the send task in a log. -/
def endedSends (log : List (BidiEvent α)) : List (Except String (Except ConnectError PolledResponse)) :=
  log.filterMap BidiEvent.sentOf

/-- The responses of the constructions in a log. -/
def spawnedBuilds (log : List (BidiEvent α)) : List PolledResponse :=
  log.filterMap BidiEvent.spawnedOf

/-- The answers in a log. -/
def givenAnswers (log : List (BidiEvent α)) : List (Except ConnectError (Option α)) :=
  log.filterMap BidiEvent.answerOf

/-- How often a log waits for the body. -/
def waitCount (log : List (BidiEvent α)) : ℕ :=
  log.countP BidiEvent.isWait

/-- What a log comes down to, no spent handle having been polled. -/
structure Observed (log : List (BidiEvent α))
    (sents : List (Except String (Except ConnectError PolledResponse)))
    (spawns : List PolledResponse) (answers : List (Except ConnectError (Option α))) (waits : ℕ) :
    Prop where
  /-- the ends of the send task -/
  sents : endedSends log = sents
  /-- the responses of the constructions -/
  spawns : spawnedBuilds log = spawns
  /-- the answers -/
  answers : givenAnswers log = answers
  /-- how often `message` waits for the body -/
  waits : waitCount log = waits
  /-- no spent handle was polled -/
  calm : log.countP BidiEvent.isPanic = 0

theorem Observed.append {log more : List (BidiEvent α)}
    {sents sents' : List (Except String (Except ConnectError PolledResponse))}
    {spawns spawns' : List PolledResponse} {answers answers' : List (Except ConnectError (Option α))}
    {waits waits' : ℕ} (h : Observed log sents spawns answers waits)
    (h' : Observed more sents' spawns' answers' waits') :
    Observed (log ++ more) (sents ++ sents') (spawns ++ spawns') (answers ++ answers')
      (waits + waits') where
  sents := by rw [endedSends, List.filterMap_append, ← endedSends, ← endedSends, h.sents, h'.sents]
  spawns := by rw [spawnedBuilds, List.filterMap_append, ← spawnedBuilds, ← spawnedBuilds, h.spawns, h'.spawns]
  answers := by
    rw [givenAnswers, List.filterMap_append, ← givenAnswers, ← givenAnswers, h.answers, h'.answers]
  waits := by rw [waitCount, List.countP_append, ← waitCount, ← waitCount, h.waits, h'.waits]
  calm := by rw [List.countP_append, h.calm, h'.calm]

/-! ## The arm of the stream -/

namespace Caller.Reported

variable {t : StreamSetup α} {r : List α × StreamEnd} {answers : List (Except ConnectError (Option α))}
  {drops : Stream' Bool} {future : MessageFuture} {stream : PolledStream α}

/-- Nothing reported is lost with a future. -/
theorem dropped (h : Reported cr t r answers ⟨drops, future, stream⟩) :
    Reported cr t r answers ⟨drops, .start, stream⟩ := by
  cases h with
  | reading hmsgs hlive hfuture hsetup hread =>
    exact .reading hmsgs hlive (fun hf => by cases hf) hsetup hread
  | ended hended hfuture => exact .ended hended rfl

/-- Nothing is reported of a fresh stream. -/
theorem fresh (t : StreamSetup α) (body : List (Poll BodyEvent)) (drops : Stream' Bool) :
    Reported cr t (t.reading cr (ready body)) [] ⟨drops, .start, .start t body⟩ := by
  have hlive : (PolledStream.start t body).quiet.Live := ServerStream.start_live t (ready body)
  have hread : (PolledStream.start t body).quiet.toRead cr =
      ((t.reading cr (ready body)).1, (t.reading cr (ready body)).2) :=
    ServerStream.toRead_start cr t (ready body)
  have hnone : (messageResults [] : List (Except ConnectError (Option α))) = [] := rfl
  rw [← hnone]
  exact .reading rfl hlive (fun hf => by cases hf) rfl hread

end Caller.Reported

namespace BidiRecvHalf

/-- A poll in the arm of the stream: what it answers, if it does, is what is next to be
reported, and it waits only where the body does. -/
theorem readyArm_reported {t : StreamSetup α} {rd : List α × StreamEnd}
    {answers : List (Except ConnectError (Option α))} {stream : PolledStream α}
    {future : MessageFuture} (r : BidiRecvHalf α)
    (h : Caller.Reported cr t rd answers ⟨Stream'.const false, future, stream⟩) :
    ∃ stream' future' events more n,
      readyArm cr r stream future = ({ r with recv := .ready stream', future := future' }, events) ∧
      Observed events [] [] more n ∧ more.length + n = 1 ∧
      Caller.Reported cr t rd (answers ++ more) ⟨Stream'.const false, future', stream'⟩ ∧
      n + waits stream'.body ≤ waits stream.body := by
  have hpoll : Caller.poll cr ⟨Stream'.const false, future, stream⟩ =
      match stream.pollMessage cr future with
      | (.pending, s) => (.pending, ⟨Stream'.const false, .waiting, s⟩)
      | (.ready b, s) => (.ready b, ⟨Stream'.const false, .start, s⟩) := rfl
  rcases hm : stream.pollMessage cr future with ⟨_ | b, s⟩
  · rcases h.poll cr with ⟨-, hnext, hw⟩ | ⟨b, hready, -⟩
    · rw [hpoll, hm] at hnext hw
      refine ⟨s, .waiting, [.waited], [], 1, ?_, ⟨rfl, rfl, rfl, rfl, rfl⟩, rfl, ?_, ?_⟩
      · rw [readyArm, hm]
      · rw [List.append_nil]
        exact hnext
      · have hlt : waits s.body < waits stream.body := hw
        omega
    · rw [hpoll, hm] at hready
      cases hready
  · rcases h.poll cr with ⟨hpending, -⟩ | ⟨b', hready, hnext, hw⟩
    · rw [hpoll, hm] at hpending
      cases hpending
    · rw [hpoll, hm] at hready hnext hw
      obtain rfl : b = b' := Poll.ready.inj hready
      refine ⟨s, .start, [.answered b], [b], 0, ?_, ⟨rfl, rfl, rfl, rfl, rfl⟩, rfl, hnext, ?_⟩
      · rw [readyArm, hm]
      · rw [Nat.zero_add]
        exact hw

end BidiRecvHalf

/-! ## The states of a run -/

/-- Why a half has failed, and what had become of its tasks by then. -/
inductive FailedBy (c : CallConfig α) (e : ConnectError) :
    List (Except String (Except ConnectError PolledResponse)) → List PolledResponse → Prop where
  /-- the deadline passed before there was a response -/
  | deadline (he : e = deadlineFired) : FailedBy c e [] []
  /-- the send task has no response -/
  | send {result : Except String (Except ConnectError PolledResponse)}
      (he : BidiRecvHalf.joined "transport send" result = .error e) : FailedBy c e [result] []
  /-- no stream could be made of the response -/
  | construct {response : PolledResponse} {o : BuildEnd}
      (he : BidiRecvHalf.joined "response stream construction" (o.result cr c response) = .error e) :
      FailedBy c e [.ok (.ok response)] [response]

/-- What has been observed by the time each state is reached. -/
inductive Phase (c : CallConfig α) : List (BidiEvent α) → BidiRecvHalf α → Prop where
  /-- the send task runs -/
  | sending {log : List (BidiEvent α)} (hlog : Observed log [] [] [] 0) :
      Phase c log ⟨.awaitingHeaders .running, .start, true, none⟩
  /-- it has ended -/
  | sent {log : List (BidiEvent α)} {result : Except String (Except ConnectError PolledResponse)}
      (hlog : Observed log [result] [] [] 0) :
      Phase c log ⟨.awaitingHeaders (.finished result), .start, false, none⟩
  /-- the construction task runs -/
  | building {log : List (BidiEvent α)} {response : PolledResponse}
      (hlog : Observed log [.ok (.ok response)] [response] [] 0) :
      Phase c log ⟨.constructing .running, .start, false, some response⟩
  /-- it has ended -/
  | built {log : List (BidiEvent α)} {response : PolledResponse} {o : BuildEnd}
      (hlog : Observed log [.ok (.ok response)] [response] [] 0) :
      Phase c log ⟨.constructing (.finished (o.result cr c response)), .start, false, none⟩
  /-- the stream is read -/
  | ready {log : List (BidiEvent α)} {response : PolledResponse} {late : Bool}
      {answers : List (Except ConnectError (Option α))} {n : ℕ} {future : MessageFuture}
      {stream : PolledStream α}
      (hlog : Observed log [.ok (.ok response)] [response] answers n)
      (hmade : makePolledStream cr c response late =
        .ok (.start (c.setup response.headers late) response.body))
      (hreported : Caller.Reported cr (c.setup response.headers late)
        ((c.setup response.headers late).reading cr (ready response.body)) answers
        ⟨Stream'.const false, future, stream⟩)
      (hwaits : n + waits stream.body ≤ waits response.body) :
      Phase c log ⟨.ready stream, future, false, none⟩
  /-- the half has failed -/
  | failed {log : List (BidiEvent α)} {e : ConnectError} {k : ℕ}
      {sents : List (Except String (Except ConnectError PolledResponse))}
      {spawns : List PolledResponse}
      (hlog : Observed log sents spawns (List.replicate (k + 1) (.error e)) 0)
      (hby : FailedBy cr c e sents spawns) :
      Phase c log ⟨.failed e, .start, false, none⟩

/-- A poll that answers an error, of a half whose tasks have ended. -/
theorem Observed.fail {log : List (BidiEvent α)}
    {sents : List (Except String (Except ConnectError PolledResponse))}
    {spawns : List PolledResponse} (h : Observed log sents spawns [] 0) (e : ConnectError)
    {events : List (BidiEvent α)} (hevents : events = [.answered (.error e)] ∨
      events = [.aborted .send, .answered (.error e)]) :
    Observed (log ++ events) sents spawns (List.replicate 1 (.error e)) 0 := by
  have hmore : Observed events [] [] [.error e] 0 := by
    rcases hevents with rfl | rfl <;> exact ⟨rfl, rfl, rfl, rfl, rfl⟩
  have happend := h.append hmore
  rw [List.append_nil, List.append_nil] at happend
  exact happend

/-- What a construction can end with: a fresh stream, if the head of the response is
good, or an error. -/
theorem BuildEnd.joined_result (c : CallConfig α) (response : PolledResponse) (o : BuildEnd) :
    (∃ e, BidiRecvHalf.joined "response stream construction" (o.result cr c response) = .error e) ∨
    ∃ late, makePolledStream cr c response late =
        .ok (.start (c.setup response.headers late) response.body) ∧
      BidiRecvHalf.joined "response stream construction" (o.result cr c response) =
        .ok (.start (c.setup response.headers late) response.body) := by
  cases o with
  | deadline => exact .inl ⟨_, rfl⟩
  | joinFailed e => exact .inl ⟨_, rfl⟩
  | made late =>
    have hjoined : BidiRecvHalf.joined "response stream construction"
        ((made late).result cr c response) = makePolledStream cr c response late := rfl
    rw [hjoined]
    rcases hmake : makeServerStream cr c ⟨response.status, response.headers, ready response.body⟩ late
      with e | s
    · refine .inl ⟨e, ?_⟩
      rw [makePolledStream, hmake]
      rfl
    · have hmade : makePolledStream cr c response late =
          .ok (.start (c.setup response.headers late) response.body) := by
        rw [makePolledStream, hmake]
        rfl
      exact .inr ⟨late, hmade, hmade⟩

namespace Phase

variable {cr} {c : CallConfig α} {log : List (BidiEvent α)}

/-- The arm of the construction task keeps the phase. -/
theorem constructingArm {response : PolledResponse}
    (hlog : Observed log [.ok (.ok response)] [response] [] 0) (recv : RecvState α) :
    Phase cr c (log ++ (BidiRecvHalf.constructingArm cr ⟨recv, .start, false, some response⟩
        .running).2)
      (BidiRecvHalf.constructingArm cr ⟨recv, .start, false, some response⟩ .running).1 ∧
    ∀ o : BuildEnd, Phase cr c
      (log ++ (BidiRecvHalf.constructingArm cr ⟨recv, .start, false, none⟩
        (.finished (o.result cr c response))).2)
      (BidiRecvHalf.constructingArm cr ⟨recv, .start, false, none⟩
        (.finished (o.result cr c response))).1 := by
  refine ⟨?_, fun o => ?_⟩
  · rw [BidiRecvHalf.constructingArm, JoinHandle.poll]
    dsimp only
    rw [List.append_nil]
    exact .building hlog
  · rw [BidiRecvHalf.constructingArm, JoinHandle.poll]
    dsimp only
    rcases o.joined_result cr c response with ⟨e, he⟩ | ⟨late, hmade, hstream⟩
    · rw [he]
      exact .failed (hlog.fail e (.inl rfl)) (.construct he)
    · rw [hstream]
      dsimp only
      -- the stream is polled at once
      obtain ⟨stream', future', events, more, n, hready, hevents, -, hreported, hwaits⟩ :=
        BidiRecvHalf.readyArm_reported cr ⟨recv, .start, false, none⟩
          (Caller.Reported.fresh cr (c.setup response.headers late) response.body
            (Stream'.const false))
      rw [hready]
      have hall := hlog.append hevents
      rw [List.append_nil, List.append_nil, Nat.zero_add] at hall
      exact .ready hall hmade hreported hwaits

/-- Nothing is observed where a future is dropped. -/
theorem dropFuture {r : BidiRecvHalf α} (h : Phase cr c log r) :
    Phase cr c log { r with future := .start } := by
  cases h with
  | sending hlog => exact .sending hlog
  | sent hlog => exact .sent hlog
  | building hlog => exact .building hlog
  | built hlog => exact .built hlog
  | ready hlog hmade hreported hwaits => exact .ready hlog hmade (hreported.dropped cr) hwaits
  | failed hlog hby => exact .failed hlog hby

/-- A poll keeps the phase. -/
theorem poll {r : BidiRecvHalf α} (h : Phase cr c log r) (late : Bool) (instant : Option BuildEnd) :
    Phase cr c (log ++ (r.poll cr c late instant).2) (r.poll cr c late instant).1 := by
  cases h with
  | sending hlog =>
    cases late with
    | true => exact .failed (hlog.fail deadlineFired (.inr rfl)) (.deadline rfl)
    | false => exact (List.append_nil log).symm ▸ .sending hlog
  | @sent result hlog =>
    rcases hjoined : BidiRecvHalf.joined "transport send" result with e | response
    · have hpoll : BidiRecvHalf.poll cr c late instant
          ⟨.awaitingHeaders (.finished result), .start, false, none⟩ =
            (⟨.failed e, .start, false, none⟩, [.aborted .send, .answered (.error e)]) := by
        simp only [BidiRecvHalf.poll, BidiRecvHalf.headersArm, JoinHandle.poll, hjoined,
          BidiRecvHalf.abort, BidiRecvHalf.fail]
      rw [hpoll]
      exact .failed (hlog.fail e (.inr rfl)) (.send hjoined)
    · -- the response goes into a construction task, and that is polled at once
      obtain rfl : result = .ok (.ok response) := by
        rcases result with e | e | response'
        · cases hjoined
        · cases hjoined
        · obtain rfl : response' = response := Except.ok.inj hjoined
          rfl
      have hone : Observed [BidiEvent.spawned response] [] [response]
          ([] : List (Except ConnectError (Option α))) 0 := ⟨rfl, rfl, rfl, rfl, rfl⟩
      have hspawned := hlog.append hone
      rw [List.append_nil, List.nil_append, List.append_nil] at hspawned
      cases instant with
      | none =>
        have hnext := (@constructingArm cr α c _ _ hspawned (.constructing .running)).1
        rw [List.append_assoc] at hnext
        exact hnext
      | some o =>
        have hnext := (@constructingArm cr α c _ _ hspawned
          (.constructing (.finished (o.result cr c response)))).2 o
        rw [List.append_assoc] at hnext
        exact hnext
  | building hlog => exact (constructingArm hlog _).1
  | @built _ o hlog => exact (constructingArm hlog _).2 o
  | @ready _ _ _ _ future stream hlog hmade hreported hwaits =>
    have hpoll : BidiRecvHalf.poll cr c late instant ⟨.ready stream, future, false, none⟩ =
        BidiRecvHalf.readyArm cr ⟨.ready stream, future, false, none⟩ stream future := rfl
    rw [hpoll]
    obtain ⟨stream', future', events, more, n, hready, hevents, -, hreported', hwaits'⟩ :=
      BidiRecvHalf.readyArm_reported cr ⟨.ready stream, future, false, none⟩ hreported
    rw [hready]
    have hall := hlog.append hevents
    rw [List.append_nil, List.append_nil] at hall
    exact .ready hall hmade hreported' (by omega)
  | @failed e k _ _ hlog hby =>
    have hone : Observed [BidiEvent.answered (.error e)] [] []
        [(.error e : Except ConnectError (Option α))] 0 := ⟨rfl, rfl, rfl, rfl, rfl⟩
    have hall := hlog.append hone
    rw [List.append_nil, List.append_nil, ← List.replicate_succ'] at hall
    exact .failed hall hby

/-- **One action keeps the phase.** -/
theorem step {r : BidiRecvHalf α} (h : Phase cr c log r) (a : BidiAction) :
    Phase cr c (log ++ (r.step cr c a).2) (r.step cr c a).1 := by
  cases a with
  | poll late instant => exact h.poll late instant
  | dropFuture =>
    rw [BidiRecvHalf.step, List.append_nil]
    exact h.dropFuture
  | sent result =>
    cases h with
    | sending hlog =>
      have hone : Observed [BidiEvent.sent result] [result] []
          ([] : List (Except ConnectError (Option α))) 0 := ⟨rfl, rfl, rfl, rfl, rfl⟩
      exact .sent (hlog.append hone)
    | sent hlog => exact (List.append_nil log).symm ▸ .sent hlog
    | building hlog => exact (List.append_nil log).symm ▸ .building hlog
    | built hlog => exact (List.append_nil log).symm ▸ .built hlog
    | ready hlog hmade hreported hwaits =>
      exact (List.append_nil log).symm ▸ .ready hlog hmade hreported hwaits
    | failed hlog hby => exact (List.append_nil log).symm ▸ .failed hlog hby
  | built o =>
    rw [BidiRecvHalf.step, List.append_nil]
    cases h with
    | sending hlog => exact .sending hlog
    | sent hlog => exact .sent hlog
    | building hlog => exact .built hlog
    | built hlog => exact .built hlog
    | ready hlog hmade hreported hwaits => exact .ready hlog hmade hreported hwaits
    | failed hlog hby => exact .failed hlog hby

/-- **A run keeps the phase.** -/
theorem run (actions : List BidiAction) : ∀ {log : List (BidiEvent α)} {r : BidiRecvHalf α},
    Phase cr c log r → Phase cr c (log ++ (r.run cr c actions).2) (r.run cr c actions).1 := by
  induction actions with
  | nil =>
    intro log r h
    rw [BidiRecvHalf.run, List.append_nil]
    exact h
  | cons a actions ih =>
    intro log r h
    have hrest := ih (h.step a)
    rw [List.append_assoc] at hrest
    exact hrest

/-- The half that `call_bidi_stream` returns. -/
theorem new : Phase cr c [] (BidiRecvHalf.new (α := α)) :=
  .sending ⟨rfl, rfl, rfl, rfl, rfl⟩

end Phase

/-! ## The law -/

namespace BidiRecvHalf

variable {cr} {c : CallConfig α}

/-- A failed half stays as it is, whatever is done to it, and answers its error. -/
theorem step_failed {r : BidiRecvHalf α} {e : ConnectError} (h : r.recv = .failed e)
    (a : BidiAction) : (r.step cr c a).1.recv = .failed e ∧
      ∀ answer ∈ givenAnswers (r.step cr c a).2, answer = .error e := by
  obtain ⟨recv, future, sending, building⟩ := r
  obtain rfl : recv = .failed e := h
  cases a with
  | poll late instant => exact ⟨rfl, fun answer hanswer => List.mem_singleton.mp hanswer⟩
  | dropFuture => exact ⟨rfl, fun _ hanswer => absurd hanswer List.not_mem_nil⟩
  | sent result => cases sending <;> exact ⟨rfl, fun _ hanswer => absurd hanswer List.not_mem_nil⟩
  | built o => cases building <;> exact ⟨rfl, fun _ hanswer => absurd hanswer List.not_mem_nil⟩

/-- The same in a run. -/
theorem run_failed (actions : List BidiAction) : ∀ {r : BidiRecvHalf α} {e : ConnectError},
    r.recv = .failed e → (r.run cr c actions).1.recv = .failed e ∧
      ∀ answer ∈ givenAnswers (r.run cr c actions).2, answer = .error e := by
  induction actions with
  | nil => exact fun h => ⟨h, fun _ hanswer => absurd hanswer List.not_mem_nil⟩
  | cons a actions ih =>
    intro r e h
    obtain ⟨hstep, hfirst⟩ := @step_failed cr α c r e h a
    obtain ⟨hrun, hrest⟩ := ih hstep
    refine ⟨hrun, fun answer hanswer => ?_⟩
    rw [run, givenAnswers, List.filterMap_append, List.mem_append] at hanswer
    exact hanswer.elim (hfirst answer) (hrest answer)

end BidiRecvHalf

/-- The task that a state waits for. -/
def RecvState.awaited : RecvState α → List BidiTask
  | awaitingHeaders .running => [.send]
  | constructing .running => [.construct]
  | _ => []

/-- What holds of a half, and of what has been observed of it. -/
structure ReceiveLaw (c : CallConfig α) (log : List (BidiEvent α)) (r : BidiRecvHalf α) : Prop where
  /-- no handle was polled after its end was taken -/
  calm : log.countP BidiEvent.isPanic = 0
  /-- what is constructed on is the response of the send task -/
  constructs : ∀ response ∈ spawnedBuilds log, endedSends log = [.ok (.ok response)]
  /-- the response of the send task is constructed on, once, by the next poll at the latest -/
  once : ∀ response, .ok (.ok response) ∈ endedSends log → ∀ late instant,
    spawnedBuilds (log ++ (r.poll cr c late instant).2) = [response]
  /-- nothing is answered before there is a stream, or the half has failed -/
  silent : (∀ stream, r.recv ≠ .ready stream) → (∀ e, r.recv ≠ .failed e) → givenAnswers log = []
  /-- what the stream has answered is what is read of the body of the response, from its
  beginning, without a gap and without a repetition; only the body can keep it waiting -/
  delivers : ∀ stream, r.recv = .ready stream → ∃ response late,
    spawnedBuilds log = [response] ∧
    makePolledStream cr c response late =
      .ok (.start (c.setup response.headers late) response.body) ∧
    givenAnswers log = resultsOf (c.setup response.headers late)
      ((c.setup response.headers late).reading cr (ready response.body)) (givenAnswers log).length ∧
    waitCount log + waits stream.body ≤ waits response.body
  /-- a poll of the stream answers or waits for the body -/
  progress : ∀ stream, r.recv = .ready stream → ∀ late instant,
    (r.poll cr c late instant).2 = [.waited] ∨
      ∃ answer, (r.poll cr c late instant).2 = [.answered answer]
  /-- a half fails with an answer, and from then on there is no other -/
  sticky : ∀ e, r.recv = .failed e → givenAnswers log ≠ [] ∧
    (∀ answer ∈ givenAnswers log, answer = .error e) ∧ ∀ actions,
      (r.run cr c actions).1.error = some e ∧
      (∀ answer ∈ givenAnswers (r.run cr c actions).2, answer = .error e) ∧
      ∀ late instant, ((r.run cr c actions).1.poll cr c late instant).2 = [.answered (.error e)]
  /-- at most one task is in flight, and it is the one that is waited for -/
  flight : r.inFlight = r.recv.awaited
  /-- to drop the half aborts it -/
  dropped : (∀ task ∈ r.inFlight, .aborted task ∈ r.drop.2) ∧ r.drop.1.inFlight = []

namespace BidiRecvHalf

theorem spawnedBuilds_readyArm (r : BidiRecvHalf α) (stream : PolledStream α) (future : MessageFuture) :
    spawnedBuilds (readyArm cr r stream future).2 = [] := by
  unfold readyArm
  split <;> rfl

theorem spawnedBuilds_constructingArm (r : BidiRecvHalf α)
    (task : JoinHandle (Except ConnectError (PolledStream α))) :
    spawnedBuilds (constructingArm cr r task).2 = [] := by
  unfold constructingArm
  split
  · rfl
  · rfl
  · split
    · exact spawnedBuilds_readyArm cr r _ _
    · rfl

/-- A poll that finds a response constructs on it. -/
theorem spawnedBuilds_poll_sent (c : CallConfig α) (response : PolledResponse) (late : Bool)
    (instant : Option BuildEnd) (future : MessageFuture) (building : Option PolledResponse) :
    spawnedBuilds (BidiRecvHalf.poll cr c late instant
      ⟨.awaitingHeaders (.finished (.ok (.ok response))), future, false, building⟩).2 =
        [response] := by
  cases instant with
  | none => exact congrArg (response :: ·) (spawnedBuilds_constructingArm cr _ _)
  | some o => exact congrArg (response :: ·) (spawnedBuilds_constructingArm cr _ _)

/-- A poll of the stream answers or waits for the body. -/
theorem poll_ready (c : CallConfig α) {r : BidiRecvHalf α} {stream : PolledStream α}
    (hready : r.recv = .ready stream) (late : Bool) (instant : Option BuildEnd) :
    (r.poll cr c late instant).2 = [.waited] ∨
      ∃ answer, (r.poll cr c late instant).2 = [.answered answer] := by
  rw [poll, hready]
  dsimp only
  rw [readyArm]
  split
  · exact .inl rfl
  · exact .inr ⟨_, rfl⟩

end BidiRecvHalf

namespace Phase

variable {cr} {c : CallConfig α} {log : List (BidiEvent α)} {r : BidiRecvHalf α}

theorem calm (h : Phase cr c log r) : log.countP BidiEvent.isPanic = 0 := by
  cases h with
  | sending hlog => exact hlog.calm
  | sent hlog => exact hlog.calm
  | building hlog => exact hlog.calm
  | built hlog => exact hlog.calm
  | ready hlog => exact hlog.calm
  | failed hlog => exact hlog.calm

/-- A response that is constructed on is what the send task has left, and nothing else is. -/
theorem spawned (h : Phase cr c log r) :
    spawnedBuilds log = [] ∨ ∃ response, spawnedBuilds log = [response] ∧ endedSends log = [.ok (.ok response)] := by
  cases h with
  | sending hlog => exact .inl hlog.spawns
  | sent hlog => exact .inl hlog.spawns
  | building hlog => exact .inr ⟨_, hlog.spawns, hlog.sents⟩
  | built hlog => exact .inr ⟨_, hlog.spawns, hlog.sents⟩
  | ready hlog => exact .inr ⟨_, hlog.spawns, hlog.sents⟩
  | failed hlog hby =>
    cases hby with
    | deadline => exact .inl hlog.spawns
    | send => exact .inl hlog.spawns
    | construct => exact .inr ⟨_, hlog.spawns, hlog.sents⟩

/-- Where the send task has left a response, it is constructed on, or is still in the handle. -/
theorem response (h : Phase cr c log r) {response : PolledResponse}
    (hsent : .ok (.ok response) ∈ endedSends log) :
    (spawnedBuilds log = [response] ∧ ∀ task, r.recv ≠ .awaitingHeaders task) ∨
      spawnedBuilds log = [] ∧
        r = ⟨.awaitingHeaders (.finished (.ok (.ok response))), .start, false, none⟩ := by
  have hone : ∀ {response' : PolledResponse}, endedSends log = [.ok (.ok response')] →
      response' = response := by
    intro response' hsents
    rw [hsents, List.mem_singleton] at hsent
    exact (Except.ok.inj (Except.ok.inj hsent)).symm
  cases h with
  | sending hlog =>
    rw [hlog.sents] at hsent
    exact absurd hsent List.not_mem_nil
  | sent hlog =>
    rw [hlog.sents, List.mem_singleton] at hsent
    exact .inr ⟨hlog.spawns, hsent ▸ rfl⟩
  | building hlog => exact .inl ⟨hone hlog.sents ▸ hlog.spawns, fun _ hrecv => nomatch hrecv⟩
  | built hlog => exact .inl ⟨hone hlog.sents ▸ hlog.spawns, fun _ hrecv => nomatch hrecv⟩
  | ready hlog => exact .inl ⟨hone hlog.sents ▸ hlog.spawns, fun _ hrecv => nomatch hrecv⟩
  | failed hlog hby =>
    cases hby with
    | deadline =>
      rw [hlog.sents] at hsent
      exact absurd hsent List.not_mem_nil
    | send he =>
      rw [hlog.sents, List.mem_singleton] at hsent
      subst hsent
      cases he
    | construct => exact .inl ⟨hone hlog.sents ▸ hlog.spawns, fun _ hrecv => nomatch hrecv⟩

theorem once (h : Phase cr c log r) (response : PolledResponse)
    (hsent : .ok (.ok response) ∈ endedSends log) (late : Bool) (instant : Option BuildEnd) :
    spawnedBuilds (log ++ (r.poll cr c late instant).2) = [response] := by
  rw [spawnedBuilds, List.filterMap_append, ← spawnedBuilds, ← spawnedBuilds]
  rcases h.response hsent with ⟨hspawns, hrecv⟩ | ⟨hspawns, rfl⟩
  · have hpoll : spawnedBuilds (r.poll cr c late instant).2 = [] := by
      rw [BidiRecvHalf.poll]
      split
      · rename_i task htask
        exact absurd htask (hrecv task)
      · exact BidiRecvHalf.spawnedBuilds_constructingArm cr r _
      · exact BidiRecvHalf.spawnedBuilds_readyArm cr r _ _
      · rfl
    rw [hspawns, hpoll, List.append_nil]
  · rw [hspawns, BidiRecvHalf.spawnedBuilds_poll_sent, List.nil_append]

theorem silent (h : Phase cr c log r) (hready : ∀ stream, r.recv ≠ .ready stream)
    (hfailed : ∀ e, r.recv ≠ .failed e) : givenAnswers log = [] := by
  cases h with
  | sending hlog => exact hlog.answers
  | sent hlog => exact hlog.answers
  | building hlog => exact hlog.answers
  | built hlog => exact hlog.answers
  | ready => exact absurd rfl (hready _)
  | failed => exact absurd rfl (hfailed _)

theorem delivers (h : Phase cr c log r) (stream : PolledStream α) (hready : r.recv = .ready stream) :
    ∃ response late, spawnedBuilds log = [response] ∧
      makePolledStream cr c response late =
        .ok (.start (c.setup response.headers late) response.body) ∧
      givenAnswers log = resultsOf (c.setup response.headers late)
        ((c.setup response.headers late).reading cr (Lib.ready response.body))
        (givenAnswers log).length ∧
      waitCount log + waits stream.body ≤ waits response.body := by
  cases h with
  | ready hlog hmade hreported hwaits =>
    cases hready
    refine ⟨_, _, hlog.spawns, hmade, ?_, ?_⟩
    · rw [hlog.answers]
      exact hreported.results
    · rw [hlog.waits]
      exact hwaits
  | _ => cases hready

theorem answers_failed (h : Phase cr c log r) {e : ConnectError} (hfailed : r.recv = .failed e) :
    givenAnswers log ≠ [] ∧ ∀ answer ∈ givenAnswers log, answer = .error e := by
  cases h with
  | failed hlog =>
    cases hfailed
    rw [hlog.answers]
    exact ⟨List.cons_ne_nil _ _, fun answer hanswer => List.eq_of_mem_replicate hanswer⟩
  | _ => cases hfailed

theorem flight (h : Phase cr c log r) : r.inFlight = r.recv.awaited := by
  cases h <;> rfl

theorem dropped (h : Phase cr c log r) :
    (∀ task ∈ r.inFlight, .aborted task ∈ r.drop.2) ∧ r.drop.1.inFlight = [] := by
  cases h with
  | sending =>
    refine ⟨fun task htask => ?_, rfl⟩
    rw [List.mem_singleton.mp htask]
    exact List.mem_singleton_self _
  | building =>
    refine ⟨fun task htask => ?_, rfl⟩
    rw [List.mem_singleton.mp htask]
    exact List.mem_singleton_self _
  | _ => exact ⟨fun _ htask => absurd htask List.not_mem_nil, rfl⟩

end Phase

/-- **The receive half of a bidi stream.** Its future may be dropped at any time and
`message` be called again; its tasks may end when and how they like. One stream is made of
the response, what is answered is what is read of the body, a failure stays, and the task in
flight does not outlive the half. -/
theorem bidi_receive (c : CallConfig α) (actions : List BidiAction) :
    ReceiveLaw cr c ((BidiRecvHalf.new (α := α)).run cr c actions).2
      ((BidiRecvHalf.new (α := α)).run cr c actions).1 := by
  have h : Phase cr c ((BidiRecvHalf.new (α := α)).run cr c actions).2
      ((BidiRecvHalf.new (α := α)).run cr c actions).1 := Phase.new.run actions
  refine ⟨h.calm, fun response hmem => ?_, h.once, h.silent, h.delivers,
    fun _ hready => BidiRecvHalf.poll_ready cr c hready,
    fun e hfailed => ⟨(h.answers_failed hfailed).1, (h.answers_failed hfailed).2, ?_⟩, h.flight,
    h.dropped⟩
  · rcases h.spawned with hnone | ⟨response', hone, hsents⟩
    · rw [hnone] at hmem
      exact absurd hmem List.not_mem_nil
    · rw [hone, List.mem_singleton] at hmem
      exact hmem ▸ hsents
  · intro more
    obtain ⟨hrecv, hanswers⟩ := @BidiRecvHalf.run_failed cr α c more _ _ hfailed
    refine ⟨?_, hanswers, fun late instant => ?_⟩
    · rw [BidiRecvHalf.error, hrecv]
    · rw [BidiRecvHalf.poll, hrecv]

end ConnectRpc
