import ConnectRpc.Error
import ConnectRpc.Lib.Pool
import Mathlib.Data.PNat.Notation

/-!
# A shared connection

`SharedHttp2Connection`: any number of handles and of requests that use one connection,
which is opened when it is needed and opened again when it is lost. All of them are
processes, as is every attempt to connect, which runs in a task of its own; what they share
is `Shared`. One step of a process is one access to something shared: the lock around the
state machine of the connection, the counter of attempts, the recorded failure, the handle
onto the live connection, the semaphore of the queue.

What hyper, the connector and the runtime do comes with the action that a step takes. A lock
or a slot that is free goes to any of those that wait. The counter of attempts has no
largest number.

`history` is what has happened, the latest first.
-/

namespace ConnectRpc

open Lib

/-! ## Errors of the transport -/

/-- An error of the transport. -/
structure BoxError where
  /-- its text -/
  text : String
  /-- the `ConnectError` in its chain -/
  inChain : Option ConnectError

/-- `h2_transport_error`. -/
def h2TransportError (err : BoxError) (context : String) : ConnectError :=
  err.inChain.getD (.unavailable s!"{context}: {err.text}")

/-- How a task fails. -/
inductive JoinError : Type where
  | cancelled
  | panicked : String → JoinError

/-! ## The state machine of the connection -/

/-- The state of a connection; connections are numbered as they are opened. -/
inductive ReconnectState : Type where
  | idle
  | connecting
  | connected : ℕ → ReconnectState
  deriving DecidableEq

/-- `Reconnect`. -/
structure Reconnect where
  /-- the state -/
  state : ReconnectState
  /-- the error of the last attempt, to be reported -/
  deferredError : Option BoxError
  /-- whether it has ever been connected -/
  hasConnected : Bool
  /-- whether the first failure is deferred too -/
  lazy : Bool
  /-- an error is deferred where there is no connection -/
  idle_of_deferred : deferredError.isSome = true → state = .idle

/-- What one round of the loop of `poll_ready` comes to. -/
inductive Round : Type where
  /-- another round -/
  | again : Reconnect → Round
  /-- another round, with a new connection -/
  | opened : Reconnect → Round
  /-- another round, in which a connection is awaited -/
  | dialed : Reconnect → Round
  /-- `poll_ready` is ready -/
  | ready : Reconnect → Except BoxError Unit → Round

namespace Reconnect

/-- One round of the loop of `Reconnect::poll_ready`; `answer` is what the connector, or
the future of its connection, answers when it is ready. -/
def pollReady (r : Reconnect) (isClosed : ℕ → Bool) (new : ℕ) (answer : Except BoxError Unit) :
    Round :=
  if h : r.deferredError.isSome = true then .ready r (.ok ())
  else
    match r.state with
    | .idle =>
      match answer with
      | .error e => .ready r (.error e)
      | .ok () => .dialed ⟨.connecting, r.deferredError, r.hasConnected, r.lazy, fun hd => absurd hd h⟩
    | .connecting =>
      match answer with
      | .ok () => .opened ⟨.connected new, r.deferredError, true, r.lazy, fun hd => absurd hd h⟩
      | .error e =>
        if r.hasConnected || r.lazy then
          .ready ⟨.idle, some e, r.hasConnected, r.lazy, fun _ => rfl⟩ (.ok ())
        else .ready ⟨.idle, r.deferredError, r.hasConnected, r.lazy, fun _ => rfl⟩ (.error e)
    | .connected c =>
      if isClosed c then .again ⟨.idle, r.deferredError, r.hasConnected, r.lazy, fun _ => rfl⟩
      else .ready r (.ok ())

/-- What an attempt makes of it, once ready: the handle onto the connection or the error,
which is taken. -/
def outcome (r : Reconnect) (ready : Except BoxError Unit) : Reconnect × Except BoxError ℕ :=
  (⟨r.state, none, r.hasConnected, r.lazy, fun h => by cases h⟩,
    match ready, r.deferredError with
    | .error e, _ => .error e
    | .ok (), some e => .error e
    | .ok (), none =>
      match r.state with
      | .connected c => .ok c
      | _ => .error ⟨"Http2Connection ready but not connected", none⟩)

end Reconnect

/-! ## What is shared -/

/-- What happens. Those who do it are given by their numbers. -/
inductive DialEvent : Type where
  /-- a caller has entered `reconnect` -/
  | entered : ℕ → DialEvent
  /-- a caller has started an attempt, the task of this number -/
  | started : ℕ → ℕ → DialEvent
  /-- the attempt of a task is counted, with its outcome -/
  | completed : ℕ → Except ConnectError ℕ → DialEvent
  /-- the task of an attempt has been cancelled, or has panicked -/
  | aborted : ℕ → DialEvent
  /-- `reconnect` has returned to its caller -/
  | returned : ℕ → Except ConnectError ℕ → DialEvent
  /-- the connector has been called -/
  | dialed
  /-- the shared handle is taken away -/
  | wiped
  /-- a request has been handed to hyper -/
  | handed : ℕ → DialEvent
  /-- a connection has taken a request off its queue, and sends it -/
  | taken : ℕ → DialEvent
  /-- a request has been handed back, to be sent again -/
  | resent : ℕ → DialEvent
  /-- a slot of the queue has been acquired; this is the number of the acquisition -/
  | acquired : ℕ → DialEvent
  /-- the slot of an acquisition has been given back -/
  | released : ℕ → DialEvent

/-- What the processes share. -/
structure Shared where
  /-- the handle onto the live connection -/
  sender : Option ℕ
  /-- who holds the lock around `conn` -/
  lock : Option ℕ
  /-- the state machine of the connection -/
  conn : Reconnect
  /-- the number of completed attempts -/
  attempts : ℕ
  /-- the failure of the latest attempt -/
  lastFailure : Option ConnectError
  /-- the results of tasks -/
  joined : ℕ → Option (Except JoinError (Except ConnectError ℕ))
  /-- the free slots of the queue -/
  permits : ℕ
  /-- how many slots have been acquired so far -/
  issued : ℕ
  /-- how many connections there have been -/
  opened : ℕ
  /-- the connections that are closed -/
  closed : List ℕ
  /-- what has happened, the latest first -/
  history : List DialEvent

namespace Shared

variable (s : Shared)

/-- Something happens. -/
def emit (ev : DialEvent) : Shared :=
  { s with history := ev :: s.history }

/-- `is_closed`. -/
def isClosed (c : ℕ) : Bool :=
  c ∈ s.closed

/-- `live_sender`. -/
def liveSender : Option ℕ :=
  s.sender.filter fun c => !s.isClosed c

/-- `is_connected`. -/
def isConnected : Bool :=
  s.liveSender.isSome

/-- Acquire a slot of the queue. -/
def acquire : Option (Shared × ℕ) :=
  if s.permits = 0 then none
  else
    some ({ s with permits := s.permits - 1, issued := s.issued + 1 }.emit (.acquired s.issued),
      s.issued)

/-- Give a slot back, if it is held. -/
def release : Option ℕ → Shared
  | none => s
  | some slot => { s with permits := s.permits + 1 }.emit (.released slot)

end Shared

/-! ## Attempts -/

/-- The task of an attempt. -/
inductive Attempt : Type where
  /-- it polls the state machine -/
  | polling
  /-- it counts itself -/
  | counting : Except BoxError ℕ → Attempt
  /-- it records its failure, or that there is none -/
  | recording : Except BoxError ℕ → Attempt
  /-- it publishes the handle -/
  | publishing : ℕ → Attempt
  /-- it lets go of the lock -/
  | unlocking : Except ConnectError ℕ → Attempt
  /-- it has ended -/
  | ended

/-- What the world decides. -/
inductive Choice : Type where
  /-- the code goes on -/
  | go
  /-- what an attempt awaits is ready -/
  | polled : Except BoxError Unit → Choice
  /-- the task of an attempt is cancelled, or panics -/
  | aborted : JoinError → Choice
  /-- the connection takes the request off its queue -/
  | taken
  /-- the response has come -/
  | responded
  /-- the request has failed -/
  | failed : BoxError → Choice
  /-- hyper hands the request back -/
  | handedBack : BoxError → Choice
  /-- a future or a handle is dropped -/
  | dropped
  /-- `poll_ready` of a handle -/
  | pollReady
  /-- `call` of a handle -/
  | call
  /-- `clone` of a handle -/
  | clone
  /-- `send` of a handle -/
  | send

/-- The outcome of an attempt, as its callers see it. -/
def dialResult : Except BoxError ℕ → Except ConnectError ℕ :=
  Except.mapError fun e => h2TransportError e "h2 connect failed"

/-- A turn of the attempt with the number `k`. -/
def Shared.attempt (s : Shared) (k : ℕ) (x : Choice) : Attempt → Option (Shared × Attempt)
  | .polling =>
    match x with
    | .polled answer =>
      match s.conn.pollReady s.isClosed s.opened answer with
      | .again conn => some ({ s with conn := conn }, .polling)
      | .dialed conn => some ({ s with conn := conn }.emit .dialed, .polling)
      | .opened conn => some ({ s with conn := conn, opened := s.opened + 1 }, .polling)
      | .ready conn ready =>
        some ({ s with conn := (conn.outcome ready).1 }, .counting (conn.outcome ready).2)
    | .aborted e =>
      some ({ s with
        lock := none
        joined := Function.update s.joined k (some (.error e)) }.emit (.aborted k), .ended)
    | _ => none
  | .counting result =>
    some ({ s with attempts := s.attempts + 1 }.emit (.completed k (dialResult result)),
      .recording result)
  | .recording (.ok c) => some ({ s with lastFailure := none }, .publishing c)
  | .recording (.error e) =>
    let failure := h2TransportError e "h2 connect failed"
    some ({ s with lastFailure := some failure }, .unlocking (.error failure))
  | .publishing c => some ({ s with sender := some c }, .unlocking (.ok c))
  | .unlocking result =>
    some ({ s with
      lock := none
      joined := Function.update s.joined k (some (.ok result)) }, .ended)
  | .ended => none

/-! ## `reconnect` -/

/-- Where a caller is in `reconnect`; most stages have the number of attempts that it has
seen on entering. -/
inductive ReconnectStage : Type where
  /-- it loads the number of attempts -/
  | entering
  /-- it waits for the lock -/
  | waiting : ℕ → ReconnectStage
  /-- it has the lock, and looks for a live handle -/
  | locked : ℕ → ReconnectStage
  /-- there is none; it compares the number of attempts -/
  | disconnected : ℕ → ReconnectStage
  /-- there has been an attempt; it looks at its failure -/
  | outdated : ℕ → ReconnectStage
  /-- it takes the shared handle away -/
  | retiring : ℕ → ReconnectStage
  /-- it starts an attempt -/
  | spawning : ℕ → ReconnectStage
  /-- it awaits the task of its attempt -/
  | awaiting : ℕ → ReconnectStage
  /-- it lets go of the lock -/
  | leaving : Except ConnectError ℕ → ReconnectStage

/-- Whether a future in this stage is suspended, so that it may be dropped. -/
def ReconnectStage.suspended : ReconnectStage → Bool
  | .entering => true
  | .waiting _ => true
  | .awaiting _ => true
  | _ => false

/-- What comes of a step of `reconnect`. -/
inductive Progress : Type where
  | goesOn : ReconnectStage → Progress
  | returns : Except ConnectError ℕ → Progress

/-- What a caller makes of the task it has awaited. -/
def joinResult : Except JoinError (Except ConnectError ℕ) → Except ConnectError ℕ
  | .ok result => result
  | .error .cancelled =>
    .error (.unavailable "h2 connect failed: connect task cancelled")
  | .error (.panicked e) => .error (.internal s!"h2 connect task failed: {e}")

/-- A step of `SharedState::reconnect` by the caller with the number `i`; the task that it
starts gets the number `n`. -/
def Shared.reconnect (s : Shared) (i n : ℕ) :
    ReconnectStage → Option (Shared × Progress × Option Attempt)
  | .entering => some (s.emit (.entered i), .goesOn (.waiting s.attempts), none)
  | .waiting seen =>
    if s.lock = none then some ({ s with lock := some i }, .goesOn (.locked seen), none) else none
  | .locked seen =>
    match s.liveSender with
    | some c => some (s, .goesOn (.leaving (.ok c)), none)
    | none => some (s, .goesOn (.disconnected seen), none)
  | .disconnected seen =>
    if s.attempts ≠ seen then some (s, .goesOn (.outdated seen), none)
    else some (s, .goesOn (.retiring seen), none)
  | .outdated seen =>
    match s.lastFailure with
    | some failure => some (s, .goesOn (.leaving (.error failure)), none)
    | none => some (s, .goesOn (.retiring seen), none)
  | .retiring seen => some ({ s with sender := none }.emit .wiped, .goesOn (.spawning seen), none)
  | .spawning _ =>
    some ({ s with lock := some n }.emit (.started i n), .goesOn (.awaiting n), some .polling)
  | .awaiting k =>
    (s.joined k).map fun joined =>
      (s.emit (.returned i (joinResult joined)), .returns (joinResult joined), none)
  | .leaving result =>
    some ({ s with lock := none }.emit (.returned i result), .returns result, none)

/-! ## Requests -/

/-- How a request ends. -/
inductive SendResult : Type where
  | response
  | connectFailed : ConnectError → SendResult
  | sendFailed : BoxError → SendResult
  | dropped

/-- Where a request is. -/
inductive SendPhase : Type where
  /-- it waits for a slot of the queue -/
  | acquiring
  /-- it looks for a live handle -/
  | starting
  /-- it is in `reconnect` -/
  | reconnecting : ReconnectStage → SendPhase
  /-- it has a handle, and loads the number of attempts -/
  | looping : ℕ → SendPhase
  /-- with this number, it is handed to hyper -/
  | handing : ℕ → ℕ → SendPhase
  /-- it has been, and its slot is given back -/
  | handed : ℕ → SendPhase
  /-- the response is awaited; whether the connection has taken the request off its queue -/
  | inflight : ℕ → Bool → SendPhase
  /-- it has been handed back; the number of attempts is compared -/
  | returned : ℕ → SendPhase
  /-- there has been no attempt since; the shared handle is taken away -/
  | retiring
  /-- it has ended -/
  | ended : SendResult → SendPhase

/-- A request, sent by `SharedState::send`. -/
structure SendFuture where
  /-- where it is -/
  phase : SendPhase
  /-- its slot in the queue -/
  queued : Option ℕ
  /-- how often it has been sent again -/
  resends : ℕ

/-- How often a request that is handed back is sent again. -/
def MAX_RESENDS : ℕ := 2

/-- Whether the future of a request is suspended, so that it may be dropped. -/
def SendPhase.suspended : SendPhase → Bool
  | .acquiring => true
  | .starting => true
  | .reconnecting stage => stage.suspended
  | .inflight _ _ => true
  | _ => false

/-- The request ends, and its slot goes back if it has one. -/
def SendFuture.finish (f : SendFuture) (s : Shared) (result : SendResult) : Shared × SendFuture :=
  (s.release f.queued, ⟨.ended result, none, f.resends⟩)

/-- A turn of the request with the number `i`. -/
def Shared.send (s : Shared) (i n : ℕ) (x : Choice) (f : SendFuture) :
    Option (Shared × SendFuture × Option Attempt) :=
  match x with
  | .dropped =>
    if f.phase.suspended then
      let r := f.finish s .dropped
      some (r.1, r.2, none)
    else none
  | .go =>
    match f.phase with
    | .acquiring =>
      s.acquire.map fun r => (r.1, { f with phase := .starting, queued := some r.2 }, none)
    | .starting =>
      match s.liveSender with
      | some c => some (s, { f with phase := .looping c }, none)
      | none => some (s, { f with phase := .reconnecting .entering }, none)
    | .reconnecting stage =>
      (s.reconnect i n stage).map fun r =>
        match r.2.1 with
        | .goesOn stage => (r.1, { f with phase := .reconnecting stage }, r.2.2)
        | .returns (.ok c) => (r.1, { f with phase := .looping c }, r.2.2)
        | .returns (.error e) =>
          let ended := f.finish r.1 (.connectFailed e)
          (ended.1, ended.2, r.2.2)
    | .looping c => some (s, { f with phase := .handing c s.attempts }, none)
    | .handing _ generation =>
      some (s.emit (.handed i), { f with phase := .handed generation }, none)
    | .handed generation =>
      some (s.release f.queued, ⟨.inflight generation false, none, f.resends⟩, none)
    | .returned generation =>
      if s.attempts = generation then some (s, { f with phase := .retiring }, none)
      else some (s, { f with phase := .reconnecting .entering }, none)
    | .retiring =>
      some ({ s with sender := none }.emit .wiped, { f with phase := .reconnecting .entering }, none)
    | .inflight _ _ => none
    | .ended _ => none
  | .taken =>
    match f.phase with
    | .inflight generation false =>
      some (s.emit (.taken i), { f with phase := .inflight generation true }, none)
    | _ => none
  | .responded =>
    match f.phase with
    | .inflight _ true =>
      let r := f.finish s .response
      some (r.1, r.2, none)
    | _ => none
  | .failed e =>
    match f.phase with
    | .inflight _ _ =>
      let r := f.finish s (.sendFailed e)
      some (r.1, r.2, none)
    | _ => none
  | .handedBack e =>
    match f.phase with
    | .inflight generation false =>
      if f.resends < MAX_RESENDS then
        some (s.emit (.resent i), ⟨.returned generation, f.queued, f.resends + 1⟩, none)
      else
        let r := f.finish s (.sendFailed e)
        some (r.1, r.2, none)
    | _ => none
  | _ => none

/-! ## Handles -/

/-- A handle. -/
structure SharedHttp2Connection where
  /-- the slot that `poll_ready` has taken -/
  permit : Option ℕ
  /-- the attempt that `poll_ready` waits for -/
  connecting : Option ReconnectStage
  /-- the failure of that attempt -/
  deferredError : Option ConnectError

/-- A new handle, or a clone. -/
def SharedHttp2Connection.new : SharedHttp2Connection := ⟨none, none, none⟩

/-- A process. -/
inductive Process : Type where
  | handle : SharedHttp2Connection → Process
  | send : SendFuture → Process
  | attempt : Attempt → Process
  /-- a handle that has been dropped -/
  | gone

/-- Whether a handle is not in the middle of `poll_ready`. -/
def SharedHttp2Connection.suspended (h : SharedHttp2Connection) : Bool :=
  h.connecting.all ReconnectStage.suspended

/-- A step of `poll_ready` that is not its last. -/
def Shared.pollReady (s : Shared) (i n : ℕ) (h : SharedHttp2Connection) :
    Option (Shared × SharedHttp2Connection × Option Attempt) :=
  match h.permit, h.connecting with
  | none, _ => s.acquire.map fun r => (r.1, { h with permit := some r.2 }, none)
  | some _, some stage =>
    (s.reconnect i n stage).map fun r =>
      match r.2.1 with
      | .goesOn stage => (r.1, { h with connecting := some stage }, r.2.2)
      | .returns (.ok _) => (r.1, { h with connecting := none }, r.2.2)
      | .returns (.error e) => (r.1, { h with connecting := none, deferredError := some e }, r.2.2)
  | some _, none =>
    -- ready, with the failure or with the connection
    if h.deferredError.isSome || s.isConnected then none
    else some (s, { h with connecting := some .entering }, none)

/-- A turn of the handle with the number `i`. -/
def Shared.handle (s : Shared) (i n : ℕ) (x : Choice) (h : SharedHttp2Connection) :
    Option (Turn Shared Process) :=
  match x with
  | .pollReady => (s.pollReady i n h).map fun r => ⟨r.1, .handle r.2.1, r.2.2.map .attempt⟩
  | .call =>
    if h.suspended then
      match h.permit, h.deferredError with
      -- an error that the caller gets at once
      | none, _ => none
      | some permit, some _ =>
        some ⟨s.release (some permit), .handle { h with permit := none, deferredError := none }, none⟩
      | some permit, none =>
        some ⟨s, .handle { h with permit := none }, some (.send ⟨.starting, some permit, 0⟩)⟩
    else none
  | .clone => some ⟨s, .handle h, some (.handle .new)⟩
  | .send => some ⟨s, .handle h, some (.send ⟨.acquiring, none, 0⟩)⟩
  | .dropped => if h.suspended then some ⟨s.release h.permit, .gone, none⟩ else none
  | _ => none

/-- A turn of a process. -/
def Process.turn (i n : ℕ) (x : Choice) (s : Shared) : Process → Option (Turn Shared Process)
  | .handle h => s.handle i n x h
  | .send f => (s.send i n x f).map fun r => ⟨r.1, .send r.2.1, r.2.2.map .attempt⟩
  | .attempt a => (s.attempt i x a).map fun r => ⟨r.1, .attempt r.2, none⟩
  | .gone => none

/-- Handles, requests and attempts; from outside, connections are closed. -/
def sharedConnection : System Shared Process Choice ℕ where
  turn := Process.turn
  outside c s := { s with closed := c :: s.closed }

/-- `Semaphore::MAX_PERMITS`. -/
def MAX_PERMITS : ℕ := 0x1FFFFFFFFFFFFFFF

/-- `Http2Connection::shared`: one handle. -/
def Reconnect.shared (conn : Reconnect) (bound : ℕ+) : Pool Shared Process where
  shared :=
    { sender := match conn.state with
        | .connected c => some c
        | _ => none
      lock := none
      conn := conn
      attempts := 0
      lastFailure := none
      joined := fun _ => none
      permits := min bound MAX_PERMITS
      issued := 0
      opened := match conn.state with
        | .connected c => c + 1
        | _ => 0
      closed := []
      history := [] }
  procs := [.handle .new]

end ConnectRpc
