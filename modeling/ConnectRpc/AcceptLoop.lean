import ConnectRpc.AgeJitter
import ConnectRpc.ConnectionLifecycle
import ConnectRpc.Lib.History
import ConnectRpc.Lib.Pool
import ConnectRpc.Lib.Watch

/-!
# The accept loop

`serve_with_listener` accepts connections until the shutdown signal resolves, and then tells them
to drain and waits for their tasks. The loop is a process, and so is the task of every connection:
its handshake, the function that is run on it, and its lifecycle. What they share is `AcceptShared`:
the channel that broadcasts the shutdown, and the results of tasks.

One turn of the loop polls one branch of one of its `select!`s. What the listener, the peers,
hyper and the clock do comes with the turn. `history` is what has happened and when, the latest
first; `AcceptAllowed` says of every event what must have happened before it.
-/

namespace ConnectRpc

open Lib

/-! ## Errors of `accept` -/

/-- The kinds of error that are told apart. -/
inductive IoErrorKind : Type where
  | wouldBlock
  | interrupted
  | connectionAborted
  | connectionReset
  | other
  deriving DecidableEq

/-- What is looked at of the error of an `accept`. -/
structure AcceptError where
  /-- `kind` -/
  kind : IoErrorKind
  /-- `raw_os_error` -/
  rawOsError : Option ℤ
  deriving DecidableEq

/-- `FD_EXHAUSTION_ERRORS`: `EMFILE` and `ENFILE`. -/
def FD_EXHAUSTION_ERRORS : List ℤ := [24, 23]

/-- `FD_EXHAUSTION_BACKOFF`. -/
def FD_EXHAUSTION_BACKOFF : ℕ := NANOS_PER_SEC

/-- `DEFAULT_TLS_HANDSHAKE_TIMEOUT`. -/
def DEFAULT_TLS_HANDSHAKE_TIMEOUT : ℕ := 10 * NANOS_PER_SEC

/-- `is_fd_exhaustion`. -/
def AcceptError.isFdExhaustion (err : AcceptError) : Bool :=
  err.rawOsError.any fun code => FD_EXHAUSTION_ERRORS.contains code

/-- `is_transient_accept_error`. -/
def AcceptError.isTransientAcceptError (err : AcceptError) : Bool :=
  (match err.kind with
    | .wouldBlock | .interrupted | .connectionAborted | .connectionReset => true
    | .other => false) || err.isFdExhaustion

/-! ## What is configured -/

/-- `AcceptConfig`. -/
structure AcceptConfig where
  /-- whether there is a configuration of TLS -/
  tls : Bool
  /-- the timeout of a handshake, if it is not the default -/
  tlsHandshakeTimeout? : Option ℕ

/-- `tls_handshake_timeout`. -/
def AcceptConfig.tlsHandshakeTimeout (accept : AcceptConfig) : ℕ :=
  accept.tlsHandshakeTimeout?.getD DEFAULT_TLS_HANDSHAKE_TIMEOUT

/-- The limit of `RequestCounter`. -/
structure NonZeroU64 where
  /-- the number -/
  val : UInt64
  /-- it is not zero -/
  pos : val ≠ 0

/-- `ConnectionConfig`, what retires a connection. -/
structure ConnectionConfig where
  /-- `max_connection_age` -/
  maxConnectionAge : Option StoredDuration
  /-- `max_connection_idle` -/
  maxConnectionIdle : Option ℕ
  /-- `max_requests_per_connection` -/
  maxRequestsPerConnection : Option NonZeroU64
  /-- `max_connection_age_grace` -/
  maxConnectionAgeGrace : ℕ

/-- The triggers of a connection for which the jitter has drawn a sample. There are none where
the jitter panics. -/
def ConnectionConfig.lifecycle (config : ConnectionConfig) (sample : UInt64) :
    Option LifecycleConfig := do
  let age ← match config.maxConnectionAge with
    | none => some none
    | some age => (jitterConnectionAge age sample).map some
  return {
    age := age.map fun d => ⟨d.asNanos, config.maxConnectionAgeGrace⟩
    idle := config.maxConnectionIdle.map fun idle => ⟨idle, config.maxConnectionAgeGrace⟩
    requests := config.maxRequestsPerConnection.map fun _ => config.maxConnectionAgeGrace }

/-- The arguments of `serve_with_listener`. -/
structure AcceptSetup where
  /-- how connections are accepted -/
  accept : AcceptConfig
  /-- how they are served -/
  config : ConnectionConfig
  /-- whether there is a function for the extensions of connections -/
  connectionExtensions : Bool
  /-- whether there is a shutdown signal -/
  shutdown : Bool

/-! ## What happens -/

/-- How the task of a connection ends. -/
inductive TaskEnd : Type where
  /-- its lifecycle has ended -/
  | served
  /-- the handshake has failed -/
  | handshakeFailed
  /-- the handshake has timed out -/
  | handshakeTimedOut
  /-- the function for its extensions has panicked -/
  | refused
  /-- it has panicked -/
  | panicked
  /-- it has been aborted -/
  | aborted
  deriving DecidableEq

/-- What happens. Connections are numbered from one. -/
inductive AcceptEvent : Type where
  /-- the shutdown signal resolves -/
  | fired
  /-- the loop finds that it has -/
  | noticed
  /-- a connection is accepted -/
  | accepted : ℕ → AcceptEvent
  /-- `accept` fails -/
  | failed : AcceptError → AcceptEvent
  /-- the task of a connection is joined -/
  | joined : ℕ → AcceptEvent
  /-- the connections are told to drain -/
  | signalled
  /-- the loop returns -/
  | returned : Except AcceptError Unit → AcceptEvent
  /-- the future of the loop is dropped -/
  | dropped
  /-- a request is dispatched on a connection -/
  | requested : ℕ → AcceptEvent
  /-- something happens in the lifecycle of a connection -/
  | lifecycle : ℕ → LifecycleEvent → AcceptEvent
  /-- the task of a connection ends -/
  | ended : ℕ → TaskEnd → AcceptEvent

/-- A history, the latest first. -/
abbrev AcceptHistory : Type := List (ℕ × AcceptEvent)

/-- What the loop and the tasks share. -/
structure AcceptShared where
  /-- the time -/
  now : ℕ
  /-- whether the shutdown signal has resolved -/
  fired : Bool
  /-- the channel of the shutdown -/
  globalShutdown : Channel Bool
  /-- the tasks that have ended -/
  ended : List ℕ
  /-- the tasks that are to be aborted -/
  aborting : List ℕ
  /-- what has happened -/
  history : AcceptHistory

namespace AcceptShared

variable (s : AcceptShared)

/-- Something happens now. -/
def emit (ev : AcceptEvent) : AcceptShared :=
  { s with history := (s.now, ev) :: s.history }

/-- The task of a connection ends. -/
def finish (i : ℕ) (why : TaskEnd) : AcceptShared :=
  { s with ended := i :: s.ended }.emit (.ended i why)

/-- Things happen in the lifecycle of a connection. -/
def report (i : ℕ) (new : LifecycleLog) : AcceptShared :=
  { s with history := new.map (fun e => (e.1, .lifecycle i e.2)) ++ s.history }

/-- Whether `global_shutdown_future` is ready: the value is set, or the sender is gone. -/
def globalShutdownReady : Bool :=
  s.globalShutdown.value || s.globalShutdown.closed

end AcceptShared

/-! ## Connections -/

/-- `RequestCounter`. -/
structure RequestCounter where
  /-- how many requests have been counted, in 64 bits -/
  served : UInt64
  /-- the limit -/
  max : NonZeroU64
  /-- the value of the channel `retire` -/
  retire : Bool

/-- `record_request`. The counter wraps around, what is compared does not. -/
def RequestCounter.recordRequest (c : RequestCounter) : RequestCounter :=
  let served := min (c.served.toNat + 1) (UInt64.size - 1)
  { c with served := c.served + 1, retire := c.retire || decide (c.max.val.toNat ≤ served) }

/-- A connection that is served. -/
structure Connection where
  /-- what retires it -/
  config : LifecycleConfig
  /-- its lifecycle and its requests -/
  served : Served
  /-- its counter of requests -/
  counter : Option RequestCounter

/-- What is new in a log. -/
def newEvents (before after : LifecycleLog) : LifecycleLog :=
  after.take (after.length - before.length)

namespace Connection

variable (c : Connection)

/-- Something is done at some time. -/
def act (now : ℕ) (a : ServeAction) : Connection :=
  { c with served := c.served.run [.wait (now - c.served.now), a] }

/-- What the future that is polled next answers: those of the two channels go by their values. -/
def heard (s : AcceptShared) (answer : Option (Except ConnectionError Unit)) :
    Option (Except ConnectionError Unit) :=
  match c.served.lifecycle.next with
  | .globalShutdown => if s.globalShutdownReady then answer else none
  | .requests => if c.counter.any RequestCounter.retire then answer else none
  | _ => answer

/-- A request is dispatched: it is counted, and has a guard where connections are reaped that are
idle. -/
def dispatch (now : ℕ) : Connection :=
  let c := { c with counter := c.counter.map RequestCounter.recordRequest }
  if c.config.idle.isSome then c.act now .start else c

end Connection

/-- The task of a connection. -/
inductive ConnectionTask : Type where
  /-- it has been spawned -/
  | spawned
  /-- it awaits the handshake, with a timeout -/
  | handshaking : Sleep → ConnectionTask
  /-- it serves the connection -/
  | serving : Connection → ConnectionTask
  /-- it has ended -/
  | ended

/-- What the world decides when a connection is set up. -/
structure ConnectionSetup where
  /-- whether the function for its extensions has run to its end -/
  ran : Bool
  /-- the sample of the jitter -/
  sample : UInt64

/-- What the world decides for a task. -/
inductive TaskChoice : Type where
  /-- it is polled for the first time -/
  | start : ConnectionSetup → TaskChoice
  /-- the handshake is ready, with or without success -/
  | handshake : Except Unit ConnectionSetup → TaskChoice
  /-- the handshake is pending, and the timer is polled; whether it fires -/
  | timeout : Bool → TaskChoice
  /-- the lifecycle is polled -/
  | poll : Option (Except ConnectionError Unit) → TaskChoice
  /-- a request is dispatched -/
  | request
  /-- a guard is dropped -/
  | finish : ℕ → TaskChoice
  /-- the task panics -/
  | panic
  /-- the task is aborted -/
  | abort

/-- After something was done to the connection `i`: its task ends with its lifecycle. -/
def Connection.goOn (before after : Connection) (s : AcceptShared) (i : ℕ) :
    AcceptShared × ConnectionTask :=
  let s := s.report i (newEvents before.served.log after.served.log)
  if after.served.ended then (s.finish i .served, .ended) else (s, .serving after)

namespace AcceptSetup

variable (setup : AcceptSetup)

/-- The task of the connection `i`, once it may be set up. -/
def begin (s : AcceptShared) (i : ℕ) (c : ConnectionSetup) :
    Option (AcceptShared × ConnectionTask) :=
  if setup.connectionExtensions && !c.ran then some (s.finish i .refused, .ended)
  else do
    let config ← setup.config.lifecycle c.sample
    let served := config.accept s.now
    let counter := setup.config.maxRequestsPerConnection.map fun max => ⟨0, max, false⟩
    return (s.report i served.log, .serving ⟨config, served, counter⟩)

/-- A turn of the task of the connection `i`. -/
def taskTurn (s : AcceptShared) (i : ℕ) (x : TaskChoice) (task : ConnectionTask) :
    Option (AcceptShared × ConnectionTask) :=
  match x, task with
  | .panic, .ended => none
  | .panic, _ => some (s.finish i .panicked, .ended)
  | .abort, .ended => none
  | .abort, _ => if i ∈ s.aborting then some (s.finish i .aborted, .ended) else none
  | .start c, .spawned =>
    if setup.accept.tls then some (s, .handshaking ⟨s.now + setup.accept.tlsHandshakeTimeout⟩)
    else setup.begin s i c
  | .handshake (.ok c), .handshaking _ => setup.begin s i c
  | .handshake (.error ()), .handshaking _ => some (s.finish i .handshakeFailed, .ended)
  | .timeout fires, .handshaking timer =>
    if timer.isReady s.now fires then some (s.finish i .handshakeTimedOut, .ended) else none
  | .poll answer, .serving c => some (c.goOn (c.act s.now (.poll (c.heard s answer))) s i)
  | .request, .serving c => some (c.goOn (c.dispatch s.now) (s.emit (.requested i)) i)
  | .finish guard, .serving c => some (c.goOn (c.act s.now (.finish guard)) s i)
  | _, _ => none

end AcceptSetup

/-! ## The loop -/

/-- The branches of the `select!` of the loop. -/
inductive AcceptBranch : Type where
  | shutdown
  | joinNext
  | accept

/-- Where `serve_with_listener` is. -/
inductive AcceptStage : Type where
  /-- it accepts connections; the branch that is polled next -/
  | accepting : AcceptBranch → AcceptStage
  /-- it waits for file descriptors; whether the timer is polled next, or the shutdown signal -/
  | backingOff : Sleep → Bool → AcceptStage
  /-- it waits for the connections -/
  | draining
  /-- it has returned, or its future has been dropped -/
  | gone

/-- What the world decides for the loop. -/
inductive LoopChoice : Type where
  /-- what is polled is pending -/
  | pending
  /-- the timer fires -/
  | fires
  /-- `join_next` hands out the result of a task -/
  | joined : ℕ → LoopChoice
  /-- `accept` is ready -/
  | accepted : Except AcceptError Unit → LoopChoice
  /-- the future is dropped -/
  | drop

/-- Whether the timer fires. -/
def LoopChoice.isFires : LoopChoice → Bool
  | fires => true
  | _ => false

/-- The processes. -/
inductive AcceptProcess : Type where
  /-- the loop, with its `JoinSet` -/
  | loop : AcceptStage → List ℕ → AcceptProcess
  /-- a task -/
  | task : ConnectionTask → AcceptProcess

/-- `join_next` of the tasks `connections`. -/
def AcceptShared.joinNext (s : AcceptShared) (connections : List ℕ) : LoopChoice → Option ℕ
  | .joined i => if i ∈ connections ∧ i ∈ s.ended then some i else none
  | _ => none

/-- The shutdown signal has resolved: the connections are told to drain. -/
def AcceptShared.shutDown (s : AcceptShared) : AcceptShared :=
  { s.emit .noticed with globalShutdown := s.globalShutdown.set true }.emit .signalled

/-- The sender of the shutdown is dropped. -/
def AcceptShared.dropSender (s : AcceptShared) : AcceptShared :=
  { s with globalShutdown := s.globalShutdown.close }

/-- A turn of the loop; the connection that it accepts gets the number `n`. -/
def AcceptShared.loopTurn (s : AcceptShared) (n : ℕ) (x : LoopChoice) (connections : List ℕ)
    (stage : AcceptStage) : Option (Turn AcceptShared AcceptProcess) :=
  match x, stage with
  | _, .gone => none
  | .drop, _ =>
    -- the `JoinSet` aborts its tasks
    some ⟨{ s.dropSender with aborting := connections }.emit .dropped, .loop .gone [], none⟩
  | _, .accepting .shutdown =>
    if s.fired then some ⟨s.shutDown, .loop .draining connections, none⟩
    else some ⟨s, .loop (.accepting .joinNext) connections, none⟩
  | x, .accepting .joinNext =>
    match s.joinNext connections x with
    | some i =>
      some ⟨s.emit (.joined i), .loop (.accepting .shutdown) (connections.erase i), none⟩
    | none => some ⟨s, .loop (.accepting .accept) connections, none⟩
  | .accepted (.ok ()), .accepting .accept =>
    some ⟨s.emit (.accepted n), .loop (.accepting .shutdown) (n :: connections),
      some (.task .spawned)⟩
  | .accepted (.error err), .accepting .accept =>
    let s := s.emit (.failed err)
    if err.isFdExhaustion then
      some ⟨s, .loop (.backingOff ⟨s.now + FD_EXHAUSTION_BACKOFF⟩ false) connections, none⟩
    else if err.isTransientAcceptError then
      some ⟨s, .loop (.accepting .shutdown) connections, none⟩
    else
      -- the tasks are detached, and go on
      some ⟨s.dropSender.emit (.returned (.error err)), .loop .gone [], none⟩
  | _, .accepting .accept => some ⟨s, .loop (.accepting .shutdown) connections, none⟩
  | _, .backingOff timer false =>
    if s.fired then some ⟨s.shutDown, .loop .draining connections, none⟩
    else some ⟨s, .loop (.backingOff timer true) connections, none⟩
  | x, .backingOff timer true =>
    if timer.isReady s.now x.isFires then
      some ⟨s, .loop (.accepting .shutdown) connections, none⟩
    else some ⟨s, .loop (.backingOff timer false) connections, none⟩
  | x, .draining =>
    if connections.isEmpty then
      some ⟨s.dropSender.emit (.returned (.ok ())), .loop .gone [], none⟩
    else
      match s.joinNext connections x with
      | some i => some ⟨s.emit (.joined i), .loop .draining (connections.erase i), none⟩
      | none => some ⟨s, .loop .draining connections, none⟩

/-! ## The system -/

/-- What the world decides. -/
inductive AcceptChoice : Type where
  | loop : LoopChoice → AcceptChoice
  | task : TaskChoice → AcceptChoice

/-- What happens outside. -/
inductive AcceptOutside : Type where
  /-- the shutdown signal resolves -/
  | fire
  /-- time passes -/
  | wait : ℕ → AcceptOutside

/-- The accept loop and its connections. -/
def AcceptSetup.system (setup : AcceptSetup) :
    System AcceptShared AcceptProcess AcceptChoice AcceptOutside where
  turn i n x s proc :=
    match x, proc with
    | .loop x, .loop stage connections => s.loopTurn n x connections stage
    | .task x, .task task =>
      (setup.taskTurn s i x task).map fun (s, task) => ⟨s, .task task, none⟩
    | _, _ => none
  outside o s :=
    match o with
    | .fire => if setup.shutdown && !s.fired then { s with fired := true }.emit .fired else s
    | .wait time => { s with now := s.now + time }

/-- The start of `serve_with_listener`. -/
def acceptStart (now : ℕ) : Pool AcceptShared AcceptProcess :=
  ⟨⟨now, false, .new false, [], [], []⟩, [.loop (.accepting .shutdown) []]⟩

/-- What comes of a run. -/
def AcceptSetup.run (setup : AcceptSetup) (now : ℕ)
    (acts : List (Action AcceptChoice AcceptOutside)) : Pool AcceptShared AcceptProcess :=
  setup.system.run (acceptStart now) acts

/-! ## What must have happened -/

/-- An event has happened. -/
def Happened (log : AcceptHistory) (ev : AcceptEvent) : Prop :=
  ∃ t, (t, ev) ∈ log

/-- The loop has returned, or its future has been dropped. -/
def LoopGone (log : AcceptHistory) : Prop :=
  Happened log .dropped ∨ ∃ result, Happened log (.returned result)

/-- The loop accepts connections. -/
def Accepting (log : AcceptHistory) : Prop :=
  ¬Happened log .noticed ∧ ¬LoopGone log

/-- Whether the shutdown signal resolves. -/
def AcceptEvent.isFired : AcceptEvent → Bool
  | fired => true
  | _ => false

/-- Whether `accept` has answered since the shutdown signal resolved. -/
def late : AcceptHistory → Bool
  | [] => false
  | (_, .accepted _) :: log => (log.any fun e => e.2.isFired) || late log
  | (_, .failed _) :: log => (log.any fun e => e.2.isFired) || late log
  | _ :: log => late log

/-- How many requests have been dispatched on a connection. -/
def requestsOf (i : ℕ) (log : AcceptHistory) : ℕ :=
  log.countP fun e =>
    match e.2 with
    | .requested j => j == i
    | _ => false

/-- What has happened in the lifecycle of a connection. -/
def lifecycleOf (i : ℕ) (log : AcceptHistory) : LifecycleLog :=
  log.filterMap fun e =>
    match e.2 with
    | .lifecycle j ev => if j = i then some (e.1, ev) else none
    | _ => none

/-- The task of a connection goes on. -/
def TaskGoesOn (i : ℕ) (log : AcceptHistory) : Prop :=
  Happened log (.accepted i) ∧ ∀ why, ¬Happened log (.ended i why)

/-- The loop may go on to accept connections: each failure was transient, and the last lack of file
descriptors is some time ago. -/
structure AcceptOpen (time : ℕ) (log : AcceptHistory) : Prop where
  /-- the loop accepts connections -/
  accepting : Accepting log
  /-- no failure was fatal -/
  transient : ∀ {t err}, (t, .failed err) ∈ log → err.isTransientAcceptError = true
  /-- the loop has backed off -/
  backedOff : ∀ {t err}, (t, .failed err) ∈ log → err.isFdExhaustion = true →
    t + FD_EXHAUSTION_BACKOFF ≤ time

/-- `accept` may answer: it has not done so since the shutdown signal resolved. -/
structure AcceptAnswers (time : ℕ) (log : AcceptHistory) : Prop extends AcceptOpen time log where
  /-- it has not answered since -/
  timely : late log = false

namespace AcceptSetup

variable (setup : AcceptSetup)

/-- When a task may end in some way. -/
def MayEnd (log : AcceptHistory) (time i : ℕ) : TaskEnd → Prop
  | .served => ∃ t c, (t, .closed c) ∈ lifecycleOf i log
  | .handshakeFailed => setup.accept.tls = true ∧ lifecycleOf i log = []
  | .handshakeTimedOut => setup.accept.tls = true ∧ lifecycleOf i log = [] ∧
      ∃ t, (t, .accepted i) ∈ log ∧ t + setup.accept.tlsHandshakeTimeout ≤ time
  | .refused => setup.connectionExtensions = true ∧ lifecycleOf i log = []
  | .panicked => True
  | .aborted => Happened log .dropped ∧ ¬Happened log (.joined i)

/-- When a connection may observe what it observes: the shutdown once it is broadcast or the loop
is gone, and the maximum of requests once that many have been dispatched. -/
def MayObserve (log : AcceptHistory) (i : ℕ) : LifecycleEvent → Prop
  | .polled .globalShutdown true => Happened log .signalled ∨ LoopGone log
  | .polled .requests true => ∃ max, setup.config.maxRequestsPerConnection = some max ∧
      max.val.toNat ≤ requestsOf i log
  | _ => True

/-- What must have happened before an event. -/
def AcceptAllowed (log : AcceptHistory) (e : ℕ × AcceptEvent) : Prop :=
  (∀ e' ∈ log, e'.1 ≤ e.1) ∧
  match e.2 with
  | .fired => setup.shutdown = true ∧ ¬Happened log .fired
  | .noticed => Happened log .fired ∧ Accepting log
  | .accepted i => AcceptAnswers e.1 log ∧ ∀ j, Happened log (.accepted j) ↔ 0 < j ∧ j < i
  | .failed _ => AcceptAnswers e.1 log
  | .joined i => Happened log (.accepted i) ∧ (∃ why, Happened log (.ended i why)) ∧
      ¬Happened log (.joined i) ∧ ¬LoopGone log
  | .signalled => ∃ t before, log = (t, .noticed) :: before
  | .returned (.ok ()) => Happened log .signalled ∧ ¬LoopGone log ∧
      ∀ i, Happened log (.accepted i) → Happened log (.joined i)
  | .returned (.error err) => (∃ t before, log = (t, .failed err) :: before) ∧
      err.isTransientAcceptError = false
  | .dropped => ¬LoopGone log
  | .requested i => TaskGoesOn i log
  | .lifecycle i ev => TaskGoesOn i log ∧ setup.MayObserve log i ev
  | .ended i why => TaskGoesOn i log ∧ setup.MayEnd log e.1 i why

/-- What holds of a history: each event was allowed by those before it, and what happens in each
connection is the orderly log of a lifecycle with the triggers that are configured. -/
structure AcceptLaw (log : AcceptHistory) : Prop where
  /-- each event was allowed -/
  allowed : ∀ {after e before}, log = after ++ e :: before → setup.AcceptAllowed before e
  /-- the connections keep to their lifecycles -/
  lifecycles : ∀ i, ∃ sample config, setup.config.lifecycle sample = some config ∧
    Orderly config (lifecycleOf i log)

end AcceptSetup

end ConnectRpc
