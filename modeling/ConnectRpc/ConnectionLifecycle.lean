import Mathlib.Data.Int.Notation
import Mathlib.Data.List.Basic
import Mathlib.Tactic.Common

/-!
# The lifecycle of a connection

`ConnectionLifecycle` drives a connection of the server until it closes, tells it to wind down on
the first of several triggers, and closes it by force when the grace period of a retirement has
passed. One step polls one future, with the answer that the world gives; requests start and finish
at any moment (`Served`).

`log` is what has happened and when, the latest first. `Lawful` says of every event what must
have happened before it, and a run keeps that (`lawful_run`).
-/

namespace ConnectRpc

/-! ## How a connection ends -/

/-- `CloseReason`. -/
inductive CloseReason : Type where
  | closed
  | shutdown
  | maxAge
  | idle
  | maxRequests
  | headerReadTimeout
  | error
  deriving DecidableEq

/-- What is looked at of the error of a connection. -/
inductive ConnectionError : Type where
  /-- an error of hyper: whether it is a timeout, and whether it has a source -/
  | hyper : Bool → Bool → ConnectionError
  /-- an error of input or output: whether it is `Interrupted`, its text, and whether it is that of
  a `DetectionTimeout` -/
  | io : Bool → String → Bool → ConnectionError
  /-- any other -/
  | other : ConnectionError

/-- `is_header_read_timeout`. -/
def ConnectionError.isHeaderReadTimeout : ConnectionError → Bool
  | hyper isTimeout hasSource => isTimeout && !hasSource
  | io _ _ detectionTimedOut => detectionTimedOut
  | other => false

/-- `is_cancelled_before_detection`. -/
def ConnectionError.isCancelledBeforeDetection : ConnectionError → Bool
  | io interrupted text _ => interrupted && text == "Cancelled"
  | _ => false

/-- `ConnectionClosed`. -/
structure ConnectionClosed where
  /-- why -/
  reason : CloseReason
  /-- the error -/
  error : Option ConnectionError

/-- `log_connection_result`. -/
def logConnectionResult (result : Except ConnectionError Unit) (reason : CloseReason) :
    ConnectionClosed :=
  let error := match result with
    | .ok () => none
    | .error err => some err
  let error := error.filter fun err => reason = .error || !err.isCancelledBeforeDetection
  let reason := match error with
    | some err => if reason = .error && err.isHeaderReadTimeout then .headerReadTimeout else reason
    | none => reason
  ⟨reason, error⟩

/-! ## Timers and activity -/

/-- A timer: when it is to fire. -/
structure Sleep where
  /-- its deadline -/
  deadline : ℕ

/-- A timer may be late, but it is not early. -/
def Sleep.isReady (sleep : Sleep) (now : ℕ) (fires : Bool) : Bool :=
  fires && decide (sleep.deadline ≤ now)

/-- `ConnectionAgeConfig`. -/
structure ConnectionAgeConfig where
  /-- the age -/
  maxAge : ℕ
  /-- the grace period -/
  grace : ℕ

/-- `IdleConfig`. -/
structure IdleConfig where
  /-- how long nothing may be in flight -/
  idle : ℕ
  /-- the grace period -/
  grace : ℕ

/-- `ConnectionActivity`. The real epoch is a 64-bit word: only after 2⁶⁴ starts and ends within one
idle window it would be the same again. -/
structure ConnectionActivity where
  /-- how many requests are in flight -/
  inFlight : ℤ
  /-- how many have started or finished -/
  epoch : ℕ

/-- `request_started`. -/
def ConnectionActivity.requestStarted (a : ConnectionActivity) : ConnectionActivity :=
  ⟨a.inFlight + 1, a.epoch + 1⟩

/-- `request_finished`. -/
def ConnectionActivity.requestFinished (a : ConnectionActivity) : ConnectionActivity :=
  ⟨a.inFlight - 1, a.epoch + 1⟩

/-- `IdleTracker`. -/
structure IdleTracker where
  /-- the configuration -/
  config : IdleConfig
  /-- fires when the current window has passed -/
  timer : Sleep
  /-- the activity that was seen when it was armed -/
  armedEpoch : ℕ

/-! ## The lifecycle -/

/-- The futures that are polled. -/
inductive Signal : Type where
  | conn
  | globalShutdown
  | age
  | idle
  | requests
  | grace
  deriving DecidableEq

/-- `ConnectionLifecycleState`. -/
inductive ConnectionLifecycleState : Type where
  | serving
  | globalDraining : CloseReason → ConnectionLifecycleState
  | draining : Sleep → ℕ → CloseReason → ConnectionLifecycleState

/-- What happens. -/
inductive LifecycleEvent : Type where
  /-- a future is polled; whether it is ready -/
  | polled : Signal → Bool → LifecycleEvent
  /-- an idle window is over; whether nothing was in flight and nothing happened in it -/
  | window : Bool → LifecycleEvent
  /-- a timer is armed -/
  | armed : Signal → LifecycleEvent
  /-- the connection is told to wind down -/
  | gracefulShutdown
  /-- the lifecycle ends -/
  | closed : ConnectionClosed → LifecycleEvent
  /-- an `ActiveRequestGuard` is made -/
  | started : ℕ → LifecycleEvent
  /-- one is dropped -/
  | finished : ℕ → LifecycleEvent

/-- `ConnectionLifecycle`, somewhere in the loop of `poll`. -/
structure ConnectionLifecycle where
  /-- the maximum age -/
  age : Option (Sleep × ConnectionAgeConfig)
  /-- the idle window -/
  idle : Option IdleTracker
  /-- the grace period after the maximum number of requests -/
  requests : Option ℕ
  /-- the state -/
  state : ConnectionLifecycleState
  /-- the future that is polled next -/
  next : Signal

/-- The configuration of the triggers. -/
structure LifecycleConfig where
  /-- the maximum age -/
  age : Option ConnectionAgeConfig
  /-- the idle window -/
  idle : Option IdleConfig
  /-- the grace period after the maximum number of requests -/
  requests : Option ℕ

/-- `serve_connection_with_lifecycle`. -/
def LifecycleConfig.serve (config : LifecycleConfig) (now : ℕ) (activity : ConnectionActivity) :
    ConnectionLifecycle where
  age := config.age.map fun c => (⟨now + c.maxAge⟩, c)
  idle := config.idle.map fun c => ⟨c, ⟨now + c.idle⟩, activity.epoch⟩
  requests := config.requests
  state := .serving
  next := .conn

namespace ConnectionLifecycle

variable (l : ConnectionLifecycle)

/-- Goes on to another future. -/
def andThen (next : Signal) : ConnectionLifecycle :=
  { l with next := next }

/-- Drains, with a grace period. -/
def drain (now grace : ℕ) (reason : CloseReason) : ConnectionLifecycle :=
  { l with state := .draining ⟨now + grace⟩ grace reason, next := .conn }

/-- One poll in `Serving`, and what happens, the latest first. -/
def pollServing (now : ℕ) (activity : ConnectionActivity)
    (answer : Option (Except ConnectionError Unit)) :
    ConnectionLifecycle × List LifecycleEvent :=
  match l.next with
  | .conn =>
    match answer with
    | some result =>
      let reason := match result with
        | .ok () => .closed
        | .error _ => .error
      (l, [.closed (logConnectionResult result reason), .polled .conn true])
    | none => (l.andThen .globalShutdown, [.polled .conn false])
  | .globalShutdown =>
    if answer.isSome then
      ({ l with state := .globalDraining .shutdown, next := .conn },
        [.gracefulShutdown, .polled .globalShutdown true])
    else (l.andThen .age, [.polled .globalShutdown false])
  | .age =>
    match l.age with
    | none => (l.andThen .idle, [])
    | some (age, config) =>
      if age.isReady now answer.isSome then
        (l.drain now config.grace .maxAge, [.armed .grace, .gracefulShutdown, .polled .age true])
      else (l.andThen .idle, [.polled .age false])
  | .idle =>
    match l.idle with
    | none => (l.andThen .requests, [])
    | some idle =>
      if idle.timer.isReady now answer.isSome then
        if activity.inFlight = 0 ∧ activity.epoch = idle.armedEpoch then
          (l.drain now idle.config.grace .idle,
            [.armed .grace, .gracefulShutdown, .window true, .polled .idle true])
        else
          ({ l with
            idle := some ⟨idle.config, ⟨now + idle.config.idle⟩, activity.epoch⟩
            next := .conn }, [.armed .idle, .window false, .polled .idle true])
      else (l.andThen .requests, [.polled .idle false])
  | .requests =>
    match l.requests with
    | none => (l.andThen .conn, [])
    | some grace =>
      if answer.isSome then
        (l.drain now grace .maxRequests,
          [.armed .grace, .gracefulShutdown, .polled .requests true])
      else (l.andThen .conn, [.polled .requests false])
  | .grace => (l.andThen .conn, [])

/-- One poll in `GlobalDraining`. -/
def pollGlobalDraining (reason : CloseReason) (answer : Option (Except ConnectionError Unit)) :
    ConnectionLifecycle × List LifecycleEvent :=
  match answer with
  | some result => (l, [.closed (logConnectionResult result reason), .polled .conn true])
  | none => (l, [.polled .conn false])

/-- One poll in `Draining`. -/
def pollDraining (now : ℕ) (grace : Sleep) (reason : CloseReason)
    (answer : Option (Except ConnectionError Unit)) :
    ConnectionLifecycle × List LifecycleEvent :=
  match l.next with
  | .conn =>
    match answer with
    | some result => (l, [.closed (logConnectionResult result reason), .polled .conn true])
    | none => (l.andThen .globalShutdown, [.polled .conn false])
  | .globalShutdown =>
    if answer.isSome then
      ({ l with state := .globalDraining reason, next := .conn }, [.polled .globalShutdown true])
    else (l.andThen .grace, [.polled .globalShutdown false])
  | .grace =>
    if grace.isReady now answer.isSome then
      (l, [.closed ⟨reason, none⟩, .polled .grace true])
    else (l.andThen .conn, [.polled .grace false])
  | _ => (l.andThen .conn, [])

/-- One poll of `ConnectionLifecycle::poll`. -/
def poll (now : ℕ) (activity : ConnectionActivity) (answer : Option (Except ConnectionError Unit)) :
    ConnectionLifecycle × List LifecycleEvent :=
  match l.state with
  | .serving => l.pollServing now activity answer
  | .globalDraining reason => l.pollGlobalDraining reason answer
  | .draining grace _ reason => l.pollDraining now grace reason answer

end ConnectionLifecycle

/-! ## A connection that is served -/

/-- A connection, its lifecycle and its requests. -/
structure Served where
  /-- the lifecycle -/
  lifecycle : ConnectionLifecycle
  /-- the activity -/
  activity : ConnectionActivity
  /-- the live guards -/
  live : List ℕ
  /-- how many guards there have been -/
  guards : ℕ
  /-- the time -/
  now : ℕ
  /-- whether the lifecycle has ended -/
  ended : Bool
  /-- what has happened and when, the latest first -/
  log : List (ℕ × LifecycleEvent)

/-- What is done. -/
inductive ServeAction : Type where
  /-- the future that is next is polled, and answers -/
  | poll : Option (Except ConnectionError Unit) → ServeAction
  /-- a request starts: `ActiveRequestGuard::new` -/
  | start
  /-- a request finishes: its guard is dropped -/
  | finish : ℕ → ServeAction
  /-- time passes -/
  | wait : ℕ → ServeAction

/-- Whether the lifecycle ends with these events. -/
def endsWith (evs : List LifecycleEvent) : Bool :=
  evs.any fun
    | .closed _ => true
    | _ => false

namespace Served

variable (p : Served)

/-- Things happen now. -/
def record (evs : List LifecycleEvent) : List (ℕ × LifecycleEvent) :=
  evs.map (p.now, ·) ++ p.log

/-- One step. -/
def step : ServeAction → Served
  | .poll answer =>
    if p.ended then p
    else
      let polled := p.lifecycle.poll p.now p.activity answer
      { p with lifecycle := polled.1, ended := endsWith polled.2, log := p.record polled.2 }
  | .start =>
    { p with
      activity := p.activity.requestStarted
      live := p.guards :: p.live
      guards := p.guards + 1
      log := p.record [.started p.guards] }
  | .finish guard =>
    if guard ∈ p.live then
      { p with
        activity := p.activity.requestFinished
        live := p.live.erase guard
        log := p.record [.finished guard] }
    else p
  | .wait time => { p with now := p.now + time }

/-- A run. -/
def run (acts : List ServeAction) : Served :=
  acts.foldl step p

end Served

/-- A connection that has just been accepted. -/
def LifecycleConfig.accept (config : LifecycleConfig) (now : ℕ) : Served where
  lifecycle := config.serve now ⟨0, 0⟩
  activity := ⟨0, 0⟩
  live := []
  guards := 0
  now := now
  ended := false
  log := config.idle.toList.map fun _ => (now, .armed .idle)

/-! ## What must have happened -/

/-- A log, the latest first. -/
abbrev LifecycleLog : Type := List (ℕ × LifecycleEvent)

/-- The reason to wind down that an event gives. -/
def LifecycleEvent.trigger : LifecycleEvent → Option CloseReason
  | polled .globalShutdown true => some .shutdown
  | polled .age true => some .maxAge
  | polled .requests true => some .maxRequests
  | window true => some .idle
  | _ => none

/-- The triggers that have been observed, the latest first. -/
def triggers : LifecycleLog → List CloseReason
  | [] => []
  | (_, ev) :: log => ev.trigger.toList ++ triggers log

/-- The first of them. -/
def firstTrigger (log : LifecycleLog) : Option CloseReason :=
  (triggers log).getLast?

/-- How often the connection has been told to wind down. -/
def gracefulShutdowns : LifecycleLog → ℕ
  | [] => 0
  | (_, .gracefulShutdown) :: log => gracefulShutdowns log + 1
  | _ :: log => gracefulShutdowns log

/-- Whether a future has completed, and has not been armed again. -/
def spent (f : Signal) : LifecycleLog → Bool
  | [] => false
  | (_, .polled g ready) :: log => (decide (g = f) && ready) || spent f log
  | (_, .armed g) :: log => decide (g ≠ f) && spent f log
  | _ :: log => spent f log

/-- Whether no request has started or finished since the idle window was armed. -/
def undisturbed : LifecycleLog → Bool
  | [] => false
  | (_, .armed .idle) :: _ => true
  | (_, .started _) :: _ => false
  | (_, .finished _) :: _ => false
  | _ :: log => undisturbed log

/-- The live guards. -/
def liveGuards : LifecycleLog → List ℕ
  | [] => []
  | (_, .started guard) :: log => guard :: liveGuards log
  | (_, .finished guard) :: log => (liveGuards log).erase guard
  | _ :: log => liveGuards log

/-- The grace period that goes with a reason. -/
def LifecycleConfig.graceOf (config : LifecycleConfig) : CloseReason → Option ℕ
  | .maxAge => config.age.map ConnectionAgeConfig.grace
  | .idle => config.idle.map IdleConfig.grace
  | .maxRequests => config.requests
  | _ => none

/-- How a lifecycle may end after what has happened: with the reason of the first trigger, or of
the end of the connection if there was none; with an error if that is the reason; and by force only
if a grace period has passed and no shutdown has been observed. -/
structure Closing (config : LifecycleConfig) (time : ℕ) (c : ConnectionClosed)
    (log : LifecycleLog) : Prop where
  /-- the reason -/
  reason : match firstTrigger log with
    | some reason => c.reason = reason
    | none => c.reason = .closed ∨ c.reason = .error ∨ c.reason = .headerReadTimeout
  /-- the error -/
  error : c.reason = .error ∨ c.reason = .headerReadTimeout → c.error.isSome = true
  /-- the connection has completed, or is dropped -/
  finished : (∃ t, (t, .polled .conn true) ∈ log) ∨
    (∃ t grace, (t, .gracefulShutdown) ∈ log ∧ config.graceOf c.reason = some grace ∧
      t + grace ≤ time) ∧ ∀ t, (t, .polled .globalShutdown true) ∉ log

/-- What must have happened before an event. -/
def Allowed (config : LifecycleConfig) (log : LifecycleLog) : ℕ × LifecycleEvent → Prop
  | (_, .polled f _) => spent f log = false ∧ ∀ t c, (t, .closed c) ∉ log
  | (_, .window true) => liveGuards log = [] ∧ undisturbed log = true
  | (_, .gracefulShutdown) => ∃ e before, log = e :: before ∧ e.2.trigger.isSome = true ∧
      triggers before = []
  | (time, .closed c) => Closing config time c log ∧ ∀ t c, (t, .closed c) ∉ log
  | _ => True

/-- A log in which that is so. -/
inductive Orderly (config : LifecycleConfig) : LifecycleLog → Prop where
  | nil : Orderly config []
  | cons {e : ℕ × LifecycleEvent} {log : LifecycleLog} :
    Allowed config log e → Orderly config log → Orderly config (e :: log)

theorem Orderly.allowed {config : LifecycleConfig} {e : ℕ × LifecycleEvent} {post : LifecycleLog} :
    ∀ {pre : LifecycleLog}, Orderly config (pre ++ e :: post) → Allowed config post e := by
  intro pre
  induction pre with
  | nil =>
    intro h
    cases h with
    | cons he _ => exact he
  | cons e' pre ih =>
    intro h
    cases h with
    | cons _ hrest => exact ih hrest

/-! ## Triggers -/

/-- Whether a reason is that of a trigger. -/
def CloseReason.windsDown : CloseReason → Bool
  | shutdown => true
  | maxAge => true
  | idle => true
  | maxRequests => true
  | _ => false

theorem LifecycleEvent.windsDown_of_trigger {ev : LifecycleEvent} {reason : CloseReason}
    (h : ev.trigger = some reason) : reason.windsDown = true := by
  cases ev with
  | polled f ready =>
    cases ready
    · cases f <;> cases h
    · cases f with
      | globalShutdown =>
        obtain rfl := Option.some.inj h
        rfl
      | age =>
        obtain rfl := Option.some.inj h
        rfl
      | requests =>
        obtain rfl := Option.some.inj h
        rfl
      | _ => cases h
  | window quiet =>
    cases quiet
    · cases h
    · obtain rfl := Option.some.inj h
      rfl
  | _ => cases h

theorem mem_triggers {reason : CloseReason} {log : LifecycleLog} :
    reason ∈ triggers log ↔ ∃ t ev, (t, ev) ∈ log ∧ ev.trigger = some reason := by
  induction log with
  | nil => simp only [triggers, List.not_mem_nil, false_and, exists_false]
  | cons e log ih =>
    obtain ⟨t, ev⟩ := e
    simp only [triggers, List.mem_append, Option.mem_toList, ih, List.mem_cons, Prod.mk.injEq]
    constructor
    · rintro (hev | ⟨t', ev', hmem, hev'⟩)
      · exact ⟨t, ev, .inl ⟨rfl, rfl⟩, hev⟩
      · exact ⟨t', ev', .inr hmem, hev'⟩
    · rintro ⟨t', ev', ⟨rfl, rfl⟩ | hmem, hev'⟩
      · exact .inl hev'
      · exact .inr ⟨t', ev', hmem, hev'⟩

theorem windsDown_of_firstTrigger {reason : CloseReason} {log : LifecycleLog}
    (h : firstTrigger log = some reason) : reason.windsDown = true := by
  obtain ⟨t, ev, -, hev⟩ := mem_triggers.mp (List.mem_of_getLast? h)
  exact LifecycleEvent.windsDown_of_trigger hev

/-- A connection that winds down keeps its reason. -/
theorem logConnectionResult_reason {result : Except ConnectionError Unit} {reason : CloseReason}
    (h : reason.windsDown = true) : (logConnectionResult result reason).reason = reason := by
  have hne : reason ≠ .error := by
    rintro rfl
    cases h
  simp only [logConnectionResult, hne, decide_false, Bool.false_and, Bool.false_eq_true, if_false]
  split
  · rfl
  · rfl

/-- A connection that fails reports its error. -/
theorem logConnectionResult_error (err : ConnectionError) :
    logConnectionResult (.error err) .error =
      ⟨if err.isHeaderReadTimeout then .headerReadTimeout else .error, some err⟩ := by
  simp only [logConnectionResult, decide_true, Bool.true_or, Option.filter_some, if_true,
    Bool.true_and]

end ConnectRpc
