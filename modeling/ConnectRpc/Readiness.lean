import ConnectRpc.SharedConnection
import ConnectRpc.Lib.Poll

/-!
# Readiness

A caller polls a connection until it is ready, and then calls it. An attempt to connect that has
failed is reported as ready, and the call that follows returns the error; only an attempt to
open the first connection, eagerly, fails `poll_ready` itself, and so does a connector that is
not ready for an attempt. `Dialer.Inv` says how what has been reported and the state hang
together, operation by operation.
-/

namespace ConnectRpc

open Lib

/-! ## One connection -/

/-- What happens to a connection that is opened again when it is lost. -/
inductive ReconnectEvent : Type where
  /-- the connector has failed before an attempt -/
  | refused : BoxError → ReconnectEvent
  /-- an attempt has started -/
  | dialed
  /-- it has succeeded -/
  | opened : ℕ → ReconnectEvent
  /-- it has failed -/
  | failed : BoxError → ReconnectEvent
  /-- the connection has answered that it is ready -/
  | alive : ℕ → ReconnectEvent
  /-- it is closed -/
  | lost : ℕ → ReconnectEvent
  /-- `poll_ready` has returned: not ready yet -/
  | pending
  /-- ready -/
  | ready
  /-- with an error -/
  | raised : BoxError → ReconnectEvent
  /-- `call` has returned an error of the past -/
  | surfaced : BoxError → ReconnectEvent
  /-- it has sent the request on a connection -/
  | sent : ℕ → ReconnectEvent
  /-- it has found no connection -/
  | violated

/-- What it means that the connector, the attempt or the connection, whichever is polled in
this state, answers. -/
def Reconnect.heard (r : Reconnect) (new : ℕ) : Except BoxError Unit → ReconnectEvent
  | .ok () =>
    match r.state with
    | .idle => .dialed
    | .connecting => .opened new
    | .connected c => .alive c
  | .error e =>
    match r.state with
    | .idle => .refused e
    | .connecting => .failed e
    | .connected c => .lost c

/-- Where nothing is deferred, any state is fine. -/
theorem idle_of_none {state : ReconnectState} (h : (none : Option BoxError).isSome = true) :
    state = .idle := by
  cases h

/-- `call` takes the error that is to be reported. -/
def Reconnect.takeDeferred (r : Reconnect) : Reconnect :=
  (r.outcome (.ok ())).1

/-- A connection and what has happened to it. -/
structure Dialer where
  /-- the state machine -/
  conn : Reconnect
  /-- how many connections there have been -/
  opened : ℕ
  /-- what has happened, the latest first -/
  history : List ReconnectEvent

namespace Dialer

/-- `Reconnect::new`. -/
def new (lazy : Bool) : Dialer := ⟨⟨.idle, none, false, lazy, idle_of_none⟩, 0, []⟩

/-- Something happens. -/
def emit (d : Dialer) (ev : ReconnectEvent) : Dialer := { d with history := ev :: d.history }

/-- The loop of `Reconnect::poll_ready`. The answers are those of what it polls, round by
round. -/
def rounds : List (Poll (Except BoxError Unit)) → Dialer → Poll (Except BoxError Unit) × Dialer
  | [], d => (.pending, d)
  | .pending :: _, d => (.pending, d)
  | .ready answer :: answers, d =>
    let history := d.conn.heard d.opened answer :: d.history
    match d.conn.pollReady (fun _ => !answer.isOk) d.opened answer with
    | .again conn => rounds answers ⟨conn, d.opened, history⟩
    | .dialed conn => rounds answers ⟨conn, d.opened, history⟩
    | .opened conn => rounds answers ⟨conn, d.opened + 1, history⟩
    | .ready conn ready => (.ready ready, ⟨conn, d.opened, history⟩)

/-- How `poll_ready` returns. -/
def returned : Poll (Except BoxError Unit) → ReconnectEvent
  | .pending => .pending
  | .ready (.ok ()) => .ready
  | .ready (.error e) => .raised e

/-- `Reconnect::poll_ready`. -/
def pollReady (d : Dialer) (answers : List (Poll (Except BoxError Unit))) : Dialer :=
  if d.conn.deferredError.isSome then d.emit .ready
  else (d.rounds answers).2.emit (returned (d.rounds answers).1)

/-- `Reconnect::call`. -/
def call (d : Dialer) : Dialer :=
  match d.conn.deferredError with
  | some e => ⟨d.conn.takeDeferred, d.opened, .surfaced e :: d.history⟩
  | none =>
    match d.conn.state with
    | .connected c => d.emit (.sent c)
    | _ => d.emit .violated

end Dialer

/-- What a caller does. -/
inductive ReadyOp : Type where
  | pollReady (answers : List (Poll (Except BoxError Unit))) : ReadyOp
  | call

namespace Dialer

/-- One operation. -/
def step (d : Dialer) : ReadyOp → Dialer
  | .pollReady answers => d.pollReady answers
  | .call => d.call

/-- A run. -/
def run (d : Dialer) (ops : List ReadyOp) : Dialer :=
  ops.foldl step d

/-- Every call follows a `poll_ready` that was ready. -/
def Legal (d : Dialer) (ops : List ReadyOp) : Prop :=
  ∀ before after, ops = before ++ .call :: after → (d.run before).history.head? = some .ready

end Dialer

/-! ## What has been reported of a connection -/

namespace ReconnectEvent

/-- A failure to connect. -/
def failure : ReconnectEvent → Option BoxError
  | refused e => some e
  | failed e => some e
  | _ => none

/-- A failure that is reported. -/
def report : ReconnectEvent → Option BoxError
  | raised e => some e
  | surfaced e => some e
  | _ => none

/-- A connection is opened. -/
def isOpened : ReconnectEvent → Bool
  | opened _ => true
  | _ => false

/-- What an event must come after: an error of `poll_ready` is that of a connector, or of an attempt
of an eager connection that has never been open; a call comes after a `poll_ready` that was
ready, and if it sends, on the connection that has answered that it is. -/
def Justified (lazy : Bool) (history : List ReconnectEvent) : ReconnectEvent → Prop
  | raised e => (∃ before, history = .refused e :: before) ∨
      lazy = false ∧ ∃ before, history = .failed e :: before ∧ before.any isOpened = false
  | surfaced _ => ∃ before, history = .ready :: before
  | sent c => ∃ before, history = .ready :: .alive c :: before
  | violated => False
  | _ => True

end ReconnectEvent

/-- A connection and what has happened to it, `due` being the failures that are still to be
reported. -/
structure Dialer.Kept (lazy : Bool) (due : List BoxError) (d : Dialer) : Prop where
  /-- it is as eager as it was -/
  eager : d.conn.lazy = lazy
  /-- whether it has been connected -/
  connected : d.conn.hasConnected = d.history.any ReconnectEvent.isOpened
  /-- every failure is reported once, in order, but for those that are due -/
  once : d.history.filterMap ReconnectEvent.failure =
    due ++ d.history.filterMap ReconnectEvent.report
  /-- everything is as it must be -/
  justified : ∀ ev before, ev :: before <:+ d.history → ev.Justified lazy before

/-- Between two operations. -/
structure Dialer.Inv (lazy : Bool) (d : Dialer) : Prop where
  /-- what is due is what is deferred -/
  kept : d.Kept lazy d.conn.deferredError.toList
  /-- if it is ready, a call has something to return, or to send on -/
  ready : d.history.head? = some .ready → d.conn.deferredError.isSome = true ∨
    ∃ c before, d.conn.state = .connected c ∧ d.history = .ready :: .alive c :: before
  /-- after a report there is nothing left of the failure -/
  reported : ∀ e before, d.history = .surfaced e :: before ∨ d.history = .raised e :: before →
    d.conn.state = .idle ∧ d.conn.deferredError = none

/-- What the loop of `poll_ready` comes to. -/
inductive Dialer.Rounded (lazy : Bool) (d : Dialer) : Poll (Except BoxError Unit) → Prop where
  /-- something is not ready -/
  | pending (hkept : d.Kept lazy []) (hnone : d.conn.deferredError = none) : d.Rounded lazy .pending
  /-- there is a connection -/
  | alive {c : ℕ} {before : List ReconnectEvent} (hkept : d.Kept lazy [])
      (hnone : d.conn.deferredError = none) (hstate : d.conn.state = .connected c)
      (hhistory : d.history = .alive c :: before) : d.Rounded lazy (.ready (.ok ()))
  /-- the attempt has failed, and the next call is to return that -/
  | deferred {e : BoxError} (hkept : d.Kept lazy [e]) (hdeferred : d.conn.deferredError = some e) :
      d.Rounded lazy (.ready (.ok ()))
  /-- the attempt, or the connector, has failed, and `poll_ready` returns that -/
  | raised {e : BoxError} (hkept : d.Kept lazy [e]) (hnone : d.conn.deferredError = none)
      (hstate : d.conn.state = .idle)
      (hjustified : ReconnectEvent.Justified lazy d.history (.raised e)) :
      d.Rounded lazy (.ready (.error e))

namespace Dialer

variable {lazy : Bool} {due : List BoxError} {d : Dialer}

/-- One more event. -/
theorem Kept.cons (h : d.Kept lazy due) {d' : Dialer} {ev : ReconnectEvent} {due' : List BoxError}
    (hhistory : d'.history = ev :: d.history) (heager : d'.conn.lazy = d.conn.lazy)
    (hconnected : d'.conn.hasConnected = (ev.isOpened || d.conn.hasConnected))
    (hdue : ev.failure.toList ++ due = due' ++ ev.report.toList)
    (hjustified : ev.Justified lazy d.history) : d'.Kept lazy due' where
  eager := heager.trans h.eager
  connected := by rw [hconnected, h.connected, hhistory, List.any_cons]
  once := by
    have hcons : ∀ f : ReconnectEvent → Option BoxError,
        (ev :: d.history).filterMap f = (f ev).toList ++ d.history.filterMap f := by
      intro f
      rw [List.filterMap_cons]
      cases f ev <;> rfl
    rw [hhistory, hcons, hcons, h.once, ← List.append_assoc, hdue, List.append_assoc]
  justified := by
    intro ev' before hsuffix
    rw [hhistory, List.suffix_cons_iff] at hsuffix
    rcases hsuffix with heq | hsuffix
    · obtain ⟨rfl, rfl⟩ := List.cons.inj heq
      exact hjustified
    · exact h.justified ev' before hsuffix

/-- **The loop of `poll_ready`**, one round after the other. -/
theorem rounds_rounded (answers : List (Poll (Except BoxError Unit))) : ∀ {d : Dialer},
    d.Kept lazy [] → d.conn.deferredError = none →
      (d.rounds answers).2.Rounded lazy (d.rounds answers).1 := by
  induction answers with
  | nil => exact fun hkept hnone => .pending hkept hnone
  | cons answer answers ih =>
    intro d hkept hnone
    rcases answer with _ | answer
    · exact .pending hkept hnone
    · obtain ⟨⟨state, deferred, hasConnected, isLazy, hidle⟩, opened, history⟩ := d
      obtain rfl : deferred = none := hnone
      cases state with
      | idle =>
        rcases answer with e | ⟨⟨⟩⟩
        · exact .raised (hkept.cons rfl rfl rfl rfl trivial) rfl rfl (.inl ⟨history, rfl⟩)
        · exact ih (d := ⟨⟨.connecting, none, hasConnected, isLazy, _⟩, opened, .dialed :: history⟩)
            (hkept.cons rfl rfl rfl rfl trivial) rfl
      | connecting =>
        rcases answer with e | ⟨⟨⟩⟩
        · -- deferred, unless it is the first attempt of an eager connection
          rcases hasConnected with _ | _
          · rcases isLazy with _ | _
            · exact .raised (hkept.cons rfl rfl rfl rfl trivial) rfl rfl
                (.inr ⟨hkept.eager.symm, history, rfl, hkept.connected.symm⟩)
            · exact .deferred (hkept.cons rfl rfl rfl rfl trivial) rfl
          · exact .deferred (hkept.cons rfl rfl rfl rfl trivial) rfl
        · exact ih (d := ⟨⟨.connected opened, none, true, isLazy, _⟩, opened + 1,
            .opened opened :: history⟩) (hkept.cons rfl rfl rfl rfl trivial) rfl
      | connected c =>
        rcases answer with e | ⟨⟨⟩⟩
        · exact ih (d := ⟨⟨.idle, none, hasConnected, isLazy, _⟩, opened, .lost c :: history⟩)
            (hkept.cons rfl rfl rfl rfl trivial) rfl
        · exact .alive (hkept.cons rfl rfl rfl rfl trivial) rfl rfl rfl

/-- How `poll_ready` returns. -/
theorem Rounded.inv {p : Poll (Except BoxError Unit)} (h : d.Rounded lazy p) :
    (d.emit (returned p)).Inv lazy := by
  cases h with
  | pending hkept hnone =>
    refine ⟨?_, fun hhead => (nomatch hhead), fun e before hreport => ?_⟩
    · rw [show (d.emit (returned .pending)).conn.deferredError = none from hnone]
      exact hkept.cons rfl rfl rfl rfl trivial
    · rcases hreport with hreport | hreport <;> cases hreport
  | @alive c before hkept hnone hstate hhistory =>
    refine ⟨?_, fun _ => .inr ⟨c, before, hstate, ?_⟩, fun e before hreport => ?_⟩
    · rw [show (d.emit (returned (.ready (.ok ())))).conn.deferredError = none from hnone]
      exact hkept.cons rfl rfl rfl rfl trivial
    · rw [emit, hhistory]
      rfl
    · rcases hreport with hreport | hreport <;> cases hreport
  | @deferred e hkept hdeferred =>
    refine ⟨?_, fun _ => .inl ?_, fun e before hreport => ?_⟩
    · rw [show (d.emit (returned (.ready (.ok ())))).conn.deferredError = some e from hdeferred]
      exact hkept.cons rfl rfl rfl rfl trivial
    · rw [emit, hdeferred]
      rfl
    · rcases hreport with hreport | hreport <;> cases hreport
  | @raised e hkept hnone hstate hjustified =>
    refine ⟨?_, fun hhead => (nomatch hhead), fun _ _ _ => ⟨hstate, hnone⟩⟩
    rw [show (d.emit (returned (.ready (.error e)))).conn.deferredError = none from hnone]
    exact hkept.cons rfl rfl rfl rfl hjustified

/-- **`poll_ready`** keeps the account. -/
theorem Inv.pollReady (h : d.Inv lazy) (answers : List (Poll (Except BoxError Unit))) :
    (d.pollReady answers).Inv lazy := by
  rw [Dialer.pollReady]
  by_cases hdeferred : d.conn.deferredError.isSome = true
  · rw [if_pos hdeferred]
    refine ⟨h.kept.cons rfl rfl rfl (List.append_nil _).symm trivial, fun _ => .inl hdeferred,
      fun e before hreport => ?_⟩
    rcases hreport with hreport | hreport <;> cases hreport
  · have hnone : d.conn.deferredError = none := Option.not_isSome_iff_eq_none.mp hdeferred
    have hkept := h.kept
    rw [hnone] at hkept
    rw [if_neg hdeferred]
    exact (rounds_rounded answers hkept hnone).inv

/-- **`call`**, after a `poll_ready` that was ready. -/
theorem Inv.call (h : d.Inv lazy) (hready : d.history.head? = some .ready) :
    d.call.Inv lazy := by
  obtain ⟨rest, hrest⟩ := List.head?_eq_some_iff.mp hready
  have hkept := h.kept
  rw [Dialer.call]
  rcases hdeferred : d.conn.deferredError with _ | e
  · rw [hdeferred] at hkept
    rcases h.ready hready with hsome | ⟨c, before, hstate, hhistory⟩
    · rw [hdeferred] at hsome
      cases hsome
    · simp only [hstate]
      refine ⟨?_, fun hhead => (nomatch hhead), fun e before hreport => ?_⟩
      · rw [show (d.emit (.sent c)).conn.deferredError = none from hdeferred]
        exact hkept.cons rfl rfl rfl rfl ⟨before, hhistory⟩
      · rcases hreport with hreport | hreport <;> cases hreport
  · rw [hdeferred] at hkept
    have hidle : d.conn.state = .idle := d.conn.idle_of_deferred (by rw [hdeferred]; rfl)
    exact ⟨hkept.cons rfl rfl rfl rfl ⟨rest, hrest⟩, fun hhead => (nomatch hhead),
      fun _ _ _ => ⟨hidle, rfl⟩⟩

/-- **A run.** -/
theorem Inv.run (ops : List ReadyOp) : ∀ {d : Dialer}, d.Inv lazy → d.Legal ops →
    (d.run ops).Inv lazy := by
  induction ops with
  | nil => exact fun h _ => h
  | cons op ops ih =>
    intro d h hlegal
    have hrest : (d.step op).Legal ops := by
      intro before after hsplit
      exact hlegal (op :: before) after (by rw [hsplit]; rfl)
    refine ih ?_ hrest
    cases op with
    | pollReady answers => exact h.pollReady answers
    | call => exact h.call (hlegal [] ops rfl)

/-- A new one. -/
theorem inv_new (lazy : Bool) : (Dialer.new lazy).Inv lazy where
  kept := ⟨rfl, rfl, rfl, fun ev before hsuffix => absurd (List.suffix_nil.mp hsuffix)
    (List.cons_ne_nil ev before)⟩
  ready := fun hhead => nomatch hhead
  reported := fun e before hreport => by rcases hreport with hreport | hreport <;> cases hreport

/-- The loop of `poll_ready` only adds to what has happened. -/
theorem suffix_rounds (answers : List (Poll (Except BoxError Unit))) : ∀ (d : Dialer),
    d.history <:+ (d.rounds answers).2.history := by
  induction answers with
  | nil => exact fun _ => List.suffix_rfl
  | cons answer answers ih =>
    intro d
    rcases answer with _ | answer
    · exact List.suffix_rfl
    · rw [rounds]
      have hcons : d.history <:+ d.conn.heard d.opened answer :: d.history := List.suffix_cons _ _
      split
      · exact hcons.trans (ih ⟨_, _, d.conn.heard d.opened answer :: d.history⟩)
      · exact hcons.trans (ih ⟨_, _, d.conn.heard d.opened answer :: d.history⟩)
      · exact hcons.trans (ih ⟨_, _, d.conn.heard d.opened answer :: d.history⟩)
      · exact hcons

/-- Where there is no connection and nothing to report, `poll_ready` asks the connector, and is
not ready but after an attempt that it starts. -/
theorem pollReady_idle (hstate : d.conn.state = .idle) (hnone : d.conn.deferredError = none)
    (answers : List (Poll (Except BoxError Unit))) :
    (d.pollReady answers).history = .pending :: d.history ∨
      (∃ e, (d.pollReady answers).history = .raised e :: .refused e :: d.history) ∨
      .dialed :: d.history <:+ (d.pollReady answers).history := by
  obtain ⟨⟨state, deferred, hasConnected, isLazy, hidle⟩, opened, history⟩ := d
  obtain rfl : state = .idle := hstate
  obtain rfl : deferred = none := hnone
  rcases answers with _ | ⟨_ | answer, answers⟩
  · exact .inl rfl
  · exact .inl rfl
  · rcases answer with e | ⟨⟨⟩⟩
    · exact .inr (.inl ⟨e, rfl⟩)
    · refine .inr (.inr (List.IsSuffix.trans ?_ (List.suffix_cons _ _)))
      exact suffix_rounds answers
        ⟨⟨.connecting, none, hasConnected, isLazy, _⟩, opened, .dialed :: history⟩

end Dialer

/-- What holds of a connection that is polled until it is ready and then called. -/
structure ReconnectLaw (lazy : Bool) (d : Dialer) : Prop where
  /-- every failure is reported once, in order, but for one that is deferred -/
  once : d.history.filterMap ReconnectEvent.failure =
    d.conn.deferredError.toList ++ d.history.filterMap ReconnectEvent.report
  /-- calls send on the connection that has answered that it is ready, or return what is deferred;
  `poll_ready` itself only returns the errors of the connector, and those of the attempts of an
  eager connection that has never been open -/
  justified : ∀ ev before, ev :: before <:+ d.history → ev.Justified lazy before
  /-- the next call returns the error that is deferred, or sends where there is none -/
  calls : d.history.head? = some .ready →
    (∃ e, d.conn.deferredError = some e ∧ d.call.history = .surfaced e :: d.history) ∨
      d.conn.deferredError = none ∧ ∃ c, d.conn.state = .connected c ∧
        d.call.history = .sent c :: d.history
  /-- after a failure has been reported, the next `poll_ready` starts an attempt, unless the
  connector does not let it -/
  retries : ∀ e before, d.history = .surfaced e :: before ∨ d.history = .raised e :: before →
    ∀ answers, (d.pollReady answers).history = .pending :: d.history ∨
      (∃ e', (d.pollReady answers).history = .raised e' :: .refused e' :: d.history) ∨
      .dialed :: d.history <:+ (d.pollReady answers).history

theorem Dialer.Inv.law {lazy : Bool} {d : Dialer} (h : d.Inv lazy) : ReconnectLaw lazy d where
  once := h.kept.once
  justified := h.kept.justified
  calls := by
    intro hready
    rw [Dialer.call]
    rcases hdeferred : d.conn.deferredError with _ | e
    · refine .inr ⟨rfl, ?_⟩
      rcases h.ready hready with hsome | ⟨c, before, hstate, -⟩
      · rw [hdeferred] at hsome
        cases hsome
      · refine ⟨c, hstate, ?_⟩
        simp only [hstate]
        rfl
    · exact .inl ⟨e, rfl, rfl⟩
  retries := fun e before hreport answers =>
    Dialer.pollReady_idle (h.reported e before hreport).1 (h.reported e before hreport).2 answers

end ConnectRpc
