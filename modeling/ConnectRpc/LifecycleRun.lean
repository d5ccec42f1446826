import ConnectRpc.ConnectionLifecycle

/-!
# Runs of the lifecycle

What every poll keeps (`LifecycleInv.poll`), and from it what holds in every state of every run.
-/

namespace ConnectRpc

/-! ## The invariant -/

/-- The reason to wind down of a state. -/
def ConnectionLifecycleState.reason : ConnectionLifecycleState → Option CloseReason
  | serving => none
  | globalDraining reason => some reason
  | draining _ _ reason => some reason

/-- A state fits what has happened: the futures that it goes on polling have not completed. -/
def ConnectionLifecycleState.Fits (config : LifecycleConfig) (log : LifecycleLog) :
    ConnectionLifecycleState → Prop
  | serving => triggers log = [] ∧ ∀ f, spent f log = false
  | globalDraining _ => spent .conn log = false
  | draining grace duration reason => triggers log = [reason] ∧ spent .conn log = false ∧
      spent .globalShutdown log = false ∧ spent .grace log = false ∧
      config.graceOf reason = some duration ∧
      ∃ t, (t, .gracefulShutdown) ∈ log ∧ grace.deadline = t + duration

/-- What holds of a connection that is served. -/
structure LifecycleInv (config : LifecycleConfig) (p : Served) : Prop where
  /-- the log -/
  orderly : Orderly config p.log
  /-- the connection is told to wind down once there is a trigger -/
  shutdowns : gracefulShutdowns p.log = min 1 (triggers p.log).length
  /-- the reason to wind down is the first trigger -/
  reason : p.lifecycle.state.reason = firstTrigger p.log
  /-- the maximum age -/
  age : p.lifecycle.age.map Prod.snd = config.age
  /-- the idle window -/
  idle : p.lifecycle.idle.map IdleTracker.config = config.idle
  /-- the grace period after the maximum number of requests -/
  requests : p.lifecycle.requests = config.requests
  /-- the state -/
  state : p.ended = false → p.lifecycle.state.Fits config p.log
  /-- the lifecycle has not ended without saying so -/
  running : p.ended = false → ∀ t c, (t, .closed c) ∉ p.log
  /-- the requests in flight are counted -/
  inFlight : p.activity.inFlight = p.live.length
  /-- they are the live guards -/
  live : p.live = liveGuards p.log
  /-- the epoch tells whether there has been activity since the idle window was armed -/
  epoch : p.ended = false → ∀ tracker, p.lifecycle.idle = some tracker →
    tracker.armedEpoch ≤ p.activity.epoch ∧
      (tracker.armedEpoch = p.activity.epoch → undisturbed p.log = true)

/-- What a poll comes to. -/
structure Polled (config : LifecycleConfig) (p : Served)
    (r : ConnectionLifecycle × List LifecycleEvent) : Prop where
  /-- the log -/
  orderly : Orderly config (p.record r.2)
  /-- the connection is told to wind down once there is a trigger -/
  shutdowns : gracefulShutdowns (p.record r.2) = min 1 (triggers (p.record r.2)).length
  /-- the reason to wind down is the first trigger -/
  reason : r.1.state.reason = firstTrigger (p.record r.2)
  /-- the maximum age -/
  age : r.1.age.map Prod.snd = config.age
  /-- the idle window -/
  idle : r.1.idle.map IdleTracker.config = config.idle
  /-- the grace period after the maximum number of requests -/
  requests : r.1.requests = config.requests
  /-- the state -/
  state : endsWith r.2 = false → r.1.state.Fits config (p.record r.2)
  /-- the lifecycle has not ended without saying so -/
  running : endsWith r.2 = false → ∀ t c, (t, .closed c) ∉ p.record r.2
  /-- requests come and go on their own -/
  live : liveGuards (p.record r.2) = liveGuards p.log
  /-- the epoch -/
  epoch : endsWith r.2 = false → ∀ tracker, r.1.idle = some tracker →
    tracker.armedEpoch ≤ p.activity.epoch ∧
      (tracker.armedEpoch = p.activity.epoch → undisturbed (p.record r.2) = true)

section Poll

variable {config : LifecycleConfig} {p : Served}

/-! ## What a poll may come to -/

theorem spent_pending (f g : Signal) (t : ℕ) (log : LifecycleLog) :
    spent g ((t, .polled f false) :: log) = spent g log := by
  rw [spent, Bool.and_false, Bool.false_or]

theorem triggers_pending (f : Signal) (t : ℕ) (log : LifecycleLog) :
    triggers ((t, .polled f false) :: log) = triggers log := by
  cases f <;> rfl

/-- Nothing changes about a state that fits while something is pending. -/
theorem ConnectionLifecycleState.Fits.pending {state : ConnectionLifecycleState}
    {log : LifecycleLog} (h : state.Fits config log) (f : Signal) (t : ℕ) :
    state.Fits config ((t, .polled f false) :: log) := by
  cases state with
  | serving =>
    refine ⟨?_, fun g => ?_⟩
    · rw [triggers_pending]
      exact h.1
    · rw [spent_pending]
      exact h.2 g
  | globalDraining reason =>
    rw [Fits, spent_pending]
    exact h
  | draining grace duration reason =>
    rw [Fits, triggers_pending, spent_pending, spent_pending, spent_pending]
    obtain ⟨htriggers, hconn, hshutdown, hgrace, hof, σ, hmem, hdeadline⟩ := h
    exact ⟨htriggers, hconn, hshutdown, hgrace, hof, σ, List.mem_cons_of_mem _ hmem, hdeadline⟩

/-- A future is polled and is pending. -/
theorem polled_pending (hinv : LifecycleInv config p) (hended : p.ended = false) (f next : Signal)
    (hfresh : spent f p.log = false) :
    Polled config p (p.lifecycle.andThen next, [.polled f false]) where
  orderly := .cons ⟨hfresh, hinv.running hended⟩ hinv.orderly
  shutdowns := by
    have hsame := triggers_pending f p.now p.log
    have hcount : gracefulShutdowns (p.record [.polled f false]) = gracefulShutdowns p.log := rfl
    rw [hcount, hinv.shutdowns, Served.record, List.map_singleton, List.singleton_append, hsame]
  reason := by
    have hsame := triggers_pending f p.now p.log
    rw [firstTrigger, Served.record, List.map_singleton, List.singleton_append, hsame]
    exact hinv.reason
  age := hinv.age
  idle := hinv.idle
  requests := hinv.requests
  state := fun _ => (hinv.state hended).pending f p.now
  running := by
    intro _ t c hmem
    rcases List.mem_cons.mp hmem with heq | hmem
    · cases heq
    · exact hinv.running hended t c hmem
  live := rfl
  epoch := fun _ => hinv.epoch hended

/-- There is nothing to poll. -/
theorem polled_none (hinv : LifecycleInv config p) (hended : p.ended = false) (next : Signal) :
    Polled config p (p.lifecycle.andThen next, []) :=
  ⟨hinv.orderly, hinv.shutdowns, hinv.reason, hinv.age, hinv.idle, hinv.requests,
    fun _ => hinv.state hended, fun _ => hinv.running hended, rfl, fun _ => hinv.epoch hended⟩

/-- A retirement trigger. -/
theorem polled_drain (hinv : LifecycleInv config p) (hended : p.ended = false)
    {trig : List LifecycleEvent} {grace : ℕ} {reason : CloseReason}
    (hhead : ∃ ev before, p.record trig = (p.now, ev) :: before ∧ ev.trigger = some reason ∧
      triggers before = [])
    (horderly : Orderly config (p.record trig)) (hnone : gracefulShutdowns (p.record trig) = 0)
    (hconn : spent .conn (p.record trig) = false)
    (hshutdown : spent .globalShutdown (p.record trig) = false)
    (hgrace : config.graceOf reason = some grace) (hlive : liveGuards (p.record trig) = p.live)
    (hrunning : ∀ t c, (t, .closed c) ∉ p.record trig)
    (hidle : undisturbed p.log = true → undisturbed (p.record trig) = true) :
    Polled config p
      (p.lifecycle.drain p.now grace reason, .armed .grace :: .gracefulShutdown :: trig) := by
  obtain ⟨ev, before, hrecord, hev, hbefore⟩ := hhead
  have hall : p.record (.armed .grace :: .gracefulShutdown :: trig) =
      (p.now, .armed .grace) :: (p.now, .gracefulShutdown) :: p.record trig := rfl
  have htriggers : triggers (p.record trig) = [reason] := by
    rw [hrecord, triggers, hev, hbefore]
    rfl
  have hsame : triggers (p.record (.armed .grace :: .gracefulShutdown :: trig)) = [reason] :=
    htriggers
  refine ⟨?_, ?_, ?_, hinv.age, hinv.idle, hinv.requests, fun _ => ?_, fun _ t c hmem => ?_, ?_,
    fun _ tracker htracker => ?_⟩
  · refine .cons trivial (.cons ⟨(p.now, ev), before, hrecord, ?_, hbefore⟩ horderly)
    rw [hev]
    rfl
  · rw [hsame]
    exact congrArg (· + 1) hnone
  · rw [firstTrigger, hsame]
    rfl
  · refine ⟨hsame, hconn, hshutdown, rfl, hgrace, p.now, ?_, rfl⟩
    exact List.mem_cons_of_mem _ List.mem_cons_self
  · rw [hall] at hmem
    rcases List.mem_cons.mp hmem with heq | hmem
    · cases heq
    · rcases List.mem_cons.mp hmem with heq | hmem
      · cases heq
      · exact hrunning t c hmem
  · exact hlive.trans hinv.live
  · obtain ⟨hle, heq⟩ := hinv.epoch hended tracker htracker
    exact ⟨hle, fun hsame' => hidle (heq hsame')⟩

/-- The connection completes. -/
theorem polled_completed (hinv : LifecycleInv config p) (hended : p.ended = false)
    {c : ConnectionClosed} (hconn : spent .conn p.log = false)
    (hreason : match firstTrigger p.log with
      | some reason => c.reason = reason
      | none => c.reason = .closed ∨ c.reason = .error ∨ c.reason = .headerReadTimeout)
    (herror : c.reason = .error ∨ c.reason = .headerReadTimeout → c.error.isSome = true) :
    Polled config p (p.lifecycle, [.closed c, .polled .conn true]) := by
  have hrunning : ∀ t c, (t, .closed c) ∉ p.record [.polled .conn true] := by
    intro t c hmem
    rcases List.mem_cons.mp hmem with heq | hmem
    · cases heq
    · exact hinv.running hended t c hmem
  refine ⟨.cons ⟨⟨hreason, herror, .inl ⟨p.now, List.mem_cons_self⟩⟩, hrunning⟩
    (.cons ⟨hconn, hinv.running hended⟩ hinv.orderly), hinv.shutdowns, hinv.reason, hinv.age,
    hinv.idle, hinv.requests, (fun hends => by cases hends), (fun hends => by cases hends), rfl,
    (fun hends => by cases hends)⟩

/-- A connection that winds down completes. -/
theorem polled_drained (hinv : LifecycleInv config p) (hended : p.ended = false)
    {reason : CloseReason} (hstate : p.lifecycle.state.reason = some reason)
    (hconn : spent .conn p.log = false) (result : Except ConnectionError Unit) :
    Polled config p
      (p.lifecycle, [.closed (logConnectionResult result reason), .polled .conn true]) := by
  have hfirst : firstTrigger p.log = some reason := hinv.reason.symm.trans hstate
  have hwinds := windsDown_of_firstTrigger hfirst
  have hsame : (logConnectionResult result reason).reason = reason :=
    logConnectionResult_reason hwinds
  refine polled_completed hinv hended hconn ?_ fun herror => ?_
  · rw [hfirst]
    exact hsame
  · rw [hsame] at herror
    rcases herror with rfl | rfl
    · cases hwinds
    · cases hwinds

/-- What has been recorded is not forgotten. -/
theorem closed_not_mem_record (hrunning : ∀ t c, (t, .closed c) ∉ p.log)
    {evs : List LifecycleEvent} (hevs : ∀ c, .closed c ∉ evs) :
    ∀ t c, (t, .closed c) ∉ p.record evs := by
  intro t c hmem
  rcases List.mem_append.mp hmem with hmem | hmem
  · obtain ⟨ev, hev, heq⟩ := List.mem_map.mp hmem
    obtain ⟨-, rfl⟩ := Prod.mk.inj heq
    exact hevs c hev
  · exact hrunning t c hmem

/-! ## Polls -/

variable {answer : Option (Except ConnectionError Unit)}

/-- **A poll in `Serving`.** -/
theorem polled_serving (hinv : LifecycleInv config p) (hended : p.ended = false)
    (hstate : p.lifecycle.state = .serving) :
    Polled config p (p.lifecycle.pollServing p.now p.activity answer) := by
  have hfits := hinv.state hended
  rw [hstate] at hfits
  obtain ⟨hnone, hfresh⟩ := hfits
  have hzero : gracefulShutdowns p.log = 0 := by
    rw [hinv.shutdowns, hnone]
    rfl
  have hfirst : firstTrigger p.log = none := by
    rw [firstTrigger, hnone]
    rfl
  have hrunning := hinv.running hended
  unfold ConnectionLifecycle.pollServing
  rcases hnext : p.lifecycle.next with _ | _ | _ | _ | _ | _
  · -- the connection
    rcases answer with _ | result
    · exact polled_pending hinv hended .conn .globalShutdown (hfresh .conn)
    · rcases result with err | ⟨⟩
      · refine polled_completed hinv hended (hfresh .conn) ?_ fun _ => ?_
        · rw [hfirst, logConnectionResult_error]
          by_cases htimeout : err.isHeaderReadTimeout = true
          · exact .inr (.inr (if_pos htimeout))
          · exact .inr (.inl (if_neg htimeout))
        · rw [logConnectionResult_error]
          rfl
      · refine polled_completed hinv hended (hfresh .conn) ?_ fun herror => ?_
        · rw [hfirst]
          exact .inl rfl
        · rcases herror with herror | herror
          · cases herror
          · cases herror
  · -- the shutdown signal
    simp only
    split
    · refine ⟨?_, ?_, ?_, hinv.age, hinv.idle, hinv.requests, fun _ => hfresh .conn, fun _ => ?_,
        rfl, fun _ => hinv.epoch hended⟩
      · refine .cons ⟨_, _, rfl, rfl, hnone⟩ (.cons ⟨hfresh .globalShutdown, hrunning⟩ hinv.orderly)
      · have hone : triggers (p.record [.gracefulShutdown, .polled .globalShutdown true]) =
            [.shutdown] := congrArg (CloseReason.shutdown :: ·) hnone
        rw [hone]
        exact congrArg (· + 1) hzero
      · have hone : triggers (p.record [.gracefulShutdown, .polled .globalShutdown true]) =
            [.shutdown] := congrArg (CloseReason.shutdown :: ·) hnone
        rw [firstTrigger, hone]
        rfl
      · refine closed_not_mem_record hrunning fun c hmem => ?_
        simp only [List.mem_cons, List.not_mem_nil, or_false, reduceCtorEq] at hmem
    · exact polled_pending hinv hended .globalShutdown .age (hfresh .globalShutdown)
  · -- the maximum age
    simp only
    rcases hage : p.lifecycle.age with _ | ⟨age, ageConfig⟩
    · exact polled_none hinv hended .idle
    · simp only
      split
      · refine polled_drain hinv hended ⟨_, _, rfl, rfl, hnone⟩
          (.cons ⟨hfresh .age, hrunning⟩ hinv.orderly) hzero (hfresh .conn) (hfresh .globalShutdown)
          ?_ hinv.live.symm ?_ fun hidle => hidle
        · rw [LifecycleConfig.graceOf, ← hinv.age, hage]
          rfl
        · refine closed_not_mem_record hrunning fun c hmem => ?_
          simp only [List.mem_cons, List.not_mem_nil, or_false, reduceCtorEq] at hmem
      · exact polled_pending hinv hended .age .idle (hfresh .age)
  · -- the idle window
    simp only
    rcases hidle : p.lifecycle.idle with _ | tracker
    · exact polled_none hinv hended .requests
    · simp only
      obtain ⟨hle, hquiet⟩ := hinv.epoch hended tracker hidle
      split
      · have hpolled : Orderly config (p.record [.polled .idle true]) :=
          .cons ⟨hfresh .idle, hrunning⟩ hinv.orderly
        split
        · rename_i hwindow
          refine polled_drain hinv hended ⟨_, _, rfl, rfl, hnone⟩ (.cons ⟨?_, ?_⟩ hpolled) hzero
            (hfresh .conn) (hfresh .globalShutdown) ?_ hinv.live.symm ?_ fun hidle => hidle
          · have hlive : (p.live.length : ℤ) = 0 := hinv.inFlight.symm.trans hwindow.1
            have hnil : p.live = [] := List.length_eq_zero_iff.mp (Int.ofNat_eq_zero.mp hlive)
            exact hinv.live.symm.trans hnil
          · exact hquiet hwindow.2.symm
          · rw [LifecycleConfig.graceOf, ← hinv.idle, hidle]
            rfl
          · refine closed_not_mem_record hrunning fun c hmem => ?_
            simp only [List.mem_cons, List.not_mem_nil, or_false, reduceCtorEq] at hmem
        · -- the window is armed again
          refine ⟨.cons trivial (.cons trivial hpolled), ?_, ?_, hinv.age, ?_, hinv.requests,
            fun _ => ?_, fun _ => ?_, rfl, fun _ tracker' htracker' => ?_⟩
          · exact hinv.shutdowns
          · exact hinv.reason
          · rw [← hinv.idle, hidle]
            rfl
          · rw [hstate]
            refine ⟨hnone, fun f => ?_⟩
            cases f with
            | idle => rfl
            | _ => exact hfresh _
          · refine closed_not_mem_record hrunning fun c hmem => ?_
            simp only [List.mem_cons, List.not_mem_nil, or_false, reduceCtorEq] at hmem
          · obtain rfl := Option.some.inj htracker'
            exact ⟨Nat.le_refl _, fun _ => rfl⟩
      · exact polled_pending hinv hended .idle .requests (hfresh .idle)
  · -- the number of requests
    simp only
    rcases hrequests : p.lifecycle.requests with _ | grace
    · exact polled_none hinv hended .conn
    · simp only
      split
      · refine polled_drain hinv hended ⟨_, _, rfl, rfl, hnone⟩
          (.cons ⟨hfresh .requests, hrunning⟩ hinv.orderly) hzero (hfresh .conn)
          (hfresh .globalShutdown) ?_ hinv.live.symm ?_ fun hidle => hidle
        · rw [LifecycleConfig.graceOf, ← hinv.requests, hrequests]
        · refine closed_not_mem_record hrunning fun c hmem => ?_
          simp only [List.mem_cons, List.not_mem_nil, or_false, reduceCtorEq] at hmem
      · exact polled_pending hinv hended .requests .conn (hfresh .requests)
  · exact polled_none hinv hended .conn

/-- **A poll in `GlobalDraining`.** -/
theorem polled_globalDraining {reason : CloseReason} (hinv : LifecycleInv config p)
    (hended : p.ended = false) (hstate : p.lifecycle.state = .globalDraining reason) :
    Polled config p (p.lifecycle.pollGlobalDraining reason answer) := by
  have hconn := hinv.state hended
  rw [hstate] at hconn
  rcases answer with _ | result
  · exact polled_pending hinv hended .conn p.lifecycle.next hconn
  · refine polled_drained hinv hended ?_ hconn result
    rw [hstate]
    rfl

/-- **A poll in `Draining`.** -/
theorem polled_draining {grace : Sleep} {duration : ℕ} {reason : CloseReason}
    (hinv : LifecycleInv config p) (hended : p.ended = false)
    (hstate : p.lifecycle.state = .draining grace duration reason) :
    Polled config p (p.lifecycle.pollDraining p.now grace reason answer) := by
  have hfits := hinv.state hended
  rw [hstate] at hfits
  obtain ⟨htriggers, hconn, hshutdown, hgrace, hof, σ, hmem, hdeadline⟩ := hfits
  have hreason : p.lifecycle.state.reason = some reason := by
    rw [hstate]
    rfl
  have hrunning := hinv.running hended
  -- no shutdown has been observed, as the only trigger has a grace period
  have hnoshutdown : ∀ t, (t, .polled .globalShutdown true) ∉ p.log := by
    intro t ht
    have hin : CloseReason.shutdown ∈ triggers p.log := mem_triggers.mpr ⟨t, _, ht, rfl⟩
    rw [htriggers] at hin
    obtain rfl := List.mem_singleton.mp hin
    cases hof
  unfold ConnectionLifecycle.pollDraining
  rcases hnext : p.lifecycle.next with _ | _ | _ | _ | _ | _
  · rcases answer with _ | result
    · exact polled_pending hinv hended .conn .globalShutdown hconn
    · exact polled_drained hinv hended hreason hconn result
  · simp only
    split
    · have hboth : triggers (p.record [.polled .globalShutdown true]) = [.shutdown, reason] :=
        congrArg (CloseReason.shutdown :: ·) htriggers
      refine ⟨.cons ⟨hshutdown, hrunning⟩ hinv.orderly, ?_, ?_, hinv.age, hinv.idle,
        hinv.requests, fun _ => hconn, fun _ => ?_, rfl, fun _ => hinv.epoch hended⟩
      · have hone := hinv.shutdowns
        rw [htriggers] at hone
        rw [hboth]
        exact hone
      · rw [firstTrigger, hboth]
        rfl
      · refine closed_not_mem_record hrunning fun c hmem => ?_
        simp only [List.mem_cons, List.not_mem_nil, or_false, reduceCtorEq] at hmem
    · exact polled_pending hinv hended .globalShutdown .grace hshutdown
  · exact polled_none hinv hended .conn
  · exact polled_none hinv hended .conn
  · exact polled_none hinv hended .conn
  · simp only
    split
    · rename_i hready
      have hpassed : grace.deadline ≤ p.now := by
        rw [Sleep.isReady, Bool.and_eq_true] at hready
        exact of_decide_eq_true hready.2
      have hfirst : firstTrigger (p.record [.polled .grace true]) = some reason := by
        have hsame : triggers (p.record [.polled .grace true]) = [reason] := htriggers
        rw [firstTrigger, hsame]
        rfl
      have hwinds := windsDown_of_firstTrigger hfirst
      have hpolled : Orderly config (p.record [.polled .grace true]) :=
        .cons ⟨hgrace, hrunning⟩ hinv.orderly
      have hrunning' : ∀ t c, (t, .closed c) ∉ p.record [.polled .grace true] := by
        refine closed_not_mem_record hrunning fun c hmem => ?_
        simp only [List.mem_cons, List.not_mem_nil, or_false, reduceCtorEq] at hmem
      have hclosing : Closing config p.now ⟨reason, none⟩ (p.record [.polled .grace true]) := by
        refine ⟨?_, fun herror => ?_, .inr ⟨⟨σ, duration, ?_, hof, ?_⟩, fun t ht => ?_⟩⟩
        · rw [hfirst]
        · rcases herror with herror | herror
          · rw [show reason = .error from herror] at hwinds
            cases hwinds
          · rw [show reason = .headerReadTimeout from herror] at hwinds
            cases hwinds
        · exact List.mem_cons_of_mem _ hmem
        · rw [← hdeadline]
          exact hpassed
        · rcases List.mem_cons.mp ht with heq | ht
          · cases heq
          · exact hnoshutdown t ht
      exact ⟨.cons ⟨hclosing, hrunning'⟩ hpolled, hinv.shutdowns, hinv.reason, hinv.age, hinv.idle,
        hinv.requests, (fun hends => by cases hends), (fun hends => by cases hends), rfl,
        (fun hends => by cases hends)⟩
    · exact polled_pending hinv hended .grace .conn hgrace

/-- **A poll.** -/
theorem polled_poll (hinv : LifecycleInv config p) (hended : p.ended = false) :
    Polled config p (p.lifecycle.poll p.now p.activity answer) := by
  rw [ConnectionLifecycle.poll]
  rcases hstate : p.lifecycle.state with _ | reason | ⟨grace, duration, reason⟩
  · exact polled_serving hinv hended hstate
  · exact polled_globalDraining hinv hended hstate
  · exact polled_draining hinv hended hstate

end Poll

/-! ## Runs -/

section Run

variable {config : LifecycleConfig} {p : Served}

/-- A request starts or finishes. -/
theorem LifecycleInv.activity (hinv : LifecycleInv config p) {ev : LifecycleEvent}
    {activity : ConnectionActivity} {live : List ℕ} {guards : ℕ}
    (hev : (∃ guard, ev = .started guard) ∨ ∃ guard, ev = .finished guard)
    (hcount : activity.inFlight = live.length) (hlive : live = liveGuards (p.record [ev]))
    (hepoch : activity.epoch = p.activity.epoch + 1) :
    LifecycleInv config
      { p with activity := activity, live := live, guards := guards, log := p.record [ev] } := by
  have hspent : ∀ f, spent f (p.record [ev]) = spent f p.log := by
    intro f
    rcases hev with ⟨guard, rfl⟩ | ⟨guard, rfl⟩
    · rfl
    · rfl
  have htriggers : triggers (p.record [ev]) = triggers p.log := by
    rcases hev with ⟨guard, rfl⟩ | ⟨guard, rfl⟩
    · rfl
    · rfl
  refine ⟨.cons ?_ hinv.orderly, ?_, ?_, hinv.age, hinv.idle, hinv.requests, fun hended => ?_,
    fun hended => ?_, hcount, hlive, fun hended tracker htracker => ?_⟩
  · rcases hev with ⟨guard, rfl⟩ | ⟨guard, rfl⟩
    · trivial
    · trivial
  · have hsame : gracefulShutdowns (p.record [ev]) = gracefulShutdowns p.log := by
      rcases hev with ⟨guard, rfl⟩ | ⟨guard, rfl⟩
      · rfl
      · rfl
    rw [hsame, htriggers]
    exact hinv.shutdowns
  · rw [firstTrigger, htriggers]
    exact hinv.reason
  · have hfits := hinv.state hended
    cases hstate : p.lifecycle.state with
    | serving =>
      rw [hstate] at hfits
      refine ⟨htriggers.trans hfits.1, fun f => ?_⟩
      rw [hspent]
      exact hfits.2 f
    | globalDraining reason =>
      rw [hstate] at hfits
      rw [ConnectionLifecycleState.Fits, hspent]
      exact hfits
    | draining grace duration reason =>
      rw [hstate] at hfits
      rw [ConnectionLifecycleState.Fits, htriggers, hspent, hspent, hspent]
      obtain ⟨htrig, hconn, hshutdown, hgrace, hof, σ, hmem, hdeadline⟩ := hfits
      exact ⟨htrig, hconn, hshutdown, hgrace, hof, σ, List.mem_cons_of_mem _ hmem, hdeadline⟩
  · refine closed_not_mem_record (hinv.running hended) fun c hmem => ?_
    obtain rfl := List.mem_singleton.mp hmem
    rcases hev with ⟨guard, heq⟩ | ⟨guard, heq⟩
    · cases heq
    · cases heq
  · obtain ⟨hle, -⟩ := hinv.epoch hended tracker htracker
    rw [hepoch]
    exact ⟨Nat.le_succ_of_le hle, fun heq => absurd heq (by omega)⟩

/-- **One step.** -/
theorem LifecycleInv.step (hinv : LifecycleInv config p) (a : ServeAction) :
    LifecycleInv config (p.step a) := by
  cases a with
  | poll answer =>
    rw [Served.step]
    split
    · exact hinv
    · rename_i hended
      have hpolled : Polled config p (p.lifecycle.poll p.now p.activity answer) :=
        polled_poll hinv (Bool.eq_false_iff.mpr hended)
      exact ⟨hpolled.orderly, hpolled.shutdowns, hpolled.reason, hpolled.age, hpolled.idle,
        hpolled.requests, hpolled.state, hpolled.running, hinv.inFlight,
        hinv.live.trans hpolled.live.symm, hpolled.epoch⟩
  | start =>
    refine hinv.activity (.inl ⟨p.guards, rfl⟩) ?_ ?_ rfl
    · rw [ConnectionActivity.requestStarted, List.length_cons, hinv.inFlight]
      exact (Int.natCast_succ _).symm
    · exact congrArg (p.guards :: ·) hinv.live
  | finish guard =>
    rw [Served.step]
    split
    · rename_i hmem
      refine hinv.activity (.inr ⟨guard, rfl⟩) ?_ ?_ rfl
      · have hpos : 0 < p.live.length := List.length_pos_of_mem hmem
        rw [ConnectionActivity.requestFinished, List.length_erase_of_mem hmem, hinv.inFlight]
        simp only
        omega
      · exact congrArg (fun live => live.erase guard) hinv.live
    · exact hinv
  | wait time => exact { hinv with }

/-- **Every run.** -/
theorem LifecycleInv.run : ∀ {acts : List ServeAction} {p : Served}, LifecycleInv config p →
    LifecycleInv config (p.run acts) := by
  intro acts
  induction acts with
  | nil => exact fun hinv => hinv
  | cons a acts ih => exact fun hinv => ih (hinv.step a)

/-- A connection that has just been accepted. -/
theorem lifecycleInv_accept (config : LifecycleConfig) (now : ℕ) :
    LifecycleInv config (config.accept now) := by
  have hlog : (config.accept now).log = [] ∨ (config.accept now).log = [(now, .armed .idle)] := by
    rw [LifecycleConfig.accept]
    rcases config.idle with _ | c
    · exact .inl rfl
    · exact .inr rfl
  refine ⟨?_, ?_, ?_, ?_, ?_, rfl, fun _ => ?_, fun _ t c hmem => ?_, rfl, ?_,
    fun _ tracker htracker => ?_⟩
  · rcases hlog with hlog | hlog
    · rw [hlog]
      exact .nil
    · rw [hlog]
      exact .cons trivial .nil
  · rcases hlog with hlog | hlog
    · rw [hlog]
      rfl
    · rw [hlog]
      rfl
  · rcases hlog with hlog | hlog
    · rw [hlog]
      rfl
    · rw [hlog]
      rfl
  · rw [LifecycleConfig.accept, LifecycleConfig.serve, Option.map_map]
    exact Option.map_id'
  · rw [LifecycleConfig.accept, LifecycleConfig.serve, Option.map_map]
    exact Option.map_id'
  · rcases hlog with hlog | hlog
    · rw [hlog]
      exact ⟨rfl, fun f => rfl⟩
    · rw [hlog]
      refine ⟨rfl, fun f => ?_⟩
      cases f <;> rfl
  · rcases hlog with hlog | hlog
    · rw [hlog] at hmem
      cases hmem
    · rw [hlog] at hmem
      cases List.mem_singleton.mp hmem
  · rcases hlog with hlog | hlog
    · rw [hlog]
      rfl
    · rw [hlog]
      rfl
  · rw [LifecycleConfig.accept, LifecycleConfig.serve] at htracker ⊢
    obtain ⟨c, hc, rfl⟩ := Option.map_eq_some_iff.mp htracker
    refine ⟨Nat.le_refl _, fun _ => ?_⟩
    rw [hc]
    rfl

end Run

/-! ## What is observed -/

/-- What holds of the log of a connection. -/
structure LifecycleContract (config : LifecycleConfig) (p : Served) : Prop where
  /-- the connection is told to wind down once, if there has been a trigger -/
  once : gracefulShutdowns p.log = min 1 (triggers p.log).length
  /-- that is on the first of them -/
  first : ∀ {after : LifecycleLog} {t : ℕ} {before : LifecycleLog},
    p.log = after ++ (t, .gracefulShutdown) :: before →
    ∃ e rest, before = e :: rest ∧ e.2.trigger.isSome = true ∧ triggers rest = []
  /-- the reason to wind down is the first trigger, and stays so -/
  reason : p.lifecycle.state.reason = firstTrigger p.log
  /-- the lifecycle ends with that reason, with an error if that is the reason, and by force only
  after a grace period and without a shutdown -/
  closing : ∀ {after : LifecycleLog} {t : ℕ} {c : ConnectionClosed} {before : LifecycleLog},
    p.log = after ++ (t, .closed c) :: before → Closing config t c before
  /-- no future is polled again that has completed, and none after the end -/
  polls : ∀ {after : LifecycleLog} {t : ℕ} {f : Signal} {ready : Bool} {before : LifecycleLog},
    p.log = after ++ (t, .polled f ready) :: before →
    spent f before = false ∧ ∀ t c, (t, .closed c) ∉ before
  /-- the lifecycle ends once -/
  ends : ∀ {after : LifecycleLog} {t : ℕ} {c : ConnectionClosed} {before : LifecycleLog},
    p.log = after ++ (t, .closed c) :: before → ∀ t c, (t, .closed c) ∉ before

/-- **The lifecycle of a connection**, over any schedule of what it polls and of its requests. -/
theorem connection_lifecycle (config : LifecycleConfig) (now : ℕ) (acts : List ServeAction) :
    LifecycleContract config ((config.accept now).run acts) := by
  have hinv : LifecycleInv config ((config.accept now).run acts) :=
    (lifecycleInv_accept config now).run
  have horderly := hinv.orderly
  refine ⟨hinv.shutdowns, fun hsplit => ?_, hinv.reason, fun hsplit => ?_, fun hsplit => ?_,
    fun hsplit => ?_⟩
  · rw [hsplit] at horderly
    exact horderly.allowed
  · rw [hsplit] at horderly
    exact horderly.allowed.1
  · rw [hsplit] at horderly
    exact horderly.allowed
  · rw [hsplit] at horderly
    exact horderly.allowed.2

end ConnectRpc
