import ConnectRpc.LifecycleRun

/-!
# Idle connections

When a connection is retired because it is idle: only if nothing has been in flight, started or
finished for a whole window, and, if the lifecycle is polled whenever its timer fires, within two
windows after the latest request. The epoch that tells activity is unbounded here, which is to say
that fewer than 2⁶⁴ requests start or end within one window.
-/

namespace ConnectRpc

/-! ## Activity -/

/-- When a request last started or finished. -/
def lastActivity : LifecycleLog → Option ℕ
  | [] => none
  | (t, .started _) :: _ => some t
  | (t, .finished _) :: _ => some t
  | _ :: log => lastActivity log

/-- Whether an event has nothing to do with activity and with the end of idle windows. -/
def LifecycleEvent.neutral : LifecycleEvent → Bool
  | window quiet => !quiet
  | armed .idle => false
  | started _ => false
  | finished _ => false
  | _ => true

/-- Time does not pass the moment at which the idle timer fires, before the lifecycle is polled. -/
def Served.InTime (p : Served) : ServeAction → Prop
  | .wait time => p.ended = false → p.lifecycle.state = .serving →
      ∀ tracker, p.lifecycle.idle = some tracker → p.now + time ≤ tracker.timer.deadline
  | _ => True

/-- In no step of a run. -/
def Served.Prompt (p : Served) : List ServeAction → Prop
  | [] => True
  | a :: acts => p.InTime a ∧ (p.step a).Prompt acts

section Neutral

variable {t : ℕ} {ev : LifecycleEvent} {log : LifecycleLog}

theorem undisturbed_neutral (h : ev.neutral = true) :
    undisturbed ((t, ev) :: log) = undisturbed log := by
  cases ev with
  | armed f =>
    cases f with
    | idle => cases h
    | _ => rfl
  | started guard => cases h
  | finished guard => cases h
  | _ => rfl

theorem lastActivity_neutral (h : ev.neutral = true) :
    lastActivity ((t, ev) :: log) = lastActivity log := by
  cases ev with
  | started guard => cases h
  | finished guard => cases h
  | _ => rfl

end Neutral

theorem undisturbed_append {now : ℕ} {log : LifecycleLog} : ∀ {evs : List LifecycleEvent},
    (∀ ev ∈ evs, ev.neutral = true) →
    undisturbed (evs.map (now, ·) ++ log) = undisturbed log := by
  intro evs
  induction evs with
  | nil => exact fun _ => rfl
  | cons ev evs ih =>
    intro h
    rw [List.map_cons, List.cons_append, undisturbed_neutral (h ev List.mem_cons_self)]
    exact ih fun ev' hev' => h ev' (List.mem_cons_of_mem _ hev')

theorem lastActivity_append {now : ℕ} {log : LifecycleLog} : ∀ {evs : List LifecycleEvent},
    (∀ ev ∈ evs, ev.neutral = true) →
    lastActivity (evs.map (now, ·) ++ log) = lastActivity log := by
  intro evs
  induction evs with
  | nil => exact fun _ => rfl
  | cons ev evs ih =>
    intro h
    rw [List.map_cons, List.cons_append, lastActivity_neutral (h ev List.mem_cons_self)]
    exact ih fun ev' hev' => h ev' (List.mem_cons_of_mem _ hev')

/-! ## What a poll does about the idle window -/

/-- What a poll does about the idle window: nothing, or it arms it again, or it retires the
connection. -/
inductive IdlePoll (l : ConnectionLifecycle) (now : ℕ) (activity : ConnectionActivity) :
    ConnectionLifecycle × List LifecycleEvent → Prop where
  | same {r} : (∀ ev ∈ r.2, ev.neutral = true) → r.1.idle = l.idle →
    (r.1.state = .serving → l.state = .serving) → IdlePoll l now activity r
  | rearmed {tracker l'} : l.state = .serving → l.idle = some tracker →
    tracker.timer.deadline ≤ now →
    ¬ (activity.inFlight = 0 ∧ activity.epoch = tracker.armedEpoch) →
    l'.idle = some ⟨tracker.config, ⟨now + tracker.config.idle⟩, activity.epoch⟩ →
    l'.state = .serving →
    IdlePoll l now activity (l', [.armed .idle, .window false, .polled .idle true])
  | retired {tracker l'} : l.state = .serving → l.idle = some tracker →
    tracker.timer.deadline ≤ now → activity.inFlight = 0 ∧ activity.epoch = tracker.armedEpoch →
    l'.idle = l.idle → l'.state ≠ .serving →
    IdlePoll l now activity
      (l', [.armed .grace, .gracefulShutdown, .window true, .polled .idle true])

section Poll

variable (l : ConnectionLifecycle) (now : ℕ) (activity : ConnectionActivity)
  (answer : Option (Except ConnectionError Unit))

/-- A timer that is ready has passed its deadline. -/
theorem Sleep.deadline_le {sleep : Sleep} {now : ℕ} {fires : Bool}
    (h : sleep.isReady now fires = true) : sleep.deadline ≤ now := by
  rw [Sleep.isReady, Bool.and_eq_true] at h
  exact of_decide_eq_true h.2

theorem idlePoll_serving (hstate : l.state = .serving) :
    IdlePoll l now activity (l.pollServing now activity answer) := by
  have hsame : ∀ {r : ConnectionLifecycle × List LifecycleEvent},
      (∀ ev ∈ r.2, ev.neutral = true) → r.1.idle = l.idle → IdlePoll l now activity r :=
    fun hevs hidle => .same hevs hidle fun _ => hstate
  unfold ConnectionLifecycle.pollServing
  rcases hnext : l.next with _ | _ | _ | _ | _ | _
  · rcases answer with _ | result
    · exact hsame (by simp [LifecycleEvent.neutral]) rfl
    · exact hsame (by simp [LifecycleEvent.neutral]) rfl
  · simp only
    split
    · exact hsame (by simp [LifecycleEvent.neutral]) rfl
    · exact hsame (by simp [LifecycleEvent.neutral]) rfl
  · simp only
    split
    · exact hsame (by simp) rfl
    · split
      · exact hsame (by simp [LifecycleEvent.neutral]) rfl
      · exact hsame (by simp [LifecycleEvent.neutral]) rfl
  · simp only
    rcases hidle : l.idle with _ | tracker
    · exact hsame (by simp) rfl
    · simp only
      split
      · rename_i hready
        split
        · rename_i hwindow
          exact .retired hstate hidle (Sleep.deadline_le hready) hwindow rfl
            fun hserving => by cases hserving
        · rename_i hwindow
          exact .rearmed hstate hidle (Sleep.deadline_le hready) hwindow rfl hstate
      · exact hsame (by simp [LifecycleEvent.neutral]) rfl
  · simp only
    split
    · exact hsame (by simp) rfl
    · split
      · exact hsame (by simp [LifecycleEvent.neutral]) rfl
      · exact hsame (by simp [LifecycleEvent.neutral]) rfl
  · exact hsame (by simp) rfl

/-- **A poll.** -/
theorem idlePoll : IdlePoll l now activity (l.poll now activity answer) := by
  have hno : ∀ {r : ConnectionLifecycle × List LifecycleEvent},
      (∀ ev ∈ r.2, ev.neutral = true) → r.1.idle = l.idle → r.1.state ≠ .serving →
      IdlePoll l now activity r :=
    fun hevs hidle hstate => .same hevs hidle fun hserving => absurd hserving hstate
  rw [ConnectionLifecycle.poll]
  rcases hstate : l.state with _ | reason | ⟨grace, duration, reason⟩
  · exact idlePoll_serving l now activity answer hstate
  · have hne : l.state ≠ .serving := by
      rw [hstate]
      exact fun h => by cases h
    rcases answer with _ | result
    · exact hno (by simp [ConnectionLifecycle.pollGlobalDraining, LifecycleEvent.neutral]) rfl hne
    · exact hno (by simp [ConnectionLifecycle.pollGlobalDraining, LifecycleEvent.neutral]) rfl hne
  · have hne : l.state ≠ .serving := by
      rw [hstate]
      exact fun h => by cases h
    simp only
    unfold ConnectionLifecycle.pollDraining
    rcases hnext : l.next with _ | _ | _ | _ | _ | _
    · rcases answer with _ | result
      · exact hno (by simp [LifecycleEvent.neutral]) rfl hne
      · exact hno (by simp [LifecycleEvent.neutral]) rfl hne
    · simp only
      split
      · exact hno (by simp [LifecycleEvent.neutral]) rfl fun h => by cases h
      · exact hno (by simp [LifecycleEvent.neutral]) rfl hne
    · exact hno (by simp) rfl hne
    · exact hno (by simp) rfl hne
    · exact hno (by simp) rfl hne
    · simp only
      split
      · exact hno (by simp [LifecycleEvent.neutral]) rfl hne
      · exact hno (by simp [LifecycleEvent.neutral]) rfl hne

end Poll

/-! ## The idle window -/

/-- The current window, armed at time `armed`: what has happened in it and before. -/
structure Window (p : Served) (tracker : IdleTracker) (armed : ℕ) : Prop where
  /-- when it passes -/
  deadline : tracker.timer.deadline = armed + tracker.config.idle
  /-- it is not armed in the future -/
  past : armed ≤ p.now
  /-- the epoch has not changed while it is undisturbed -/
  epoch : undisturbed p.log = true → tracker.armedEpoch = p.activity.epoch
  /-- while it is undisturbed, the latest activity was before it, and in the window before if
  nothing is in flight -/
  quiet : undisturbed p.log = true → ∀ t, lastActivity p.log = some t →
    t ≤ armed ∧ (p.live = [] → armed ≤ t + tracker.config.idle)
  /-- otherwise it was in it -/
  busy : undisturbed p.log = false → ∃ t, lastActivity p.log = some t ∧ armed ≤ t

/-- What holds of a connection whose lifecycle is polled whenever its idle timer fires. -/
structure IdleInv (idle : ℕ) (p : Served) : Prop where
  /-- nothing has happened in the future -/
  past : ∀ t, lastActivity p.log = some t → t ≤ p.now
  /-- the current window -/
  window : p.ended = false → ∀ tracker, p.lifecycle.idle = some tracker →
    ∃ armed, Window p tracker armed
  /-- it has not passed -/
  inTime : p.ended = false → p.lifecycle.state = .serving → ∀ tracker,
    p.lifecycle.idle = some tracker → p.now ≤ tracker.timer.deadline
  /-- a connection that is retired as idle is retired in time -/
  timely : ∀ {after : LifecycleLog} {time : ℕ} {before : LifecycleLog},
    p.log = after ++ (time, .window true) :: before → ∀ t, lastActivity before = some t →
    t + idle ≤ time ∧ time ≤ t + 2 * idle

/-- Other events leave the windows alone in which the connection was retired. -/
theorem window_of_append {now : ℕ} {log : LifecycleLog} : ∀ {evs : List LifecycleEvent},
    (∀ ev ∈ evs, ev ≠ .window true) → ∀ {after : LifecycleLog} {time : ℕ} {before : LifecycleLog},
    evs.map (now, ·) ++ log = after ++ (time, .window true) :: before →
    ∃ after', log = after' ++ (time, .window true) :: before := by
  intro evs
  induction evs with
  | nil => exact fun _ _ _ _ hsplit => ⟨_, hsplit⟩
  | cons ev evs ih =>
    intro hevs after time before hsplit
    rcases after with _ | ⟨e, after⟩
    · obtain ⟨heq, -⟩ := List.cons.inj hsplit
      obtain ⟨-, rfl⟩ := Prod.mk.inj heq
      exact absurd rfl (hevs _ List.mem_cons_self)
    · obtain ⟨-, hrest⟩ := List.cons.inj hsplit
      exact ih (fun ev' hev' => hevs ev' (List.mem_cons_of_mem _ hev')) hrest

section Step

variable {config : LifecycleConfig} {c : IdleConfig} {p : Served}

theorem IdleInv.timely_append {idle : ℕ} (hidle : IdleInv idle p) {evs : List LifecycleEvent}
    (hevs : ∀ ev ∈ evs, ev ≠ .window true) {after : LifecycleLog} {time : ℕ} {before : LifecycleLog}
    (hsplit : p.record evs = after ++ (time, .window true) :: before) {t : ℕ}
    (ht : lastActivity before = some t) : t + idle ≤ time ∧ time ≤ t + 2 * idle := by
  obtain ⟨after', hlog⟩ := window_of_append hevs hsplit
  exact hidle.timely hlog t ht

/-- **A poll.** -/
theorem IdleInv.poll (hinv : LifecycleInv config p) (hc : config.idle = some c)
    (hidle : IdleInv c.idle p) (answer : Option (Except ConnectionError Unit)) :
    IdleInv c.idle (p.step (.poll answer)) := by
  have hconfig : ∀ tracker, p.lifecycle.idle = some tracker → tracker.config = c := by
    intro tracker htracker
    have hsame := hinv.idle
    rw [htracker, hc] at hsame
    exact Option.some.inj hsame
  rw [Served.step]
  split
  · exact hidle
  · rename_i hrunning
    have hended : p.ended = false := Bool.eq_false_iff.mpr hrunning
    have hpoll := idlePoll p.lifecycle p.now p.activity answer
    generalize p.lifecycle.poll p.now p.activity answer = r at hpoll
    cases hpoll with
    | same hevs hsame hserving =>
      have hundisturbed : undisturbed (p.record r.2) = undisturbed p.log := undisturbed_append hevs
      have hlast : lastActivity (p.record r.2) = lastActivity p.log := lastActivity_append hevs
      have hwindow : ∀ ev ∈ r.2, ev ≠ .window true := by
        rintro ev hev rfl
        cases hevs _ hev
      refine ⟨fun t ht => ?_, fun _ tracker htracker => ?_, fun _ hstate tracker htracker => ?_,
        fun hsplit t ht => hidle.timely_append hwindow hsplit ht⟩
      · exact hidle.past t (hlast.symm.trans ht)
      · obtain ⟨armed, hw⟩ := hidle.window hended tracker (hsame.symm.trans htracker)
        refine ⟨armed, hw.deadline, hw.past, fun hu => hw.epoch (hundisturbed.symm.trans hu),
          fun hu t ht => hw.quiet (hundisturbed.symm.trans hu) t (hlast.symm.trans ht), fun hu => ?_⟩
        obtain ⟨t, ht, hle⟩ := hw.busy (hundisturbed.symm.trans hu)
        exact ⟨t, hlast.trans ht, hle⟩
      · exact hidle.inTime hended (hserving hstate) tracker (hsame.symm.trans htracker)
    | @rearmed tracker l' hstate htracker hpassed hbusy hrearmed hstate' =>
      obtain ⟨armed, hw⟩ := hidle.window hended tracker htracker
      have hintime := hidle.inTime hended hstate tracker htracker
      refine ⟨hidle.past, fun _ tracker' htracker' => ⟨p.now, ?_⟩,
        fun _ _ tracker' htracker' => ?_, fun hsplit t ht => ?_⟩
      · obtain rfl := Option.some.inj (hrearmed.symm.trans htracker')
        refine ⟨rfl, Nat.le_refl _, fun _ => rfl, fun _ t ht => ⟨hidle.past t ht, fun hlive => ?_⟩,
          fun hu => by cases hu⟩
        -- nothing is in flight, so there has been activity in the window that is over
        have hdisturbed : undisturbed p.log = false := by
          refine Bool.eq_false_iff.mpr fun hu => hbusy ⟨?_, (hw.epoch hu).symm⟩
          rw [hinv.inFlight, show p.live = [] from hlive]
          rfl
        obtain ⟨t', ht', hle⟩ := hw.busy hdisturbed
        obtain rfl := Option.some.inj (ht'.symm.trans ht)
        have hdeadline := hw.deadline
        simp only
        omega
      · obtain rfl := Option.some.inj (hrearmed.symm.trans htracker')
        exact Nat.le_add_right _ _
      · refine hidle.timely_append (fun ev hev => ?_) hsplit ht
        rintro rfl
        simp only [List.mem_cons, List.not_mem_nil, or_false, reduceCtorEq,
          LifecycleEvent.window.injEq] at hev
    | @retired tracker l' hstate htracker hpassed hquiet hsame hstate' =>
      obtain ⟨armed, hw⟩ := hidle.window hended tracker htracker
      have hintime := hidle.inTime hended hstate tracker htracker
      have hundisturbed : undisturbed p.log = true :=
        (hinv.epoch hended tracker htracker).2 hquiet.2.symm
      have hlive : p.live = [] := by
        have hzero : (p.live.length : ℤ) = 0 := hinv.inFlight.symm.trans hquiet.1
        exact List.length_eq_zero_iff.mp (Int.ofNat_eq_zero.mp hzero)
      refine ⟨hidle.past, fun _ tracker' htracker' => ?_, fun _ hserving => absurd hserving hstate',
        fun {after time before} hsplit t ht => ?_⟩
      · obtain rfl := Option.some.inj (htracker.symm.trans (hsame.symm.trans htracker'))
        exact ⟨armed, hw.deadline, hw.past, hw.epoch, hw.quiet, hw.busy⟩
      · rcases after with _ | ⟨e₁, _ | ⟨e₂, _ | ⟨e₃, after⟩⟩⟩
        · cases (List.cons.inj hsplit).1
        · cases (List.cons.inj (List.cons.inj hsplit).2).1
        · obtain ⟨heq, rfl⟩ := List.cons.inj (List.cons.inj (List.cons.inj hsplit).2).2
          obtain ⟨rfl, -⟩ := Prod.mk.inj heq
          obtain ⟨hle, hnear⟩ := hw.quiet hundisturbed t ht
          have hnear' := hnear hlive
          have hdeadline := hw.deadline
          rw [hconfig tracker htracker] at hnear' hdeadline
          omega
        · -- the window is an earlier one
          have hrest := (List.cons.inj (List.cons.inj (List.cons.inj hsplit).2).2).2
          have hpolled : ∀ ev ∈ [LifecycleEvent.polled .idle true], ev ≠ .window true := by
            rintro ev hev rfl
            cases List.mem_singleton.mp hev
          exact hidle.timely_append hpolled hrest ht

/-- A request starts or finishes. -/
theorem IdleInv.activity {idle : ℕ} (hidle : IdleInv idle p) {ev : LifecycleEvent}
    {activity : ConnectionActivity} {live : List ℕ} {guards : ℕ}
    (hev : (∃ guard, ev = .started guard) ∨ ∃ guard, ev = .finished guard) :
    IdleInv idle
      { p with activity := activity, live := live, guards := guards, log := p.record [ev] } := by
  have hlast : lastActivity (p.record [ev]) = some p.now := by
    rcases hev with ⟨guard, rfl⟩ | ⟨guard, rfl⟩
    · rfl
    · rfl
  have hdisturbed : undisturbed (p.record [ev]) = false := by
    rcases hev with ⟨guard, rfl⟩ | ⟨guard, rfl⟩
    · rfl
    · rfl
  refine ⟨fun t ht => ?_, fun hended tracker htracker => ?_, hidle.inTime, fun hsplit t ht => ?_⟩
  · obtain rfl := Option.some.inj (hlast.symm.trans ht)
    exact Nat.le_refl _
  · obtain ⟨armed, hw⟩ := hidle.window hended tracker htracker
    exact ⟨armed, hw.deadline, hw.past, (fun hu => by cases hdisturbed.symm.trans hu),
      (fun hu => by cases hdisturbed.symm.trans hu), fun _ => ⟨p.now, hlast, hw.past⟩⟩
  · refine hidle.timely_append (fun ev' hev' => ?_) hsplit ht
    obtain rfl := List.mem_singleton.mp hev'
    rcases hev with ⟨guard, rfl⟩ | ⟨guard, rfl⟩
    · exact fun heq => by cases heq
    · exact fun heq => by cases heq

/-- **One step.** -/
theorem IdleInv.step (hinv : LifecycleInv config p) (hc : config.idle = some c)
    (hidle : IdleInv c.idle p) {a : ServeAction} (ha : p.InTime a) : IdleInv c.idle (p.step a) := by
  cases a with
  | poll answer => exact hidle.poll hinv hc answer
  | start => exact hidle.activity (.inl ⟨p.guards, rfl⟩)
  | finish guard =>
    rw [Served.step]
    split
    · exact hidle.activity (.inr ⟨guard, rfl⟩)
    · exact hidle
  | wait time =>
    refine ⟨fun t ht => Nat.le_add_right_of_le (hidle.past t ht), fun hended tracker htracker => ?_,
      ha, hidle.timely⟩
    obtain ⟨armed, hw⟩ := hidle.window hended tracker htracker
    exact ⟨armed, hw.deadline, Nat.le_add_right_of_le hw.past, hw.epoch, hw.quiet, hw.busy⟩

/-- **Every run** in which the lifecycle is polled in time. -/
theorem IdleInv.run (hc : config.idle = some c) : ∀ {acts : List ServeAction} {p : Served},
    LifecycleInv config p → IdleInv c.idle p → p.Prompt acts → IdleInv c.idle (p.run acts) := by
  intro acts
  induction acts with
  | nil => exact fun _ hidle _ => hidle
  | cons a acts ih =>
    intro p hinv hidle hprompt
    exact ih (hinv.step a) (hidle.step hinv hc hprompt.1) hprompt.2

end Step

/-! ## What is observed -/

end ConnectRpc
