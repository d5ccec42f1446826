import ConnectRpc.AcceptLoop
import ConnectRpc.LifecycleRun

/-!
# Runs of the accept loop

What every turn of the loop and of a task keeps, and what none of them takes from the others. From
it, every history of `serve_with_listener` is lawful (`accept_loop`), whatever is polled when and
whatever the world answers; and once the connections have ended, the loop that drains them returns
(`drain_returns`).
-/

namespace ConnectRpc

open Lib

/-! ## Histories -/

section Histories

variable {log new : AcceptHistory} {ev : AcceptEvent} {e : ℕ × AcceptEvent} {i : ℕ}

@[simp] theorem happened_nil : ¬Happened [] ev := by
  simp [Happened]

@[simp] theorem happened_cons : Happened (e :: log) ev ↔ e.2 = ev ∨ Happened log ev := by
  obtain ⟨t, ev'⟩ := e
  constructor
  · rintro ⟨t', hmem⟩
    rcases List.mem_cons.mp hmem with heq | hmem
    · exact .inl (Prod.mk.inj heq).2.symm
    · exact .inr ⟨t', hmem⟩
  · rintro (rfl | ⟨t', hmem⟩)
    · exact ⟨t, List.mem_cons_self⟩
    · exact ⟨t', List.mem_cons_of_mem _ hmem⟩

theorem happened_append : Happened (new ++ log) ev ↔ Happened new ev ∨ Happened log ev := by
  simp only [Happened, List.mem_append, exists_or]

/-- What has happened is not undone. -/
theorem Happened.mono (h : Happened log ev) : Happened (new ++ log) ev :=
  happened_append.mpr (.inr h)

theorem LoopGone.mono (h : LoopGone log) : LoopGone (new ++ log) := by
  rcases h with h | ⟨result, h⟩
  · exact .inl h.mono
  · exact .inr ⟨result, h.mono⟩

@[simp] theorem loopGone_cons : LoopGone (e :: log) ↔
    (e.2 = .dropped ∨ ∃ result, e.2 = .returned result) ∨ LoopGone log := by
  simp only [LoopGone, happened_cons, exists_or]
  tauto

@[simp] theorem accepting_cons : Accepting (e :: log) ↔
    (e.2 ≠ .noticed ∧ e.2 ≠ .dropped ∧ ∀ result, e.2 ≠ .returned result) ∧ Accepting log := by
  simp only [Accepting, happened_cons, loopGone_cons, not_or, not_exists]
  tauto

/-- Who does something: the loop is the process with the number zero. -/
def AcceptEvent.owner : AcceptEvent → Option ℕ
  | fired => none
  | requested i => some i
  | lifecycle i _ => some i
  | ended i _ => some i
  | _ => some 0

/-- What others do, does not happen to one. -/
theorem happened_foreign (h : ∀ e ∈ new, e.2.owner ≠ ev.owner) :
    Happened (new ++ log) ev ↔ Happened log ev := by
  refine happened_append.trans (or_iff_right ?_)
  rintro ⟨t, hmem⟩
  exact h _ hmem rfl

/-- The loop is gone if it was, as far as the others are concerned. -/
theorem loopGone_foreign (h : ∀ e ∈ new, e.2.owner ≠ some 0) :
    LoopGone (new ++ log) ↔ LoopGone log := by
  simp only [LoopGone, @happened_foreign _ _ .dropped h,
    @happened_foreign _ _ (.returned _) h]

theorem accepting_foreign (h : ∀ e ∈ new, e.2.owner ≠ some 0) :
    Accepting (new ++ log) ↔ Accepting log := by
  simp only [Accepting, @happened_foreign _ _ .noticed h, loopGone_foreign h]

theorem failed_foreign (h : ∀ e ∈ new, e.2.owner ≠ some 0) {t : ℕ} {err : AcceptError} :
    (t, .failed err) ∈ new ++ log ↔ (t, .failed err) ∈ log := by
  refine List.mem_append.trans (or_iff_right fun hmem => ?_)
  exact h _ hmem rfl

theorem late_foreign : ∀ {new : AcceptHistory}, (∀ e ∈ new, e.2.owner ≠ some 0) →
    late (new ++ log) = late log := by
  intro new
  induction new with
  | nil => exact fun _ => rfl
  | cons e new ih =>
    intro h
    have hrest := ih fun e' he' => h e' (List.mem_cons_of_mem _ he')
    have howner := h e List.mem_cons_self
    obtain ⟨t, ev⟩ := e
    cases ev with
    | accepted _ => exact absurd rfl howner
    | failed _ => exact absurd rfl howner
    | _ => exact hrest

/-- The listener has not answered since the shutdown signal resolved if that has not happened. -/
theorem late_of_not_fired (h : ¬Happened log .fired) : late log = false := by
  induction log with
  | nil => rfl
  | cons e log ih =>
    rw [happened_cons, not_or] at h
    have hrest := ih h.2
    have hany : (log.any fun e => e.2.isFired) = false := by
      rw [List.any_eq_false]
      rintro ⟨t, ev⟩ hmem hev
      apply h.2
      cases ev with
      | fired => exact ⟨t, hmem⟩
      | _ => cases hev
    obtain ⟨t, ev⟩ := e
    cases ev with
    | accepted _ =>
      rw [late, hany, hrest]
      rfl
    | failed _ =>
      rw [late, hany, hrest]
      rfl
    | _ => exact hrest

theorem lifecycleOf_append :
    lifecycleOf i (new ++ log) = lifecycleOf i new ++ lifecycleOf i log :=
  List.filterMap_append

theorem lifecycleOf_foreign (h : ∀ e ∈ new, e.2.owner ≠ some i) :
    lifecycleOf i (new ++ log) = lifecycleOf i log := by
  have hnone : lifecycleOf i new = [] := by
    rw [lifecycleOf, List.filterMap_eq_nil_iff]
    rintro ⟨t, ev⟩ hmem
    have howner := h _ hmem
    cases ev with
    | lifecycle j ev => exact if_neg fun hj => howner (congrArg some hj)
    | _ => rfl
  rw [lifecycleOf_append, hnone, List.nil_append]

theorem requestsOf_append :
    requestsOf i (new ++ log) = requestsOf i new + requestsOf i log :=
  List.countP_append

theorem requestsOf_foreign (h : ∀ e ∈ new, e.2.owner ≠ some i) :
    requestsOf i (new ++ log) = requestsOf i log := by
  have hnone : requestsOf i new = 0 := by
    rw [requestsOf, List.countP_eq_zero]
    rintro ⟨t, ev⟩ hmem hcount
    have howner := h _ hmem
    cases ev with
    | requested j =>
      apply howner
      simpa [AcceptEvent.owner] using hcount
    | _ => cases hcount
  rw [requestsOf_append, hnone, Nat.zero_add]

/-- What a task reports of its lifecycle. -/
theorem lifecycleOf_report (new : LifecycleLog) :
    lifecycleOf i (new.map fun e => (e.1, .lifecycle i e.2)) = new := by
  rw [lifecycleOf, List.filterMap_map]
  simp

end Histories

/-! ## Requests are counted -/

/-- A counter that has counted some requests. -/
def RequestCounter.counted (max : NonZeroU64) (n : ℕ) : RequestCounter :=
  ⟨.ofNat n, max, decide (max.val.toNat ≤ n)⟩

/-- **A counter tells whether the maximum has been reached**, even after it has wrapped around. -/
theorem RequestCounter.recordRequest_counted (max : NonZeroU64) (n : ℕ) :
    (counted max n).recordRequest = counted max (n + 1) := by
  have hmax : max.val.toNat < UInt64.size := max.val.toNat_lt_size
  have hnat : (UInt64.ofNat n).toNat = n % UInt64.size := UInt64.toNat_ofNat
  have hserved : UInt64.ofNat n + 1 = UInt64.ofNat (n + 1) := by
    rw [UInt64.ofNat_add]
    rfl
  have hretire : (decide (max.val.toNat ≤ n) ||
      decide (max.val.toNat ≤ min (n % UInt64.size + 1) (UInt64.size - 1))) =
      decide (max.val.toNat ≤ n + 1) := by
    rw [← Bool.decide_or, decide_eq_decide]
    rcases Nat.lt_or_ge n UInt64.size with hlt | hge
    · rw [Nat.mod_eq_of_lt hlt]
      omega
    · omega
  simp only [counted, recordRequest, hnat, hserved, hretire]

/-! ## Lifecycles are configured -/

/-- The jitter of the age never panics. -/
theorem ConnectionConfig.exists_lifecycle (config : ConnectionConfig) (sample : UInt64) :
    ∃ lifecycle, config.lifecycle sample = some lifecycle := by
  rcases hage : config.maxConnectionAge with _ | age
  · simp [lifecycle, hage]
  · obtain ⟨d, hd, -⟩ := jitterConnectionAge_eq age sample
    simp [lifecycle, hage, hd]

/-! ## Steps of a lifecycle -/

section Steps

variable {p : Served}

/-- What a poll observes of a channel or a timer, it has polled, with an answer. -/
theorem mem_poll_polled {l : ConnectionLifecycle} {now : ℕ} {activity : ConnectionActivity}
    {answer : Option (Except ConnectionError Unit)} {f : Signal} (hf : f ≠ .conn)
    (h : .polled f true ∈ (l.poll now activity answer).2) : l.next = f ∧ answer.isSome = true := by
  unfold ConnectionLifecycle.poll at h
  rcases hstate : l.state with _ | reason | ⟨grace, duration, reason⟩
  · rw [hstate] at h
    simp only [ConnectionLifecycle.pollServing] at h
    rcases hnext : l.next with _ | _ | _ | _ | _ | _
    all_goals
      simp only [hnext] at h
      repeat' split at h
      all_goals simp_all [Sleep.isReady]
  · rw [hstate] at h
    simp only [ConnectionLifecycle.pollGlobalDraining] at h
    split at h
    · exact absurd (by simpa using h) hf
    · simp at h
  · rw [hstate] at h
    simp only [ConnectionLifecycle.pollDraining] at h
    rcases hnext : l.next with _ | _ | _ | _ | _ | _
    all_goals
      simp only [hnext] at h
      repeat' split at h
      all_goals simp_all [Sleep.isReady]

/-- A lifecycle that ends says so. -/
theorem exists_of_endsWith {evs : List LifecycleEvent} (h : endsWith evs = true) :
    ∃ c, .closed c ∈ evs := by
  rw [endsWith, List.any_eq_true] at h
  obtain ⟨ev, hmem, hev⟩ := h
  cases ev with
  | closed c => exact ⟨c, hmem⟩
  | _ => cases hev

/-- What a step adds to the log, and when. -/
structure Adds (p p' : Served) (new : LifecycleLog) : Prop where
  /-- it is added -/
  log : p'.log = new ++ p.log
  /-- now -/
  now : ∀ e ∈ new, e.1 = p'.now
  /-- a lifecycle that ends says so -/
  ends : p.ended = false → p'.ended = true → ∃ t c, (t, .closed c) ∈ new

/-- Every step adds to the log. -/
theorem exists_adds (p : Served) (a : ServeAction) :
    ∃ new, Adds p (p.step a) new ∧
      ∀ t f, f ≠ .conn → (t, .polled f true) ∈ new →
        ∃ answer, a = .poll answer ∧ answer.isSome = true ∧ p.lifecycle.next = f := by
  cases a with
  | poll answer =>
    rw [Served.step]
    split
    · rename_i hended
      exact ⟨[], ⟨rfl, by simp, fun h => absurd (h.symm.trans hended) (by simp)⟩, by simp⟩
    · refine ⟨(p.lifecycle.poll p.now p.activity answer).2.map (p.now, ·), ⟨rfl, by simp, ?_⟩, ?_⟩
      · intro _ hended
        obtain ⟨c, hmem⟩ := exists_of_endsWith hended
        exact ⟨p.now, c, List.mem_map_of_mem hmem⟩
      · intro t f hf hmem
        obtain ⟨ev, hmem, heq⟩ := List.mem_map.mp hmem
        obtain ⟨-, rfl⟩ := Prod.mk.inj heq
        obtain ⟨hnext, hsome⟩ := mem_poll_polled hf hmem
        exact ⟨answer, rfl, hsome, hnext⟩
  | start => exact ⟨[(p.now, .started p.guards)], ⟨rfl, by simp [Served.step], fun h h' => absurd
      (h.symm.trans h') (by simp)⟩, by simp⟩
  | finish guard =>
    rw [Served.step]
    split
    · exact ⟨[(p.now, .finished guard)], ⟨rfl, by simp, fun h h' => absurd (h.symm.trans h')
        (by simp)⟩, by simp⟩
    · exact ⟨[], ⟨rfl, by simp, fun h h' => absurd (h.symm.trans h') (by simp)⟩, by simp⟩
  | wait time => exact ⟨[], ⟨rfl, by simp, fun h h' => absurd (h.symm.trans h') (by simp)⟩, by simp⟩

/-- Nothing takes time but to wait. -/
theorem Served.now_step (p : Served) {a : ServeAction} (ha : ∀ time, a ≠ .wait time) :
    (p.step a).now = p.now := by
  cases a with
  | poll answer =>
    rw [step]
    split
    · rfl
    · rfl
  | start => rfl
  | finish guard =>
    rw [step]
    split
    · rfl
    · rfl
  | wait time => exact absurd rfl (ha time)

theorem newEvents_eq {before after new : LifecycleLog} (h : after = new ++ before) :
    newEvents before after = new := by
  subst h
  simp [newEvents]

end Steps

/-! ## What is shared -/

section Invariant

variable {setup : AcceptSetup} {s s' : AcceptShared} {n i : ℕ}

/-- What holds of what is shared by `n` processes. -/
structure AcceptInv (setup : AcceptSetup) (n : ℕ) (s : AcceptShared) : Prop where
  /-- each event was allowed -/
  ordered : Ordered setup.AcceptAllowed s.history
  /-- nothing has happened in the future -/
  past : ∀ e ∈ s.history, e.1 ≤ s.now
  /-- the connections are numbered -/
  accepted : ∀ j, Happened s.history (.accepted j) ↔ 0 < j ∧ j < n
  /-- the shutdown signal -/
  fired : s.fired = true ↔ Happened s.history .fired
  /-- the channel of the shutdown -/
  ready : s.globalShutdownReady = true → Happened s.history .signalled ∨ LoopGone s.history
  /-- the results of tasks -/
  ended : ∀ i, i ∈ s.ended ↔ ∃ why, Happened s.history (.ended i why)
  /-- the tasks that are to be aborted -/
  aborting : ∀ i ∈ s.aborting, Happened s.history .dropped ∧ ¬Happened s.history (.joined i)

/-- A connection has been accepted before anything happens in its lifecycle. -/
theorem AcceptInv.lifecycleOf_eq_nil (hinv : AcceptInv setup n s)
    (hnew : ¬Happened s.history (.accepted i)) : lifecycleOf i s.history = [] := by
  rw [lifecycleOf, List.filterMap_eq_nil_iff]
  rintro ⟨t, ev⟩ hmem
  cases ev with
  | lifecycle j ev =>
    refine if_neg ?_
    rintro rfl
    obtain ⟨after, before, hsplit⟩ := List.append_of_mem hmem
    have hallowed := (ordered_iff.mp hinv.ordered after _ before hsplit).2
    apply hnew
    rw [hsplit, List.append_cons]
    exact hallowed.1.1.mono
  | _ => rfl

/-- Who has a history has been accepted. -/
theorem AcceptInv.accepted_of_owner (hinv : AcceptInv setup n s) {t : ℕ} {ev : AcceptEvent}
    (hmem : (t, ev) ∈ s.history) (howner : ev.owner = some i) (hi : i ≠ 0) :
    Happened s.history (.accepted i) := by
  obtain ⟨after, before, hsplit⟩ := List.append_of_mem hmem
  have hallowed := (ordered_iff.mp hinv.ordered after _ before hsplit).2
  have hgoes : TaskGoesOn i before := by
    cases ev with
    | requested j =>
      obtain rfl := Option.some.inj howner
      exact hallowed
    | lifecycle j _ =>
      obtain rfl := Option.some.inj howner
      exact hallowed.1
    | ended j _ =>
      obtain rfl := Option.some.inj howner
      exact hallowed.1
    | fired => cases howner
    | _ => exact absurd (Option.some.inj howner).symm hi
  rw [hsplit, List.append_cons]
  exact hgoes.1.mono

/-- A connection that has not been accepted has no history. -/
theorem AcceptInv.foreign (hinv : AcceptInv setup n s) (hi : i ≠ 0)
    (hnew : ¬Happened s.history (.accepted i)) : ∀ e ∈ s.history, e.2.owner ≠ some i :=
  fun _ hmem howner => hnew (hinv.accepted_of_owner hmem howner hi)

/-- Something happens that is allowed, which may be that tasks end. -/
theorem AcceptInv.emit_ended (hinv : AcceptInv setup n s) {ev : AcceptEvent} {ended : List ℕ}
    (hnew : ∀ j, ev ≠ .accepted j) (hfired : ev ≠ .fired)
    (hended : ∀ j, j ∈ ended ↔ (∃ why, ev = .ended j why) ∨ j ∈ s.ended)
    (hallowed : setup.AcceptAllowed s.history (s.now, ev)) :
    AcceptInv setup n ({ s with ended := ended }.emit ev) where
  ordered := .cons hallowed hinv.ordered
  past := by
    intro e hmem
    rcases List.mem_cons.mp hmem with rfl | hmem
    · exact Nat.le_refl _
    · exact hinv.past e hmem
  accepted := by
    intro j
    refine happened_cons.trans (Iff.trans (or_iff_right (hnew j)) (hinv.accepted j))
  fired := hinv.fired.trans (Iff.symm (happened_cons.trans (or_iff_right hfired)))
  ready := fun h => (hinv.ready h).imp (@Happened.mono _ [(s.now, ev)] _)
    (@LoopGone.mono _ [(s.now, ev)])
  ended := by
    intro j
    refine (hended j).trans ?_
    simp only [AcceptShared.emit, happened_cons, exists_or, hinv.ended j]
  aborting := by
    intro j hmem
    obtain ⟨hdropped, hjoined⟩ := hinv.aborting j hmem
    refine ⟨happened_cons.mpr (.inr hdropped), fun h => ?_⟩
    rcases happened_cons.mp h with rfl | h
    · -- nothing is joined once the future is dropped
      exact hallowed.2.2.2.2 (.inl hdropped)
    · exact hjoined h

/-- Something happens that is allowed, and no task ends. -/
theorem AcceptInv.emit (hinv : AcceptInv setup n s) {ev : AcceptEvent}
    (hnew : ∀ j, ev ≠ .accepted j) (hfired : ev ≠ .fired) (hended : ∀ j why, ev ≠ .ended j why)
    (hallowed : setup.AcceptAllowed s.history (s.now, ev)) : AcceptInv setup n (s.emit ev) := by
  refine hinv.emit_ended hnew hfired (fun j => (or_iff_right ?_).symm) hallowed
  rintro ⟨why, heq⟩
  exact hended j why heq

/-- A task that goes on, goes on while its lifecycle does. -/
theorem TaskGoesOn.report {log : AcceptHistory} (h : TaskGoesOn i log) (new : LifecycleLog) :
    TaskGoesOn i (new.map (fun e => (e.1, .lifecycle i e.2)) ++ log) := by
  refine ⟨h.1.mono, fun why hended => ?_⟩
  rcases happened_append.mp hended with ⟨t, hmem⟩ | hended
  · simp at hmem
  · exact h.2 why hended

/-- What may be observed, may be observed later. -/
theorem AcceptSetup.MayObserve.report {log : AcceptHistory} {ev : LifecycleEvent}
    (h : setup.MayObserve log i ev) (new : AcceptHistory) :
    setup.MayObserve (new ++ log) i ev := by
  unfold AcceptSetup.MayObserve at h ⊢
  split
  · exact h.imp Happened.mono LoopGone.mono
  · obtain ⟨max, hmax, hle⟩ := h
    refine ⟨max, hmax, Nat.le_trans hle ?_⟩
    rw [requestsOf_append]
    exact Nat.le_add_left _ _
  · trivial

/-- A task reports what happens in its lifecycle. -/
theorem AcceptInv.report (hinv : AcceptInv setup n s) (hgoes : TaskGoesOn i s.history)
    {new : LifecycleLog} (hnow : ∀ e ∈ new, e.1 = s.now)
    (hobserve : ∀ e ∈ new, setup.MayObserve s.history i e.2) :
    AcceptInv setup n (s.report i new) := by
  have hforeign : ∀ {ev : AcceptEvent}, (∀ ev', ev ≠ .lifecycle i ev') →
      (Happened (s.report i new).history ev ↔ Happened s.history ev) := by
    intro ev hev
    refine happened_append.trans (or_iff_right ?_)
    rintro ⟨t, hmem⟩
    obtain ⟨e, -, heq⟩ := List.mem_map.mp hmem
    exact hev _ (Prod.mk.inj heq).2.symm
  refine ⟨?_, ?_, ?_, ?_, ?_, ?_, ?_⟩
  · refine hinv.ordered.append fun after e first hsplit => ?_
    -- `e` is the report of some event, and `first` that of those before it
    obtain ⟨after', rest, rfl, rfl, hrest⟩ := List.map_eq_append_iff.mp hsplit
    obtain ⟨ev, first', rfl, rfl, rfl⟩ := List.map_eq_cons_iff.mp hrest
    have hmem : ev ∈ after' ++ ev :: first' := by simp
    refine ⟨fun e' hmem' => ?_, hgoes.report first', (hobserve ev hmem).report _⟩
    rcases List.mem_append.mp hmem' with hmem' | hmem'
    · obtain ⟨e, hin, rfl⟩ := List.mem_map.mp hmem'
      have he : e ∈ after' ++ ev :: first' := by simp [hin]
      exact Nat.le_of_eq ((hnow e he).trans (hnow ev hmem).symm)
    · exact Nat.le_trans (hinv.past e' hmem') (Nat.le_of_eq (hnow ev hmem).symm)
  · intro e hmem
    rcases List.mem_append.mp hmem with hmem | hmem
    · obtain ⟨e, hin, rfl⟩ := List.mem_map.mp hmem
      exact Nat.le_of_eq (hnow e hin)
    · exact hinv.past e hmem
  · exact fun j => (hforeign (by simp)).trans (hinv.accepted j)
  · exact hinv.fired.trans (hforeign (by simp)).symm
  · exact fun h => (hinv.ready h).imp Happened.mono LoopGone.mono
  · exact fun j => (hinv.ended j).trans (exists_congr fun why => (hforeign (by simp)).symm)
  · intro j hmem
    obtain ⟨hdropped, hjoined⟩ := hinv.aborting j hmem
    exact ⟨hdropped.mono, fun h => hjoined ((hforeign (by simp)).mp h)⟩

/-! ## What the processes assert -/

/-- A stage fits what has happened. -/
def AcceptStage.Fits (now : ℕ) (log : AcceptHistory) : AcceptStage → Prop
  | .accepting .shutdown => AcceptOpen now log
  | .accepting _ => AcceptAnswers now log
  | .backingOff timer _ => AcceptOpen timer.deadline log
  | .draining => Happened log .signalled ∧ ¬LoopGone log
  | .gone => LoopGone log

/-- What the loop asserts. -/
structure LoopOwn (stage : AcceptStage) (connections : List ℕ) (s : AcceptShared) : Prop where
  /-- its stage -/
  fits : stage.Fits s.now s.history
  /-- it holds every connection that it has accepted and not joined -/
  held : stage ≠ .gone → ∀ i, i ∈ connections ↔
    Happened s.history (.accepted i) ∧ ¬Happened s.history (.joined i)
  /-- once -/
  nodup : connections.Nodup

/-- The task of a connection has not got to serve it. -/
def Unserved (i : ℕ) (log : AcceptHistory) : Prop :=
  TaskGoesOn i log ∧ lifecycleOf i log = [] ∧ requestsOf i log = 0

/-- What holds of a connection that is served. -/
structure ConnectionOwn (setup : AcceptSetup) (i : ℕ) (c : Connection) (s : AcceptShared) :
    Prop where
  /-- its task goes on -/
  goesOn : TaskGoesOn i s.history
  /-- its lifecycle -/
  lifecycle : LifecycleInv c.config c.served
  /-- that is what it has reported -/
  log : lifecycleOf i s.history = c.served.log
  /-- its lifecycle has not ended -/
  running : c.served.ended = false
  /-- its clock is not ahead -/
  now : c.served.now ≤ s.now
  /-- its triggers are those that are configured -/
  config : ∃ sample, setup.config.lifecycle sample = some c.config
  /-- its requests are counted -/
  counter : c.counter = setup.config.maxRequestsPerConnection.map fun max =>
    .counted max (requestsOf i s.history)

/-- What the task of a connection asserts. -/
def TaskOwn (setup : AcceptSetup) (i : ℕ) (s : AcceptShared) : ConnectionTask → Prop
  | .spawned => Unserved i s.history
  | .handshaking timer => Unserved i s.history ∧ setup.accept.tls = true ∧
      ∃ t, (t, .accepted i) ∈ s.history ∧ t + setup.accept.tlsHandshakeTimeout ≤ timer.deadline
  | .serving c => ConnectionOwn setup i c s
  | .ended => Happened s.history (.accepted i) ∧ (∃ why, Happened s.history (.ended i why)) ∧
      ∃ sample config, setup.config.lifecycle sample = some config ∧
        Orderly config (lifecycleOf i s.history)

/-- What a process asserts. -/
def AcceptOwn (setup : AcceptSetup) (i : ℕ) (proc : AcceptProcess) (s : AcceptShared) : Prop :=
  match proc with
  | .loop stage connections => i = 0 ∧ LoopOwn stage connections s
  | .task task => i ≠ 0 ∧ TaskOwn setup i s task

/-- What a turn guarantees: it adds to the history what its process does. -/
structure AcceptGives (who : Option ℕ) (s s' : AcceptShared) : Prop where
  /-- the history -/
  history : ∃ new, s'.history = new ++ s.history ∧ ∀ e ∈ new, e.2.owner = who
  /-- the clock -/
  now : s.now ≤ s'.now

theorem AcceptGives.refl (who : Option ℕ) (s : AcceptShared) : AcceptGives who s s :=
  ⟨⟨[], rfl, by simp⟩, Nat.le_refl _⟩

theorem AcceptOpen.later {time time' : ℕ} {log : AcceptHistory} (h : AcceptOpen time log)
    (hle : time ≤ time') : AcceptOpen time' log :=
  ⟨h.accepting, h.transient, fun hmem hfd => Nat.le_trans (h.backedOff hmem hfd) hle⟩

/-- Whether the loop may go on to accept is up to the loop. -/
theorem acceptOpen_foreign {time : ℕ} {log new : AcceptHistory}
    (h : ∀ e ∈ new, e.2.owner ≠ some 0) (hopen : AcceptOpen time log) :
    AcceptOpen time (new ++ log) :=
  ⟨(accepting_foreign h).mpr hopen.accepting,
    fun hmem => hopen.transient ((failed_foreign h).mp hmem),
    fun hmem => hopen.backedOff ((failed_foreign h).mp hmem)⟩

theorem AcceptStage.Fits.foreign {stage : AcceptStage} {now now' : ℕ} {log new : AcceptHistory}
    (h : ∀ e ∈ new, e.2.owner ≠ some 0) (hle : now ≤ now') (hfits : stage.Fits now log) :
    stage.Fits now' (new ++ log) := by
  cases stage with
  | accepting branch =>
    cases branch with
    | shutdown => exact acceptOpen_foreign h (AcceptOpen.later hfits hle)
    | joinNext =>
      refine ⟨acceptOpen_foreign h (AcceptOpen.later hfits.toAcceptOpen hle), ?_⟩
      rw [late_foreign h]
      exact hfits.timely
    | accept =>
      refine ⟨acceptOpen_foreign h (AcceptOpen.later hfits.toAcceptOpen hle), ?_⟩
      rw [late_foreign h]
      exact hfits.timely
  | backingOff timer _ => exact acceptOpen_foreign h hfits
  | draining => exact ⟨hfits.1.mono, fun hgone => hfits.2 ((loopGone_foreign h).mp hgone)⟩
  | gone => exact LoopGone.mono hfits

theorem LoopOwn.foreign {stage : AcceptStage} {connections : List ℕ} {new : AcceptHistory}
    (hhistory : s'.history = new ++ s.history) (h : ∀ e ∈ new, e.2.owner ≠ some 0)
    (hnow : s.now ≤ s'.now) (hown : LoopOwn stage connections s) :
    LoopOwn stage connections s' where
  fits := by
    rw [hhistory]
    exact hown.fits.foreign h hnow
  held := by
    intro hgone j
    rw [hhistory, @happened_foreign _ _ (.accepted j) h, @happened_foreign _ _ (.joined j) h]
    exact hown.held hgone j
  nodup := hown.nodup

theorem TaskGoesOn.foreign {log new : AcceptHistory} (h : ∀ e ∈ new, e.2.owner ≠ some i)
    (hgoes : TaskGoesOn i log) : TaskGoesOn i (new ++ log) :=
  ⟨hgoes.1.mono, fun why hended =>
    hgoes.2 why ((@happened_foreign _ _ (.ended i why) h).mp hended)⟩

theorem Unserved.foreign {log new : AcceptHistory} (h : ∀ e ∈ new, e.2.owner ≠ some i)
    (hnew : Unserved i log) : Unserved i (new ++ log) :=
  ⟨hnew.1.foreign h, (lifecycleOf_foreign h).trans hnew.2.1,
    (requestsOf_foreign h).trans hnew.2.2⟩

theorem TaskOwn.foreign {task : ConnectionTask} {new : AcceptHistory}
    (hhistory : s'.history = new ++ s.history) (h : ∀ e ∈ new, e.2.owner ≠ some i)
    (hnow : s.now ≤ s'.now) (hown : TaskOwn setup i s task) : TaskOwn setup i s' task := by
  cases task with
  | spawned =>
    rw [TaskOwn, hhistory]
    exact Unserved.foreign h hown
  | handshaking timer =>
    obtain ⟨hnew, htls, t, hmem, hle⟩ := hown
    rw [TaskOwn, hhistory]
    exact ⟨hnew.foreign h, htls, t, List.mem_append_right _ hmem, hle⟩
  | serving c =>
    refine ⟨?_, hown.lifecycle, ?_, hown.running, Nat.le_trans hown.now hnow, hown.config, ?_⟩
    · rw [hhistory]
      exact hown.goesOn.foreign h
    · rw [hhistory, lifecycleOf_foreign h]
      exact hown.log
    · rw [hhistory, requestsOf_foreign h]
      exact hown.counter
  | ended =>
    obtain ⟨haccepted, ⟨why, hended⟩, sample, config, hconfig, horderly⟩ := hown
    refine ⟨?_, ⟨why, ?_⟩, sample, config, hconfig, ?_⟩
    · rw [hhistory]
      exact haccepted.mono
    · rw [hhistory]
      exact hended.mono
    · rw [hhistory, lifecycleOf_foreign h]
      exact horderly

/-- **No process takes from another what it asserts.** -/
theorem acceptOwn_stable {who : Option ℕ} {proc : AcceptProcess} (h : AcceptGives who s s')
    (hwho : who ≠ some i) (hown : AcceptOwn setup i proc s) : AcceptOwn setup i proc s' := by
  obtain ⟨⟨new, hhistory, howner⟩, hnow⟩ := h
  have hforeign : ∀ e ∈ new, e.2.owner ≠ some i := fun e he heq => hwho ((howner e he).symm.trans heq)
  cases proc with
  | loop stage connections =>
    obtain ⟨rfl, hown⟩ := hown
    exact ⟨rfl, hown.foreign hhistory hforeign hnow⟩
  | task task =>
    exact ⟨hown.1, TaskOwn.foreign hhistory hforeign hnow hown.2⟩

/-! ## Turns of the loop -/

/-- What a turn comes to. -/
structure Sustained (setup : AcceptSetup) (i n : ℕ) (s : AcceptShared)
    (r : Turn AcceptShared AcceptProcess) : Prop where
  /-- the invariant -/
  inv : AcceptInv setup (n + r.started.toList.length) r.shared
  /-- what the process asserts -/
  own : AcceptOwn setup i r.self r.shared
  /-- what it guarantees -/
  gives : AcceptGives (some i) s r.shared
  /-- what a task asserts that it spawns -/
  started : ∀ proc, r.started = some proc → AcceptOwn setup n proc r.shared

/-- What is polled next where nothing happens. -/
inductive AcceptStage.Moves (s : AcceptShared) : AcceptStage → AcceptStage → Prop where
  | noShutdown : s.fired = false → Moves s (.accepting .shutdown) (.accepting .joinNext)
  | noResult : Moves s (.accepting .joinNext) (.accepting .accept)
  | noConnection : Moves s (.accepting .accept) (.accepting .shutdown)
  | stillOn {timer : Sleep} : s.fired = false →
    Moves s (.backingOff timer false) (.backingOff timer true)
  | stillWaiting {timer : Sleep} : Moves s (.backingOff timer true) (.backingOff timer false)
  | backedOff {timer : Sleep} : timer.deadline ≤ s.now →
    Moves s (.backingOff timer true) (.accepting .shutdown)
  | stillDraining : Moves s .draining .draining

/-- Where the shutdown signal is polled. -/
inductive AcceptStage.Listens : AcceptStage → Prop where
  | accepting : Listens (.accepting .shutdown)
  | backingOff {timer : Sleep} : Listens (.backingOff timer false)

/-- Where tasks are joined, and what is polled next. -/
inductive AcceptStage.Joins : AcceptStage → AcceptStage → Prop where
  | accepting : Joins (.accepting .joinNext) (.accepting .shutdown)
  | draining : Joins .draining .draining

/-- The turns of the loop. -/
inductive LoopStep (s : AcceptShared) (n : ℕ) (connections : List ℕ) :
    AcceptStage → Turn AcceptShared AcceptProcess → Prop where
  | moves {stage stage' : AcceptStage} : stage.Moves s stage' →
    LoopStep s n connections stage ⟨s, .loop stage' connections, none⟩
  | shutDown {stage : AcceptStage} : stage.Listens → s.fired = true →
    LoopStep s n connections stage ⟨s.shutDown, .loop .draining connections, none⟩
  | joins {stage stage' : AcceptStage} {i : ℕ} : stage.Joins stage' → i ∈ connections →
    i ∈ s.ended → LoopStep s n connections stage
      ⟨s.emit (.joined i), .loop stage' (connections.erase i), none⟩
  | accepts : LoopStep s n connections (.accepting .accept)
      ⟨s.emit (.accepted n), .loop (.accepting .shutdown) (n :: connections),
        some (.task .spawned)⟩
  | exhausted {err : AcceptError} : err.isFdExhaustion = true →
    LoopStep s n connections (.accepting .accept) ⟨s.emit (.failed err),
      .loop (.backingOff ⟨s.now + FD_EXHAUSTION_BACKOFF⟩ false) connections, none⟩
  | transient {err : AcceptError} : err.isFdExhaustion = false →
    err.isTransientAcceptError = true → LoopStep s n connections (.accepting .accept)
      ⟨s.emit (.failed err), .loop (.accepting .shutdown) connections, none⟩
  | fatal {err : AcceptError} : err.isTransientAcceptError = false →
    LoopStep s n connections (.accepting .accept)
      ⟨(s.emit (.failed err)).dropSender.emit (.returned (.error err)), .loop .gone [], none⟩
  | drained : connections = [] → LoopStep s n connections .draining
      ⟨s.dropSender.emit (.returned (.ok ())), .loop .gone [], none⟩
  | dropped {stage : AcceptStage} : stage ≠ .gone → LoopStep s n connections stage
      ⟨{ s.dropSender with aborting := connections }.emit .dropped, .loop .gone [], none⟩

theorem exists_of_joinNext {connections : List ℕ} {x : LoopChoice}
    (h : s.joinNext connections x = some i) : i ∈ connections ∧ i ∈ s.ended := by
  cases x with
  | joined j =>
    rw [AcceptShared.joinNext] at h
    split at h
    · next hj =>
      obtain rfl := Option.some.inj h
      exact hj
    · cases h
  | _ => cases h

/-- **The loop makes no other turns.** -/
theorem loopStep_of_turn {x : LoopChoice} {connections : List ℕ} {stage : AcceptStage}
    {r : Turn AcceptShared AcceptProcess} (h : s.loopTurn n x connections stage = some r) :
    LoopStep s n connections stage r := by
  unfold AcceptShared.loopTurn at h
  split at h
  · cases h
  · next hgone =>
    obtain rfl := Option.some.inj h
    exact .dropped fun heq => hgone heq
  · split at h
    · next hfired =>
      obtain rfl := Option.some.inj h
      exact .shutDown .accepting hfired
    · next hfired =>
      obtain rfl := Option.some.inj h
      exact .moves (.noShutdown (Bool.eq_false_iff.mpr hfired))
  · split at h
    · next i hi =>
      obtain rfl := Option.some.inj h
      obtain ⟨hmem, hended⟩ := exists_of_joinNext hi
      exact .joins .accepting hmem hended
    · obtain rfl := Option.some.inj h
      exact .moves .noResult
  · obtain rfl := Option.some.inj h
    exact .accepts
  · next err =>
    dsimp only at h
    split at h
    · next hfd =>
      obtain rfl := Option.some.inj h
      exact .exhausted hfd
    · next hfd =>
      split at h
      · next htransient =>
        obtain rfl := Option.some.inj h
        exact .transient (Bool.eq_false_iff.mpr hfd) htransient
      · next htransient =>
        obtain rfl := Option.some.inj h
        exact .fatal (Bool.eq_false_iff.mpr htransient)
  · obtain rfl := Option.some.inj h
    exact .moves .noConnection
  · split at h
    · next hfired =>
      obtain rfl := Option.some.inj h
      exact .shutDown .backingOff hfired
    · next hfired =>
      obtain rfl := Option.some.inj h
      exact .moves (.stillOn (Bool.eq_false_iff.mpr hfired))
  · split at h
    · next hready =>
      obtain rfl := Option.some.inj h
      rw [Sleep.isReady, Bool.and_eq_true, decide_eq_true_eq] at hready
      exact .moves (.backedOff hready.2)
    · obtain rfl := Option.some.inj h
      exact .moves .stillWaiting
  · split at h
    · next hempty =>
      obtain rfl := Option.some.inj h
      exact .drained (List.isEmpty_iff.mp hempty)
    · split at h
      · next i hi =>
        obtain rfl := Option.some.inj h
        obtain ⟨hmem, hended⟩ := exists_of_joinNext hi
        exact .joins .draining hmem hended
      · obtain rfl := Option.some.inj h
        exact .moves .stillDraining

/-- Something happens that belongs to a process. -/
theorem AcceptGives.emit (s : AcceptShared) {ev : AcceptEvent} {who : Option ℕ}
    (h : ev.owner = who) : AcceptGives who s (s.emit ev) :=
  ⟨⟨[(s.now, ev)], rfl, by simpa using h⟩, Nat.le_refl _⟩

/-- Nothing that happens to a loop that goes on accepting hinders it. -/
theorem AcceptOpen.cons {time t : ℕ} {log : AcceptHistory} {ev : AcceptEvent}
    (h : AcceptOpen time log) (hnoticed : ev ≠ .noticed) (hdropped : ev ≠ .dropped)
    (hreturned : ∀ result, ev ≠ .returned result)
    (hfailed : ∀ err, ev = .failed err → err.isTransientAcceptError = true ∧
      (err.isFdExhaustion = true → t + FD_EXHAUSTION_BACKOFF ≤ time)) :
    AcceptOpen time ((t, ev) :: log) := by
  refine ⟨accepting_cons.mpr ⟨⟨hnoticed, hdropped, hreturned⟩, h.accepting⟩, ?_, ?_⟩
  · intro t' err hmem
    rcases List.mem_cons.mp hmem with heq | hmem
    · obtain ⟨-, rfl⟩ := Prod.mk.inj heq
      exact (hfailed err rfl).1
    · exact h.transient hmem
  · intro t' err hmem hfd
    rcases List.mem_cons.mp hmem with heq | hmem
    · obtain ⟨rfl, rfl⟩ := Prod.mk.inj heq
      exact (hfailed err rfl).2 hfd
    · exact h.backedOff hmem hfd

section Loop

variable {connections : List ℕ} {stage stage' : AcceptStage}

/-- Nothing happens. -/
theorem sustained_moves (hinv : AcceptInv setup n s) (hown : LoopOwn stage connections s)
    (h : stage.Moves s stage') :
    Sustained setup 0 n s ⟨s, .loop stage' connections, none⟩ := by
  refine ⟨hinv, ⟨rfl, ?_, ?_, hown.nodup⟩, .refl _ _, by simp⟩
  · have hfits := hown.fits
    cases h with
    | noShutdown hfired =>
      refine ⟨hfits, late_of_not_fired fun hhas => ?_⟩
      rw [hinv.fired.mpr hhas] at hfired
      cases hfired
    | noResult => exact hfits
    | noConnection => exact hfits.toAcceptOpen
    | stillOn _ => exact hfits
    | stillWaiting => exact hfits
    | backedOff hle => exact AcceptOpen.later hfits hle
    | stillDraining => exact hfits
  · intro _
    apply hown.held
    rintro rfl
    cases h

/-- The loop listens for the shutdown signal while it accepts connections. -/
theorem AcceptStage.Listens.accepting_of_fits {now : ℕ} {log : AcceptHistory}
    (h : stage.Listens) (hfits : stage.Fits now log) : Accepting log := by
  cases h with
  | accepting => exact AcceptOpen.accepting hfits
  | backingOff => exact AcceptOpen.accepting hfits

/-- The connections are told to drain. -/
theorem sustained_shutDown (hinv : AcceptInv setup n s) (hown : LoopOwn stage connections s)
    (h : stage.Listens) (hfired : s.fired = true) :
    Sustained setup 0 n s ⟨s.shutDown, .loop .draining connections, none⟩ := by
  have haccepting := h.accepting_of_fits hown.fits
  have hnoticed : AcceptInv setup n (s.emit .noticed) :=
    hinv.emit (by simp) (by simp) (by simp) ⟨hinv.past, hinv.fired.mp hfired, haccepting⟩
  have hsignalled : AcceptInv setup n ((s.emit .noticed).emit .signalled) :=
    hnoticed.emit (by simp) (by simp) (by simp) ⟨hnoticed.past, s.now, s.history, rfl⟩
  have hhas : Happened s.shutDown.history .signalled := ⟨s.now, List.mem_cons_self⟩
  refine ⟨?_, ⟨rfl, ⟨hhas, ?_⟩, ?_, hown.nodup⟩, ?_, by simp⟩
  · exact { hsignalled with ready := fun _ => .inl hhas }
  · simpa [AcceptShared.shutDown, AcceptShared.emit] using haccepting.2
  · intro _ j
    have hgone : stage ≠ .gone := by
      rintro rfl
      cases h
    simpa [AcceptShared.shutDown, AcceptShared.emit] using hown.held hgone j
  · refine ⟨⟨[(s.now, .signalled), (s.now, .noticed)], rfl, ?_⟩, Nat.le_refl _⟩
    simp [AcceptEvent.owner]

/-- The loop is not gone where it joins tasks. -/
theorem AcceptStage.Joins.not_gone {now : ℕ} {log : AcceptHistory} (h : stage.Joins stage')
    (hfits : stage.Fits now log) : ¬LoopGone log := by
  cases h with
  | accepting => exact hfits.accepting.2
  | draining => exact hfits.2

/-- A task is joined. -/
theorem sustained_joins (hinv : AcceptInv setup n s) (hown : LoopOwn stage connections s)
    (h : stage.Joins stage') (hmem : i ∈ connections) (hended : i ∈ s.ended) :
    Sustained setup 0 n s ⟨s.emit (.joined i), .loop stage' (connections.erase i), none⟩ := by
  have hgone : stage ≠ .gone := by
    rintro rfl
    cases h
  have hheld := hown.held hgone
  obtain ⟨haccepted, hjoined⟩ := (hheld i).mp hmem
  have hnot := h.not_gone hown.fits
  refine ⟨?_, ⟨rfl, ?_, fun _ j => ?_, hown.nodup.erase i⟩, .emit s rfl, by simp⟩
  · exact hinv.emit (by simp) (by simp) (by simp)
      ⟨hinv.past, haccepted, (hinv.ended i).mp hended, hjoined, hnot⟩
  · have hfits := hown.fits
    cases h with
    | accepting => exact hfits.toAcceptOpen.cons (by simp) (by simp) (by simp) (by simp)
    | draining => exact ⟨happened_cons.mpr (.inr hfits.1), by simpa [AcceptShared.emit] using hnot⟩
  · rw [hown.nodup.mem_erase_iff, hheld j]
    simp only [AcceptShared.emit, happened_cons, not_or]
    have hne : (AcceptEvent.joined i = .joined j) ↔ j = i := by
      rw [AcceptEvent.joined.injEq, eq_comm]
    rw [hne]
    simp
    tauto

/-- A connection is accepted. -/
theorem sustained_accepts (hinv : AcceptInv setup n s) (hpos : 0 < n)
    (hown : LoopOwn (.accepting .accept) connections s) :
    Sustained setup 0 n s ⟨s.emit (.accepted n), .loop (.accepting .shutdown) (n :: connections),
      some (.task .spawned)⟩ := by
  have hheld := hown.held (by simp)
  have hnew : ¬Happened s.history (.accepted n) := fun h =>
    Nat.lt_irrefl n ((hinv.accepted n).mp h).2
  have hforeign := hinv.foreign (Nat.ne_of_gt hpos) hnew
  have hnever : ∀ {ev : AcceptEvent}, ev.owner = some n → ¬Happened s.history ev := by
    rintro ev howner ⟨t, hmem⟩
    exact hforeign _ hmem howner
  have hjoined : ¬Happened s.history (.joined n) := by
    rintro ⟨t, hmem⟩
    obtain ⟨after, before, hsplit⟩ := List.append_of_mem hmem
    have hallowed := (ordered_iff.mp hinv.ordered after _ before hsplit).2.1
    apply hnew
    rw [hsplit, List.append_cons]
    exact hallowed.mono
  refine ⟨⟨.cons ⟨hinv.past, hown.fits, hinv.accepted⟩ hinv.ordered, ?_, ?_, ?_, ?_, ?_, ?_⟩,
    ⟨rfl, ?_, ?_, ?_⟩, .emit s rfl, ?_⟩
  · intro e hmem
    rcases List.mem_cons.mp hmem with rfl | hmem
    · exact Nat.le_refl _
    · exact hinv.past e hmem
  · intro j
    simp only [AcceptShared.emit, happened_cons, hinv.accepted j, AcceptEvent.accepted.injEq,
      Option.toList_some, List.length_singleton]
    omega
  · simpa [AcceptShared.emit] using hinv.fired
  · exact fun h => (hinv.ready h).imp (@Happened.mono _ [(s.now, .accepted n)] _)
      (@LoopGone.mono _ [(s.now, .accepted n)])
  · intro j
    simpa [AcceptShared.emit] using hinv.ended j
  · intro j hmem
    simpa [AcceptShared.emit] using hinv.aborting j hmem
  · exact hown.fits.toAcceptOpen.cons (by simp) (by simp) (by simp) (by simp)
  · intro _ j
    simp only [AcceptShared.emit, happened_cons, List.mem_cons, hheld j, reduceCtorEq, false_or,
      AcceptEvent.accepted.injEq]
    constructor
    · rintro (rfl | ⟨h, hnot⟩)
      · exact ⟨.inl rfl, hjoined⟩
      · exact ⟨.inr h, hnot⟩
    · rintro ⟨rfl | h, hnot⟩
      · exact .inl rfl
      · exact .inr ⟨h, hnot⟩
  · exact List.nodup_cons.mpr ⟨fun hmem => hnew ((hheld n).mp hmem).1, hown.nodup⟩
  · rintro proc ⟨⟩
    refine ⟨Nat.ne_of_gt hpos, ⟨happened_cons.mpr (.inl rfl), fun why h => ?_⟩, ?_, ?_⟩
    · rcases happened_cons.mp h with heq | h
      · cases heq
      · exact hnever rfl h
    · have hnone := @lifecycleOf_foreign [] _ _ hforeign
      rw [List.append_nil] at hnone
      exact hnone
    · have hnone := @requestsOf_foreign [] _ _ hforeign
      rw [List.append_nil] at hnone
      exact hnone

/-- `accept` fails. -/
theorem AcceptInv.failed (hinv : AcceptInv setup n s) (h : AcceptAnswers s.now s.history)
    (err : AcceptError) : AcceptInv setup n (s.emit (.failed err)) :=
  hinv.emit (by simp) (by simp) (by simp) ⟨hinv.past, h⟩

/-- What the loop holds is not changed by a failure. -/
theorem held_failed (hown : LoopOwn (.accepting .accept) connections s) (err : AcceptError)
    (i : ℕ) : i ∈ connections ↔ Happened (s.emit (.failed err)).history (.accepted i) ∧
      ¬Happened (s.emit (.failed err)).history (.joined i) := by
  simpa [AcceptShared.emit] using hown.held (by simp) i

/-- There are no file descriptors. -/
theorem sustained_exhausted (hinv : AcceptInv setup n s)
    (hown : LoopOwn (.accepting .accept) connections s) {err : AcceptError}
    (hfd : err.isFdExhaustion = true) :
    Sustained setup 0 n s ⟨s.emit (.failed err),
      .loop (.backingOff ⟨s.now + FD_EXHAUSTION_BACKOFF⟩ false) connections, none⟩ := by
  refine ⟨hinv.failed hown.fits err, ⟨rfl, ?_, fun _ => held_failed hown err, hown.nodup⟩,
    .emit s rfl, by simp⟩
  apply (hown.fits.toAcceptOpen.later (Nat.le_add_right _ _)).cons (by simp) (by simp) (by simp)
  rintro _ ⟨⟩
  refine ⟨?_, fun _ => Nat.le_refl _⟩
  rw [AcceptError.isTransientAcceptError, hfd, Bool.or_true]

/-- A failure is transient. -/
theorem sustained_transient (hinv : AcceptInv setup n s)
    (hown : LoopOwn (.accepting .accept) connections s) {err : AcceptError}
    (hfd : err.isFdExhaustion = false) (htransient : err.isTransientAcceptError = true) :
    Sustained setup 0 n s ⟨s.emit (.failed err), .loop (.accepting .shutdown) connections, none⟩ := by
  refine ⟨hinv.failed hown.fits err, ⟨rfl, ?_, fun _ => held_failed hown err, hown.nodup⟩,
    .emit s rfl, by simp⟩
  apply hown.fits.toAcceptOpen.cons (by simp) (by simp) (by simp)
  rintro _ ⟨⟩
  refine ⟨htransient, fun h => ?_⟩
  rw [hfd] at h
  cases h

/-- The loop is gone, with the sender of the shutdown. -/
theorem loopOwn_gone (h : LoopGone s.history) : LoopOwn .gone [] s :=
  ⟨h, fun h => absurd rfl h, List.nodup_nil⟩

/-- A failure is fatal. -/
theorem sustained_fatal (hinv : AcceptInv setup n s)
    (hown : LoopOwn (.accepting .accept) connections s) {err : AcceptError}
    (hfatal : err.isTransientAcceptError = false) :
    Sustained setup 0 n s
      ⟨(s.emit (.failed err)).dropSender.emit (.returned (.error err)), .loop .gone [], none⟩ := by
  have hfailed := hinv.failed hown.fits err
  have hreturned : AcceptInv setup n ((s.emit (.failed err)).emit (.returned (.error err))) :=
    hfailed.emit (by simp) (by simp) (by simp) ⟨hfailed.past, ⟨s.now, s.history, rfl⟩, hfatal⟩
  have hgone : LoopGone ((s.emit (.failed err)).emit (.returned (.error err))).history :=
    .inr ⟨.error err, s.now, List.mem_cons_self⟩
  refine ⟨{ hreturned with ready := fun _ => .inr hgone }, ⟨rfl, loopOwn_gone hgone⟩, ?_, by simp⟩
  refine ⟨⟨[(s.now, .returned (.error err)), (s.now, .failed err)], rfl, ?_⟩, Nat.le_refl _⟩
  simp [AcceptEvent.owner]

/-- All connections have ended. -/
theorem sustained_drained (hinv : AcceptInv setup n s) (hown : LoopOwn .draining [] s) :
    Sustained setup 0 n s ⟨s.dropSender.emit (.returned (.ok ())), .loop .gone [], none⟩ := by
  have hall : ∀ i, Happened s.history (.accepted i) → Happened s.history (.joined i) := by
    intro i haccepted
    by_contra hjoined
    exact List.not_mem_nil ((hown.held (by simp) i).mpr ⟨haccepted, hjoined⟩)
  have hreturned : AcceptInv setup n (s.emit (.returned (.ok ()))) :=
    hinv.emit (by simp) (by simp) (by simp) ⟨hinv.past, hown.fits.1, hown.fits.2, hall⟩
  have hgone : LoopGone (s.emit (.returned (.ok ()))).history :=
    .inr ⟨.ok (), s.now, List.mem_cons_self⟩
  refine ⟨{ hreturned with ready := fun _ => .inr hgone }, ⟨rfl, loopOwn_gone hgone⟩, ?_, by simp⟩
  exact ⟨⟨[(s.now, .returned (.ok ()))], rfl, by simp [AcceptEvent.owner]⟩, Nat.le_refl _⟩

/-- The loop is not gone before it is. -/
theorem AcceptStage.Fits.not_gone {now : ℕ} {log : AcceptHistory} (hfits : stage.Fits now log)
    (h : stage ≠ .gone) : ¬LoopGone log := by
  cases stage with
  | accepting branch =>
    cases branch with
    | shutdown => exact (AcceptOpen.accepting hfits).2
    | joinNext => exact (AcceptOpen.accepting hfits.toAcceptOpen).2
    | accept => exact (AcceptOpen.accepting hfits.toAcceptOpen).2
  | backingOff timer _ => exact (AcceptOpen.accepting hfits).2
  | draining => exact hfits.2
  | gone => exact absurd rfl h

/-- The future of the loop is dropped. -/
theorem sustained_dropped (hinv : AcceptInv setup n s) (hown : LoopOwn stage connections s)
    (h : stage ≠ .gone) :
    Sustained setup 0 n s
      ⟨{ s.dropSender with aborting := connections }.emit .dropped, .loop .gone [], none⟩ := by
  have hdropped : AcceptInv setup n (s.emit .dropped) :=
    hinv.emit (by simp) (by simp) (by simp) ⟨hinv.past, hown.fits.not_gone h⟩
  have hhas : Happened (s.emit .dropped).history .dropped := ⟨s.now, List.mem_cons_self⟩
  refine ⟨{ hdropped with ready := fun _ => .inr (.inl hhas), aborting := ?_ },
    ⟨rfl, loopOwn_gone (.inl hhas)⟩, ?_, by simp⟩
  · intro i hmem
    refine ⟨hhas, ?_⟩
    simpa [AcceptShared.emit, AcceptShared.dropSender] using ((hown.held h i).mp hmem).2
  · exact ⟨⟨[(s.now, .dropped)], rfl, by simp [AcceptEvent.owner]⟩, Nat.le_refl _⟩

/-- **The turns of the loop.** -/
theorem sustained_loop (hinv : AcceptInv setup n s) (hpos : 0 < n)
    (hown : LoopOwn stage connections s) {r : Turn AcceptShared AcceptProcess}
    (h : LoopStep s n connections stage r) : Sustained setup 0 n s r := by
  cases h with
  | moves hmoves => exact sustained_moves hinv hown hmoves
  | shutDown hlistens hfired => exact sustained_shutDown hinv hown hlistens hfired
  | joins hjoins hmem hended => exact sustained_joins hinv hown hjoins hmem hended
  | accepts => exact sustained_accepts hinv hpos hown
  | exhausted hfd => exact sustained_exhausted hinv hown hfd
  | transient hfd htransient => exact sustained_transient hinv hown hfd htransient
  | fatal hfatal => exact sustained_fatal hinv hown hfatal
  | drained hempty =>
    subst hempty
    exact sustained_drained hinv hown
  | dropped hstage => exact sustained_dropped hinv hown hstage

end Loop

/-! ## Turns of tasks -/

theorem AcceptGives.trans {who : Option ℕ} {s₁ s₂ s₃ : AcceptShared} (h : AcceptGives who s₁ s₂)
    (h' : AcceptGives who s₂ s₃) : AcceptGives who s₁ s₃ := by
  obtain ⟨⟨new, hnew, hwho⟩, hnow⟩ := h
  obtain ⟨⟨new', hnew', hwho'⟩, hnow'⟩ := h'
  refine ⟨⟨new' ++ new, ?_, ?_⟩, Nat.le_trans hnow hnow'⟩
  · rw [hnew', hnew, List.append_assoc]
  · intro e hmem
    rcases List.mem_append.mp hmem with hmem | hmem
    · exact hwho' e hmem
    · exact hwho e hmem

/-- What a task reports is its own. -/
theorem AcceptGives.report (s : AcceptShared) (i : ℕ) (new : LifecycleLog) :
    AcceptGives (some i) s (s.report i new) := by
  refine ⟨⟨_, rfl, fun e hmem => ?_⟩, Nat.le_refl _⟩
  obtain ⟨e', -, rfl⟩ := List.mem_map.mp hmem
  rfl

theorem lifecycleOf_reported (s : AcceptShared) (i : ℕ) (new : LifecycleLog) :
    lifecycleOf i (s.report i new).history = new ++ lifecycleOf i s.history := by
  rw [AcceptShared.report, lifecycleOf_append, lifecycleOf_report]

theorem requestsOf_reported (s : AcceptShared) (i : ℕ) (new : LifecycleLog) :
    requestsOf i (s.report i new).history = requestsOf i s.history := by
  rw [AcceptShared.report, requestsOf_append, Nat.add_eq_right, requestsOf, List.countP_eq_zero]
  intro e hmem
  obtain ⟨e', -, rfl⟩ := List.mem_map.mp hmem
  simp

section Task

variable {task : ConnectionTask} {c c' : Connection} {new : LifecycleLog}

/-- What a task asserts in the end. -/
theorem taskOwn_ended {why : TaskEnd} (hgoes : TaskGoesOn i s.history)
    (hlog : ∃ sample config, setup.config.lifecycle sample = some config ∧
      Orderly config (lifecycleOf i s.history)) : TaskOwn setup i (s.finish i why) .ended := by
  refine ⟨happened_cons.mpr (.inr hgoes.1), ⟨why, happened_cons.mpr (.inl rfl)⟩, ?_⟩
  exact hlog

/-- A task ends. -/
theorem sustained_finish (hinv : AcceptInv setup n s) (hi : i ≠ 0)
    (hgoes : TaskGoesOn i s.history) {why : TaskEnd} (hmay : setup.MayEnd s.history s.now i why)
    (hlog : ∃ sample config, setup.config.lifecycle sample = some config ∧
      Orderly config (lifecycleOf i s.history)) :
    Sustained setup i n s ⟨s.finish i why, .task .ended, none⟩ := by
  refine ⟨hinv.emit_ended (by simp) (by simp) (fun j => ?_) ⟨hinv.past, hgoes, hmay⟩,
    ⟨hi, taskOwn_ended hgoes hlog⟩, ?_, by simp⟩
  · simp [eq_comm]
  · exact ⟨⟨[(s.now, .ended i why)], rfl, by simp [AcceptEvent.owner]⟩, Nat.le_refl _⟩

/-- The lifecycle of a connection that is not served yet. -/
theorem Unserved.orderly {log : AcceptHistory} (h : Unserved i log) :
    ∃ sample config, setup.config.lifecycle sample = some config ∧
      Orderly config (lifecycleOf i log) := by
  obtain ⟨config, hconfig⟩ := setup.config.exists_lifecycle 0
  refine ⟨0, config, hconfig, ?_⟩
  rw [h.2.1]
  exact .nil

/-- The lifecycle of a connection whose task has not ended. -/
theorem orderly_of_taskOwn (h : TaskOwn setup i s task) :
    ∃ sample config, setup.config.lifecycle sample = some config ∧
      Orderly config (lifecycleOf i s.history) := by
  cases task with
  | spawned => exact Unserved.orderly h
  | handshaking timer => exact h.1.orderly
  | serving c =>
    obtain ⟨sample, hconfig⟩ := h.config
    refine ⟨sample, c.config, hconfig, ?_⟩
    rw [h.log]
    exact h.lifecycle.orderly
  | ended => exact h.2.2

/-- A task that has not ended goes on. -/
theorem goesOn_of_taskOwn (h : TaskOwn setup i s task) (hended : task ≠ .ended) :
    TaskGoesOn i s.history := by
  cases task with
  | spawned => exact h.1
  | handshaking timer => exact h.1.1
  | serving c => exact h.goesOn
  | ended => exact absurd rfl hended

/-- The lifecycle goes on. -/
theorem Connection.goOn_running (hlog : c'.served.log = new ++ c.served.log)
    (hended : c'.served.ended = false) : c.goOn c' s i = (s.report i new, .serving c') := by
  rw [goOn, newEvents_eq hlog, hended]
  rfl

/-- The lifecycle ends. -/
theorem Connection.goOn_ended (hlog : c'.served.log = new ++ c.served.log)
    (hended : c'.served.ended = true) :
    c.goOn c' s i = ((s.report i new).finish i .served, .ended) := by
  rw [goOn, newEvents_eq hlog, hended]
  rfl

/-- **Something was done to a connection**: it is reported, and the task ends with the
lifecycle. -/
theorem sustained_goOn (hinv : AcceptInv setup n s) (hi : i ≠ 0)
    (hgoes : TaskGoesOn i s.history) (hlog : lifecycleOf i s.history = c.served.log)
    (hrunning : c.served.ended = false) (hadds : Adds c.served c'.served new)
    (hnow : c'.served.now ≤ s.now) (htimes : ∀ e ∈ new, e.1 = s.now)
    (hobserve : ∀ e ∈ new, setup.MayObserve s.history i e.2)
    (hlifecycle : LifecycleInv c'.config c'.served)
    (hconfig : ∃ sample, setup.config.lifecycle sample = some c'.config)
    (hcounter : c'.counter = setup.config.maxRequestsPerConnection.map fun max =>
      .counted max (requestsOf i s.history)) :
    Sustained setup i n s ⟨(c.goOn c' s i).1, .task (c.goOn c' s i).2, none⟩ := by
  have hreport : AcceptInv setup n (s.report i new) :=
    hinv.report hgoes htimes hobserve
  have hgoes' : TaskGoesOn i (s.report i new).history := hgoes.report new
  have hlog' : lifecycleOf i (s.report i new).history = c'.served.log := by
    rw [lifecycleOf_reported, hlog, hadds.log]
  rcases hended : c'.served.ended with _ | _
  · rw [Connection.goOn_running hadds.log hended]
    refine ⟨hreport, ⟨hi, hgoes', hlifecycle, hlog', hended, hnow, hconfig, ?_⟩,
      .report s i new, by simp⟩
    rw [requestsOf_reported]
    exact hcounter
  · rw [Connection.goOn_ended hadds.log hended]
    obtain ⟨t, closed, hmem⟩ := hadds.ends hrunning hended
    have hfinish : Sustained setup i n (s.report i new)
        ⟨(s.report i new).finish i .served, .task .ended, none⟩ := by
      apply sustained_finish hreport hi hgoes'
      · refine ⟨t, closed, ?_⟩
        rw [lifecycleOf_reported]
        exact List.mem_append_left _ hmem
      · obtain ⟨sample, hsample⟩ := hconfig
        refine ⟨sample, c'.config, hsample, ?_⟩
        rw [hlog']
        exact hlifecycle.orderly
    exact ⟨hfinish.inv, hfinish.own, (AcceptGives.report s i new).trans hfinish.gives, by simp⟩

/-- What is done to a connection adds to its log. -/
theorem Connection.exists_adds_act (c : Connection) {now : ℕ} (hle : c.served.now ≤ now)
    {a : ServeAction} (ha : ∀ time, a ≠ .wait time) :
    ∃ new, Adds c.served (c.act now a).served new ∧ (c.act now a).served.now = now ∧
      ∀ t f, f ≠ .conn → (t, .polled f true) ∈ new →
        ∃ answer, a = .poll answer ∧ answer.isSome = true ∧ c.served.lifecycle.next = f := by
  obtain ⟨new, hadds, hpolled⟩ := exists_adds (c.served.step (.wait (now - c.served.now))) a
  refine ⟨new, ⟨hadds.log, hadds.now, hadds.ends⟩, ?_, hpolled⟩
  have hsame := (c.served.step (.wait (now - c.served.now))).now_step ha
  have hwait : (c.served.step (.wait (now - c.served.now))).now = now := by
    simp only [Served.step]
    omega
  exact hsame.trans hwait

/-- Where no channel is polled, anything may be observed. -/
theorem mayObserve_of_unpolled {log : AcceptHistory}
    (h : ∀ t f, f ≠ .conn → (t, .polled f true) ∉ new) :
    ∀ e ∈ new, setup.MayObserve log i e.2 := by
  rintro ⟨t, ev⟩ hmem
  unfold AcceptSetup.MayObserve
  split
  · next heq =>
    cases heq
    exact absurd hmem (h t .globalShutdown (by simp))
  · next heq =>
    cases heq
    exact absurd hmem (h t .requests (by simp))
  · trivial

/-- The turns of a task. -/
inductive TaskStep (setup : AcceptSetup) (s : AcceptShared) (i : ℕ) :
    ConnectionTask → AcceptShared × ConnectionTask → Prop where
  | panics {task : ConnectionTask} : task ≠ .ended →
    TaskStep setup s i task (s.finish i .panicked, .ended)
  | aborts {task : ConnectionTask} : task ≠ .ended → i ∈ s.aborting →
    TaskStep setup s i task (s.finish i .aborted, .ended)
  | shakes : setup.accept.tls = true → TaskStep setup s i .spawned
      (s, .handshaking ⟨s.now + setup.accept.tlsHandshakeTimeout⟩)
  | begins {c : ConnectionSetup} {r : AcceptShared × ConnectionTask} :
    setup.begin s i c = some r → TaskStep setup s i .spawned r
  | shaken {timer : Sleep} {c : ConnectionSetup} {r : AcceptShared × ConnectionTask} :
    setup.begin s i c = some r → TaskStep setup s i (.handshaking timer) r
  | fails {timer : Sleep} : TaskStep setup s i (.handshaking timer)
      (s.finish i .handshakeFailed, .ended)
  | timesOut {timer : Sleep} : timer.deadline ≤ s.now →
    TaskStep setup s i (.handshaking timer) (s.finish i .handshakeTimedOut, .ended)
  | polls {c : Connection} {answer : Option (Except ConnectionError Unit)} :
    TaskStep setup s i (.serving c) (c.goOn (c.act s.now (.poll (c.heard s answer))) s i)
  | requests {c : Connection} :
    TaskStep setup s i (.serving c) (c.goOn (c.dispatch s.now) (s.emit (.requested i)) i)
  | finishes {c : Connection} {guard : ℕ} :
    TaskStep setup s i (.serving c) (c.goOn (c.act s.now (.finish guard)) s i)

/-- **A task makes no other turns.** -/
theorem taskStep_of_turn {x : TaskChoice} {r : AcceptShared × ConnectionTask}
    (h : setup.taskTurn s i x task = some r) : TaskStep setup s i task r := by
  unfold AcceptSetup.taskTurn at h
  split at h
  · cases h
  · next hended =>
    obtain rfl := Option.some.inj h
    exact .panics hended
  · cases h
  · next hended =>
    split at h
    · next hmem =>
      obtain rfl := Option.some.inj h
      exact .aborts hended hmem
    · cases h
  · split at h
    · next htls =>
      obtain rfl := Option.some.inj h
      exact .shakes htls
    · exact .begins h
  · exact .shaken h
  · obtain rfl := Option.some.inj h
    exact .fails
  · split at h
    · next hready =>
      obtain rfl := Option.some.inj h
      rw [Sleep.isReady, Bool.and_eq_true, decide_eq_true_eq] at hready
      exact .timesOut hready.2
    · cases h
  · obtain rfl := Option.some.inj h
    exact .polls
  · obtain rfl := Option.some.inj h
    exact .requests
  · obtain rfl := Option.some.inj h
    exact .finishes
  · cases h

/-- A connection is set up. -/
theorem sustained_begin (hinv : AcceptInv setup n s) (hi : i ≠ 0) (hnew : Unserved i s.history)
    {x : ConnectionSetup} {r : AcceptShared × ConnectionTask} (h : setup.begin s i x = some r) :
    Sustained setup i n s ⟨r.1, .task r.2, none⟩ := by
  rw [AcceptSetup.begin] at h
  split at h
  · next hrefused =>
    obtain rfl := Option.some.inj h
    rw [Bool.and_eq_true] at hrefused
    exact sustained_finish hinv hi hnew.1 ⟨hrefused.1, hnew.2.1⟩ hnew.orderly
  · obtain ⟨config, hconfig⟩ := setup.config.exists_lifecycle x.sample
    rw [hconfig, Option.bind_eq_bind, Option.bind_some] at h
    obtain rfl := Option.some.inj h
    have hlifecycle := lifecycleInv_accept config s.now
    have hlog : ∀ e ∈ (config.accept s.now).log, e = (s.now, .armed .idle) := by
      intro e hmem
      obtain ⟨_, -, rfl⟩ := List.mem_map.mp hmem
      rfl
    have hreport : AcceptInv setup n (s.report i (config.accept s.now).log) := by
      apply hinv.report hnew.1
      · intro e hmem
        rw [hlog e hmem]
      · intro e hmem
        rw [hlog e hmem]
        trivial
    refine ⟨hreport, ⟨hi, hnew.1.report _, hlifecycle, ?_, rfl, Nat.le_refl _,
      ⟨x.sample, hconfig⟩, ?_⟩, .report s i _, by simp⟩
    · rw [lifecycleOf_reported, hnew.2.1, List.append_nil]
    · rw [requestsOf_reported, hnew.2.2]
      apply Option.map_congr
      intro max _
      -- no maximum is zero
      have hpos : ¬max.val.toNat ≤ 0 := fun hle => max.pos (UInt64.toNat_inj.mp (Nat.le_zero.mp hle))
      simp [RequestCounter.counted, hpos]

/-- The lifecycle of a connection is polled. -/
theorem sustained_polls (hinv : AcceptInv setup n s) (hi : i ≠ 0)
    (hown : ConnectionOwn setup i c s) (answer : Option (Except ConnectionError Unit)) :
    Sustained setup i n s ⟨(c.goOn (c.act s.now (.poll (c.heard s answer))) s i).1,
      .task (c.goOn (c.act s.now (.poll (c.heard s answer))) s i).2, none⟩ := by
  obtain ⟨new, hadds, hnow, hpolled⟩ :=
    c.exists_adds_act hown.now (a := .poll (c.heard s answer)) (by simp)
  apply sustained_goOn hinv hi hown.goesOn hown.log hown.running hadds (Nat.le_of_eq hnow)
    (fun e hmem => (hadds.now e hmem).trans hnow)
  · rintro ⟨t, ev⟩ hmem
    unfold AcceptSetup.MayObserve
    split
    · next heq =>
      cases heq
      obtain ⟨_, heq, hsome, hnext⟩ := hpolled t .globalShutdown (by simp) hmem
      cases heq
      apply hinv.ready
      -- the answer is heard only if the channel says so
      rw [Connection.heard, hnext] at hsome
      by_contra hnot
      simp [hnot] at hsome
    · next heq =>
      cases heq
      obtain ⟨_, heq, hsome, hnext⟩ := hpolled t .requests (by simp) hmem
      cases heq
      rw [Connection.heard, hnext, hown.counter] at hsome
      rcases hmax : setup.config.maxRequestsPerConnection with _ | max
      · simp [hmax] at hsome
      · refine ⟨max, rfl, ?_⟩
        by_contra hnot
        simp [hmax, RequestCounter.counted, hnot] at hsome
    · trivial
  · exact hown.lifecycle.run
  · exact hown.config
  · exact hown.counter

/-- A guard is dropped. -/
theorem sustained_finishes (hinv : AcceptInv setup n s) (hi : i ≠ 0)
    (hown : ConnectionOwn setup i c s) (guard : ℕ) :
    Sustained setup i n s ⟨(c.goOn (c.act s.now (.finish guard)) s i).1,
      .task (c.goOn (c.act s.now (.finish guard)) s i).2, none⟩ := by
  obtain ⟨new, hadds, hnow, hpolled⟩ := c.exists_adds_act hown.now (a := .finish guard) (by simp)
  apply sustained_goOn hinv hi hown.goesOn hown.log hown.running hadds (Nat.le_of_eq hnow)
    (fun e hmem => (hadds.now e hmem).trans hnow)
  · exact mayObserve_of_unpolled fun t f hf hmem => by simpa using hpolled t f hf hmem
  · exact hown.lifecycle.run
  · exact hown.config
  · exact hown.counter

/-- A request is dispatched. -/
theorem sustained_requests (hinv : AcceptInv setup n s) (hi : i ≠ 0)
    (hown : ConnectionOwn setup i c s) :
    Sustained setup i n s ⟨(c.goOn (c.dispatch s.now) (s.emit (.requested i)) i).1,
      .task (c.goOn (c.dispatch s.now) (s.emit (.requested i)) i).2, none⟩ := by
  have hrequested : AcceptInv setup n (s.emit (.requested i)) :=
    hinv.emit (by simp) (by simp) (by simp) ⟨hinv.past, hown.goesOn⟩
  have hgoes : TaskGoesOn i (s.emit (.requested i)).history :=
    ⟨happened_cons.mpr (.inr hown.goesOn.1), fun why h => by
      rcases happened_cons.mp h with heq | h
      · cases heq
      · exact hown.goesOn.2 why h⟩
  have hcounter : c.counter.map RequestCounter.recordRequest =
      setup.config.maxRequestsPerConnection.map fun max =>
        .counted max (requestsOf i (s.emit (.requested i)).history) := by
    have hone : requestsOf i (s.emit (.requested i)).history = requestsOf i s.history + 1 := by
      simp [requestsOf, AcceptShared.emit]
    rw [hown.counter, hone, Option.map_map]
    apply Option.map_congr
    intro max _
    exact RequestCounter.recordRequest_counted max _
  have hgives := @AcceptGives.emit s (.requested i) (some i) rfl
  suffices h : Sustained setup i n (s.emit (.requested i))
      ⟨(c.goOn (c.dispatch s.now) (s.emit (.requested i)) i).1,
        .task (c.goOn (c.dispatch s.now) (s.emit (.requested i)) i).2, none⟩ from
    ⟨h.inv, h.own, hgives.trans h.gives, h.started⟩
  rw [Connection.dispatch]
  dsimp only
  split
  · obtain ⟨new, hadds, hnow, hpolled⟩ := Connection.exists_adds_act
      { c with counter := c.counter.map RequestCounter.recordRequest } hown.now (a := .start)
      (by simp)
    apply sustained_goOn hrequested hi hgoes hown.log hown.running hadds (Nat.le_of_eq hnow)
      (fun e hmem => (hadds.now e hmem).trans hnow)
    · exact mayObserve_of_unpolled fun t f hf hmem => by simpa using hpolled t f hf hmem
    · exact hown.lifecycle.run
    · exact hown.config
    · exact hcounter
  · have hadds : Adds c.served c.served [] :=
      ⟨rfl, by simp, fun h h' => absurd (h.symm.trans h') (by simp)⟩
    let c' : Connection := { c with counter := c.counter.map RequestCounter.recordRequest }
    have hadds' : Adds c.served c'.served [] := hadds
    exact sustained_goOn hrequested hi hgoes hown.log hown.running hadds' hown.now
      (by simp) (by simp) hown.lifecycle hown.config hcounter

/-- **The turns of tasks.** -/
theorem sustained_task (hinv : AcceptInv setup n s) (hi : i ≠ 0) (hown : TaskOwn setup i s task)
    {r : AcceptShared × ConnectionTask} (h : TaskStep setup s i task r) :
    Sustained setup i n s ⟨r.1, .task r.2, none⟩ := by
  cases h with
  | panics hended =>
    exact sustained_finish hinv hi (goesOn_of_taskOwn hown hended) trivial
      (orderly_of_taskOwn hown)
  | aborts hended hmem =>
    exact sustained_finish hinv hi (goesOn_of_taskOwn hown hended) (hinv.aborting i hmem)
      (orderly_of_taskOwn hown)
  | shakes htls =>
    obtain ⟨t, hmem⟩ := hown.1.1
    refine ⟨hinv, ⟨hi, hown, htls, t, hmem, ?_⟩, .refl _ _, by simp⟩
    exact Nat.add_le_add_right (hinv.past _ hmem) _
  | begins hbegin => exact sustained_begin hinv hi hown hbegin
  | shaken hbegin => exact sustained_begin hinv hi hown.1 hbegin
  | fails =>
    exact sustained_finish hinv hi hown.1.1 ⟨hown.2.1, hown.1.2.1⟩ hown.1.orderly
  | timesOut hdue =>
    obtain ⟨hnew, htls, t, hmem, hle⟩ := hown
    exact sustained_finish hinv hi hnew.1 ⟨htls, hnew.2.1, t, hmem, Nat.le_trans hle hdue⟩
      hnew.orderly
  | polls => exact sustained_polls hinv hi hown _
  | requests => exact sustained_requests hinv hi hown
  | finishes => exact sustained_finishes hinv hi hown _

end Task

/-! ## The system -/

/-- Time passes, or the shutdown signal resolves. -/
theorem acceptInv_outside (hinv : AcceptInv setup n s) (o : AcceptOutside) :
    AcceptInv setup n (setup.system.outside o s) ∧
      AcceptGives none s (setup.system.outside o s) := by
  cases o with
  | wait time =>
    refine ⟨{ hinv with past := ?_ }, ⟨[], rfl, by simp⟩, Nat.le_add_right _ _⟩
    exact fun e hmem => Nat.le_trans (hinv.past e hmem) (Nat.le_add_right _ _)
  | fire =>
    simp only [AcceptSetup.system]
    split
    · next hfire =>
      rw [Bool.and_eq_true, Bool.not_eq_true'] at hfire
      have hnot : ¬Happened s.history .fired := fun h => by
        rw [hinv.fired.mpr h] at hfire
        cases hfire.2
      refine ⟨⟨.cons ⟨hinv.past, hfire.1, hnot⟩ hinv.ordered, ?_, ?_, ?_, ?_, ?_, ?_⟩,
        ⟨[(s.now, .fired)], rfl, by simp [AcceptEvent.owner]⟩, Nat.le_refl _⟩
      · intro e hmem
        rcases List.mem_cons.mp hmem with rfl | hmem
        · exact Nat.le_refl _
        · exact hinv.past e hmem
      · intro j
        simpa [AcceptShared.emit] using hinv.accepted j
      · simp [AcceptShared.emit]
      · exact fun h => (hinv.ready h).imp (@Happened.mono _ [(s.now, .fired)] _)
          (@LoopGone.mono _ [(s.now, .fired)])
      · intro j
        simpa [AcceptShared.emit] using hinv.ended j
      · intro j hmem
        simpa [AcceptShared.emit] using hinv.aborting j hmem
    · exact ⟨hinv, .refl _ _⟩

variable (setup) in
/-- **The processes keep what they assert.** -/
theorem accept_sustains : setup.system.Sustains (AcceptInv setup) (AcceptOwn setup)
    AcceptGives where
  turn := by
    intro i n x s proc r hr hi hinv hown
    have h : Sustained setup i n s r := by
      cases x with
      | loop x =>
        cases proc with
        | loop stage connections =>
          obtain ⟨rfl, hown⟩ := hown
          exact sustained_loop hinv hi hown (loopStep_of_turn hr)
        | task task => cases hr
      | task x =>
        cases proc with
        | loop stage connections => cases hr
        | task task =>
          obtain ⟨out, hout, rfl⟩ := Option.map_eq_some_iff.mp hr
          exact sustained_task hinv hown.1 hown.2 (taskStep_of_turn hout)
    exact ⟨h.inv, h.own, h.gives, h.started⟩
  outside := fun {_ o _} hinv => acceptInv_outside hinv o
  stable := acceptOwn_stable

/-- The start. -/
theorem holds_acceptStart (setup : AcceptSetup) (now : ℕ) :
    System.Holds (AcceptInv setup) (AcceptOwn setup) (acceptStart now) where
  inv := by
    refine ⟨.nil, by simp [acceptStart], fun j => ?_, by simp [acceptStart], ?_,
      by simp [acceptStart], by simp [acceptStart]⟩
    · simp [acceptStart]
      omega
    · simp [acceptStart, AcceptShared.globalShutdownReady, Channel.new]
  own := by
    intro i proc hproc
    obtain ⟨hlt, heq⟩ := List.getElem?_eq_some_iff.mp hproc
    obtain rfl : i = 0 := Nat.lt_one_iff.mp hlt
    obtain rfl := heq
    refine ⟨rfl, ⟨⟨by simp [acceptStart], by simp [LoopGone, acceptStart]⟩,
      by simp [acceptStart], by simp [acceptStart]⟩, by simp [acceptStart], List.nodup_nil⟩

/-- What holds after every run. -/
theorem holds_run (setup : AcceptSetup) (now : ℕ)
    (acts : List (Action AcceptChoice AcceptOutside)) :
    System.Holds (AcceptInv setup) (AcceptOwn setup) (setup.run now acts) :=
  (accept_sustains setup).run (holds_acceptStart setup now) acts

/-- **The accept loop**, over every schedule of what is polled, and whatever the listener, the
peers, the handlers and the clock do. -/
theorem accept_loop (setup : AcceptSetup) (now : ℕ)
    (acts : List (Action AcceptChoice AcceptOutside)) :
    setup.AcceptLaw (setup.run now acts).shared.history := by
  have hholds := holds_run setup now acts
  refine ⟨fun hsplit => ordered_iff.mp hholds.inv.ordered _ _ _ hsplit, fun i => ?_⟩
  by_cases haccepted : Happened (setup.run now acts).shared.history (.accepted i)
  · obtain ⟨hpos, hlt⟩ := (hholds.inv.accepted i).mp haccepted
    have hown := hholds.own (List.getElem?_eq_getElem hlt)
    rcases hproc : (setup.run now acts).procs[i] with ⟨stage, connections⟩ | task
    · rw [hproc] at hown
      exact absurd hown.1 (Nat.ne_of_gt hpos)
    · rw [hproc] at hown
      exact orderly_of_taskOwn hown.2
  · obtain ⟨config, hconfig⟩ := setup.config.exists_lifecycle 0
    refine ⟨0, config, hconfig, ?_⟩
    rw [hholds.inv.lifecycleOf_eq_nil haccepted]
    exact .nil

/-! ## After the shutdown -/

/-- Whether `accept` answers. -/
def AcceptEvent.isAnswer : AcceptEvent → Bool
  | accepted _ => true
  | failed _ => true
  | _ => false

/-- An answer after the shutdown signal has resolved is late. -/
theorem late_of_answer {e : ℕ × AcceptEvent} {before : AcceptHistory} {t : ℕ} :
    ∀ {after : AcceptHistory}, e ∈ after → e.2.isAnswer = true →
      late (after ++ (t, .fired) :: before) = true := by
  intro after
  induction after with
  | nil =>
    intro hmem
    cases hmem
  | cons e' after ih =>
    intro hmem hanswer
    have hfired : ((after ++ (t, .fired) :: before).any fun e => e.2.isFired) = true := by
      simp [AcceptEvent.isFired]
    obtain ⟨t', ev⟩ := e'
    rcases List.mem_cons.mp hmem with rfl | hmem
    · cases ev with
      | accepted _ => simp [late, hfired]
      | failed _ => simp [late, hfired]
      | _ => cases hanswer
    · have hlate := ih hmem hanswer
      cases ev with
      | accepted _ => simp [late, hlate]
      | failed _ => simp [late, hlate]
      | _ => exact hlate

/-- **Once the shutdown signal has resolved, `accept` answers at most once more.** -/
theorem accept_after_shutdown (setup : AcceptSetup) (now : ℕ)
    (acts : List (Action AcceptChoice AcceptOutside)) {after before : AcceptHistory} {t : ℕ}
    (h : (setup.run now acts).shared.history = after ++ (t, .fired) :: before) :
    (after.countP fun e => e.2.isAnswer) ≤ 1 := by
  have hordered := (holds_run setup now acts).inv.ordered
  rw [h] at hordered
  clear h
  induction after with
  | nil => simp
  | cons e after ih =>
    obtain ⟨hallowed, hrest⟩ := ordered_cons.mp hordered
    have hcount := ih hrest
    rw [List.countP_cons]
    split
    · next hanswer =>
      -- an answer is allowed only if there was none
      have htimely : late (after ++ (t, .fired) :: before) = false := by
        obtain ⟨t', ev⟩ := e
        cases ev with
        | accepted _ => exact hallowed.2.1.timely
        | failed _ => exact hallowed.2.timely
        | _ => cases hanswer
      have hnone : (after.countP fun e => e.2.isAnswer) = 0 := by
        rw [List.countP_eq_zero]
        intro e' hmem hanswer'
        rw [late_of_answer hmem hanswer'] at htimely
        cases htimely
      rw [hnone]
    · exact hcount

/-- A server without TLS, whose connections nothing retires. -/
def plainSetup : AcceptSetup :=
  ⟨⟨false, none⟩, ⟨none, none, none, 0⟩, false, true⟩

/-- A connection may be accepted after the signal, if the signal was polled before. -/
theorem accept_after_shutdown_once :
    ([(0, .accepted 1)] : AcceptHistory).countP (fun e => e.2.isAnswer) ≤ 1 :=
  @accept_after_shutdown plainSetup 0
    [.turn 0 (.loop .pending), .turn 0 (.loop .pending), .outside .fire,
      .turn 0 (.loop (.accepted (.ok ())))] _ [] 0 rfl

/-- A loop that drains and has been told that the tasks have ended, in some order. -/
theorem drain_run : ∀ {order connections : List ℕ} {p : Pool AcceptShared AcceptProcess},
    p.procs[0]? = some (.loop .draining connections) → order.Perm connections →
    (∀ i ∈ connections, i ∈ p.shared.ended) →
    (setup.system.run p
      (order.map (fun i => .turn 0 (.loop (.joined i))) ++ [.turn 0 (.loop .pending)])
      ).shared.history =
      (p.shared.now, .returned (.ok ())) ::
        (order.reverse.map fun i => (p.shared.now, .joined i)) ++ p.shared.history := by
  intro order
  induction order with
  | nil =>
    intro connections p hloop hperm _
    obtain rfl := hperm.symm.eq_nil
    have hturn : setup.system.turn 0 p.procs.length (.loop .pending) p.shared
        (.loop .draining []) =
        some ⟨p.shared.dropSender.emit (.returned (.ok ())), .loop .gone [], none⟩ := rfl
    rw [List.map_nil, List.nil_append, System.run, List.foldl_cons, List.foldl_nil,
      setup.system.step_turn hloop hturn]
    rfl
  | cons i order ih =>
    intro connections p hloop hperm hended
    have hmem : i ∈ connections := hperm.subset List.mem_cons_self
    have hempty : connections.isEmpty = false := by
      rw [List.isEmpty_eq_false_iff_exists_mem]
      exact ⟨i, hmem⟩
    have hturn : setup.system.turn 0 p.procs.length (.loop (.joined i)) p.shared
        (.loop .draining connections) =
        some ⟨p.shared.emit (.joined i), .loop .draining (connections.erase i), none⟩ := by
      have hjoin : p.shared.joinNext connections (.joined i) = some i :=
        if_pos ⟨hmem, hended i hmem⟩
      simp only [AcceptSetup.system, AcceptShared.loopTurn, hempty, hjoin, Bool.false_eq_true,
        if_false]
    have hloop' : (setup.system.step p (.turn 0 (.loop (.joined i)))).procs[0]? =
        some (.loop .draining (connections.erase i)) := by
      rw [setup.system.step_turn hloop hturn]
      have hlt : 0 < p.procs.length := (List.getElem?_eq_some_iff.mp hloop).1
      simp [hlt]
    have hperm' : order.Perm (connections.erase i) := by
      simpa using hperm.erase i
    have hended' : ∀ j ∈ connections.erase i,
        j ∈ (setup.system.step p (.turn 0 (.loop (.joined i)))).shared.ended := by
      intro j hj
      rw [setup.system.step_turn hloop hturn]
      exact hended j (List.mem_of_mem_erase hj)
    have hrest := ih hloop' hperm' hended'
    have hstep : (setup.system.step p (.turn 0 (.loop (.joined i)))).shared =
        p.shared.emit (.joined i) := by
      rw [setup.system.step_turn hloop hturn]
    rw [hstep] at hrest
    rw [List.map_cons, List.cons_append, System.run, List.foldl_cons]
    refine hrest.trans ?_
    simp [AcceptShared.emit]

/-- The connections are told to drain only once the loop has noticed the shutdown. -/
theorem AcceptInv.noticed (hinv : AcceptInv setup n s) (h : Happened s.history .signalled) :
    Happened s.history .noticed := by
  obtain ⟨t, hmem⟩ := h
  obtain ⟨after, before, hsplit⟩ := List.append_of_mem hmem
  obtain ⟨-, t', rest, rfl⟩ := ordered_iff.mp hinv.ordered after _ before hsplit
  refine ⟨t', ?_⟩
  rw [hsplit]
  simp

/-- The stage of a loop that has told the connections to drain. -/
theorem AcceptStage.Fits.draining {stage : AcceptStage} {now : ℕ}
    (hfits : stage.Fits now s.history) (hinv : AcceptInv setup n s)
    (hsignalled : Happened s.history .signalled) (hgone : ¬LoopGone s.history) :
    stage = .draining := by
  have hnoticed := hinv.noticed hsignalled
  cases stage with
  | accepting branch =>
    cases branch with
    | shutdown => exact absurd hnoticed (AcceptOpen.accepting hfits).1
    | joinNext => exact absurd hnoticed (AcceptOpen.accepting hfits.toAcceptOpen).1
    | accept => exact absurd hnoticed (AcceptOpen.accepting hfits.toAcceptOpen).1
  | backingOff timer _ => exact absurd hnoticed (AcceptOpen.accepting hfits).1
  | draining => rfl
  | gone => exact absurd hfits hgone

/-- **The loop that drains returns**, once the tasks of all connections have ended: it joins those
that it has not joined, in whatever order their results come, and then returns. -/
theorem drain_returns (setup : AcceptSetup) (now : ℕ)
    (acts : List (Action AcceptChoice AcceptOutside)) {order : List ℕ}
    (hsignalled : Happened (setup.run now acts).shared.history .signalled)
    (hgone : ¬LoopGone (setup.run now acts).shared.history)
    (hended : ∀ i, Happened (setup.run now acts).shared.history (.accepted i) →
      ∃ why, Happened (setup.run now acts).shared.history (.ended i why))
    (hnodup : order.Nodup)
    (horder : ∀ i, i ∈ order ↔ Happened (setup.run now acts).shared.history (.accepted i) ∧
      ¬Happened (setup.run now acts).shared.history (.joined i)) :
    (setup.run now (acts ++
      (order.map (fun i => .turn 0 (.loop (.joined i))) ++ [.turn 0 (.loop .pending)])
      )).shared.history =
      ((setup.run now acts).shared.now, .returned (.ok ())) ::
        (order.reverse.map fun i => ((setup.run now acts).shared.now, .joined i)) ++
        (setup.run now acts).shared.history := by
  have hholds := holds_run setup now acts
  have hlt : 0 < (setup.run now acts).procs.length :=
    Nat.lt_of_lt_of_le (Nat.zero_lt_one) (setup.system.procs_length_le acts (acceptStart now))
  have hproc := List.getElem?_eq_getElem hlt
  have hown := hholds.own hproc
  rcases hloop : (setup.run now acts).procs[0] with ⟨stage, connections⟩ | task
  · rw [hloop] at hown hproc
    -- a loop that has told the connections to drain and is not gone, drains
    obtain rfl := hown.2.fits.draining hholds.inv hsignalled hgone
    have hheld := hown.2.held (by simp)
    have hperm : order.Perm connections := by
      rw [List.perm_ext_iff_of_nodup hnodup hown.2.nodup]
      exact fun i => (horder i).trans (hheld i).symm
    rw [AcceptSetup.run, System.run_append]
    exact drain_run hproc hperm fun i hmem =>
      (hholds.inv.ended i).mpr (hended i ((hheld i).mp hmem).1)
  · rw [hloop] at hown
    exact absurd rfl hown.1

/-- A connection is accepted, its task panics, and the loop returns after the shutdown. -/
theorem drain_returns_panicked :
    (plainSetup.run 0 ([.turn 0 (.loop .pending), .turn 0 (.loop .pending),
      .turn 0 (.loop (.accepted (.ok ()))), .turn 1 (.task .panic), .outside .fire,
      .turn 0 (.loop .pending)] ++ ([1].map (fun i => .turn 0 (.loop (.joined i))) ++
        [.turn 0 (.loop .pending)]))).shared.history =
      [(0, .returned (.ok ())), (0, .joined 1), (0, .signalled), (0, .noticed), (0, .fired),
        (0, .ended 1 .panicked), (0, .accepted 1)] := by
  have hrun : (plainSetup.run 0 [.turn 0 (.loop .pending), .turn 0 (.loop .pending),
      .turn 0 (.loop (.accepted (.ok ()))), .turn 1 (.task .panic), .outside .fire,
      .turn 0 (.loop .pending)]).shared.history =
      [(0, .signalled), (0, .noticed), (0, .fired), (0, .ended 1 .panicked), (0, .accepted 1)] :=
    rfl
  refine drain_returns plainSetup 0 _ ?_ ?_ ?_ (List.nodup_singleton 1) ?_
  · simp [hrun]
  · simp [hrun, LoopGone]
  · simp [hrun]
  · simp [hrun, eq_comm]

end Invariant

end ConnectRpc
