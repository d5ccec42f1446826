import ConnectRpc.Readiness
import ConnectRpc.QueueBound
import Mathlib.Data.List.Induction

/-!
# Readiness of a shared connection

A handle of a shared connection is polled and called as a connection is. A failure belongs to all
who have waited for the attempt, and each of their handles reports it once (`HandleInv`); a
call that finds that the connection has been lost since connects again itself
(`RequestLaw`).
-/

namespace ConnectRpc

open Lib

/-! ## Handles of a shared connection -/

/-- What a caller sees of its handle. -/
inductive HandleEvent : Type where
  /-- `poll_ready` has gone on, or waits -/
  | waiting
  /-- it has found no connection, and has it established -/
  | entered
  /-- it is ready -/
  | ready
  /-- `call` has returned an error of the past -/
  | surfaced : ConnectError → HandleEvent
  /-- it has started a request, the process of this number -/
  | sent : ℕ → HandleEvent
  /-- it has found no slot -/
  | misused

/-- What a caller sees of an action of its handle. -/
def Shared.observes (s : Shared) (i n : ℕ) (h : SharedHttp2Connection) : Choice → Option HandleEvent
  | .pollReady =>
    match h.permit, h.connecting with
    | none, _ => some .waiting
    | some _, some stage =>
      match s.reconnect i n stage with
      | some (_, .returns _, _) => some .ready
      | _ => some .waiting
    | some _, none => if h.deferredError.isSome || s.isConnected then some .ready else some .entered
  | .call =>
    match h.permit, h.deferredError with
    | none, _ => some .misused
    | some _, some e => some (.surfaced e)
    | some _, none => some (.sent n)
  | _ => none

/-- What the caller of the handle `i` sees of an action. -/
def observe (i : ℕ) (p : Pool Shared Process) : Action Choice ℕ → Option HandleEvent
  | .turn j x =>
    if j = i then
      match p.procs[i]? with
      | some (.handle h) => p.shared.observes i p.procs.length h x
      | _ => none
    else none
  | .outside _ => none

/-- What it sees of a run, the latest first, after what it has seen. -/
def observed (i : ℕ) : List (Action Choice ℕ) → Pool Shared Process → List HandleEvent →
    List HandleEvent
  | [], _, seen => seen
  | a :: acts, p, seen => observed i acts (sharedConnection.step p a) ((observe i p a).toList ++ seen)

/-- Every call of the handle `i` follows a `poll_ready` that was ready. -/
def CallsReady (i : ℕ) (p : Pool Shared Process) (acts : List (Action Choice ℕ)) : Prop :=
  ∀ before after, acts = before ++ .turn i .call :: after →
    (observed i before p []).head? = some .ready

/-- A failure that is returned to `i`. -/
def DialEvent.failureTo (i : ℕ) : DialEvent → Option ConnectError
  | returned j (.error e) => if j = i then some e else none
  | _ => none

/-- The failures that have been returned to `i`, the latest first. -/
def failuresTo (i : ℕ) (h : List DialEvent) : List ConnectError :=
  h.filterMap (DialEvent.failureTo i)

/-- A failure that a call returns. -/
def HandleEvent.report : HandleEvent → Option ConnectError
  | surfaced e => some e
  | _ => none

/-- A call has returned. -/
def HandleEvent.isCall : HandleEvent → Bool
  | surfaced _ => true
  | sent _ => true
  | misused => true
  | _ => false

/-- What has been seen since the latest call. -/
def sinceCall (seen : List HandleEvent) : List HandleEvent :=
  seen.takeWhile fun ev => !ev.isCall

/-- How a handle and what its caller has seen hang together. -/
structure HandleInv (i : ℕ) (seen : List HandleEvent) (h : SharedHttp2Connection) (s : Shared) :
    Prop where
  /-- every failure it has waited for is reported once, in order, but for one that is deferred -/
  once : failuresTo i s.history = h.deferredError.toList ++ seen.filterMap HandleEvent.report
  /-- an error is deferred where there is a slot for the call -/
  deferred : h.deferredError.isSome = true → h.permit.isSome = true ∧ h.connecting = none
  /-- and so it is where `poll_ready` is ready -/
  ready : seen.head? = some .ready → h.permit.isSome = true ∧ h.connecting = none
  /-- what it waits for, or has waited for, was entered since the latest call -/
  entered : h.connecting.isSome = true ∨ h.deferredError.isSome = true → .entered ∈ sinceCall seen
  /-- no call has found no slot -/
  upheld : .misused ∉ seen

/-- What holds of the process `i` if it is a handle. -/
structure HandleSeen (i : ℕ) (seen : List HandleEvent) (p : Pool Shared Process) : Prop where
  /-- it is one -/
  handle : ∀ h, p.procs[i]? = some (.handle h) → HandleInv i seen h p.shared
  /-- it is not there yet -/
  unborn : p.procs[i]? = none → seen = []

section Handles

variable {i n : ℕ} {s : Shared} {seen : List HandleEvent} {h : SharedHttp2Connection}

/-- Events of others return no failure to `i`. -/
theorem failuresTo_of_about {evs history : List DialEvent}
    (hevs : ∀ ev ∈ evs, ev.about ≠ some i) :
    failuresTo i (evs ++ history) = failuresTo i history := by
  have hnone : evs.filterMap (DialEvent.failureTo i) = [] := by
    rw [List.filterMap_eq_nil_iff]
    intro ev hev
    have habout := hevs ev hev
    cases ev with
    | returned j r =>
      cases r with
      | ok c => rfl
      | error e => exact if_neg fun hj => habout (congrArg some hj)
    | _ => rfl
  rw [failuresTo, List.filterMap_append, hnone]
  rfl

theorem failuresTo_returned (result : Except ConnectError ℕ) (history : List DialEvent) :
    failuresTo i (.returned i result :: history) =
      (match result with
      | .ok _ => []
      | .error e => [e]) ++ failuresTo i history := by
  rw [failuresTo, List.filterMap_cons]
  cases result with
  | ok c => rfl
  | error e =>
    simp only [DialEvent.failureTo, if_pos]
    rfl

/-- What a step of `reconnect` comes to. -/
inductive Reconnected (i : ℕ) (s : Shared) (r : Shared × Progress × Option Attempt) : Prop where
  /-- it goes on -/
  | goesOn {stage : ReconnectStage} (hstage : r.2.1 = .goesOn stage)
      (hfailures : failuresTo i r.1.history = failuresTo i s.history) : Reconnected i s r
  /-- it returns -/
  | returns {result : Except ConnectError ℕ} (hresult : r.2.1 = .returns result)
      (hhistory : r.1.history = .returned i result :: s.history) : Reconnected i s r

theorem reconnected {stage : ReconnectStage} {r : Shared × Progress × Option Attempt}
    (h : s.reconnect i n stage = some r) : Reconnected i s r := by
  cases stage with
  | awaiting k =>
    obtain ⟨joined, -, rfl⟩ := Option.map_eq_some_iff.mp h
    exact .returns rfl rfl
  | leaving result =>
    obtain rfl := Option.some.inj h
    exact .returns rfl rfl
  | entering =>
    obtain rfl := Option.some.inj h
    exact .goesOn rfl rfl
  | retiring seen =>
    obtain rfl := Option.some.inj h
    exact .goesOn rfl rfl
  | spawning seen =>
    obtain rfl := Option.some.inj h
    exact .goesOn rfl rfl
  | waiting seen =>
    rw [Shared.reconnect] at h
    split at h
    · obtain rfl := Option.some.inj h
      exact .goesOn rfl rfl
    · cases h
  | locked seen =>
    rw [Shared.reconnect] at h
    split at h
    · obtain rfl := Option.some.inj h
      exact .goesOn rfl rfl
    · obtain rfl := Option.some.inj h
      exact .goesOn rfl rfl
  | disconnected seen =>
    rw [Shared.reconnect] at h
    split at h
    · obtain rfl := Option.some.inj h
      exact .goesOn rfl rfl
    · obtain rfl := Option.some.inj h
      exact .goesOn rfl rfl
  | outdated seen =>
    rw [Shared.reconnect] at h
    split at h
    · obtain rfl := Option.some.inj h
      exact .goesOn rfl rfl
    · obtain rfl := Option.some.inj h
      exact .goesOn rfl rfl

/-- After a step of `poll_ready`. -/
theorem HandleInv.polled (hinv : HandleInv i seen h s) {ev : HandleEvent}
    (hev : ev.isCall = false) {h' : SharedHttp2Connection} {s' : Shared}
    (honce : failuresTo i s'.history = h'.deferredError.toList ++ seen.filterMap HandleEvent.report)
    (hdeferred : h'.deferredError.isSome = true → h'.permit.isSome = true ∧ h'.connecting = none)
    (hready : ev = .ready → h'.permit.isSome = true ∧ h'.connecting = none)
    (hentered : h'.connecting.isSome = true ∨ h'.deferredError.isSome = true →
      .entered ∈ ev :: sinceCall seen) :
    HandleInv i (ev :: seen) h' s' where
  once := by
    rw [honce]
    cases ev with
    | surfaced e => cases hev
    | _ => rfl
  deferred := hdeferred
  ready := fun hhead => hready (Option.some.inj hhead)
  entered := by
    rw [sinceCall, List.takeWhile_cons_of_pos (by rw [hev]; rfl)]
    exact hentered
  upheld := by
    intro hmem
    rcases List.mem_cons.mp hmem with rfl | hmem
    · cases hev
    · exact hinv.upheld hmem

/-- What has been entered stays so. -/
theorem HandleInv.entered_cons (hinv : HandleInv i seen h s) (ev : HandleEvent)
    (hwaits : h.connecting.isSome = true ∨ h.deferredError.isSome = true) :
    .entered ∈ ev :: sinceCall seen :=
  List.mem_cons_of_mem ev (hinv.entered hwaits)

/-- A poll that takes no step. -/
theorem HandleInv.idle (hinv : HandleInv i seen h s) (hnone : s.pollReady i n h = none) :
    HandleInv i ((s.observes i n h .pollReady).toList ++ seen) h s := by
  obtain ⟨permit, connecting, deferred⟩ := h
  rcases permit with _ | permit
  · exact hinv.polled rfl hinv.once hinv.deferred (fun hev => by cases hev) (hinv.entered_cons _)
  · rcases connecting with _ | stage
    · have hobserves : s.observes i n ⟨some permit, none, deferred⟩ .pollReady = some .ready := by
        rw [Shared.pollReady] at hnone
        rw [Shared.observes]
        simp only at hnone ⊢
        split at hnone
        · rename_i hcond
          rw [if_pos hcond]
        · cases hnone
      rw [hobserves]
      exact hinv.polled rfl hinv.once hinv.deferred (fun _ => ⟨rfl, rfl⟩) (hinv.entered_cons _)
    · have hstage : s.reconnect i n stage = none := Option.map_eq_none_iff.mp hnone
      have hobserves : s.observes i n ⟨some permit, some stage, deferred⟩ .pollReady =
          some .waiting := by
        simp only [Shared.observes, hstage]
      rw [hobserves]
      exact hinv.polled rfl hinv.once hinv.deferred (fun hev => by cases hev) (hinv.entered_cons _)

/-- A step of `poll_ready`. -/
theorem HandleInv.pollReady (hinv : HandleInv i seen h s)
    {r : Shared × SharedHttp2Connection × Option Attempt} (hr : s.pollReady i n h = some r) :
    HandleInv i ((s.observes i n h .pollReady).toList ++ seen) r.2.1 r.1 := by
  obtain ⟨permit, connecting, deferred⟩ := h
  rcases permit with _ | permit
  · obtain ⟨acquired, hacquired, rfl⟩ := Option.map_eq_some_iff.mp hr
    have hfailures : failuresTo i acquired.1.history = failuresTo i s.history := by
      rw [Shared.acquire] at hacquired
      split at hacquired
      · cases hacquired
      · obtain rfl := Option.some.inj hacquired
        rfl
    have hdeferred : deferred = none := by
      rcases deferred with _ | e
      · rfl
      · cases (hinv.deferred rfl).1
    subst hdeferred
    exact hinv.polled rfl (hfailures.trans hinv.once) (fun hsome => by cases hsome)
      (fun hev => by cases hev) (hinv.entered_cons _)
  · rcases connecting with _ | stage
    · rw [Shared.pollReady] at hr
      simp only at hr
      split at hr
      · cases hr
      · rename_i hcond
        have hobserves : s.observes i n ⟨some permit, none, deferred⟩ .pollReady =
            some .entered := if_neg hcond
        have hdeferred : deferred = none := by
          rcases deferred with _ | e
          · rfl
          · exact absurd rfl hcond
        obtain rfl := Option.some.inj hr
        subst hdeferred
        rw [hobserves]
        exact hinv.polled rfl hinv.once (fun hsome => by cases hsome) (fun hev => by cases hev)
          fun _ => List.mem_cons_self
    · obtain ⟨r', hr', rfl⟩ := Option.map_eq_some_iff.mp hr
      have hdeferred : deferred = none := by
        rcases deferred with _ | e
        · rfl
        · cases (hinv.deferred rfl).2
      subst hdeferred
      obtain ⟨s', progress, attempt⟩ := r'
      cases reconnected hr' with
      | @goesOn stage' hstage hfailures =>
        obtain rfl : progress = .goesOn stage' := hstage
        have hobserves : s.observes i n ⟨some permit, some stage, none⟩ .pollReady =
            some .waiting := by
          simp only [Shared.observes, hr']
        rw [hobserves]
        exact hinv.polled rfl (hfailures.trans hinv.once) (fun hsome => by cases hsome)
          (fun hev => by cases hev) fun _ => hinv.entered_cons _ (.inl rfl)
      | @returns result hresult hhistory =>
        obtain rfl : progress = .returns result := hresult
        have hobserves : s.observes i n ⟨some permit, some stage, none⟩ .pollReady =
            some .ready := by
          simp only [Shared.observes, hr']
        have honce := failuresTo_returned (i := i) result s.history
        rw [← hhistory, hinv.once] at honce
        rw [hobserves]
        rcases result with e | c
        · exact hinv.polled rfl honce (fun _ => ⟨rfl, rfl⟩) (fun _ => ⟨rfl, rfl⟩)
            fun _ => hinv.entered_cons _ (.inl rfl)
        · exact hinv.polled rfl honce (fun hsome => by cases hsome) (fun _ => ⟨rfl, rfl⟩)
            fun _ => hinv.entered_cons _ (.inl rfl)

/-- A call, after a `poll_ready` that was ready. -/
theorem HandleInv.call (hinv : HandleInv i seen h s) (hready : seen.head? = some .ready)
    {r : Turn Shared Process} (hr : s.handle i n .call h = some r) :
    ∃ h', r.self = .handle h' ∧
      HandleInv i ((s.observes i n h .call).toList ++ seen) h' r.shared := by
  obtain ⟨permit, connecting, deferred⟩ := h
  obtain ⟨hpermit, hconnecting⟩ := hinv.ready hready
  obtain rfl : connecting = none := hconnecting
  obtain ⟨permit, rfl⟩ := Option.isSome_iff_exists.mp hpermit
  have hupheld : ∀ {ev : HandleEvent}, ev ≠ .misused → .misused ∉ ev :: seen := by
    intro ev hev hmem
    rcases List.mem_cons.mp hmem with heq | hmem
    · exact hev heq.symm
    · exact hinv.upheld hmem
  rcases deferred with _ | e
  · obtain rfl := Option.some.inj hr
    exact ⟨_, rfl, hinv.once, fun hsome => (by cases hsome), fun hhead => (by cases hhead),
      fun hwaits => (by rcases hwaits with hwaits | hwaits <;> cases hwaits),
      hupheld fun hev => by cases hev⟩
  · obtain rfl := Option.some.inj hr
    exact ⟨_, rfl, hinv.once, fun hsome => (by cases hsome), fun hhead => (by cases hhead),
      fun hwaits => (by rcases hwaits with hwaits | hwaits <;> cases hwaits),
      hupheld fun hev => by cases hev⟩

/-- What others do. -/
theorem HandleInv.later (hinv : HandleInv i seen h s) {s' : Shared}
    (hfailures : failuresTo i s'.history = failuresTo i s.history) : HandleInv i seen h s' :=
  { hinv with once := hfailures.trans hinv.once }

/-- A turn of the handle. -/
theorem HandleInv.turn (hinv : HandleInv i seen h s) {x : Choice}
    (hx : x = .call → seen.head? = some .ready) {r : Turn Shared Process}
    (hr : s.handle i n x h = some r) {h' : SharedHttp2Connection} (hself : r.self = .handle h') :
    HandleInv i ((s.observes i n h x).toList ++ seen) h' r.shared := by
  cases x with
  | pollReady =>
    obtain ⟨r', hr', rfl⟩ := Option.map_eq_some_iff.mp hr
    obtain rfl := Process.handle.inj hself
    exact hinv.pollReady hr'
  | call =>
    obtain ⟨h'', hself', hnext⟩ := hinv.call (hx rfl) hr
    obtain rfl := Process.handle.inj (hself'.symm.trans hself)
    exact hnext
  | clone =>
    obtain rfl := Option.some.inj hr
    obtain rfl := Process.handle.inj hself
    exact hinv
  | send =>
    obtain rfl := Option.some.inj hr
    obtain rfl := Process.handle.inj hself
    exact hinv
  | dropped =>
    rw [Shared.handle] at hr
    split at hr
    · obtain rfl := Option.some.inj hr
      cases hself
    · cases hr
  | _ => cases hr

/-- A turn of the handle that is not possible. -/
theorem HandleInv.stuck (hinv : HandleInv i seen h s) {x : Choice}
    (hx : x = .call → seen.head? = some .ready) (hnone : s.handle i n x h = none) :
    HandleInv i ((s.observes i n h x).toList ++ seen) h s := by
  cases x with
  | pollReady => exact hinv.idle (Option.map_eq_none_iff.mp hnone)
  | call =>
    -- the handle has a slot and is not in the middle of anything
    obtain ⟨permit, connecting, deferred⟩ := h
    obtain ⟨hpermit, hconnecting⟩ := hinv.ready (hx rfl)
    obtain rfl : connecting = none := hconnecting
    obtain ⟨permit, rfl⟩ := Option.isSome_iff_exists.mp hpermit
    rcases deferred with _ | e <;> cases hnone
  | _ => exact hinv

/-- Whatever a request, an attempt or a dropped handle does, it does not become a handle. -/
theorem handle_of_self {x : Choice} {t : Process} {r : Turn Shared Process}
    (hr : t.turn i n x s = some r) (hself : r.self = .handle h) : ∃ h', t = .handle h' := by
  cases t with
  | handle h' => exact ⟨h', rfl⟩
  | send f =>
    obtain ⟨r', -, rfl⟩ := Option.map_eq_some_iff.mp hr
    cases hself
  | attempt a =>
    obtain ⟨r', -, rfl⟩ := Option.map_eq_some_iff.mp hr
    cases hself
  | gone => cases hr

/-- Only a handle starts another, which is as new, and nothing happens by that. -/
theorem handle_of_started {x : Choice} {t : Process} {r : Turn Shared Process}
    (hr : t.turn i n x s = some r) (hstarted : r.started = some (.handle h)) :
    h = .new ∧ r.shared = s := by
  cases t with
  | handle h' =>
    cases x with
    | pollReady =>
      obtain ⟨r', -, rfl⟩ := Option.map_eq_some_iff.mp hr
      obtain ⟨a, -, ha⟩ := Option.map_eq_some_iff.mp hstarted
      cases ha
    | call =>
      change s.handle i n .call h' = some r at hr
      rw [Shared.handle] at hr
      split at hr
      · split at hr
        · cases hr
        · obtain rfl := Option.some.inj hr
          cases hstarted
        · obtain rfl := Option.some.inj hr
          cases hstarted
      · cases hr
    | clone =>
      obtain rfl := Option.some.inj hr
      exact ⟨(Process.handle.inj (Option.some.inj hstarted)).symm, rfl⟩
    | send =>
      obtain rfl := Option.some.inj hr
      cases hstarted
    | dropped =>
      change s.handle i n .dropped h' = some r at hr
      rw [Shared.handle] at hr
      split at hr
      · obtain rfl := Option.some.inj hr
        cases hstarted
      · cases hr
    | _ => cases hr
  | send f =>
    obtain ⟨r', -, rfl⟩ := Option.map_eq_some_iff.mp hr
    obtain ⟨a, -, ha⟩ := Option.map_eq_some_iff.mp hstarted
    cases ha
  | attempt a =>
    obtain ⟨r', -, rfl⟩ := Option.map_eq_some_iff.mp hr
    cases hstarted
  | gone => cases hr

/-- Nothing has been returned to a process that is not there yet. -/
theorem failuresTo_unborn (hinv : DialInv n s) : failuresTo n s.history = [] := by
  have hnil : failuresTo n (s.history ++ []) = failuresTo n [] :=
    failuresTo_of_about fun ev hev habout => Nat.lt_irrefl n (hinv.about ev hev n habout)
  rw [List.append_nil] at hnil
  exact hnil

end Handles

/-- **One step** of any process, or from outside. -/
theorem HandleSeen.step {i : ℕ} {seen : List HandleEvent} {p : Pool Shared Process}
    (hp : System.Holds DialInv Process.Own p) (hseen : HandleSeen i seen p)
    (a : Action Choice ℕ) (ha : a = .turn i .call → seen.head? = some .ready) :
    HandleSeen i ((observe i p a).toList ++ seen) (sharedConnection.step p a) := by
  cases a with
  | outside c => exact ⟨fun h hh => (hseen.handle h hh).later rfl, hseen.unborn⟩
  | turn j x =>
    rcases ht : p.procs[j]? with _ | t
    · -- there is no such process
      have hsame : sharedConnection.step p (.turn j x) = p :=
        sharedConnection.step_stuck fun t' ht' => by rw [ht] at ht'; cases ht'
      have hobserve : observe i p (.turn j x) = none := by
        rw [observe]
        by_cases hj : j = i
        · rw [if_pos hj, ← hj, ht]
        · rw [if_neg hj]
      rw [hsame, hobserve]
      exact hseen
    · have hj : j < p.procs.length := (List.getElem?_eq_some_iff.mp ht).1
      rcases hr : t.turn j p.procs.length x p.shared with _ | r
      · -- its turn is not possible
        have hsame : sharedConnection.step p (.turn j x) = p := by
          refine sharedConnection.step_stuck fun t' ht' => ?_
          obtain rfl : t = t' := Option.some.inj (ht.symm.trans ht')
          exact hr
        rw [hsame]
        by_cases hji : j = i
        · subst hji
          refine ⟨fun h hh => ?_, fun hnone => ?_⟩
          · obtain rfl : t = .handle h := Option.some.inj (ht.symm.trans hh)
            have hobserve : observe j p (.turn j x) = p.shared.observes j p.procs.length h x := by
              rw [observe, if_pos rfl, hh]
            rw [hobserve]
            exact (hseen.handle h hh).stuck (fun hx => ha (by rw [hx])) hr
          · rw [ht] at hnone
            cases hnone
        · rw [observe, if_neg hji]
          exact hseen
      · have hupheld := turn_upholds hr hj hp.inv (hp.own ht)
        have hstep : sharedConnection.step p (.turn j x) =
            ⟨r.shared, p.procs.set j r.self ++ r.started.toList⟩ := sharedConnection.step_turn ht hr
        obtain ⟨-, evs, hhistory, habout, -⟩ := hupheld.gives
        have hothers : i ≠ j → failuresTo i r.shared.history = failuresTo i p.shared.history := by
          intro hij
          rw [hhistory]
          exact failuresTo_of_about fun ev hev hi => hij (Option.some.inj (habout ev hev i hi)).symm
        rw [hstep]
        refine ⟨fun h hh => ?_, fun hnone => ?_⟩
        · rcases System.getElem?_turn ht hh with ⟨rfl, hself⟩ | ⟨hne, hold⟩ | ⟨rfl, hstarted⟩
          · -- a turn of the handle itself
            obtain ⟨h', rfl⟩ := handle_of_self hr hself.symm
            have hobserve : observe i p (.turn i x) = p.shared.observes i p.procs.length h' x := by
              rw [observe, if_pos rfl, ht]
            rw [hobserve]
            exact (hseen.handle h' ht).turn (fun hx => ha (by rw [hx])) hr hself.symm
          · rw [observe, if_neg hne]
            exact (hseen.handle h hold).later (hothers hne.symm)
          · -- the handle has just been made
            obtain ⟨rfl, hshared⟩ := handle_of_started hr hstarted
            obtain rfl := hseen.unborn (List.getElem?_eq_none (Nat.le_refl _))
            rw [observe, if_neg (Nat.ne_of_lt hj)]
            refine ⟨?_, fun hsome => (by cases hsome), fun hhead => (by cases hhead),
              fun hwaits => (by rcases hwaits with hwaits | hwaits <;> cases hwaits),
              List.not_mem_nil⟩
            change failuresTo _ r.shared.history = []
            rw [hshared]
            exact failuresTo_unborn hp.inv
        · have hold : p.procs[i]? = none := by
            rw [List.getElem?_eq_none_iff, List.length_append, List.length_set] at hnone
            exact List.getElem?_eq_none (by omega)
          have hne : j ≠ i := by
            rintro rfl
            rw [ht] at hold
            cases hold
          rw [observe, if_neg hne]
          exact hseen.unborn hold

/-- **A run.** -/
theorem HandleSeen.run {i : ℕ} (acts : List (Action Choice ℕ)) :
    ∀ {seen : List HandleEvent} {p : Pool Shared Process}, System.Holds DialInv Process.Own p →
      HandleSeen i seen p →
      (∀ before after, acts = before ++ .turn i .call :: after →
        (observed i before p seen).head? = some .ready) →
      HandleSeen i (observed i acts p seen) (sharedConnection.run p acts) := by
  induction acts with
  | nil => exact fun _ hseen _ => hseen
  | cons a acts ih =>
    intro seen p hp hseen hcalls
    refine ih (dial_upholds.step hp a) (hseen.step hp a fun ha => ?_) fun before after hsplit => ?_
    · exact hcalls [] acts (by rw [ha]; rfl)
    · exact hcalls (a :: before) after (by rw [hsplit]; rfl)

/-- There is nothing to be seen of a connection that has just been shared. -/
theorem handleSeen_new (conn : Reconnect) (bound : ℕ+) (i : ℕ) :
    HandleSeen i [] (conn.shared bound) where
  handle := by
    intro h hh
    rcases i with _ | i
    · obtain rfl := Process.handle.inj (Option.some.inj hh)
      exact ⟨rfl, fun hsome => (by cases hsome), fun hhead => (by cases hhead),
        fun hwaits => (by rcases hwaits with hwaits | hwaits <;> cases hwaits), List.not_mem_nil⟩
    · cases hh
  unborn := fun _ => rfl

/-- Where a handle is ready, there is a connection, or it has waited for one since the latest
call. -/
theorem HandleInv.ready_means {i n : ℕ} {s : Shared} {seen : List HandleEvent}
    {h : SharedHttp2Connection} {x : Choice} (hinv : HandleInv i seen h s)
    (hx : s.observes i n h x = some .ready) :
    s.isConnected = true ∨ .entered ∈ sinceCall seen := by
  obtain ⟨permit, connecting, deferred⟩ := h
  cases x with
  | pollReady =>
    rcases permit with _ | permit
    · cases hx
    · rcases connecting with _ | stage
      · rw [Shared.observes] at hx
        simp only at hx
        split at hx
        · rename_i hcond
          rw [Bool.or_eq_true] at hcond
          exact hcond.elim (fun hsome => .inr (hinv.entered (.inr hsome))) .inl
        · cases hx
      · exact .inr (hinv.entered (.inl rfl))
  | call =>
    rcases permit with _ | permit
    · cases hx
    · rcases deferred with _ | e <;> cases hx
  | _ => cases hx

/-! ## Requests -/

/-- The request `f` has got the connection `c`: it was live when the request looked, or the request
has waited for it. -/
def Found (start : Pool Shared Process) (acts : List (Action Choice ℕ)) (f c : ℕ) : Prop :=
  .returned f (.ok c) ∈ (sharedConnection.run start acts).shared.history ∨
    ∃ before after, acts = before ++ after ∧
      (sharedConnection.run start before).shared.liveSender = some c

/-- What a request does with connections. -/
structure RequestLaw (start : Pool Shared Process) (acts : List (Action Choice ℕ)) (f : ℕ)
    (t : SendFuture) : Prop where
  /-- the connection that it is handed to -/
  found : ∀ c, t.phase = .looping c ∨ (∃ generation, t.phase = .handing c generation) →
    Found start acts f c
  /-- it fails to connect if what it has waited for fails -/
  refused : ∀ e, t.phase = .ended (.connectFailed e) →
    .returned f (.error e) ∈ (sharedConnection.run start acts).shared.history

section Requests

variable {i n : ℕ} {s : Shared} {start : Pool Shared Process} {acts : List (Action Choice ℕ)}

/-- Where a turn leaves a request. -/
structure SendGoes (i : ℕ) (s : Shared) (f : SendFuture) (r : Shared × SendFuture × Option Attempt) :
    Prop where
  /-- it has got a connection -/
  looping : ∀ c, r.2.1.phase = .looping c → s.liveSender = some c ∨ .returned i (.ok c) ∈ r.1.history
  /-- it goes on with it -/
  handing : ∀ c generation, r.2.1.phase = .handing c generation → f.phase = .looping c
  /-- it has got none -/
  refused : ∀ e, r.2.1.phase = .ended (.connectFailed e) → .returned i (.error e) ∈ r.1.history

/-- It has no handle, and is not refused one. -/
def SendPhase.isElsewhere : SendPhase → Bool
  | .looping _ => false
  | .handing _ _ => false
  | .ended (.connectFailed _) => false
  | _ => true

theorem sendGoes_elsewhere {f : SendFuture} {r : Shared × SendFuture × Option Attempt}
    (h : r.2.1.phase.isElsewhere = true) : SendGoes i s f r := by
  refine ⟨fun c hc => ?_, fun c generation hc => ?_, fun e he => ?_⟩
  · rw [hc] at h
    cases h
  · rw [hc] at h
    cases h
  · rw [he] at h
    cases h

theorem send_goes {x : Choice} {f : SendFuture} {r : Shared × SendFuture × Option Attempt}
    (h : s.send i n x f = some r) : SendGoes i s f r := by
  rcases f with ⟨phase, queued, resends⟩
  cases x with
  | go =>
    cases phase with
    | acquiring =>
      obtain ⟨r', hr', rfl⟩ := Option.map_eq_some_iff.mp h
      exact sendGoes_elsewhere rfl
    | starting =>
      rw [Shared.send] at h
      simp only at h
      split at h
      · rename_i c hc
        obtain rfl := Option.some.inj h
        refine ⟨fun c' hc' => .inl ?_, (by intro _ _ h; cases h), (by intro _ h; cases h)⟩
        obtain rfl := SendPhase.looping.inj hc'
        exact hc
      · obtain rfl := Option.some.inj h
        exact sendGoes_elsewhere rfl
    | reconnecting stage =>
      obtain ⟨⟨s', progress, attempt⟩, hr', rfl⟩ := Option.map_eq_some_iff.mp h
      cases reconnected hr' with
      | @goesOn stage' hstage _ =>
        obtain rfl : progress = .goesOn stage' := hstage
        exact sendGoes_elsewhere rfl
      | @returns result hresult hhistory =>
        obtain rfl : progress = .returns result := hresult
        have hmem : .returned i result ∈ s'.history := hhistory ▸ List.mem_cons_self
        rcases result with e | c
        · refine ⟨(by intro _ h; cases h), (by intro _ _ h; cases h), fun e' he' => ?_⟩
          obtain rfl := SendResult.connectFailed.inj (SendPhase.ended.inj he')
          rcases queued with _ | slot
          · exact hmem
          · exact List.mem_cons_of_mem _ hmem
        · refine ⟨fun c' hc' => .inr ?_, (by intro _ _ h; cases h), (by intro _ h; cases h)⟩
          obtain rfl := SendPhase.looping.inj hc'
          exact hmem
    | looping c =>
      obtain rfl := Option.some.inj h
      refine ⟨(by intro _ h; cases h), fun c' generation hc' => ?_, (by intro _ h; cases h)⟩
      obtain rfl := (SendPhase.handing.inj hc').1
      rfl
    | handing c generation =>
      obtain rfl := Option.some.inj h
      exact sendGoes_elsewhere rfl
    | handed generation =>
      obtain rfl := Option.some.inj h
      exact sendGoes_elsewhere rfl
    | returned generation =>
      rw [Shared.send] at h
      simp only at h
      split at h
      · obtain rfl := Option.some.inj h
        exact sendGoes_elsewhere rfl
      · obtain rfl := Option.some.inj h
        exact sendGoes_elsewhere rfl
    | retiring =>
      obtain rfl := Option.some.inj h
      exact sendGoes_elsewhere rfl
    | inflight generation isTaken => cases h
    | ended result => cases h
  | dropped =>
    rw [Shared.send] at h
    split at h
    · obtain rfl := Option.some.inj h
      exact sendGoes_elsewhere rfl
    · cases h
  | taken =>
    rw [Shared.send] at h
    split at h
    · obtain rfl := Option.some.inj h
      exact sendGoes_elsewhere rfl
    · cases h
  | responded =>
    rw [Shared.send] at h
    split at h
    · obtain rfl := Option.some.inj h
      exact sendGoes_elsewhere rfl
    · cases h
  | failed e =>
    rw [Shared.send] at h
    split at h
    · obtain rfl := Option.some.inj h
      exact sendGoes_elsewhere rfl
    · cases h
  | handedBack e =>
    rw [Shared.send] at h
    split at h
    · split at h
      · obtain rfl := Option.some.inj h
        exact sendGoes_elsewhere rfl
      · obtain rfl := Option.some.inj h
        exact sendGoes_elsewhere rfl
    · cases h
  | _ => cases h

/-- A request that a turn starts has got nothing yet. -/
theorem send_of_started {x : Choice} {t : Process} {r : Turn Shared Process} {f : SendFuture}
    (hr : t.turn i n x s = some r) (hstarted : r.started = some (.send f)) :
    f.phase = .starting ∨ f.phase = .acquiring := by
  cases t with
  | handle h =>
    cases x with
    | pollReady =>
      obtain ⟨r', -, rfl⟩ := Option.map_eq_some_iff.mp hr
      obtain ⟨a, -, ha⟩ := Option.map_eq_some_iff.mp hstarted
      cases ha
    | call =>
      change s.handle i n .call h = some r at hr
      rw [Shared.handle] at hr
      split at hr
      · split at hr
        · cases hr
        · obtain rfl := Option.some.inj hr
          cases hstarted
        · obtain rfl := Option.some.inj hr
          obtain rfl := Process.send.inj (Option.some.inj hstarted)
          exact .inl rfl
      · cases hr
    | clone =>
      obtain rfl := Option.some.inj hr
      cases hstarted
    | send =>
      obtain rfl := Option.some.inj hr
      obtain rfl := Process.send.inj (Option.some.inj hstarted)
      exact .inr rfl
    | dropped =>
      change s.handle i n .dropped h = some r at hr
      rw [Shared.handle] at hr
      split at hr
      · obtain rfl := Option.some.inj hr
        cases hstarted
      · cases hr
    | _ => cases hr
  | send f' =>
    obtain ⟨r', -, rfl⟩ := Option.map_eq_some_iff.mp hr
    obtain ⟨a, -, ha⟩ := Option.map_eq_some_iff.mp hstarted
    cases ha
  | attempt a =>
    obtain ⟨r', -, rfl⟩ := Option.map_eq_some_iff.mp hr
    cases hstarted
  | gone => cases hr

/-- Only requests go on as requests. -/
theorem send_of_self {x : Choice} {t : Process} {r : Turn Shared Process} {f : SendFuture}
    (hr : t.turn i n x s = some r) (hself : r.self = .send f) :
    ∃ f' attempt, t = .send f' ∧ s.send i n x f' = some (r.shared, f, attempt) := by
  cases t with
  | send f' =>
    obtain ⟨r', hr', rfl⟩ := Option.map_eq_some_iff.mp hr
    obtain rfl := Process.send.inj hself
    exact ⟨f', r'.2.2, rfl, hr'⟩
  | handle h =>
    change s.handle i n x h = some r at hr
    have hhandle : ∃ h', r.self = .handle h' ∨ r.self = .gone := by
      cases x with
      | pollReady =>
        obtain ⟨r', -, rfl⟩ := Option.map_eq_some_iff.mp hr
        exact ⟨_, .inl rfl⟩
      | call =>
        rw [Shared.handle] at hr
        split at hr
        · split at hr
          · cases hr
          · obtain rfl := Option.some.inj hr
            exact ⟨_, .inl rfl⟩
          · obtain rfl := Option.some.inj hr
            exact ⟨_, .inl rfl⟩
        · cases hr
      | clone =>
        obtain rfl := Option.some.inj hr
        exact ⟨_, .inl rfl⟩
      | send =>
        obtain rfl := Option.some.inj hr
        exact ⟨_, .inl rfl⟩
      | dropped =>
        rw [Shared.handle] at hr
        split at hr
        · obtain rfl := Option.some.inj hr
          exact ⟨h, .inr rfl⟩
        · cases hr
      | _ => cases hr
    obtain ⟨h', hh | hh⟩ := hhandle <;> rw [hh] at hself <;> cases hself
  | attempt a =>
    obtain ⟨r', -, rfl⟩ := Option.map_eq_some_iff.mp hr
    cases hself
  | gone => cases hr

/-- What happens stays on record. -/
theorem RequestLaw.later {f : ℕ} {t : SendFuture} (h : RequestLaw start acts f t)
    {a : Action Choice ℕ}
    (hhistory : ∀ ev ∈ (sharedConnection.run start acts).shared.history,
      ev ∈ (sharedConnection.run start (acts ++ [a])).shared.history) :
    RequestLaw start (acts ++ [a]) f t where
  found := by
    intro c hc
    rcases h.found c hc with hreturned | ⟨before, after, hsplit, hlive⟩
    · exact .inl (hhistory _ hreturned)
    · exact .inr ⟨before, after ++ [a], by rw [hsplit, List.append_assoc], hlive⟩
  refused := fun e he => hhistory _ (h.refused e he)

/-- **Requests**, in every run. -/
theorem request_run (hstart : System.Holds DialInv Process.Own start)
    (hnone : ∀ (f : ℕ) (t : SendFuture), start.procs[f]? ≠ some (Process.send t)) (acts : List (Action Choice ℕ)) :
    ∀ f t, (sharedConnection.run start acts).procs[f]? = some (.send t) →
      RequestLaw start acts f t := by
  induction acts using List.reverseRecOn with
  | nil => exact fun f t ht => absurd ht (hnone f t)
  | append_singleton acts a ih =>
    intro f t ht
    have hp := dial_upholds.run hstart acts
    have hrun : sharedConnection.run start (acts ++ [a]) =
        sharedConnection.step (sharedConnection.run start acts) a := System.run_append _ _ _ _
    rw [hrun] at ht
    rcases sharedConnection.step_cases (sharedConnection.run start acts) a with
      hsame | ⟨j, x, t₀, r, -, ht₀, hr, hstep⟩ | ⟨c, hstep⟩
    · rw [hsame] at ht
      exact (ih f t ht).later fun ev hev => by rw [hrun, hsame]; exact hev
    · have hj := (List.getElem?_eq_some_iff.mp ht₀).1
      obtain ⟨-, evs, hevs, -⟩ := (turn_upholds hr hj hp.inv (hp.own ht₀)).gives
      have hhistory : ∀ ev ∈ (sharedConnection.run start acts).shared.history,
          ev ∈ (sharedConnection.run start (acts ++ [a])).shared.history := by
        intro ev hev
        rw [hrun, hstep]
        exact hevs ▸ List.mem_append_right evs hev
      rw [hstep] at ht
      rcases System.getElem?_turn ht₀ ht with ⟨rfl, hself⟩ | ⟨-, hold⟩ | ⟨rfl, hstarted⟩
      · obtain ⟨f', attempt, rfl, hsend⟩ := send_of_self hr hself.symm
        have hgoes := send_goes hsend
        have hbefore := ih f f' ht₀
        have hshared : (sharedConnection.run start (acts ++ [a])).shared = r.shared := by
          rw [hrun, hstep]
        refine ⟨fun c hc => ?_, fun e he => hshared ▸ hgoes.refused e he⟩
        rcases hc with hc | ⟨generation, hc⟩
        · rcases hgoes.looping c hc with hlive | hreturned
          · exact .inr ⟨acts, [a], rfl, hlive⟩
          · exact .inl (hshared ▸ hreturned)
        · exact (hbefore.later hhistory).found c (.inl (hgoes.handing c generation hc))
      · exact (ih f t hold).later hhistory
      · refine ⟨fun c hc => ?_, fun e he => ?_⟩
        · rcases send_of_started hr hstarted with hphase | hphase <;>
            rcases hc with hc | ⟨generation, hc⟩ <;> rw [hphase] at hc <;> cases hc
        · rcases send_of_started hr hstarted with hphase | hphase <;>
            rw [hphase] at he <;> cases he
    · rw [hstep] at ht
      exact (ih f t ht).later fun ev hev => by rw [hrun, hstep]; exact hev

end Requests

/-! ## The readiness contract -/

/-- What holds of the handle `i` in a run in which its calls follow a `poll_ready` that was ready. -/
structure HandleLaw (start : Pool Shared Process) (acts : List (Action Choice ℕ)) (i : ℕ)
    (h : SharedHttp2Connection) : Prop where
  /-- no call has found no slot -/
  upheld : .misused ∉ observed i acts start []
  /-- every failure it has waited for is returned by one call, in order, but for one that is
  deferred -/
  once : failuresTo i (sharedConnection.run start acts).shared.history =
    h.deferredError.toList ++ (observed i acts start []).filterMap HandleEvent.report
  /-- and each is that of an attempt that it shares -/
  shares : ∀ later failure earlier, (sharedConnection.run start acts).shared.history =
    later ++ .returned i (.error failure) :: earlier → Justified earlier (.returned i (.error failure))
  /-- the next call returns the error that is deferred, or sends the request with the slot -/
  calls : (observed i acts start []).head? = some .ready →
    (∃ e, h.deferredError = some e ∧
      observe i (sharedConnection.run start acts) (.turn i .call) = some (.surfaced e)) ∨
    h.deferredError = none ∧ ∃ slot, h.permit = some slot ∧
      (sharedConnection.run start (acts ++ [.turn i .call])).procs[
        (sharedConnection.run start acts).procs.length]? = some (.send ⟨.starting, some slot, 0⟩)
  /-- it is ready where there is a connection, or where it has waited for one since the latest call -/
  ready : ∀ x, observe i (sharedConnection.run start acts) (.turn i x) = some .ready →
    (sharedConnection.run start acts).shared.isConnected = true ∨
      .entered ∈ sinceCall (observed i acts start [])

theorem HandleInv.law {start : Pool Shared Process} {acts : List (Action Choice ℕ)} {i : ℕ}
    {h : SharedHttp2Connection} (hp : System.Holds DialInv Process.Own (sharedConnection.run start acts))
    (ht : (sharedConnection.run start acts).procs[i]? = some (.handle h))
    (hinv : HandleInv i (observed i acts start []) h (sharedConnection.run start acts).shared) :
    HandleLaw start acts i h where
  upheld := hinv.upheld
  once := hinv.once
  shares := by
    intro later failure earlier hsplit
    have hlawful := hp.inv.lawful
    rw [hsplit] at hlawful
    exact hlawful.justified
  calls := by
    intro hready
    obtain ⟨permit, connecting, deferred⟩ := h
    obtain ⟨hpermit, hconnecting⟩ := hinv.ready hready
    obtain rfl : connecting = none := hconnecting
    obtain ⟨slot, rfl⟩ := Option.isSome_iff_exists.mp hpermit
    rcases deferred with _ | e
    · refine .inr ⟨rfl, slot, rfl, ?_⟩
      rw [System.run_append]
      have hstep : sharedConnection.step (sharedConnection.run start acts) (.turn i .call) = _ :=
        sharedConnection.step_turn ht rfl
      change (sharedConnection.step (sharedConnection.run start acts) (.turn i .call)).procs[_]? = _
      rw [hstep]
      dsimp only
      rw [List.getElem?_append_right (by rw [List.length_set])]
      rw [List.length_set, Nat.sub_self]
      rfl
    · refine .inl ⟨e, rfl, ?_⟩
      rw [observe, if_pos rfl, ht]
      rfl
  ready := by
    intro x hx
    rw [observe, if_pos rfl, ht] at hx
    exact hinv.ready_means hx

/-- **The readiness contract.** A connection, and the handle of a shared one, whose calls follow a
`poll_ready` that was ready. -/
theorem readiness {lazy : Bool} {ops : List ReadyOp} (hops : (Dialer.new lazy).Legal ops)
    {conn : Reconnect} {bound : ℕ+} {i : ℕ} {acts : List (Action Choice ℕ)}
    (hacts : CallsReady i (conn.shared bound) acts) :
    ReconnectLaw lazy ((Dialer.new lazy).run ops) ∧
    (∀ h, (sharedConnection.run (conn.shared bound) acts).procs[i]? = some (.handle h) →
      HandleLaw (conn.shared bound) acts i h) ∧
    ∀ (f : ℕ) (t : SendFuture),
      (sharedConnection.run (conn.shared bound) acts).procs[f]? = some (.send t) →
        RequestLaw (conn.shared bound) acts f t := by
  refine ⟨((Dialer.inv_new lazy).run ops hops).law, fun h hh => ?_,
    request_run (dial_holds conn bound) (fun f t ht => ?_) acts⟩
  · have hseen := HandleSeen.run acts (dial_holds conn bound) (handleSeen_new conn bound i) hacts
    exact (hseen.handle h hh).law (dial_run conn bound acts) hh
  · rcases f with _ | f <;> cases ht

/-! ## Failures elsewhere -/

/-- A call of the handle `i`. -/
def callsHandle (i : ℕ) : Action Choice ℕ → Bool
  | .turn j .call => j == i
  | _ => false

/-- A run with one call. -/
theorem callsReady_once {i : ℕ} {p : Pool Shared Process} {pre post : List (Action Choice ℕ)}
    (hpre : pre.all (fun a => !callsHandle i a) = true)
    (hpost : post.all (fun a => !callsHandle i a) = true)
    (hready : (observed i pre p []).head? = some .ready) :
    CallsReady i p (pre ++ .turn i .call :: post) := by
  have hcall : callsHandle i (.turn i .call) = true := beq_self_eq_true i
  have hnot : ∀ {l : List (Action Choice ℕ)}, l.all (fun a => !callsHandle i a) = true →
      .turn i .call ∉ l := by
    intro l hl hmem
    have hno := List.all_eq_true.mp hl _ hmem
    rw [hcall] at hno
    cases hno
  intro before after hsplit
  rcases List.append_eq_append_iff.mp hsplit with ⟨more, rfl, hmore⟩ | ⟨more, rfl, hmore⟩
  · rcases more with _ | ⟨a, more⟩
    · rw [List.append_nil]
      exact hready
    · obtain ⟨-, rfl⟩ := List.cons.inj hmore
      exact absurd (List.mem_append_right more List.mem_cons_self) (hnot hpost)
  · rcases more with _ | ⟨a, more⟩
    · rw [List.append_nil] at hready
      exact hready
    · obtain ⟨rfl, -⟩ := List.cons.inj hmore
      exact absurd (List.mem_append_right before List.mem_cons_self) (hnot hpre)

/-- An error of the network. -/
def networkError : BoxError := ⟨"connection refused", none⟩

/-- A connection that has not been opened yet. -/
def Reconnect.unopened : Reconnect := ⟨.idle, none, false, true, idle_of_none⟩

/-- The handle `i` takes a slot and enters `reconnect`. -/
def enters (i : ℕ) : List (Action Choice ℕ) :=
  [.turn i .pollReady, .turn i .pollReady, .turn i .pollReady]

/-- The handle `i` starts the attempt `k`, which fails. -/
def attemptFails (i k : ℕ) : List (Action Choice ℕ) :=
  List.replicate 5 (.turn i .pollReady) ++ [.turn k (.polled (.ok ())),
    .turn k (.polled (.error networkError)), .turn k .go, .turn k .go, .turn k .go,
    .turn i .pollReady]

/-- The contract for a lazy connection whose attempt fails, and for a handle that has waited for
one that does. -/
theorem readiness_networkError :
    ReconnectLaw true ((Dialer.new true).run
      [.pollReady [.ready (.ok ()), .ready (.error networkError)], .call]) ∧
    (∀ h, (sharedConnection.run (Reconnect.unopened.shared 1)
        (enters 0 ++ attemptFails 0 1 ++ [.turn 0 .call])).procs[0]? = some (.handle h) →
      HandleLaw (Reconnect.unopened.shared 1) (enters 0 ++ attemptFails 0 1 ++ [.turn 0 .call]) 0
        h) ∧
    ∀ (f : ℕ) (t : SendFuture), (sharedConnection.run (Reconnect.unopened.shared 1)
        (enters 0 ++ attemptFails 0 1 ++ [.turn 0 .call])).procs[f]? = some (.send t) →
      RequestLaw (Reconnect.unopened.shared 1) (enters 0 ++ attemptFails 0 1 ++ [.turn 0 .call]) f
        t := by
  refine readiness (fun before after hsplit => ?_) (callsReady_once rfl rfl rfl)
  rcases before with _ | ⟨op, _ | ⟨op', before⟩⟩
  · cases hsplit
  · obtain ⟨rfl, -⟩ := List.cons.inj hsplit
    rfl
  · have hlong := congrArg List.length hsplit
    simp only [List.length_cons, List.length_append, List.length_nil] at hlong
    omega

/-- A handle and its clone wait for one attempt, and both are called. -/
def bothWait : List (Action Choice ℕ) :=
  .turn 0 .clone :: (enters 0 ++ enters 1 ++ attemptFails 0 2 ++ [.turn 0 .call] ++
    List.replicate 5 (.turn 1 .pollReady) ++ [.turn 1 .call])

/-- A handle is ready with a connection that is closed before it is called, and the request fails
to connect again. -/
def closedSince : List (Action Choice ℕ) :=
  [.turn 0 .pollReady, .turn 0 .pollReady, .outside 0, .turn 0 .call] ++
    List.replicate 7 (.turn 1 .go) ++ [.turn 2 (.polled (.ok ())), .turn 2 (.polled (.ok ())),
      .turn 2 (.polled (.error networkError)), .turn 2 .go, .turn 2 .go, .turn 2 .go, .turn 1 .go]

/-- A lazy connection fails `poll_ready` itself if its connector is not ready for an attempt; the
failure of one attempt is returned by the calls of two handles; and a call fails to connect
with nothing deferred. -/
theorem failures_elsewhere :
    ((Dialer.new true).run [.pollReady [.ready (.error networkError)]]).history =
      [.raised networkError, .refused networkError] ∧
    ((CallsReady 0 (Reconnect.unopened.shared 2) bothWait ∧
        CallsReady 1 (Reconnect.unopened.shared 2) bothWait) ∧
      outcomes (sharedConnection.run (Reconnect.unopened.shared 2) bothWait).shared.history =
        [.error (h2TransportError networkError "h2 connect failed")] ∧
      ∀ i < 2, (observed i bothWait (Reconnect.unopened.shared 2) []).filterMap HandleEvent.report =
        [h2TransportError networkError "h2 connect failed"]) ∧
    CallsReady 0 ((Reconnect.connected 0).shared 1) closedSince ∧
      (observed 0 closedSince ((Reconnect.connected 0).shared 1) []).filterMap HandleEvent.report =
        [] ∧
      (sharedConnection.run ((Reconnect.connected 0).shared 1) closedSince).procs[1]? =
        some (.send ⟨.ended (.connectFailed (h2TransportError networkError "h2 connect failed")),
          none, 0⟩) := by
  refine ⟨rfl, ⟨⟨?_, ?_⟩, rfl, fun i hi => ?_⟩, ?_, rfl, rfl⟩
  · have hsplit : bothWait = (.turn 0 .clone :: (enters 0 ++ enters 1 ++ attemptFails 0 2)) ++
        .turn 0 .call :: (List.replicate 5 (.turn 1 .pollReady) ++ [.turn 1 .call]) := rfl
    rw [hsplit]
    exact callsReady_once rfl rfl rfl
  · have hsplit : bothWait = (.turn 0 .clone :: (enters 0 ++ enters 1 ++ attemptFails 0 2 ++
        [.turn 0 .call] ++ List.replicate 5 (.turn 1 .pollReady))) ++ .turn 1 .call :: [] := rfl
    rw [hsplit]
    exact callsReady_once rfl rfl rfl
  · rcases i with _ | _ | i
    · rfl
    · rfl
    · omega
  · have hsplit : closedSince = [.turn 0 .pollReady, .turn 0 .pollReady, .outside 0] ++
        .turn 0 .call :: (List.replicate 7 (.turn 1 .go) ++ [.turn 2 (.polled (.ok ())),
          .turn 2 (.polled (.ok ())), .turn 2 (.polled (.error networkError)), .turn 2 .go,
          .turn 2 .go, .turn 2 .go, .turn 1 .go]) := rfl
    rw [hsplit]
    exact callsReady_once rfl rfl rfl

end ConnectRpc
