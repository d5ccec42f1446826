import ConnectRpc.SharedConnection

/-!
# One attempt for everybody

How the callers of a shared connection share the attempts to connect. `DialInv` is what holds
of the shared state between any two steps, and `Process.Own` what every process may rely on where
it is: whoever holds the lock finds the shared state settled, as the latest attempt has left
it, and no other process interferes (`dial_upholds`). Everything about failures is in the
`Lawful`ness of the history.
-/

namespace ConnectRpc

open Lib

/-! ## The history -/

namespace DialEvent

/-- Whose event it is. -/
def about : DialEvent → Option ℕ
  | entered i => some i
  | started i _ => some i
  | completed k _ => some k
  | aborted k => some k
  | returned i _ => some i
  | handed i => some i
  | taken i => some i
  | resent i => some i
  | dialed => none
  | wiped => none
  | acquired _ => none
  | released _ => none

/-- The outcome of an attempt. -/
def outcome : DialEvent → Option (Except ConnectError ℕ)
  | completed _ r => some r
  | _ => none

end DialEvent

/-- The outcomes of the attempts, the latest first. -/
def outcomes (h : List DialEvent) : List (Except ConnectError ℕ) :=
  h.filterMap DialEvent.outcome

theorem outcomes_append (evs h : List DialEvent) :
    outcomes (evs ++ h) = outcomes evs ++ outcomes h :=
  List.filterMap_append

theorem outcomes_completed (k : ℕ) (r : Except ConnectError ℕ) (h : List DialEvent) :
    outcomes (.completed k r :: h) = r :: outcomes h := rfl

theorem outcomes_of_none {ev : DialEvent} (hev : ev.outcome = none) (h : List DialEvent) :
    outcomes (ev :: h) = outcomes h :=
  List.filterMap_cons_none hev

theorem outcomes_eq_nil_iff {h : List DialEvent} :
    outcomes h = [] ↔ ∀ k r, .completed k r ∉ h := by
  rw [outcomes, List.filterMap_eq_nil_iff]
  constructor
  · intro hnone k r hmem
    cases hnone _ hmem
  · intro hnone ev hev
    cases ev with
    | completed k r => exact absurd hev (hnone k r)
    | _ => rfl

/-- The failure among outcomes. -/
def failureOf : Option (Except ConnectError ℕ) → Option ConnectError
  | some (.error failure) => some failure
  | _ => none

/-- What must have happened before an event. A caller only returns a failure of an attempt that it
has started, or that has completed since it entered; and it only starts one if it has
entered since the latest failure. -/
def Justified (h : List DialEvent) : DialEvent → Prop
  | .returned i (.error failure) => ∃ later earlier, h = later ++ .entered i :: earlier ∧
      .entered i ∉ later ∧ ((∃ k, .started i k ∈ later) ∨ ∃ k, .completed k (.error failure) ∈ later)
  | .started i _ => ∀ later k failure earlier, h = later ++ .completed k (.error failure) :: earlier →
      outcomes later = [] → .entered i ∈ later
  | _ => True

/-- A history in which that is so. -/
inductive Lawful : List DialEvent → Prop where
  | nil : Lawful []
  | cons {ev : DialEvent} {h : List DialEvent} : Justified h ev → Lawful h → Lawful (ev :: h)

theorem Lawful.justified {ev : DialEvent} {post : List DialEvent} : ∀ {pre : List DialEvent},
    Lawful (pre ++ ev :: post) → Justified post ev := by
  intro pre
  induction pre with
  | nil =>
    intro h
    cases h with
    | cons hev _ => exact hev
  | cons e pre ih =>
    intro h
    cases h with
    | cons _ hrest => exact ih hrest

/-! ## What a process may rely on -/

/-- The latest attempt has left its failure, or no failure and its handle, unless that has
been taken away since. -/
structure Settled (s : Shared) : Prop where
  /-- the failure -/
  failure : s.lastFailure = failureOf (outcomes s.history).head?
  /-- the handle -/
  handle : ∀ later k c earlier, s.history = later ++ .completed k (.ok c) :: earlier →
    outcomes later = [] → .wiped ∈ later ∨ s.sender = some c

/-- The caller `i` has entered `reconnect`, has seen so many attempts, and has done nothing
since. -/
def HasEntered (i seen : ℕ) (h : List DialEvent) : Prop :=
  ∃ later earlier, h = later ++ .entered i :: earlier ∧ (∀ ev ∈ later, ev.about ≠ some i) ∧
    seen = (outcomes earlier).length

/-- The caller `i` has the lock and finds everything settled. -/
structure Holding (i seen : ℕ) (s : Shared) : Prop where
  /-- it has the lock -/
  lock : s.lock = some i
  /-- everything is settled -/
  settled : Settled s
  /-- it has entered -/
  entered : HasEntered i seen s.history

/-- What a caller of `reconnect` may be told. -/
def Answer (i : ℕ) (s : Shared) : Except ConnectError ℕ → Prop
  | .ok c => s.conn.state = .connected c
  | .error failure => ∃ later earlier, s.history = later ++ .entered i :: earlier ∧
      .entered i ∉ later ∧ ∃ k, .completed k (.error failure) ∈ later

/-- The caller `i` has started the attempt `k` since it has entered. -/
def Awaiting (i k : ℕ) (h : List DialEvent) : Prop :=
  ∃ later earlier, h = later ++ .entered i :: earlier ∧ .entered i ∉ later ∧
    .started i k ∈ later ∧ ∀ ev ∈ earlier, ev.about ≠ some k

/-- What a caller may rely on at each stage of `reconnect`. -/
def ReconnectStage.Own (i : ℕ) (s : Shared) : ReconnectStage → Prop
  | entering => True
  | waiting seen => HasEntered i seen s.history
  | locked seen => Holding i seen s
  | disconnected seen => Holding i seen s
  | outdated seen => Holding i seen s ∧ s.attempts ≠ seen
  | retiring seen => Holding i seen s ∧ (s.attempts = seen ∨ s.lastFailure = none)
  | spawning seen => Holding i seen s ∧ (s.attempts = seen ∨ s.lastFailure = none) ∧
      s.sender = none
  | awaiting k => Awaiting i k s.history
  | leaving result => s.lock = some i ∧ Settled s ∧ Answer i s result

/-- The outcome of an attempt is that of the state machine. -/
def Matches (conn : Reconnect) : Except BoxError ℕ → Prop
  | .ok c => conn.state = .connected c
  | .error _ => ∀ c, conn.state ≠ .connected c

/-- The attempt `k` has the lock, and is the latest that has completed. -/
structure Completed (k : ℕ) (r : Except ConnectError ℕ) (s : Shared) : Prop where
  /-- it has the lock -/
  lock : s.lock = some k
  /-- it has completed -/
  completed : .completed k r ∈ s.history
  /-- as the latest -/
  latest : (outcomes s.history).head? = some r

/-- What an attempt may rely on. -/
def Attempt.Own (k : ℕ) (s : Shared) : Attempt → Prop
  | polling => s.lock = some k ∧ Settled s ∧ s.sender = none
  | counting r => s.lock = some k ∧ Settled s ∧ s.sender = none ∧ Matches s.conn r
  | recording r => Completed k (dialResult r) s ∧ Matches s.conn r
  | publishing c => Completed k (.ok c) s ∧ s.conn.state = .connected c ∧ s.lastFailure = none
  | unlocking r => Completed k r s ∧ Settled s
  | ended => True

/-- What a process may rely on. -/
def Process.Own (i : ℕ) (t : Process) (s : Shared) : Prop :=
  match t with
  | .handle h => ∀ stage, h.connecting = some stage → stage.Own i s
  | .send f => ∀ stage, f.phase = .reconnecting stage → stage.Own i s
  | .attempt a => a.Own i s
  | .gone => True

/-- What holds of the shared state between two steps. -/
structure DialInv (n : ℕ) (s : Shared) : Prop where
  /-- events are those of processes -/
  about : ∀ ev ∈ s.history, ∀ i, ev.about = some i → i < n
  /-- the attempts are counted -/
  attempts : s.attempts = (outcomes s.history).length
  /-- the shared handle is that of the state machine -/
  sender : ∀ c, s.sender = some c → s.conn.state = .connected c
  /-- while nobody holds the lock, everything is settled -/
  settled : s.lock = none → Settled s
  /-- the history is lawful -/
  lawful : Lawful s.history
  /-- the result of a task is that of its attempt -/
  joined : ∀ k r, s.joined k = some (.ok r) → .completed k r ∈ s.history
  /-- and there is none without a reason -/
  aborted : ∀ k e, s.joined k = some (.error e) → .aborted k ∈ s.history

/-! ## Interference -/

/-- What a turn of `who` guarantees to the others: it closes no connection, it adds events of
its own only, and if another one holds the lock, it leaves everything alone that the lock
guards, but for taking away the shared handle. -/
def Gives (who : Option ℕ) (s s' : Shared) : Prop :=
  (who ≠ none → s'.closed = s.closed) ∧ ∃ evs, s'.history = evs ++ s.history ∧
    (∀ ev ∈ evs, ∀ i, ev.about = some i → who = some i) ∧
    ∀ j, s.lock = some j → who ≠ some j → s'.lock = s.lock ∧ s'.conn = s.conn ∧
      s'.attempts = s.attempts ∧ s'.lastFailure = s.lastFailure ∧
      (s'.sender = s.sender ∨ s'.sender = none ∧ .wiped ∈ evs) ∧ outcomes evs = []

theorem Gives.refl (who : Option ℕ) (s : Shared) : Gives who s s :=
  ⟨fun _ => rfl, [], rfl, fun _ hev => absurd hev List.not_mem_nil,
    fun _ _ _ => ⟨rfl, rfl, rfl, rfl, .inl rfl, rfl⟩⟩

theorem Gives.trans {who : Option ℕ} {s s' s'' : Shared} (h : Gives who s s')
    (h' : Gives who s' s'') : Gives who s s'' := by
  obtain ⟨hclosed, evs, hhistory, habout, hguard⟩ := h
  obtain ⟨hclosed', evs', hhistory', habout', hguard'⟩ := h'
  refine ⟨fun hwho => (hclosed' hwho).trans (hclosed hwho), evs' ++ evs, ?_, fun ev hev => ?_, fun j hj hne => ?_⟩
  · rw [hhistory', hhistory, List.append_assoc]
  · rcases List.mem_append.mp hev with hev | hev
    · exact habout' ev hev
    · exact habout ev hev
  · obtain ⟨hlock, hconn, hattempts, hfailure, hsender, hquiet⟩ := hguard j hj hne
    obtain ⟨hlock', hconn', hattempts', hfailure', hsender', hquiet'⟩ :=
      hguard' j (hlock.trans hj) hne
    refine ⟨hlock'.trans hlock, hconn'.trans hconn, hattempts'.trans hattempts,
      hfailure'.trans hfailure, ?_, ?_⟩
    · rcases hsender' with hsame | ⟨hnone, hwiped⟩
      · rcases hsender with hsame' | ⟨hnone, hwiped⟩
        · exact .inl (hsame.trans hsame')
        · exact .inr ⟨hsame.trans hnone, List.mem_append_right _ hwiped⟩
      · exact .inr ⟨hnone, List.mem_append_left _ hwiped⟩
    · rw [outcomes_append, hquiet', hquiet]
      rfl

/-- Later events that are no outcomes leave everything settled. -/
theorem Settled.later {s s' : Shared} (h : Settled s) {evs : List DialEvent}
    (hhistory : s'.history = evs ++ s.history) (hquiet : outcomes evs = [])
    (hfailure : s'.lastFailure = s.lastFailure)
    (hsender : s'.sender = s.sender ∨ s'.sender = none ∧ .wiped ∈ evs) : Settled s' := by
  refine ⟨?_, fun later k c earlier hsplit hlater => ?_⟩
  · rw [hfailure, h.failure, hhistory, outcomes_append, hquiet, List.nil_append]
  · rw [hhistory] at hsplit
    rcases List.append_eq_append_iff.mp hsplit with ⟨mid, rfl, hrest⟩ | ⟨mid, rfl, hrest⟩
    · rw [outcomes_append] at hlater
      rcases h.handle mid k c earlier hrest (List.append_eq_nil_iff.mp hlater).2 with hwiped | hc
      · exact .inl (List.mem_append_right _ hwiped)
      · rcases hsender with hsame | ⟨-, hwiped⟩
        · exact .inr (hsame.trans hc)
        · exact .inl (List.mem_append_left _ hwiped)
    · -- the attempt would be among the later events
      rcases mid with _ | ⟨ev, mid⟩
      · rw [List.append_nil] at hsender hquiet
        rw [List.nil_append] at hrest
        rcases h.handle [] k c earlier hrest.symm rfl with hwiped | hc
        · cases hwiped
        · rcases hsender with hsame | ⟨-, hwiped⟩
          · exact .inr (hsame.trans hc)
          · exact .inl hwiped
      · obtain ⟨rfl, -⟩ := List.cons.inj hrest
        rw [outcomes_append, outcomes_completed] at hquiet
        cases (List.append_eq_nil_iff.mp hquiet).2

theorem HasEntered.later {i seen : ℕ} {h evs : List DialEvent} (hentered : HasEntered i seen h)
    (hevs : ∀ ev ∈ evs, ev.about ≠ some i) : HasEntered i seen (evs ++ h) := by
  obtain ⟨later, earlier, rfl, hlater, hseen⟩ := hentered
  refine ⟨evs ++ later, earlier, (List.append_assoc _ _ _).symm, fun ev hev => ?_, hseen⟩
  rcases List.mem_append.mp hev with hev | hev
  · exact hevs ev hev
  · exact hlater ev hev

theorem Awaiting.later {i k : ℕ} {h evs : List DialEvent} (hawaiting : Awaiting i k h)
    (hevs : ∀ ev ∈ evs, ev.about ≠ some i) : Awaiting i k (evs ++ h) := by
  obtain ⟨later, earlier, rfl, hlater, hstarted, hfresh⟩ := hawaiting
  refine ⟨evs ++ later, earlier, (List.append_assoc _ _ _).symm, fun hev => ?_,
    List.mem_append_right _ hstarted, hfresh⟩
  rcases List.mem_append.mp hev with hev | hev
  · exact hevs _ hev rfl
  · exact hlater hev

section Stable

variable {who : Option ℕ} {j : ℕ} {s s' : Shared}

/-- Whoever holds the lock goes on to find everything settled. -/
theorem Gives.settled (h : Gives who s s') (hne : who ≠ some j) (hlock : s.lock = some j)
    (hsettled : Settled s) : Settled s' := by
  obtain ⟨-, evs, hhistory, -, hguard⟩ := h
  obtain ⟨-, -, -, hfailure, hsender, hquiet⟩ := hguard j hlock hne
  exact hsettled.later hhistory hquiet hfailure hsender

theorem Gives.entered {seen : ℕ} (h : Gives who s s') (hne : who ≠ some j)
    (hentered : HasEntered j seen s.history) : HasEntered j seen s'.history := by
  obtain ⟨-, evs, hhistory, habout, -⟩ := h
  rw [hhistory]
  exact hentered.later fun ev hev hj => hne (habout ev hev j hj)

theorem Gives.holding {seen : ℕ} (h : Gives who s s') (hne : who ≠ some j)
    (hholding : Holding j seen s) : Holding j seen s' := by
  refine ⟨?_, h.settled hne hholding.lock hholding.settled, h.entered hne hholding.entered⟩
  obtain ⟨-, evs, -, -, hguard⟩ := h
  exact (hguard j hholding.lock hne).1.trans hholding.lock

theorem Gives.answer {result : Except ConnectError ℕ} (h : Gives who s s') (hne : who ≠ some j)
    (hlock : s.lock = some j) (hanswer : Answer j s result) : Answer j s' result := by
  obtain ⟨-, evs, hhistory, habout, hguard⟩ := h
  rcases result with failure | c
  · obtain ⟨later, earlier, hsplit, hlater, k, hk⟩ := hanswer
    refine ⟨evs ++ later, earlier, ?_, fun hev => ?_, k, List.mem_append_right _ hk⟩
    · rw [hhistory, hsplit, List.append_assoc]
    · rcases List.mem_append.mp hev with hev | hev
      · exact hne (habout _ hev j rfl)
      · exact hlater hev
  · obtain ⟨-, hconn, -⟩ := hguard j hlock hne
    exact (congrArg Reconnect.state hconn).trans hanswer

theorem Gives.completed {r : Except ConnectError ℕ} (h : Gives who s s') (hne : who ≠ some j)
    (hcompleted : Completed j r s) : Completed j r s' := by
  obtain ⟨-, evs, hhistory, -, hguard⟩ := h
  obtain ⟨hlock, -, -, -, -, hquiet⟩ := hguard j hcompleted.lock hne
  refine ⟨hlock.trans hcompleted.lock, ?_, ?_⟩
  · rw [hhistory]
    exact List.mem_append_right _ hcompleted.completed
  · rw [hhistory, outcomes_append, hquiet]
    exact hcompleted.latest

/-- **No interference** with a caller of `reconnect`. -/
theorem ReconnectStage.stable {stage : ReconnectStage} (h : Gives who s s') (hne : who ≠ some j)
    (hown : stage.Own j s) : stage.Own j s' := by
  cases stage with
  | entering => trivial
  | waiting seen => exact h.entered hne hown
  | locked seen => exact h.holding hne hown
  | disconnected seen => exact h.holding hne hown
  | outdated seen =>
    refine ⟨h.holding hne hown.1, ?_⟩
    obtain ⟨-, evs, -, -, hguard⟩ := h
    obtain ⟨-, -, hattempts, -⟩ := hguard j hown.1.lock hne
    rw [hattempts]
    exact hown.2
  | retiring seen =>
    refine ⟨h.holding hne hown.1, ?_⟩
    obtain ⟨-, evs, -, -, hguard⟩ := h
    obtain ⟨-, -, hattempts, hfailure, -⟩ := hguard j hown.1.lock hne
    rw [hattempts, hfailure]
    exact hown.2
  | spawning seen =>
    refine ⟨h.holding hne hown.1, ?_⟩
    obtain ⟨-, evs, -, -, hguard⟩ := h
    obtain ⟨-, -, hattempts, hfailure, hsender, -⟩ := hguard j hown.1.lock hne
    rw [hattempts, hfailure]
    refine ⟨hown.2.1, ?_⟩
    rcases hsender with hsame | ⟨hnone, -⟩
    · exact hsame.trans hown.2.2
    · exact hnone
  | awaiting k =>
    obtain ⟨-, evs, hhistory, habout, -⟩ := h
    have hlater := Awaiting.later hown fun ev hev hj => hne (habout ev hev j hj)
    rw [← hhistory] at hlater
    exact hlater
  | leaving result =>
    refine ⟨?_, h.settled hne hown.1 hown.2.1, h.answer hne hown.1 hown.2.2⟩
    obtain ⟨-, evs, -, -, hguard⟩ := h
    exact (hguard j hown.1 hne).1.trans hown.1

/-- No interference with an attempt. -/
theorem Attempt.stable {a : Attempt} (h : Gives who s s') (hne : who ≠ some j)
    (hown : a.Own j s) : a.Own j s' := by
  have hsender : s.lock = some j → s.sender = none → s'.sender = none := by
    intro hlock hnone
    obtain ⟨-, evs, -, -, hguard⟩ := h
    obtain ⟨-, -, -, -, hsender, -⟩ := hguard j hlock hne
    rcases hsender with hsame | ⟨hnone', -⟩
    · exact hsame.trans hnone
    · exact hnone'
  have hframe : s.lock = some j →
      s'.lock = some j ∧ s'.conn = s.conn ∧ s'.lastFailure = s.lastFailure := by
    intro hlock
    obtain ⟨-, evs, -, -, hguard⟩ := h
    obtain ⟨hlock', hconn, -, hfailure, -⟩ := hguard j hlock hne
    exact ⟨hlock'.trans hlock, hconn, hfailure⟩
  cases a with
  | polling =>
    obtain ⟨hlock, hsettled, hnone⟩ := hown
    exact ⟨(hframe hlock).1, h.settled hne hlock hsettled, hsender hlock hnone⟩
  | counting r =>
    obtain ⟨hlock, hsettled, hnone, hmatches⟩ := hown
    refine ⟨(hframe hlock).1, h.settled hne hlock hsettled, hsender hlock hnone, ?_⟩
    rw [(hframe hlock).2.1]
    exact hmatches
  | recording r =>
    refine ⟨h.completed hne hown.1, ?_⟩
    rw [(hframe hown.1.lock).2.1]
    exact hown.2
  | publishing c =>
    refine ⟨h.completed hne hown.1, ?_⟩
    rw [(hframe hown.1.lock).2.1, (hframe hown.1.lock).2.2]
    exact hown.2
  | unlocking r => exact ⟨h.completed hne hown.1, h.settled hne hown.1.lock hown.2⟩
  | ended => trivial

/-- **No interference.** -/
theorem Process.stable {t : Process} (h : Gives who s s') (hne : who ≠ some j)
    (hown : t.Own j s) : t.Own j s' := by
  cases t with
  | handle hd => exact fun stage hstage => ReconnectStage.stable h hne (hown stage hstage)
  | send f => exact fun stage hstage => ReconnectStage.stable h hne (hown stage hstage)
  | attempt a => exact Attempt.stable h hne hown
  | gone => trivial

end Stable

/-! ## While a connection is open -/

/-- Whether an event tells nothing of connections or of what `reconnect` answers. -/
def DialEvent.plain : DialEvent → Bool
  | dialed => false
  | completed _ _ => false
  | returned _ _ => false
  | _ => true

/-- Nothing but the connection `c` has been used: none has been dialed, all attempts have come to
`c`, and whoever has entered `reconnect` was answered with `c`, unless a task was aborted. -/
structure OnlyUses (c : ℕ) (new : List DialEvent) : Prop where
  /-- none has been dialed -/
  dialed : .dialed ∉ new
  /-- attempts -/
  completed : ∀ k r, .completed k r ∈ new → r = .ok c
  /-- callers -/
  returned : ∀ later i r earlier, new = later ++ .returned i r :: earlier →
    .entered i ∈ earlier → r = .ok c ∨ ∃ k, .aborted k ∈ earlier

/-- It is still the connection, and nothing else has been used since. -/
structure StaysUp (c : ℕ) (old : List DialEvent) (s : Shared) : Prop where
  /-- it is still the connection -/
  conn : s.conn.state = .connected c
  /-- nothing else has been used -/
  history : ∃ new, s.history = new ++ old ∧ OnlyUses c new

theorem OnlyUses.nil (c : ℕ) : OnlyUses c [] := by
  refine ⟨List.not_mem_nil, fun k r hmem => absurd hmem List.not_mem_nil,
    fun later i r earlier hsplit => ?_⟩
  cases (List.append_eq_nil_iff.mp hsplit.symm).2

theorem OnlyUses.cons {c : ℕ} {ev : DialEvent} {new : List DialEvent} (h : OnlyUses c new)
    (hdialed : ev ≠ .dialed) (hcompleted : ∀ k r, ev = .completed k r → r = .ok c)
    (hreturned : ∀ i r, ev = .returned i r → .entered i ∈ new →
      r = .ok c ∨ ∃ k, .aborted k ∈ new) : OnlyUses c (ev :: new) := by
  refine ⟨fun hmem => ?_, fun k r hmem => ?_, fun later i r earlier hsplit hentered => ?_⟩
  · rcases List.mem_cons.mp hmem with heq | hmem
    · exact hdialed heq.symm
    · exact h.dialed hmem
  · rcases List.mem_cons.mp hmem with heq | hmem
    · exact hcompleted k r heq.symm
    · exact h.completed k r hmem
  · rcases later with _ | ⟨e, later⟩
    · obtain ⟨hev, rfl⟩ := List.cons.inj hsplit
      exact hreturned i r hev hentered
    · obtain ⟨-, hrest⟩ := List.cons.inj hsplit
      exact h.returned later i r earlier hrest hentered

theorem OnlyUses.later {c : ℕ} {new : List DialEvent} (h : OnlyUses c new) :
    ∀ {evs : List DialEvent}, (∀ ev ∈ evs, ev.plain = true) → OnlyUses c (evs ++ new) := by
  intro evs
  induction evs with
  | nil => exact fun _ => h
  | cons ev evs ih =>
    intro hevs
    have hev := hevs ev List.mem_cons_self
    refine (ih fun e he => hevs e (List.mem_cons_of_mem _ he)).cons ?_ ?_ ?_
    · rintro rfl
      cases hev
    · rintro k r rfl
      cases hev
    · rintro i r rfl
      cases hev

/-- Plain events leave it so. -/
theorem StaysUp.later {c : ℕ} {old evs : List DialEvent} {s s' : Shared} (h : StaysUp c old s)
    (hhistory : s'.history = evs ++ s.history) (hevs : ∀ ev ∈ evs, ev.plain = true)
    (hconn : s'.conn = s.conn) : StaysUp c old s' := by
  obtain ⟨new, hnew, honly⟩ := h.history
  refine ⟨?_, evs ++ new, ?_, honly.later hevs⟩
  · rw [hconn]
    exact h.conn
  · rw [hhistory, hnew, List.append_assoc]

/-- What a caller has seen since it entered is new if the entering is. -/
theorem mem_new {later earlier new old : List DialEvent} {i : ℕ}
    (hsplit : later ++ .entered i :: earlier = new ++ old) (hlater : .entered i ∉ later)
    (hentered : .entered i ∈ new) {ev : DialEvent} (hev : ev ∈ later) : ev ∈ new := by
  rcases List.append_eq_append_iff.mp hsplit with ⟨mid, rfl, -⟩ | ⟨mid, rfl, -⟩
  · exact List.mem_append_left _ hev
  · exact absurd (List.mem_append_left _ hentered) hlater

/-- Whoever has waited for an attempt is answered with the connection. -/
theorem Awaiting.staysUp {c i k n : ℕ} {old : List DialEvent} {s : Shared}
    {x : Except JoinError (Except ConnectError ℕ)} (h : Awaiting i k s.history)
    (hinv : DialInv n s) (hjoined : s.joined k = some x) (hup : StaysUp c old s) :
    StaysUp c old (s.emit (.returned i (joinResult x))) := by
  obtain ⟨new, hnew, honly⟩ := hup.history
  refine ⟨hup.conn, .returned i (joinResult x) :: new, congrArg _ hnew,
    honly.cons (fun heq => by cases heq) (fun k r heq => by cases heq) fun i' r' heq hentered => ?_⟩
  obtain ⟨rfl, rfl⟩ := DialEvent.returned.inj heq
  obtain ⟨later, earlier, hsplit, hlater, -, hfresh⟩ := h
  -- what happened to the task, it did after the caller entered
  have hmem : ∀ {ev : DialEvent}, ev ∈ s.history → ev.about = some k → ev ≠ .entered i →
      ev ∈ new := by
    intro ev hev habout hne
    rw [hsplit] at hev
    refine mem_new (hsplit.symm.trans hnew) hlater hentered ?_
    rcases List.mem_append.mp hev with hev | hev
    · exact hev
    · rcases List.mem_cons.mp hev with hev | hev
      · exact absurd hev hne
      · exact absurd habout (hfresh ev hev)
  rcases x with e | r
  · exact .inr ⟨k, hmem (hinv.aborted k e hjoined) rfl fun heq => by cases heq⟩
  · exact .inl (honly.completed k r (hmem (hinv.joined k r hjoined) rfl fun heq => by cases heq))

/-- So is whoever has had the lock. -/
theorem Answer.staysUp {c i : ℕ} {old : List DialEvent} {s : Shared} {lock : Option ℕ}
    {result : Except ConnectError ℕ} (h : Answer i s result) (hup : StaysUp c old s) :
    StaysUp c old ({ s with lock := lock }.emit (.returned i result)) := by
  obtain ⟨new, hnew, honly⟩ := hup.history
  refine ⟨hup.conn, .returned i result :: new, congrArg _ hnew,
    honly.cons (fun heq => by cases heq) (fun k r heq => by cases heq) fun i' r' heq hentered => ?_⟩
  obtain ⟨rfl, rfl⟩ := DialEvent.returned.inj heq
  refine .inl ?_
  rcases result with failure | c'
  · obtain ⟨later, earlier, hsplit, hlater, k, hk⟩ := h
    exact honly.completed k _ (mem_new (hsplit.symm.trans hnew) hlater hentered hk)
  · have hsame : ReconnectState.connected c' = .connected c := h.symm.trans hup.conn
    rw [ReconnectState.connected.inj hsame]

/-! ## Turns -/

/-- What happens later keeps the invariant. -/
theorem DialInv.later {n : ℕ} {s s' : Shared} {evs : List DialEvent} (hinv : DialInv n s)
    (hhistory : s'.history = evs ++ s.history)
    (habout : ∀ ev ∈ evs, ∀ i, ev.about = some i → i < n) (hlawful : Lawful s'.history)
    (hattempts : s'.attempts = (outcomes evs).length + s.attempts)
    (hsender : ∀ c, s'.sender = some c → s'.conn.state = .connected c)
    (hsettled : s'.lock = none → Settled s')
    (hjoined : ∀ k x, s'.joined k = some x → s.joined k = some x ∨
      match x with
      | .ok r => .completed k r ∈ s'.history
      | .error _ => .aborted k ∈ s'.history) : DialInv n s' := by
  have hold : ∀ {ev}, ev ∈ s.history → ev ∈ s'.history := by
    intro ev hev
    rw [hhistory]
    exact List.mem_append_right _ hev
  refine ⟨fun ev hev => ?_, ?_, hsender, hsettled, hlawful, fun k r hk => ?_, fun k e hk => ?_⟩
  · rw [hhistory] at hev
    rcases List.mem_append.mp hev with hev | hev
    · exact habout ev hev
    · exact hinv.about ev hev
  · rw [hattempts, hhistory, outcomes_append, List.length_append, hinv.attempts]
  · rcases hjoined k _ hk with hk | hk
    · exact hold (hinv.joined k r hk)
    · exact hk
  · rcases hjoined k _ hk with hk | hk
    · exact hold (hinv.aborted k e hk)
    · exact hk

/-- Whoever holds the lock, or takes it while it is free, guarantees nothing but that its events
are its own. -/
theorem gives_of_lock {i : ℕ} {s s' : Shared} {evs : List DialEvent}
    (hhistory : s'.history = evs ++ s.history)
    (hclosed : s'.closed = s.closed)
    (habout : ∀ ev ∈ evs, ∀ j, ev.about = some j → some i = some j)
    (hlock : s.lock = none ∨ s.lock = some i) : Gives (some i) s s' := by
  refine ⟨fun _ => hclosed, evs, hhistory, habout, fun j hj hne => ?_⟩
  rcases hlock with hlock | hlock
  · rw [hlock] at hj
    cases hj
  · rw [hlock] at hj
    exact absurd hj hne

section Reconnect

variable {i n : ℕ} {s : Shared}

/-- A failure that is the latest outcome is among the events with an outcome. -/
theorem mem_of_failureOf {later rest : List DialEvent} {failure : ConnectError}
    (hsome : outcomes later ≠ [])
    (hfailure : failureOf (outcomes (later ++ rest)).head? = some failure) :
    ∃ k, .completed k (.error failure) ∈ later := by
  rw [outcomes_append] at hfailure
  rcases ho : outcomes later with _ | ⟨o, os⟩
  · exact absurd ho hsome
  · rw [ho] at hfailure
    have hmem : o ∈ outcomes later := by
      rw [ho]
      exact List.mem_cons_self
    obtain ⟨ev, hev, hoev⟩ := List.mem_filterMap.mp hmem
    rcases o with failure' | c
    · obtain rfl := Option.some.inj hfailure
      cases ev with
      | completed k r =>
        obtain rfl := Option.some.inj hoev
        exact ⟨k, hev⟩
      | _ => cases hoev
    · cases hfailure

/-- A caller that sees another number of attempts answers with a failure from after it
entered. -/
theorem Holding.answer {seen : ℕ} {failure : ConnectError} (h : Holding i seen s)
    (hinv : DialInv n s) (hseen : s.attempts ≠ seen) (hfailure : s.lastFailure = some failure) :
    Answer i s (.error failure) := by
  obtain ⟨later, earlier, hsplit, hlater, hcount⟩ := h.entered
  refine ⟨later, earlier, hsplit, fun hev => hlater _ hev rfl, ?_⟩
  rw [h.settled.failure, hsplit] at hfailure
  refine mem_of_failureOf (fun hnone => hseen ?_) hfailure
  have hentered : (DialEvent.entered i).outcome = none := rfl
  rw [hinv.attempts, hsplit, outcomes_append, hnone, outcomes_of_none hentered, hcount]
  rfl

/-- **No attempt is started on a failure that is news**: a caller that starts one has entered
since the latest failure. -/
theorem Holding.justified {seen : ℕ} (h : Holding i seen s) (hinv : DialInv n s)
    (hstart : s.attempts = seen ∨ s.lastFailure = none) (k : ℕ) :
    Justified s.history (.started i k) := by
  rintro later k' failure earlier hsplit hlater
  have hlatest : s.lastFailure = some failure := by
    rw [h.settled.failure, hsplit, outcomes_append, hlater]
    rfl
  have hseen : s.attempts = seen := by
    rcases hstart with hseen | hnone
    · exact hseen
    · rw [hnone] at hlatest
      cases hlatest
  obtain ⟨later', earlier', hsplit', -, hcount⟩ := h.entered
  have hentered : (DialEvent.entered i).outcome = none := rfl
  have hnone : outcomes later' = [] := by
    rw [hinv.attempts, hsplit', outcomes_append, outcomes_of_none hentered, List.length_append,
      hcount] at hseen
    exact List.length_eq_zero_iff.mp (by omega)
  rw [hsplit] at hsplit'
  rcases List.append_eq_append_iff.mp hsplit' with ⟨mid, rfl, hrest⟩ | ⟨mid, rfl, hrest⟩
  · -- the failure would have come after the caller
    rcases mid with _ | ⟨ev, mid⟩
    · cases (List.cons.inj hrest).1
    · obtain ⟨rfl, -⟩ := List.cons.inj hrest
      exact absurd (List.mem_append_right _ List.mem_cons_self)
        (outcomes_eq_nil_iff.mp hnone k' (.error failure))
  · rcases mid with _ | ⟨ev, mid⟩
    · cases (List.cons.inj hrest).1
    · obtain ⟨rfl, -⟩ := List.cons.inj hrest
      exact List.mem_append_right _ List.mem_cons_self

/-- What a step of `reconnect` comes to keeps everything. -/
structure Upheld (i n : ℕ) (s : Shared) (r : Shared × Progress × Option Attempt) : Prop where
  /-- the invariant -/
  inv : DialInv n r.1
  /-- what the others rely on -/
  gives : Gives (some i) s r.1
  /-- what the caller relies on -/
  own : ∀ stage, r.2.1 = .goesOn stage → stage.Own i r.1
  /-- what the attempt relies on that it has started -/
  started : ∀ a, r.2.2 = some a → a.Own n r.1
  /-- a connection that is open is kept -/
  kept : ∀ {c old}, StaysUp c old s → StaysUp c old r.1

/-- A step that only looks. -/
theorem upheld_same {stage : ReconnectStage} (hinv : DialInv n s) (hown : stage.Own i s) :
    Upheld i n s (s, .goesOn stage, none) := by
  refine ⟨hinv, .refl _ s, fun stage' hstage => ?_, fun a ha => ?_, fun hup => hup⟩
  · obtain rfl := Progress.goesOn.inj hstage
    exact hown
  · cases ha

theorem upheld_entering (hi : i < n) (hinv : DialInv n s) :
    Upheld i n s (s.emit (.entered i), .goesOn (.waiting s.attempts), none) := by
  have habout : ∀ ev ∈ [DialEvent.entered i], ∀ j, ev.about = some j → some i = some j := by
    intro ev hev j hj
    obtain rfl := List.mem_singleton.mp hev
    exact hj
  have hhistory : (s.emit (.entered i)).history = [.entered i] ++ s.history := rfl
  have hplain : ∀ ev ∈ [DialEvent.entered i], ev.plain = true := by
    intro ev hev
    obtain rfl := List.mem_singleton.mp hev
    rfl
  refine ⟨?_, ⟨fun _ => rfl, _, hhistory, habout, fun j hj _ =>
    ⟨rfl, rfl, rfl, rfl, .inl rfl, rfl⟩⟩, ?_, ?_, fun hup => hup.later hhistory hplain rfl⟩
  · refine hinv.later hhistory (fun ev hev j hj => ?_) (.cons trivial hinv.lawful)
      (Nat.zero_add _).symm hinv.sender (fun hlock => ?_) fun k x hk => .inl hk
    · obtain rfl := Option.some.inj (habout ev hev j hj)
      exact hi
    · exact (hinv.settled hlock).later hhistory rfl rfl (.inl rfl)
  · intro stage hstage
    obtain rfl := Progress.goesOn.inj hstage
    exact ⟨[], s.history, rfl, fun ev hev => absurd hev List.not_mem_nil, hinv.attempts⟩
  · intro a ha
    cases ha

theorem upheld_waiting {seen : ℕ} (hinv : DialInv n s) (hlock : s.lock = none)
    (hown : HasEntered i seen s.history) :
    Upheld i n s ({ s with lock := some i }, .goesOn (.locked seen), none) := by
  have hnil : ∀ ev ∈ ([] : List DialEvent), ∀ j, ev.about = some j → some i = some j :=
    fun ev hev => absurd hev List.not_mem_nil
  have hhistory : ({ s with lock := some i } : Shared).history = [] ++ s.history := rfl
  refine ⟨?_, gives_of_lock hhistory rfl hnil (.inl hlock), ?_, ?_, fun hup =>
    hup.later hhistory (fun ev hev => absurd hev List.not_mem_nil) rfl⟩
  · exact hinv.later rfl (fun ev hev => absurd hev List.not_mem_nil) hinv.lawful
      (Nat.zero_add _).symm hinv.sender (fun hnone => by cases hnone) fun k x hk => .inl hk
  · intro stage hstage
    obtain rfl := Progress.goesOn.inj hstage
    exact ⟨rfl, (hinv.settled hlock).later hhistory rfl rfl (.inl rfl), hown⟩
  · intro a ha
    cases ha

theorem upheld_retiring {seen : ℕ} (hinv : DialInv n s) (hholding : Holding i seen s)
    (hstart : s.attempts = seen ∨ s.lastFailure = none) :
    Upheld i n s ({ s with sender := none }.emit .wiped, .goesOn (.spawning seen), none) := by
  have habout : ∀ ev ∈ [DialEvent.wiped], ∀ j, ev.about = some j → some i = some j := by
    intro ev hev j hj
    obtain rfl := List.mem_singleton.mp hev
    cases hj
  have hhistory : ({ s with sender := none }.emit .wiped).history = [.wiped] ++ s.history := rfl
  refine ⟨?_, gives_of_lock hhistory rfl habout (.inr hholding.lock), ?_, ?_, fun hup =>
    hup.later hhistory (fun ev hev => ?_) rfl⟩
  · refine hinv.later hhistory (fun ev hev j hj => ?_) (.cons trivial hinv.lawful)
      (Nat.zero_add _).symm (fun c hc => by cases hc) (fun hnone => ?_) fun k x hk => .inl hk
    · cases habout ev hev j hj
      obtain rfl := List.mem_singleton.mp hev
      cases hj
    · exact absurd (hholding.lock.symm.trans hnone) (Option.some_ne_none i)
  · intro stage hstage
    obtain rfl := Progress.goesOn.inj hstage
    have hentered : HasEntered i seen ([.wiped] ++ s.history) := by
      refine hholding.entered.later fun ev hev hj => ?_
      obtain rfl := List.mem_singleton.mp hev
      cases hj
    exact ⟨⟨hholding.lock, hholding.settled.later hhistory rfl rfl
      (.inr ⟨rfl, List.mem_cons_self⟩), hentered⟩, hstart, rfl⟩
  · intro a ha
    cases ha
  · obtain rfl := List.mem_singleton.mp hev
    rfl

theorem upheld_spawning {seen : ℕ} (hi : i < n) (hinv : DialInv n s) (hholding : Holding i seen s)
    (hstart : s.attempts = seen ∨ s.lastFailure = none) (hsender : s.sender = none) :
    Upheld i n s ({ s with lock := some n }.emit (.started i n), .goesOn (.awaiting n),
      some .polling) := by
  have habout : ∀ ev ∈ [DialEvent.started i n], ∀ j, ev.about = some j → some i = some j := by
    intro ev hev j hj
    obtain rfl := List.mem_singleton.mp hev
    exact hj
  have hhistory : ({ s with lock := some n }.emit (.started i n)).history =
      [.started i n] ++ s.history := rfl
  refine ⟨?_, gives_of_lock hhistory rfl habout (.inr hholding.lock), ?_, ?_, fun hup =>
    hup.later hhistory (fun ev hev => ?_) rfl⟩
  · refine hinv.later hhistory (fun ev hev j hj => ?_)
      (.cons (hholding.justified hinv hstart n) hinv.lawful) (Nat.zero_add _).symm hinv.sender
      (fun hnone => by cases hnone) fun k x hk => .inl hk
    obtain rfl := Option.some.inj (habout ev hev j hj)
    exact hi
  · intro stage hstage
    obtain rfl := Progress.goesOn.inj hstage
    obtain ⟨later, earlier, hsplit, hlater, -⟩ := hholding.entered
    refine ⟨.started i n :: later, earlier, congrArg _ hsplit, fun hev => ?_,
      List.mem_cons_self, fun ev hev hn => ?_⟩
    · rcases List.mem_cons.mp hev with hev | hev
      · cases hev
      · exact hlater _ hev rfl
    · -- the number of the task is new
      have hmem : ev ∈ s.history := by
        rw [hsplit]
        exact List.mem_append_right _ (List.mem_cons_of_mem _ hev)
      exact absurd (hinv.about ev hmem n hn) (Nat.lt_irrefl n)
  · intro a ha
    obtain rfl := Option.some.inj ha
    exact ⟨rfl, hholding.settled.later hhistory rfl rfl (.inl rfl), hsender⟩
  · obtain rfl := List.mem_singleton.mp hev
    rfl

/-- The failure of an attempt that the caller has started is justified. -/
theorem Awaiting.justified {k : ℕ} (h : Awaiting i k s.history) (result : Except ConnectError ℕ) :
    Justified s.history (.returned i result) := by
  rcases result with failure | c
  · obtain ⟨later, earlier, hsplit, hlater, hstarted, -⟩ := h
    exact ⟨later, earlier, hsplit, hlater, .inl ⟨k, hstarted⟩⟩
  · trivial

/-- So is an answer under the lock. -/
theorem Answer.justified {result : Except ConnectError ℕ} (h : Answer i s result) :
    Justified s.history (.returned i result) := by
  rcases result with failure | c
  · obtain ⟨later, earlier, hsplit, hlater, hcompleted⟩ := h
    exact ⟨later, earlier, hsplit, hlater, .inr hcompleted⟩
  · trivial

theorem upheld_returned {result : Except ConnectError ℕ} {lock : Option ℕ} (hi : i < n)
    (hinv : DialInv n s) (hjustified : Justified s.history (.returned i result))
    (hlock : lock = s.lock ∨ lock = none ∧ s.lock = some i ∧ Settled s)
    (hkept : ∀ {c old}, StaysUp c old s →
      StaysUp c old ({ s with lock := lock }.emit (.returned i result))) :
    Upheld i n s ({ s with lock := lock }.emit (.returned i result), .returns result, none) := by
  have habout : ∀ ev ∈ [DialEvent.returned i result], ∀ j, ev.about = some j → some i = some j := by
    intro ev hev j hj
    obtain rfl := List.mem_singleton.mp hev
    exact hj
  have hhistory : ({ s with lock := lock }.emit (.returned i result)).history =
      [.returned i result] ++ s.history := rfl
  refine ⟨?_, ?_, ?_, ?_, hkept⟩
  · refine hinv.later hhistory (fun ev hev j hj => ?_) (.cons hjustified hinv.lawful)
      (Nat.zero_add _).symm hinv.sender (fun hnone => ?_) fun k x hk => .inl hk
    · obtain rfl := Option.some.inj (habout ev hev j hj)
      exact hi
    · have hsettled : Settled s := by
        rcases hlock with hsame | ⟨-, -, hsettled⟩
        · exact hinv.settled (hsame.symm.trans hnone)
        · exact hsettled
      exact hsettled.later hhistory rfl rfl (.inl rfl)
  · rcases hlock with rfl | ⟨-, hheld, -⟩
    · exact ⟨fun _ => rfl, _, hhistory, habout, fun j hj _ => ⟨rfl, rfl, rfl, rfl, .inl rfl, rfl⟩⟩
    · exact gives_of_lock hhistory rfl habout (.inr hheld)
  · intro stage hstage
    cases hstage
  · intro a ha
    cases ha

/-- **A step of `reconnect`.** -/
theorem reconnect_upholds {stage : ReconnectStage} {r : Shared × Progress × Option Attempt}
    (h : s.reconnect i n stage = some r) (hi : i < n) (hinv : DialInv n s)
    (hown : stage.Own i s) : Upheld i n s r := by
  cases stage with
  | entering =>
    obtain rfl := Option.some.inj h
    exact upheld_entering hi hinv
  | waiting seen =>
    rw [Shared.reconnect] at h
    split at h
    · rename_i hlock
      obtain rfl := Option.some.inj h
      exact upheld_waiting hinv hlock hown
    · cases h
  | locked seen =>
    rw [Shared.reconnect] at h
    rcases hlive : s.liveSender with _ | c
    · rw [hlive] at h
      obtain rfl := Option.some.inj h
      exact upheld_same hinv hown
    · rw [hlive] at h
      obtain rfl := Option.some.inj h
      have hsender : s.sender = some c := (Option.filter_eq_some_iff.mp hlive).1
      exact upheld_same hinv ⟨hown.lock, hown.settled, hinv.sender c hsender⟩
  | disconnected seen =>
    rw [Shared.reconnect] at h
    split at h
    · rename_i hne
      obtain rfl := Option.some.inj h
      exact upheld_same hinv ⟨hown, hne⟩
    · rename_i hseen
      obtain rfl := Option.some.inj h
      exact upheld_same hinv ⟨hown, .inl (not_not.mp hseen)⟩
  | outdated seen =>
    rw [Shared.reconnect] at h
    obtain ⟨hholding, hne⟩ := hown
    rcases hfailure : s.lastFailure with _ | failure
    · rw [hfailure] at h
      obtain rfl := Option.some.inj h
      exact upheld_same hinv ⟨hholding, .inr hfailure⟩
    · rw [hfailure] at h
      obtain rfl := Option.some.inj h
      exact upheld_same hinv ⟨hholding.lock, hholding.settled, hholding.answer hinv hne hfailure⟩
  | retiring seen =>
    obtain rfl := Option.some.inj h
    exact upheld_retiring hinv hown.1 hown.2
  | spawning seen =>
    obtain rfl := Option.some.inj h
    exact upheld_spawning hi hinv hown.1 hown.2.1 hown.2.2
  | awaiting k =>
    obtain ⟨joined, hjoined, rfl⟩ := Option.map_eq_some_iff.mp h
    exact upheld_returned hi hinv (hown.justified _) (.inl rfl) (hown.staysUp hinv hjoined)
  | leaving result =>
    obtain rfl := Option.some.inj h
    exact upheld_returned hi hinv hown.2.2.justified (.inr ⟨rfl, hown.1, hown.2.1⟩)
      hown.2.2.staysUp

end Reconnect

/-! ## Turns of attempts -/

/-- What an attempt makes of the state machine fits it. -/
theorem Reconnect.pollReady_matches {r conn : Reconnect} {isClosed : ℕ → Bool} {new : ℕ}
    {answer ready : Except BoxError Unit} (h : r.pollReady isClosed new answer = .ready conn ready) :
    Matches (conn.outcome ready).1 (conn.outcome ready).2 := by
  have hidle : ∀ {conn : Reconnect}, conn.state = .idle → ∀ c, conn.state ≠ .connected c := by
    intro conn hidle c hc
    rw [hidle] at hc
    cases hc
  -- an error is made of an error that is reported, or of one that is deferred
  have herror : ∀ {conn : Reconnect} {e : BoxError}, conn.state = .idle →
      Matches (conn.outcome (.error e)).1 (conn.outcome (.error e)).2 := fun hstate => hidle hstate
  have hdeferred : ∀ {conn : Reconnect}, conn.state = .idle →
      Matches (conn.outcome (.ok ())).1 (conn.outcome (.ok ())).2 := by
    intro conn hstate
    rcases hd : conn.deferredError with _ | e
    · simp only [outcome, hd, hstate]
      exact hidle rfl
    · simp only [outcome, hd]
      exact hidle hstate
  rw [pollReady] at h
  split at h
  · rename_i hsome
    obtain ⟨rfl, rfl⟩ := Round.ready.inj h
    exact hdeferred (r.idle_of_deferred hsome)
  · rename_i hnone
    rcases hstate : r.state with _ | _ | c
    · simp only [hstate] at h
      rcases answer with e | ⟨⟩
      · obtain ⟨rfl, rfl⟩ := Round.ready.inj h
        exact herror hstate
      · cases h
    · simp only [hstate] at h
      rcases answer with e | ⟨⟩
      · simp only at h
        split at h
        · obtain ⟨rfl, rfl⟩ := Round.ready.inj h
          exact hdeferred rfl
        · obtain ⟨rfl, rfl⟩ := Round.ready.inj h
          exact herror rfl
      · cases h
    · simp only [hstate] at h
      split at h
      · cases h
      · obtain ⟨rfl, rfl⟩ := Round.ready.inj h
        have hd : r.deferredError = none := by
          rw [← Option.not_isSome_iff_eq_none]
          exact hnone
        simp only [outcome, hd, hstate]
        exact rfl

/-- While the connection is open, an attempt finds it ready. -/
theorem Reconnect.pollReady_connected {r : Reconnect} {isClosed : ℕ → Bool} {new c : ℕ}
    {answer : Except BoxError Unit} (hstate : r.state = .connected c) (hopen : isClosed c = false) :
    r.pollReady isClosed new answer = .ready r (.ok ()) := by
  have hnone : ¬ r.deferredError.isSome = true := by
    intro hsome
    rw [r.idle_of_deferred hsome] at hstate
    cases hstate
  rw [pollReady, dif_neg hnone]
  simp only [hstate, hopen, Bool.false_eq_true, if_false]

/-- What a turn of an attempt comes to keeps everything. -/
structure AttemptUpheld (k n : ℕ) (s : Shared) (r : Shared × Attempt) : Prop where
  /-- the invariant -/
  inv : DialInv n r.1
  /-- what the others rely on -/
  gives : Gives (some k) s r.1
  /-- what the attempt relies on -/
  own : r.2.Own k r.1
  /-- a connection that is open is kept -/
  kept : ∀ {c old}, s.isClosed c = false → StaysUp c old s → StaysUp c old r.1

section Attempt

variable {k n : ℕ} {s : Shared}

/-- An attempt works on the state machine, which it has the lock of. -/
theorem upheld_polling {conn : Reconnect} {opened : ℕ} {evs : List DialEvent} {a : Attempt}
    (hinv : DialInv n s) (hown : Attempt.polling.Own k s) (hevs : evs = [] ∨ evs = [.dialed])
    (ha : a = .polling ∨ ∃ r, a = .counting r ∧ Matches conn r)
    (hkept : ∀ c, s.isClosed c = false → s.conn.state = .connected c →
      conn.state = .connected c ∧ evs = []) :
    AttemptUpheld k n s ({ s with conn := conn, opened := opened, history := evs ++ s.history }, a) := by
  obtain ⟨hlock, hsettled, hnone⟩ := hown
  have hhistory : ({ s with conn := conn, opened := opened, history := evs ++ s.history } :
      Shared).history = evs ++ s.history := rfl
  have hquiet : outcomes evs = [] := by
    rcases hevs with rfl | rfl
    · rfl
    · rfl
  have habout : ∀ ev ∈ evs, ∀ j, ev.about ≠ some j := by
    intro ev hev j hj
    rcases hevs with rfl | rfl
    · cases hev
    · obtain rfl := List.mem_singleton.mp hev
      cases hj
  have hlawful : Lawful (evs ++ s.history) := by
    rcases hevs with rfl | rfl
    · exact hinv.lawful
    · exact .cons trivial hinv.lawful
  have hsettled' := hsettled.later hhistory hquiet rfl (.inl rfl)
  refine ⟨?_, gives_of_lock hhistory rfl (fun ev hev j hj => absurd hj (habout ev hev j))
    (.inr hlock), ?_, fun {c old} hopen hup => ?_⟩
  · refine hinv.later hhistory (fun ev hev j hj => absurd hj (habout ev hev j)) hlawful ?_
      (fun c hc => ?_) (fun _ => hsettled') fun k x hk => .inl hk
    · rw [hquiet]
      exact (Nat.zero_add _).symm
    · rw [hnone] at hc
      cases hc
  · rcases ha with rfl | ⟨r, rfl, hmatches⟩
    · exact ⟨hlock, hsettled', hnone⟩
    · exact ⟨hlock, hsettled', hnone, hmatches⟩
  · obtain ⟨hconn, rfl⟩ := hkept c hopen hup.conn
    exact ⟨hconn, hup.history⟩

/-- An attempt that ends lets go of the lock, with everything settled. -/
theorem upheld_ended {x : Except JoinError (Except ConnectError ℕ)} {evs : List DialEvent}
    (hk : k < n) (hinv : DialInv n s) (hlock : s.lock = some k) (hsettled : Settled s)
    (hevs : evs = [] ∧ (∃ r, x = .ok r ∧ .completed k r ∈ s.history) ∨
      evs = [.aborted k] ∧ ∃ e, x = .error e) :
    AttemptUpheld k n s
      ({ s with
        lock := none
        joined := Function.update s.joined k (some x)
        history := evs ++ s.history }, .ended) := by
  have hhistory : ({ s with
      lock := none
      joined := Function.update s.joined k (some x)
      history := evs ++ s.history } : Shared).history = evs ++ s.history := rfl
  have hquiet : outcomes evs = [] := by
    rcases hevs with ⟨rfl, -⟩ | ⟨rfl, -⟩
    · rfl
    · rfl
  have habout : ∀ ev ∈ evs, ∀ j, ev.about = some j → some k = some j := by
    intro ev hev j hj
    rcases hevs with ⟨rfl, -⟩ | ⟨rfl, -⟩
    · cases hev
    · obtain rfl := List.mem_singleton.mp hev
      exact hj
  have hlawful : Lawful (evs ++ s.history) := by
    rcases hevs with ⟨rfl, -⟩ | ⟨rfl, -⟩
    · exact hinv.lawful
    · exact .cons trivial hinv.lawful
  have hplain : ∀ ev ∈ evs, ev.plain = true := by
    intro ev hev
    rcases hevs with ⟨rfl, -⟩ | ⟨rfl, -⟩
    · cases hev
    · obtain rfl := List.mem_singleton.mp hev
      rfl
  refine ⟨?_, gives_of_lock hhistory rfl habout (.inr hlock), trivial,
    fun _ hup => hup.later hhistory hplain rfl⟩
  refine hinv.later hhistory (fun ev hev j hj => ?_) hlawful ?_ hinv.sender
    (fun _ => hsettled.later hhistory hquiet rfl (.inl rfl)) fun k' x' hk' => ?_
  · obtain rfl := Option.some.inj (habout ev hev j hj)
    exact hk
  · rw [hquiet]
    exact (Nat.zero_add _).symm
  · by_cases hkk : k' = k
    · subst hkk
      have hx : x = x' := by
        simpa only [Function.update_self, Option.some.injEq] using hk'
      subst hx
      refine .inr ?_
      rcases hevs with ⟨rfl, r, rfl, hmem⟩ | ⟨rfl, e, rfl⟩
      · exact hmem
      · exact List.mem_cons_self
    · refine .inl ?_
      simpa only [Function.update_of_ne hkk] using hk'

theorem upheld_counting {result : Except BoxError ℕ} (hk : k < n) (hinv : DialInv n s)
    (hlock : s.lock = some k) (hmatches : Matches s.conn result) :
    AttemptUpheld k n s
      ({ s with attempts := s.attempts + 1 }.emit (.completed k (dialResult result)),
        .recording result) := by
  have hhistory : ({ s with attempts := s.attempts + 1 }.emit
      (.completed k (dialResult result))).history =
        [.completed k (dialResult result)] ++ s.history := rfl
  have habout : ∀ ev ∈ [DialEvent.completed k (dialResult result)], ∀ j,
      ev.about = some j → some k = some j := by
    intro ev hev j hj
    obtain rfl := List.mem_singleton.mp hev
    exact hj
  have hown : (Attempt.recording result).Own k
      ({ s with attempts := s.attempts + 1 }.emit (.completed k (dialResult result))) :=
    ⟨⟨hlock, List.mem_cons_self, rfl⟩, hmatches⟩
  refine ⟨?_, gives_of_lock hhistory rfl habout (.inr hlock), hown, fun {c old} _ hup => ?_⟩
  · refine hinv.later hhistory (fun ev hev j hj => ?_) (.cons trivial hinv.lawful)
      (Nat.add_comm _ _) hinv.sender (fun hnone => ?_) fun k x hk => .inl hk
    · obtain rfl := Option.some.inj (habout ev hev j hj)
      exact hk
    · exact absurd (hlock.symm.trans hnone) (Option.some_ne_none k)
  · obtain ⟨new, hnew, honly⟩ := hup.history
    refine ⟨hup.conn, .completed k (dialResult result) :: new, congrArg _ hnew,
      honly.cons (fun heq => by cases heq) (fun k' r heq => ?_) fun i r heq => by cases heq⟩
    obtain ⟨-, rfl⟩ := DialEvent.completed.inj heq
    rcases result with e | c'
    · exact absurd hup.conn (hmatches c)
    · have hsame : ReconnectState.connected c' = .connected c := hmatches.symm.trans hup.conn
      rw [ReconnectState.connected.inj hsame]
      rfl

/-- The latest attempt leaves everything settled once it has recorded its failure, or that
there is none, and published its handle. -/
theorem Completed.settled {r : Except ConnectError ℕ} (h : Completed k r s)
    (hfailure : s.lastFailure = failureOf (some r)) (hsender : ∀ c, r = .ok c → s.sender = some c) :
    Settled s := by
  refine ⟨?_, fun later k' c earlier hsplit hlater => .inr (hsender c ?_)⟩
  · rw [h.latest]
    exact hfailure
  · have hlatest := h.latest
    rw [hsplit, outcomes_append, hlater] at hlatest
    exact (Option.some.inj hlatest).symm

/-- An attempt that records or publishes what it has come to. -/
theorem upheld_completed {s' : Shared} {r : Except ConnectError ℕ} {a : Attempt}
    (hinv : DialInv n s) (hcompleted : Completed k r s) (hhistory : s'.history = s.history)
    (hlock : s'.lock = s.lock) (hattempts : s'.attempts = s.attempts)
    (hjoined : s'.joined = s.joined) (hclosed : s'.closed = s.closed) (hconn : s'.conn = s.conn)
    (hsender : ∀ c, s'.sender = some c → s'.conn.state = .connected c)
    (hown : Completed k r s' → a.Own k s') : AttemptUpheld k n s (s', a) := by
  have hhistory' : s'.history = [] ++ s.history := hhistory
  refine ⟨?_, gives_of_lock hhistory' hclosed (fun ev hev => absurd hev List.not_mem_nil)
    (.inr hcompleted.lock), hown ?_, fun _ hup =>
    hup.later hhistory' (fun ev hev => absurd hev List.not_mem_nil) hconn⟩
  · refine hinv.later hhistory' (fun ev hev => absurd hev List.not_mem_nil) ?_
      (hattempts.trans (Nat.zero_add _).symm) hsender (fun hnone => ?_) fun k x hk => .inl ?_
    · rw [hhistory]
      exact hinv.lawful
    · rw [hlock, hcompleted.lock] at hnone
      cases hnone
    · rw [← hjoined]
      exact hk
  · refine ⟨hlock.trans hcompleted.lock, ?_, ?_⟩
    · rw [hhistory]
      exact hcompleted.completed
    · rw [hhistory]
      exact hcompleted.latest

/-- **A turn of an attempt.** -/
theorem attempt_upholds {a : Attempt} {x : Choice} {r : Shared × Attempt}
    (h : s.attempt k x a = some r) (hk : k < n) (hinv : DialInv n s) (hown : a.Own k s) :
    AttemptUpheld k n s r := by
  cases a with
  | polling =>
    cases x with
    | polled answer =>
      rw [Shared.attempt] at h
      have hready : ∀ c, s.isClosed c = false → s.conn.state = .connected c →
          s.conn.pollReady s.isClosed s.opened answer = .ready s.conn (.ok ()) :=
        fun c hopen hstate => Reconnect.pollReady_connected hstate hopen
      rcases hround : s.conn.pollReady s.isClosed s.opened answer with conn | conn | conn |
        ⟨conn, ready⟩
      · simp only [hround] at h hready
        obtain rfl := Option.some.inj h
        refine upheld_polling hinv hown (.inl rfl) (.inl rfl) fun c hopen hstate => ?_
        cases hready c hopen hstate
      · simp only [hround] at h hready
        obtain rfl := Option.some.inj h
        refine upheld_polling hinv hown (.inl rfl) (.inl rfl) fun c hopen hstate => ?_
        cases hready c hopen hstate
      · simp only [hround] at h hready
        obtain rfl := Option.some.inj h
        refine upheld_polling hinv hown (.inr rfl) (.inl rfl) fun c hopen hstate => ?_
        cases hready c hopen hstate
      · simp only [hround] at h hready
        obtain rfl := Option.some.inj h
        refine upheld_polling hinv hown (.inl rfl)
          (.inr ⟨_, rfl, Reconnect.pollReady_matches hround⟩) fun c hopen hstate => ⟨?_, rfl⟩
        obtain ⟨rfl, -⟩ := Round.ready.inj (hready c hopen hstate)
        exact hstate
    | aborted e =>
      obtain rfl := Option.some.inj h
      exact upheld_ended hk hinv hown.1 hown.2.1 (.inr ⟨rfl, e, rfl⟩)
    | _ => cases h
  | counting result =>
    obtain rfl := Option.some.inj h
    exact upheld_counting hk hinv hown.1 hown.2.2.2
  | recording result =>
    obtain ⟨hcompleted, hmatches⟩ := hown
    rcases result with e | c
    · obtain rfl := Option.some.inj h
      refine upheld_completed hinv hcompleted rfl rfl rfl rfl rfl rfl hinv.sender fun hcompleted' => ?_
      exact ⟨hcompleted', hcompleted'.settled rfl fun c hc => by cases hc⟩
    · obtain rfl := Option.some.inj h
      exact upheld_completed hinv hcompleted rfl rfl rfl rfl rfl rfl hinv.sender
        fun hcompleted' => ⟨hcompleted', hmatches, rfl⟩
  | publishing c =>
    obtain ⟨hcompleted, hconn, hfailure⟩ := hown
    obtain rfl := Option.some.inj h
    refine upheld_completed hinv hcompleted rfl rfl rfl rfl rfl rfl (fun c' hc' => ?_) fun hcompleted' => ?_
    · obtain rfl := Option.some.inj hc'
      exact hconn
    · refine ⟨hcompleted', hcompleted'.settled hfailure fun c' hc' => ?_⟩
      obtain rfl := Except.ok.inj hc'
      rfl
  | unlocking result =>
    obtain rfl := Option.some.inj h
    exact upheld_ended hk hinv hown.1.lock hown.2 (.inl ⟨rfl, result, rfl, hown.1.completed⟩)
  | ended => cases h

end Attempt

/-! ## Turns of requests and handles -/

/-- Whether an event tells nothing of attempts or of the shared handle. -/
def DialEvent.harmless : DialEvent → Bool
  | handed _ => true
  | taken _ => true
  | resent _ => true
  | acquired _ => true
  | released _ => true
  | _ => false

/-- A change that has nothing to do with attempts or with the shared handle. -/
structure Quiet (who : Option ℕ) (s s' : Shared) : Prop where
  /-- what happens is harmless -/
  history : ∃ evs, s'.history = evs ++ s.history ∧
    ∀ ev ∈ evs, ev.harmless = true ∧ ∀ j, ev.about = some j → who = some j
  /-- the shared handle is the same -/
  sender : s'.sender = s.sender
  /-- the lock -/
  lock : s'.lock = s.lock
  /-- the state machine -/
  conn : s'.conn = s.conn
  /-- the number of attempts -/
  attempts : s'.attempts = s.attempts
  /-- the failure -/
  lastFailure : s'.lastFailure = s.lastFailure
  /-- the results of tasks -/
  joined : s'.joined = s.joined
  /-- the connections that are closed -/
  closed : s'.closed = s.closed

section Turns

variable {i n : ℕ} {s s' : Shared}

theorem Quiet.refl (who : Option ℕ) (s : Shared) : Quiet who s s :=
  ⟨⟨[], rfl, fun _ hev => absurd hev List.not_mem_nil⟩, rfl, rfl, rfl, rfl, rfl, rfl, rfl⟩

/-- What is nobody's is anybody's. -/
theorem Quiet.of_none (h : Quiet none s s') (who : Option ℕ) : Quiet who s s' := by
  obtain ⟨evs, hhistory, hevs⟩ := h.history
  refine { h with history := ⟨evs, hhistory, fun ev hev => ⟨(hevs ev hev).1, fun j hj => ?_⟩⟩ }
  cases (hevs ev hev).2 j hj

theorem Quiet.emit {ev : DialEvent} (hev : ev.harmless = true) (habout : ev.about = some i) :
    Quiet (some i) s (s.emit ev) := by
  refine ⟨⟨[ev], rfl, fun e he => ?_⟩, rfl, rfl, rfl, rfl, rfl, rfl, rfl⟩
  obtain rfl := List.mem_singleton.mp he
  exact ⟨hev, fun j hj => habout.symm.trans hj⟩

theorem quiet_release (s : Shared) (slot : Option ℕ) : Quiet none s (s.release slot) := by
  rcases slot with _ | slot
  · exact .refl none s
  · refine ⟨⟨[.released slot], rfl, fun e he => ?_⟩, rfl, rfl, rfl, rfl, rfl, rfl, rfl⟩
    obtain rfl := List.mem_singleton.mp he
    exact ⟨rfl, fun j hj => by cases hj⟩

theorem quiet_acquire {r : Shared × ℕ} (h : s.acquire = some r) : Quiet none s r.1 := by
  rw [Shared.acquire] at h
  split at h
  · cases h
  · obtain rfl := Option.some.inj h
    refine ⟨⟨[.acquired s.issued], rfl, fun e he => ?_⟩, rfl, rfl, rfl, rfl, rfl, rfl, rfl⟩
    obtain rfl := List.mem_singleton.mp he
    exact ⟨rfl, fun j hj => by cases hj⟩

theorem outcomes_harmless {evs : List DialEvent} (h : ∀ ev ∈ evs, ev.harmless = true) :
    outcomes evs = [] := by
  rw [outcomes_eq_nil_iff]
  intro k r hmem
  cases h _ hmem

theorem Lawful.harmless {h : List DialEvent} (hlawful : Lawful h) : ∀ {evs : List DialEvent},
    (∀ ev ∈ evs, ev.harmless = true) → Lawful (evs ++ h) := by
  intro evs
  induction evs with
  | nil => exact fun _ => hlawful
  | cons ev evs ih =>
    intro hevs
    refine .cons ?_ (ih fun e he => hevs e (List.mem_cons_of_mem _ he))
    have hev := hevs ev List.mem_cons_self
    cases ev with
    | returned i r => cases hev
    | started i k => cases hev
    | _ => trivial

/-- It takes nothing from the others. -/
theorem Quiet.gives {who : Option ℕ} (h : Quiet who s s') : Gives who s s' := by
  obtain ⟨evs, hhistory, hevs⟩ := h.history
  have hquiet : outcomes evs = [] := outcomes_harmless fun ev hev => (hevs ev hev).1
  exact ⟨fun _ => h.closed, evs, hhistory, fun ev hev => (hevs ev hev).2,
    fun j _ _ => ⟨h.lock, h.conn, h.attempts, h.lastFailure, .inl h.sender, hquiet⟩⟩

/-- It keeps the invariant. -/
theorem Quiet.inv (h : Quiet (some i) s s') (hi : i < n) (hinv : DialInv n s) : DialInv n s' := by
  obtain ⟨evs, hhistory, hevs⟩ := h.history
  have hquiet : outcomes evs = [] := outcomes_harmless fun ev hev => (hevs ev hev).1
  refine hinv.later hhistory (fun ev hev j hj => ?_) ?_ ?_ (fun c hc => ?_) (fun hnone => ?_)
    fun k x hk => .inl ?_
  · obtain rfl := Option.some.inj ((hevs ev hev).2 j hj)
    exact hi
  · rw [hhistory]
    exact hinv.lawful.harmless fun ev hev => (hevs ev hev).1
  · rw [hquiet, h.attempts]
    exact (Nat.zero_add _).symm
  · rw [h.sender] at hc
    rw [h.conn]
    exact hinv.sender c hc
  · rw [h.lock] at hnone
    exact (hinv.settled hnone).later hhistory hquiet h.lastFailure (.inl h.sender)
  · rw [← h.joined]
    exact hk

/-- A connection that is open is kept. -/
theorem Quiet.staysUp {who : Option ℕ} {c : ℕ} {old : List DialEvent} (h : Quiet who s s')
    (hup : StaysUp c old s) : StaysUp c old s' := by
  obtain ⟨evs, hhistory, hevs⟩ := h.history
  refine hup.later hhistory (fun ev hev => ?_) h.conn
  have hharmless := (hevs ev hev).1
  cases ev with
  | completed k r => cases hharmless
  | returned i r => cases hharmless
  | dialed => cases hharmless
  | _ => rfl

/-- What a turn comes to keeps everything; the process may be anywhere but at a later stage
of `reconnect`. -/
structure TurnUpheld (i n : ℕ) (s : Shared) (r : Turn Shared Process) : Prop where
  /-- the invariant -/
  inv : DialInv n r.shared
  /-- what the others rely on -/
  gives : Gives (some i) s r.shared
  /-- what the process relies on -/
  own : r.self.Own i r.shared
  /-- what the process relies on that it has started -/
  started : ∀ t, r.started = some t → t.Own n r.shared
  /-- a connection that is open is kept -/
  kept : ∀ {c old}, s.isClosed c = false → StaysUp c old s → StaysUp c old r.shared

/-- A turn that changes nothing that matters. -/
theorem Quiet.turn {self : Process} {started : Option Process} (h : Quiet (some i) s s') (hi : i < n)
    (hinv : DialInv n s) (hown : self.Own i s') (hstarted : ∀ t, started = some t → t.Own n s') :
    TurnUpheld i n s ⟨s', self, started⟩ :=
  ⟨h.inv hi hinv, h.gives, hown, hstarted, fun _ hup => h.staysUp hup⟩

/-- Where a request is that is not in `reconnect`, or enters it, it relies on nothing. -/
theorem own_send {f : SendFuture}
    (h : ∀ stage, f.phase = .reconnecting stage → stage = .entering) : (Process.send f).Own i s := by
  intro stage hstage
  rw [h stage hstage]
  trivial

/-- A turn of a request outside of `reconnect`. -/
theorem Quiet.send {f : SendFuture} (h : Quiet (some i) s s') (hi : i < n) (hinv : DialInv n s)
    (hphase : ∀ stage, f.phase = .reconnecting stage → stage = .entering) :
    TurnUpheld i n s ⟨s', .send f, none⟩ :=
  h.turn hi hinv (own_send hphase) fun t ht => by cases ht

/-- A request that takes away the shared handle; it has seen no attempt since it got it, but there
may have been one. -/
theorem upheld_wiped {f : SendFuture} (hinv : DialInv n s)
    (hphase : ∀ stage, f.phase = .reconnecting stage → stage = .entering) :
    TurnUpheld i n s ⟨{ s with sender := none }.emit .wiped, .send f, none⟩ := by
  have hhistory : ({ s with sender := none }.emit .wiped).history = [.wiped] ++ s.history := rfl
  have habout : ∀ ev ∈ [DialEvent.wiped], ∀ j, ev.about ≠ some j := by
    intro ev hev j hj
    obtain rfl := List.mem_singleton.mp hev
    cases hj
  refine ⟨?_, ⟨fun _ => rfl, _, hhistory, fun ev hev j hj => absurd hj (habout ev hev j), fun j _ _ =>
    ⟨rfl, rfl, rfl, rfl, .inr ⟨rfl, List.mem_cons_self⟩, rfl⟩⟩, own_send hphase,
    (fun t ht => by cases ht), fun _ hup => hup.later hhistory (fun ev hev => ?_) rfl⟩
  · exact hinv.later hhistory (fun ev hev j hj => absurd hj (habout ev hev j))
      (.cons trivial hinv.lawful) (Nat.zero_add _).symm (fun c hc => by cases hc)
      (fun hnone => (hinv.settled hnone).later hhistory rfl rfl (.inr ⟨rfl, List.mem_cons_self⟩))
      fun k x hk => .inl hk
  · obtain rfl := List.mem_singleton.mp hev
    rfl

/-- A step of `reconnect` as the turn of its caller. -/
theorem Upheld.turn {r : Shared × Progress × Option Attempt} (h : Upheld i n s r) {self : Process}
    {s' : Shared} (hi : i < n) (hquiet : Quiet (some i) r.1 s') (hown : self.Own i s')
    (hsame : r.2.2 = none ∨ s' = r.1) :
    TurnUpheld i n s ⟨s', self, r.2.2.map .attempt⟩ := by
  refine ⟨hquiet.inv hi h.inv, h.gives.trans hquiet.gives, hown, fun t ht => ?_,
    fun _ hup => hquiet.staysUp (h.kept hup)⟩
  obtain ⟨a, ha, rfl⟩ := Option.map_eq_some_iff.mp ht
  rcases hsame with hnone | rfl
  · rw [hnone] at ha
    cases ha
  · exact h.started a ha

/-- `reconnect` does not return with an attempt just started. -/
theorem started_of_returns {stage : ReconnectStage} {r : Shared × Progress × Option Attempt}
    {result : Except ConnectError ℕ} (h : s.reconnect i n stage = some r)
    (hreturns : r.2.1 = .returns result) : r.2.2 = none := by
  cases stage with
  | awaiting k =>
    obtain ⟨joined, -, rfl⟩ := Option.map_eq_some_iff.mp h
    rfl
  | leaving result' =>
    obtain rfl := Option.some.inj h
    rfl
  | spawning seen =>
    obtain rfl := Option.some.inj h
    cases hreturns
  | entering =>
    obtain rfl := Option.some.inj h
    rfl
  | retiring seen =>
    obtain rfl := Option.some.inj h
    rfl
  | waiting seen =>
    rw [Shared.reconnect] at h
    split at h
    · obtain rfl := Option.some.inj h
      rfl
    · cases h
  | locked seen =>
    rw [Shared.reconnect] at h
    split at h
    · obtain rfl := Option.some.inj h
      rfl
    · obtain rfl := Option.some.inj h
      rfl
  | disconnected seen =>
    rw [Shared.reconnect] at h
    split at h
    · obtain rfl := Option.some.inj h
      rfl
    · obtain rfl := Option.some.inj h
      rfl
  | outdated seen =>
    rw [Shared.reconnect] at h
    split at h
    · obtain rfl := Option.some.inj h
      rfl
    · obtain rfl := Option.some.inj h
      rfl

/-- **The code of a request.** -/
theorem send_go {f : SendFuture} {r : Shared × SendFuture × Option Attempt}
    (h : s.send i n .go f = some r) (hi : i < n) (hinv : DialInv n s)
    (hown : (Process.send f).Own i s) :
    TurnUpheld i n s ⟨r.1, .send r.2.1, r.2.2.map .attempt⟩ := by
  rcases f with ⟨phase, queued, resends⟩
  cases phase with
  | acquiring =>
    obtain ⟨r', hr', rfl⟩ := Option.map_eq_some_iff.mp h
    exact ((quiet_acquire hr').of_none _).send hi hinv fun stage hstage => by cases hstage
  | starting =>
    rw [Shared.send] at h
    simp only at h
    split at h
    · obtain rfl := Option.some.inj h
      exact (Quiet.refl (some i) s).send hi hinv fun stage hstage => by cases hstage
    · obtain rfl := Option.some.inj h
      exact (Quiet.refl (some i) s).send hi hinv fun stage hstage => (SendPhase.reconnecting.inj hstage).symm
  | reconnecting stage =>
    obtain ⟨r', hr', rfl⟩ := Option.map_eq_some_iff.mp h
    have hupheld := reconnect_upholds hr' hi hinv (hown stage rfl)
    rcases hprogress : r'.2.1 with stage' | (e | c)
    · refine hupheld.turn hi (.refl _ _) (fun stage'' hstage => ?_) (.inr rfl)
      obtain rfl := SendPhase.reconnecting.inj hstage
      exact hupheld.own _ hprogress
    · exact hupheld.turn hi ((quiet_release _ _).of_none _) (own_send fun stage hstage => by cases hstage)
        (.inl (started_of_returns hr' hprogress))
    · exact hupheld.turn hi (.refl _ _) (own_send fun stage hstage => by cases hstage) (.inr rfl)
  | looping c =>
    obtain rfl := Option.some.inj h
    exact (Quiet.refl (some i) s).send hi hinv fun stage hstage => by cases hstage
  | handing c generation =>
    obtain rfl := Option.some.inj h
    exact (Quiet.emit rfl rfl).send hi hinv
      fun stage hstage => by cases hstage
  | handed generation =>
    obtain rfl := Option.some.inj h
    exact ((quiet_release s queued).of_none _).send hi hinv fun stage hstage => by cases hstage
  | inflight generation isTaken => cases h
  | returned generation =>
    rw [Shared.send] at h
    simp only at h
    split at h
    · obtain rfl := Option.some.inj h
      exact (Quiet.refl (some i) s).send hi hinv fun stage hstage => by cases hstage
    · obtain rfl := Option.some.inj h
      exact (Quiet.refl (some i) s).send hi hinv fun stage hstage => (SendPhase.reconnecting.inj hstage).symm
  | retiring =>
    obtain rfl := Option.some.inj h
    exact upheld_wiped hinv fun stage hstage => (SendPhase.reconnecting.inj hstage).symm
  | ended result => cases h

/-- A request that ends. -/
theorem upheld_finish {f : SendFuture} (hi : i < n) (hinv : DialInv n s) (result : SendResult) :
    TurnUpheld i n s ⟨(f.finish s result).1, .send (f.finish s result).2, none⟩ :=
  ((quiet_release s f.queued).of_none _).send hi hinv fun stage hstage => by cases hstage

/-- **A turn of a request.** -/
theorem send_upholds {x : Choice} {f : SendFuture} {r : Shared × SendFuture × Option Attempt}
    (h : s.send i n x f = some r) (hi : i < n) (hinv : DialInv n s)
    (hown : (Process.send f).Own i s) :
    TurnUpheld i n s ⟨r.1, .send r.2.1, r.2.2.map .attempt⟩ := by
  cases x with
  | go => exact send_go h hi hinv hown
  | dropped =>
    rw [Shared.send] at h
    split at h
    · obtain rfl := Option.some.inj h
      exact upheld_finish hi hinv _
    · cases h
  | taken =>
    rw [Shared.send] at h
    split at h
    · obtain rfl := Option.some.inj h
      exact (Quiet.emit rfl rfl).send hi hinv
        fun stage hstage => by cases hstage
    · cases h
  | responded =>
    rw [Shared.send] at h
    split at h
    · obtain rfl := Option.some.inj h
      exact upheld_finish hi hinv _
    · cases h
  | failed e =>
    rw [Shared.send] at h
    split at h
    · obtain rfl := Option.some.inj h
      exact upheld_finish hi hinv _
    · cases h
  | handedBack e =>
    rw [Shared.send] at h
    split at h
    · split at h
      · obtain rfl := Option.some.inj h
        exact (Quiet.emit rfl rfl).send hi hinv
          fun stage hstage => by cases hstage
      · obtain rfl := Option.some.inj h
        exact upheld_finish hi hinv _
    · cases h
  | _ => cases h

/-- A handle goes on relying on what it does while slots come and go. -/
theorem Quiet.own_handle {hd hd' : SharedHttp2Connection} (h : Quiet none s s')
    (hsame : hd'.connecting = hd.connecting) (hown : (Process.handle hd).Own i s) :
    (Process.handle hd').Own i s' := by
  intro stage hstage
  rw [hsame] at hstage
  exact ReconnectStage.stable h.gives (fun hnone => by cases hnone) (hown stage hstage)

/-- A step of `poll_ready`. -/
theorem pollReady_upholds {hd : SharedHttp2Connection}
    {r : Shared × SharedHttp2Connection × Option Attempt} (h : s.pollReady i n hd = some r)
    (hi : i < n) (hinv : DialInv n s) (hown : (Process.handle hd).Own i s) :
    TurnUpheld i n s ⟨r.1, .handle r.2.1, r.2.2.map .attempt⟩ := by
  rcases hd with ⟨permit, connecting, deferredError⟩
  rcases permit with _ | permit
  · obtain ⟨r', hr', rfl⟩ := Option.map_eq_some_iff.mp h
    have hquiet := quiet_acquire hr'
    exact (hquiet.of_none _).turn hi hinv (hquiet.own_handle rfl hown) fun t ht => by cases ht
  · rcases connecting with _ | stage
    · rw [Shared.pollReady] at h
      simp only at h
      split at h
      · cases h
      · obtain rfl := Option.some.inj h
        refine (Quiet.refl (some i) s).turn hi hinv (fun stage hstage => ?_) fun t ht => by cases ht
        obtain rfl := Option.some.inj hstage
        trivial
    · obtain ⟨r', hr', rfl⟩ := Option.map_eq_some_iff.mp h
      have hupheld := reconnect_upholds hr' hi hinv (hown stage rfl)
      rcases hprogress : r'.2.1 with stage' | (e | c)
      · refine hupheld.turn hi (.refl _ _) (fun stage'' hstage => ?_) (.inr rfl)
        obtain rfl := Option.some.inj hstage
        exact hupheld.own _ hprogress
      · exact hupheld.turn hi (.refl _ _) (fun stage hstage => by cases hstage) (.inr rfl)
      · exact hupheld.turn hi (.refl _ _) (fun stage hstage => by cases hstage) (.inr rfl)

/-- **A turn of a handle.** -/
theorem handle_upholds {x : Choice} {hd : SharedHttp2Connection} {r : Turn Shared Process}
    (h : s.handle i n x hd = some r) (hi : i < n) (hinv : DialInv n s)
    (hown : (Process.handle hd).Own i s) : TurnUpheld i n s r := by
  have hsend : ∀ {f : SendFuture} {j : ℕ} {s' : Shared},
      (∀ stage, f.phase ≠ .reconnecting stage) → (Process.send f).Own j s' :=
    fun hphase => own_send fun stage hstage => absurd hstage (hphase stage)
  cases x with
  | pollReady =>
    obtain ⟨r', hr', rfl⟩ := Option.map_eq_some_iff.mp h
    exact pollReady_upholds hr' hi hinv hown
  | call =>
    rw [Shared.handle] at h
    split at h
    · split at h
      · cases h
      · rename_i permit e _ _
        obtain rfl := Option.some.inj h
        have hquiet := quiet_release s (some permit)
        exact (hquiet.of_none _).turn hi hinv (hquiet.own_handle rfl hown) fun t ht => by cases ht
      · obtain rfl := Option.some.inj h
        refine (Quiet.refl _ s).turn hi hinv ((Quiet.refl none s).own_handle rfl hown) fun t ht => ?_
        obtain rfl := Option.some.inj ht
        exact hsend fun stage hstage => by cases hstage
    · cases h
  | clone =>
    obtain rfl := Option.some.inj h
    refine (Quiet.refl _ s).turn hi hinv hown fun t ht => ?_
    obtain rfl := Option.some.inj ht
    intro stage hstage
    cases hstage
  | send =>
    obtain rfl := Option.some.inj h
    refine (Quiet.refl _ s).turn hi hinv hown fun t ht => ?_
    obtain rfl := Option.some.inj ht
    exact hsend fun stage hstage => by cases hstage
  | dropped =>
    rw [Shared.handle] at h
    split at h
    · obtain rfl := Option.some.inj h
      exact ((quiet_release s hd.permit).of_none _).turn hi hinv trivial fun t ht => by cases ht
    · cases h
  | _ => cases h

end Turns

/-- **A turn of any process.** -/
theorem turn_upholds {i n : ℕ} {x : Choice} {s : Shared} {t : Process} {r : Turn Shared Process}
    (h : t.turn i n x s = some r) (hi : i < n) (hinv : DialInv n s) (hown : t.Own i s) :
    TurnUpheld i n s r := by
  cases t with
  | handle hd => exact handle_upholds h hi hinv hown
  | send f =>
    obtain ⟨r', hr', rfl⟩ := Option.map_eq_some_iff.mp h
    exact send_upholds hr' hi hinv hown
  | attempt a =>
    obtain ⟨r', hr', rfl⟩ := Option.map_eq_some_iff.mp h
    have hupheld := attempt_upholds hr' hi hinv hown
    exact ⟨hupheld.inv, hupheld.gives, hupheld.own, (fun t ht => by cases ht), hupheld.kept⟩
  | gone => cases h

/-- The invariant does not depend on the processes. -/
theorem DialInv.mono {n m : ℕ} {s : Shared} (h : DialInv n s) (hnm : n ≤ m) : DialInv m s :=
  { h with about := fun ev hev i hi => Nat.lt_of_lt_of_le (h.about ev hev i hi) hnm }

/-- **The processes uphold the invariant together.** -/
theorem dial_upholds : sharedConnection.Upholds DialInv Process.Own Gives where
  turn := by
    intro i n x s t r h hi hinv hown
    have hupheld := turn_upholds h hi hinv hown
    exact ⟨hupheld.inv, hupheld.own, hupheld.gives, fun t' ht' =>
      ⟨hupheld.started t' ht', hupheld.inv.mono n.le_succ⟩⟩
  outside := by
    intro n c s hinv
    have hhistory : (sharedConnection.outside c s).history = [] ++ s.history := rfl
    refine ⟨hinv.later hhistory (fun ev hev => absurd hev List.not_mem_nil) hinv.lawful
      (Nat.zero_add _).symm hinv.sender (fun hnone => ?_) fun k x hk => .inl hk,
      fun hwho => absurd rfl hwho, [], hhistory,
      fun ev hev => absurd hev List.not_mem_nil, fun j _ _ => ⟨rfl, rfl, rfl, rfl, .inl rfl, rfl⟩⟩
    exact (hinv.settled hnone).later hhistory rfl rfl (.inl rfl)
  stable := fun hgives hne hown => Process.stable hgives hne hown

/-- They start well. -/
theorem dial_holds (conn : Reconnect) (bound : ℕ+) :
    System.Holds DialInv Process.Own (conn.shared bound) where
  inv := by
    refine ⟨fun ev hev => absurd hev List.not_mem_nil, rfl, fun c hc => ?_, fun _ => ?_, .nil,
      fun k r hk => ?_, fun k e hk => ?_⟩
    · simp only [Reconnect.shared] at hc
      rcases hstate : conn.state with _ | _ | c'
      · simp only [hstate] at hc
        cases hc
      · simp only [hstate] at hc
        cases hc
      · simp only [hstate] at hc
        obtain rfl := Option.some.inj hc
        exact hstate
    · refine ⟨rfl, fun later k c earlier hsplit => ?_⟩
      cases List.append_eq_nil_iff.mp hsplit.symm |>.2
    · cases hk
    · cases hk
  own := by
    intro i t ht
    rcases i with _ | i
    · obtain rfl := Option.some.inj ht
      intro stage hstage
      cases hstage
    · cases ht

/-- **In every run.** -/
theorem dial_run (conn : Reconnect) (bound : ℕ+) (acts : List (Action Choice ℕ)) :
    System.Holds DialInv Process.Own (sharedConnection.run (conn.shared bound) acts) :=
  dial_upholds.run (dial_holds conn bound) acts

end ConnectRpc
