import ConnectRpc.RequestQueue
import Mathlib.Data.PNat.Defs

/-!
# The bound of the queue

`shared(bound)` has `bound` slots, and a request waits with a slot for a connection that it can be
handed to. No slot is lost, and none is given back twice (`slot_once`). So no more requests
wait than there are slots, as long as none is handed back to be sent again (`queue_bound`):
such a request has given its slot back before, and waits without one.
-/

namespace ConnectRpc

open Lib

/-! ## What the queue promises -/

/-- Whether a request waits to be handed to a connection. One that waits for a slot does not
yet. -/
def SendPhase.waiting : SendPhase → Bool
  | starting => true
  | reconnecting _ => true
  | looping _ => true
  | handing _ _ => true
  | returned _ => true
  | retiring => true
  | _ => false

/-- Whether a process is a request that waits. -/
def Process.waiting : Process → Bool
  | send f => f.phase.waiting
  | _ => false

/-- How many processes hold the slot. -/
def holders (slot : ℕ) (p : Pool Shared Process) : ℕ :=
  p.procs.countP fun t => t.slot = some slot

/-- How often the slot has been given back. -/
def givenBack (slot : ℕ) (h : List DialEvent) : ℕ :=
  h.countP fun
    | .released k => k = slot
    | _ => false

/-- What a queue with so many slots promises. -/
structure Bounded (bound : ℕ) (p : Pool Shared Process) : Prop where
  /-- no more requests wait than that -/
  waiting : p.procs.countP Process.waiting ≤ bound
  /-- every one of them has a slot -/
  slots : ∀ t ∈ p.procs, t.waiting = true → t.slot.isSome = true
  /-- a slot that has been acquired is held by one process, or has been given back once -/
  once : ∀ slot < p.shared.issued, holders slot p + givenBack slot p.shared.history = 1

/-- Hyper hands back a request that is to be sent again. -/
def HandsBack (p : Pool Shared Process) : Action Choice ℕ → Prop
  | .turn i (.handedBack _) => ∃ f generation, p.procs[i]? = some (.send f) ∧
      f.phase = .inflight generation false ∧ f.resends < MAX_RESENDS
  | _ => False

/-! ## Slots -/

/-- Free slots balance the slots that are held. -/
theorem balances_permits : Balances (fun _ => 1) Shared.permits where
  acquire := by
    intro s r h
    rw [Shared.acquire] at h
    split at h
    · cases h
    · rename_i hsome
      obtain rfl := Option.some.inj h
      simp only [Shared.emit]
      omega
  release := fun s slot => Nat.add_comm _ _
  transfer := fun s ev hev => rfl
  aside := fun h => h.permits

theorem givenBack_of_others {slot : ℕ} {evs h : List DialEvent}
    (hevs : ∀ ev ∈ evs, ev ≠ .released slot) : givenBack slot (evs ++ h) = givenBack slot h := by
  have hnone : givenBack slot evs = 0 := by
    rw [givenBack, List.countP_eq_zero]
    intro ev hev hcounts
    cases ev with
    | released k =>
      obtain rfl := of_decide_eq_true hcounts
      exact hevs _ hev rfl
    | _ => cases hcounts
  rw [givenBack, List.countP_append]
  exact (congrArg (· + _) hnone).trans (Nat.zero_add _)

/-- Whether the slot is still to be acquired, after so many acquisitions. -/
def toCome (slot issued : ℕ) : ℕ :=
  if slot < issued then 0 else 1

theorem toCome_succ (slot issued : ℕ) :
    (if issued = slot then 1 else 0) + toCome slot (issued + 1) = toCome slot issued := by
  rw [toCome, toCome]
  -- it is an earlier slot, this one or a later one
  rcases Nat.lt_trichotomy slot issued with hlt | rfl | hgt
  · rw [if_neg (Nat.ne_of_gt hlt), if_pos hlt, if_pos (Nat.lt_add_right 1 hlt)]
  · rw [if_pos rfl, if_pos (Nat.lt_add_one _), if_neg (Nat.lt_irrefl _)]
  · rw [if_neg (Nat.ne_of_lt hgt), if_neg (Nat.lt_asymm hgt), if_neg (Nat.not_lt.mpr hgt)]

/-- So do the returns of a slot, counting it as returned before it is acquired. -/
theorem balances_slot (slot : ℕ) :
    Balances (fun k => if k = slot then 1 else 0)
      (fun s => givenBack slot s.history + toCome slot s.issued) where
  acquire := by
    intro s r h
    rw [Shared.acquire] at h
    split at h
    · cases h
    · obtain rfl := Option.some.inj h
      have hnext := toCome_succ slot s.issued
      have hsame : givenBack slot (.acquired s.issued :: s.history) = givenBack slot s.history := rfl
      simp only [Shared.emit, hsame]
      omega
  release := by
    intro s k
    have hmore : givenBack slot (.released k :: s.history) =
        givenBack slot s.history + if k = slot then 1 else 0 := by
      simp only [givenBack, List.countP_cons, decide_eq_true_eq]
    simp only [Shared.release, Shared.emit, hmore]
    rw [Nat.add_right_comm, Nat.add_comm]
  transfer := by
    intro s ev hev
    cases ev with
    | released k => cases hev
    | _ => rfl
  aside := by
    intro s s' h
    obtain ⟨evs, hhistory, hevs⟩ := h.history
    have hothers : ∀ ev ∈ evs, ev ≠ .released slot := by
      rintro ev hev rfl
      cases hevs _ hev
    simp only [h.issued, hhistory, givenBack_of_others hothers]

section Run

variable (conn : Reconnect) (bound : ℕ+) (acts : List (Action Choice ℕ))

/-- **All slots are held or free.** -/
theorem slots_run :
    (sharedConnection.run (conn.shared bound) acts).procs.countP (fun t => t.slot.isSome) +
      (sharedConnection.run (conn.shared bound) acts).shared.permits =
        min (bound : ℕ) MAX_PERMITS := by
  have hrun := balances_permits.run (fun _ _ => rfl) conn bound acts
  have hweight : ∀ t : Process, t.weight (fun _ => 1) = if t.slot.isSome then 1 else 0 := by
    intro t
    rw [Process.weight]
    rcases t.slot with _ | slot
    · rfl
    · rfl
  rw [System.total, System.amount_eq_countP hweight] at hrun
  exact hrun

/-- **Every slot is given back once**, unless it is still held. -/
theorem slot_once {slot : ℕ}
    (hissued : slot < (sharedConnection.run (conn.shared bound) acts).shared.issued) :
    holders slot (sharedConnection.run (conn.shared bound) acts) +
      givenBack slot (sharedConnection.run (conn.shared bound) acts).shared.history = 1 := by
  have hrun := (balances_slot slot).run (fun _ _ => rfl) conn bound acts
  have hweight : ∀ t : Process, t.weight (fun k => if k = slot then 1 else 0) =
      if decide (t.slot = some slot) then 1 else 0 := by
    intro t
    rw [Process.weight]
    rcases t.slot with _ | k
    · rfl
    · simp only [Option.map_some, Option.getD_some, Option.some.injEq, decide_eq_true_eq]
  rw [System.total, System.amount_eq_countP hweight, toCome, if_pos hissued] at hrun
  exact hrun

end Run

/-! ## Requests that are sent again -/

/-- Whether a process is no request that is sent again. -/
def Process.fresh : Process → Prop
  | send f => f.resends = 0
  | _ => True

section Fresh

variable {i n : ℕ} {s : Shared}

/-- A request is only sent again when it has been handed back. -/
theorem send_resends {x : Choice} {f : SendFuture} {r : Shared × SendFuture × Option Attempt}
    (h : s.send i n x f = some r) : r.2.1.resends = f.resends ∨
      (∃ e, x = .handedBack e) ∧ (∃ generation, f.phase = .inflight generation false) ∧
        f.resends < MAX_RESENDS := by
  cases x with
  | go =>
    refine .inl ?_
    rcases f with ⟨phase, queued, resends⟩
    cases phase with
    | acquiring =>
      obtain ⟨r', -, rfl⟩ := Option.map_eq_some_iff.mp h
      rfl
    | starting =>
      rw [Shared.send] at h
      simp only at h
      split at h
      · obtain rfl := Option.some.inj h
        rfl
      · obtain rfl := Option.some.inj h
        rfl
    | reconnecting stage =>
      obtain ⟨r', -, rfl⟩ := Option.map_eq_some_iff.mp h
      rcases r'.2.1 with stage' | (e | c)
      · rfl
      · rfl
      · rfl
    | looping c =>
      obtain rfl := Option.some.inj h
      rfl
    | handing c generation =>
      obtain rfl := Option.some.inj h
      rfl
    | handed generation =>
      obtain rfl := Option.some.inj h
      rfl
    | inflight generation isTaken => cases h
    | returned generation =>
      rw [Shared.send] at h
      simp only at h
      split at h
      · obtain rfl := Option.some.inj h
        rfl
      · obtain rfl := Option.some.inj h
        rfl
    | retiring =>
      obtain rfl := Option.some.inj h
      rfl
    | ended result => cases h
  | dropped =>
    rw [Shared.send] at h
    split at h
    · obtain rfl := Option.some.inj h
      exact .inl rfl
    · cases h
  | taken =>
    rw [Shared.send] at h
    split at h
    · obtain rfl := Option.some.inj h
      exact .inl rfl
    · cases h
  | responded =>
    rw [Shared.send] at h
    split at h
    · obtain rfl := Option.some.inj h
      exact .inl rfl
    · cases h
  | failed e =>
    rw [Shared.send] at h
    split at h
    · obtain rfl := Option.some.inj h
      exact .inl rfl
    · cases h
  | handedBack e =>
    rw [Shared.send] at h
    split at h
    · rename_i generation hphase
      split at h
      · rename_i hmore
        exact .inr ⟨⟨e, rfl⟩, ⟨generation, hphase⟩, hmore⟩
      · obtain rfl := Option.some.inj h
        exact .inl rfl
    · cases h
  | _ => cases h

/-- After the turn of a handle everything is fresh that it has to do with. -/
theorem handle_fresh {x : Choice} {hd : SharedHttp2Connection} {r : Turn Shared Process}
    (h : s.handle i n x hd = some r) :
    r.self.fresh ∧ ∀ t', r.started = some t' → t'.fresh := by
  cases x with
  | pollReady =>
    obtain ⟨r', -, rfl⟩ := Option.map_eq_some_iff.mp h
    refine ⟨trivial, fun t' ht' => ?_⟩
    obtain ⟨a, -, rfl⟩ := Option.map_eq_some_iff.mp ht'
    trivial
  | call =>
    rw [Shared.handle] at h
    split at h
    · split at h
      · cases h
      · obtain rfl := Option.some.inj h
        exact ⟨trivial, fun t' ht' => by cases ht'⟩
      · obtain rfl := Option.some.inj h
        refine ⟨trivial, fun t' ht' => ?_⟩
        obtain rfl := Option.some.inj ht'
        rfl
    · cases h
  | clone =>
    obtain rfl := Option.some.inj h
    refine ⟨trivial, fun t' ht' => ?_⟩
    obtain rfl := Option.some.inj ht'
    trivial
  | send =>
    obtain rfl := Option.some.inj h
    refine ⟨trivial, fun t' ht' => ?_⟩
    obtain rfl := Option.some.inj ht'
    rfl
  | dropped =>
    rw [Shared.handle] at h
    split at h
    · obtain rfl := Option.some.inj h
      exact ⟨trivial, fun t' ht' => by cases ht'⟩
    · cases h
  | _ => cases h

/-- So it is after the turn of any process, unless a request has been handed back. -/
theorem turn_fresh {x : Choice} {t : Process} {r : Turn Shared Process}
    (h : t.turn i n x s = some r) (ht : t.fresh) :
    (r.self.fresh ∨ (∃ e, x = .handedBack e) ∧ ∃ f generation, t = .send f ∧
      f.phase = .inflight generation false ∧ f.resends < MAX_RESENDS) ∧
      ∀ t', r.started = some t' → t'.fresh := by
  cases t with
  | handle hd =>
    obtain ⟨hself, hstarted⟩ := handle_fresh h
    exact ⟨.inl hself, hstarted⟩
  | send f =>
    obtain ⟨r', hr', rfl⟩ := Option.map_eq_some_iff.mp h
    refine ⟨?_, fun t' ht' => ?_⟩
    · rcases send_resends hr' with hresends | ⟨hx, ⟨generation, hphase⟩, hmore⟩
      · exact .inl (hresends.trans ht)
      · exact .inr ⟨hx, f, generation, rfl, hphase, hmore⟩
    · obtain ⟨a, -, rfl⟩ := Option.map_eq_some_iff.mp ht'
      trivial
  | attempt a =>
    obtain ⟨r', -, rfl⟩ := Option.map_eq_some_iff.mp h
    exact ⟨.inl trivial, fun t' ht' => by cases ht'⟩
  | gone => cases h

end Fresh

/-- A step in which hyper hands back no request that is sent again keeps all processes
fresh. -/
theorem fresh_step {p : Pool Shared Process} {a : Action Choice ℕ} (ha : ¬ HandsBack p a)
    (hfresh : ∀ t ∈ p.procs, t.fresh) : ∀ t ∈ (sharedConnection.step p a).procs, t.fresh := by
  rcases sharedConnection.step_cases p a with hsame | ⟨i, x, t, r, rfl, ht, hr, hstep⟩ | ⟨o, hstep⟩
  · rw [hsame]
    exact hfresh
  · rw [hstep]
    intro t' ht'
    obtain ⟨j, hj⟩ := List.mem_iff_getElem?.mp ht'
    rcases System.getElem?_turn ht hj with ⟨-, rfl⟩ | ⟨-, hold⟩ | ⟨-, hstarted⟩
    · rcases (turn_fresh hr (hfresh t (List.mem_of_getElem? ht))).1 with
        hself | ⟨⟨e, rfl⟩, f, generation, rfl, hphase, hmore⟩
      · exact hself
      · exact absurd ⟨f, generation, ht, hphase, hmore⟩ ha
    · exact hfresh t' (List.mem_of_getElem? hold)
    · exact (turn_fresh hr (hfresh t (List.mem_of_getElem? ht))).2 t' hstarted
  · rw [hstep]
    exact hfresh

/-- **So does a run of such steps.** -/
theorem fresh_run : ∀ {acts : List (Action Choice ℕ)} {p : Pool Shared Process},
    (∀ t ∈ p.procs, t.fresh) →
    (∀ before a after, acts = before ++ a :: after → ¬ HandsBack (sharedConnection.run p before) a) →
    ∀ t ∈ (sharedConnection.run p acts).procs, t.fresh := by
  intro acts
  induction acts with
  | nil => exact fun hfresh _ => hfresh
  | cons a acts ih =>
    intro p hfresh hnone
    have hstep := fresh_step (hnone [] a acts rfl) hfresh
    refine ih hstep fun before a' after hsplit => ?_
    exact hnone (a :: before) a' after (congrArg (a :: ·) hsplit)

/-! ## The bound -/

section Bound

variable {conn : Reconnect} {bound : ℕ+} {acts : List (Action Choice ℕ)}

/-- A request that waits and has not been sent again has its slot. -/
theorem slot_of_waiting {i : ℕ} {t : Process} {s : Shared} (hacc : t.Accounts i s)
    (hfresh : t.fresh) (hwaiting : t.waiting = true) : t.slot.isSome = true := by
  cases t with
  | send f =>
    have hslot : f.SlotRule := hacc.slot
    have hzero : f.resends = 0 := hfresh
    rcases f with ⟨phase, queued, resends⟩
    have hsome : ¬ queued = none := by
      cases phase with
      | starting => exact fun hnone => hslot.mp hnone hzero
      | reconnecting stage => exact fun hnone => hslot.mp hnone hzero
      | looping c => exact fun hnone => hslot.mp hnone hzero
      | handing c generation => exact fun hnone => hslot.mp hnone hzero
      | returned generation => exact absurd hzero hslot.2
      | retiring => exact absurd hzero hslot.2
      | _ => cases hwaiting
    exact Option.isSome_iff_ne_none.mpr hsome
  | _ => cases hwaiting

/-- **While no request is sent again**, the queue keeps its promise. -/
theorem bounded_of_fresh
    (hfresh : ∀ t ∈ (sharedConnection.run (conn.shared bound) acts).procs, t.fresh) :
    Bounded bound (sharedConnection.run (conn.shared bound) acts) := by
  have hslots : ∀ t ∈ (sharedConnection.run (conn.shared bound) acts).procs,
      t.waiting = true → t.slot.isSome = true := by
    intro t ht hwaiting
    obtain ⟨i, hi⟩ := List.mem_iff_getElem?.mp ht
    exact slot_of_waiting ((accounts_run conn bound acts).own hi).2 (hfresh t ht) hwaiting
  refine ⟨?_, hslots, fun slot hslot => slot_once conn bound acts hslot⟩
  have hheld := slots_run conn bound acts
  calc (sharedConnection.run (conn.shared bound) acts).procs.countP Process.waiting
      ≤ (sharedConnection.run (conn.shared bound) acts).procs.countP (fun t => t.slot.isSome) :=
        List.countP_mono_left hslots
    _ ≤ min (bound : ℕ) MAX_PERMITS := Nat.le.intro hheld
    _ ≤ bound := Nat.min_le_left _ _

/-- A request that is sent again waits without a slot. -/
theorem handsBack_waits {p : Pool Shared Process} {a : Action Choice ℕ} {n : ℕ}
    (hholds : System.Holds DialInv Process.Known p) (ha : HandsBack p a) :
    ¬ Bounded n (sharedConnection.step p a) := by
  intro hbounded
  rcases a with ⟨i, x⟩ | o
  · cases x with
    | handedBack e =>
      obtain ⟨f, generation, hf, hphase, hmore⟩ := ha
      have hslot : f.SlotRule := (hholds.own hf).2.slot
      have hnone : f.queued = none := by
        rw [SendFuture.SlotRule, hphase] at hslot
        exact hslot
      have hturn : sharedConnection.turn i p.procs.length (.handedBack e) p.shared (.send f) =
          some ⟨p.shared.emit (.resent i),
            .send ⟨.returned generation, f.queued, f.resends + 1⟩, none⟩ := by
        simp only [sharedConnection, Process.turn, Shared.send, hphase, if_pos hmore,
          Option.map_some, Option.map_none]
      have hlen : i < p.procs.length := (List.getElem?_eq_some_iff.mp hf).1
      have hmem : Process.send ⟨.returned generation, f.queued, f.resends + 1⟩ ∈
          (sharedConnection.step p (.turn i (.handedBack e))).procs := by
        rw [sharedConnection.step_turn hf hturn]
        exact List.mem_append_left _ (List.mem_set hlen _)
      have hsome := hbounded.slots _ hmem rfl
      rw [Process.slot, hnone] at hsome
      cases hsome
    | _ => exact ha
  · exact ha

end Bound

/-- **The bound of the queue**: in every run the queue keeps its promise until a request is handed
back that is to be sent again, and then it does not. -/
theorem queue_bound (conn : Reconnect) (bound : ℕ+) (acts : List (Action Choice ℕ)) :
    (∀ before after, acts = before ++ after →
      Bounded bound (sharedConnection.run (conn.shared bound) before)) ↔
    ∀ before a after, acts = before ++ a :: after →
      ¬ HandsBack (sharedConnection.run (conn.shared bound) before) a := by
  constructor
  · intro hbounded before a after hsplit hhands
    have hnext := hbounded (before ++ [a]) after (by rw [hsplit, List.append_assoc]; rfl)
    rw [System.run_append] at hnext
    exact handsBack_waits (accounts_run conn bound before) hhands hnext
  · rintro hnone before after rfl
    refine bounded_of_fresh (fresh_run ?_ fun before' a after' hsplit => ?_)
    · intro t ht
      obtain rfl := List.mem_singleton.mp ht
      trivial
    · rw [hsplit, List.append_assoc] at hnone
      exact hnone before' a (after' ++ after) rfl

/-! ## Two requests and one slot -/

/-- A connection that is open. -/
def Reconnect.connected (c : ℕ) : Reconnect :=
  ⟨.connected c, none, true, false, fun h => by cases h⟩

/-- A request is sent, as the process of this number, and handed to hyper. -/
def sending (i : ℕ) : List (Action Choice ℕ) :=
  .turn 0 .send :: List.replicate 5 (.turn i .go)

/-- **With one slot**, two requests wait after the connection has closed that they were handed
to. -/
theorem queue_overflows :
    (sharedConnection.run ((Reconnect.connected 0).shared 1)
      (sending 1 ++ sending 2 ++ [.outside 0, .turn 1 (.handedBack ⟨"closed", none⟩),
        .turn 2 (.handedBack ⟨"closed", none⟩)])).procs.countP Process.waiting = 2 ∧
    ¬ Bounded 1 (sharedConnection.run ((Reconnect.connected 0).shared 1)
      (sending 1 ++ sending 2 ++ [.outside 0, .turn 1 (.handedBack ⟨"closed", none⟩),
        .turn 2 (.handedBack ⟨"closed", none⟩)])) := by
  have htwo : (sharedConnection.run ((Reconnect.connected 0).shared 1)
      (sending 1 ++ sending 2 ++ [.outside 0, .turn 1 (.handedBack ⟨"closed", none⟩),
        .turn 2 (.handedBack ⟨"closed", none⟩)])).procs.countP Process.waiting = 2 := rfl
  refine ⟨htwo, fun hbounded => ?_⟩
  have hwaiting := hbounded.waiting
  rw [htwo] at hwaiting
  exact absurd hwaiting (by decide)

end ConnectRpc
