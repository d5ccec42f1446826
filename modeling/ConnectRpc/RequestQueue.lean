import ConnectRpc.DialSharing

/-!
# The queue for a connection

What becomes of a request that is sent on a shared connection: how often it is handed to hyper
and sent (`SendFuture.Accounts`), and the slot of the queue that it waits with. Slots are neither
lost nor made (`Balances`). A request that is handed back waits once more, without a slot.
-/

namespace ConnectRpc

open Lib

/-! ## The account of a request -/

/-- How a request passes between its caller, hyper and a connection. -/
inductive Transfer : Type where
  | handed
  | taken
  | resent
  deriving DecidableEq

/-- The transfer that an event is, and of which request. -/
def DialEvent.transfer : DialEvent → Option (Transfer × ℕ)
  | handed i => some (.handed, i)
  | taken i => some (.taken, i)
  | resent i => some (.resent, i)
  | _ => none

/-- How often the request `i` has been passed in this way. -/
def transfers (way : Transfer) (i : ℕ) (h : List DialEvent) : ℕ :=
  h.countP fun ev => ev.transfer = some (way, i)

/-- How often hyper has the request more than it has been handed back. -/
def SendPhase.out : SendPhase → ℕ
  | handed _ => 1
  | inflight _ _ => 1
  | ended _ => 1
  | _ => 0

/-- How often a connection may have taken the request. -/
def SendPhase.sent : SendPhase → ℕ
  | inflight _ isTaken => isTaken.toNat
  | ended _ => 1
  | _ => 0

/-- Where a request has its slot: until hyper has got it for the first time. -/
def SendFuture.SlotRule (f : SendFuture) : Prop :=
  match f.phase with
  | .acquiring => f.queued = none ∧ f.resends = 0
  | .inflight _ _ => f.queued = none
  | .returned _ => f.queued = none ∧ f.resends ≠ 0
  | .retiring => f.queued = none ∧ f.resends ≠ 0
  | .ended _ => f.queued = none
  | _ => f.queued = none ↔ f.resends ≠ 0

/-- The account of the request `i`. -/
structure SendFuture.Accounts (i : ℕ) (f : SendFuture) (s : Shared) : Prop where
  /-- it is not sent again for ever -/
  bounded : f.resends ≤ MAX_RESENDS
  /-- it is sent again when it has been handed back -/
  resends : f.resends = transfers .resent i s.history
  /-- hyper has got it so often -/
  handed : transfers .handed i s.history ≤ f.resends + f.phase.out
  /-- a connection has -/
  taken : transfers .taken i s.history ≤ f.phase.sent
  /-- its slot -/
  slot : f.SlotRule

/-- The account of a process, if it is a request. -/
def Process.Accounts (i : ℕ) (t : Process) (s : Shared) : Prop :=
  match t with
  | .send f => f.Accounts i s
  | _ => True

section Accounts

variable {i : ℕ} {evs h : List DialEvent} {s s' : Shared} {f f' : SendFuture}

theorem DialEvent.about_of_transfer {ev : DialEvent} {way : Transfer}
    (h : ev.transfer = some (way, i)) : ev.about = some i := by
  cases ev with
  | handed j =>
    obtain ⟨-, rfl⟩ := Prod.mk.inj (Option.some.inj h)
    rfl
  | taken j =>
    obtain ⟨-, rfl⟩ := Prod.mk.inj (Option.some.inj h)
    rfl
  | resent j =>
    obtain ⟨-, rfl⟩ := Prod.mk.inj (Option.some.inj h)
    rfl
  | _ => cases h

/-- Events that do not pass the request do not count. -/
theorem transfers_of_none (hevs : ∀ ev ∈ evs, ∀ way, ev.transfer ≠ some (way, i)) (way : Transfer) :
    transfers way i (evs ++ h) = transfers way i h := by
  have hnone : transfers way i evs = 0 := by
    rw [transfers, List.countP_eq_zero]
    intro ev hev hpasses
    exact hevs ev hev way (of_decide_eq_true hpasses)
  rw [transfers, List.countP_append]
  exact (congrArg (· + _) hnone).trans (Nat.zero_add _)

theorem transfers_cons (way : Transfer) (ev : DialEvent) :
    transfers way i (ev :: h) =
      transfers way i h + if ev.transfer = some (way, i) then 1 else 0 := by
  simp only [transfers, List.countP_cons, decide_eq_true_eq]

theorem transfers_cons_le {n : ℕ} {way : Transfer} {ev : DialEvent} (hle : transfers way i h ≤ n) :
    transfers way i (ev :: h) ≤ n + 1 := by
  rw [transfers_cons]
  split
  · exact Nat.succ_le_succ hle
  · exact Nat.le_succ_of_le hle

/-- What does not pass the request leaves the account as it is, wherever the request goes. -/
theorem SendFuture.Accounts.later (hacc : f.Accounts i s) (hhistory : s'.history = evs ++ s.history)
    (hevs : ∀ ev ∈ evs, ∀ way, ev.transfer ≠ some (way, i)) (hresends : f'.resends = f.resends)
    (hout : f.phase.out ≤ f'.phase.out) (hsent : f.phase.sent ≤ f'.phase.sent)
    (hslot : f'.SlotRule) : f'.Accounts i s' := by
  refine ⟨?_, ?_, ?_, ?_, hslot⟩
  · rw [hresends]
    exact hacc.bounded
  · rw [hresends, hhistory, transfers_of_none hevs]
    exact hacc.resends
  · rw [hresends, hhistory, transfers_of_none hevs]
    exact Nat.le_trans hacc.handed (Nat.add_le_add_left hout _)
  · rw [hhistory, transfers_of_none hevs]
    exact Nat.le_trans hacc.taken hsent

/-- The account does not change by what others do. -/
theorem Process.Accounts.stable {who : Option ℕ} {t : Process} (hgives : Gives who s s')
    (hne : who ≠ some i) (hacc : t.Accounts i s) : t.Accounts i s' := by
  cases t with
  | send f =>
    obtain ⟨-, evs, hhistory, habout, -⟩ := hgives
    refine SendFuture.Accounts.later hacc hhistory (fun ev hev way hway => ?_) rfl (Nat.le_refl _)
      (Nat.le_refl _) hacc.slot
    exact hne (habout ev hev i (DialEvent.about_of_transfer hway))
  | _ => trivial

/-- A request that has just been started has a clean account. -/
theorem accounts_new {n : ℕ} {f : SendFuture} (hinv : DialInv n s) (hresends : f.resends = 0)
    (hslot : f.SlotRule) : f.Accounts n s := by
  have hzero : ∀ way, transfers way n s.history = 0 := by
    intro way
    rw [transfers, List.countP_eq_zero]
    intro ev hev hpasses
    have habout := DialEvent.about_of_transfer (of_decide_eq_true hpasses)
    exact absurd (hinv.about ev hev n habout) (Nat.lt_irrefl n)
  refine ⟨?_, ?_, ?_, ?_, hslot⟩
  · rw [hresends]
    exact Nat.zero_le _
  · rw [hresends, hzero]
  · rw [hzero]
    exact Nat.zero_le _
  · rw [hzero]
    exact Nat.zero_le _

end Accounts

/-! ## What is no business of requests -/

/-- A change that passes no request, and leaves the slots alone. -/
structure Aside (s s' : Shared) : Prop where
  /-- the free slots -/
  permits : s'.permits = s.permits
  /-- the acquisitions -/
  issued : s'.issued = s.issued
  /-- what happens -/
  history : ∃ evs, s'.history = evs ++ s.history ∧ ∀ ev ∈ evs, ev.harmless = false

theorem Aside.refl (s : Shared) : Aside s s :=
  ⟨rfl, rfl, [], rfl, fun _ hev => absurd hev List.not_mem_nil⟩

/-- One event. -/
theorem aside_event {s s' : Shared} {ev : DialEvent} (hev : ev.harmless = false)
    (hhistory : s'.history = ev :: s.history) (hpermits : s'.permits = s.permits)
    (hissued : s'.issued = s.issued) : Aside s s' := by
  refine ⟨hpermits, hissued, [ev], hhistory, fun e he => ?_⟩
  obtain rfl := List.mem_singleton.mp he
  exact hev

/-- None. -/
theorem aside_none {s s' : Shared} (hhistory : s'.history = s.history)
    (hpermits : s'.permits = s.permits) (hissued : s'.issued = s.issued) : Aside s s' :=
  ⟨hpermits, hissued, [], hhistory, fun _ hev => absurd hev List.not_mem_nil⟩

theorem reconnect_aside {i n : ℕ} {s : Shared} {stage : ReconnectStage}
    {r : Shared × Progress × Option Attempt} (h : s.reconnect i n stage = some r) :
    Aside s r.1 := by
  cases stage with
  | entering =>
    obtain rfl := Option.some.inj h
    exact aside_event rfl rfl rfl rfl
  | waiting seen =>
    rw [Shared.reconnect] at h
    split at h
    · obtain rfl := Option.some.inj h
      exact aside_none rfl rfl rfl
    · cases h
  | locked seen =>
    rw [Shared.reconnect] at h
    split at h
    · obtain rfl := Option.some.inj h
      exact .refl s
    · obtain rfl := Option.some.inj h
      exact .refl s
  | disconnected seen =>
    rw [Shared.reconnect] at h
    split at h
    · obtain rfl := Option.some.inj h
      exact .refl s
    · obtain rfl := Option.some.inj h
      exact .refl s
  | outdated seen =>
    rw [Shared.reconnect] at h
    split at h
    · obtain rfl := Option.some.inj h
      exact .refl s
    · obtain rfl := Option.some.inj h
      exact .refl s
  | retiring seen =>
    obtain rfl := Option.some.inj h
    exact aside_event rfl rfl rfl rfl
  | spawning seen =>
    obtain rfl := Option.some.inj h
    exact aside_event rfl rfl rfl rfl
  | awaiting k =>
    obtain ⟨joined, -, rfl⟩ := Option.map_eq_some_iff.mp h
    exact aside_event rfl rfl rfl rfl
  | leaving result =>
    obtain rfl := Option.some.inj h
    exact aside_event rfl rfl rfl rfl

theorem attempt_aside {k : ℕ} {s : Shared} {x : Choice} {a : Attempt} {r : Shared × Attempt}
    (h : s.attempt k x a = some r) : Aside s r.1 := by
  cases a with
  | polling =>
    cases x with
    | polled answer =>
      rw [Shared.attempt] at h
      rcases hround : s.conn.pollReady s.isClosed s.opened answer with conn | conn | conn |
        ⟨conn, ready⟩
      · simp only [hround] at h
        obtain rfl := Option.some.inj h
        exact aside_none rfl rfl rfl
      · simp only [hround] at h
        obtain rfl := Option.some.inj h
        exact aside_none rfl rfl rfl
      · simp only [hround] at h
        obtain rfl := Option.some.inj h
        exact aside_event rfl rfl rfl rfl
      · simp only [hround] at h
        obtain rfl := Option.some.inj h
        exact aside_none rfl rfl rfl
    | aborted e =>
      obtain rfl := Option.some.inj h
      exact aside_event rfl rfl rfl rfl
    | _ => cases h
  | counting result =>
    obtain rfl := Option.some.inj h
    exact aside_event rfl rfl rfl rfl
  | recording result =>
    rcases result with e | c
    · obtain rfl := Option.some.inj h
      exact aside_none rfl rfl rfl
    · obtain rfl := Option.some.inj h
      exact aside_none rfl rfl rfl
  | publishing c =>
    obtain rfl := Option.some.inj h
    exact aside_none rfl rfl rfl
  | unlocking result =>
    obtain rfl := Option.some.inj h
    exact aside_none rfl rfl rfl
  | ended => cases h

/-! ## The accounts in a run -/

section Turns

variable {i n : ℕ} {s s' : Shared} {f f' : SendFuture}

theorem Aside.accounts (h : Aside s s') (hacc : f.Accounts i s) (hresends : f'.resends = f.resends)
    (hout : f.phase.out ≤ f'.phase.out) (hsent : f.phase.sent ≤ f'.phase.sent)
    (hslot : f'.SlotRule) : f'.Accounts i s' := by
  obtain ⟨evs, hhistory, hevs⟩ := h.history
  refine hacc.later hhistory (fun ev hev way hway => ?_) hresends hout hsent hslot
  have hharmless := hevs ev hev
  cases ev with
  | handed j => cases hharmless
  | taken j => cases hharmless
  | resent j => cases hharmless
  | _ => cases hway

/-- A slot goes back. -/
theorem accounts_release (hacc : f.Accounts i s) (slot : Option ℕ)
    (hresends : f'.resends = f.resends) (hout : f.phase.out ≤ f'.phase.out)
    (hsent : f.phase.sent ≤ f'.phase.sent) (hslot : f'.SlotRule) :
    f'.Accounts i (s.release slot) := by
  rcases slot with _ | slot
  · exact (Aside.refl s).accounts hacc hresends hout hsent hslot
  · have hhistory : (s.release (some slot)).history = [.released slot] ++ s.history := rfl
    refine hacc.later hhistory (fun ev hev way hway => ?_) hresends hout hsent hslot
    obtain rfl := List.mem_singleton.mp hev
    cases hway

theorem SendPhase.out_le (phase : SendPhase) : phase.out ≤ 1 := by
  cases phase with
  | handed _ => exact Nat.le_refl 1
  | inflight _ _ => exact Nat.le_refl 1
  | ended _ => exact Nat.le_refl 1
  | _ => exact Nat.zero_le 1

theorem SendPhase.sent_le (phase : SendPhase) : phase.sent ≤ 1 := by
  cases phase with
  | inflight _ isTaken => exact Bool.toNat_le isTaken
  | ended _ => exact Nat.le_refl 1
  | _ => exact Nat.zero_le 1

/-- The request ends. -/
theorem accounts_finish (hacc : f.Accounts i s) (result : SendResult) :
    (f.finish s result).2.Accounts i (f.finish s result).1 :=
  accounts_release hacc f.queued rfl f.phase.out_le f.phase.sent_le rfl

/-- **The code of a request.** -/
theorem accounts_go {r : Shared × SendFuture × Option Attempt} (h : s.send i n .go f = some r)
    (hacc : f.Accounts i s) : r.2.1.Accounts i r.1 := by
  rcases f with ⟨phase, queued, resends⟩
  have hslot := hacc.slot
  cases phase with
  | acquiring =>
    obtain ⟨r', hr', rfl⟩ := Option.map_eq_some_iff.mp h
    rw [Shared.acquire] at hr'
    split at hr'
    · cases hr'
    · obtain rfl := Option.some.inj hr'
      have hevs : ∀ ev ∈ [DialEvent.acquired s.issued], ∀ way, ev.transfer ≠ some (way, i) := by
        intro ev hev way hway
        obtain rfl := List.mem_singleton.mp hev
        cases hway
      refine hacc.later rfl hevs rfl (Nat.le_refl _) (Nat.le_refl _)
        ⟨(fun hnone => by cases hnone), fun hne => absurd hslot.2 hne⟩
  | starting =>
    rw [Shared.send] at h
    simp only at h
    split at h
    · obtain rfl := Option.some.inj h
      exact (Aside.refl s).accounts hacc rfl (Nat.le_refl _) (Nat.le_refl _) hslot
    · obtain rfl := Option.some.inj h
      exact (Aside.refl s).accounts hacc rfl (Nat.le_refl _) (Nat.le_refl _) hslot
  | reconnecting stage =>
    obtain ⟨r', hr', rfl⟩ := Option.map_eq_some_iff.mp h
    have haside := reconnect_aside hr'
    rcases hprogress : r'.2.1 with stage' | (e | c)
    · exact haside.accounts hacc rfl (Nat.le_refl _) (Nat.le_refl _) hslot
    · exact accounts_finish (haside.accounts hacc rfl (Nat.le_refl _) (Nat.le_refl _) hslot) _
    · exact haside.accounts hacc rfl (Nat.le_refl _) (Nat.le_refl _) hslot
  | looping c =>
    obtain rfl := Option.some.inj h
    exact (Aside.refl s).accounts hacc rfl (Nat.le_refl _) (Nat.le_refl _) hslot
  | handing c generation =>
    obtain rfl := Option.some.inj h
    refine ⟨hacc.bounded, ?_, ?_, ?_, hslot⟩
    · exact hacc.resends
    · exact transfers_cons_le hacc.handed
    · exact hacc.taken
  | handed generation =>
    obtain rfl := Option.some.inj h
    exact accounts_release hacc queued rfl (Nat.le_refl _) (Nat.le_refl _) rfl
  | inflight generation isTaken => cases h
  | returned generation =>
    rw [Shared.send] at h
    simp only at h
    split at h
    · obtain rfl := Option.some.inj h
      exact (Aside.refl s).accounts hacc rfl (Nat.le_refl _) (Nat.le_refl _) hslot
    · obtain rfl := Option.some.inj h
      exact (Aside.refl s).accounts hacc rfl (Nat.le_refl _) (Nat.le_refl _)
        ⟨fun _ => hslot.2, fun _ => hslot.1⟩
  | retiring =>
    obtain rfl := Option.some.inj h
    have haside : Aside s ({ s with sender := none }.emit .wiped) := aside_event rfl rfl rfl rfl
    exact haside.accounts hacc rfl (Nat.le_refl _) (Nat.le_refl _)
      ⟨fun _ => hslot.2, fun _ => hslot.1⟩
  | ended result => cases h

/-- **A turn of a request.** -/
theorem send_accounts {x : Choice} {r : Shared × SendFuture × Option Attempt}
    (h : s.send i n x f = some r) (hacc : f.Accounts i s) : r.2.1.Accounts i r.1 := by
  cases x with
  | go => exact accounts_go h hacc
  | dropped =>
    rw [Shared.send] at h
    split at h
    · obtain rfl := Option.some.inj h
      exact accounts_finish hacc _
    · cases h
  | taken =>
    rw [Shared.send] at h
    split at h
    · rename_i generation hphase
      obtain rfl := Option.some.inj h
      have hslot : f.SlotRule := hacc.slot
      have hhanded := hacc.handed
      have htaken := hacc.taken
      rw [hphase] at hhanded htaken
      rw [SendFuture.SlotRule, hphase] at hslot
      refine ⟨hacc.bounded, ?_, ?_, ?_, hslot⟩
      · exact hacc.resends
      · exact hhanded
      · exact transfers_cons_le htaken
    · cases h
  | responded =>
    rw [Shared.send] at h
    split at h
    · obtain rfl := Option.some.inj h
      exact accounts_finish hacc _
    · cases h
  | failed e =>
    rw [Shared.send] at h
    split at h
    · obtain rfl := Option.some.inj h
      exact accounts_finish hacc _
    · cases h
  | handedBack e =>
    rw [Shared.send] at h
    split at h
    · rename_i generation hphase
      split at h
      · rename_i hmore
        obtain rfl := Option.some.inj h
        have hslot : f.SlotRule := hacc.slot
        have hhanded := hacc.handed
        have htaken := hacc.taken
        rw [hphase] at hhanded htaken
        rw [SendFuture.SlotRule, hphase] at hslot
        refine ⟨hmore, ?_, hhanded, htaken, hslot, Nat.succ_ne_zero _⟩
        rw [Shared.emit, transfers_cons, ← hacc.resends]
        simp only [DialEvent.transfer, if_true]
      · obtain rfl := Option.some.inj h
        exact accounts_finish hacc _
    · cases h
  | _ => cases h

/-- **A turn of any process**, and what it starts. -/
theorem turn_accounts {x : Choice} {t : Process} {r : Turn Shared Process}
    (h : t.turn i n x s = some r) (hinv : DialInv n s) (hacc : t.Accounts i s) :
    r.self.Accounts i r.shared ∧ ∀ t', r.started = some t' → t'.Accounts n r.shared := by
  have hattempt : ∀ {a : Option Attempt} {t' : Process} {s' : Shared},
      a.map Process.attempt = some t' → t'.Accounts n s' := by
    intro a t' s' ha
    obtain ⟨a', -, rfl⟩ := Option.map_eq_some_iff.mp ha
    trivial
  have hnone : ∀ {t' : Process} {s' : Shared}, (none : Option Process) = some t' →
      t'.Accounts n s' := fun hn => by cases hn
  cases t with
  | send f =>
    obtain ⟨r', hr', rfl⟩ := Option.map_eq_some_iff.mp h
    exact ⟨send_accounts hr' hacc, fun t' ht' => hattempt ht'⟩
  | attempt a =>
    obtain ⟨r', hr', rfl⟩ := Option.map_eq_some_iff.mp h
    exact ⟨trivial, fun t' ht' => hnone ht'⟩
  | gone => cases h
  | handle hd =>
    cases x with
    | pollReady =>
      obtain ⟨r', hr', rfl⟩ := Option.map_eq_some_iff.mp h
      exact ⟨trivial, fun t' ht' => hattempt ht'⟩
    | call =>
      simp only [Process.turn, Shared.handle] at h
      split at h
      · split at h
        · cases h
        · obtain rfl := Option.some.inj h
          exact ⟨trivial, fun t' ht' => hnone ht'⟩
        · obtain rfl := Option.some.inj h
          refine ⟨trivial, fun t' ht' => ?_⟩
          obtain rfl := Option.some.inj ht'
          exact accounts_new hinv rfl
            ⟨(fun hn => by cases hn), fun hne => absurd rfl hne⟩
      · cases h
    | clone =>
      obtain rfl := Option.some.inj h
      refine ⟨trivial, fun t' ht' => ?_⟩
      obtain rfl := Option.some.inj ht'
      trivial
    | send =>
      obtain rfl := Option.some.inj h
      refine ⟨trivial, fun t' ht' => ?_⟩
      obtain rfl := Option.some.inj ht'
      exact accounts_new hinv rfl ⟨rfl, rfl⟩
    | dropped =>
      simp only [Process.turn, Shared.handle] at h
      split at h
      · obtain rfl := Option.some.inj h
        exact ⟨trivial, fun t' ht' => hnone ht'⟩
      · cases h
    | _ => cases h

end Turns

/-- What a process may rely on, and its account. -/
def Process.Known (i : ℕ) (t : Process) (s : Shared) : Prop :=
  t.Own i s ∧ t.Accounts i s

/-- **The processes keep their accounts.** -/
theorem accounts_upholds : sharedConnection.Upholds DialInv Process.Known Gives where
  turn := by
    intro i n x s t r h hi hinv hknown
    obtain ⟨hinv', hown, hgives, hstarted⟩ := dial_upholds.turn h hi hinv hknown.1
    obtain ⟨hacc, hnew⟩ := turn_accounts h hinv hknown.2
    exact ⟨hinv', ⟨hown, hacc⟩, hgives, fun t' ht' =>
      ⟨⟨(hstarted t' ht').1, hnew t' ht'⟩, (hstarted t' ht').2⟩⟩
  outside := dial_upholds.outside
  stable := fun hgives hne hknown =>
    ⟨Process.stable hgives hne hknown.1, Process.Accounts.stable hgives hne hknown.2⟩

theorem accounts_holds (conn : Reconnect) (bound : ℕ+) :
    System.Holds DialInv Process.Known (conn.shared bound) where
  inv := (dial_holds conn bound).inv
  own := by
    intro i t ht
    refine ⟨(dial_holds conn bound).own ht, ?_⟩
    rcases i with _ | i
    · obtain rfl := Option.some.inj ht
      trivial
    · cases ht

/-- **In every run.** -/
theorem accounts_run (conn : Reconnect) (bound : ℕ+) (acts : List (Action Choice ℕ)) :
    System.Holds DialInv Process.Known (sharedConnection.run (conn.shared bound) acts) :=
  accounts_upholds.run (accounts_holds conn bound) acts

/-! ## Slots -/

/-- The slot that a process holds. -/
def Process.slot : Process → Option ℕ
  | handle h => h.permit
  | send f => f.queued
  | attempt _ => none
  | gone => none

/-- What the slot of a process counts, where `w` is what every slot does. -/
def Process.weight (w : ℕ → ℕ) (t : Process) : ℕ :=
  (t.slot.map w).getD 0

/-- What the shared state has of a quantity that goes with the slots: an acquisition takes what
its slot counts, and gives it back with the slot. -/
structure Balances (w : ℕ → ℕ) (g : Shared → ℕ) : Prop where
  /-- a slot is acquired -/
  acquire : ∀ {s r}, s.acquire = some r → w r.2 + g r.1 = g s
  /-- a slot is given back -/
  release : ∀ s slot, g (s.release (some slot)) = w slot + g s
  /-- a request is passed -/
  transfer : ∀ s {ev : DialEvent}, ev.transfer.isSome = true → g (s.emit ev) = g s
  /-- anything else -/
  aside : ∀ {s s'}, Aside s s' → g s' = g s

section Balances

variable {w : ℕ → ℕ} {g : Shared → ℕ} {i n : ℕ} {s : Shared}

/-- A slot is given back if there is one. -/
theorem Balances.giveBack (h : Balances w g) (s : Shared) (slot : Option ℕ) :
    g (s.release slot) = (slot.map w).getD 0 + g s := by
  rcases slot with _ | slot
  · exact (Nat.zero_add _).symm
  · exact h.release s slot

/-- What a turn of a process balances. -/
def Balanced (w : ℕ → ℕ) (g : Shared → ℕ) (t : Process) (s : Shared) (r : Turn Shared Process) :
    Prop :=
  r.self.weight w + (r.started.map (Process.weight w)).getD 0 + g r.shared = t.weight w + g s

/-- An attempt has no slot. -/
theorem weight_attempt (w : ℕ → ℕ) (a : Option Attempt) :
    ((a.map Process.attempt).map (Process.weight w)).getD 0 = 0 := by
  rcases a with _ | a
  · rfl
  · rfl

/-- A turn that leaves its process the slot. -/
theorem balanced_same {t self : Process} {s' : Shared} (hslot : self.slot = t.slot)
    (hg : g s' = g s) (a : Option Attempt) : Balanced w g t s ⟨s', self, a.map .attempt⟩ := by
  rw [Balanced, weight_attempt, hg, Process.weight, Process.weight, hslot, Nat.add_zero]

/-- A turn that gives the slot back. -/
theorem Balances.returned (h : Balances w g) {t self : Process} {slot : Option ℕ} {s' : Shared}
    (hslot : t.slot = slot) (hself : self.slot = none) (hg : g s' = g s) (a : Option Attempt) :
    Balanced w g t s ⟨s'.release slot, self, a.map .attempt⟩ := by
  rw [Balanced, weight_attempt, Process.weight, Process.weight, hslot, hself, h.giveBack, hg]
  exact Nat.zero_add _

/-- A turn that acquires the slot. -/
theorem Balances.acquired (h : Balances w g) {t self : Process} {r : Shared × ℕ}
    (hr : s.acquire = some r) (hslot : t.slot = none) (hself : self.slot = some r.2) :
    Balanced w g t s ⟨r.1, self, none⟩ := by
  rw [Balanced, Process.weight, Process.weight, hslot, hself]
  exact (h.acquire hr).trans (Nat.zero_add _).symm

/-- **The code of a request.** -/
theorem Balances.go (h : Balances w g) {f : SendFuture} {r : Shared × SendFuture × Option Attempt}
    (hr : s.send i n .go f = some r) (hacc : f.Accounts i s) :
    Balanced w g (.send f) s ⟨r.1, .send r.2.1, r.2.2.map .attempt⟩ := by
  rcases f with ⟨phase, queued, resends⟩
  have hslot := hacc.slot
  cases phase with
  | acquiring =>
    obtain ⟨r', hr', rfl⟩ := Option.map_eq_some_iff.mp hr
    exact h.acquired hr' hslot.1 rfl
  | starting =>
    rw [Shared.send] at hr
    simp only at hr
    split at hr
    · obtain rfl := Option.some.inj hr
      exact balanced_same rfl rfl none
    · obtain rfl := Option.some.inj hr
      exact balanced_same rfl rfl none
  | reconnecting stage =>
    obtain ⟨r', hr', rfl⟩ := Option.map_eq_some_iff.mp hr
    have hg := h.aside (reconnect_aside hr')
    rcases hprogress : r'.2.1 with stage' | (e | c)
    · exact balanced_same rfl hg r'.2.2
    · exact h.returned rfl rfl hg r'.2.2
    · exact balanced_same rfl hg r'.2.2
  | looping c =>
    obtain rfl := Option.some.inj hr
    exact balanced_same rfl rfl none
  | handing c generation =>
    obtain rfl := Option.some.inj hr
    exact balanced_same rfl (h.transfer s rfl) none
  | handed generation =>
    obtain rfl := Option.some.inj hr
    exact h.returned rfl rfl rfl none
  | inflight generation isTaken => cases hr
  | returned generation =>
    rw [Shared.send] at hr
    simp only at hr
    split at hr
    · obtain rfl := Option.some.inj hr
      exact balanced_same rfl rfl none
    · obtain rfl := Option.some.inj hr
      exact balanced_same rfl rfl none
  | retiring =>
    obtain rfl := Option.some.inj hr
    have haside : Aside s ({ s with sender := none }.emit .wiped) := aside_event rfl rfl rfl rfl
    exact balanced_same rfl (h.aside haside) none
  | ended result => cases hr

/-- **A turn of a request.** -/
theorem Balances.send (h : Balances w g) {x : Choice} {f : SendFuture}
    {r : Shared × SendFuture × Option Attempt} (hr : s.send i n x f = some r)
    (hacc : f.Accounts i s) :
    Balanced w g (.send f) s ⟨r.1, .send r.2.1, r.2.2.map .attempt⟩ := by
  have hfinish : ∀ result, Balanced w g (.send f) s
      ⟨(f.finish s result).1, .send (f.finish s result).2, none⟩ :=
    fun result => h.returned rfl rfl rfl none
  cases x with
  | go => exact h.go hr hacc
  | dropped =>
    rw [Shared.send] at hr
    split at hr
    · obtain rfl := Option.some.inj hr
      exact hfinish _
    · cases hr
  | taken =>
    rw [Shared.send] at hr
    split at hr
    · obtain rfl := Option.some.inj hr
      exact balanced_same rfl (h.transfer s rfl) none
    · cases hr
  | responded =>
    rw [Shared.send] at hr
    split at hr
    · obtain rfl := Option.some.inj hr
      exact hfinish _
    · cases hr
  | failed e =>
    rw [Shared.send] at hr
    split at hr
    · obtain rfl := Option.some.inj hr
      exact hfinish _
    · cases hr
  | handedBack e =>
    rw [Shared.send] at hr
    split at hr
    · split at hr
      · obtain rfl := Option.some.inj hr
        exact balanced_same rfl (h.transfer s rfl) none
      · obtain rfl := Option.some.inj hr
        exact hfinish _
    · cases hr
  | _ => cases hr

/-- **A turn of a handle.** -/
theorem Balances.handle (h : Balances w g) {x : Choice} {hd : SharedHttp2Connection}
    {r : Turn Shared Process} (hr : s.handle i n x hd = some r) : Balanced w g (.handle hd) s r := by
  cases x with
  | pollReady =>
    obtain ⟨r', hr', rfl⟩ := Option.map_eq_some_iff.mp hr
    rcases hd with ⟨permit, connecting, deferredError⟩
    rcases permit with _ | permit
    · obtain ⟨r'', hr'', rfl⟩ := Option.map_eq_some_iff.mp hr'
      exact h.acquired hr'' rfl rfl
    · rcases connecting with _ | stage
      · rw [Shared.pollReady] at hr'
        simp only at hr'
        split at hr'
        · cases hr'
        · obtain rfl := Option.some.inj hr'
          exact balanced_same rfl rfl none
      · obtain ⟨r'', hr'', rfl⟩ := Option.map_eq_some_iff.mp hr'
        have hg := h.aside (reconnect_aside hr'')
        rcases hprogress : r''.2.1 with stage' | (e | c)
        · exact balanced_same rfl hg r''.2.2
        · exact balanced_same rfl hg r''.2.2
        · exact balanced_same rfl hg r''.2.2
  | call =>
    rw [Shared.handle] at hr
    split at hr
    · split at hr
      · cases hr
      · rename_i permit e hpermit _
        obtain rfl := Option.some.inj hr
        exact h.returned (t := .handle hd) hpermit rfl rfl none
      · rename_i permit hpermit _
        obtain rfl := Option.some.inj hr
        -- the slot goes to the request
        rw [Balanced, Process.weight, Process.weight, Process.slot, Process.slot, hpermit]
        exact congrArg (· + g s) (Nat.zero_add _)
    · cases hr
  | clone =>
    obtain rfl := Option.some.inj hr
    exact balanced_same rfl rfl none
  | send =>
    obtain rfl := Option.some.inj hr
    exact balanced_same rfl rfl none
  | dropped =>
    rw [Shared.handle] at hr
    split at hr
    · obtain rfl := Option.some.inj hr
      exact h.returned rfl rfl rfl none
    · cases hr
  | _ => cases hr

/-- **A turn of any process.** -/
theorem Balances.turn (h : Balances w g) {x : Choice} {t : Process} {r : Turn Shared Process}
    (hr : t.turn i n x s = some r) (hacc : t.Accounts i s) : Balanced w g t s r := by
  cases t with
  | handle hd => exact h.handle hr
  | send f =>
    obtain ⟨r', hr', rfl⟩ := Option.map_eq_some_iff.mp hr
    exact h.send hr' hacc
  | attempt a =>
    obtain ⟨r', hr', rfl⟩ := Option.map_eq_some_iff.mp hr
    exact balanced_same rfl (h.aside (attempt_aside hr')) none
  | gone => cases hr

/-- **What goes with the slots is the same in every run.** -/
theorem Balances.run (h : Balances w g) (houtside : ∀ c s, g (sharedConnection.outside c s) = g s)
    (conn : Reconnect) (bound : ℕ+) (acts : List (Action Choice ℕ)) :
    System.total (Process.weight w) g (sharedConnection.run (conn.shared bound) acts) =
      g (conn.shared bound).shared := by
  have hrun : System.total (Process.weight w) g (sharedConnection.run (conn.shared bound) acts) =
      System.total (Process.weight w) g (conn.shared bound) :=
    accounts_upholds.total_run (fun hr hknown => h.turn hr hknown.2) houtside
      (accounts_holds conn bound) acts
  exact hrun.trans (Nat.zero_add _)

end Balances

end ConnectRpc
