import ConnectRpc.RequestQueue

/-!
# What callers see of a shared connection

The results about attempts to connect, over every run: `SharesDials` is what holds in every state,
and `Republishes` what holds while a connection stays open.
-/

namespace ConnectRpc

open Lib

/-- Whether an attempt is under way. -/
def Attempt.running : Attempt → Bool
  | ended => false
  | _ => true

/-- The callers share their attempts to connect. -/
structure SharesDials (p : Pool Shared Process) : Prop where
  /-- at most one attempt runs -/
  one : ∀ {i j : ℕ} {a b : Attempt}, p.procs[i]? = some (.attempt a) → a.running = true →
    p.procs[j]? = some (.attempt b) → b.running = true → i = j
  /-- a caller that returns a failure has started an attempt since it has entered, or that is the
  failure of an attempt that has completed since -/
  failure : ∀ {later : List DialEvent} {i : ℕ} {failure : ConnectError} {earlier : List DialEvent},
    p.shared.history = later ++ .returned i (.error failure) :: earlier →
    ∃ since before, earlier = since ++ .entered i :: before ∧ .entered i ∉ since ∧
      ((∃ k, .started i k ∈ since) ∨ ∃ k, .completed k (.error failure) ∈ since)
  /-- a caller that starts an attempt has entered since the latest one if that failed -/
  start : ∀ {later : List DialEvent} {i k : ℕ} {since : List DialEvent} {k' : ℕ}
    {failure : ConnectError} {before : List DialEvent},
    p.shared.history =
      later ++ .started i k :: (since ++ .completed k' (.error failure) :: before) →
    outcomes since = [] → .entered i ∈ since
  /-- while nobody holds the lock, there is a failure exactly if the latest attempt has failed -/
  lastFailure : p.shared.lock = none →
    p.shared.lastFailure = failureOf (outcomes p.shared.history).head?
  /-- a request is handed over a bounded number of times, and sent at most once -/
  sent : ∀ {i : ℕ} {f : SendFuture}, p.procs[i]? = some (.send f) →
    transfers .handed i p.shared.history ≤ 1 + MAX_RESENDS ∧
      transfers .taken i p.shared.history ≤ 1

/-- While the connection `c` stays open nothing else is used, and once the lock is free again
the latest attempt has published it, however often its handle was taken away before. -/
structure Republishes (c : ℕ) (old : List DialEvent) (s : Shared) : Prop where
  /-- it is still the connection -/
  conn : s.conn.state = .connected c
  /-- nothing else has been used -/
  history : ∃ new, s.history = new ++ old ∧ OnlyUses c new
  /-- its handle is the shared one -/
  sender : ∀ later k r earlier, s.history = later ++ .completed k r :: (earlier ++ old) →
    outcomes later = [] → .wiped ∉ later → s.lock = none → s.sender = some c

section Run

variable {p : Pool Shared Process}

/-- An attempt that runs has the lock. -/
theorem Attempt.lock_of_running {a : Attempt} {k : ℕ} {s : Shared} (hown : a.Own k s)
    (hrunning : a.running = true) : s.lock = some k := by
  cases a with
  | polling => exact hown.1
  | counting r => exact hown.1
  | recording r => exact hown.1.lock
  | publishing c => exact hown.1.lock
  | unlocking r => exact hown.1.lock
  | ended => cases hrunning

theorem sharesDials_of_holds (h : System.Holds DialInv Process.Known p) : SharesDials p where
  one := by
    intro i j a b hi ha hj hb
    have hlock : p.shared.lock = some i := Attempt.lock_of_running (h.own hi).1 ha
    have hlock' : p.shared.lock = some j := Attempt.lock_of_running (h.own hj).1 hb
    exact Option.some.inj (hlock.symm.trans hlock')
  failure := by
    intro later i failure earlier hsplit
    have hlawful := h.inv.lawful
    rw [hsplit] at hlawful
    exact hlawful.justified
  start := by
    intro later i k since k' failure before hsplit hnone
    have hlawful := h.inv.lawful
    rw [hsplit] at hlawful
    exact hlawful.justified since k' failure before rfl hnone
  lastFailure := fun hlock => (h.inv.settled hlock).failure
  sent := by
    intro i f hf
    have hacc : f.Accounts i p.shared := (h.own hf).2
    have hhanded := hacc.handed
    have hbounded := hacc.bounded
    have hout := f.phase.out_le
    refine ⟨?_, Nat.le_trans hacc.taken f.phase.sent_le⟩
    omega

/-- An open connection is kept by every step. -/
theorem staysUp_run {c : ℕ} {old : List DialEvent} (h : System.Holds DialInv Process.Own p)
    (hup : StaysUp c old p.shared) (acts : List (Action Choice ℕ))
    (hopen : (sharedConnection.run p acts).shared.isClosed c = false) :
    StaysUp c old (sharedConnection.run p acts).shared := by
  -- a connection that is closed stays so
  have hkeeps : (sharedConnection.run p acts).shared.isClosed c = false →
      StaysUp c old (sharedConnection.run p acts).shared := by
    refine dial_upholds.run_keeps (J := fun s => s.isClosed c = false → StaysUp c old s)
      ?_ ?_ h (fun _ => hup) acts
    · intro i n x s t r hr hi hinv hown hJ hopen'
      have hupheld := turn_upholds hr hi hinv hown
      have hclosed : r.shared.closed = s.closed :=
        hupheld.gives.1 fun hnone => by cases hnone
      have hbefore : s.isClosed c = false := by
        rw [Shared.isClosed, ← hclosed]
        exact hopen'
      exact hupheld.kept hbefore (hJ hbefore)
    · intro n o s hinv hJ hopen'
      have hbefore : s.isClosed c = false := by
        refine decide_eq_false fun hmem => ?_
        exact of_decide_eq_false hopen' (List.mem_cons_of_mem o hmem)
      exact ⟨(hJ hbefore).conn, (hJ hbefore).history⟩
  exact hkeeps hopen

/-- The handle has been published. -/
theorem StaysUp.republishes {c n : ℕ} {old : List DialEvent} {s : Shared} (h : StaysUp c old s)
    (hinv : DialInv n s) : Republishes c old s := by
  refine ⟨h.conn, h.history, fun later k r earlier hsplit hlater hwiped hlock => ?_⟩
  obtain ⟨new, hnew, honly⟩ := h.history
  have hmem : .completed k r ∈ new := by
    have hsame : later ++ .completed k r :: earlier = new := by
      have hboth : (later ++ .completed k r :: earlier) ++ old = new ++ old := by
        rw [← hnew, hsplit, List.append_assoc]
        rfl
      exact List.append_cancel_right hboth
    rw [← hsame]
    exact List.mem_append_right _ List.mem_cons_self
  obtain rfl := honly.completed k r hmem
  rcases (hinv.settled hlock).handle later k c (earlier ++ old) hsplit hlater with hw | hsender
  · exact absurd hw hwiped
  · exact hsender

end Run

/-- **One attempt for everybody**, in every run of any number of callers; and from any moment of it
on, nothing but the open connection is used as long as it stays open. -/
theorem dial_sharing (conn : Reconnect) (bound : ℕ+) (acts : List (Action Choice ℕ)) :
    SharesDials (sharedConnection.run (conn.shared bound) acts) ∧
      ∀ before after c, acts = before ++ after →
        (sharedConnection.run (conn.shared bound) before).shared.conn.state = .connected c →
        (sharedConnection.run (conn.shared bound) acts).shared.isClosed c = false →
        Republishes c (sharedConnection.run (conn.shared bound) before).shared.history
          (sharedConnection.run (conn.shared bound) acts).shared := by
  refine ⟨sharesDials_of_holds (accounts_run conn bound acts), ?_⟩
  rintro before after c rfl hstate hopen
  have hinv := (dial_run conn bound (before ++ after)).inv
  rw [System.run_append] at hopen hinv ⊢
  have hup : StaysUp c (sharedConnection.run (conn.shared bound) before).shared.history
      (sharedConnection.run (conn.shared bound) before).shared :=
    ⟨hstate, [], rfl, .nil c⟩
  exact (staysUp_run (dial_run conn bound before) hup after hopen).republishes hinv

end ConnectRpc
