import Mathlib.Data.List.Basic
import Mathlib.Tactic.Common

/-!
# Processes over a shared state

A **pool** is a state that processes share, and a list of processes. In each step one of
the processes takes a turn, by which it may start another, or something happens outside
of them all. Which one it is, and what the world answers it, is up to an `Action`; an
action that is not possible changes nothing.

There are two rules. By `Upholds` every process has an assertion of its own, which its turns
keep as long as no other process interferes: each turn guarantees something about the
shared state, and what one guarantees leaves the assertions of the others alone. By
`Upholds.total_run` a quantity that is spread over the processes and the shared state is conserved.
-/

namespace ConnectRpc.Lib

/-- A shared state and the processes. -/
structure Pool (σ τ : Type) where
  /-- the shared state -/
  shared : σ
  /-- the processes; they are numbered as they are started -/
  procs : List τ

/-- What comes of a turn of a process. -/
structure Turn (σ τ : Type) where
  /-- the shared state after it -/
  shared : σ
  /-- the process after it -/
  self : τ
  /-- a process that it starts -/
  started : Option τ

/-- What happens. -/
inductive Action (χ ω : Type) : Type where
  /-- a process takes a turn, with what the world answers -/
  | turn : ℕ → χ → Action χ ω
  /-- something happens outside -/
  | outside : ω → Action χ ω

/-- A system of processes. -/
structure System (σ τ χ ω : Type) where
  /-- the turn of the process of a number, who gives the next number to one it starts -/
  turn : ℕ → ℕ → χ → σ → τ → Option (Turn σ τ)
  /-- what something outside does -/
  outside : ω → σ → σ

namespace System

variable {σ τ χ ω : Type} (sys : System σ τ χ ω)

/-- One step. -/
def step (p : Pool σ τ) : Action χ ω → Pool σ τ
  | .turn i x =>
    match (p.procs[i]?).bind fun t => sys.turn i p.procs.length x p.shared t with
    | none => p
    | some r => ⟨r.shared, p.procs.set i r.self ++ r.started.toList⟩
  | .outside o => ⟨sys.outside o p.shared, p.procs⟩

/-- A run. -/
def run (p : Pool σ τ) (acts : List (Action χ ω)) : Pool σ τ :=
  acts.foldl sys.step p

theorem run_append (p : Pool σ τ) (acts acts' : List (Action χ ω)) :
    sys.run p (acts ++ acts') = sys.run (sys.run p acts) acts' :=
  List.foldl_append

/-- The turn of a process. -/
theorem step_turn {p : Pool σ τ} {i : ℕ} {x : χ} {t : τ} {r : Turn σ τ} (ht : p.procs[i]? = some t)
    (hr : sys.turn i p.procs.length x p.shared t = some r) :
    sys.step p (.turn i x) = ⟨r.shared, p.procs.set i r.self ++ r.started.toList⟩ := by
  rw [step, ht, Option.bind_some, hr]

/-- A turn that nobody can take. -/
theorem step_stuck {p : Pool σ τ} {i : ℕ} {x : χ}
    (h : ∀ t, p.procs[i]? = some t → sys.turn i p.procs.length x p.shared t = none) :
    sys.step p (.turn i x) = p := by
  rw [step]
  rcases ht : p.procs[i]? with _ | t
  · rfl
  · rw [Option.bind_some, h t ht]

/-- A step is the turn of a process, something outside, or nothing. -/
theorem step_cases (p : Pool σ τ) (a : Action χ ω) :
    sys.step p a = p ∨
    (∃ i x t r, a = .turn i x ∧ p.procs[i]? = some t ∧
      sys.turn i p.procs.length x p.shared t = some r ∧
      sys.step p a = ⟨r.shared, p.procs.set i r.self ++ r.started.toList⟩) ∨
    ∃ o, sys.step p a = ⟨sys.outside o p.shared, p.procs⟩ := by
  cases a with
  | turn i x =>
    rcases ht : p.procs[i]? with _ | t
    · refine .inl ?_
      rw [step, ht]
      rfl
    · rcases hr : sys.turn i p.procs.length x p.shared t with _ | r
      · refine .inl ?_
        rw [step, ht, Option.bind_some, hr]
      · exact .inr (.inl ⟨i, x, t, r, rfl, ht, hr, sys.step_turn ht hr⟩)
  | outside o => exact .inr (.inr ⟨o, rfl⟩)

/-- Processes are not taken away. -/
theorem procs_length_le (acts : List (Action χ ω)) : ∀ (p : Pool σ τ),
    p.procs.length ≤ (sys.run p acts).procs.length := by
  induction acts with
  | nil => exact fun _ => Nat.le_refl _
  | cons a acts ih =>
    intro p
    have hstep : p.procs.length ≤ (sys.step p a).procs.length := by
      rcases sys.step_cases p a with hsame | ⟨i, x, t, r, -, -, -, hstep⟩ | ⟨o, hstep⟩
      · exact Nat.le_of_eq (congrArg (fun p => p.procs.length) hsame).symm
      · simp [hstep]
      · exact Nat.le_of_eq (congrArg (fun p => p.procs.length) hstep).symm
    exact Nat.le_trans hstep (ih _)

/-- **The run rule**: what every step keeps holds after a run. -/
theorem run_keeps {P : Pool σ τ → Prop} (hstep : ∀ p a, P p → P (sys.step p a)) :
    ∀ (acts : List (Action χ ω)) {p : Pool σ τ}, P p → P (sys.run p acts) := by
  intro acts
  induction acts with
  | nil => exact fun h => h
  | cons a acts ih => exact fun h => ih (hstep _ a h)

/-! ## Assertions of processes -/

/-- The processes after a turn: the one that took it, the others, and the one it has
started. -/
theorem getElem?_turn {procs : List τ} {i j : ℕ} {t t' self : τ} {started : Option τ}
    (hi : procs[i]? = some t)
    (h : (procs.set i self ++ started.toList)[j]? = some t') :
    (j = i ∧ t' = self) ∨ (i ≠ j ∧ procs[j]? = some t') ∨
      (j = procs.length ∧ started = some t') := by
  have hlen : i < procs.length := (List.getElem?_eq_some_iff.mp hi).1
  by_cases hj : j < procs.length
  · rw [List.getElem?_append_left (by rw [List.length_set]; exact hj)] at h
    by_cases hij : i = j
    · subst hij
      rw [List.getElem?_set_self hlen] at h
      exact .inl ⟨rfl, (Option.some.inj h).symm⟩
    · rw [List.getElem?_set_ne hij] at h
      exact .inr (.inl ⟨hij, h⟩)
  · rw [List.getElem?_append_right (by rw [List.length_set]; exact Nat.le_of_not_lt hj),
      List.length_set] at h
    rcases started with _ | s
    · cases h
    · obtain ⟨hzero, -⟩ := List.getElem?_eq_some_iff.mp h
      have hzero' : j - procs.length = 0 := Nat.lt_one_iff.mp hzero
      rw [hzero'] at h
      have hj' : j = procs.length := by omega
      exact .inr (.inr ⟨hj', h⟩)

/-- **Turns without interference.** `Inv` is an invariant of the shared state, given the
number of processes. `Own` is what a process asserts; a turn keeps it, together with the
invariant, and guarantees `Gives`, and so does what happens outside. Nothing that is guaranteed
takes the assertion from any process but the one that took the turn. -/
structure Upholds (Inv : ℕ → σ → Prop) (Own : ℕ → τ → σ → Prop)
    (Gives : Option ℕ → σ → σ → Prop) : Prop where
  /-- a turn -/
  turn : ∀ {i n x s t r}, sys.turn i n x s t = some r → i < n → Inv n s → Own i t s →
    Inv n r.shared ∧ Own i r.self r.shared ∧ Gives (some i) s r.shared ∧
      ∀ t', r.started = some t' → Own n t' r.shared ∧ Inv (n + 1) r.shared
  /-- something outside -/
  outside : ∀ {n o s}, Inv n s → Inv n (sys.outside o s) ∧ Gives none s (sys.outside o s)
  /-- no interference -/
  stable : ∀ {who j s s' t}, Gives who s s' → who ≠ some j → Own j t s → Own j t s'

/-- The invariant holds, and the assertions of all processes. -/
structure Holds (Inv : ℕ → σ → Prop) (Own : ℕ → τ → σ → Prop) (p : Pool σ τ) : Prop where
  /-- the invariant -/
  inv : Inv p.procs.length p.shared
  /-- the assertions -/
  own : ∀ {i t}, p.procs[i]? = some t → Own i t p.shared

variable {sys} {Inv : ℕ → σ → Prop} {Own : ℕ → τ → σ → Prop} {Gives : Option ℕ → σ → σ → Prop}

/-- **Turns that are counted.** As `Upholds`, but the invariant of a turn that starts a process is
the one for the number of processes after it. -/
structure Sustains (Inv : ℕ → σ → Prop) (Own : ℕ → τ → σ → Prop)
    (Gives : Option ℕ → σ → σ → Prop) : Prop where
  /-- a turn -/
  turn : ∀ {i n x s t r}, sys.turn i n x s t = some r → i < n → Inv n s → Own i t s →
    Inv (n + r.started.toList.length) r.shared ∧ Own i r.self r.shared ∧
      Gives (some i) s r.shared ∧ ∀ t', r.started = some t' → Own n t' r.shared
  /-- something outside -/
  outside : ∀ {n o s}, Inv n s → Inv n (sys.outside o s) ∧ Gives none s (sys.outside o s)
  /-- no interference -/
  stable : ∀ {who j s s' t}, Gives who s s' → who ≠ some j → Own j t s → Own j t s'

/-- One step. -/
theorem Sustains.step (h : sys.Sustains Inv Own Gives) {p : Pool σ τ} (hp : Holds Inv Own p)
    (a : Action χ ω) : Holds Inv Own (sys.step p a) := by
  rcases sys.step_cases p a with hsame | ⟨i, x, t, r, -, ht, hr, hstep⟩ | ⟨o, hstep⟩
  · rw [hsame]
    exact hp
  · have hi : i < p.procs.length := (List.getElem?_eq_some_iff.mp ht).1
    obtain ⟨hinv, hself, hgives, hstarted⟩ := h.turn hr hi hp.inv (hp.own ht)
    rw [hstep]
    refine ⟨?_, fun {j t'} ht' => ?_⟩
    · rw [List.length_append, List.length_set]
      exact hinv
    · rcases getElem?_turn ht ht' with ⟨rfl, rfl⟩ | ⟨hne, ht'⟩ | ⟨rfl, hs⟩
      · exact hself
      · exact h.stable hgives (fun he => hne (Option.some.inj he)) (hp.own ht')
      · exact hstarted t' hs
  · obtain ⟨hinv, hgives⟩ := h.outside (o := o) hp.inv
    rw [hstep]
    exact ⟨hinv, fun {j t'} ht' => h.stable hgives (fun he => by cases he) (hp.own ht')⟩

/-- **The invariant and the assertions hold after a run**, of turns that are counted. -/
theorem Sustains.run (h : sys.Sustains Inv Own Gives) {p : Pool σ τ} (hp : Holds Inv Own p)
    (acts : List (Action χ ω)) : Holds Inv Own (sys.run p acts) :=
  System.run_keeps (P := Holds Inv Own) sys (fun _ a hp => h.step hp a) acts hp

/-- Turns without interference are counted. -/
theorem Upholds.sustains (h : sys.Upholds Inv Own Gives) : sys.Sustains Inv Own Gives where
  turn := by
    intro i n x s t r hr hi hinv hown
    obtain ⟨hinv', hself, hgives, hstarted⟩ := h.turn hr hi hinv hown
    refine ⟨?_, hself, hgives, fun t' ht' => (hstarted t' ht').1⟩
    rcases hs : r.started with _ | t'
    · exact hinv'
    · exact (hstarted t' hs).2
  outside := h.outside
  stable := h.stable

/-- One step. -/
theorem Upholds.step (h : sys.Upholds Inv Own Gives) {p : Pool σ τ} (hp : Holds Inv Own p)
    (a : Action χ ω) : Holds Inv Own (sys.step p a) :=
  h.sustains.step hp a

/-- **The invariant and the assertions hold after a run.** -/
theorem Upholds.run (h : sys.Upholds Inv Own Gives) {p : Pool σ τ} (hp : Holds Inv Own p)
    (acts : List (Action χ ω)) : Holds Inv Own (sys.run p acts) :=
  h.sustains.run hp acts

/-- So does what every turn keeps given them. -/
theorem Upholds.run_keeps (h : sys.Upholds Inv Own Gives) {J : σ → Prop}
    (hturn : ∀ {i n x s t r}, sys.turn i n x s t = some r → i < n → Inv n s → Own i t s → J s →
      J r.shared)
    (houtside : ∀ {n o s}, Inv n s → J s → J (sys.outside o s)) {p : Pool σ τ}
    (hp : Holds Inv Own p) (hJ : J p.shared) (acts : List (Action χ ω)) :
    J (sys.run p acts).shared := by
  have hkeeps : Holds Inv Own (sys.run p acts) ∧ J (sys.run p acts).shared := by
    refine sys.run_keeps (P := fun p => Holds Inv Own p ∧ J p.shared) ?_ acts ⟨hp, hJ⟩
    rintro p a ⟨hp, hJ⟩
    refine ⟨h.step hp a, ?_⟩
    rcases sys.step_cases p a with hsame | ⟨i, x, t, r, -, ht, hr, hstep⟩ | ⟨o, hstep⟩
    · rw [hsame]
      exact hJ
    · rw [hstep]
      exact hturn hr (List.getElem?_eq_some_iff.mp ht).1 hp.inv (hp.own ht) hJ
    · rw [hstep]
      exact houtside hp.inv hJ
  exact hkeeps.2

/-! ## Conserved quantities -/

/-- What processes have of a quantity. -/
def amount (ofProc : τ → ℕ) : List τ → ℕ
  | [] => 0
  | t :: l => ofProc t + amount ofProc l

theorem amount_append (ofProc : τ → ℕ) (l l' : List τ) :
    amount ofProc (l ++ l') = amount ofProc l + amount ofProc l' := by
  induction l with
  | nil => exact (Nat.zero_add _).symm
  | cons a l ih => rw [List.cons_append, amount, amount, ih, Nat.add_assoc]

/-- One process changes. -/
theorem amount_set (ofProc : τ → ℕ) {t : τ} (self : τ) : ∀ {l : List τ} {i : ℕ}, l[i]? = some t →
    amount ofProc (l.set i self) + ofProc t = amount ofProc l + ofProc self := by
  intro l
  induction l with
  | nil =>
    intro i h
    cases h
  | cons a l ih =>
    intro i h
    rcases i with _ | i
    · obtain rfl := Option.some.inj h
      simp only [List.set_cons_zero, amount]
      omega
    · have hrest := ih (i := i) h
      simp only [List.set_cons_succ, amount]
      omega

/-- A quantity that counts. -/
theorem amount_eq_countP {P : τ → Bool} {ofProc : τ → ℕ}
    (hcounts : ∀ t, ofProc t = if P t then 1 else 0) :
    ∀ l : List τ, amount ofProc l = l.countP P := by
  intro l
  induction l with
  | nil => rfl
  | cons a l ih => rw [amount, ih, List.countP_cons, hcounts, Nat.add_comm]

/-- What the processes have of a quantity, and the shared state. -/
def total (ofProc : τ → ℕ) (ofShared : σ → ℕ) (p : Pool σ τ) : ℕ :=
  amount ofProc p.procs + ofShared p.shared

/-- One step. -/
theorem total_step {ofProc : τ → ℕ} {ofShared : σ → ℕ} (p : Pool σ τ) (a : Action χ ω)
    (hturn : ∀ {i x t r}, p.procs[i]? = some t → sys.turn i p.procs.length x p.shared t = some r →
      ofProc r.self + (r.started.map ofProc).getD 0 + ofShared r.shared =
        ofProc t + ofShared p.shared)
    (houtside : ∀ o s, ofShared (sys.outside o s) = ofShared s) :
    total ofProc ofShared (sys.step p a) = total ofProc ofShared p := by
  rcases sys.step_cases p a with hsame | ⟨i, x, t, r, -, ht, hr, hstep⟩ | ⟨o, hstep⟩
  · rw [hsame]
  · have hset := amount_set ofProc r.self ht
    have hbalance := hturn ht hr
    rw [hstep, total, total, amount_append]
    rcases hs : r.started with _ | t'
    · rw [hs] at hbalance
      simp only [Option.toList, amount, Option.map_none, Option.getD_none] at hbalance ⊢
      omega
    · rw [hs] at hbalance
      simp only [Option.toList, amount, Option.map_some, Option.getD_some] at hbalance ⊢
      omega
  · rw [hstep, total, total, houtside]

/-- **A quantity that every turn conserves is the same after a run.** -/
theorem Upholds.total_run (h : sys.Upholds Inv Own Gives) {ofProc : τ → ℕ} {ofShared : σ → ℕ}
    (hturn : ∀ {i n x s t r}, sys.turn i n x s t = some r → Own i t s →
      ofProc r.self + (r.started.map ofProc).getD 0 + ofShared r.shared = ofProc t + ofShared s)
    (houtside : ∀ o s, ofShared (sys.outside o s) = ofShared s) {p : Pool σ τ}
    (hp : Holds Inv Own p) (acts : List (Action χ ω)) :
    total ofProc ofShared (sys.run p acts) = total ofProc ofShared p := by
  have hkeeps : Holds Inv Own (sys.run p acts) ∧
      total ofProc ofShared (sys.run p acts) = total ofProc ofShared p := by
    refine sys.run_keeps (P := fun q => Holds Inv Own q ∧
      total ofProc ofShared q = total ofProc ofShared p) ?_ acts ⟨hp, rfl⟩
    rintro q a ⟨hq, htotal⟩
    refine ⟨h.step hq a, (total_step q a (fun ht hr => hturn hr (hq.own ht)) houtside).trans htotal⟩
  exact hkeeps.2

end System

end ConnectRpc.Lib
