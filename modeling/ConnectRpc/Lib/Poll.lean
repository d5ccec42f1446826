import Mathlib.Tactic.Common
import Mathlib.Data.Stream.Init

/-!
# Polled machines

A machine that is **polled** answers each poll with "not yet" or with a value,
and moves to a next state either way. This file relates a whole run of polls to
what the machine stands for.

Two arguments recur and are packaged here once. `ready_invariant` carries a
relation between the values answered so far and the current state through any
number of polls. `Produces` says that a state stands for a definite endless
sequence of values, whatever the polls in between; `Produces.ready_eq` then gives
the values of a run as a prefix of that sequence, and `Produces.enough` says that
enough polls give as many of them as one likes.
-/

namespace ConnectRpc.Lib

universe u v

/-- The answer to a poll. -/
inductive Poll (β : Type u) : Type u where
  /-- not yet -/
  | pending : Poll β
  /-- a value -/
  | ready : β → Poll β
  deriving DecidableEq

variable {β : Type u} {σ : Type v}

/-- The answers to `n` polls, in order. -/
def polls (step : σ → Poll β × σ) : ℕ → σ → List (Poll β)
  | 0, _ => []
  | n + 1, s => (step s).1 :: polls step n (step s).2

/-- The state after `n` polls. -/
def after (step : σ → Poll β × σ) : ℕ → σ → σ
  | 0, s => s
  | n + 1, s => after step n (step s).2

/-- The values among some answers. -/
def ready : List (Poll β) → List β
  | [] => []
  | .pending :: t => ready t
  | .ready b :: t => b :: ready t

@[simp] theorem ready_nil : ready ([] : List (Poll β)) = [] := rfl

@[simp] theorem ready_pending (t : List (Poll β)) : ready (.pending :: t) = ready t := rfl

@[simp] theorem ready_ready (b : β) (t : List (Poll β)) :
    ready (.ready b :: t) = b :: ready t := rfl

@[simp] theorem ready_append (l t : List (Poll β)) : ready (l ++ t) = ready l ++ ready t := by
  induction l with
  | nil => rfl
  | cons a l ih => cases a <;> simp [ih]

/-- How many of some answers are "not yet". -/
def pendings : List (Poll β) → ℕ
  | [] => 0
  | .pending :: t => pendings t + 1
  | .ready _ :: t => pendings t

theorem pendings_append (l t : List (Poll β)) : pendings (l ++ t) = pendings l + pendings t := by
  induction l with
  | nil => exact (Nat.zero_add _).symm
  | cons a l ih =>
    cases a with
    | pending =>
      rw [List.cons_append, pendings, pendings, ih]
      omega
    | ready b => exact ih

theorem polls_add (step : σ → Poll β × σ) :
    ∀ (n m : ℕ) (s : σ), polls step (n + m) s = polls step n s ++ polls step m (after step n s) := by
  intro n
  induction n with
  | zero => intro m s; simp [polls, after]
  | succ n ih =>
    intro m s
    rw [Nat.succ_add]
    simp only [polls, after, List.cons_append, ih]

theorem after_add (step : σ → Poll β × σ) :
    ∀ (n m : ℕ) (s : σ), after step (n + m) s = after step m (after step n s) := by
  intro n
  induction n with
  | zero => intro m s; simp [after]
  | succ n ih =>
    intro m s
    rw [Nat.succ_add]
    simp only [after, ih]

/-- There are no more values than polls. -/
theorem length_ready_polls_le (step : σ → Poll β × σ) :
    ∀ (n : ℕ) (s : σ), (ready (polls step n s)).length ≤ n := by
  intro n
  induction n with
  | zero => exact fun _ => Nat.le_refl _
  | succ n ih =>
    intro s
    have hn := ih (step s).2
    rcases ha : (step s).1 with _ | b
    · simp only [polls, ha, ready_pending]
      omega
    · simp only [polls, ha, ready_ready, List.length_cons]
      omega

/-- **Run invariant.** A relation between the values answered so far and the
state that one poll keeps, whatever it answers, holds after any number of
polls. -/
theorem ready_invariant {step : σ → Poll β × σ} {R : List β → σ → Prop}
    (hpending : ∀ l s, R l s → (step s).1 = .pending → R l (step s).2)
    (hready : ∀ l s b, R l s → (step s).1 = .ready b → R (l ++ [b]) (step s).2) :
    ∀ (n : ℕ) (l : List β) (s : σ), R l s → R (l ++ ready (polls step n s)) (after step n s) := by
  intro n
  induction n with
  | zero => intro l s h; simpa [polls, after] using h
  | succ n ih =>
    intro l s h
    rcases ha : (step s).1 with _ | b
    · have := ih l (step s).2 (hpending l s h ha)
      simpa only [polls, after, ha, ready_pending] using this
    · have := ih (l ++ [b]) (step s).2 (hready l s b h ha)
      simpa only [polls, after, ha, ready_ready, List.append_assoc, List.singleton_append]
        using this

/-- A measure that every poll brings down by one is used up by as many polls. -/
theorem after_measure {step : σ → Poll β × σ} {Inv : σ → Prop} {μ : σ → ℕ}
    (hinv : ∀ s, Inv s → Inv (step s).2) (hμ : ∀ s, Inv s → μ (step s).2 ≤ μ s - 1) :
    ∀ (n : ℕ) (s : σ), Inv s → μ (after step n s) ≤ μ s - n := by
  intro n
  induction n with
  | zero => exact fun s _ => Nat.le_refl _
  | succ n ih =>
    intro s h
    have hn := ih _ (hinv s h)
    have h1 := hμ s h
    rw [after]
    omega

/-- The beginning of some values with one value for ever after them. -/
theorem take_append_const (l : List β) (x : β) (k : ℕ) :
    (l ++ₛ Stream'.const x).take k = (l ++ List.replicate k x).take k := by
  induction l generalizing k with
  | nil =>
    rw [Stream'.nil_append_stream, List.nil_append, List.take_of_length_le (by simp)]
    induction k with
    | zero => rfl
    | succ k ih => rw [Stream'.const_eq, Stream'.take_succ_cons, ih, List.replicate_succ]
  | cons b l ih =>
    rcases k with _ | k
    · rfl
    · have hlen : k ≤ (l ++ List.replicate k x).length := by simp
      rw [Stream'.cons_append_stream, Stream'.take_succ_cons, ih, List.cons_append,
        List.take_succ_cons, List.replicate_succ', ← List.append_assoc,
        List.take_append_of_le_length hlen]

/-- A state stands for an endless sequence of values: a poll that answers "not
yet" leaves it as it is and brings the next value nearer, a poll that answers a
value takes it off the front. -/
structure Produces (step : σ → Poll β × σ) (Inv : σ → Prop) (out : σ → Stream' β)
    (wait : σ → ℕ) : Prop where
  /-- a poll keeps the invariant -/
  inv : ∀ {s : σ}, Inv s → Inv (step s).2
  /-- "not yet" changes nothing but the wait -/
  pending : ∀ {s : σ}, Inv s → (step s).1 = .pending →
    out (step s).2 = out s ∧ wait (step s).2 < wait s
  /-- a value is the first of the sequence -/
  ready : ∀ {s : σ} {b : β}, Inv s → (step s).1 = .ready b →
    out s = Stream'.cons b (out (step s).2) ∧ wait (step s).2 ≤ wait s

namespace Produces

variable {step : σ → Poll β × σ} {Inv : σ → Prop} {out : σ → Stream' β} {wait : σ → ℕ}

/-- The values of a run are the first ones of the sequence the state stands
for. -/
theorem ready_eq (h : Produces step Inv out wait) :
    ∀ (n : ℕ) {s : σ}, Inv s →
      Lib.ready (polls step n s) =
        (out s).take (Lib.ready (polls step n s)).length := by
  intro n
  induction n with
  | zero => intro s _; rfl
  | succ n ih =>
    intro s hs
    rcases ha : (step s).1 with _ | b
    · have hout := (h.pending hs ha).1
      simp only [polls, ha, ready_pending]
      rw [← hout]
      exact ih (h.inv hs)
    · have hout := (h.ready hs ha).1
      simp only [polls, ha, ready_ready, List.length_cons]
      rw [hout, Stream'.take_succ_cons]
      exact congrArg (b :: ·) (ih (h.inv hs))

/-- All but `wait s` of the polls of a run answer with a value. -/
theorem enough (h : Produces step Inv out wait) :
    ∀ (n : ℕ) {s : σ}, Inv s → n ≤ wait s + (Lib.ready (polls step n s)).length := by
  intro n
  induction n with
  | zero => intro s _; omega
  | succ n ih =>
    intro s hs
    have hn := ih (h.inv hs)
    rcases ha : (step s).1 with _ | b
    · have hw := (h.pending hs ha).2
      simp only [polls, ha, ready_pending]
      omega
    · have hw := (h.ready hs ha).2
      simp only [polls, ha, ready_ready, List.length_cons]
      omega

end Produces

end ConnectRpc.Lib
