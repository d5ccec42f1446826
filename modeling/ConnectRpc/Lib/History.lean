import Mathlib.Data.List.Basic
import Mathlib.Tactic.Common

/-!
# Histories

A **history** is a list of events, the latest first. `Ordered allowed` says of every event of a
history that it was `allowed` by what came before it. A system that adds to its history only what
is allowed keeps it ordered (`Ordered.append`), and so every split of it tells what must have
happened before the event at the split (`ordered_iff`).
-/

namespace ConnectRpc.Lib

universe u

variable {ε : Type u}

/-- A history in which every event was allowed by those before it. -/
inductive Ordered (allowed : List ε → ε → Prop) : List ε → Prop where
  | nil : Ordered allowed []
  | cons {e : ε} {before : List ε} :
    allowed before e → Ordered allowed before → Ordered allowed (e :: before)

variable {allowed : List ε → ε → Prop}

@[simp] theorem ordered_cons {e : ε} {before : List ε} :
    Ordered allowed (e :: before) ↔ allowed before e ∧ Ordered allowed before := by
  constructor
  · intro h
    cases h with
    | cons he hbefore => exact ⟨he, hbefore⟩
  · rintro ⟨he, hbefore⟩
    exact .cons he hbefore

/-- Several events may be added at once if each is allowed after those of them that came first. -/
theorem Ordered.append {before : List ε} (h : Ordered allowed before) : ∀ {new : List ε},
    (∀ after e first, new = after ++ e :: first → allowed (first ++ before) e) →
    Ordered allowed (new ++ before) := by
  intro new
  induction new with
  | nil => exact fun _ => h
  | cons e new ih =>
    intro hnew
    refine .cons (hnew [] e new rfl) (ih fun after e' first hsplit => ?_)
    apply hnew (e :: after) e' first
    rw [hsplit, List.cons_append]

/-- **An ordered history** is one in which every event was allowed where it happened. -/
theorem ordered_iff {log : List ε} :
    Ordered allowed log ↔ ∀ after e before, log = after ++ e :: before → allowed before e := by
  constructor
  · intro h
    induction h with
    | nil =>
      intro after e before hsplit
      simp at hsplit
    | cons he _ ih =>
      intro after e before hsplit
      rcases after with _ | ⟨e', after⟩
      · obtain ⟨rfl, rfl⟩ := List.cons.inj hsplit
        exact he
      · exact ih after e before (List.cons.inj hsplit).2
  · intro h
    have happend := @Ordered.append _ allowed [] .nil log
      fun after e first hsplit => by simpa using h after e first hsplit
    simpa using happend

end ConnectRpc.Lib
