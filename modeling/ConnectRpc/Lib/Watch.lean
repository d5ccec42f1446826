import ConnectRpc.Lib.Poll
import Mathlib.Data.List.Destutter

/-!
# Watch channels

A **watch channel** keeps one value. Its sender may replace the value; each receiver remembers
which version it has seen, and is given the value that is there when it looks. So a receiver that
looks seldom misses values, but not the last.

What a channel goes through is told by a log, of which each value differs from the one before
(`changes`). `Logged` ties a channel to its log, and `Follows` what a receiver was given: some of
the log, in order, from where it began (`Follows.poll`).
-/

namespace ConnectRpc.Lib

universe u

variable {α : Type u}

/-- A channel. -/
structure Channel (α : Type u) where
  /-- the value -/
  value : α
  /-- how often it was replaced -/
  version : ℕ
  /-- whether the sender is gone -/
  closed : Bool

/-- What a receiver answers next, of a channel of which it has seen the version `seen`, and what
it has seen then. -/
def pollChannel (c : Channel α) (seen : Option ℕ) : Poll (Option α) × Option ℕ :=
  if seen = some c.version then
    (if c.closed then .ready none else .pending, seen)
  else (.ready (some c.value), some c.version)

namespace Channel

/-- A new channel. -/
def new (value : α) : Channel α := ⟨value, 0, false⟩

/-- Replaces the value, unless it is the same. -/
def set [DecidableEq α] (value : α) (c : Channel α) : Channel α :=
  if c.value = value then c else { c with value := value, version := c.version + 1 }

/-- Lets go of the sender. -/
def close (c : Channel α) : Channel α := { c with closed := true }

@[simp] theorem closed_set [DecidableEq α] (value : α) (c : Channel α) :
    (c.set value).closed = c.closed := by
  unfold set
  split
  · rfl
  · rfl

@[simp] theorem value_set [DecidableEq α] (value : α) (c : Channel α) :
    (c.set value).value = value := by
  unfold set
  split
  · assumption
  · rfl

/-- To set a value again changes nothing. -/
theorem set_set [DecidableEq α] (value : α) (c : Channel α) :
    (c.set value).set value = c.set value :=
  if_pos (value_set value c)

end Channel

/-! ## The log of a channel -/

section Changes

variable [DecidableEq α]

/-- Some values, without those that are the same as the one before. -/
def changes (values : List α) : List α :=
  values.destutter (· ≠ ·)

theorem destutter'_concat (a v : α) (l : List α) :
    (l ++ [v]).destutter' (· ≠ ·) a =
      if (a :: l).getLast (List.cons_ne_nil a l) = v then l.destutter' (· ≠ ·) a
      else l.destutter' (· ≠ ·) a ++ [v] := by
  induction l generalizing a with
  | nil => by_cases h : a = v <;> simp [h]
  | cons b l ih =>
    rw [List.cons_append, List.getLast_cons (List.cons_ne_nil b l)]
    by_cases h : a = b
    · subst h
      rw [List.destutter'_cons_neg _ (by simp), List.destutter'_cons_neg _ (by simp), ih]
    · rw [List.destutter'_cons_pos _ h, List.destutter'_cons_pos _ h, ih]
      split
      · rfl
      · rfl

/-- One more value changes the last one, or nothing. -/
theorem changes_concat (a v : α) (l : List α) :
    changes (a :: l ++ [v]) =
      if (a :: l).getLast (List.cons_ne_nil a l) = v then changes (a :: l)
      else changes (a :: l) ++ [v] :=
  destutter'_concat a v l

theorem changes_prefix (a v : α) (l : List α) : changes (a :: l) <+: changes (a :: l ++ [v]) := by
  rw [changes_concat]
  split
  · exact List.prefix_rfl
  · exact List.prefix_append _ _

theorem changes_ne_nil (a : α) (l : List α) : changes (a :: l) ≠ [] :=
  List.destutter'_ne_nil l _

/-- The last value is that of the last change. -/
theorem getLast?_changes (a : α) (l : List α) :
    (changes (a :: l)).getLast? = (a :: l).getLast? := by
  induction l using List.reverseRecOn with
  | nil => rfl
  | append_singleton l v ih =>
    have hlast : (a :: (l ++ [v])).getLast? = some v := List.getLast?_concat (l := a :: l)
    rw [hlast, ← List.cons_append, changes_concat]
    split
    · next h => rw [ih, List.getLast?_eq_getLast_of_ne_nil (List.cons_ne_nil a l), h]
    · exact List.getLast?_concat

end Changes

/-- A channel whose log this is. -/
structure Logged (log : List α) (c : Channel α) : Prop where
  /-- it holds the last value -/
  value : log.getLast? = some c.value
  /-- each other one was replaced -/
  version : log.length = c.version + 1

theorem Logged.getElem? {log : List α} {c : Channel α} (h : Logged log c) :
    log[c.version]? = some c.value := by
  have hv := h.value
  rw [List.getLast?_eq_getElem?, h.version] at hv
  exact hv

theorem logged_new [DecidableEq α] (a : α) : Logged (changes [a]) (Channel.new a) :=
  ⟨rfl, rfl⟩

theorem Logged.close {log : List α} {c : Channel α} (h : Logged log c) : Logged log c.close :=
  ⟨h.value, h.version⟩

theorem Logged.set [DecidableEq α] {a : α} {l : List α} {c : Channel α}
    (h : Logged (changes (a :: l)) c) (v : α) : Logged (changes (a :: l ++ [v])) (c.set v) := by
  have hvalue : (a :: l).getLast (List.cons_ne_nil a l) = c.value := by
    have hlast := h.value
    rw [getLast?_changes, List.getLast?_eq_getLast_of_ne_nil (List.cons_ne_nil a l)] at hlast
    exact Option.some.inj hlast
  rw [changes_concat, hvalue, Channel.set]
  split
  · exact h
  · refine ⟨List.getLast?_concat, ?_⟩
    rw [List.length_append, h.version]
    rfl

/-! ## What a receiver is given -/

/-- A receiver that began at the place `start` of the log has seen the version `seen` and was
given `given`. -/
def Follows (log : List α) (start : ℕ) (given : List α) : Option ℕ → Prop
  | none => given = []
  | some v => v < log.length ∧ given.Sublist ((log.take (v + 1)).drop start) ∧
      given.getLast? = log[v]?

namespace Follows

variable {log log' : List α} {start : ℕ} {given : List α} {seen : Option ℕ}

theorem sublist (h : Follows log start given seen) : given.Sublist (log.drop start) := by
  cases seen with
  | none =>
    rw [show given = [] from h]
    exact List.nil_sublist _
  | some v => exact h.2.1.trans ((List.take_sublist _ _).drop start)

/-- The log may go on. -/
theorem mono (h : Follows log start given seen) (hlog : log <+: log') :
    Follows log' start given seen := by
  cases seen with
  | none => exact h
  | some v =>
    obtain ⟨hv, hsub, hlast⟩ := h
    obtain ⟨rest, rfl⟩ := hlog
    refine ⟨?_, ?_, ?_⟩
    · rw [List.length_append]
      exact Nat.lt_add_right _ hv
    · rwa [List.take_append_of_le_length hv]
    · rwa [List.getElem?_append_left hv]

/-- **One poll** of a receiver. It is told to wait, or that there is no more, only when it was
given the last value, and else it is given that one. -/
theorem poll {c : Channel α} (hc : Logged log c) (hstart : start < log.length)
    (h : Follows log start given seen) :
    (seen = some c.version ∧ (pollChannel c seen).2 = seen ∧
      given.getLast? = log.getLast? ∧ given ≠ [] ∧
      (pollChannel c seen).1 = if c.closed then .ready none else .pending) ∨
    ((pollChannel c seen).1 = .ready (some c.value) ∧
      Follows log start (given ++ [c.value]) (pollChannel c seen).2) := by
  by_cases hseen : seen = some c.version
  · subst hseen
    obtain ⟨-, -, hlast⟩ := h
    rw [hc.getElem?, ← hc.value] at hlast
    refine .inl ⟨rfl, ?_, hlast, ?_, ?_⟩
    · rw [pollChannel, if_pos rfl]
    · rintro rfl
      rw [hc.value] at hlast
      cases hlast
    · rw [pollChannel, if_pos rfl]
  · rw [pollChannel, if_neg hseen]
    have hlast : c.version < log.length := by
      rw [hc.version]
      exact Nat.lt_succ_self _
    refine .inr ⟨rfl, hlast, ?_, ?_⟩
    · -- what was given before comes from before the version that is given now
      have hdrop : (log.take (c.version + 1)).drop start =
          (log.take c.version).drop start ++ [c.value] := by
        rw [List.take_add_one, hc.getElem?, Option.toList_some,
          List.drop_append_of_le_length]
        rw [List.length_take, Nat.min_eq_left hlast.le]
        rw [hc.version] at hstart
        exact Nat.lt_succ_iff.mp hstart
      rw [hdrop]
      refine List.Sublist.append ?_ (List.Sublist.refl _)
      cases seen with
      | none =>
        rw [show given = [] from h]
        exact List.nil_sublist _
      | some v =>
        have hv : v + 1 ≤ c.version := by
          have hle := h.1
          have hne : v ≠ c.version := fun he => hseen (congrArg some he)
          rw [hc.version] at hle
          omega
        exact h.2.1.trans ((List.take_prefix_take_left hv).sublist.drop start)
    · rw [List.getLast?_concat, hc.getElem?]

end Follows

end ConnectRpc.Lib
