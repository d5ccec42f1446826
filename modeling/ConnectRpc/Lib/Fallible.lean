import Mathlib.Tactic.Common
import Mathlib.Data.List.Nodup

/-!
# Computations that may fail

A computation that succeeds has succeeded step by step, and so has one over a list.

A generator goes over what it is given and emits something for each, with a state that remembers
what it has emitted. What holds of every step and of two runs after each other holds of the whole
run (`emitAll_rule`). Names are remembered with who took them: `claim` refuses a name that is taken,
so that there is no name twice in what it leaves (`claim_ok`).
-/

namespace ConnectRpc.Lib

variable {ι σ ε α κ ν : Type}

/-! ## Step by step -/

theorem exists_of_map_ok {x : Except ε α} {f : α → ν} {b : ν} (h : x.map f = .ok b) :
    ∃ a, x = .ok a ∧ f a = b := by
  rcases x with e | a
  · cases h
  · exact ⟨a, rfl, Except.ok.inj h⟩

/-- A computation that succeeds has succeeded step by step. -/
theorem exists_of_bind_ok {x : Except ε α} {f : α → Except ε ν} {b : ν} (h : x >>= f = .ok b) :
    ∃ a, x = .ok a ∧ f a = .ok b := by
  rcases x with e | a
  · cases h
  · exact ⟨a, rfl, h⟩

theorem exists_of_forall₂_left {R : ι → α → Prop} {is : List ι} {as : List α}
    (h : List.Forall₂ R is as) {i : ι} (hi : i ∈ is) : ∃ a ∈ as, R i a := by
  induction h with
  | nil => exact absurd hi List.not_mem_nil
  | cons hia _ ih =>
    rcases List.mem_cons.mp hi with rfl | hi
    · exact ⟨_, List.mem_cons_self, hia⟩
    · obtain ⟨a, ha, hr⟩ := ih hi
      exact ⟨a, List.mem_cons_of_mem _ ha, hr⟩

theorem exists_of_forall₂_right {R : ι → α → Prop} {is : List ι} {as : List α}
    (h : List.Forall₂ R is as) {a : α} (ha : a ∈ as) : ∃ i ∈ is, R i a :=
  exists_of_forall₂_left h.flip ha

/-- And one over a list has succeeded for each. -/
theorem forall₂_of_mapM_ok {f : ι → Except ε α} {is : List ι} {as : List α}
    (h : is.mapM f = .ok as) : List.Forall₂ (fun i a => f i = .ok a) is as := by
  induction is generalizing as with
  | nil =>
    cases h
    exact .nil
  | cons i is ih =>
    rw [List.mapM_cons] at h
    obtain ⟨a, ha, h⟩ := exists_of_bind_ok h
    obtain ⟨more, hmore, h⟩ := exists_of_bind_ok h
    cases h
    exact .cons ha (ih hmore)

/-! ## One after another -/

/-- What is emitted for some things after each other. -/
def emitAll (emit : ι → σ → Except ε (List α × σ)) : List ι → σ → Except ε (List α × σ)
  | [], s => .ok ([], s)
  | i :: is, s =>
    match emit i s with
    | .error e => .error e
    | .ok (out, s) =>
      match emitAll emit is s with
      | .error e => .error e
      | .ok (more, s) => .ok (out ++ more, s)

theorem emitAll_cons_ok {emit : ι → σ → Except ε (List α × σ)} {i : ι} {is : List ι} {s s' : σ}
    {out : List α} (h : emitAll emit (i :: is) s = .ok (out, s')) :
    ∃ first middle more, emit i s = .ok (first, middle) ∧
      emitAll emit is middle = .ok (more, s') ∧ out = first ++ more := by
  rw [emitAll] at h
  split at h
  · cases h
  · next first middle hfirst =>
    split at h
    · cases h
    · next more s hmore =>
      cases h
      exact ⟨first, middle, more, hfirst, hmore, rfl⟩

/-- **A run**: what a step keeps, with what it is for and what it emits, is kept by the run. -/
theorem emitAll_rule {emit : ι → σ → Except ε (List α × σ)}
    (R : List ι → σ → List α → σ → Prop) (hnil : ∀ s, R [] s [] s)
    (happend : ∀ (i : ι) (is : List ι) (s s' s'' : σ) (out out' : List α),
      R [i] s out s' → R is s' out' s'' → R (i :: is) s (out ++ out') s'')
    {is : List ι} (hstep : ∀ i ∈ is, ∀ s out s', emit i s = .ok (out, s') → R [i] s out s')
    {s s' : σ} {out : List α} (h : emitAll emit is s = .ok (out, s')) : R is s out s' := by
  induction is generalizing s out with
  | nil =>
    cases h
    exact hnil _
  | cons i is ih =>
    obtain ⟨first, middle, more, hfirst, hmore, rfl⟩ := emitAll_cons_ok h
    have hhead := hstep i List.mem_cons_self s first middle hfirst
    have htail := ih (fun j hj => hstep j (List.mem_cons_of_mem i hj)) hmore
    exact happend i is s middle s' first more hhead htail

/-- A loop that only adds to its state: what each step adds is there at the end. -/
theorem foldl_adds {step : σ → ι → σ} {le : σ → σ → Prop} (hrefl : ∀ s, le s s)
    (htrans : ∀ s s' s'', le s s' → le s' s'' → le s s'') (hstep : ∀ s i, le s (step s i))
    {P : ι → σ → Prop} (hkeep : ∀ i s s', le s s' → P i s → P i s') (hadd : ∀ s i, P i (step s i))
    (is : List ι) (s : σ) : le s (is.foldl step s) ∧ ∀ i ∈ is, P i (is.foldl step s) := by
  induction is generalizing s with
  | nil => exact ⟨hrefl s, fun i hi => absurd hi List.not_mem_nil⟩
  | cons i is ih =>
    obtain ⟨hle, hall⟩ := ih (step s i)
    refine ⟨htrans _ _ _ (hstep s i) hle, fun j hj => ?_⟩
    rcases List.mem_cons.mp hj with rfl | hj
    · exact hkeep j _ _ hle (hadd s j)
    · exact hall j hj

/-! ## Names that are taken -/

variable [DecidableEq κ]

/-- Takes some names, or says which one is taken, by whom, and who wants it. -/
def claim (taken : List (κ × ν)) : List (κ × ν) → Except (κ × ν × ν) (List (κ × ν))
  | [] => .ok taken
  | (name, taker) :: rest =>
    match taken.lookup name with
    | some previous => .error (name, previous, taker)
    | none => claim (taken ++ [(name, taker)]) rest

theorem lookup_eq_none {taken : List (κ × ν)} {name : κ} :
    taken.lookup name = none ↔ name ∉ taken.map Prod.fst := by
  induction taken with
  | nil => simp
  | cons entry taken ih =>
    obtain ⟨key, value⟩ := entry
    rw [List.lookup_cons, List.map_cons, List.mem_cons, not_or]
    by_cases hkey : name = key
    · simp [hkey]
    · rw [beq_false_of_ne hkey, ← ih]
      exact ⟨fun h => ⟨hkey, h⟩, fun h => h.2⟩

/-- **What is taken**: these names after the others, and none of them twice. -/
theorem claim_ok {taken taken' new : List (κ × ν)}
    (h : claim taken new = .ok taken') :
    taken' = taken ++ new ∧
      ((taken.map Prod.fst).Nodup → (taken'.map Prod.fst).Nodup) := by
  induction new generalizing taken with
  | nil =>
    cases h
    exact ⟨(List.append_nil _).symm, id⟩
  | cons entry new ih =>
    obtain ⟨name, taker⟩ := entry
    rw [claim] at h
    split at h
    · cases h
    · next hfree =>
      obtain ⟨htaken, hnodup⟩ := ih h
      refine ⟨by rw [htaken, List.append_assoc]; rfl, fun hbefore => hnodup ?_⟩
      rw [List.map_append, List.map_singleton, List.nodup_append]
      refine ⟨hbefore, List.nodup_singleton _, ?_⟩
      intro a ha b hb
      rw [List.mem_singleton.mp hb]
      rintro rfl
      exact lookup_eq_none.mp hfree ha

end ConnectRpc.Lib
