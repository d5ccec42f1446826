import Mathlib.Algebra.BigOperators.Group.Finset.Basic
import Mathlib.Algebra.Order.BigOperators.Group.Finset
import Mathlib.Logic.Relation

/-!
# Searching a graph with a worklist

A search that takes a node off a worklist, skips it if it was there before, and puts its
successors on the list. Whatever the graph is, the search visits the nodes that can be
reached from the first one, each once and the first one first (`explore_law`). It ends on
every graph with finitely many nodes within sight (`explore_isSome`).
-/

namespace ConnectRpc.Lib

variable {α : Type} [DecidableEq α]

/-- The search, so many steps of it at most: the nodes visited so far, in order, and the nodes to
look at. -/
def explore (next : α → List α) : ℕ → List α → List α → Option (List α)
  | 0, _, _ => none
  | _ + 1, visited, [] => some visited
  | fuel + 1, visited, a :: work =>
    if a ∈ visited then explore next fuel visited work
    else explore next fuel (visited ++ [a]) (next a ++ work)

/-- One node leads to another. -/
def Leads (next : α → List α) : α → α → Prop :=
  Relation.ReflTransGen fun a b => b ∈ next a

/-- What a search from a root keeps. -/
structure Searching (next : α → List α) (root : α) (visited work : List α) : Prop where
  /-- no node is visited twice -/
  nodup : visited.Nodup
  /-- every node can be reached -/
  sound : ∀ a, a ∈ visited ∨ a ∈ work → Leads next root a
  /-- no successor is forgotten -/
  closed : ∀ a ∈ visited, ∀ b ∈ next a, b ∈ visited ∨ b ∈ work
  /-- the root comes first -/
  first : visited.head? = some root ∨ visited = [] ∧ work.head? = some root

variable {next : α → List α} {root a : α} {visited work out : List α} {fuel : ℕ}

omit [DecidableEq α] in
theorem searching_start : Searching next root [] [root] where
  nodup := List.nodup_nil
  sound := by
    rintro a (h | h)
    · cases h
    · obtain rfl := List.mem_singleton.mp h
      exact .refl
  closed := by
    intro a h
    cases h
  first := .inr ⟨rfl, rfl⟩

omit [DecidableEq α] in
/-- A node that was there before is skipped. -/
theorem Searching.skip (h : Searching next root visited (a :: work)) (ha : a ∈ visited) :
    Searching next root visited work where
  nodup := h.nodup
  sound := fun b hb => h.sound b (hb.imp_right (List.mem_cons_of_mem a))
  closed := by
    intro b hb c hc
    rcases h.closed b hb c hc with hv | hw
    · exact .inl hv
    · rcases List.mem_cons.mp hw with rfl | hw
      · exact .inl ha
      · exact .inr hw
  first := by
    rcases h.first with hfirst | ⟨rfl, -⟩
    · exact .inl hfirst
    · cases ha

omit [DecidableEq α] in
/-- A node that was not is visited. -/
theorem Searching.visit (h : Searching next root visited (a :: work)) (ha : a ∉ visited) :
    Searching next root (visited ++ [a]) (next a ++ work) where
  nodup := by
    refine List.nodup_append.mpr ⟨h.nodup, List.nodup_singleton a, ?_⟩
    rintro b hb c hc rfl
    exact ha (List.mem_singleton.mp hc ▸ hb)
  sound := by
    have hreach := h.sound a (.inr List.mem_cons_self)
    rintro b (hb | hb)
    · rcases List.mem_append.mp hb with hb | hb
      · exact h.sound b (.inl hb)
      · rw [List.mem_singleton.mp hb]
        exact hreach
    · rcases List.mem_append.mp hb with hb | hb
      · exact hreach.tail hb
      · exact h.sound b (.inr (List.mem_cons_of_mem a hb))
  closed := by
    intro b hb c hc
    rcases List.mem_append.mp hb with hb | hb
    · rcases h.closed b hb c hc with hv | hw
      · exact .inl (List.mem_append_left [a] hv)
      · rcases List.mem_cons.mp hw with rfl | hw
        · exact .inl (List.mem_append_right visited (List.mem_singleton_self c))
        · exact .inr (List.mem_append_right (next a) hw)
    · rw [List.mem_singleton.mp hb] at hc
      exact .inr (List.mem_append_left work hc)
  first := by
    rcases h.first with hfirst | ⟨rfl, hfirst⟩
    · refine .inl ?_
      rw [List.head?_append, hfirst]
      rfl
    · exact .inl hfirst

omit [DecidableEq α] in
/-- Where nothing is left to look at, everything was visited. -/
theorem Searching.complete (h : Searching next root visited []) :
    ∀ a, a ∈ visited ↔ Leads next root a := by
  intro a
  refine ⟨fun ha => h.sound a (.inl ha), fun ha => ?_⟩
  induction ha with
  | refl =>
    rcases h.first with hfirst | ⟨-, hfirst⟩
    · exact List.mem_of_mem_head? hfirst
    · cases hfirst
  | tail _ hb ih =>
    rcases h.closed _ ih _ hb with hv | hw
    · exact hv
    · cases hw

/-- What a search that has ended gives. -/
theorem Searching.explore (h : Searching next root visited work)
    (hout : explore next fuel visited work = some out) :
    out.head? = some root ∧ out.Nodup ∧ ∀ a, a ∈ out ↔ Leads next root a := by
  induction fuel generalizing visited work with
  | zero => cases hout
  | succ fuel ih =>
    cases work with
    | nil =>
      obtain rfl := Option.some.inj hout
      refine ⟨?_, h.nodup, h.complete⟩
      rcases h.first with hfirst | ⟨-, hfirst⟩
      · exact hfirst
      · cases hfirst
    | cons a work =>
      rw [Lib.explore] at hout
      by_cases ha : a ∈ visited
      · rw [if_pos ha] at hout
        exact ih (h.skip ha) hout
      · rw [if_neg ha] at hout
        exact ih (h.visit ha) hout

/-- **The search** visits what can be reached, each node once and the root first. -/
theorem explore_law (hout : explore next fuel [] [root] = some out) :
    out.head? = some root ∧ out.Nodup ∧ ∀ a, a ∈ out ↔ Leads next root a :=
  searching_start.explore hout

/-- How many steps are left, where only these nodes are within sight. -/
def stepsLeft (next : α → List α) (within : Finset α) (visited work : List α) : ℕ :=
  work.length + ∑ a ∈ within \ visited.toFinset, (next a).length

theorem stepsLeft_visit {within : Finset α} (hwithin : a ∈ within) (ha : a ∉ visited) :
    stepsLeft next within (visited ++ [a]) (next a ++ work) + 1 =
      stepsLeft next within visited (a :: work) := by
  have hmem : a ∈ within \ visited.toFinset :=
    Finset.mem_sdiff.mpr ⟨hwithin, fun h => ha (List.mem_toFinset.mp h)⟩
  have hrest : within \ (visited ++ [a]).toFinset = (within \ visited.toFinset).erase a := by
    ext b
    simp only [Finset.mem_sdiff, Finset.mem_erase, List.mem_toFinset, List.mem_append,
      List.mem_singleton]
    tauto
  have hsum := Finset.add_sum_erase (within \ visited.toFinset) (fun a => (next a).length) hmem
  rw [stepsLeft, stepsLeft, hrest, ← hsum, List.length_append, List.length_cons]
  omega

/-- A search over finitely many nodes ends. -/
theorem explore_isSome {within : Finset α} (hclosed : ∀ a ∈ within, ∀ b ∈ next a, b ∈ within)
    (hwork : ∀ a ∈ work, a ∈ within) (hfuel : stepsLeft next within visited work < fuel) :
    (explore next fuel visited work).isSome = true := by
  induction fuel generalizing visited work with
  | zero => cases hfuel
  | succ fuel ih =>
    cases work with
    | nil => rfl
    | cons a work =>
      have ha := hwork a List.mem_cons_self
      have hrest : ∀ b ∈ work, b ∈ within := fun b hb => hwork b (List.mem_cons_of_mem a hb)
      rw [explore]
      by_cases hv : a ∈ visited
      · rw [if_pos hv]
        refine ih hrest ?_
        rw [stepsLeft, List.length_cons] at hfuel
        rw [stepsLeft]
        omega
      · have hsteps : stepsLeft next within (visited ++ [a]) (next a ++ work) + 1 = _ :=
          stepsLeft_visit ha hv
        rw [if_neg hv]
        refine ih (fun b hb => ?_) (by omega)
        rcases List.mem_append.mp hb with hb | hb
        · exact hclosed a ha b hb
        · exact hrest b hb

/-- More steps change nothing, once the search has ended. -/
theorem explore_succ (hout : explore next fuel visited work = some out) :
    explore next (fuel + 1) visited work = some out := by
  induction fuel generalizing visited work with
  | zero => cases hout
  | succ fuel ih =>
    cases work with
    | nil => exact hout
    | cons a work =>
      rw [explore] at hout ⊢
      by_cases ha : a ∈ visited
      · rw [if_pos ha] at hout ⊢
        exact ih hout
      · rw [if_neg ha] at hout ⊢
        exact ih hout

theorem explore_mono {fuel' : ℕ} (hle : fuel ≤ fuel')
    (hout : explore next fuel visited work = some out) :
    explore next fuel' visited work = some out := by
  induction hle with
  | refl => exact hout
  | step _ ih => exact explore_succ ih

end ConnectRpc.Lib
