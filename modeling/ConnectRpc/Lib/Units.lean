import Mathlib.Order.Bounds.Basic

/-!
# Rounding down to a multiple of a unit

A number that is written as a count of some unit, with a bound on the count. What can be
written is not every number; this file says which number at or below a given one is the
largest that can be (`isGreatest_exact`, `isGreatest_finest`, `isGreatest_coarsest`).
-/

namespace ConnectRpc.Lib

section Round

variable {α : Type} [Preorder α] {s : Set α} {f : α → α}

/-- Rounding down is monotone. -/
theorem monotone_of_isGreatest (h : ∀ t, IsGreatest {d ∈ s | d ≤ t} (f t)) : Monotone f :=
  fun t _ htu => (h t).mono (h _) fun _ hd => ⟨hd.1, hd.2.trans htu⟩

/-- What can be written is not rounded. -/
theorem isGreatest_exact {t : α} (h : t ∈ s) : IsGreatest {d ∈ s | d ≤ t} t :=
  ⟨⟨h, le_rfl⟩, fun _ hd => hd.2⟩

end Round

/-- The numbers that are at most `most` of some unit. -/
def countable (most : ℕ) (units : Set ℕ) : Set ℕ :=
  {d | ∃ u ∈ units, ∃ v ≤ most, d = v * u}

variable {most t u : ℕ} {units : Set ℕ}

theorem mem_countable (hu : u ∈ units) (hfits : t / u ≤ most) : t / u * u ∈ countable most units :=
  ⟨u, hu, t / u, hfits, rfl⟩

/-- A unit of which the count fits is the one to round to, if every other is a multiple of it,
or so small that no count of it gets this far. -/
theorem isGreatest_finest (hu : u ∈ units) (hpos : 0 < u) (hfits : t / u ≤ most)
    (hrest : ∀ w ∈ units, u ∣ w ∨ most * w ≤ t / u * u) :
    IsGreatest {d ∈ countable most units | d ≤ t} (t / u * u) := by
  refine ⟨⟨mem_countable hu hfits, Nat.div_mul_le_self t u⟩, ?_⟩
  rintro d ⟨⟨w, hw, v, hv, rfl⟩, hle⟩
  rcases hrest w hw with ⟨k, rfl⟩ | hsmall
  · -- a multiple of a multiple of the unit
    have hmul : v * (u * k) = v * k * u := by rw [Nat.mul_assoc, Nat.mul_comm k]
    rw [hmul] at hle ⊢
    exact Nat.mul_le_mul_right u ((Nat.le_div_iff_mul_le hpos).mpr hle)
  · exact (Nat.mul_le_mul_right w hv).trans hsmall

/-- Where no count fits, the most of the largest unit is as far as one gets. -/
theorem isGreatest_coarsest (hu : u ∈ units) (hfull : most * u ≤ t) (hrest : ∀ w ∈ units, w ≤ u) :
    IsGreatest {d ∈ countable most units | d ≤ t} (most * u) := by
  refine ⟨⟨⟨u, hu, most, le_rfl, rfl⟩, hfull⟩, ?_⟩
  rintro d ⟨⟨w, hw, v, hv, rfl⟩, -⟩
  exact Nat.mul_le_mul hv (hrest w hw)

end ConnectRpc.Lib
