import ConnectRpc.Lib.Scale
import ConnectRpc.RequestMetadata

/-!
# The jitter of a connection's age

Every connection gets a maximum age of its own: the configured one, scaled by a random
number of basis points between 9 000 and 11 000. The source computes with `u128`, where a
plain operation panics when it overflows and a saturating one does not tell, and puts the
result back into a `Duration` with two narrowing casts.

`jitter_connection_age` says that none of this ever shows: there is a result for every age
and every sample, it is the exact scaled number of nanoseconds, capped at the largest
`Duration`, and it stays within a tenth of the age.
-/

namespace ConnectRpc

open Lib

/-! ## Durations as they are stored -/

/-- `NANOS_PER_SEC` -/
def NANOS_PER_SEC : ℕ := 1000000000

theorem nanosPerSec_lt : NANOS_PER_SEC < UInt32.size := by
  rw [NANOS_PER_SEC, UInt32.size]
  omega

/-- A `Duration` as the standard library stores it. -/
structure StoredDuration where
  /-- whole seconds -/
  secs : UInt64
  /-- nanoseconds on top -/
  nanos : UInt32
  /-- less than a second -/
  nanos_lt : nanos.toNat < NANOS_PER_SEC

namespace StoredDuration

/-- `Duration::as_nanos`. -/
def asNanos (d : StoredDuration) : ℕ :=
  d.secs.toNat * NANOS_PER_SEC + d.nanos.toNat

/-- `Duration::is_zero`. -/
def isZero (d : StoredDuration) : Bool :=
  d.secs = 0 && d.nanos = 0

/-- `Duration::new`. Nanoseconds that make up seconds are carried over; it panics if the
seconds overflow. -/
def new (secs : UInt64) (nanos : UInt32) : Option StoredDuration :=
  if h : nanos.toNat < NANOS_PER_SEC then some ⟨secs, nanos, h⟩
  else
    let total := secs.toNat + nanos.toNat / NANOS_PER_SEC
    if total ≤ u64Max then
      some ⟨.ofNat total, .ofNat (nanos.toNat % NANOS_PER_SEC), by
        have hmod : nanos.toNat % NANOS_PER_SEC < NANOS_PER_SEC := Nat.mod_lt _ (by decide)
        rw [UInt32.toNat_ofNat_of_lt' (Nat.lt_trans hmod nanosPerSec_lt)]
        exact hmod⟩
    else none

/-- The largest `Duration`, as a numeral. -/
theorem max_eq : @Eq ℕ Duration.MAX 18446744073709551615999999999 := by decide

theorem isZero_iff (d : StoredDuration) : d.isZero = true ↔ d.asNanos = 0 := by
  rw [isZero, Bool.and_eq_true, decide_eq_true_iff, decide_eq_true_iff, asNanos,
    Nat.add_eq_zero_iff, Nat.mul_eq_zero, ← UInt64.toNat_inj, ← UInt32.toNat_inj]
  constructor
  · rintro ⟨hsecs, hnanos⟩
    exact ⟨.inl hsecs, hnanos⟩
  · rintro ⟨hsecs | hpos, hnanos⟩
    · exact ⟨hsecs, hnanos⟩
    · rw [NANOS_PER_SEC] at hpos
      omega

theorem asNanos_le (d : StoredDuration) : d.asNanos ≤ Duration.MAX := by
  have hsecs := d.secs.toNat_lt
  have hnanos := d.nanos_lt
  rw [asNanos, max_eq]
  rw [NANOS_PER_SEC] at hnanos ⊢
  omega

end StoredDuration

/-! ## Arithmetic of 128 bits -/

/-- The largest `u128`. -/
def u128Max : ℕ := 0xFFFFFFFFFFFFFFFFFFFFFFFFFFFFFFFF

/-- The result of a plain operation: it panics if it does not fit. -/
def checkedU128 (n : ℕ) : Option ℕ :=
  if n ≤ u128Max then some n else none

/-- A plain subtraction. -/
def subU128 (a b : ℕ) : Option ℕ :=
  if b ≤ a then some (a - b) else none

/-- A plain division. -/
def divU128 (a b : ℕ) : Option ℕ :=
  if b = 0 then none else some (a / b)

/-- `u128::saturating_mul`. -/
def saturatingMul (a b : ℕ) : ℕ := min (a * b) u128Max

/-- `u128::saturating_add`. -/
def saturatingAdd (a b : ℕ) : ℕ := min (a + b) u128Max

theorem saturatingMul_eq {a b : ℕ} (h : a * b ≤ u128Max) : saturatingMul a b = a * b :=
  Nat.min_eq_left h

theorem saturatingAdd_eq {a b : ℕ} (h : a + b ≤ u128Max) : saturatingAdd a b = a + b :=
  Nat.min_eq_left h

/-! ## The jitter -/

/-- `MAX_CONNECTION_AGE_JITTER_BASIS_POINTS` -/
def MAX_CONNECTION_AGE_JITTER_BASIS_POINTS : ℕ := 10000

/-- `MAX_CONNECTION_AGE_JITTER_SPREAD_BASIS_POINTS` -/
def MAX_CONNECTION_AGE_JITTER_SPREAD_BASIS_POINTS : ℕ := 1000

/-- `duration_from_nanos`. The casts drop what does not fit. -/
def durationFromNanos (nanos : ℕ) : Option StoredDuration :=
  StoredDuration.new (.ofNat (nanos / NANOS_PER_SEC)) (.ofNat (nanos % NANOS_PER_SEC))

/-- `jitter_connection_age`. There is no result where the source panics. -/
def jitterConnectionAge (age : StoredDuration) (sample : UInt64) : Option StoredDuration :=
  if age.isZero then some age
  else do
    let spread ← checkedU128 (MAX_CONNECTION_AGE_JITTER_SPREAD_BASIS_POINTS * 2)
    let product ← checkedU128 (sample.toNat * spread)
    let offset ← divU128 product u64Max
    let least ← subU128 MAX_CONNECTION_AGE_JITTER_BASIS_POINTS
      MAX_CONNECTION_AGE_JITTER_SPREAD_BASIS_POINTS
    let basisPoints ← checkedU128 (least + offset)
    let scaled := saturatingMul age.asNanos basisPoints
    let nanos ←
      if basisPoints < MAX_CONNECTION_AGE_JITTER_BASIS_POINTS then do
        let remainder ← subU128 MAX_CONNECTION_AGE_JITTER_BASIS_POINTS 1
        divU128 (saturatingAdd scaled remainder) MAX_CONNECTION_AGE_JITTER_BASIS_POINTS
      else divU128 scaled MAX_CONNECTION_AGE_JITTER_BASIS_POINTS
    durationFromNanos (min nanos Duration.MAX)

/-- The basis points of a sample. -/
def basisPoints (sample : UInt64) : ℕ :=
  9000 + sample.toNat * 2000 / u64Max

theorem basisPoints_mono {s t : UInt64} (h : s ≤ t) : basisPoints s ≤ basisPoints t :=
  Nat.add_le_add_left (Nat.div_le_div_right (Nat.mul_le_mul_right 2000 (UInt64.le_iff_toNat_le.mp h))) _

theorem basisPoints_range (sample : UInt64) :
    9000 ≤ basisPoints sample ∧ basisPoints sample ≤ 11000 := by
  have hlt := sample.toNat_lt
  have hle : sample.toNat * 2000 / u64Max ≤ 2000 := by
    refine Nat.div_le_of_le_mul ?_
    simp only [u64Max]
    omega
  exact ⟨Nat.le_add_right _ _, Nat.add_le_add_left hle 9000⟩

/-- No product of an age and basis points saturates, nor does rounding it up. -/
theorem scaled_le (age : StoredDuration) (sample : UInt64) :
    age.asNanos * basisPoints sample + 9999 ≤ u128Max := by
  have hage := age.asNanos_le
  rw [StoredDuration.max_eq] at hage
  have hmul : age.asNanos * basisPoints sample ≤ 18446744073709551615999999999 * 11000 :=
    Nat.mul_le_mul hage (basisPoints_range sample).2
  rw [u128Max]
  omega

/-- Nothing is lost in the casts. -/
theorem durationFromNanos_eq {nanos : ℕ} (h : nanos ≤ Duration.MAX) :
    ∃ d, durationFromNanos nanos = some d ∧ d.secs.toNat = nanos / NANOS_PER_SEC ∧
      d.nanos.toNat = nanos % NANOS_PER_SEC ∧ d.asNanos = nanos := by
  have hmod : nanos % NANOS_PER_SEC < NANOS_PER_SEC := Nat.mod_lt _ (by decide)
  have hnanos : (UInt32.ofNat (nanos % NANOS_PER_SEC)).toNat = nanos % NANOS_PER_SEC :=
    UInt32.toNat_ofNat_of_lt' (Nat.lt_trans hmod nanosPerSec_lt)
  have hsecs : (UInt64.ofNat (nanos / NANOS_PER_SEC)).toNat = nanos / NANOS_PER_SEC := by
    refine UInt64.toNat_ofNat_of_lt' (Nat.div_lt_of_lt_mul (Nat.lt_of_le_of_lt h ?_))
    rw [StoredDuration.max_eq, NANOS_PER_SEC, UInt64.size]
    omega
  have hlt : (UInt32.ofNat (nanos % NANOS_PER_SEC)).toNat < NANOS_PER_SEC := by
    rw [hnanos]
    exact hmod
  refine ⟨⟨.ofNat (nanos / NANOS_PER_SEC), .ofNat (nanos % NANOS_PER_SEC), hlt⟩, ?_, hsecs, hnanos,
    ?_⟩
  · rw [durationFromNanos, StoredDuration.new, dif_pos hlt]
  · rw [StoredDuration.asNanos, hsecs, hnanos]
    exact Nat.div_add_mod' nanos NANOS_PER_SEC

/-- **The jitter, computed exactly.** There is a result, and it has the nanoseconds of the
age scaled by the basis points of the sample. -/
theorem jitterConnectionAge_eq (age : StoredDuration) (sample : UInt64) :
    ∃ d, jitterConnectionAge age sample = some d ∧
      d.asNanos = min (scale MAX_CONNECTION_AGE_JITTER_BASIS_POINTS age.asNanos (basisPoints sample)) Duration.MAX := by
  by_cases hzero : age.isZero = true
  · have hnanos := (StoredDuration.isZero_iff age).mp hzero
    refine ⟨age, if_pos hzero, ?_⟩
    have hscale : scale MAX_CONNECTION_AGE_JITTER_BASIS_POINTS 0 (basisPoints sample) = 0 := by
      rw [scale, Nat.zero_mul]
      split
      · rfl
      · rfl
    rw [hnanos, hscale, Nat.zero_min]
  · have hproduct : sample.toNat * 2000 ≤ u128Max := by
      have hlt := sample.toNat_lt
      rw [u128Max]
      omega
    have hpoints : basisPoints sample ≤ u128Max :=
      Nat.le_trans (basisPoints_range sample).2 (by decide)
    have hscaled := scaled_le age sample
    have hmul : age.asNanos * basisPoints sample ≤ u128Max := Nat.le_of_add_right_le hscaled
    obtain ⟨d, hd, -, -, hasNanos⟩ := durationFromNanos_eq
      (Nat.min_le_right (scale MAX_CONNECTION_AGE_JITTER_BASIS_POINTS age.asNanos (basisPoints sample)) Duration.MAX)
    refine ⟨d, ?_, hasNanos⟩
    have hspread : checkedU128 (MAX_CONNECTION_AGE_JITTER_SPREAD_BASIS_POINTS * 2) = some 2000 :=
      rfl
    have hprod : checkedU128 (sample.toNat * 2000) = some (sample.toNat * 2000) := if_pos hproduct
    have hoffset : divU128 (sample.toNat * 2000) u64Max = some (sample.toNat * 2000 / u64Max) :=
      if_neg (by decide)
    have hleast : subU128 MAX_CONNECTION_AGE_JITTER_BASIS_POINTS
      MAX_CONNECTION_AGE_JITTER_SPREAD_BASIS_POINTS = some 9000 := rfl
    have hsum : checkedU128 (9000 + sample.toNat * 2000 / u64Max) = some (basisPoints sample) :=
      if_pos hpoints
    have hremainder : subU128 MAX_CONNECTION_AGE_JITTER_BASIS_POINTS 1 = some 9999 := rfl
    have hdiv : ∀ n, divU128 n MAX_CONNECTION_AGE_JITTER_BASIS_POINTS =
        some (n / MAX_CONNECTION_AGE_JITTER_BASIS_POINTS) := fun n => if_neg (by decide)
    rw [jitterConnectionAge, if_neg hzero, hspread, Option.bind_eq_bind, Option.bind_some, hprod,
      Option.bind_some, hoffset, Option.bind_some, hleast, Option.bind_some, hsum, Option.bind_some]
    dsimp only
    rw [hremainder, Option.bind_some, saturatingMul_eq hmul, saturatingAdd_eq hscaled, hdiv, hdiv,
      Option.bind_some, Option.bind_some]
    by_cases hlt : basisPoints sample < MAX_CONNECTION_AGE_JITTER_BASIS_POINTS
    · rw [scale_of_lt hlt] at hd
      rw [if_pos hlt]
      exact hd
    · rw [scale_of_le (Nat.not_lt.mp hlt)] at hd
      rw [if_neg hlt]
      exact hd

/-- The law of a jittered age: within a tenth of the age and at most the largest `Duration`, zero
only for no age at all, and computed without saturation. -/
structure Jittered (age : StoredDuration) (sample : UInt64) (d : StoredDuration) : Prop where
  /-- nine tenths of the age, rounded up -/
  lower : (9 * age.asNanos + 9) / 10 ≤ d.asNanos
  /-- eleven tenths of the age, rounded down -/
  upper : d.asNanos ≤ min (11 * age.asNanos / 10) Duration.MAX
  /-- an age is left, exactly where there is one -/
  zero : d.asNanos = 0 ↔ age.asNanos = 0
  /-- the value, with products that fit `u128` and a quotient that fits the casts -/
  exact : age.asNanos * basisPoints sample + 9999 ≤ u128Max ∧
    d.asNanos = min (scale MAX_CONNECTION_AGE_JITTER_BASIS_POINTS age.asNanos (basisPoints sample))
      Duration.MAX

theorem jittered_of_asNanos {age d : StoredDuration} {sample : UInt64}
    (h : d.asNanos = min (scale MAX_CONNECTION_AGE_JITTER_BASIS_POINTS age.asNanos
      (basisPoints sample)) Duration.MAX) : Jittered age sample d := by
  obtain ⟨hleast, hmost⟩ := basisPoints_range sample
  have hmax := age.asNanos_le
  have hd : 0 < MAX_CONNECTION_AGE_JITTER_BASIS_POINTS := by decide
  have hlow : (9 * age.asNanos + 9) / 10 =
      scale MAX_CONNECTION_AGE_JITTER_BASIS_POINTS age.asNanos 9000 := by
    rw [scale_of_lt (by decide), MAX_CONNECTION_AGE_JITTER_BASIS_POINTS]
    omega
  have hhigh : 11 * age.asNanos / 10 =
      scale MAX_CONNECTION_AGE_JITTER_BASIS_POINTS age.asNanos 11000 := by
    rw [scale_of_le (by decide), MAX_CONNECTION_AGE_JITTER_BASIS_POINTS]
    omega
  refine ⟨?_, ?_, ?_, scaled_le age sample, h⟩
  · rw [h, hlow]
    exact Nat.le_min.mpr ⟨scale_mono hd (Nat.le_refl _) hleast,
      Nat.le_trans (scale_le_self (by decide)) hmax⟩
  · rw [h, hhigh]
    exact Nat.le_min.mpr ⟨Nat.le_trans (Nat.min_le_left _ _) (scale_mono hd (Nat.le_refl _) hmost),
      Nat.min_le_right _ _⟩
  · constructor
    · intro hzero
      by_contra hage
      have hpos := scale_pos hd (Nat.pos_of_ne_zero hage) (Nat.lt_of_lt_of_le (by decide) hleast)
      have hcap : 0 < Duration.MAX := by decide
      rw [h] at hzero
      exact absurd hzero (Nat.pos_iff_ne_zero.mp (Nat.lt_min.mpr ⟨hpos, hcap⟩))
    · intro hage
      rw [h, hage]
      have hle : scale MAX_CONNECTION_AGE_JITTER_BASIS_POINTS 0 (basisPoints sample) ≤ 0 := by
        rw [hage] at hhigh
        calc scale MAX_CONNECTION_AGE_JITTER_BASIS_POINTS 0 (basisPoints sample)
            ≤ scale MAX_CONNECTION_AGE_JITTER_BASIS_POINTS 0 11000 :=
              scale_mono hd (Nat.le_refl _) hmost
          _ = 0 := hhigh.symm
      rw [Nat.le_zero.mp hle, Nat.zero_min]

/-- **The jitter of a connection's age** stays in range, for every age and every sample, and is
monotone in both. -/
theorem jitter_connection_age (age : StoredDuration) (sample : UInt64) :
    ∃ d, jitterConnectionAge age sample = some d ∧ Jittered age sample d ∧
      ∀ (age' : StoredDuration) (sample' : UInt64) (d' : StoredDuration),
        age.asNanos ≤ age'.asNanos → sample ≤ sample' →
          jitterConnectionAge age' sample' = some d' → d.asNanos ≤ d'.asNanos := by
  obtain ⟨d, hd, hnanos⟩ := jitterConnectionAge_eq age sample
  refine ⟨d, hd, jittered_of_asNanos hnanos, ?_⟩
  intro age' sample' d' hage hsample hd'
  obtain ⟨e, he, henanos⟩ := jitterConnectionAge_eq age' sample'
  obtain rfl : e = d' := Option.some.inj (he.symm.trans hd')
  rw [hnanos, henanos]
  exact min_le_min_right _ (scale_mono (by decide) hage (basisPoints_mono hsample))

/-- The largest age with the largest sample is the largest `Duration`. -/
example : (jitterConnectionAge ⟨.ofNat u64Max, 999999999, by decide⟩ (.ofNat u64Max)).map
    (fun d => (d.secs.toNat, d.nanos.toNat)) = some (u64Max, 999999999) := by decide +kernel

end ConnectRpc
