import Mathlib.Tactic.Common

/-!
# Variable-length numbers

A number in groups of seven bits, the lowest first, every byte but the last with
its top bit set.
-/

namespace ConnectRpc.Lib.Varint

/-- Write a number, at most `fuel` bytes. -/
def encodeFuel : ℕ → ℕ → List UInt8
  | 0, _ => []
  | k + 1, n =>
    if n < 128 then [UInt8.ofNat n] else UInt8.ofNat (n % 128 + 128) :: encodeFuel k (n / 128)

/-- Write a number. -/
def encode (n : ℕ) : List UInt8 :=
  encodeFuel (n + 1) n

/-- Read a number and return the input after it. -/
def decode : List UInt8 → Option (ℕ × List UInt8)
  | [] => none
  | b :: r =>
    if b.toNat < 128 then some (b.toNat, r)
    else (decode r).map fun p => (b.toNat - 128 + 128 * p.1, p.2)

theorem decode_encodeFuel : ∀ (k n : ℕ) (r : List UInt8), n < k →
    decode (encodeFuel k n ++ r) = some (n, r) := by
  intro k
  induction k with
  | zero => intro n r h; omega
  | succ k ih =>
    intro n r h
    rw [encodeFuel]
    split
    · rename_i hlt
      have hn : (UInt8.ofNat n).toNat = n := by
        rw [UInt8.toNat_ofNat']
        omega
      rw [List.singleton_append, decode, hn, if_pos hlt]
    · rename_i hge
      have hb : (UInt8.ofNat (n % 128 + 128)).toNat = n % 128 + 128 := by
        rw [UInt8.toNat_ofNat']
        omega
      rw [List.cons_append, decode, hb, if_neg (by omega), ih (n / 128) r (by omega)]
      simp only [Option.map_some, Option.some.injEq, Prod.mk.injEq, and_true]
      omega

/-- **Reading back what was written.** -/
theorem decode_encode (n : ℕ) (r : List UInt8) : decode (encode n ++ r) = some (n, r) :=
  decode_encodeFuel _ _ _ (Nat.lt_succ_self n)

theorem decode_shorter : ∀ {b r : List UInt8} {n : ℕ}, decode b = some (n, r) →
    r.length < b.length := by
  intro b
  induction b with
  | nil => intro r n h; cases h
  | cons x b ih =>
    intro r n h
    rw [decode] at h
    split at h
    · cases h
      exact Nat.lt_succ_self _
    · simp only [Option.map_eq_some_iff] at h
      obtain ⟨p, hp, heq⟩ := h
      have hr := ih (r := p.2) (n := p.1) hp
      cases heq
      exact Nat.lt_succ_of_lt hr

end ConnectRpc.Lib.Varint
