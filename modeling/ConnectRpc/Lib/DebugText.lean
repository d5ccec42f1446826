import ConnectRpc.Lib.Text
import ConnectRpc.Lib.Utf8

/-!
# Quoted text

How a text is shown with quotes around it and with what cannot be printed written as escapes.
Which characters cannot be printed is a parameter.

Whatever they are, a character becomes at most six times as long (`size_escapeDebug_le`), and so
does a text, up to the quotes (`size_quoted_le`).
-/

namespace ConnectRpc.Lib

/-- The size of a text in bytes. -/
def size : List Char → ℕ
  | [] => 0
  | c :: cs => c.utf8Size + size cs

@[simp] theorem size_nil : size [] = 0 :=
  rfl

@[simp] theorem size_cons (c : Char) (cs : List Char) : size (c :: cs) = c.utf8Size + size cs :=
  rfl

@[simp] theorem size_append (cs ds : List Char) : size (cs ++ ds) = size cs + size ds := by
  induction cs with
  | nil => exact (Nat.zero_add _).symm
  | cons c cs ih => rw [List.cons_append, size_cons, size_cons, ih, Nat.add_assoc]

/-- It is the size of the string. -/
theorem utf8ByteSize_ofList (cs : List Char) : (String.ofList cs).utf8ByteSize = size cs := by
  induction cs with
  | nil => rfl
  | cons c cs ih =>
    have hcons : String.ofList (c :: cs) = String.ofList [c] ++ String.ofList cs :=
      @String.ofList_append [c] cs
    have hone : (String.ofList [c]).utf8ByteSize = c.utf8Size := by
      rw [← String.singleton_eq_ofList, String.singleton, String.utf8ByteSize_push]
      exact Nat.zero_add _
    rw [hcons, String.utf8ByteSize_append, ih, size_cons, hone]

/-! ## Digits -/

/-- A digit takes one byte. -/
theorem utf8Size_digitChar : ∀ n < 16, (Nat.digitChar n).utf8Size = 1 := by
  decide

/-- The digits of a number take one byte each. -/
theorem size_toDigits {b : ℕ} (hb : 1 < b) (hb' : b ≤ 16) (n : ℕ) :
    size (Nat.toDigits b n) = (Nat.toDigits b n).length := by
  induction n using Nat.strongRecOn with
  | _ n ih =>
    rw [Nat.toDigits_eq_if hb]
    split
    · rename_i hlt
      rw [size_cons, utf8Size_digitChar n (by omega)]
      rfl
    · rename_i hlt
      have hlast := Nat.mod_lt n (Nat.zero_lt_of_lt hb)
      rw [size_append, ih (n / b) (Nat.div_lt_self (by omega) hb), List.length_append, size_cons,
        utf8Size_digitChar (n % b) (by omega)]
      rfl

/-- So many bytes are enough for a number below a power. -/
theorem size_toDigits_le {b k n : ℕ} (hb : 1 < b) (hb' : b ≤ 16) (hk : 0 < k) (h : n < b ^ k) :
    size (Nat.toDigits b n) ≤ k := by
  rw [size_toDigits hb hb']
  exact (Nat.length_toDigits_le_iff hb hk).mpr h

/-! ## Escapes -/

section Escapes

variable (unprintable : Char → Bool)

/-- A character within a quoted text. -/
def escapeDebug (c : Char) : List Char :=
  if c = '\x00' then ['\\', '0']
  else if c = '\t' then ['\\', 't']
  else if c = '\r' then ['\\', 'r']
  else if c = '\n' then ['\\', 'n']
  else if c = '\\' then ['\\', '\\']
  else if c = '"' then ['\\', '"']
  else if unprintable c then ['\\', 'u', '\x7b'] ++ Nat.toDigits 16 c.toNat ++ ['\x7d']
  else [c]

/-- A quoted text. -/
def quoted (cs : List Char) : List Char :=
  '"' :: cs.flatMap (escapeDebug unprintable) ++ ['"']

/-- A character takes at least as many bytes as its number needs. -/
theorem toNat_lt_of_utf8Size (c : Char) :
    c.toNat < 16 ^ 2 ∧ c.utf8Size = 1 ∨ c.toNat < 16 ^ 3 ∧ c.utf8Size = 2 ∨
      c.toNat < 16 ^ 4 ∧ c.utf8Size = 3 ∨ c.toNat < 16 ^ 6 ∧ c.utf8Size = 4 := by
  have hmax : c.toNat < 16 ^ 6 := by
    have hvalid := c.valid
    simp only [UInt32.isValidChar, Nat.isValidChar] at hvalid
    have hnat : c.toNat = c.val.toNat := rfl
    omega
  have hnat : c.toNat = c.val.toNat := rfl
  simp only [Char.utf8Size, UInt32.le_iff_toNat_le, UInt32.toNat_ofNatLT]
  split_ifs
  all_goals omega

/-- **A character becomes at most six times as long.** -/
theorem size_escapeDebug_le (c : Char) : size (escapeDebug unprintable c) ≤ 6 * c.utf8Size := by
  have hpos := c.utf8Size_pos
  have htwo {a b : Char} (ha : a.utf8Size = 1) (hb : b.utf8Size = 1) :
      size [a, b] ≤ 6 * c.utf8Size := by
    rw [size_cons, size_cons, size_nil, ha, hb]
    omega
  rw [escapeDebug]
  split_ifs
  · exact htwo rfl rfl
  · exact htwo rfl rfl
  · exact htwo rfl rfl
  · exact htwo rfl rfl
  · exact htwo rfl rfl
  · exact htwo rfl rfl
  · -- four characters around the digits
    have hdigits : size (Nat.toDigits 16 c.toNat) + 4 ≤ 6 * c.utf8Size := by
      rcases toNat_lt_of_utf8Size c with ⟨hlt, hsize⟩ | ⟨hlt, hsize⟩ | ⟨hlt, hsize⟩ | ⟨hlt, hsize⟩
      all_goals
        have hle := size_toDigits_le (by decide) (by decide) (by decide) hlt
        omega
    have hfour : size ['\\', 'u', '\x7b'] = 3 ∧ size ['\x7d'] = 1 := ⟨rfl, rfl⟩
    rw [size_append, size_append, hfour.1, hfour.2]
    omega
  · rw [size_cons, size_nil]
    omega

/-- **And so does a text**, up to the quotes. -/
theorem size_quoted_le (cs : List Char) : size (quoted unprintable cs) ≤ 6 * size cs + 2 := by
  have hbody : size (cs.flatMap (escapeDebug unprintable)) ≤ 6 * size cs := by
    induction cs with
    | nil => exact Nat.le_refl 0
    | cons c cs ih =>
      have hc := size_escapeDebug_le unprintable c
      rw [List.flatMap_cons, size_append, size_cons]
      omega
  have hquote : ('"' : Char).utf8Size = 1 := rfl
  rw [quoted, size_append, size_cons, size_cons, size_nil, hquote]
  omega

end Escapes

end ConnectRpc.Lib
