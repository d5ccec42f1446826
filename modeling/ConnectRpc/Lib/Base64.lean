import ConnectRpc.Lib.Utf8

/-!
# Base64

The standard alphabet, with and without padding, read strictly: no foreign
characters, no bits set past the last byte, and padding exactly as the variant has
it. Encoding without padding and reading back is the identity
(`decodeNoPad_encodeNoPad`), and the padded reader agrees with it where it accepts
at all (`decodePad_encodeNoPad`).
-/

namespace ConnectRpc.Lib.Base64

/-- The character of six bits. -/
def char (n : ℕ) : Char :=
  if n < 26 then Char.ofNat (65 + n)
  else if n < 52 then Char.ofNat (97 + (n - 26))
  else if n < 62 then Char.ofNat (48 + (n - 52))
  else if n = 62 then '+'
  else '/'

/-- The six bits of a character. -/
def value (c : Char) : Option ℕ :=
  let n := c.toNat
  if 65 ≤ n ∧ n ≤ 90 then some (n - 65)
  else if 97 ≤ n ∧ n ≤ 122 then some (n - 97 + 26)
  else if 48 ≤ n ∧ n ≤ 57 then some (n - 48 + 52)
  else if c = '+' then some 62
  else if c = '/' then some 63
  else none

/-- Encode without padding. -/
def encodeNoPad : List UInt8 → List Char
  | [] => []
  | [a] => [char (a.toNat / 4), char (a.toNat % 4 * 16)]
  | [a, b] =>
    [char (a.toNat / 4), char (a.toNat % 4 * 16 + b.toNat / 16), char (b.toNat % 16 * 4)]
  | a :: b :: c :: r =>
    char (a.toNat / 4) :: char (a.toNat % 4 * 16 + b.toNat / 16) ::
      char (b.toNat % 16 * 4 + c.toNat / 64) :: char (c.toNat % 64) :: encodeNoPad r

/-- Two characters that end the text. -/
def last2 (x y : Char) : Option (List UInt8) := do
  let x ← value x
  let y ← value y
  if y % 16 = 0 then some [UInt8.ofNat (x * 4 + y / 16)] else none

/-- Three characters that end the text. -/
def last3 (x y z : Char) : Option (List UInt8) := do
  let x ← value x
  let y ← value y
  let z ← value z
  if z % 4 = 0 then
    some [UInt8.ofNat (x * 4 + y / 16), UInt8.ofNat (y % 16 * 16 + z / 4)]
  else none

/-- A group of four characters. -/
def quad (x y z w : Char) : Option (List UInt8) := do
  let x ← value x
  let y ← value y
  let z ← value z
  let w ← value w
  some [UInt8.ofNat (x * 4 + y / 16), UInt8.ofNat (y % 16 * 16 + z / 4), UInt8.ofNat (z % 4 * 64 + w)]

/-- Read text that must not be padded. -/
def decodeNoPad : List Char → Option (List UInt8)
  | [] => some []
  | [_] => none
  | [x, y] => last2 x y
  | [x, y, z] => last3 x y z
  | x :: y :: z :: w :: r => do
    let g ← quad x y z w
    let t ← decodeNoPad r
    some (g ++ t)

/-- Read text that must be padded to whole groups. -/
def decodePad : List Char → Option (List UInt8)
  | [] => some []
  | x :: y :: z :: w :: r =>
    if r = [] ∧ w = '=' then
      if z = '=' then last2 x y else last3 x y z
    else do
      let g ← quad x y z w
      let t ← decodePad r
      some (g ++ t)
  | _ => none

theorem value_char : ∀ n < 64, value (char n) = some n := by decide

theorem char_ascii : ∀ n < 64, asciiChar (char n) = true := by decide

theorem char_ne_pad : ∀ n < 64, char n ≠ '=' := by decide

theorem quad_encode (a b c : UInt8) :
    quad (char (a.toNat / 4)) (char (a.toNat % 4 * 16 + b.toNat / 16))
      (char (b.toNat % 16 * 4 + c.toNat / 64)) (char (c.toNat % 64)) = some [a, b, c] := by
  have ha := a.toNat_lt
  have hb := b.toNat_lt
  have hc := c.toNat_lt
  simp only [quad, value_char _ (show a.toNat / 4 < 64 by omega),
    value_char _ (show a.toNat % 4 * 16 + b.toNat / 16 < 64 by omega),
    value_char _ (show b.toNat % 16 * 4 + c.toNat / 64 < 64 by omega),
    value_char _ (show c.toNat % 64 < 64 by omega), Option.bind_eq_bind, Option.bind_some]
  rw [show a.toNat / 4 * 4 + (a.toNat % 4 * 16 + b.toNat / 16) / 16 = a.toNat by omega,
    show (a.toNat % 4 * 16 + b.toNat / 16) % 16 * 16 + (b.toNat % 16 * 4 + c.toNat / 64) / 4 =
      b.toNat by omega,
    show (b.toNat % 16 * 4 + c.toNat / 64) % 4 * 64 + c.toNat % 64 = c.toNat by omega]
  simp only [UInt8.ofNat_toNat]

theorem last2_encode (a : UInt8) :
    last2 (char (a.toNat / 4)) (char (a.toNat % 4 * 16)) = some [a] := by
  have ha := a.toNat_lt
  simp only [last2, value_char _ (show a.toNat / 4 < 64 by omega),
    value_char _ (show a.toNat % 4 * 16 < 64 by omega), Option.bind_eq_bind, Option.bind_some]
  rw [if_pos (by omega), show a.toNat / 4 * 4 + a.toNat % 4 * 16 / 16 = a.toNat by omega]
  simp only [UInt8.ofNat_toNat]

theorem last3_encode (a b : UInt8) :
    last3 (char (a.toNat / 4)) (char (a.toNat % 4 * 16 + b.toNat / 16)) (char (b.toNat % 16 * 4)) =
      some [a, b] := by
  have ha := a.toNat_lt
  have hb := b.toNat_lt
  simp only [last3, value_char _ (show a.toNat / 4 < 64 by omega),
    value_char _ (show a.toNat % 4 * 16 + b.toNat / 16 < 64 by omega),
    value_char _ (show b.toNat % 16 * 4 < 64 by omega), Option.bind_eq_bind, Option.bind_some]
  rw [if_pos (by omega),
    show a.toNat / 4 * 4 + (a.toNat % 4 * 16 + b.toNat / 16) / 16 = a.toNat by omega,
    show (a.toNat % 4 * 16 + b.toNat / 16) % 16 * 16 + b.toNat % 16 * 4 / 4 = b.toNat by omega]
  simp only [UInt8.ofNat_toNat]

/-- **Reading back what was encoded.** -/
@[simp] theorem decodeNoPad_encodeNoPad : ∀ bs : List UInt8,
    decodeNoPad (encodeNoPad bs) = some bs
  | [] => rfl
  | [a] => last2_encode a
  | [a, b] => last3_encode a b
  | a :: b :: c :: r => by
    simp only [encodeNoPad, decodeNoPad, quad_encode, decodeNoPad_encodeNoPad r,
      Option.bind_eq_bind, Option.bind_some, List.cons_append, List.nil_append]

/-- The padded reader gives the same bytes where the text needs no padding, and
refuses the text otherwise. -/
theorem decodePad_encodeNoPad : ∀ bs : List UInt8,
    decodePad (encodeNoPad bs) = some bs ∨ decodePad (encodeNoPad bs) = none
  | [] => .inl rfl
  | [_] => .inr rfl
  | [_, _] => .inr rfl
  | a :: b :: c :: r => by
    have hw : char (c.toNat % 64) ≠ '=' := char_ne_pad _ (by omega)
    simp only [encodeNoPad, decodePad, hw, and_false, if_false, quad_encode, Option.bind_eq_bind,
      Option.bind_some]
    rcases decodePad_encodeNoPad r with h | h
    · left
      rw [h]
      rfl
    · right
      rw [h]
      rfl

/-- The encoded text is made of the alphabet. -/
theorem mem_encodeNoPad : ∀ {bs : List UInt8} {x : Char}, x ∈ encodeNoPad bs →
    ∃ n < 64, x = char n
  | [a], x, h => by
    have ha := a.toNat_lt
    simp only [encodeNoPad, List.mem_cons, List.not_mem_nil, or_false] at h
    rcases h with rfl | rfl
    · exact ⟨_, by omega, rfl⟩
    · exact ⟨_, by omega, rfl⟩
  | [a, b], x, h => by
    have ha := a.toNat_lt
    have hb := b.toNat_lt
    simp only [encodeNoPad, List.mem_cons, List.not_mem_nil, or_false] at h
    rcases h with rfl | rfl | rfl
    · exact ⟨_, by omega, rfl⟩
    · exact ⟨_, by omega, rfl⟩
    · exact ⟨_, by omega, rfl⟩
  | a :: b :: c :: r, x, h => by
    have ha := a.toNat_lt
    have hb := b.toNat_lt
    have hc := c.toNat_lt
    simp only [encodeNoPad, List.mem_cons] at h
    rcases h with rfl | rfl | rfl | rfl | h
    · exact ⟨_, by omega, rfl⟩
    · exact ⟨_, by omega, rfl⟩
    · exact ⟨_, by omega, rfl⟩
    · exact ⟨_, by omega, rfl⟩
    · exact mem_encodeNoPad h

end ConnectRpc.Lib.Base64
