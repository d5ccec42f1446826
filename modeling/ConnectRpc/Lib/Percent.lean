import ConnectRpc.Lib.Utf8

/-!
# Percent encoding

Bytes written as ASCII text: a byte of the encode set as `%` and two hexadecimal
digits, any other byte as the character it is. The decoder takes every `%` that
two digits follow for an encoded byte and lets everything else through, so it
inverts the encoder whenever the set contains `%` and all bytes above 127
(`percentDecode_percentEncode`).
-/

namespace ConnectRpc.Lib

/-- An upper-case hexadecimal digit. -/
def hexDigit (n : ℕ) : Char :=
  if n < 10 then Char.ofNat (48 + n) else Char.ofNat (55 + n)

/-- The value of a hexadecimal digit, of either case. -/
def hexValue (b : UInt8) : Option ℕ :=
  let n := b.toNat
  if 48 ≤ n ∧ n ≤ 57 then some (n - 48)
  else if 65 ≤ n ∧ n ≤ 70 then some (n - 55)
  else if 97 ≤ n ∧ n ≤ 102 then some (n - 87)
  else none

/-- One byte. -/
def percentEncodeByte (set : UInt8 → Bool) (b : UInt8) : List Char :=
  if set b then ['%', hexDigit (b.toNat / 16), hexDigit (b.toNat % 16)] else [charOfByte b]

/-- Encode bytes, those of the set as escapes. -/
def percentEncode (set : UInt8 → Bool) (bs : List UInt8) : List Char :=
  bs.flatMap (percentEncodeByte set)

/-- Decode escapes. -/
def percentDecode : List UInt8 → List UInt8
  | [] => []
  | [b] => [b]
  | [b, x] => [b, x]
  | b :: x :: y :: r =>
    if b = 37 then
      match hexValue x, hexValue y with
      | some hi, some lo => UInt8.ofNat (hi * 16 + lo) :: percentDecode r
      | _, _ => b :: percentDecode (x :: y :: r)
    else b :: percentDecode (x :: y :: r)

theorem hexValue_hexDigit : ∀ n < 16, hexValue (byteOfChar (hexDigit n)) = some n := by decide

theorem hexDigit_ascii : ∀ n < 16, asciiChar (hexDigit n) = true := by decide

/-- Decoding an escape. -/
theorem percentDecode_escape (b : UInt8) (r : List UInt8) :
    percentDecode (37 :: byteOfChar (hexDigit (b.toNat / 16)) ::
      byteOfChar (hexDigit (b.toNat % 16)) :: r) = b :: percentDecode r := by
  have hb := b.toNat_lt
  rw [percentDecode, if_pos rfl]
  simp only [hexValue_hexDigit _ (show b.toNat / 16 < 16 by omega),
    hexValue_hexDigit _ (show b.toNat % 16 < 16 by omega)]
  rw [show b.toNat / 16 * 16 + b.toNat % 16 = b.toNat by omega, UInt8.ofNat_toNat]

theorem percentDecode_plain {b : UInt8} (h : b ≠ 37) (r : List UInt8) :
    percentDecode (b :: r) = b :: percentDecode r := by
  rcases r with _ | ⟨x, _ | ⟨y, r⟩⟩
  · rfl
  · rfl
  · rw [percentDecode, if_neg h]

/-- Without `%` there is nothing to decode. -/
theorem percentDecode_of_not_mem {bs : List UInt8} (h : 37 ∉ bs) : percentDecode bs = bs := by
  induction bs with
  | nil => rfl
  | cons b bs ih =>
    have hb : b ≠ 37 := fun hb => h (hb ▸ List.mem_cons_self ..)
    rw [percentDecode_plain hb, ih fun hmem => h (List.mem_cons_of_mem _ hmem)]

section

variable {set : UInt8 → Bool}

/-- The encoded text is ASCII. -/
theorem percentEncode_ascii (hset : ∀ b, 128 ≤ b → set b = true) {bs : List UInt8} {c : Char}
    (h : c ∈ percentEncode set bs) : asciiChar c = true := by
  simp only [percentEncode, List.mem_flatMap, percentEncodeByte] at h
  obtain ⟨b, -, hc⟩ := h
  have hb := b.toNat_lt
  split at hc
  · simp only [List.mem_cons, List.not_mem_nil, or_false] at hc
    rcases hc with rfl | rfl | rfl
    · rfl
    · exact hexDigit_ascii _ (by omega)
    · exact hexDigit_ascii _ (by omega)
  · rename_i hno
    obtain rfl := List.mem_singleton.mp hc
    refine asciiChar_charOfByte ?_
    by_contra hge
    exact hno (hset b (UInt8.not_lt.mp hge))

/-- **Decoding inverts encoding.** -/
theorem percentDecode_percentEncode (hset : ∀ b, 128 ≤ b → set b = true) (hpct : set 37 = true) :
    ∀ bs : List UInt8, percentDecode (utf8 (percentEncode set bs)) = bs := by
  intro bs
  induction bs with
  | nil => rfl
  | cons b bs ih =>
    have hcons : percentEncode set (b :: bs) = percentEncodeByte set b ++ percentEncode set bs := rfl
    have hb := b.toNat_lt
    rw [hcons, utf8_append]
    by_cases hs : set b = true
    · have hbyte : utf8 (percentEncodeByte set b) = [37, byteOfChar (hexDigit (b.toNat / 16)),
          byteOfChar (hexDigit (b.toNat % 16))] := by
        rw [percentEncodeByte, if_pos hs, utf8_ascii]
        · rfl
        · intro c hc
          simp only [List.mem_cons, List.not_mem_nil, or_false] at hc
          rcases hc with rfl | rfl | rfl
          · rfl
          · exact hexDigit_ascii _ (by omega)
          · exact hexDigit_ascii _ (by omega)
      rw [hbyte]
      exact (percentDecode_escape b _).trans (congrArg (b :: ·) ih)
    · have hlt : b < 128 := by
        by_contra hge
        exact hs (hset b (UInt8.not_lt.mp hge))
      have hne : b ≠ 37 := by
        rintro rfl
        exact hs hpct
      have hbyte : utf8 (percentEncodeByte set b) = [b] := by
        rw [percentEncodeByte, if_neg hs, utf8_cons, utf8_charOfByte hlt]
        rfl
      rw [hbyte]
      exact (percentDecode_plain hne _).trans (congrArg (b :: ·) ih)

end

end ConnectRpc.Lib
