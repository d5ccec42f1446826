import Mathlib.Tactic.Common
import Mathlib.Data.List.Basic

/-!
# UTF-8 over lists of bytes

The encoding of a text and the validating decoder, over lists of bytes rather
than byte arrays, so that the text in the middle of a longer byte sequence can be
reached by plain list reasoning. The character-level facts are core's
(`ByteArray.utf8DecodeChar?`); here they are carried to whole texts: the decoder
inverts the encoder (`decodeUtf8_utf8`) and accepts nothing else
(`utf8_of_decodeUtf8`).
-/

namespace ConnectRpc.Lib

/-- The UTF-8 bytes of some characters. -/
def utf8 (cs : List Char) : List UInt8 :=
  cs.flatMap String.utf8EncodeChar

/-- The first character of a byte sequence, if one starts there. -/
def utf8Head? (bs : List UInt8) : Option Char :=
  bs.toByteArray.utf8DecodeChar? 0

/-- Decode at most `fuel` characters; the whole input must be used up. -/
def decodeUtf8Fuel : ℕ → List UInt8 → Option (List Char)
  | _, [] => some []
  | 0, _ :: _ => none
  | n + 1, b :: bs =>
    match utf8Head? (b :: bs) with
    | none => none
    | some c => (decodeUtf8Fuel n ((b :: bs).drop c.utf8Size)).map (c :: ·)

/-- Decode a byte sequence that must be valid UTF-8. -/
def decodeUtf8 (bs : List UInt8) : Option (List Char) :=
  decodeUtf8Fuel bs.length bs

@[simp] theorem utf8_nil : utf8 [] = [] := rfl

theorem utf8_cons (c : Char) (cs : List Char) :
    utf8 (c :: cs) = String.utf8EncodeChar c ++ utf8 cs := by
  simp [utf8]

@[simp] theorem utf8_append (cs ds : List Char) : utf8 (cs ++ ds) = utf8 cs ++ utf8 ds := by
  simp [utf8]

theorem utf8Head?_encode (c : Char) (bs : List UInt8) :
    utf8Head? (String.utf8EncodeChar c ++ bs) = some c := by
  rw [utf8Head?, List.toByteArray_append]
  exact ByteArray.utf8DecodeChar?_utf8EncodeChar_append

/-- A decoded first character is encoded at the front of the input. -/
theorem append_drop_of_utf8Head? {bs : List UInt8} {c : Char} (h : utf8Head? bs = some c) :
    String.utf8EncodeChar c ++ bs.drop c.utf8Size = bs := by
  obtain ⟨l, hl⟩ := ByteArray.exists_of_utf8DecodeChar?_eq_some h
  have hbs : bs = String.utf8EncodeChar c ++ l.data.toList := by
    have := congrArg (fun b => b.data.toList) hl
    simpa using this
  have hdrop : bs.drop c.utf8Size = l.data.toList := by
    rw [hbs, ← String.length_utf8EncodeChar c, List.drop_left]
  rw [hdrop, ← hbs]

theorem decodeUtf8Fuel_utf8 : ∀ (cs : List Char) (n : ℕ), (utf8 cs).length ≤ n →
    decodeUtf8Fuel n (utf8 cs) = some cs := by
  intro cs
  induction cs with
  | nil => intro n _; simp [decodeUtf8Fuel]
  | cons c cs ih =>
    intro n hn
    have hlen : 0 < (String.utf8EncodeChar c).length := by
      rw [String.length_utf8EncodeChar]
      exact Char.utf8Size_pos c
    rw [utf8_cons, List.length_append] at hn
    obtain ⟨n, rfl⟩ : ∃ m, n = m + 1 := ⟨n - 1, by omega⟩
    rw [utf8_cons]
    rcases hb : String.utf8EncodeChar c ++ utf8 cs with _ | ⟨b, bs⟩
    · have := congrArg List.length hb
      simp only [List.length_append, List.length_nil] at this
      omega
    · simp only [decodeUtf8Fuel]
      rw [← hb, utf8Head?_encode]
      simp only
      rw [← String.length_utf8EncodeChar c, List.drop_left, ih n (by omega)]
      rfl

/-- **Decoding inverts encoding.** -/
@[simp] theorem decodeUtf8_utf8 (cs : List Char) : decodeUtf8 (utf8 cs) = some cs :=
  decodeUtf8Fuel_utf8 cs _ (Nat.le_refl _)

theorem utf8_of_decodeUtf8Fuel : ∀ (n : ℕ) (bs : List UInt8) (cs : List Char),
    decodeUtf8Fuel n bs = some cs → utf8 cs = bs := by
  intro n
  induction n with
  | zero =>
    intro bs cs h
    cases bs with
    | nil => simp only [decodeUtf8Fuel, Option.some.injEq] at h; subst h; rfl
    | cons b bs => cases h
  | succ n ih =>
    intro bs cs h
    cases bs with
    | nil => simp only [decodeUtf8Fuel, Option.some.injEq] at h; subst h; rfl
    | cons b bs =>
      simp only [decodeUtf8Fuel] at h
      rcases hc : utf8Head? (b :: bs) with _ | c
      · rw [hc] at h
        cases h
      · rw [hc] at h
        simp only [Option.map_eq_some_iff] at h
        obtain ⟨ds, hds, rfl⟩ := h
        rw [utf8_cons, ih _ _ hds]
        exact append_drop_of_utf8Head? hc

/-- The decoder accepts nothing but encodings. -/
theorem utf8_of_decodeUtf8 {bs : List UInt8} {cs : List Char} (h : decodeUtf8 bs = some cs) :
    utf8 cs = bs :=
  utf8_of_decodeUtf8Fuel _ _ _ h

theorem utf8_injective {cs ds : List Char} (h : utf8 cs = utf8 ds) : cs = ds := by
  have := decodeUtf8_utf8 cs
  rw [h, decodeUtf8_utf8] at this
  exact (Option.some.inj this).symm

theorem decodeUtf8_eq_some {bs : List UInt8} {cs : List Char} :
    decodeUtf8 bs = some cs ↔ utf8 cs = bs :=
  ⟨utf8_of_decodeUtf8, fun h => h ▸ decodeUtf8_utf8 cs⟩

/-! ## ASCII -/

/-- A character of one byte. -/
def asciiChar (c : Char) : Bool :=
  c.toNat < 128

/-- The character of a byte below 128. -/
def charOfByte (b : UInt8) : Char :=
  Char.ofNat b.toNat

/-- Letters and digits of ASCII. -/
theorem isAlphanum_range {c : Char} (h : c.isAlphanum = true) :
    (65 ≤ c.toNat ∧ c.toNat ≤ 90) ∨ (97 ≤ c.toNat ∧ c.toNat ≤ 122) ∨
      48 ≤ c.toNat ∧ c.toNat ≤ 57 := by
  rcases Bool.or_eq_true_iff.mp h with hletter | hdigit
  · rcases Bool.or_eq_true_iff.mp hletter with hupper | hlower
    · exact .inl (of_decide_eq_true hupper)
    · obtain ⟨h1, h2⟩ := Bool.and_eq_true_iff.mp hlower
      exact .inr (.inl ⟨of_decide_eq_true h1, of_decide_eq_true h2⟩)
  · obtain ⟨h1, h2⟩ := Bool.and_eq_true_iff.mp hdigit
    exact .inr (.inr ⟨of_decide_eq_true h1, of_decide_eq_true h2⟩)

theorem utf8EncodeChar_ascii {c : Char} (h : asciiChar c = true) :
    String.utf8EncodeChar c = [c.val.toUInt8] := by
  refine String.utf8EncodeChar_eq_singleton (Char.utf8Size_eq_one_iff.mpr ?_)
  have hc : c.toNat < 128 := by simpa [asciiChar] using h
  rw [UInt32.le_iff_toNat_le]
  have : c.val.toNat = c.toNat := rfl
  have h127 : (127 : UInt32).toNat = 127 := rfl
  omega

theorem toNat_charOfByte (b : UInt8) : (charOfByte b).toNat = b.toNat := by
  have hb := b.toNat_lt
  have hv : b.toNat.isValidChar := Or.inl (by omega)
  rw [charOfByte, Char.ofNat, dif_pos hv]
  rfl

theorem asciiChar_charOfByte {b : UInt8} (h : b < 128) : asciiChar (charOfByte b) = true := by
  have hb : b.toNat < 128 := by simpa [UInt8.lt_iff_toNat_lt] using h
  simp [asciiChar, toNat_charOfByte, hb]

/-- A byte below 128 is the encoding of its character. -/
theorem utf8_charOfByte {b : UInt8} (h : b < 128) : String.utf8EncodeChar (charOfByte b) = [b] := by
  rw [utf8EncodeChar_ascii (asciiChar_charOfByte h)]
  have hb : (charOfByte b).val.toNat = b.toNat := toNat_charOfByte b
  have hlt := b.toNat_lt
  refine congrArg (fun x => [x]) (UInt8.toNat_inj.mp ?_)
  rw [UInt32.toNat_toUInt8, hb]
  omega

/-- ASCII bytes decode byte by byte. -/
theorem utf8_map_charOfByte {bs : List UInt8} (h : ∀ b ∈ bs, b < 128) :
    utf8 (bs.map charOfByte) = bs := by
  induction bs with
  | nil => rfl
  | cons b bs ih =>
    rw [List.map_cons, utf8_cons, utf8_charOfByte (h b (List.mem_cons_self ..)),
      ih (fun x hx => h x (List.mem_cons_of_mem _ hx))]
    rfl

/-- The byte of an ASCII character. -/
def byteOfChar (c : Char) : UInt8 :=
  c.val.toUInt8

theorem charOfByte_byteOfChar {c : Char} (h : asciiChar c = true) :
    charOfByte (byteOfChar c) = c := by
  have hc : c.val.toNat < 128 := by simpa [asciiChar] using h
  have hb : (byteOfChar c).toNat = c.val.toNat := by
    rw [byteOfChar, UInt32.toNat_toUInt8]
    omega
  have : (charOfByte (byteOfChar c)).toNat = c.toNat := by
    rw [toNat_charOfByte, hb]
    rfl
  exact Char.toNat_inj.mp this

/-- A byte below 128 is that of its character. -/
theorem byteOfChar_charOfByte {b : UInt8} (h : b < 128) : byteOfChar (charOfByte b) = b := by
  have hself := utf8EncodeChar_ascii (asciiChar_charOfByte h)
  rw [utf8_charOfByte h] at hself
  exact (List.cons.inj hself).1.symm

/-- ASCII text encodes character by character. -/
theorem utf8_ascii {cs : List Char} (h : ∀ c ∈ cs, asciiChar c = true) :
    utf8 cs = cs.map byteOfChar := by
  induction cs with
  | nil => rfl
  | cons c cs ih =>
    rw [utf8_cons, utf8EncodeChar_ascii (h c (List.mem_cons_self ..)),
      ih (fun x hx => h x (List.mem_cons_of_mem _ hx))]
    rfl

/-! ## Splitting at ASCII -/

/-- Only the first byte of a character may be below 128. -/
theorem not_mem_tail_utf8EncodeChar {b : UInt8} (h : b < 128) (c : Char) :
    b ∉ (String.utf8EncodeChar c).tail := by
  intro hb
  obtain ⟨i, hi, heq⟩ := List.getElem_of_mem hb
  rw [List.getElem_tail] at heq
  have hfirst : b.IsUTF8FirstByte := by
    have hall : ∀ n < 128, UInt8.ofNat n &&& 0x80 = 0 := by decide
    have hlow := hall b.toNat (by simpa [UInt8.lt_iff_toNat_lt] using h)
    rw [UInt8.ofNat_toNat] at hlow
    exact .inl hlow
  rw [← heq, UInt8.isUTF8FirstByte_getElem_utf8EncodeChar] at hfirst
  exact Nat.succ_ne_zero i hfirst

/-- **A byte below 128 is a character boundary**: text whose encoding has such a byte
falls into what is encoded before it, its character, and what is encoded after it. -/
theorem exists_of_utf8_eq {b : UInt8} (hb : b < 128) {r : List UInt8} :
    ∀ {cs : List Char} {a : List UInt8}, utf8 cs = a ++ b :: r →
      ∃ ds es, cs = ds ++ charOfByte b :: es ∧ utf8 ds = a ∧ utf8 es = r := by
  intro cs
  induction cs with
  | nil =>
    intro a h
    rw [utf8_nil] at h
    exact absurd h.symm (List.append_ne_nil_of_right_ne_nil _ (List.cons_ne_nil _ _))
  | cons c cs ih =>
    intro a h
    rw [utf8_cons] at h
    rcases a with _ | ⟨x, a⟩
    · -- the character at the front starts with the byte, so it is its character
      have hc : charOfByte b = c := by
        have h1 := utf8Head?_encode c (utf8 cs)
        have h2 := utf8Head?_encode (charOfByte b) r
        rw [utf8_charOfByte hb, List.singleton_append, ← List.nil_append (b :: r), ← h, h1] at h2
        exact (Option.some.inj h2).symm
      subst hc
      rw [utf8_charOfByte hb, List.nil_append, List.singleton_append] at h
      exact ⟨[], cs, rfl, rfl, (List.cons.inj h).2⟩
    · obtain ⟨y, ys, hy⟩ : ∃ y ys, String.utf8EncodeChar c = y :: ys := by
        rcases hc : String.utf8EncodeChar c with _ | ⟨y, ys⟩
        · have hlen := String.length_utf8EncodeChar c
          rw [hc] at hlen
          exact absurd hlen (Nat.ne_of_lt (Char.utf8Size_pos c))
        · exact ⟨y, ys, rfl⟩
      have htail : b ∉ ys := by
        have := not_mem_tail_utf8EncodeChar hb c
        rwa [hy] at this
      rw [hy, List.cons_append, List.cons_append] at h
      obtain ⟨rfl, hrest⟩ := List.cons.inj h
      rcases List.append_eq_append_iff.mp hrest with ⟨a', rfl, hcs⟩ | ⟨c', hys, hbr⟩
      · obtain ⟨ds, es, rfl, hds, hes⟩ := ih hcs
        exact ⟨c :: ds, es, rfl, by rw [utf8_cons, hds, hy]; rfl, hes⟩
      · rcases c' with _ | ⟨z, c'⟩
        · obtain ⟨ds, es, rfl, hds, hes⟩ := ih (a := []) hbr.symm
          refine ⟨c :: ds, es, rfl, ?_, hes⟩
          rw [utf8_cons, hds, hy, hys]
          simp
        · obtain ⟨rfl, -⟩ := List.cons.inj hbr
          exact absurd (by rw [hys]; simp) htail

end ConnectRpc.Lib
