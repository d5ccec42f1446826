import Mathlib.Tactic.Common
import Mathlib.Algebra.Group.Nat.Defs
import Mathlib.Data.List.Basic

/-!
# Trimming, splitting and reading numbers

Operations on lists, as text processing uses them: trimming at both ends,
splitting at every occurrence of a separator, splitting at the first one, and
reading a decimal number. The lemmas say what they do to text put together from
known pieces.
-/

namespace ConnectRpc.Lib

universe u

variable {α : Type u}

/-! ## Trimming -/

/-- Drop from the end while the predicate holds. -/
def trimEnd (p : α → Bool) (l : List α) : List α :=
  (l.reverse.dropWhile p).reverse

/-- Drop from both ends while the predicate holds. -/
def trim (p : α → Bool) (l : List α) : List α :=
  trimEnd p (l.dropWhile p)

/-- Whether nothing would be trimmed. -/
def Trimmed (p : α → Bool) (l : List α) : Prop :=
  l.head?.all (fun a => !p a) = true ∧ l.getLast?.all (fun a => !p a) = true

instance (p : α → Bool) (l : List α) : Decidable (Trimmed p l) :=
  inferInstanceAs (Decidable (_ ∧ _))

theorem dropWhile_of_head {p : α → Bool} {l : List α}
    (h : l.head?.all (fun a => !p a) = true) : l.dropWhile p = l := by
  cases l with
  | nil => rfl
  | cons a l =>
    have ha : p a = false := by simpa using h
    rw [List.dropWhile_cons_of_neg (by simp [ha])]

theorem trimEnd_of_last {p : α → Bool} {l : List α}
    (h : l.getLast?.all (fun a => !p a) = true) : trimEnd p l = l := by
  rw [trimEnd, dropWhile_of_head, List.reverse_reverse]
  rwa [List.head?_reverse]

/-- Trimmed text is left alone. -/
theorem trim_of_trimmed {p : α → Bool} {l : List α} (h : Trimmed p l) : trim p l = l := by
  rw [trim, dropWhile_of_head h.1, trimEnd_of_last h.2]

/-- A character to be trimmed in front of the text goes away. -/
theorem trim_cons {p : α → Bool} {a : α} (h : p a = true) (l : List α) :
    trim p (a :: l) = trim p l := by
  rw [trim, trim, List.dropWhile_cons_of_pos h]

theorem trimEnd_concat {p : α → Bool} {a : α} (h : p a = true) (l : List α) :
    trimEnd p (l ++ [a]) = trimEnd p l := by
  rw [trimEnd, trimEnd, List.reverse_append, List.reverse_singleton, List.singleton_append,
    List.dropWhile_cons_of_pos h]

theorem trimEnd_sublist (p : α → Bool) (l : List α) : (trimEnd p l).Sublist l := by
  have h := (List.dropWhile_suffix p (l := l.reverse)).sublist.reverse
  rwa [List.reverse_reverse] at h

theorem trimEnd_isPrefix (p : α → Bool) (l : List α) : trimEnd p l <+: l := by
  have h := List.dropWhile_suffix p (l := l.reverse)
  rw [← List.reverse_prefix, List.reverse_reverse] at h
  exact h

/-- Where nothing is trimmed in front, a prefix is left. -/
theorem trim_isPrefix {p : α → Bool} {l : List α} (h : l.head?.all (fun a => !p a) = true) :
    trim p l <+: l := by
  rw [trim, dropWhile_of_head h]
  exact trimEnd_isPrefix p l

/-- The ends of a text whose characters are written out, where none that is kept at an end is
written as something to be trimmed. -/
theorem trimmed_flatMap {β : Type*} {p : α → Bool} {q : β → Bool} {f : α → List β}
    (h : ∀ a, p a = false → f a ≠ [] ∧ ∀ b ∈ f a, q b = false) {l : List α}
    (hl : Trimmed p l) : Trimmed q (l.flatMap f) := by
  obtain ⟨hfirst, hlast⟩ := hl
  refine ⟨?_, ?_⟩
  · rcases l with _ | ⟨a, l⟩
    · rfl
    · have ha : p a = false := by simpa using hfirst
      obtain ⟨hne, hall⟩ := h a ha
      rw [List.flatMap_cons, List.head?_append_of_ne_nil _ hne, Option.all_eq_true]
      intro b hb
      rw [hall b (List.mem_of_head? hb)]
      rfl
  · rcases List.eq_nil_or_concat l with rfl | ⟨l, a, rfl⟩
    · rfl
    · have ha : p a = false := by simpa using hlast
      obtain ⟨hne, hall⟩ := h a ha
      rw [List.concat_eq_append, List.flatMap_append, List.flatMap_singleton,
        List.getLast?_append_of_ne_nil _ hne, Option.all_eq_true]
      intro b hb
      rw [hall b (List.mem_of_getLast? hb)]
      rfl

/-! ## Splitting -/

variable [DecidableEq α]

/-- Split at every occurrence of a separator. -/
def splitAll (sep : α) : List α → List (List α)
  | [] => [[]]
  | a :: l =>
    if a = sep then [] :: splitAll sep l
    else
      match splitAll sep l with
      | [] => [[a]]
      | w :: ws => (a :: w) :: ws

/-- Split at the first occurrence of a separator. -/
def splitOnce (sep : α) : List α → Option (List α × List α)
  | [] => none
  | a :: l =>
    if a = sep then some ([], l)
    else (splitOnce sep l).map fun p => (a :: p.1, p.2)

theorem splitAll_ne_nil (sep : α) (l : List α) : splitAll sep l ≠ [] := by
  cases l with
  | nil => simp [splitAll]
  | cons a l =>
    rw [splitAll]
    split
    · simp
    · split <;> simp

/-- A piece without separator, a separator, and the rest. -/
theorem splitAll_append (sep : α) : ∀ {w : List α}, sep ∉ w → ∀ r : List α,
    splitAll sep (w ++ sep :: r) = w :: splitAll sep r := by
  intro w
  induction w with
  | nil => intro _ r; simp [splitAll]
  | cons a w ih =>
    intro hw r
    have ha : a ≠ sep := fun h => hw (h ▸ List.mem_cons_self ..)
    rw [List.cons_append, splitAll, if_neg ha, ih (fun h => hw (List.mem_cons_of_mem _ h))]

/-- A text without separator is one piece. -/
theorem splitAll_of_not_mem {sep : α} : ∀ {w : List α}, sep ∉ w → splitAll sep w = [w] := by
  intro w
  induction w with
  | nil => intro _; rfl
  | cons a w ih =>
    intro hw
    have ha : a ≠ sep := fun h => hw (h ▸ List.mem_cons_self ..)
    rw [splitAll, if_neg ha, ih fun h => hw (List.mem_cons_of_mem _ h)]

/-- The pieces of two texts with a separator between them. -/
theorem splitAll_append_cons (sep : α) (l r : List α) :
    splitAll sep (l ++ sep :: r) = splitAll sep l ++ splitAll sep r := by
  induction l with
  | nil => simp [splitAll]
  | cons a l ih =>
    rw [List.cons_append, splitAll, splitAll, ih]
    split
    · rfl
    · rcases h : splitAll sep l with _ | ⟨w, ws⟩
      · exact absurd h (splitAll_ne_nil sep l)
      · rfl

/-- What stands before a text without separator joins its first piece. -/
theorem splitAll_prepend {sep : α} {w : List α} (hw : sep ∉ w) {l first : List α}
    {rest : List (List α)} (h : splitAll sep l = first :: rest) :
    splitAll sep (w ++ l) = (w ++ first) :: rest := by
  induction w with
  | nil => exact h
  | cons a w ih =>
    have ha : a ≠ sep := fun h => hw (h ▸ List.mem_cons_self ..)
    rw [List.cons_append, splitAll, if_neg ha, ih fun h => hw (List.mem_cons_of_mem _ h)]
    rfl

/-- The pieces are made of what the text is made of. -/
theorem mem_of_mem_splitAll {sep : α} {l : List α} {w : List α} (hw : w ∈ splitAll sep l) {a : α}
    (ha : a ∈ w) : a ∈ l := by
  induction l generalizing w with
  | nil =>
    rw [splitAll, List.mem_singleton] at hw
    exact hw ▸ ha
  | cons b l ih =>
    rw [splitAll] at hw
    split at hw
    · rcases List.mem_cons.mp hw with rfl | hw
      · exact absurd ha List.not_mem_nil
      · exact List.mem_cons_of_mem _ (ih hw ha)
    · rcases h : splitAll sep l with _ | ⟨v, vs⟩
      · exact absurd h (splitAll_ne_nil sep l)
      · rw [h] at hw ih
        rcases List.mem_cons.mp hw with rfl | hw
        · rcases List.mem_cons.mp ha with rfl | ha
          · exact List.mem_cons_self ..
          · exact List.mem_cons_of_mem _ (ih (List.mem_cons_self ..) ha)
        · exact List.mem_cons_of_mem _ (ih (List.mem_cons_of_mem _ hw) ha)

/-- Lines, each ended by the separator. -/
theorem splitAll_flatMap (sep : α) : ∀ {ls : List (List α)}, (∀ w ∈ ls, sep ∉ w) →
    splitAll sep (ls.flatMap (· ++ [sep])) = ls ++ [[]] := by
  intro ls
  induction ls with
  | nil => intro _; rfl
  | cons w ls ih =>
    intro h
    rw [List.flatMap_cons, List.append_assoc, List.singleton_append,
      splitAll_append sep (h w (List.mem_cons_self ..)),
      ih (fun x hx => h x (List.mem_cons_of_mem _ hx))]
    rfl

theorem splitOnce_of_not_mem {sep : α} : ∀ {w : List α}, sep ∉ w → splitOnce sep w = none := by
  intro w
  induction w with
  | nil => intro _; rfl
  | cons a w ih =>
    intro hw
    have ha : a ≠ sep := fun h => hw (h ▸ List.mem_cons_self ..)
    rw [splitOnce, if_neg ha, ih fun h => hw (List.mem_cons_of_mem _ h)]
    rfl

theorem splitOnce_append (sep : α) : ∀ {w : List α}, sep ∉ w → ∀ r : List α,
    splitOnce sep (w ++ sep :: r) = some (w, r) := by
  intro w
  induction w with
  | nil => intro _ r; simp [splitOnce]
  | cons a w ih =>
    intro hw r
    have ha : a ≠ sep := fun h => hw (h ▸ List.mem_cons_self ..)
    rw [List.cons_append, splitOnce, if_neg ha, ih (fun h => hw (List.mem_cons_of_mem _ h))]
    rfl

/-! ## Characters and numbers -/

/-- The Unicode `White_Space` property. -/
def isWhitespace (c : Char) : Bool :=
  let n := c.toNat
  (9 ≤ n && n ≤ 13) || n == 32 || n == 0x85 || n == 0xA0 || n == 0x1680 ||
    (0x2000 ≤ n && n ≤ 0x200A) || n == 0x2028 || n == 0x2029 || n == 0x202F || n == 0x205F ||
    n == 0x3000

/-- Take an optional plus sign off. -/
def dropPlus : List Char → List Char
  | '+' :: ds => ds
  | ds => ds

/-- Read a decimal number, with an optional plus sign, up to a bound. -/
def parseUnsigned (bound : ℕ) (l : List Char) : Option ℕ :=
  let digits := dropPlus l
  if digits ≠ [] ∧ digits.all Char.isDigit = true ∧ Nat.ofDigitChars 10 digits 0 ≤ bound then
    some (Nat.ofDigitChars 10 digits 0)
  else none

/-- Decimal digits, at least one and at most so many. -/
structure IsNumber (most : ℕ) (ds : List Char) : Prop where
  /-- there are some -/
  nonempty : ds ≠ []
  /-- there are not too many -/
  length_le : ds.length ≤ most
  /-- there is nothing else -/
  digits : ∀ c ∈ ds, c.isDigit = true

/-- Digits are a number below the power of ten of their count. -/
theorem ofDigitChars_lt : ∀ {ds : List Char}, (∀ c ∈ ds, c.isDigit = true) →
    Nat.ofDigitChars 10 ds 0 < 10 ^ ds.length := by
  intro ds
  induction ds with
  | nil => exact fun _ => Nat.one_pos
  | cons c ds ih =>
    intro h
    obtain ⟨hc, hds⟩ := List.forall_mem_cons.mp h
    have hrest := ih hds
    have hdigit : c.toNat - '0'.toNat ≤ 9 := by
      rw [Char.isDigit_iff_toNat] at hc
      have hzero : '0'.toNat = 48 := rfl
      have hnine : '9'.toNat = 57 := rfl
      omega
    have hhead := Nat.mul_le_mul_left (10 ^ ds.length) hdigit
    rw [Nat.ofDigitChars_cons, Nat.ofDigitChars_eq_ofDigitChars_zero, List.length_cons,
      Nat.pow_succ, Nat.mul_zero, Nat.zero_add]
    omega

namespace IsNumber

variable {most bound : ℕ} {ds : List Char}

theorem lt (h : IsNumber most ds) : Nat.ofDigitChars 10 ds 0 < 10 ^ most :=
  Nat.lt_of_lt_of_le (ofDigitChars_lt h.digits) (Nat.pow_le_pow_right (by decide) h.length_le)

theorem dropPlus_eq (h : IsNumber most ds) : dropPlus ds = ds := by
  rw [dropPlus.eq_def]
  split
  · exact absurd (h.digits '+' List.mem_cons_self) (by decide)
  · rfl

/-- The digits of a number. -/
theorem toDigits {n : ℕ} (hpos : 0 < most) (h : n < 10 ^ most) : IsNumber most (Nat.toDigits 10 n) where
  nonempty := Nat.toDigits_ne_nil
  length_le := (Nat.length_toDigits_le_iff (by decide) hpos).mpr h
  digits _ hc := Nat.isDigit_of_mem_toDigits (by decide) (by decide) hc

end IsNumber

/-- Either there is no plus sign to take off, or the text starts with it. -/
theorem dropPlus_cases (l : List Char) : dropPlus l = l ∨ ∃ ds, l = '+' :: ds := by
  rw [dropPlus.eq_def]
  split
  · exact .inr ⟨_, rfl⟩
  · exact .inl rfl

/-- What the integer parser of a text this short reads is a number, perhaps after a plus
sign. -/
theorem parseUnsigned_eq_some_iff {most bound n : ℕ} {l : List Char} (hbound : 10 ^ most ≤ bound + 1)
    (hlen : l.length ≤ most) :
    parseUnsigned bound l = some n ↔
      (IsNumber most l ∧ n = Nat.ofDigitChars 10 l 0) ∨
        ∃ ds, l = '+' :: ds ∧ IsNumber (most - 1) ds ∧ n = Nat.ofDigitChars 10 ds 0 := by
  constructor
  · intro h
    rw [parseUnsigned] at h
    split at h
    · rename_i hdigits
      obtain ⟨hne, hall, -⟩ := hdigits
      rw [List.all_eq_true] at hall
      obtain rfl := Option.some.inj h
      rcases dropPlus_cases l with hplain | ⟨ds, rfl⟩
      · rw [hplain] at hne hall ⊢
        exact .inl ⟨⟨hne, hlen, hall⟩, rfl⟩
      · exact .inr ⟨ds, rfl, ⟨hne, Nat.le_sub_one_of_lt hlen, hall⟩, rfl⟩
    · cases h
  · have hread {ds : List Char} (h : IsNumber most ds) (hplus : dropPlus l = ds) :
        parseUnsigned bound l = some (Nat.ofDigitChars 10 ds 0) := by
      have hlt := h.lt
      rw [parseUnsigned, hplus]
      exact if_pos ⟨h.nonempty, List.all_eq_true.mpr h.digits, by omega⟩
    rintro (⟨h, rfl⟩ | ⟨ds, rfl, h, rfl⟩)
    · exact hread h h.dropPlus_eq
    · exact hread ⟨h.nonempty, Nat.le_trans h.length_le (Nat.sub_le _ _), h.digits⟩ rfl

end ConnectRpc.Lib
