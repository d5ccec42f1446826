import ConnectRpc.Lib.Json
import ConnectRpc.Lib.Text

/-!
# JSON text

A compact printer, and a reader for what it prints, with a bound on how deep the
reader follows nesting. `parse_print` says what the reader makes of a printed
value: the value itself if it is not nested deeper than the bound, a refusal if it
is.
-/

namespace ConnectRpc.Lib.JsonText

open Json

/-! ## Printing -/

/-- A lower-case hexadecimal digit. -/
def hexLower (n : ℕ) : Char :=
  if n < 10 then Char.ofNat (48 + n) else Char.ofNat (87 + n)

/-- One character of a string, escaped where it has to be. -/
def escChar (c : Char) : List Char :=
  if c = '"' then ['\\', '"']
  else if c = '\\' then ['\\', '\\']
  else if c.toNat = 8 then ['\\', 'b']
  else if c.toNat = 9 then ['\\', 't']
  else if c.toNat = 10 then ['\\', 'n']
  else if c.toNat = 12 then ['\\', 'f']
  else if c.toNat = 13 then ['\\', 'r']
  else if c.toNat < 32 then
    ['\\', 'u', '0', '0', hexLower (c.toNat / 16), hexLower (c.toNat % 16)]
  else [c]

/-- The characters of a string and the closing quote. -/
def printBody (cs : List Char) : List Char :=
  cs.flatMap escChar ++ ['"']

/-- A string. -/
def printStr (s : String) : List Char :=
  '"' :: printBody s.toList

/-- An integer. -/
def printInt : Int → List Char
  | .ofNat n => Nat.toDigits 10 n
  | .negSucc n => '-' :: Nat.toDigits 10 (n + 1)

/-- A number. -/
def printNumber : Number → List Char
  | .int i => printInt i
  | .decimal m e => printInt m ++ 'e' :: printInt e

mutual

/-- A value. -/
def print : Json → List Char
  | .null => ['n', 'u', 'l', 'l']
  | .bool true => ['t', 'r', 'u', 'e']
  | .bool false => ['f', 'a', 'l', 's', 'e']
  | .num n => printNumber n
  | .str s => printStr s
  | .arr [] => ['[', ']']
  | .arr (v :: vs) => '[' :: (print v ++ printElems vs)
  | .obj [] => ['{', '}']
  | .obj (m :: ms) => '{' :: (printStr m.1 ++ ':' :: (print m.2 ++ printMembers ms))

/-- The elements after the first, and the closing bracket. -/
def printElems : List Json → List Char
  | [] => [']']
  | v :: vs => ',' :: (print v ++ printElems vs)

/-- The members after the first, and the closing brace. -/
def printMembers : List (String × Json) → List Char
  | [] => ['}']
  | m :: ms => ',' :: (printStr m.1 ++ ':' :: (print m.2 ++ printMembers ms))

end

/-! ## Reading -/

/-- The character a one-letter escape stands for. -/
def simpleEscape (c : Char) : Option Char :=
  if c = '"' then some '"'
  else if c = '\\' then some '\\'
  else if c = '/' then some '/'
  else if c = 'b' then some (Char.ofNat 8)
  else if c = 't' then some (Char.ofNat 9)
  else if c = 'n' then some (Char.ofNat 10)
  else if c = 'f' then some (Char.ofNat 12)
  else if c = 'r' then some (Char.ofNat 13)
  else none

/-- The value of a hexadecimal digit. -/
def hexVal (c : Char) : Option ℕ :=
  let n := c.toNat
  if 48 ≤ n ∧ n ≤ 57 then some (n - 48)
  else if 97 ≤ n ∧ n ≤ 102 then some (n - 87)
  else if 65 ≤ n ∧ n ≤ 70 then some (n - 55)
  else none

/-- The character of four hexadecimal digits. -/
def hex4 (a b c d : Char) : Option Char := do
  let a ← hexVal a
  let b ← hexVal b
  let c ← hexVal c
  let d ← hexVal d
  let n := ((a * 16 + b) * 16 + c) * 16 + d
  if n < 0xD800 ∨ 0xDFFF < n then some (Char.ofNat n) else none

/-- One character of a string that is not at its end. -/
def readChar : List Char → Option (Char × List Char)
  | [] => none
  | c :: r =>
    if c = '\\' then
      match r with
      | [] => none
      | e :: r =>
        match simpleEscape e with
        | some c => some (c, r)
        | none =>
          match e, r with
          | 'u', a :: b :: c :: d :: r => (hex4 a b c d).map fun x => (x, r)
          | _, _ => none
    else if c.toNat < 32 then none
    else some (c, r)

/-- The characters of a string up to the closing quote. -/
def readBody : ℕ → List Char → Option (List Char × List Char)
  | 0, _ => none
  | n + 1, cs =>
    if cs.head? = some '"' then some ([], cs.tail)
    else
      match readChar cs with
      | none => none
      | some (c, r) => (readBody n r).map fun p => (c :: p.1, p.2)

/-- A string, the opening quote included. -/
def readStr : List Char → Option (String × List Char)
  | '"' :: r => (readBody r.length r).map fun p => (String.ofList p.1, p.2)
  | _ => none

/-- Decimal digits, at least one. -/
def readDigits (cs : List Char) : Option (ℕ × List Char) :=
  let digits := cs.takeWhile Char.isDigit
  if digits = [] then none
  else some (Nat.ofDigitChars 10 digits 0, cs.dropWhile Char.isDigit)

/-- An integer. -/
def readInt (cs : List Char) : Option (Int × List Char) :=
  if cs.head? = some '-' then (readDigits cs.tail).map fun p => (-(p.1 : Int), p.2)
  else (readDigits cs).map fun p => ((p.1 : Int), p.2)

/-- A number. -/
def readNumber (cs : List Char) : Option (Number × List Char) :=
  match readInt cs with
  | none => none
  | some (m, 'e' :: r) => (readInt r).map fun p => (.decimal m p.1, p.2)
  | some (m, r) => some (.int m, r)

mutual

/-- A value, its nesting at most `d`. -/
def readValue : ℕ → ℕ → List Char → Option (Json × List Char)
  | 0, _, _ => none
  | n + 1, d, cs =>
    match cs with
    | 'n' :: 'u' :: 'l' :: 'l' :: r => some (.null, r)
    | 't' :: 'r' :: 'u' :: 'e' :: r => some (.bool true, r)
    | 'f' :: 'a' :: 'l' :: 's' :: 'e' :: r => some (.bool false, r)
    | '"' :: r => (readStr ('"' :: r)).map fun p => (.str p.1, p.2)
    | '[' :: r =>
      if d = 0 then none
      else if r.head? = some ']' then some (.arr [], r.tail)
      else
        match readValue n (d - 1) r with
        | none => none
        | some (v, r) => (readElems n (d - 1) r).map fun p => (.arr (v :: p.1), p.2)
    | '{' :: r =>
      if d = 0 then none
      else if r.head? = some '}' then some (.obj [], r.tail)
      else
        match readMember n (d - 1) r with
        | none => none
        | some (m, r) => (readMembers n (d - 1) r).map fun p => (.obj (m :: p.1), p.2)
    | cs => (readNumber cs).map fun p => (.num p.1, p.2)

/-- The elements after the first. -/
def readElems : ℕ → ℕ → List Char → Option (List Json × List Char)
  | 0, _, _ => none
  | n + 1, d, cs =>
    match cs with
    | ']' :: r => some ([], r)
    | ',' :: r =>
      match readValue n d r with
      | none => none
      | some (v, r) => (readElems n d r).map fun p => (v :: p.1, p.2)
    | _ => none

/-- One member. -/
def readMember : ℕ → ℕ → List Char → Option ((String × Json) × List Char)
  | 0, _, _ => none
  | n + 1, d, cs =>
    match readStr cs with
    | some (k, ':' :: r) => (readValue n d r).map fun p => ((k, p.1), p.2)
    | _ => none

/-- The members after the first. -/
def readMembers : ℕ → ℕ → List Char → Option (List (String × Json) × List Char)
  | 0, _, _ => none
  | n + 1, d, cs =>
    match cs with
    | '}' :: r => some ([], r)
    | ',' :: r =>
      match readMember n d r with
      | none => none
      | some (m, r) => (readMembers n d r).map fun p => (m :: p.1, p.2)
    | _ => none

end

/-- Read a whole text. -/
def parse (limit : ℕ) (cs : List Char) : Option Json :=
  match readValue (cs.length + 1) limit cs with
  | some (v, []) => some v
  | _ => none

/-! ## Strings -/

theorem hexVal_hexLower : ∀ n < 16, hexVal (hexLower n) = some n := by decide

/-- An escaped character is read back, and does not look like the end. -/
theorem readChar_escChar (c : Char) (r : List Char) :
    readChar (escChar c ++ r) = some (c, r) ∧ (escChar c ++ r).head? ≠ some '"' := by
  have hof : ∀ n, c.toNat = n → c = Char.ofNat n := fun n h => by
    rw [← h, Char.ofNat_toNat]
  unfold escChar
  split
  · rename_i h
    exact ⟨by rw [h]; rfl, by simp⟩
  split
  · rename_i h
    exact ⟨by rw [h]; rfl, by simp⟩
  split
  · rename_i h
    exact ⟨by rw [hof _ h]; rfl, by simp⟩
  split
  · rename_i h
    exact ⟨by rw [hof _ h]; rfl, by simp⟩
  split
  · rename_i h
    exact ⟨by rw [hof _ h]; rfl, by simp⟩
  split
  · rename_i h
    exact ⟨by rw [hof _ h]; rfl, by simp⟩
  split
  · rename_i h
    exact ⟨by rw [hof _ h]; rfl, by simp⟩
  split
  · rename_i h
    have h4 : hex4 '0' '0' (hexLower (c.toNat / 16)) (hexLower (c.toNat % 16)) = some c := by
      simp only [hex4, hexVal_hexLower _ (show c.toNat / 16 < 16 by omega),
        hexVal_hexLower _ (show c.toNat % 16 < 16 by omega),
        show hexVal '0' = some 0 from rfl, Option.bind_eq_bind, Option.bind_some]
      rw [show ((0 * 16 + 0) * 16 + c.toNat / 16) * 16 + c.toNat % 16 = c.toNat by omega,
        if_pos (by omega), Char.ofNat_toNat]
    refine ⟨?_, by simp⟩
    simp only [List.cons_append, List.nil_append, readChar, if_true]
    rw [show simpleEscape 'u' = none from rfl]
    simp only [h4, Option.map_some]
  · rename_i hq hb _ _ _ _ _ h32
    refine ⟨?_, by simpa using hq⟩
    simp only [List.cons_append, List.nil_append, readChar, if_neg hb, if_neg h32]

theorem length_escChar (c : Char) : 0 < (escChar c).length := by
  have h := (readChar_escChar c []).1
  rcases he : escChar c with _ | ⟨x, t⟩
  · rw [he] at h
    cases h
  · exact Nat.succ_pos _

theorem readBody_printBody : ∀ (cs : List Char) (r : List Char) (n : ℕ),
    (printBody cs).length ≤ n → readBody n (printBody cs ++ r) = some (cs, r) := by
  intro cs
  induction cs with
  | nil =>
    intro r n hn
    obtain ⟨n, rfl⟩ : ∃ k, n = k + 1 := ⟨n - 1, by simp only [printBody, List.flatMap_nil,
      List.nil_append, List.length_singleton] at hn; omega⟩
    rfl
  | cons c cs ih =>
    intro r n hn
    have hcons : printBody (c :: cs) = escChar c ++ printBody cs := by
      simp [printBody]
    have hc := length_escChar c
    rw [hcons, List.length_append] at hn
    obtain ⟨n, rfl⟩ : ∃ k, n = k + 1 := ⟨n - 1, by omega⟩
    obtain ⟨hread, hhead⟩ := readChar_escChar c (printBody cs ++ r)
    rw [hcons, List.append_assoc, readBody, if_neg hhead, hread]
    simp only [ih r n (by omega), Option.map_some]

theorem readStr_printStr (s : String) (r : List Char) :
    readStr (printStr s ++ r) = some (s, r) := by
  have hlen : (printBody s.toList).length ≤ (printBody s.toList ++ r).length := by
    rw [List.length_append]
    omega
  simp only [printStr, List.cons_append, readStr, readBody_printBody s.toList r _ hlen,
    Option.map_some, String.ofList_toList]

/-! ## Numbers -/

/-- A text that may follow a value: nothing, or a separator. -/
def Follows (r : List Char) : Prop :=
  r = [] ∨ ∃ c t, r = c :: t ∧ (c = ',' ∨ c = ']' ∨ c = '}')

theorem Follows.not_digit {r : List Char} (h : Follows r) :
    r.head?.all (fun c => !c.isDigit) = true := by
  rcases h with rfl | ⟨c, t, rfl, rfl | rfl | rfl⟩ <;> rfl

theorem digits_append {ds r : List Char} (hd : ∀ c ∈ ds, c.isDigit = true)
    (hr : r.head?.all (fun c => !c.isDigit) = true) :
    (ds ++ r).takeWhile Char.isDigit = ds ∧ (ds ++ r).dropWhile Char.isDigit = r := by
  induction ds with
  | nil =>
    cases r with
    | nil => exact ⟨rfl, rfl⟩
    | cons c r =>
      have hc : c.isDigit = false := by simpa using hr
      simp [hc]
  | cons c ds ih =>
    have hc := hd c (List.mem_cons_self ..)
    obtain ⟨h1, h2⟩ := ih fun x hx => hd x (List.mem_cons_of_mem _ hx)
    simp [hc, h1, h2]

theorem toDigits_isDigit (n : ℕ) : ∀ c ∈ Nat.toDigits 10 n, c.isDigit = true := fun _ hc =>
  Nat.isDigit_of_mem_toDigits (by omega) (by omega) hc

theorem readDigits_toDigits (n : ℕ) {r : List Char}
    (hr : r.head?.all (fun c => !c.isDigit) = true) :
    readDigits (Nat.toDigits 10 n ++ r) = some (n, r) := by
  obtain ⟨h1, h2⟩ := digits_append (toDigits_isDigit n) hr
  simp only [readDigits, h1, h2, if_neg Nat.toDigits_ne_nil, Nat.ofDigitChars_ten_toDigits]

theorem readInt_printInt (i : Int) {r : List Char}
    (hr : r.head?.all (fun c => !c.isDigit) = true) :
    readInt (printInt i ++ r) = some (i, r) := by
  cases i with
  | ofNat n =>
    have hneg : (Nat.toDigits 10 n ++ r).head? ≠ some '-' := by
      rcases hn : Nat.toDigits 10 n with _ | ⟨c, t⟩
      · exact absurd hn Nat.toDigits_ne_nil
      · intro h
        have hc := toDigits_isDigit n c (hn ▸ List.mem_cons_self ..)
        simp only [List.cons_append, List.head?_cons, Option.some.injEq] at h
        rw [h] at hc
        exact absurd hc (by decide)
    simp only [printInt, readInt, if_neg hneg, readDigits_toDigits n hr, Option.map_some]
    rfl
  | negSucc n =>
    simp only [printInt, readInt, List.cons_append, List.head?_cons, List.tail_cons, if_true,
      readDigits_toDigits (n + 1) hr, Option.map_some]
    rfl

theorem readNumber_printNumber (x : Number) {r : List Char} (hr : Follows r) :
    readNumber (printNumber x ++ r) = some (x, r) := by
  cases x with
  | int i =>
    rw [readNumber, printNumber, readInt_printInt i hr.not_digit]
    rcases hr with rfl | ⟨c, t, rfl, rfl | rfl | rfl⟩ <;> rfl
  | decimal m e =>
    rw [printNumber, List.append_assoc, readNumber, readInt_printInt m (by rfl)]
    simp only [List.cons_append, readInt_printInt e hr.not_digit, Option.map_some]

theorem printInt_head (i : Int) : ∃ c t, printInt i = c :: t ∧ (c = '-' ∨ c.isDigit = true) := by
  cases i with
  | ofNat n =>
    rcases hn : Nat.toDigits 10 n with _ | ⟨c, t⟩
    · exact absurd hn Nat.toDigits_ne_nil
    · exact ⟨c, t, hn, .inr (toDigits_isDigit n c (hn ▸ List.mem_cons_self ..))⟩
  | negSucc n => exact ⟨'-', _, rfl, .inl rfl⟩

theorem printNumber_head (x : Number) :
    ∃ c t, printNumber x = c :: t ∧ (c = '-' ∨ c.isDigit = true) := by
  cases x with
  | int i => exact printInt_head i
  | decimal m e =>
    obtain ⟨c, t, h, hc⟩ := printInt_head m
    exact ⟨c, t ++ 'e' :: printInt e, by rw [printNumber, h]; rfl, hc⟩

/-- A number is none of the other kinds of value. -/
theorem readValue_number (n d : ℕ) (x : Number) {r : List Char} (hr : Follows r) :
    readValue (n + 1) d (printNumber x ++ r) = some (.num x, r) := by
  have hread := readNumber_printNumber x hr
  obtain ⟨c, t, h, hc⟩ := printNumber_head x
  rw [h, List.cons_append] at hread ⊢
  have hne : ∀ k : Char, k.isDigit = false → k ≠ '-' → c ≠ k := by
    rintro k hk hk' rfl
    rcases hc with rfl | hc
    · exact hk' rfl
    · rw [hc] at hk
      cases hk
  rw [readValue]
  · rw [hread]
    rfl
  all_goals
    intro a ha
    obtain ⟨rfl, -⟩ := List.cons.inj ha
    exact hne _ (by decide) (by decide) rfl

/-! ## The round trip -/

theorem print_ne_nil (v : Json) : print v ≠ [] := by
  rcases v with _ | b | x | s | vs | ms
  · simp [print]
  · cases b <;> simp [print]
  · obtain ⟨c, t, h, -⟩ := printNumber_head x
    simp [print, h]
  · simp [print, printStr]
  · cases vs <;> simp [print]
  · cases ms <;> simp [print]

/-- A printed value does not start with a closing bracket. -/
theorem print_head (v : Json) (r : List Char) : (print v ++ r).head? ≠ some ']' := by
  rcases v with _ | b | x | s | vs | ms
  · simp [print]
  · cases b <;> simp [print]
  · obtain ⟨c, t, h, hc⟩ := printNumber_head x
    simp only [print, h, List.cons_append, List.head?_cons, ne_eq, Option.some.injEq]
    rintro rfl
    revert hc
    decide
  · simp [print, printStr]
  · cases vs <;> simp [print]
  · cases ms <;> simp [print]

theorem follows_elems (vs : List Json) (r : List Char) : Follows (printElems vs ++ r) := by
  cases vs with
  | nil => exact .inr ⟨']', r, rfl, .inr (.inl rfl)⟩
  | cons v vs => exact .inr ⟨',', _, by rw [printElems]; rfl, .inl rfl⟩

theorem follows_members (ms : List (String × Json)) (r : List Char) :
    Follows (printMembers ms ++ r) := by
  cases ms with
  | nil => exact .inr ⟨'}', r, rfl, .inr (.inr rfl)⟩
  | cons m ms => exact .inr ⟨',', _, by rw [printMembers]; rfl, .inl rfl⟩

mutual

/-- What the reader makes of a printed value. -/
theorem readValue_print : ∀ (v : Json) (n d : ℕ) (r : List Char), (print v).length ≤ n →
    Follows r → readValue n d (print v ++ r) = if v.depth ≤ d then some (v, r) else none
  | .null, n, d, r, hn, _ => by
    obtain ⟨n, rfl⟩ : ∃ k, n = k + 1 := ⟨n - 1, by simp [print] at hn; omega⟩
    simp [print, readValue, depth]
  | .bool b, n, d, r, hn, _ => by
    obtain ⟨n, rfl⟩ : ∃ k, n = k + 1 := ⟨n - 1, by cases b <;> simp [print] at hn <;> omega⟩
    cases b <;> simp [print, readValue, depth]
  | .num x, n, d, r, hn, hr => by
    have hpos := List.length_pos_of_ne_nil (print_ne_nil (.num x))
    obtain ⟨n, rfl⟩ : ∃ k, n = k + 1 := ⟨n - 1, by omega⟩
    rw [print, readValue_number n d x hr]
    simp [depth]
  | .str s, n, d, r, hn, _ => by
    have hpos := List.length_pos_of_ne_nil (print_ne_nil (.str s))
    obtain ⟨n, rfl⟩ : ∃ k, n = k + 1 := ⟨n - 1, by omega⟩
    have hs := readStr_printStr s r
    simp only [print, printStr, List.cons_append, readValue] at hs ⊢
    rw [hs]
    simp [depth]
  | .arr [], n, d, r, hn, _ => by
    obtain ⟨n, rfl⟩ : ∃ k, n = k + 1 := ⟨n - 1, by simp [print] at hn; omega⟩
    cases d <;> simp [print, readValue, depth, depthList]
  | .arr (v :: vs), n, d, r, hn, hr => by
    simp only [print, List.length_cons, List.length_append] at hn
    obtain ⟨n, rfl⟩ : ∃ k, n = k + 1 := ⟨n - 1, by omega⟩
    simp only [print, List.cons_append, List.append_assoc, readValue]
    by_cases hd : d = 0
    · subst hd
      simp [depth]
    · obtain ⟨d, rfl⟩ : ∃ k, d = k + 1 := ⟨d - 1, by omega⟩
      rw [if_neg hd, if_neg (print_head v _), Nat.add_sub_cancel,
        readValue_print v n d _ (by omega) (follows_elems vs r)]
      by_cases hv : v.depth ≤ d
      · rw [if_pos hv]
        simp only [readElems_print vs n d r (by omega)]
        by_cases hvs : depthList vs ≤ d
        · rw [if_pos hvs, if_pos (by rw [depth, depthList]; omega)]
          rfl
        · rw [if_neg hvs, if_neg (by rw [depth, depthList]; omega)]
          rfl
      · rw [if_neg hv, if_neg (by rw [depth, depthList]; omega)]
  | .obj [], n, d, r, hn, _ => by
    obtain ⟨n, rfl⟩ : ∃ k, n = k + 1 := ⟨n - 1, by simp [print] at hn; omega⟩
    cases d <;> simp [print, readValue, depth, depthMembers]
  | .obj ((k, v) :: ms), n, d, r, hn, hr => by
    simp only [print, List.length_cons, List.length_append] at hn
    obtain ⟨n, rfl⟩ : ∃ k, n = k + 1 := ⟨n - 1, by omega⟩
    simp only [print, List.cons_append, List.append_assoc, readValue]
    by_cases hd : d = 0
    · subst hd
      simp [depth]
    · obtain ⟨d, rfl⟩ : ∃ k, d = k + 1 := ⟨d - 1, by omega⟩
      obtain ⟨n, rfl⟩ : ∃ k, n = k + 1 := ⟨n - 1, by omega⟩
      rw [if_neg hd, if_neg (by simp [printStr]), Nat.add_sub_cancel, readMember,
        readStr_printStr]
      simp only [readValue_print v n d _ (by omega) (follows_members ms r)]
      by_cases hv : v.depth ≤ d
      · rw [if_pos hv]
        simp only [Option.map_some, readMembers_print ms (n + 1) d r (by omega)]
        by_cases hms : depthMembers ms ≤ d
        · rw [if_pos hms, if_pos (by rw [depth, depthMembers]; simp only; omega)]
          rfl
        · rw [if_neg hms, if_neg (by rw [depth, depthMembers]; simp only; omega)]
          rfl
      · rw [if_neg hv, if_neg (by rw [depth, depthMembers]; simp only; omega)]
        rfl

/-- What the reader makes of printed elements. -/
theorem readElems_print : ∀ (vs : List Json) (n d : ℕ) (r : List Char),
    (printElems vs).length ≤ n →
      readElems n d (printElems vs ++ r) = if depthList vs ≤ d then some (vs, r) else none
  | [], n, d, r, hn => by
    obtain ⟨n, rfl⟩ : ∃ k, n = k + 1 := ⟨n - 1, by simp [printElems] at hn; omega⟩
    simp [printElems, readElems, depthList]
  | v :: vs, n, d, r, hn => by
    simp only [printElems, List.length_cons, List.length_append] at hn
    obtain ⟨n, rfl⟩ : ∃ k, n = k + 1 := ⟨n - 1, by omega⟩
    simp only [printElems, List.cons_append, List.append_assoc, readElems]
    rw [readValue_print v n d _ (by omega) (follows_elems vs r)]
    by_cases hv : v.depth ≤ d
    · rw [if_pos hv]
      simp only [readElems_print vs n d r (by omega)]
      by_cases hvs : depthList vs ≤ d
      · rw [if_pos hvs, if_pos (by rw [depthList]; omega)]
        rfl
      · rw [if_neg hvs, if_neg (by rw [depthList]; omega)]
        rfl
    · rw [if_neg hv, if_neg (by rw [depthList]; omega)]

/-- What the reader makes of printed members. -/
theorem readMembers_print : ∀ (ms : List (String × Json)) (n d : ℕ) (r : List Char),
    (printMembers ms).length ≤ n →
      readMembers n d (printMembers ms ++ r) =
        if depthMembers ms ≤ d then some (ms, r) else none
  | [], n, d, r, hn => by
    obtain ⟨n, rfl⟩ : ∃ k, n = k + 1 := ⟨n - 1, by simp [printMembers] at hn; omega⟩
    simp [printMembers, readMembers, depthMembers]
  | (k, v) :: ms, n, d, r, hn => by
    simp only [printMembers, List.length_cons, List.length_append] at hn
    obtain ⟨n, rfl⟩ : ∃ k, n = k + 1 := ⟨n - 1, by omega⟩
    obtain ⟨n, rfl⟩ : ∃ k, n = k + 1 := ⟨n - 1, by omega⟩
    simp only [printMembers, List.cons_append, List.append_assoc, readMembers, readMember,
      readStr_printStr]
    rw [readValue_print v n d _ (by omega) (follows_members ms r)]
    by_cases hv : v.depth ≤ d
    · rw [if_pos hv]
      simp only [Option.map_some, readMembers_print ms (n + 1) d r (by omega)]
      by_cases hms : depthMembers ms ≤ d
      · rw [if_pos hms, if_pos (by rw [depthMembers]; simp only; omega)]
        rfl
      · rw [if_neg hms, if_neg (by rw [depthMembers]; simp only; omega)]
        rfl
    · rw [if_neg hv, if_neg (by rw [depthMembers]; simp only; omega)]
      rfl

end

/-- **Reading what was printed.** -/
theorem parse_print (limit : ℕ) (v : Json) :
    parse limit (print v) = if v.depth ≤ limit then some v else none := by
  have h := readValue_print v ((print v).length + 1) limit [] (by omega) (.inl rfl)
  rw [List.append_nil] at h
  rw [parse, h]
  by_cases hd : v.depth ≤ limit
  · simp only [if_pos hd]
  · simp only [if_neg hd]

end ConnectRpc.Lib.JsonText
