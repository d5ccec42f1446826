import ConnectRpc.Comments

/-!
# HTML in comments

Sanitized prose should hold no HTML. A reader of Markdown (`readStep`) passes over code spans,
autolinks and what a backslash escapes; any other angle makes HTML for it (`NoHtml`).

The code recognizes code spans, inline links and autolinks by a scanner for each, and copies them
as they are. What is in a code span is nothing to the reader either. But nobody looks into the
links: an autolink may have blanks in it, and the text of an inline link may be anything.
`sanitizeLine_noHtml` says what comes of it (`verdict`): the output holds no HTML if the reader
finds none in the links that are copied, and it does if he finds some. He may also read on behind a
link in the middle of something else, when a code span or an autolink that begins in the link does
not end there; then both may happen.
-/

namespace ConnectRpc.Comments

open Lib

/-! ## The reader -/

/-- `u8::is_ascii_whitespace`. -/
def isAsciiWhitespace (c : Char) : Bool := [' ', '\t', '\n', '\x0c', '\r'].contains c

/-- What cannot be in an autolink. -/
def spoils (c : Char) : Bool := isAsciiWhitespace c || c == '<'

/-- How far it is to the end of the angle that closes an autolink. -/
def closeAngle : Line → Option ℕ
  | [] => none
  | c :: rest =>
    if c = '>' then some 1
    else if spoils c then none
    else (closeAngle rest).map (· + 1)

/-- How far it is to the end of an autolink, behind its angle. -/
def readAutolink (rest : Line) : Option ℕ :=
  if hasUrlScheme rest then closeAngle rest else none

/-- How many of the characters behind it are read together with a character, unless it is an angle
that makes HTML. -/
def readStep (c : Char) (rest : Line) : Option ℕ :=
  if c = '`' then
    let run := (rest.takeWhile (· == '`')).length
    some (run + (findBacktickCloser (run + 1) 0 (rest.drop run)).getD 0)
  else if c = '\\' then some 1
  else if c = '<' then readAutolink rest
  else if c = '>' then none
  else some 0

/-- Whether the reader finds no HTML behind the characters that he has read already. -/
def readsPlain : ℕ → Line → Bool
  | _, [] => true
  | skip + 1, _ :: rest => readsPlain skip rest
  | 0, c :: rest =>
    match readStep c rest with
    | none => false
    | some n => readsPlain n rest

/-- Outside of code spans, every angle that is not escaped begins or ends an autolink. -/
def NoHtml (line : Line) : Prop := readsPlain 0 line = true

instance : DecidablePred NoHtml := fun line =>
  inferInstanceAs (Decidable (readsPlain 0 line = true))

/-! ## Where the output holds HTML -/

/-- What the reader finds in a link. -/
inductive Verdict : Type where
  /-- no HTML -/
  | quiet
  /-- HTML -/
  | loud
  /-- he does not stop where the link ends -/
  | out
  deriving DecidableEq

/-- What the reader finds in a copied link, when `behind` comes after it. -/
def linkVerdict (behind : Line) : ℕ → Line → Verdict
  | _, [] => .quiet
  | skip + 1, _ :: rest => linkVerdict behind skip rest
  | 0, c :: rest =>
    match readStep c (rest ++ behind) with
    | none => .loud
    | some n => if n ≤ rest.length then linkVerdict behind n rest else .out

/-- How long the link is that begins with a character, not counting that character. -/
def copiedLink (c : Char) (rest : Line) : Option ℕ :=
  if c = '[' then findInlineLinkEnd rest
  else if c = '<' then findAutolinkEnd rest
  else none

def roundVerdict (c : Char) (rest : Line) : Verdict :=
  match copiedLink c rest with
  | some n => linkVerdict (rest.drop n) 0 (c :: rest.take n)
  | none => .quiet

/-- The first link that is not quiet decides. -/
def verdictRounds : ℕ → Line → Verdict
  | 0, _ => .quiet
  | _ + 1, [] => .quiet
  | fuel + 1, c :: rest =>
    match roundVerdict c rest with
    | .quiet => verdictRounds fuel (sanitizeStep c rest).2
    | v => v

def verdict (line : Line) : Verdict := verdictRounds line.length line

/-! ## The runs of backticks -/

theorem findBacktickCloser_le {k : ℕ} : ∀ {l : Line} {run n : ℕ},
    findBacktickCloser k run l = some n → n ≤ l.length := by
  intro l
  induction l with
  | nil =>
    intro run n h
    rw [findBacktickCloser] at h
    split at h
    · cases h
      exact Nat.le_refl _
    · cases h
  | cons c l ih =>
    intro run n h
    have hmap : ∀ r : ℕ, (findBacktickCloser k r l).map (· + 1) = some n → n ≤ (c :: l).length := by
      intro r hr
      obtain ⟨m, hm, rfl⟩ := Option.map_eq_some_iff.mp hr
      exact Nat.succ_le_succ (ih hm)
    rw [findBacktickCloser] at h
    split at h
    · exact hmap _ h
    · split at h
      · cases h
        exact Nat.zero_le _
      · exact hmap _ h

/-- A run has ended where its closer ends. -/
theorem findBacktickCloser_behind {k : ℕ} : ∀ {l : Line} {run n : ℕ},
    findBacktickCloser k run l = some n → (l.drop n).head? ≠ some '`' := by
  intro l
  induction l with
  | nil =>
    intro run n _
    rw [List.drop_nil]
    exact fun h => by cases h
  | cons c l ih =>
    intro run n h
    have hmap : ∀ r : ℕ, (findBacktickCloser k r l).map (· + 1) = some n →
        ((c :: l).drop n).head? ≠ some '`' := by
      intro r hr
      obtain ⟨m, hm, rfl⟩ := Option.map_eq_some_iff.mp hr
      exact ih hm
    rw [findBacktickCloser] at h
    split at h
    · exact hmap _ h
    · next hc =>
      split at h
      · cases h
        exact fun hhead => hc (Option.some.inj hhead)
      · exact hmap _ h

/-- A closer is found again, whatever comes behind it. -/
theorem findBacktickCloser_take {k : ℕ} {o : Line} (ho : o.head? ≠ some '`') :
    ∀ {l : Line} {run n : ℕ}, findBacktickCloser k run l = some n →
      findBacktickCloser k run (l.take n ++ o) = some n := by
  have hend : findBacktickCloser k k o = some 0 := by
    cases o with
    | nil => rw [findBacktickCloser, if_pos rfl]
    | cons d o =>
      have hd : d ≠ '`' := fun hd => ho (congrArg some hd)
      rw [findBacktickCloser, if_neg hd, if_pos rfl]
  intro l
  induction l with
  | nil =>
    intro run n h
    rw [findBacktickCloser] at h
    split at h
    · next hrun =>
      cases h
      rw [hrun]
      exact hend
    · cases h
  | cons c l ih =>
    intro run n h
    rw [findBacktickCloser] at h
    split at h
    · next hc =>
      obtain ⟨m, hm, rfl⟩ := Option.map_eq_some_iff.mp h
      rw [List.take_succ_cons, List.cons_append, findBacktickCloser, if_pos hc, ih hm]
      rfl
    · next hc =>
      split at h
      · next hrun =>
        cases h
        rw [hrun]
        exact hend
      · next hrun =>
        obtain ⟨m, hm, rfl⟩ := Option.map_eq_some_iff.mp h
        rw [List.take_succ_cons, List.cons_append, findBacktickCloser, if_neg hc, if_neg hrun,
          ih hm]
        rfl

/-- The runs in a text that does not end with one, and those behind it. -/
theorem findBacktickCloser_append {k : ℕ} (hk : k ≠ 0) {d : Char} (hd : d ≠ '`') (o : Line) :
    ∀ (l : Line) (run : ℕ), findBacktickCloser k run (l ++ d :: o) =
      (findBacktickCloser k run (l ++ [d])).or
        ((findBacktickCloser k 0 o).map (· + (l.length + 1))) := by
  intro l
  induction l with
  | nil =>
    intro run
    rw [List.nil_append, List.nil_append, findBacktickCloser, findBacktickCloser, if_neg hd,
      if_neg hd, findBacktickCloser, if_neg hk.symm]
    split
    · rfl
    · rfl
  | cons c l ih =>
    intro run
    have hmap : ∀ r : ℕ, (findBacktickCloser k r (l ++ d :: o)).map (· + 1) =
        ((findBacktickCloser k r (l ++ [d])).map (· + 1)).or
          ((findBacktickCloser k 0 o).map (· + ((c :: l).length + 1))) := by
      intro r
      rw [ih r, Option.map_or, Option.map_map]
      rfl
    rw [List.cons_append, List.cons_append, findBacktickCloser, findBacktickCloser]
    split
    · exact hmap _
    · split
      · rfl
      · exact hmap _

/-! ## Rounds -/

/-- What a round takes, leaves and writes. -/
inductive Round : Char → Line → Line → Line → Prop where
  /-- a code span -/
  | span {rest : Line} {n : ℕ}
      (h : findBacktickCloser ((rest.takeWhile (· == '`')).length + 1) 0
        (rest.dropWhile (· == '`')) = some n) :
      Round '`' rest ('`' :: rest.takeWhile (· == '`') ++ (rest.dropWhile (· == '`')).take n)
        ((rest.dropWhile (· == '`')).drop n)
  /-- backticks that nothing closes -/
  | ticks {rest : Line}
      (h : findBacktickCloser ((rest.takeWhile (· == '`')).length + 1) 0
        (rest.dropWhile (· == '`')) = none) :
      Round '`' rest ('`' :: rest.takeWhile (· == '`')) (rest.dropWhile (· == '`'))
  /-- a backslash and what it escapes -/
  | pair {rest : Line} : Round '\\' rest ('\\' :: rest.take 1) (rest.drop 1)
  /-- a link -/
  | link {c : Char} {rest : Line} {n : ℕ} (h : copiedLink c rest = some n) :
      Round c rest (c :: rest.take n) (rest.drop n)
  /-- a bracket or an angle that is escaped -/
  | escape {c : Char} {rest : Line} (hc : c ∈ ['[', ']', '<', '>'])
      (h : copiedLink c rest = none) : Round c rest ['\\', c] rest
  /-- a URL that is wrapped -/
  | url {rest : Line} {n : ℕ} (h : findBareUrlEnd ('h' :: rest) = some n) :
      Round 'h' rest ('<' :: ('h' :: rest).take n ++ ['>']) (('h' :: rest).drop n)
  /-- any other character -/
  | other {c : Char} {rest : Line} (hc : c ∉ ['`', '\\', '[', ']', '<', '>']) :
      Round c rest [c] rest

theorem sanitizeStep_round (c : Char) (rest : Line) :
    Round c rest (sanitizeStep c rest).1 (sanitizeStep c rest).2 := by
  unfold sanitizeStep
  by_cases hticks : c = '`'
  · subst hticks
    rw [if_pos rfl]
    dsimp only
    split
    · next n h => exact .span h
    · next h => exact .ticks h
  rw [if_neg hticks]
  by_cases hback : c = '\\'
  · subst hback
    rw [if_pos rfl]
    exact .pair
  rw [if_neg hback]
  by_cases hopen : c = '['
  · subst hopen
    rw [if_pos rfl]
    split
    · next n h => exact .link h
    · next h => exact .escape (by decide) h
  rw [if_neg hopen]
  by_cases hclose : c = ']'
  · subst hclose
    rw [if_pos rfl]
    exact .escape (by decide) rfl
  rw [if_neg hclose]
  by_cases hless : c = '<'
  · subst hless
    rw [if_pos rfl]
    split
    · next n h => exact .link h
    · next h => exact .escape (by decide) h
  rw [if_neg hless]
  by_cases hmore : c = '>'
  · subst hmore
    rw [if_pos rfl]
    exact .escape (by decide) rfl
  rw [if_neg hmore]
  have hother : c ∉ ['`', '\\', '[', ']', '<', '>'] := by
    simp [hticks, hback, hopen, hclose, hless, hmore]
  split
  · next hh =>
    subst hh
    split
    · next n h => exact .url h
    · exact .other hother
  · exact .other hother

/-! ## Bare URLs -/

/-- Where a URL ends at the latest. -/
def endsUrl (c : Char) : Bool := isAsciiWhitespace c || [')', '<', '>'].contains c

/-- What is taken for the punctuation of the sentence at the end of a URL. -/
def isPunctuation (c : Char) : Bool := ['.', ',', ';', ':', '!', '?'].contains c

theorem trimEnd_tail (p : Char → Bool) (l : Line) :
    ∃ t, l = trimEnd p l ++ t ∧ ∀ c ∈ t, p c = true := by
  refine ⟨(l.reverse.takeWhile p).reverse, ?_, fun c hc => ?_⟩
  · rw [trimEnd, ← List.reverse_append, List.takeWhile_append_dropWhile, List.reverse_reverse]
  · exact List.mem_takeWhile_imp (List.mem_reverse.mp hc)

/-- What does not end with punctuation is left. -/
theorem isPrefix_trimEnd {p : Char → Bool} {l : Line} (hl : ∀ c ∈ l.getLast?, p c = false)
    (u : Line) : l <+: trimEnd p (l ++ u) := by
  obtain ⟨t, ht, hp⟩ := trimEnd_tail p (l ++ u)
  rcases List.append_eq_append_iff.mp ht with ⟨a, ha, _⟩ | ⟨s, hs, htail⟩
  · exact ⟨a, ha.symm⟩
  · rcases List.eq_nil_or_concat s with rfl | ⟨s, d, rfl⟩
    · rw [List.append_nil] at hs
      exact ⟨[], by rw [List.append_nil]; exact hs⟩
    · have hd : p d = false := by
        refine hl d ?_
        rw [hs, List.concat_eq_append, ← List.append_assoc, List.getLast?_concat]
        rfl
      have hmem : d ∈ t := by
        rw [htail]
        exact List.mem_append_left _ (by simp)
      rw [hp d hmem] at hd
      cases hd

theorem hasUrlScheme_iff {rest : Line} : hasUrlScheme rest = true ↔
    ∃ scheme ∈ ["http://".toList, "https://".toList], scheme <+: rest := by
  simp [hasUrlScheme]

theorem scheme_chars : ∀ scheme ∈ ["http://".toList, "https://".toList],
    (∀ c ∈ scheme, (!endsUrl c) = true) ∧ ∀ c ∈ scheme.getLast?, isPunctuation c = false := by
  intro scheme hmem
  rcases List.mem_pair.mp hmem with rfl | rfl
  · exact ⟨by simp [endsUrl, isAsciiWhitespace], by simp [isPunctuation]⟩
  · exact ⟨by simp [endsUrl, isAsciiWhitespace], by simp [isPunctuation]⟩

/-- A URL that is wrapped is an autolink, and no backtick comes right behind it. -/
theorem exists_url {rest : Line} {n : ℕ} (h : findBareUrlEnd rest = some n) :
    ∃ url left, rest = url ++ left ∧ url.length = n ∧ hasUrlScheme url = true ∧
      (∀ c ∈ url, endsUrl c = false) ∧ left.head? ≠ some '`' := by
  obtain ⟨hscheme, hn⟩ : hasUrlScheme rest = true ∧
      n = (trimEnd isPunctuation (rest.takeWhile (!endsUrl ·))).length := by
    rw [findBareUrlEnd] at h
    split at h
    · next hscheme =>
      cases h
      exact ⟨hscheme, rfl⟩
    · cases h
  have hall : ∀ c ∈ rest.takeWhile (!endsUrl ·), endsUrl c = false := fun c hc => by
    simpa using List.mem_takeWhile_imp hc
  obtain ⟨t, ht, hpunct⟩ := trimEnd_tail isPunctuation (rest.takeWhile (!endsUrl ·))
  refine ⟨_, t ++ rest.dropWhile (!endsUrl ·), ?_, hn.symm, ?_, ?_, ?_⟩
  · rw [← List.append_assoc, ← ht, List.takeWhile_append_dropWhile]
  · obtain ⟨scheme, hmem, o, rfl⟩ := hasUrlScheme_iff.mp hscheme
    obtain ⟨hchars, hlast⟩ := scheme_chars scheme hmem
    rw [List.takeWhile_append_of_pos hchars]
    exact hasUrlScheme_iff.mpr ⟨scheme, hmem, isPrefix_trimEnd hlast _⟩
  · intro c hc
    exact hall c ((trimEnd_isPrefix _ _).subset hc)
  · cases t with
    | nil =>
      intro hhead
      have hends := List.head?_dropWhile_not (!endsUrl ·) rest
      rw [List.nil_append] at hhead
      rw [hhead] at hends
      cases hends
    | cons d t =>
      intro hhead
      have hd := hpunct d List.mem_cons_self
      rw [Option.some.inj hhead] at hd
      cases hd

/-- A round copies what it takes, unless it escapes a character or wraps a URL. -/
theorem Round.cases {c : Char} {rest w left : Line} (h : Round c rest w left) :
    c :: rest = w ++ left ∨ (c ∈ ['[', ']', '<', '>'] ∧ w = ['\\', c] ∧ left = rest) ∨
      (c = 'h' ∧ ∃ url, c :: rest = url ++ left ∧ w = '<' :: url ++ ['>'] ∧
        hasUrlScheme url = true ∧ (∀ d ∈ url, endsUrl d = false) ∧ left.head? ≠ some '`') := by
  cases h with
  | span _ =>
    refine .inl ?_
    rw [List.append_assoc, List.take_append_drop, List.cons_append, List.takeWhile_append_dropWhile]
  | ticks _ =>
    refine .inl ?_
    rw [List.cons_append, List.takeWhile_append_dropWhile]
  | pair => exact .inl (congrArg _ (List.take_append_drop _ _).symm)
  | link _ => exact .inl (congrArg _ (List.take_append_drop _ _).symm)
  | escape hc _ => exact .inr (.inl ⟨hc, rfl, rfl⟩)
  | @url rest n h =>
    obtain ⟨url, left, hrest, hlen, hscheme, hends, hhead⟩ := exists_url h
    rw [hrest, List.take_left' hlen, List.drop_left' hlen]
    exact .inr (.inr ⟨rfl, url, rfl, rfl, hscheme, hends, hhead⟩)
  | other _ => exact .inl rfl

/-! ## What the marks leave as it is -/

/-- A line with characters put in, none of which is a backtick or stands right before one. -/
inductive Spread : Line → Line → Prop where
  | nil : Spread [] []
  | copy {l o : Line} (c : Char) (h : Spread l o) : Spread (c :: l) (c :: o)
  | mark {l o : Line} {m : Char} (hm : m ≠ '`') (hl : l.head? ≠ some '`') (h : Spread l o) :
      Spread l (m :: o)

namespace Spread

theorem copies {l o : Line} (h : Spread l o) : ∀ t : Line, Spread (t ++ l) (t ++ o)
  | [] => h
  | c :: t => .copy c (copies h t)

theorem head {l o : Line} (h : Spread l o) (hl : l.head? ≠ some '`') : o.head? ≠ some '`' := by
  cases h with
  | nil => exact hl
  | copy c h => exact hl
  | mark hm _ _ => exact fun hhead => hm (Option.some.inj hhead)

/-- The same runs are found. -/
theorem closes {k : ℕ} (hk : k ≠ 0) {l o : Line} (h : Spread l o) : ∀ run : ℕ,
    (findBacktickCloser k run o).isSome = (findBacktickCloser k run l).isSome := by
  induction h with
  | nil => exact fun _ => rfl
  | copy c h ih =>
    intro run
    rw [findBacktickCloser, findBacktickCloser]
    split
    · rw [Option.isSome_map, Option.isSome_map, ih]
    · split
      · rfl
      · rw [Option.isSome_map, Option.isSome_map, ih]
  | @mark l o m hm hl h ih =>
    intro run
    rw [findBacktickCloser, if_neg hm, apply_ite Option.isSome, Option.isSome_map, ih 0]
    cases l with
    | nil =>
      rw [findBacktickCloser, findBacktickCloser, if_neg hk.symm]
      split
      · rfl
      · rfl
    | cons c l =>
      have hc : c ≠ '`' := fun hc => hl (congrArg some hc)
      rw [findBacktickCloser, findBacktickCloser, if_neg hc, if_neg hc, if_neg hk.symm]
      split
      · rfl
      · rfl

theorem closes_none {k : ℕ} (hk : k ≠ 0) {l o : Line} (h : Spread l o) (run : ℕ) :
    findBacktickCloser k run o = none ↔ findBacktickCloser k run l = none := by
  rw [← Option.not_isSome_iff_eq_none, ← Option.not_isSome_iff_eq_none, h.closes hk run]

end Spread

theorem Round.spread {c : Char} {rest w left : Line} (h : Round c rest w left) {o : Line}
    (ho : Spread left o) : Spread (c :: rest) (w ++ o) := by
  rcases h.cases with hcopy | ⟨hc, rfl, rfl⟩ | ⟨rfl, url, hrest, rfl, _, _, hhead⟩
  · rw [hcopy]
    exact ho.copies w
  · refine .mark (by decide) (fun hhead => ?_) (.copy c ho)
    rw [Option.some.inj hhead] at hc
    exact absurd hc (by decide)
  · have hclosed : Spread left ('>' :: o) := .mark (by decide) hhead ho
    have h := hclosed.copies url
    rw [← hrest] at h
    rw [List.cons_append, List.cons_append, List.append_assoc]
    exact .mark (by decide) (by simp) h

theorem sanitizeStep_length (c : Char) (rest : Line) :
    (sanitizeStep c rest).2.length ≤ rest.length := by
  obtain ⟨taken, htaken, hne, _⟩ := sanitizeStep_marked c rest
  have hlen := congrArg List.length htaken
  have hpos := List.length_pos_of_ne_nil hne
  rw [List.length_cons, List.length_append] at hlen
  omega

/-! ## Autolinks -/

theorem hasUrlScheme_append {l : Line} {d : Char} (hd : d ∈ l) (hends : endsUrl d = true)
    (o : Line) : hasUrlScheme (l ++ o) = hasUrlScheme l := by
  rw [Bool.eq_iff_iff, hasUrlScheme_iff, hasUrlScheme_iff]
  constructor
  · rintro ⟨scheme, hmem, hscheme⟩
    refine ⟨scheme, hmem, ?_⟩
    rcases List.prefix_or_prefix_of_prefix hscheme (List.prefix_append l o) with h | h
    · exact h
    · have hno := (scheme_chars scheme hmem).1 d (h.subset hd)
      rw [hends] at hno
      cases hno
  · rintro ⟨scheme, hmem, hscheme⟩
    exact ⟨scheme, hmem, hscheme.trans (List.prefix_append l o)⟩

theorem closeAngle_pos : ∀ {l : Line} {n : ℕ}, closeAngle l = some n → 0 < n := by
  intro l n h
  cases l with
  | nil => cases h
  | cons c l =>
    rw [closeAngle] at h
    split at h
    · cases h
      exact Nat.one_pos
    · split at h
      · cases h
      · obtain ⟨m, _, rfl⟩ := Option.map_eq_some_iff.mp h
        exact Nat.succ_pos m

/-- An angle that is closed is closed whatever comes behind. -/
theorem closeAngle_append {l : Line} (o : Line) : ∀ {rest : Line} {n : ℕ},
    closeAngle (rest ++ l) = some n → n ≤ rest.length → closeAngle (rest ++ o) = some n := by
  intro rest
  induction rest with
  | nil =>
    intro n h hn
    exact absurd (closeAngle_pos h) (Nat.not_lt.mpr hn)
  | cons c rest ih =>
    intro n h hn
    rw [List.cons_append, closeAngle] at h ⊢
    split at h
    · next hc => rw [if_pos hc, h]
    · next hc =>
      rw [if_neg hc]
      split at h
      · cases h
      · next hspoils =>
        obtain ⟨m, hm, rfl⟩ := Option.map_eq_some_iff.mp h
        rw [if_neg hspoils, ih hm (Nat.le_of_succ_le_succ hn)]
        rfl

theorem closeAngle_isSome {l o : Line}
    (h : (closeAngle o).isSome = true → (closeAngle l).isSome = true) : ∀ rest : Line,
    (closeAngle (rest ++ o)).isSome = true → (closeAngle (rest ++ l)).isSome = true := by
  intro rest
  induction rest with
  | nil => exact h
  | cons c rest ih =>
    rw [List.cons_append, List.cons_append, closeAngle, closeAngle]
    split
    · exact id
    · split
      · exact id
      · rw [Option.isSome_map, Option.isSome_map]
        exact ih

theorem closeAngle_url {url : Line} (h : ∀ c ∈ url, endsUrl c = false) (o : Line) :
    closeAngle (url ++ '>' :: o) = some (url.length + 1) := by
  induction url with
  | nil => rfl
  | cons c url ih =>
    have hc := h c List.mem_cons_self
    rw [List.cons_append, closeAngle, ih fun d hd => h d (List.mem_cons_of_mem c hd)]
    rw [endsUrl, Bool.or_eq_false_iff] at hc
    have hgt : c ≠ '>' := fun hgt => by simp [hgt] at hc
    have hlt : c ≠ '<' := fun hlt => by simp [hlt] at hc
    rw [if_neg hgt, if_neg (by simp [spoils, hc.1, hlt])]
    rfl

/-- An autolink that ends in the output ends in the input. -/
theorem Round.closes {c : Char} {rest w left : Line} (h : Round c rest w left) {o : Line}
    (ho : (closeAngle o).isSome = true → (closeAngle left).isSome = true) :
    (closeAngle (w ++ o)).isSome = true → (closeAngle (c :: rest)).isSome = true := by
  rcases h.cases with hcopy | ⟨hc, rfl, rfl⟩ | ⟨rfl, url, hrest, rfl, _, _, hhead⟩
  · rw [hcopy]
    exact closeAngle_isSome ho w
  · intro hclose
    have hstep : closeAngle (['\\', c] ++ o) = (closeAngle ([c] ++ o)).map (· + 1) := rfl
    rw [hstep, Option.isSome_map] at hclose
    exact closeAngle_isSome ho [c] hclose
  · intro hclose
    cases hclose

/-! ## Reading side by side -/

/-- What is written for a line: with marks put in where they change neither a code span nor the end
of an autolink. -/
structure Faithful (left o : Line) : Prop where
  spread : Spread left o
  closes : (closeAngle o).isSome = true → (closeAngle left).isSome = true
  nil : left = [] → o = []

theorem sanitizeRounds_faithful (fuel : ℕ) (line : Line) (h : line.length ≤ fuel) :
    Faithful line (sanitizeRounds fuel line) := by
  induction fuel generalizing line with
  | zero =>
    rw [List.length_eq_zero_iff.mp (Nat.le_zero.mp h)]
    exact ⟨.nil, id, fun _ => rfl⟩
  | succ fuel ih =>
    cases line with
    | nil => exact ⟨.nil, id, fun _ => rfl⟩
    | cons c rest =>
      have hleft := sanitizeStep_length c rest
      have hround := sanitizeStep_round c rest
      rw [List.length_cons] at h
      have hrest := ih (sanitizeStep c rest).2 (by omega)
      exact ⟨hround.spread hrest.spread, hround.closes hrest.closes, fun hnil => by cases hnil⟩

theorem readsPlain_skip : ∀ (n : ℕ) (l : Line), readsPlain n l = readsPlain 0 (l.drop n)
  | 0, _ => rfl
  | _ + 1, [] => rfl
  | n + 1, _ :: l => readsPlain_skip n l

theorem readsPlain_of_readStep {c : Char} {w o : Line}
    (h : readStep c (w ++ o) = some w.length) : readsPlain 0 (c :: w ++ o) = readsPlain 0 o := by
  rw [List.cons_append, readsPlain, h]
  dsimp only
  rw [readsPlain_skip, List.drop_left]

theorem findBacktickCloser_pos {k : ℕ} (hk : k ≠ 0) {l : Line} {n : ℕ}
    (h : findBacktickCloser k 0 l = some n) : 0 < n := by
  cases l with
  | nil =>
    rw [findBacktickCloser, if_neg hk.symm] at h
    cases h
  | cons c l =>
    rw [findBacktickCloser, if_neg hk.symm, ← apply_ite (Option.map (· + 1))] at h
    obtain ⟨m, _, rfl⟩ := Option.map_eq_some_iff.mp h
    exact Nat.succ_pos m

/-- In a text that does not end with backticks, the reader passes over the same code span, whatever
comes behind, or he does not stop in it. -/
theorem readStep_ticks {left o : Line} (ho : Faithful left o) {body : Line} {d : Char}
    (hd : d ≠ '`') {n : ℕ} (h : readStep '`' (body ++ d :: left) = some n)
    (hn : n ≤ body.length + 1) : readStep '`' (body ++ d :: o) = some n := by
  have hrun : ∀ x : Line, (body ++ d :: x).takeWhile (· == '`') = body.takeWhile (· == '`') := by
    intro x
    rw [List.takeWhile_append]
    split
    · next hall =>
      rw [List.takeWhile_cons_of_neg (by simpa using hd), List.append_nil]
      exact ((List.takeWhile_prefix _).eq_of_length hall).symm
    · rfl
  have hle : (body.takeWhile (· == '`')).length ≤ body.length :=
    (List.takeWhile_prefix _).length_le
  rw [readStep, if_pos rfl] at h ⊢
  dsimp only at h ⊢
  rw [hrun, Option.some.injEq] at h ⊢
  rw [List.drop_append_of_le_length hle, findBacktickCloser_append (Nat.succ_ne_zero _) hd] at h ⊢
  rcases hin : findBacktickCloser _ 0 (body.drop _ ++ [d]) with _ | m
  · -- a run behind the text is too far away, so there is none at all
    rw [hin, Option.none_or] at h
    rcases hleft : findBacktickCloser ((body.takeWhile (· == '`')).length + 1) 0 left with _ | m
    · rw [hleft] at h
      rw [Option.none_or, (ho.spread.closes_none (Nat.succ_ne_zero _) 0).mpr hleft]
      exact h
    · have hpos := findBacktickCloser_pos (Nat.succ_ne_zero _) hleft
      rw [hleft, Option.map_some, Option.getD_some, List.length_drop] at h
      omega
  · rw [hin] at h
    exact h

/-- The end of a link. -/
def EndsLink (l : Line) : Prop := ∀ d ∈ l.getLast?, d = ')' ∨ d = '>'

theorem EndsLink.tail {c : Char} {l : Line} (h : EndsLink (c :: l)) : EndsLink l := by
  intro d hd
  cases l with
  | nil => cases hd
  | cons c' l =>
    refine h d ?_
    rwa [List.getLast?_cons_cons]

/-- In a copied link the reader goes the same way in the output, as long as he stays in it. -/
theorem readStep_link {left o : Line} (ho : Faithful left o) {c : Char} {rest : Line}
    (h : EndsLink (c :: rest)) :
    (∀ n, readStep c (rest ++ left) = some n → n ≤ rest.length →
        readStep c (rest ++ o) = some n) ∧
      (readStep c (rest ++ left) = none → readStep c (rest ++ o) = none) := by
  rcases List.eq_nil_or_concat rest with rfl | ⟨body, d, rfl⟩
  · have hc := h c rfl
    rcases hc with rfl | rfl
    · exact ⟨fun n hn _ => hn, id⟩
    · exact ⟨fun n hn _ => hn, id⟩
  · have hd : d = ')' ∨ d = '>' := by
      refine h d ?_
      rw [List.concat_eq_append, ← List.cons_append, List.getLast?_concat]
      rfl
    have hends : endsUrl d = true := by
      rcases hd with rfl | rfl
      · rfl
      · rfl
    rw [List.concat_eq_append]
    by_cases hticks : c = '`'
    · subst hticks
      have hne : d ≠ '`' := by
        rcases hd with rfl | rfl
        · decide
        · decide
      rw [List.append_assoc, List.append_assoc, List.length_append]
      refine ⟨fun n hn hle => readStep_ticks ho hne hn hle, fun hnone => ?_⟩
      -- backticks are never HTML
      rw [readStep, if_pos rfl] at hnone
      cases hnone
    by_cases hless : c = '<'
    · subst hless
      have hmem : d ∈ body ++ [d] := List.mem_append_right _ List.mem_cons_self
      change (∀ n, readAutolink _ = some n → _ → readAutolink _ = some n) ∧
        (readAutolink _ = none → readAutolink _ = none)
      rw [readAutolink, readAutolink, hasUrlScheme_append hmem hends,
        hasUrlScheme_append hmem hends]
      split
      · refine ⟨fun n => closeAngle_append o, fun hnone => ?_⟩
        rw [← Option.not_isSome_iff_eq_none] at hnone ⊢
        exact fun hsome => hnone (closeAngle_isSome ho.closes _ hsome)
      · exact ⟨fun n hn _ => hn, id⟩
    · have hsame : ∀ x y : Line, readStep c x = readStep c y := by
        intro x y
        rw [readStep, readStep, if_neg hticks, if_neg hticks, if_neg hless, if_neg hless]
      rw [hsame _ (body ++ [d] ++ o)]
      exact ⟨fun n hn _ => hn, id⟩

/-- **A copied link**: what the reader finds in it. -/
theorem linkVerdict_reads {left o : Line} (ho : Faithful left o) : ∀ (l : Line) (skip : ℕ),
    skip ≤ l.length → EndsLink l →
      (linkVerdict left skip l = .quiet → readsPlain skip (l ++ o) = readsPlain 0 o) ∧
        (linkVerdict left skip l = .loud → readsPlain skip (l ++ o) = false) := by
  intro l
  induction l with
  | nil =>
    intro skip hskip _
    obtain rfl := Nat.le_zero.mp hskip
    exact ⟨fun _ => rfl, fun h => by cases h⟩
  | cons c rest ih =>
    intro skip hskip hends
    cases skip with
    | succ skip => exact ih skip (Nat.le_of_succ_le_succ hskip) hends.tail
    | zero =>
      obtain ⟨hsome, hnone⟩ := readStep_link ho hends
      rw [linkVerdict, List.cons_append, readsPlain]
      rcases hstep : readStep c (rest ++ left) with _ | n
      · rw [hnone hstep]
        exact ⟨fun h => (by cases h), fun _ => rfl⟩
      · dsimp only
        split
        · next hle =>
          rw [hsome n hstep hle]
          exact ih n hle hends.tail
        · exact ⟨fun h => (by cases h), fun h => by cases h⟩

/-! ## The links that are copied -/

theorem closeParen_ends : ∀ {l : Line} {depth n : ℕ}, closeParen depth l = some n →
    n ≤ l.length ∧ ∃ body, l.take n = body ++ [')'] := by
  intro l
  induction l with
  | nil =>
    intro depth n h
    cases h
  | cons c l ih =>
    intro depth n h
    have hmap : ∀ r : ℕ, (closeParen r l).map (· + 1) = some n →
        n ≤ (c :: l).length ∧ ∃ body, (c :: l).take n = body ++ [')'] := by
      intro r hr
      obtain ⟨m, hm, rfl⟩ := Option.map_eq_some_iff.mp hr
      obtain ⟨hle, body, hbody⟩ := ih hm
      exact ⟨Nat.succ_le_succ hle, c :: body, congrArg (c :: ·) hbody⟩
    rw [closeParen] at h
    split at h
    · exact hmap _ h
    · split at h
      · next hc =>
        split at h
        · cases h
          exact ⟨Nat.succ_le_succ (Nat.zero_le _), [], congrArg (fun d => [d]) hc⟩
        · exact hmap _ h
      · exact hmap _ h

theorem findInlineLinkEnd_ends {rest : Line} {n : ℕ} (h : findInlineLinkEnd rest = some n) :
    n ≤ rest.length ∧ ∃ body, rest.take n = body ++ [')'] := by
  rw [findInlineLinkEnd] at h
  split at h
  · cases h
  · split at h
    · next d url hdrop =>
      obtain ⟨m, hm, rfl⟩ := Option.map_eq_some_iff.mp h
      obtain ⟨hle, body, hbody⟩ := closeParen_ends hm
      have hsplit := List.takeWhile_append_dropWhile (p := (· != ']')) (l := rest)
      rw [hdrop] at hsplit
      have hlink : (rest.takeWhile (· != ']') ++ d :: '(' :: url).take
          ((rest.takeWhile (· != ']')).length + 2 + m) =
            rest.takeWhile (· != ']') ++ d :: '(' :: body ++ [')'] := by
        rw [Nat.add_assoc, List.take_length_add_append, Nat.add_comm 2 m, List.take_succ_cons,
          List.take_succ_cons, hbody, List.append_assoc]
        rfl
      refine ⟨?_, rest.takeWhile (· != ']') ++ d :: '(' :: body, ?_⟩
      · conv_rhs => rw [← hsplit]
        rw [List.length_append, List.length_cons, List.length_cons]
        omega
      · rw [Nat.add_comm m, ← hlink, hsplit]
    · cases h

theorem findAutolinkEnd_ends {rest : Line} {n : ℕ} (h : findAutolinkEnd rest = some n) :
    n ≤ rest.length ∧ ∃ body, rest.take n = body ++ ['>'] := by
  rw [findAutolinkEnd] at h
  split at h
  · obtain ⟨m, hm, rfl⟩ := Option.map_eq_some_iff.mp h
    obtain ⟨hlt, hgt, _⟩ := List.findIdx?_eq_some_iff_getElem.mp hm
    exact ⟨hlt, rest.take m, by rw [List.take_succ_eq_append_getElem hlt, eq_of_beq hgt]⟩
  · cases h

theorem copiedLink_ends {c : Char} {rest : Line} {n : ℕ} (h : copiedLink c rest = some n) :
    EndsLink (c :: rest.take n) := by
  have hend : ∃ body d, rest.take n = body ++ [d] ∧ (d = ')' ∨ d = '>') := by
    rw [copiedLink] at h
    split at h
    · obtain ⟨_, body, hbody⟩ := findInlineLinkEnd_ends h
      exact ⟨body, ')', hbody, .inl rfl⟩
    · split at h
      · obtain ⟨_, body, hbody⟩ := findAutolinkEnd_ends h
        exact ⟨body, '>', hbody, .inr rfl⟩
      · cases h
  obtain ⟨body, d, hbody, hd⟩ := hend
  intro e he
  rw [hbody, ← List.cons_append, List.getLast?_concat] at he
  cases he
  exact hd

theorem head?_dropWhile_ticks (rest : Line) :
    (rest.dropWhile (· == '`')).head? ≠ some '`' := by
  intro h
  have hno := List.head?_dropWhile_not (· == '`') rest
  rw [h] at hno
  cases hno

theorem readStep_run (rest : Line) {x : Line} (hx : x.head? ≠ some '`') :
    readStep '`' (rest.takeWhile (· == '`') ++ x) = some ((rest.takeWhile (· == '`')).length +
      (findBacktickCloser ((rest.takeWhile (· == '`')).length + 1) 0 x).getD 0) := by
  have hall : ∀ c ∈ rest.takeWhile (· == '`'), (c == '`') = true := fun c hc => by
    simpa using List.mem_takeWhile_imp hc
  have hrun : (rest.takeWhile (· == '`') ++ x).takeWhile (· == '`') =
      rest.takeWhile (· == '`') := by
    rw [List.takeWhile_append_of_pos hall]
    cases x with
    | nil => exact List.append_nil _
    | cons d x =>
      have hd : d ≠ '`' := fun hd => hx (congrArg some hd)
      rw [List.takeWhile_cons_of_neg (by simpa using hd), List.append_nil]
  rw [readStep, if_pos rfl]
  dsimp only
  rw [hrun, List.drop_left]

theorem roundVerdict_of_none {c : Char} {rest : Line} (h : copiedLink c rest = none) :
    roundVerdict c rest = .quiet := by
  rw [roundVerdict, h]

/-- **A round**: what is written for it holds HTML only if it copies a link. -/
theorem Round.reads {c : Char} {rest w left o : Line} (h : Round c rest w left)
    (ho : Faithful left o) :
    (roundVerdict c rest = .quiet → readsPlain 0 (w ++ o) = readsPlain 0 o) ∧
      (roundVerdict c rest = .loud → readsPlain 0 (w ++ o) = false) := by
  -- only a link is ever loud
  have hplain : copiedLink c rest = none → readsPlain 0 (w ++ o) = readsPlain 0 o →
      (roundVerdict c rest = .quiet → readsPlain 0 (w ++ o) = readsPlain 0 o) ∧
        (roundVerdict c rest = .loud → readsPlain 0 (w ++ o) = false) := by
    intro hnone hreads
    rw [roundVerdict_of_none hnone]
    exact ⟨fun _ => hreads, fun h => by cases h⟩
  cases h with
  | @span rest n hn =>
    refine hplain rfl ?_
    -- the reader finds the closer that the code has found
    have hspread := ho.spread.copies ((rest.dropWhile (· == '`')).take n)
    rw [List.take_append_drop] at hspread
    have hclosed := findBacktickCloser_take
      (ho.spread.head (findBacktickCloser_behind hn)) hn
    have hle := findBacktickCloser_le hn
    rw [List.cons_append]
    refine readsPlain_of_readStep ?_
    rw [List.append_assoc, readStep_run rest (hspread.head (head?_dropWhile_ticks rest)), hclosed,
      List.length_append, List.length_take_of_le hle]
    rfl
  | @ticks rest hnone =>
    -- and no other one, since the marks make none
    refine hplain rfl (readsPlain_of_readStep ?_)
    rw [readStep_run rest (ho.spread.head (head?_dropWhile_ticks rest)),
      (ho.spread.closes_none (Nat.succ_ne_zero _) 0).mpr hnone]
    rfl
  | @pair rest =>
    refine hplain rfl ?_
    cases rest with
    | nil =>
      -- the backslash at the end of the line must not escape a mark
      rw [ho.nil rfl]
      rfl
    | cons d rest => rfl
  | @link _ _ n hn =>
    rw [roundVerdict, hn]
    exact linkVerdict_reads ho _ 0 (Nat.zero_le _) (copiedLink_ends hn)
  | escape hc hnone => exact hplain hnone rfl
  | url hn =>
    obtain ⟨url, left, hrest, hlen, hscheme, hends, _⟩ := exists_url hn
    refine hplain rfl ?_
    rw [List.cons_append, List.cons_append, hrest, List.take_left' hlen]
    refine readsPlain_of_readStep ?_
    change readAutolink _ = _
    obtain ⟨scheme, hmem, hurl⟩ := hasUrlScheme_iff.mp hscheme
    rw [List.append_assoc, readAutolink,
      if_pos (hasUrlScheme_iff.mpr ⟨scheme, hmem, hurl.trans (List.prefix_append _ _)⟩),
      List.length_append]
    exact closeAngle_url hends o
  | other hc =>
    simp only [List.mem_cons, List.not_mem_nil, or_false, not_or] at hc
    obtain ⟨hticks, hback, hopen, _, hless, hmore⟩ := hc
    refine hplain ?_ (readsPlain_of_readStep (w := []) ?_)
    · rw [copiedLink, if_neg hopen, if_neg hless]
    · rw [readStep, if_neg hticks, if_neg hback, if_neg hless, if_neg hmore]
      rfl

theorem verdictRounds_reads (fuel : ℕ) (line : Line) (h : line.length ≤ fuel) :
    (verdictRounds fuel line = .quiet → readsPlain 0 (sanitizeRounds fuel line) = true) ∧
      (verdictRounds fuel line = .loud → readsPlain 0 (sanitizeRounds fuel line) = false) := by
  induction fuel generalizing line with
  | zero => exact ⟨fun _ => rfl, fun h => by cases h⟩
  | succ fuel ih =>
    cases line with
    | nil => exact ⟨fun _ => rfl, fun h => by cases h⟩
    | cons c rest =>
      have hleft := sanitizeStep_length c rest
      rw [List.length_cons] at h
      have hlen : (sanitizeStep c rest).2.length ≤ fuel := by omega
      obtain ⟨hquiet, hloud⟩ :=
        (sanitizeStep_round c rest).reads (sanitizeRounds_faithful fuel _ hlen)
      rw [verdictRounds, sanitizeRounds]
      rcases hround : roundVerdict c rest with _ | _ | _
      · rw [hquiet hround]
        exact ih _ hlen
      · exact ⟨fun h => (by cases h), fun _ => hloud hround⟩
      · exact ⟨fun h => (by cases h), fun h => by cases h⟩

/-- **Sanitized prose** holds no HTML if its links do not, and only then, except where the reader
does not stop at the end of a link. -/
theorem sanitizeLine_noHtml (line : Line) :
    (verdict line = .quiet → NoHtml (sanitizeLine line)) ∧
      (verdict line = .loud → ¬ NoHtml (sanitizeLine line)) := by
  obtain ⟨hquiet, hloud⟩ := verdictRounds_reads line.length line (Nat.le_refl _)
  refine ⟨hquiet, fun h hno => ?_⟩
  rw [NoHtml, sanitizeLine, hloud h] at hno
  cases hno

theorem sanitizeLine_noHtml_links :
    NoHtml (sanitizeLine "[T](<http://a>) `<b>` or http://c.".toList) ∧
      ¬ NoHtml (sanitizeLine "see [<b>](u)".toList) :=
  ⟨(sanitizeLine_noHtml _).1 (by decide), (sanitizeLine_noHtml _).2 (by decide)⟩

/-- What is copied is not looked at: neither the text of a link, nor what an autolink holds, which
`findBareUrlEnd` minds. -/
theorem sanitizeLine_html : ¬ NoHtml (sanitizeLine "[<b>](u)".toList) ∧
    ¬ NoHtml (sanitizeLine "<http://a <b>".toList) := by
  decide

-- where the reader goes on behind the link, he may find HTML or not
example : verdict "[`](u) `".toList = .out ∧ NoHtml (sanitizeLine "[`](u) `".toList) ∧
    verdict "[`](u) `<b>`".toList = .out ∧ ¬ NoHtml (sanitizeLine "[`](u) `<b>`".toList) := by
  decide

end ConnectRpc.Comments
