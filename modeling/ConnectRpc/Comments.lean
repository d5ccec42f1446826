import ConnectRpc.Lib.CodeBlocks
import ConnectRpc.Lib.Text
import Mathlib.Data.List.TakeWhile

/-!
# Comments in generated code

The comments of a proto file become documentation of the generated code, where `cargo test` would
compile and run every code block that is not told to be something else. So they are sanitized, line
by line: fences are given an info string that keeps them from being compiled, indented blocks are
fenced, and prose is escaped.

What comes out is read by the rules of CommonMark (`Tame`, with `inert` info strings). The reader
and the code go side by side: after each line the reader has the same fence open
(`Mode.takes_read`, `classify_read`). What the code writes for prose has some `marks` more than the
line had, so that no fence and no indentation comes about (`Marked`). There are lines that the two
read differently, and `sanitizeComment_tame_iff` says which.
-/

namespace ConnectRpc.Comments

open Lib

/-! ## The code -/

/-- `strip_prefix`. -/
def stripStart (start : Line) (line : Line) : Option Line :=
  if start.isPrefixOf line then some (line.drop start.length) else none

/-- `is_indented`. -/
def isIndented (line : Line) : Bool :=
  "    ".toList.isPrefixOf line || "\t".toList.isPrefixOf line

/-- `strip_indent`. -/
def stripIndent (line : Line) : Line :=
  let stripped := ((stripStart "    ".toList line).or (stripStart "\t".toList line)).getD line
  if "```".toList.isPrefixOf (stripped.dropWhile isWhitespace) then line else stripped

/-- `Fence`. -/
structure Fence where
  /-- the spaces before it -/
  indent : Line
  /-- the character -/
  ch : Char
  /-- how many there are -/
  len : ℕ
  /-- what follows -/
  info : Line

/-- `Fence::closes`. -/
def Fence.closes (f : Fence) (opened : Char × ℕ) : Bool :=
  f.ch == opened.1 && decide (opened.2 ≤ f.len) && f.info.all fun c => c == ' ' || c == '\t'

/-- `fence_marker`. -/
def fenceMarker (line : Line) : Option Fence :=
  if isIndented line then none
  else
    let indent := line.takeWhile (· == ' ')
    match line.dropWhile (· == ' ') with
    | [] => none
    | ch :: more =>
      if ch ≠ '`' ∧ ch ≠ '~' then none
      else
        let info := (ch :: more).dropWhile (· == ch)
        let len := (ch :: more).length - info.length
        if len < 3 ∨ (ch = '`' ∧ '`' ∈ info) then none else some ⟨indent, ch, len, info⟩

/-- `fence_info`. -/
def fenceInfo (info : Line) : Line :=
  let targets := (words info).filter fun w => "ignore-".toList.isPrefixOf w
  let tokens := (words info).filter fun w => !"ignore-".toList.isPrefixOf w
  if tokens = [] then
    if targets ≠ [] then "rust,ignore".toList else "text".toList
  else
    let tokens := if tokens.contains "ignore".toList then tokens else tokens ++ ["ignore".toList]
    List.intercalate [','] tokens

/-- `find_backtick_closer`: how far it is to the end of the first run of this length. The run that
is being read has `run` backticks so far. -/
def findBacktickCloser (runLen : ℕ) : ℕ → Line → Option ℕ
  | run, [] => if run = runLen then some 0 else none
  | run, c :: rest =>
    if c = '`' then (findBacktickCloser runLen (run + 1) rest).map (· + 1)
    else if run = runLen then some 0
    else (findBacktickCloser runLen 0 rest).map (· + 1)

/-- How far it is to the end of the parenthesis that closes as many as are open. -/
def closeParen : ℕ → Line → Option ℕ
  | _, [] => none
  | depth, c :: rest =>
    if c = '(' then (closeParen (depth + 1) rest).map (· + 1)
    else if c = ')' then
      if depth = 1 then some 1 else (closeParen (depth - 1) rest).map (· + 1)
    else (closeParen depth rest).map (· + 1)

/-- `find_inline_link_end`, after the bracket: how far it is to the end of the link. -/
def findInlineLinkEnd (rest : Line) : Option ℕ :=
  let text := rest.takeWhile (· != ']')
  if '[' ∈ text then none
  else
    match rest.dropWhile (· != ']') with
    | _ :: '(' :: url => (closeParen 1 url).map (· + (text.length + 2))
    | _ => none

/-- `has_url_scheme`. -/
def hasUrlScheme (rest : Line) : Bool :=
  "http://".toList.isPrefixOf rest || "https://".toList.isPrefixOf rest

/-- `find_autolink_end`, after the angle: how far it is to the end of the link. -/
def findAutolinkEnd (rest : Line) : Option ℕ :=
  if hasUrlScheme rest then (rest.findIdx? (· == '>')).map (· + 1) else none

/-- `find_bare_url_end`: how long the URL is. -/
def findBareUrlEnd (rest : Line) : Option ℕ :=
  if hasUrlScheme rest then
    let url := rest.takeWhile fun c =>
      !([' ', '\t', '\n', '\x0c', '\r'].contains c || [')', '<', '>'].contains c)
    some (trimEnd (['.', ',', ';', ':', '!', '?'].contains ·) url).length
  else none

/-- One round of `sanitize_line`: what is written for the character and those that go with it, and
what is left. -/
def sanitizeStep (c : Char) (rest : Line) : Line × Line :=
  if c = '`' then
    let run := c :: rest.takeWhile (· == '`')
    let more := rest.dropWhile (· == '`')
    match findBacktickCloser run.length 0 more with
    | some n => (run ++ more.take n, more.drop n)
    | none => (run, more)
  else if c = '\\' then (c :: rest.take 1, rest.drop 1)
  else if c = '[' then
    match findInlineLinkEnd rest with
    | some n => (c :: rest.take n, rest.drop n)
    | none => (['\\', c], rest)
  else if c = ']' then (['\\', c], rest)
  else if c = '<' then
    match findAutolinkEnd rest with
    | some n => (c :: rest.take n, rest.drop n)
    | none => (['\\', c], rest)
  else if c = '>' then (['\\', c], rest)
  else if c = 'h' then
    match findBareUrlEnd (c :: rest) with
    | some n => ('<' :: (c :: rest).take n ++ ['>'], (c :: rest).drop n)
    | none => ([c], rest)
  else ([c], rest)

/-- The loop of `sanitize_line`, for so many rounds. -/
def sanitizeRounds : ℕ → Line → Line
  | 0, _ => []
  | _ + 1, [] => []
  | fuel + 1, c :: rest => (sanitizeStep c rest).1 ++ sanitizeRounds fuel (sanitizeStep c rest).2

/-- `sanitize_line`. -/
def sanitizeLine (line : Line) : Line := sanitizeRounds line.length line

/-- What the loop of `sanitize_comment` remembers: `in_code_block` and `open_fence`, of which one
at most is set. -/
inductive Mode : Type where
  | prose
  | codeBlock
  | fence (ch : Char) (len : ℕ)
  deriving DecidableEq

/-- Whether the next line that is not empty is indented. -/
def nextIsIndented (rest : List Line) : Bool :=
  (rest.find? fun l => !l.isEmpty).any isIndented

/-- A line in a code block that goes on: what is written for it. -/
def Mode.takes (m : Mode) (line : Line) (rest : List Line) : Option (Line × Mode) :=
  match m with
  | prose => none
  | codeBlock =>
    if isIndented line then some (stripIndent line, codeBlock)
    else if line.isEmpty && nextIsIndented rest then some ([], codeBlock)
    else none
  | fence ch len =>
    some (line, if (fenceMarker line).any (Fence.closes · (ch, len)) then prose else fence ch len)

/-- What is written when a block of indented lines has ended. -/
def Mode.leave : Mode → List Line
  | codeBlock => ["```".toList]
  | _ => []

/-- Any other line: what is written for it. -/
def classify (line : Line) : List Line × Mode :=
  match fenceMarker line with
  | some f =>
    ([f.indent ++ List.replicate f.len f.ch ++ fenceInfo f.info], .fence f.ch f.len)
  | none =>
    if isIndented line then (["```text".toList, stripIndent line], .codeBlock)
    else ([sanitizeLine line], .prose)

/-- What is written at the end. -/
def Mode.finish : Mode → List Line
  | prose => []
  | codeBlock => ["```".toList]
  | fence ch len => [List.replicate len ch]

/-- The loop of `sanitize_comment`. -/
def sanitizeLines : Mode → List Line → List Line
  | m, [] => m.finish
  | m, line :: rest =>
    match m.takes line rest with
    | some (written, m) => written :: sanitizeLines m rest
    | none => m.leave ++ (classify line).1 ++ sanitizeLines (classify line).2 rest

/-- The lines of a text as `str::lines` has them: a line feed ends a line, and takes one carriage
return with it. -/
def textLines (text : List Char) : List Line :=
  let pieces := text.splitOn '\n'
  (pieces.dropLast.map fun l => if l.getLast? = some '\r' then l.dropLast else l) ++
    (pieces.getLast?.filter fun l => !l.isEmpty).toList

/-- `sanitize_comment`. -/
def sanitizeComment (text : String) : String :=
  String.ofList (List.intercalate ['\n'] (sanitizeLines .prose (textLines text.toList)))

/-! ## What is asked of it -/

/-- An info string that keeps a block from being compiled. -/
def inert (info : Line) : Bool :=
  trim isBlankChar info == "text".toList ||
    ((words info).contains "ignore".toList &&
      (words info).all fun w => !"ignore-".toList.isPrefixOf w)

/-- The lines that do not belong to a code block that goes on. -/
def reached : Mode → List Line → List Line
  | _, [] => []
  | m, line :: rest =>
    match m.takes line rest with
    | some (_, m) => reached m rest
    | none => line :: reached (classify line).2 rest

/-- A line that begins with one to three spaces and a tab, and is not blank. The code takes it for
prose and the reader for code. -/
def SpacesThenTab (line : Line) : Prop :=
  isIndented line = false ∧ (line.dropWhile (· == ' ')).head? = some '\t' ∧ isBlank line = false

instance : DecidablePred SpacesThenTab := fun line =>
  inferInstanceAs (Decidable (isIndented line = false ∧
    (line.dropWhile (· == ' ')).head? = some '\t' ∧ isBlank line = false))

/-- A fence of tildes the info string of which begins with a tilde when it is rewritten, so that the
fence becomes longer. -/
def Glued (line : Line) : Prop :=
  ∃ f, f ∈ fenceMarker line ∧ f.ch = '~' ∧ (fenceInfo f.info).head? = some '~'

instance : DecidablePred Glued := fun line =>
  inferInstanceAs (Decidable (∃ f, f ∈ fenceMarker line ∧
    f.ch = '~' ∧ (fenceInfo f.info).head? = some '~'))


/-! ## Escaped prose -/

/-- What a line is escaped with. -/
def marks : Line := ['\\', '<', '>']

/-- A line with some marks put in. -/
inductive Marked : Line → Line → Prop where
  | nil : Marked [] []
  | copy {l o : Line} (c : Char) (h : Marked l o) : Marked (c :: l) (c :: o)
  | mark {l o : Line} {m : Char} (hm : m ∈ marks) (h : Marked l o) : Marked l (m :: o)

namespace Marked

theorem refl : ∀ l, Marked l l
  | [] => .nil
  | c :: l => .copy c (refl l)

theorem append {l l' o o' : Line} (h : Marked l o) (h' : Marked l' o') :
    Marked (l ++ l') (o ++ o') := by
  induction h with
  | nil => exact h'
  | copy c _ ih => exact .copy c ih
  | mark hm _ ih => exact .mark hm ih

theorem mem {l o : Line} (h : Marked l o) {c : Char} (hc : c ∈ l) : c ∈ o := by
  induction h with
  | nil => exact hc
  | copy d _ ih =>
    rcases List.mem_cons.mp hc with rfl | hc
    · exact List.mem_cons_self
    · exact List.mem_cons_of_mem d (ih hc)
  | mark _ _ ih => exact List.mem_cons_of_mem _ (ih hc)

theorem mem_or {l o : Line} (h : Marked l o) {c : Char} (hc : c ∈ o) : c ∈ l ∨ c ∈ marks := by
  induction h with
  | nil => exact .inl hc
  | copy d _ ih =>
    rcases List.mem_cons.mp hc with rfl | hc
    · exact .inl List.mem_cons_self
    · exact (ih hc).imp_left (List.mem_cons_of_mem d)
  | mark hm _ ih =>
    rcases List.mem_cons.mp hc with rfl | hc
    · exact .inr hm
    · exact ih hc

/-- What comes before any mark is there already. -/
theorem split {l o : Line} {u : Line} (h : Marked l (u ++ o)) (hu : ∀ c ∈ u, c ∉ marks) :
    ∃ l', l = u ++ l' ∧ Marked l' o := by
  induction u generalizing l with
  | nil => exact ⟨l, rfl, h⟩
  | cons c u ih =>
    cases h with
    | copy _ h =>
      obtain ⟨l', rfl, hl⟩ := ih h fun d hd => hu d (List.mem_cons_of_mem c hd)
      exact ⟨l', rfl, hl⟩
    | mark hm _ => exact absurd hm (hu c List.mem_cons_self)

end Marked

theorem marked_escape {c : Char} : Marked [c] ['\\', c] :=
  .mark (by decide) (.refl [c])

/-- A URL is not empty. -/
theorem findBareUrlEnd_ne_nil {rest : Line} {n : ℕ} (h : findBareUrlEnd ('h' :: rest) = some n) :
    ('h' :: rest).take n ≠ [] := by
  rw [findBareUrlEnd] at h
  split at h
  · dsimp only at h
    rw [List.takeWhile_cons_of_pos (by decide)] at h
    intro hnil
    rw [List.take_eq_nil_iff] at hnil
    have hn : n = 0 := hnil.resolve_right (List.cons_ne_nil _ _)
    rw [hn, Option.some.injEq, List.length_eq_zero_iff, trimEnd, List.reverse_eq_nil_iff,
      List.dropWhile_eq_nil_iff] at h
    exact absurd (h 'h' (by simp)) (by decide)
  · cases h

/-- One round takes some characters, and writes them with marks. -/
theorem sanitizeStep_marked (c : Char) (rest : Line) :
    ∃ taken, c :: rest = taken ++ (sanitizeStep c rest).2 ∧ taken ≠ [] ∧
      Marked taken (sanitizeStep c rest).1 := by
  have hcopy : ∀ taken left : Line, c :: rest = taken ++ left → taken ≠ [] →
      ∃ taken', c :: rest = taken' ++ (taken, left).2 ∧ taken' ≠ [] ∧ Marked taken' (taken, left).1 :=
    fun taken left h hne => ⟨taken, h, hne, .refl taken⟩
  have hescape : ∃ taken, c :: rest = taken ++ (['\\', c], rest).2 ∧ taken ≠ [] ∧
      Marked taken (['\\', c], rest).1 :=
    ⟨[c], rfl, List.cons_ne_nil _ _, marked_escape⟩
  have hrun : c = '`' → c :: rest =
      (c :: rest.takeWhile (· == '`')) ++ rest.dropWhile (· == '`') := by
    intro _
    rw [List.cons_append, List.takeWhile_append_dropWhile]
  unfold sanitizeStep
  split
  · next hc =>
    dsimp only
    split
    · next n _ =>
      refine hcopy _ _ ?_ (List.cons_ne_nil _ _)
      rw [List.append_assoc, List.take_append_drop]
      exact hrun hc
    · exact hcopy _ _ (hrun hc) (List.cons_ne_nil _ _)
  · split
    · exact hcopy _ _ (by rw [List.cons_append, List.take_append_drop]) (List.cons_ne_nil _ _)
    · split
      · split
        · exact hcopy _ _ (by rw [List.cons_append, List.take_append_drop]) (List.cons_ne_nil _ _)
        · exact hescape
      · split
        · exact hescape
        · split
          · split
            · exact hcopy _ _ (by rw [List.cons_append, List.take_append_drop])
                (List.cons_ne_nil _ _)
            · exact hescape
          · split
            · exact hescape
            · split
              · next hc =>
                split
                · next n hn =>
                  refine ⟨(c :: rest).take n, (List.take_append_drop _ _).symm, ?_, ?_⟩
                  · subst hc
                    exact findBareUrlEnd_ne_nil hn
                  · refine .mark (by decide) ?_
                    have h := (Marked.refl ((c :: rest).take n)).append
                      (.mark (by decide) .nil : Marked [] ['>'])
                    rwa [List.append_nil] at h
                · exact hcopy [c] rest rfl (List.cons_ne_nil _ _)
              · exact hcopy [c] rest rfl (List.cons_ne_nil _ _)

theorem sanitizeRounds_marked (fuel : ℕ) (line : Line) (h : line.length ≤ fuel) :
    Marked line (sanitizeRounds fuel line) := by
  induction fuel generalizing line with
  | zero =>
    rw [List.length_eq_zero_iff.mp (Nat.le_zero.mp h)]
    exact .nil
  | succ fuel ih =>
    cases line with
    | nil => exact .nil
    | cons c rest =>
      obtain ⟨taken, htaken, hne, hmarked⟩ := sanitizeStep_marked c rest
      have hlen := congrArg List.length htaken
      have hpos := List.length_pos_of_ne_nil hne
      rw [List.length_append] at hlen
      rw [sanitizeRounds, htaken]
      exact hmarked.append (ih _ (by omega))

theorem sanitizeLine_marked (line : Line) : Marked line (sanitizeLine line) :=
  sanitizeRounds_marked _ line (Nat.le_refl _)

/-- The indentation of a line is left as it is. -/
theorem sanitizeLine_blank {u : Line} (hu : ∀ c ∈ u, isBlankChar c = true) (line : Line) :
    sanitizeLine (u ++ line) = u ++ sanitizeLine line := by
  induction u with
  | nil => rfl
  | cons c u ih =>
    have hstep : sanitizeStep c (u ++ line) = ([c], u ++ line) := by
      have hc := hu c List.mem_cons_self
      rw [isBlankChar, Bool.or_eq_true, beq_iff_eq, beq_iff_eq] at hc
      rcases hc with rfl | rfl
      · rfl
      · rfl
    have hrest := ih fun d hd => hu d (List.mem_cons_of_mem c hd)
    change sanitizeRounds ((u ++ line).length + 1) (c :: (u ++ line)) = _
    rw [sanitizeRounds, hstep]
    exact congrArg (c :: ·) hrest

/-! ## Fences, as the code and the reader see them -/

/-- The fence as the reader has it. -/
def Fence.read (f : Fence) : CodeFence := ⟨f.ch, f.len, f.info⟩

theorem isIndented_spaces {n : ℕ} {rest : Line} (h : ' ' ∉ rest.head?) :
    isIndented (List.replicate n ' ' ++ rest) = true ↔ 4 ≤ n ∨ (n = 0 ∧ '\t' ∈ rest.head?) := by
  match n with
  | 0 =>
    cases rest with
    | nil => simp [isIndented]
    | cons c rest =>
      have hc : ¬ ' ' = c := fun hc => h (hc ▸ rfl)
      simp [isIndented, List.isPrefixOf, hc, @eq_comm _ c]
  | 1 =>
    cases rest with
    | nil => simp [isIndented]
    | cons c rest =>
      have hc : ¬ ' ' = c := fun hc => h (hc ▸ rfl)
      simp [isIndented, List.isPrefixOf, hc]
  | 2 =>
    cases rest with
    | nil => simp [isIndented, List.replicate]
    | cons c rest =>
      have hc : ¬ ' ' = c := fun hc => h (hc ▸ rfl)
      simp [isIndented, List.isPrefixOf, hc, List.replicate]
  | 3 =>
    cases rest with
    | nil => simp [isIndented, List.replicate]
    | cons c rest =>
      have hc : ¬ ' ' = c := fun hc => h (hc ▸ rfl)
      simp [isIndented, List.isPrefixOf, hc, List.replicate]
  | n + 4 => simp [isIndented, List.replicate, List.isPrefixOf]

theorem dropWhile_spaces {n : ℕ} {rest : Line} (h : ' ' ∉ rest.head?) :
    (List.replicate n ' ' ++ rest).dropWhile (· == ' ') = rest := by
  rw [List.dropWhile_append_of_pos (by simp)]
  cases rest with
  | nil => rfl
  | cons c rest =>
    have hc : ¬ (c == ' ') = true := fun hc => h (by rw [eq_of_beq hc]; rfl)
    rw [List.dropWhile_cons, if_neg hc]

theorem columns_of_isIndented {line : Line} (h : isIndented line = true) : 4 ≤ columns line := by
  obtain ⟨n, rest, rfl, hrest⟩ := exists_run ' ' line
  rw [columns, indentation_spaces]
  rcases (isIndented_spaces hrest).mp h with hn | ⟨rfl, htab⟩
  · exact Nat.le_trans (by omega) (le_indentation _ _)
  · cases rest with
    | nil => cases htab
    | cons c rest =>
      cases htab
      exact indentation_tab _ _

/-- **A fence** is a fence for both. -/
theorem fenceOf_eq (line : Line) : fenceOf line = (fenceMarker line).map Fence.read := by
  rw [fenceMarker]
  by_cases hindented : isIndented line = true
  · have hcol := columns_of_isIndented hindented
    rw [if_pos hindented, fenceOf, if_neg (by omega)]
    rfl
  · rw [if_neg hindented]
    obtain ⟨n, rest, rfl, hrest⟩ := exists_run ' ' line
    rw [isIndented_spaces hrest, not_or] at hindented
    obtain ⟨hn, htab⟩ := hindented
    dsimp only
    rw [dropWhile_spaces hrest, fenceOf, columns, indentation_spaces]
    cases rest with
    | nil =>
      rw [indentation_text _ (by simp)]
      split
      · rfl
      · rfl
    | cons c rest =>
      dsimp only
      by_cases hc : c = '\t'
      · subst hc
        have hcol := indentation_tab (0 + n) rest
        rw [if_neg (by omega), if_pos (by decide)]
        rfl
      · have hblank : ∀ d ∈ (c :: rest).head?, isBlankChar d = false := by
          intro d hd
          cases hd
          rw [isBlankChar, Bool.or_eq_false_iff]
          have hspace : c ≠ ' ' := fun h => hrest (h ▸ rfl)
          exact ⟨by simpa using hspace, by simpa using hc⟩
        have hlen : (c :: rest).length - (rest.dropWhile (· == c)).length =
            (rest.takeWhile (· == c)).length + 1 := by
          have hsplit := congrArg List.length
            (List.takeWhile_append_dropWhile (p := (· == c)) (l := rest))
          rw [List.length_append] at hsplit
          rw [List.length_cons]
          omega
        have hself : (c :: rest).dropWhile (· == c) = rest.dropWhile (· == c) :=
          List.dropWhile_cons_of_pos (beq_self_eq_true c)
        rw [indentation_text _ hblank, if_pos (by dsimp only; omega)]
        dsimp only
        rw [fenceAt, hself, hlen]
        by_cases hch : c = '`' ∨ c = '~'
        · have hnot : ¬ (c ≠ '`' ∧ c ≠ '~') := fun h => hch.elim h.1 h.2
          rw [if_pos hch, if_neg hnot]
          by_cases hlong : 3 ≤ (rest.takeWhile (· == c)).length + 1 ∧
              (c = '`' → '`' ∉ rest.dropWhile (· == c))
          · rw [if_pos hlong, if_neg]
            · rfl
            · rintro (hshort | ⟨htick, hmem⟩)
              · omega
              · exact hlong.2 htick hmem
          · rw [if_neg hlong, if_pos]
            · rfl
            · by_contra hno
              rw [not_or, not_and] at hno
              exact hlong ⟨by omega, hno.2⟩
        · rw [if_neg hch, if_pos (not_or.mp hch)]
          rfl

theorem fenceOf_eq_none {line : Line} : fenceOf line = none ↔ fenceMarker line = none := by
  rw [fenceOf_eq, Option.map_eq_none_iff]

theorem fenceOf_of_columns {line : Line} (h : 4 ≤ columns line) : fenceOf line = none := by
  rw [fenceOf, if_neg (by omega)]

theorem closesFence_eq (opened : Char × ℕ) (line : Line) :
    closesFence opened line = (fenceMarker line).any (Fence.closes · opened) := by
  rw [closesFence, fenceOf_eq, Option.any_map]
  rfl

/-- What a fence is made of. -/
theorem exists_of_fenceMarker {line : Line} {f : Fence} (h : fenceMarker line = some f) :
    ∃ n, n ≤ 3 ∧ 3 ≤ f.len ∧ (f.ch = '`' ∨ f.ch = '~') ∧ (f.ch = '`' → '`' ∉ f.info) ∧
      f.indent = List.replicate n ' ' ∧
      line = List.replicate n ' ' ++ (List.replicate f.len f.ch ++ f.info) := by
  have hread : fenceOf line = some f.read := by rw [fenceOf_eq, h]; rfl
  obtain ⟨n, hn, hlen, hch, _, htick, hline⟩ := exists_of_fenceOf hread
  refine ⟨n, hn, hlen, hch, htick, ?_, hline⟩
  have hindent : f.indent = line.takeWhile (· == ' ') := by
    rw [fenceMarker] at h
    split at h
    · cases h
    · dsimp only at h
      split at h
      · cases h
      · split at h
        · cases h
        · split at h
          · cases h
          · cases h
            rfl
  obtain ⟨k, hk⟩ : ∃ k, f.read.length = k + 1 := ⟨f.read.length - 1, by omega⟩
  have hspace : ¬ (f.read.char == ' ') = true := by
    rcases hch with hc | hc
    · rw [hc]; decide
    · rw [hc]; decide
  rw [hindent, hline, hk, List.takeWhile_append_of_pos (by simp), List.replicate_succ,
    List.cons_append, List.takeWhile_cons, if_neg hspace, List.append_nil]

/-! ## Info strings -/

/-- **A rewritten info string** keeps the block from being compiled. -/
theorem inert_fenceInfo (info : Line) : inert (fenceInfo info) = true := by
  rw [fenceInfo]
  dsimp only
  have htokens : ∀ w ∈ (words info).filter (fun w => !"ignore-".toList.isPrefixOf w),
      (w ≠ [] ∧ ∀ c ∈ w, (c == ',' || c == ' ' || c == '\t') = false) ∧
        (!"ignore-".toList.isPrefixOf w) = true := by
    intro w hw
    obtain ⟨hmem, hno⟩ := List.mem_filter.mp hw
    obtain ⟨hne, hc⟩ := mem_words hmem
    exact ⟨⟨hne, fun c hcw => (hc c hcw).2⟩, hno⟩
  generalize (words info).filter (fun w => !"ignore-".toList.isPrefixOf w) = tokens at htokens
  have hjoin : ∀ ws : List Line, "ignore".toList ∈ ws →
      (∀ w ∈ ws, (w ≠ [] ∧ ∀ c ∈ w, (c == ',' || c == ' ' || c == '\t') = false) ∧
        (!"ignore-".toList.isPrefixOf w) = true) →
      inert (List.intercalate [','] ws) = true := by
    intro ws hignore hws
    rw [inert, words_intercalate fun w hw => (hws w hw).1, Bool.or_eq_true, Bool.and_eq_true]
    refine .inr ⟨?_, ?_⟩
    · rw [List.contains_iff_mem]
      exact hignore
    · rw [List.all_eq_true]
      exact fun w hw => (hws w hw).2
  split
  · split
    · decide
    · decide
  · by_cases hignore : tokens.contains "ignore".toList = true
    · rw [if_pos hignore]
      exact hjoin tokens (List.contains_iff_mem.mp hignore) htokens
    · rw [if_neg hignore]
      refine hjoin _ (List.mem_append_right _ List.mem_cons_self) fun w hw => ?_
      rcases List.mem_append.mp hw with hw | hw
      · exact htokens w hw
      · rw [List.mem_singleton] at hw
        subst hw
        exact ⟨⟨by decide, by simp⟩, by decide⟩

/-- Where its characters come from. -/
theorem mem_fenceInfo {info : Line} {c : Char} (h : c ∈ fenceInfo info) :
    c ∈ info ∨ c ∈ "rust,ignore".toList ∨ c ∈ "text".toList := by
  rw [fenceInfo] at h
  dsimp only at h
  have htokens : ∀ w ∈ (words info).filter (fun w => !"ignore-".toList.isPrefixOf w),
      ∀ c ∈ w, c ∈ info :=
    fun w hw d hd => ((mem_words (List.mem_of_mem_filter hw)).2 d hd).1
  generalize (words info).filter (fun w => !"ignore-".toList.isPrefixOf w) = tokens at h htokens
  split at h
  · split at h
    · exact .inr (.inl h)
    · exact .inr (.inr h)
  · rcases mem_intercalate h with rfl | ⟨w, hw, hc⟩
    · exact .inr (.inl (by decide))
    · by_cases hignore : tokens.contains "ignore".toList = true
      · rw [if_pos hignore] at hw
        exact .inl (htokens w hw c hc)
      · rw [if_neg hignore] at hw
        rcases List.mem_append.mp hw with hw | hw
        · exact .inl (htokens w hw c hc)
        · rw [List.mem_singleton] at hw
          subst hw
          have hall : ∀ d ∈ "ignore".toList, d ∈ "rust,ignore".toList := by simp
          exact .inr (.inl (hall c hc))

/-! ## Line by line -/

/-- The fence that the reader has open. -/
def Mode.opened : Mode → Option (Char × ℕ)
  | prose => none
  | codeBlock => some ('`', 3)
  | fence ch len => some (ch, len)

/-- An open fence is a fence. -/
def Mode.Valid : Mode → Prop
  | fence ch len => 3 ≤ len ∧ (ch = '`' ∨ ch = '~')
  | _ => True

/-- An indented line does not close the fence that was put before it. -/
theorem closesFence_stripIndent {line : Line} (h : isIndented line = true) :
    closesFence ('`', 3) (stripIndent line) = false := by
  have hkeep : closesFence ('`', 3) line = false := by
    rw [closesFence, fenceOf_of_columns (columns_of_isIndented h)]
    rfl
  rw [stripIndent]
  split
  · exact hkeep
  · next hticks =>
    by_contra hcloses
    rw [Bool.not_eq_false, closesFence, Option.any_eq_true] at hcloses
    obtain ⟨f, hf, hcloses⟩ := hcloses
    rw [Bool.and_eq_true, Bool.and_eq_true, beq_iff_eq] at hcloses
    obtain ⟨n, _, hlen, _, _, _, hline⟩ := exists_of_fenceOf hf
    obtain ⟨k, hk⟩ : ∃ k, f.length = k + 3 := ⟨f.length - 3, by omega⟩
    rw [hcloses.1.1, hk, Nat.add_comm, List.replicate_add] at hline
    refine hticks ?_
    rw [hline, List.dropWhile_append_of_pos (by simp [isWhitespace])]
    rfl

theorem Mode.takes_read {m m' : Mode} {line written : Line} {rest : List Line}
    (h : m.takes line rest = some (written, m')) :
    readLine inert m.opened written = some m'.opened := by
  cases m with
  | prose => cases h
  | codeBlock =>
    rw [Mode.takes] at h
    split at h
    · next hindented =>
      cases h
      rw [Mode.opened, readLine, closesFence_stripIndent hindented]
      rfl
    · split at h
      · cases h
        rfl
      · cases h
  | fence ch len =>
    cases h
    rw [Mode.opened, readLine, closesFence_eq]
    split
    · rfl
    · rfl

theorem Mode.takes_valid {m m' : Mode} {line written : Line} {rest : List Line} (hm : m.Valid)
    (h : m.takes line rest = some (written, m')) : m'.Valid := by
  cases m with
  | prose => cases h
  | codeBlock =>
    rw [Mode.takes] at h
    split at h
    · cases h
      trivial
    · split at h
      · cases h
        trivial
      · cases h
  | fence ch len =>
    cases h
    split
    · trivial
    · exact hm

theorem Mode.leave_read {m : Mode} {line : Line} {rest : List Line} (h : m.takes line rest = none) :
    readLines inert m.opened m.leave = some none := by
  cases m with
  | prose => rfl
  | codeBlock => decide
  | fence ch len => cases h

theorem Mode.finish_read {m : Mode} (hm : m.Valid) :
    readLines inert m.opened m.finish = some none := by
  cases m with
  | prose => rfl
  | codeBlock => decide
  | fence ch len =>
    have hfence := fenceOf_spaces (Nat.zero_le 3) hm.1 hm.2 (by simp) (fun _ => List.not_mem_nil)
    rw [List.append_nil] at hfence
    have hcloses : closesFence (ch, len) (List.replicate len ch) = true := by
      rw [closesFence, show fenceOf (List.replicate len ch) = _ from hfence]
      simp [isBlank]
    rw [Mode.finish, Mode.opened, readLines_cons, readLine, hcloses]
    rfl

theorem SpacesThenTab.exists {line : Line} (h : SpacesThenTab line) :
    ∃ n rest, line = List.replicate n ' ' ++ '\t' :: rest ∧ isBlank rest = false := by
  obtain ⟨_, htab, hblank⟩ := h
  obtain ⟨n, rest, rfl, hrest⟩ := exists_run ' ' line
  rw [dropWhile_spaces hrest] at htab
  obtain ⟨rest, rfl⟩ := List.head?_eq_some_iff.mp htab
  refine ⟨n, rest, rfl, ?_⟩
  rw [isBlank, List.all_eq_false] at hblank ⊢
  obtain ⟨c, hc, hno⟩ := hblank
  rcases List.mem_append.mp hc with hc | hc
  · rw [List.eq_of_mem_replicate hc] at hno
    exact absurd rfl hno
  · rcases List.mem_cons.mp hc with rfl | hc
    · exact absurd rfl hno
    · exact ⟨c, hc, hno⟩

/-- A fence that is opened, when it does not become longer. -/
theorem classify_fence {line : Line} {f : Fence} (hf : fenceMarker line = some f)
    (hglue : ¬ Glued line) :
    readLine inert none (f.indent ++ List.replicate f.len f.ch ++ fenceInfo f.info) =
      some (some (f.ch, f.len)) := by
  obtain ⟨n, hn, hlen, hch, htick, hindent, _⟩ := exists_of_fenceMarker hf
  have htick' : f.ch = '`' → '`' ∉ fenceInfo f.info := by
    intro hc hmem
    rcases mem_fenceInfo hmem with h | h | h
    · exact htick hc h
    · exact absurd h (by decide)
    · exact absurd h (by decide)
  have hhead : f.ch ∉ (fenceInfo f.info).head? := by
    intro hmem
    rcases hch with hc | hc
    · rw [hc] at hmem
      exact htick' hc (List.mem_of_mem_head? hmem)
    · rw [hc] at hmem
      exact hglue ⟨f, hf, hc, hmem⟩
  have hread := fenceOf_spaces hn hlen hch hhead htick'
  rw [hindent, List.append_assoc, readLine, hread]
  dsimp only
  rw [if_pos (inert_fenceInfo f.info)]

/-- Prose has no fence. -/
theorem fenceOf_sanitizeLine {line : Line} (h : fenceMarker line = none) :
    fenceOf (sanitizeLine line) = none := by
  by_contra hsome
  obtain ⟨f, hf⟩ := Option.ne_none_iff_exists'.mp hsome
  obtain ⟨n, hn, hlen, hch, _, htick, hout⟩ := exists_of_fenceOf hf
  have hmarked := sanitizeLine_marked line
  rw [hout, ← List.append_assoc] at hmarked
  obtain ⟨l, hl, hmore⟩ := hmarked.split (by
    intro c hc
    rcases List.mem_append.mp hc with hc | hc
    · rw [List.eq_of_mem_replicate hc]; decide
    · rw [List.eq_of_mem_replicate hc]
      rcases hch with hc | hc
      · rw [hc]; decide
      · rw [hc]; decide)
  -- the run may go on in the line itself, where the escapes break it off
  obtain ⟨k, info, rfl, hinfo⟩ := exists_run f.char l
  have hline : line = List.replicate n ' ' ++ (List.replicate (f.length + k) f.char ++ info) := by
    rw [hl, List.replicate_add]
    simp only [List.append_assoc]
  have hfence := fenceOf_spaces hn (Nat.le_trans hlen (Nat.le_add_right _ k)) hch hinfo
    fun hc hmem => htick hc (hmore.mem (List.mem_append_right _ hmem))
  rw [← hline, fenceOf_eq, h] at hfence
  cases hfence

theorem isBlank_sanitizeLine {line : Line} (h : isBlank line = false) :
    isBlank (sanitizeLine line) = false := by
  rw [isBlank, List.all_eq_false] at h ⊢
  obtain ⟨c, hc, hblank⟩ := h
  exact ⟨c, (sanitizeLine_marked line).mem hc, hblank⟩

theorem sanitizeLine_of_blank {line : Line} (h : isBlank line = true) :
    sanitizeLine line = line := by
  have hline := sanitizeLine_blank (fun c hc => List.all_eq_true.mp h c hc) []
  rw [List.append_nil, show sanitizeLine [] = [] from rfl, List.append_nil] at hline
  exact hline

/-- Prose is read as prose, when it does not begin with some spaces and a tab. -/
theorem sanitizeLine_read {line : Line} (hnone : fenceMarker line = none)
    (hindented : isIndented line = false) (htab : ¬ SpacesThenTab line) :
    readLine inert none (sanitizeLine line) = some none := by
  have hprose : (isBlank (sanitizeLine line) || decide (columns (sanitizeLine line) ≤ 3)) = true := by
    rw [Bool.or_eq_true, decide_eq_true_eq]
    obtain ⟨n, rest, rfl, hrest⟩ := exists_run ' ' line
    have hspaces : ∀ c ∈ List.replicate n ' ', isBlankChar c = true := by
      intro c hc
      rw [List.eq_of_mem_replicate hc]; rfl
    by_cases hhead : rest.head? = some '\t'
    · left
      by_contra hblank
      have hline : isBlank (List.replicate n ' ' ++ rest) = false := by
        by_contra hall
        rw [Bool.not_eq_false] at hall
        rw [sanitizeLine_of_blank hall] at hblank
        exact hblank hall
      exact htab ⟨hindented, by rw [dropWhile_spaces hrest, hhead], hline⟩
    · right
      have hout : ∀ c ∈ (sanitizeLine rest).head?, isBlankChar c = false := by
        intro c hc
        by_contra hblank
        obtain ⟨o, ho⟩ : ∃ o, sanitizeLine rest = [c] ++ o := by
          cases hr : sanitizeLine rest with
          | nil => rw [hr] at hc; cases hc
          | cons d o => rw [hr] at hc; cases hc; exact ⟨o, rfl⟩
        rw [Bool.not_eq_false, isBlankChar, Bool.or_eq_true, beq_iff_eq, beq_iff_eq] at hblank
        have hmarked := sanitizeLine_marked rest
        rw [ho] at hmarked
        obtain ⟨l, rfl, _⟩ := hmarked.split (by
          intro d hd
          rw [List.mem_singleton.mp hd]
          rcases hblank with rfl | rfl
          · decide
          · decide)
        rcases hblank with rfl | rfl
        · exact hrest rfl
        · exact hhead rfl
      rw [Bool.eq_false_iff, Ne, isIndented_spaces hrest, not_or] at hindented
      rw [sanitizeLine_blank hspaces, columns_spaces hout]
      exact Nat.le_of_not_lt hindented.1
  rw [readLine, fenceOf_sanitizeLine hnone]
  dsimp only
  rw [if_pos hprose]

/-- **A line outside of a block** is read as the code has it. -/
theorem classify_read {line : Line} (hglue : ¬ Glued line) (htab : ¬ SpacesThenTab line) :
    readLines inert none (classify line).1 = some (classify line).2.opened := by
  rw [classify]
  cases hmarker : fenceMarker line with
  | some f =>
    dsimp only
    rw [readLines_cons, classify_fence hmarker hglue]
    rfl
  | none =>
    dsimp only
    split
    · next hindented =>
      have hopen : readLine inert none "```text".toList = some (some ('`', 3)) := by decide
      rw [readLines_cons, hopen, Option.bind_some, readLines_cons, readLine,
        closesFence_stripIndent hindented]
      rfl
    · next hindented =>
      rw [readLines_cons, sanitizeLine_read hmarker (Bool.eq_false_iff.mpr hindented) htab]
      rfl

/-- Or it begins with some spaces and a tab, and is read as code. -/
theorem classify_unread {line : Line} (htab : SpacesThenTab line) :
    readLines inert none (classify line).1 = none := by
  have hindented : ¬ isIndented line = true := Bool.eq_false_iff.mp htab.1
  obtain ⟨n, rest, rfl, hblank⟩ := htab.exists
  have hnone : fenceMarker (List.replicate n ' ' ++ '\t' :: rest) = none := by
    rw [← fenceOf_eq_none]
    refine fenceOf_of_columns ?_
    rw [columns, indentation_spaces]
    exact indentation_tab _ _
  have hspaces : ∀ c ∈ List.replicate n ' ' ++ ['\t'], isBlankChar c = true := by
    intro c hc
    rcases List.mem_append.mp hc with hc | hc
    · rw [List.eq_of_mem_replicate hc]; rfl
    · rw [List.mem_singleton.mp hc]; rfl
  have hout : sanitizeLine (List.replicate n ' ' ++ '\t' :: rest) =
      List.replicate n ' ' ++ '\t' :: sanitizeLine rest := by
    have h := sanitizeLine_blank hspaces rest
    rwa [List.append_assoc, List.append_assoc] at h
  have hcols : 4 ≤ columns (List.replicate n ' ' ++ '\t' :: sanitizeLine rest) := by
    rw [columns, indentation_spaces]
    exact indentation_tab _ _
  have hno : isBlank (List.replicate n ' ' ++ '\t' :: sanitizeLine rest) = false := by
    have h := isBlank_sanitizeLine hblank
    rw [isBlank] at h ⊢
    rw [List.all_append, List.all_cons, h, Bool.and_false, Bool.and_false]
  rw [classify, hnone]
  dsimp only
  rw [if_neg hindented, readLines_cons, hout, readLine, fenceOf_of_columns hcols]
  dsimp only
  rw [hno, Bool.false_or, if_neg (by rw [decide_eq_true_eq]; omega)]
  rfl

theorem classify_valid (line : Line) : (classify line).2.Valid := by
  rw [classify]
  cases hmarker : fenceMarker line with
  | some f =>
    obtain ⟨_, _, hlen, hch, _⟩ := exists_of_fenceMarker hmarker
    exact ⟨hlen, hch⟩
  | none =>
    dsimp only
    split
    · trivial
    · trivial

/-- **The lines**: the reader and the code have the same fence open after each of them. -/
theorem sanitizeLines_read {m : Mode} (hm : m.Valid) {ls : List Line}
    (hglue : ∀ l ∈ reached m ls, ¬ Glued l) :
    readLines inert m.opened (sanitizeLines m ls) = some none ↔
      ∀ l ∈ reached m ls, ¬ SpacesThenTab l := by
  induction ls generalizing m with
  | nil =>
    rw [sanitizeLines, Mode.finish_read hm]
    simp [reached]
  | cons line rest ih =>
    rw [sanitizeLines]
    rw [reached] at hglue ⊢
    cases htakes : m.takes line rest with
    | some taken =>
      obtain ⟨written, m'⟩ := taken
      rw [htakes] at hglue
      dsimp only at hglue ⊢
      rw [readLines_cons, Mode.takes_read htakes, Option.bind_some]
      exact ih (Mode.takes_valid hm htakes) hglue
    | none =>
      rw [htakes] at hglue
      dsimp only at hglue ⊢
      rw [List.append_assoc, readLines_append, Mode.leave_read htakes, Option.bind_some,
        readLines_append, List.forall_mem_cons]
      by_cases htab : SpacesThenTab line
      · rw [classify_unread htab]
        exact ⟨(nomatch ·), fun h => absurd htab h.1⟩
      · rw [classify_read (hglue line List.mem_cons_self) htab, Option.bind_some,
          ih (classify_valid line) fun l hl => hglue l (List.mem_cons_of_mem line hl)]
        exact ⟨fun h => ⟨htab, h⟩, fun h => h.2⟩

/-! ## The text -/

/-- A line that is one. -/
def OneLine (l : Line) : Prop := '\n' ∉ l ∧ '\r' ∉ l

theorem OneLine.subset {l l' : Line} (h : OneLine l) (hsub : ∀ c ∈ l', c ∈ l) : OneLine l' :=
  ⟨fun hc => h.1 (hsub _ hc), fun hc => h.2 (hsub _ hc)⟩

theorem stripIndent_subset (line : Line) : ∀ c ∈ stripIndent line, c ∈ line := by
  have hstart : ∀ start : Line, ∀ l ∈ stripStart start line, ∀ c ∈ l, c ∈ line := by
    intro start l hl
    rw [stripStart] at hl
    split at hl
    · cases hl
      exact fun c hc => List.mem_of_mem_drop hc
    · cases hl
  rw [stripIndent]
  split
  · exact fun c hc => hc
  · cases hspaces : stripStart "    ".toList line with
    | some l => exact hstart _ l hspaces
    | none =>
      cases htab : stripStart "\t".toList line with
      | some l => exact hstart _ l htab
      | none => exact fun c hc => hc

theorem sanitizeLine_oneLine {line : Line} (h : OneLine line) : OneLine (sanitizeLine line) := by
  have hmem : ∀ c ∈ sanitizeLine line, c ∈ line ∨ c ∈ marks :=
    fun c hc => (sanitizeLine_marked line).mem_or hc
  exact ⟨fun hc => (hmem _ hc).elim h.1 (by decide), fun hc => (hmem _ hc).elim h.2 (by decide)⟩

theorem fence_oneLine {line : Line} {f : Fence} (hf : fenceMarker line = some f) (h : OneLine line) :
    OneLine (f.indent ++ List.replicate f.len f.ch ++ fenceInfo f.info) := by
  obtain ⟨n, _, _, hch, _, hindent, rfl⟩ := exists_of_fenceMarker hf
  have hbreak : ∀ c, c ∈ f.indent ++ List.replicate f.len f.ch ++ fenceInfo f.info →
      c ∈ List.replicate n ' ' ++ (List.replicate f.len f.ch ++ f.info) ∨
        c ∈ "rust,ignore".toList ∨ c ∈ "text".toList := by
    intro c hc
    rw [hindent, List.append_assoc] at hc
    rcases List.mem_append.mp hc with hc | hc
    · exact .inl (List.mem_append_left _ hc)
    · rcases List.mem_append.mp hc with hc | hc
      · exact .inl (List.mem_append_right _ (List.mem_append_left _ hc))
      · exact (mem_fenceInfo hc).imp_left fun hc =>
          List.mem_append_right _ (List.mem_append_right _ hc)
  refine ⟨fun hc => ?_, fun hc => ?_⟩
  · rcases hbreak _ hc with hc | hc | hc
    · exact h.1 hc
    · exact absurd hc (by decide)
    · exact absurd hc (by decide)
  · rcases hbreak _ hc with hc | hc | hc
    · exact h.2 hc
    · exact absurd hc (by decide)
    · exact absurd hc (by decide)

theorem classify_oneLine {line : Line} (h : OneLine line) : ∀ l ∈ (classify line).1, OneLine l := by
  rw [classify]
  cases hmarker : fenceMarker line with
  | some f =>
    intro l hl
    rw [List.mem_singleton.mp hl]
    exact fence_oneLine hmarker h
  | none =>
    dsimp only
    split
    · intro l hl
      rcases List.mem_cons.mp hl with rfl | hl
      · exact ⟨by decide, by decide⟩
      · rw [List.mem_singleton.mp hl]
        exact h.subset (stripIndent_subset line)
    · intro l hl
      rw [List.mem_singleton.mp hl]
      exact sanitizeLine_oneLine h

theorem Mode.takes_oneLine {m m' : Mode} {line written : Line} {rest : List Line} (hl : OneLine line)
    (h : m.takes line rest = some (written, m')) : OneLine written := by
  cases m with
  | prose => cases h
  | codeBlock =>
    rw [Mode.takes] at h
    split at h
    · cases h
      exact hl.subset (stripIndent_subset line)
    · split at h
      · cases h
        exact ⟨List.not_mem_nil, List.not_mem_nil⟩
      · cases h
  | fence ch len =>
    cases h
    exact hl

theorem Mode.leave_oneLine (m : Mode) : ∀ l ∈ m.leave, OneLine l := by
  cases m with
  | codeBlock =>
    intro l hl
    rw [List.mem_singleton.mp hl]
    exact ⟨by decide, by decide⟩
  | _ => exact fun l hl => absurd hl List.not_mem_nil

theorem Mode.finish_oneLine {m : Mode} (hm : m.Valid) : ∀ l ∈ m.finish, OneLine l := by
  cases m with
  | prose => exact fun l hl => absurd hl List.not_mem_nil
  | codeBlock => exact Mode.leave_oneLine .codeBlock
  | fence ch len =>
    intro l hl
    have hrun : ∀ c : Char, c ≠ '`' → c ≠ '~' → c ∉ l := by
      intro c htick htilde hc
      rw [List.mem_singleton.mp hl] at hc
      rw [List.eq_of_mem_replicate hc] at htick htilde
      exact hm.2.elim htick htilde
    exact ⟨hrun _ (by decide) (by decide), hrun _ (by decide) (by decide)⟩

theorem sanitizeLines_oneLine {m : Mode} (hm : m.Valid) {ls : List Line} (hls : ∀ l ∈ ls, OneLine l) :
    ∀ l ∈ sanitizeLines m ls, OneLine l := by
  induction ls generalizing m with
  | nil => exact Mode.finish_oneLine hm
  | cons line rest ih =>
    have hline := hls line List.mem_cons_self
    have hrest := fun l hl => hls l (List.mem_cons_of_mem line hl)
    intro l hl
    rw [sanitizeLines] at hl
    cases htakes : m.takes line rest with
    | some taken =>
      obtain ⟨written, m'⟩ := taken
      rw [htakes] at hl
      rcases List.mem_cons.mp hl with rfl | hl
      · exact Mode.takes_oneLine hline htakes
      · exact ih (Mode.takes_valid hm htakes) hrest l hl
    | none =>
      rw [htakes] at hl
      rcases List.mem_append.mp hl with hl | hl
      · rcases List.mem_append.mp hl with hl | hl
        · exact Mode.leave_oneLine m l hl
        · exact classify_oneLine hline l hl
      · exact ih (classify_valid line) hrest l hl

theorem textLines_no_feed (text : List Char) : ∀ l ∈ textLines text, '\n' ∉ l := by
  have hpieces : ∀ l ∈ text.splitOn '\n', '\n' ∉ l := by
    intro l hl hmem
    have h := (mem_splitOnP hl '\n' hmem).2
    cases h
  intro l hl
  rw [textLines] at hl
  rcases List.mem_append.mp hl with hl | hl
  · obtain ⟨piece, hpiece, rfl⟩ := List.mem_map.mp hl
    have hno := hpieces piece (List.dropLast_subset _ hpiece)
    split
    · exact fun hmem => hno (List.dropLast_subset _ hmem)
    · exact hno
  · rw [Option.mem_toList, Option.filter_eq_some_iff] at hl
    exact hpieces l (List.mem_of_getLast? hl.1)

/-- Lines are read as they are written. -/
theorem tame_intercalate {ls : List Line} (hls : ∀ l ∈ ls, OneLine l) :
    Tame inert (List.intercalate ['\n'] ls) ↔ readLines inert none ls = some none := by
  cases ls with
  | nil => exact ⟨fun _ => rfl, fun _ => by decide⟩
  | cons l ls => rw [Tame, linesOf_intercalate (List.cons_ne_nil l ls) hls]

/-- **What comes out of a comment**, unless its lines end otherwise for the reader or a fence becomes
longer. Nothing is compiled, exactly when no line outside of a block begins with some spaces and a
tab. -/
theorem sanitizeComment_tame_iff (text : String) (hcr : ∀ l ∈ textLines text.toList, '\r' ∉ l)
    (hglue : ∀ l ∈ reached .prose (textLines text.toList), ¬ Glued l) :
    Tame inert (sanitizeComment text).toList ↔
      ∀ l ∈ reached .prose (textLines text.toList), ¬ SpacesThenTab l := by
  have hlines := sanitizeLines_oneLine (m := .prose) trivial
    fun l hl => ⟨textLines_no_feed text.toList l hl, hcr l hl⟩
  rw [sanitizeComment, String.toList_ofList, tame_intercalate hlines]
  exact sanitizeLines_read (m := .prose) trivial hglue

/-- An indented line, a fence of tildes and some prose: nothing is compiled. -/
theorem sanitizeComment_tame_example :
    Tame inert (sanitizeComment "See\n\tlet x = 1;\n\n~~~rust\nlet y = 2;").toList := by
  exact (sanitizeComment_tame_iff _ (by decide) (by decide)).mpr (by decide)

/-- A line of code that a tab follows a space in, a fence that grows, and a fence between carriage
returns. -/
theorem sanitizeComment_not_tame :
    ¬ Tame inert (sanitizeComment " \tlet x = 1;").toList ∧
      ¬ Tame inert (sanitizeComment "~~~ ~\nlet x = 1;\n~~~").toList ∧
      ¬ Tame inert (sanitizeComment "a\r```rust\rlet x = 1;\r```").toList := by
  decide +kernel

end ConnectRpc.Comments
