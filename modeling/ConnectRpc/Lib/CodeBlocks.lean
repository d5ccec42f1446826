import Mathlib.Tactic.Common
import Mathlib.Data.List.Basic

/-!
# Code blocks of Markdown

CommonMark finds code blocks line by line: a line that is indented by four columns or more is code,
and so is what stands between a fence and one that closes it. Lists and quotes, inside of which
the lines are read anew, are left out.

A text is `Tame` when every fence has an info string that is accepted, every fence is closed, and
no line is code by its indentation. It is read by `readLine`, with the open fence as its state;
reading some lines after others is `readLines_append`.
-/

namespace ConnectRpc.Lib

/-- A line. -/
abbrev Line := List Char

/-- The lines of a text. A line feed ends one, and a carriage return, and the two together. -/
def linesOf : List Char → List Line
  | [] => [[]]
  | '\r' :: '\n' :: rest => [] :: linesOf rest
  | c :: rest =>
    if c = '\n' ∨ c = '\r' then [] :: linesOf rest
    else
      match linesOf rest with
      | [] => [[c]]
      | l :: ls => (c :: l) :: ls

/-- A space or a tab. -/
def isBlankChar (c : Char) : Bool := c == ' ' || c == '\t'

/-- A line with nothing else. -/
def isBlank (l : Line) : Bool := l.all isBlankChar

/-- The column that the text of a line begins at, and the text. A tab goes to the next column that
four divides. -/
def indentation : ℕ → Line → ℕ × Line
  | col, [] => (col, [])
  | col, c :: l =>
    if c = ' ' then indentation (col + 1) l
    else if c = '\t' then indentation (col + (4 - col % 4)) l
    else (col, c :: l)

/-- How far a line is indented. -/
def columns (l : Line) : ℕ := (indentation 0 l).1

/-- A fence. -/
structure CodeFence where
  /-- a backtick or a tilde -/
  char : Char
  /-- how many there are -/
  length : ℕ
  /-- the info string -/
  info : Line
  deriving DecidableEq

/-- The fence at the beginning of a text. -/
def fenceAt : Line → Option CodeFence
  | [] => none
  | c :: l =>
    if c = '`' ∨ c = '~' then
      let info := l.dropWhile (· == c)
      let length := (l.takeWhile (· == c)).length + 1
      if 3 ≤ length ∧ (c = '`' → '`' ∉ info) then some ⟨c, length, info⟩ else none
    else none

/-- The fence on a line. It is indented by three columns at most. -/
def fenceOf (l : Line) : Option CodeFence :=
  if columns l ≤ 3 then fenceAt (indentation 0 l).2 else none

/-- Whether a fence on a line closes an open one. -/
def closesFence (opened : Char × ℕ) (l : Line) : Bool :=
  (fenceOf l).any fun f => f.char == opened.1 && decide (opened.2 ≤ f.length) && isBlank f.info

/-- The words of an info string. -/
def words (l : Line) : List Line :=
  (l.splitOnP fun c => c == ',' || c == ' ' || c == '\t').filter fun w => !w.isEmpty

section Reading

variable (ok : Line → Bool)

/-- Reads a line, with the fence that is open. There is no state after one that must not be. -/
def readLine (opened : Option (Char × ℕ)) (l : Line) : Option (Option (Char × ℕ)) :=
  match opened with
  | some fence => some (if closesFence fence l then none else some fence)
  | none =>
    match fenceOf l with
    | some f => if ok f.info then some (some (f.char, f.length)) else none
    | none => if isBlank l || decide (columns l ≤ 3) then some none else none

/-- Reads some lines. -/
def readLines (opened : Option (Char × ℕ)) (ls : List Line) : Option (Option (Char × ℕ)) :=
  ls.foldlM (readLine ok) opened

/-- A text that has no other code blocks than fences with an accepted info string, all of them
closed. -/
def Tame (text : List Char) : Prop :=
  readLines ok none (linesOf text) = some none

instance (text : List Char) : Decidable (Tame ok text) :=
  inferInstanceAs (Decidable (readLines ok none (linesOf text) = some none))

theorem readLines_append (opened : Option (Char × ℕ)) (ls ls' : List Line) :
    readLines ok opened (ls ++ ls') =
      (readLines ok opened ls).bind fun opened => readLines ok opened ls' :=
  List.foldlM_append

theorem readLines_cons (opened : Option (Char × ℕ)) (l : Line) (ls : List Line) :
    readLines ok opened (l :: ls) =
      (readLine ok opened l).bind fun opened => readLines ok opened ls :=
  List.foldlM_cons

end Reading

/-! ## Lines -/

theorem linesOf_cons {c : Char} (hn : c ≠ '\n') (hr : c ≠ '\r') {text : List Char} {l : Line}
    {ls : List Line} (h : linesOf text = l :: ls) : linesOf (c :: text) = (c :: l) :: ls := by
  rw [linesOf, if_neg (by simp [hn, hr]), h]
  rintro rest rfl
  exact absurd rfl hr

theorem linesOf_append {l : Line} (hl : '\n' ∉ l ∧ '\r' ∉ l) {text : List Char} {l' : Line}
    {ls : List Line} (h : linesOf text = l' :: ls) : linesOf (l ++ text) = (l ++ l') :: ls := by
  induction l with
  | nil => exact h
  | cons c l ih =>
    obtain ⟨hn, hr⟩ := hl
    rw [List.mem_cons, not_or] at hn hr
    exact linesOf_cons (Ne.symm hn.1) (Ne.symm hr.1) (ih ⟨hn.2, hr.2⟩)

/-- The lines of some lines. -/
theorem linesOf_intercalate : ∀ {ls : List Line}, ls ≠ [] → (∀ l ∈ ls, '\n' ∉ l ∧ '\r' ∉ l) →
    linesOf (List.intercalate ['\n'] ls) = ls := by
  intro ls
  induction ls with
  | nil => exact fun h _ => absurd rfl h
  | cons l ls ih =>
    intro _ hls
    have hl := hls l List.mem_cons_self
    cases ls with
    | nil =>
      rw [List.intercalate_singleton]
      have h := linesOf_append hl (show linesOf [] = [[]] from rfl)
      rwa [List.append_nil] at h
    | cons l' ls =>
      have hrest := ih (List.cons_ne_nil l' ls) fun x hx => hls x (List.mem_cons_of_mem l hx)
      have hbreak : linesOf ('\n' :: List.intercalate ['\n'] (l' :: ls)) = [] :: l' :: ls := by
        rw [linesOf, if_pos (.inl rfl), hrest]
        intro rest h
        cases h
      rw [List.intercalate_cons_cons, List.append_assoc]
      have h := linesOf_append hl hbreak
      rwa [List.append_nil] at h

/-! ## Indentation -/

theorem le_indentation (col : ℕ) (l : Line) : col ≤ (indentation col l).1 := by
  induction l generalizing col with
  | nil => exact Nat.le_refl _
  | cons c l ih =>
    rw [indentation]
    split
    · exact Nat.le_trans (Nat.le_succ col) (ih _)
    · split
      · exact Nat.le_trans (Nat.le_add_right _ _) (ih _)
      · exact Nat.le_refl _

/-- A tab leads to the fourth column at least. -/
theorem indentation_tab (col : ℕ) (l : Line) : 4 ≤ (indentation col ('\t' :: l)).1 := by
  rw [indentation, if_neg (by decide), if_pos rfl]
  refine Nat.le_trans ?_ (le_indentation _ _)
  omega

theorem indentation_spaces (col n : ℕ) (l : Line) :
    indentation col (List.replicate n ' ' ++ l) = indentation (col + n) l := by
  induction n generalizing col with
  | zero => rfl
  | succ n ih =>
    rw [List.replicate_succ, List.cons_append, indentation, if_pos rfl, ih, Nat.add_assoc,
      Nat.add_comm 1 n]

theorem indentation_text (col : ℕ) {l : Line} (h : ∀ c ∈ l.head?, isBlankChar c = false) :
    indentation col l = (col, l) := by
  cases l with
  | nil => rfl
  | cons c l =>
    have hc := h c rfl
    rw [isBlankChar, Bool.or_eq_false_iff] at hc
    rw [indentation, if_neg (by simpa using hc.1), if_neg (by simpa using hc.2)]

theorem columns_spaces {n : ℕ} {l : Line} (h : ∀ c ∈ l.head?, isBlankChar c = false) :
    columns (List.replicate n ' ' ++ l) = n := by
  rw [columns, indentation_spaces, indentation_text _ h, Nat.zero_add]

/-- Every line begins with a run of a character, if only an empty one. -/
theorem exists_run (c : Char) (l : Line) :
    ∃ n rest, l = List.replicate n c ++ rest ∧ c ∉ rest.head? := by
  induction l with
  | nil => exact ⟨0, [], rfl, fun h => nomatch h⟩
  | cons d l ih =>
    by_cases hd : d = c
    · obtain ⟨n, rest, rfl, hrest⟩ := ih
      exact ⟨n + 1, rest, by rw [hd]; rfl, hrest⟩
    · exact ⟨0, d :: l, rfl, fun h => hd (Option.some.inj h)⟩

/-! ## Fences -/

/-- A fence that is written out. -/
theorem fenceOf_spaces {n length : ℕ} {c : Char} {info : Line} (hn : n ≤ 3) (hlength : 3 ≤ length)
    (hc : c = '`' ∨ c = '~') (hinfo : c ∉ info.head?) (htick : c = '`' → '`' ∉ info) :
    fenceOf (List.replicate n ' ' ++ (List.replicate length c ++ info)) = some ⟨c, length, info⟩ := by
  obtain ⟨k, rfl⟩ : ∃ k, length = k + 1 := ⟨length - 1, by omega⟩
  have hhead : ∀ d ∈ (List.replicate (k + 1) c ++ info).head?, isBlankChar d = false := by
    intro d hd
    rw [List.replicate_succ, List.cons_append, List.head?_cons] at hd
    cases hd
    rcases hc with rfl | rfl
    · rfl
    · rfl
  have htext : (indentation 0 (List.replicate n ' ' ++ (List.replicate (k + 1) c ++ info))).2 =
      List.replicate (k + 1) c ++ info := by
    rw [indentation_spaces, indentation_text _ hhead]
  have htake : (List.replicate k c ++ info).takeWhile (· == c) = List.replicate k c := by
    rw [List.takeWhile_append_of_pos (by simp)]
    cases info with
    | nil => exact List.append_nil _
    | cons d info =>
      have hd : ¬ (d == c) = true := by
        intro hdc
        exact hinfo (by rw [List.head?_cons, eq_of_beq hdc]; rfl)
      rw [List.takeWhile_cons, if_neg hd, List.append_nil]
  have hdrop : (List.replicate k c ++ info).dropWhile (· == c) = info := by
    have hboth := List.takeWhile_append_dropWhile (p := (· == c)) (l := List.replicate k c ++ info)
    rw [htake] at hboth
    exact List.append_cancel_left hboth
  rw [fenceOf, columns_spaces hhead, if_pos hn, htext, List.replicate_succ, List.cons_append, fenceAt,
    if_pos hc]
  dsimp only
  rw [htake, hdrop, List.length_replicate, if_pos ⟨hlength, htick⟩]

/-- And every fence is one. -/
theorem exists_of_fenceOf {l : Line} {f : CodeFence} (h : fenceOf l = some f) :
    ∃ n, n ≤ 3 ∧ 3 ≤ f.length ∧ (f.char = '`' ∨ f.char = '~') ∧ f.char ∉ f.info.head? ∧
      (f.char = '`' → '`' ∉ f.info) ∧
      l = List.replicate n ' ' ++ (List.replicate f.length f.char ++ f.info) := by
  rw [fenceOf] at h
  split at h
  · next hcol =>
    obtain ⟨n, rest, rfl, hrest⟩ := exists_run ' ' l
    have hblank : ∀ c ∈ rest.head?, isBlankChar c = false := by
      intro c hc
      rw [isBlankChar, Bool.or_eq_false_iff]
      have hspace : c ≠ ' ' := fun h => hrest (h ▸ hc)
      refine ⟨by simpa using hspace, ?_⟩
      cases rest with
      | nil => cases hc
      | cons d rest =>
        obtain rfl := Option.some.inj hc
        by_contra htab
        have hd : d = '\t' := by simpa using htab
        subst hd
        rw [columns, indentation_spaces] at hcol
        have := indentation_tab (0 + n) rest
        omega
    rw [indentation_spaces, indentation_text _ hblank] at h
    rw [columns_spaces hblank] at hcol
    cases rest with
    | nil => cases h
    | cons c rest =>
      rw [fenceAt] at h
      split at h
      · next hc =>
        dsimp only at h
        split at h
        · next hlong =>
          cases h
          refine ⟨n, hcol, hlong.1, hc, ?_, hlong.2, ?_⟩
          · intro hhead
            have hnot := List.head?_dropWhile_not (· == c) rest
            dsimp only at hhead
            rw [Option.mem_def.mp hhead] at hnot
            simp at hnot
          · have hsplit := List.takeWhile_append_dropWhile (p := (· == c)) (l := rest)
            have hall : rest.takeWhile (· == c) =
                List.replicate (rest.takeWhile (· == c)).length c := by
              refine List.eq_replicate_iff.mpr ⟨rfl, fun d hd => ?_⟩
              have := List.all_takeWhile (p := (· == c)) (l := rest)
              exact eq_of_beq (List.all_eq_true.mp this d hd)
            dsimp only
            rw [List.replicate_succ, List.cons_append, ← hall, hsplit]
        · cases h
      · cases h
  · cases h

/-! ## Words -/

theorem mem_splitOnP {p : Char → Bool} {l w : Line} (hw : w ∈ l.splitOnP p) :
    ∀ c ∈ w, c ∈ l ∧ p c = false := by
  induction l generalizing w with
  | nil =>
    rw [List.splitOnP_nil, List.mem_singleton] at hw
    exact fun c hc => absurd hc (hw ▸ List.not_mem_nil)
  | cons d l ih =>
    intro c hc
    have hlater : ∀ {v : Line}, v ∈ l.splitOnP p → c ∈ v → c ∈ d :: l ∧ p c = false :=
      fun hv hcv => ⟨List.mem_cons_of_mem d (ih hv c hcv).1, (ih hv c hcv).2⟩
    rw [List.splitOnP_cons_eq_if_modifyHead] at hw
    split at hw
    · rcases List.mem_cons.mp hw with rfl | hw
      · exact absurd hc List.not_mem_nil
      · exact hlater hw hc
    · next hd =>
      rcases hl : l.splitOnP p with _ | ⟨v, vs⟩
      · exact absurd hl (List.splitOnP_ne_nil p l)
      · rw [hl, List.modifyHead_cons] at hw
        rcases List.mem_cons.mp hw with rfl | hw
        · rcases List.mem_cons.mp hc with rfl | hc
          · exact ⟨List.mem_cons_self, Bool.eq_false_iff.mpr hd⟩
          · exact hlater (hl ▸ List.mem_cons_self) hc
        · exact hlater (hl ▸ List.mem_cons_of_mem v hw) hc

/-- A word is made of what the info string is made of, without separators. -/
theorem mem_words {l w : Line} (hw : w ∈ words l) :
    w ≠ [] ∧ ∀ c ∈ w, c ∈ l ∧ (c == ',' || c == ' ' || c == '\t') = false := by
  obtain ⟨hmem, hne⟩ := List.mem_filter.mp hw
  exact ⟨by simpa using hne, mem_splitOnP hmem⟩

theorem mem_intercalate {c sep : Char} : ∀ {ws : List Line}, c ∈ List.intercalate [sep] ws →
    c = sep ∨ ∃ w ∈ ws, c ∈ w := by
  intro ws
  induction ws with
  | nil => exact fun h => absurd h List.not_mem_nil
  | cons w ws ih =>
    intro h
    cases ws with
    | nil =>
      rw [List.intercalate_singleton] at h
      exact .inr ⟨w, List.mem_cons_self, h⟩
    | cons w' ws =>
      rw [List.intercalate_cons_cons, List.append_assoc, List.mem_append] at h
      rcases h with h | h
      · exact .inr ⟨w, List.mem_cons_self, h⟩
      · rcases List.mem_cons.mp h with rfl | h
        · exact .inl rfl
        · rcases ih h with h | ⟨v, hv, hc⟩
          · exact .inl h
          · exact .inr ⟨v, List.mem_cons_of_mem w hv, hc⟩

/-- The words of some words are these. -/
theorem words_intercalate : ∀ {ws : List Line},
    (∀ w ∈ ws, w ≠ [] ∧ ∀ c ∈ w, (c == ',' || c == ' ' || c == '\t') = false) →
    words (List.intercalate [','] ws) = ws := by
  intro ws
  induction ws with
  | nil => exact fun _ => rfl
  | cons w ws ih =>
    intro hws
    obtain ⟨hne, hw⟩ := hws w List.mem_cons_self
    have hkeep : ∀ rest, (w :: rest).filter (fun w : Line => !w.isEmpty) =
        w :: rest.filter (fun w : Line => !w.isEmpty) :=
      fun rest => List.filter_cons_of_pos (by simpa using hne)
    have hrest := ih fun x hx => hws x (List.mem_cons_of_mem w hx)
    cases ws with
    | nil =>
      rw [List.intercalate_singleton, words, List.splitOnP_eq_singleton hw, hkeep]
      rfl
    | cons w' ws =>
      rw [List.intercalate_cons_cons, List.append_assoc, List.singleton_append, words,
        List.splitOnP_append_cons_of_forall_mem hw ',' rfl, hkeep]
      exact congrArg (w :: ·) hrest

end ConnectRpc.Lib
