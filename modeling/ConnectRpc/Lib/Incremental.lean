import Mathlib.Tactic.Common
import Mathlib.Data.List.Basic

/-!
# Incremental parsing

A **contiguous parser** looks at the whole unread input and either fails, asks
for more, or cuts one item off the front. An **incremental machine** is fed the
same input a chunk at a time and keeps what it could not use yet in its own
state.

This file says when the second computes the first. `Stable` is what a contiguous
parser must satisfy for the question to make sense (an answer is not changed by
input that arrives later), `parse` runs a parser to the end of its input, and
`Refines` is the one-step obligation on a machine, stated through a function
`held` that reads the unused input back off its state. `feedChunks_agrees` is the
result: however the input is cut into chunks, the machine yields the parser's
items and stops where the parser stops.
-/

namespace ConnectRpc.Lib

universe u v w x

variable {α : Type u} {β : Type v} {ε : Type w} {σ : Type x}

/-- A contiguous parser: fail, ask for more input (`none`), or return one item
and the input after it. -/
abbrev Parser (α : Type u) (β : Type v) (ε : Type w) : Type (max u v w) :=
  List α → Except ε (Option (β × List α))

/-- What input arriving later may not change: an item, once cut off the front,
stays the same item, and a failure stays the same failure. Only "more input" may
become something else. Every item uses up some input. -/
structure Stable (p : Parser α β ε) : Prop where
  /-- an item uses up input -/
  shorter : ∀ {a r : List α} {b : β}, p a = .ok (some (b, r)) → r.length < a.length
  /-- an item is not changed by later input -/
  item_append : ∀ {a r : List α} {b : β} (c : List α),
    p a = .ok (some (b, r)) → p (a ++ c) = .ok (some (b, r ++ c))
  /-- a failure is not changed by later input -/
  error_append : ∀ {a : List α} {e : ε} (c : List α),
    p a = .error e → p (a ++ c) = .error e

/-- How a run over the whole input stops: on a failure, or with a remainder that
holds no complete item. -/
inductive Stop (α : Type u) (ε : Type w) : Type (max u w) where
  /-- the parser failed -/
  | error : ε → Stop α ε
  /-- the input left over -/
  | rest : List α → Stop α ε
  deriving DecidableEq

/-- A run over the whole input: the items, in order, and how it stopped. -/
structure Parsed (α : Type u) (β : Type v) (ε : Type w) : Type (max u v w) where
  /-- the items cut off, in order -/
  items : List β
  /-- how the run stopped -/
  stop : Stop α ε
  deriving DecidableEq

/-- Put items in front of a run. -/
def Parsed.prepend (bs : List β) (q : Parsed α β ε) : Parsed α β ε :=
  { q with items := bs ++ q.items }

@[simp] theorem Parsed.items_prepend (bs : List β) (q : Parsed α β ε) :
    (q.prepend bs).items = bs ++ q.items := rfl

@[simp] theorem Parsed.stop_prepend (bs : List β) (q : Parsed α β ε) :
    (q.prepend bs).stop = q.stop := rfl

@[simp] theorem Parsed.prepend_nil (q : Parsed α β ε) : q.prepend [] = q := rfl

theorem Parsed.prepend_prepend (bs cs : List β) (q : Parsed α β ε) :
    (q.prepend cs).prepend bs = q.prepend (bs ++ cs) := by
  simp [Parsed.prepend]

/-- Run a parser again and again, at most `fuel` times. -/
def parseFuel (p : Parser α β ε) : ℕ → List α → Parsed α β ε
  | 0, a => ⟨[], .rest a⟩
  | n + 1, a =>
    match p a with
    | .error e => ⟨[], .error e⟩
    | .ok none => ⟨[], .rest a⟩
    | .ok (some (b, r)) => (parseFuel p n r).prepend [b]

/-- Run a parser to the end of its input. Every item uses up input, so the
length of the input is fuel enough (`parse_item`). -/
def parse (p : Parser α β ε) (a : List α) : Parsed α β ε :=
  parseFuel p (a.length + 1) a

variable {p : Parser α β ε}

/-- Fuel past the length of the input changes nothing. -/
theorem Stable.parseFuel_eq (hp : Stable p) :
    ∀ (n m : ℕ) (a : List α), a.length < n → a.length < m →
      parseFuel p n a = parseFuel p m a := by
  intro n
  induction n with
  | zero => intro m a hn; omega
  | succ n ih =>
    intro m a hn hm
    obtain ⟨m, rfl⟩ : ∃ m', m = m' + 1 := ⟨m - 1, by omega⟩
    rcases ha : p a with e | _ | ⟨b, r⟩
    · simp [parseFuel, ha]
    · simp [parseFuel, ha]
    · have hr := hp.shorter ha
      simp only [parseFuel, ha]
      rw [ih m r (by omega) (by omega)]

theorem parse_error {a : List α} {e : ε} (h : p a = .error e) :
    parse p a = ⟨[], .error e⟩ := by
  simp [parse, parseFuel, h]

theorem parse_none {a : List α} (h : p a = .ok none) : parse p a = ⟨[], .rest a⟩ := by
  simp [parse, parseFuel, h]

theorem Stable.parse_item (hp : Stable p) {a r : List α} {b : β}
    (h : p a = .ok (some (b, r))) : parse p a = (parse p r).prepend [b] := by
  have hr := hp.shorter h
  have hstep : parse p a = (parseFuel p a.length r).prepend [b] := by
    simp only [parse, parseFuel, h]
  rw [hstep, hp.parseFuel_eq a.length (r.length + 1) r (by omega) (by omega), parse]

/-- The remainder a run stops with holds no complete item. -/
theorem Stable.parse_rest (hp : Stable p) :
    ∀ {a r : List α}, (parse p a).stop = .rest r → p r = .ok none := by
  intro a
  induction h : a.length using Nat.strongRecOn generalizing a with
  | ind n ih =>
    intro r hr
    rcases ha : p a with e | _ | ⟨b, r'⟩
    · rw [parse_error ha] at hr
      cases hr
    · rw [parse_none ha] at hr
      cases hr
      exact ha
    · rw [hp.parse_item ha] at hr
      exact ih r'.length (h ▸ hp.shorter ha) rfl hr

/-- An error a run stops with is one of the parser. -/
theorem Stable.parse_failed (hp : Stable p) :
    ∀ {a : List α} {e : ε}, (parse p a).stop = .error e → ∃ r, p r = .error e := by
  intro a
  induction h : a.length using Nat.strongRecOn generalizing a with
  | ind n ih =>
    intro e he
    rcases ha : p a with e' | _ | ⟨b, r⟩
    · rw [parse_error ha] at he
      cases he
      exact ⟨a, ha⟩
    · rw [parse_none ha] at he
      cases he
    · rw [hp.parse_item ha] at he
      exact ih r.length (h ▸ hp.shorter ha) rfl he

/-- **Parsing in two parts.** What a run leaves over is parsed on together with
the input that comes after it; a failure is final. -/
theorem Stable.parse_append (hp : Stable p) :
    ∀ (a c : List α), parse p (a ++ c) =
      match (parse p a).stop with
      | .error e => ⟨(parse p a).items, .error e⟩
      | .rest r => (parse p (r ++ c)).prepend (parse p a).items := by
  intro a
  induction h : a.length using Nat.strongRecOn generalizing a with
  | ind n ih =>
    intro c
    rcases ha : p a with e | _ | ⟨b, r⟩
    · rw [parse_error ha, parse_error (hp.error_append c ha)]
    · simp [parse_none ha]
    · rw [hp.parse_item (hp.item_append c ha), hp.parse_item ha,
        ih r.length (h ▸ hp.shorter ha) r rfl c]
      rcases hs : (parse p r).stop with e | r'
      · simp [Parsed.prepend, hs]
      · simp [Parsed.prepend_prepend, hs]

section

variable {wire : β → List α}

/-- Input written as items one after another is parsed into these items and then
as what follows. -/
theorem Stable.parse_flatMap (hp : Stable p) {bs : List β}
    (hw : ∀ b ∈ bs, ∀ r, p (wire b ++ r) = .ok (some (b, r))) (r : List α) :
    parse p (bs.flatMap wire ++ r) = (parse p r).prepend bs := by
  induction bs with
  | nil => rfl
  | cons b bs ih =>
    have hb := hw b List.mem_cons_self
    rw [List.flatMap_cons, List.append_assoc, hp.parse_item (hb _),
      ih fun c hc => hw c (List.mem_cons_of_mem _ hc), Parsed.prepend_prepend]
    rfl

/-- If every item is cut off as it is written, the input is the items written one
after another and a remainder. -/
theorem Stable.parse_eq_flatMap (hp : Stable p)
    (hw : ∀ {a r : List α} {b : β}, p a = .ok (some (b, r)) → a = wire b ++ r) :
    ∀ a : List α, ∃ r, a = (parse p a).items.flatMap wire ++ r ∧
      ∀ r', (parse p a).stop = .rest r' → r' = r := by
  intro a
  induction h : a.length using Nat.strongRecOn generalizing a with
  | ind n ih =>
    rcases ha : p a with e | _ | ⟨b, r⟩
    · exact ⟨a, by rw [parse_error ha]; rfl, fun r' hr' => by rw [parse_error ha] at hr'; cases hr'⟩
    · refine ⟨a, by rw [parse_none ha]; rfl, fun r' hr' => ?_⟩
      rw [parse_none ha] at hr'
      cases hr'
      rfl
    · obtain ⟨r', hr', hstop⟩ := ih r.length (h ▸ hp.shorter ha) r rfl
      refine ⟨r', ?_, ?_⟩
      · rw [hp.parse_item ha, Parsed.items_prepend, List.singleton_append, List.flatMap_cons,
          List.append_assoc, ← hr']
        exact hw ha
      · intro r'' hr''
        rw [hp.parse_item ha] at hr''
        exact hstop r'' hr''

/-- What holds of every item cut off holds of the items of a run. -/
theorem Stable.parse_forall (hp : Stable p) {P : β → Prop}
    (hP : ∀ {a r : List α} {b : β}, p a = .ok (some (b, r)) → P b) :
    ∀ a : List α, ∀ b ∈ (parse p a).items, P b := by
  intro a
  induction h : a.length using Nat.strongRecOn generalizing a with
  | ind n ih =>
    intro b hb
    rcases ha : p a with e | _ | ⟨b', r⟩
    · rw [parse_error ha] at hb
      cases hb
    · rw [parse_none ha] at hb
      cases hb
    · rw [hp.parse_item ha, Parsed.items_prepend, List.singleton_append, List.mem_cons] at hb
      rcases hb with rfl | hb
      · exact hP ha
      · exact ih r.length (h ▸ hp.shorter ha) r rfl b hb

end

/-! ## Machines fed a chunk at a time -/

/-- One call of an incremental machine: fail, or return the item completed (if
any), what is left of the chunk, and the next state. -/
abbrev Feed (σ : Type x) (α : Type u) (β : Type v) (ε : Type w) : Type (max u v w x) :=
  σ → List α → Except ε (Option β × List α × σ)

/-- Feed one chunk, calling again while items complete, at most `fuel` times. -/
def feedFuel (feed : Feed σ α β ε) : ℕ → σ → List α → List β × Except ε σ
  | 0, s, _ => ([], .ok s)
  | n + 1, s, c =>
    match feed s c with
    | .error e => ([], .error e)
    | .ok (none, _, s') => ([], .ok s')
    | .ok (some b, c', s') => ((b :: (feedFuel feed n s' c').1), (feedFuel feed n s' c').2)

/-- Feed one chunk until the machine asks for more. -/
def feedChunk (feed : Feed σ α β ε) (s : σ) (c : List α) : List β × Except ε σ :=
  feedFuel feed (c.length + 2) s c

/-- Feed chunks one after another, stopping at a failure. -/
def feedChunks (feed : Feed σ α β ε) : σ → List (List α) → List β × Except ε σ
  | s, [] => ([], .ok s)
  | s, c :: cs =>
    match feedChunk feed s c with
    | (bs, .error e) => (bs, .error e)
    | (bs, .ok s') => (bs ++ (feedChunks feed s' cs).1, (feedChunks feed s' cs).2)

/-- The obligation on one call. `held s` is the input a state has taken but not
yet turned into an item; a call answers as the parser does on `held s` followed
by the chunk. -/
structure Refines (p : Parser α β ε) (feed : Feed σ α β ε) (Inv : σ → Prop)
    (held : σ → List α) : Prop where
  /-- the parser fails: so does the machine -/
  error : ∀ {s : σ} {c : List α} {e : ε},
    Inv s → p (held s ++ c) = .error e → feed s c = .error e
  /-- the parser wants more: the machine keeps the chunk -/
  need : ∀ {s : σ} {c : List α}, Inv s → p (held s ++ c) = .ok none →
    ∃ s', feed s c = .ok (none, [], s') ∧ Inv s' ∧ held s' = held s ++ c
  /-- the parser cuts an item off: the machine returns it and holds nothing -/
  item : ∀ {s : σ} {c r : List α} {b : β},
    Inv s → p (held s ++ c) = .ok (some (b, r)) →
    ∃ s', feed s c = .ok (some b, r, s') ∧ Inv s' ∧ held s' = [] ∧ r.length ≤ c.length

/-- A machine's outcome agrees with how the parser stopped. -/
def Stop.Agrees (Inv : σ → Prop) (held : σ → List α) : Stop α ε → Except ε σ → Prop
  | .error e, .error e' => e' = e
  | .rest r, .ok s => Inv s ∧ held s = r
  | _, _ => False

section

variable {feed : Feed σ α β ε} {Inv : σ → Prop} {held : σ → List α}

/-- Feeding until the machine asks for more runs the parser over what was held
and the chunk. The induction is on the fuel; `held` is empty after the first
item, which is why the chunk alone bounds the number of calls. -/
theorem Refines.feedFuel_agrees (hp : Stable p) (hf : Refines p feed Inv held) :
    ∀ (n : ℕ) (s : σ) (c : List α), Inv s →
      c.length + (if held s = [] then 1 else 2) ≤ n →
      (feedFuel feed n s c).1 = (parse p (held s ++ c)).items ∧
        (parse p (held s ++ c)).stop.Agrees Inv held (feedFuel feed n s c).2 := by
  intro n
  induction n with
  | zero =>
    intro s c _ hn
    split at hn <;> omega
  | succ n ih =>
    intro s c hs hn
    rcases hpc : p (held s ++ c) with e | _ | ⟨b, r⟩
    · have hfeed := hf.error hs hpc
      rw [parse_error hpc]
      simp [feedFuel, hfeed, Stop.Agrees]
    · obtain ⟨s', hfeed, hs', hheld⟩ := hf.need hs hpc
      rw [parse_none hpc]
      simp [feedFuel, hfeed, Stop.Agrees, hs', hheld]
    · obtain ⟨s', hfeed, hs', hheld, hr⟩ := hf.item hs hpc
      have hshort := hp.shorter hpc
      have hfuel : r.length + (if held s' = [] then 1 else 2) ≤ n := by
        rw [if_pos hheld]
        by_cases h0 : held s = []
        · rw [if_pos h0] at hn
          rw [h0, List.nil_append] at hshort
          omega
        · rw [if_neg h0] at hn
          omega
      obtain ⟨hi, ha⟩ := ih s' r hs' hfuel
      rw [hheld, List.nil_append] at hi ha
      rw [hp.parse_item hpc]
      simp only [feedFuel, hfeed]
      exact ⟨by simp [hi], ha⟩

/-- Feeding one chunk until the machine asks for more. -/
theorem Refines.feedChunk_agrees (hp : Stable p) (hf : Refines p feed Inv held)
    {s : σ} (hs : Inv s) (c : List α) :
    (feedChunk feed s c).1 = (parse p (held s ++ c)).items ∧
      (parse p (held s ++ c)).stop.Agrees Inv held (feedChunk feed s c).2 := by
  refine hf.feedFuel_agrees hp _ s c hs ?_
  split <;> omega

/-- **Chunk invariance.** However the input is cut into chunks, the machine
yields the items of the contiguous run over what it held and all the chunks
together, and stops as that run stops: on the same failure, or holding exactly
its remainder. -/
theorem Refines.feedChunks_agrees (hp : Stable p) (hf : Refines p feed Inv held) :
    ∀ (cs : List (List α)) {s : σ}, Inv s → p (held s) = .ok none →
      (feedChunks feed s cs).1 = (parse p (held s ++ cs.flatten)).items ∧
        (parse p (held s ++ cs.flatten)).stop.Agrees Inv held (feedChunks feed s cs).2 := by
  intro cs
  induction cs with
  | nil =>
    intro s hs h0
    rw [List.flatten_nil, List.append_nil, parse_none h0]
    exact ⟨rfl, hs, rfl⟩
  | cons c cs ih =>
    intro s hs _
    obtain ⟨hi, ha⟩ := hf.feedChunk_agrees hp hs c
    rw [List.flatten_cons, ← List.append_assoc, hp.parse_append]
    rcases hstop : (parse p (held s ++ c)).stop with e | r
    · rcases hc : feedChunk feed s c with ⟨bs, e' | s'⟩
      · rw [hc] at hi ha
        rw [hstop] at ha
        simp only [feedChunks, hc]
        exact ⟨hi, ha⟩
      · rw [hc, hstop] at ha
        exact ha.elim
    · rcases hc : feedChunk feed s c with ⟨bs, e' | s'⟩
      · rw [hc, hstop] at ha
        exact ha.elim
      · rw [hc] at hi ha
        rw [hstop] at ha
        obtain ⟨hs', hheld⟩ := ha
        obtain ⟨hi', ha'⟩ := ih hs' (hheld ▸ hp.parse_rest hstop)
        rw [hheld] at hi' ha'
        simp only [feedChunks, hc, Parsed.items_prepend, Parsed.stop_prepend]
        exact ⟨by rw [hi', ← hi], ha'⟩

end

end ConnectRpc.Lib
