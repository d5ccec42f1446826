import Mathlib.Tactic.Common

/-!
# Chains of programs

A **chain** is a list of elements in front of a terminal. What an element does with a
request is a `Program`: it may hand a request on to the rest of the chain, any number of
times, it may act on a machine that all elements share, and it answers in the end. Put
together (`chain`) this is a `Flow`, which no longer asks anybody: it reports what it
enters, acts on the machine, and answers.

`Flow.run` runs a flow against a machine. Whoever waits for the answer may give up, so
it takes the number of steps it is given time for.

`emits_chain` and `Flow.mem_run` are the rules: a property of all events of a run comes
from what the elements hand on and from what one step of the machine does.
-/

namespace ConnectRpc.Lib

/-- What an element of a chain does. -/
inductive Program (Act Ans Req Res : Type) : Type where
  /-- it answers -/
  | answer : Res → Program Act Ans Req Res
  /-- it runs the rest of the chain, and goes on with the answer -/
  | next : Req → (Res → Program Act Ans Req Res) → Program Act Ans Req Res
  /-- it acts on the machine, and goes on with what the machine answers -/
  | act : Act → (Ans → Program Act Ans Req Res) → Program Act Ans Req Res

/-- What a whole chain does. -/
inductive Flow (Act Ans Ev Res : Type) : Type where
  /-- it answers -/
  | answer : Res → Flow Act Ans Ev Res
  /-- it reports an event -/
  | event : Ev → Flow Act Ans Ev Res → Flow Act Ans Ev Res
  /-- it acts on the machine -/
  | act : Act → (Ans → Flow Act Ans Ev Res) → Flow Act Ans Ev Res

variable {Act Ans Ev Req Res Res' σ ι : Type}

/-! ## Putting a chain together -/

/-- Go on with the answer. -/
def Flow.bind (g : Res → Flow Act Ans Ev Res') : Flow Act Ans Ev Res → Flow Act Ans Ev Res'
  | .answer a => g a
  | .event e f => .event e (f.bind g)
  | .act a k => .act a fun x => (k x).bind g

/-- Change the answer. -/
def Flow.map (g : Res → Res') (f : Flow Act Ans Ev Res) : Flow Act Ans Ev Res' :=
  f.bind fun a => .answer (g a)

/-- A program in front of the rest of its chain. -/
def Program.before (rest : Req → Flow Act Ans Ev Res) :
    Program Act Ans Req Res → Flow Act Ans Ev Res
  | .answer a => .answer a
  | .next req k => (rest req).bind fun a => (k a).before rest
  | .act a k => .act a fun x => (k x).before rest

/-- A program with nothing after it. -/
def Program.alone : Program Act Ans Empty Res → Flow Act Ans Ev Res :=
  Program.before fun req => req.elim

/-- Change the answer of a program that has nothing after it. -/
def Program.map (g : Res → Res') : Program Act Ans Empty Res → Program Act Ans Empty Res'
  | .answer a => .answer (g a)
  | .next req _ => req.elim
  | .act a k => .act a fun x => (k x).map g

/-- A program on a machine whose answers are read in another way. -/
def Program.reading {Ans' : Type} (f : Ans' → Ans) :
    Program Act Ans Req Res → Program Act Ans' Req Res
  | .answer a => .answer a
  | .next req k => .next req fun a => (k a).reading f
  | .act a k => .act a fun x => (k (f x)).reading f

theorem Program.reading_reading {Ans' Ans'' : Type} (f : Ans' → Ans) (g : Ans'' → Ans')
    (p : Program Act Ans Req Res) : (p.reading f).reading g = p.reading (f ∘ g) := by
  induction p with
  | answer a => rfl
  | next req k ih => simp [reading, ih]
  | act a k ih => simp [reading, ih]

theorem Program.map_reading {Ans' : Type} (g : Res → Res') (f : Ans' → Ans)
    (p : Program Act Ans Empty Res) : (p.map g).reading f = (p.reading f).map g := by
  induction p with
  | answer a => rfl
  | next req k ih => exact req.elim
  | act a k ih => simp [reading, map, ih]

/-- The chain of these elements, counted from `n`, in front of a terminal; entering an
element is an event. -/
def chain (entered : ℕ → Req → Ev) (code : ι → Req → Program Act Ans Req Res)
    (terminal : Req → Flow Act Ans Ev Res) : ℕ → List ι → Req → Flow Act Ans Ev Res
  | _, [], req => terminal req
  | n, i :: is, req =>
    .event (entered n req) ((code i req).before (chain entered code terminal (n + 1) is))

/-! ## Events -/

/-- Whatever the machine answers, all events are of a kind. -/
def Flow.Emits (P : Ev → Prop) : Flow Act Ans Ev Res → Prop
  | .answer _ => True
  | .event e f => P e ∧ f.Emits P
  | .act _ k => ∀ x, (k x).Emits P

/-- Whatever it is answered, a program only hands on requests of a kind. -/
def Program.HandsOn (K : Req → Prop) : Program Act Ans Req Res → Prop
  | .answer _ => True
  | .next req k => K req ∧ ∀ a, (k a).HandsOn K
  | .act _ k => ∀ x, (k x).HandsOn K

theorem Program.handsOn_any (p : Program Act Ans Req Res) : p.HandsOn fun _ => True := by
  induction p with
  | answer a => trivial
  | next req k ih => exact ⟨trivial, ih⟩
  | act a k ih => exact ih

theorem Flow.Emits.bind {P : Ev → Prop} {g : Res → Flow Act Ans Ev Res'}
    (hg : ∀ a, (g a).Emits P) : ∀ {f : Flow Act Ans Ev Res}, f.Emits P → (f.bind g).Emits P := by
  intro f
  induction f with
  | answer a => exact fun _ => hg a
  | event e f ih => exact fun h => ⟨h.1, ih h.2⟩
  | act a k ih => exact fun h x => ih x (h x)

theorem Flow.Emits.map {P : Ev → Prop} (g : Res → Res') {f : Flow Act Ans Ev Res}
    (h : f.Emits P) : (f.map g).Emits P := by
  refine Flow.Emits.bind (fun a => ?_) h
  trivial

/-- A program whose rest emits only such events where it hands on. -/
theorem Program.emits_before {P : Ev → Prop} {K : Req → Prop} {rest : Req → Flow Act Ans Ev Res}
    (hrest : ∀ req, K req → (rest req).Emits P) :
    ∀ {p : Program Act Ans Req Res}, p.HandsOn K → (p.before rest).Emits P := by
  intro p
  induction p with
  | answer a => exact fun _ => trivial
  | next req k ih => exact fun h => (hrest req h.1).bind fun a => ih a (h.2 a)
  | act a k ih => exact fun h x => ih x (h x)

theorem Program.emits_alone {P : Ev → Prop} (p : Program Act Ans Empty Res) :
    (p.alone : Flow Act Ans Ev Res).Emits P :=
  emits_before (fun req => req.elim) p.handsOn_any

/-- **The events of a chain**: if the request is of a kind that every element hands on,
and entering an element or the terminal with such a request emits only events of a kind,
so does the chain. -/
theorem emits_chain {P : Ev → Prop} {K : Req → Prop} {entered : ℕ → Req → Ev}
    {code : ι → Req → Program Act Ans Req Res} {terminal : Req → Flow Act Ans Ev Res}
    (hentered : ∀ n req, K req → P (entered n req))
    (hterminal : ∀ req, K req → (terminal req).Emits P) :
    ∀ {is : List ι} (n : ℕ) (req : Req), (∀ i ∈ is, ∀ req, K req → (code i req).HandsOn K) →
      K req → (chain entered code terminal n is req).Emits P := by
  intro is
  induction is with
  | nil => exact fun n req _ hreq => hterminal req hreq
  | cons i is ih =>
    intro n req hcode hreq
    have hrest : ∀ req, K req → (chain entered code terminal (n + 1) is req).Emits P :=
      fun req => ih (n + 1) req fun j hj => hcode j (List.mem_cons_of_mem _ hj)
    exact ⟨hentered n req hreq, Program.emits_before hrest (hcode i List.mem_cons_self req hreq)⟩

/-! ## Runs -/

/-- Take one step off a budget; none is for ever. -/
def spend : Option ℕ → Option (Option ℕ)
  | none => some none
  | some 0 => none
  | some (n + 1) => some (some n)

/-- Run a flow against a machine: its events, the machine after it, and the answer unless
the budget ran out. -/
def Flow.run (step : σ → Act → σ × List Ev × Ans) :
    Flow Act Ans Ev Res → Option ℕ → σ → List Ev × σ × Option Res
  | .answer a, _, s => ([], s, some a)
  | .event e f, budget, s =>
    match spend budget with
    | none => ([], s, none)
    | some budget => (e :: (f.run step budget s).1, (f.run step budget s).2)
  | .act a k, budget, s =>
    match spend budget with
    | none => ([], s, none)
    | some budget =>
      let s' := step s a
      ((s'.2.1 ++ ((k s'.2.2).run step budget s'.1).1), ((k s'.2.2).run step budget s'.1).2)

/-- **The run rule**: an invariant of the machine and of what has happened so far holds
after a run, if every step of the machine keeps it and every event that the flow may
report does. -/
theorem Flow.run_keeps {P : Ev → Prop} {Inv : List Ev → σ → Prop}
    {step : σ → Act → σ × List Ev × Ans}
    (hstep : ∀ evs s a, Inv evs s → Inv (evs ++ (step s a).2.1) (step s a).1)
    (hevent : ∀ evs s e, P e → Inv evs s → Inv (evs ++ [e]) s) :
    ∀ {f : Flow Act Ans Ev Res} {budget : Option ℕ} {evs : List Ev} {s : σ}, f.Emits P →
      Inv evs s → Inv (evs ++ (f.run step budget s).1) (f.run step budget s).2.1 := by
  have hstay : ∀ {evs : List Ev} {s : σ}, Inv evs s → Inv (evs ++ []) s := by
    intro evs s hs
    rw [List.append_nil]
    exact hs
  intro f
  induction f with
  | answer a => exact fun {_ _ _} _ hs => hstay hs
  | event e f ih =>
    intro budget evs s hf hs
    rw [run]
    rcases spend budget with _ | budget'
    · exact hstay hs
    · have hrest := @ih budget' (evs ++ [e]) s hf.2 (hevent evs s e hf.1 hs)
      rw [List.append_assoc] at hrest
      exact hrest
  | act a k ih =>
    intro budget evs s hf hs
    rw [run]
    rcases spend budget with _ | budget'
    · exact hstay hs
    · have hrest := @ih (step s a).2.2 budget' (evs ++ (step s a).2.1) (step s a).1 (hf _)
        (hstep evs s a hs)
      rw [List.append_assoc] at hrest
      exact hrest

/-- **The events of a run**: if the flow and every step of the machine only have events of
a kind, as long as an invariant of the machine holds that every step keeps. -/
theorem Flow.mem_run {P : Ev → Prop} {Inv : σ → Prop} {step : σ → Act → σ × List Ev × Ans}
    (hstep : ∀ s a, Inv s → Inv (step s a).1 ∧ ∀ e ∈ (step s a).2.1, P e)
    {f : Flow Act Ans Ev Res} {budget : Option ℕ} {s : σ} (hf : f.Emits P) (hs : Inv s) :
    Inv (f.run step budget s).2.1 ∧ ∀ e ∈ (f.run step budget s).1, P e := by
  have hnone : ∀ e ∈ ([] : List Ev), P e := by
    intro e he
    cases he
  refine @Flow.run_keeps Act Ans Ev Res σ P (fun evs s => Inv s ∧ ∀ e ∈ evs, P e) step ?_ ?_ f
    budget [] s hf ⟨hs, hnone⟩
  · intro evs s a h
    obtain ⟨hinv, hevs⟩ := hstep s a h.1
    refine ⟨hinv, fun e he => ?_⟩
    rcases List.mem_append.mp he with he | he
    · exact h.2 e he
    · exact hevs e he
  · intro evs s e he h
    refine ⟨h.1, fun e' he' => ?_⟩
    rcases List.mem_append.mp he' with he' | he'
    · exact h.2 e' he'
    · obtain rfl := List.mem_singleton.mp he'
      exact he

/-! ## Runs to the end -/

/-- Report some events first. -/
def Flow.after : List Ev → Flow Act Ans Ev Res → Flow Act Ans Ev Res
  | [], f => f
  | e :: evs, f => .event e (f.after evs)

section Unbounded

variable {step : σ → Act → σ × List Ev × Ans}

/-- With no budget a flow answers. -/
theorem Flow.run_answers {f : Flow Act Ans Ev Res} : ∀ s : σ, ∃ a, (f.run step none s).2.2 = some a := by
  induction f with
  | answer a => exact fun _ => ⟨a, rfl⟩
  | event e f ih => exact fun s => ih s
  | act a k ih => exact fun s => ih (step s a).2.2 (step s a).1

/-- To go on with the answer is to run what comes of it. -/
theorem Flow.run_bind {g : Res → Flow Act Ans Ev Res'} {f : Flow Act Ans Ev Res} {a : Res} :
    ∀ {s : σ}, (f.run step none s).2.2 = some a →
      (f.bind g).run step none s =
        ((f.run step none s).1 ++ ((g a).run step none (f.run step none s).2.1).1,
          ((g a).run step none (f.run step none s).2.1).2) := by
  induction f with
  | answer a' =>
    intro s h
    obtain rfl : a' = a := Option.some.inj h
    rfl
  | event e f ih =>
    intro s h
    exact congrArg (fun r => (e :: r.1, r.2)) (ih (s := s) h)
  | act a' k ih =>
    intro s h
    have hrest := ih (step s a').2.2 (s := (step s a').1) h
    have hcons := congrArg (fun r => ((step s a').2.1 ++ r.1, r.2)) hrest
    refine hcons.trans ?_
    rw [← List.append_assoc]
    rfl

/-- Events first. -/
theorem Flow.run_after (f : Flow Act Ans Ev Res) (s : σ) : ∀ evs : List Ev,
    (f.after evs).run step none s = (evs ++ (f.run step none s).1, (f.run step none s).2) := by
  intro evs
  induction evs with
  | nil => rfl
  | cons e evs ih => exact congrArg (fun r => (e :: r.1, r.2)) ih

end Unbounded

theorem Flow.bind_answer (f : Flow Act Ans Ev Res) : f.bind Flow.answer = f := by
  induction f with
  | answer a => rfl
  | event e f ih => exact congrArg (Flow.event e) ih
  | act a k ih => exact congrArg (Flow.act a) (funext ih)

/-- What entering the elements of a chain with the same request reports. -/
def entries (entered : ℕ → Req → Ev) (req : Req) : ℕ → List ι → List Ev
  | _, [] => []
  | n, _ :: is => entered n req :: entries entered req (n + 1) is

/-- **A chain of elements that hand the request on and answer what they are answered** is its
terminal. -/
theorem chain_forwards {entered : ℕ → Req → Ev} {code : ι → Req → Program Act Ans Req Res}
    {terminal : Req → Flow Act Ans Ev Res} {req : Req} : ∀ {is : List ι} (n : ℕ),
      (∀ i ∈ is, code i req = .next req .answer) →
        chain entered code terminal n is req = (terminal req).after (entries entered req n is) := by
  intro is
  induction is with
  | nil => exact fun _ _ => rfl
  | cons i is ih =>
    intro n hcode
    have hrest := ih (n + 1) fun j hj => hcode j (List.mem_cons_of_mem i hj)
    have hanswer : (fun a : Res => (Program.answer a : Program Act Ans Req Res).before
        (chain entered code terminal (n + 1) is)) = Flow.answer := rfl
    rw [chain, hcode i List.mem_cons_self, Program.before, hanswer, Flow.bind_answer, hrest]
    rfl

end ConnectRpc.Lib
