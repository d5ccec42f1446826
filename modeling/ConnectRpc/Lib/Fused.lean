import ConnectRpc.Lib.Poll

/-!
# Machines that stop

A machine that is **fused** polls another one and passes its values on, changed, until one of them
is the last; from then on it answers the same for ever, and does not poll the other again. So what
it answers is told by what the other has answered (`fused_run`), whatever the other would do after
its last value.

A machine that does what another does is one with more state (`Simulates.polls`).
-/

namespace ConnectRpc.Lib

universe u v w

variable {α : Type u} {β : Type v} {σ τ : Type w}

/-! ## Simulation -/

/-- What `g` leaves of the state of a machine makes the same steps, as long as an invariant holds,
which it does. -/
structure Simulates (step : σ → Poll β × σ) (step' : τ → Poll β × τ) (Inv : σ → Prop) (g : σ → τ) :
    Prop where
  /-- the answers are the same -/
  answer : ∀ {s}, Inv s → (step s).1 = (step' (g s)).1
  /-- and so are the states -/
  state : ∀ {s}, Inv s → g (step s).2 = (step' (g s)).2
  /-- a step keeps the invariant -/
  inv : ∀ {s}, Inv s → Inv (step s).2

/-- **A machine answers what the one answers that it simulates.** -/
theorem Simulates.polls {step : σ → Poll β × σ} {step' : τ → Poll β × τ} {Inv : σ → Prop}
    {g : σ → τ} (h : Simulates step step' Inv g) : ∀ (n : ℕ) {s : σ}, Inv s →
      Lib.polls step n s = Lib.polls step' n (g s) ∧
        g (after step n s) = after step' n (g s) := by
  intro n
  induction n with
  | zero => exact fun _ => ⟨rfl, rfl⟩
  | succ n ih =>
    intro s hs
    obtain ⟨hpolls, hafter⟩ := ih (h.inv hs)
    refine ⟨?_, ?_⟩
    · rw [Lib.polls, Lib.polls, h.answer hs, hpolls, h.state hs]
    · rw [after, after, hafter, h.state hs]

/-! ## Fused machines -/

/-- A machine, and whether its last value has been passed on. -/
structure Fused (τ : Type w) where
  /-- the machine -/
  inner : τ
  /-- whether it has stopped -/
  done : Bool

/-- A poll of a fused machine. `f` tells what a value is passed on as, and whether it is the last;
`z` is what is answered from then on. -/
def fusedStep (step : τ → Poll α × τ) (f : α → β × Bool) (z : β) (s : Fused τ) :
    Poll β × Fused τ :=
  if s.done then (.ready z, s)
  else
    match step s.inner with
    | (.pending, t) => (.pending, ⟨t, false⟩)
    | (.ready a, t) => (.ready (f a).1, ⟨t, (f a).2⟩)

/-- What a fused machine has made of `k` polls of the other and `past` polls after the last
value. -/
structure FusedRun (step : τ → Poll α × τ) (f : α → β × Bool) (z : β) (t : τ) (k past : ℕ)
    (answers : List β) (s : Fused τ) : Prop where
  /-- the other has been polled `k` times -/
  inner : s.inner = after step k t
  /-- its values are passed on -/
  answers : answers =
    (ready (polls step k t)).map (fun a => (f a).1) ++ List.replicate past z
  /-- none before the latest was the last -/
  continues : ∀ a ∈ (ready (polls step k t)).dropLast, (f a).2 = false
  /-- it has stopped if the latest was the last -/
  done : s.done = true ↔ ∃ a, (ready (polls step k t)).getLast? = some a ∧ (f a).2 = true
  /-- only then is there anything after it -/
  past : 0 < past → s.done = true

section Run

variable {step : τ → Poll α × τ} {f : α → β × Bool} {z : β}

/-- A machine that has stopped answers the same for ever. -/
theorem fused_stopped : ∀ (n : ℕ) (t : τ),
    ready (polls (fusedStep step f z) n ⟨t, true⟩) = List.replicate n z ∧
      after (fusedStep step f z) n ⟨t, true⟩ = ⟨t, true⟩ := by
  intro n t
  have hstep : fusedStep step f z ⟨t, true⟩ = (.ready z, ⟨t, true⟩) := rfl
  induction n with
  | zero => exact ⟨rfl, rfl⟩
  | succ n ih =>
    rw [polls, after, hstep]
    refine ⟨?_, ih.2⟩
    rw [ready_ready, ih.1, List.replicate_succ]

/-- **A run of a fused machine.** -/
theorem fused_run : ∀ (n : ℕ) (t : τ), ∃ k past, k + past = n ∧
    FusedRun step f z t k past (ready (polls (fusedStep step f z) n ⟨t, false⟩))
      (after (fusedStep step f z) n ⟨t, false⟩) := by
  intro n
  induction n with
  | zero =>
    intro t
    exact ⟨0, 0, rfl, ⟨rfl, rfl, by simp [polls], by simp [polls, after], by simp⟩⟩
  | succ n ih =>
    intro t
    rcases hstep : step t with ⟨answer, t'⟩
    rcases answer with _ | a
    · have hfused : fusedStep step f z ⟨t, false⟩ = (.pending, ⟨t', false⟩) := by
        simp [fusedStep, hstep]
      obtain ⟨k, past, hk, hrun⟩ := ih t'
      refine ⟨k + 1, past, by omega, ?_⟩
      rw [polls, after, hfused]
      refine ⟨?_, ?_, ?_, ?_, hrun.past⟩
      · rw [after, hstep]
        exact hrun.inner
      · rw [polls, hstep, ready_pending, ready_pending]
        exact hrun.answers
      · rw [polls, hstep, ready_pending]
        exact hrun.continues
      · rw [polls, hstep, ready_pending]
        exact hrun.done
    · have hfused : fusedStep step f z ⟨t, false⟩ = (.ready (f a).1, ⟨t', (f a).2⟩) := by
        simp [fusedStep, hstep]
      rcases hlast : (f a).2 with _ | _
      · -- it goes on
        obtain ⟨k, past, hk, hrun⟩ := ih t'
        refine ⟨k + 1, past, by omega, ?_⟩
        rw [polls, after, hfused, hlast]
        have hpolls : ready (polls step (k + 1) t) = a :: ready (polls step k t') := by
          rw [polls, hstep, ready_ready]
        refine ⟨?_, ?_, ?_, ?_, hrun.past⟩
        · rw [after, hstep]
          exact hrun.inner
        · rw [hpolls, ready_ready, hrun.answers, List.map_cons, List.cons_append]
        · rw [hpolls]
          rcases hrest : ready (polls step k t') with _ | ⟨b, rest⟩
          · simp
          · intro c hmem
            rw [List.dropLast_cons_cons, List.mem_cons] at hmem
            rcases hmem with rfl | hmem
            · exact hlast
            · apply hrun.continues
              rw [hrest]
              exact hmem
        · rw [hrun.done, hpolls]
          rcases hrest : ready (polls step k t') with _ | ⟨b, rest⟩
          · simp [hlast]
          · rw [List.getLast?_cons_cons]
      · -- it stops
        obtain ⟨hready, hafter⟩ := @fused_stopped _ _ _ step f z n t'
        refine ⟨1, n, by omega, ?_⟩
        have hpolls : ready (polls step 1 t) = [a] := by
          rw [polls, hstep]
          rfl
        rw [polls, after, hfused, hlast, hafter, ready_ready, hready]
        refine ⟨?_, ?_, ?_, ?_, fun _ => rfl⟩
        · rw [after, hstep]
          rfl
        · rw [hpolls]
          rfl
        · simp [hpolls]
        · simp [hpolls, hlast]

end Run

end ConnectRpc.Lib
