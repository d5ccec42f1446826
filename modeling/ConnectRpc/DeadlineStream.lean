import ConnectRpc.Error
import ConnectRpc.Lib.Poll
import ConnectRpc.RequestMetadata

/-!
# Streams with a deadline

A response stream can be wrapped so that it ends with an error when the deadline of the request
has passed, or when the gap to the next message gets too long. The wrapper holds the inner
stream and two timers, and looks at the timers before every poll of the inner stream.

`DeadlineRun` says what the wrapper does, without its state: the inner stream is passed on, poll by
poll, until it ends or a timer has elapsed, and nothing comes after that. `run_deadlineRun` is the
simulation, and `deadline_stream_law` what follows from it.
-/

namespace ConnectRpc

open Lib

/-- The timers of the runtime. -/
structure Timers where
  /-- a timer -/
  Sleep : Type
  /-- `tokio::time::sleep`, at an instant -/
  sleep : ℕ → Duration → Sleep
  /-- whether a timer has elapsed when it is polled at an instant -/
  isElapsed : Sleep → ℕ → Bool
  /-- it stays elapsed -/
  isElapsed_later : ∀ {s : Sleep} {now later : ℕ}, isElapsed s now = true → now ≤ later →
    isElapsed s later = true

/-- What a stream of a fallible response body yields. -/
abbrev StreamItem (T : Type) := Except ConnectError T

/-- The answer of such a stream to a poll: no item is the end. -/
abbrev ItemPoll (T : Type) := Poll (Option (StreamItem T))

variable (timers : Timers) {σ T : Type}

/-- A stream: what it answers when it is polled at an instant. -/
abbrev StreamStep (σ T : Type) := σ → ℕ → ItemPoll T × σ

/-- A poll of a stream, as it is seen from outside. -/
structure PollRecord (T : Type) where
  /-- when it was -/
  now : ℕ
  /-- the answer -/
  answer : ItemPoll T
  /-- what the inner stream answered, if it was polled -/
  asked : Option (ItemPoll T)
  /-- whether the inner stream is still there afterwards -/
  held : Bool

/-- `DeadlineStream`. -/
structure DeadlineStream (σ : Type) where
  /-- the inner stream, until it is dropped -/
  inner : Option σ
  /-- the timer of the deadline -/
  absolute : Option timers.Sleep
  /-- the timer of the gap, once it runs -/
  perItem : Option timers.Sleep
  /-- how long a gap may be -/
  interMessage : Option Duration
  /-- whether it has ended -/
  finished : Bool

namespace DeadlineStream

/-- `DeadlineStream::new`. -/
def new (now : ℕ) (inner : σ) (absolute interMessage : Option Duration) :
    DeadlineStream timers σ where
  inner := some inner
  absolute := absolute.map (timers.sleep now)
  perItem := none
  interMessage := interMessage
  finished := false

variable {timers}

/-- The end of a stream, with the inner one dropped. -/
def close (s : DeadlineStream timers σ) : DeadlineStream timers σ :=
  { s with finished := true, inner := none }

/-- A stream with the timer of the gap running. -/
def arm (now : ℕ) (s : DeadlineStream timers σ) : DeadlineStream timers σ :=
  { s with perItem := s.perItem.or (s.interMessage.map (timers.sleep now)) }

/-- `DeadlineStream::poll_next`. -/
def pollNext (step : StreamStep σ T) (now : ℕ) (s : DeadlineStream timers σ) :
    ItemPoll T × Option (ItemPoll T) × DeadlineStream timers σ :=
  if s.finished then (.ready none, none, s)
  else
    let s := s.arm now
    if s.absolute.any (timers.isElapsed · now) then
      (.ready (some (.error (.deadlineExceeded "request deadline exceeded while streaming"))), none,
        s.close)
    else if s.perItem.any (timers.isElapsed · now) then
      (.ready (some (.error (.deadlineExceeded "stream stalled past inter-message timeout"))), none,
        s.close)
    else
      match s.inner with
      | none => (.ready none, none, { s with finished := true })
      | some inner =>
        match step inner now with
        | (.ready (some item), inner) =>
          (.ready (some item), some (.ready (some item)),
            { s with
              inner := some inner
              perItem := (s.interMessage.map (timers.sleep now)).or s.perItem })
        | (.ready none, _) => (.ready none, some (.ready none), s.close)
        | (.pending, inner) => (.pending, some .pending, { s with inner := some inner })

/-- The polls at some instants, in order. -/
def run (step : StreamStep σ T) : List ℕ → DeadlineStream timers σ → List (PollRecord T)
  | [], _ => []
  | now :: times, s =>
    let (answer, asked, s) := s.pollNext step now
    ⟨now, answer, asked, s.inner.isSome⟩ :: run step times s

end DeadlineStream

/-! ## What it is for -/

/-- The item a poll has delivered. -/
def PollRecord.delivered (t : PollRecord T) : Option (StreamItem T) :=
  match t.answer with
  | .ready (some item) => t.asked.map fun _ => item
  | _ => none

/-- An error of the wrapper's own: an item without a poll of the inner stream. -/
def PollRecord.IsOwn (t : PollRecord T) : Prop :=
  t.asked = none ∧ ∃ item, t.answer = .ready (some item)

/-- After its end a stream answers that it has ended, and holds no inner stream to poll. -/
def PollRecord.Silent (t : PollRecord T) : Prop :=
  t.answer = .ready none ∧ t.asked = none ∧ t.held = false

/-- When the gap began that is being measured: at the last item, or at the first poll. -/
def gapStart (before : List (PollRecord T)) : Option ℕ :=
  ((before.filter fun t => t.delivered.isSome).getLast?.or before.head?).map PollRecord.now

section Bounds

variable (start : ℕ) (absolute interMessage : Option Duration)

/-- The deadline has passed. -/
def Overdue (now : ℕ) : Prop :=
  ∃ d, absolute = some d ∧ timers.isElapsed (timers.sleep start d) now = true

/-- The gap is too long. -/
def Stalled (before : List (PollRecord T)) (now : ℕ) : Prop :=
  ∃ d, interMessage = some d ∧
    timers.isElapsed (timers.sleep ((gapStart before).getD now) d) now = true

/-- One of the timers has elapsed. -/
def Lapsed (before : List (PollRecord T)) (now : ℕ) : Prop :=
  Overdue timers start absolute now ∨ Stalled timers interMessage before now

/-- What may come of an inner stream after some polls. -/
inductive DeadlineRun (step : StreamStep σ T) : List (PollRecord T) → σ → List (PollRecord T) → Prop where
  /-- no more polls -/
  | unpolled {before : List (PollRecord T)} {inner : σ} : DeadlineRun step before inner []
  /-- the inner stream is passed on -/
  | passed {before : List (PollRecord T)} {inner : σ} {t : PollRecord T} {turns : List (PollRecord T)}
      (running : ¬Lapsed timers start absolute interMessage before t.now)
      (answer : (step inner t.now).1 = t.answer) (open' : t.answer ≠ .ready none)
      (asked : t.asked = some t.answer) (held : t.held = true)
      (rest : DeadlineRun step (before ++ [t]) (step inner t.now).2 turns) :
      DeadlineRun step before inner (t :: turns)
  /-- the inner stream ends -/
  | ended {before : List (PollRecord T)} {inner : σ} {t : PollRecord T} {turns : List (PollRecord T)}
      (running : ¬Lapsed timers start absolute interMessage before t.now)
      (last : (step inner t.now).1 = .ready none) (answer : t.answer = .ready none)
      (asked : t.asked = some (.ready none)) (held : t.held = false)
      (rest : ∀ u ∈ turns, u.Silent) : DeadlineRun step before inner (t :: turns)
  /-- a timer has elapsed -/
  | lapsed {before : List (PollRecord T)} {inner : σ} {t : PollRecord T} {turns : List (PollRecord T)}
      (elapsed : Lapsed timers start absolute interMessage before t.now)
      (answer : ∃ message, t.answer = .ready (some (.error (.deadlineExceeded message))))
      (asked : t.asked = none) (held : t.held = false)
      (rest : ∀ u ∈ turns, u.Silent) : DeadlineRun step before inner (t :: turns)

variable {timers start absolute interMessage}

/-! ## The simulation -/

theorem gapStart_concat (before : List (PollRecord T)) (t : PollRecord T) :
    gapStart (before ++ [t]) =
      if t.delivered.isSome then some t.now else (gapStart before).or (some t.now) := by
  rw [gapStart, List.filter_append, gapStart]
  by_cases h : t.delivered.isSome = true
  · simp only [List.filter_cons, h, if_true, List.filter_nil, List.getLast?_concat]
    rfl
  · simp only [List.filter_cons, h, Bool.false_eq_true, if_false, List.filter_nil, List.append_nil]
    have hhead : (before ++ [t]).head? = before.head?.or (some t) := by
      cases before <;> rfl
    rw [hhead, ← Option.or_assoc, Option.map_or]
    rfl

/-- The state of a wrapper that has not ended, after some polls. -/
structure DeadlineStream.Live (start : ℕ) (absolute interMessage : Option Duration)
    (before : List (PollRecord T)) (inner : σ) (s : DeadlineStream timers σ) : Prop where
  /-- the inner stream is there -/
  inner_eq : s.inner = some inner
  /-- the first timer was set at the start -/
  absolute_eq : s.absolute = absolute.map (timers.sleep start)
  /-- the second one at the beginning of the gap -/
  perItem_eq : s.perItem = (gapStart before).bind fun gap => interMessage.map (timers.sleep gap)
  /-- the length of a gap -/
  interMessage_eq : s.interMessage = interMessage
  /-- it has not ended -/
  finished_eq : s.finished = false

namespace DeadlineStream

variable {step : StreamStep σ T} {before : List (PollRecord T)} {inner : σ}
  {s : DeadlineStream timers σ}

/-- A stream that has ended stays so. -/
theorem run_silent (hfinished : s.finished = true) (hinner : s.inner = none) :
    ∀ (times : List ℕ), ∀ u ∈ s.run step times, u.Silent := by
  intro times
  induction times with
  | nil => exact fun u hu => absurd hu List.not_mem_nil
  | cons now times ih =>
    have hpoll : s.pollNext step now = (.ready none, none, s) := by
      rw [pollNext, if_pos hfinished]
    rw [run, hpoll]
    exact List.forall_mem_cons.mpr ⟨⟨rfl, rfl, by rw [hinner]; rfl⟩, ih⟩

theorem Live.overdue_iff (h : s.Live start absolute interMessage before inner) (now : ℕ) :
    (s.arm now).absolute.any (timers.isElapsed · now) = true ↔
      Overdue timers start absolute now := by
  rw [arm, h.absolute_eq, Overdue]
  cases absolute with
  | none => simp
  | some d => simp

theorem Live.arm_perItem (h : s.Live start absolute interMessage before inner) (now : ℕ) :
    (s.arm now).perItem =
      interMessage.map (timers.sleep ((gapStart before).getD now)) := by
  rw [arm, h.perItem_eq, h.interMessage_eq]
  rcases gapStart before with _ | gap
  · rfl
  · rcases interMessage with _ | d
    · rfl
    · rfl

theorem Live.stalled_iff (h : s.Live start absolute interMessage before inner) (now : ℕ) :
    (s.arm now).perItem.any (timers.isElapsed · now) = true ↔
      Stalled timers interMessage before now := by
  rw [h.arm_perItem, Stalled]
  cases interMessage with
  | none => simp
  | some d => simp

/-- After an item a gap begins. -/
theorem Live.item (h : s.Live start absolute interMessage before inner) (now : ℕ)
    (item : StreamItem T) (inner' : σ) :
    Live start absolute interMessage
      (before ++ [⟨now, .ready (some item), some (.ready (some item)), true⟩]) inner'
      { s.arm now with
        inner := some inner'
        perItem := ((s.arm now).interMessage.map (timers.sleep now)).or (s.arm now).perItem } where
  inner_eq := rfl
  absolute_eq := h.absolute_eq
  perItem_eq := by
    have hsame : (s.arm now).interMessage = interMessage := h.interMessage_eq
    rw [gapStart_concat, hsame, h.arm_perItem]
    rcases interMessage with _ | d
    · rfl
    · rfl
  interMessage_eq := h.interMessage_eq
  finished_eq := h.finished_eq

/-- While there is none, the gap goes on, or begins with the first poll. -/
theorem Live.wait (h : s.Live start absolute interMessage before inner) (now : ℕ) (inner' : σ) :
    Live start absolute interMessage (before ++ [(⟨now, .pending, some .pending, true⟩ : PollRecord T)])
      inner' { s.arm now with inner := some inner' } where
  inner_eq := rfl
  absolute_eq := h.absolute_eq
  perItem_eq := by
    rw [gapStart_concat]
    simp only [h.arm_perItem]
    rcases gapStart before with _ | gap
    · rfl
    · rfl
  interMessage_eq := h.interMessage_eq
  finished_eq := h.finished_eq

/-- The wrapper does what it is for, from any state in which it has not ended. -/
theorem Live.deadlineRun : ∀ (times : List ℕ) {before : List (PollRecord T)} {inner : σ}
    {s : DeadlineStream timers σ}, s.Live start absolute interMessage before inner →
      DeadlineRun timers start absolute interMessage step before inner (s.run step times) := by
  intro times
  induction times with
  | nil => exact fun _ => .unpolled
  | cons now times ih =>
    intro before inner s h
    have hclose : ∀ u ∈ (s.arm now).close.run step times, u.Silent := run_silent rfl rfl times
    rw [run, pollNext, h.finished_eq, if_neg Bool.false_ne_true]
    simp only
    by_cases hover : (s.arm now).absolute.any (timers.isElapsed · now) = true
    · rw [if_pos hover]
      exact .lapsed (.inl ((h.overdue_iff now).mp hover)) ⟨_, rfl⟩ rfl rfl hclose
    · rw [if_neg hover]
      by_cases hstalled : (s.arm now).perItem.any (timers.isElapsed · now) = true
      · rw [if_pos hstalled]
        exact .lapsed (.inr ((h.stalled_iff now).mp hstalled)) ⟨_, rfl⟩ rfl rfl hclose
      · rw [if_neg hstalled]
        have hrunning : ¬Lapsed timers start absolute interMessage before now := by
          rintro (hdue | hgap)
          · exact hover ((h.overdue_iff now).mpr hdue)
          · exact hstalled ((h.stalled_iff now).mpr hgap)
        have hinner : (s.arm now).inner = some inner := h.inner_eq
        rw [hinner]
        rcases hstep : step inner now with ⟨_ | _ | item, inner'⟩
        all_goals simp only [hstep]
        · have hrest := ih (h.wait (T := T) now inner')
          refine .passed hrunning (by rw [hstep]) (by simp) rfl rfl ?_
          rw [hstep]
          exact hrest
        · exact .ended hrunning (by rw [hstep]) rfl rfl rfl hclose
        · have hrest := ih (h.item now item inner')
          refine .passed hrunning (by rw [hstep]) (by simp) rfl rfl ?_
          rw [hstep]
          exact hrest

end DeadlineStream

/-! ## What follows -/

/-- What a stream answers when it is polled at some instants, one after the other. -/
def innerAnswers (step : StreamStep σ T) : List ℕ → σ → List (ItemPoll T)
  | [], _ => []
  | now :: times, s => (step s now).1 :: innerAnswers step times (step s now).2

/-- The items among some answers, up to the end. -/
def itemsOf : List (ItemPoll T) → List (StreamItem T)
  | [] => []
  | .pending :: answers => itemsOf answers
  | .ready (some item) :: answers => item :: itemsOf answers
  | .ready none :: _ => []

/-- Some answers up to the end, and only ends after it. -/
def fused : List (ItemPoll T) → List (ItemPoll T)
  | [] => []
  | .ready none :: answers => .ready none :: List.replicate answers.length (.ready none)
  | answer :: answers => answer :: fused answers

/-- The instants of some polls. -/
def timesOf (turns : List (PollRecord T)) : List ℕ :=
  turns.map PollRecord.now

/-- The law of a stream with a deadline, for the polls of one run. -/
structure DeadlineLaw (timers : Timers) (start : ℕ) (absolute interMessage : Option Duration)
    (step : StreamStep σ T) (inner : σ) (turns : List (PollRecord T)) : Prop where
  /-- the items of the inner stream are delivered in order -/
  items_prefix : turns.filterMap PollRecord.delivered <+:
    itemsOf (innerAnswers step (timesOf turns) inner)
  /-- an error of its own is a `deadline_exceeded`, comes only after a timer has elapsed, and
  then there is nothing more -/
  own_error : ∀ {before t after}, turns = before ++ t :: after → t.IsOwn →
    Lapsed timers start absolute interMessage before t.now ∧
      (∃ message, t.answer = .ready (some (.error (.deadlineExceeded message)))) ∧
      ∀ u ∈ after, u.answer = .ready none
  /-- there is at most one -/
  own_once : ∀ {before t after}, turns = before ++ t :: after → t.IsOwn →
    ∀ u ∈ before ++ after, ¬u.IsOwn
  /-- once it has ended, the inner stream has been dropped and is not polled -/
  dropped_end : ∀ {before t after}, turns = before ++ t :: after → t.asked = some (.ready none) →
    t.held = false ∧ ∀ u ∈ after, u.asked = none ∧ u.held = false
  /-- nor from when a timer has elapsed -/
  dropped_lapsed : ∀ {before t after}, turns = before ++ t :: after →
    Lapsed timers start absolute interMessage before t.now →
    ∀ u ∈ t :: after, u.asked = none ∧ u.held = false
  /-- without that, it is the inner stream -/
  exact : (∀ before t after, turns = before ++ t :: after →
      ¬Lapsed timers start absolute interMessage before t.now) →
    turns.map PollRecord.answer = fused (innerAnswers step (timesOf turns) inner)
  /-- no item is delivered when the deadline has passed -/
  overdue : ∀ {now}, Overdue timers start absolute now → ∀ t ∈ turns, now ≤ t.now →
    t.delivered = none

namespace DeadlineRun

variable {step : StreamStep σ T} {before turns : List (PollRecord T)} {inner : σ}

/-- Without a poll of the inner stream no item is delivered. -/
theorem delivered_of_unasked {t : PollRecord T} (h : t.asked = none) : t.delivered = none := by
  rw [PollRecord.delivered, h]
  split <;> rfl

theorem delivered_silent {turns : List (PollRecord T)} (h : ∀ u ∈ turns, u.Silent) :
    turns.filterMap PollRecord.delivered = [] :=
  List.filterMap_eq_nil_iff.mpr fun u hu => delivered_of_unasked (h u hu).2.1

theorem items_prefix (h : DeadlineRun timers start absolute interMessage step before inner turns) :
    turns.filterMap PollRecord.delivered <+:
      itemsOf (innerAnswers step (timesOf turns) inner) := by
  induction h with
  | unpolled => exact List.nil_prefix
  | @passed before inner t turns running answer open' asked held rest ih =>
    have hcons : innerAnswers step (timesOf (t :: turns)) inner =
        t.answer :: innerAnswers step (timesOf turns) (step inner t.now).2 :=
      congrArg (· :: _) answer
    rw [hcons, List.filterMap_cons, PollRecord.delivered, asked]
    rcases hanswer : t.answer with _ | _ | item
    · exact ih
    · exact absurd hanswer open'
    · exact (List.prefix_cons_inj item).mpr ih
  | ended running last answer asked held rest =>
    rw [List.filterMap_cons, PollRecord.delivered, answer, delivered_silent rest]
    exact List.nil_prefix
  | lapsed elapsed answer asked held rest =>
    rw [List.filterMap_cons_none (delivered_of_unasked asked), delivered_silent rest]
    exact List.nil_prefix

/-- What holds of one poll of a run, with those before it and after it. -/
structure At (timers : Timers) (start : ℕ) (absolute interMessage : Option Duration)
    (before : List (PollRecord T)) (t : PollRecord T) (after : List (PollRecord T)) : Prop where
  /-- an error of its own -/
  own : t.IsOwn → Lapsed timers start absolute interMessage before t.now ∧
    (∃ message, t.answer = .ready (some (.error (.deadlineExceeded message)))) ∧
    ∀ u ∈ after, u.Silent
  /-- the end of the inner stream -/
  last : t.asked = some (.ready none) → t.held = false ∧ ∀ u ∈ after, u.Silent
  /-- an elapsed timer -/
  lapsed : Lapsed timers start absolute interMessage before t.now →
    t.asked = none ∧ t.held = false ∧ ∀ u ∈ after, u.Silent

theorem at_silent {before : List (PollRecord T)} {t : PollRecord T} {after : List (PollRecord T)}
    (h : t.Silent) (hafter : ∀ u ∈ after, u.Silent) :
    At timers start absolute interMessage before t after := by
  obtain ⟨hanswer, hasked, hheld⟩ := h
  refine ⟨?_, ?_, fun _ => ⟨hasked, hheld, hafter⟩⟩
  · rintro ⟨-, item, hitem⟩
    rw [hanswer] at hitem
    cases hitem
  · intro hlast
    rw [hasked] at hlast
    cases hlast

/-- So it holds of every poll of a run, the polls before the run included in those before. -/
theorem at_split (h : DeadlineRun timers start absolute interMessage step before inner turns) :
    ∀ {front : List (PollRecord T)} {t : PollRecord T} {after : List (PollRecord T)},
      turns = front ++ t :: after →
      At timers start absolute interMessage (before ++ front) t after := by
  induction h with
  | unpolled =>
    intro front t after heq
    exact absurd heq.symm (List.append_ne_nil_of_right_ne_nil _ (List.cons_ne_nil _ _))
  | @passed before inner t turns running answer open' asked held rest ih =>
    intro front u after heq
    rcases front with _ | ⟨v, front⟩
    · obtain ⟨rfl, rfl⟩ := List.cons.inj heq
      rw [List.append_nil]
      refine ⟨?_, ?_, fun hlapsed => absurd hlapsed running⟩
      · rintro ⟨hnone, -⟩
        rw [asked] at hnone
        cases hnone
      · intro hlast
        rw [asked] at hlast
        exact absurd (Option.some.inj hlast) open'
    · obtain ⟨rfl, hrest⟩ := List.cons.inj heq
      have hat := ih hrest
      rwa [List.append_assoc, List.singleton_append] at hat
  | @ended before inner t turns running last answer asked held rest =>
    intro front u after heq
    rcases front with _ | ⟨v, front⟩
    · obtain ⟨rfl, rfl⟩ := List.cons.inj heq
      rw [List.append_nil]
      refine ⟨?_, fun _ => ⟨held, rest⟩, fun hlapsed => absurd hlapsed running⟩
      rintro ⟨hnone, -⟩
      rw [asked] at hnone
      cases hnone
    · obtain ⟨rfl, rfl⟩ := List.cons.inj heq
      have hsplit := List.forall_mem_append.mp rest
      obtain ⟨hu, hafter⟩ := List.forall_mem_cons.mp hsplit.2
      exact at_silent hu hafter
  | @lapsed before inner t turns elapsed answer asked held rest =>
    intro front u after heq
    rcases front with _ | ⟨v, front⟩
    · obtain ⟨rfl, rfl⟩ := List.cons.inj heq
      rw [List.append_nil]
      refine ⟨fun _ => ⟨elapsed, answer, rest⟩, ?_, fun _ => ⟨asked, held, rest⟩⟩
      intro hlast
      rw [asked] at hlast
      cases hlast
    · obtain ⟨rfl, rfl⟩ := List.cons.inj heq
      have hsplit := List.forall_mem_append.mp rest
      obtain ⟨hu, hafter⟩ := List.forall_mem_cons.mp hsplit.2
      exact at_silent hu hafter

/-- What is answered after the end. -/
theorem answers_silent {turns : List (PollRecord T)} (h : ∀ u ∈ turns, u.Silent) :
    turns.map PollRecord.answer = List.replicate turns.length (.ready none) := by
  refine List.eq_replicate_iff.mpr ⟨List.length_map _, ?_⟩
  intro a ha
  obtain ⟨u, hu, rfl⟩ := List.mem_map.mp ha
  exact (h u hu).1

theorem length_innerAnswers (step : StreamStep σ T) : ∀ (times : List ℕ) (inner : σ),
    (innerAnswers step times inner).length = times.length := by
  intro times
  induction times with
  | nil => exact fun _ => rfl
  | cons now times ih => exact fun inner => congrArg Nat.succ (ih _)

theorem exact (h : DeadlineRun timers start absolute interMessage step before inner turns)
    (hrunning : ∀ front t after, turns = front ++ t :: after →
      ¬Lapsed timers start absolute interMessage (before ++ front) t.now) :
    turns.map PollRecord.answer = fused (innerAnswers step (timesOf turns) inner) := by
  induction h with
  | unpolled => rfl
  | @passed before inner t turns running answer open' asked held rest ih =>
    have htail := ih fun front u after heq => by
      have hnext := hrunning (t :: front) u after (by rw [heq, List.cons_append])
      rwa [List.append_assoc, List.singleton_append]
    have hcons : innerAnswers step (timesOf (t :: turns)) inner =
        t.answer :: innerAnswers step (timesOf turns) (step inner t.now).2 :=
      congrArg (· :: _) answer
    rw [hcons, List.map_cons, htail]
    rcases hanswer : t.answer with _ | _ | item
    · rfl
    · exact absurd hanswer open'
    · rfl
  | @ended before inner t turns running last answer asked held rest =>
    have hcons : innerAnswers step (timesOf (t :: turns)) inner =
        .ready none :: innerAnswers step (timesOf turns) (step inner t.now).2 :=
      congrArg (· :: _) last
    rw [hcons, List.map_cons, answer, answers_silent rest, fused, length_innerAnswers, timesOf,
      List.length_map]
  | @lapsed before inner t turns elapsed answer asked held rest =>
    have hnot := hrunning [] t turns rfl
    rw [List.append_nil] at hnot
    exact absurd elapsed hnot

theorem fused_silent {turns : List (PollRecord T)} (h : ∀ u ∈ turns, u.Silent) :
    fused (turns.map PollRecord.answer) = turns.map PollRecord.answer := by
  cases turns with
  | nil => rfl
  | cons u turns =>
    obtain ⟨hu, hturns⟩ := List.forall_mem_cons.mp h
    rw [List.map_cons, hu.1, fused, List.length_map, answers_silent hturns]

/-- The wrapper ends once. -/
theorem fused_answers
    (h : DeadlineRun timers start absolute interMessage step before inner turns) :
    fused (turns.map PollRecord.answer) = turns.map PollRecord.answer := by
  induction h with
  | unpolled => rfl
  | @passed before inner t turns running answer open' asked held rest ih =>
    rw [List.map_cons]
    rcases hanswer : t.answer with _ | _ | item
    · exact congrArg (_ :: ·) ih
    · exact absurd hanswer open'
    · exact congrArg (_ :: ·) ih
  | ended running last answer asked held rest =>
    rw [List.map_cons, answer, fused, List.length_map, answers_silent rest]
  | lapsed elapsed answer asked held rest =>
    obtain ⟨message, hmessage⟩ := answer
    rw [List.map_cons, hmessage, fused, fused_silent rest]
    simp

/-- What holds of every poll is the law. -/
theorem law (h : DeadlineRun timers start absolute interMessage step [] inner turns) :
    DeadlineLaw timers start absolute interMessage step inner turns where
  items_prefix := h.items_prefix
  own_error heq hown := by
    obtain ⟨hlapsed, hmessage, hafter⟩ := (h.at_split heq).own hown
    exact ⟨hlapsed, hmessage, fun u hu => (hafter u hu).1⟩
  own_once {before t after} heq hown := by
    have hsilent {front : List (PollRecord T)} {u : PollRecord T} {rest : List (PollRecord T)}
        (hsplit : turns = front ++ u :: rest) (hu : u.IsOwn) : ∀ v ∈ rest, ¬v.IsOwn := by
      rintro v hv ⟨-, item, hitem⟩
      rw [(((h.at_split hsplit).own hu).2.2 v hv).1] at hitem
      cases hitem
    intro u hu
    rcases List.mem_append.mp hu with hbefore | hafter
    · -- an earlier one would have been the last
      intro hfirst
      obtain ⟨front, rest, rfl⟩ := List.append_of_mem hbefore
      rw [List.append_assoc, List.cons_append] at heq
      exact hsilent heq hfirst t (List.mem_append_right _ List.mem_cons_self) hown
    · exact hsilent heq hown u hafter
  dropped_end heq hlast := by
    obtain ⟨hheld, hafter⟩ := (h.at_split heq).last hlast
    exact ⟨hheld, fun u hu => (hafter u hu).2⟩
  dropped_lapsed heq hlapsed := by
    obtain ⟨hasked, hheld, hafter⟩ := (h.at_split heq).lapsed hlapsed
    exact List.forall_mem_cons.mpr ⟨⟨hasked, hheld⟩, fun u hu => (hafter u hu).2⟩
  exact hrunning := h.exact hrunning
  overdue := by
    rintro now ⟨d, hd, helapsed⟩ t ht hle
    obtain ⟨before, after, heq⟩ := List.append_of_mem ht
    have hdue : Overdue timers start absolute t.now := ⟨d, hd, timers.isElapsed_later helapsed hle⟩
    exact delivered_of_unasked ((h.at_split heq).lapsed (.inl hdue)).1

end DeadlineRun

end Bounds

/-! ## The policy -/

/-- The part of `DeadlinePolicy` that is about streams. -/
structure StreamDeadlinePolicy extends DeadlinePolicy where
  /-- whether the deadline holds for streams -/
  enforceOnStreams : Bool
  /-- how long a gap may be -/
  interMessageTimeout : Option Duration

/-- A response stream, wrapped or not. -/
inductive BoxStream (σ : Type) : Type where
  | plain (stream : σ) : BoxStream σ
  | deadline (stream : DeadlineStream timers σ) : BoxStream σ

variable {timers}

/-- What a response stream answers. -/
def BoxStream.answers (step : StreamStep σ T) (times : List ℕ) :
    BoxStream timers σ → List (ItemPoll T)
  | plain stream => innerAnswers step times stream
  | deadline stream => (stream.run step times).map PollRecord.answer

variable (timers)

/-- `DeadlinePolicy::enforce_on_response_stream`. -/
def StreamDeadlinePolicy.enforceOnResponseStream (policy : StreamDeadlinePolicy) (now : ℕ)
    (stream : σ) (remaining : Option Duration) : BoxStream timers σ :=
  let absolute := if policy.enforceOnStreams then remaining else none
  let perItem := policy.interMessageTimeout
  if absolute.isNone && perItem.isNone then .plain stream
  else .deadline (.new timers now stream absolute perItem)

variable (step : StreamStep σ T) (start : ℕ) (inner : σ) (times : List ℕ)

theorem run_deadlineRun (absolute interMessage : Option Duration) :
    DeadlineRun timers start absolute interMessage step [] inner
      ((DeadlineStream.new timers start inner absolute interMessage).run step times) :=
  DeadlineStream.Live.deadlineRun times ⟨rfl, rfl, rfl, rfl, rfl⟩

theorem timesOf_run : ∀ (times : List ℕ) (s : DeadlineStream timers σ),
    timesOf (s.run step times) = times := by
  intro times
  induction times with
  | nil => exact fun _ => rfl
  | cons now times ih => exact fun s => congrArg (now :: ·) (ih _)

/-- A stream that the policy leaves as it is answers, up to its end, as it would in a wrapper
without bounds. -/
theorem enforce_answers (policy : StreamDeadlinePolicy) (remaining : Option Duration) :
    fused ((policy.enforceOnResponseStream timers start inner remaining).answers step times) =
      ((DeadlineStream.new timers start inner (if policy.enforceOnStreams then remaining else none)
        policy.interMessageTimeout).run step times).map PollRecord.answer := by
  rw [StreamDeadlinePolicy.enforceOnResponseStream]
  generalize (if policy.enforceOnStreams then remaining else none) = absolute
  have hrun := run_deadlineRun timers step start inner times absolute policy.interMessageTimeout
  split
  · rename_i hnone
    rw [Bool.and_eq_true, Option.isNone_iff_eq_none, Option.isNone_iff_eq_none] at hnone
    obtain ⟨habsolute, hgap⟩ := hnone
    rw [habsolute, hgap] at hrun ⊢
    have hexact := hrun.exact fun front t after _ => by
      rintro (⟨d, hd, -⟩ | ⟨d, hd, -⟩) <;> cases hd
    rw [hexact, timesOf_run]
    rfl
  · exact hrun.fused_answers

/-- **The law of streams with a deadline**, for every stream, every pair of bounds and every
schedule of polls; and the streams of a policy answer as these do. -/
theorem deadline_stream_law :
    (∀ absolute interMessage, DeadlineLaw timers start absolute interMessage step inner
      ((DeadlineStream.new timers start inner absolute interMessage).run step times)) ∧
    ∀ (policy : StreamDeadlinePolicy) (remaining : Option Duration),
      fused ((policy.enforceOnResponseStream timers start inner remaining).answers step times) =
        ((DeadlineStream.new timers start inner
          (if policy.enforceOnStreams then remaining else none)
          policy.interMessageTimeout).run step times).map PollRecord.answer :=
  ⟨fun _ _ => (run_deadlineRun timers step start inner times _ _).law,
    enforce_answers timers step start inner times⟩

end ConnectRpc
