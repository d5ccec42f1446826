import ConnectRpc.ConnectionLifecycle
import ConnectRpc.Http

/-!
# The choice between HTTP/1.1 and HTTP/2

An accepted connection is read until the bytes tell the two versions of HTTP apart.
`DetectionTimeout` stands between the socket and the reader: it passes reads through, keeps
count of how much of the HTTP/2 preface has arrived, and fails a read that has to wait past
the deadline.

How the bytes are cut into reads makes no difference (`detection_timeout`): the detection is
undecided as long as what has arrived is a proper prefix of the preface, no read was empty
and the deadline has not struck.
-/

namespace ConnectRpc

/-! ## Prefixes -/

section Prefix

variable {α : Type} {a b w : List α}

/-- A prefix that is not the whole. -/
def ProperPrefix (a w : List α) : Prop :=
  a <+: w ∧ a ≠ w

instance [DecidableEq α] (a w : List α) : Decidable (ProperPrefix a w) :=
  inferInstanceAs (Decidable (_ ∧ _))

theorem ProperPrefix.length_lt (h : ProperPrefix a w) : a.length < w.length :=
  Nat.lt_of_le_of_ne h.1.length_le fun heq => h.2 (h.1.eq_of_length heq)

theorem properPrefix_iff : ProperPrefix a w ↔ a <+: w ∧ a.length < w.length := by
  constructor
  · exact fun h => ⟨h.1, h.length_lt⟩
  · rintro ⟨hinit, hlt⟩
    refine ⟨hinit, ?_⟩
    rintro rfl
    exact Nat.lt_irrefl _ hlt

/-- What starts a proper prefix is one. -/
theorem ProperPrefix.of_append (h : ProperPrefix (a ++ b) w) : ProperPrefix a w := by
  have hlt := h.length_lt
  rw [List.length_append] at hlt
  exact properPrefix_iff.mpr ⟨(List.prefix_append a b).trans h.1, by omega⟩

theorem properPrefix_take {n : ℕ} (h : n < w.length) : ProperPrefix (w.take n) w := by
  refine properPrefix_iff.mpr ⟨List.take_prefix n w, ?_⟩
  rw [List.length_take]
  omega

/-- More of the whole, looked for where the prefix ends. -/
theorem take_append_prefix_iff {n : ℕ} : w.take n ++ b <+: w ↔ b <+: w.drop n := by
  nth_rewrite 2 [← List.take_append_drop n w]
  exact List.prefix_append_right_inj _

end Prefix

/-! ## The detection -/

/-- `H2_PREFACE` -/
def H2_PREFACE : Bytes := asBytes "PRI * HTTP/2.0\r\n\r\nSM\r\n\r\n"

/-- A detection that is undecided. -/
structure Detection where
  /-- how many bytes of the preface have arrived -/
  matched : ℕ
  /-- when it has taken too long -/
  deadline : ℕ
  /-- the timer, from the first read on that had to wait -/
  sleep : Option Sleep
  /-- the preface is not complete, so what is left of it can be sliced off -/
  matched_lt : matched < H2_PREFACE.length
  /-- the timer is set to the deadline -/
  sleep_deadline : ∀ timer ∈ sleep, timer.deadline = deadline

namespace Detection

/-- A detection of which nothing has arrived. -/
def new (deadline : ℕ) : Detection :=
  ⟨0, deadline, none, by decide, fun _ h => by cases h⟩

/-- `Detection::observe`: what is left of the detection, nothing where the reader has picked a
version. -/
def observe (d : Detection) (read : Bytes) : Option Detection :=
  let rest := H2_PREFACE.drop d.matched
  if h : read = [] ∨ rest.length ≤ read.length ∨ ¬ read <+: rest then none
  else
    some { d with
      matched := d.matched + read.length
      matched_lt := by
        have hlt : read.length < H2_PREFACE.length - d.matched := by
          rw [← List.length_drop]
          exact Nat.lt_of_not_le fun hle => h (.inr (.inl hle))
        omega }

/-- The bytes that have arrived. -/
def arrived (d : Detection) : Bytes :=
  H2_PREFACE.take d.matched

theorem length_arrived (d : Detection) : d.arrived.length = d.matched := by
  have hlt := d.matched_lt
  rw [arrived, List.length_take]
  omega

theorem properPrefix_arrived (d : Detection) : ProperPrefix d.arrived H2_PREFACE :=
  properPrefix_take d.matched_lt

/-- A read leaves the detection undecided exactly where it is not empty and continues the
preface without completing it. -/
theorem isSome_observe (d : Detection) (read : Bytes) :
    (d.observe read).isSome = true ↔ read ≠ [] ∧ ProperPrefix (d.arrived ++ read) H2_PREFACE := by
  have hlt := d.matched_lt
  have hlength : (d.arrived ++ read).length < H2_PREFACE.length ↔
      ¬ (H2_PREFACE.drop d.matched).length ≤ read.length := by
    rw [List.length_append, length_arrived, List.length_drop]
    omega
  rw [properPrefix_iff, hlength, arrived, take_append_prefix_iff, observe]
  by_cases h : read = [] ∨ (H2_PREFACE.drop d.matched).length ≤ read.length ∨
      ¬ read <+: H2_PREFACE.drop d.matched
  · rw [dif_pos h]
    simp only [Option.isSome_none, Bool.false_eq_true, false_iff]
    rintro ⟨hne, hinit, hroom⟩
    rcases h with h | h | h
    · exact hne h
    · exact hroom h
    · exact h hinit
  · rw [dif_neg h]
    simp only [Option.isSome_some, true_iff]
    exact ⟨fun h0 => h (.inl h0), not_not.mp fun hp => h (.inr (.inr hp)),
      fun hle => h (.inr (.inl hle))⟩

/-- What has arrived after a read that decides nothing. -/
theorem observe_some {d d' : Detection} {read : Bytes} (h : d.observe read = some d') :
    d'.arrived = d.arrived ++ read ∧ d'.deadline = d.deadline := by
  rw [observe] at h
  by_cases hc : read = [] ∨ (H2_PREFACE.drop d.matched).length ≤ read.length ∨
      ¬ read <+: H2_PREFACE.drop d.matched
  · rw [dif_pos hc] at h
    cases h
  · rw [dif_neg hc] at h
    obtain rfl := Option.some.inj h
    obtain ⟨rest, hrest⟩ := not_not.mp fun hp => hc (.inr (.inr hp))
    refine ⟨?_, rfl⟩
    rw [arrived, arrived, List.take_add, ← hrest, List.take_left]

/-- The timer, created if there is none. -/
def timer (d : Detection) : Sleep :=
  d.sleep.getD ⟨d.deadline⟩

theorem timer_deadline (d : Detection) : d.timer.deadline = d.deadline := by
  rw [timer]
  rcases h : d.sleep with _ | timer
  · rfl
  · exact d.sleep_deadline timer h

/-- Wait for more. -/
def wait (d : Detection) : Detection :=
  { d with
    sleep := some d.timer
    sleep_deadline := by
      rintro timer htimer
      obtain rfl := Option.mem_some.mp htimer
      exact d.timer_deadline }

end Detection

/-! ## Reads -/

/-- What a read of the socket gives. -/
inductive IoRead : Type where
  /-- bytes; none of them at the end -/
  | ready : Bytes → IoRead
  /-- an error -/
  | failed : String → IoRead
  /-- nothing yet -/
  | pending : IoRead

/-- One poll of a read: when it is, what the socket gives, and whether the timer, if it is asked,
has noticed that its deadline has passed. -/
structure ReadPoll where
  /-- the time -/
  now : ℕ
  /-- the read of the socket -/
  io : IoRead
  /-- the timer -/
  fires : Bool

/-- What a poll returns. -/
inductive ReadOutcome : Type where
  /-- bytes -/
  | ready : Bytes → ReadOutcome
  /-- the error of the socket -/
  | failed : String → ReadOutcome
  /-- `DetectionTimedOut` -/
  | timedOut : ReadOutcome
  /-- nothing yet -/
  | pending : ReadOutcome
  deriving DecidableEq

/-- What is passed through. -/
def IoRead.passed : IoRead → ReadOutcome
  | ready read => .ready read
  | failed e => .failed e
  | pending => .pending

/-- `DetectionTimeout`, without the socket. -/
structure DetectionTimeout where
  /-- the detection, until it is decided -/
  detection : Option Detection

namespace DetectionTimeout

/-- `DetectionTimeout::new`. -/
def new (deadline : Option ℕ) : DetectionTimeout :=
  ⟨deadline.map .new⟩

/-- `DetectionTimeout::poll_read`: what it returns, whether the timer was asked, and what it
leaves. -/
def pollRead (s : DetectionTimeout) (p : ReadPoll) : (ReadOutcome × Bool) × DetectionTimeout :=
  match s.detection with
  | none => ((p.io.passed, false), s)
  | some d =>
    match p.io with
    | .ready read => ((.ready read, false), ⟨d.observe read⟩)
    | .failed e => ((.failed e, false), s)
    | .pending =>
      if d.timer.isReady p.now p.fires then ((.timedOut, true), ⟨none⟩)
      else ((.pending, true), ⟨some d.wait⟩)

/-- The outcomes of polls, and whether each asked the timer. -/
def outcomes : DetectionTimeout → List ReadPoll → List (ReadOutcome × Bool)
  | _, [] => []
  | s, p :: polls => (s.pollRead p).1 :: (s.pollRead p).2.outcomes polls

/-- What polls leave. -/
def after : DetectionTimeout → List ReadPoll → DetectionTimeout
  | s, [] => s
  | s, p :: polls => (s.pollRead p).2.after polls

variable {s : DetectionTimeout} {d : Detection} {p : ReadPoll} {polls : List ReadPoll}

/-- Once it is decided, everything is passed through and no timer is asked. -/
theorem pollRead_decided (h : s.detection = none) :
    s.pollRead p = ((p.io.passed, false), s) := by
  rw [pollRead, h]

/-- While it is undecided, a poll passes on what there is to read, and otherwise asks the
timer. -/
theorem pollRead_undecided (h : s.detection = some d) :
    s.pollRead p =
      match p.io with
      | .ready read => ((.ready read, false), ⟨d.observe read⟩)
      | .failed e => ((.failed e, false), s)
      | .pending =>
        if d.timer.isReady p.now p.fires then ((.timedOut, true), ⟨none⟩)
        else ((.pending, true), ⟨some d.wait⟩) := by
  rw [pollRead, h]

theorem after_decided (h : s.detection = none) : s.after polls = s := by
  induction polls with
  | nil => rfl
  | cons p polls ih =>
    rw [after, pollRead_decided h]
    exact ih

end DetectionTimeout

/-! ## Runs -/

/-- The reads that polls of the socket gave. -/
def readsOf (polls : List ReadPoll) : List Bytes :=
  polls.filterMap fun p =>
    match p.io with
    | .ready read => some read
    | _ => none

/-- The detection is undecided after polls: there is a deadline, it has not struck, no read was
empty, and what was read is a proper prefix of the preface. -/
structure Undecided (deadline : Option ℕ) (polls : List ReadPoll) : Prop where
  /-- the timeout is set -/
  isSet : deadline.isSome = true
  /-- no poll has timed out -/
  inTime : ∀ r ∈ (DetectionTimeout.new deadline).outcomes polls, r.1 ≠ .timedOut
  /-- the peer has not closed -/
  notClosed : [] ∉ readsOf polls
  /-- the bytes so far -/
  properPrefix : ProperPrefix (readsOf polls).flatten H2_PREFACE

theorem readsOf_ready {p : ReadPoll} {polls : List ReadPoll} {read : Bytes}
    (h : p.io = .ready read) : readsOf (p :: polls) = read :: readsOf polls := by
  rw [readsOf, List.filterMap_cons, h]
  rfl

theorem readsOf_failed {p : ReadPoll} {polls : List ReadPoll} {e : String}
    (h : p.io = .failed e) : readsOf (p :: polls) = readsOf polls := by
  rw [readsOf, List.filterMap_cons, h]
  rfl

theorem readsOf_pending {p : ReadPoll} {polls : List ReadPoll} (h : p.io = .pending) :
    readsOf (p :: polls) = readsOf polls := by
  rw [readsOf, List.filterMap_cons, h]
  rfl

namespace DetectionTimeout

variable {s : DetectionTimeout} {d : Detection} {polls : List ReadPoll}

/-- **A run from an undecided state** stays undecided as long as nothing decides it. -/
theorem isSome_after (h : s.detection = some d) :
    (s.after polls).detection.isSome = true ↔
      (∀ r ∈ s.outcomes polls, r.1 ≠ .timedOut) ∧ [] ∉ readsOf polls ∧
        ProperPrefix (d.arrived ++ (readsOf polls).flatten) H2_PREFACE := by
  induction polls generalizing s d with
  | nil =>
    have hpre := d.properPrefix_arrived
    simp [after, outcomes, readsOf, h, hpre]
  | cons p polls ih =>
    rw [after, outcomes, pollRead_undecided h]
    rcases hio : p.io with read | e | _
    · -- bytes
      rw [readsOf_ready hio, List.flatten_cons, ← List.append_assoc]
      have hobserve := d.isSome_observe read
      rcases hd : d.observe read with _ | d'
      · have hdone : (DetectionTimeout.mk none).after polls = ⟨none⟩ := after_decided rfl
        rw [hd] at hobserve
        simp only [hd, hdone, Option.isSome_none, Bool.false_eq_true, false_iff]
        rintro ⟨-, hmem, hpre⟩
        have hsome := hobserve.mpr ⟨fun h0 => hmem (by simp [h0]), hpre.of_append⟩
        cases hsome
      · rw [hd] at hobserve
        obtain ⟨hne, -⟩ := hobserve.mp rfl
        rw [← (Detection.observe_some hd).1]
        have hread : ([] : Bytes) ∉ read :: readsOf polls ↔ [] ∉ readsOf polls := by
          simp [hne.symm]
        have hout : (∀ r ∈ (ReadOutcome.ready read, false) :: (DetectionTimeout.mk (some d')).outcomes
            polls, r.1 ≠ .timedOut) ↔
            ∀ r ∈ (DetectionTimeout.mk (some d')).outcomes polls, r.1 ≠ .timedOut := by
          simp
        simp only [hd, hread, hout]
        exact ih rfl
    · have hout : (∀ r ∈ (ReadOutcome.failed e, false) :: s.outcomes polls, r.1 ≠ .timedOut) ↔
          ∀ r ∈ s.outcomes polls, r.1 ≠ .timedOut := by
        simp
      rw [readsOf_failed hio]
      simp only [hout]
      exact ih h
    · rw [readsOf_pending hio]
      by_cases hready : d.timer.isReady p.now p.fires = true
      · have hdone : (DetectionTimeout.mk none).after polls = ⟨none⟩ := after_decided rfl
        simp [hready, hdone]
      · have hout : (∀ r ∈ (ReadOutcome.pending, true) ::
            (DetectionTimeout.mk (some d.wait)).outcomes polls, r.1 ≠ .timedOut) ↔
            ∀ r ∈ (DetectionTimeout.mk (some d.wait)).outcomes polls, r.1 ≠ .timedOut := by
          simp
        simp only [if_neg hready, hout]
        exact ih (d := d.wait) rfl

/-- The deadline stays what it is. -/
theorem deadline_after {d' : Detection} (h : s.detection = some d)
    (h' : (s.after polls).detection = some d') : d'.deadline = d.deadline := by
  induction polls generalizing s d with
  | nil =>
    rw [after, h] at h'
    rw [Option.some.inj h']
  | cons p polls ih =>
    rw [after, pollRead_undecided h] at h'
    rcases hio : p.io with read | e | _
    · simp only [hio] at h'
      rcases hd : d.observe read with _ | d₁
      · rw [hd, after_decided rfl] at h'
        cases h'
      · rw [hd] at h'
        exact (ih rfl h').trans (Detection.observe_some hd).2
    · simp only [hio] at h'
      exact ih h h'
    · simp only [hio] at h'
      by_cases hready : d.timer.isReady p.now p.fires = true
      · rw [if_pos hready, after_decided rfl] at h'
        cases h'
      · rw [if_neg hready] at h'
        exact ih (d := d.wait) rfl h'

theorem outcomes_decided (h : s.detection = none) :
    s.outcomes polls = polls.map fun p => (p.io.passed, false) := by
  induction polls with
  | nil => rfl
  | cons p polls ih =>
    rw [outcomes, pollRead_decided h, List.map_cons, ih]

/-- No run times out twice. -/
theorem timedOut_once : (s.outcomes polls).countP (fun r => r.1 = .timedOut) ≤ 1 := by
  induction polls generalizing s with
  | nil => exact Nat.zero_le 1
  | cons p polls ih =>
    rw [outcomes, List.countP_cons]
    rcases hs : s.detection with _ | d
    · have hpassed : p.io.passed ≠ .timedOut := by
        rcases p.io with read | e | _ <;> nofun
      rw [pollRead_decided hs]
      simpa [hpassed] using ih
    · rw [pollRead_undecided hs]
      rcases hio : p.io with read | e | _
      · simpa using ih
      · simpa using ih
      · by_cases hready : d.timer.isReady p.now p.fires = true
        · -- the detection is over with the error
          have hrest : (DetectionTimeout.mk none).outcomes polls =
              polls.map fun p => (p.io.passed, false) := outcomes_decided rfl
          have hnone : ∀ q : ReadPoll, q.io.passed ≠ .timedOut := by
            intro q
            rcases q.io with read | e | _ <;> nofun
          simp only [if_pos hready, hrest]
          simp [List.countP_map, hnone]
        · simpa [hready] using ih

end DetectionTimeout

/-- The law of the detection, at a poll after others. -/
structure DetectionLaw (deadline : Option ℕ) (before : List ReadPoll) (p : ReadPoll) : Prop where
  /-- it is undecided as long as the bytes so far decide nothing -/
  undecided : ((DetectionTimeout.new deadline).after before).detection.isSome = true ↔
    Undecided deadline before
  /-- bytes are passed through, and so are errors -/
  passed : p.io ≠ .pending →
    (((DetectionTimeout.new deadline).after before).pollRead p).1 = (p.io.passed, false)
  /-- a read that has to wait fails if the detection is undecided and its deadline has passed -/
  waits : p.io = .pending → Undecided deadline before → ∃ t, deadline = some t ∧
    (((DetectionTimeout.new deadline).after before).pollRead p).1 =
      if p.fires = true ∧ t ≤ p.now then (.timedOut, true) else (.pending, true)
  /-- afterwards everything is passed through, and no timer is asked -/
  decided : ¬ Undecided deadline before →
    (((DetectionTimeout.new deadline).after before).pollRead p).1 = (p.io.passed, false)
  /-- it times out once at most -/
  once : ((DetectionTimeout.new deadline).outcomes (before ++ [p])).countP
    (fun r => r.1 = .timedOut) ≤ 1

/-- The detection is undecided as long as the bytes so far decide nothing. -/
theorem isSome_iff_undecided (deadline : Option ℕ) (polls : List ReadPoll) :
    ((DetectionTimeout.new deadline).after polls).detection.isSome = true ↔
      Undecided deadline polls := by
  rcases deadline with _ | t
  · have hnone : ((DetectionTimeout.new none).after polls).detection = none := by
      rw [DetectionTimeout.after_decided (s := .new none) rfl]
      rfl
    rw [hnone]
    constructor
    · intro h
      cases h
    · intro h
      cases h.isSet
  · rw [DetectionTimeout.isSome_after (s := .new (some t)) (d := .new t) rfl]
    constructor
    · rintro ⟨htime, hclosed, hpre⟩
      exact ⟨rfl, htime, hclosed, hpre⟩
    · rintro ⟨-, htime, hclosed, hpre⟩
      exact ⟨htime, hclosed, hpre⟩

/-- **The choice of the version**, for every deadline, every way the bytes are cut into reads and
every time at which the reads are polled. -/
theorem detection_timeout (deadline : Option ℕ) (before : List ReadPoll) (p : ReadPoll) :
    DetectionLaw deadline before p := by
  have hundecided := isSome_iff_undecided deadline before
  generalize hs : (DetectionTimeout.new deadline).after before = s at hundecided
  refine ⟨by rw [hs]; exact hundecided, ?_, ?_, ?_, DetectionTimeout.timedOut_once⟩
  · intro hio
    rw [hs]
    rcases h : s.detection with _ | d
    · rw [DetectionTimeout.pollRead_decided h]
    · rw [DetectionTimeout.pollRead_undecided h]
      rcases hp : p.io with read | e | _
      · rfl
      · rfl
      · exact absurd hp hio
  · intro hio hun
    obtain ⟨d, hd⟩ := Option.isSome_iff_exists.mp (hundecided.mpr hun)
    obtain ⟨t, rfl⟩ := Option.isSome_iff_exists.mp hun.isSet
    have ht : d.deadline = t :=
      DetectionTimeout.deadline_after (s := .new (some t)) (d := .new t) rfl (hs ▸ hd)
    refine ⟨t, rfl, ?_⟩
    rw [hs, DetectionTimeout.pollRead_undecided hd, hio]
    have hready : d.timer.isReady p.now p.fires = true ↔ p.fires = true ∧ t ≤ p.now := by
      rw [Sleep.isReady, Bool.and_eq_true, decide_eq_true_iff, d.timer_deadline, ht]
    by_cases h : d.timer.isReady p.now p.fires = true
    · simp only [if_pos h, if_pos (hready.mp h)]
    · simp only [if_neg h, if_neg fun h' => h (hready.mpr h')]
  · intro hun
    rw [hs]
    rcases h : s.detection with _ | d
    · rw [DetectionTimeout.pollRead_decided h]
    · exact absurd (hundecided.mp (by rw [h]; rfl)) hun

/-- The preface in two reads, and the same bytes with one more read past its end. -/
example : (((DetectionTimeout.new (some 5)).after
      [⟨0, .ready (H2_PREFACE.take 3), true⟩]).detection.isSome,
    ((DetectionTimeout.new (some 5)).after [⟨0, .ready (H2_PREFACE.take 3), true⟩,
      ⟨9, .ready (H2_PREFACE.drop 3 ++ [0]), true⟩]).detection.isSome) = (true, false) := by
  decide +kernel

end ConnectRpc
