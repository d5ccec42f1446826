import ConnectRpc.Assembler

/-!
# The memory of the assembler

`EnvelopeAssembler` reads headers that may declare any length, and its buffers must grow with
the bytes that arrive and not with what is declared. A payload for the slab is never in the body
buffer and the other way around, and the body buffer grows by doubling, up to the declared
length.

`Fed` are the states that any calls lead to, with the bytes taken since the last envelope, and
`assembler_memory` bounds the buffers in all of them by those bytes.
-/

namespace ConnectRpc

namespace EnvelopeAssembler

/-! ## Calls -/

/-- `feed`, with what it leaves behind where it fails. -/
def feedThrough (a : EnvelopeAssembler) (frame : Bytes) :
    Except ConnectError (Option Envelope) × Bytes × EnvelopeAssembler :=
  if a.headerLen < HEADER_SIZE then
    let take := min (HEADER_SIZE - a.headerLen) frame.length
    let header := a.header.take a.headerLen ++ frame.take take ++ a.header.drop (a.headerLen + take)
    let frame := frame.drop take
    let headerLen := a.headerLen + take
    if headerLen < HEADER_SIZE then
      (.ok none, [], { a with header := header, headerLen := headerLen })
    else
      let flagByte := header.headD 0
      let length := fromBeBytes (header.drop 1)
      let (what, limit) := limitOf a.maxMessageSize a.grpcWebTrailerLimit flagByte
      if length > limit then
        (.error (sizeExceeded what length limit), frame,
          { a with header := header, headerLen := headerLen })
      else
        let r := { a with header := header, headerLen := headerLen, expected := length }.fill frame
        (.ok r.1, r.2)
  else (.ok (a.fill frame).1, (a.fill frame).2)

/-- It is `feed`. -/
theorem feedThrough_eq (a : EnvelopeAssembler) (frame : Bytes) :
    a.feed frame = (a.feedThrough frame).1.map fun e => (e, (a.feedThrough frame).2) := by
  rw [feed, feedThrough]
  by_cases hheader : a.headerLen < HEADER_SIZE
  · rw [if_pos hheader, if_pos hheader]
    simp only
    split
    · rfl
    · split
      · rfl
      · rfl
  · rw [if_neg hheader, if_neg hheader]
    rfl

/-- The moments of a call of `fill_body`: how many bytes of the frame were taken, and the state,
once there is room for them and once they are copied. -/
def fillBodyMoments (a : EnvelopeAssembler) (frame : Bytes) : List (ℕ × EnvelopeAssembler) :=
  let take := min (a.expected - a.body.length) frame.length
  let capacity :=
    if a.bodyCapacity - a.body.length < take then
      min a.expected (max (a.bodyCapacity * 2) (a.body.length + take))
    else a.bodyCapacity
  [(take, { a with bodyCapacity := capacity }),
    (take, { a with body := a.body ++ frame.take take, bodyCapacity := capacity })]

/-- The moments of the payload phase at which the body buffer may have grown. -/
def fillMoments (a : EnvelopeAssembler) (frame : Bytes) : List (ℕ × EnvelopeAssembler) :=
  if a.expected = 0 then []
  else if a.expected ≤ READ_SLAB_SIZE / 2 then []
  else a.fillBodyMoments frame

/-- The moments of a call at which the body buffer may have grown. -/
def feedMoments (a : EnvelopeAssembler) (frame : Bytes) : List (ℕ × EnvelopeAssembler) :=
  if a.headerLen < HEADER_SIZE then
    let take := min (HEADER_SIZE - a.headerLen) frame.length
    let header := a.header.take a.headerLen ++ frame.take take ++ a.header.drop (a.headerLen + take)
    let frame := frame.drop take
    let headerLen := a.headerLen + take
    if headerLen < HEADER_SIZE then []
    else
      let length := fromBeBytes (header.drop 1)
      let (_, limit) := limitOf a.maxMessageSize a.grpcWebTrailerLimit (header.headD 0)
      if length > limit then []
      else
        let moments :=
          { a with header := header, headerLen := headerLen, expected := length }.fillMoments frame
        moments.map fun m => (take + m.1, m.2)
  else a.fillMoments frame

/-- A fresh decoder, with or without a limit for trailers. -/
def start (maxMessageSize : ℕ) : Option ℕ → EnvelopeAssembler
  | none => new maxMessageSize
  | some limit => (new maxMessageSize).withGrpcWebTrailerLimit limit

/-- What was taken of a frame. -/
def consumed (frame rest : Bytes) : Bytes :=
  frame.take (frame.length - rest.length)

/-- The states that calls lead to, with the bytes taken since the last envelope and whether a
header was rejected. A caller should stop there, but here it need not. -/
inductive Fed (maxMessageSize : ℕ) (trailerLimit : Option ℕ) :
    Bytes → Bool → EnvelopeAssembler → Prop
  | start : Fed maxMessageSize trailerLimit [] false (start maxMessageSize trailerLimit)
  | needed {taken frame rest : Bytes} {lost : Bool} {a a' : EnvelopeAssembler} :
    Fed maxMessageSize trailerLimit taken lost a →
    a.feedThrough frame = (.ok none, rest, a') →
    Fed maxMessageSize trailerLimit (taken ++ consumed frame rest) lost a'
  | completed {taken frame rest : Bytes} {lost : Bool} {a a' : EnvelopeAssembler} {e : Envelope} :
    Fed maxMessageSize trailerLimit taken lost a →
    a.feedThrough frame = (.ok (some e), rest, a') →
    Fed maxMessageSize trailerLimit [] lost a'
  | rejected {taken frame rest : Bytes} {lost : Bool} {a a' : EnvelopeAssembler}
      {err : ConnectError} :
    Fed maxMessageSize trailerLimit taken lost a →
    a.feedThrough frame = (.error err, rest, a') →
    Fed maxMessageSize trailerLimit (taken ++ consumed frame rest) true a'

/-! ## What the buffers hold -/

/-- A state whose buffers hold so many bytes of a payload, in one of them. -/
structure Holding (a : EnvelopeAssembler) (received : ℕ) : Prop where
  /-- what is in the slab is a small payload, and not all of it -/
  slab : 0 < (a.slab.getD []).length →
    (a.slab.getD []).length < a.expected ∧ a.expected ≤ READ_SLAB_SIZE / 2
  /-- what is in the body buffer is a large one, and not all of it -/
  body : 0 < a.body.length → a.body.length < a.expected ∧ READ_SLAB_SIZE / 2 < a.expected
  /-- the body buffer is not too large -/
  capacity : a.bodyCapacity ≤ min a.expected (2 * a.body.length)
  /-- nothing else is held -/
  received : (a.slab.getD []).length + a.body.length = received

variable {a : EnvelopeAssembler} {frame : Bytes} {n : ℕ}

/-- How the body buffer grows. -/
theorem grown_le {expected capacity len take : ℕ} (hcapacity : capacity ≤ min expected (2 * len))
    (htake : take ≤ expected - len) :
    (if capacity - len < take then min expected (max (capacity * 2) (len + take))
      else capacity) ≤ min expected (2 * (len + take)) := by
  split
  · omega
  · omega

/-- What the payload phase leaves behind: more of the payload, or none of it. -/
theorem Holding.fill (h : a.Holding n) (frame : Bytes) :
    ∃ k ≤ frame.length, ∃ a', (a.fill frame).2 = (frame.drop k, a') ∧ a'.header = a.header ∧
      a'.maxMessageSize = a.maxMessageSize ∧ a'.grpcWebTrailerLimit = a.grpcWebTrailerLimit ∧
      ((a.fill frame).1 = none ∧ a'.headerLen = a.headerLen ∧ a'.expected = a.expected ∧
          a'.Holding (n + k) ∨
        (∃ e, (a.fill frame).1 = some e) ∧ a'.headerLen = 0 ∧ a'.Holding 0) := by
  obtain ⟨hslab, hbody, hcapacity, hreceived⟩ := h
  rw [EnvelopeAssembler.fill]
  by_cases h0 : a.expected = 0
  · -- nothing was declared, so nothing can be held
    refine ⟨0, Nat.zero_le _, { a with headerLen := 0 }, ?_, rfl, rfl, rfl, .inr ⟨?_, rfl, ?_⟩⟩
    · rw [if_pos h0]
      rfl
    · rw [if_pos h0]
      exact ⟨_, rfl⟩
    · refine ⟨hslab, hbody, hcapacity, ?_⟩
      show (a.slab.getD []).length + a.body.length = 0
      omega
  · rw [if_neg h0]
    by_cases hsmall : a.expected ≤ READ_SLAB_SIZE / 2
    · -- the payload is for the slab, and the body buffer is empty
      have hempty : a.body.length = 0 := by omega
      have hpart : (a.slab.getD []).length < a.expected := by omega
      rw [if_pos hsmall, fillSlab]
      simp only
      generalize htake : min (a.expected - (a.slab.getD []).length) frame.length = k
      have hlength : (a.slab.getD [] ++ frame.take k).length = n + k := by
        rw [List.length_append, List.length_take]
        omega
      refine ⟨k, by omega, ?_⟩
      by_cases hfull : (a.slab.getD [] ++ frame.take k).length = a.expected
      · rw [if_pos hfull]
        refine ⟨_, rfl, rfl, rfl, rfl, .inr ⟨⟨_, rfl⟩, rfl, ?_⟩⟩
        have hrest : ((a.slab.getD [] ++ frame.take k).drop a.expected).length = 0 := by
          rw [List.length_drop, hfull, Nat.sub_self]
        refine ⟨fun hpos => ?_, hbody, hcapacity, ?_⟩
        · exact absurd hrest (Nat.ne_of_gt hpos)
        · exact Nat.add_eq_zero_iff.mpr ⟨hrest, hempty⟩
      · rw [if_neg hfull]
        refine ⟨_, rfl, rfl, rfl, rfl, .inl ⟨rfl, rfl, rfl, ?_⟩⟩
        refine ⟨fun _ => ⟨?_, hsmall⟩, hbody, hcapacity, ?_⟩
        · show (a.slab.getD [] ++ frame.take k).length < a.expected
          omega
        · show (a.slab.getD [] ++ frame.take k).length + a.body.length = n + k
          omega
    · -- the payload is for the body buffer, and the slab is empty
      have hempty : (a.slab.getD []).length = 0 := by omega
      have hpart : a.body.length < a.expected := by omega
      rw [if_neg hsmall, fillBody]
      simp only
      generalize htake : min (a.expected - a.body.length) frame.length = k
      have hgrown := grown_le hcapacity (by omega : k ≤ a.expected - a.body.length)
      generalize (if a.bodyCapacity - a.body.length < k then
        min a.expected (max (a.bodyCapacity * 2) (a.body.length + k)) else a.bodyCapacity) =
          capacity at hgrown ⊢
      have hlength : (a.body ++ frame.take k).length = a.body.length + k := by
        rw [List.length_append, List.length_take]
        omega
      refine ⟨k, by omega, ?_⟩
      by_cases hmore : (a.body ++ frame.take k).length < a.expected
      · rw [if_pos hmore]
        refine ⟨_, rfl, rfl, rfl, rfl, .inl ⟨rfl, rfl, rfl, ?_⟩⟩
        refine ⟨hslab, fun _ => ⟨hmore, Nat.lt_of_not_le hsmall⟩, ?_, ?_⟩
        · show capacity ≤ min a.expected (2 * (a.body ++ frame.take k).length)
          rw [hlength]
          exact hgrown
        · show (a.slab.getD []).length + (a.body ++ frame.take k).length = n + k
          omega
      · rw [if_neg hmore]
        refine ⟨_, rfl, rfl, rfl, rfl, .inr ⟨⟨_, rfl⟩, rfl, ?_⟩⟩
        refine ⟨hslab, fun hpos => ?_, Nat.zero_le _, hempty⟩
        cases hpos

/-- Where the body buffer may have grown. -/
theorem Holding.fillMoments (h : a.Holding n) :
    ∀ m ∈ a.fillMoments frame, m.2.bodyCapacity ≤ min m.2.expected (2 * (n + m.1)) := by
  intro m hm
  rw [EnvelopeAssembler.fillMoments] at hm
  by_cases h0 : a.expected = 0
  · rw [if_pos h0] at hm
    cases hm
  · rw [if_neg h0] at hm
    by_cases hsmall : a.expected ≤ READ_SLAB_SIZE / 2
    · rw [if_pos hsmall] at hm
      cases hm
    · have hlen : a.body.length ≤ n := by
        have := h.received
        omega
      have htake : min (a.expected - a.body.length) frame.length ≤ a.expected - a.body.length :=
        Nat.min_le_left _ _
      have hgrown := grown_le h.capacity htake
      rw [if_neg hsmall, fillBodyMoments] at hm
      rcases List.mem_cons.mp hm with rfl | hm
      · exact Nat.le_trans hgrown (by simp only; omega)
      · obtain rfl := List.mem_singleton.mp hm
        exact Nat.le_trans hgrown (by simp only; omega)

/-! ## Every state -/

/-- What the bytes taken since the last envelope say about a state. -/
structure Follows (maxMessageSize : ℕ) (trailerLimit : Option ℕ) (taken : Bytes) (lost : Bool)
    (a : EnvelopeAssembler) : Prop where
  /-- the limits never change -/
  max_eq : a.maxMessageSize = maxMessageSize
  /-- the limits never change -/
  trailer_eq : a.grpcWebTrailerLimit = trailerLimit
  /-- the header buffer has its fixed size -/
  header_length : a.header.length = HEADER_SIZE
  /-- so much of it is filled -/
  headerLen_eq : a.headerLen = min taken.length HEADER_SIZE
  /-- with these bytes -/
  header_eq : a.header.take a.headerLen = taken.take HEADER_SIZE
  /-- the others are in one of the buffers -/
  holding : a.Holding (taken.length - HEADER_SIZE)
  /-- the payload is as long as declared -/
  declared : lost = false → HEADER_SIZE ≤ taken.length →
    a.expected = fromBeBytes ((taken.take HEADER_SIZE).drop 1)

variable {maxMessageSize : ℕ} {trailerLimit : Option ℕ} {taken rest : Bytes} {lost : Bool}
  {a' : EnvelopeAssembler}

theorem follows_start :
    Follows maxMessageSize trailerLimit [] false (start maxMessageSize trailerLimit) := by
  have hdeclared : HEADER_SIZE ≤ ([] : Bytes).length →
      0 = fromBeBytes ((([] : Bytes).take HEADER_SIZE).drop 1) := fun h => by cases h
  have hempty : (0 : ℕ) < ([] : Bytes).length → False := Nat.lt_irrefl 0
  cases trailerLimit with
  | none =>
    exact ⟨rfl, rfl, rfl, rfl, rfl, ⟨fun h => (hempty h).elim, fun h => (hempty h).elim,
      Nat.zero_le _, rfl⟩, fun _ => hdeclared⟩
  | some limit =>
    exact ⟨rfl, rfl, rfl, rfl, rfl, ⟨fun h => (hempty h).elim, fun h => (hempty h).elim,
      Nat.zero_le _, rfl⟩, fun _ => hdeclared⟩

/-- The header of a call that completes it. -/
theorem Follows.header (h : Follows maxMessageSize trailerLimit taken lost a)
    (hshort : taken.length < HEADER_SIZE) (frame : Bytes) {k : ℕ}
    (hk : k = min (HEADER_SIZE - a.headerLen) frame.length) :
    let header := a.header.take a.headerLen ++ frame.take k ++ a.header.drop (a.headerLen + k)
    header.length = HEADER_SIZE ∧ header.take (a.headerLen + k) = taken ++ frame.take k ∧
      a.headerLen = taken.length ∧ (HEADER_SIZE ≤ a.headerLen + k →
        header = (taken ++ frame).take HEADER_SIZE) := by
  have hlen : a.headerLen = taken.length := by
    rw [h.headerLen_eq]
    omega
  have htaken : a.header.take a.headerLen = taken := by
    rw [h.header_eq, List.take_of_length_le (Nat.le_of_lt hshort)]
  have hfilled : (taken ++ frame.take k).length = a.headerLen + k := by
    rw [List.length_append, List.length_take]
    omega
  have hsize := h.header_length
  intro header
  have hheader : header = taken ++ frame.take k ++ a.header.drop (a.headerLen + k) := by
    rw [← htaken]
  refine ⟨?_, ?_, hlen, fun hfull => ?_⟩
  · rw [hheader, List.length_append, hfilled, List.length_drop]
    omega
  · rw [hheader, List.take_left' hfilled]
  · have hdrop : a.header.drop (a.headerLen + k) = [] := List.drop_of_length_le (by omega)
    have hpart : HEADER_SIZE - taken.length = k := by omega
    rw [hheader, hdrop, List.append_nil, List.take_append,
      List.take_of_length_le (Nat.le_of_lt hshort), hpart]

/-- A call that ends in the payload phase. -/
theorem Follows.fill (h : Follows maxMessageSize trailerLimit taken lost a)
    (hfull : HEADER_SIZE ≤ taken.length) (frame : Bytes) :
    (∃ a', a.fill frame = (none, (a.fill frame).2.1, a') ∧
      Follows maxMessageSize trailerLimit (taken ++ consumed frame (a.fill frame).2.1) lost a') ∨
    ∃ e a', a.fill frame = (some e, (a.fill frame).2.1, a') ∧
      Follows maxMessageSize trailerLimit [] lost a' := by
  obtain ⟨k, hk, a', hrest, hheader, hmax, htrailer, hcases⟩ := h.holding.fill frame
  have hconsumed : consumed frame (frame.drop k) = frame.take k := by
    rw [consumed, List.length_drop, Nat.sub_sub_self hk]
  rcases hcases with ⟨hnone, hlen, hexpected, hholding⟩ | ⟨⟨e, he⟩, hlen, hholding⟩
  · refine .inl ⟨a', Prod.ext hnone (by rw [hrest]), ?_⟩
    have hinit : (taken ++ frame.take k).take HEADER_SIZE = taken.take HEADER_SIZE :=
      List.take_append_of_le_length hfull
    have hlength : (taken ++ frame.take k).length = taken.length + k := by
      rw [List.length_append, List.length_take]
      omega
    rw [hrest]
    simp only
    rw [hconsumed]
    refine ⟨hmax.trans h.max_eq, htrailer.trans h.trailer_eq, ?_, ?_, ?_, ?_, ?_⟩
    · rw [hheader, h.header_length]
    · rw [hlen, h.headerLen_eq, hlength]
      omega
    · rw [hheader, hlen, h.header_eq, hinit]
    · rw [hlength, Nat.sub_add_comm hfull]
      exact hholding
    · intro hlost _
      rw [hexpected, hinit]
      exact h.declared hlost hfull
  · refine .inr ⟨e, a', Prod.ext he (by rw [hrest]), ?_⟩
    refine ⟨hmax.trans h.max_eq, htrailer.trans h.trailer_eq, ?_, hlen, ?_, hholding, ?_⟩
    · rw [hheader, h.header_length]
    · rw [hlen]
      rfl
    · intro _ hle
      cases hle

/-- **What one call does**: it keeps a piece of a header, rejects a header and leaves the buffers as
they are, or goes on to the payload. -/
theorem Follows.feed_cases (h : Follows maxMessageSize trailerLimit taken lost a)
    (frame : Bytes) :
    ((taken ++ frame).length < HEADER_SIZE ∧ a.feedMoments frame = [] ∧
      ∃ a', a.feedThrough frame = (.ok none, [], a') ∧
        Follows maxMessageSize trailerLimit (taken ++ frame) lost a') ∨
    (taken.length < HEADER_SIZE ∧ HEADER_SIZE ≤ (taken ++ frame).length ∧
      (limitOf maxMessageSize trailerLimit (((taken ++ frame).take HEADER_SIZE).headD 0)).2 <
        fromBeBytes (((taken ++ frame).take HEADER_SIZE).drop 1) ∧ a.feedMoments frame = [] ∧
      ∃ k ≤ frame.length, ∃ err a', a.feedThrough frame = (.error err, frame.drop k, a') ∧
        a'.body = a.body ∧ a'.bodyCapacity = a.bodyCapacity ∧ a'.slab = a.slab ∧
        Follows maxMessageSize trailerLimit (taken ++ frame.take k) true a') ∨
    ∃ k ≤ frame.length, ∃ a', HEADER_SIZE ≤ (taken ++ frame.take k).length ∧
      Follows maxMessageSize trailerLimit (taken ++ frame.take k) lost a' ∧
      (taken.length < HEADER_SIZE →
        ¬ (limitOf maxMessageSize trailerLimit (((taken ++ frame).take HEADER_SIZE).headD 0)).2 <
          fromBeBytes (((taken ++ frame).take HEADER_SIZE).drop 1)) ∧
      a.feedThrough frame = (.ok (a'.fill (frame.drop k)).1, (a'.fill (frame.drop k)).2) ∧
      a.feedMoments frame = (a'.fillMoments (frame.drop k)).map fun m => (k + m.1, m.2) := by
  by_cases hshort : taken.length < HEADER_SIZE
  · generalize hk : min (HEADER_SIZE - a.headerLen) frame.length = k
    obtain ⟨hsize, hfilled, hlen, hheader⟩ := h.header hshort frame hk.symm
    rw [hlen] at hk
    have htaken : a.headerLen < HEADER_SIZE := hlen ▸ hshort
    have htake : (taken ++ frame.take k).length = taken.length + k := by
      rw [List.length_append, List.length_take]
      omega
    have hheld : a.Holding 0 := by
      have hzero : taken.length - HEADER_SIZE = 0 := by omega
      exact hzero ▸ h.holding
    obtain ⟨hslab, hbody, hcapacity⟩ : (a.slab.getD []).length = 0 ∧ a.body.length = 0 ∧
        a.bodyCapacity = 0 := by
      have hcapacity := hheld.capacity
      have hreceived := hheld.received
      omega
    generalize hnew : a.header.take a.headerLen ++ frame.take k ++
      a.header.drop (a.headerLen + k) = header at hsize hfilled hheader
    -- a state with more of the header
    have hnext : ∀ (expected : ℕ) (lost' : Bool), (lost' = false →
          HEADER_SIZE ≤ (taken ++ frame.take k).length → expected =
            fromBeBytes (((taken ++ frame.take k).take HEADER_SIZE).drop 1)) →
        Follows maxMessageSize trailerLimit (taken ++ frame.take k) lost'
          { a with header := header, headerLen := a.headerLen + k, expected := expected } := by
      intro expected lost' hdeclared
      refine ⟨h.max_eq, h.trailer_eq, hsize, ?_, ?_, ⟨?_, ?_, ?_, ?_⟩, hdeclared⟩
      · show a.headerLen + k = _
        omega
      · have hall : (taken ++ frame.take k).take HEADER_SIZE = taken ++ frame.take k :=
          List.take_of_length_le (by omega)
        exact hfilled.trans hall.symm
      · exact fun hpos => absurd hslab (Nat.ne_of_gt hpos)
      · exact fun hpos => absurd hbody (Nat.ne_of_gt hpos)
      · show a.bodyCapacity ≤ _
        omega
      · show (a.slab.getD []).length + a.body.length = _
        omega
    by_cases hmore : a.headerLen + k < HEADER_SIZE
    · have hall : frame.take k = frame := List.take_of_length_le (by omega)
      refine .inl ⟨?_, ?_, { a with header := header, headerLen := a.headerLen + k }, ?_, ?_⟩
      · rw [List.length_append]
        omega
      · simp only [feedMoments, if_pos htaken, hlen ▸ hk, if_pos hmore]
      · simp only [feedThrough, if_pos htaken, hlen ▸ hk, if_pos hmore, hnew]
      · have hfollows := hnext a.expected lost fun _ hle => by omega
        rwa [hall] at hfollows
    · -- the header is complete
      have hfull : (taken ++ frame.take k).length = HEADER_SIZE := by omega
      have hheader' : header = (taken ++ frame).take HEADER_SIZE := hheader (Nat.le_of_not_lt hmore)
      have hsame : (taken ++ frame.take k).take HEADER_SIZE = header := by
        rw [← hfilled, List.take_take, Nat.min_eq_left (by omega),
          List.take_of_length_le (Nat.le_of_eq hsize)]
      by_cases hover : fromBeBytes (header.drop 1) >
          (limitOf a.maxMessageSize a.grpcWebTrailerLimit (header.headD 0)).2
      · let limit := limitOf a.maxMessageSize a.grpcWebTrailerLimit (header.headD 0)
        refine .inr (.inl ⟨hshort, ?_, ?_, ?_, k, by omega,
          sizeExceeded limit.1 (fromBeBytes (header.drop 1)) limit.2,
          { a with header := header, headerLen := a.headerLen + k }, ?_, rfl, rfl, rfl,
          hnext a.expected true nofun⟩)
        · rw [List.length_append]
          omega
        · rw [← hheader', ← h.max_eq, ← h.trailer_eq]
          exact hover
        · simp only [feedMoments, if_pos htaken, hlen ▸ hk, if_neg hmore, hnew, if_pos hover]
        · simp only [feedThrough, if_pos htaken, hlen ▸ hk, if_neg hmore, hnew, if_pos hover]
          rfl
      · refine .inr (.inr ⟨k, by omega, _, Nat.le_of_eq hfull.symm,
          hnext (fromBeBytes (header.drop 1)) lost fun _ _ => by rw [hsame], fun _ => ?_, ?_, ?_⟩)
        · rw [← hheader', ← h.max_eq, ← h.trailer_eq]
          exact hover
        · simp only [feedThrough, if_pos htaken, hlen ▸ hk, if_neg hmore, hnew, if_neg hover]
        · simp only [feedMoments, if_pos htaken, hlen ▸ hk, if_neg hmore, hnew, if_neg hover]
  · -- the header was complete before
    have hfull := Nat.le_of_not_lt hshort
    have hheader : ¬ a.headerLen < HEADER_SIZE := by
      rw [h.headerLen_eq]
      omega
    have htaken : taken ++ frame.take 0 = taken := by rw [List.take_zero, List.append_nil]
    refine .inr (.inr ⟨0, Nat.zero_le _, a, ?_, ?_, fun hlt => absurd hlt hshort, ?_, ?_⟩)
    · rwa [htaken]
    · rwa [htaken]
    · rw [feedThrough, if_neg hheader, List.drop_zero]
    · have hsame : (fun m : ℕ × EnvelopeAssembler => (0 + m.1, m.2)) = id :=
        funext fun m => Prod.ext (Nat.zero_add m.1) rfl
      rw [feedMoments, if_neg hheader, List.drop_zero, hsame, List.map_id]

/-- What a call takes of a frame, behind a header. -/
theorem consumed_drop {k : ℕ} (hk : k ≤ frame.length) (hrest : rest.length ≤ frame.length - k) :
    frame.take k ++ consumed (frame.drop k) rest = consumed frame rest := by
  rw [consumed, consumed, List.length_drop, ← List.take_add]
  congr 1
  omega

/-- One more call. -/
theorem Follows.feed (h : Follows maxMessageSize trailerLimit taken lost a)
    {answer : Except ConnectError (Option Envelope)}
    (hfeed : a.feedThrough frame = (answer, rest, a')) :
    (answer = .ok none →
      Follows maxMessageSize trailerLimit (taken ++ consumed frame rest) lost a') ∧
    (∀ e, answer = .ok (some e) → Follows maxMessageSize trailerLimit [] lost a') ∧
    ∀ err, answer = .error err →
      Follows maxMessageSize trailerLimit (taken ++ consumed frame rest) true a' := by
  rcases h.feed_cases frame with ⟨-, -, b, hthrough, hfollows⟩ |
    ⟨-, -, -, -, k, hk, err, b, hthrough, -, -, -, hfollows⟩ |
    ⟨k, hk, b, hfull, hfollows, -, hthrough, -⟩
  · obtain ⟨rfl, hrest⟩ := Prod.mk.inj (hthrough.symm.trans hfeed)
    obtain ⟨rfl, rfl⟩ := Prod.mk.inj hrest
    have hall : consumed frame [] = frame := List.take_length
    rw [hall]
    exact ⟨fun _ => hfollows, nofun, nofun⟩
  · obtain ⟨rfl, hrest⟩ := Prod.mk.inj (hthrough.symm.trans hfeed)
    obtain ⟨rfl, rfl⟩ := Prod.mk.inj hrest
    have hpart : consumed frame (frame.drop k) = frame.take k := by
      rw [consumed, List.length_drop, Nat.sub_sub_self hk]
    rw [hpart]
    exact ⟨nofun, nofun, fun _ _ => hfollows⟩
  · obtain ⟨rfl, hrest⟩ := Prod.mk.inj (hthrough.symm.trans hfeed)
    have hle : rest.length ≤ frame.length - k := by
      obtain ⟨j, -, c, hc, -⟩ := hfollows.holding.fill (frame.drop k)
      have hdrop := (Prod.mk.inj (hrest.symm.trans hc)).1
      rw [hdrop, List.length_drop, List.length_drop]
      exact Nat.sub_le _ _
    have hfill : (b.fill (frame.drop k)).2.1 = rest := congrArg Prod.fst hrest
    rcases hfollows.fill hfull (frame.drop k) with ⟨c, hc, hnext⟩ | ⟨e, c, hc, hnext⟩
    · rw [hfill, List.append_assoc, consumed_drop hk hle] at hnext
      rw [hc] at hrest ⊢
      obtain rfl := (Prod.mk.inj hrest).2
      exact ⟨fun _ => hnext, nofun, nofun⟩
    · rw [hc] at hrest ⊢
      obtain rfl := (Prod.mk.inj hrest).2
      exact ⟨nofun, fun _ _ => hnext, nofun⟩

/-- **Every state** follows the bytes that were taken. -/
theorem Fed.follows (h : Fed maxMessageSize trailerLimit taken lost a) :
    Follows maxMessageSize trailerLimit taken lost a := by
  induction h with
  | start => exact follows_start
  | needed _ hfeed ih => exact (ih.feed hfeed).1 rfl
  | completed _ hfeed ih => exact (ih.feed hfeed).2.1 _ rfl
  | rejected _ hfeed ih => exact (ih.feed hfeed).2.2 _ rfl

/-- **The memory of the assembler is bounded by the bytes it has received.** Whatever the frames
and the limits are, the body buffer has no room for more than the declared length, nor for more
than twice what was received of the payload, also while it grows. What is in the slab is a part of
a small payload, and one of the two is empty. And a header that declares more than its limit is
rejected before a buffer grows. -/
theorem assembler_memory (h : Fed maxMessageSize trailerLimit taken lost a) :
    a.bodyCapacity ≤ min a.expected (2 * (taken.length - HEADER_SIZE)) ∧
    (a.slab.getD [] ≠ [] →
      (a.slab.getD []).length < a.expected ∧ a.expected ≤ READ_SLAB_SIZE / 2) ∧
    (a.slab.getD [] = [] ∨ a.body = []) ∧
    (lost = false → HEADER_SIZE ≤ taken.length →
      a.expected = fromBeBytes ((taken.take HEADER_SIZE).drop 1)) ∧
    (∀ frame, ∀ m ∈ a.feedMoments frame,
      m.2.bodyCapacity ≤ min m.2.expected (2 * (taken.length + m.1 - HEADER_SIZE))) ∧
    ∀ frame, taken.length < HEADER_SIZE → HEADER_SIZE ≤ (taken ++ frame).length →
      (limitOf maxMessageSize trailerLimit (((taken ++ frame).take HEADER_SIZE).headD 0)).2 <
        fromBeBytes (((taken ++ frame).take HEADER_SIZE).drop 1) →
      ∃ err rest a', a.feedThrough frame = (.error err, rest, a') ∧ a.feed frame = .error err ∧
        a'.body = a.body ∧ a'.bodyCapacity = a.bodyCapacity ∧ a'.slab = a.slab ∧
        a.feedMoments frame = [] := by
  have hfollows := h.follows
  obtain ⟨hslab, hbody, hcapacity, hreceived⟩ := hfollows.holding
  refine ⟨by omega, fun hne => hslab (List.length_pos_of_ne_nil hne), ?_, hfollows.declared,
    fun frame m hm => ?_, fun frame hshort hfull hover => ?_⟩
  · by_cases hempty : a.body.length = 0
    · exact .inr (List.length_eq_zero_iff.mp hempty)
    · exact .inl (List.length_eq_zero_iff.mp (by omega))
  · rcases hfollows.feed_cases frame with ⟨-, hnone, -⟩ | ⟨-, -, -, hnone, -⟩ |
      ⟨k, hk, b, hfull, hnext, -, -, hmoments⟩
    · rw [hnone] at hm
      cases hm
    · rw [hnone] at hm
      cases hm
    · rw [hmoments] at hm
      obtain ⟨m', hm', rfl⟩ := List.mem_map.mp hm
      have hle := hnext.holding.fillMoments m' hm'
      have hlength : (taken ++ frame.take k).length = taken.length + k := by
        rw [List.length_append, List.length_take, Nat.min_eq_left hk]
      simp only
      omega
  · rcases hfollows.feed_cases frame with ⟨hlt, -⟩ |
      ⟨-, -, -, hnone, k, -, err, a', hthrough, hbody', hcapacity', hslab', -⟩ |
      ⟨k, -, b, -, -, hok, -⟩
    · exact absurd hlt (Nat.not_lt.mpr hfull)
    · refine ⟨err, _, a', hthrough, ?_, hbody', hcapacity', hslab', hnone⟩
      rw [feedThrough_eq, hthrough]
      rfl
    · exact absurd hover (hok hshort)

/-- A header that declares 8192 bytes, in two frames, and three of the bytes. -/
theorem assembler_memory_three :
    ∃ a, Fed 10000 none [0, 0, 0, 0x20, 0, 1, 2, 3] false a ∧ a.expected = 8192 ∧
      a.bodyCapacity ≤ min a.expected 6 := by
  have hfirst : (start 10000 none).feedThrough [0, 0] =
      (.ok none, [], { start 10000 none with headerLen := 2 }) := rfl
  have hsecond : EnvelopeAssembler.feedThrough { start 10000 none with headerLen := 2 }
      [0, 0x20, 0, 1, 2, 3] = (.ok none, [],
        { start 10000 none with
          header := [0, 0, 0, 0x20, 0], headerLen := 5, expected := 8192,
          body := [1, 2, 3], bodyCapacity := 3 }) := rfl
  have hfed := Fed.needed (.needed .start hfirst) hsecond
  exact ⟨_, hfed, rfl, (assembler_memory hfed).1⟩

end EnvelopeAssembler

end ConnectRpc
