import ConnectRpc.Envelope

/-!
# The incremental envelope decoder

`EnvelopeAssembler` is fed one transport frame at a time. It collects the header,
then the payload: a small one in the slab shared by all small messages, a larger
one in a buffer of its own.

The state stands for the bytes it has taken and not yet given back (`held`). One
call to `feed` answers as the contiguous decoder does on those bytes and the frame
together (`feed_refines`), so the run over any frames is the contiguous run over
the whole sequence.
-/

namespace ConnectRpc

open Lib

/-- The state of the incremental decoder. -/
structure EnvelopeAssembler where
  /-- the limit on a message -/
  maxMessageSize : ℕ
  /-- the limit on a frame flagged as a gRPC-Web trailer, where those are accepted -/
  grpcWebTrailerLimit : Option ℕ
  /-- the header, as far as it is filled -/
  header : Bytes
  /-- how many header bytes are filled -/
  headerLen : ℕ
  /-- the payload length the header declares, once the header is complete -/
  expected : ℕ
  /-- the buffer a larger payload is assembled in -/
  body : Bytes
  /-- the capacity of that buffer -/
  bodyCapacity : ℕ
  /-- the slab small payloads are assembled in; allocated for the first one -/
  slab : Option Bytes
  deriving DecidableEq

namespace EnvelopeAssembler

/-- A fresh decoder. -/
def new (maxMessageSize : ℕ) : EnvelopeAssembler where
  maxMessageSize := maxMessageSize
  grpcWebTrailerLimit := none
  header := List.replicate HEADER_SIZE 0
  headerLen := 0
  expected := 0
  body := []
  bodyCapacity := 0
  slab := none

/-- Accept gRPC-Web trailer frames up to a limit of their own. -/
def withGrpcWebTrailerLimit (a : EnvelopeAssembler) (limit : ℕ) : EnvelopeAssembler :=
  { a with grpcWebTrailerLimit := some limit }

/-- Whether an envelope has started and is not yet complete. -/
def hasPartial (a : EnvelopeAssembler) : Bool :=
  0 < a.headerLen

/-- What a frame of this flag byte is called and how long it may be. -/
def limitOf (maxMessageSize : ℕ) (grpcWebTrailerLimit : Option ℕ) : LimitOf := fun flagByte =>
  match grpcWebTrailerLimit with
  | some limit =>
    if flagByte &&& flags.GRPC_WEB_TRAILER != 0 then ("grpc-web trailer", limit)
    else ("message", maxMessageSize)
  | none => ("message", maxMessageSize)

/-- Copy a small payload into the slab; split it off once complete. -/
def fillSlab (a : EnvelopeAssembler) (frame : Bytes) :
    Option Bytes × Bytes × EnvelopeAssembler :=
  let slab := a.slab.getD []
  let take := min (a.expected - slab.length) frame.length
  let slab := slab ++ frame.take take
  let frame := frame.drop take
  if slab.length = a.expected then
    (some (slab.take a.expected), frame, { a with slab := some (slab.drop a.expected) })
  else (none, frame, { a with slab := some slab })

/-- Assemble a larger payload in its own buffer. The buffer grows by doubling,
never past the declared length. -/
def fillBody (a : EnvelopeAssembler) (frame : Bytes) :
    Option Bytes × Bytes × EnvelopeAssembler :=
  let take := min (a.expected - a.body.length) frame.length
  let capacity :=
    if a.bodyCapacity - a.body.length < take then
      min a.expected (max (a.bodyCapacity * 2) (a.body.length + take))
    else a.bodyCapacity
  let body := a.body ++ frame.take take
  let frame := frame.drop take
  if body.length < a.expected then
    (none, frame, { a with body := body, bodyCapacity := capacity })
  else (some body, frame, { a with body := [], bodyCapacity := 0 })

/-- The payload phase of `feed`. -/
def fill (a : EnvelopeAssembler) (frame : Bytes) : Option Envelope × Bytes × EnvelopeAssembler :=
  let (data, frame, a) :=
    if a.expected = 0 then (some [], frame, a)
    else if a.expected ≤ READ_SLAB_SIZE / 2 then a.fillSlab frame
    else a.fillBody frame
  match data with
  | some data => (some ⟨a.header.headD 0, data⟩, frame, { a with headerLen := 0 })
  | none => (none, frame, a)

/-- Consume bytes from the front of a frame until one envelope completes or the
frame is used up. -/
def feed (a : EnvelopeAssembler) (frame : Bytes) :
    Except ConnectError (Option Envelope × Bytes × EnvelopeAssembler) :=
  if a.headerLen < HEADER_SIZE then
    let take := min (HEADER_SIZE - a.headerLen) frame.length
    let header := a.header.take a.headerLen ++ frame.take take ++ a.header.drop (a.headerLen + take)
    let frame := frame.drop take
    let headerLen := a.headerLen + take
    if headerLen < HEADER_SIZE then
      .ok (none, [], { a with header := header, headerLen := headerLen })
    else
      let flagByte := header.headD 0
      let length := fromBeBytes (header.drop 1)
      let (what, limit) := limitOf a.maxMessageSize a.grpcWebTrailerLimit flagByte
      if length > limit then .error (sizeExceeded what length limit)
      else
        .ok ({ a with header := header, headerLen := headerLen, expected := length }.fill frame)
  else .ok (a.fill frame)

/-! ## What the state holds -/

/-- The payload bytes of the envelope in progress. -/
def partialPayload (a : EnvelopeAssembler) : Bytes :=
  if a.expected ≤ READ_SLAB_SIZE / 2 then a.slab.getD [] else a.body

/-- The bytes taken and not yet given back as an envelope. -/
def held (a : EnvelopeAssembler) : Bytes :=
  if a.headerLen < HEADER_SIZE then a.header.take a.headerLen else a.header ++ a.partialPayload

/-- A state between two calls. While the header is incomplete both buffers are
empty; after that the payload is incomplete and sits in one of them. -/
structure Valid (limits : LimitOf) (a : EnvelopeAssembler) : Prop where
  /-- the limits never change -/
  limits_eq : limitOf a.maxMessageSize a.grpcWebTrailerLimit = limits
  /-- the header buffer has its fixed size -/
  header_length : a.header.length = HEADER_SIZE
  /-- and is filled from the front -/
  headerLen_le : a.headerLen ≤ HEADER_SIZE
  /-- no payload is held before the header is complete -/
  idle : a.headerLen < HEADER_SIZE → a.slab.getD [] = [] ∧ a.body = []
  /-- with the header complete, the payload is what the header says, within the
  limit, and incomplete -/
  busy : a.headerLen = HEADER_SIZE →
    a.expected = fromBeBytes (a.header.drop 1) ∧
      a.expected ≤ (limits (a.header.headD 0)).2 ∧ a.partialPayload.length < a.expected ∧
      (a.expected ≤ READ_SLAB_SIZE / 2 → a.body = []) ∧
      (READ_SLAB_SIZE / 2 < a.expected → a.slab.getD [] = [])

theorem new_valid (m : ℕ) : (new m).Valid (limitOf m none) where
  limits_eq := rfl
  header_length := rfl
  headerLen_le := Nat.zero_le _
  idle := fun _ => ⟨rfl, rfl⟩
  busy := fun h => by cases h

theorem withGrpcWebTrailerLimit_valid (m limit : ℕ) :
    ((new m).withGrpcWebTrailerLimit limit).Valid (limitOf m (some limit)) where
  limits_eq := rfl
  header_length := rfl
  headerLen_le := Nat.zero_le _
  idle := fun _ => ⟨rfl, rfl⟩
  busy := fun h => by cases h

@[simp] theorem held_new (m : ℕ) : (new m).held = [] := rfl

@[simp] theorem held_withGrpcWebTrailerLimit (m limit : ℕ) :
    ((new m).withGrpcWebTrailerLimit limit).held = [] := rfl

/-- Something is held exactly when an envelope has started. -/
theorem Valid.hasPartial_iff {limits : LimitOf} {a : EnvelopeAssembler} (h : a.Valid limits) :
    a.hasPartial = true ↔ a.held ≠ [] := by
  simp only [hasPartial, decide_eq_true_eq, held, ne_eq]
  split
  · rename_i hlt
    rw [List.take_eq_nil_iff]
    have hne : a.header ≠ [] := by
      intro h0
      have := h.header_length
      rw [h0] at this
      cases this
    constructor
    · rintro hpos (h0 | h0)
      · omega
      · exact hne h0
    · intro hno
      by_contra h0
      exact hno (.inl (by omega))
  · rename_i hlt
    constructor
    · intro _ h0
      have := congrArg List.length h0
      rw [List.length_append, h.header_length] at this
      cases (Nat.add_eq_zero_iff.mp this).1
    · intro _
      have : 0 < HEADER_SIZE := by decide
      omega

/-! ## One call -/

/-- A state in the payload phase: what `feed` hands to `fill`. The payload so far
may be empty, and is complete only if nothing was declared. -/
structure Filling (limits : LimitOf) (a : EnvelopeAssembler) : Prop where
  /-- the limits never change -/
  limits_eq : limitOf a.maxMessageSize a.grpcWebTrailerLimit = limits
  /-- the header buffer has its fixed size -/
  header_length : a.header.length = HEADER_SIZE
  /-- the header is complete -/
  headerLen_eq : a.headerLen = HEADER_SIZE
  /-- the payload length is the declared one -/
  expected_eq : a.expected = fromBeBytes (a.header.drop 1)
  /-- it is within the limit -/
  expected_le : a.expected ≤ (limits (a.header.headD 0)).2
  /-- the payload is not complete, unless it is empty -/
  partial_lt : a.partialPayload.length < a.expected ∨ a.expected = 0
  /-- only the buffer the size calls for is in use -/
  body_nil : a.expected ≤ READ_SLAB_SIZE / 2 → a.body = []
  /-- only the buffer the size calls for is in use -/
  slab_nil : READ_SLAB_SIZE / 2 < a.expected ∨ a.expected = 0 → a.slab.getD [] = []

namespace Filling

variable {limits : LimitOf} {a : EnvelopeAssembler}

theorem held_eq (h : a.Filling limits) : a.held = a.header ++ a.partialPayload := by
  rw [held, if_neg]
  rw [h.headerLen_eq]
  exact Nat.lt_irrefl _

theorem partial_nil (h : a.Filling limits) (h0 : a.expected = 0) : a.partialPayload = [] := by
  rw [partialPayload, if_pos (by omega)]
  exact h.slab_nil (.inr h0)

/-- Too few bytes: they are kept, and the state is again one between two calls. -/
theorem fill_need (h : a.Filling limits) {c : Bytes}
    (hc : a.partialPayload.length + c.length < a.expected) :
    ∃ a', a.fill c = (none, [], a') ∧ a'.Valid limits ∧ a'.held = a.held ++ c := by
  have hpos : a.expected ≠ 0 := by omega
  have hlen : ¬ a.headerLen < HEADER_SIZE := by
    rw [h.headerLen_eq]
    exact Nat.lt_irrefl _
  by_cases hs : a.expected ≤ READ_SLAB_SIZE / 2
  · have hp : a.partialPayload = a.slab.getD [] := by rw [partialPayload, if_pos hs]
    have htake : min (a.expected - (a.slab.getD []).length) c.length = c.length := by
      rw [hp] at hc
      omega
    have hne : (a.slab.getD [] ++ c).length ≠ a.expected := by
      rw [hp] at hc
      rw [List.length_append]
      omega
    have hfill : a.fill c = (none, [], { a with slab := some (a.slab.getD [] ++ c) }) := by
      simp only [fill, if_neg hpos, if_pos hs, fillSlab, htake, List.take_length,
        List.drop_length, if_neg hne]
    refine ⟨_, hfill, ?_, ?_⟩
    · refine ⟨h.limits_eq, h.header_length, Nat.le_of_eq h.headerLen_eq, fun hlt => absurd hlt hlen,
        fun _ => ⟨h.expected_eq, h.expected_le, ?_, h.body_nil, ?_⟩⟩
      · simp only [partialPayload, if_pos hs, Option.getD_some, List.length_append]
        rwa [← hp]
      · intro hbig
        exact absurd hbig (Nat.not_lt.mpr hs)
    · rw [h.held_eq, hp, List.append_assoc]
      simp only [held, if_neg hlen, partialPayload, if_pos hs, Option.getD_some]
  · have hp : a.partialPayload = a.body := by rw [partialPayload, if_neg hs]
    have htake : min (a.expected - a.body.length) c.length = c.length := by
      rw [hp] at hc
      omega
    have hlt : (a.body ++ c).length < a.expected := by
      rw [List.length_append, ← hp]
      exact hc
    obtain ⟨cap, hfill⟩ : ∃ cap,
        a.fill c = (none, [], { a with body := a.body ++ c, bodyCapacity := cap }) := by
      simp only [fill, if_neg hpos, if_neg hs, fillBody, htake, List.take_length,
        List.drop_length, if_pos hlt]
      exact ⟨_, rfl⟩
    refine ⟨_, hfill, ?_, ?_⟩
    · refine ⟨h.limits_eq, h.header_length, Nat.le_of_eq h.headerLen_eq, fun hlt => absurd hlt hlen,
        fun _ => ⟨h.expected_eq, h.expected_le, ?_, fun hsmall => absurd hsmall hs,
          fun hbig => h.slab_nil (.inl hbig)⟩⟩
      simp only [partialPayload, if_neg hs]
      exact hlt
    · rw [h.held_eq, hp, List.append_assoc]
      simp only [held, if_neg hlen, partialPayload, if_neg hs]

/-- Enough bytes: the envelope completes, the rest of the frame is handed back,
and nothing is held. -/
theorem fill_item (h : a.Filling limits) {c : Bytes}
    (hc : a.expected ≤ a.partialPayload.length + c.length) :
    ∃ a', a.fill c =
        (some ⟨a.header.headD 0, (a.partialPayload ++ c).take a.expected⟩,
          (a.partialPayload ++ c).drop a.expected, a') ∧
      a'.Valid limits ∧ a'.held = [] := by
  have hpos : 0 < HEADER_SIZE := by decide
  have hidle : ∀ (a' : EnvelopeAssembler),
      limitOf a'.maxMessageSize a'.grpcWebTrailerLimit = limits →
      a'.header.length = HEADER_SIZE → a'.headerLen = 0 → a'.slab.getD [] = [] → a'.body = [] →
      a'.Valid limits ∧ a'.held = [] := by
    intro a' hl hh h0 hslab hbody
    refine ⟨⟨hl, hh, by omega, fun _ => ⟨hslab, hbody⟩, fun h5 => by omega⟩, ?_⟩
    rw [held, h0, if_pos hpos, List.take_zero]
  by_cases h0 : a.expected = 0
  · have hsmall : a.expected ≤ READ_SLAB_SIZE / 2 := by omega
    refine ⟨{ a with headerLen := 0 }, ?_, hidle _ h.limits_eq h.header_length rfl
      (h.slab_nil (.inr h0)) (h.body_nil hsmall)⟩
    have hfill : a.fill c = (some ⟨a.header.headD 0, []⟩, c, { a with headerLen := 0 }) := by
      simp only [fill, if_pos h0]
    rw [hfill, h.partial_nil h0, h0]
    rfl
  · have hpart : a.partialPayload.length < a.expected := h.partial_lt.resolve_right h0
    by_cases hs : a.expected ≤ READ_SLAB_SIZE / 2
    · have hp : a.partialPayload = a.slab.getD [] := by rw [partialPayload, if_pos hs]
      rw [hp] at hc hpart
      have htake : min (a.expected - (a.slab.getD []).length) c.length =
          a.expected - (a.slab.getD []).length := by omega
      have hlen : (a.slab.getD [] ++ c.take (a.expected - (a.slab.getD []).length)).length =
          a.expected := by
        rw [List.length_append, List.length_take]
        omega
      refine ⟨{ a with slab := some [], headerLen := 0 }, ?_, hidle _ h.limits_eq
        h.header_length rfl rfl (h.body_nil hs)⟩
      simp only [fill, if_neg h0, if_pos hs, fillSlab, htake, if_pos hlen, hp]
      rw [List.take_of_length_le (Nat.le_of_eq hlen), List.drop_of_length_le (Nat.le_of_eq hlen), List.take_append,
        List.drop_append, List.take_of_length_le (Nat.le_of_lt hpart), List.drop_of_length_le (Nat.le_of_lt hpart),
        List.nil_append]
    · have hp : a.partialPayload = a.body := by rw [partialPayload, if_neg hs]
      rw [hp] at hc hpart
      have htake : min (a.expected - a.body.length) c.length = a.expected - a.body.length := by
        omega
      have hlen : ¬ (a.body ++ c.take (a.expected - a.body.length)).length < a.expected := by
        rw [List.length_append, List.length_take]
        omega
      refine ⟨{ a with body := [], bodyCapacity := 0, headerLen := 0 }, ?_, hidle _ h.limits_eq
        h.header_length rfl (h.slab_nil (.inl (Nat.lt_of_not_le hs))) rfl⟩
      simp only [fill, if_neg h0, if_neg hs, fillBody, htake, if_neg hlen, hp]
      rw [List.take_append, List.drop_append, List.take_of_length_le (Nat.le_of_lt hpart),
        List.drop_of_length_le (Nat.le_of_lt hpart), List.nil_append]

end Filling

/-- What one call does: with the header still incomplete the frame is kept; a
header over the limit fails; otherwise the call fills the payload, from what is
left of the frame. -/
theorem Valid.feed_cases {limits : LimitOf} {a : EnvelopeAssembler} (h : a.Valid limits)
    (c : Bytes) :
    ((a.held ++ c).length < HEADER_SIZE ∧
      ∃ a', a.feed c = .ok (none, [], a') ∧ a'.Valid limits ∧ a'.held = a.held ++ c) ∨
    (∃ header rest, a.held ++ c = header ++ rest ∧ header.length = HEADER_SIZE ∧
      fromBeBytes (header.drop 1) > (limits (header.headD 0)).2 ∧
      a.feed c = .error (sizeExceeded (limits (header.headD 0)).1 (fromBeBytes (header.drop 1))
        (limits (header.headD 0)).2)) ∨
    (∃ (a' : EnvelopeAssembler) (rest : Bytes), a'.Filling limits ∧
      a'.held ++ rest = a.held ++ c ∧ rest.length ≤ c.length ∧ a.feed c = .ok (a'.fill rest)) := by
  have hH := h.header_length
  by_cases hlt : a.headerLen < HEADER_SIZE
  · have hheld : a.held = a.header.take a.headerLen := by rw [held, if_pos hlt]
    have hheldlen : a.held.length = a.headerLen := by
      rw [hheld, List.length_take, hH]
      omega
    by_cases hshort : a.headerLen + c.length < HEADER_SIZE
    · -- the frame ends inside the header
      left
      have htake : min (HEADER_SIZE - a.headerLen) c.length = c.length := by omega
      refine ⟨by rw [List.length_append, hheldlen]; exact hshort, ?_⟩
      refine ⟨{ a with
        header := a.header.take a.headerLen ++ c ++ a.header.drop (a.headerLen + c.length)
        headerLen := a.headerLen + c.length }, ?_, ?_, ?_⟩
      · simp only [feed, if_pos hlt, htake, if_pos hshort, List.take_length]
      · refine ⟨h.limits_eq, ?_, Nat.le_of_lt hshort, fun _ => h.idle hlt, ?_⟩
        · simp only [List.length_append, List.length_take, List.length_drop, hH]
          omega
        · intro h5
          exact absurd h5 (Nat.ne_of_lt hshort)
      · rw [hheld]
        simp only [held, if_pos hshort]
        refine List.take_left' ?_
        rw [List.length_append, List.length_take, hH]
        omega
    · -- the header completes in this frame
      right
      have htake : min (HEADER_SIZE - a.headerLen) c.length = HEADER_SIZE - a.headerLen := by
        omega
      have hfull : a.headerLen + (HEADER_SIZE - a.headerLen) = HEADER_SIZE := by omega
      have hdrop : a.header.drop HEADER_SIZE = [] := List.drop_of_length_le (Nat.le_of_eq hH)
      generalize hheader : a.header.take a.headerLen ++ c.take (HEADER_SIZE - a.headerLen) = header
      generalize hrest : c.drop (HEADER_SIZE - a.headerLen) = rest
      have hsplit : a.held ++ c = header ++ rest := by
        rw [hheld, ← hheader, ← hrest, List.append_assoc, List.take_append_drop]
      have hlen : header.length = HEADER_SIZE := by
        rw [← hheader, List.length_append, List.length_take, List.length_take, hH]
        omega
      have hfeed : a.feed c =
          if fromBeBytes (header.drop 1) > (limits (header.headD 0)).2 then
            .error (sizeExceeded (limits (header.headD 0)).1 (fromBeBytes (header.drop 1))
              (limits (header.headD 0)).2)
          else .ok ({ a with
            header := header
            headerLen := HEADER_SIZE
            expected := fromBeBytes (header.drop 1) }.fill rest) := by
        simp only [feed, if_pos hlt, htake, hfull, if_neg (Nat.lt_irrefl HEADER_SIZE), hheader,
          hdrop, List.append_nil, hrest, h.limits_eq]
      by_cases hover : fromBeBytes (header.drop 1) > (limits (header.headD 0)).2
      · left
        exact ⟨header, rest, hsplit, hlen, hover, by rw [hfeed, if_pos hover]⟩
      · right
        obtain ⟨hslab, hbody⟩ := h.idle hlt
        rw [if_neg hover] at hfeed
        have hpart0 : ({ a with
            header := header
            headerLen := HEADER_SIZE
            expected := fromBeBytes (header.drop 1) } : EnvelopeAssembler).partialPayload = [] := by
          simp only [partialPayload, hslab, hbody, ite_self]
        refine ⟨{ a with
          header := header
          headerLen := HEADER_SIZE
          expected := fromBeBytes (header.drop 1) }, rest,
          ⟨h.limits_eq, hlen, rfl, rfl, Nat.le_of_not_lt hover, ?_, fun _ => hbody,
            fun _ => hslab⟩, ?_, ?_, hfeed⟩
        · rw [hpart0, List.length_nil]
          exact (Nat.eq_zero_or_pos _).symm
        · rw [held, if_neg (Nat.lt_irrefl _), hpart0, List.append_nil, ← hsplit]
        · rw [← hrest, List.length_drop]
          omega
  · -- the header was complete before
    right
    right
    have h5 : a.headerLen = HEADER_SIZE := Nat.le_antisymm h.headerLen_le (Nat.le_of_not_lt hlt)
    obtain ⟨he, hle, hpart, hb, hsl⟩ := h.busy h5
    refine ⟨a, c, ⟨h.limits_eq, hH, h5, he, hle, .inl hpart, hb, ?_⟩, rfl, Nat.le_refl _, ?_⟩
    · rintro (hbig | h0)
      · exact hsl hbig
      · omega
    · simp only [feed, if_neg hlt]

/-- **One call answers as the contiguous decoder.** -/
theorem feed_refines (limits : LimitOf) :
    Refines (decodeWith limits) feed (Valid limits) held where
  error := by
    intro a c e hv hp
    rcases hv.feed_cases c with ⟨hshort, -⟩ | ⟨header, rest, hsplit, hlen, hover, hfeed⟩ |
      ⟨a', rest, hf, hsplit, -, hfeed⟩
    · rw [decodeWith_short hshort] at hp
      cases hp
    · rw [hsplit, decodeWith_header hlen] at hp
      simp only [if_pos hover, Except.error.injEq] at hp
      rw [hfeed, hp]
    · rw [← hsplit, hf.held_eq, List.append_assoc, decodeWith_header hf.header_length] at hp
      simp only [← hf.expected_eq, if_neg (Nat.not_lt.mpr hf.expected_le)] at hp
      split at hp <;> cases hp
  need := by
    intro a c hv hp
    rcases hv.feed_cases c with ⟨-, hshort⟩ | ⟨header, rest, hsplit, hlen, hover, hfeed⟩ |
      ⟨a', rest, hf, hsplit, -, hfeed⟩
    · exact hshort
    · rw [hsplit, decodeWith_header hlen] at hp
      simp only [if_pos hover] at hp
      cases hp
    · rw [← hsplit, hf.held_eq, List.append_assoc, decodeWith_header hf.header_length] at hp
      simp only [← hf.expected_eq, if_neg (Nat.not_lt.mpr hf.expected_le)] at hp
      split at hp
      · rename_i hc
        rw [List.length_append] at hc
        obtain ⟨a'', hfill, hv'', hheld⟩ := hf.fill_need hc
        exact ⟨a'', by rw [hfeed, hfill], hv'', by rw [hheld, hsplit]⟩
      · cases hp
  item := by
    intro a c r e hv hp
    rcases hv.feed_cases c with ⟨hshort, -⟩ | ⟨header, rest, hsplit, hlen, hover, hfeed⟩ |
      ⟨a', rest, hf, hsplit, hrest, hfeed⟩
    · rw [decodeWith_short hshort] at hp
      cases hp
    · rw [hsplit, decodeWith_header hlen] at hp
      simp only [if_pos hover] at hp
      cases hp
    · rw [← hsplit, hf.held_eq, List.append_assoc, decodeWith_header hf.header_length] at hp
      simp only [← hf.expected_eq, if_neg (Nat.not_lt.mpr hf.expected_le)] at hp
      split at hp
      · cases hp
      · rename_i hc
        rw [List.length_append, Nat.not_lt] at hc
        obtain ⟨a'', hfill, hv'', hheld⟩ := hf.fill_item hc
        simp only [Except.ok.injEq, Option.some.injEq, Prod.mk.injEq] at hp
        obtain ⟨rfl, rfl⟩ := hp
        refine ⟨a'', by rw [hfeed, hfill], hv'', hheld, ?_⟩
        have hpart : a'.partialPayload.length ≤ a'.expected := by
          rcases hf.partial_lt with hlt | h0
          · exact Nat.le_of_lt hlt
          · rw [hf.partial_nil h0]
            exact Nat.zero_le _
        rw [List.length_drop, List.length_append]
        omega

end EnvelopeAssembler

/-- Feed frames one after another, each until the decoder asks for more. -/
def assembleFrames (a : EnvelopeAssembler) (frames : List Bytes) :
    List Envelope × Except ConnectError EnvelopeAssembler :=
  feedChunks EnvelopeAssembler.feed a frames

/-- Decode a whole sequence envelope by envelope: the envelopes, and the error
that stopped it or the bytes left over. -/
def decodeAll (maxSize : ℕ) (b : Bytes) : Parsed UInt8 Envelope ConnectError :=
  parse (decodeWithLimit maxSize) b

/-- The only failure of the contiguous decoder is a size over the limit. -/
theorem decodeWith_error {limits : LimitOf} {b : Bytes} {e : ConnectError}
    (h : decodeWith limits b = .error e) : e.code = .resourceExhausted := by
  simp only [decodeWith] at h
  split at h
  · cases h
  · split at h
    · cases h
      rfl
    · split at h <;> cases h

theorem parse_decodeWith_error {limits : LimitOf} {b : Bytes} {e : ConnectError}
    (he : (parse (decodeWith limits) b).stop = .error e) : e.code = .resourceExhausted := by
  obtain ⟨r, hr⟩ := (decodeWith_stable limits).parse_failed he
  exact decodeWith_error hr

/-- **Chunk invariance of the envelope decoder.** However a byte sequence is cut
into frames, the incremental decoder yields the envelopes of the contiguous one;
it fails where that one fails, with `ResourceExhausted`; and otherwise an envelope
is in progress after the last frame exactly when the contiguous decoder is left
with bytes, none of which complete an envelope. -/
theorem assembleFrames_eq_decodeAll (limit : ℕ) (frames : List Bytes) :
    (assembleFrames (.new limit) frames).1 = (decodeAll limit frames.flatten).items ∧
      match (decodeAll limit frames.flatten).stop with
      | .error e =>
        (assembleFrames (.new limit) frames).2 = .error e ∧ e.code = .resourceExhausted
      | .rest r =>
        decodeWithLimit limit r = .ok none ∧
          ∃ a, (assembleFrames (.new limit) frames).2 = .ok a ∧
            (a.hasPartial = true ↔ r ≠ []) := by
  have hrun := (EnvelopeAssembler.feed_refines (messageLimit limit)).feedChunks_agrees
    (decodeWith_stable _) frames (EnvelopeAssembler.new_valid limit)
    (decodeWith_short (by simp [HEADER_SIZE]))
  rw [EnvelopeAssembler.held_new, List.nil_append] at hrun
  obtain ⟨hitems, hstop⟩ := hrun
  refine ⟨hitems, ?_⟩
  simp only [decodeAll, decodeWithLimit, decodeContiguous_eq]
  rcases hs : (parse (decodeWith (messageLimit limit)) frames.flatten).stop with e | r
  · rw [hs] at hstop
    rcases hout : assembleFrames (.new limit) frames with ⟨items, e' | a⟩
    · rw [assembleFrames] at hout
      rw [hout] at hstop
      obtain rfl : e' = e := hstop
      exact ⟨rfl, parse_decodeWith_error hs⟩
    · rw [assembleFrames] at hout
      rw [hout] at hstop
      exact hstop.elim
  · rw [hs] at hstop
    rcases hout : assembleFrames (.new limit) frames with ⟨items, e' | a⟩
    · rw [assembleFrames] at hout
      rw [hout] at hstop
      exact hstop.elim
    · rw [assembleFrames] at hout
      rw [hout] at hstop
      obtain ⟨hv, rfl⟩ := hstop
      exact ⟨(decodeWith_stable _).parse_rest hs, a, rfl, hv.hasPartial_iff⟩

end ConnectRpc
