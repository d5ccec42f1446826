import ConnectRpc.Truncation

/-!
# Unary and streaming parsers of gRPC

A unary response of gRPC or gRPC-Web can be read by the unary parser or as a stream.
-/

namespace ConnectRpc

open Lib

variable (cr : Crates) {α : Type}

/-! ## Bodies -/

/-- A body of data and then HTTP trailers, if there are any. -/
def grpcBody (datas : List Bytes) (trailers : Option HeaderMap) : List BodyEvent :=
  datas.map .data ++ trailers.toList.map .trailers

theorem allData_grpcBody (datas : List Bytes) (trailers : Option HeaderMap) :
    allData (grpcBody datas trailers) = datas.flatten := by
  induction datas with
  | nil => cases trailers <;> rfl
  | cons d datas ih =>
    have hcons : grpcBody (d :: datas) trailers = .data d :: grpcBody datas trailers := rfl
    rw [hcons, allData, ih, List.flatten_cons]

theorem lastTrailers_grpcBody (datas : List Bytes) (trailers : Option HeaderMap) :
    lastTrailers .empty (grpcBody datas trailers) = trailers.getD .empty := by
  induction datas with
  | nil => cases trailers <;> rfl
  | cons d datas ih => exact ih

theorem isFrame_grpcBody (datas : List Bytes) (trailers : Option HeaderMap) :
    (grpcBody datas trailers).all BodyEvent.isFrame = true := by
  induction datas with
  | nil => cases trailers <;> rfl
  | cons d datas ih => exact ih

/-! ## What the unary parser reads -/

theorem decodeAny_ne_error {b : Bytes} {e : ConnectError} : decodeAny b ≠ .error e := by
  rw [decodeAny, decodeWith]
  by_cases hshort : b.length < HEADER_SIZE
  · rw [if_pos hshort]
    exact fun h => by cases h
  · have hle : ¬ fromBeBytes (b.drop 1) > (messageLimit u32Max (b.headD 0)).2 :=
      Nat.not_lt.mpr (fromBeBytes_le _)
    rw [if_neg hshort]
    simp only [if_neg hle]
    split <;> exact fun h => by cases h

/-- One round of the search for the end of a trailer frame. -/
theorem trailerFrameEndLoop_item {data r : Bytes} {e : Envelope}
    (h : decodeAny data = .ok (some (e, r))) (fuel offset : ℕ) :
    trailerFrameEndLoop (fuel + 1) offset data =
      if e.isGrpcWebTrailer then some (offset + e.wire.length)
      else trailerFrameEndLoop fuel (offset + e.wire.length) r := by
  have hwire := decodeWith_eq_wire h
  have hlen := length_of_decodeWith h
  have hsize : HEADER_SIZE + fromBeBytes (data.drop 1) = e.wire.length := by
    rw [hwire, Envelope.wire]
    simp only [List.cons_append, List.drop_succ_cons, List.drop_zero, List.append_assoc]
    rw [fromBeBytes_toBeBytes hlen]
    simp only [List.length_cons, List.length_append, length_toBeBytes, HEADER_SIZE]
    omega
  have hflag : (data.headD 0 &&& flags.GRPC_WEB_TRAILER != 0) = e.isGrpcWebTrailer := by
    rw [hwire]
    rfl
  have hlong : e.wire.length ≤ data.length := by
    rw [hwire, List.length_append]
    omega
  have hshort : ¬ data.length < HEADER_SIZE := by
    omega
  rw [trailerFrameEndLoop, if_neg hshort]
  simp only [hsize, if_neg (Nat.not_lt.mpr hlong), hflag]
  rw [hwire, List.drop_left]

/-- The search at an offset is the search from the start. -/
theorem trailerFrameEndLoop_eq (n : ℕ) : ∀ (fuel offset : ℕ) (data : Bytes), data.length ≤ n →
    data.length < fuel →
      trailerFrameEndLoop fuel offset data = (grpcWebTrailerFrameEnd data).map (offset + ·) := by
  induction n with
  | zero =>
    intro fuel offset data hn hfuel
    obtain rfl : data = [] := List.eq_nil_of_length_eq_zero (Nat.le_zero.mp hn)
    cases fuel with
    | zero => cases hfuel
    | succ fuel => rfl
  | succ n ih =>
    intro fuel offset data hn hfuel
    cases fuel with
    | zero => cases hfuel
    | succ fuel =>
      rcases hd : decodeAny data with err | _ | ⟨e, r⟩
      · exact absurd hd decodeAny_ne_error
      · have hnone : hasTrailerFrame data = false := by
          have hparse : parse decodeAny data = _ := parse_none hd
          rw [hasTrailerFrame, hparse]
          rfl
        have h1 := trailerFrameEndLoop_isSome (fuel + 1) offset data hfuel
        have h2 := grpcWebTrailerFrameEnd_isSome data
        rw [hnone, Option.isSome_eq_false_iff, Option.isNone_iff_eq_none] at h1 h2
        rw [h1, h2]
        rfl
      · have hshort := (decodeWith_stable (messageLimit u32Max)).shorter hd
        rw [grpcWebTrailerFrameEnd, trailerFrameEndLoop_item hd, trailerFrameEndLoop_item hd]
        by_cases hf : e.isGrpcWebTrailer = true
        · rw [if_pos hf, if_pos hf, Option.map_some, Nat.zero_add]
        · rw [if_neg hf, if_neg hf, ih _ _ r (by omega) (by omega),
            ih data.length _ r (by omega) hshort, Option.map_map]
          congr 1
          funext k
          simp only [Function.comp_apply, Nat.zero_add, Nat.add_assoc]

/-- The end of the first trailer frame, envelope by envelope. -/
theorem grpcWebTrailerFrameEnd_item {data r : Bytes} {e : Envelope}
    (h : decodeAny data = .ok (some (e, r))) :
    grpcWebTrailerFrameEnd data =
      if e.isGrpcWebTrailer then some e.wire.length
      else (grpcWebTrailerFrameEnd r).map (e.wire.length + ·) := by
  have hshort := (decodeWith_stable (messageLimit u32Max)).shorter h
  rw [grpcWebTrailerFrameEnd, trailerFrameEndLoop_item h, Nat.zero_add,
    trailerFrameEndLoop_eq r.length _ _ r (Nat.le_refl _) hshort]

theorem grpcWebTrailerFrameEnd_none {data : Bytes} (h : decodeAny data = .ok none) :
    grpcWebTrailerFrameEnd data = none := by
  have hparse : parse decodeAny data = _ := parse_none h
  rw [← Option.not_isSome_iff_eq_none, grpcWebTrailerFrameEnd_isSome, hasTrailerFrame, hparse]
  exact Bool.false_ne_true

/-- The end of a trailer frame stays where it is when more data comes. -/
theorem grpcWebTrailerFrameEnd_append (n : ℕ) : ∀ {b : Bytes} {k : ℕ}, b.length ≤ n →
    grpcWebTrailerFrameEnd b = some k → ∀ c, grpcWebTrailerFrameEnd (b ++ c) = some k ∧
      k ≤ b.length := by
  have hstable := decodeWith_stable (messageLimit u32Max)
  induction n with
  | zero =>
    intro b k hn h
    obtain rfl : b = [] := List.eq_nil_of_length_eq_zero (Nat.le_zero.mp hn)
    cases h
  | succ n ih =>
    intro b k hn h c
    rcases hd : decodeAny b with err | _ | ⟨e, r⟩
    · exact absurd hd decodeAny_ne_error
    · rw [grpcWebTrailerFrameEnd_none hd] at h
      cases h
    · have hshort := hstable.shorter hd
      have hlength : b.length = e.wire.length + r.length := by
        rw [decodeWith_eq_wire hd, List.length_append]
      have happend : decodeAny (b ++ c) = .ok (some (e, r ++ c)) := hstable.item_append c hd
      rw [grpcWebTrailerFrameEnd_item hd] at h
      rw [grpcWebTrailerFrameEnd_item happend]
      by_cases hf : e.isGrpcWebTrailer = true
      · rw [if_pos hf] at h ⊢
        obtain rfl := Option.some.inj h
        exact ⟨rfl, by omega⟩
      · rw [if_neg hf] at h ⊢
        obtain ⟨k', hk', rfl⟩ := Option.map_eq_some_iff.mp h
        obtain ⟨hsame, hle⟩ := ih (by omega) hk' c
        rw [hsame]
        exact ⟨rfl, by omega⟩

/-- What the unary parser keeps of data and HTTP trailers: up to the end of the first
trailer frame, after which nothing is read; or everything. -/
def unaryRead (protocol : Protocol) (b : Bytes) (trailers : Option HeaderMap) : UnaryBody :=
  match (if protocol = .grpcWeb then grpcWebTrailerFrameEnd b else none) with
  | some trailerEnd => ⟨b.take trailerEnd, .empty, true⟩
  | none => ⟨b, trailers.getD .empty, !b.isEmpty⟩

/-- Reading stops at the end of a trailer frame, however the data is cut. -/
theorem readUnaryBody_frame {maxBufSize k : ℕ} {late : Bool} (tail : List BodyEvent) :
    ∀ (datas : List Bytes) (acc : UnaryBody),
      (acc.buf ++ datas.flatten).length ≤ maxBufSize → grpcWebTrailerFrameEnd acc.buf = none →
      grpcWebTrailerFrameEnd (acc.buf ++ datas.flatten) = some k →
      readUnaryBody .grpcWeb maxBufSize true late acc (datas.map .data ++ tail) =
        .ok ⟨(acc.buf ++ datas.flatten).take k, acc.trailers, true⟩ := by
  intro datas
  induction datas with
  | nil =>
    intro acc _ hno hk
    rw [List.flatten_nil, List.append_nil, hno] at hk
    cases hk
  | cons d datas ih =>
    intro acc hfit hno hk
    rw [List.flatten_cons, ← List.append_assoc] at hfit hk ⊢
    have hall : min d.length (maxBufSize - acc.buf.length) = d.length := by
      rw [List.length_append, List.length_append] at hfit
      omega
    rw [List.map_cons, List.cons_append, readUnaryBody]
    simp only [hall, List.take_length, if_true, Nat.lt_irrefl, if_false]
    rcases hend : grpcWebTrailerFrameEnd (acc.buf ++ d) with _ | k'
    · simp only
      exact ih ⟨acc.buf ++ d, acc.trailers, acc.hasBodyData || !d.isEmpty⟩ hfit hend hk
    · obtain ⟨hsame, hle⟩ := grpcWebTrailerFrameEnd_append _ (Nat.le_refl _) hend datas.flatten
      rw [hk] at hsame
      obtain rfl := Option.some.inj hsame
      have hdata : d.isEmpty = false := by
        rcases d with _ | ⟨x, d⟩
        · rw [List.append_nil, hno] at hend
          cases hend
        · rfl
      simp only [List.take_append_of_le_length hle, hdata, Bool.not_false, Bool.or_true]

/-- **What the unary parser reads of a body**: it does not depend on how the data is
cut. -/
theorem readUnaryBody_eq (protocol : Protocol) {maxBufSize : ℕ} (late : Bool) {datas : List Bytes}
    (trailers : Option HeaderMap) (hfit : datas.flatten.length ≤ maxBufSize) :
    readUnaryBody protocol maxBufSize true late ⟨[], .empty, false⟩ (grpcBody datas trailers) =
      .ok (unaryRead protocol datas.flatten trailers) := by
  have hwhole : ∀ h : protocol = .grpcWeb → hasTrailerFrame datas.flatten = false,
      readUnaryBody protocol maxBufSize true late ⟨[], .empty, false⟩ (grpcBody datas trailers) =
        .ok ⟨datas.flatten, trailers.getD .empty, !datas.flatten.isEmpty⟩ := by
    intro h
    have hdata := allData_grpcBody datas trailers
    refine (readUnaryBody_iff _ ⟨[], .empty, false⟩ (Nat.zero_le _) ?_).mpr
      ⟨isFrame_grpcBody datas trailers, ?_, ?_⟩
    · intro hp
      rw [hdata]
      exact h hp
    · rw [hdata]
      exact hfit
    · simp only [hdata, lastTrailers_grpcBody, List.nil_append, Bool.false_or]
  rw [unaryRead]
  by_cases hp : protocol = .grpcWeb
  · rw [if_pos hp]
    rcases hend : grpcWebTrailerFrameEnd datas.flatten with _ | k
    · refine hwhole fun _ => ?_
      rw [← grpcWebTrailerFrameEnd_isSome, hend]
      rfl
    · rw [hp]
      exact readUnaryBody_frame _ datas ⟨[], .empty, false⟩ hfit rfl hend
  · rw [if_neg hp]
    exact hwhole fun h => absurd h hp

/-- A message in front is kept, and the rest is read as by itself. -/
theorem unaryRead_item (protocol : Protocol) {b r : Bytes} {e : Envelope}
    (trailers : Option HeaderMap) (h : decodeAny b = .ok (some (e, r)))
    (hmessage : e.isGrpcWebTrailer = false) :
    unaryRead protocol b trailers = ⟨e.wire ++ (unaryRead protocol r trailers).buf,
      (unaryRead protocol r trailers).trailers, true⟩ := by
  have hwire := decodeWith_eq_wire h
  have hne : (!b.isEmpty) = true := by
    rw [hwire]
    rfl
  rw [unaryRead, unaryRead]
  by_cases hp : protocol = .grpcWeb
  · rw [if_pos hp, if_pos hp, grpcWebTrailerFrameEnd_item h, hmessage, if_neg Bool.false_ne_true]
    rcases grpcWebTrailerFrameEnd r with _ | k
    · simp only [Option.map_none, hne]
      rw [hwire]
    · simp only [Option.map_some, hwire, List.take_length_add_append]
  · rw [if_neg hp, if_neg hp]
    simp only [hne]
    rw [hwire]

/-- What is read is the front of the data. -/
theorem unaryRead_prefix (protocol : Protocol) (b : Bytes) (trailers : Option HeaderMap) :
    ∃ rest, b = (unaryRead protocol b trailers).buf ++ rest := by
  rw [unaryRead]
  split
  · exact ⟨_, (List.take_append_drop _ b).symm⟩
  · exact ⟨[], (List.append_nil b).symm⟩

/-! ## Responses -/

/-- A response with HTTP status 200. -/
def grpcReply (headers : HeaderMap) (datas : List Bytes) (trailers : Option HeaderMap) :
    Response (List BodyEvent) :=
  ⟨.ok, headers, grpcBody datas trailers⟩

/-- The responses at issue: the content type is accepted, the data fits the buffer of
the unary parser, and every envelope is a message, compressed or not, or a trailer
frame of gRPC-Web. -/
structure InScope (c : CallConfig α) (headers : HeaderMap) (b : Bytes) : Prop where
  /-- gRPC or gRPC-Web -/
  family : c.protocol ≠ .connect
  /-- the content type -/
  accepted : validateGrpcResponseContentType headers c.protocol c.codecFormat = .ok ()
  /-- the size -/
  fits : b.length ≤ maxUnaryBuffer c
  /-- the flags -/
  flags : ∀ e ∈ (parse decodeAny b).items, e.flags = flags.DATA ∨ e.flags = flags.COMPRESSED ∨
    (c.protocol = .grpcWeb ∧ e.isGrpcWebTrailer = true)

section

variable {c : CallConfig α} {headers : HeaderMap} {b r : Bytes} {e : Envelope}

/-- The rest of such data is such data. -/
theorem InScope.rest (h : InScope c headers b) (hd : decodeAny b = .ok (some (e, r))) :
    InScope c headers r := by
  have hstable := decodeWith_stable (messageLimit u32Max)
  have hparse : parse decodeAny b = _ := hstable.parse_item hd
  have hshort := hstable.shorter hd
  refine ⟨h.family, h.accepted, ?_, ?_⟩
  · have := h.fits
    omega
  · intro e' he'
    refine h.flags e' ?_
    rw [hparse, Parsed.items_prepend]
    exact List.mem_append_right _ he'

/-- An envelope that is not a trailer frame is a message. -/
theorem InScope.message (h : InScope c headers b) (hd : decodeAny b = .ok (some (e, r)))
    (hframe : (c.setup headers false).isTrailerFrame e = false) :
    e.isGrpcWebTrailer = false ∧ e.isEndStream = false := by
  have hparse : parse decodeAny b = _ := (decodeWith_stable (messageLimit u32Max)).parse_item hd
  have hmem : e ∈ (parse decodeAny b).items := by
    rw [hparse, Parsed.items_prepend]
    exact List.mem_append_left _ List.mem_cons_self
  rcases h.flags e hmem with hf | hf | ⟨hp, hf⟩
  · rw [Envelope.isGrpcWebTrailer, Envelope.isEndStream, hf]
    exact ⟨rfl, rfl⟩
  · rw [Envelope.isGrpcWebTrailer, Envelope.isEndStream, hf]
    exact ⟨rfl, rfl⟩
  · rw [StreamSetup.isTrailerFrame, hf] at hframe
    have hprotocol : (c.setup headers false).protocol = .grpcWeb := hp
    rw [hprotocol] at hframe
    cases hframe

/-- The limit on an envelope that is not a trailer frame. -/
theorem limits_setup (hp : c.protocol ≠ .connect) (hmessage : e.isGrpcWebTrailer = false) :
    ((c.setup headers false).limits e.flags).2 = c.messageLimit := by
  have hbit : (e.flags &&& flags.GRPC_WEB_TRAILER != 0) = false := hmessage
  rw [StreamSetup.limits]
  have hprotocol : (c.setup headers false).protocol = c.protocol := rfl
  rw [hprotocol]
  cases hc : c.protocol with
  | connect => exact absurd hc hp
  | grpc => rfl
  | grpcWeb =>
    simp only [EnvelopeAssembler.limitOf, hbit, Bool.false_eq_true, if_false]
    rfl

/-- Both decoders cut the same messages off. -/
theorem decodeWith_setup_iff (hp : c.protocol ≠ .connect) (hmessage : e.isGrpcWebTrailer = false) :
    decodeWith (c.setup headers false).limits b = .ok (some (e, r)) ↔
      decodeWithLimit c.messageLimit b = .ok (some (e, r)) := by
  constructor
  · intro h
    obtain ⟨-, -, -, -, -, hle⟩ := decodeWith_item h
    rw [limits_setup hp hmessage] at hle
    rw [decodeWith_eq_wire h]
    exact @decodeWith_wire (messageLimit c.messageLimit) e r (length_of_decodeWith h) hle
  · intro h
    rw [decodeWithLimit, decodeContiguous_eq] at h
    obtain ⟨-, -, -, -, -, hle⟩ := decodeWith_item h
    rw [decodeWith_eq_wire h]
    refine decodeWith_wire r (length_of_decodeWith h) ?_
    rw [limits_setup hp hmessage]
    exact hle

theorem decodeAny_of_item {limitOf : LimitOf} (h : decodeWith limitOf b = .ok (some (e, r))) :
    decodeAny b = .ok (some (e, r)) := by
  rw [decodeWith_eq_wire h]
  exact decodeAny_wire (length_of_decodeWith h) r

end

/-! ## Where a response ends -/

/-- The data is one message `m`, from the envelope `e` with the payload `d`, and the
rest `r`. -/
structure OneMessage (c : CallConfig α) (headers : HeaderMap) (b : Bytes) (e : Envelope)
    (r d : Bytes) (m : α) : Prop where
  /-- the envelope -/
  envelope : decodeWithLimit c.messageLimit b = .ok (some (e, r))
  /-- it is a message -/
  message : e.isGrpcWebTrailer = false
  /-- its payload -/
  payload : (c.setup headers false).decompressEnvelope e = .ok d
  /-- the message -/
  decode : c.decode d = .ok m

/-- A trailer frame that can be read is in front. -/
def FrameAt (c : CallConfig α) (headers : HeaderMap) (r : Bytes) (th : HeaderMap) : Prop :=
  ∃ f rest, decodeWith (c.setup headers false).limits r = .ok (some (f, rest)) ∧
    (c.setup headers false).isTrailerFrame f = true ∧
    (c.setup headers false).frameTrailers cr f = some th

/-- To the unary parser, data is over or cut short. -/
def UnaryRest (c : CallConfig α) (r : Bytes) : Prop :=
  r = [] ∨ CutShort c r

/-- To the stream, data is over or cut short. -/
def StreamRest (c : CallConfig α) (headers : HeaderMap) (r : Bytes) : Prop :=
  decodeWith (c.setup headers false).limits r = .ok none

/-- The unary parser comes to the trailers `th`: in a frame, or over HTTP. -/
def UnaryTrailers (c : CallConfig α) (headers : HeaderMap) (trailers : Option HeaderMap) (r : Bytes)
    (th : HeaderMap) : Prop :=
  FrameAt cr c headers r th ∨ (trailers = some th ∧ UnaryRest c r)

/-- The stream comes to the trailers `th`. -/
def StreamTrailers (c : CallConfig α) (headers : HeaderMap) (trailers : Option HeaderMap) (r : Bytes)
    (th : HeaderMap) : Prop :=
  FrameAt cr c headers r th ∨ (trailers = some th ∧ StreamRest c headers r)

section

variable {c : CallConfig α} {headers : HeaderMap} {r : Bytes} {trailers : Option HeaderMap}
  {th : HeaderMap}

/-- The encoding of a stream of the gRPC family. -/
theorem setup_encoding (hp : c.protocol ≠ .connect) :
    (c.setup headers false).encoding = grpcEncodingOf headers := by
  have hheader : c.protocol.contentEncodingHeader = hdr.grpcEncoding := by
    cases h : c.protocol with
    | connect => exact absurd h hp
    | grpc => rfl
    | grpcWeb => rfl
  rw [CallConfig.setup, grpcEncodingOf, hheader]

/-- An envelope on the wire is its header and its data. -/
theorem Envelope.length_wire (e : Envelope) : e.wire.length = HEADER_SIZE + e.data.length := by
  rw [wire, List.length_append, List.length_cons, length_toBeBytes]
  rfl

/-- A complete trailer frame as the unary parser reads it. -/
theorem parseGrpcWebTrailerFrame_wire {f : Envelope} (hsize : f.data.length ≤ u32Max)
    (hflag : f.isGrpcWebTrailer = true) (decompression : Option (CompressionRegistry × String)) :
    parseGrpcWebTrailerFrame cr f.wire decompression =
      if f.data.length > MAX_GRPC_WEB_TRAILER_SIZE then none
      else parseGrpcWebTrailerPayload cr f.isCompressed f.data decompression := by
  have hlen : fromBeBytes (f.wire.drop 1) = f.data.length := by
    rw [Envelope.wire, List.cons_append, List.drop_succ_cons, List.drop_zero]
    exact fromBeBytes_toBeBytes hsize f.data
  have hwire : f.wire.length = f.data.length + 5 := by
    rw [f.length_wire, Nat.add_comm]
    rfl
  have hhead : f.wire.headD 0 = f.flags := rfl
  have hbit : (f.flags &&& flags.GRPC_WEB_TRAILER == 0) = false := by
    have hne : (f.flags &&& flags.GRPC_WEB_TRAILER != 0) = true := hflag
    simpa [bne] using hne
  have hpayload : (f.wire.drop 5).take f.data.length = f.data := by
    have hdrop : f.wire.drop 5 = f.data := rfl
    rw [hdrop, List.take_length]
  rw [parseGrpcWebTrailerFrame]
  simp only [hhead, hbit, hlen, hwire, hpayload]
  have hshort : (decide (f.data.length + 5 < 5) || false) = false := by simp
  rw [hshort, if_neg Bool.false_ne_true]
  by_cases hlong : f.data.length > MAX_GRPC_WEB_TRAILER_SIZE
  · simp [hlong]
  · simp only [hlong, Nat.lt_irrefl, decide_false, Bool.or_self, Bool.false_eq_true, if_false]
    rfl

/-- The limit on a trailer frame of a stream. -/
theorem limits_trailerFrame {f : Envelope}
    (hframe : (c.setup headers false).isTrailerFrame f = true) :
    ((c.setup headers false).limits f.flags).2 = MAX_GRPC_WEB_TRAILER_SIZE := by
  rw [StreamSetup.isTrailerFrame, Bool.and_eq_true] at hframe
  obtain ⟨hp, hbit⟩ := hframe
  have hprotocol : (c.setup headers false).protocol = .grpcWeb := by simpa using hp
  have hflag : (f.flags &&& flags.GRPC_WEB_TRAILER != 0) = true := hbit
  rw [StreamSetup.limits, hprotocol]
  simp only [EnvelopeAssembler.limitOf, hflag, if_true]

/-- **Trailers after the message.** The unary parser goes on from there with the
trailers of a frame in front, or with the HTTP trailers if the data is over or cut
short; of trailers that have a status, that is. -/
theorem afterMessage_iff (hp : c.protocol ≠ .connect) (hstatus : th.contains hdr.grpcStatus = true) :
    AfterMessage cr c (grpcEncodingOf headers) (unaryRead c.protocol r trailers).trailers
        (unaryRead c.protocol r trailers).buf th ↔
      UnaryTrailers cr c headers trailers r th := by
  have hempty : HeaderMap.empty.contains hdr.grpcStatus = false := rfl
  by_cases hend : c.protocol = .grpcWeb ∧ ∃ k, grpcWebTrailerFrameEnd r = some k
  · -- there is a complete trailer frame, in front or later
    obtain ⟨hweb, k, hk⟩ := hend
    have hread : unaryRead c.protocol r trailers = ⟨r.take k, .empty, true⟩ := by
      rw [unaryRead, if_pos hweb, hk]
    have hnotCut : ¬ UnaryRest c r := by
      rintro (rfl | hcut)
      · cases hk
      · rw [grpcWebTrailerFrameEnd_none hcut.incomplete] at hk
        cases hk
    rw [hread]
    rcases hd : decodeAny r with err | _ | ⟨f, rest⟩
    · exact absurd hd decodeAny_ne_error
    · rw [grpcWebTrailerFrameEnd_none hd] at hk
      cases hk
    · have hwire := decodeWith_eq_wire hd
      have hsize := length_of_decodeWith hd
      rw [grpcWebTrailerFrameEnd_item hd] at hk
      by_cases hf : f.isGrpcWebTrailer = true
      · -- in front
        rw [if_pos hf] at hk
        obtain rfl := Option.some.inj hk
        have htake : r.take f.wire.length = f.wire := by
          rw [hwire, List.take_left]
        have hflagged : trailerFlagged f.wire = true := hf
        have hframe : (c.setup headers false).isTrailerFrame f = true := by
          have hprotocol : (c.setup headers false).protocol = .grpcWeb := hweb
          rw [StreamSetup.isTrailerFrame, hprotocol, hf]
          rfl
        have htrailers : parseGrpcWebTrailerPayload cr f.isCompressed f.data
            ((grpcEncodingOf headers).map fun encoding => (c.compression, encoding)) =
              (c.setup headers false).frameTrailers cr f := by
          rw [StreamSetup.frameTrailers, setup_encoding hp]
          rfl
        rw [htake]
        constructor
        · rintro (⟨h, -⟩ | ⟨-, -, -, hth⟩ | ⟨-, h, -⟩)
          · cases h
          · rw [parseGrpcWebTrailerFrame_wire cr hsize hf, htrailers] at hth
            by_cases hlong : f.data.length > MAX_GRPC_WEB_TRAILER_SIZE
            · rw [if_pos hlong, Option.getD_none] at hth
              rw [hth, hempty] at hstatus
              cases hstatus
            · rw [if_neg hlong] at hth
              rcases hft : (c.setup headers false).frameTrailers cr f with _ | t
              · rw [hft, Option.getD_none] at hth
                rw [hth, hempty] at hstatus
                cases hstatus
              · rw [hft, Option.getD_some] at hth
                refine .inl ⟨f, rest, ?_, hframe, hth ▸ hft⟩
                rw [hwire]
                refine decodeWith_wire rest hsize ?_
                rw [limits_trailerFrame hframe]
                exact Nat.le_of_not_lt hlong
          · rw [hflagged] at h
            cases h
        · rintro (⟨f', rest', hd', hframe', hft⟩ | ⟨-, hcut⟩)
          · have hsame := (decodeAny_of_item hd').symm.trans hd
            cases hsame
            obtain ⟨-, -, -, -, -, hle⟩ := decodeWith_item hd'
            rw [limits_trailerFrame hframe] at hle
            refine .inr (.inl ⟨by simp [Envelope.wire], hflagged, hweb, ?_⟩)
            rw [parseGrpcWebTrailerFrame_wire cr hsize hf, if_neg (Nat.not_lt.mpr hle), htrailers, hft]
            rfl
          · exact absurd hcut hnotCut
      · -- behind another message
        have hf' : f.isGrpcWebTrailer = false := by simpa using hf
        rw [if_neg hf] at hk
        obtain ⟨k', -, rfl⟩ := Option.map_eq_some_iff.mp hk
        have htake : r.take (f.wire.length + k') = f.wire ++ rest.take k' := by
          rw [hwire, List.take_length_add_append]
        rw [htake]
        constructor
        · rintro (⟨h, -⟩ | ⟨-, h, -⟩ | ⟨-, -, h, -⟩)
          · cases h
          · have hplain : trailerFlagged (f.wire ++ rest.take k') = f.isGrpcWebTrailer := rfl
            rw [hplain, hf'] at h
            cases h
          · rw [decodeWithLimit, decodeContiguous_eq] at h
            have hany := decodeAny_of_none h
            rw [decodeAny_wire hsize] at hany
            cases hany
        · rintro (⟨f', rest', hd', hframe', -⟩ | ⟨-, hcut⟩)
          · have hsame := (decodeAny_of_item hd').symm.trans hd
            cases hsame
            rw [StreamSetup.isTrailerFrame, hf', Bool.and_false] at hframe'
            cases hframe'
          · exact absurd hcut hnotCut
  · -- no trailer frame is complete
    have hread : unaryRead c.protocol r trailers = ⟨r, trailers.getD .empty, !r.isEmpty⟩ := by
      rw [unaryRead]
      by_cases hweb : c.protocol = .grpcWeb
      · rcases hk : grpcWebTrailerFrameEnd r with _ | k
        · rw [if_pos hweb]
        · exact absurd ⟨hweb, k, hk⟩ hend
      · rw [if_neg hweb]
    have hno : c.protocol = .grpcWeb → hasTrailerFrame r = false := by
      intro hweb
      rw [← grpcWebTrailerFrameEnd_isSome]
      rcases hk : grpcWebTrailerFrameEnd r with _ | k
      · rfl
      · exact absurd ⟨hweb, k, hk⟩ hend
    rw [hread]
    constructor
    · intro h
      obtain ⟨hth, hrest⟩ := h.cut cr hno
      rcases trailers with _ | t
      · rw [Option.getD_none] at hth
        rw [hth, hempty] at hstatus
        cases hstatus
      · exact .inr ⟨congrArg some hth.symm, hrest⟩
    · rintro (⟨f, rest, hd, hframe, -⟩ | ⟨rfl, hrest⟩)
      · exfalso
        have hany := decodeAny_of_item hd
        rw [StreamSetup.isTrailerFrame, Bool.and_eq_true] at hframe
        have hweb : (c.setup headers false).protocol = .grpcWeb := by simpa using hframe.1
        refine hend ⟨hweb, f.wire.length, ?_⟩
        rw [grpcWebTrailerFrameEnd_item hany, if_pos hframe.2]
      · rcases hrest with rfl | hcut
        · exact .inl ⟨rfl, rfl⟩
        · exact hcut.afterMessage cr

end

/-! ## The message -/

/-- Flagged compressed under the encoding `identity`: the one envelope that only a
stream takes for a message. -/
def IdentityCompressed (headers : HeaderMap) (e : Envelope) : Prop :=
  e.isCompressed = true ∧ grpcEncodingOf headers = some "identity"

/-- The payload of a message, to the unary parser. -/
theorem unaryEnvelopeData_iff {c : CallConfig α} {headers : HeaderMap} {e : Envelope} {d : Bytes}
    (hp : c.protocol ≠ .connect) :
    unaryEnvelopeData c (grpcEncodingOf headers) e = .ok d ↔
      (c.setup headers false).decompressEnvelope e = .ok d ∧ ¬ IdentityCompressed headers e := by
  rw [StreamSetup.decompressEnvelope, setup_encoding hp, IdentityCompressed]
  unfold unaryEnvelopeData
  by_cases hcompressed : e.isCompressed = true
  · rw [if_pos hcompressed, if_pos hcompressed]
    rcases grpcEncodingOf headers with _ | encoding
    · simp
    · by_cases hid : encoding = "identity"
      · simp [hid, hcompressed]
      · simp only [Option.some.injEq, hid, and_false, not_false_eq_true, and_true]
        exact Iff.rfl
  · rw [if_neg hcompressed, if_neg hcompressed]
    simp [hcompressed]

section

variable {c : CallConfig α} {headers : HeaderMap} {datas : List Bytes} {trailers : Option HeaderMap}

/-- The head of a response with HTTP status 200 and such a content type. -/
theorem InScope.head {b : Bytes} (h : InScope c headers b) :
    checkGrpcResponseHead .ok headers c.protocol c.codecFormat = .ok () := by
  have hsuccess : StatusCode.ok.isSuccess = true := rfl
  rw [checkGrpcResponseHead]
  simp only [hsuccess, Bool.not_true, Bool.false_and, Bool.false_eq_true, if_false]
  exact h.accepted

/-! ## Success of the unary parser -/

/-- Decoding after a message, or with none before, comes to the trailers. -/
theorem AfterMessage.decode {response : Response (List BodyEvent)} {encoding : Option String}
    {fuel : ℕ} {message : Option Bytes} {ts th : HeaderMap} {buf : Bytes}
    (h : AfterMessage cr c encoding ts buf th) :
    decodeUnaryBody cr c response encoding (fuel + 1) message ts buf = .ok (message, th) := by
  rw [decodeUnaryBody]
  rcases h with ⟨hnil, rfl⟩ | ⟨hne, hflag, hp, rfl⟩ | ⟨hne, hflag, hnone, rfl⟩
  · rw [if_pos hnil]
  · rw [if_neg hne, if_pos hflag, if_neg (not_not_intro hp)]
  · rw [if_neg hne, hflag, if_neg Bool.false_ne_true, hnone]

/-- What the unary parser answers when it succeeds: one message with the encoding known and
the payload within the limit, and the trailers with a status of 0 after it. -/
theorem parseGrpcUnaryResponse_reply_iff (late : Bool) (h : InScope c headers datas.flatten) (m : α)
    (th : HeaderMap) :
    (∃ u, parseGrpcUnaryResponse cr c (grpcReply headers datas trailers) late = .ok u ∧
        u.body = m ∧ u.trailers = th) ↔
      unsupportedEncoding c headers = none ∧
        ∃ e r d, OneMessage c headers datas.flatten e r d m ∧ ¬ IdentityCompressed headers e ∧
          c.maxMessageSize.any (fun limit => limit < d.length) = false ∧
            UnaryTrailers cr c headers trailers r th ∧ StatusOk th := by
  have hread := readUnaryBody_eq c.protocol late trailers h.fits
  constructor
  · rintro ⟨u, hu, rfl, rfl⟩
    obtain ⟨-, hencoding, b, message, th, hb, hd, hf⟩ := (parseGrpcUnaryResponse_ok_iff cr).mp hu
    obtain rfl := Except.ok.inj (hread.symm.trans hb)
    obtain ⟨-, hstatus, d, m, rfl, hsize, hm, rfl⟩ := (finishUnary_iff cr).mp hf
    obtain ⟨e, r', hdec, hnot, hdata, hafter⟩ := (decodeUnaryBody_none_iff cr).mp hd
    refine ⟨hencoding, ?_⟩
    -- what is read is the front of the data, so the data starts with the same envelope
    obtain ⟨rest, hrest⟩ := unaryRead_prefix c.protocol datas.flatten trailers
    rw [decodeWithLimit, decodeContiguous_eq] at hdec
    have hmore := (decodeWith_stable (messageLimit c.messageLimit)).item_append rest hdec
    rw [← hrest] at hmore
    generalize hr : r' ++ rest = r at hmore
    have hitem := unaryRead_item c.protocol trailers
      (decodeAny_of_item hmore) hnot
    obtain ⟨hpayload, hid⟩ := (unaryEnvelopeData_iff h.family).mp hdata
    have hr' : r' = (unaryRead c.protocol r trailers).buf := by
      have hwire := decodeWith_eq_wire hdec
      rw [hitem] at hwire
      exact (List.append_cancel_left hwire).symm
    rw [hitem] at hafter hstatus
    simp only [Bool.not_true, Bool.and_false, Bool.false_eq_true, if_false] at hstatus
    rw [hr'] at hafter
    refine ⟨e, r, d, ⟨?_, hnot, hpayload, hm⟩, hid, hsize, ?_, hstatus⟩
    · rw [decodeWithLimit, decodeContiguous_eq]
      exact hmore
    · exact (afterMessage_iff cr h.family (contains_of_statusOk hstatus)).mp hafter
  · rintro ⟨hencoding, e, r, d, hone, hid, hsize, htrailers, hstatus⟩
    have hdec := hone.envelope
    rw [decodeWithLimit, decodeContiguous_eq] at hdec
    have hitem := unaryRead_item c.protocol trailers
      (decodeAny_of_item hdec) hone.message
    rw [hitem] at hread
    have hafter := (afterMessage_iff cr h.family (contains_of_statusOk hstatus)).mpr htrailers
    refine ⟨⟨headers, m, th⟩, ?_, rfl, rfl⟩
    apply (parseGrpcUnaryResponse_ok_iff cr).mpr
    refine ⟨h.head, hencoding, _, some d, th, hread, ?_, ?_⟩
    · apply (decodeUnaryBody_none_iff cr).mpr
      refine ⟨e, _, ?_, hone.message, (unaryEnvelopeData_iff h.family).mpr ⟨hone.payload, hid⟩,
        hafter⟩
      obtain ⟨-, -, -, -, -, hle⟩ := decodeWith_item hdec
      rw [decodeWithLimit, decodeContiguous_eq]
      exact decodeWith_wire _ (length_of_decodeWith hdec) hle
    · apply (finishUnary_iff cr).mpr
      simp only [Bool.not_true, Bool.and_false, Bool.false_eq_true, if_false]
      exact ⟨rfl, hstatus, d, m, rfl, hsize, hone.decode, rfl⟩

/-- The end of the body, to a stream. -/
def grpcBodyEnd (trailers : Option HeaderMap) : BodyEnd :=
  match trailers with
  | none => .eof
  | some th => .trailers th

/-- Trailers that have a status are what the stream ends with. -/
theorem classifyGrpcEnd_status {s : StreamSetup α} {saw : Bool} {th : HeaderMap}
    (h : th.contains hdr.grpcStatus = true) :
    s.classifyGrpcEnd cr saw (some th) = ⟨parseGrpcErrorFromTrailers cr th, some th⟩ := by
  rw [StreamSetup.classifyGrpcEnd, Option.bind_some]
  rcases parseGrpcErrorFromTrailers cr th with _ | err
  · simp only [Option.any_some, h, Bool.true_or, if_true]
  · rfl

/-- From trailers that have a status the stream takes its end. -/
theorem StreamTrailers.readingOf {r : Bytes} {th : HeaderMap}
    (h : StreamTrailers cr c headers trailers r th) (saw : Bool) (hstatus : th.contains hdr.grpcStatus = true) :
    (c.setup headers false).readingOf cr saw r (grpcBodyEnd trailers) =
      ([], ⟨parseGrpcErrorFromTrailers cr th, some th⟩) := by
  rcases h with ⟨f, rest, hd, hframe, hft⟩ | ⟨rfl, hrest⟩
  · rw [StreamSetup.readingOf_item cr _ _ _ hd, StreamSetup.dispatch, if_pos hframe, hft,
      classifyGrpcEnd_status cr hstatus]
  · rw [StreamSetup.readingOf_none cr _ hrest, grpcBodyEnd, StreamSetup.endOfBody,
      classifyGrpcEnd_status cr hstatus]

/-- The stream cuts the same message off. -/
theorem OneMessage.decodeWith {b r d : Bytes} {e : Envelope} {m : α}
    (hone : OneMessage c headers b e r d m) (hp : c.protocol ≠ .connect) :
    ConnectRpc.decodeWith (c.setup headers false).limits b = .ok (some (e, r)) :=
  (decodeWith_setup_iff hp hone.message).mpr hone.envelope

/-- There is data. -/
theorem OneMessage.nonempty {b r d : Bytes} {e : Envelope} {m : α}
    (hone : OneMessage c headers b e r d m) (hp : c.protocol ≠ .connect) :
    (!b.isEmpty) = true := by
  rw [decodeWith_eq_wire (hone.decodeWith hp)]
  rfl

/-- What comes after the message. -/
theorem OneMessage.rest {b r d : Bytes} {e : Envelope} {m : α} (h : InScope c headers b)
    (hone : OneMessage c headers b e r d m) : InScope c headers r :=
  h.rest (decodeAny_of_item (hone.decodeWith h.family))

/-- A message in front of what a stream reads. -/
theorem OneMessage.readingOf {b r d : Bytes} {e : Envelope} {m : α} {saw : Bool}
    {bodyEnd : BodyEnd} (h : InScope c headers b) (hone : OneMessage c headers b e r d m) :
    (c.setup headers false).readingOf cr saw b bodyEnd =
      (m :: ((c.setup headers false).readingOf cr saw r bodyEnd).1,
        ((c.setup headers false).readingOf cr saw r bodyEnd).2) := by
  have hd := hone.decodeWith h.family
  have hframe : (c.setup headers false).isTrailerFrame e = false := by
    rw [StreamSetup.isTrailerFrame, hone.message, Bool.and_false]
  obtain ⟨-, hend⟩ := h.message (decodeAny_of_item hd) hframe
  have hdecode : (c.setup headers false).decode d = .ok m := hone.decode
  rw [StreamSetup.readingOf_item cr _ _ _ hd, StreamSetup.dispatch, hframe, hend,
    if_neg Bool.false_ne_true, if_neg Bool.false_ne_true, hone.payload, Except.bind, hdecode]
  rfl

/-- A status other than 0. -/
def CarriesError (th : HeaderMap) : Prop :=
  ∃ v n, th.get hdr.grpcStatus = some v ∧ statusValue v = some n ∧ n ≠ 0

/-- The error of a status other than 0. -/
theorem CarriesError.parse {th : HeaderMap} (h : CarriesError th) :
    ∃ err, parseGrpcErrorFromTrailers cr th = some err ∧
      err.trailers = errorMetadataFromTrailers th := by
  obtain ⟨v, n, hv, hn, hne⟩ := h
  rw [parseGrpcErrorFromTrailers, hv]
  simp only [hn]
  cases n with
  | zero => exact absurd rfl hne
  | succ n => exact ⟨_, rfl, rfl⟩

theorem CarriesError.contains {th : HeaderMap} (h : CarriesError th) :
    th.contains hdr.grpcStatus = true := by
  obtain ⟨v, n, hv, -⟩ := h
  rw [HeaderMap.contains_iff]
  intro h0
  rw [HeaderMap.get, h0] at hv
  cases hv

/-- **A status after the body**, to the unary parser: it decodes up to the trailers, and looks
at the message only later. -/
theorem parseGrpcUnaryResponse_afterBody (late : Bool) {r : Bytes} {th : HeaderMap}
    {err : ConnectError} (h : InScope c headers datas.flatten)
    (hencoding : unsupportedEncoding c headers = none)
    (hmessage : datas.flatten = r ∨ ∃ e d m, OneMessage c headers datas.flatten e r d m ∧
      ¬ IdentityCompressed headers e)
    (hunary : UnaryTrailers cr c headers trailers r th) (herror : CarriesError th)
    (herr : parseGrpcErrorFromTrailers cr th = some err) :
    parseGrpcUnaryResponse cr c (grpcReply headers datas trailers) late =
      .error (err.setResponseHeaders headers) := by
  have hread := readUnaryBody_eq c.protocol late trailers h.fits
  have hafter := (afterMessage_iff cr h.family herror.contains).mpr hunary
  have hdecode : ∃ message, decodeUnaryBody cr c (grpcReply headers datas trailers)
      (grpcEncodingOf headers)
      ((unaryRead c.protocol datas.flatten trailers).buf.length + 1) none
      (unaryRead c.protocol datas.flatten trailers).trailers
      (unaryRead c.protocol datas.flatten trailers).buf = .ok (message, th) := by
    rcases hmessage with heq | ⟨e, d, m, hone, hid⟩
    · refine ⟨none, ?_⟩
      rw [heq]
      exact hafter.decode cr
    · refine ⟨some d, ?_⟩
      have hdec := hone.envelope
      rw [decodeWithLimit, decodeContiguous_eq] at hdec
      rw [unaryRead_item c.protocol trailers (decodeAny_of_item hdec) hone.message]
      apply (decodeUnaryBody_none_iff cr).mpr
      refine ⟨e, _, ?_, hone.message, (unaryEnvelopeData_iff h.family).mpr ⟨hone.payload, hid⟩,
        hafter⟩
      obtain ⟨-, -, -, -, -, hle⟩ := decodeWith_item hdec
      rw [decodeWithLimit, decodeContiguous_eq]
      exact decodeWith_wire _ (length_of_decodeWith hdec) hle
  obtain ⟨message, hdecode⟩ := hdecode
  have hnonempty : th.isEmpty = false := by
    rcases hth : th.isEmpty with _ | _
    · rfl
    · have hcontains := herror.contains
      rw [HeaderMap.eq_empty_of_isEmpty hth] at hcontains
      cases hcontains
  have hhead : checkGrpcResponseHead (grpcReply headers datas trailers).status
      (grpcReply headers datas trailers).headers c.protocol c.codecFormat = .ok () := h.head
  have hsupported : unsupportedEncoding c (grpcReply headers datas trailers).headers = none :=
    hencoding
  have hbody : readUnaryBody c.protocol (maxUnaryBuffer c)
      (grpcReply headers datas trailers).status.isSuccess late ⟨[], .empty, false⟩
      (grpcReply headers datas trailers).body = _ := hread
  rw [parseGrpcUnaryResponse, hhead, hsupported, hbody]
  have hheaders : (grpcReply headers datas trailers).headers = headers := rfl
  simp only [hheaders, hdecode, finishUnary, hnonempty, Bool.false_and, Bool.false_eq_true,
    if_false, herr]

end

end ConnectRpc
