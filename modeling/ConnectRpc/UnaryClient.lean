import ConnectRpc.ServerStream

/-!
# Unary responses as a client reads them

The two parsers of a unary response. The Connect one reads the body whole, the
error from its JSON and the trailers from the headers that carry them. The gRPC one
reads one envelope and the status, from the HTTP trailers, from the trailer frame of
gRPC-Web, or from the headers of a response without data.
-/

namespace ConnectRpc

open Lib

variable (cr : Crates) {α : Type}

/-- A unary response. -/
structure UnaryResponse (α : Type) where
  /-- the headers -/
  headers : HeaderMap
  /-- the message -/
  body : α
  /-- the trailers -/
  trailers : HeaderMap

/-! ## Connect -/

/-- The prefix of a header that carries a trailer. -/
def trailerPrefix : List Char :=
  "trailer-".toList

/-- The trailer a header carries, if its name has the prefix; `none` inside where
what follows the prefix is not a name. -/
def carriedTrailer (n : HeaderName) : Option (Option HeaderName) :=
  if trailerPrefix.isPrefixOf n.text.toList then
    some (HeaderName.fromStr (String.ofList (n.text.toList.drop trailerPrefix.length)))
  else none

/-- The headers that carry no trailer. -/
def plainHeaders (headers : HeaderMap) : HeaderMap :=
  HeaderMap.empty.appendAll (headers.entries.filter fun e => (carriedTrailer e.1).isNone)

/-- The trailers that headers carry. -/
def carriedTrailers (headers : HeaderMap) : HeaderMap :=
  HeaderMap.empty.appendAll
    (headers.entries.filterMap fun e => (carriedTrailer e.1).join.map fun n => (n, e.2))

/-- `with_response_metadata`. -/
def withResponseMetadata (headers trailers : HeaderMap) (e : ConnectError) : ConnectError :=
  let e := e.setResponseHeaders headers
  if trailers.isEmpty then e else e.setTrailers trailers

/-- The error of a Connect unary response that is not a success. -/
def connectUnaryError (c : CallConfig α) (response : Response (List BodyEvent)) (late : Bool) :
    ConnectError :=
  let status := response.status
  let attach := fun e : ConnectError =>
    (e.setResponseHeaders (plainHeaders response.headers)).setTrailers
      (carriedTrailers response.headers)
  match collectBodyBounded c.messageLimit late [] response.body with
  | .error e => attachUnlessDeadline c.messageLimit response.body attach e
  | .ok body =>
    let decompressed : Except ConnectError Bytes :=
      match (response.headers.get .contentEncoding).bind HeaderValue.toStr with
      | none => .ok body
      | some encoding => c.compression.decompressWithLimit encoding body c.messageLimit
    match decompressed with
    | .error _ => attach (.new (httpStatusToErrorCode status) s!"HTTP error {status.code}")
    | .ok body =>
      match cr.jsonRead connectErrorResponse body with
      | .ok error => attach (error.toConnectError status)
      | .error _ =>
        attach (.new (httpStatusToErrorCode status)
          s!"HTTP error {status.code}: {cr.utf8Lossy body}")

/-- `parse_connect_unary_response`, under the deadline of the call. -/
def parseConnectUnaryResponse (c : CallConfig α) (response : Response (List BodyEvent))
    (late : Bool) : Except ConnectError (UnaryResponse α) :=
  if !response.status.isSuccess then .error (connectUnaryError cr c response late)
  else
    let headers := plainHeaders response.headers
    let trailers := carriedTrailers response.headers
    match validateConnectResponseContentType headers c.codecFormat false with
    | .error e => .error (e.setTrailers trailers)
    | .ok _ =>
      let attach := withResponseMetadata headers trailers
      let body := (collectBodyBounded c.messageLimit late [] response.body).bind fun body =>
        match (response.headers.get .contentEncoding).bind HeaderValue.toStr with
        | none => .ok body
        | some encoding =>
          (c.compression.decompressWithLimit encoding body c.messageLimit).mapError
            mapResponseDecompressionError
      match body with
      | .error e => .error (attachUnlessDeadline c.messageLimit response.body attach e)
      | .ok body =>
        if body.length > c.messageLimit then
          .error (attach (sizeExceeded "message" body.length c.messageLimit))
        else
          match c.decode body with
          | .error e => .error (attach e)
          | .ok message => .ok ⟨headers, message, trailers⟩

/-! ## gRPC -/

/-- Room in the buffer of a unary response for the trailers. -/
def RESPONSE_BUFFER_TRAILER_SLACK : ℕ := 64 * 1024

/-- The loop of `grpc_web_trailer_frame_end` at an offset; every round takes a
frame. -/
def trailerFrameEndLoop : ℕ → ℕ → Bytes → Option ℕ
  | 0, _, _ => none
  | fuel + 1, offset, data =>
    if data.length < HEADER_SIZE then none
    else
      let size := HEADER_SIZE + fromBeBytes (data.drop 1)
      if size > data.length then none
      else if data.headD 0 &&& flags.GRPC_WEB_TRAILER != 0 then some (offset + size)
      else trailerFrameEndLoop fuel (offset + size) (data.drop size)

/-- `grpc_web_trailer_frame_end`. -/
def grpcWebTrailerFrameEnd (data : Bytes) : Option ℕ :=
  trailerFrameEndLoop (data.length + 1) 0 data

/-- What has been read of a unary gRPC body. -/
structure UnaryBody where
  /-- the data -/
  buf : Bytes
  /-- the trailers -/
  trailers : HeaderMap
  /-- whether any data has arrived -/
  hasBodyData : Bool
  deriving DecidableEq

/-- The reading loop of `parse_grpc_unary_response`: the data up to a bound, or up
to the end of a trailer frame on gRPC-Web, and the last trailers. -/
def readUnaryBody (protocol : Protocol) (maxBufSize : ℕ) (success late : Bool) :
    UnaryBody → List BodyEvent → Except ConnectError UnaryBody
  | acc, [] => .ok acc
  | acc, .data d :: body =>
    let appendLen := min d.length (maxBufSize - acc.buf.length)
    let acc := { acc with
      buf := acc.buf ++ d.take appendLen
      hasBodyData := acc.hasBodyData || !d.isEmpty }
    match (if protocol = .grpcWeb then grpcWebTrailerFrameEnd acc.buf else none) with
    | some trailerEnd => .ok { acc with buf := acc.buf.take trailerEnd }
    | none =>
      if appendLen < d.length then
        .error (.resourceExhausted s!"response body size exceeds limit {maxBufSize}")
      else readUnaryBody protocol maxBufSize success late acc body
  | acc, .trailers trailers :: body =>
    readUnaryBody protocol maxBufSize success late { acc with trailers := trailers } body
  | acc, .failed e :: _ =>
    if success then .error (classifyBodyReadError "failed to read response body" e late)
    else .ok acc
  | _, .deadline :: _ => .error deadlineFired

/-- `body_parse_error`. -/
def bodyParseError (status : StatusCode) (headers : HeaderMap) (detail : String) : ConnectError :=
  (if status.isSuccess then ConnectError.internal detail
    else .new (httpStatusToErrorCode status)
      s!"HTTP error {status.code}: {detail}").setResponseHeaders headers

/-- `parse_grpc_web_trailer_frame_with_compression`. -/
def parseGrpcWebTrailerFrame (data : Bytes) (decompression : Option (CompressionRegistry × String)) :
    Option HeaderMap :=
  if data.length < 5 || data.headD 0 &&& flags.GRPC_WEB_TRAILER == 0 then none
  else
    let len := fromBeBytes (data.drop 1)
    if len > MAX_GRPC_WEB_TRAILER_SIZE || data.length < len + 5 then none
    else
      parseGrpcWebTrailerPayload cr (data.headD 0 &&& flags.COMPRESSED != 0)
        ((data.drop 5).take len) decompression

/-- The text of an error (`Display`). -/
def ConnectError.display (e : ConnectError) : String :=
  match e.message with
  | none => e.code.asStr
  | some m => e.code.asStr ++ ": " ++ m

/-- The data of an envelope of a unary response. -/
def unaryEnvelopeData (c : CallConfig α) (encoding : Option String) (e : Envelope) :
    Except ConnectError Bytes :=
  if e.isCompressed then
    match encoding with
    | none => .error (.internal "received compressed message without grpc-encoding header")
    | some encoding =>
      if encoding = "identity" then
        .error (.internal "received compressed message with identity encoding")
      else
        (c.compression.decompressWithLimit encoding e.data c.messageLimit).mapError
          mapResponseDecompressionError
  else .ok e.data

/-- The error for a trailer flag on a plain gRPC response. -/
def invalidTrailerFlag (response : Response (List BodyEvent)) (flag : UInt8) : ConnectError :=
  let flag := String.ofList (Nat.toDigits 16 flag.toNat)
  bodyParseError response.status response.headers
    ("invalid gRPC response framing: " ++
      s!"envelope flag 0x{flag} (gRPC-Web trailer marker) is not valid on a plain gRPC response")

/-- Whether the first byte has the flag of a trailer frame. -/
def trailerFlagged (buf : Bytes) : Bool :=
  buf.headD 0 &&& flags.GRPC_WEB_TRAILER != 0

/-- The decoding loop of `parse_grpc_unary_response`: the message, and the trailers
of a trailer frame in place of the HTTP ones. Every round takes an envelope. -/
def decodeUnaryBody (c : CallConfig α) (response : Response (List BodyEvent))
    (encoding : Option String) :
    ℕ → Option Bytes → HeaderMap → Bytes → Except ConnectError (Option Bytes × HeaderMap)
  | 0, message, trailers, _ => .ok (message, trailers)
  | fuel + 1, message, trailers, buf =>
    if buf = [] then .ok (message, trailers)
    else if trailerFlagged buf then
      if c.protocol ≠ .grpcWeb then
        .error (invalidTrailerFlag response (buf.headD 0))
      else
        .ok (message, (parseGrpcWebTrailerFrame cr buf
          (encoding.map fun encoding => (c.compression, encoding))).getD trailers)
    else
      match decodeWithLimit c.messageLimit buf with
      | .error e =>
        .error (bodyParseError response.status response.headers
          s!"envelope decode failed: {e.display}")
      | .ok none => .ok (message, trailers)
      | .ok (some (envelope, buf)) =>
        if message.isSome then
          .error ((ConnectError.unimplemented
            "received multiple response messages where exactly one was expected").setResponseHeaders
            response.headers)
        else
          match unaryEnvelopeData c encoding envelope with
          | .error e => .error e
          | .ok data => decodeUnaryBody c response encoding fuel (some data) trailers buf

/-- The last part of `parse_grpc_unary_response`: the status, then the message. -/
def finishUnary (c : CallConfig α) (response : Response (List BodyEvent)) (late : Bool)
    (hasBodyData : Bool) (message : Option Bytes) (trailers : HeaderMap) :
    Except ConnectError (UnaryResponse α) :=
  let statusFromHeaders := trailers.isEmpty && !hasBodyData
  let effective := if statusFromHeaders then response.headers else trailers
  match parseGrpcErrorFromTrailers cr effective with
  | some err =>
    let err := if statusFromHeaders then err.setTrailers .empty else err
    .error (err.setResponseHeaders response.headers)
  | none =>
    if !response.status.isSuccess then
      .error (httpStatusError response.status response.headers)
    else if (effective.get hdr.grpcStatus).isNone then
      .error ((if late then ConnectError.deadlineExceeded "request timeout"
        else .internal "gRPC response missing grpc-status trailer").setResponseHeaders
          response.headers)
    else
      match message with
      | none =>
        .error ((ConnectError.unimplemented
          "gRPC response contained no message data").setResponseHeaders response.headers)
      | some data =>
        if c.maxMessageSize.any (fun limit => limit < data.length) then
          .error (sizeExceeded "message" data.length (c.maxMessageSize.getD 0))
        else (c.decode data).map fun message => ⟨response.headers, message, trailers⟩

/-- The encoding a response declares. -/
def grpcEncodingOf (headers : HeaderMap) : Option String :=
  (headers.get hdr.grpcEncoding).bind HeaderValue.toStr

/-- The encoding a response declares, if the client cannot undo it. -/
def unsupportedEncoding (c : CallConfig α) (headers : HeaderMap) : Option String :=
  (grpcEncodingOf headers).filter fun e => e ≠ "identity" && !c.compression.supports e

/-- The bound on the buffer of a unary response. -/
def maxUnaryBuffer (c : CallConfig α) : ℕ :=
  c.messageLimit + HEADER_SIZE + RESPONSE_BUFFER_TRAILER_SLACK

/-- `parse_grpc_unary_response`. -/
def parseGrpcUnaryResponse (c : CallConfig α) (response : Response (List BodyEvent))
    (late : Bool) : Except ConnectError (UnaryResponse α) :=
  match checkGrpcResponseHead response.status response.headers c.protocol c.codecFormat with
  | .error e => .error e
  | .ok _ =>
    match unsupportedEncoding c response.headers with
    | some e =>
      .error ((ConnectError.internal s!"unsupported response compression: {e}").setResponseHeaders
        response.headers)
    | none =>
      match readUnaryBody c.protocol (maxUnaryBuffer c) response.status.isSuccess late
          ⟨[], .empty, false⟩ response.body with
      | .error e => .error e
      | .ok body =>
        match decodeUnaryBody cr c response (grpcEncodingOf response.headers)
            (body.buf.length + 1) none body.trailers body.buf with
        | .error e => .error e
        | .ok (message, trailers) =>
          finishUnary cr c response late body.hasBodyData message trailers

/-! ## What the gRPC parser reads -/

/-- Whether some data has a complete trailer frame. -/
def hasTrailerFrame (b : Bytes) : Bool :=
  (parse decodeAny b).items.any Envelope.isGrpcWebTrailer

/-- The search for the end of a trailer frame finds one exactly when there is a
complete one. -/
theorem trailerFrameEndLoop_isSome : ∀ (fuel offset : ℕ) (data : Bytes), data.length < fuel →
    (trailerFrameEndLoop fuel offset data).isSome = hasTrailerFrame data := by
  intro fuel
  induction fuel with
  | zero => intro _ _ h; cases h
  | succ fuel ih =>
    intro offset data h
    have hstable := decodeWith_stable (messageLimit u32Max)
    rw [trailerFrameEndLoop, hasTrailerFrame]
    by_cases hshort : data.length < HEADER_SIZE
    · rw [if_pos hshort, decodeAny, parse_none (decodeWith_short hshort)]
      rfl
    · rw [if_neg hshort]
      have hle : ¬ fromBeBytes (data.drop 1) > (messageLimit u32Max (data.headD 0)).2 :=
        Nat.not_lt.mpr (fromBeBytes_le _)
      by_cases hsize : HEADER_SIZE + fromBeBytes (data.drop 1) > data.length
      · have hnone : decodeAny data = .ok none := by
          rw [decodeAny, decodeWith, if_neg hshort, if_neg hle, if_pos hsize]
        rw [parse_none hnone]
        simp only [if_pos hsize]
        rfl
      · have hsome : decodeAny data = .ok (some
            (⟨data.headD 0, (data.drop HEADER_SIZE).take (fromBeBytes (data.drop 1))⟩,
              data.drop (HEADER_SIZE + fromBeBytes (data.drop 1)))) := by
          rw [decodeAny, decodeWith, if_neg hshort, if_neg hle, if_neg hsize, ← List.drop_drop]
        have hrest : (data.drop (HEADER_SIZE + fromBeBytes (data.drop 1))).length < fuel := by
          rw [List.length_drop]
          have h5 : HEADER_SIZE = 5 := rfl
          omega
        have hparse : parse decodeAny data = _ := hstable.parse_item hsome
        rw [hparse, Parsed.items_prepend, List.singleton_append, List.any_cons]
        simp only [if_neg hsize, Envelope.isGrpcWebTrailer]
        cases data.headD 0 &&& flags.GRPC_WEB_TRAILER != 0 with
        | true => rfl
        | false =>
          simp only [Bool.false_or]
          exact ih _ _ hrest

theorem grpcWebTrailerFrameEnd_isSome (data : Bytes) :
    (grpcWebTrailerFrameEnd data).isSome = hasTrailerFrame data :=
  trailerFrameEndLoop_isSome _ _ _ (Nat.lt_succ_self _)

/-- A trailer frame stays one whatever comes after it. -/
theorem hasTrailerFrame_append {b : Bytes} (c : Bytes) (h : hasTrailerFrame b = true) :
    hasTrailerFrame (b ++ c) = true := by
  have happend : parse decodeAny (b ++ c) = _ :=
    (decodeWith_stable (messageLimit u32Max)).parse_append b c
  rw [hasTrailerFrame] at h ⊢
  rw [happend]
  rcases hs : (parse (decodeWith (messageLimit u32Max)) b).stop with e | r
  · exact h
  · simp only [Parsed.items_prepend, List.any_append]
    rw [show (parse (decodeWith (messageLimit u32Max)) b).items.any Envelope.isGrpcWebTrailer = true
      from h, Bool.true_or]

/-- All the data of a body. -/
def allData : List BodyEvent → Bytes
  | [] => []
  | .data d :: body => d ++ allData body
  | _ :: body => allData body

/-- The last trailers of a body. -/
def lastTrailers : HeaderMap → List BodyEvent → HeaderMap
  | trailers, [] => trailers
  | _, .trailers trailers :: body => lastTrailers trailers body
  | trailers, _ :: body => lastTrailers trailers body

/-- Whether an event is a frame. -/
def BodyEvent.isFrame : BodyEvent → Bool
  | data _ => true
  | trailers _ => true
  | failed _ => false
  | deadline => false

/-- A body without a complete trailer frame is read to its end, if that comes and
the buffer holds the data. -/
theorem readUnaryBody_iff {protocol : Protocol} {maxBufSize : ℕ} {late : Bool} {u : UnaryBody} :
    ∀ (body : List BodyEvent) (acc : UnaryBody), acc.buf.length ≤ maxBufSize →
      (protocol = .grpcWeb → hasTrailerFrame (acc.buf ++ allData body) = false) →
      (readUnaryBody protocol maxBufSize true late acc body = .ok u ↔
        body.all BodyEvent.isFrame = true ∧ (acc.buf ++ allData body).length ≤ maxBufSize ∧
          u = ⟨acc.buf ++ allData body, lastTrailers acc.trailers body,
            acc.hasBodyData || !(allData body).isEmpty⟩) := by
  intro body
  induction body with
  | nil =>
    intro acc hbuf hno
    simp [readUnaryBody, allData, lastTrailers, hbuf, eq_comm]
  | cons ev body ih =>
    intro acc hbuf hno
    cases ev with
    | data d =>
      have hnone : (if protocol = .grpcWeb then
          grpcWebTrailerFrameEnd (acc.buf ++ d.take (min d.length (maxBufSize - acc.buf.length)))
            else none) = none := by
        split
        · rename_i hp
          have hfalse := hno hp
          rw [← Option.not_isSome_iff_eq_none, grpcWebTrailerFrameEnd_isSome]
          intro htrue
          have hsplit : acc.buf ++ allData (.data d :: body) =
              acc.buf ++ d.take (min d.length (maxBufSize - acc.buf.length)) ++
                (d.drop (min d.length (maxBufSize - acc.buf.length)) ++ allData body) := by
            rw [allData, List.append_assoc, ← List.append_assoc (d.take _), List.take_append_drop]
          rw [hsplit, hasTrailerFrame_append _ htrue] at hfalse
          cases hfalse
        · rfl
      rw [readUnaryBody]
      simp only [hnone]
      by_cases hfull : min d.length (maxBufSize - acc.buf.length) < d.length
      · rw [if_pos hfull]
        simp only [reduceCtorEq, false_iff]
        rintro ⟨-, hlen, -⟩
        rw [allData, List.length_append, List.length_append] at hlen
        omega
      · rw [if_neg hfull]
        have htake : d.take (min d.length (maxBufSize - acc.buf.length)) = d :=
          List.take_of_length_le (Nat.le_of_not_lt hfull)
        rw [htake]
        have hlen : (acc.buf ++ d).length ≤ maxBufSize := by
          rw [List.length_append]
          omega
        rw [ih ⟨acc.buf ++ d, acc.trailers, acc.hasBodyData || !d.isEmpty⟩ hlen (by
          intro hp
          simpa [allData] using hno hp)]
        have hsaw : (acc.hasBodyData || !d.isEmpty || !(allData body).isEmpty) =
            (acc.hasBodyData || !(d ++ allData body).isEmpty) := by
          cases d <;> simp
        simp only [allData, lastTrailers, List.append_assoc, hsaw, List.all_cons,
          BodyEvent.isFrame, Bool.true_and]
    | trailers trailers =>
      rw [readUnaryBody, ih ⟨acc.buf, trailers, acc.hasBodyData⟩ hbuf hno]
      simp [allData, lastTrailers, BodyEvent.isFrame]
    | failed e => simp [readUnaryBody, BodyEvent.isFrame]
    | deadline => simp [readUnaryBody, BodyEvent.isFrame]

/-- What follows the message of a unary response. -/
def AfterMessage (c : CallConfig α) (encoding : Option String) (trailers : HeaderMap) (buf : Bytes)
    (t : HeaderMap) : Prop :=
  (buf = [] ∧ t = trailers) ∨
    (buf ≠ [] ∧ trailerFlagged buf = true ∧ c.protocol = .grpcWeb ∧
      t = (parseGrpcWebTrailerFrame cr buf
        (encoding.map fun encoding => (c.compression, encoding))).getD trailers) ∨
    (buf ≠ [] ∧ trailerFlagged buf = false ∧
      decodeWithLimit c.messageLimit buf = .ok none ∧ t = trailers)

/-- Decoding after the message: nothing more, a trailer frame, or an incomplete
envelope. -/
theorem decodeUnaryBody_some_iff {c : CallConfig α} {response : Response (List BodyEvent)}
    {encoding : Option String} {fuel : ℕ} {d : Bytes} {trailers t : HeaderMap} {buf : Bytes}
    {m : Option Bytes} :
    decodeUnaryBody cr c response encoding (fuel + 1) (some d) trailers buf = .ok (m, t) ↔
      m = some d ∧ AfterMessage cr c encoding trailers buf t := by
  rw [decodeUnaryBody, AfterMessage]
  by_cases h0 : buf = []
  · rw [if_pos h0]
    constructor
    · intro h
      cases h
      exact ⟨rfl, .inl ⟨h0, rfl⟩⟩
    · rintro ⟨rfl, ⟨-, rfl⟩ | ⟨h, -⟩ | ⟨h, -⟩⟩
      · rfl
      · exact absurd h0 h
      · exact absurd h0 h
  · rw [if_neg h0]
    rcases hflag : trailerFlagged buf with _ | _
    · simp only [Bool.false_eq_true, if_false]
      rcases decodeWithLimit c.messageLimit buf with e | _ | ⟨env, r⟩
      · simp [h0]
      · constructor
        · intro h
          cases h
          exact ⟨rfl, .inr (.inr ⟨h0, trivial, rfl, rfl⟩)⟩
        · rintro ⟨rfl, ⟨h, -⟩ | ⟨-, h, -⟩ | ⟨-, -, -, rfl⟩⟩
          · exact absurd h h0
          · cases h
          · rfl
      · simp [h0]
    · simp only [if_true]
      by_cases hp : c.protocol = .grpcWeb
      · simp only [ne_eq, hp, not_true_eq_false, if_false]
        constructor
        · intro h
          cases h
          exact ⟨rfl, .inr (.inl ⟨h0, trivial, trivial, rfl⟩)⟩
        · rintro ⟨rfl, ⟨h, -⟩ | ⟨-, -, -, rfl⟩ | ⟨-, h, -⟩⟩
          · exact absurd h h0
          · rfl
          · cases h
      · simp [h0, hp]

/-- Decoding a unary body succeeds with a message exactly when the first envelope is
one and nothing, a trailer frame or an incomplete envelope follows. -/
theorem decodeUnaryBody_none_iff {c : CallConfig α} {response : Response (List BodyEvent)}
    {encoding : Option String} {trailers t : HeaderMap} {buf d : Bytes} :
    decodeUnaryBody cr c response encoding (buf.length + 1) none trailers buf = .ok (some d, t) ↔
      ∃ env r, decodeWithLimit c.messageLimit buf = .ok (some (env, r)) ∧
        env.isGrpcWebTrailer = false ∧ unaryEnvelopeData c encoding env = .ok d ∧
        AfterMessage cr c encoding trailers r t := by
  have hflags : ∀ {env r}, decodeWithLimit c.messageLimit buf = .ok (some (env, r)) →
      env.isGrpcWebTrailer = trailerFlagged buf ∧ ∃ n, buf.length = n + 1 := by
    intro env r h
    rw [decodeWithLimit, decodeContiguous_eq] at h
    rw [decodeWith_eq_wire h]
    exact ⟨rfl, _, rfl⟩
  rw [decodeUnaryBody]
  by_cases h0 : buf = []
  · subst h0
    simp only [if_true]
    constructor
    · intro h
      cases h
    · rintro ⟨env, r, h, -⟩
      cases h
  · rw [if_neg h0]
    rcases hflag : trailerFlagged buf with _ | _
    · simp only [Bool.false_eq_true, if_false]
      rcases hdec : decodeWithLimit c.messageLimit buf with e | _ | ⟨env, r⟩
      · simp
      · simp
      · obtain ⟨hf, n, hn⟩ := hflags hdec
        have hnot : env.isGrpcWebTrailer = false := by
          rw [hf, hflag]
        simp only [Option.isSome_none, Bool.false_eq_true, if_false]
        rcases hdata : unaryEnvelopeData c encoding env with e | d'
        · simp [hdata]
        · simp only [hn, decodeUnaryBody_some_iff]
          constructor
          · rintro ⟨h, hafter⟩
            obtain rfl := Option.some.inj h
            exact ⟨env, r, rfl, hnot, hdata, hafter⟩
          · rintro ⟨_, _, h, -, hdata', hafter⟩
            cases h
            rw [hdata] at hdata'
            cases hdata'
            exact ⟨rfl, hafter⟩
    · simp only [if_true]
      constructor
      · intro h
        split at h <;> cases h
      · rintro ⟨env, r, h, hnot, -⟩
        obtain ⟨hf, -⟩ := hflags h
        rw [hf, hflag] at hnot
        cases hnot

/-- The last part succeeds exactly with a success status, an OK status in the
effective trailers and a message that decodes within the limit. -/
theorem finishUnary_iff {c : CallConfig α} {response : Response (List BodyEvent)} {late has : Bool}
    {message : Option Bytes} {trailers : HeaderMap} {u : UnaryResponse α} :
    finishUnary cr c response late has message trailers = .ok u ↔
      response.status.isSuccess = true ∧
        StatusOk (if trailers.isEmpty && !has then response.headers else trailers) ∧
        ∃ d m, message = some d ∧ c.maxMessageSize.any (fun limit => limit < d.length) = false ∧
          c.decode d = .ok m ∧ u = ⟨response.headers, m, trailers⟩ := by
  unfold finishUnary
  generalize heff : (if trailers.isEmpty && !has then response.headers else trailers) = effective
  simp only [heff]
  rcases hparse : parseGrpcErrorFromTrailers cr effective with _ | err
  · simp only
    rcases hs : response.status.isSuccess with _ | _
    · simp
    · simp only [Bool.not_true, Bool.false_eq_true, if_false]
      rcases (parseGrpcErrorFromTrailers_none_iff cr effective).mp hparse with hnone | hok
      · simp [hnone, StatusOk]
      · have hsome : (effective.get hdr.grpcStatus).isNone = false := by
          rcases hg : effective.get hdr.grpcStatus with _ | v
          · rw [StatusOk, hg] at hok
            cases hok
          · rfl
        rcases message with _ | d
        · simp [hsome]
        · simp only [hsome, Bool.false_eq_true, if_false, hok, true_and]
          rcases hmax : c.maxMessageSize.any (fun limit => limit < d.length) with _ | _
          · rcases hd : c.decode d with e | m
            · simp [hmax, hd, Except.map]
            · simp only [Bool.false_eq_true, if_false, Except.map, Except.ok.injEq]
              constructor
              · rintro rfl
                exact ⟨d, m, rfl, hmax, hd, rfl⟩
              · rintro ⟨_, _, h, -, hd', rfl⟩
                cases h
                rw [hd] at hd'
                cases hd'
                rfl
          · simp [hmax]
  · simp only [reduceCtorEq, false_iff]
    rintro ⟨-, hok, -⟩
    have := (parseGrpcErrorFromTrailers_none_iff cr effective).mpr (.inr hok)
    rw [hparse] at this
    cases this

/-- The steps of the gRPC parser, when all of them succeed. -/
theorem parseGrpcUnaryResponse_ok_iff {c : CallConfig α} {response : Response (List BodyEvent)}
    {late : Bool} {u : UnaryResponse α} :
    parseGrpcUnaryResponse cr c response late = .ok u ↔
      checkGrpcResponseHead response.status response.headers c.protocol c.codecFormat = .ok () ∧
        unsupportedEncoding c response.headers = none ∧
        ∃ b m t, readUnaryBody c.protocol (maxUnaryBuffer c) response.status.isSuccess late
            ⟨[], .empty, false⟩ response.body = .ok b ∧
          decodeUnaryBody cr c response (grpcEncodingOf response.headers) (b.buf.length + 1) none
            b.trailers b.buf = .ok (m, t) ∧
          finishUnary cr c response late b.hasBodyData m t = .ok u := by
  rw [parseGrpcUnaryResponse]
  rcases checkGrpcResponseHead response.status response.headers c.protocol c.codecFormat with e | _
  · simp
  · rcases unsupportedEncoding c response.headers with _ | e
    · rcases readUnaryBody c.protocol (maxUnaryBuffer c) response.status.isSuccess late
        ⟨[], .empty, false⟩ response.body with e | b
      · simp
      · rcases hd : decodeUnaryBody cr c response (grpcEncodingOf response.headers)
          (b.buf.length + 1) none b.trailers b.buf with e | ⟨m, t⟩
        · simp [hd]
        · simp only [true_and, Except.ok.injEq, exists_eq_left', exists_and_left, hd]
          constructor
          · exact fun h => ⟨m, t, rfl, h⟩
          · rintro ⟨_, _, heq, h⟩
            cases heq
            exact h
    · simp

/-- A trailer frame that is cut short is not read. -/
theorem parseGrpcWebTrailerFrame_incomplete {b : Bytes}
    {decompression : Option (CompressionRegistry × String)} (h : decodeAny b = .ok none) :
    parseGrpcWebTrailerFrame cr b decompression = none := by
  have h5 : HEADER_SIZE = 5 := rfl
  rw [decodeAny, decodeWith] at h
  rw [parseGrpcWebTrailerFrame]
  split at h
  · rename_i hshort
    rw [h5] at hshort
    simp [hshort]
  · simp only at h
    split at h
    · cases h
    · split at h
      · rename_i hshort
        rw [h5, Nat.add_comm] at hshort
        simp only [hshort, decide_true, Bool.or_true, if_true, ite_self]
      · cases h

end ConnectRpc
