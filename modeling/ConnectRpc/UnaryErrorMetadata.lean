import ConnectRpc.StatusAgreement

/-!
# The metadata of unary gRPC errors

The parser of a unary gRPC response fails while it reads the body, while it takes the
envelopes apart, or when it looks at the status. `UnaryBody.reach` is what has been read
when reading stops; at most two envelopes decide the second part; the third has its
exits in one place. With the parsers before, this says for every failure of a client
whether the error carries the metadata of the response (`client_error_metadata`).
-/

namespace ConnectRpc

open Lib

variable (cr : Crates) {α : Type}

/-! ## Reading -/

/-- Why the reading of a unary body stops. -/
inductive ReadStop : Type where
  /-- at its end, or at the end of a trailer frame -/
  | finished
  /-- the buffer is full -/
  | full
  /-- the transport failed -/
  | failed
  /-- the deadline fired -/
  | deadline
  deriving DecidableEq

/-- What has been read of a unary body when its reading stops, and why it stops. -/
def UnaryBody.reach (protocol : Protocol) (maxBufSize : ℕ) :
    UnaryBody → List BodyEvent → UnaryBody × ReadStop
  | acc, [] => (acc, .finished)
  | acc, .data d :: body =>
    let appendLen := min d.length (maxBufSize - acc.buf.length)
    let acc := { acc with
      buf := acc.buf ++ d.take appendLen
      hasBodyData := acc.hasBodyData || !d.isEmpty }
    match (if protocol = .grpcWeb then grpcWebTrailerFrameEnd acc.buf else none) with
    | some trailerEnd => ({ acc with buf := acc.buf.take trailerEnd }, .finished)
    | none => if appendLen < d.length then (acc, .full) else acc.reach protocol maxBufSize body
  | acc, .trailers trailers :: body =>
    { acc with trailers := trailers }.reach protocol maxBufSize body
  | acc, .failed _ :: _ => (acc, .failed)
  | acc, .deadline :: _ => (acc, .deadline)

/-- Whether a stop is a failure. The body of a response that is not a success may
break off. -/
def ReadStop.fails (success : Bool) : ReadStop → Bool
  | finished => false
  | full => true
  | failed => success
  | deadline => true

/-- The parser goes on with what has been read, or fails with nothing attached. -/
theorem readUnaryBody_reach (protocol : Protocol) (maxBufSize : ℕ) (success late : Bool) :
    ∀ (body : List BodyEvent) (acc : UnaryBody),
      match readUnaryBody protocol maxBufSize success late acc body with
      | .ok u => ∃ stop, acc.reach protocol maxBufSize body = (u, stop) ∧
          stop.fails success = false
      | .error e => (acc.reach protocol maxBufSize body).2.fails success = true ∧ e.Bare := by
  intro body
  induction body with
  | nil => exact fun acc => ⟨_, rfl, rfl⟩
  | cons ev body ih =>
    intro acc
    cases ev with
    | data d =>
      rw [readUnaryBody, UnaryBody.reach]
      simp only
      rcases (if protocol = .grpcWeb then
          grpcWebTrailerFrameEnd (acc.buf ++ d.take (min d.length (maxBufSize - acc.buf.length)))
        else none) with _ | trailerEnd
      · by_cases hfull : min d.length (maxBufSize - acc.buf.length) < d.length
        · simp only [if_pos hfull]
          exact ⟨rfl, ConnectError.bare_new _ _⟩
        · simp only [if_neg hfull]
          exact ih _
      · exact ⟨_, rfl, rfl⟩
    | trailers t => exact ih _
    | failed text =>
      rw [readUnaryBody, UnaryBody.reach]
      cases success with
      | false => exact ⟨_, rfl, rfl⟩
      | true =>
        refine ⟨rfl, ?_⟩
        rw [classifyBodyReadError]
        cases late <;> exact ConnectError.bare_new _ _
    | deadline => exact ⟨rfl, ConnectError.bare_new _ _⟩

/-! ## Envelopes -/

/-- The message envelope at the front of some data, and the rest. -/
def frontMessage (c : CallConfig α) (buf : Bytes) : Option (Envelope × Bytes) :=
  if trailerFlagged buf then none
  else
    match decodeWithLimit c.messageLimit buf with
    | .ok found => found
    | .error _ => none

/-- Whether the front of some data is no envelope of the protocol. -/
def misframed (c : CallConfig α) (buf : Bytes) : Bool :=
  if trailerFlagged buf then c.protocol ≠ .grpcWeb
  else
    match decodeWithLimit c.messageLimit buf with
    | .ok _ => false
    | .error _ => true

/-- Whether the message of a unary body cannot be read. -/
def badPayload (c : CallConfig α) (encoding : Option String) (buf : Bytes) : Bool :=
  match frontMessage c buf with
  | some (env, _) => !(unaryEnvelopeData c encoding env).isOk
  | none => false

/-- Whether the envelopes of a unary body are not those of one message. -/
def badFraming (c : CallConfig α) (buf : Bytes) : Bool :=
  match frontMessage c buf with
  | some (_, rest) => misframed c rest || (frontMessage c rest).isSome
  | none => misframed c buf

/-- What follows the message of a unary body. -/
def unaryTail (c : CallConfig α) (buf : Bytes) : Bytes :=
  match frontMessage c buf with
  | some (_, rest) => rest
  | none => buf

/-- The trailers after the message: those of a trailer frame, if there is one that can
be read. -/
def unaryTrailers (c : CallConfig α) (encoding : Option String) (trailers : HeaderMap)
    (tail : Bytes) : HeaderMap :=
  if trailerFlagged tail then
    (parseGrpcWebTrailerFrame cr tail
      (encoding.map fun encoding => (c.compression, encoding))).getD trailers
  else trailers

section

variable {c : CallConfig α} {late : Bool} {e : ConnectError}

theorem attached_bodyParseError (status : StatusCode) (headers : HeaderMap) (detail : String) :
    (bodyParseError status headers detail).Attached headers .empty := by
  rw [bodyParseError]
  cases status.isSuccess <;> exact ⟨rfl, rfl⟩

theorem bare_unaryEnvelopeData (hcompression : c.compression.BareErrors)
    {encoding : Option String} {env : Envelope}
    (h : unaryEnvelopeData c encoding env = .error e) : e.Bare := by
  unfold unaryEnvelopeData at h
  split at h
  · split at h
    · cases h
      exact ConnectError.bare_new _ _
    · rename_i enc
      split at h
      · cases h
        exact ConnectError.bare_new _ _
      · rcases hz : c.compression.decompressWithLimit enc env.data c.messageLimit with err | d
        · rw [hz] at h
          cases h
          exact attached_mapResponseDecompressionError (hcompression.bare hz)
        · rw [hz] at h
          cases h
  · cases h

section

variable (response : Response (List BodyEvent)) (encoding : Option String)

/-- A round without a message at the front is the last. -/
theorem decodeUnaryBody_last {buf : Bytes} (h : frontMessage c buf = none) (fuel : ℕ)
    (message : Option Bytes) (trailers : HeaderMap) :
    match decodeUnaryBody cr c response encoding (fuel + 1) message trailers buf with
    | .error e => misframed c buf = true ∧ e.Attached response.headers .empty
    | .ok (m, t) => misframed c buf = false ∧ m = message ∧
        t = unaryTrailers cr c encoding trailers buf := by
  rw [decodeUnaryBody, misframed, unaryTrailers]
  rw [frontMessage] at h
  by_cases h0 : buf = []
  · subst h0
    exact ⟨rfl, rfl, rfl⟩
  · rw [if_neg h0]
    rcases hflag : trailerFlagged buf with _ | _
    · rw [hflag] at h
      simp only [Bool.false_eq_true, if_false] at h ⊢
      rcases hd : decodeWithLimit c.messageLimit buf with err | found
      · exact ⟨rfl, attached_bodyParseError _ _ _⟩
      · rw [hd] at h
        obtain rfl := h
        exact ⟨rfl, rfl, rfl⟩
    · simp only [if_true]
      by_cases hp : c.protocol = .grpcWeb
      · simp only [hp, ne_eq, not_true_eq_false, if_false, decide_false]
        exact ⟨trivial, trivial, trivial⟩
      · simp only [hp, ne_eq, not_false_eq_true, if_true, decide_true]
        exact ⟨trivial, attached_bodyParseError _ _ _⟩

/-- A round with a message at the front takes it, or refuses a second one. -/
theorem decodeUnaryBody_message {buf rest : Bytes} {env : Envelope}
    (h : frontMessage c buf = some (env, rest)) (fuel : ℕ) (message : Option Bytes)
    (trailers : HeaderMap) :
    decodeUnaryBody cr c response encoding (fuel + 1) message trailers buf =
      if message.isSome then
        .error ((ConnectError.unimplemented
          "received multiple response messages where exactly one was expected").setResponseHeaders
            response.headers)
      else
        match unaryEnvelopeData c encoding env with
        | .error e => .error e
        | .ok data => decodeUnaryBody cr c response encoding fuel (some data) trailers rest := by
  rw [frontMessage] at h
  have h0 : buf ≠ [] := by
    rintro rfl
    cases h
  rcases hflag : trailerFlagged buf with _ | _
  · rw [hflag] at h
    simp only [Bool.false_eq_true, if_false] at h
    rcases hd : decodeWithLimit c.messageLimit buf with err | found
    · rw [hd] at h
      cases h
    · rw [hd] at h
      obtain rfl := h
      rw [decodeUnaryBody, if_neg h0, hflag]
      rcases hdata : unaryEnvelopeData c encoding env with err | data
      · simp only [Bool.false_eq_true, if_false, hd, hdata]
      · simp only [Bool.false_eq_true, if_false, hd, hdata]
  · rw [hflag] at h
    cases h

/-- The envelopes of a unary body: a message that cannot be read fails with nothing
attached, bad framing with the headers, and otherwise the message and the trailers
after it are there. -/
theorem decodeUnaryBody_cases (hcompression : c.compression.BareErrors) (buf : Bytes)
    (trailers : HeaderMap) :
    match decodeUnaryBody cr c response encoding (buf.length + 1) none trailers buf with
    | .error e => if badPayload c encoding buf then e.Bare
        else badFraming c buf = true ∧ e.Attached response.headers .empty
    | .ok (m, t) => badPayload c encoding buf = false ∧ badFraming c buf = false ∧
        m.isSome = (frontMessage c buf).isSome ∧
          t = unaryTrailers cr c encoding trailers (unaryTail c buf) := by
  rw [badPayload, badFraming, unaryTail]
  rcases hfront : frontMessage c buf with _ | ⟨env, rest⟩
  · have hlast := decodeUnaryBody_last cr response encoding hfront buf.length none trailers
    rcases hd : decodeUnaryBody cr c response encoding (buf.length + 1) none trailers buf
      with err | ⟨m, t⟩
    · rw [hd] at hlast
      exact hlast
    · rw [hd] at hlast
      obtain ⟨hframed, rfl, rfl⟩ := hlast
      exact ⟨rfl, hframed, rfl, rfl⟩
  · rw [decodeUnaryBody_message cr response encoding hfront]
    simp only [Option.isSome_none, Bool.false_eq_true, if_false]
    rcases hdata : unaryEnvelopeData c encoding env with err | data
    · exact bare_unaryEnvelopeData hcompression hdata
    · -- the message is there, and one more round follows
      obtain ⟨n, hn⟩ : ∃ n, buf.length = n + 1 := by
        refine Nat.exists_eq_succ_of_ne_zero fun h => ?_
        rw [List.length_eq_zero_iff.mp h] at hfront
        cases hfront
      rw [hn]
      simp only [Except.isOk, Except.toBool, Bool.not_true]
      rcases hnext : frontMessage c rest with _ | ⟨env', rest'⟩
      · have hlast := decodeUnaryBody_last cr response encoding hnext n (some data) trailers
        rcases hd : decodeUnaryBody cr c response encoding (n + 1) (some data) trailers rest
          with err | ⟨m, t⟩
        · rw [hd] at hlast
          simpa using hlast
        · rw [hd] at hlast
          obtain ⟨hframed, rfl, rfl⟩ := hlast
          exact ⟨trivial, by simpa using hframed, rfl, rfl⟩
      · rw [decodeUnaryBody_message cr response encoding hnext]
        simp only [Option.isSome_some, if_true, Bool.or_true]
        exact ⟨trivial, rfl, rfl⟩

end

/-! ## The status and the message -/

/-- Where the status of a unary response is: in the headers if there is nothing else. -/
def unaryStatus (headers : HeaderMap) (hasBodyData : Bool) (trailers : HeaderMap) : HeaderMap :=
  if trailers.isEmpty && !hasBodyData then headers else trailers

/-- When an error of the last part carries the metadata: it is a status of the server;
or there is nothing but a status in the trailers, and no headers if the status is OK and
the message is what fails. -/
def UnaryEndKeeps (response : Response (List BodyEvent)) (hasBodyData hasMessage : Bool)
    (trailers : HeaderMap) : Prop :=
  CarriesError (unaryStatus response.headers hasBodyData trailers) ∨
    (onlyStatus trailers = true ∧ (response.status.isSuccess = true →
      StatusOk (unaryStatus response.headers hasBodyData trailers) → hasMessage = true →
        response.headers.isEmpty = true))

theorem not_carriesError {m : HeaderMap} (h : parseGrpcErrorFromTrailers cr m = none) :
    ¬ CarriesError m := by
  intro hcarries
  obtain ⟨err, herr, -⟩ := hcarries.parse cr
  rw [h] at herr
  cases herr

section

variable {response : Response (List BodyEvent)}

/-- A status other than 0 is reported with the trailing metadata, wherever it was. -/
theorem carries_status {trailers : HeaderMap} {has : Bool} {err : ConnectError}
    (herr : err.Attached .empty
      (errorMetadataFromTrailers (unaryStatus response.headers has trailers))) :
    Carries response.headers trailers
      ((if trailers.isEmpty && !has then err.setTrailers .empty else err).setResponseHeaders
        response.headers) := by
  rw [unaryStatus] at herr
  rcases hfrom : trailers.isEmpty && !has with _ | _
  · rw [hfrom] at herr
    exact carries_metadata (herr.withHeaders _)
  · rw [Bool.and_eq_true] at hfrom
    rw [HeaderMap.eq_empty_of_isEmpty hfrom.1]
    exact carries_headers ⟨rfl, rfl⟩

theorem finishUnary_carries_iff (hdecode : ∀ b e, c.decode b = .error e → e.Bare) {has : Bool}
    {message : Option Bytes} {trailers : HeaderMap}
    (h : finishUnary cr c response late has message trailers = .error e) :
    Carries response.headers trailers e ↔
      UnaryEndKeeps response has message.isSome trailers := by
  have hheaders : ¬ CarriesError (unaryStatus response.headers has trailers) →
      ¬ (response.status.isSuccess = true ∧
        StatusOk (unaryStatus response.headers has trailers) ∧ message.isSome = true) →
      e.Attached response.headers .empty →
      (Carries response.headers trailers e ↔
        UnaryEndKeeps response has message.isSome trailers) := by
    intro hno hother he
    rw [carries_headers_iff he, UnaryEndKeeps]
    constructor
    · exact fun h => .inr ⟨h, fun h1 h2 h3 => absurd ⟨h1, h2, h3⟩ hother⟩
    · rintro (h | h)
      · exact absurd h hno
      · exact h.1
  unfold finishUnary at h
  simp only at h
  rw [← unaryStatus] at h
  rcases hparse : parseGrpcErrorFromTrailers cr (unaryStatus response.headers has trailers)
    with _ | err
  · have hno := not_carriesError cr hparse
    rw [hparse] at h
    simp only at h
    rcases hs : response.status.isSuccess with _ | _
    · rw [hs] at h
      obtain rfl := Except.error.inj h
      exact hheaders hno (fun h => by rw [hs] at h; cases h.1) ⟨rfl, rfl⟩
    · rw [hs] at h
      simp only [Bool.not_true, Bool.false_eq_true, if_false] at h
      rcases hget : (unaryStatus response.headers has trailers).get hdr.grpcStatus with _ | v
      · rw [hget] at h
        obtain rfl := Except.error.inj h
        refine hheaders hno ?_ ?_
        · rintro ⟨-, hok, -⟩
          rw [StatusOk, hget] at hok
          cases hok
        · cases late <;> exact ⟨rfl, rfl⟩
      · rw [hget] at h
        simp only [Option.isNone_some, Bool.false_eq_true, if_false] at h
        cases message with
        | none =>
          obtain rfl := Except.error.inj h
          exact hheaders hno (fun h => by cases h.2.2) ⟨rfl, rfl⟩
        | some data =>
          -- the message is what fails, under a status of 0
          have hok : StatusOk (unaryStatus response.headers has trailers) := by
            rcases (parseGrpcErrorFromTrailers_none_iff cr _).mp hparse with hnone | hok
            · rw [hget] at hnone
              cases hnone
            · exact hok
          have hbare : e.Bare := by
            simp only at h
            split at h
            · obtain rfl := Except.error.inj h
              exact ConnectError.bare_new _ _
            · rcases hd : c.decode data with err | m
              · rw [hd] at h
                obtain rfl := Except.error.inj h
                exact hdecode _ _ hd
              · rw [hd] at h
                cases h
          rw [carries_bare_iff hbare, UnaryEndKeeps]
          constructor
          · exact fun h => .inr ⟨h.2, fun _ _ _ => h.1⟩
          · rintro (h | h)
            · exact absurd h hno
            · exact ⟨h.2 hs hok rfl, h.1⟩
  · rw [hparse] at h
    obtain rfl := Except.error.inj h
    rcases attached_of_parseGrpcError cr hparse with ⟨hcarries, herr⟩ | ⟨hno, hbare⟩
    · exact iff_of_true (carries_status herr) (.inl hcarries)
    · refine hheaders hno ?_ ?_
      · rintro ⟨-, hok, -⟩
        have hnone := (parseGrpcErrorFromTrailers_none_iff cr _).mpr (.inr hok)
        rw [hparse] at hnone
        cases hnone
      · cases trailers.isEmpty && !has with
        | false => exact hbare.withHeaders _
        | true => exact ⟨rfl, rfl⟩

/-! ## The law -/

/-- What the parser of a unary gRPC response has read of the body, and why it stops. -/
def unaryReach (c : CallConfig α) (response : Response (List BodyEvent)) : UnaryBody × ReadStop :=
  UnaryBody.reach c.protocol (maxUnaryBuffer c) ⟨[], .empty, false⟩ response.body

/-- Whether a unary gRPC response is refused by its head. -/
def refusedHead (c : CallConfig α) (response : Response (List BodyEvent)) : Bool :=
  !(checkGrpcResponseHead response.status response.headers c.protocol c.codecFormat).isOk ||
    (unsupportedEncoding c response.headers).isSome

/-- Whether nothing is attached to an error: the body or the message cannot be read. -/
def losesAll (c : CallConfig α) (response : Response (List BodyEvent)) : Bool :=
  (unaryReach c response).2.fails response.status.isSuccess ||
    badPayload c (grpcEncodingOf response.headers) (unaryReach c response).1.buf

/-- The trailing metadata the parser of a unary gRPC response has read when it fails. -/
def grpcUnaryReceived (c : CallConfig α) (response : Response (List BodyEvent)) : HeaderMap :=
  let body := (unaryReach c response).1
  if refusedHead c response then .empty
  else if losesAll c response || badFraming c body.buf then body.trailers
  else
    unaryTrailers cr c (grpcEncodingOf response.headers) body.trailers (unaryTail c body.buf)

/-- When an error of `parse_grpc_unary_response` carries the metadata. An accepted
response whose body or message cannot be read has to have none; one that is badly framed
has to have nothing but a status in its trailers. -/
def GrpcUnaryKeeps (c : CallConfig α) (response : Response (List BodyEvent)) : Prop :=
  let body := (unaryReach c response).1
  refusedHead c response = true ∨
    if losesAll c response then
      response.headers.isEmpty = true ∧ onlyStatus (grpcUnaryReceived cr c response) = true
    else if badFraming c body.buf then onlyStatus (grpcUnaryReceived cr c response) = true
    else
      UnaryEndKeeps response body.hasBodyData (frontMessage c body.buf).isSome
        (grpcUnaryReceived cr c response)

theorem parseGrpcUnaryResponse_carries_iff (hdecode : ∀ b e, c.decode b = .error e → e.Bare)
    (hcompression : c.compression.BareErrors)
    (h : parseGrpcUnaryResponse cr c response late = .error e) :
    Carries response.headers (grpcUnaryReceived cr c response) e ↔
      GrpcUnaryKeeps cr c response := by
  rw [parseGrpcUnaryResponse] at h
  have hrefused : refusedHead c response = true → e.Attached response.headers .empty →
      (Carries response.headers (grpcUnaryReceived cr c response) e ↔
        GrpcUnaryKeeps cr c response) := by
    intro hrefused he
    refine iff_of_true ?_ (.inl hrefused)
    rw [grpcUnaryReceived, if_pos hrefused]
    exact carries_headers he
  rcases hhead : checkGrpcResponseHead response.status response.headers c.protocol c.codecFormat
    with err | _
  · rw [hhead] at h
    obtain rfl := Except.error.inj h
    exact hrefused (by rw [refusedHead, hhead]; rfl) (attached_checkGrpcResponseHead hhead)
  · rw [hhead] at h
    simp only at h
    rcases henc : unsupportedEncoding c response.headers with _ | enc
    · have hno : refusedHead c response = false := by
        rw [refusedHead, hhead, henc]
        rfl
      rw [henc] at h
      simp only at h
      rw [GrpcUnaryKeeps, hno]
      simp only [Bool.false_eq_true, false_or]
      have hread := readUnaryBody_reach c.protocol (maxUnaryBuffer c) response.status.isSuccess
        late response.body ⟨[], .empty, false⟩
      rcases hbody : readUnaryBody c.protocol (maxUnaryBuffer c) response.status.isSuccess late
        ⟨[], .empty, false⟩ response.body with err | body
      · rw [hbody] at h hread
        obtain rfl := Except.error.inj h
        have hloses : losesAll c response = true := by
          rw [losesAll, unaryReach, hread.1, Bool.true_or]
        rw [if_pos hloses, carries_bare_iff hread.2]
      · rw [hbody] at h hread
        obtain ⟨stop, hreach, hstop⟩ := hread
        have hbody : unaryReach c response = (body, stop) := hreach
        have hloses : losesAll c response =
            badPayload c (grpcEncodingOf response.headers) body.buf := by
          rw [losesAll, hbody, hstop, Bool.false_or]
        rw [hloses, hbody]
        have hcases := decodeUnaryBody_cases cr response (grpcEncodingOf response.headers)
          hcompression body.buf body.trailers
        simp only at h ⊢
        rcases hd : decodeUnaryBody cr c response (grpcEncodingOf response.headers)
            (body.buf.length + 1) none body.trailers body.buf with err | ⟨m, t⟩
        · rw [hd] at h hcases
          obtain rfl := Except.error.inj h
          simp only at hcases
          by_cases hpayload : badPayload c (grpcEncodingOf response.headers) body.buf = true
          · rw [if_pos hpayload] at hcases ⊢
            exact carries_bare_iff hcases
          · rw [if_neg hpayload] at hcases ⊢
            rw [if_pos hcases.1]
            exact carries_headers_iff hcases.2
        · rw [hd] at h hcases
          obtain ⟨hpayload, hframing, hmessage, ht⟩ := hcases
          have hreceived : grpcUnaryReceived cr c response = t := by
            rw [grpcUnaryReceived, hno, hloses, hpayload, hbody, hframing, ht]
            rfl
          rw [hpayload, hframing, hreceived, ← hmessage]
          exact finishUnary_carries_iff cr hdecode h
    · rw [henc] at h
      obtain rfl := Except.error.inj h
      exact hrefused (by rw [refusedHead, henc, Option.isSome_some, Bool.or_true]) ⟨rfl, rfl⟩

end

end

/-- Which errors of a client carry the metadata of the response they were found in, for
each protocol and shape of call; the client of a bidi stream reads its response as that
of a server stream does. -/
structure MetadataLaw (c : CallConfig α) (response : Response (List BodyEvent)) (late : Bool) :
    Prop where
  /-- a unary call on Connect -/
  connectUnary : ∀ {e}, parseConnectUnaryResponse cr c response late = .error e →
    (Carries (plainHeaders response.headers) (carriedTrailers response.headers) e ↔
      ConnectUnaryKeeps c response)
  /-- a unary call or a client stream on gRPC and gRPC-Web -/
  grpcUnary : ∀ {e}, parseGrpcUnaryResponse cr c response late = .error e →
    (Carries response.headers (grpcUnaryReceived cr c response) e ↔ GrpcUnaryKeeps cr c response)
  /-- a client stream on Connect -/
  connectClientStream : ∀ {e}, parseConnectClientStreamResponse cr c response late = .error e →
    (Carries response.headers (clientStreamReceived cr c response) e ↔
      ClientStreamKeeps cr c response)
  /-- a stream that is not made, when no trailing metadata has been read -/
  streamHead : ∀ {e}, makeServerStream cr c response late = .error e →
    (Carries response.headers .empty e ↔ StreamHeadKeeps c response)
  /-- a stream that is made -/
  stream : ∀ {s n e}, makeServerStream cr c response late = .ok s → .error e ∈ s.answers cr n →
    Carries response.headers ((c.setup response.headers late).receivedBy cr response.body) e

/-- **When client errors carry the metadata of the response.** The decoder of messages
and the compression providers attach nothing to their errors. -/
theorem client_error_metadata {c : CallConfig α} (hdecode : ∀ b e, c.decode b = .error e → e.Bare)
    (hcompression : c.compression.BareErrors) (response : Response (List BodyEvent))
    (late : Bool) : MetadataLaw cr c response late where
  connectUnary h := parseConnectUnaryResponse_carries_iff cr hdecode hcompression h
  grpcUnary h := parseGrpcUnaryResponse_carries_iff cr hdecode hcompression h
  connectClientStream h := parseConnectClientStreamResponse_carries_iff cr hdecode hcompression h
  streamHead h := makeServerStream_carries_iff cr h
  stream hs he := message_carries cr hdecode hcompression hs _ he

/-- The law for a client that keeps messages as bytes, on a response that only has
headers. -/
theorem client_error_metadata_grpcClient :
    MetadataLaw .std grpcClient (grpcReply statusHeaders [] none) false := by
  refine client_error_metadata .std ?_ ?_ _ _
  · intro b e h
    cases h
  · intro p hp
    cases hp

/-- The stream of that response is not made, and the error has the content type of the
response among its trailers. -/
theorem statusHeaders_metadata :
    ∃ e, makeServerStream .std grpcClient (grpcReply statusHeaders [] none) false = .error e ∧
      ¬ Carries statusHeaders .empty e := by
  have herror : CarriesError statusHeaders := ⟨.ofNat 5, 5, by rfl, by rfl, by decide⟩
  obtain ⟨err, hparse, htrailers⟩ := herror.parse .std
  have hmake : makeServerStream .std grpcClient (grpcReply statusHeaders [] none) false =
      .error (err.setResponseHeaders statusHeaders) := by
    have hhead : checkGrpcResponseHead .ok statusHeaders .grpc .proto = .ok () := by rfl
    simp only [makeServerStream, checkGrpcHead, grpcReply, grpcClient, hhead, hparse]
    rfl
  refine ⟨_, hmake, ?_⟩
  intro hcarries
  have hattached : (err.setResponseHeaders statusHeaders).Attached statusHeaders
      (errorMetadataFromTrailers statusHeaders) := ⟨rfl, htrailers⟩
  have hcopied := (carries_copied_iff hattached).mp hcarries
  cases hcopied

end ConnectRpc
