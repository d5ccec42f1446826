import ConnectRpc.ErrorMetadata

/-!
# Errors of the unary and of the streaming parser

A response of gRPC that is not one message and a clean end stops each of the two parsers. This file
says for which cause (`UnaryStops`, `StreamStops`), and when they report the same error.
-/

namespace ConnectRpc

open Lib

variable (cr : Crates) {α : Type}

/-- What a parser stops at. -/
inductive Cause : Type where
  /-- a status in the headers -/
  | headers : Cause
  /-- a status in trailers -/
  | trailers (th : HeaderMap) : Cause
  /-- a payload that cannot be decompressed -/
  | payload (e : Envelope) : Cause
  /-- a message that does not decode -/
  | message (d : Bytes) : Cause
  /-- a declared encoding that is not known -/
  | encoding : Cause
  /-- data that is no envelope, to the unary parser -/
  | framing : Cause
  /-- a second message -/
  | another : Cause
  /-- no status, to the unary parser -/
  | noStatus : Cause
  /-- no message -/
  | noMessage : Cause
  /-- a message that is too large -/
  | size : Cause
  /-- an envelope that is too large for the stream -/
  | envelope : Cause
  /-- no status, to the stream -/
  | streamNoStatus : Cause

/-! ## Where the unary parser stops -/

section

variable (c : CallConfig α) (headers : HeaderMap) (trailers : Option HeaderMap)

/-- The unary parser has read at most one message of some data, and has this left. -/
inductive UnaryReads (b : Bytes) : Option Bytes → Bytes → Prop where
  | start : UnaryReads b none b
  | message {e : Envelope} {r d : Bytes}
      (front : decodeWithLimit c.messageLimit b = .ok (some (e, r)))
      (message : e.isGrpcWebTrailer = false)
      (payload : unaryEnvelopeData c (grpcEncodingOf headers) e = .ok d) :
      UnaryReads b (some d) r

/-- The trailers in a trailer frame, to the unary parser: none if the frame is too large or cannot
be read. -/
def unaryFrameTrailers (f : Envelope) : HeaderMap :=
  if f.data.length > MAX_GRPC_WEB_TRAILER_SIZE then .empty
  else ((c.setup headers false).frameTrailers cr f).getD .empty

/-- The unary parser ends with these trailers. -/
inductive UnaryEnds (r : Bytes) : HeaderMap → Prop where
  | ended (rest : UnaryRest c r) : UnaryEnds r (trailers.getD .empty)
  | frame {f : Envelope} {rest : Bytes} (front : decodeAny r = .ok (some (f, rest)))
      (frame : (c.setup headers false).isTrailerFrame f = true) :
      UnaryEnds r (unaryFrameTrailers cr c headers f)

/-- What the unary parser decodes: a message if there is one, and the trailers; or why it does
not. -/
inductive UnaryDecodes (b : Bytes) :
    Except (Cause × ConnectError) (Option Bytes × HeaderMap) → Prop where
  | ends {m : Option Bytes} {r : Bytes} {th : HeaderMap} (reads : UnaryReads c headers b m r)
      (ends : UnaryEnds cr c headers trailers r th) : UnaryDecodes b (.ok (m, th))
  | payload {e : Envelope} {r : Bytes} {err : ConnectError}
      (front : decodeWithLimit c.messageLimit b = .ok (some (e, r)))
      (message : e.isGrpcWebTrailer = false)
      (payload : unaryEnvelopeData c (grpcEncodingOf headers) e = .error err) :
      UnaryDecodes b (.error (.payload e, err))
  | flagged {m : Option Bytes} {r : Bytes} (reads : UnaryReads c headers b m r) (data : r ≠ [])
      (flag : trailerFlagged r = true) (protocol : c.protocol ≠ .grpcWeb) :
      UnaryDecodes b (.error (.framing,
        invalidTrailerFlag (grpcReply headers [] trailers) (r.headD 0)))
  | framing {m : Option Bytes} {r : Bytes} {err : ConnectError}
      (reads : UnaryReads c headers b m r) (flag : trailerFlagged r = false)
      (front : decodeWithLimit c.messageLimit r = .error err) :
      UnaryDecodes b (.error (.framing,
        bodyParseError .ok headers s!"envelope decode failed: {err.display}"))
  | another {d r r' : Bytes} {e : Envelope} (reads : UnaryReads c headers b (some d) r)
      (front : decodeWithLimit c.messageLimit r = .ok (some (e, r')))
      (message : e.isGrpcWebTrailer = false) :
      UnaryDecodes b (.error (.another, (ConnectError.unimplemented
        "received multiple response messages where exactly one was expected").setResponseHeaders
          headers))

/-- The entries in which the unary parser looks for the status: the headers, if there are neither
data nor trailers. -/
def statusSource (b : Bytes) (th : HeaderMap) : HeaderMap :=
  if th.isEmpty && b.isEmpty then headers else th

/-- Why the unary parser does not take what it has decoded. -/
inductive UnaryRefuses (b : Bytes) (th : HeaderMap) :
    Option Bytes → Cause → ConnectError → Prop where
  | headers {m : Option Bytes} {err : ConnectError} (source : (th.isEmpty && b.isEmpty) = true)
      (status : parseGrpcErrorFromTrailers cr headers = some err) :
      UnaryRefuses b th m .headers ((err.setTrailers .empty).setResponseHeaders headers)
  | trailers {m : Option Bytes} {err : ConnectError} (source : (th.isEmpty && b.isEmpty) = false)
      (status : parseGrpcErrorFromTrailers cr th = some err) :
      UnaryRefuses b th m (.trailers th) (err.setResponseHeaders headers)
  | noStatus {m : Option Bytes} (status : (statusSource headers b th).get hdr.grpcStatus = none) :
      UnaryRefuses b th m .noStatus
        ((ConnectError.internal "gRPC response missing grpc-status trailer").setResponseHeaders
          headers)
  | noMessage (status : StatusOk (statusSource headers b th)) :
      UnaryRefuses b th none .noMessage ((ConnectError.unimplemented
        "gRPC response contained no message data").setResponseHeaders headers)
  | size {d : Bytes} (status : StatusOk (statusSource headers b th))
      (size : c.maxMessageSize.any (fun limit => limit < d.length) = true) :
      UnaryRefuses b th (some d) .size
        (sizeExceeded "message" d.length (c.maxMessageSize.getD 0))
  | message {d : Bytes} {err : ConnectError} (status : StatusOk (statusSource headers b th))
      (size : c.maxMessageSize.any (fun limit => limit < d.length) = false)
      (decode : c.decode d = .error err) : UnaryRefuses b th (some d) (.message d) err

/-- **Why the unary parser stops**, and with which error. -/
inductive UnaryStops (b : Bytes) : Cause → ConnectError → Prop where
  | encoding {name : String} (encoding : unsupportedEncoding c headers = some name) :
      UnaryStops b .encoding
        ((ConnectError.internal s!"unsupported response compression: {name}").setResponseHeaders
          headers)
  | decode {k : Cause} {err : ConnectError} (encoding : unsupportedEncoding c headers = none)
      (decode : UnaryDecodes cr c headers trailers b (.error (k, err))) : UnaryStops b k err
  | refuse {m : Option Bytes} {th : HeaderMap} {k : Cause} {err : ConnectError}
      (encoding : unsupportedEncoding c headers = none)
      (decode : UnaryDecodes cr c headers trailers b (.ok (m, th)))
      (refuse : UnaryRefuses cr c headers b th m k err) : UnaryStops b k err

end

section Unary

variable {c : CallConfig α} {headers : HeaderMap} {trailers : Option HeaderMap} {b r : Bytes}
variable {response : Response (List BodyEvent)} {fuel : ℕ} {m : Option Bytes}

/-- Without a complete trailer frame everything is read. -/
theorem unaryRead_whole {protocol : Protocol}
    (h : protocol = .grpcWeb → grpcWebTrailerFrameEnd r = none) :
    unaryRead protocol r trailers = ⟨r, trailers.getD .empty, !r.isEmpty⟩ := by
  rw [unaryRead]
  by_cases hp : protocol = .grpcWeb
  · rw [if_pos hp, h hp]
  · rw [if_neg hp]

/-- Data that is over or cut short is decoded to its end. -/
theorem decodeUnaryBody_over (h : UnaryRest c r) :
    decodeUnaryBody cr c response (grpcEncodingOf headers) (fuel + 1) m
      (unaryRead c.protocol r trailers).trailers (unaryRead c.protocol r trailers).buf =
        .ok (m, trailers.getD .empty) := by
  have hnone : grpcWebTrailerFrameEnd r = none := by
    rcases h with rfl | hcut
    · rfl
    · exact grpcWebTrailerFrameEnd_none hcut.incomplete
  rw [unaryRead_whole fun _ => hnone]
  apply AfterMessage.decode
  rcases h with rfl | hcut
  · exact .inl ⟨rfl, rfl⟩
  · exact hcut.afterMessage cr

/-- A trailer frame ends the decoding. -/
theorem decodeUnaryBody_frame (hp : c.protocol ≠ .connect) {f : Envelope} {rest : Bytes}
    (hd : decodeAny r = .ok (some (f, rest)))
    (hframe : (c.setup headers false).isTrailerFrame f = true) :
    decodeUnaryBody cr c response (grpcEncodingOf headers) (fuel + 1) m
      (unaryRead c.protocol r trailers).trailers (unaryRead c.protocol r trailers).buf =
        .ok (m, unaryFrameTrailers cr c headers f) := by
  rw [StreamSetup.isTrailerFrame, Bool.and_eq_true] at hframe
  obtain ⟨hweb, hflag⟩ := hframe
  have hweb : (c.setup headers false).protocol = .grpcWeb := by simpa using hweb
  have hweb : c.protocol = .grpcWeb := hweb
  have hread : unaryRead c.protocol r trailers = ⟨f.wire, .empty, true⟩ := by
    rw [unaryRead, if_pos hweb, grpcWebTrailerFrameEnd_item hd, if_pos hflag]
    simp only [decodeWith_eq_wire hd, List.take_left]
  have htrailers : parseGrpcWebTrailerPayload cr f.isCompressed f.data
      ((grpcEncodingOf headers).map fun encoding => (c.compression, encoding)) =
        (c.setup headers false).frameTrailers cr f := by
    rw [StreamSetup.frameTrailers, setup_encoding hp]
    rfl
  rw [hread]
  apply AfterMessage.decode
  refine .inr (.inl ⟨by simp [Envelope.wire], hflag, hweb, ?_⟩)
  rw [parseGrpcWebTrailerFrame_wire cr (length_of_decodeWith hd) hflag, htrailers,
    unaryFrameTrailers]
  split
  · rfl
  · rfl

/-- The flag of a trailer frame is not for plain gRPC. -/
theorem decodeUnaryBody_flagged (hdata : r ≠ []) (hflag : trailerFlagged r = true)
    (hp : c.protocol ≠ .grpcWeb) :
    decodeUnaryBody cr c response (grpcEncodingOf headers) (fuel + 1) m
      (unaryRead c.protocol r trailers).trailers (unaryRead c.protocol r trailers).buf =
        .error (invalidTrailerFlag response (r.headD 0)) := by
  rw [unaryRead_whole fun h => absurd h hp, decodeUnaryBody, if_neg hdata, if_pos hflag, if_pos hp]

/-- A message is decoded, unless there has been one. -/
theorem decodeUnaryBody_item {e : Envelope} {r' : Bytes}
    (hd : decodeWithLimit c.messageLimit r = .ok (some (e, r')))
    (hmessage : e.isGrpcWebTrailer = false) :
    decodeUnaryBody cr c response (grpcEncodingOf headers) (fuel + 1) m
      (unaryRead c.protocol r trailers).trailers (unaryRead c.protocol r trailers).buf =
        if m.isSome then .error ((ConnectError.unimplemented
          "received multiple response messages where exactly one was expected").setResponseHeaders
            response.headers)
        else
          match unaryEnvelopeData c (grpcEncodingOf headers) e with
          | .error err => .error err
          | .ok d => decodeUnaryBody cr c response (grpcEncodingOf headers) fuel (some d)
              (unaryRead c.protocol r' trailers).trailers
              (unaryRead c.protocol r' trailers).buf := by
  rw [decodeWithLimit, decodeContiguous_eq] at hd
  obtain ⟨-, -, -, -, -, hle⟩ := decodeWith_item hd
  have hne : e.wire ++ (unaryRead c.protocol r' trailers).buf ≠ [] := by
    rw [Envelope.wire]
    exact List.cons_ne_nil _ _
  -- the flag and the size stand in the envelope, so what is read after it does not matter
  have hplain : trailerFlagged (e.wire ++ (unaryRead c.protocol r' trailers).buf) = false :=
    hmessage
  have hagain : decodeWithLimit c.messageLimit (e.wire ++ (unaryRead c.protocol r' trailers).buf) =
      .ok (some (e, (unaryRead c.protocol r' trailers).buf)) := by
    rw [decodeWithLimit, decodeContiguous_eq]
    exact decodeWith_wire _ (length_of_decodeWith hd) hle
  rw [unaryRead_item c.protocol trailers (decodeAny_of_item hd) hmessage, decodeUnaryBody,
    if_neg hne, hplain, if_neg Bool.false_ne_true]
  exact hagain ▸ rfl

/-- What is no envelope in all of the data is none in what is read of it. -/
theorem decodeWithLimit_unaryRead (trailers : Option HeaderMap) {err : ConnectError}
    (hflag : trailerFlagged r = false)
    (hd : decodeWithLimit c.messageLimit r = .error err) :
    decodeWithLimit c.messageLimit (unaryRead c.protocol r trailers).buf = .error err ∧
      (unaryRead c.protocol r trailers).buf ≠ [] ∧
      trailerFlagged (unaryRead c.protocol r trailers).buf = false := by
  rw [decodeWithLimit, decodeContiguous_eq] at hd
  have hne : r ≠ [] := by
    rintro rfl
    cases hd
  rcases hend : grpcWebTrailerFrameEnd r with _ | k
  · rw [unaryRead_whole fun _ => hend]
    exact ⟨hd, hne, hflag⟩
  · by_cases hp : c.protocol = .grpcWeb
    · -- a trailer frame comes later, behind an envelope that is too large
      rcases hany : decodeAny r with _ | _ | ⟨f, rest⟩
      · exact absurd hany decodeAny_ne_error
      · rw [grpcWebTrailerFrameEnd_none hany] at hend
        cases hend
      · have hwire := decodeWith_eq_wire hany
        have hf : f.isGrpcWebTrailer = false := by
          rw [hwire] at hflag
          exact hflag
        rw [unaryRead_item c.protocol trailers hany hf]
        have hne' : f.wire ++ (unaryRead c.protocol rest trailers).buf ≠ [] := by
          rw [Envelope.wire]
          exact List.cons_ne_nil _ _
        refine ⟨?_, hne', hf⟩
        obtain ⟨after, hafter⟩ := unaryRead_prefix c.protocol rest trailers
        have hwhole : (f.wire ++ (unaryRead c.protocol rest trailers).buf) ++ after = r := by
          rw [List.append_assoc, ← hafter, ← hwire]
        have hstable := decodeWith_stable (messageLimit c.messageLimit)
        rw [decodeWithLimit, decodeContiguous_eq]
        rcases hfront : decodeWith (messageLimit c.messageLimit)
          (f.wire ++ (unaryRead c.protocol rest trailers).buf) with err' | _ | ⟨e, r'⟩
        · have hmore := hstable.error_append after hfront
          rw [hwhole, hd] at hmore
          exact hmore.symm
        · have hagain := decodeAny_of_none hfront
          rw [decodeAny_wire (length_of_decodeWith hany)] at hagain
          cases hagain
        · have hmore := hstable.item_append after hfront
          rw [hwhole, hd] at hmore
          cases hmore
    · rw [unaryRead_whole fun h => absurd h hp]
      exact ⟨hd, hne, hflag⟩

/-- Data that is no envelope cannot be decoded. -/
theorem decodeUnaryBody_framing {err : ConnectError} (hflag : trailerFlagged r = false)
    (hd : decodeWithLimit c.messageLimit r = .error err) :
    decodeUnaryBody cr c response (grpcEncodingOf headers) (fuel + 1) m
      (unaryRead c.protocol r trailers).trailers (unaryRead c.protocol r trailers).buf =
        .error (bodyParseError response.status response.headers
          s!"envelope decode failed: {err.display}") := by
  obtain ⟨hread, hne, hplain⟩ := decodeWithLimit_unaryRead trailers hflag hd
  rw [decodeUnaryBody, if_neg hne, hplain, if_neg Bool.false_ne_true, hread]

/-- What has been read is read first. -/
theorem UnaryReads.decodeUnaryBody (response : Response (List BodyEvent))
    (trailers : Option HeaderMap) (h : UnaryReads c headers b m r) :
    ∃ fuel, ConnectRpc.decodeUnaryBody cr c response (grpcEncodingOf headers)
        ((unaryRead c.protocol b trailers).buf.length + 1) none
        (unaryRead c.protocol b trailers).trailers (unaryRead c.protocol b trailers).buf =
      ConnectRpc.decodeUnaryBody cr c response (grpcEncodingOf headers) (fuel + 1) m
        (unaryRead c.protocol r trailers).trailers (unaryRead c.protocol r trailers).buf := by
  cases h with
  | start => exact ⟨_, rfl⟩
  | @message e r d front message payload =>
    have hd := front
    rw [decodeWithLimit, decodeContiguous_eq] at hd
    obtain ⟨n, hn⟩ : ∃ n, (unaryRead c.protocol b trailers).buf.length = n + 1 := by
      rw [unaryRead_item c.protocol trailers (decodeAny_of_item hd) message, Envelope.wire]
      exact ⟨_, rfl⟩
    refine ⟨n, ?_⟩
    rw [decodeUnaryBody_item cr front message, payload, hn]
    rfl

/-- What the unary parser decodes is what its loop answers. -/
theorem UnaryDecodes.decodeUnaryBody (hp : c.protocol ≠ .connect) (hstatus : response.status = .ok)
    (hheaders : response.headers = headers)
    {x : Except (Cause × ConnectError) (Option Bytes × HeaderMap)}
    (h : UnaryDecodes cr c headers trailers b x) :
    ConnectRpc.decodeUnaryBody cr c response (grpcEncodingOf headers)
        ((unaryRead c.protocol b trailers).buf.length + 1) none
        (unaryRead c.protocol b trailers).trailers (unaryRead c.protocol b trailers).buf =
      x.mapError Prod.snd := by
  cases h with
  | ends reads ends =>
    obtain ⟨fuel, hfuel⟩ := reads.decodeUnaryBody cr response trailers
    rw [hfuel]
    cases ends with
    | ended rest => exact decodeUnaryBody_over cr rest
    | frame front frame => exact decodeUnaryBody_frame cr hp front frame
  | payload front message payload =>
    rw [decodeUnaryBody_item cr front message, payload]
    rfl
  | flagged reads data flag protocol =>
    obtain ⟨fuel, hfuel⟩ := reads.decodeUnaryBody cr response trailers
    rw [hfuel, decodeUnaryBody_flagged cr data flag protocol, invalidTrailerFlag, hstatus, hheaders]
    rfl
  | framing reads flag front =>
    obtain ⟨fuel, hfuel⟩ := reads.decodeUnaryBody cr response trailers
    rw [hfuel, decodeUnaryBody_framing cr flag front, hstatus, hheaders]
    rfl
  | another reads front message =>
    obtain ⟨fuel, hfuel⟩ := reads.decodeUnaryBody cr response trailers
    rw [hfuel, decodeUnaryBody_item cr front message, Option.isSome_some, if_pos rfl, hheaders]
    rfl

end Unary

/-! ## Where the stream stops -/

section

variable (c : CallConfig α) (headers : HeaderMap) (trailers : Option HeaderMap)

/-- The stream ends with these trailers, if there are any. -/
def StreamEnds (r : Bytes) (t : Option HeaderMap) : Prop :=
  (∃ f rest, decodeWith (c.setup headers false).limits r = .ok (some (f, rest)) ∧
    (c.setup headers false).isTrailerFrame f = true ∧
    t = (c.setup headers false).frameTrailers cr f) ∨
  (StreamRest c headers r ∧ t = trailers)

/-- Why a stream stops in some data, and with which error. -/
inductive StreamReads (saw : Bool) : Bytes → Cause → ConnectError → Prop where
  | more {b r d : Bytes} {e : Envelope} {m : α} {k : Cause} {err : ConnectError}
      (front : decodeWith (c.setup headers false).limits b = .ok (some (e, r)))
      (message : (c.setup headers false).isTrailerFrame e = false)
      (payload : (c.setup headers false).decompressEnvelope e = .ok d)
      (decode : c.decode d = .ok m) (rest : StreamReads saw r k err) : StreamReads saw b k err
  | envelope {b : Bytes} {err : ConnectError}
      (front : decodeWith (c.setup headers false).limits b = .error err) :
      StreamReads saw b .envelope (err.setResponseHeaders headers)
  | payload {b r : Bytes} {e : Envelope} {err : ConnectError}
      (front : decodeWith (c.setup headers false).limits b = .ok (some (e, r)))
      (message : (c.setup headers false).isTrailerFrame e = false)
      (payload : (c.setup headers false).decompressEnvelope e = .error err) :
      StreamReads saw b (.payload e) (err.setResponseHeaders headers)
  | message {b r d : Bytes} {e : Envelope} {err : ConnectError}
      (front : decodeWith (c.setup headers false).limits b = .ok (some (e, r)))
      (message : (c.setup headers false).isTrailerFrame e = false)
      (payload : (c.setup headers false).decompressEnvelope e = .ok d)
      (decode : c.decode d = .error err) :
      StreamReads saw b (.message d) (err.setResponseHeaders headers)
  | trailers {b : Bytes} {th : HeaderMap} {err : ConnectError}
      (ends : StreamEnds cr c headers trailers b (some th))
      (status : parseGrpcErrorFromTrailers cr th = some err) :
      StreamReads saw b (.trailers th)
        ((err.setResponseHeaders headers).setTrailers (errorMetadataFromTrailers th))
  | noStatus {b : Bytes} {t : Option HeaderMap} {err : ConnectError}
      (ends : StreamEnds cr c headers trailers b t)
      (status : t.bind (parseGrpcErrorFromTrailers cr) = none)
      (outcome : (((c.setup headers false).classifyGrpcEnd cr saw t).attachMetadata headers).outcome =
        some err) : StreamReads saw b .streamNoStatus err

/-- **Why the stream stops**, and with which error: before it is made, or in the body. -/
inductive StreamStops (b : Bytes) : Cause → ConnectError → Prop where
  | headers {err : ConnectError} (status : parseGrpcErrorFromTrailers cr headers = some err) :
      StreamStops b .headers (err.setResponseHeaders headers)
  | body {k : Cause} {err : ConnectError} (head : parseGrpcErrorFromTrailers cr headers = none)
      (reads : StreamReads cr c headers trailers (!b.isEmpty) b k err) : StreamStops b k err

end

section Stream

variable {c : CallConfig α} {headers : HeaderMap} {trailers : Option HeaderMap} {b r : Bytes}
variable {saw : Bool} {k : Cause} {err : ConnectError}

/-- The end of the body is classified. -/
theorem endOfBody_grpcBodyEnd (hp : c.protocol ≠ .connect) :
    (c.setup headers false).endOfBody cr saw (grpcBodyEnd trailers) =
      (c.setup headers false).classifyGrpcEnd cr saw trailers := by
  have hprotocol : (c.setup headers false).protocol ≠ .connect := hp
  rcases trailers with _ | th
  · rw [grpcBodyEnd, StreamSetup.endOfBody, if_neg hprotocol]
  · rfl

/-- The end of a stream, classified. -/
theorem StreamEnds.readingOf (hp : c.protocol ≠ .connect) {t : Option HeaderMap}
    (h : StreamEnds cr c headers trailers r t) :
    (c.setup headers false).readingOf cr saw r (grpcBodyEnd trailers) =
      ([], (c.setup headers false).classifyGrpcEnd cr saw t) := by
  rcases h with ⟨f, rest, hd, hframe, rfl⟩ | ⟨hrest, rfl⟩
  · rw [StreamSetup.readingOf_item cr _ _ _ hd, StreamSetup.dispatch, if_pos hframe]
  · rw [StreamSetup.readingOf_none cr _ hrest, endOfBody_grpcBodyEnd cr hp]

/-- A message in a stream, in front of the rest. -/
theorem readingOf_message (h : InScope c headers b) {e : Envelope}
    (hd : decodeWith (c.setup headers false).limits b = .ok (some (e, r)))
    (hframe : (c.setup headers false).isTrailerFrame e = false) {bodyEnd : BodyEnd} :
    (c.setup headers false).readingOf cr saw b bodyEnd =
      match (c.setup headers false).decompressEnvelope e |>.bind c.decode with
      | .error err => ([], .ofError err)
      | .ok m => (m :: ((c.setup headers false).readingOf cr saw r bodyEnd).1,
          ((c.setup headers false).readingOf cr saw r bodyEnd).2) := by
  obtain ⟨-, hend⟩ := h.message (decodeAny_of_item hd) hframe
  rw [StreamSetup.readingOf_item cr _ _ _ hd, StreamSetup.dispatch, hframe, hend,
    if_neg Bool.false_ne_true, if_neg Bool.false_ne_true]
  have hdecode : (c.setup headers false).decode = c.decode := rfl
  rw [hdecode]
  rcases (c.setup headers false).decompressEnvelope e |>.bind c.decode with err | m
  · rfl
  · rfl

/-- A cause in the data is what the stream ends with. -/
theorem StreamReads.readingOf (hreads : StreamReads cr c headers trailers saw b k err)
    (h : InScope c headers b) :
    (((c.setup headers false).readingOf cr saw b (grpcBodyEnd trailers)).2.attachMetadata
      headers).outcome = some err := by
  induction hreads with
  | more front message payload decode _ ih =>
    rw [readingOf_message cr h front message, payload, Except.bind, decode]
    exact ih (h.rest (decodeAny_of_item front))
  | envelope front =>
    rw [StreamSetup.readingOf_error cr _ front]
    rfl
  | payload front message payload =>
    rw [readingOf_message cr h front message, payload]
    rfl
  | message front message payload decode =>
    rw [readingOf_message cr h front message, payload, Except.bind, decode]
    rfl
  | trailers ends status =>
    rw [ends.readingOf cr h.family, StreamSetup.classifyGrpcEnd, Option.bind_some, status]
    rfl
  | noStatus ends _ outcome =>
    rw [ends.readingOf cr h.family]
    exact outcome

end Stream

/-! ## Reports -/

section

variable {c : CallConfig α} {headers : HeaderMap} {datas : List Bytes} {trailers : Option HeaderMap}
variable {b : Bytes} {k : Cause} {u s : ConnectError}

/-- The error of the unary parser for a cause that the stream may have too. -/
def UnaryError (c : CallConfig α) (headers : HeaderMap) : Cause → ConnectError → Prop
  | .headers, u => ∃ err, parseGrpcErrorFromTrailers cr headers = some err ∧
      u = (err.setTrailers .empty).setResponseHeaders headers
  | .trailers th, u => ∃ err, parseGrpcErrorFromTrailers cr th = some err ∧
      u = err.setResponseHeaders headers
  | .payload e, u => unaryEnvelopeData c (grpcEncodingOf headers) e = .error u
  | .message d, u => c.decode d = .error u
  | .envelope, _ => False
  | .streamNoStatus, _ => False
  | _, _ => True

/-- The error of the stream for a cause that the unary parser may have too. -/
def StreamError (c : CallConfig α) (headers : HeaderMap) : Cause → ConnectError → Prop
  | .headers, s => ∃ err, parseGrpcErrorFromTrailers cr headers = some err ∧
      s = err.setResponseHeaders headers
  | .trailers th, s => ∃ err, parseGrpcErrorFromTrailers cr th = some err ∧
      s = (err.setResponseHeaders headers).setTrailers (errorMetadataFromTrailers th)
  | .payload e, s => ∃ err, (c.setup headers false).decompressEnvelope e = .error err ∧
      s = err.setResponseHeaders headers
  | .message d, s => ∃ err, c.decode d = .error err ∧ s = err.setResponseHeaders headers
  | .envelope, _ => True
  | .streamNoStatus, _ => True
  | _, _ => False

theorem UnaryStops.error (h : UnaryStops cr c headers trailers b k u) :
    UnaryError cr c headers k u := by
  cases h with
  | encoding => trivial
  | decode _ decode =>
    cases decode with
    | payload _ _ payload => exact payload
    | flagged => trivial
    | framing => trivial
    | another => trivial
  | refuse _ _ refuse =>
    cases refuse with
    | headers _ status => exact ⟨_, status, rfl⟩
    | trailers _ status => exact ⟨_, status, rfl⟩
    | noStatus => trivial
    | noMessage => trivial
    | size => trivial
    | message _ _ decode => exact decode

theorem StreamReads.error {saw : Bool} (h : StreamReads cr c headers trailers saw b k s) :
    StreamError cr c headers k s := by
  induction h with
  | more _ _ _ _ _ ih => exact ih
  | envelope => trivial
  | payload _ _ payload => exact ⟨_, payload, rfl⟩
  | message _ _ _ decode => exact ⟨_, decode, rfl⟩
  | trailers _ status => exact ⟨_, status, rfl⟩
  | noStatus => trivial

theorem StreamStops.error (h : StreamStops cr c headers trailers b k s) :
    StreamError cr c headers k s := by
  cases h with
  | headers status => exact ⟨_, status, rfl⟩
  | body _ reads => exact reads.error cr

end

/-- The headers of a response that only has headers, with a status of 5. -/
def statusHeaders : HeaderMap :=
  ⟨[(.contentType, ⟨asBytes "application/grpc", by decide⟩), (hdr.grpcStatus, .ofNat 5)]⟩

end ConnectRpc
