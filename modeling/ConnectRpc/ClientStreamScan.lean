import ConnectRpc.CleanEnd
import ConnectRpc.UnaryClient

/-!
# The response of a Connect client stream

A call with many requests and one response reads its response whole, with a scan of
its own over the envelopes. `scan_eq_stream` says that the scan and a response stream
make the same of the same bytes: they agree on the one message and the trailers, and
on an error that comes in the END_STREAM record.
-/

namespace ConnectRpc

open Lib

variable (cr : Crates) {α : Type}

/-! ## The scan -/

/-- The payload of an envelope, with the text for a missing encoding. -/
def scanPayload (compression : CompressionRegistry) (encoding : Option String) (maxMsgSize : ℕ)
    (missing : String) (envelope : Envelope) : Except ConnectError Bytes :=
  if envelope.isCompressed then
    match encoding with
    | none => .error (.internal missing)
    | some enc =>
      (compression.decompressWithLimit enc envelope.data maxMsgSize).mapError
        mapResponseDecompressionError
  else .ok envelope.data

/-- The END_STREAM envelope in the scan: its trailers, or its error. -/
def scanEndStream (compression : CompressionRegistry) (encoding : Option String) (maxMsgSize : ℕ)
    (envelope : Envelope) : Except ConnectError HeaderMap :=
  match scanPayload compression encoding maxMsgSize
    "received compressed END_STREAM without encoding header" envelope with
  | .error e => .error e
  | .ok endStreamData =>
    match parseConnectEndStream cr endStreamData with
    | .error e => .error e
    | .ok endStream =>
      let trailers :=
        match endStream.metadata with
        | some metadata => appendMetadataCapped cr .empty metadata
        | none => .empty
      match endStream.error with
      | some err =>
        .error ((endStreamErrorToConnectError err).setTrailers (errorMetadataFromTrailers trailers))
      | none => .ok trailers

/-- The loop of the scan: the message, and the trailers once END_STREAM has been
seen. Every round takes an envelope. -/
def scanLoop (compression : CompressionRegistry) (encoding : Option String) (maxMsgSize : ℕ) :
    ℕ → Option Bytes → Bytes → Except ConnectError (Option Bytes × Option HeaderMap)
  | 0, message, _ => .ok (message, none)
  | fuel + 1, message, buf =>
    if buf = [] then .ok (message, none)
    else
      match decodeWithLimit maxMsgSize buf with
      | .error e => .error e
      | .ok none => .ok (message, none)
      | .ok (some (envelope, buf)) =>
        if envelope.isEndStream then
          (scanEndStream cr compression encoding maxMsgSize envelope).map fun trailers =>
            (message, some trailers)
        else if message.isSome then
          .error (.unimplemented "client streaming response contains multiple data messages")
        else
          match scanPayload compression encoding maxMsgSize
            "received compressed message without encoding header" envelope with
          | .error e => .error e
          | .ok data =>
            if data.length > maxMsgSize then
              .error (sizeExceeded "message" data.length maxMsgSize)
            else scanLoop compression encoding maxMsgSize fuel (some data) buf

/-- `scan_connect_client_stream_envelopes`. -/
def scanConnectClientStreamEnvelopes (body : Bytes) (compression : CompressionRegistry)
    (encoding : Option String) (maxMsgSize : ℕ) : Except ConnectError (Bytes × HeaderMap) :=
  match scanLoop cr compression encoding maxMsgSize (body.length + 1) none body with
  | .error e => .error e
  | .ok (none, _) =>
    .error (.unimplemented "client streaming response contains no data messages")
  | .ok (some _, none) =>
    .error (.internal "Connect streaming response ended without END_STREAM envelope")
  | .ok (some message, some trailers) => .ok (message, trailers)

/-- `parse_connect_client_stream_envelopes`. -/
def parseConnectClientStreamEnvelopes (body : Bytes) (compression : CompressionRegistry)
    (encoding : Option String) (maxMsgSize : ℕ) (respHeaders : HeaderMap) :
    Except ConnectError (Bytes × HeaderMap) :=
  (scanConnectClientStreamEnvelopes cr body compression encoding maxMsgSize).mapError
    (ConnectError.setResponseHeaders · respHeaders)

/-- The error of a Connect client stream whose response is not a success. -/
def clientStreamStatusError (c : CallConfig α) (response : Response (List BodyEvent))
    (late : Bool) : ConnectError :=
  match collectBodyBounded c.messageLimit late [] response.body with
  | .error e => e
  | .ok body =>
    let encoding := (response.headers.get .contentEncoding).bind HeaderValue.toStr
    match connectErrorBody cr c.compression encoding c.messageLimit body with
    | some error => (error.toConnectError response.status).setResponseHeaders response.headers
    | none => httpStatusError response.status response.headers

/-- The bound on the body of a Connect client stream's response. -/
def clientStreamBodyLimit (c : CallConfig α) : ℕ :=
  c.messageLimit + 2 * HEADER_SIZE + RESPONSE_BUFFER_TRAILER_SLACK

/-- `parse_connect_client_stream_response`, under the deadline of the call. -/
def parseConnectClientStreamResponse (c : CallConfig α) (response : Response (List BodyEvent))
    (late : Bool) : Except ConnectError (UnaryResponse α) :=
  if !response.status.isSuccess then .error (clientStreamStatusError cr c response late)
  else
    match validateConnectResponseContentType response.headers c.codecFormat true with
    | .error e => .error e
    | .ok _ =>
      let encoding :=
        (response.headers.get c.protocol.contentEncodingHeader).bind HeaderValue.toStr
      match collectBodyBounded (clientStreamBodyLimit c) late [] response.body with
      | .error e => .error (attachUnlessDeadline (clientStreamBodyLimit c) response.body
          (withResponseMetadata response.headers .empty) e)
      | .ok body =>
        match parseConnectClientStreamEnvelopes cr body c.compression encoding c.messageLimit
          response.headers with
        | .error e => .error e
        | .ok (data, trailers) =>
          match c.decode data with
          | .error e => .error (withResponseMetadata response.headers trailers e)
          | .ok message => .ok ⟨response.headers, message, trailers⟩

theorem scan_ok_iff {body : Bytes} {compression : CompressionRegistry} {encoding : Option String}
    {maxMsgSize : ℕ} {m : Bytes} {trailers : HeaderMap} :
    scanConnectClientStreamEnvelopes cr body compression encoding maxMsgSize = .ok (m, trailers) ↔
      scanLoop cr compression encoding maxMsgSize (body.length + 1) none body =
        .ok (some m, some trailers) := by
  rw [scanConnectClientStreamEnvelopes]
  rcases scanLoop cr compression encoding maxMsgSize (body.length + 1) none body with
    e | ⟨_ | m', _ | trailers'⟩
  · simp
  · simp
  · simp
  · simp
  · simp

/-! ## The stream -/

namespace StreamSetup

variable {t : StreamSetup Bytes}

/-- The first envelope that is not a message is an END_STREAM record with an error. -/
def EndsWithError (t : StreamSetup Bytes) (b : Bytes) : Prop :=
  ∃ e data endStream err, t.firstEnd (t.decoded b).items = some e ∧ e.isEndStream = true ∧
    t.decompressEnvelope e = .ok data ∧ parseConnectEndStream cr data = .ok endStream ∧
      endStream.error = some err

/-- The payloads of the scan are those of the stream; only the text for a missing
encoding is another. -/
theorem scanPayload_ok_iff {t : StreamSetup α} (missing : String) (e : Envelope) (data : Bytes) :
    scanPayload t.compression t.encoding t.maxMessageSize missing e = .ok data ↔
      t.decompressEnvelope e = .ok data := by
  unfold scanPayload decompressEnvelope
  by_cases hc : e.isCompressed = true
  · rw [if_pos hc, if_pos hc]
    rcases t.encoding with _ | enc
    · simp
    · exact Iff.rfl
  · rw [if_neg hc, if_neg hc]

/-- The END_STREAM record gives the scan its trailers when it gives the stream a clean
end. -/
theorem scanEndStream_ok_iff {t : StreamSetup α} (e : Envelope) (trailers : HeaderMap) :
    scanEndStream cr t.compression t.encoding t.maxMessageSize e = .ok trailers ↔
      ∃ received, t.processEndStream cr e = ⟨none, received⟩ ∧ received.getD .empty = trailers := by
  rw [scanEndStream, processEndStream]
  rcases hd : t.decompressEnvelope e with err | data
  · have hno : ∀ data, scanPayload t.compression t.encoding t.maxMessageSize
        "received compressed END_STREAM without encoding header" e ≠ .ok data := by
      intro data h
      rw [scanPayload_ok_iff, hd] at h
      cases h
    rcases hs : scanPayload t.compression t.encoding t.maxMessageSize
        "received compressed END_STREAM without encoding header" e with err' | data
    · simp [StreamEnd.ofError]
    · exact absurd hs (hno data)
  · rw [(scanPayload_ok_iff _ _ _).mpr hd]
    rcases hp : parseConnectEndStream cr data with err | endStream
    · simp [StreamEnd.ofError, hp]
    · simp only [hp]
      rcases endStream.error with _ | err
      · rcases endStream.metadata with _ | metadata
        · simp
        · simp
      · simp

/-- An error in the END_STREAM record is the same to both. -/
theorem scanEndStream_error {e : Envelope} {data : Bytes} {endStream : ClientEndStreamResponse}
    {err : ClientError} (hd : t.decompressEnvelope e = .ok data)
    (hp : parseConnectEndStream cr data = .ok endStream) (he : endStream.error = some err) :
    ∃ e₁ e₂, scanEndStream cr t.compression t.encoding t.maxMessageSize e = .error e₁ ∧
      ((t.processEndStream cr e).attachMetadata t.headers).outcome = some e₂ ∧ SameError e₁ e₂ := by
  rw [scanEndStream, (scanPayload_ok_iff _ _ _).mpr hd, processEndStream, hd]
  simp only [hp, he, Option.map_some]
  rcases endStream.metadata with _ | metadata
  · exact ⟨_, _, rfl, rfl, rfl, rfl, rfl, rfl⟩
  · exact ⟨_, _, rfl, rfl, rfl, rfl, rfl, rfl⟩

/-- What a Connect stream makes of an envelope. -/
theorem dispatch_connect (hp : t.protocol = .connect) (hdecode : t.decode = .ok) (saw : Bool)
    (e : Envelope) :
    t.dispatch cr saw e = if e.isEndStream then .error (t.processEndStream cr e)
      else (t.decompressEnvelope e).mapError .ofError := by
  have hframe : t.isTrailerFrame e = false := by
    rw [isTrailerFrame, hp]
    rfl
  rw [dispatch, hframe, if_neg Bool.false_ne_true, hdecode]
  rcases t.decompressEnvelope e with err | data
  · rfl
  · rfl

theorem limits_connect (hp : t.protocol = .connect) : t.limits = messageLimit t.maxMessageSize := by
  rw [limits, hp]
  rfl

/-- What an envelope within the limit holds is within the limit. -/
theorem length_decompressEnvelope (hlimit : t.compression.HonoursLimit) {buf rest data : Bytes}
    {e : Envelope} (hd : decodeWith (messageLimit t.maxMessageSize) buf = .ok (some (e, rest)))
    (hdata : t.decompressEnvelope e = .ok data) : data.length ≤ t.maxMessageSize := by
  obtain ⟨-, -, -, -, -, hle⟩ := decodeWith_item hd
  rw [decompressEnvelope] at hdata
  by_cases hc : e.isCompressed = true
  · rw [if_pos hc] at hdata
    rcases henc : t.encoding with _ | enc
    · rw [henc] at hdata
      cases hdata
    · rw [henc] at hdata
      rcases hz : t.compression.decompressWithLimit enc e.data t.maxMessageSize with err | d
      · simp only [hz] at hdata
        cases hdata
      · simp only [hz] at hdata
        obtain rfl := Except.ok.inj hdata
        exact hlimit.length_le hz
  · rw [if_neg hc] at hdata
    obtain rfl := Except.ok.inj hdata
    exact hle

/-- **One round of the scan is one message of the stream.** The scan of some bytes,
with or without a message from before, finds the message and the trailers when the
stream reads that message and a clean end. The induction is on the rounds. -/
theorem scanLoop_ok_iff (hp : t.protocol = .connect) (hdecode : t.decode = .ok)
    (hlimit : t.compression.HonoursLimit) (saw : Bool) :
    ∀ (fuel : ℕ) (message : Option Bytes) (buf m : Bytes) (trailers : HeaderMap),
      buf.length < fuel →
      (scanLoop cr t.compression t.encoding t.maxMessageSize fuel message buf =
          .ok (some m, some trailers) ↔
        ∃ received, t.readingOf cr saw buf .eof = (if message = none then [m] else [],
          ⟨none, received⟩) ∧ received.getD .empty = trailers ∧ message.getD m = m) := by
  intro fuel
  induction fuel with
  | zero => intro message buf m trailers h; cases h
  | succ fuel ih =>
    intro message buf m trailers hfuel
    have hstable := decodeWith_stable t.limits
    have hdecoder : decodeWithLimit t.maxMessageSize buf = decodeWith t.limits buf := by
      rw [limits_connect hp]
      rfl
    have heof : ∀ rest, t.endOf cr saw (.rest rest) .eof = .ofError
        (.internal "Connect streaming response ended without END_STREAM envelope") := by
      intro rest
      rw [endOf, endOfBody, if_pos hp]
    rw [readingOf, decoded, scanLoop, hdecoder]
    by_cases h0 : buf = []
    · have hnone : decodeWith t.limits buf = .ok none := by
        rw [h0]
        exact decodeWith_short (by decide)
      rw [if_pos h0, parse_none hnone, plan, heof]
      simp [StreamEnd.ofError]
    · rw [if_neg h0]
      rcases hd : decodeWith t.limits buf with err | _ | ⟨e, rest⟩
      · rw [parse_error hd, plan]
        simp [endOf, StreamEnd.ofError]
      · rw [parse_none hd, plan, heof]
        simp [StreamEnd.ofError]
      · rw [hstable.parse_item hd, Parsed.items_prepend, Parsed.stop_prepend, List.singleton_append,
          plan, dispatch_connect cr hp hdecode]
        have hrest : rest.length < fuel := by
          have := hstable.shorter hd
          omega
        simp only
        by_cases hend : e.isEndStream = true
        · rw [if_pos hend, if_pos hend]
          have hiff := scanEndStream_ok_iff cr (t := t) e trailers
          simp only
          constructor
          · intro h
            rcases hs : scanEndStream cr t.compression t.encoding t.maxMessageSize e with err | tr
            · rw [hs] at h
              cases h
            · rw [hs] at h
              obtain ⟨rfl, htr⟩ := Prod.mk.inj (Except.ok.inj h)
              obtain rfl := Option.some.inj htr
              obtain ⟨received, hclean, hreceived⟩ := hiff.mp hs
              exact ⟨received, by rw [hclean]; rfl, hreceived, rfl⟩
          · rintro ⟨received, heq, hreceived, hmessage⟩
            obtain ⟨hmsgs, hclean⟩ := Prod.mk.inj heq
            rw [hiff.mpr ⟨received, hclean, hreceived⟩]
            cases message with
            | none => cases hmsgs
            | some m' => exact congrArg (fun m => Except.ok (some m, some trailers)) hmessage
        · rw [if_neg hend, if_neg hend]
          have hiff := fun data => scanPayload_ok_iff (t := t)
            "received compressed message without encoding header" e data
          rcases hdata : t.decompressEnvelope e with err | data
          · have hno : ∀ data, scanPayload t.compression t.encoding t.maxMessageSize
                "received compressed message without encoding header" e ≠ .ok data := by
              intro data h
              rw [hiff, hdata] at h
              cases h
            rcases hs : scanPayload t.compression t.encoding t.maxMessageSize
                "received compressed message without encoding header" e with err' | data
            · cases message <;> simp [Except.mapError, StreamEnd.ofError]
            · exact absurd hs (hno data)
          · have hle := length_decompressEnvelope hlimit (limits_connect hp ▸ hd) hdata
            rw [(hiff data).mpr hdata]
            simp only [Except.mapError, if_neg (Nat.not_lt.mpr hle)]
            cases message with
            | some m' => simp
            | none =>
              have hih := ih (some data) rest m trailers hrest
              simp only [Option.isSome_none, Bool.false_eq_true, if_false, if_true]
              rw [hih, readingOf, decoded]
              generalize t.plan cr saw (parse (decodeWith t.limits) rest).stop .eof
                (parse (decodeWith t.limits) rest).items = r
              obtain ⟨msgs, ended⟩ := r
              simp only [reduceCtorEq, if_false, Option.getD_some, Option.getD_none, and_true,
                Prod.mk.injEq, List.cons.injEq]
              constructor
              · rintro ⟨received, ⟨hmsgs, hclean⟩, hreceived, rfl⟩
                exact ⟨received, ⟨⟨rfl, hmsgs⟩, hclean⟩, hreceived⟩
              · rintro ⟨received, ⟨⟨rfl, hmsgs⟩, hclean⟩, hreceived⟩
                exact ⟨received, ⟨hmsgs, hclean⟩, hreceived, rfl⟩

/-- The scan ends with the error of an END_STREAM record that comes after no more than
one message. -/
theorem scanLoop_error (hp : t.protocol = .connect) (hdecode : t.decode = .ok)
    (hlimit : t.compression.HonoursLimit) (saw : Bool) :
    ∀ (fuel : ℕ) (message : Option Bytes) (buf : Bytes), buf.length < fuel →
      EndsWithError cr t buf →
      (t.readingOf cr saw buf .eof).1.length ≤ (if message = none then 1 else 0) →
      ∃ e₁ e₂, scanLoop cr t.compression t.encoding t.maxMessageSize fuel message buf = .error e₁ ∧
        ((t.readingOf cr saw buf .eof).2.attachMetadata t.headers).outcome = some e₂ ∧
        SameError e₁ e₂ := by
  intro fuel
  induction fuel with
  | zero => intro message buf h; cases h
  | succ fuel ih =>
    intro message buf hfuel hends hfew
    have hstable := decodeWith_stable t.limits
    have hdecoder : decodeWithLimit t.maxMessageSize buf = decodeWith t.limits buf := by
      rw [limits_connect hp]
      rfl
    obtain ⟨e₀, data₀, endStream, err, hfirst, hend₀, hdata₀, hparse, herr⟩ := hends
    rcases hd : decodeWith t.limits buf with err' | _ | ⟨e, rest⟩
    · rw [decoded, parse_error hd] at hfirst
      cases hfirst
    · rw [decoded, parse_none hd] at hfirst
      cases hfirst
    · have h0 : buf ≠ [] := by
        rintro rfl
        cases hd
      have hrest : rest.length < fuel := by
        have := hstable.shorter hd
        omega
      rw [readingOf, decoded, hstable.parse_item hd, Parsed.items_prepend, Parsed.stop_prepend,
        List.singleton_append, plan, dispatch_connect cr hp hdecode] at hfew ⊢
      rw [decoded, hstable.parse_item hd, Parsed.items_prepend, List.singleton_append] at hfirst
      rw [scanLoop, if_neg h0, hdecoder, hd]
      simp only
      by_cases hend : e.isEndStream = true
      · -- this is the record
        have hnot : t.isMessage e = false := by
          rw [isMessage, hend, Bool.not_true, Bool.and_false, Bool.false_and]
        rw [firstEnd, List.dropWhile_cons_of_neg (by simp [hnot]), List.head?_cons] at hfirst
        obtain rfl := Option.some.inj hfirst
        obtain ⟨e₁, e₂, hscan, hstream, hsame⟩ := scanEndStream_error cr hdata₀ hparse herr
        rw [if_pos hend, if_pos hend, hscan]
        exact ⟨e₁, e₂, rfl, hstream, hsame⟩
      · rw [if_neg hend] at hfew
        rw [if_neg hend, if_neg hend]
        rcases hdata : t.decompressEnvelope e with err' | data
        · -- a message that cannot be read would be the first end
          have hnot : t.isMessage e = false := by
            rw [isMessage, hdata]
            simp [Except.bind, Except.isOk, Except.toBool]
          rw [firstEnd, List.dropWhile_cons_of_neg (by simp [hnot]), List.head?_cons] at hfirst
          obtain rfl := Option.some.inj hfirst
          exact absurd hend₀ hend
        · have hle := length_decompressEnvelope hlimit (limits_connect hp ▸ hd) hdata
          rw [hdata] at hfew
          rw [(scanPayload_ok_iff _ e data).mpr hdata]
          simp only [Except.mapError, if_neg (Nat.not_lt.mpr hle), List.length_cons] at hfew ⊢
          cases message with
          | some m => exact absurd hfew (Nat.not_succ_le_zero _)
          | none =>
            have hmessage : t.isMessage e = true := by
              have hframe : t.isTrailerFrame e = false := by
                rw [isTrailerFrame, hp]
                rfl
              have hend' : e.isEndStream = false := by simpa using hend
              rw [isMessage, hframe, hend', hdata, hdecode]
              rfl
            rw [firstEnd, List.dropWhile_cons_of_pos (by simp [hmessage])] at hfirst
            have hfew' : (t.readingOf cr saw rest .eof).1.length ≤ 0 := by
              simp only [if_true] at hfew
              exact Nat.le_of_succ_le_succ hfew
            obtain ⟨e₁, e₂, hscan, hstream, hsame⟩ := ih (some data) rest hrest
              ⟨e₀, data₀, endStream, err, hfirst, hend₀, hdata₀, hparse, herr⟩ hfew'
            simp only [Option.isSome_none, Bool.false_eq_true, if_false, hscan]
            exact ⟨e₁, e₂, rfl, hstream, hsame⟩

end StreamSetup

/-! ## They agree -/

/-- **The scan and the stream agree.** For every body, however the stream gets it cut,
size limit and encoding: the scan yields a message and trailers exactly if the stream
yields that message and then a clean end with these trailers; and an END_STREAM record
with an error after no more than one message is the same error to both. -/
theorem scan_eq_stream {t : StreamSetup Bytes} (hp : t.protocol = .connect)
    (hdecode : t.decode = .ok) (hlimit : t.compression.HonoursLimit) (datas : List Bytes) :
    (∀ m trailers,
      scanConnectClientStreamEnvelopes cr datas.flatten t.compression t.encoding
          t.maxMessageSize = .ok (m, trailers) ↔
        ∃ e, (ServerStream.start t (datas.map .data)).Run cr [m] e ∧ e.outcome = none ∧
          e.trailers.getD .empty = trailers) ∧
    (∀ msgs e err, (ServerStream.start t (datas.map .data)).Run cr msgs e →
      msgs.length ≤ 1 → t.EndsWithError cr datas.flatten → e.outcome = some err →
        ∃ err', scanConnectClientStreamEnvelopes cr datas.flatten t.compression t.encoding
          t.maxMessageSize = .error err' ∧ SameError err' err) := by
  have hrest : bodyRest t.protocol (datas.map .data) = (datas.flatten, .eof) := by
    have hdatas := bodyRest_datas t.protocol datas []
    rw [List.append_nil, bodyRest, List.append_nil] at hdatas
    exact hdatas
  have hread : (ServerStream.start t (datas.map .data)).toRead cr =
      t.readingOf cr (!datas.flatten.isEmpty) datas.flatten .eof := by
    rw [ServerStream.toRead_start, StreamSetup.reading, hrest]
  have hrun : ∀ {msgs e}, (ServerStream.start t (datas.map .data)).Run cr msgs e ↔
      ∃ e', t.readingOf cr (!datas.flatten.isEmpty) datas.flatten .eof = (msgs, e') ∧
        e = e'.attachMetadata t.headers := by
    intro msgs e
    rw [ServerStream.run_iff cr (ServerStream.start_live t _), hread]
    rfl
  constructor
  · intro m trailers
    rw [scan_ok_iff, StreamSetup.scanLoop_ok_iff cr hp hdecode hlimit (!datas.flatten.isEmpty) _ _
      _ _ _ (Nat.lt_succ_self _)]
    constructor
    · rintro ⟨received, heq, hreceived, -⟩
      exact ⟨_, hrun.mpr ⟨_, heq, rfl⟩, rfl, hreceived⟩
    · rintro ⟨e, hr, hclean, htrailers⟩
      obtain ⟨⟨outcome, received⟩, heq, rfl⟩ := hrun.mp hr
      have houtcome : outcome = none := by simpa [StreamEnd.attachMetadata] using hclean
      subst houtcome
      exact ⟨received, heq, htrailers, rfl⟩
  · intro msgs e err hr hfew hends herr
    obtain ⟨e', heq, rfl⟩ := hrun.mp hr
    obtain ⟨e₁, e₂, hscan, hstream, hsame⟩ := StreamSetup.scanLoop_error cr hp hdecode hlimit
      (!datas.flatten.isEmpty) (datas.flatten.length + 1) none datas.flatten (Nat.lt_succ_self _)
      hends (by rw [heq]; exact hfew)
    rw [heq] at hstream
    obtain rfl := Option.some.inj (herr.symm.trans hstream)
    exact ⟨e₁, by rw [scanConnectClientStreamEnvelopes, hscan], hsame⟩

/-- A message and an END_STREAM record, cut in the message. -/
theorem cutReply_scan_eq_stream :
    scanConnectClientStreamEnvelopes .std [0, 0, 0, 0, 1, 7, 2, 0, 0, 0, 2, 123, 125] .new none 16 =
        .ok ([7], .empty) ∧
      ∃ e, (ServerStream.start (byteReader .connect none .new 16)
          [.data [0, 0, 0], .data [0, 1, 7, 2, 0, 0, 0, 2, 123, 125]]).Run .std [[7]] e ∧
        e.outcome = none ∧ e.trailers.getD .empty = .empty := by
  have hlimit : CompressionRegistry.new.HonoursLimit := fun p hp => by cases hp
  have hagree := (scan_eq_stream .std (t := byteReader .connect none .new 16) rfl rfl hlimit
    [[0, 0, 0], [0, 1, 7, 2, 0, 0, 0, 2, 123, 125]]).1 [7] .empty
  have hend : scanEndStream .std .new none 16 ⟨flags.END_STREAM, [123, 125]⟩ = .ok .empty := by
    have hpayload : scanPayload .new none 16 "received compressed END_STREAM without encoding header"
        ⟨flags.END_STREAM, [123, 125]⟩ = .ok [123, 125] := by
      obtain ⟨hplain, -, -⟩ := Envelope.kind_eq (Envelope.kind_endStream [123, 125])
      unfold scanPayload
      rw [hplain, if_neg Bool.false_ne_true]
    rw [scanEndStream, hpayload]
    simp only [parseConnectEndStream_empty]
  have hmessage : decodeWithLimit 16 [0, 0, 0, 0, 1, 7, 2, 0, 0, 0, 2, 123, 125] =
      .ok (some (⟨flags.DATA, [7]⟩, [2, 0, 0, 0, 2, 123, 125])) :=
    @decodeWith_wire (messageLimit 16) ⟨flags.DATA, [7]⟩ _ (by decide) (by decide)
  have hrecord : decodeWithLimit 16 [2, 0, 0, 0, 2, 123, 125] =
      .ok (some (⟨flags.END_STREAM, [123, 125]⟩, [])) :=
    @decodeWith_wire (messageLimit 16) ⟨flags.END_STREAM, [123, 125]⟩ [] (by decide) (by decide)
  have hscan : scanConnectClientStreamEnvelopes .std
      [0, 0, 0, 0, 1, 7, 2, 0, 0, 0, 2, 123, 125] .new none 16 = .ok ([7], .empty) := by
    obtain ⟨hplain, hnot, -⟩ := Envelope.kind_eq (Envelope.kind_data [7])
    obtain ⟨-, hlast, -⟩ := Envelope.kind_eq (Envelope.kind_endStream [123, 125])
    rw [scan_ok_iff, scanLoop, if_neg (by decide), hmessage]
    simp only [hnot, Bool.false_eq_true, if_false, Option.isSome_none, scanPayload, hplain]
    rw [if_neg (by decide), List.length_cons, scanLoop, if_neg (by decide), hrecord]
    simp only [hlast, if_true, hend]
    rfl
  exact ⟨hscan, hagree.mp hscan⟩

end ConnectRpc
