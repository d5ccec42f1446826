import ConnectRpc.Protocol
import ConnectRpc.RequestStream

/-!
# Requests of one message

A unary request of gRPC and a server-streaming request are read whole, and then decoded
as one envelope. This file compares that with the request stream, which decodes the same
bytes frame by frame.
-/

namespace ConnectRpc

open Lib

/-! ## The buffered decoders -/

/-- What the buffered decoders differ in: their texts. -/
structure SingleMessageTexts where
  /-- for a body without an envelope -/
  empty : String
  /-- for a body with something after the envelope -/
  trailing : String

/-- Decode a whole body as one envelope. -/
def decodeSingleMessage (texts : SingleMessageTexts) (header : String) (t : RequestSetup)
    (postBody : Bytes) : Except ConnectError Bytes :=
  if postBody = [] then .error (.unimplemented texts.empty)
  else
    match decodeWithLimit t.maxMessageSize postBody with
    | .error e => .error e
    | .ok none => .error (.invalidArgument "incomplete request envelope")
    | .ok (some (envelope, rest)) =>
      if rest ≠ [] then .error (.unimplemented texts.trailing)
      else requestPayload header t.streamingEncoding t.compression t.maxMessageSize envelope

/-- The request body of `handle_grpc_unary_request`. -/
def grpcUnaryRequestBody (protocol : Protocol) : RequestSetup → Bytes → Except ConnectError Bytes :=
  decodeSingleMessage ⟨"request body is empty: expected a message",
    "unary request must have exactly one message"⟩ protocol.contentEncodingHeader.text

/-- The request body of `handle_streaming_request`. -/
def serverStreamingRequestBody (protocol : Protocol) :
    RequestSetup → Bytes → Except ConnectError Bytes :=
  decodeSingleMessage ⟨"server streaming request requires a message",
    "server streaming request must have exactly one message"⟩ protocol.contentEncodingHeader.text

/-- The payload of an envelope: itself, or decompressed under an encoding that is not
`identity`. -/
theorem requestPayload_ok_iff {header : String} {encoding : Option String}
    {compression : CompressionRegistry} {limit : ℕ} {e : Envelope} {d : Bytes} :
    requestPayload header encoding compression limit e = .ok d ↔
      (e.isCompressed = false ∧ d = e.data) ∨
        (e.isCompressed = true ∧ ∃ name, encoding = some name ∧ name ≠ "identity" ∧
          compression.decompressWithLimit name e.data limit = .ok d) := by
  rw [requestPayload]
  rcases hcompressed : e.isCompressed with _ | _
  · simp [eq_comm]
  · rcases encoding with _ | name
    · simp
    · by_cases hid : name = "identity"
      · have hfilter : (some name).filter (· ≠ "identity") = none := by simp [hid]
        rw [hfilter]
        simp [hid]
      · have hfilter : (some name).filter (· ≠ "identity") = some name := by simp [hid]
        rw [hfilter]
        simp [hid]

/-- A buffered decoder accepts a body that is one envelope, with its payload. -/
theorem decodeSingleMessage_ok_iff {texts : SingleMessageTexts} {header : String}
    {t : RequestSetup} {b d : Bytes} :
    decodeSingleMessage texts header t b = .ok d ↔
      ∃ e, decodeWith t.limits b = .ok (some (e, [])) ∧
        requestPayload header t.streamingEncoding t.compression t.maxMessageSize e = .ok d := by
  have hdecode : decodeWithLimit t.maxMessageSize b = decodeWith t.limits b := rfl
  rw [decodeSingleMessage, hdecode]
  by_cases hempty : b = []
  · rw [if_pos hempty, hempty, decodeWith_short (by decide)]
    simp
  · rw [if_neg hempty]
    rcases decodeWith t.limits b with err | _ | ⟨e, r⟩
    · simp
    · simp
    · by_cases hr : r = []
      · simp [hr]
      · simp [hr]

/-! ## The request stream -/

/-- A body that yields these bytes and ends, cut and delayed in any way. -/
def RequestBody.Carries (body : RequestBody) (b : Bytes) : Prop :=
  requestRest (ready body.polls) = (b, .eof)

/-- The answers to `n` polls of the request stream of a body. -/
def streamAnswers (t : RequestSetup) (body : RequestBody) (n : ℕ) :
    List (Option (Except ConnectError Bytes)) :=
  answersIn ((RequestRun.start t body).trace (List.replicate n .poll))

/-- The request stream yields one message and then its clean end, and all but as many
polls as the body does not answer are answered. -/
structure YieldsOnly (t : RequestSetup) (body : RequestBody) (m : Bytes) : Prop where
  /-- the first answer is the message, and every later one the end -/
  answers : ∀ (n i : ℕ) (a : Option (Except ConnectError Bytes)),
    (streamAnswers t body n)[i]? = some a → a = if i = 0 then some (.ok m) else none
  /-- there are enough answers -/
  enough : ∀ n, n ≤ pendings body.polls + (streamAnswers t body n).length

theorem live_start (t : RequestSetup) (body : RequestBody) :
    (RequestBodyStream.start t body).Live t := by
  intro st hst
  obtain rfl := Option.some.inj hst
  exact ⟨EnvelopeAssembler.new_valid _, rfl, rfl⟩

/-- The answers of a stream are those of what it reads. -/
theorem streamAnswers_eq {t : RequestSetup} {body : RequestBody} {b : Bytes}
    (hbody : body.Carries b) (n : ℕ) :
    streamAnswers t body n =
      (requestAnswers (t.reading b .eof)).take (streamAnswers t body n).length := by
  have hread : (RequestBodyStream.start t body).toAnswer t = t.reading b .eof := by
    have htoRead : (RequestBodyStream.start t body).toAnswer t =
        t.reading (requestRest (ready body.polls)).1 (requestRest (ready body.polls)).2 := rfl
    rw [htoRead, hbody]
  have hanswers := RequestRun.answersIn_trace (List.replicate n .poll) (.start t body)
    (live_start t body)
  rw [RequestRun.start, hread] at hanswers
  exact hanswers

theorem streamAnswers_enough (t : RequestSetup) (body : RequestBody) (n : ℕ) :
    n ≤ pendings body.polls + (streamAnswers t body n).length := by
  have hdrop : RequestAction.drop ∉ List.replicate n RequestAction.poll := by
    rw [List.mem_replicate]
    rintro ⟨-, h⟩
    cases h
  have henough := RequestRun.polls_le_answersIn (List.replicate n .poll) (.start t body)
    (live_start t body) rfl hdrop
  rw [List.count_replicate_self] at henough
  exact henough

/-- The request stream yields these messages and then its clean end. -/
structure Yields (t : RequestSetup) (body : RequestBody) (messages : List Bytes) : Prop where
  /-- the answers are the messages in order, and from then on the end -/
  answers : ∀ (n i : ℕ) (a : Option (Except ConnectError Bytes)),
    (streamAnswers t body n)[i]? = some a → a = messages[i]?.map .ok
  /-- there are enough answers -/
  enough : ∀ n, n ≤ pendings body.polls + (streamAnswers t body n).length

/-- Messages and then the end for ever. -/
theorem requestAnswers_eq_iff {r : List Bytes × Option ConnectError} {messages : List Bytes} :
    (∀ i, (requestAnswers r).get i = messages[i]?.map .ok) ↔ r = (messages, none) := by
  induction messages generalizing r with
  | nil =>
    constructor
    · intro h
      have hfirst : (requestAnswers r).get 0 = none := h 0
      rcases r with ⟨_ | ⟨d, ds⟩, err⟩
      · rw [requestAnswers_end, Stream'.get_zero_cons] at hfirst
        rw [Option.map_eq_none_iff.mp hfirst]
      · rw [requestAnswers_message, Stream'.get_zero_cons] at hfirst
        cases hfirst
    · rintro rfl i
      have hend : requestAnswers ([], none) = Stream'.const none := Stream'.nil_append_stream _
      rw [hend]
      rfl
  | cons m messages ih =>
    constructor
    · intro h
      have hfirst : (requestAnswers r).get 0 = some (.ok m) := h 0
      rcases r with ⟨_ | ⟨d, ds⟩, err⟩
      · rw [requestAnswers_end, Stream'.get_zero_cons] at hfirst
        rcases err with _ | e
        · cases hfirst
        · cases hfirst
      · rw [requestAnswers_message, Stream'.get_zero_cons] at hfirst
        obtain rfl := Except.ok.inj (Option.some.inj hfirst)
        have hrest : ∀ i, (requestAnswers (ds, err)).get i = messages[i]?.map .ok := by
          intro i
          have hnext := h (i + 1)
          rw [requestAnswers_message, Stream'.get_succ_cons, List.getElem?_cons_succ] at hnext
          exact hnext
        obtain ⟨rfl, rfl⟩ := Prod.mk.inj (ih.mp hrest)
        rfl
    · rintro rfl i
      rcases i with _ | i
      · rfl
      · rw [requestAnswers_message, Stream'.get_succ_cons, List.getElem?_cons_succ]
        exact ih.mpr rfl i

/-- **Messages and a clean end** are what is read. -/
theorem yields_iff {t : RequestSetup} {body : RequestBody} {b : Bytes} {messages : List Bytes}
    (hbody : body.Carries b) : Yields t body messages ↔ t.reading b .eof = (messages, none) := by
  rw [← requestAnswers_eq_iff]
  constructor
  · intro h i
    -- so many polls have an answer of this number
    have hlen : i < (streamAnswers t body (pendings body.polls + (i + 1))).length := by
      have henough := h.enough (pendings body.polls + (i + 1))
      omega
    refine h.answers (pendings body.polls + (i + 1)) i _ ?_
    rw [streamAnswers_eq hbody]
    exact Stream'.getElem?_take hlen
  · intro h
    refine ⟨fun n i a ha => ?_, streamAnswers_enough t body⟩
    obtain ⟨hlen, -⟩ := List.getElem?_eq_some_iff.mp ha
    rw [streamAnswers_eq hbody, Stream'.getElem?_take hlen, h i] at ha
    exact (Option.some.inj ha).symm

/-- One message and a clean end. -/
theorem yieldsOnly_iff {t : RequestSetup} {body : RequestBody} {b m : Bytes}
    (hbody : body.Carries b) : YieldsOnly t body m ↔ t.reading b .eof = ([m], none) := by
  have hone (i : ℕ) : (if i = 0 then some (.ok m) else none : Option (Except ConnectError Bytes)) =
      ([m] : List Bytes)[i]?.map .ok := by
    rcases i with _ | i
    · rfl
    · rfl
  rw [← yields_iff hbody]
  constructor
  · intro h
    refine ⟨fun n i a ha => ?_, h.enough⟩
    rw [← hone]
    exact h.answers n i a ha
  · intro h
    refine ⟨fun n i a ha => ?_, h.enough⟩
    rw [hone]
    exact h.answers n i a ha

/-! ## Agreement -/

/-- A body that is one envelope which the stream decodes as a message. -/
theorem reading_message {t : RequestSetup} {b d : Bytes} {e : Envelope} {header : String}
    (hdecode : decodeWith t.limits b = .ok (some (e, []))) (hend : e.isEndStream = false)
    (hpayload : requestPayload header t.streamingEncoding t.compression t.maxMessageSize e = .ok d) :
    t.reading b .eof = ([d], none) := by
  have hmessage : t.decodeEnvelope e = .ok (.message d) := by
    have hstream : requestPayload "connect-content-encoding" t.streamingEncoding t.compression
        t.maxMessageSize e = .ok d :=
      requestPayload_ok_iff.mpr (requestPayload_ok_iff.mp hpayload)
    rw [RequestSetup.decodeEnvelope, if_neg (by rw [hend]; exact Bool.false_ne_true), hstream]
    rfl
  have hrest : t.reading [] .eof = ([], none) :=
    RequestSetup.reading_none (decodeWith_short (by decide))
  rw [RequestSetup.reading_item _ hdecode, hmessage, hrest]

/-- A body that is one END_STREAM envelope. -/
theorem reading_terminator {t : RequestSetup} {b r : Bytes} {e : Envelope} {bodyEnd : RequestEnd}
    (hdecode : decodeWith t.limits b = .ok (some (e, r))) (hend : e.isEndStream = true) :
    t.reading b bodyEnd = ([], none) := by
  have hdecoded : t.decodeEnvelope e = .ok .endStream := by
    rw [RequestSetup.decodeEnvelope, if_pos hend]
  rw [RequestSetup.reading_item _ hdecode, hdecoded]

/-- What an envelope is decoded as tells whether it is flagged END_STREAM. -/
theorem decodeEnvelope_cases {t : RequestSetup} {e : Envelope} {x : Decoded}
    (h : t.decodeEnvelope e = .ok x) :
    (e.isEndStream = true ∧ x = .endStream) ∨
      (e.isEndStream = false ∧ ∃ d, x = .message d ∧
        requestPayload "connect-content-encoding" t.streamingEncoding t.compression
          t.maxMessageSize e = .ok d) := by
  rw [RequestSetup.decodeEnvelope] at h
  rcases hend : e.isEndStream with _ | _
  · rw [hend, if_neg Bool.false_ne_true] at h
    rcases hpayload : requestPayload "connect-content-encoding" t.streamingEncoding t.compression
      t.maxMessageSize e with err | d
    · rw [hpayload] at h
      cases h
    · rw [hpayload] at h
      exact .inr ⟨rfl, d, (Except.ok.inj h).symm, rfl⟩
  · rw [hend, if_pos rfl] at h
    exact .inl ⟨rfl, (Except.ok.inj h).symm⟩

/-- Some envelope of these bytes is flagged END_STREAM. -/
def HasEndStream (b : Bytes) : Prop :=
  ∃ e ∈ (parse decodeAny b).items, e.isEndStream = true

theorem hasEndStream_item {limitOf : LimitOf} {b r : Bytes} {e : Envelope}
    (h : decodeWith limitOf b = .ok (some (e, r))) (he : e.isEndStream = true ∨ HasEndStream r) :
    HasEndStream b := by
  have hitem : decodeAny b = .ok (some (e, r)) := by
    rw [decodeWith_eq_wire h]
    exact decodeAny_wire (length_of_decodeWith h) r
  have hparse : parse decodeAny b = (parse decodeAny r).prepend [e] :=
    (decodeWith_stable (messageLimit u32Max)).parse_item hitem
  rw [HasEndStream, hparse]
  rcases he with he | ⟨e', hmem, he'⟩
  · exact ⟨e, List.mem_cons_self, he⟩
  · exact ⟨e', List.mem_cons_of_mem _ hmem, he'⟩

/-- Without END_STREAM nothing is read only from nothing. -/
theorem eq_nil_of_reading_nil {t : RequestSetup} {b : Bytes}
    (h : t.reading b .eof = ([], none)) (hno : ¬ HasEndStream b) : b = [] := by
  rcases hdecode : decodeWith t.limits b with err | _ | ⟨e, r⟩
  · rw [RequestSetup.reading_error hdecode] at h
    cases h
  · rw [RequestSetup.reading_none hdecode, RequestSetup.stopError] at h
    by_cases hb : b = []
    · exact hb
    · rw [if_neg hb] at h
      cases h
  · rw [RequestSetup.reading_item _ hdecode] at h
    rcases hdecoded : t.decodeEnvelope e with err | x
    · rw [hdecoded] at h
      cases h
    · obtain ⟨hend, rfl⟩ | ⟨-, d, rfl, -⟩ := decodeEnvelope_cases hdecoded
      · exact absurd (hasEndStream_item hdecode (.inl hend)) hno
      · rw [hdecoded] at h
        cases h

/-- Without END_STREAM one message is read only from its envelope. -/
theorem decodeWith_of_reading {t : RequestSetup} {b m : Bytes}
    (h : t.reading b .eof = ([m], none)) (hno : ¬ HasEndStream b) :
    ∃ e, decodeWith t.limits b = .ok (some (e, [])) ∧
      requestPayload "connect-content-encoding" t.streamingEncoding t.compression
        t.maxMessageSize e = .ok m := by
  rcases hdecode : decodeWith t.limits b with err | _ | ⟨e, r⟩
  · rw [RequestSetup.reading_error hdecode] at h
    cases h
  · rw [RequestSetup.reading_none hdecode] at h
    cases h
  · rw [RequestSetup.reading_item _ hdecode] at h
    rcases hdecoded : t.decodeEnvelope e with err | x
    · rw [hdecoded] at h
      cases h
    · obtain ⟨hend, rfl⟩ | ⟨-, d, rfl, hpayload⟩ := decodeEnvelope_cases hdecoded
      · rw [hdecoded] at h
        cases h
      · rw [hdecoded, Prod.mk.injEq] at h
        obtain ⟨rfl, hnil⟩ := List.cons.inj h.1
        have hrest : t.reading r .eof = ([], none) := Prod.ext hnil h.2
        have hr : r = [] :=
          eq_nil_of_reading_nil hrest fun hr => hno (hasEndStream_item hdecode (.inr hr))
        exact ⟨e, by rw [hr], hpayload⟩

/-- A decoder of whole bodies agrees with the request stream on these bytes: what it
accepts is all that the stream yields, however the bytes are cut, and where no envelope is
flagged END_STREAM the other way round. -/
structure AgreesOn (buffered : RequestSetup → Bytes → Except ConnectError Bytes)
    (t : RequestSetup) (b : Bytes) : Prop where
  /-- what is accepted is yielded -/
  accepted : ∀ m, buffered t b = .ok m → ∀ body, body.Carries b → YieldsOnly t body m
  /-- what is yielded is accepted -/
  yielded : ∀ m body, body.Carries b → YieldsOnly t body m → ¬ HasEndStream b →
    buffered t b = .ok m

/-- The body is one envelope within the limit, flagged END_STREAM; where it is also flagged
compressed, the encoding of the request decompresses it. -/
def LoneTerminator (t : RequestSetup) (b : Bytes) : Prop :=
  ∃ e : Envelope, e.isEndStream = true ∧ b = e.wire ∧ e.data.length ≤ u32Max ∧
    e.data.length ≤ t.maxMessageSize ∧
    (e.isCompressed = true → ∃ name d, t.streamingEncoding = some name ∧ name ≠ "identity" ∧
      t.compression.decompressWithLimit name e.data t.maxMessageSize = .ok d)

/-- The wire form of an envelope within the limit. -/
theorem decodeWith_eq_item_iff {t : RequestSetup} {b : Bytes} {e : Envelope} :
    decodeWith t.limits b = .ok (some (e, [])) ↔
      b = e.wire ∧ e.data.length ≤ u32Max ∧ e.data.length ≤ t.maxMessageSize := by
  constructor
  · intro h
    obtain ⟨-, -, -, -, -, hlimit⟩ := decodeWith_item h
    have hb := decodeWith_eq_wire h
    rw [List.append_nil] at hb
    exact ⟨hb, length_of_decodeWith h, hlimit⟩
  · rintro ⟨rfl, hsize, hlimit⟩
    have h : decodeWith t.limits (e.wire ++ []) = .ok (some (e, [])) :=
      decodeWith_wire [] hsize hlimit
    rwa [List.append_nil] at h

/-- A payload is available unless it is compressed and cannot be decompressed. -/
theorem exists_requestPayload_iff {header : String} {encoding : Option String}
    {compression : CompressionRegistry} {limit : ℕ} {e : Envelope} :
    (∃ d, requestPayload header encoding compression limit e = .ok d) ↔
      (e.isCompressed = true → ∃ name d, encoding = some name ∧ name ≠ "identity" ∧
        compression.decompressWithLimit name e.data limit = .ok d) := by
  constructor
  · rintro ⟨d, hd⟩ hcompressed
    obtain ⟨hplain, -⟩ | ⟨-, name, hname, hid, hdata⟩ := requestPayload_ok_iff.mp hd
    · rw [hplain] at hcompressed
      cases hcompressed
    · exact ⟨name, d, hname, hid, hdata⟩
  · intro h
    rcases hcompressed : e.isCompressed with _ | _
    · exact ⟨e.data, requestPayload_ok_iff.mpr (.inl ⟨hcompressed, rfl⟩)⟩
    · obtain ⟨name, d, hname, hid, hdata⟩ := h hcompressed
      exact ⟨d, requestPayload_ok_iff.mpr (.inr ⟨hcompressed, name, hname, hid, hdata⟩)⟩

/-- **Agreement** of a decoder of whole bodies: on all but a lone terminator. -/
theorem agreesOn_iff (texts : SingleMessageTexts) (header : String) (t : RequestSetup) (b : Bytes) :
    AgreesOn (decodeSingleMessage texts header) t b ↔ ¬ LoneTerminator t b := by
  constructor
  · rintro h ⟨e, hend, hb, hsize, hlimit, hunpack⟩
    obtain ⟨d, hd⟩ := exists_requestPayload_iff.mpr hunpack
    have hdecode : decodeWith t.limits b = .ok (some (e, [])) :=
      decodeWith_eq_item_iff.mpr ⟨hb, hsize, hlimit⟩
    have haccepted : decodeSingleMessage texts header t b = .ok d :=
      decodeSingleMessage_ok_iff.mpr ⟨e, hdecode, hd⟩
    -- the body as one frame
    have hwhole : RequestBody.Carries ⟨[.ready (.data b)], fun _ => false⟩ b := by
      rw [RequestBody.Carries, ready_ready, ready_nil, requestRest, requestRest, List.append_nil]
    have hread := (yieldsOnly_iff hwhole).mp (h.accepted d haccepted _ hwhole)
    rw [reading_terminator hdecode hend] at hread
    cases hread
  · intro h
    refine ⟨fun m hm body hbody => ?_, fun m body hbody hyields hno => ?_⟩
    · obtain ⟨e, hdecode, hd⟩ := decodeSingleMessage_ok_iff.mp hm
      refine (yieldsOnly_iff hbody).mpr (reading_message hdecode ?_ hd)
      rcases hend : e.isEndStream with _ | _
      · rfl
      · obtain ⟨hb, hsize, hlimit⟩ := decodeWith_eq_item_iff.mp hdecode
        exact absurd ⟨e, hend, hb, hsize, hlimit, exists_requestPayload_iff.mp ⟨m, hd⟩⟩ h
    · obtain ⟨e, hdecode, hd⟩ := decodeWith_of_reading ((yieldsOnly_iff hbody).mp hyields) hno
      refine decodeSingleMessage_ok_iff.mpr ⟨e, hdecode, ?_⟩
      exact requestPayload_ok_iff.mpr (requestPayload_ok_iff.mp hd)

/-- **The buffered decoders and the request stream** agree on a body, whatever the protocol,
the encoding and the limit, except where the body is a lone terminator: that is a message
to the buffered decoders, and the end of a request without messages to the stream. -/
theorem single_message_agree (protocol : Protocol) (t : RequestSetup) (b : Bytes) :
    (AgreesOn (grpcUnaryRequestBody protocol) t b ↔ ¬ LoneTerminator t b) ∧
      (AgreesOn (serverStreamingRequestBody protocol) t b ↔ ¬ LoneTerminator t b) :=
  ⟨agreesOn_iff _ _ t b, agreesOn_iff _ _ t b⟩

/-- An empty END_STREAM envelope is a message to the buffered decoders only. -/
theorem terminator_accepted :
    grpcUnaryRequestBody .grpc ⟨4, none, .new⟩ [0x02, 0, 0, 0, 0] = .ok [] ∧
      serverStreamingRequestBody .connect ⟨4, none, .new⟩ [0x02, 0, 0, 0, 0] = .ok [] ∧
      ¬ AgreesOn (grpcUnaryRequestBody .grpc) ⟨4, none, .new⟩ [0x02, 0, 0, 0, 0] ∧
      ¬ AgreesOn (serverStreamingRequestBody .connect) ⟨4, none, .new⟩ [0x02, 0, 0, 0, 0] := by
  have hitem : decodeWith (RequestSetup.limits ⟨4, none, .new⟩) [0x02, 0, 0, 0, 0] =
      .ok (some (⟨0x02, []⟩, [])) :=
    decodeWith_eq_item_iff.mpr ⟨by decide, by decide, by decide⟩
  have hpayload : ∀ header, requestPayload header none .new 4 ⟨0x02, []⟩ = .ok [] := fun _ => rfl
  have hlone : LoneTerminator ⟨4, none, .new⟩ [0x02, 0, 0, 0, 0] := by
    refine ⟨⟨0x02, []⟩, by decide, by decide, by decide, by decide, ?_⟩
    intro hcompressed
    exact absurd hcompressed (by decide)
  refine ⟨?_, ?_, ?_, ?_⟩
  · exact decodeSingleMessage_ok_iff.mpr ⟨_, hitem, hpayload _⟩
  · exact decodeSingleMessage_ok_iff.mpr ⟨_, hitem, hpayload _⟩
  · intro h
    exact (agreesOn_iff _ _ _ _).mp h hlone
  · intro h
    exact (agreesOn_iff _ _ _ _).mp h hlone

end ConnectRpc
