import ConnectRpc.ServerStream

/-!
# Clean ends of a response stream

A stream ends cleanly when what ends it says so. `planEnd_cases` lists what can end
a stream: an envelope that is not a message, a failure of decoding, or the body.
From it follows when a gRPC stream ends cleanly without a status having been
received, and when one ends cleanly in the middle of an envelope.
-/

namespace ConnectRpc

open Lib

variable (cr : Crates) {α : Type}

namespace StreamSetup

variable (s : StreamSetup α)

/-- Whether an envelope is a message that can be decoded. -/
def isMessage (e : Envelope) : Bool :=
  !s.isTrailerFrame e && !e.isEndStream && ((s.decompressEnvelope e).bind s.decode).isOk

/-- The end an envelope that is not a message brings. -/
def endBy (sawBodyData : Bool) (e : Envelope) : StreamEnd :=
  if s.isTrailerFrame e then s.classifyGrpcEnd cr sawBodyData (s.frameTrailers cr e)
  else if e.isEndStream then s.processEndStream cr e
  else
    match (s.decompressEnvelope e).bind s.decode with
    | .error err => .ofError err
    | .ok _ => ⟨none, none⟩

theorem dispatch_message (sawBodyData : Bool) {e : Envelope} (h : s.isMessage e = true) :
    ∃ msg, s.dispatch cr sawBodyData e = .ok msg ∧
      (s.decompressEnvelope e).bind s.decode = .ok msg := by
  simp only [isMessage, Bool.and_eq_true, Bool.not_eq_true'] at h
  obtain ⟨⟨h1, h2⟩, h3⟩ := h
  rcases hd : (s.decompressEnvelope e).bind s.decode with err | msg
  · rw [hd] at h3
    cases h3
  · refine ⟨msg, ?_, rfl⟩
    rw [dispatch, h1, h2, hd]
    rfl

theorem dispatch_end {sawBodyData : Bool} {e : Envelope} (h : s.isMessage e = false) :
    s.dispatch cr sawBodyData e = .error (s.endBy cr sawBodyData e) := by
  rw [dispatch, endBy]
  by_cases h1 : s.isTrailerFrame e = true
  · rw [if_pos h1, if_pos h1]
  · by_cases h2 : e.isEndStream = true
    · rw [if_neg h1, if_neg h1, if_pos h2, if_pos h2]
    · rw [if_neg h1, if_neg h1, if_neg h2, if_neg h2]
      rcases hd : (s.decompressEnvelope e).bind s.decode with err | msg
      · rfl
      · exfalso
        have h1' : s.isTrailerFrame e = false := by simpa using h1
        have h2' : e.isEndStream = false := by simpa using h2
        rw [isMessage, h1', h2', hd] at h
        cases h

/-- What ends a stream: the first envelope that is not a message, or how decoding
and the body stop. -/
theorem plan_end (sawBodyData : Bool) (stop : Stop UInt8 ConnectError) (bodyEnd : BodyEnd) :
    ∀ es : List Envelope, (s.plan cr sawBodyData stop bodyEnd es).2 =
      match es.dropWhile s.isMessage with
      | [] => s.endOf cr sawBodyData stop bodyEnd
      | e :: _ => s.endBy cr sawBodyData e := by
  intro es
  induction es with
  | nil => rfl
  | cons e es ih =>
    rcases h : s.isMessage e with _ | _
    · rw [List.dropWhile_cons_of_neg (by simp [h]), plan, dispatch_end cr s h]
    · obtain ⟨msg, hd, -⟩ := s.dispatch_message cr sawBodyData h
      rw [List.dropWhile_cons_of_pos h, plan, hd]
      exact ih

/-- The first envelope among these that is not a message, if there is one. -/
def firstEnd (es : List Envelope) : Option Envelope :=
  (es.dropWhile s.isMessage).head?

theorem not_isMessage_firstEnd {es : List Envelope} {e : Envelope} (h : s.firstEnd es = some e) :
    s.isMessage e = false := by
  have hnot := List.head?_dropWhile_not s.isMessage es
  rw [firstEnd] at h
  rw [h] at hnot
  simpa using hnot

/-! ## gRPC -/

/-- A status of 0 that ended the stream: in the HTTP trailers, with every envelope
before them a message; in the trailer frame that was the first envelope not a
message; or in the headers of a response without data. -/
def StatusReceived (body : List BodyEvent) : Prop :=
  let data := (bodyRest s.protocol body).1
  let found := s.decoded data
  (s.firstEnd found.items = none ∧ (∃ r, found.stop = .rest r) ∧
      ∃ trailers, (bodyRest s.protocol body).2 = .trailers trailers ∧ StatusOk trailers) ∨
    (∃ e, s.firstEnd found.items = some e ∧ s.isTrailerFrame e = true ∧
      ∃ trailers, s.frameTrailers cr e = some trailers ∧ StatusOk trailers) ∨
    (data = [] ∧ StatusOk s.headers)

/-- Whether an envelope is an error-free END_STREAM of Connect. -/
def isCleanEndStream (e : Envelope) : Prop :=
  e.isEndStream = true ∧ s.isTrailerFrame e = false ∧
    ∃ data endStream, s.decompressEnvelope e = .ok data ∧
      parseConnectEndStream cr data = .ok endStream ∧ endStream.error.isNone

theorem processEndStream_clean_iff (e : Envelope) :
    (s.processEndStream cr e).outcome = none ↔ ∃ data endStream,
      s.decompressEnvelope e = .ok data ∧ parseConnectEndStream cr data = .ok endStream ∧
        endStream.error.isNone := by
  rw [processEndStream]
  rcases hd : s.decompressEnvelope e with err | data
  · simp [StreamEnd.ofError]
  · rcases hp : parseConnectEndStream cr data with err | endStream
    · simp [StreamEnd.ofError, hp]
    · simp [hp]

/-- When the classification finds a clean end, for headers that bring no error
themselves. -/
theorem classifyGrpcEnd_clean_iff (sawBodyData : Bool) (trailers : Option HeaderMap)
    (hheaders : parseGrpcErrorFromTrailers cr s.headers = none) :
    (s.classifyGrpcEnd cr sawBodyData trailers).outcome = none ↔
      (∃ t, trailers = some t ∧ StatusOk t) ∨
        (sawBodyData = false ∧ StatusOk s.headers ∧
          ∀ t, trailers = some t → parseGrpcErrorFromTrailers cr t = none) := by
  have hok : ∀ m : HeaderMap, parseGrpcErrorFromTrailers cr m = none →
      (m.contains hdr.grpcStatus = true ↔ StatusOk m) := by
    intro m hm
    exact ⟨statusOk_of_none cr hm, contains_of_statusOk⟩
  have hlast : ∀ (late present : Bool) (e1 e2 e3 : ConnectError),
      (if late then some e1 else if present then some e2 else some e3) ≠ none := by
    intro late present e1 e2 e3
    cases late <;> cases present <;> simp
  rw [classifyGrpcEnd]
  rcases trailers with _ | t
  · simp only [Option.bind_none, Option.any_none, Bool.false_or, Bool.and_eq_true,
      Bool.not_eq_true', hok _ hheaders]
    split
    · rename_i h
      exact ⟨fun _ => .inr ⟨h.1, h.2, by simp⟩, fun _ => rfl⟩
    · rename_i h
      refine ⟨fun hn => absurd hn (hlast _ _ _ _ _), ?_⟩
      rintro (⟨t, ht, -⟩ | ⟨h1, h2, -⟩)
      · cases ht
      · exact absurd ⟨h1, h2⟩ h
  · rcases ht : parseGrpcErrorFromTrailers cr t with _ | err
    · simp only [Option.bind_some, ht, Option.any_some, Bool.or_eq_true, Bool.and_eq_true,
        Bool.not_eq_true', hok _ hheaders, hok t ht]
      split
      · rename_i h
        refine ⟨fun _ => ?_, fun _ => rfl⟩
        rcases h with h | ⟨h1, h2⟩
        · exact .inl ⟨t, rfl, h⟩
        · refine .inr ⟨h1, h2, fun t' ht' => ?_⟩
          obtain rfl := Option.some.inj ht'
          exact ht
      · rename_i h
        refine ⟨fun hn => absurd hn (hlast _ _ _ _ _), ?_⟩
        rintro (⟨t', ht', h1⟩ | ⟨h1, h2, -⟩)
        · obtain rfl := Option.some.inj ht'
          exact absurd (.inl h1) h
        · exact absurd (.inr ⟨h1, h2⟩) h
    · simp only [Option.bind_some, ht]
      constructor
      · intro h
        cases h
      · rintro (⟨t', ht', h1⟩ | ⟨-, -, h2⟩)
        · obtain rfl := Option.some.inj ht'
          have := (parseGrpcErrorFromTrailers_none_iff cr t).mpr (.inr h1)
          rw [ht] at this
          cases this
        · have := h2 t rfl
          rw [ht] at this
          cases this

end StreamSetup

/-- What a stream made from a response will read. -/
theorem toRead_makeServerStream {c : CallConfig α} {response : Response (List BodyEvent)}
    {late : Bool} {s : ServerStream α} (hs : makeServerStream cr c response late = .ok s) :
    s.Live ∧ s.toStreamSetup = c.setup response.headers late ∧
      s.toRead cr = s.reading cr response.body := by
  obtain ⟨rfl, -, -⟩ := makeServerStream_ok cr hs
  exact ⟨ServerStream.start_live _ _, rfl, ServerStream.toRead_start cr _ _⟩

/-- What ends the stream of a response, for a protocol of the gRPC family. -/
theorem reading_end {t : StreamSetup α} (body : List BodyEvent) :
    (t.reading cr body).2 =
      match t.firstEnd (t.decoded (bodyRest t.protocol body).1).items with
      | some e => t.endBy cr true e
      | none => t.endOf cr (!(bodyRest t.protocol body).1.isEmpty)
          (t.decoded (bodyRest t.protocol body).1).stop (bodyRest t.protocol body).2 := by
  rw [StreamSetup.reading, StreamSetup.readingOf, StreamSetup.plan_end, StreamSetup.firstEnd]
  rcases hd : ((t.decoded (bodyRest t.protocol body).1).items).dropWhile t.isMessage with _ | ⟨e, es⟩
  · rfl
  · have hne : (bodyRest t.protocol body).1 ≠ [] := by
      intro h0
      rw [h0, ServerStream.decoded_nil] at hd
      cases hd
    have hsaw : (!(bodyRest t.protocol body).1.isEmpty) = true := by simpa using hne
    rw [hsaw]
    rfl

/-- **Soundness of a clean end.** For every response of gRPC or gRPC-Web whose head
is accepted, a clean end means that a status of 0 was received, if and only if the
stream is not ended by an error-free END_STREAM envelope of Connect. -/
theorem clean_end_status_received_iff {c : CallConfig α} {response : Response (List BodyEvent)}
    {late : Bool} {s : ServerStream α} (hp : c.protocol ≠ .connect)
    (hs : makeServerStream cr c response late = .ok s) :
    (∀ n, .ok none ∈ s.answers cr n → s.StatusReceived cr response.body) ↔
      ∀ e, s.firstEnd (s.decoded (bodyRest s.protocol response.body).1).items = some e →
        ¬ s.isCleanEndStream cr e := by
  obtain ⟨hlive, hsetup, hread⟩ := toRead_makeServerStream cr hs
  obtain ⟨-, -, hheaders⟩ := makeServerStream_ok cr hs
  have hheaders : parseGrpcErrorFromTrailers cr s.headers = none := by
    rw [hsetup]
    exact hheaders hp
  have hproto : s.protocol ≠ .connect := by
    rw [hsetup]
    exact hp
  have hclean := ServerStream.clean_answer_iff cr hlive
  rw [hread, reading_end] at hclean
  have hall : (∀ n, .ok none ∈ s.answers cr n → s.StatusReceived cr response.body) ↔
      ((∃ n, .ok none ∈ s.answers cr n) → s.StatusReceived cr response.body) :=
    ⟨fun h ⟨n, hn⟩ => h n hn, fun h n hn => h ⟨n, hn⟩⟩
  rw [hall, hclean]
  rcases hfirst : s.firstEnd (s.decoded (bodyRest s.protocol response.body).1).items with _ | e
  · -- the data or the body ends the stream
    simp only [reduceCtorEq, false_implies, implies_true, iff_true]
    rcases hstop : (s.decoded (bodyRest s.protocol response.body).1).stop with err | r
    · intro h
      cases h
    · rcases hend : (bodyRest s.protocol response.body).2 with _ | t | err | _
      · rw [StreamSetup.endOf, StreamSetup.endOfBody, if_neg hproto,
          StreamSetup.classifyGrpcEnd_clean_iff cr _ _ _ hheaders]
        rintro (⟨t, ht, -⟩ | ⟨hdata, hok, -⟩)
        · cases ht
        · exact .inr (.inr ⟨by simpa using hdata, hok⟩)
      · rw [StreamSetup.endOf, StreamSetup.endOfBody,
          StreamSetup.classifyGrpcEnd_clean_iff cr _ _ _ hheaders]
        rintro (⟨t', ht', hok⟩ | ⟨hdata, hok, -⟩)
        · obtain rfl := Option.some.inj ht'
          exact .inl ⟨hfirst, ⟨r, hstop⟩, t, hend, hok⟩
        · exact .inr (.inr ⟨by simpa using hdata, hok⟩)
      · intro h
        cases h
      · intro h
        cases h
  · -- an envelope ends the stream
    have hnot := StreamSetup.not_isMessage_firstEnd _ hfirst
    simp only [Option.some.injEq, forall_eq']
    constructor
    · rintro h ⟨hend, hframe, hdata⟩
      have hno : (s.endBy cr true e).outcome = none := by
        rw [StreamSetup.endBy, if_neg (by simp [hframe]), if_pos hend,
          StreamSetup.processEndStream_clean_iff]
        exact hdata
      rcases h hno with ⟨hnone, -⟩ | ⟨e', he', hframe', -⟩ | ⟨hdata, -⟩
      · rw [hfirst] at hnone
        cases hnone
      · rw [hfirst] at he'
        obtain rfl := Option.some.inj he'
        rw [hframe] at hframe'
        cases hframe'
      · rw [hdata, ServerStream.decoded_nil] at hfirst
        cases hfirst
    · intro h hno
      rw [StreamSetup.endBy] at hno
      by_cases hframe : s.isTrailerFrame e = true
      · rw [if_pos hframe, StreamSetup.classifyGrpcEnd_clean_iff cr _ _ _ hheaders] at hno
        rcases hno with ⟨t, ht, hok⟩ | ⟨hsaw, -⟩
        · exact .inr (.inl ⟨e, hfirst, hframe, t, ht, hok⟩)
        · cases hsaw
      · rw [if_neg hframe] at hno
        by_cases hend : e.isEndStream = true
        · rw [if_pos hend, StreamSetup.processEndStream_clean_iff] at hno
          exact absurd ⟨hend, by simpa using hframe, hno⟩ h
        · rw [if_neg hend] at hno
          have hframe' : s.isTrailerFrame e = false := by simpa using hframe
          have hend' : e.isEndStream = false := by simpa using hend
          rcases hd : (s.decompressEnvelope e).bind s.decode with err | msg
          · rw [hd] at hno
            cases hno
          · rw [StreamSetup.isMessage, hframe', hend', hd] at hnot
            cases hnot

/-- A gRPC client that keeps messages as bytes. -/
def grpcClient : CallConfig Bytes where
  protocol := .grpc
  compression := .new
  codecFormat := .proto
  maxMessageSize := none
  decode := .ok

/-- A gRPC response whose body is an END_STREAM envelope with an empty record. -/
def endStreamReply : Response (List BodyEvent) :=
  ⟨.ok, .empty, [.data [2, 0, 0, 0, 2, 123, 125]]⟩

/-- An empty record is a clean end. -/
theorem parseConnectEndStream_empty :
    parseConnectEndStream .std [123, 125] = .ok ⟨none, none⟩ :=
  parseConnectEndStream_success .std .empty

/-- The stream of that response ends cleanly without any status. -/
theorem endStreamReply_clean :
    ¬ ∀ n, .ok none ∈ (ServerStream.start (grpcClient.setup .empty false)
        endStreamReply.body).answers .std n →
      (grpcClient.setup .empty false).StatusReceived .std endStreamReply.body := by
  intro h
  have hfirst : (grpcClient.setup .empty false).firstEnd
      ((grpcClient.setup .empty false).decoded [2, 0, 0, 0, 2, 123, 125]).items =
        some ⟨2, [123, 125]⟩ := by decide
  have hclean : ((ServerStream.start (grpcClient.setup .empty false)
      endStreamReply.body).toRead .std).2.outcome = none := by
    rw [ServerStream.toRead_start, reading_end]
    have hdata : bodyRest (grpcClient.setup .empty false).protocol endStreamReply.body =
        ([2, 0, 0, 0, 2, 123, 125], .eof) := rfl
    rw [hdata, hfirst]
    exact (StreamSetup.processEndStream_clean_iff .std (grpcClient.setup .empty false)
      ⟨2, [123, 125]⟩).mpr ⟨_, _, rfl, parseConnectEndStream_empty, rfl⟩
  obtain ⟨n, hn⟩ :=
    (ServerStream.clean_answer_iff .std (ServerStream.start_live _ _)).mpr hclean
  rcases h n hn with ⟨hnone, -⟩ | ⟨e, he, hframe, -⟩ | ⟨hdata, -⟩
  · cases hfirst.symm.trans hnone
  · cases hframe
  · cases hdata

/-- A gRPC response that only has trailers, with a status of 0. -/
def trailersReply : Response (List BodyEvent) :=
  ⟨.ok, .empty, [.trailers ⟨[(hdr.grpcStatus, .ofNat 0)]⟩]⟩

/-- Reading that response ends cleanly, and a status was received. -/
theorem trailersReply_status_received :
    (∃ n, .ok none ∈ (ServerStream.start (grpcClient.setup .empty false)
      trailersReply.body).answers .std n) ∧
      (grpcClient.setup .empty false).StatusReceived .std trailersReply.body := by
  have hs : makeServerStream .std grpcClient trailersReply false =
      .ok (.start (grpcClient.setup .empty false) trailersReply.body) := rfl
  have hp : grpcClient.protocol ≠ .connect := by decide
  have hclean : ((ServerStream.start (grpcClient.setup .empty false)
      trailersReply.body).toRead .std).2.outcome = none := by
    rw [ServerStream.toRead_start]
    rfl
  obtain ⟨n, hn⟩ :=
    (ServerStream.clean_answer_iff .std (ServerStream.start_live _ _)).mpr hclean
  refine ⟨⟨n, hn⟩, (clean_end_status_received_iff .std hp hs).mpr ?_ n hn⟩
  intro e he
  cases he

end ConnectRpc
