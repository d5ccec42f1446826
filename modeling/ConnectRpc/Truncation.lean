import ConnectRpc.CleanEnd
import ConnectRpc.UnaryClient

/-!
# Truncated responses

A response whose data stops inside an envelope was cut off. This file says exactly
when a client reports such a response of the gRPC family as a success: on a stream,
when HTTP trailers with a status of 0 follow the cut; on a unary call, when the cut
comes after the message and the same trailers follow.
-/

namespace ConnectRpc

open Lib

variable (cr : Crates) {α : Type}

/-! ## Streams -/

namespace StreamSetup

variable (s : StreamSetup α)

/-- The data before what ends a stream: up to the first envelope that is not a
message, or all of it. -/
def beforeEnd (body : List BodyEvent) : Bytes :=
  let data := (bodyRest s.protocol body).1
  match s.firstEnd (s.decoded data).items with
  | none => data
  | some _ => ((s.decoded data).items.takeWhile s.isMessage).flatMap Envelope.wire

/-- What stands before an envelope that ends a stream is whole envelopes. -/
theorem wholeEnvelopes_beforeEnd {body : List BodyEvent} {e : Envelope}
    (h : s.firstEnd (s.decoded (bodyRest s.protocol body).1).items = some e) :
    WholeEnvelopes (s.beforeEnd body) := by
  rw [beforeEnd, h]
  refine wholeEnvelopes_iff.mpr ⟨_, fun x hx => ?_, rfl⟩
  exact (decodeWith_stable s.limits).parse_forall (P := fun x => x.data.length ≤ u32Max)
    length_of_decodeWith _ x ((List.takeWhile_prefix _).subset hx)

/-- HTTP trailers with a status of 0 behind an incomplete envelope, all envelopes
before it being messages. -/
structure CutByTrailers (body : List BodyEvent) : Prop where
  /-- every envelope is a message -/
  messages : s.firstEnd (s.decoded (bodyRest s.protocol body).1).items = none
  /-- something is left over -/
  cut : ∃ r, (s.decoded (bodyRest s.protocol body).1).stop = .rest r ∧ r ≠ []
  /-- the trailers come next, with a status of 0 -/
  trailers : ∃ t, (bodyRest s.protocol body).2 = .trailers t ∧ StatusOk t

end StreamSetup

/-- On a stream: a clean end comes after whole envelopes, unless trailers with a
status of 0 cut one short. -/
theorem stream_truncated_iff {c : CallConfig α} {response : Response (List BodyEvent)} {late : Bool}
    {s : ServerStream α} (hp : c.protocol ≠ .connect)
    (hs : makeServerStream cr c response late = .ok s) :
    (∀ n, .ok none ∈ s.answers cr n → WholeEnvelopes (s.beforeEnd response.body)) ↔
      ¬ s.CutByTrailers response.body := by
  obtain ⟨hlive, hsetup, hread⟩ := toRead_makeServerStream cr hs
  obtain ⟨-, -, hheaders⟩ := makeServerStream_ok cr hs
  have hheaders : parseGrpcErrorFromTrailers cr s.headers = none := by
    rw [hsetup]
    exact hheaders hp
  have hproto : s.protocol ≠ .connect := by
    rw [hsetup]
    exact hp
  have hclean := ServerStream.clean_answer_iff cr hlive
  rw [hread, reading_end] at hclean
  have hall : (∀ n, .ok none ∈ s.answers cr n → WholeEnvelopes (s.beforeEnd response.body)) ↔
      ((∃ n, .ok none ∈ s.answers cr n) → WholeEnvelopes (s.beforeEnd response.body)) :=
    ⟨fun h ⟨n, hn⟩ => h n hn, fun h n hn => h ⟨n, hn⟩⟩
  rw [hall, hclean]
  rcases hfirst : s.firstEnd (s.decoded (bodyRest s.protocol response.body).1).items with _ | e
  · have hbefore : s.beforeEnd response.body = (bodyRest s.protocol response.body).1 := by
      rw [StreamSetup.beforeEnd, hfirst]
    rw [hbefore]
    rcases hstop : (s.decoded (bodyRest s.protocol response.body).1).stop with err | r
    · refine ⟨fun _ h => ?_, fun _ h => by cases h⟩
      obtain ⟨r, hr, -⟩ := h.cut
      rw [hstop] at hr
      cases hr
    · have hwhole : WholeEnvelopes (bodyRest s.protocol response.body).1 ↔ r = [] :=
        wholeEnvelopes_of_rest hstop
      have hempty : (!(bodyRest s.protocol response.body).1.isEmpty) = false → r = [] := by
        intro h
        have hdata : (bodyRest s.protocol response.body).1 = [] := by simpa using h
        rw [hdata, ServerStream.decoded_nil] at hstop
        cases hstop
        rfl
      rw [hwhole]
      constructor
      · rintro h ⟨-, ⟨r', hr', hne⟩, t, ht, hok⟩
        rw [hstop] at hr'
        cases hr'
        refine hne (h ?_)
        rw [StreamSetup.endOf, ht, StreamSetup.endOfBody,
          StreamSetup.classifyGrpcEnd_clean_iff cr _ _ _ hheaders]
        exact .inl ⟨t, rfl, hok⟩
      · intro h
        rcases hend : (bodyRest s.protocol response.body).2 with _ | t | err | _
        · rw [StreamSetup.endOf, StreamSetup.endOfBody, if_neg hproto,
            StreamSetup.classifyGrpcEnd_clean_iff cr _ _ _ hheaders]
          rintro (⟨t, ht, -⟩ | ⟨hsaw, -⟩)
          · cases ht
          · exact hempty hsaw
        · rw [StreamSetup.endOf, StreamSetup.endOfBody,
            StreamSetup.classifyGrpcEnd_clean_iff cr _ _ _ hheaders]
          rintro (⟨t', ht', hok⟩ | ⟨hsaw, -⟩)
          · obtain rfl := Option.some.inj ht'
            by_contra hne
            exact h ⟨hfirst, ⟨r, hstop, hne⟩, t, hend, hok⟩
          · exact hempty hsaw
        · intro h
          cases h
        · intro h
          cases h
  · refine ⟨fun _ h => ?_, fun _ _ => s.wholeEnvelopes_beforeEnd hfirst⟩
    cases hfirst.symm.trans h.messages

/-! ## Unary calls -/

/-- The data of a unary response before the termination metadata: up to the first
complete trailer frame on gRPC-Web, or all of it. -/
def unaryBeforeEnd (protocol : Protocol) (body : List BodyEvent) : Bytes :=
  if protocol = .grpcWeb ∧ hasTrailerFrame (allData body) = true then
    ((parse decodeAny (allData body)).items.takeWhile (fun e => !e.isGrpcWebTrailer)).flatMap
      Envelope.wire
  else allData body

/-- What is left after the message is an envelope cut short: a trailer frame on
gRPC-Web, or an envelope within the limit. -/
def CutShort (c : CallConfig α) (r : Bytes) : Prop :=
  r ≠ [] ∧
    if trailerFlagged r = true then c.protocol = .grpcWeb ∧ decodeAny r = .ok none
    else decodeWithLimit c.messageLimit r = .ok none

/-- A successful response whose body is one message, an envelope cut short, and HTTP
trailers with a status of 0. -/
structure UnaryCut (c : CallConfig α) (response : Response (List BodyEvent)) : Prop where
  /-- the head is accepted -/
  head : checkGrpcResponseHead response.status response.headers c.protocol c.codecFormat = .ok ()
  /-- the HTTP status is a success -/
  success : response.status.isSuccess = true
  /-- the encoding is known -/
  encoding : unsupportedEncoding c response.headers = none
  /-- the body comes to its end -/
  frames : response.body.all BodyEvent.isFrame = true
  /-- and fits the buffer -/
  fits : (allData response.body).length ≤ maxUnaryBuffer c
  /-- the message, and what is left after it -/
  cut : ∃ env r d m, decodeWithLimit c.messageLimit (allData response.body) = .ok (some (env, r)) ∧
    env.isGrpcWebTrailer = false ∧
    unaryEnvelopeData c (grpcEncodingOf response.headers) env = .ok d ∧
    c.maxMessageSize.any (fun limit => limit < d.length) = false ∧ c.decode d = .ok m ∧
    CutShort c r
  /-- the status is OK -/
  status : StatusOk (lastTrailers .empty response.body)

theorem CutShort.incomplete {c : CallConfig α} {r : Bytes} (h : CutShort c r) :
    decodeAny r = .ok none := by
  obtain ⟨-, h⟩ := h
  split at h
  · exact h.2
  · rw [decodeWithLimit, decodeContiguous_eq] at h
    exact decodeAny_of_none h

/-- An envelope and an incomplete one: what decoding leaves. -/
theorem parse_decodeAny_cut {c : CallConfig α} {b r : Bytes} {env : Envelope}
    (h : decodeWithLimit c.messageLimit b = .ok (some (env, r))) :
    parse decodeAny b = (parse decodeAny r).prepend [env] := by
  rw [decodeWithLimit, decodeContiguous_eq] at h
  have hwire := decodeWith_eq_wire h
  rw [hwire]
  exact (decodeWith_stable _).parse_item (decodeAny_wire (length_of_decodeWith h) r)

/-- What a trailer frame cut short leaves of the trailers. -/
theorem CutShort.afterMessage {c : CallConfig α} {r : Bytes} {encoding : Option String}
    {trailers : HeaderMap} (h : CutShort c r) :
    AfterMessage cr c encoding trailers r trailers := by
  have hnone := h.incomplete
  obtain ⟨hne, h⟩ := h
  rcases hflag : trailerFlagged r with _ | _
  · rw [hflag, if_neg Bool.false_ne_true] at h
    exact .inr (.inr ⟨hne, hflag, h, rfl⟩)
  · rw [hflag, if_pos rfl] at h
    refine .inr (.inl ⟨hne, hflag, h.1, ?_⟩)
    rw [parseGrpcWebTrailerFrame_incomplete cr hnone]
    rfl

/-- What follows the message, where no trailer frame is complete: nothing, or an
envelope cut short; the trailers are the HTTP ones. -/
theorem AfterMessage.cut {c : CallConfig α} {encoding : Option String} {trailers t : HeaderMap}
    {r : Bytes} (h : AfterMessage cr c encoding trailers r t)
    (hno : c.protocol = .grpcWeb → hasTrailerFrame r = false) :
    t = trailers ∧ (r = [] ∨ CutShort c r) := by
  rcases h with ⟨rfl, rfl⟩ | ⟨hne, hflag, hp, rfl⟩ | ⟨hne, hflag, hnone, rfl⟩
  · exact ⟨rfl, .inl rfl⟩
  · have hnone : decodeAny r = .ok none := by
      rcases hd : decodeAny r with e | _ | ⟨env, r'⟩
      · exfalso
        rw [decodeAny, decodeWith] at hd
        split at hd
        · cases hd
        · simp only at hd
          split at hd
          · rename_i hlarge
            exact absurd (fromBeBytes_le _) (Nat.not_le.mpr hlarge)
          · split at hd <;> cases hd
      · rfl
      · exfalso
        have hstable := decodeWith_stable (messageLimit u32Max)
        have hparse : parse decodeAny r = _ := hstable.parse_item hd
        have hframe : env.isGrpcWebTrailer = trailerFlagged r := by
          rw [decodeWith_eq_wire hd]
          rfl
        have hfalse := hno hp
        rw [hasTrailerFrame, hparse, Parsed.items_prepend, List.singleton_append, List.any_cons,
          hframe, hflag, Bool.true_or] at hfalse
        cases hfalse
    refine ⟨?_, .inr ⟨hne, ?_⟩⟩
    · rw [parseGrpcWebTrailerFrame_incomplete cr hnone]
      rfl
    · rw [if_pos hflag]
      exact ⟨hp, hnone⟩
  · refine ⟨rfl, .inr ⟨hne, ?_⟩⟩
    rw [hflag, if_neg Bool.false_ne_true]
    exact hnone

/-- On a unary call: a success comes with whole envelopes, unless an envelope is cut
short after the message and trailers with a status of 0 follow. -/
theorem unary_truncated_iff (c : CallConfig α) (response : Response (List BodyEvent)) (late : Bool) :
    (∀ u, parseGrpcUnaryResponse cr c response late = .ok u →
        WholeEnvelopes (unaryBeforeEnd c.protocol response.body)) ↔
      ¬ UnaryCut c response := by
  by_cases hframe : c.protocol = .grpcWeb ∧ hasTrailerFrame (allData response.body) = true
  · -- a complete trailer frame
    refine ⟨fun _ h => ?_, fun _ u _ => ?_⟩
    · obtain ⟨env, r, d, m, hdec, hnot, -, -, -, hcut⟩ := h.cut
      have htrue := hframe.2
      have hnone : parse decodeAny r = ⟨[], .rest r⟩ := parse_none hcut.incomplete
      rw [hasTrailerFrame, parse_decodeAny_cut hdec, hnone] at htrue
      simp [hnot] at htrue
    · rw [unaryBeforeEnd, if_pos hframe]
      refine wholeEnvelopes_iff.mpr ⟨_, fun x hx => ?_, rfl⟩
      exact (decodeWith_stable _).parse_forall (P := fun x => x.data.length ≤ u32Max)
        length_of_decodeWith _ x ((List.takeWhile_prefix _).subset hx)
  · rw [unaryBeforeEnd, if_neg hframe]
    have hno : c.protocol = .grpcWeb → hasTrailerFrame (allData response.body) = false := by
      intro hp
      simpa using fun h => hframe ⟨hp, h⟩
    have hread : ∀ b, readUnaryBody c.protocol (maxUnaryBuffer c) true late ⟨[], .empty, false⟩
        response.body = .ok b ↔ response.body.all BodyEvent.isFrame = true ∧
          (allData response.body).length ≤ maxUnaryBuffer c ∧
            b = ⟨allData response.body, lastTrailers .empty response.body,
              !(allData response.body).isEmpty⟩ := by
      intro b
      have hbuf : (⟨[], .empty, false⟩ : UnaryBody).buf.length ≤ maxUnaryBuffer c := Nat.zero_le _
      simpa using readUnaryBody_iff response.body ⟨[], .empty, false⟩ hbuf hno
    constructor
    · intro h hcut
      obtain ⟨env, r, d, m, hdec, hnot, hdata, hsize, hm, hshort⟩ := hcut.cut
      have hne : (allData response.body).isEmpty = false := by
        rcases hb : allData response.body with _ | ⟨x, xs⟩
        · rw [hb] at hdec
          cases hdec
        · rfl
      have hok : parseGrpcUnaryResponse cr c response late =
          .ok ⟨response.headers, m, lastTrailers .empty response.body⟩ := by
        refine (parseGrpcUnaryResponse_ok_iff cr).mpr ⟨hcut.head, hcut.encoding, ?_⟩
        rw [hcut.success]
        refine ⟨_, some d, _, (hread _).mpr ⟨hcut.frames, hcut.fits, rfl⟩,
          (decodeUnaryBody_none_iff cr).mpr ⟨env, r, hdec, hnot, hdata, hshort.afterMessage cr⟩,
          (finishUnary_iff cr).mpr ⟨hcut.success, ?_, d, m, rfl, hsize, hm, rfl⟩⟩
        rw [hne, Bool.not_false, Bool.not_true, Bool.and_false, if_neg Bool.false_ne_true]
        exact hcut.status
      have hwhole := h _ hok
      have hnone : parse decodeAny r = ⟨[], .rest r⟩ := parse_none hshort.incomplete
      rw [WholeEnvelopes, parse_decodeAny_cut hdec, hnone] at hwhole
      cases hwhole
      exact hshort.1 rfl
    · intro hcut u hu
      obtain ⟨hhead, hencoding, b, message, t, hb, hd, hf⟩ :=
        (parseGrpcUnaryResponse_ok_iff cr).mp hu
      obtain ⟨hsuccess, hstatus, d, m, rfl, hsize, hm, -⟩ := (finishUnary_iff cr).mp hf
      rw [hsuccess, hread] at hb
      obtain ⟨hframes, hfits, rfl⟩ := hb
      obtain ⟨env, r, hdec, hnot, hdata, hafter⟩ := (decodeUnaryBody_none_iff cr).mp hd
      have hparse := parse_decodeAny_cut hdec
      have hno' : c.protocol = .grpcWeb → hasTrailerFrame r = false := by
        intro hp
        have hfalse := hno hp
        rw [hasTrailerFrame, hparse, Parsed.items_prepend, List.any_append, Bool.or_eq_false_iff]
          at hfalse
        exact hfalse.2
      obtain ⟨rfl, rfl | hshort⟩ := hafter.cut cr hno'
      · rw [WholeEnvelopes, hparse, Parsed.stop_prepend, decodeAny,
          parse_none (decodeWith_short (by decide))]
      · refine absurd ⟨hhead, hsuccess, hencoding, hframes, hfits,
          ⟨env, r, d, m, hdec, hnot, hdata, hsize, hm, hshort⟩, ?_⟩ hcut
        have hne : (allData response.body).isEmpty = false := by
          rcases hb : allData response.body with _ | ⟨x, xs⟩
          · rw [hb] at hdec
            cases hdec
          · rfl
        simpa [hne] using hstatus

/-- **Truncated responses.** For every response of gRPC or gRPC-Web, read as a
stream or as a unary call: a success comes after whole envelopes, if and only if the
response is not cut short with trailers of status 0 behind the cut. -/
theorem truncated_success_iff {c : CallConfig α} (hp : c.protocol ≠ .connect)
    (response : Response (List BodyEvent)) (late : Bool) :
    (∀ s, makeServerStream cr c response late = .ok s →
      ((∀ n, .ok none ∈ s.answers cr n → WholeEnvelopes (s.beforeEnd response.body)) ↔
        ¬ s.CutByTrailers response.body)) ∧
    ((∀ u, parseGrpcUnaryResponse cr c response late = .ok u →
        WholeEnvelopes (unaryBeforeEnd c.protocol response.body)) ↔
      ¬ UnaryCut c response) :=
  ⟨fun _ hs => stream_truncated_iff cr hp hs, unary_truncated_iff cr c response late⟩

/-- A message, the header of another one, and trailers with a status of 0. -/
def cutReply : Response (List BodyEvent) :=
  ⟨.ok, .empty, [.data [0, 0, 0, 0, 1, 7, 0, 0, 0, 0, 9],
    .trailers ⟨[(hdr.grpcStatus, .ofNat 0)]⟩]⟩

theorem cutReply_not_whole : ¬ WholeEnvelopes [0, 0, 0, 0, 1, 7, 0, 0, 0, 0, 9] := by
  have hstop : (parse decodeAny [0, 0, 0, 0, 1, 7, 0, 0, 0, 0, 9]).stop =
      .rest [0, 0, 0, 0, 9] := by rfl
  rw [WholeEnvelopes, hstop]
  intro h
  cases h

/-- That response is a success both as a stream and as a unary response. -/
theorem cutReply_succeeds :
    ¬ (∀ n, .ok none ∈ (ServerStream.start (grpcClient.setup .empty false)
        cutReply.body).answers .std n →
      WholeEnvelopes ((grpcClient.setup .empty false).beforeEnd cutReply.body)) ∧
    ¬ (∀ u, parseGrpcUnaryResponse .std grpcClient cutReply false = .ok u →
      WholeEnvelopes (unaryBeforeEnd grpcClient.protocol cutReply.body)) := by
  constructor
  · intro h
    have hclean : ((ServerStream.start (grpcClient.setup .empty false)
        cutReply.body).toRead .std).2.outcome = none := by
      rw [ServerStream.toRead_start]
      rfl
    obtain ⟨n, hn⟩ :=
      (ServerStream.clean_answer_iff .std (ServerStream.start_live _ _)).mpr hclean
    exact cutReply_not_whole (h n hn)
  · intro h
    exact cutReply_not_whole (h ⟨.empty, [7], ⟨[(hdr.grpcStatus, .ofNat 0)]⟩⟩ (by rfl))

/-- A whole message and trailers with a status of 0. -/
def wholeReply : Response (List BodyEvent) :=
  ⟨.ok, .empty, [.data [0, 0, 0, 0, 1, 7], .trailers ⟨[(hdr.grpcStatus, .ofNat 0)]⟩]⟩

/-- That response succeeds after whole envelopes. -/
theorem wholeReply_not_truncated :
    (∀ n, .ok none ∈ (ServerStream.start (grpcClient.setup .empty false)
        wholeReply.body).answers .std n →
      WholeEnvelopes ((grpcClient.setup .empty false).beforeEnd wholeReply.body)) ∧
    (∀ u, parseGrpcUnaryResponse .std grpcClient wholeReply false = .ok u →
      WholeEnvelopes (unaryBeforeEnd grpcClient.protocol wholeReply.body)) := by
  have hp : grpcClient.protocol ≠ .connect := by decide
  obtain ⟨hstream, hunary⟩ := truncated_success_iff .std hp wholeReply false
  have hs : makeServerStream .std grpcClient wholeReply false =
      .ok (.start (grpcClient.setup .empty false) wholeReply.body) := rfl
  constructor
  · refine (hstream _ hs).mpr fun h => ?_
    obtain ⟨r, hr, hne⟩ := h.cut
    cases hr
    exact hne rfl
  · refine hunary.mpr fun h => ?_
    obtain ⟨env, r, d, m, hdec, -, -, -, -, hcut⟩ := h.cut
    cases hdec
    exact hcut.1 rfl

end ConnectRpc
