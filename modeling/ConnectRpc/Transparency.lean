import ConnectRpc.Interception

/-!
# Interceptors that only forward

A call through interceptors takes another way than one without: its messages are wrapped as
payloads, its one request or response is made a stream, and all of that is undone at the other
end. Where the interceptors only forward, nothing of it shows but how bodies are segmented
(`passthrough_transparent`).
-/

namespace ConnectRpc.Interception

open Lib

variable {X Act Ans σ : Type}

/-! ## Runs -/

/-- What comes of a call: what happens, the machine after it, and the answer. -/
abbrev Outcome (X σ Res : Type) := List (CallEvent X) × σ × Option (Except ConnectError Res)

/-- Run a call to its end. -/
def runCall {Res : Type} (world : σ → Act → σ × Ans) (s : σ) (f : CallFlow X Act Ans Res) :
    Outcome X σ Res :=
  f.run (quietly world) none s

/-- The call of the dispatcher that an event is. -/
def dispatchedOf : CallEvent X → Option (DispatcherCall X)
  | .dispatched _ call => some call
  | _ => none

/-- Two calls are the same to the dispatcher, to the machine and, by `view`, to the caller. -/
structure Same {Res V : Type} (view : Res → V) (r r' : Outcome X σ Res) : Prop where
  /-- the dispatcher -/
  calls : r.1.filterMap dispatchedOf = r'.1.filterMap dispatchedOf
  /-- the machine -/
  machine : r.2.1 = r'.2.1
  /-- the answer -/
  answer : r.2.2.map (Except.map view) = r'.2.2.map (Except.map view)

section Round

variable {Res Res' Res'' V : Type} {world : σ → Act → σ × Ans} {s : σ}

theorem withResponse_after (f : CallFlow X Act Ans Res) (g : Res → CallFlow X Act Ans Res') :
    ∀ evs : List (CallEvent X), withResponse (f.after evs) g = (withResponse f g).after evs := by
  intro evs
  induction evs with
  | nil => rfl
  | cons ev evs ih => exact congrArg (Flow.event ev) ih

/-- A call that is answered with an error. -/
theorem runCall_error {f : CallFlow X Act Ans Res} (g : Res → CallFlow X Act Ans Res')
    {e : ConnectError} (h : (runCall world s f).2.2 = some (.error e)) :
    runCall world s (withResponse f g) =
      ((runCall world s f).1, (runCall world s f).2.1, some (.error e)) := by
  refine (Flow.run_bind h).trans ?_
  exact congrArg (fun evs => (evs, (runCall world s f).2.1, some (Except.error e)))
    (List.append_nil (runCall world s f).1)

/-- A call that is answered with a response. -/
theorem runCall_ok {f : CallFlow X Act Ans Res} (g : Res → CallFlow X Act Ans Res') {resp : Res}
    (h : (runCall world s f).2.2 = some (.ok resp)) :
    runCall world s (withResponse f g) =
      ((runCall world s f).1 ++ (runCall world (runCall world s f).2.1 (g resp)).1,
        (runCall world (runCall world s f).2.1 (g resp)).2) :=
  Flow.run_bind h

/-- **There and back.** The response of the dispatcher is wrapped, and unwrapped again. -/
theorem same_round {f : CallFlow X Act Ans Res} {wrap : Res → Res'}
    {unwrap : Res' → CallFlow X Act Ans Res} {view : Res → V}
    (hunwrap : ∀ resp, ∃ ev resp', unwrap (wrap resp) = .event ev (.answer (.ok resp')) ∧
      dispatchedOf ev = none ∧ view resp' = view resp)
    {evs : List (CallEvent X)} (hevs : evs.filterMap dispatchedOf = []) :
    Same view (runCall world s (withResponse
      ((withResponse f fun resp => .answer (.ok (wrap resp))).after evs) unwrap))
      (runCall world s f) := by
  rw [withResponse_after, runCall, Flow.run_after]
  obtain ⟨answer, hanswer⟩ : ∃ answer, (runCall world s f).2.2 = some answer := Flow.run_answers s
  rcases answer with e | resp
  · have hwrapped := runCall_error (fun resp => .answer (.ok (wrap resp))) hanswer
    have hfirst : (runCall world s (withResponse f fun resp =>
        .answer (.ok (wrap resp)))).2.2 = some (.error e) := by rw [hwrapped]
    have hwhole := runCall_error unwrap hfirst
    rw [hwrapped] at hwhole
    change Same view (evs ++ (runCall world s _).1, (runCall world s _).2) _
    rw [hwhole]
    refine ⟨?_, rfl, ?_⟩
    · rw [List.filterMap_append, hevs]
      rfl
    · exact congrArg (Option.map (Except.map view)) hanswer.symm
  · have hwrapped := runCall_ok
      (fun resp => (.answer (.ok (wrap resp)) : CallFlow X Act Ans Res')) hanswer
    have hfirst : (runCall world s (withResponse f fun resp =>
        .answer (.ok (wrap resp)))).2.2 = some (.ok (wrap resp)) := by
      rw [hwrapped]
      rfl
    obtain ⟨ev, resp', hevent, hnone, hview⟩ := hunwrap resp
    have hwhole := runCall_ok unwrap hfirst
    rw [hwrapped, hevent] at hwhole
    change Same view (evs ++ (runCall world s _).1, (runCall world s _).2) _
    rw [hwhole]
    refine ⟨?_, rfl, ?_⟩
    · have hlast : ((runCall world s f).1 ++ [] ++ [ev]).filterMap dispatchedOf =
          (runCall world s f).1.filterMap dispatchedOf := by
        rw [List.append_nil, List.filterMap_append, List.filterMap_cons_none hnone,
          List.filterMap_nil, List.append_nil]
      rw [List.filterMap_append, hevs]
      exact hlast
    · refine Eq.trans ?_ (congrArg (Option.map (Except.map view)) hanswer.symm)
      exact congrArg (fun v => some (Except.ok v)) hview

end Round

/-! ## Forwarding -/

/-- A body in one segment. -/
def oneSegment (resp : EncodedResponse) : HandlerResponse Bytes :=
  resp.mapBody EncodedBody.intoContiguous

/-- What a stream of bodies yields, each in one segment. -/
def oneSegmentEach (resp : HandlerResponse (List SourceEvent)) : HandlerResponse (List SourceEvent) :=
  resp.mapBody fun source => source.map fun
    | .item body => .item (.contiguous body.intoContiguous)
    | ev => ev

theorem entries_dispatched {Req ι : Type} (entered : ℕ → Req → CallEvent X)
    (hentered : ∀ n req, dispatchedOf (entered n req) = none) (req : Req) :
    ∀ (is : List ι) (n : ℕ), (entries entered req n is).filterMap dispatchedOf = [] := by
  intro is
  induction is with
  | nil => exact fun _ => rfl
  | cons i is ih =>
    intro n
    rw [entries, List.filterMap_cons_none (hentered n req)]
    exact ih (n + 1)

/-- A chain of interceptors that only forward a unary call. -/
theorem unaryChain_forwards (n : ℕ)
    (terminal : UnaryRequest X → CallFlow X Act Ans Interceptor.UnaryResponse)
    (req : UnaryRequest X) :
    ∃ evs : List (CallEvent X), evs.filterMap dispatchedOf = [] ∧
      chain (fun n req => .intercepted n req.ctx) Interceptor.interceptUnary terminal 0
        (List.replicate (n + 1) Interceptor.passthrough) req = (terminal req).after evs := by
  refine ⟨_, entries_dispatched _ (fun _ _ => rfl) req _ 0, chain_forwards 0 fun i hi => ?_⟩
  rw [List.eq_of_mem_replicate hi]
  rfl

/-- The same for a streaming call. -/
theorem streamChain_forwards (n : ℕ)
    (terminal : StreamRequest X → CallFlow X Act Ans StreamResponse) (req : StreamRequest X) :
    ∃ evs : List (CallEvent X), evs.filterMap dispatchedOf = [] ∧
      streamChain (List.replicate (n + 1) Interceptor.passthrough) terminal req =
        (terminal req).after evs := by
  refine ⟨_, entries_dispatched _ (fun _ _ => rfl) req _ 0, chain_forwards 0 fun i hi => ?_⟩
  rw [List.eq_of_mem_replicate hi]
  rfl

/-- An encoded response that is wrapped and unwrapped. -/
theorem answerUnary_fromEncoded (format : CodecFormat) (resp : EncodedResponse) :
    ∃ (ev : CallEvent X) (resp' : EncodedResponse),
      (answerUnary format (Interceptor.UnaryResponse.fromEncoded resp format) :
        CallFlow X Act Ans EncodedResponse) = .event ev (.answer (.ok resp')) ∧
      dispatchedOf ev = none ∧ oneSegment resp' = oneSegment resp := by
  have hencoded : Interceptor.UnaryResponse.intoEncodedAs
      (Interceptor.UnaryResponse.fromEncoded resp format) format =
        .ok (resp.mapBody fun body => .contiguous body.intoContiguous) := by
    rw [Interceptor.UnaryResponse.intoEncodedAs, Payload.encodedAs]
    exact congrArg _ (if_pos rfl)
  rw [answerUnary, hencoded]
  refine ⟨_, _, rfl, ?_, ?_⟩
  · rfl
  · rfl

/-- One that is made a stream of one, and taken out again. -/
theorem answerOne_wrapped (format : CodecFormat) (resp : EncodedResponse) :
    ∃ (ev : CallEvent X) (resp' : EncodedResponse),
      (answerOne (resp.mapBody fun body => [.ready (.ok (.new body.intoContiguous format))]) :
        CallFlow X Act Ans EncodedResponse) = .event ev (.answer (.ok resp')) ∧
      dispatchedOf ev = none ∧ oneSegment resp' = oneSegment resp :=
  ⟨_, _, rfl, rfl, rfl⟩

/-- An encoded response stream that is wrapped and unwrapped. -/
theorem answerStream_fromEncoded (format : CodecFormat) (resp : HandlerResponse (List SourceEvent)) :
    ∃ (ev : CallEvent X) (resp' : HandlerResponse (List SourceEvent)),
      (answerStream (StreamResponse.fromEncoded resp format) :
        CallFlow X Act Ans (HandlerResponse (List SourceEvent))) = .event ev (.answer (.ok resp')) ∧
      dispatchedOf ev = none ∧ oneSegmentEach resp' = oneSegmentEach resp := by
  refine ⟨_, _, rfl, rfl, ?_⟩
  obtain ⟨source, headers, trailers, compress⟩ := resp
  simp only [oneSegmentEach, StreamResponse.intoEncoded, StreamResponse.fromEncoded,
    HandlerResponse.mapBody, List.map_map]
  refine congrArg (HandlerResponse.mk · headers trailers compress) (List.map_congr_left fun ev _ => ?_)
  cases ev <;> rfl

/-- **Interceptors that only forward are transparent**, for every call shape: the dispatcher is
called with the same context and the same messages, and what it answers is what the caller
gets. -/
theorem passthrough_transparent (dispatcher : Dispatcher X Act Ans) (n : ℕ) (path : String)
    (ctx : RequestContext X) (format : CodecFormat) (world : σ → Act → σ × Ans) (s : σ) :
    (∀ body, Same oneSegment
      (runCall world s (callUnaryIntercepted dispatcher
        (List.replicate (n + 1) Interceptor.passthrough) path ctx body format))
      (runCall world s (callUnaryIntercepted dispatcher [] path ctx body format))) ∧
    (∀ body, Same oneSegmentEach
      (runCall world s (callServerStreamingIntercepted dispatcher
        (List.replicate (n + 1) Interceptor.passthrough) path ctx body format))
      (runCall world s (callServerStreamingIntercepted dispatcher [] path ctx body format))) ∧
    (∀ requests, Same oneSegment
      (runCall world s (callClientStreamingIntercepted dispatcher
        (List.replicate (n + 1) Interceptor.passthrough) path ctx requests format))
      (runCall world s (callClientStreamingIntercepted dispatcher [] path ctx requests format))) ∧
    ∀ requests, Same oneSegmentEach
      (runCall world s (callBidiStreamingIntercepted dispatcher
        (List.replicate (n + 1) Interceptor.passthrough) path ctx requests format))
      (runCall world s (callBidiStreamingIntercepted dispatcher [] path ctx requests format)) := by
  refine ⟨fun body => ?_, fun body => ?_, fun requests => ?_, fun requests => ?_⟩
  · obtain ⟨evs, hevs, hchain⟩ := unaryChain_forwards n (dispatchTerminal dispatcher path format)
      ⟨ctx, (Payload.new body format).withDecodeOptions ctx.decodeOptions⟩
    have hcall : callUnaryIntercepted dispatcher (List.replicate (n + 1) Interceptor.passthrough)
        path ctx body format = withResponse (chain (fun n req => .intercepted n req.ctx)
          Interceptor.interceptUnary (dispatchTerminal dispatcher path format) 0
          (List.replicate (n + 1) Interceptor.passthrough)
          ⟨ctx, (Payload.new body format).withDecodeOptions ctx.decodeOptions⟩)
          (answerUnary format) := rfl
    rw [hcall, hchain]
    exact same_round (answerUnary_fromEncoded format) hevs
  · obtain ⟨evs, hevs, hchain⟩ := streamChain_forwards n
      (serverStreamingTerminal dispatcher path format)
      ⟨ctx, [.ready (.ok ((Payload.new body format).withDecodeOptions ctx.decodeOptions))]⟩
    have hcall : callServerStreamingIntercepted dispatcher
        (List.replicate (n + 1) Interceptor.passthrough) path ctx body format =
          withResponse (streamChain (List.replicate (n + 1) Interceptor.passthrough)
            (serverStreamingTerminal dispatcher path format)
            ⟨ctx, [.ready (.ok ((Payload.new body format).withDecodeOptions ctx.decodeOptions))]⟩)
            answerStream := rfl
    rw [hcall, hchain]
    exact same_round (answerStream_fromEncoded format) hevs
  · obtain ⟨evs, hevs, hchain⟩ := streamChain_forwards n
      (clientStreamingTerminal dispatcher path format)
      ⟨ctx, requestStreamToPayloadStream requests format ctx.decodeOptions⟩
    have hcall : callClientStreamingIntercepted dispatcher
        (List.replicate (n + 1) Interceptor.passthrough) path ctx requests format =
          withResponse (streamChain (List.replicate (n + 1) Interceptor.passthrough)
            (clientStreamingTerminal dispatcher path format)
            ⟨ctx, requestStreamToPayloadStream requests format ctx.decodeOptions⟩) answerOne := rfl
    rw [hcall, hchain, clientStreamingTerminal, dispatchClientStreaming,
      payloadStreamToRequestStream_requestStream]
    exact same_round (answerOne_wrapped format) hevs
  · obtain ⟨evs, hevs, hchain⟩ := streamChain_forwards n
      (bidiStreamingTerminal dispatcher path format)
      ⟨ctx, requestStreamToPayloadStream requests format ctx.decodeOptions⟩
    have hcall : callBidiStreamingIntercepted dispatcher
        (List.replicate (n + 1) Interceptor.passthrough) path ctx requests format =
          withResponse (streamChain (List.replicate (n + 1) Interceptor.passthrough)
            (bidiStreamingTerminal dispatcher path format)
            ⟨ctx, requestStreamToPayloadStream requests format ctx.decodeOptions⟩) answerStream := rfl
    rw [hcall, hchain, bidiStreamingTerminal, dispatchBidiStreaming,
      payloadStreamToRequestStream_requestStream]
    exact same_round (answerStream_fromEncoded format) hevs

end ConnectRpc.Interception
