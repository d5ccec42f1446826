import ConnectRpc.Service

/-!
# What a service lets through

All that a service does with a request, seen from outside. A request whose method or
content type is no good is only read and forgotten; any other has its head checked by every
interceptor, and its body is not touched and no code is called unless all of them pass
(`call_gate`).

`Lawful` says what the events after the checks can be, in terms of three conditions: on the
context that the service makes, on the contexts that interceptors hand on, and on the
messages. The walk through the service is done once, for all of them.
-/

namespace ConnectRpc

open Lib

variable {X : Type}

/-! ## Events after the checks -/

/-- What the events after the checks of a head can be: the service makes contexts with `C`,
code runs with contexts with `K`, and messages have `M`. -/
def ServiceEvent.Lawful (C K : RequestContext X → Prop) (M : Bytes → Prop) : ServiceEvent X → Prop
  | .head _ _ => False
  | .bodyPolled _ => True
  | .called ctx message => C ctx ∧ ∀ m, message = some m → M m
  | .intercepted _ ctx => K ctx
  | .handled ctx => K ctx
  | .request (.answered (some (.ok d))) => M d
  | .request _ => True

/-- An interceptor that only hands on contexts of a kind, given one. -/
structure Interceptor.HandsOn (i : Interceptor X) (K : RequestContext X → Prop) : Prop where
  /-- in unary calls -/
  unary : ∀ req, K req.ctx → (i.interceptUnary req).HandsOn fun req => K req.ctx
  /-- in streaming calls -/
  streaming : ∀ req, K req.ctx → (i.interceptStreaming req).HandsOn fun req => K req.ctx

theorem Interceptor.handsOn_any (i : Interceptor X) : i.HandsOn fun _ => True :=
  ⟨fun req _ => (i.interceptUnary req).handsOn_any,
    fun req _ => (i.interceptStreaming req).handsOn_any⟩

/-- Entering the chain, an interceptor or the handler are events of a kind, given a context
of a kind. -/
structure Entered (P : ServiceEvent X → Prop) (K : RequestContext X → Prop) : Prop where
  /-- an interceptor -/
  intercepted : ∀ n ctx, K ctx → P (.intercepted n ctx)
  /-- the handler -/
  handled : ∀ ctx, K ctx → P (.handled ctx)

section Calls

variable {P : ServiceEvent X → Prop} {K : RequestContext X → Prop} (hP : Entered P K)
variable {dispatcher : Dispatcher X} {interceptors : List (Interceptor X)}
variable {path : String} {ctx : RequestContext X} {body : Bytes} {format : CodecFormat}

include hP

theorem emits_runHandler {Res : Type} {code : Code Empty Res} (hctx : K ctx) :
    (runHandler ctx code).Emits P :=
  ⟨hP.handled ctx hctx, code.emits_alone⟩

/-- A call of one message. -/
theorem emits_callUnaryIntercepted (hcode : ∀ i ∈ interceptors, i.HandsOn K)
    (hcalled : P (.called ctx (some body))) (hK : K ctx) :
    (callUnaryIntercepted dispatcher interceptors path ctx body format).Emits P := by
  rw [callUnaryIntercepted]
  refine ⟨hcalled, ?_⟩
  split
  · exact emits_runHandler hP hK
  · refine Flow.Emits.map _ (emits_chain (K := fun req => K req.ctx) ?_ ?_ 0 _ ?_ hK)
    · exact fun n req hreq => hP.intercepted n req.ctx hreq
    · exact fun req hreq => Flow.Emits.map _ (emits_runHandler hP hreq)
    · exact fun i hi => (hcode i hi).unary

/-- The chain of a streaming call. -/
theorem emits_streamChain {terminal : StreamRequest X → CallFlow X StreamResponse}
    (hcode : ∀ i ∈ interceptors, i.HandsOn K)
    (hterminal : ∀ req : StreamRequest X, K req.ctx → (terminal req).Emits P)
    {req : StreamRequest X} (hK : K req.ctx) :
    (streamChain interceptors terminal req).Emits P := by
  refine emits_chain (K := fun req => K req.ctx) ?_ hterminal 0 _ ?_ hK
  · exact fun n req hreq => hP.intercepted n req.ctx hreq
  · exact fun i hi => (hcode i hi).streaming

theorem emits_callServerStreamingIntercepted (hcode : ∀ i ∈ interceptors, i.HandsOn K)
    (hcalled : P (.called ctx (some body))) (hK : K ctx) :
    (callServerStreamingIntercepted dispatcher interceptors path ctx body format).Emits P := by
  rw [callServerStreamingIntercepted]
  refine ⟨hcalled, ?_⟩
  split
  · exact emits_runHandler hP hK
  · refine Flow.Emits.map _ (emits_streamChain hP hcode (fun req hreq => ?_) hK)
    rw [serverStreamingTerminal]
    split
    · trivial
    · exact Flow.Emits.map _ (emits_runHandler hP hreq)

theorem emits_callClientStreamingIntercepted (hcode : ∀ i ∈ interceptors, i.HandsOn K)
    (hcalled : P (.called ctx none)) (hK : K ctx) :
    (callClientStreamingIntercepted dispatcher interceptors path ctx format).Emits P := by
  rw [callClientStreamingIntercepted]
  refine ⟨hcalled, ?_⟩
  split
  · exact emits_runHandler hP hK
  · exact Flow.Emits.map _ (emits_streamChain hP hcode
      (fun req hreq => Flow.Emits.map _ (emits_runHandler hP hreq)) hK)

theorem emits_callBidiStreamingIntercepted (hcode : ∀ i ∈ interceptors, i.HandsOn K)
    (hcalled : P (.called ctx none)) (hK : K ctx) :
    (callBidiStreamingIntercepted dispatcher interceptors path ctx format).Emits P := by
  rw [callBidiStreamingIntercepted]
  refine ⟨hcalled, ?_⟩
  split
  · exact emits_runHandler hP hK
  · exact Flow.Emits.map _ (emits_streamChain hP hcode
      (fun req hreq => Flow.Emits.map _ (emits_runHandler hP hreq)) hK)

end Calls

section

variable {C K : RequestContext X → Prop} {M : Bytes → Prop} {ctx : RequestContext X}

theorem entered_lawful : Entered (ServiceEvent.Lawful C K M) K :=
  ⟨fun _ _ h => h, fun _ h => h⟩

/-- The service hands over a message. -/
theorem lawful_called_some (hC : C ctx) {body : Bytes} (hM : M body) :
    ServiceEvent.Lawful C K M (.called ctx (some body)) := by
  refine ⟨hC, fun m hm => ?_⟩
  obtain rfl := Option.some.inj hm
  exact hM

/-- The service has not read the messages of a call. -/
theorem lawful_called_none (hC : C ctx) : ServiceEvent.Lawful C K M (.called ctx none) := by
  refine ⟨hC, fun m hm => ?_⟩
  cases hm

end

/-! ## The request stream -/

/-- A request stream that is live and has only such messages still to answer. -/
def RequestRun.Yields (t : RequestSetup) (M : Bytes → Prop) (r : RequestRun) : Prop :=
  r.stream.Live t ∧ ∀ d ∈ (r.stream.toAnswer t).1, M d

/-- The messages among the answers. -/
theorem exists_requestAnswers_iff {d : Bytes} {err : Option ConnectError} :
    ∀ {msgs : List Bytes},
      (∃ i, (requestAnswers (msgs, err)).get i = some (.ok d)) ↔ d ∈ msgs := by
  intro msgs
  induction msgs with
  | nil =>
    have hend : requestAnswers ([], none) = Stream'.const none := Stream'.nil_append_stream _
    rw [requestAnswers_end, hend]
    refine ⟨?_, fun h => absurd h List.not_mem_nil⟩
    rintro ⟨_ | i, h⟩
    · rcases err with _ | e
      · cases h
      · cases h
    · rw [Stream'.get_succ_cons] at h
      cases h
  | cons m msgs ih =>
    rw [requestAnswers_message, List.mem_cons, ← ih]
    constructor
    · rintro ⟨_ | i, h⟩
      · exact .inl (Except.ok.inj (Option.some.inj h)).symm
      · exact .inr ⟨i, h⟩
    · rintro (rfl | ⟨i, h⟩)
      · exact ⟨0, rfl⟩
      · exact ⟨i + 1, h⟩

/-- The messages that are answered are those still to answer. -/
theorem mem_of_requestAnswers_cons {r r' : List Bytes × Option ConnectError}
    {a : Option (Except ConnectError Bytes)}
    (h : requestAnswers r = Stream'.cons a (requestAnswers r')) :
    (∀ d, a = some (.ok d) → d ∈ r.1) ∧ ∀ d ∈ r'.1, d ∈ r.1 := by
  refine ⟨fun d hd => ?_, fun d hd => ?_⟩
  · have hfirst : (requestAnswers r).get 0 = some (.ok d) := by
      rw [h, Stream'.get_zero_cons, hd]
    exact exists_requestAnswers_iff.mp ⟨0, hfirst⟩
  · obtain ⟨i, hi⟩ := exists_requestAnswers_iff.mpr hd
    have hlater : (requestAnswers r).get (i + 1) = some (.ok d) := by
      rw [h, Stream'.get_succ_cons]
      exact hi
    exact exists_requestAnswers_iff.mp ⟨i + 1, hlater⟩

/-- Whether nothing is answered, or no message that is not of a kind. -/
def RequestEvent.Answers (M : Bytes → Prop) (ev : RequestEvent) : Prop :=
  ∀ d, ev = .answered (some (.ok d)) → M d

theorem answers_of_answersIn {M : Bytes → Prop} {evs : List RequestEvent}
    (h : answersIn evs = []) : ∀ ev ∈ evs, ev.Answers M := by
  intro ev hev d hd
  subst hd
  obtain ⟨l, r, rfl⟩ := List.append_of_mem hev
  rw [answersIn_append, answersIn] at h
  cases (List.append_eq_nil_iff.mp h).2

namespace RequestRun

variable {t : RequestSetup} {M : Bytes → Prop} {r : RequestRun}

/-- **One action** answers a message of the kind, if it answers one. -/
theorem Yields.step (h : r.Yields t M) (a : RequestAction) :
    (r.step a).1.Yields t M ∧ ∀ ev ∈ (r.step a).2, ev.Answers M := by
  have hsame : r.Yields t M ∧ ∀ ev ∈ ([] : List RequestEvent), ev.Answers M :=
    ⟨h, answers_of_answersIn rfl⟩
  cases a with
  | poll =>
    by_cases hheld : r.held = true
    · have hstep : r.step .poll = ({ r with stream := r.stream.pollNext.2.1 },
          r.stream.pollNext.2.2 ++ answerOf r.stream.pollNext.1) := by
        rw [RequestRun.step, if_pos hheld]
      rw [hstep]
      obtain ⟨hlive, hnone, hanswer⟩ := RequestBodyStream.pollNext_answers h.1
      rcases hpoll : r.stream.pollNext.1 with _ | x
      · have hanswered : answerOf .pending = [] := rfl
        rw [hpoll] at hanswer
        refine ⟨⟨hlive, ?_⟩, ?_⟩
        · rw [hanswer]
          exact h.2
        · rw [hanswered, List.append_nil]
          exact answers_of_answersIn hnone
      · have hanswered : answerOf (.ready x) = [.answered x] := rfl
        rw [hpoll] at hanswer
        obtain ⟨hhead, htail⟩ := mem_of_requestAnswers_cons hanswer
        rw [hanswered]
        refine ⟨⟨hlive, fun d hd => h.2 d (htail d hd)⟩, fun ev hev => ?_⟩
        rcases List.mem_append.mp hev with hev | hev
        · exact answers_of_answersIn hnone ev hev
        · obtain rfl := List.mem_singleton.mp hev
          intro d hd
          exact h.2 d (hhead d (RequestEvent.answered.inj hd))
    · rw [RequestRun.step, if_neg hheld]
      exact hsame
  | drop =>
    rw [RequestRun.step]
    by_cases hheld : r.held = true
    · rw [if_pos hheld]
      obtain ⟨hnone, hended⟩ := RequestBodyStream.finish_ends r.stream
      refine ⟨⟨RequestBodyStream.live_of_ended hended, ?_⟩, answers_of_answersIn hnone⟩
      rw [RequestBodyStream.toAnswer, hended]
      intro d hd
      cases hd
    · rw [if_neg hheld]
      exact hsame
  | drain timedOut =>
    rw [RequestRun.step]
    rcases hd : r.stream.drain with _ | d
    · exact hsame
    · exact ⟨h, answers_of_answersIn (d.answersIn_poll timedOut)⟩

/-- **A run** of a request stream. -/
theorem Yields.trace : ∀ (as : List RequestAction) {r : RequestRun}, r.Yields t M →
    ∀ ev ∈ r.trace as, ev.Answers M := by
  intro as
  induction as with
  | nil =>
    intro r _ ev hev
    cases hev
  | cons a as ih =>
    intro r h ev hev
    obtain ⟨hnext, hevs⟩ := h.step a
    rcases List.mem_append.mp hev with hev | hev
    · exact hevs ev hev
    · exact ih hnext ev hev

/-- The stream of a body yields what is read from the body. -/
theorem yields_start {body : RequestBody}
    (h : ∀ b bodyEnd, ∀ d ∈ (t.reading b bodyEnd).1, M d) : (start t body).Yields t M :=
  ⟨live_start t body, fun d hd => h _ _ d hd⟩

/-- No stream yields nothing. -/
theorem yields_none (t : RequestSetup) (M : Bytes → Prop) : RequestRun.none.Yields t M := by
  refine ⟨RequestBodyStream.live_of_ended rfl, fun d hd => ?_⟩
  cases hd

end RequestRun

/-! ## Calls -/

section Runs

variable {C K : RequestContext X → Prop} {M : Bytes → Prop} {t : RequestSetup}

theorem lawful_request {ev : RequestEvent} (h : ev.Answers M) :
    ServiceEvent.Lawful C K M (.request ev) := by
  cases ev with
  | polled who x => trivial
  | drainStarted k => trivial
  | answered a =>
    rcases a with _ | (e | d)
    · trivial
    · trivial
    · exact h d rfl

theorem lawful_requests {evs : List RequestEvent} (h : ∀ ev ∈ evs, ev.Answers M) :
    ∀ ev ∈ evs.map ServiceEvent.request, ServiceEvent.Lawful C K M ev := by
  intro ev hev
  obtain ⟨rev, hrev, rfl⟩ := List.mem_map.mp hev
  exact lawful_request (h rev hrev)

/-- **A call**, with what happens to the request stream during it and after it. -/
theorem lawful_runCall {Res : Type} {course : Course} {limited : Bool} {requests : RequestRun}
    {flow : CallFlow X Res} (hflow : flow.Emits (ServiceEvent.Lawful C K M))
    (hrequests : requests.Yields t M) :
    ∀ ev ∈ (runCall course limited requests flow).1, ev.Lawful C K M := by
  have hstep : ∀ (r : RequestRun) (a : RequestAction), r.Yields t M →
      (requestStep r a : RequestRun × List (ServiceEvent X) × StreamAnswer).1.Yields t M ∧
        ∀ ev ∈ (requestStep r a : RequestRun × List (ServiceEvent X) × StreamAnswer).2.1,
          ev.Lawful C K M :=
    fun r a hr => ⟨(hr.step a).1, lawful_requests (hr.step a).2⟩
  obtain ⟨hafter, hevs⟩ :=
    @Flow.mem_run _ _ _ _ _ _ _ _ hstep flow (if limited then some course.call else none) requests
      hflow hrequests
  rw [runCall]
  split
  · intro ev hev
    rcases List.mem_append.mp hev with hev | hev
    · exact hevs ev hev
    · exact lawful_requests (hafter.trace course.afterwards) ev hev
  · intro ev hev
    rcases List.mem_append.mp hev with hev | hev
    · exact hevs ev hev
    · exact lawful_requests (hafter.trace (.drop :: course.afterwards)) ev hev

end Runs

/-! ## Reading a body -/

/-- Reading a body only polls it. -/
theorem mem_collectBodyLimited {limit : ℕ} : ∀ {polls : List (Poll RequestFrame)}
    {patience : Option ℕ} {got : Bytes} {ev : ServiceEvent X},
      ev ∈ (collectBodyLimited limit patience polls got).1 → ∃ x, ev = .bodyPolled x := by
  intro polls
  induction polls with
  | nil =>
    intro patience got ev hev
    exact ⟨_, List.mem_singleton.mp hev⟩
  | cons p polls ih =>
    intro patience got ev hev
    rcases p with _ | (d | _ | e)
    · rw [collectBodyLimited] at hev
      split at hev
      · exact ⟨_, List.mem_singleton.mp hev⟩
      · rcases List.mem_cons.mp hev with rfl | hev
        · exact ⟨_, rfl⟩
        · exact ih hev
    · rw [collectBodyLimited] at hev
      split at hev
      · exact ⟨_, List.mem_singleton.mp hev⟩
      · rcases List.mem_cons.mp hev with rfl | hev
        · exact ⟨_, rfl⟩
        · exact ih hev
    · rw [collectBodyLimited] at hev
      rcases List.mem_cons.mp hev with rfl | hev
      · exact ⟨_, rfl⟩
      · exact ih hev
    · exact ⟨_, List.mem_singleton.mp hev⟩

theorem mem_receive {limits : Limits} {course : Course} {deadline : Option ℕ} {body : RequestBody}
    {ev : ServiceEvent X} (h : ev ∈ (receive limits course deadline body).1) :
    ∃ x, ev = .bodyPolled x :=
  mem_collectBodyLimited h

/-! ## The handlers of the service -/

/-- The messages a service makes of a request have a property, whichever way it reads
them. -/
structure Service.Delivers (s : Service X) (limits : Limits) (M : Bytes → Prop) : Prop where
  /-- whole, for Connect unary -/
  unary : ∀ {path desc req postBody desc' m codec},
    s.unaryRequest path desc req limits postBody = .ok (desc', m, codec) → M m
  /-- as one envelope -/
  single : ∀ {texts header metadata postBody m},
    decodeSingleMessage texts header (s.requestSetup metadata limits) postBody = .ok m → M m
  /-- as a stream of envelopes -/
  stream : ∀ metadata b bodyEnd, ∀ d ∈ ((s.requestSetup metadata limits).reading b bodyEnd).1, M d

theorem Service.delivers_any (s : Service X) (limits : Limits) : s.Delivers limits fun _ => True :=
  ⟨fun _ => trivial, fun _ => trivial, fun _ _ _ _ _ => trivial⟩

section Handlers

variable {C K : RequestContext X → Prop} {M : Bytes → Prop}

theorem lawful_andThen {α β : Type} {t : Traced X α} {f : α → Traced X β}
    (ht : ∀ ev ∈ t.1, ev.Lawful C K M) (hf : ∀ a, ∀ ev ∈ (f a).1, ev.Lawful C K M) :
    ∀ ev ∈ (t.andThen f).1, ev.Lawful C K M := by
  intro ev hev
  rcases List.mem_append.mp hev with hev | hev
  · exact ht ev hev
  · exact hf t.2 ev hev

theorem lawful_map {α β : Type} {t : Traced X α} {f : α → β}
    (ht : ∀ ev ∈ t.1, ev.Lawful C K M) : ∀ ev ∈ (t.map f).1, ev.Lawful C K M :=
  ht

theorem lawful_pure {α : Type} (a : α) :
    ∀ ev ∈ (Traced.pure a : Traced X α).1, ev.Lawful C K M := by
  intro ev hev
  cases hev

theorem lawful_receive {limits : Limits} {course : Course} {deadline : Option ℕ}
    {body : RequestBody} :
    ∀ ev ∈ (receive limits course deadline body : Traced X _).1, ev.Lawful C K M := by
  intro ev hev
  obtain ⟨x, rfl⟩ := mem_receive hev
  trivial

variable {s : Service X} {req : HttpRequest X} {limits : Limits} {course : Course} (cr : Crates)

theorem lawful_handleUnaryRequest (hdelivers : s.Delivers limits M)
    (hcode : ∀ i ∈ s.interceptors, i.HandsOn K)
    (hC : ∀ deadline spec protocol path, C (req.context deadline spec protocol path limits))
    (hCK : ∀ ctx, C ctx → K ctx) (path : String) (desc : Option MethodDescriptor) :
    ∀ ev ∈ (s.handleUnaryRequest cr path desc req limits course).1, ev.Lawful C K M := by
  refine lawful_andThen lawful_receive fun received => ?_
  split
  · exact lawful_pure _
  · rename_i postBody
    rcases hrequest : s.unaryRequest path desc req limits postBody with e | ⟨desc', body, codec⟩
    · exact lawful_pure _
    · simp only
      refine lawful_map (lawful_runCall ?_ (RequestRun.yields_none (s.requestSetup
        (s.metadataOf req .connect) limits) M))
      exact emits_callUnaryIntercepted entered_lawful hcode
        (lawful_called_some (hC _ _ _ _) (hdelivers.unary hrequest)) (hCK _ (hC _ _ _ _))

theorem lawful_handleGrpcUnaryRequest (hdelivers : s.Delivers limits M)
    (hcode : ∀ i ∈ s.interceptors, i.HandsOn K)
    (hC : ∀ deadline spec protocol path, C (req.context deadline spec protocol path limits))
    (hCK : ∀ ctx, C ctx → K ctx) (path : String) (spec : Option Spec) (protocol : Protocol)
    (h : protocol ≠ .connect) (codec : CodecFormat) :
    ∀ ev ∈ (s.handleGrpcUnaryRequest cr path spec req protocol h codec limits course).1,
      ev.Lawful C K M := by
  rw [Service.handleGrpcUnaryRequest]
  split
  · exact lawful_receive
  · split
    · exact lawful_receive
    · refine lawful_andThen lawful_receive fun received => ?_
      split
      · exact lawful_pure _
      · rename_i postBody
        rcases hrequest : grpcUnaryRequestBody protocol (s.requestSetup (s.metadataOf req protocol)
          limits) postBody with e | body
        · exact lawful_pure _
        · refine lawful_runCall ?_ (RequestRun.yields_none (s.requestSetup (s.metadataOf req protocol)
            limits) M)
          exact emits_callUnaryIntercepted entered_lawful hcode
            (lawful_called_some (hC _ _ _ _) (hdelivers.single hrequest)) (hCK _ (hC _ _ _ _))

theorem lawful_handleClientStreamingRequest (hdelivers : s.Delivers limits M)
    (hcode : ∀ i ∈ s.interceptors, i.HandsOn K)
    (hC : ∀ deadline spec protocol path, C (req.context deadline spec protocol path limits))
    (hCK : ∀ ctx, C ctx → K ctx) (path : String) (spec : Option Spec) (protocol : Protocol)
    (codec : CodecFormat) :
    ∀ ev ∈ (s.handleClientStreamingRequest cr path spec req protocol codec limits course).1,
      ev.Lawful C K M :=
  lawful_runCall (emits_callClientStreamingIntercepted entered_lawful hcode
    (lawful_called_none (hC _ _ _ _)) (hCK _ (hC _ _ _ _)))
    (RequestRun.yields_start (hdelivers.stream _))

theorem lawful_handleBidiStreamingRequest (hdelivers : s.Delivers limits M)
    (hcode : ∀ i ∈ s.interceptors, i.HandsOn K)
    (hC : ∀ deadline spec protocol path, C (req.context deadline spec protocol path limits))
    (hCK : ∀ ctx, C ctx → K ctx) (path : String) (spec : Option Spec) (protocol : Protocol)
    (codec : CodecFormat) :
    ∀ ev ∈ (s.handleBidiStreamingRequest cr path spec req protocol codec limits course).1,
      ev.Lawful C K M :=
  lawful_runCall (emits_callBidiStreamingIntercepted entered_lawful hcode
    (lawful_called_none (hC _ _ _ _)) (hCK _ (hC _ _ _ _)))
    (RequestRun.yields_start (hdelivers.stream _))

theorem lawful_handleSingleRequest (hdelivers : s.Delivers limits M)
    (hcode : ∀ i ∈ s.interceptors, i.HandsOn K)
    (hC : ∀ deadline spec protocol path, C (req.context deadline spec protocol path limits))
    (hCK : ∀ ctx, C ctx → K ctx) (path : String) (desc : Option MethodDescriptor)
    (protocol : Protocol) (codec : CodecFormat) :
    ∀ ev ∈ (s.handleSingleRequest cr path desc req protocol codec limits course).1,
      ev.Lawful C K M := by
  refine lawful_andThen lawful_receive fun received => ?_
  split
  · exact lawful_pure _
  · rename_i postBody
    rcases Service.dispatchKind path protocol (desc.map MethodDescriptor.kind) with e | kind
    · exact lawful_pure _
    · simp only
      rcases hrequest : serverStreamingRequestBody protocol (s.requestSetup
        (s.metadataOf req protocol) limits) postBody with e | body
      · exact lawful_pure _
      · refine lawful_runCall ?_ (RequestRun.yields_none (s.requestSetup (s.metadataOf req protocol)
          limits) M)
        cases kind with
        | serverStreaming =>
          exact emits_callServerStreamingIntercepted entered_lawful hcode
            (lawful_called_some (hC _ _ _ _) (hdelivers.single hrequest)) (hCK _ (hC _ _ _ _))
        | unary =>
          exact Flow.Emits.map _ (emits_callUnaryIntercepted entered_lawful hcode
            (lawful_called_some (hC _ _ _ _) (hdelivers.single hrequest)) (hCK _ (hC _ _ _ _)))

theorem lawful_handleStreamingRequest (hdelivers : s.Delivers limits M)
    (hcode : ∀ i ∈ s.interceptors, i.HandsOn K)
    (hC : ∀ deadline spec protocol path, C (req.context deadline spec protocol path limits))
    (hCK : ∀ ctx, C ctx → K ctx) (path : String) (desc : Option MethodDescriptor)
    (protocol : Protocol) (codec : CodecFormat) :
    ∀ ev ∈ (s.handleStreamingRequest cr path desc req protocol codec limits course).1,
      ev.Lawful C K M := by
  rw [Service.handleStreamingRequest]
  split
  · exact lawful_receive
  · split
    · exact lawful_receive
    · split
      · exact lawful_handleBidiStreamingRequest cr hdelivers hcode hC hCK _ _ _ _
      · exact lawful_handleClientStreamingRequest cr hdelivers hcode hC hCK _ _ _ _
      · exact lawful_handleSingleRequest cr hdelivers hcode hC hCK _ _ _ _

end Handlers

/-! ## The checks -/

/-- The first `n` checks have passed, in order. -/
def passed (n : ℕ) : List (ServiceEvent X) :=
  (List.range n).map fun i => .head i (.ok ())

/-- **The checks of a head**: all pass, or those before the first that fails. -/
theorem runHeads_cases : ∀ (is : List (Interceptor X)) (n : ℕ) (head : RequestHead X),
    (∃ ext, runHeads n is head =
      ((List.range' n is.length).map fun i => .head i (.ok ()), ext, .ok ())) ∨
    ∃ k e ext, k < is.length ∧ runHeads n is head =
      (((List.range' n k).map fun i => .head i (.ok ())) ++ [.head (n + k) (.error e)], ext,
        .error e) := by
  intro is
  induction is with
  | nil => exact fun n head => .inl ⟨head.extensions, rfl⟩
  | cons i is ih =>
    intro n head
    rcases hverdict : i.interceptHead head with ⟨e | ⟨⟩, ext⟩
    · refine .inr ⟨0, e, ext, Nat.succ_pos _, ?_⟩
      rw [runHeads, hverdict]
      rfl
    · have hstep : runHeads n (i :: is) head =
          (.head n (.ok ()) :: (runHeads (n + 1) is { head with extensions := ext }).1,
            (runHeads (n + 1) is { head with extensions := ext }).2) := by
        rw [runHeads, hverdict]
      rcases ih (n + 1) { head with extensions := ext } with ⟨ext', h⟩ | ⟨k, e, ext', hk, h⟩
      · refine .inl ⟨ext', ?_⟩
        rw [hstep, h]
        rfl
      · refine .inr ⟨k + 1, e, ext', Nat.succ_lt_succ hk, ?_⟩
        rw [hstep, h, Nat.add_assoc, Nat.add_comm 1 k]
        rfl

namespace Service

variable (s : Service X) (req : HttpRequest X)

/-- The protocol that the checks of the head are told. -/
def headProtocol : Protocol :=
  if req.method = .GET then .connect
  else
    match Protocol.detect s.json req.headers with
    | some rp => if rp.isStreaming then rp.protocol else .connect
    | none => .connect

/-- The request with its extensions as the checks of the head leave them. -/
def checked : HttpRequest X :=
  (s.interceptHeads req (s.headProtocol req)).2.1

/-- An error as a response to the request, where there is one (see `Rendering.render`): an error of
a check may itself bring trailers that leave no room for the status. -/
def headError (cr : Crates) (e : ConnectError) : Response ConnectRpcBody :=
  if req.method = .GET then (errorResponse cr e).mapBody .full
  else
    match Protocol.detect s.json req.headers with
    | some rp =>
      if rp.isStreaming then envelopedError cr rp e else (errorResponse cr e).mapBody .full
    | none => (errorResponse cr e).mapBody .full

/-- A check that fails ends the request; after the last the request goes on. -/
theorem afterHeads_cases {α : Type} (protocol : Protocol) (failed : ConnectError → α)
    (go : HttpRequest X → Traced X α) :
    (∃ k e, k < s.interceptors.length ∧ s.afterHeads req protocol failed go =
      (passed k ++ [.head k (.error e)], failed e)) ∨
    s.afterHeads req protocol failed go =
      (passed s.interceptors.length ++ (go (s.interceptHeads req protocol).2.1).1,
        (go (s.interceptHeads req protocol).2.1).2) := by
  rcases runHeads_cases s.interceptors 0 (s.requestHead req protocol) with
    ⟨ext, h⟩ | ⟨k, e, ext, hk, h⟩
  · refine .inr ?_
    rw [afterHeads, interceptHeads, h, passed, List.range_eq_range']
  · refine .inl ⟨k, e, hk, ?_⟩
    rw [afterHeads, interceptHeads, h, passed, List.range_eq_range', Nat.zero_add]

end Service

/-! ## The gate -/

/-- What can come of a request. -/
inductive GateCase (cr : Crates) (s : Service X) (req : HttpRequest X) (Later : ServiceEvent X → Prop)
    (t : Traced X (Option (Response ConnectRpcBody))) : Prop where
  /-- it is read and forgotten -/
  | rejected : (∀ ev ∈ t.1, ∃ x, ev = .bodyPolled x) → GateCase cr s req Later t
  /-- a check of its head fails, which is all that happens -/
  | failed (k : ℕ) (e : ConnectError) : k < s.interceptors.length →
      t = (passed k ++ [.head k (.error e)], some (s.headError req cr e)) →
      GateCase cr s req Later t
  /-- all checks pass before anything else happens -/
  | passed (rest : List (ServiceEvent X)) : t.1 = passed s.interceptors.length ++ rest →
      (∀ ev ∈ rest, Later ev) → GateCase cr s req Later t

section Gate

variable (cr : Crates) {s : Service X} {req : HttpRequest X} {course : Course}
variable {C K : RequestContext X → Prop} {M : Bytes → Prop}

theorem lawful_handleEnveloped (hdelivers : s.Delivers (s.limitsOf req) M)
    (hcode : ∀ i ∈ s.interceptors, i.HandsOn K)
    (hC : ∀ deadline spec protocol path,
      C (req.context deadline spec protocol path (s.limitsOf req)))
    (hCK : ∀ ctx, C ctx → K ctx) (rp : RequestProtocol) :
    ∀ ev ∈ (s.handleEnveloped cr rp course req).1, ev.Lawful C K M := by
  rw [Service.handleEnveloped]
  split
  · exact lawful_receive
  · split
    · exact lawful_handleGrpcUnaryRequest cr hdelivers hcode hC hCK _ _ _ _ _
    · exact lawful_handleStreamingRequest cr hdelivers hcode hC hCK _ _ _ _

theorem lawful_handleUnary (hdelivers : s.Delivers (s.limitsOf req) M)
    (hcode : ∀ i ∈ s.interceptors, i.HandsOn K)
    (hC : ∀ deadline spec protocol path,
      C (req.context deadline spec protocol path (s.limitsOf req)))
    (hCK : ∀ ctx, C ctx → K ctx) :
    ∀ ev ∈ (s.handleUnary cr course req).1, ev.Lawful C K M :=
  lawful_handleUnaryRequest cr hdelivers hcode hC hCK _ _

/-- **The gate.** -/
theorem call_gate (hdelivers : s.Delivers (s.limitsOf req) M)
    (hcode : ∀ i ∈ s.interceptors, i.HandsOn K)
    (hC : ∀ deadline spec protocol path,
      C ((s.checked req).context deadline spec protocol path (s.limitsOf req)))
    (hCK : ∀ ctx, C ctx → K ctx) :
    GateCase cr s req (ServiceEvent.Lawful C K M) (s.call cr req course) := by
  rw [Service.call, Service.handleRequest]
  by_cases hverb : req.method ≠ .GET ∧ req.method ≠ .POST
  · rw [if_pos hverb]
    exact .rejected fun ev hev => mem_receive hev
  · rw [if_neg hverb]
    by_cases hget : req.method = .GET
    · rw [if_pos hget]
      have hprotocol : s.headProtocol req = .connect := if_pos hget
      rw [Service.checked, hprotocol] at hC
      rcases Service.afterHeads_cases s req .connect .error
        (s.handleUnary cr course) with ⟨k, e, hk, h⟩ | h
      · rw [h]
        refine .failed k e hk ?_
        rw [Service.headError, if_pos hget]
        rfl
      · rw [h]
        exact .passed _ rfl (lawful_handleUnary cr hdelivers hcode hC hCK)
    · rw [if_neg hget]
      rcases hdetect : Protocol.detect s.json req.headers with _ | rp
      · exact .rejected fun ev hev => mem_receive hev
      · rcases hstreaming : rp.isStreaming with _ | _
        · have hprotocol : s.headProtocol req = .connect := by
            rw [Service.headProtocol, if_neg hget, hdetect]
            simp only [hstreaming, Bool.false_eq_true, if_false]
          rw [Service.checked, hprotocol] at hC
          simp only [hstreaming, Bool.false_eq_true, if_false]
          rcases Service.afterHeads_cases s req .connect .error
            (s.handleUnary cr course) with ⟨k, e, hk, h⟩ | h
          · rw [h]
            refine .failed k e hk ?_
            rw [Service.headError, if_neg hget, hdetect]
            simp only [hstreaming, Bool.false_eq_true, if_false]
            rfl
          · rw [h]
            exact .passed _ rfl (lawful_handleUnary cr hdelivers hcode hC hCK)
        · have hprotocol : s.headProtocol req = rp.protocol := by
            rw [Service.headProtocol, if_neg hget, hdetect]
            simp only [hstreaming, if_true]
          rw [Service.checked, hprotocol] at hC
          simp only [hstreaming, if_true]
          rcases Service.afterHeads_cases s req rp.protocol
            (fun e => some (Service.envelopedError cr rp e)) (s.handleEnveloped cr rp course) with
            ⟨k, e, hk, h⟩ | h
          · rw [h]
            refine .failed k e hk ?_
            rw [Service.headError, if_neg hget, hdetect]
            simp only [hstreaming, if_true]
            rfl
          · rw [h]
            exact .passed _ rfl (@lawful_handleEnveloped X cr s (s.interceptHeads req rp.protocol).2.1
              course C K M hdelivers hcode hC hCK rp)

end Gate

/-- Whether code that is not the service's own runs: the chain, an interceptor or a
handler. -/
def ServiceEvent.runsCode : ServiceEvent X → Bool
  | .called _ _ => true
  | .intercepted _ _ => true
  | .handled _ => true
  | _ => false

/-- Whether a check of the head has returned. -/
def ServiceEvent.isHead : ServiceEvent X → Bool
  | .head _ _ => true
  | _ => false

theorem isHead_of_lawful {C K : RequestContext X → Prop} {M : Bytes → Prop} {ev : ServiceEvent X}
    (h : ev.Lawful C K M) : ev.isHead = false := by
  cases ev with
  | head i verdict => exact h.elim
  | bodyPolled x => rfl
  | called ctx message => rfl
  | intercepted i ctx => rfl
  | handled ctx => rfl
  | request rev => rfl

theorem mem_passed {n : ℕ} {ev : ServiceEvent X} (h : ev ∈ passed n) :
    ∃ i, ev = .head i (.ok ()) := by
  obtain ⟨i, -, rfl⟩ := List.mem_map.mp h
  exact ⟨i, rfl⟩

section

variable {cr : Crates} {s : Service X} {req : HttpRequest X}
variable {t : Traced X (Option (Response ConnectRpcBody))} {C K : RequestContext X → Prop}
variable {M : Bytes → Prop}

/-- No code runs before all checks have passed, which nothing else precedes. -/
theorem GateCase.before_code (h : GateCase cr s req (ServiceEvent.Lawful C K M) t)
    {pre post : List (ServiceEvent X)} {ev : ServiceEvent X} (ht : t.1 = pre ++ ev :: post)
    (hcode : ev.runsCode = true) :
    ∃ mid, pre = ConnectRpc.passed s.interceptors.length ++ mid ∧ ∀ e ∈ mid, e.isHead = false := by
  have hmem : ev ∈ t.1 := by
    rw [ht]
    exact List.mem_append_right _ List.mem_cons_self
  cases h with
  | rejected hpolled =>
    obtain ⟨x, rfl⟩ := hpolled ev hmem
    cases hcode
  | failed k e hk hrun =>
    rw [hrun] at hmem
    rcases List.mem_append.mp hmem with hmem | hmem
    · obtain ⟨i, rfl⟩ := mem_passed hmem
      cases hcode
    · obtain rfl := List.mem_singleton.mp hmem
      cases hcode
  | passed rest hrun hlater =>
    rw [hrun] at ht
    rcases List.append_eq_append_iff.mp ht with ⟨mid, hpre, hrest⟩ | ⟨left, hpassed, hleft⟩
    · refine ⟨mid, hpre, fun e he => isHead_of_lawful (hlater e ?_)⟩
      rw [hrest]
      exact List.mem_append_left _ he
    · rcases left with _ | ⟨first, left⟩
      · refine ⟨[], ?_, fun e he => absurd he List.not_mem_nil⟩
        rw [hpassed, List.append_nil, List.append_nil]
      · -- the code would be among the checks
        obtain ⟨rfl, -⟩ := List.cons.inj hleft
        have hchecks : ev ∈ ConnectRpc.passed s.interceptors.length := by
          rw [hpassed]
          exact List.mem_append_right _ List.mem_cons_self
        obtain ⟨i, rfl⟩ := mem_passed hchecks
        cases hcode

/-- A check that fails is the last thing that happens. -/
theorem GateCase.of_failed (h : GateCase cr s req (ServiceEvent.Lawful C K M) t) {i : ℕ}
    {e : ConnectError} (hmem : ServiceEvent.head i (.error e) ∈ t.1) :
    t.1 = ConnectRpc.passed i ++ [.head i (.error e)] ∧ t.2 = some (s.headError req cr e) := by
  cases h with
  | rejected hpolled =>
    obtain ⟨x, hx⟩ := hpolled _ hmem
    cases hx
  | failed k e' hk hrun =>
    rw [hrun] at hmem ⊢
    rcases List.mem_append.mp hmem with hmem | hmem
    · obtain ⟨j, hj⟩ := mem_passed hmem
      cases hj
    · obtain ⟨rfl, he⟩ := ServiceEvent.head.inj (List.mem_singleton.mp hmem)
      obtain rfl := Except.error.inj he
      exact ⟨rfl, rfl⟩
  | passed rest hrun hlater =>
    rw [hrun] at hmem
    rcases List.mem_append.mp hmem with hmem | hmem
    · obtain ⟨j, hj⟩ := mem_passed hmem
      cases hj
    · exact (hlater _ hmem).elim

/-- Everything that is not a check happens after the gate. -/
theorem GateCase.lawful (h : GateCase cr s req (ServiceEvent.Lawful C K M) t) {ev : ServiceEvent X}
    (hmem : ev ∈ t.1) (hhead : ev.isHead = false) : ev.Lawful C K M := by
  cases h with
  | rejected hpolled =>
    obtain ⟨x, rfl⟩ := hpolled ev hmem
    trivial
  | failed k e hk hrun =>
    rw [hrun] at hmem
    rcases List.mem_append.mp hmem with hmem | hmem
    · obtain ⟨i, rfl⟩ := mem_passed hmem
      cases hhead
    · obtain rfl := List.mem_singleton.mp hmem
      cases hhead
  | passed rest hrun hlater =>
    rw [hrun] at hmem
    rcases List.mem_append.mp hmem with hmem | hmem
    · obtain ⟨i, rfl⟩ := mem_passed hmem
      cases hhead
    · exact hlater ev hmem

end

/-- **Heads are checked first.** For every service and request: when the chain is called,
or an interceptor or a handler runs, the head has been checked by every interceptor once, in
registration order, before anything else, and all checks have passed. A check that fails is
the last thing that happens, and its error is the response, in the protocol of the request.
What the checks leave in the extensions is in the context the chain is called with, and, if
the interceptors hand it on, in that of the handler. -/
theorem head_gate (cr : Crates) (s : Service X) (req : HttpRequest X) (course : Course) :
    (∀ pre ev post, (s.call cr req course).1 = pre ++ ev :: post → ev.runsCode = true →
      ∃ mid, pre = passed s.interceptors.length ++ mid ∧ ∀ e ∈ mid, e.isHead = false) ∧
    (∀ i e, .head i (.error e) ∈ (s.call cr req course).1 →
      (s.call cr req course).1 = passed i ++ [.head i (.error e)] ∧
        (s.call cr req course).2 = some (s.headError req cr e)) ∧
    (∀ ctx message, .called ctx message ∈ (s.call cr req course).1 →
      ctx.extensions = (s.checked req).extensions) ∧
    ((∀ i ∈ s.interceptors, i.HandsOn fun ctx => ctx.extensions = (s.checked req).extensions) →
      ∀ ctx, .handled ctx ∈ (s.call cr req course).1 →
        ctx.extensions = (s.checked req).extensions) := by
  have hgate : GateCase cr s req
      (ServiceEvent.Lawful (fun ctx => ctx.extensions = (s.checked req).extensions)
        (fun _ => True) fun _ => True) (s.call cr req course) :=
    call_gate cr (s.delivers_any _) (fun i _ => i.handsOn_any) (fun _ _ _ _ => rfl)
      fun _ _ => trivial
  refine ⟨fun pre ev post => hgate.before_code, fun i e => hgate.of_failed,
    fun ctx message hcalled => (hgate.lawful hcalled rfl).1, fun hcode ctx hhandled => ?_⟩
  have hkept : GateCase cr s req
      (ServiceEvent.Lawful (fun ctx => ctx.extensions = (s.checked req).extensions)
        (fun ctx => ctx.extensions = (s.checked req).extensions) fun _ => True)
          (s.call cr req course) :=
    call_gate cr (s.delivers_any _) hcode (fun _ _ _ _ => rfl) fun _ h => h
  exact hkept.lawful hhandled rfl

end ConnectRpc
