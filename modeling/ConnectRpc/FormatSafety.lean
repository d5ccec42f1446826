import ConnectRpc.Interception

/-!
# Formats of messages

A payload has a format of its own, and an interceptor may put one into a call that has negotiated
another. The response of a unary call is encoded in the format of the call. At the other five
places a payload is encoded in its own, and what comes out is an encoding in the format of the
call exactly where the payload `Fits` it (`format_safety_iff`).
-/

namespace ConnectRpc

open Lib

namespace Payload

/-- These bytes are an encoding of the body in this format. -/
def IsEncoding (p : Payload) (format : CodecFormat) (b : Bytes) : Prop :=
  match p.replaced with
  | none => p.format = format ∧ b = p.bytes
  | some encode => encode format = .ok b

/-- The body is in this format; or it is a message that cannot be encoded in its own, or is
encoded as in this one. -/
def Fits (p : Payload) (format : CodecFormat) : Prop :=
  p.format = format ∨ ∃ encode, p.replaced = some encode ∧
    ((∃ e, encode p.format = .error e) ∨ encode p.format = encode format)

/-- What a payload that is asked for a format is encoded as. -/
theorem isEncoding_of_encodedAs {p : Payload} {format : CodecFormat} {b : Bytes}
    (h : p.encodedAs format = .ok b) : p.IsEncoding format b := by
  rw [encodedAs] at h
  split at h
  · rename_i hformat
    subst hformat
    rw [encoded] at h
    rw [IsEncoding]
    rcases hreplaced : p.replaced with _ | encode
    · rw [hreplaced] at h
      exact ⟨rfl, (Except.ok.inj h).symm⟩
    · rw [hreplaced] at h
      exact h
  · split at h
    · rename_i encode hreplaced
      rw [IsEncoding, hreplaced]
      exact h
    · cases h

/-- What one that is not asked is encoded as. -/
theorem isEncoding_encoded_iff {p : Payload} {format : CodecFormat} :
    (∀ b, p.encoded = .ok b → p.IsEncoding format b) ↔ p.Fits format := by
  rw [encoded, Fits]
  simp only [IsEncoding]
  rcases hreplaced : p.replaced with _ | encode
  · constructor
    · exact fun h => .inl (h p.bytes rfl).1
    · rintro (hformat | ⟨encode, hsome, -⟩) b hb
      · exact ⟨hformat, (Except.ok.inj hb).symm⟩
      · cases hsome
  · constructor
    · intro h
      refine .inr ⟨encode, rfl, ?_⟩
      rcases hencode : encode p.format with e | b
      · exact .inl ⟨e, rfl⟩
      · exact .inr (h b hencode).symm
    · rintro (rfl | ⟨encode', hsome, hcase⟩) b hb
      · exact hb
      · obtain rfl := Option.some.inj hsome
        have hencode : encode p.format = .ok b := hb
        rcases hcase with ⟨e, he⟩ | hsame
        · rw [he] at hencode
          cases hencode
        · exact hsame.symm.trans hencode

end Payload

namespace Interception

/-! ## Safe events -/

/-- A payload of a stream that comes out as bytes does so in the format. -/
def InFormat (format : CodecFormat) (given : PayloadEvent) (b : Bytes) : Prop :=
  ∃ payload, given = .ready (.ok payload) ∧ payload.IsEncoding format b

/-- The first payload of a stream does. -/
def OneInFormat (format : CodecFormat) (given : PayloadStream) (b : Bytes) : Prop :=
  ∃ payload, (ready given).head? = some (.ok payload) ∧ payload.IsEncoding format b

/-- **Safe**: the bytes that the dispatcher gets, or the peer, are encodings of the payloads
they come from, in the format of the call. -/
def CallEvent.Safe {X : Type} (format : CodecFormat) : CallEvent X → Prop
  | .intercepted _ _ => True
  | .dispatched given call =>
    match call.requests with
    | .payload payload => ∀ b, payload.encoded = .ok b → payload.IsEncoding format b
    | .message b => OneInFormat format given b
    | .stream requests => List.Forall₂
        (fun item request => ∀ b, request = .ready (.ok b) → InFormat format item b) given requests
  | .answered payload body => ∀ b, body = .ok b → payload.IsEncoding format b
  | .collapsed given body => ∀ b, body = .ok b → OneInFormat format given b
  | .streamed given source => List.Forall₂
      (fun item ev => ∀ body, ev = .item body → InFormat format item body.intoContiguous) given source

/-- The payloads that are encoded in their own format fit. -/
def CallEvent.Fits {X : Type} (format : CodecFormat) : CallEvent X → Prop
  | .intercepted _ _ => True
  | .dispatched given call =>
    match call.requests with
    | .payload payload => payload.Fits format
    | .message _ => ∀ payload, (ready given).head? = some (.ok payload) → payload.Fits format
    | .stream _ => ∀ payload, .ready (.ok payload) ∈ given → payload.Fits format
  | .answered _ _ => True
  | .collapsed given _ =>
    ∀ payload, (ready given).head? = some (.ok payload) → payload.Fits format
  | .streamed given _ => ∀ payload, .ready (.ok payload) ∈ given → payload.Fits format

section Events

variable {X Act Ans : Type} {format : CodecFormat}

/-- A payload of a stream. -/
theorem inFormat_iff {payload : Payload} :
    (∀ b, payload.encoded = .ok b → InFormat format (.ready (.ok payload)) b) ↔
      payload.Fits format := by
  rw [← Payload.isEncoding_encoded_iff]
  refine forall_congr' fun b => imp_congr_right fun _ => ?_
  constructor
  · rintro ⟨payload', hsame, hencoding⟩
    obtain rfl := Except.ok.inj (Poll.ready.inj hsame)
    exact hencoding
  · exact fun hencoding => ⟨payload, rfl, hencoding⟩

/-- A request stream. -/
theorem safe_stream_iff (given : PayloadStream) :
    List.Forall₂ (fun item request => ∀ b, request = .ready (.ok b) → InFormat format item b) given
      (payloadStreamToRequestStream given) ↔
    ∀ payload, .ready (.ok payload) ∈ given → payload.Fits format := by
  rw [payloadStreamToRequestStream, List.forall₂_map_right_iff, List.forall₂_same]
  constructor
  · intro h payload hmem
    refine inFormat_iff.mp fun b hb => h _ hmem b ?_
    rw [encodeItem, hb]
  · intro h item hmem b hb
    rcases item with _ | _ | payload
    · cases hb
    · cases hb
    · exact inFormat_iff.mpr (h payload hmem) b (Poll.ready.inj hb)

/-- A response stream. -/
theorem safe_streamed_iff (resp : StreamResponse) :
    (CallEvent.streamed resp.body resp.intoEncoded.body : CallEvent X).Safe format ↔
      (CallEvent.streamed resp.body resp.intoEncoded.body : CallEvent X).Fits format := by
  simp only [CallEvent.Safe, CallEvent.Fits, StreamResponse.intoEncoded, HandlerResponse.mapBody]
  rw [List.forall₂_map_right_iff, List.forall₂_same]
  constructor
  · intro h payload hmem
    refine inFormat_iff.mp fun b hb => h _ hmem (.contiguous b) ?_
    simp only [hb]
  · intro h item hmem body hbody
    rcases item with _ | _ | payload
    · cases hbody
    · cases hbody
    · rcases hencoded : payload.encoded with e | b
      · simp only [hencoded] at hbody
        cases hbody
      · simp only [hencoded] at hbody
        obtain rfl := SourceEvent.item.inj hbody
        exact inFormat_iff.mpr (h payload hmem) b hencoded

/-- A stream of one. -/
theorem safe_one_iff (what : String) (given : PayloadStream) :
    (∀ b, oneMessage what given = .ok b → OneInFormat format given b) ↔
      ∀ payload, (ready given).head? = some (.ok payload) → payload.Fits format := by
  constructor
  · intro h payload hhead
    refine Payload.isEncoding_encoded_iff.mp fun b hb => ?_
    obtain ⟨payload', hhead', hencoding⟩ := h b (by rw [oneMessage, hhead]; exact hb)
    obtain rfl := Except.ok.inj (Option.some.inj (hhead'.symm.trans hhead))
    exact hencoding
  · intro h b hb
    rw [oneMessage] at hb
    split at hb
    · rename_i payload hhead
      exact ⟨payload, hhead, Payload.isEncoding_encoded_iff.mpr (h payload hhead) b hb⟩
    · cases hb
    · cases hb

/-- What the code makes of payloads is safe exactly where they fit. -/
abbrev Faithful (format : CodecFormat) (ev : CallEvent X) : Prop :=
  ev.Safe format ↔ ev.Fits format

theorem emits_dispatch {Res : Type} {given : PayloadStream} {call : DispatcherCall X}
    {code : Code Act Ans Empty Res} (h : Faithful format (.dispatched given call)) :
    (dispatch given call code).Emits (Faithful format) :=
  ⟨h, Program.emits_alone code⟩

theorem emits_withResponse {Res Res' : Type} {f : CallFlow X Act Ans Res}
    {g : Res → CallFlow X Act Ans Res'} (hf : f.Emits (Faithful format))
    (hg : ∀ resp, (g resp).Emits (Faithful format)) :
    (withResponse f g).Emits (Faithful format) := by
  refine hf.bind fun answer => ?_
  rcases answer with e | resp
  · trivial
  · exact hg resp

theorem emits_streamChain (interceptors : List (Interceptor X Act Ans))
    {terminal : StreamRequest X → CallFlow X Act Ans StreamResponse}
    (hterminal : ∀ req, (terminal req).Emits (Faithful format)) (req : StreamRequest X) :
    (streamChain interceptors terminal req).Emits (Faithful format) :=
  emits_chain (P := Faithful format) (K := fun _ => True) (fun _ _ _ => Iff.rfl)
    (fun req _ => hterminal req) 0 req
    (fun _ _ _ _ => Program.handsOn_any _) trivial

theorem emits_answerStream (resp : StreamResponse) :
    (answerStream resp : CallFlow X Act Ans _).Emits (Faithful format) :=
  ⟨safe_streamed_iff resp, trivial⟩

/-! ## The four shapes -/

variable (dispatcher : Dispatcher X Act Ans) (interceptors : List (Interceptor X Act Ans))
  (path : String) (ctx : RequestContext X)

theorem emits_unary (body : Bytes) :
    (callUnaryIntercepted dispatcher interceptors path ctx body format).Emits (Faithful format) := by
  have hdispatch : ∀ req, (dispatchUnary dispatcher path format req).Emits (Faithful format) :=
    fun req => emits_dispatch Payload.isEncoding_encoded_iff
  have hterminal : ∀ req, (dispatchTerminal dispatcher path format req).Emits (Faithful format) :=
    fun req => emits_withResponse (hdispatch req) fun _ => trivial
  rw [callUnaryIntercepted]
  split
  · exact hdispatch _
  · refine emits_withResponse ?_ fun resp => ?_
    · exact emits_chain (P := Faithful format) (K := fun _ => True) (fun _ _ _ => Iff.rfl)
        (fun req _ => hterminal req) 0 _
        (fun _ _ _ _ => Program.handsOn_any _) trivial
    · refine ⟨⟨fun _ => trivial, fun _ b hb => ?_⟩, trivial⟩
      exact Payload.isEncoding_of_encodedAs hb

theorem faithful_message {what : String} {given : PayloadStream} {b : Bytes}
    (h : oneMessage what given = .ok b) :
    Faithful format (.dispatched given ⟨path, ctx, .message b, format⟩) := by
  refine Iff.trans ?_ (safe_one_iff what given)
  constructor
  · intro hsafe b' hb'
    obtain rfl := Except.ok.inj (h.symm.trans hb')
    exact hsafe
  · exact fun hall => hall b h

theorem emits_serverStreaming (body : Bytes) :
    (callServerStreamingIntercepted dispatcher interceptors path ctx body format).Emits
      (Faithful format) := by
  rw [callServerStreamingIntercepted]
  split
  · exact emits_dispatch (faithful_message path ctx (rfl : oneMessage "" _ = .ok body))
  · refine emits_withResponse (emits_streamChain interceptors (fun req => ?_) _) emits_answerStream
    rw [serverStreamingTerminal]
    split
    · trivial
    · rename_i b hb
      exact emits_withResponse (emits_dispatch (faithful_message path req.ctx hb)) fun _ => trivial

theorem emits_clientStreaming (requests : RequestStream) :
    (callClientStreamingIntercepted dispatcher interceptors path ctx requests format).Emits
      (Faithful format) := by
  rw [callClientStreamingIntercepted]
  split
  · refine emits_dispatch ?_
    have hstream := @safe_stream_iff format
      (requestStreamToPayloadStream requests format ctx.decodeOptions)
    rw [payloadStreamToRequestStream_requestStream] at hstream
    exact hstream
  · refine emits_withResponse (emits_streamChain interceptors (fun req => ?_) _) fun resp => ?_
    · exact emits_withResponse (emits_dispatch (safe_stream_iff req.inbound)) fun _ => trivial
    · exact ⟨safe_one_iff _ resp.body, trivial⟩

theorem emits_bidiStreaming (requests : RequestStream) :
    (callBidiStreamingIntercepted dispatcher interceptors path ctx requests format).Emits
      (Faithful format) := by
  rw [callBidiStreamingIntercepted]
  split
  · refine emits_dispatch ?_
    have hstream := @safe_stream_iff format
      (requestStreamToPayloadStream requests format ctx.decodeOptions)
    rw [payloadStreamToRequestStream_requestStream] at hstream
    exact hstream
  · refine emits_withResponse (emits_streamChain interceptors (fun req => ?_) _) emits_answerStream
    exact emits_withResponse (emits_dispatch (safe_stream_iff req.inbound)) fun _ => trivial

end Events

/-- What happens in a run of a call, up to where the caller gives up. -/
def events {X Act Ans σ Res : Type} (world : σ → Act → σ × Ans) (budget : Option ℕ) (s : σ)
    (f : CallFlow X Act Ans Res) : List (CallEvent X) :=
  (f.run (quietly world) budget s).1

/-- A run is safe exactly if its payloads fit. -/
theorem safe_iff_fits {X Act Ans σ Res : Type} {format : CodecFormat} {f : CallFlow X Act Ans Res}
    (hf : f.Emits (Faithful format)) (world : σ → Act → σ × Ans) (budget : Option ℕ) (s : σ) :
    (∀ ev ∈ events world budget s f, ev.Safe format) ↔
      ∀ ev ∈ events world budget s f, ev.Fits format := by
  have hstep : ∀ s act, True →
      True ∧ ∀ ev ∈ (quietly (X := X) world s act).2.1, Faithful format ev :=
    fun _ _ _ => ⟨trivial, fun _ hev => absurd hev List.not_mem_nil⟩
  have hevents : ∀ ev ∈ events world budget s f, Faithful format ev :=
    (Flow.mem_run hstep hf trivial).2
  exact forall₂_congr hevents

/-- **Formats of messages.** In every run of a call of any shape, with any interceptors, the
dispatcher and the peer only get encodings in the format of the call exactly if the payloads
that are encoded in their own format fit: those of requests, and those of the responses of
streaming calls. -/
theorem format_safety_iff {X Act Ans σ : Type} (dispatcher : Dispatcher X Act Ans)
    (interceptors : List (Interceptor X Act Ans)) (path : String) (ctx : RequestContext X)
    (format : CodecFormat) (world : σ → Act → σ × Ans) (budget : Option ℕ) (s : σ) :
    (∀ body,
      (∀ ev ∈ events world budget s
        (callUnaryIntercepted dispatcher interceptors path ctx body format), ev.Safe format) ↔
      ∀ ev ∈ events world budget s
        (callUnaryIntercepted dispatcher interceptors path ctx body format), ev.Fits format) ∧
    (∀ body,
      (∀ ev ∈ events world budget s (callServerStreamingIntercepted dispatcher interceptors path ctx
        body format), ev.Safe format) ↔
      ∀ ev ∈ events world budget s (callServerStreamingIntercepted dispatcher interceptors path ctx
        body format), ev.Fits format) ∧
    (∀ requests,
      (∀ ev ∈ events world budget s (callClientStreamingIntercepted dispatcher interceptors path ctx
        requests format), ev.Safe format) ↔
      ∀ ev ∈ events world budget s (callClientStreamingIntercepted dispatcher interceptors path ctx
        requests format), ev.Fits format) ∧
    ∀ requests,
      (∀ ev ∈ events world budget s (callBidiStreamingIntercepted dispatcher interceptors path ctx
        requests format), ev.Safe format) ↔
      ∀ ev ∈ events world budget s (callBidiStreamingIntercepted dispatcher interceptors path ctx
        requests format), ev.Fits format :=
  ⟨fun body => safe_iff_fits (emits_unary dispatcher interceptors path ctx body) world budget s,
    fun body => safe_iff_fits (emits_serverStreaming dispatcher interceptors path ctx body) world
      budget s,
    fun requests => safe_iff_fits (emits_clientStreaming dispatcher interceptors path ctx requests)
      world budget s,
    fun requests => safe_iff_fits (emits_bidiStreaming dispatcher interceptors path ctx requests)
      world budget s⟩

/-! ## A message in the wrong format -/

/-- A message, to be encoded as protobuf. -/
def protoReply : Payload where
  bytes := []
  format := .proto
  replaced := some fun
    | .proto => .ok [10, 1, 104]
    | .json => .ok [34, 104, 34]
  decodeOptions := .new

/-- An interceptor that answers streaming calls with it. -/
def cannedReply : Interceptor Unit Empty Empty where
  interceptUnary := Interceptor.passthrough.interceptUnary
  interceptStreaming _ := .answer (.ok ⟨[.ready (.ok protoReply)], .empty, .empty, none⟩)

/-- Handlers that are not reached. -/
def noHandlers : Dispatcher Unit Empty Empty where
  callUnary _ _ _ _ := .answer (.error (.internal "not reached"))
  callServerStreaming _ _ _ _ := .answer (.error (.internal "not reached"))
  callClientStreaming _ _ _ _ := .answer (.error (.internal "not reached"))
  callBidiStreaming _ _ _ _ := .answer (.error (.internal "not reached"))

/-- The peer of a bidi call that has negotiated JSON gets protobuf. -/
theorem protoReply_on_json :
    ¬ ∀ ev ∈ events (fun (s : Unit) (a : Empty) => (s, a)) none ()
      (callBidiStreamingIntercepted noHandlers [cannedReply] "svc/Method"
        ⟨.empty, none, (), none, none, none, .new⟩ [] .json), ev.Safe .json := by
  intro h
  have hsafe := h (.streamed [.ready (.ok protoReply)] [.item (.contiguous [10, 1, 104])])
    (List.mem_cons_of_mem _ List.mem_cons_self)
  obtain ⟨payload, hpayload, hencoding⟩ := (List.forall₂_cons.mp hsafe).1 _ rfl
  obtain rfl := Except.ok.inj (Poll.ready.inj hpayload)
  have hbytes : ([34, 104, 34] : Bytes) = [10, 1, 104] := Except.ok.inj hencoding
  exact absurd hbytes (by decide)

end Interception

end ConnectRpc
