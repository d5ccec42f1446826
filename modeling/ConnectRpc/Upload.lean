import ConnectRpc.Lib.Fused
import ConnectRpc.Lib.History
import ConnectRpc.RequestRoundTrip

/-!
# Uploads

What a streaming call of the client sends is polled off its body. `EncodingBody` takes the messages
off the caller's stream and puts them into frames (`upload_run`). On the other side the request
stream of the server takes the same bytes apart (`client_stream_received`). They may have been cut
anywhere: what it has read of them is the beginning of what was sent (`reading_cut`).
-/

namespace ConnectRpc

open Lib

/-- The frame of a message: it is encoded, and put into an envelope. -/
def frameMessage (encoder : EnvelopeEncoder) (codec : CodecFormat) (message : ClientMessage) :
    Except ConnectError Bytes :=
  match message codec with
  | .error err => .error err
  | .ok msgBytes => encoder.encode msgBytes []

/-! ## The body of a client stream -/

/-- `EncodingBody`, over the caller's stream. -/
structure EncodingBody (σ : Type) where
  /-- the stream -/
  stream : σ
  /-- the encoder -/
  encoder : EnvelopeEncoder
  /-- the codec -/
  codecFormat : CodecFormat
  /-- the error of a message that cannot be sent, which the call looks at -/
  error : Option ConnectError
  /-- whether the stream has ended, or a message could not be sent -/
  done : Bool

namespace EncodingBody

variable {σ : Type}

/-- The body of `call_client_stream`. -/
def new (stream : σ) (encoder : EnvelopeEncoder) (codec : CodecFormat) : EncodingBody σ :=
  ⟨stream, encoder, codec, none, false⟩

/-- `EncodingBody::poll_frame`; `pollNext` is that of the caller's stream. -/
def pollFrame (pollNext : σ → Poll (Option ClientMessage) × σ) (body : EncodingBody σ) :
    Poll (Option (Except ConnectError Bytes)) × EncodingBody σ :=
  if body.done then (.ready none, body)
  else
    match pollNext body.stream with
    | (.pending, stream) => (.pending, { body with stream := stream })
    | (.ready none, stream) => (.ready none, { body with stream := stream, done := true })
    | (.ready (some request), stream) =>
      match request body.codecFormat with
      | .error err =>
        (.ready (some (.error err)), { body with stream := stream, error := some err, done := true })
      | .ok msgBytes =>
        match body.encoder.encode msgBytes [] with
        | .ok frame => (.ready (some (.ok frame)), { body with stream := stream })
        | .error err =>
          (.ready (some (.error err)),
            { body with stream := stream, error := some err, done := true })

end EncodingBody

/-- The end of `call_client_stream`: the error of a message that could not be sent takes
precedence. -/
def clientStreamResult {α : Type} (encodeError : Option ConnectError)
    (result : Except ConnectError α) : Except ConnectError α :=
  match encodeError with
  | some err => .error err
  | none => result

section Encoding

variable {σ : Type} {pollNext : σ → Poll (Option ClientMessage) × σ} {stream : σ}
variable {encoder : EnvelopeEncoder} {codec : CodecFormat}

/-- What an answer of the stream is passed on as, and whether it is the last. -/
def frameAnswer (encoder : EnvelopeEncoder) (codec : CodecFormat)
    (answer : Option ClientMessage) : Option (Except ConnectError Bytes) × Bool :=
  match answer with
  | none => (none, true)
  | some message =>
    match frameMessage encoder codec message with
    | .ok frame => (some (.ok frame), false)
    | .error err => (some (.error err), true)

/-- A body is its stream, fused by the frames. -/
theorem encodingBody_simulates : Simulates (EncodingBody.pollFrame pollNext)
    (fusedStep pollNext (frameAnswer encoder codec) none)
    (fun body => body.encoder = encoder ∧ body.codecFormat = codec)
    (fun body => ⟨body.stream, body.done⟩) := by
  have hstep : ∀ body : EncodingBody σ, body.encoder = encoder ∧ body.codecFormat = codec →
      (body.pollFrame pollNext).1 =
          (fusedStep pollNext (frameAnswer encoder codec) none ⟨body.stream, body.done⟩).1 ∧
        Fused.mk (body.pollFrame pollNext).2.stream (body.pollFrame pollNext).2.done =
          (fusedStep pollNext (frameAnswer encoder codec) none ⟨body.stream, body.done⟩).2 ∧
        (body.pollFrame pollNext).2.encoder = encoder ∧
        (body.pollFrame pollNext).2.codecFormat = codec := by
    rintro ⟨stream, _, _, error, done⟩ ⟨rfl, rfl⟩
    rcases hpoll : pollNext stream with ⟨_ | _ | request, stream'⟩
    · cases done <;> simp [EncodingBody.pollFrame, fusedStep, hpoll]
    · cases done <;> simp [EncodingBody.pollFrame, fusedStep, hpoll, frameAnswer]
    · cases done with
      | true => simp [EncodingBody.pollFrame, fusedStep]
      | false =>
        rename_i encoder codec
        rcases hmsg : request codec with err | msgBytes
        · simp [EncodingBody.pollFrame, fusedStep, hpoll, frameAnswer, frameMessage, hmsg]
        · rcases hframe : encoder.encode msgBytes [] with err | frame
          · simp [EncodingBody.pollFrame, fusedStep, hpoll, frameAnswer, frameMessage, hmsg, hframe]
          · simp [EncodingBody.pollFrame, fusedStep, hpoll, frameAnswer, frameMessage, hmsg, hframe]
  exact ⟨fun hs => (hstep _ hs).1, fun hs => (hstep _ hs).2.1, fun hs => (hstep _ hs).2.2⟩

@[simp] theorem frameAnswer_fst (a : Option ClientMessage) :
    (frameAnswer encoder codec a).1 = a.map (frameMessage encoder codec) := by
  rcases a with _ | m
  · rfl
  · rcases h : frameMessage encoder codec m with err | frame
    · simp [frameAnswer, h]
    · simp [frameAnswer, h]

/-- An answer is not the last if it is a message that can be sent. -/
theorem frameAnswer_snd {a : Option ClientMessage} :
    (frameAnswer encoder codec a).2 = false ↔
      ∃ m frame, a = some m ∧ frameMessage encoder codec m = .ok frame := by
  rcases a with _ | m
  · simp [frameAnswer]
  · rcases h : frameMessage encoder codec m with err | frame
    · simp [frameAnswer, h]
    · simp [frameAnswer, h]

/-- One poll, and the error that is kept. -/
theorem pollFrame_error (pollNext : σ → Poll (Option ClientMessage) × σ) (body : EncodingBody σ) :
    ((body.pollFrame pollNext).2.error = body.error ∧
        (∀ e, (body.pollFrame pollNext).1 ≠ .ready (some (.error e))) ∧
        ((body.pollFrame pollNext).2.done = false → body.done = false)) ∨
      body.done = false ∧ ∃ e, (body.pollFrame pollNext).1 = .ready (some (.error e)) ∧
        (body.pollFrame pollNext).2.error = some e ∧ (body.pollFrame pollNext).2.done = true := by
  obtain ⟨stream, encoder, codec, error, done⟩ := body
  cases done with
  | true => exact .inl ⟨rfl, by simp [EncodingBody.pollFrame], fun h => h⟩
  | false =>
    rcases hpoll : pollNext stream with ⟨_ | _ | request, stream'⟩
    · exact .inl (by simp [EncodingBody.pollFrame, hpoll])
    · exact .inl (by simp [EncodingBody.pollFrame, hpoll])
    · rcases hmsg : request codec with err | msgBytes
      · exact .inr (by simp [EncodingBody.pollFrame, hpoll, hmsg])
      · rcases hframe : encoder.encode msgBytes [] with err | frame
        · exact .inr (by simp [EncodingBody.pollFrame, hpoll, hmsg, hframe])
        · exact .inl (by simp [EncodingBody.pollFrame, hpoll, hmsg, hframe])

/-- The error that is kept for the call is the one that the body has answered. -/
theorem error_iff (n : ℕ) (e : ConnectError) :
    (after (EncodingBody.pollFrame pollNext) n (.new stream encoder codec)).error = some e ↔
      some (.error e) ∈ ready (polls (EncodingBody.pollFrame pollNext) n
        (.new stream encoder codec)) := by
  have hrun := @ready_invariant _ _ (EncodingBody.pollFrame pollNext)
    (fun l body => (∀ e, body.error = some e ↔ some (.error e) ∈ l) ∧
      (body.done = false → body.error = none)) ?_ ?_ n [] (.new stream encoder codec)
      ⟨by simp [EncodingBody.new], fun _ => rfl⟩
  · simpa using hrun.1 e
  · rintro l body ⟨herror, hnone⟩ hpending
    rcases pollFrame_error pollNext body with ⟨hsame, -, hdone⟩ | ⟨-, e, he, -⟩
    · rw [hsame]
      exact ⟨herror, fun h => hnone (hdone h)⟩
    · rw [hpending] at he
      cases he
  · rintro l body b ⟨herror, hnone⟩ hready
    rcases pollFrame_error pollNext body with ⟨hsame, hno, hdone⟩ | ⟨hlive, e, he, hkept, hdone⟩
    · rw [hsame]
      refine ⟨fun e => ?_, fun h => hnone (hdone h)⟩
      rw [herror, List.mem_append, List.mem_singleton]
      refine (or_iff_left ?_).symm
      rintro rfl
      exact hno e hready
    · obtain rfl := Poll.ready.inj (hready.symm.trans he)
      refine ⟨fun e' => ?_, fun h => absurd (hdone.symm.trans h) (by simp)⟩
      have hfirst : some (.error e') ∉ l := fun hmem => by
        have := (herror e').mpr hmem
        rw [hnone hlive] at this
        cases this
      rw [hkept, List.mem_append, List.mem_singleton, or_iff_right hfirst]
      simp [eq_comm]

/-- What the body of a client stream has made of `k` polls of the stream and `past` polls after
the last frame. -/
structure UploadRun (pollNext : σ → Poll (Option ClientMessage) × σ) (stream : σ)
    (encoder : EnvelopeEncoder) (codec : CodecFormat) (k past : ℕ)
    (frames : List (Option (Except ConnectError Bytes))) (body : EncodingBody σ) : Prop where
  /-- the stream has been polled `k` times -/
  polled : body.stream = after pollNext k stream
  /-- each of its answers is passed on, and then the end -/
  passed : frames = (ready (polls pollNext k stream)).map
    (fun a => a.map (frameMessage encoder codec)) ++ List.replicate past none
  /-- all but the latest were messages that could be sent -/
  sent : ∀ a ∈ (ready (polls pollNext k stream)).dropLast,
    ∃ m frame, a = some m ∧ frameMessage encoder codec m = .ok frame
  /-- the body has not ended as long as that is so of the latest -/
  goesOn : body.done = false ↔ ∀ a, (ready (polls pollNext k stream)).getLast? = some a →
    ∃ m frame, a = some m ∧ frameMessage encoder codec m = .ok frame
  /-- only after the end is there anything past it -/
  past : 0 < past → body.done = true
  /-- the error that is kept for the call is the one that was answered -/
  kept : ∀ e, body.error = some e ↔ some (.error e) ∈ frames

/-- **The body of a client stream**, however it is polled and whatever the stream does: it polls
the stream until the stream ends or a message cannot be sent, passes everything on in order, and
does not poll the stream again. -/
theorem upload_run (pollNext : σ → Poll (Option ClientMessage) × σ) (stream : σ)
    (encoder : EnvelopeEncoder) (codec : CodecFormat) (n : ℕ) :
    ∃ k past, k + past = n ∧ UploadRun pollNext stream encoder codec k past
      (ready (polls (EncodingBody.pollFrame pollNext) n (.new stream encoder codec)))
      (after (EncodingBody.pollFrame pollNext) n (.new stream encoder codec)) := by
  obtain ⟨hpolls, hafter⟩ : polls (EncodingBody.pollFrame pollNext) n (.new stream encoder codec) =
      polls (fusedStep pollNext (frameAnswer encoder codec) none) n ⟨stream, false⟩ ∧ _ :=
    encodingBody_simulates.polls n ⟨rfl, rfl⟩
  obtain ⟨k, past, hn, hrun⟩ := @fused_run _ _ _ pollNext
    (frameAnswer encoder codec) none n stream
  obtain ⟨hinner, hanswers, hcontinues, hdone, hpast⟩ := hrun
  have hdone' : (after (EncodingBody.pollFrame pollNext) n (.new stream encoder codec)).done =
      (after (fusedStep pollNext (frameAnswer encoder codec) none) n ⟨stream, false⟩).done :=
    congrArg Fused.done hafter
  refine ⟨k, past, hn, ?_, ?_, fun a hmem => ?_, ?_, fun h => ?_, error_iff n⟩
  · rw [← hinner]
    exact congrArg Fused.inner hafter
  · rw [hpolls, hanswers]
    simp only [frameAnswer_fst]
  · exact frameAnswer_snd.mp (hcontinues a hmem)
  · rw [← not_iff_not, Bool.not_eq_false, hdone', hdone]
    simp only [not_forall, ← frameAnswer_snd, exists_prop, Bool.not_eq_false]
  · rw [hdone']
    exact hpast h

/-! ## What is sent -/

/-- The bytes of an answer of a body. -/
def frameBytes : Option (Except ConnectError Bytes) → Bytes
  | some (.ok frame) => frame
  | _ => []

/-- The bytes that have been handed to the transport. -/
def carried (frames : List (Option (Except ConnectError Bytes))) : Bytes :=
  frames.flatMap frameBytes

/-- Messages and their frames. -/
def Framed (encoder : EnvelopeEncoder) (codec : CodecFormat) (messages : List ClientMessage)
    (frames : List Bytes) : Prop :=
  List.Forall₂ (fun m frame => frameMessage encoder codec m = .ok frame) messages frames

/-- Messages that can be sent have frames. -/
theorem exists_framed : ∀ {answers : List (Option ClientMessage)},
    (∀ a ∈ answers, ∃ m frame, a = some m ∧ frameMessage encoder codec m = .ok frame) →
    ∃ messages frames, answers = messages.map some ∧ Framed encoder codec messages frames := by
  intro answers
  induction answers with
  | nil => exact fun _ => ⟨[], [], rfl, .nil⟩
  | cons a answers ih =>
    intro h
    obtain ⟨m, frame, rfl, hframe⟩ := h a List.mem_cons_self
    obtain ⟨messages, frames, rfl, hframes⟩ := ih fun a' hmem => h a' (List.mem_cons_of_mem _ hmem)
    exact ⟨m :: messages, frame :: frames, rfl, .cons hframe hframes⟩

/-- Framed messages are passed on as their frames. -/
theorem Framed.passed {messages : List ClientMessage} {frames : List Bytes}
    (h : Framed encoder codec messages frames) :
    (messages.map some).map (fun a => a.map (frameMessage encoder codec)) =
      frames.map fun frame => some (.ok frame) := by
  induction h with
  | nil => rfl
  | cons hframe _ ih => rw [List.map_cons, List.map_cons, ih, Option.map_some, hframe, List.map_cons]

/-- A frame holds the encoded message. -/
theorem Framed.bodies {messages : List ClientMessage} {frames : List Bytes}
    (h : Framed encoder codec messages frames) :
    ∃ bodies : List Bytes, List.Forall₂ (fun m b => m codec = .ok b) messages bodies ∧
      (bodies.mapM fun b => encoder.encode b []) = .ok frames := by
  induction h with
  | nil => exact ⟨[], .nil, rfl⟩
  | @cons m frame messages frames hframe _ ih =>
    obtain ⟨bodies, hbodies, hencodes⟩ := ih
    rcases hbody : m codec with err | b
    · simp [frameMessage, hbody] at hframe
    · have hencode : encoder.encode b [] = .ok frame := by
        simpa [frameMessage, hbody] using hframe
      refine ⟨b :: bodies, .cons hbody hbodies, ?_⟩
      rw [List.mapM_cons, hencode, hencodes]
      rfl

theorem carried_frames (frames : List Bytes) (past : ℕ) :
    carried (frames.map (fun frame => some (.ok frame)) ++ List.replicate past none) =
      frames.flatten := by
  have hpast : (List.replicate past none).flatMap frameBytes = [] := by
    rw [List.flatMap_eq_nil_iff]
    intro a hmem
    rw [List.eq_of_mem_replicate hmem]
    rfl
  rw [carried, List.flatMap_append, List.flatMap_map, hpast, List.append_nil]
  simp [frameBytes, List.flatMap_id']

/-- A body that has answered its end, and kept no error, has got to the end of the stream. -/
theorem UploadRun.getLast {k past : ℕ} {frames : List (Option (Except ConnectError Bytes))}
    {body : EncodingBody σ} (h : UploadRun pollNext stream encoder codec k past frames body)
    (hend : none ∈ frames) (hnone : body.error = none) :
    (ready (polls pollNext k stream)).getLast? = some none := by
  have hdone : body.done = true := by
    by_contra hdone
    rw [Bool.not_eq_true] at hdone
    have hpast : past = 0 := by
      by_contra hpast
      have := h.past (Nat.pos_of_ne_zero hpast)
      rw [hdone] at this
      cases this
    rw [h.passed, hpast, List.replicate_zero, List.append_nil, List.mem_map] at hend
    obtain ⟨a, hmem, ha⟩ := hend
    obtain rfl := Option.map_eq_none_iff.mp ha
    -- an answer is either the latest or before it
    rcases List.eq_nil_or_concat (ready (polls pollNext k stream)) with hnil | ⟨before, last, hlast⟩
    · rw [hnil] at hmem
      cases hmem
    · have hgoes := h.goesOn.mp hdone last (by simp [hlast])
      rw [hlast, List.concat_eq_append, List.mem_append, List.mem_singleton] at hmem
      rcases hmem with hmem | rfl
      · obtain ⟨m, frame, hm, -⟩ := h.sent none (by simpa [hlast] using hmem)
        cases hm
      · obtain ⟨m, frame, hm, -⟩ := hgoes
        cases hm
  have hstops := mt h.goesOn.mpr (by simp [hdone])
  push Not at hstops
  obtain ⟨a, hlast, hno⟩ := hstops
  rcases a with _ | m
  · exact hlast
  · rcases hframe : frameMessage encoder codec m with err | frame
    · -- the error would have been kept
      have hmem : some (.error err) ∈ frames := by
        rw [h.passed]
        apply List.mem_append_left
        rw [List.mem_map]
        exact ⟨some m, List.mem_of_getLast? hlast, by rw [Option.map_some, hframe]⟩
      rw [(h.kept err).mpr hmem] at hnone
      cases hnone
    · exact absurd hframe (hno m frame rfl)

/-- The whole upload of a call whose stream has ended, and which reports no error of its own. -/
theorem UploadRun.complete {k past : ℕ} {frames : List (Option (Except ConnectError Bytes))}
    {body : EncodingBody σ} (h : UploadRun pollNext stream encoder codec k past frames body)
    (hend : none ∈ frames) (hnone : body.error = none) :
    ∃ (messages : List ClientMessage) (bodies : List Bytes),
      ready (polls pollNext k stream) = messages.map some ++ [none] ∧
      List.Forall₂ (fun m b => m codec = .ok b) messages bodies ∧
      (ClientBody.encoding encoder codec).bytes bodies = .ok (carried frames) := by
  obtain ⟨messages, ws, hmessages, hframed⟩ := exists_framed h.sent
  obtain ⟨bodies, hbodies, hws⟩ := hframed.bodies
  have hlast := List.dropLast_append_getLast? none (h.getLast hend hnone)
  refine ⟨messages, bodies, ?_, hbodies, ?_⟩
  · rw [← hmessages]
    exact hlast.symm
  · have hframes : frames = ws.map (fun frame => some (.ok frame)) ++
        List.replicate (past + 1) none := by
      rw [h.passed, ← hlast, List.map_append, hmessages, hframed.passed, List.append_assoc,
        List.replicate_succ]
      rfl
    rw [hframes, carried_frames, ClientBody.bytes, hws]
    rfl

/-! ## What is received -/

/-- What a server with these limits can take of the messages of an upload. -/
structure UploadFits (t : RequestSetup) (encoder : EnvelopeEncoder) (bodies : List Bytes) :
    Prop where
  /-- it knows the encoding -/
  understands : t.Understands encoder.compression
  /-- the messages are not too large, nor are their envelopes -/
  fits : ∀ m ∈ bodies, m.length ≤ t.maxMessageSize ∧
    ∀ e, encoder.envelope (.contiguous m) = .ok e → e.data.length ≤ t.maxMessageSize
  /-- none is flagged as compressed where there is nothing to decompress -/
  plain : ∀ m ∈ bodies, ¬encoder.FlagsIdentity m

/-- **An upload is received as it was sent.** If `call_client_stream` succeeds after its body was
polled to the end, then the server is handed the messages of the caller's stream, all of them and
in order, in whatever pieces the bytes arrive. -/
theorem client_stream_received {α : Type} (pollNext : σ → Poll (Option ClientMessage) × σ)
    (stream : σ) (encoder : EnvelopeEncoder) (codec : CodecFormat) (n : ℕ)
    {result : Except ConnectError α} {response : α}
    (hend : none ∈ ready (polls (EncodingBody.pollFrame pollNext) n (.new stream encoder codec)))
    (hok : clientStreamResult
      (after (EncodingBody.pollFrame pollNext) n (.new stream encoder codec)).error result =
        .ok response) :
    ∃ (k : ℕ) (messages : List ClientMessage) (bodies : List Bytes),
      ready (polls pollNext k stream) = messages.map some ++ [none] ∧
      List.Forall₂ (fun m b => m codec = .ok b) messages bodies ∧
      ∀ (t : RequestSetup) (request : RequestBody), UploadFits t encoder bodies →
        request.Carries (carried (ready (polls (EncodingBody.pollFrame pollNext) n
          (.new stream encoder codec)))) →
        Yields t request bodies := by
  obtain ⟨k, past, -, hrun⟩ := upload_run pollNext stream encoder codec n
  have hnone : (after (EncodingBody.pollFrame pollNext) n (.new stream encoder codec)).error =
      none := by
    rcases herror : (after (EncodingBody.pollFrame pollNext) n
      (.new stream encoder codec)).error with _ | err
    · rfl
    · rw [herror] at hok
      cases hok
  obtain ⟨messages, bodies, hstream, hbodies, hbytes⟩ := hrun.complete hend hnone
  refine ⟨k, messages, bodies, hstream, hbodies, fun t request hfits hcarries => ?_⟩
  obtain ⟨ws, hws, hflat⟩ := exists_of_map_ok hbytes
  obtain ⟨es, hes, hwire⟩ := mapM_encode_ok hws
  rw [← hflat, hwire] at hcarries
  rw [yields_iff hcarries, reading_envelopes_iff hfits.understands hes hfits.fits]
  exact hfits.plain

/-- An encoder that compresses what is not empty. -/
def brEncoder : EnvelopeEncoder :=
  ⟨some (prefixRegistry "br" isHttpToken_br, "br"), ⟨true, 1⟩⟩

/-- A server that undoes it, with a limit of three bytes. -/
def brSetup : RequestSetup :=
  ⟨3, some "br", prefixRegistry "br" isHttpToken_br⟩

/-- It can take a message of two bytes and an empty one. -/
theorem uploadFits_br {bodies : List Bytes} (h : ∀ m ∈ bodies, m = [7, 8] ∨ m = []) :
    UploadFits brSetup brEncoder bodies where
  understands := by
    intro reg encoding heq
    obtain ⟨rfl, rfl⟩ := Prod.mk.inj (Option.some.inj heq)
    exact ⟨rfl, prefixRegistry_inverts isHttpToken_br⟩
  fits m hm := by
    rcases h m hm with rfl | rfl
    · refine ⟨by decide, fun e he => ?_⟩
      obtain rfl := Except.ok.inj he
      decide
    · refine ⟨by decide, fun e he => ?_⟩
      obtain rfl := Except.ok.inj he
      decide
  plain m _ := by
    rintro ⟨-, reg, heq⟩
    exact absurd (Prod.mk.inj (Option.some.inj heq)).2 (by decide)

/-- Messages that are ready one after another. -/
def readyMessages : List ClientMessage → Poll (Option ClientMessage) × List ClientMessage
  | [] => (.ready none, [])
  | m :: ms => (.ready (some m), ms)

/-- Polled to its end, such a stream has yielded its messages. -/
theorem eq_of_readyMessages : ∀ {k : ℕ} {ms messages : List ClientMessage},
    ready (polls readyMessages k ms) = messages.map some ++ [none] → messages = ms
  | 0, _, messages, h => absurd h.symm (List.append_ne_nil_of_right_ne_nil _ (List.cons_ne_nil _ _))
  | _ + 1, [], [], _ => rfl
  | _ + 1, [], _ :: _, h => nomatch (List.cons.inj h).1
  | _ + 1, _ :: _, [], h => nomatch (List.cons.inj h).1
  | k + 1, m :: ms, a :: messages, h => by
    obtain ⟨hfirst, hrest⟩ := List.cons.inj h
    obtain rfl := Option.some.inj hfirst
    rw [@eq_of_readyMessages k ms messages hrest]

/-- A stream of two messages, the second of which is empty, arrives in two pieces. -/
theorem client_stream_received_two :
    Yields brSetup ⟨[.ready (.data [1, 0, 0, 0]), .pending,
      .ready (.data [3, 0, 7, 8, 0, 0, 0, 0, 0])], fun _ => false⟩ [[7, 8], []] := by
  obtain ⟨k, messages, bodies, hstream, hbodies, hyields⟩ :=
    @client_stream_received _ _ readyMessages [fun _ => .ok [7, 8], fun _ => .ok []] brEncoder .proto
      3 (.ok ()) () (List.mem_iff_getElem?.mpr ⟨2, rfl⟩) rfl
  rw [eq_of_readyMessages hstream] at hbodies
  have htwo : bodies = [[7, 8], []] := by
    cases hbodies with
    | cons h₁ hbodies =>
      cases hbodies with
      | cons h₂ hbodies =>
        cases hbodies
        obtain rfl := Except.ok.inj h₁
        obtain rfl := Except.ok.inj h₂
        rfl
  subst htwo
  exact hyields brSetup _ (uploadFits_br (by simp)) rfl

end Encoding

/-! ## What has been received so far -/

section Cut

variable {t : RequestSetup} {encoder : EnvelopeEncoder} {bodies : List Bytes} {es : List Envelope}

/-- There is no envelope in less than its bytes. -/
theorem decodeWith_cut {limitOf : LimitOf} {e : Envelope} {b c : Bytes}
    (hsize : e.data.length ≤ u32Max) (hlimit : e.data.length ≤ (limitOf e.flags).2)
    (hcut : e.wire = b ++ c) (hc : c ≠ []) : decodeWith limitOf b = .ok none := by
  have hwhole : decodeWith limitOf (b ++ c) = .ok (some (e, [])) := by
    rw [← hcut, ← List.append_nil e.wire]
    exact decodeWith_wire [] hsize hlimit
  rcases h : decodeWith limitOf b with err | _ | ⟨e', r⟩
  · rw [(decodeWith_stable limitOf).error_append c h] at hwhole
    cases hwhole
  · rfl
  · rw [(decodeWith_stable limitOf).item_append c h] at hwhole
    have hnil := (Prod.mk.inj (Option.some.inj (Except.ok.inj hwhole))).2
    exact absurd (List.append_eq_nil_iff.mp hnil).2 hc

/-- **What is read of an upload that was cut** is the beginning of it. -/
theorem reading_cut (hunderstands : t.Understands encoder.compression)
    (hes : List.Forall₂ (fun m e => encoder.envelope (.contiguous m) = .ok e) bodies es)
    (hfits : ∀ m ∈ bodies, m.length ≤ t.maxMessageSize ∧
      ∀ e, encoder.envelope (.contiguous m) = .ok e → e.data.length ≤ t.maxMessageSize)
    (hplain : ∀ m ∈ bodies, ¬encoder.FlagsIdentity m) (bodyEnd : RequestEnd) :
    ∀ {b : Bytes}, b <+: es.flatMap Envelope.wire → (t.reading b bodyEnd).1 <+: bodies := by
  induction hes with
  | nil =>
    intro b hb
    obtain rfl := List.prefix_nil.mp hb
    simp [RequestSetup.reading_none (decodeWith_short (show [].length < 5 by decide))]
  | @cons m e bodies es he _ ih =>
    intro b hb
    rw [List.forall_mem_cons] at hfits hplain
    have hsize := EnvelopeEncoder.envelope_length he
    have hlimit := hfits.1.2 e he
    rw [List.flatMap_cons] at hb
    rcases List.prefix_or_prefix_of_prefix hb (List.prefix_append _ _) with hcut | ⟨r, rfl⟩
    · obtain ⟨c, hc⟩ := hcut
      by_cases hempty : c = []
      · -- the whole envelope, and nothing more
        subst hempty
        rw [List.append_nil] at hc
        have hitem : decodeWith t.limits b = .ok (some (e, [])) := by
          rw [hc, ← List.append_nil e.wire]
          exact decodeWith_wire [] hsize hlimit
        rw [RequestSetup.reading_item bodyEnd hitem,
          (decodeEnvelope_envelope_iff hunderstands he hfits.1.1).mpr hplain.1]
        exact List.cons_prefix_cons.mpr ⟨rfl, ih hfits.2 hplain.2 List.nil_prefix⟩
      · rw [RequestSetup.reading_none (decodeWith_cut hsize hlimit hc.symm hempty)]
        exact List.nil_prefix
    · have hitem : decodeWith t.limits (e.wire ++ r) = .ok (some (e, r)) :=
        decodeWith_wire r hsize hlimit
      rw [RequestSetup.reading_item bodyEnd hitem,
        (decodeEnvelope_envelope_iff hunderstands he hfits.1.1).mpr hplain.1]
      exact List.cons_prefix_cons.mpr
        ⟨rfl, ih hfits.2 hplain.2 ((List.prefix_append_right_inj _).mp hb)⟩

/-- The messages among some answers of a request stream. -/
def handed (answers : List (Option (Except ConnectError Bytes))) : List Bytes :=
  answers.filterMap fun
    | some (.ok d) => some d
    | _ => none

/-- What is handed to a handler is the beginning of what is read. -/
theorem handed_take (n : ℕ) : ∀ (r : List Bytes × Option ConnectError),
    handed ((requestAnswers r).take n) <+: r.1 := by
  induction n with
  | zero => exact fun r => List.nil_prefix
  | succ n ih =>
    rintro ⟨_ | ⟨d, ds⟩, err⟩
    · rw [requestAnswers_end, Stream'.take_succ_cons]
      have hrest := ih ([], none)
      rw [List.prefix_nil] at hrest ⊢
      rcases err with _ | e
      · exact hrest
      · exact hrest
    · rw [requestAnswers_message, Stream'.take_succ_cons]
      exact List.cons_prefix_cons.mpr ⟨rfl, ih (ds, err)⟩

/-- The answers of a request stream are those of what it reads. -/
theorem streamAnswers_rest (t : RequestSetup) (request : RequestBody) (n : ℕ) :
    streamAnswers t request n = (requestAnswers (t.reading (requestRest (ready request.polls)).1
      (requestRest (ready request.polls)).2)).take (streamAnswers t request n).length :=
  RequestRun.answersIn_trace (List.replicate n .poll) (.start t request) (live_start t request)

end Cut

end ConnectRpc
