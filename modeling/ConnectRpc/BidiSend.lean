import ConnectRpc.Upload

/-!
# The send half of a bidirectional stream

`BidiSendHalf::send` puts the frame of a message into a channel, from which `ChannelBody` hands it
to the transport. The two ends run beside each other: the caller sends, waits for space, gives up or
closes, while the transport takes frames or drops the body. `bidi_upload` says what may happen
after what in any such run, `bidi_upload_account` what has become of the messages, and
`bidi_upload_received` what the handler on the other side has been given.
-/

namespace ConnectRpc

open Lib

/-- How many frames the channel of `call_bidi_stream` holds. -/
def CHANNEL_DEPTH : ℕ := 32

/-- `BidiSendHalf`. -/
structure BidiSendHalf where
  /-- whether there is a sender -/
  tx : Bool
  /-- the encoder -/
  encoder : EnvelopeEncoder
  /-- the codec -/
  codecFormat : CodecFormat
  /-- the deadline of the whole call -/
  deadline : Option ℕ

/-- Why a message was not sent. -/
inductive SendRefusal : Type where
  /-- the deadline had passed at this time -/
  | late (now : ℕ)
  /-- the half was closed -/
  | afterClose
  /-- the message cannot be put into a frame -/
  | unframed (err : ConnectError)
  /-- there is nobody to take it -/
  | streamClosed

/-- The error of `BidiSendHalf::send`. -/
def SendRefusal.error : SendRefusal → ConnectError
  | late _ => .deadlineExceeded "client-side deadline exceeded"
  | afterClose => .internal "send after close_send"
  | unframed err => err
  | streamClosed => .unavailable "stream closed by server (call message() for error)"

/-- `BidiSendHalf::send` up to the channel. -/
def BidiSendHalf.prepare (half : BidiSendHalf) (now : ℕ) (msg : ClientMessage) :
    Except SendRefusal Bytes :=
  if half.deadline.any (· ≤ now) then .error (.late now)
  else if !half.tx then .error .afterClose
  else
    match frameMessage half.encoder half.codecFormat msg with
    | .error err => .error (.unframed err)
    | .ok frame => .ok frame

/-- What can be seen of an upload. -/
inductive UploadEvent : Type where
  /-- `send` has answered `Ok` -/
  | sent (msg : ClientMessage)
  /-- `send` has answered an error -/
  | refused (msg : ClientMessage) (why : SendRefusal)
  /-- the future of `send` was dropped -/
  | cancelled (msg : ClientMessage)
  /-- `close_send` was called, or the half was dropped -/
  | closed
  /-- the body has answered a frame -/
  | frame (bytes : Bytes)
  /-- the body has answered its end -/
  | ended
  /-- the body was dropped -/
  | dropped

/-- The two ends of the channel, and what has happened. -/
structure BidiUpload where
  /-- the half that the caller has -/
  half : BidiSendHalf
  /-- the send that waits for space -/
  waiting : Option (ClientMessage × Bytes)
  /-- the frames in the channel -/
  queue : List Bytes
  /-- whether there is still a body -/
  rx : Bool
  /-- what has happened, the latest first -/
  history : List UploadEvent

/-- What happens next. -/
inductive UploadChoice : Type where
  /-- the caller calls `send` -/
  | send (now : ℕ) (msg : ClientMessage)
  /-- the future of `send` is polled -/
  | resume
  /-- the future of `send` is dropped -/
  | cancel
  /-- the caller calls `close_send`, or drops the half -/
  | closeSend
  /-- the transport polls the body -/
  | pollFrame
  /-- the transport drops the body -/
  | dropBody

namespace BidiUpload

/-- The channel of `call_bidi_stream`. -/
def start (encoder : EnvelopeEncoder) (codec : CodecFormat) (deadline : Option ℕ) : BidiUpload :=
  ⟨⟨true, encoder, codec, deadline⟩, none, [], true, []⟩

/-- Add an event to the history. -/
def emit (u : BidiUpload) (e : UploadEvent) : BidiUpload :=
  { u with history := e :: u.history }

/-- One step of one of the ends. -/
def step (u : BidiUpload) : UploadChoice → BidiUpload
  | .send now msg =>
    -- the future of `send` borrows the half, so there is only one
    if u.waiting.isSome then u
    else
      match u.half.prepare now msg with
      | .error why => u.emit (.refused msg why)
      | .ok frame => { u with waiting := some (msg, frame) }
  | .resume =>
    match u.waiting with
    | none => u
    | some (msg, frame) =>
      if !u.rx then { u with waiting := none }.emit (.refused msg .streamClosed)
      else if u.queue.length < CHANNEL_DEPTH then
        { u with waiting := none, queue := u.queue ++ [frame] }.emit (.sent msg)
      else u
  | .cancel =>
    match u.waiting with
    | none => u
    | some (msg, _) => { u with waiting := none }.emit (.cancelled msg)
  | .closeSend =>
    if u.waiting.isSome then u
    else { u with half := { u.half with tx := false } }.emit .closed
  | .pollFrame =>
    if !u.rx then u
    else
      match u.queue with
      | frame :: queue => { u with queue := queue }.emit (.frame frame)
      | [] => if u.half.tx then u else u.emit .ended
  | .dropBody => if !u.rx then u else { u with rx := false, queue := [] }.emit .dropped

/-- A run of the two ends. -/
def run (u : BidiUpload) (choices : List UploadChoice) : BidiUpload :=
  choices.foldl step u

end BidiUpload

/-! ## What may happen -/

/-- The messages that were sent, the first one first. -/
def sentOf (history : List UploadEvent) : List ClientMessage :=
  history.reverse.filterMap fun
    | .sent msg => some msg
    | _ => none

/-- The frames that the transport has been given, the first one first. -/
def framesOf (history : List UploadEvent) : List Bytes :=
  history.reverse.filterMap fun
    | .frame bytes => some bytes
    | _ => none

/-- When a send may be refused. -/
def MayRefuse (half : BidiSendHalf) (before : List UploadEvent) (msg : ClientMessage) :
    SendRefusal → Prop
  | .late now => ∃ d, half.deadline = some d ∧ d ≤ now
  | .afterClose => .closed ∈ before
  | .unframed err => .closed ∉ before ∧
      frameMessage half.encoder half.codecFormat msg = .error err
  | .streamClosed => .closed ∉ before ∧ .dropped ∈ before

/-- What an upload may do after what it has done. -/
def UploadAllowed (half : BidiSendHalf) (before : List UploadEvent) : UploadEvent → Prop
  | .sent msg => .closed ∉ before ∧ .dropped ∉ before ∧
      (∃ frame, frameMessage half.encoder half.codecFormat msg = .ok frame) ∧
      (sentOf before).length < (framesOf before).length + CHANNEL_DEPTH
  | .refused msg why => MayRefuse half before msg why
  | .cancelled _ => .closed ∉ before
  | .closed => True
  | .frame bytes => .dropped ∉ before ∧
      ∃ msg, (sentOf before)[(framesOf before).length]? = some msg ∧
        frameMessage half.encoder half.codecFormat msg = .ok bytes
  | .ended => .closed ∈ before ∧ .dropped ∉ before ∧
      (framesOf before).length = (sentOf before).length
  | .dropped => .dropped ∉ before

/-- What holds of the two ends at any time. -/
structure UploadInv (half : BidiSendHalf) (u : BidiUpload) : Prop where
  /-- the half is the same but for its sender -/
  half_eq : u.half = { half with tx := u.half.tx }
  /-- the sender is there until it is closed -/
  tx : u.half.tx = true ↔ .closed ∉ u.history
  /-- the body is there until it is dropped -/
  rx : u.rx = true ↔ .dropped ∉ u.history
  /-- a message that waits is in a frame, and the half is open -/
  waits : ∀ msg frame, u.waiting = some (msg, frame) →
    frameMessage half.encoder half.codecFormat msg = .ok frame ∧ .closed ∉ u.history
  /-- a message that was sent was given to the transport, or is in the channel until that is gone -/
  account : ∃ rest, Framed half.encoder half.codecFormat (sentOf u.history)
    (framesOf u.history ++ rest) ∧ rest.length ≤ CHANNEL_DEPTH ∧ (u.rx = true → rest = u.queue)
  /-- what happened was allowed -/
  ordered : Ordered (UploadAllowed half) u.history

section Run

variable {half : BidiSendHalf} {u : BidiUpload}

theorem sentOf_cons (e : UploadEvent) (h : List UploadEvent) :
    sentOf (e :: h) = sentOf h ++ (match e with | .sent msg => [msg] | _ => []) := by
  rw [sentOf, List.reverse_cons, List.filterMap_append]
  cases e <;> rfl

theorem framesOf_cons (e : UploadEvent) (h : List UploadEvent) :
    framesOf (e :: h) = framesOf h ++ (match e with | .frame bytes => [bytes] | _ => []) := by
  rw [framesOf, List.reverse_cons, List.filterMap_append]
  cases e <;> rfl

/-- What `send` answers before it gets to the channel. -/
theorem BidiSendHalf.prepare_cases (now : ℕ) (msg : ClientMessage) :
    (∃ d, half.deadline = some d ∧ d ≤ now ∧ half.prepare now msg = .error (.late now)) ∨
      (half.tx = false ∧ half.prepare now msg = .error .afterClose) ∨
      half.tx = true ∧
        ((∃ err, frameMessage half.encoder half.codecFormat msg = .error err ∧
            half.prepare now msg = .error (.unframed err)) ∨
          ∃ frame, frameMessage half.encoder half.codecFormat msg = .ok frame ∧
            half.prepare now msg = .ok frame) := by
  by_cases hlate : half.deadline.any (· ≤ now)
  · rcases hd : half.deadline with _ | d
    · simp [hd] at hlate
    · exact .inl ⟨d, rfl, by simpa [hd] using hlate, if_pos hlate⟩
  · cases htx : half.tx with
    | false => exact .inr (.inl ⟨rfl, by simp [prepare, hlate, htx]⟩)
    | true =>
      refine .inr (.inr ⟨rfl, ?_⟩)
      rcases hframe : frameMessage half.encoder half.codecFormat msg with err | frame
      · exact .inl ⟨err, rfl, by simp [prepare, hlate, htx, hframe]⟩
      · exact .inr ⟨frame, rfl, by simp [prepare, hlate, htx, hframe]⟩

/-- An event by which no message gets anywhere. -/
def UploadEvent.Idle : UploadEvent → Prop
  | .sent _ | .frame _ | .closed | .dropped => False
  | _ => True

/-- Such an event changes nothing else. -/
theorem UploadInv.emit {e : UploadEvent} (h : UploadInv half u) (hidle : e.Idle)
    (hallowed : UploadAllowed half u.history e) : UploadInv half (u.emit e) := by
  have hsent : sentOf (e :: u.history) = sentOf u.history := by
    rw [sentOf_cons]
    cases e <;> simp_all [UploadEvent.Idle]
  have hframes : framesOf (e :: u.history) = framesOf u.history := by
    rw [framesOf_cons]
    cases e <;> simp_all [UploadEvent.Idle]
  have hclosed : .closed ∈ e :: u.history ↔ .closed ∈ u.history := by
    cases e <;> simp_all [UploadEvent.Idle]
  have hdropped : .dropped ∈ e :: u.history ↔ .dropped ∈ u.history := by
    cases e <;> simp_all [UploadEvent.Idle]
  refine ⟨h.half_eq, ?_, ?_, fun msg frame hwait => ?_, ?_, .cons hallowed h.ordered⟩
  · exact h.tx.trans (not_congr hclosed.symm)
  · exact h.rx.trans (not_congr hdropped.symm)
  · obtain ⟨hframe, hopen⟩ := h.waits msg frame hwait
    exact ⟨hframe, mt hclosed.mp hopen⟩
  · simp only [BidiUpload.emit, hsent, hframes]
    exact h.account

/-- Without the send that waits all is as before. -/
theorem UploadInv.forget (h : UploadInv half u) : UploadInv half { u with waiting := none } :=
  ⟨h.half_eq, h.tx, h.rx, (fun _ _ hwait => nomatch hwait), h.account, h.ordered⟩

/-- A message that waited is in the channel once there is space. -/
theorem UploadInv.push {msg : ClientMessage} {frame : Bytes} (h : UploadInv half u)
    (hwaiting : u.waiting = some (msg, frame)) (hrx : u.rx = true)
    (hspace : u.queue.length < CHANNEL_DEPTH) :
    UploadInv half ({ u with waiting := none, queue := u.queue ++ [frame] }.emit (.sent msg)) := by
  obtain ⟨hframe, hopen⟩ := h.waits msg frame hwaiting
  obtain ⟨rest, hframed, -, hrest⟩ := h.account
  obtain rfl := hrest hrx
  have hlen := hframed.length_eq
  rw [List.length_append] at hlen
  have hroom : (sentOf u.history).length < (framesOf u.history).length + CHANNEL_DEPTH := by
    omega
  refine ⟨h.half_eq, ?_, ?_, (fun _ _ hwait => nomatch hwait), ⟨u.queue ++ [frame], ?_, ?_, fun _ => rfl⟩,
    .cons ⟨hopen, h.rx.mp hrx, ⟨frame, hframe⟩, hroom⟩ h.ordered⟩
  · simpa [BidiUpload.emit] using h.tx
  · simpa [BidiUpload.emit] using h.rx
  · simp only [BidiUpload.emit, sentOf_cons, framesOf_cons, List.append_nil]
    rw [← List.append_assoc]
    exact List.rel_append hframed (.cons hframe .nil)
  · rw [List.length_append]
    exact hspace

/-- The frame that has been in the channel longest is given to the transport. -/
theorem UploadInv.take {frame : Bytes} {queue : List Bytes} (h : UploadInv half u)
    (hqueue : u.queue = frame :: queue) (hrx : u.rx = true) :
    UploadInv half ({ u with queue := queue }.emit (.frame frame)) := by
  obtain ⟨rest, hframed, hdepth, hrest⟩ := h.account
  obtain rfl := (hrest hrx).trans hqueue
  refine ⟨h.half_eq, ?_, ?_, fun msg frame' hwait => ?_, ⟨queue, ?_, ?_, fun _ => rfl⟩,
    .cons ⟨h.rx.mp hrx, ?_⟩ h.ordered⟩
  · simpa [BidiUpload.emit] using h.tx
  · simpa [BidiUpload.emit] using h.rx
  · simpa [BidiUpload.emit] using h.waits msg frame' hwait
  · simp only [BidiUpload.emit, sentOf_cons, framesOf_cons, List.append_nil]
    rw [List.append_assoc]
    exact hframed
  · exact Nat.le_of_succ_le hdepth
  · -- the messages of the frames before it are as many as these
    have hdrop := List.forall₂_drop_append _ _ _ hframed
    obtain ⟨msg, after, hframe, -, hmsg⟩ := List.forall₂_cons_right_iff.mp hdrop
    refine ⟨msg, ?_, hframe⟩
    rw [← List.head?_drop, hmsg]
    rfl

/-- The half is closed if no send waits. -/
theorem UploadInv.close (h : UploadInv half u) (hwaiting : u.waiting = none) :
    UploadInv half ({ u with half := { u.half with tx := false } }.emit .closed) := by
  refine ⟨?_, by simp [BidiUpload.emit], ?_, fun msg frame hwait => ?_, ?_, .cons trivial h.ordered⟩
  · simp only [BidiUpload.emit]
    rw [h.half_eq]
  · simpa [BidiUpload.emit] using h.rx
  · simp [BidiUpload.emit, hwaiting] at hwait
  · simpa [BidiUpload.emit, sentOf_cons, framesOf_cons] using h.account

/-- The frames that are in the channel are gone with the body. -/
theorem UploadInv.drop (h : UploadInv half u) (hrx : u.rx = true) :
    UploadInv half ({ u with rx := false, queue := [] }.emit .dropped) := by
  obtain ⟨rest, hframed, hdepth, -⟩ := h.account
  refine ⟨h.half_eq, ?_, by simp [BidiUpload.emit], fun msg frame hwait => ?_,
    ⟨rest, ?_, hdepth, fun hgone => ?_⟩, .cons (h.rx.mp hrx) h.ordered⟩
  · simpa [BidiUpload.emit] using h.tx
  · simpa [BidiUpload.emit] using h.waits msg frame hwait
  · simpa [BidiUpload.emit, sentOf_cons, framesOf_cons] using hframed
  · simp [BidiUpload.emit] at hgone

/-- What a call of `send` does. -/
theorem UploadInv.send (h : UploadInv half u) (now : ℕ) (msg : ClientMessage) :
    UploadInv half (u.step (.send now msg)) := by
  rw [BidiUpload.step]
  split
  · exact h
  · have hhalf := h.half_eq
    have henc : u.half.encoder = half.encoder := by rw [hhalf]
    have hcodec : u.half.codecFormat = half.codecFormat := by rw [hhalf]
    have hdeadline : u.half.deadline = half.deadline := by rw [hhalf]
    have hclosed (htx : u.half.tx = false) : .closed ∈ u.history := by
      by_contra hopen
      rw [h.tx.mpr hopen] at htx
      cases htx
    obtain ⟨d, hd, hle, hprepare⟩ | ⟨htx, hprepare⟩ | ⟨htx, ⟨err, hframe, hprepare⟩ |
      ⟨frame, hframe, hprepare⟩⟩ := u.half.prepare_cases now msg
    · rw [hprepare]
      exact h.emit trivial ⟨d, hdeadline ▸ hd, hle⟩
    · rw [hprepare]
      exact h.emit trivial (hclosed htx)
    · rw [hprepare]
      exact h.emit trivial ⟨h.tx.mp htx, henc ▸ hcodec ▸ hframe⟩
    · rw [hprepare]
      refine ⟨h.half_eq, h.tx, h.rx, fun msg' frame' hwait => ?_, h.account, h.ordered⟩
      obtain ⟨rfl, rfl⟩ := Prod.mk.inj (Option.some.inj hwait)
      exact ⟨henc ▸ hcodec ▸ hframe, h.tx.mp htx⟩

/-- What a poll of the future of `send` does. -/
theorem UploadInv.resume (h : UploadInv half u) : UploadInv half (u.step .resume) := by
  rw [BidiUpload.step]
  rcases hwaiting : u.waiting with _ | ⟨msg, frame⟩
  · exact h
  · obtain ⟨-, hopen⟩ := h.waits msg frame hwaiting
    by_cases hrx : u.rx = true
    · by_cases hspace : u.queue.length < CHANNEL_DEPTH
      · simpa [hrx, hspace] using h.push hwaiting hrx hspace
      · simpa [hrx, hspace] using h
    · have hdropped : .dropped ∈ u.history := by
        by_contra hbody
        exact hrx (h.rx.mpr hbody)
      have hinv := h.forget.emit (e := .refused msg .streamClosed) trivial ⟨hopen, hdropped⟩
      simpa [hrx] using hinv

/-- What a poll of the body does. -/
theorem UploadInv.pollFrame (h : UploadInv half u) : UploadInv half (u.step .pollFrame) := by
  rw [BidiUpload.step]
  by_cases hrx : u.rx = true
  · rcases hqueue : u.queue with _ | ⟨frame, queue⟩
    · by_cases htx : u.half.tx = true
      · simpa [hrx, htx] using h
      · obtain ⟨rest, hframed, -, hrest⟩ := h.account
        obtain rfl := (hrest hrx).trans hqueue
        rw [List.append_nil] at hframed
        have hclosed : .closed ∈ u.history := by
          by_contra hopen
          exact htx (h.tx.mpr hopen)
        have hinv := h.emit (e := .ended) trivial ⟨hclosed, h.rx.mp hrx, hframed.length_eq.symm⟩
        simpa [hrx, htx] using hinv
    · simpa [hrx] using h.take hqueue hrx
  · simpa [hrx] using h

/-- Every step of either end keeps the invariant. -/
theorem UploadInv.step (h : UploadInv half u) (c : UploadChoice) : UploadInv half (u.step c) := by
  cases c with
  | send now msg => exact h.send now msg
  | resume => exact h.resume
  | pollFrame => exact h.pollFrame
  | cancel =>
    rw [BidiUpload.step]
    rcases hwaiting : u.waiting with _ | ⟨msg, frame⟩
    · exact h
    · obtain ⟨-, hopen⟩ := h.waits msg frame hwaiting
      exact h.forget.emit trivial hopen
  | closeSend =>
    rw [BidiUpload.step]
    split
    · exact h
    · rename_i hnone
      exact h.close (Option.not_isSome_iff_eq_none.mp hnone)
  | dropBody =>
    rw [BidiUpload.step]
    by_cases hrx : u.rx = true
    · simpa [hrx] using h.drop hrx
    · simpa [hrx] using h

theorem uploadInv_start (encoder : EnvelopeEncoder) (codec : CodecFormat) (deadline : Option ℕ) :
    UploadInv ⟨true, encoder, codec, deadline⟩ (.start encoder codec deadline) where
  half_eq := rfl
  tx := by simp [BidiUpload.start]
  rx := by simp [BidiUpload.start]
  waits := fun _ _ hwait => nomatch hwait
  account := ⟨[], .nil, Nat.zero_le _, fun _ => rfl⟩
  ordered := .nil

/-- Every run keeps the invariant. -/
theorem uploadInv_run (encoder : EnvelopeEncoder) (codec : CodecFormat) (deadline : Option ℕ)
    (choices : List UploadChoice) : UploadInv ⟨true, encoder, codec, deadline⟩
      ((BidiUpload.start encoder codec deadline).run choices) := by
  induction choices using List.reverseRecOn with
  | nil => exact uploadInv_start encoder codec deadline
  | append_singleton choices c ih =>
    rw [BidiUpload.run, List.foldl_append]
    exact ih.step c

end Run

/-! ## The run -/

section Account

variable {half : BidiSendHalf} {log : List UploadEvent}

/-- After the half was closed nothing is sent. -/
theorem sentOf_after (h : Ordered (UploadAllowed half) log) {new before : List UploadEvent}
    (hlog : log = new ++ before) (hclosed : .closed ∈ before) : sentOf log = sentOf before := by
  have hnone : sentOf new = [] := by
    rw [sentOf, List.filterMap_eq_nil_iff]
    intro e hmem
    obtain ⟨first, second, hnew⟩ := List.append_of_mem (List.mem_reverse.mp hmem)
    have hallowed := ordered_iff.mp h first e (second ++ before) (by rw [hlog, hnew]; simp)
    cases e with
    | sent msg => exact absurd (List.mem_append_right _ hclosed) hallowed.1
    | _ => rfl
  have happend : sentOf log = sentOf before ++ sentOf new := by
    rw [hlog, sentOf, List.reverse_append, List.filterMap_append]
    rfl
  rw [happend, hnone, List.append_nil]

theorem framesOf_append (new before : List UploadEvent) :
    framesOf (new ++ before) = framesOf before ++ framesOf new := by
  rw [framesOf, List.reverse_append, List.filterMap_append]
  rfl

/-- Once the body has answered its end, the transport has everything that was sent. -/
theorem length_of_ended (h : Ordered (UploadAllowed half) log) (hended : .ended ∈ log) :
    (sentOf log).length ≤ (framesOf log).length := by
  obtain ⟨new, before, hlog⟩ := List.append_of_mem hended
  obtain ⟨hclosed, -, hall⟩ := ordered_iff.mp h new .ended before hlog
  have hsent : sentOf log = sentOf (.ended :: before) :=
    sentOf_after h hlog (List.mem_cons_of_mem _ hclosed)
  rw [hsent, hlog, framesOf_append, sentOf_cons, framesOf_cons]
  simp only [List.append_nil, List.length_append]
  omega

end Account

variable (encoder : EnvelopeEncoder) (codec : CodecFormat) (deadline : Option ℕ)

/-- **The upload of a bidirectional stream**, however its two ends take turns: what happens is
allowed by what has happened before, and the transport has been given the frames of the messages
that were sent, in order, except for the last few as long as it has not been given the end. -/
theorem bidi_upload (choices : List UploadChoice) :
    let log := ((BidiUpload.start encoder codec deadline).run choices).history
    Ordered (UploadAllowed ⟨true, encoder, codec, deadline⟩) log ∧
      ∃ frames, Framed encoder codec (sentOf log) frames ∧ framesOf log <+: frames ∧
        frames.length ≤ (framesOf log).length + CHANNEL_DEPTH ∧
        (.ended ∈ log → framesOf log = frames) := by
  intro log
  have hinv := uploadInv_run encoder codec deadline choices
  obtain ⟨rest, hframed, hdepth, -⟩ := hinv.account
  refine ⟨hinv.ordered, framesOf log ++ rest, hframed, List.prefix_append _ _, ?_, fun hended => ?_⟩
  · rw [List.length_append]
    exact Nat.add_le_add_left hdepth _
  · have hle := length_of_ended hinv.ordered hended
    rw [hframed.length_eq] at hle
    exact (List.prefix_append _ _).eq_of_length_le hle

/-- **The upload on the other side.** At any time a server has handed its handler the beginning of
what `send` has accepted, in whatever pieces it has got the bytes; and it hands it all of that if it
gets the body to its end. -/
theorem bidi_upload_received (choices : List UploadChoice) :
    let log := ((BidiUpload.start encoder codec deadline).run choices).history
    ∃ bodies, List.Forall₂ (fun m b => m codec = .ok b) (sentOf log) bodies ∧
      ∀ (t : RequestSetup) (request : RequestBody), UploadFits t encoder bodies →
        ((requestRest (ready request.polls)).1 <+: (framesOf log).flatten →
          ∀ n, handed (streamAnswers t request n) <+: bodies) ∧
        (.ended ∈ log → request.Carries (framesOf log).flatten → Yields t request bodies) := by
  intro log
  obtain ⟨-, frames, hframed, hprefix, -, hall⟩ := bidi_upload encoder codec deadline choices
  obtain ⟨bodies, hbodies, hencodes⟩ := hframed.bodies
  obtain ⟨es, hes, hwire⟩ := mapM_encode_ok hencodes
  refine ⟨bodies, hbodies, fun t request hfits => ⟨fun hcut n => ?_, fun hended hcarries => ?_⟩⟩
  · obtain ⟨later, rfl⟩ := hprefix
    have hpart : (requestRest (ready request.polls)).1 <+: es.flatMap Envelope.wire := by
      rw [← hwire, List.flatten_append]
      exact hcut.trans (List.prefix_append _ _)
    rw [streamAnswers_rest]
    exact (handed_take _ _).trans
      (reading_cut hfits.understands hes hfits.fits hfits.plain _ hpart)
  · rw [hall hended, hwire] at hcarries
    rw [yields_iff hcarries, reading_envelopes_iff hfits.understands hes hfits.fits]
    exact hfits.plain

/-- A message of two bytes is sent and taken, the half closed, and the body polled to its end. -/
theorem bidi_upload_received_one :
    Yields brSetup ⟨[.ready (.data [1, 0]), .pending, .ready (.data [0, 0, 3, 0, 7, 8])],
      fun _ => false⟩ [[7, 8]] := by
  obtain ⟨bodies, hbodies, hreceived⟩ := bidi_upload_received brEncoder .proto none
    [.send 0 fun _ => .ok [7, 8], .resume, .pollFrame, .closeSend, .pollFrame]
  have hone : bodies = [[7, 8]] := by
    cases hbodies with
    | cons h₁ hbodies =>
      cases hbodies
      obtain rfl := Except.ok.inj h₁
      rfl
  subst hone
  exact (hreceived brSetup _ (uploadFits_br (by simp))).2 (List.mem_iff_getElem?.mpr ⟨0, rfl⟩) rfl

end ConnectRpc
