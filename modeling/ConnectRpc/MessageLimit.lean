import ConnectRpc.HeadGate

/-!
# The limit on messages

Requests are decoded in five places, which enforce the limit on a message in different
ways: by the length that an envelope declares, by the size that a provider decompresses to,
or by the length of what comes out. `delivers_bounded` says that what comes out is within
the limit in each of them. The rest of the file says what becomes of a message that is too
large: it is never handed over, and the error is a `ResourceExhausted`.
-/

namespace ConnectRpc

open Lib

variable {X : Type}

/-! ## Providers -/

/-- Data that a provider decompresses to more than a limit is refused under that limit, as
its trait documents. -/
def CompressionProvider.ReportsExcess (p : CompressionProvider) : Prop :=
  ∀ {z d : Bytes} {big limit : ℕ}, p.decompressWithLimit z big = .ok d → limit < d.length →
    ∃ e, p.decompressWithLimit z limit = .error e ∧ e.code = .resourceExhausted

namespace CompressionRegistry

/-- All providers do. -/
def ReportsExcess (reg : CompressionRegistry) : Prop :=
  ∀ p ∈ reg.providers, p.ReportsExcess

/-- What a message stands for that is sent with an encoding, or with none. -/
def Expands (reg : CompressionRegistry) (encoding : Option String) (sent d : Bytes) : Prop :=
  match encoding with
  | none => d = sent
  | some encoding => ∃ limit, reg.decompressWithLimit encoding sent limit = .ok d

/-- A message that is too large once decompressed is refused. -/
theorem ReportsExcess.refused {reg : CompressionRegistry} (h : reg.ReportsExcess)
    {encoding : String} {sent d : Bytes} {limit : ℕ} (hd : reg.Expands (some encoding) sent d)
    (hlimit : limit < d.length) :
    ∃ e, reg.decompressWithLimit encoding sent limit = .error e ∧
      e.code = .resourceExhausted := by
  obtain ⟨big, hbig⟩ := hd
  rw [decompressWithLimit] at hbig ⊢
  by_cases hid : encoding = "identity"
  · rw [if_pos hid] at hbig ⊢
    by_cases hlong : sent.length > big
    · rw [if_pos hlong] at hbig
      cases hbig
    · rw [if_neg hlong] at hbig
      obtain rfl := Except.ok.inj hbig
      rw [if_pos hlimit]
      exact ⟨_, rfl, rfl⟩
  · rw [if_neg hid] at hbig ⊢
    rcases hp : reg.get encoding with _ | p
    · rw [hp] at hbig
      cases hbig
    · rw [hp] at hbig
      simp only at hbig ⊢
      by_cases hempty : sent = []
      · rw [if_pos hempty, hempty] at hbig
        obtain rfl := Except.ok.inj hbig
        exact absurd hlimit (Nat.not_lt_zero _)
      · rw [if_neg hempty] at hbig ⊢
        exact h p (List.mem_of_find?_eq_some hp) hbig hlimit

end CompressionRegistry

/-! ## What is delivered -/

theorem checkMessageSize_ok {limit : ℕ} {body d : Bytes} (h : checkMessageSize limit body = .ok d) :
    d.length ≤ limit := by
  rw [checkMessageSize] at h
  split at h
  · cases h
  · rename_i hle
    obtain rfl := Except.ok.inj h
    exact Nat.le_of_not_lt hle

/-- The message of a `GET` request is within the limit. -/
theorem decodeGetMessage_bounded {base64Error : Bytes → String} {params : GetQueryParams}
    {compression : CompressionRegistry} {limit : ℕ} {m : Bytes}
    (h : decodeGetMessage base64Error params compression limit = .ok m) : m.length ≤ limit := by
  rw [decodeGetMessage] at h
  split at h
  · obtain rfl := Except.ok.inj h
    exact Nat.zero_le _
  · obtain ⟨decoded, -, h⟩ := exists_of_bind_ok h
    obtain ⟨body, -, h⟩ := exists_of_bind_ok h
    exact checkMessageSize_ok h

/-- The payload of an envelope within the limit is within the limit. -/
theorem requestPayload_bounded {header : String} {encoding : Option String}
    {compression : CompressionRegistry} {limit : ℕ} {e : Envelope} {d : Bytes}
    (hhonours : compression.HonoursLimit) (he : e.data.length ≤ limit)
    (h : requestPayload header encoding compression limit e = .ok d) : d.length ≤ limit := by
  obtain ⟨-, rfl⟩ | ⟨-, name, -, -, hdata⟩ := requestPayload_ok_iff.mp h
  · exact he
  · exact hhonours.length_le hdata

/-- So are the messages of a request stream. -/
theorem plan_bounded {t : RequestSetup} (hhonours : t.compression.HonoursLimit)
    (stop : Stop UInt8 ConnectError) (bodyEnd : RequestEnd) :
    ∀ {es : List Envelope}, (∀ e ∈ es, e.data.length ≤ t.maxMessageSize) →
      ∀ d ∈ (t.plan stop bodyEnd es).1, d.length ≤ t.maxMessageSize := by
  intro es
  induction es with
  | nil =>
    intro _ d hd
    cases hd
  | cons e es ih =>
    intro hes d hd
    rw [RequestSetup.plan] at hd
    rcases hdecoded : t.decodeEnvelope e with err | x
    · rw [hdecoded] at hd
      cases hd
    · obtain ⟨-, rfl⟩ | ⟨-, d', rfl, hpayload⟩ := decodeEnvelope_cases hdecoded
      · rw [hdecoded] at hd
        cases hd
      · rw [hdecoded] at hd
        rcases List.mem_cons.mp hd with rfl | hd
        · exact requestPayload_bounded hhonours (hes e List.mem_cons_self) hpayload
        · exact ih (fun e' he' => hes e' (List.mem_cons_of_mem _ he')) d hd

theorem reading_bounded {t : RequestSetup} (hhonours : t.compression.HonoursLimit) (b : Bytes)
    (bodyEnd : RequestEnd) : ∀ d ∈ (t.reading b bodyEnd).1, d.length ≤ t.maxMessageSize := by
  refine plan_bounded hhonours _ bodyEnd ((decodeWith_stable t.limits).parse_forall ?_ b)
  intro a r e h
  obtain ⟨-, -, -, -, -, hlimit⟩ := decodeWith_item h
  exact hlimit

theorem Service.getRequestBody_bounded {s : Service X} {query : Option String}
    {desc : MethodDescriptor} {limits : Limits} {m : Bytes} {codec : CodecFormat}
    (h : s.getRequestBody query desc limits = .ok (m, codec)) :
    m.length ≤ limits.maxMessageSize := by
  rw [getRequestBody] at h
  split at h
  · cases h
  · obtain ⟨params, -, h⟩ := exists_of_bind_ok h
    split at h
    · cases h
    · obtain ⟨message, hmessage, h⟩ := exists_of_bind_ok h
      rcases hcodec : CodecFormat.fromCodec s.json (params.encoding.getD "proto") with _ | codec'
      · simp only [hcodec] at h
        cases h
      · simp only [hcodec] at h
        obtain ⟨rfl, -⟩ := Prod.mk.inj (Except.ok.inj h)
        exact decodeGetMessage_bounded hmessage

theorem Service.postRequestBody_bounded {s : Service X} {metadata : RequestMetadata}
    {limits : Limits} {postBody m : Bytes} {codec : CodecFormat}
    (h : s.postRequestBody metadata limits postBody = .ok (m, codec)) :
    m.length ≤ limits.maxMessageSize := by
  rw [postRequestBody] at h
  split at h
  · cases h
  · rcases hcodec : CodecFormat.fromContentType s.json (metadata.contentType.getD
      "application/proto") with _ | codec'
    · simp only [hcodec] at h
      cases h
    · simp only [hcodec] at h
      obtain ⟨decoded, -, h⟩ := exists_of_bind_ok h
      obtain ⟨body, hbody, h⟩ := exists_of_map_ok h
      obtain ⟨rfl, -⟩ := Prod.mk.inj h
      exact checkMessageSize_ok hbody

/-- **Whatever way a request is read**, its messages are within the limit. -/
theorem Service.delivers_bounded {s : Service X} (hhonours : s.compression.HonoursLimit)
    (limits : Limits) : s.Delivers limits fun m => m.length ≤ limits.maxMessageSize where
  unary := by
    intro path desc req postBody desc' m codec h
    rcases desc with _ | desc
    · cases h
    · rw [unaryRequest] at h
      split at h
      · obtain ⟨r, hr, h⟩ := exists_of_map_ok h
        obtain rfl := (Prod.mk.inj h).2
        exact getRequestBody_bounded hr
      · split at h
        · obtain ⟨r, hr, h⟩ := exists_of_map_ok h
          obtain rfl := (Prod.mk.inj h).2
          exact postRequestBody_bounded hr
        · cases h
  single := by
    intro texts header metadata postBody m h
    obtain ⟨e, hdecode, hpayload⟩ := decodeSingleMessage_ok_iff.mp h
    obtain ⟨-, -, -, -, -, hlimit⟩ := decodeWith_item hdecode
    exact requestPayload_bounded hhonours hlimit hpayload
  stream := fun metadata => reading_bounded hhonours

/-! ## Envelopes that are too large -/

/-- Bytes start with a message that is too large: it declares too much, or it is
decompressed to too much, and then so much follows it. -/
inductive OversizedEnvelope (t : RequestSetup) (rest : Bytes) : Bytes → Prop where
  | declared {header tail : Bytes} : header.length = HEADER_SIZE →
      t.maxMessageSize < fromBeBytes (header.drop 1) → OversizedEnvelope t rest (header ++ tail)
  | expanded {e : Envelope} {name : String} {d : Bytes} : e.data.length ≤ u32Max →
      e.data.length ≤ t.maxMessageSize → e.isEndStream = false → e.isCompressed = true →
      t.streamingEncoding = some name → name ≠ "identity" →
      t.compression.Expands (some name) e.data d → t.maxMessageSize < d.length →
      OversizedEnvelope t rest (e.wire ++ rest)

section Envelopes

variable {t : RequestSetup} {rest b : Bytes}

/-- It is refused when its header is read, or when it is decompressed. -/
theorem OversizedEnvelope.refused (hreports : t.compression.ReportsExcess)
    (h : OversizedEnvelope t rest b) :
    (∃ err, decodeWith t.limits b = .error err ∧ err.code = .resourceExhausted) ∨
      ∃ e, decodeWith t.limits b = .ok (some (e, rest)) ∧ e.isEndStream = false ∧
        ∀ header, ∃ err, requestPayload header t.streamingEncoding t.compression
          t.maxMessageSize e = .error err ∧ err.code = .resourceExhausted := by
  cases h with
  | @declared header tail hlen hlimit =>
    refine .inl ⟨sizeExceeded "message" (fromBeBytes (header.drop 1)) t.maxMessageSize, ?_, rfl⟩
    rw [decodeWith_header hlen]
    exact if_pos hlimit
  | @expanded e name d hsize hwithin hend hcompressed hname hid hd hlimit =>
    refine .inr ⟨e, decodeWith_wire rest hsize hwithin, hend, fun header => ?_⟩
    obtain ⟨err, herr, hcode⟩ := hreports.refused hd hlimit
    refine ⟨err, ?_, hcode⟩
    have hencoding : (some name).filter (· ≠ "identity") = some name := by simp [hid]
    rw [requestPayload, if_pos hcompressed, hname, hencoding]
    exact herr

theorem OversizedEnvelope.ne_nil (h : OversizedEnvelope t rest b) : b ≠ [] := by
  cases h with
  | @declared header tail hlen hlimit =>
    rintro hnil
    obtain ⟨rfl, -⟩ := List.append_eq_nil_iff.mp hnil
    cases hlen
  | @expanded e name d hsize hwithin hend hcompressed hname hid hd hlimit =>
    rintro hnil
    obtain ⟨hwire, -⟩ := List.append_eq_nil_iff.mp hnil
    cases hwire

/-- **Whole bodies**: a body that is one message that is too large is refused. -/
theorem OversizedEnvelope.single (hreports : t.compression.ReportsExcess)
    (h : OversizedEnvelope t [] b) (texts : SingleMessageTexts) (header : String) :
    ∃ err, decodeSingleMessage texts header t b = .error err ∧ err.code = .resourceExhausted := by
  have hdecode : decodeWithLimit t.maxMessageSize b = decodeWith t.limits b := rfl
  rw [decodeSingleMessage, if_neg h.ne_nil, hdecode]
  rcases h.refused hreports with ⟨err, herr, hcode⟩ | ⟨e, he, -, hpayload⟩
  · rw [herr]
    exact ⟨err, rfl, hcode⟩
  · rw [he]
    exact hpayload header

/-- **Streams**: the error takes the place of the message, and ends the stream. -/
theorem OversizedEnvelope.reading (hreports : t.compression.ReportsExcess)
    (h : OversizedEnvelope t rest b) (bodyEnd : RequestEnd) :
    ∃ err, t.reading b bodyEnd = ([], some err) ∧ err.code = .resourceExhausted := by
  rcases h.refused hreports with ⟨err, herr, hcode⟩ | ⟨e, he, hend, hpayload⟩
  · exact ⟨err, RequestSetup.reading_error herr, hcode⟩
  · obtain ⟨err, herr, hcode⟩ := hpayload "connect-content-encoding"
    have hdecoded : t.decodeEnvelope e = .error err := by
      rw [RequestSetup.decodeEnvelope, hend, if_neg Bool.false_ne_true, herr]
      rfl
    refine ⟨err, ?_, hcode⟩
    rw [RequestSetup.reading_item bodyEnd he, hdecoded]

/-- Messages at the front are read first. -/
theorem reading_messages (bodyEnd : RequestEnd) (b : Bytes) :
    ∀ {es : List Envelope} {msgs : List Bytes},
      (∀ e ∈ es, e.data.length ≤ u32Max ∧ e.data.length ≤ t.maxMessageSize) →
      es.map t.decodeEnvelope = msgs.map (fun d => .ok (.message d)) →
        t.reading (es.flatMap Envelope.wire ++ b) bodyEnd =
          (msgs ++ (t.reading b bodyEnd).1, (t.reading b bodyEnd).2) := by
  intro es
  induction es with
  | nil =>
    intro msgs _ h
    obtain rfl := List.map_eq_nil_iff.mp h.symm
    rfl
  | cons e es ih =>
    intro msgs hes h
    rcases msgs with _ | ⟨d, msgs⟩
    · cases h
    · rw [List.map_cons, List.map_cons] at h
      obtain ⟨he, h⟩ := List.cons.inj h
      obtain ⟨hsize, hlimit⟩ := hes e List.mem_cons_self
      have hitem : decodeWith t.limits ((e :: es).flatMap Envelope.wire ++ b) =
          .ok (some (e, es.flatMap Envelope.wire ++ b)) := by
        rw [List.flatMap_cons, List.append_assoc]
        exact decodeWith_wire _ hsize hlimit
      rw [RequestSetup.reading_item bodyEnd hitem, he]
      simp only [ih (fun e' he' => hes e' (List.mem_cons_of_mem _ he')) h, List.cons_append]

end Envelopes

end ConnectRpc
