import ConnectRpc.MessageTooLarge

/-!
# Detection and codec negotiation

A `content-type` is read twice. `Protocol::detect` cuts the parameters off, trims what is
left and compares the whole of it. `CodecFormat::from_content_type`, which the handler of a
Connect unary request asks for the codec, tests for prefixes of the value as it stands.

What is detected as Connect unary with a codec gets this codec from the negotiation exactly
where the value does not start with a blank (`codec_negotiation_iff`): a blank is trimmed by
the one and makes every prefix test of the other fail.
-/

namespace ConnectRpc

open Lib

variable {X : Type}

/-! ## Detection -/

/-- The media type that `Protocol::detect` compares. -/
def detectedType (contentType : String) : List Char :=
  trim isWhitespace (contentType.toList.takeWhile (· ≠ ';'))

theorem isStreaming_of_map {o : Option CodecFormat} {protocol : Protocol} {text : Bool}
    {rp : RequestProtocol} (h : o.map (⟨protocol, ·, true, text⟩) = some rp) :
    rp.isStreaming = true := by
  obtain ⟨codec, -, rfl⟩ := Option.map_eq_some_iff.mp h
  rfl

/-- What is detected is enveloped, or Connect with the codec that the whole media type
names. -/
theorem detectFromContentType_cases {json : Bool} {contentType : String} {rp : RequestProtocol}
    (h : Protocol.detectFromContentType json contentType = some rp) :
    rp.isStreaming = true ∨
      rp = ⟨.connect, .proto, false, false⟩ ∧
        detectedType contentType = "application/proto".toList ∨
      rp = ⟨.connect, .json, false, false⟩ ∧ json = true ∧
        detectedType contentType = "application/json".toList := by
  rw [Protocol.detectFromContentType] at h
  simp only [← detectedType.eq_1] at h
  rcases htext : stripPrefix "application/grpc-web-text".toList (detectedType contentType) with
    _ | rest
  · rcases hweb : stripPrefix "application/grpc-web".toList (detectedType contentType) with
      _ | rest
    · rcases hgrpc : stripPrefix "application/grpc".toList (detectedType contentType) with
        _ | rest
      · rcases hconnect : stripPrefix "application/connect+".toList (detectedType contentType) with
          _ | rest
        · simp only [htext, hweb, hgrpc, hconnect] at h
          by_cases hproto : detectedType contentType = "application/proto".toList
          · rw [if_pos hproto] at h
            obtain rfl := Option.some.inj h
            exact .inr (.inl ⟨rfl, hproto⟩)
          · rw [if_neg hproto] at h
            by_cases hjson : json = true ∧ detectedType contentType = "application/json".toList
            · rw [if_pos hjson] at h
              obtain rfl := Option.some.inj h
              exact .inr (.inr ⟨rfl, hjson⟩)
            · rw [if_neg hjson] at h
              cases h
        · -- Connect streaming
          simp only [htext, hweb, hgrpc, hconnect] at h
          split at h
          · obtain rfl := Option.some.inj h
            exact .inl rfl
          · split at h
            · obtain rfl := Option.some.inj h
              exact .inl rfl
            · cases h
      · simp only [htext, hweb, hgrpc] at h
        exact .inl (isStreaming_of_map h)
    · simp only [htext, hweb] at h
      exact .inl (isStreaming_of_map h)
  · -- the text mode of gRPC-Web
    simp only [htext] at h
    split at h
    · obtain rfl := Option.some.inj h
      exact .inl rfl
    · cases h

/-! ## Negotiation -/

/-- A text starts with a blank. -/
def StartsBlank (contentType : String) : Prop :=
  contentType.toList.head?.any isWhitespace = true

instance (contentType : String) : Decidable (StartsBlank contentType) :=
  inferInstanceAs (Decidable (_ = _))

/-- A media type that stands behind no blank is a prefix of the value. -/
theorem detectedType_prefix {contentType : String} (h : ¬ StartsBlank contentType) :
    detectedType contentType <+: contentType.toList := by
  refine List.IsPrefix.trans (trim_isPrefix ?_) (List.takeWhile_prefix _)
  rcases hcs : contentType.toList with _ | ⟨c, cs⟩
  · rfl
  · have hc : isWhitespace c = false := by
      simpa [StartsBlank, hcs] using h
    by_cases hsemi : c = ';'
    · simp [hsemi]
    · simp [hsemi, hc]

/-- Nothing is negotiated behind a blank. -/
theorem fromContentType_blank {json : Bool} {contentType : String} (h : StartsBlank contentType) :
    CodecFormat.fromContentType json contentType = none := by
  rcases hcs : contentType.toList with _ | ⟨c, cs⟩
  · rw [StartsBlank, hcs] at h
    cases h
  · have hc : ('a' == c) = false := by
      rw [StartsBlank, hcs] at h
      refine beq_eq_false_iff_ne.mpr ?_
      rintro rfl
      have ha : isWhitespace 'a' = false := by decide
      rw [List.head?_cons, Option.any_some, ha] at h
      cases h
    have hinit : ∀ pre : List Char, ('a' :: pre).isPrefixOf (c :: cs) = false := by
      intro pre
      rw [List.isPrefixOf, hc, Bool.false_and]
    rw [CodecFormat.fromContentType]
    simp only [hcs]
    rw [show "application/proto".toList = 'a' :: "pplication/proto".toList from rfl,
      show "application/connect+proto".toList = 'a' :: "pplication/connect+proto".toList from rfl,
      show "application/json".toList = 'a' :: "pplication/json".toList from rfl,
      show "application/connect+json".toList = 'a' :: "pplication/connect+json".toList from rfl]
    simp only [hinit, Bool.or_false, Bool.and_false, Bool.false_eq_true, if_false]

theorem fromContentType_proto {json : Bool} {contentType : String}
    (h : "application/proto".toList <+: contentType.toList) :
    CodecFormat.fromContentType json contentType = some .proto := by
  rw [CodecFormat.fromContentType]
  simp only [List.isPrefixOf_iff_prefix.mpr h, Bool.true_or, if_true]

theorem fromContentType_json {contentType : String}
    (h : "application/json".toList <+: contentType.toList) :
    CodecFormat.fromContentType true contentType = some .json := by
  obtain ⟨rest, hrest⟩ := h
  rw [CodecFormat.fromContentType]
  simp only [← hrest]
  rfl

/-- **The two readings of a content type.** What is detected as Connect unary is negotiated
with the same codec if and only if it does not start with a blank; otherwise nothing is
negotiated. -/
theorem fromContentType_detected {json : Bool} {contentType : String} {rp : RequestProtocol}
    (h : Protocol.detectFromContentType json contentType = some rp)
    (hunary : rp.isStreaming = false) :
    CodecFormat.fromContentType json contentType =
      if StartsBlank contentType then none else some rp.codecFormat := by
  by_cases hblank : StartsBlank contentType
  · rw [if_pos hblank, fromContentType_blank hblank]
  · rw [if_neg hblank]
    have hinit := detectedType_prefix hblank
    rcases detectFromContentType_cases h with hs | ⟨rfl, hproto⟩ | ⟨rfl, rfl, hjson⟩
    · rw [hunary] at hs
      cases hs
    · rw [hproto] at hinit
      exact fromContentType_proto hinit
    · rw [hjson] at hinit
      exact fromContentType_json hinit

/-! ## Requests -/

section Requests

variable (cr : Crates) (s : Service X) (req : HttpRequest X)

/-- The codec that the handler of a Connect unary request negotiates. -/
def Service.negotiatedCodec : Option CodecFormat :=
  CodecFormat.fromContentType s.json
    ((s.metadataOf req .connect).contentType.getD "application/proto")

/-- A request is treated as what it was detected as. -/
structure Service.TreatedAsDetected (course : Course) (rp : RequestProtocol) : Prop where
  /-- the handler of a Connect unary request negotiates the detected codec, whatever the checks of
  the head put into the extensions -/
  unary : rp.protocol = .connect → rp.isStreaming = false → ∀ extensions : X,
    s.negotiatedCodec { req with extensions := extensions } = some rp.codecFormat
  /-- any other request is not given to that handler, and does not fail the way it does -/
  enveloped : rp.protocol ≠ .connect ∨ rp.isStreaming = true →
    s.handleRequest cr req course =
      (s.afterHeads req rp.protocol (fun e => some (Service.envelopedError cr rp e))
        (s.handleEnveloped cr rp course)).map .ok

variable {s req}

theorem Service.negotiatedCodec_of_text {contentType : String}
    (h : req.headers.text .contentType = some contentType) :
    s.negotiatedCodec req = CodecFormat.fromContentType s.json contentType := by
  have htype : (s.metadataOf req .connect).contentType = req.headers.text .contentType := rfl
  rw [negotiatedCodec, htype, h, Option.getD_some]

/-- **Detection and negotiation agree** on a request if and only if it is not one of Connect
unary whose content type starts with a blank. -/
theorem codec_negotiation_iff (course : Course) {contentType : String} {rp : RequestProtocol}
    (hpost : req.method = .POST) (htext : req.headers.text .contentType = some contentType)
    (hdetect : Protocol.detect s.json req.headers = some rp) :
    s.TreatedAsDetected cr req course rp ↔
      ¬ (rp.protocol = .connect ∧ rp.isStreaming = false ∧ StartsBlank contentType) := by
  have hstring : Protocol.detectFromContentType s.json contentType = some rp := by
    rwa [Protocol.detect, htext] at hdetect
  have hcodec : ∀ extensions : X, s.negotiatedCodec { req with extensions := extensions } =
      CodecFormat.fromContentType s.json contentType := fun extensions =>
    Service.negotiatedCodec_of_text htext
  constructor
  · rintro htreated ⟨hprotocol, hunary, hblank⟩
    have hsome := htreated.unary hprotocol hunary req.extensions
    rw [hcodec, fromContentType_blank hblank] at hsome
    cases hsome
  · intro hno
    refine ⟨fun hprotocol hunary extensions => ?_, fun henveloped => ?_⟩
    · rw [hcodec, fromContentType_detected hstring hunary,
        if_neg fun hblank => hno ⟨hprotocol, hunary, hblank⟩]
    · have hstreaming : rp.isStreaming = true := by
        rcases detectFromContentType_cases hstring with hs | ⟨rfl, -⟩ | ⟨rfl, -, -⟩
        · exact hs
        · simp at henveloped
        · simp at henveloped
      rw [Service.handleRequest, if_neg (by rw [hpost]; decide), if_neg (by rw [hpost]; decide),
        hdetect]
      simp only [hstreaming, if_true]

end Requests

/-- A `POST` with a content type. -/
def postOf (contentType : HeaderValue) : HttpRequest Unit where
  method := .POST
  path := "/s/m"
  query := none
  headers := HeaderMap.empty.append .contentType contentType
  extensions := ()
  body := ⟨[], fun _ => false⟩

/-- A content type with a parameter and blanks behind it. -/
theorem negotiation_charset :
    (clientStreamingService heedless).TreatedAsDetected .std
      (postOf (.static "application/proto ; charset=utf-8" (by decide +kernel))) promptly
      ⟨.connect, .proto, false, false⟩ :=
  (codec_negotiation_iff .std promptly rfl
    (show _ = some "application/proto ; charset=utf-8" by decide +kernel) (by decide +kernel)).mpr
    (by decide +kernel)

/-- A content type behind a blank is detected, and no codec is negotiated. -/
theorem negotiation_blank :
    Protocol.detect false (postOf (.static " application/proto" (by decide +kernel))).headers =
        some ⟨.connect, .proto, false, false⟩ ∧
      ¬ (clientStreamingService heedless).TreatedAsDetected .std
        (postOf (.static " application/proto" (by decide +kernel))) promptly
        ⟨.connect, .proto, false, false⟩ := by
  refine ⟨by decide +kernel, fun htreated => ?_⟩
  have hcodec := htreated.unary rfl rfl ()
  revert hcodec
  decide +kernel

end ConnectRpc
