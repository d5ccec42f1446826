import ConnectRpc.ErrorRoundTrip
import ConnectRpc.RequestRoundTrip

/-!
# The encodings that a client asks for

A client lists the encodings of its registry in the accept header of its protocol, and a server
answers in the first that it offers. The list is written by one side and taken apart by the other
(`listedEncodings_intercalate`). What comes of it is an encoding that the client can decode
(`negotiated_supported`), as long as its user does not write these headers and it names no encoding
of its requests when it has none.
-/

namespace ConnectRpc

open Lib

variable (cr : Crates) (ur : UriCrates)

/-! ## The list -/

/-- A token has no blanks and no commas. -/
theorem isHttpToken_chars {name : String} (h : isHttpToken name = true) :
    ∀ c ∈ name.toList, isWhitespace c = false ∧ c ≠ ',' := by
  simp only [isHttpToken, Bool.and_eq_true, List.all_eq_true] at h
  intro c hc
  refine ⟨?_, ?_⟩
  · have hrange := token_range (h.2 c hc)
    have hall : ∀ n < 127, 33 ≤ n → isWhitespace (Char.ofNat n) = false := by decide
    have hblank := hall c.toNat hrange.2 hrange.1
    rwa [Char.ofNat_toNat] at hblank
  · rintro rfl
    exact absurd (h.2 ',' hc) (by decide)

/-- Nothing is trimmed off a token. -/
theorem trim_token {name : String} (h : isHttpToken name = true) :
    trim isWhitespace name.toList = name.toList := by
  have hchars := isHttpToken_chars h
  apply trim_of_trimmed
  refine ⟨?_, ?_⟩
  · rw [Option.all_eq_true]
    intro c hc
    simp [(hchars c (List.mem_of_head? hc)).1]
  · rw [Option.all_eq_true]
    intro c hc
    simp [(hchars c (List.mem_of_getLast? hc)).1]

/-- Names that are joined with commas and blanks are the ones that are listed. -/
theorem listedEncodings_intercalate : ∀ {names : List String}, names ≠ [] →
    (∀ name ∈ names, isHttpToken name = true) →
    listedEncodings (", ".intercalate names) = names := by
  intro names hne
  have hblank : isWhitespace ' ' = true := by decide
  -- what is trimmed is the blank after a comma
  have hpieces : ∀ {names : List String}, names ≠ [] →
      (∀ name ∈ names, isHttpToken name = true) →
      (splitAll ',' (List.intercalate [',', ' '] (names.map String.toList))).map
        (trim isWhitespace) = names.map String.toList := by
    intro names
    induction names with
    | nil => exact fun h => absurd rfl h
    | cons name names ih =>
      intro _ htokens
      rw [List.forall_mem_cons] at htokens
      have hcomma : ',' ∉ name.toList := fun hc =>
        (isHttpToken_chars htokens.1 ',' hc).2 rfl
      rcases names with _ | ⟨next, names⟩
      · rw [List.map_cons, List.map_nil, List.intercalate_singleton, splitAll_of_not_mem hcomma,
          List.map_cons, List.map_nil, trim_token htokens.1]
      · rcases hsplit : splitAll ',' (List.intercalate [',', ' ']
          ((next :: names).map String.toList)) with _ | ⟨first, rest⟩
        · exact absurd hsplit (splitAll_ne_nil _ _)
        · have hrest := ih (List.cons_ne_nil _ _) htokens.2
          have hspace : splitAll ',' ([' '] ++ List.intercalate [',', ' ']
              ((next :: names).map String.toList)) = ([' '] ++ first) :: rest :=
            splitAll_prepend (by decide) hsplit
          rw [hsplit, List.map_cons] at hrest
          rw [List.map_cons, List.intercalate_cons_of_ne_nil (by simp), List.append_assoc,
            List.cons_append, splitAll_append ',' hcomma, hspace, List.map_cons, List.map_cons,
            List.singleton_append, trim_cons hblank, hrest, trim_token htokens.1]
  intro htokens
  have hjoined : (", ".intercalate names).toList =
      List.intercalate [',', ' '] (names.map String.toList) := by
    rw [String.toList_intercalate]
    rfl
  have hmap := congrArg (List.map String.ofList) (hpieces hne htokens)
  rw [List.map_map, List.map_map] at hmap
  rw [listedEncodings, hjoined]
  simpa [Function.comp_def] using hmap

/-! ## The headers of a request -/

namespace EntryPoint

/-- Whether an entry point puts its messages into envelopes. -/
def enveloped (protocol : Protocol) : EntryPoint → Bool
  | unary => protocol ≠ .connect
  | unaryGet => false
  | _ => true

/-- The header that lists the encodings for the response. -/
def acceptName (protocol : Protocol) (entry : EntryPoint) : HeaderName :=
  if entry.enveloped protocol then protocol.acceptEncodingHeader else .acceptEncoding

/-- The header that names the encoding of the request. -/
def encodingName (protocol : Protocol) (entry : EntryPoint) : HeaderName :=
  if entry.enveloped protocol then protocol.contentEncodingHeader else .contentEncoding

/-- The encoding of a request. -/
def requestEncoding (config : ClientConfig) (options : CallOptions) (message : ClientMessage)
    (entry : EntryPoint) : Option String :=
  if entry.enveloped config.protocol then config.requestCompression
  else if entry = .unaryGet then none
  else wholeEncoding config options message

end EntryPoint

/-- The header that lists the encodings, if there are any. -/
theorem RequestBuilder.accept_ok {cap : ℕ} {b : RequestBuilder} {n : HeaderName} {m : HeaderMap}
    {config : ClientConfig} (h : b.optional cap n (acceptValue cr config) = some m) :
    ∃ m', b = some m' ∧ ∀ k, m.getAll k =
      m'.getAll k ++ if n = k then (config.compression.acceptEncodingValue cr).toList else [] := by
  rw [acceptValue] at h
  obtain ⟨m', ws, hm', hws, hvalues⟩ := RequestBuilder.optional_ok h
  refine ⟨m', hm', fun k => ?_⟩
  have hlist : (config.compression.acceptEncodingValue cr).toList = ws := by
    rcases hws with ⟨hnone, rfl⟩ | ⟨w, hw, rfl⟩
    · rw [Option.map_eq_none_iff.mp hnone]
      rfl
    · obtain ⟨v, hv, heq⟩ := Option.map_eq_some_iff.mp hw
      rw [hv, Option.some.inj heq]
      rfl
  rw [hvalues, hlist]

section Headers

variable {config : ClientConfig} {options : CallOptions} {message : ClientMessage}
variable {timeout : Option Duration} {applied : Option String} {m : HeaderMap}

/-- The two headers of a unary request. -/
theorem unaryHeaders_encodings
    (h : addUnaryRequestHeaders cr .new config timeout applied = some m) :
    m.getAll (EntryPoint.unary.acceptName config.protocol) =
        (config.compression.acceptEncodingValue cr).toList ∧
      Written cr (if config.protocol = .connect then applied else config.requestCompression)
        (m.getAll (EntryPoint.unary.encodingName config.protocol)) := by
  unfold addUnaryRequestHeaders at h
  obtain ⟨m₁, ws₁, h, -, heq₁⟩ := RequestBuilder.optional_ok h
  rcases hp : config.protocol with _ | _ | _
  · rw [hp] at h heq₁
    obtain ⟨m₂, h, heq₂⟩ := RequestBuilder.accept_ok cr h
    obtain ⟨m₃, ws₃, h, hwritten, heq₃⟩ := RequestBuilder.encoding_ok cr h
    obtain ⟨m₄, w₄, h, -, heq₄⟩ := RequestBuilder.header_ok h
    obtain ⟨m₅, w₅, h, -, heq₅⟩ := RequestBuilder.header_ok h
    obtain rfl := Option.some.inj h
    simp +decide only [EntryPoint.acceptName, EntryPoint.encodingName, heq₁, heq₂, heq₃, heq₄, heq₅, HeaderMap.getAll_empty, if_false, if_true, List.nil_append,
      List.append_nil]
    exact ⟨trivial, hwritten⟩
  · rw [hp] at h heq₁
    obtain ⟨m₂, h, heq₂⟩ := RequestBuilder.accept_ok cr h
    obtain ⟨m₃, ws₃, h, hwritten, heq₃⟩ := RequestBuilder.encoding_ok cr h
    obtain ⟨m₄, w₄, h, -, heq₄⟩ := RequestBuilder.header_ok h
    obtain ⟨m₅, w₅, h, -, heq₅⟩ := RequestBuilder.header_ok h
    obtain rfl := Option.some.inj h
    simp +decide only [EntryPoint.acceptName, EntryPoint.encodingName,
      Protocol.acceptEncodingHeader, Protocol.contentEncodingHeader, heq₁, heq₂, heq₃, heq₄, heq₅,
      HeaderMap.getAll_empty, if_false, if_true, List.nil_append, List.append_nil]
    exact ⟨trivial, hwritten⟩
  · rw [hp] at h heq₁
    obtain ⟨m₂, h, heq₂⟩ := RequestBuilder.accept_ok cr h
    obtain ⟨m₃, ws₃, h, hwritten, heq₃⟩ := RequestBuilder.encoding_ok cr h
    obtain ⟨m₄, w₄, h, -, heq₄⟩ := RequestBuilder.header_ok h
    obtain rfl := Option.some.inj h
    simp +decide only [EntryPoint.acceptName, EntryPoint.encodingName,
      Protocol.acceptEncodingHeader, Protocol.contentEncodingHeader, heq₁, heq₂, heq₃, heq₄,
      HeaderMap.getAll_empty, if_false, if_true, List.nil_append, List.append_nil]
    exact ⟨trivial, hwritten⟩

/-- Those of a streaming request. -/
theorem streamingHeaders_encodings {entry : EntryPoint}
    (henveloped : entry.enveloped config.protocol = true)
    (h : addStreamingRequestHeaders cr .new config timeout = some m) :
    m.getAll (entry.acceptName config.protocol) =
        (config.compression.acceptEncodingValue cr).toList ∧
      Written cr config.requestCompression (m.getAll (entry.encodingName config.protocol)) := by
  obtain ⟨-, hwritten⟩ := streamingHeaders_enveloped cr h
  rw [EntryPoint.acceptName, EntryPoint.encodingName, if_pos henveloped, if_pos henveloped]
  refine ⟨?_, hwritten⟩
  unfold addStreamingRequestHeaders at h
  obtain ⟨m₁, ws₁, h, -, heq₁⟩ := RequestBuilder.optional_ok h
  obtain ⟨m₂, h, heq₂⟩ := RequestBuilder.accept_ok cr h
  obtain ⟨m₃, ws₃, h, -, heq₃⟩ := RequestBuilder.encoding_ok cr h
  -- nothing but the list is written under its name
  have hnone : m₃.getAll config.protocol.acceptEncodingHeader = [] := by
    rcases hp : config.protocol with _ | _ | _
    · rw [hp] at h
      obtain ⟨m₄, w₄, h, -, heq₄⟩ := RequestBuilder.header_ok h
      obtain ⟨m₅, w₅, h, -, heq₅⟩ := RequestBuilder.header_ok h
      obtain rfl := Option.some.inj h
      simp +decide only [heq₄, heq₅, HeaderMap.getAll_empty, if_false, List.append_nil]
    · rw [hp] at h
      obtain ⟨m₄, w₄, h, -, heq₄⟩ := RequestBuilder.header_ok h
      obtain ⟨m₅, w₅, h, -, heq₅⟩ := RequestBuilder.header_ok h
      obtain rfl := Option.some.inj h
      simp +decide only [heq₄, heq₅, HeaderMap.getAll_empty, if_false, List.append_nil]
    · rw [hp] at h
      obtain ⟨m₄, w₄, h, -, heq₄⟩ := RequestBuilder.header_ok h
      obtain rfl := Option.some.inj h
      simp +decide only [heq₄, HeaderMap.getAll_empty, if_false, List.append_nil]
  have hencoding : config.protocol.contentEncodingHeader ≠ config.protocol.acceptEncodingHeader := by
    cases config.protocol <;> decide
  have htimeout : config.protocol.timeoutHeader ≠ config.protocol.acceptEncodingHeader := by
    cases config.protocol <;> decide
  rw [heq₁, heq₂, heq₃, hnone, if_neg hencoding, if_neg htimeout, if_pos rfl]
  simp

/-- Those of a `GET` request. -/
theorem getHeaders_encodings (h : addGetRequestHeaders cr .new config timeout = some m) :
    m.getAll .acceptEncoding = (config.compression.acceptEncodingValue cr).toList ∧
      m.getAll .contentEncoding = [] := by
  unfold addGetRequestHeaders at h
  obtain ⟨m₁, h, heq₁⟩ := RequestBuilder.accept_ok cr h
  obtain ⟨m₂, ws₂, h, -, heq₂⟩ := RequestBuilder.optional_ok h
  obtain rfl := Option.some.inj h
  simp +decide only [heq₁, heq₂, HeaderMap.getAll_empty, if_false, if_true, List.nil_append,
    List.append_nil]

/-- The two headers of any request. -/
theorem EntryPoint.generated_encodings {entry : EntryPoint}
    (h : entry.generated cr config options message = some m) :
    m.getAll (entry.acceptName config.protocol) =
        (config.compression.acceptEncodingValue cr).toList ∧
      Written cr (entry.requestEncoding config options message)
        (m.getAll (entry.encodingName config.protocol)) := by
  cases entry with
  | unary =>
    have hencodings := unaryHeaders_encodings cr h
    rw [requestEncoding]
    rcases hp : config.protocol with _ | _ | _
    · rw [hp] at hencodings
      exact hencodings
    · rw [hp] at hencodings
      exact hencodings
    · rw [hp] at hencodings
      exact hencodings
  | unaryGet => exact getHeaders_encodings cr h
  | serverStream => exact streamingHeaders_encodings cr rfl h
  | clientStream => exact streamingHeaders_encodings cr rfl h
  | bidiStream => exact streamingHeaders_encodings cr rfl h

end Headers

/-! ## The negotiation -/

theorem exists_of_mem_intercalate {c : Char} {sep : List Char} : ∀ {ws : List (List Char)},
    c ∈ List.intercalate sep ws → c ∈ sep ∨ ∃ w ∈ ws, c ∈ w := by
  intro ws
  induction ws with
  | nil => exact fun h => absurd h List.not_mem_nil
  | cons w ws ih =>
    intro h
    rcases ws with _ | ⟨next, ws⟩
    · rw [List.intercalate_singleton] at h
      exact .inr ⟨w, List.mem_cons_self, h⟩
    · rw [List.intercalate_cons_cons, List.append_assoc, List.mem_append, List.mem_append] at h
      rcases h with h | h | h
      · exact .inr ⟨w, List.mem_cons_self, h⟩
      · exact .inl h
      · obtain hsep | ⟨w', hw', hc⟩ := ih h
        · exact .inl hsep
        · exact .inr ⟨w', List.mem_cons_of_mem _ hw', hc⟩

/-- The list of a registry that has providers can be read, and names these. -/
theorem CompressionRegistry.acceptEncodingValue_cases (reg : CompressionRegistry) :
    (reg.providers = [] ∧ reg.acceptEncodingValue cr = none) ∨
      ∃ v list, reg.acceptEncodingValue cr = some v ∧ v.toStr = some list ∧
        ∀ encoding ∈ listedEncodings list, reg.supports encoding = true := by
  rw [acceptEncodingValue]
  by_cases hempty : reg.providers = []
  · exact .inl ⟨hempty, by simp [hempty]⟩
  · right
    rw [if_neg (by simpa using hempty)]
    generalize hnames : (reg.providers.map (·.name)).mergeSort (fun a b => a ≤ b) = names
    have hprovider : ∀ name ∈ names, ∃ p ∈ reg.providers, p.name = name := by
      intro name hname
      rw [← hnames] at hname
      exact List.mem_map.mp (List.mem_mergeSort.mp hname)
    have htokens : ∀ name ∈ names, isHttpToken name = true := by
      intro name hname
      obtain ⟨p, hp, rfl⟩ := hprovider name hname
      exact reg.tokens p hp
    have hne : names ≠ [] := by
      rintro rfl
      have hlen := congrArg List.length hnames
      rw [List.length_mergeSort, List.length_map, List.length_nil] at hlen
      exact hempty (List.length_eq_zero_iff.mp hlen)
    have hvisible : (asBytes (", ".intercalate names)).all visibleByte = true := by
      have hchars : ∀ c ∈ (", ".intercalate names).toList,
          asciiChar c = true ∧ visibleByte (byteOfChar c) = true := by
        intro c hc
        rw [String.toList_intercalate] at hc
        rcases exists_of_mem_intercalate hc with hsep | ⟨w, hw, hcw⟩
        · have hchar : c = ',' ∨ c = ' ' := by simpa using hsep
          rcases hchar with rfl | rfl
          · decide
          · decide
        · obtain ⟨name, hname, rfl⟩ := List.mem_map.mp hw
          have htoken := htokens name hname
          simp only [isHttpToken, Bool.and_eq_true, List.all_eq_true] at htoken
          exact visibleByte_of_token (htoken.2 c hcw)
      rw [List.all_eq_true, asBytes, utf8_ascii fun c hc => (hchars c hc).1]
      intro b hb
      obtain ⟨c, hc, rfl⟩ := List.mem_map.mp hb
      exact (hchars c hc).2
    obtain ⟨v, hv, hbytes⟩ := HeaderValue.fromStr_of_visible (o := cr.opaqueOctets) hvisible
    refine ⟨v, _, hv, HeaderValue.toStr_of_fromStr hv ?_, fun encoding hmem => ?_⟩
    · rw [HeaderValue.visible, hbytes]
      exact hvisible
    · rw [listedEncodings_intercalate hne htokens] at hmem
      obtain ⟨p, hp, rfl⟩ := hprovider encoding hmem
      rw [supports, get, List.find?_isSome]
      exact ⟨p, hp, by simp⟩

section Negotiated

variable {config : ClientConfig} {spec : CallSpec} {options : CallOptions}
variable {message : ClientMessage} {entry : EntryPoint} {req : ClientRequest}

/-- A user who does not disturb a header has no values in it. -/
theorem userValues_of_undisturbed {names : List HeaderName} (h : Undisturbed config options names)
    {n : HeaderName} (hn : n ∈ names) : userValues config options n = [] := by
  obtain ⟨hoptions, hconfig⟩ := h n hn
  rw [userValues, hoptions, if_neg Bool.false_ne_true]
  exact HeaderMap.contains_eq_false.mp hconfig

/-- A client that names no encoding of its requests but `identity` compresses with no other. -/
theorem requestEncoding_identity (hidentity : ∀ name ∈ config.requestCompression, name = "identity") :
    ∀ name ∈ entry.requestEncoding config options message, name = "identity" := by
  intro name hname
  rw [EntryPoint.requestEncoding] at hname
  split at hname
  · exact hidentity name hname
  · split at hname
    · cases hname
    · rw [wholeEncoding] at hname
      split at hname
      · split at hname
        · exact hidentity name hname
        · cases hname
      · cases hname

/-- The server reads the list of the registry. -/
theorem text_acceptName (h : entry.request cr ur config spec message options = .ok req)
    (hundisturbed : Undisturbed config options [entry.acceptName config.protocol]) :
    req.headers.text (entry.acceptName config.protocol) =
      (config.compression.acceptEncodingValue cr).bind HeaderValue.toStr := by
  obtain ⟨generated, hgenerated, hvalues⟩ := entry.request_values cr ur h
  obtain ⟨haccept, -⟩ := EntryPoint.generated_encodings cr hgenerated
  rw [HeaderMap.text, HeaderMap.get, hvalues, haccept,
    userValues_of_undisturbed hundisturbed (by simp), List.append_nil, Option.head?_toList]

/-- Without encodings of its own, and with a user who sets none, a client names none. -/
theorem identity_encodingName (h : entry.request cr ur config spec message options = .ok req)
    (hundisturbed : Undisturbed config options [entry.encodingName config.protocol])
    (hidentity : ∀ name ∈ config.requestCompression, name = "identity") :
    ∀ name ∈ req.headers.text (entry.encodingName config.protocol), name = "identity" := by
  obtain ⟨generated, hgenerated, hvalues⟩ := entry.request_values cr ur h
  obtain ⟨-, hwritten⟩ := EntryPoint.generated_encodings cr hgenerated
  have hown := @requestEncoding_identity config options message entry hidentity
  have htoken : ∀ name ∈ entry.requestEncoding config options message,
      isHttpToken name = true := by
    intro name hname
    rw [hown name hname]
    decide +kernel
  intro name hname
  rw [text_encoding cr (hvalues _) hwritten htoken, userText,
    userValues_of_undisturbed hundisturbed (by simp)] at hname
  apply hown
  rcases hencoding : entry.requestEncoding config options message with _ | own
  · rw [hencoding] at hname
    cases hname
  · rw [hencoding, Option.some_or] at hname
    exact hname

/-- What a server chooses from the list of a registry is in the registry. -/
theorem CompressionRegistry.supports_of_negotiated {own reg : CompressionRegistry}
    {accept request : Option String} {encoding : String}
    (haccept : accept = (own.acceptEncodingValue cr).bind HeaderValue.toStr)
    (hrequest : own.providers = [] → ∀ name ∈ request, name = "identity")
    (h : reg.negotiateEncoding accept request = some encoding) :
    own.supports encoding = true := by
  have hacceptable := negotiateEncoding_iff.mp h
  rcases own.acceptEncodingValue_cases cr with ⟨hempty, hnone⟩ | ⟨v, list, hv, hlist, hsupports⟩
  · -- without a list the encoding is that of the request, which is none
    rw [hnone] at haccept
    exact absurd (hrequest hempty encoding (hacceptable.unlisted haccept)) hacceptable.compresses
  · rw [hv] at haccept
    obtain ⟨before, after, hsplit, -⟩ := hacceptable.listed list (haccept.trans hlist)
    apply hsupports encoding
    rw [hsplit]
    exact List.mem_append_right _ List.mem_cons_self

/-- **What is negotiated** is what the client can decode: the server chooses an encoding that the
client has, as long as the user sets none of the two headers and a client without encodings names
none of its requests. -/
theorem negotiated_supported (h : entry.request cr ur config spec message options = .ok req)
    (hundisturbed : Undisturbed config options
      [entry.acceptName config.protocol, entry.encodingName config.protocol])
    (hproviders : config.compression.providers = [] →
      ∀ name ∈ config.requestCompression, name = "identity")
    (reg : CompressionRegistry) {encoding : String}
    (hnegotiated : reg.negotiateEncoding (req.headers.text (entry.acceptName config.protocol))
      (req.headers.text (entry.encodingName config.protocol)) = some encoding) :
    config.compression.supports encoding = true := by
  have hboth (n : HeaderName) (hn : n = entry.acceptName config.protocol ∨
      n = entry.encodingName config.protocol) : Undisturbed config options [n] := by
    intro k hk
    obtain rfl := List.mem_singleton.mp hk
    exact hundisturbed k (by simpa using hn)
  apply CompressionRegistry.supports_of_negotiated cr (text_acceptName cr ur h (hboth _ (.inl rfl)))
    _ hnegotiated
  intro hempty
  exact identity_encodingName cr ur h (hboth _ (.inr rfl)) (hproviders hempty)

end Negotiated

/-- A client that knows `br` is answered in it. -/
theorem negotiated_supported_br :
    ∃ req, EntryPoint.unary.request .std laxUris (postConfig "br") unarySpec (fun _ => .ok [7])
        compressedCall = .ok req ∧
      markService.compression.negotiateEncoding (req.headers.text hdr.grpcAcceptEncoding)
        (req.headers.text hdr.grpcEncoding) = some "br" ∧
      (postConfig "br").compression.supports "br" = true := by
  have hframed : (requestEncoder (postConfig "br") compressedCall).encode [7] [] =
      .ok [1, 0, 0, 0, 2, 0, 7] := rfl
  obtain ⟨v, hv, -⟩ := HeaderValue.fromStr_of_visible (o := Crates.std.opaqueOctets)
    (s := "br") (by decide)
  obtain ⟨req, hreq, -⟩ := exists_postRequest hv hframed
  have hundisturbed (names : List HeaderName) : Undisturbed (postConfig "br") compressedCall names :=
    fun _ _ => ⟨rfl, rfl⟩
  have haccept : req.headers.text hdr.grpcAcceptEncoding = some "br" := by
    obtain ⟨w, hw, hone⟩ := Option.map_eq_some_iff.mp (acceptValue_post "br")
    obtain rfl := Option.some.inj hone
    have htext := @text_acceptName .std laxUris _ _ _ _ .unary _ hreq (hundisturbed _)
    rw [hw] at htext
    exact htext
  have hnegotiated : markService.compression.negotiateEncoding
      (req.headers.text hdr.grpcAcceptEncoding) (req.headers.text hdr.grpcEncoding) = some "br" := by
    rw [haccept]
    rfl
  refine ⟨req, hreq, hnegotiated, ?_⟩
  exact @negotiated_supported .std laxUris _ _ _ _ .unary _ hreq (hundisturbed _)
    (fun hempty => by cases hempty) markService.compression _ hnegotiated

end ConnectRpc
