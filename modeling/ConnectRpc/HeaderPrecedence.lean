import ConnectRpc.ClientRequest

/-!
# Whose headers a request carries

The options of a call win over the defaults of the configuration, and both should win over
what the protocol generates. The first half is `mergeHeaders_getAll`. For the second, the
names that an entry point generates headers for are listed (`EntryPoint.protocolNames`), and
what a builder makes of its steps is put together from what each step appends (`Appends`).
The headers of the user are appended to these, so that they win only where nothing was
generated (`header_precedence`).
-/

namespace ConnectRpc

open Lib

variable (cr : Crates) (ur : UriCrates)

/-! ## What a builder appends -/

/-- From a builder to a later one, headers of these names are appended, one each. -/
structure Appends (b b' : RequestBuilder) (names : List HeaderName) : Prop where
  /-- whenever no step failed -/
  entries : ∀ m' : HeaderMap, b' = some m' → ∃ m es, b = some m ∧ es.map Prod.fst = names ∧
    m' = m.appendAll es

/-- A name, if there is anything under it. -/
def nameIf {α : Type} (n : HeaderName) (v : Option α) : List HeaderName :=
  v.toList.map fun _ => n

theorem nameIf_map {α β : Type} (n : HeaderName) (f : α → β) (v : Option α) :
    nameIf n (v.map f) = nameIf n v := by
  cases v <;> rfl

namespace Appends

theorem refl (b : RequestBuilder) : Appends b b [] :=
  ⟨fun m h => ⟨m, [], h, rfl, rfl⟩⟩

theorem trans {b b' b'' : RequestBuilder} {names names' : List HeaderName}
    (h : Appends b b' names) (h' : Appends b' b'' names') : Appends b b'' (names ++ names') := by
  refine ⟨fun m'' hm'' => ?_⟩
  obtain ⟨m', es', hm', rfl, rfl⟩ := h'.entries m'' hm''
  obtain ⟨m, es, hm, rfl, rfl⟩ := h.entries m' hm'
  refine ⟨m, es ++ es', hm, List.map_append, ?_⟩
  simp only [HeaderMap.appendAll, List.foldl_append]

theorem header (cap : ℕ) (b : RequestBuilder) (n : HeaderName) (v : Option HeaderValue) :
    Appends b (b.header cap n v) [n] := by
  refine ⟨fun m' hm' => ?_⟩
  obtain ⟨m, hm, hrest⟩ := Option.bind_eq_some_iff.mp hm'
  obtain ⟨value, -, hadd⟩ := Option.bind_eq_some_iff.mp hrest
  exact ⟨m, [(n, value)], hm, rfl, HeaderMap.tryAppend_eq_some hadd⟩

theorem optional (cap : ℕ) (b : RequestBuilder) (n : HeaderName)
    (v : Option (Option HeaderValue)) : Appends b (b.optional cap n v) (nameIf n v) := by
  cases v with
  | none => exact refl b
  | some v => exact header cap b n v

end Appends

/-! ## The names the protocol generates -/

/-- The names of the headers that the protocol needs on a unary request. -/
def unaryNames (config : ClientConfig) (timeout : Option Duration) (applied : Option String) :
    List HeaderName :=
  [.contentType] ++
    (match config.protocol with
      | .connect =>
        [hdr.connectProtocolVersion] ++ nameIf .contentEncoding applied ++
          nameIf .acceptEncoding (config.compression.acceptEncodingValue cr)
      | .grpc =>
        [HeaderName.te] ++ nameIf hdr.grpcEncoding config.requestCompression ++
          nameIf hdr.grpcAcceptEncoding (config.compression.acceptEncodingValue cr)
      | .grpcWeb =>
        nameIf hdr.grpcEncoding config.requestCompression ++
          nameIf hdr.grpcAcceptEncoding (config.compression.acceptEncodingValue cr)) ++
    nameIf config.protocol.timeoutHeader timeout

/-- The names of the headers that the protocol needs on a streaming request. -/
def streamingNames (config : ClientConfig) (timeout : Option Duration) : List HeaderName :=
  [.contentType] ++
    (match config.protocol with
      | .connect => [hdr.connectProtocolVersion]
      | .grpc => [HeaderName.te]
      | .grpcWeb => []) ++
    nameIf config.protocol.contentEncodingHeader config.requestCompression ++
    nameIf config.protocol.acceptEncodingHeader (config.compression.acceptEncodingValue cr) ++
    nameIf config.protocol.timeoutHeader timeout

/-- The names of the headers that the protocol needs on a `GET` request. -/
def getNames (config : ClientConfig) (timeout : Option Duration) : List HeaderName :=
  nameIf hdr.connectTimeoutMs timeout ++
    nameIf .acceptEncoding (config.compression.acceptEncodingValue cr)

namespace EntryPoint

/-- The names that an entry point generates headers for. -/
def protocolNames (config : ClientConfig) (options : CallOptions) (message : ClientMessage) :
    EntryPoint → List HeaderName
  | unary => unaryNames cr config (callTimeout config options) (wholeEncoding config options message)
  | unaryGet => getNames cr config (callTimeout config options)
  | serverStream | clientStream | bidiStream =>
    streamingNames cr config (callTimeout config options)

/-- The headers that an entry point generates. -/
def generated (config : ClientConfig) (options : CallOptions) (message : ClientMessage) :
    EntryPoint → RequestBuilder
  | unary =>
    addUnaryRequestHeaders cr .new config (callTimeout config options)
      (wholeEncoding config options message)
  | unaryGet => addGetRequestHeaders cr .new config (callTimeout config options)
  | serverStream | clientStream | bidiStream =>
    addStreamingRequestHeaders cr .new config (callTimeout config options)

end EntryPoint

/-- What the values of the optional headers are made of decides whether they are there. -/
theorem addUnaryRequestHeaders_appends (b : RequestBuilder) (config : ClientConfig)
    (timeout : Option Duration) (applied : Option String) :
    Appends b (addUnaryRequestHeaders cr b config timeout applied)
      (unaryNames cr config timeout applied) := by
  have hencoding (n : HeaderName) (e : Option String) :
      nameIf n (encodingValue cr e) = nameIf n e := nameIf_map n _ e
  have haccept (n : HeaderName) :
      nameIf n (acceptValue cr config) = nameIf n (config.compression.acceptEncodingValue cr) :=
    nameIf_map n _ _
  have htimeout (n : HeaderName) (p : Protocol) :
      nameIf n (timeoutValue cr timeout p) = nameIf n timeout := nameIf_map n _ _
  unfold addUnaryRequestHeaders unaryNames
  simp only
  rw [← htimeout _ config.protocol]
  apply Appends.trans _ (.optional ..)
  apply Appends.trans (.header ..)
  cases config.protocol with
  | connect =>
    simp only
    rw [← hencoding, ← haccept]
    exact ((Appends.header ..).trans (.optional ..)).trans (.optional ..)
  | grpc =>
    simp only
    rw [← hencoding, ← haccept]
    exact ((Appends.header ..).trans (.optional ..)).trans (.optional ..)
  | grpcWeb =>
    simp only
    rw [← hencoding, ← haccept]
    exact (Appends.optional ..).trans (.optional ..)

theorem addStreamingRequestHeaders_appends (b : RequestBuilder) (config : ClientConfig)
    (timeout : Option Duration) :
    Appends b (addStreamingRequestHeaders cr b config timeout)
      (streamingNames cr config timeout) := by
  unfold addStreamingRequestHeaders streamingNames
  simp only
  rw [← nameIf_map _ (textValue cr) config.requestCompression,
    ← nameIf_map _ some (config.compression.acceptEncodingValue cr),
    ← nameIf_map _ (fun t => textValue cr (formatTimeout t config.protocol)) timeout]
  apply Appends.trans _ (.optional ..)
  apply Appends.trans _ (.optional ..)
  apply Appends.trans _ (.optional ..)
  apply Appends.trans (.header ..)
  cases config.protocol with
  | connect => exact .header ..
  | grpc => exact .header ..
  | grpcWeb => exact .refl _

theorem addGetRequestHeaders_appends (b : RequestBuilder) (config : ClientConfig)
    (timeout : Option Duration) :
    Appends b (addGetRequestHeaders cr b config timeout) (getNames cr config timeout) := by
  unfold addGetRequestHeaders getNames
  simp only
  rw [← nameIf_map _ some (config.compression.acceptEncodingValue cr),
    ← nameIf_map _ (fun t => textValue cr (formatTimeout t .connect)) timeout]
  exact (Appends.optional ..).trans (.optional ..)

/-- The generated headers have exactly the listed names. -/
theorem EntryPoint.generated_contains {config : ClientConfig} {options : CallOptions}
    {message : ClientMessage} {entry : EntryPoint} {generated : HeaderMap}
    (h : entry.generated cr config options message = some generated) (n : HeaderName) :
    generated.getAll n ≠ [] ↔ n ∈ entry.protocolNames cr config options message := by
  have happends : Appends .new (entry.generated cr config options message)
      (entry.protocolNames cr config options message) := by
    cases entry with
    | unary => exact addUnaryRequestHeaders_appends cr ..
    | unaryGet => exact addGetRequestHeaders_appends cr ..
    | serverStream => exact addStreamingRequestHeaders_appends cr ..
    | clientStream => exact addStreamingRequestHeaders_appends cr ..
    | bidiStream => exact addStreamingRequestHeaders_appends cr ..
  obtain ⟨m, es, hm, hnames, rfl⟩ := happends.entries generated h
  obtain rfl := Option.some.inj hm
  rw [HeaderMap.getAll_appendAll, HeaderMap.getAll_empty, List.nil_append, ne_eq,
    HeaderMap.getAll_eq_nil_iff, not_not, hnames]

/-! ## The request -/

/-- Outside Connect, the encoding of a whole message plays no part. -/
theorem addUnaryRequestHeaders_enveloped {config : ClientConfig} (h : config.protocol ≠ .connect)
    (b : RequestBuilder) (timeout : Option Duration) (applied applied' : Option String) :
    addUnaryRequestHeaders cr b config timeout applied =
      addUnaryRequestHeaders cr b config timeout applied' := by
  unfold addUnaryRequestHeaders
  cases hp : config.protocol with
  | connect => exact absurd hp h
  | grpc => rfl
  | grpcWeb => rfl

/-- **What a request carries**: what its entry point generates, then the merged headers of the
user. -/
theorem EntryPoint.request_headers {config : ClientConfig} {spec : CallSpec}
    {message : ClientMessage} {options : CallOptions} {entry : EntryPoint} {req : ClientRequest}
    (h : entry.request cr ur config spec message options = .ok req) :
    ∃ generated merged, entry.generated cr config options message = some generated ∧
      mergeHeaders cr config.defaultHeaders options.headers = .ok merged ∧
      req.headers = generated.appendAll merged.entries := by
  cases entry with
  | unary =>
    obtain ⟨-, -, h⟩ := exists_of_bind_ok h
    obtain ⟨effective, he, h⟩ := exists_of_bind_ok h
    obtain ⟨uri, -, h⟩ := exists_of_bind_ok h
    obtain ⟨body, hbody, h⟩ := exists_of_bind_ok h
    obtain ⟨⟨payload, applied⟩, hpayload, h⟩ := exists_of_bind_ok h
    obtain ⟨hmerged, htimeout, hcompress⟩ := effectiveOptions_ok cr he
    obtain ⟨generated, hgenerated, rfl⟩ := finishRequest_ok cr h
    refine ⟨generated, effective.headers, ?_, hmerged, rfl⟩
    rw [htimeout] at hgenerated
    rw [EntryPoint.generated]
    by_cases hp : config.protocol = .connect
    · have hwhole := orError_eq_ok hpayload
      rw [unaryRequestBody, hp] at hwhole
      rw [← compressWhole_ok (orError_eq_ok hbody) hcompress hwhole]
      exact hgenerated
    · rw [addUnaryRequestHeaders_enveloped cr hp _ _ _ applied]
      exact hgenerated
  | unaryGet =>
    obtain ⟨-, -, h⟩ := exists_of_bind_ok h
    obtain ⟨-, -, h⟩ := exists_of_bind_ok h
    obtain ⟨effective, he, h⟩ := exists_of_bind_ok h
    obtain ⟨body, -, h⟩ := exists_of_bind_ok h
    obtain ⟨⟨payload, applied⟩, -, h⟩ := exists_of_bind_ok h
    obtain ⟨uri, -, h⟩ := exists_of_bind_ok h
    obtain ⟨hmerged, htimeout, -⟩ := effectiveOptions_ok cr he
    obtain ⟨generated, hgenerated, rfl⟩ := finishRequest_ok cr h
    rw [htimeout] at hgenerated
    exact ⟨generated, effective.headers, hgenerated, hmerged, rfl⟩
  | serverStream =>
    obtain ⟨-, -, h⟩ := exists_of_bind_ok h
    obtain ⟨effective, he, h⟩ := exists_of_bind_ok h
    obtain ⟨uri, -, h⟩ := exists_of_bind_ok h
    obtain ⟨body, -, h⟩ := exists_of_bind_ok h
    obtain ⟨framed, -, h⟩ := exists_of_bind_ok h
    obtain ⟨hmerged, htimeout, -⟩ := effectiveOptions_ok cr he
    obtain ⟨generated, hgenerated, rfl⟩ := finishRequest_ok cr h
    rw [htimeout] at hgenerated
    exact ⟨generated, effective.headers, hgenerated, hmerged, rfl⟩
  | clientStream =>
    obtain ⟨-, -, h⟩ := exists_of_bind_ok h
    obtain ⟨effective, he, h⟩ := exists_of_bind_ok h
    obtain ⟨uri, -, h⟩ := exists_of_bind_ok h
    obtain ⟨hmerged, htimeout, -⟩ := effectiveOptions_ok cr he
    obtain ⟨generated, hgenerated, rfl⟩ := finishRequest_ok cr h
    rw [htimeout] at hgenerated
    exact ⟨generated, effective.headers, hgenerated, hmerged, rfl⟩
  | bidiStream =>
    obtain ⟨-, -, h⟩ := exists_of_bind_ok h
    obtain ⟨effective, he, h⟩ := exists_of_bind_ok h
    obtain ⟨uri, -, h⟩ := exists_of_bind_ok h
    obtain ⟨hmerged, htimeout, -⟩ := effectiveOptions_ok cr he
    obtain ⟨generated, hgenerated, rfl⟩ := finishRequest_ok cr h
    rw [htimeout] at hgenerated
    exact ⟨generated, effective.headers, hgenerated, hmerged, rfl⟩

/-! ## Precedence -/

/-- The values that the user has given to a name: those of the options if they have it, else
the defaults. -/
def userValues (config : ClientConfig) (options : CallOptions) (n : HeaderName) :
    List HeaderValue :=
  if options.headers.contains n then options.headers.getAll n else config.defaultHeaders.getAll n

/-- The values of a name on a request: what is generated, then what the user has given. -/
theorem EntryPoint.request_values {config : ClientConfig} {spec : CallSpec}
    {message : ClientMessage} {options : CallOptions} {entry : EntryPoint} {req : ClientRequest}
    (h : entry.request cr ur config spec message options = .ok req) :
    ∃ generated, entry.generated cr config options message = some generated ∧
      ∀ n, req.headers.getAll n = generated.getAll n ++ userValues config options n := by
  obtain ⟨generated, merged, hgenerated, hmerged, hheaders⟩ := entry.request_headers cr ur h
  refine ⟨generated, hgenerated, fun n => ?_⟩
  rw [hheaders, HeaderMap.getAll_appendAll, userValues, ← mergeHeaders_getAll cr hmerged]

/-- The headers of a request as the layers should decide them: the options of the call, then
the defaults of the configuration, and what is generated only under names in neither. -/
structure UserWins (config : ClientConfig) (options : CallOptions) (generated headers : HeaderMap) :
    Prop where
  /-- a name of the options has exactly their values -/
  ofOptions : ∀ n, options.headers.contains n = true → headers.getAll n = options.headers.getAll n
  /-- a name of the defaults only has exactly theirs -/
  ofDefaults : ∀ n, options.headers.contains n = false → config.defaultHeaders.contains n = true →
    headers.getAll n = config.defaultHeaders.getAll n
  /-- any other name has what is generated under it -/
  ofProtocol : ∀ n, options.headers.contains n = false → config.defaultHeaders.contains n = false →
    headers.getAll n = generated.getAll n
  /-- the values of a name are all generated or all from the user -/
  apart : ∀ n, headers.getAll n = generated.getAll n ∨
    headers.getAll n = userValues config options n

/-- The user sets no header of a name that the protocol needs. -/
def Undisturbed (config : ClientConfig) (options : CallOptions) (names : List HeaderName) : Prop :=
  ∀ n ∈ names, options.headers.contains n = false ∧ config.defaultHeaders.contains n = false

/-- **Whose headers a request carries.** For every entry point, configuration, message and
options, the options win over the defaults and both over what is generated, exactly if neither
has a header of a name that something is generated under. -/
theorem header_precedence {config : ClientConfig} {spec : CallSpec} {message : ClientMessage}
    {options : CallOptions} {entry : EntryPoint} {req : ClientRequest}
    (h : entry.request cr ur config spec message options = .ok req) :
    ∃ generated, entry.generated cr config options message = some generated ∧
      (UserWins config options generated req.headers ↔
        Undisturbed config options (entry.protocolNames cr config options message)) := by
  obtain ⟨generated, hgenerated, hvalues⟩ := entry.request_values cr ur h
  have hnames := EntryPoint.generated_contains cr hgenerated
  refine ⟨generated, hgenerated, ⟨fun hwins n hn => ?_, fun hclear => ?_⟩⟩
  · -- a generated value before those of the user is one too many
    have hsome := (hnames n).mpr hn
    have hextra : req.headers.getAll n ≠ userValues config options n := by
      rw [hvalues, ne_eq, List.append_left_eq_self]
      exact hsome
    have ho : options.headers.contains n = false := by
      by_contra hc
      have hc : options.headers.contains n = true := by simpa using hc
      apply hextra
      rw [userValues, if_pos hc, hwins.ofOptions n hc]
    refine ⟨ho, ?_⟩
    by_contra hc
    have hc : config.defaultHeaders.contains n = true := by simpa using hc
    apply hextra
    rw [userValues, if_neg (by simp [ho]), hwins.ofDefaults n ho hc]
  · have hnone (n : HeaderName)
        (hn : options.headers.contains n = true ∨ config.defaultHeaders.contains n = true) :
        generated.getAll n = [] := by
      by_contra hne
      obtain ⟨ho, hd⟩ := hclear n ((hnames n).mp hne)
      rcases hn with hn | hn
      · exact absurd (hn.symm.trans ho) (by decide)
      · exact absurd (hn.symm.trans hd) (by decide)
    have hnoUser (n : HeaderName) (ho : options.headers.contains n = false)
        (hd : config.defaultHeaders.contains n = false) : userValues config options n = [] := by
      rw [userValues, if_neg (by simp [ho])]
      exact HeaderMap.contains_eq_false.mp hd
    refine ⟨fun n ho => ?_, fun n ho hd => ?_, fun n ho hd => ?_, fun n => ?_⟩
    · rw [hvalues, hnone n (.inl ho), List.nil_append, userValues, if_pos ho]
    · rw [hvalues, hnone n (.inr hd), List.nil_append, userValues, if_neg (by simp [ho])]
    · rw [hvalues, hnoUser n ho hd, List.append_nil]
    · rw [hvalues]
      by_cases ho : options.headers.contains n = true
      · right
        rw [hnone n (.inl ho), List.nil_append]
      · by_cases hd : config.defaultHeaders.contains n = true
        · right
          rw [hnone n (.inr hd), List.nil_append]
        · left
          rw [hnoUser n (eq_false_of_ne_true ho) (eq_false_of_ne_true hd), List.append_nil]

/-! ## Two calls -/

/-- URIs that are all accepted. -/
def laxUris : UriCrates := ⟨fun _ => none, fun _ => none, fun b => b.path, fun s => s⟩

/-- `br` -/
def brValue : HeaderValue := .static "br" (by decide)

/-- `zstd` -/
def zstdValue : HeaderValue := .static "zstd" (by decide)

theorem allBytes_grpc : (asBytes "application/grpc").all valueByte = true := by decide

/-- `application/grpc` -/
def grpcValue : HeaderValue := .static "application/grpc" allBytes_grpc

/-- A gRPC client with a default header and a default timeout. -/
def plainConfig : ClientConfig where
  baseUri := ⟨some "http", some "localhost:8080", "/", by decide⟩
  protocol := .grpc
  codecFormat := .proto
  compression := .new
  requestCompression := none
  compressionPolicy := .default
  defaultTimeout := some (.fromSecs 5)
  defaultMaxMessageSize := none
  defaultElementMemoryLimit := none
  defaultHeaders := ⟨[(.acceptEncoding, brValue)]⟩

/-- The description of a unary method. -/
def unarySpec : CallSpec := ⟨"/pkg.Service/Method", .unary, .client⟩

/-- The options of a call that sets a header. -/
def optionsWith (n : HeaderName) (v : HeaderValue) : CallOptions :=
  ⟨⟨[(n, v)]⟩, none, none, none, none⟩

/-- The header of the call replaces that of the configuration, and nothing else changes. -/
theorem header_precedence_plain :
    ∃ req generated, EntryPoint.unary.request .std laxUris plainConfig unarySpec
        (fun _ => .ok [1, 2]) (optionsWith .acceptEncoding zstdValue) = .ok req ∧
      UserWins plainConfig (optionsWith .acceptEncoding zstdValue) generated
        req.headers := by
  obtain ⟨req, hreq⟩ : ∃ req, EntryPoint.unary.request .std laxUris plainConfig unarySpec
      (fun _ => .ok [1, 2]) (optionsWith .acceptEncoding zstdValue) = .ok req :=
    ⟨_, rfl⟩
  obtain ⟨generated, -, hiff⟩ := header_precedence .std laxUris hreq
  refine ⟨req, generated, hreq, hiff.mpr ?_⟩
  unfold Undisturbed
  decide

/-- **The call's own `content-type` does not replace the generated one**: both are sent. -/
theorem contentType_sent_twice :
    ∃ req generated, EntryPoint.unary.request .std laxUris plainConfig unarySpec
        (fun _ => .ok [1, 2]) (optionsWith .contentType grpcValue) =
          .ok req ∧
      EntryPoint.unary.generated .std plainConfig
        (optionsWith .contentType grpcValue) (fun _ => .ok [1, 2]) =
          some generated ∧
      req.headers.getAll .contentType =
        [contentTypeValue .grpc .proto false, grpcValue] ∧
      ¬ UserWins plainConfig (optionsWith .contentType grpcValue)
        generated req.headers := by
  refine ⟨_, _, rfl, rfl, by decide, fun hwins => ?_⟩
  exact absurd (hwins.ofOptions .contentType (by decide)) (by decide)

end ConnectRpc
