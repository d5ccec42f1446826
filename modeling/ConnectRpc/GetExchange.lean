import ConnectRpc.Exchange

/-!
# A call by GET and back

A unary Connect call of a method without side effects may be sent as a `GET` request, whose query
holds the message. This file follows it as `Exchange` follows the others: the service reads the
message out of the query again, runs its chain on it, and the client gets what the chain answers
(`get_exchange`).

A name of an encoding with a character that structures the query does not arrive as it is, so the
names are `Plain`.
-/

namespace ConnectRpc

open Lib GetQueryParams

variable {cr : Crates} {ur : UriCrates} {X α : Type}

/-! ## The version in a query -/

/-- A name that is not taken apart in a query. -/
def PlainName (name : String) : Prop :=
  '&' ∉ name.toList ∧ '#' ∉ name.toList

/-- A query names the version, if the name of its encoding is not taken apart. -/
theorem parse_query_version {useBase64 : Bool} {compression : Option String} {encoding : String}
    {message : List Char} {params : GetQueryParams} (hplain : ∀ c ∈ compression, '&' ∉ c.toList)
    (hencoding : '&' ∉ encoding.toList) (hmessage : '&' ∉ message)
    (h : parseGetQueryParams (some (.ofList (buildConnectGetQuery useBase64 compression encoding
      message))) = .ok params) :
    params.connectVersion = some "v1" := by
  have hstart : ((startPieces useBase64).foldl set initial).connectVersion = some "v1" := by
    cases useBase64
    · decide +kernel
    · decide +kernel
  have hkept : ∀ params : GetQueryParams,
      ((compressionPieces compression).foldl set params).connectVersion = params.connectVersion := by
    intro params
    cases compression with
    | none => rfl
    | some c =>
      have htail : nameTail c = [] := by
        rw [nameTail, splitAll_of_not_mem (hplain c rfl)]
        rfl
      rw [compressionPieces, htail, List.foldl_cons, set_compression]
      rfl
  rw [parseGetQueryParams_some, String.toList_ofList, splitAll_query _ _ hencoding hmessage,
    List.foldl_append, List.foldl_append, List.foldl_cons, List.foldl_cons, List.foldl_nil,
    set_encoding, set_message] at h
  split at h
  · cases h
  · obtain rfl := Except.ok.inj h
    exact (hkept _).trans hstart

/-- The query of a client names it. -/
theorem getQuery_version {codec : CodecFormat} {payload : Bytes} {compressedWith : Option String}
    {params : GetQueryParams} (hplain : ∀ c ∈ compressedWith, '&' ∉ c.toList)
    (h : parseGetQueryParams (some (getQuery codec payload compressedWith)) = .ok params) :
    params.connectVersion = some "v1" := by
  refine parse_query_version hplain ?_ ?_ h
  · cases codec
    · decide
    · decide
  · -- no message holds the mark, in either alphabet
    split
    · exact fun hmem => (mem_urlSafeEncode hmem).1.2.1 rfl
    · exact fun hmem => (mem_percentEncode_plain hmem).2.1 rfl

/-! ## The request -/

variable {s : Service X} {c : CallConfig α} {config : ClientConfig} {spec : CallSpec}
variable {message : ClientMessage} {options : CallOptions} {body : Bytes} {creq : ClientRequest}
variable {course : Course} {req : HttpRequest X}

/-- A `GET` request of a client that a service can read. -/
structure Fetched (cr : Crates) (ur : UriCrates) (s : Service X) (config : ClientConfig)
    (spec : CallSpec) (message : ClientMessage) (options : CallOptions) (body : Bytes)
    (creq : ClientRequest) (course : Course) (req : HttpRequest X) : Prop where
  /-- the client builds it -/
  built : EntryPoint.unaryGet.request cr ur config spec message options = .ok creq
  /-- for this message -/
  encodes : message config.codecFormat = .ok body
  /-- its method arrives -/
  method : req.method = creq.method
  /-- its query arrives -/
  query : req.query = creq.uri.pathAndQuery.query
  /-- its headers arrive -/
  headers : req.headers = creq.headers
  /-- no body arrives -/
  carries : req.body.Carries []
  /-- before any deadline -/
  inTime : course.InTime req.body
  /-- there is a method to call, which may be called so -/
  route : ∃ desc, s.descriptor req = some desc ∧ desc.idempotent = true
  /-- the checks of the head pass -/
  heads : s.HeadPasses req
  /-- the service undoes the compression of the client -/
  inverts : ∀ name ∈ config.requestCompression, Inverts config.compression s.compression name
  /-- the message is within its limits -/
  limit : body.length ≤ (s.limitsOf req).maxMessageSize
  /-- the path is only a path -/
  plain : PlainPath spec.procedure
  /-- the name of the encoding is only a name -/
  name : ∀ encoding ∈ wholeEncoding config options message, PlainName encoding
  /-- the service knows the codec -/
  codec : config.codecFormat = .proto ∨ s.json = true

/-- Such a request is for Connect, and its query is read back. -/
theorem Fetched.reads (h : Fetched cr ur s config spec message options body creq course req) :
    config.protocol = .connect ∧ req.method = .GET ∧ ∃ params,
      parseGetQueryParams req.query = .ok params ∧ params.connectVersion = some "v1" ∧
        params.encoding = some config.codecFormat.queryName ∧
          decodeGetMessage s.base64Error params s.compression
            (s.limitsOf req).maxMessageSize = .ok body := by
  have hbuilt := h.built
  obtain ⟨-, -, hbuilt⟩ := exists_of_bind_ok hbuilt
  obtain ⟨_, hprotocol, hbuilt⟩ := exists_of_bind_ok hbuilt
  obtain ⟨effective, heffective, hbuilt⟩ := exists_of_bind_ok hbuilt
  obtain ⟨body', hbody', hbuilt⟩ := exists_of_bind_ok hbuilt
  obtain ⟨⟨payload, applied⟩, hpayload, hbuilt⟩ := exists_of_bind_ok hbuilt
  obtain ⟨uri, huri, hbuilt⟩ := exists_of_bind_ok hbuilt
  obtain ⟨generated, -, rfl⟩ := finishRequest_ok cr hbuilt
  obtain rfl := Except.ok.inj ((orError_eq_ok hbody').symm.trans h.encodes)
  have hpayload := orError_eq_ok hpayload
  have hwhole := compressWhole_ok h.encodes (effectiveOptions_ok cr heffective).2.2 hpayload
  have hname := h.name
  rw [← hwhole] at hname
  have hconnect : config.protocol = .connect := by
    have hprotocol := orError_eq_ok hprotocol
    by_contra hp
    rw [if_neg hp] at hprotocol
    cases hprotocol
  have hquery : req.query = some (getQuery config.codecFormat payload applied) := by
    rw [h.query, procedureUri_query ur h.plain (orError_eq_ok huri),
      takeWhile_all (hash_not_mem_query fun c hc => (hname c hc).2), String.ofList_toList]
  have hread : ReadsBack s.base64Error s.compression (s.limitsOf req).maxMessageSize
      (some (getQuery config.codecFormat payload applied)) config.codecFormat body' := by
    rcases compressWhole_payload hpayload with ⟨rfl, rfl⟩ | ⟨encoding, hencoding, rfl, hz⟩
    · exact readsBack_plain s.base64Error _ h.limit
    · rw [readsBack_compressed s.base64Error _ (equals_not_mem_of_compress hz)]
      exact takenApart_of_not_mem (h.inverts encoding hencoding) hz h.limit (hname encoding rfl).1
  obtain ⟨params, hparse, hcodec, hdecode⟩ := hread
  have hversion := getQuery_version (fun c hc => (hname c hc).1) hparse
  rw [← hquery] at hparse
  exact ⟨hconnect, h.method, params, hparse, hversion, hcodec, hdecode⟩

/-- **The service answers** with a rendering of what its chain answers to the message. -/
theorem Fetched.call (h : Fetched cr ur s config spec message options body creq course req) :
    (s.call cr req course).2 =
      s.unaryRendering cr config.protocol (s.metadataOf req config.protocol) config.codecFormat
        (s.unaryAnswer (s.checked req) course config.protocol config.codecFormat body) := by
  obtain ⟨hconnect, hmethod, params, hparse, hversion, hcodec, hdecode⟩ := h.reads
  obtain ⟨desc, hroute, hidempotent⟩ := h.route
  have hcollect : (collectBodyLimited (X := X) (s.limitsOf req).maxRequestBodySize none
      req.body.polls []).2 = .ok [] :=
    collectBodyLimited_of_carries h.carries (Nat.zero_le _)
  have hknown : CodecFormat.fromCodec s.json config.codecFormat.queryName =
      some config.codecFormat := by
    rcases h.codec with hproto | hjson
    · rw [hproto]
      rfl
    · rw [hjson]
      cases config.codecFormat
      · rfl
      · rfl
  have hread : s.getRequestBody req.query desc (s.limitsOf req) = .ok (body, config.codecFormat) := by
    rw [Service.getRequestBody, if_neg (by simp [hidempotent]), hparse]
    have hmatch : ¬(params.connectVersion.any fun v => decide (v ≠ "v1")) = true := by
      simp [hversion]
    simp only [bind, Except.bind, if_neg hmatch, hdecode, hcodec, Option.getD_some, hknown]
  rw [hconnect, Service.unaryRendering, dif_pos rfl]
  exact Service.call_get cr hmethod h.heads hroute h.inTime hcollect hread

/-! ## There and back -/

/-- **A call by `GET`, there and back.** The service answers, and however its response is cut the
client answers what the chain has answered to the caller's message. -/
theorem get_exchange (h : Fetched cr ur s config spec message options body creq course req)
    (hclient : Awaits s c config options .unaryGet)
    (hreadable : UnaryAnswerReadable cr s c
      (s.unaryAnswer (s.checked req) course config.protocol config.codecFormat body)) :
    ∃ r, (s.call cr req course).2 = some r ∧ (∃ got, ArrivesAs cr r got) ∧
      ∀ got, ArrivesAs cr r got → ∀ late,
        UnaryConveyed c
          (s.unaryAnswer (s.checked req) course config.protocol config.codecFormat body)
          (parseUnaryResponse cr c got late) := by
  have hconnect := h.reads.1
  have hinverts : ∀ name ∈ s.unaryNegotiated c.protocol (s.metadataOf req config.protocol),
      Inverts s.compression c.compression name := by
    intro name hname
    apply hclient.inverts h.built
    rw [← h.headers]
    rw [Service.unaryNegotiated, hclient.protocol, if_pos hconnect] at hname
    rw [EntryPoint.acceptName, EntryPoint.encodingName]
    exact hname
  obtain ⟨r, hr, hconveyed⟩ := unary_conveyed hreadable hinverts
  rw [hclient.protocol, hclient.codec] at hr
  exact ⟨r, h.call.trans hr, hconveyed⟩

/-! ## A call -/

/-- A service with one method without side effects, which undoes `br`. -/
def fetchService : Service Unit where
  json := true
  dispatcher :=
    { lookup := fun _ => some ⟨.unary, true, none, none⟩
      callUnary := fun _ _ _ _ => .answer (.ok ⟨.contiguous [7], .empty, .empty, none⟩)
      callServerStreaming := fun path _ _ _ => .answer (.error (.methodNotFound path))
      callClientStreaming := fun path _ _ _ => .answer (.error (.methodNotFound path))
      callBidiStreaming := fun path _ _ _ => .answer (.error (.methodNotFound path)) }
  limits := ⟨64, 64, 64⟩
  compression := prefixRegistry "br" isHttpToken_br
  compressionPolicy := .disabled
  deadlinePolicy := ⟨0, none, none⟩
  interceptors := []
  base64Error _ := ""
  httpError _ := ""

/-- A client of JSON, which undoes `br` as well. -/
def fetchClient : CallConfig Bytes where
  protocol := .connect
  compression := prefixRegistry "br" isHttpToken_br
  codecFormat := .json
  maxMessageSize := none
  decode := .ok

/-- The one encoding of this registry is `br`. -/
theorem name_of_supports {name : String}
    (h : (prefixRegistry "br" isHttpToken_br).supports name = true) : name = "br" := by
  rw [CompressionRegistry.supports, Option.isSome_iff_exists] at h
  obtain ⟨p, hp⟩ := h
  have hname := List.find?_some hp
  have hmem := List.mem_of_find?_eq_some hp
  obtain rfl : p = prefixProvider "br" := List.mem_singleton.mp hmem
  exact (of_decide_eq_true hname).symm

/-- A compressed message of two bytes is asked with, and one byte is answered. -/
theorem get_exchange_br :
    ∃ (req : HttpRequest Unit) (r : Response ConnectRpcBody),
      (fetchService.call .std req patiently).2 = some r ∧ ∀ got, ArrivesAs .std r got → ∀ late,
        UnaryConveyed fetchClient (.ok ⟨.contiguous [7], .empty, .empty, none⟩)
          (parseUnaryResponse .std fetchClient got late) := by
  obtain ⟨creq, hreq, hquery⟩ := exists_getRequest isHttpToken_br (by decide) (by decide) [123, 125]
  let req : HttpRequest Unit :=
    ⟨creq.method, "/pkg.Service/Get", creq.uri.pathAndQuery.query, creq.headers, (),
      ⟨[], fun _ => false⟩⟩
  have hfetched : Fetched .std acceptingUris fetchService (getConfig "br" isHttpToken_br) getSpec
      (fun _ => .ok [123, 125]) noOptions [123, 125] creq patiently req := by
    refine ⟨hreq, rfl, rfl, rfl, rfl, rfl, Nat.zero_le _, ⟨_, rfl, rfl⟩, rfl, ?_,
      show 2 ≤ 64 by decide, by decide +kernel, ?_, .inr rfl⟩
    · exact fun name hname => Option.some.inj hname ▸ prefixRegistry_inverts isHttpToken_br
    · intro name hname
      obtain rfl : "br" = name := Option.some.inj hname
      exact ⟨by decide, by decide⟩
  have hawaits : Awaits fetchService fetchClient (getConfig "br" isHttpToken_br) noOptions
      .unaryGet := by
    refine ⟨rfl, rfl, rfl, fun _ _ => ⟨rfl, rfl⟩, fun hempty => ?_, fun name hname _ => ?_⟩
    · cases hempty
    · obtain rfl := name_of_supports hname
      exact prefixRegistry_inverts isHttpToken_br
  have hanswer : fetchService.unaryAnswer (fetchService.checked req) patiently .connect .json
      [123, 125] = .ok ⟨.contiguous [7], .empty, .empty, none⟩ := by
    rw [Service.unaryAnswer]
    generalize (patiently.absoluteDeadline _).isSome = limited
    cases limited with
    | false => rfl
    | true => rfl
  have hreadable : UnaryReadable .std fetchService fetchClient
      ⟨.contiguous [7], .empty, .empty, none⟩ [7] := by
    refine ⟨⟨rfl, rfl, rfl, by decide⟩, fun _ e he => ?_, by decide, fun name z hz => ?_, rfl,
      fun e he => ?_, by decide⟩
    · cases he
    · rw [CompressionRegistry.compress] at hz
      split at hz
      · obtain rfl := Except.ok.inj hz
        decide
      · split at hz
        · cases hz
        · rename_i p hp
          obtain rfl : p = prefixProvider "br" :=
            List.mem_singleton.mp (List.mem_of_find?_eq_some hp)
          obtain rfl := Except.ok.inj hz
          decide
    · cases he
  obtain ⟨r, hcall, -, hconveyed⟩ := get_exchange hfetched hawaits (by
    rw [show (getConfig "br" isHttpToken_br).protocol = .connect from rfl,
      show (getConfig "br" isHttpToken_br).codecFormat = .json from rfl, hanswer]
    exact ⟨[7], hreadable⟩)
  exact ⟨req, r, hcall, fun got hgot late => hanswer ▸ hconveyed got hgot late⟩

end ConnectRpc
