import ConnectRpc.Crates
import ConnectRpc.Error

/-!
# JSON records of the Connect protocol

Connect puts an error in the body of a unary response, and the end of a stream,
with its error and metadata, in an END_STREAM envelope. Both are JSON. This file
has the records as the server writes them and as the client reads them.

The client's records are read with the conventions of `Lib.Json`; `ofJson_toJson`
lemmas say that what the server writes reads back, up to the rounding of numbers
in debug information.
-/

namespace ConnectRpc

open Lib

variable (cr : Crates)

/-! ## What the server writes -/

/-- A member that is left out when absent. -/
def optMember (name : String) : Option Json → List (String × Json)
  | none => []
  | some v => [(name, v)]

/-- A detail, its members in the order of the record. -/
def ErrorDetail.toJson (d : ErrorDetail) : Json :=
  .obj ([("type", .str d.typeUrl)] ++ optMember "value" (d.value.map .str) ++
    optMember "debug" d.debug)

/-- A detail as a `serde_json::Value`, whose members are sorted. -/
def ErrorDetail.toValue (d : ErrorDetail) : Json :=
  .obj (optMember "debug" d.debug ++ [("type", .str d.typeUrl)] ++
    optMember "value" (d.value.map .str))

/-- A list that is left out when empty. -/
def optList (name : String) (vs : List Json) : List (String × Json) :=
  if vs = [] then [] else [(name, .arr vs)]

/-- The body of a Connect unary error. -/
def ConnectError.toJsonValue (e : ConnectError) : Json :=
  .obj ([("code", .str e.code.asStr)] ++ optMember "message" (e.message.map .str) ++
    optList "details" (e.details.map ErrorDetail.toJson))

/-- `ConnectError::to_json`. -/
def ConnectError.toJson (e : ConnectError) : Bytes :=
  cr.jsonToVec e.toJsonValue

/-- The error of an END_STREAM. -/
structure EndStreamError where
  /-- the text of the code -/
  code : String
  /-- the message -/
  message : Option String
  /-- the details; absent when there are none -/
  details : Option (List Json)

/-- The payload of an END_STREAM envelope. -/
structure EndStreamResponse where
  /-- the error, unless the stream succeeded -/
  error : Option EndStreamError
  /-- the metadata, as a hash map; absent when empty -/
  metadata : Option (List (String × List String))

/-- The distinct names of a header map, in order of appearance. -/
def HeaderMap.names (m : HeaderMap) : List HeaderName :=
  (m.entries.map Prod.fst).eraseDups

/-- A header value as text; a value that is not text is lost. -/
def HeaderValue.textOrEmpty (v : HeaderValue) : String :=
  v.toStr.getD ""

/-- `headers_to_metadata`: the texts of the values of each name. -/
def headersToMetadata (headers : HeaderMap) : List (String × List String) :=
  headers.names.map fun n => (n.text, (headers.getAll n).map HeaderValue.textOrEmpty)

namespace EndStreamResponse

/-- `metadata_from_trailers`. -/
def metadataFromTrailers (trailers : HeaderMap) : Option (List (String × List String)) :=
  if trailers.isEmpty then none else some (headersToMetadata trailers)

/-- A successful end of stream. -/
def success (trailers : HeaderMap) : EndStreamResponse :=
  ⟨none, metadataFromTrailers trailers⟩

/-- An end of stream with an error. The error's own trailers, when it has any,
take the place of the context's. -/
def forError (err : ConnectError) (contextTrailers : HeaderMap) : EndStreamResponse :=
  ⟨some ⟨err.code.asStr, err.message,
      if err.details = [] then none else some (err.details.map ErrorDetail.toValue)⟩,
    metadataFromTrailers (if err.trailers.isEmpty then contextTrailers else err.trailers)⟩

/-- The metadata object. -/
def metadataJson (metadata : List (String × List String)) : Json :=
  .obj ((cr.hashWalk .server metadata).map fun e => (e.1, .arr (e.2.map .str)))

/-- The payload as a value. -/
def toJsonValue (r : EndStreamResponse) : Json :=
  .obj (optMember "error" (r.error.map fun e =>
      .obj ([("code", .str e.code)] ++ optMember "message" (e.message.map .str) ++
        optMember "details" (e.details.map .arr))) ++
    optMember "metadata" (r.metadata.map (metadataJson cr)))

/-- `EndStreamResponse::to_json`. -/
def toJson (r : EndStreamResponse) : Bytes :=
  cr.jsonToVec (r.toJsonValue cr)

end EndStreamResponse

/-! ## What the client reads -/

/-- A detail. -/
def ErrorDetail.ofJson (v : Json) : Option ErrorDetail :=
  match v.fields [⟨"type", false⟩, ⟨"value", false⟩, ⟨"debug", false⟩] with
  | some [t, value, debug] => do
    let typeUrl ← Json.reqStr t
    let value ← Json.optStr value
    some ⟨typeUrl, value, Json.optValue debug⟩
  | _ => none

/-- Details; absent is the same as empty. -/
def detailsOfJson : Option Json → Option (List ErrorDetail)
  | none => some []
  | some (.arr vs) => vs.mapM ErrorDetail.ofJson
  | some _ => none

/-- The error record a client reads, of a unary body or of an END_STREAM. -/
structure ClientError where
  /-- the text of the code -/
  code : Option String
  /-- the message -/
  message : Option String
  /-- the details -/
  details : List ErrorDetail

/-- `ConnectErrorResponse` and `ClientEndStreamError`, which differ in whether a
missing code or message is a declared default. -/
def ClientError.ofJson (declaredDefaults : Bool) (v : Json) : Option ClientError :=
  match v.fields [⟨"code", declaredDefaults⟩, ⟨"message", declaredDefaults⟩, ⟨"details", true⟩] with
  | some [code, message, details] => do
    let code ← Json.optStr code
    let message ← Json.optStr message
    let details ← detailsOfJson details
    some ⟨code, message, details⟩
  | _ => none

/-- The error body of a unary response. -/
def connectErrorResponse (v : Json) : Option ClientError :=
  ClientError.ofJson true v

/-- The error of an END_STREAM. -/
def clientEndStreamError (v : Json) : Option ClientError :=
  ClientError.ofJson false v

/-- Put an entry into a hash map, replacing one of the same key. -/
def insertKey {β : Type} (m : List (String × β)) (k : String) (v : β) : List (String × β) :=
  m.filter (fun e => e.1 ≠ k) ++ [(k, v)]

/-- A list of texts. -/
def stringsOfJson : Json → Option (List String)
  | .arr vs => vs.mapM Json.str?
  | _ => none

/-- A map from names to lists of texts; the last of a repeated key counts. -/
def metadataOfJson : Option Json → Option (Option (List (String × List String)))
  | none => some none
  | some .null => some none
  | some (.obj ms) => do
    let entries ← ms.mapM fun m => (stringsOfJson m.2).map fun ss => (m.1, ss)
    some (some (entries.foldl (fun acc e => insertKey acc e.1 e.2) []))
  | some _ => none

/-- The payload of an END_STREAM envelope as a client reads it. -/
structure ClientEndStreamResponse where
  /-- the error -/
  error : Option ClientError
  /-- the metadata -/
  metadata : Option (List (String × List String))

/-- An optional error: absent and `null` are the same. -/
def errorOfJson : Option Json → Option (Option ClientError)
  | none => some none
  | some .null => some none
  | some v => (clientEndStreamError v).map some

/-- `ClientEndStreamResponse`. -/
def ClientEndStreamResponse.ofJson (v : Json) : Option ClientEndStreamResponse :=
  match v.fields [⟨"error", false⟩, ⟨"metadata", false⟩] with
  | some [error, metadata] => do
    let error ← errorOfJson error
    let metadata ← metadataOfJson metadata
    some ⟨error, metadata⟩
  | _ => none

/-- `parse_connect_end_stream`. -/
def parseConnectEndStream (data : Bytes) : Except ConnectError ClientEndStreamResponse :=
  match cr.jsonRead ClientEndStreamResponse.ofJson data with
  | .ok r => .ok r
  | .error e => .error (.internal s!"protocol error: malformed Connect END_STREAM JSON: {e}")

/-- `end_stream_error_to_connect_error`. -/
def endStreamErrorToConnectError (err : ClientError) : ConnectError :=
  { ConnectError.new ((err.code.bind ErrorCode.fromStr).getD .unknown) (err.message.getD "") with
    details := err.details }

/-- `append_metadata_capped`: append in the order of the walk; an entry that is
not a header is skipped, and a full map ends the whole loop. -/
def appendMetadataCapped (trailers : HeaderMap) (metadata : List (String × List String)) :
    HeaderMap :=
  go trailers ((cr.hashWalk .client metadata).flatMap fun e => e.2.map fun v => (e.1, v))
where
  /-- the loop over single values -/
  go (trailers : HeaderMap) : List (String × String) → HeaderMap
    | [] => trailers
    | (name, value) :: rest =>
      match HeaderName.fromStr name, HeaderValue.fromStr cr.opaqueOctets value with
      | some n, some v =>
        match trailers.tryAppend cr.headerCap n v with
        | some t => go t rest
        | none => trailers
      | _, _ => go trailers rest

/-! ## What is written reads back -/

theorem HeaderMap.names_nodup (m : HeaderMap) : m.names.Nodup := by
  have h : ∀ (n : ℕ) (l : List HeaderName), l.length ≤ n → l.eraseDups.Nodup := by
    intro n
    induction n with
    | zero =>
      intro l hl
      obtain rfl := List.eq_nil_of_length_eq_zero (Nat.le_zero.mp hl)
      exact List.nodup_nil
    | succ n ih =>
      intro l hl
      rcases l with _ | ⟨a, l⟩
      · exact List.nodup_nil
      · rw [List.eraseDups_cons, List.nodup_cons]
        have hshort : (l.filter fun b => !b == a).length ≤ n :=
          Nat.le_trans (List.length_filter_le _ l) (Nat.le_of_succ_le_succ hl)
        refine ⟨?_, ih _ hshort⟩
        rw [List.mem_eraseDups, List.mem_filter]
        rintro ⟨-, ha⟩
        simp at ha
  exact h _ _ (Nat.le_refl _)

theorem HeaderMap.mem_names {m : HeaderMap} {n : HeaderName} :
    n ∈ m.names ↔ m.getAll n ≠ [] := by
  rw [← HeaderMap.contains_iff, HeaderMap.names, List.mem_eraseDups, HeaderMap.contains,
    decide_eq_true_eq]

/-- The metadata of a header map has each name once. -/
theorem headersToMetadata_nodup (m : HeaderMap) : ((headersToMetadata m).map Prod.fst).Nodup := by
  rw [headersToMetadata, List.map_map]
  refine List.Pairwise.map _ ?_ m.names_nodup
  intro a b hne h
  exact hne (HeaderName.ext h)

theorem mapM_map_some {α β γ : Type} {f : β → Option γ} {g : α → β} {k : α → γ} {l : List α}
    (h : ∀ a ∈ l, f (g a) = some (k a)) : (l.map g).mapM f = some (l.map k) := by
  induction l with
  | nil => rfl
  | cons a l ih =>
    have hl := ih fun b hb => h b (List.mem_cons_of_mem _ hb)
    simp only [List.map_cons, List.mapM_cons, h a List.mem_cons_self, hl]
    rfl

/-- Entries with distinct keys are put into a hash map as they are. -/
theorem foldl_insertKey {β : Type} :
    ∀ (l acc : List (String × β)), ((acc ++ l).map Prod.fst).Nodup →
      l.foldl (fun acc e => insertKey acc e.1 e.2) acc = acc ++ l := by
  intro l
  induction l with
  | nil => simp
  | cons e l ih =>
    intro acc h
    have hfresh : ∀ a ∈ acc, a.1 ≠ e.1 := by
      rw [List.map_append, List.nodup_append] at h
      intro a ha
      exact h.2.2 _ (List.mem_map_of_mem ha) _ (by simp)
    have hkeep : insertKey acc e.1 e.2 = acc ++ [e] := by
      have hf : acc.filter (fun a => a.1 ≠ e.1) = acc :=
        List.filter_eq_self.mpr fun a ha => by simpa using hfresh a ha
      rw [insertKey, hf]
    rw [List.foldl_cons, hkeep, ih _ (by simpa using h)]
    simp

/-- The metadata object reads back as the walk it was written from. -/
theorem metadataOfJson_metadataJson {metadata : List (String × List String)}
    (h : (metadata.map Prod.fst).Nodup) :
    metadataOfJson (some (EndStreamResponse.metadataJson cr metadata)) =
      some (some (cr.hashWalk .server metadata)) := by
  have hwalk : ((cr.hashWalk .server metadata).map Prod.fst).Nodup :=
    ((cr.hashWalk_perm .server h).map Prod.fst).nodup_iff.mpr h
  have hstrs : ∀ ss : List String, stringsOfJson (.arr (ss.map .str)) = some ss := by
    intro ss
    have := mapM_map_some (f := Json.str?) (g := .str) (k := fun s => s) (l := ss)
      fun _ _ => rfl
    simpa [stringsOfJson] using this
  have hentries := mapM_map_some
    (f := fun m : String × Json => (stringsOfJson m.2).map fun ss => (m.1, ss))
    (g := fun e : String × List String => (e.1, Json.arr (e.2.map .str)))
    (k := fun e => e) (l := cr.hashWalk .server metadata)
    fun e _ => by simp [hstrs]
  simp only [EndStreamResponse.metadataJson, metadataOfJson, hentries, List.map_id']
  rw [Option.bind_eq_bind, Option.bind_some, foldl_insertKey _ _ (by simpa using hwalk)]
  rfl

theorem mapNum_metadataJson (f : Number → Number) (metadata : List (String × List String)) :
    (EndStreamResponse.metadataJson cr metadata).mapNum f =
      EndStreamResponse.metadataJson cr metadata := by
  simp only [EndStreamResponse.metadataJson, Json.mapNum_obj, List.map_map]
  refine congrArg Json.obj (List.map_congr_left fun e _ => ?_)
  simp

theorem depth_metadataJson (metadata : List (String × List String)) :
    (EndStreamResponse.metadataJson cr metadata).depth ≤ 2 := by
  rw [EndStreamResponse.metadataJson, Json.depth_obj_le]
  intro m hm
  obtain ⟨e, -, rfl⟩ := List.mem_map.mp hm
  rw [Json.depth_arr_le]
  intro v hv
  obtain ⟨s, -, rfl⟩ := List.mem_map.mp hv
  simp

/-- A detail as it comes back over Connect: debug information rounds its
numbers. -/
def ErrorDetail.rounded (d : ErrorDetail) : ErrorDetail :=
  { d with debug := Json.optValue (d.debug.map (Json.mapNum cr.jsonNumber)) }

theorem ErrorDetail.ofJson_toValue (d : ErrorDetail) :
    ErrorDetail.ofJson (d.toValue.mapNum cr.jsonNumber) = some (d.rounded cr) := by
  obtain ⟨t, _ | v, _ | b⟩ := d <;>
    simp [ErrorDetail.toValue, ErrorDetail.ofJson, ErrorDetail.rounded, optMember, Json.fields,
      Json.member, Json.reqStr, Json.optStr]

theorem ErrorDetail.ofJson_toJson (d : ErrorDetail) :
    ErrorDetail.ofJson (d.toJson.mapNum cr.jsonNumber) = some (d.rounded cr) := by
  obtain ⟨t, _ | v, _ | b⟩ := d <;>
    simp [ErrorDetail.toJson, ErrorDetail.ofJson, ErrorDetail.rounded, optMember, Json.fields,
      Json.member, Json.reqStr, Json.optStr]

/-- A written list of details reads back. -/
theorem detailsOfJson_map {toJson : ErrorDetail → Json}
    (h : ∀ d, ErrorDetail.ofJson ((toJson d).mapNum cr.jsonNumber) = some (d.rounded cr))
    (ds : List ErrorDetail) :
    detailsOfJson (some (.arr ((ds.map toJson).map (Json.mapNum cr.jsonNumber)))) =
      some (ds.map (ErrorDetail.rounded cr)) := by
  rw [detailsOfJson, List.map_map]
  exact mapM_map_some fun d _ => h d

/-- The body of a unary error reads back. -/
theorem ConnectError.ofJson_toJsonValue (e : ConnectError) :
    connectErrorResponse (e.toJsonValue.mapNum cr.jsonNumber) =
      some ⟨some e.code.asStr, e.message, e.details.map (ErrorDetail.rounded cr)⟩ := by
  have hd := detailsOfJson_map cr (ErrorDetail.ofJson_toJson cr) e.details
  obtain ⟨c, m, ds, o, hs, ts⟩ := e
  rcases ds with _ | ⟨d, ds⟩
  · cases m <;>
      simp [ConnectError.toJsonValue, connectErrorResponse, ClientError.ofJson, optMember, optList,
        Json.fields, Json.member, Json.optStr, detailsOfJson]
  · cases m <;>
    · simp only [ConnectError.toJsonValue, connectErrorResponse, ClientError.ofJson, optMember,
        optList, Json.fields, Json.member]
      simp at hd ⊢
      simp [Json.optStr, hd]

namespace EndStreamResponse

/-- The metadata of trailers as the server walks it. -/
def walkedMetadata (trailers : HeaderMap) : Option (List (String × List String)) :=
  (metadataFromTrailers trailers).map (cr.hashWalk .server)

theorem metadataOfJson_fromTrailers (trailers : HeaderMap) :
    metadataOfJson ((metadataFromTrailers trailers).map (metadataJson cr)) =
      some (walkedMetadata cr trailers) := by
  rw [walkedMetadata, metadataFromTrailers]
  split
  · rfl
  · exact metadataOfJson_metadataJson cr (headersToMetadata_nodup trailers)

theorem map_mapNum_metadataJson (f : Number → Number)
    (metadata : Option (List (String × List String))) :
    (metadata.map (metadataJson cr)).map (Json.mapNum f) = metadata.map (metadataJson cr) := by
  cases metadata with
  | none => rfl
  | some m => simp [mapNum_metadataJson]

/-- A record with an optional error and optional metadata reads member by
member. -/
theorem ofJson_members (error metadata : Option Json) :
    ClientEndStreamResponse.ofJson
        (.obj (optMember "error" error ++ optMember "metadata" metadata)) =
      (do
        let error ← errorOfJson error
        let metadata ← metadataOfJson metadata
        some ⟨error, metadata⟩) := by
  cases error <;> cases metadata <;>
    simp [ClientEndStreamResponse.ofJson, Json.fields, Json.member, optMember]

theorem mapNum_members (f : Number → Number) (error metadata : Option Json) :
    (Json.obj (optMember "error" error ++ optMember "metadata" metadata)).mapNum f =
      .obj (optMember "error" (error.map (Json.mapNum f)) ++
        optMember "metadata" (metadata.map (Json.mapNum f))) := by
  cases error <;> cases metadata <;> simp [optMember]

/-- **A clean end reads back**: no error, and the metadata of the trailers. -/
theorem ofJson_success (trailers : HeaderMap) :
    ClientEndStreamResponse.ofJson (((success trailers).toJsonValue cr).mapNum cr.jsonNumber) =
      some ⟨none, walkedMetadata cr trailers⟩ := by
  rw [toJsonValue, mapNum_members, ofJson_members, map_mapNum_metadataJson]
  simp only [success, Option.map_none, errorOfJson, metadataOfJson_fromTrailers]
  rfl

/-- **An end with an error reads back**, up to the rounding of numbers in debug
information. -/
theorem ofJson_forError (err : ConnectError) (trailers : HeaderMap) :
    ClientEndStreamResponse.ofJson
        (((forError err trailers).toJsonValue cr).mapNum cr.jsonNumber) =
      some ⟨some ⟨some err.code.asStr, err.message, err.details.map (ErrorDetail.rounded cr)⟩,
        walkedMetadata cr (if err.trailers.isEmpty then trailers else err.trailers)⟩ := by
  rw [toJsonValue, mapNum_members, ofJson_members, map_mapNum_metadataJson]
  have hd := detailsOfJson_map cr (ErrorDetail.ofJson_toValue cr) err.details
  simp only [forError, metadataOfJson_fromTrailers]
  obtain ⟨c, m, ds, o, hs, ts⟩ := err
  rcases ds with _ | ⟨d, ds⟩
  · cases m <;>
      simp [errorOfJson, clientEndStreamError, ClientError.ofJson, optMember, Json.fields,
        Json.member, Json.optStr, detailsOfJson]
  · simp only [List.map_cons, List.map_map] at hd
    cases m <;>
      simp [errorOfJson, clientEndStreamError, ClientError.ofJson, optMember, Json.fields,
        Json.member, Json.optStr, hd]

theorem depth_success (trailers : HeaderMap) : ((success trailers).toJsonValue cr).depth ≤ 3 := by
  rw [toJsonValue, Json.depth_obj_le]
  intro m hm
  simp only [success, Option.map_none, optMember, List.nil_append] at hm
  rcases hmeta : metadataFromTrailers trailers with _ | metadata
  · rw [hmeta] at hm
    cases hm
  · rw [hmeta] at hm
    obtain rfl := List.mem_singleton.mp hm
    exact depth_metadataJson cr metadata

end EndStreamResponse

/-- What a client makes of a clean end of stream. -/
theorem parseConnectEndStream_success (trailers : HeaderMap) :
    parseConnectEndStream cr ((EndStreamResponse.success trailers).toJson cr) =
      .ok ⟨none, EndStreamResponse.walkedMetadata cr trailers⟩ := by
  have hdepth : ((EndStreamResponse.success trailers).toJsonValue cr).depth ≤ cr.jsonDepth :=
    Nat.le_trans (EndStreamResponse.depth_success cr trailers)
      (Nat.le_trans (by decide) cr.jsonDepth_large)
  rw [parseConnectEndStream, EndStreamResponse.toJson, cr.jsonRead_toVec _ hdepth,
    EndStreamResponse.ofJson_success]

/-- What a client makes of an end of stream with an error it can follow. -/
theorem parseConnectEndStream_forError (err : ConnectError) (trailers : HeaderMap)
    (h : ((EndStreamResponse.forError err trailers).toJsonValue cr).depth ≤ cr.jsonDepth) :
    parseConnectEndStream cr ((EndStreamResponse.forError err trailers).toJson cr) =
      .ok ⟨some ⟨some err.code.asStr, err.message, err.details.map (ErrorDetail.rounded cr)⟩,
        EndStreamResponse.walkedMetadata cr
          (if err.trailers.isEmpty then trailers else err.trailers)⟩ := by
  rw [parseConnectEndStream, EndStreamResponse.toJson, cr.jsonRead_toVec _ h,
    EndStreamResponse.ofJson_forError]

/-- An end of stream nested too deep is refused. -/
theorem parseConnectEndStream_deep (err : ConnectError) (trailers : HeaderMap)
    (h : cr.jsonDepth < ((EndStreamResponse.forError err trailers).toJsonValue cr).depth) :
    ∃ e : String, parseConnectEndStream cr ((EndStreamResponse.forError err trailers).toJson cr) =
      .error (.internal s!"protocol error: malformed Connect END_STREAM JSON: {e}") := by
  obtain ⟨e, he⟩ := cr.jsonRead_deep ClientEndStreamResponse.ofJson h
  refine ⟨e, ?_⟩
  rw [parseConnectEndStream, EndStreamResponse.toJson, he]

end ConnectRpc
