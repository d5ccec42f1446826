import ConnectRpc.ClientStreamScan
import ConnectRpc.UnaryAgreement

/-!
# The metadata of client errors

An error that a client finds in a response should carry the headers of the response
and the trailing metadata read by then, without the entries that hold the status
(`Carries`). The exits of a parser attach the two in five ways: not at all, the
headers alone, both, the trailing metadata without the status, or the headers in place
of trailing metadata. Each way has one lemma that says when the error carries what it
should; each parser has a lemma that says which way its error came out.
-/

namespace ConnectRpc

open Lib

variable (cr : Crates) {α : Type}

/-! ## Maps with and without a status -/

namespace HeaderMap

/-- Whether all names in a map satisfy a test. -/
def allNames (p : HeaderName → Bool) (m : HeaderMap) : Bool :=
  m.entries.all fun e => p e.1

theorem allNames_iff {p : HeaderName → Bool} {m : HeaderMap} :
    m.allNames p = true ↔ ∀ n, p n = false → m.getAll n = [] := by
  rw [allNames, List.all_eq_true]
  constructor
  · intro h n hn
    rw [List.eq_nil_iff_forall_not_mem]
    intro v hv
    rw [h _ (mem_getAll.mp hv)] at hn
    cases hn
  · intro h e he
    by_contra hp
    have hnone := h e.1 (Bool.not_eq_true _ ▸ hp)
    have hmem := mem_getAll.mpr (show (e.1, e.2) ∈ m.entries from he)
    rw [hnone] at hmem
    cases hmem

theorem isEmpty_iff {m : HeaderMap} : m.isEmpty = true ↔ ∀ n, m.getAll n = [] := by
  have hall : m.isEmpty = m.allNames fun _ => false := by
    rw [isEmpty, allNames]
    cases m.entries <;> rfl
  rw [hall, allNames_iff]
  exact forall_congr' fun n => ⟨fun h => h rfl, fun h _ => h⟩

end HeaderMap

/-- Whether a map holds nothing but a status. -/
def onlyStatus (m : HeaderMap) : Bool :=
  m.allNames isStatusTrailer

/-- Whether a map holds no status. -/
def noStatus (m : HeaderMap) : Bool :=
  m.allNames fun n => !isStatusTrailer n

/-- The metadata of an error: the trailers, without the status. -/
theorem getAll_errorMetadataFromTrailers (m : HeaderMap) (n : HeaderName) :
    (errorMetadataFromTrailers m).getAll n = if isStatusTrailer n then [] else m.getAll n := by
  rw [errorMetadataFromTrailers, HeaderMap.getAll_appendAll, HeaderMap.getAll_empty, List.nil_append]
  simp only [HeaderMap.getAll, List.filter_filter]
  by_cases hn : isStatusTrailer n = true
  · rw [if_pos hn, List.map_eq_nil_iff, List.filter_eq_nil_iff]
    intro e _ he
    simp only [Bool.and_eq_true, decide_eq_true_eq, Bool.not_eq_true'] at he
    rw [he.1, hn] at he
    exact Bool.noConfusion he.2
  · rw [if_neg hn]
    congr 1
    refine List.filter_congr fun e _ => ?_
    by_cases he : e.1 = n
    · simp [he, hn]
    · simp [he]

/-! ## What an error carries -/

/-- An error carries the headers of a response and its trailing metadata, without the
status. -/
structure Carries (headers trailing : HeaderMap) (e : ConnectError) : Prop where
  /-- the headers -/
  headers : ∀ n, e.responseHeaders.getAll n = headers.getAll n
  /-- the trailing metadata -/
  trailers : ∀ n, e.trailers.getAll n = if isStatusTrailer n then [] else trailing.getAll n

/-- What is attached to an error. -/
def ConnectError.Attached (headers trailers : HeaderMap) (e : ConnectError) : Prop :=
  e.responseHeaders = headers ∧ e.trailers = trailers

/-- An error with nothing attached. -/
abbrev ConnectError.Bare (e : ConnectError) : Prop :=
  e.Attached .empty .empty

theorem ConnectError.bare_new (code : ErrorCode) (message : String) :
    (ConnectError.new code message).Bare :=
  ⟨rfl, rfl⟩

section

variable {e : ConnectError} {headers trailing t : HeaderMap}

theorem ConnectError.Attached.withHeaders (he : e.Attached headers t) (h : HeaderMap) :
    (e.setResponseHeaders h).Attached h t :=
  ⟨rfl, he.2⟩

theorem ConnectError.Attached.withTrailers (he : e.Attached headers t) (h : HeaderMap) :
    (e.setTrailers h).Attached headers h :=
  ⟨he.1, rfl⟩

/-- `with_response_metadata` attaches both. -/
theorem ConnectError.Bare.withResponseMetadata (he : e.Bare) (headers t : HeaderMap) :
    (withResponseMetadata headers t e).Attached headers t := by
  rw [ConnectRpc.withResponseMetadata]
  by_cases ht : t.isEmpty = true
  · rw [HeaderMap.eq_empty_of_isEmpty ht, if_pos HeaderMap.isEmpty_empty]
    exact he.withHeaders headers
  · simp only [if_neg ht]
    exact (he.withHeaders headers).withTrailers t

theorem ConnectError.Attached.carries_iff {h : HeaderMap} (he : e.Attached h t) :
    Carries headers trailing e ↔ (∀ n, h.getAll n = headers.getAll n) ∧
      ∀ n, t.getAll n = if isStatusTrailer n then [] else trailing.getAll n := by
  obtain ⟨rfl, rfl⟩ := he
  exact ⟨fun hc => ⟨hc.headers, hc.trailers⟩, fun hc => ⟨hc.1, hc.2⟩⟩

theorem onlyStatus_iff :
    onlyStatus t = true ↔ ∀ n, [] = if isStatusTrailer n then [] else t.getAll n := by
  rw [onlyStatus, HeaderMap.allNames_iff]
  refine forall_congr' fun n => ?_
  cases isStatusTrailer n with
  | false => exact ⟨fun h => (h rfl).symm, fun h _ => h.symm⟩
  | true => exact ⟨fun _ => rfl, fun _ h => Bool.noConfusion h⟩

/-- An error with the headers carries all when there is no more than a status. -/
theorem carries_headers_iff (he : e.Attached headers .empty) :
    Carries headers trailing e ↔ onlyStatus trailing = true := by
  rw [he.carries_iff, onlyStatus_iff]
  exact and_iff_right fun _ => rfl

/-- With no trailing metadata the headers are all. -/
theorem carries_headers (he : e.Attached headers .empty) : Carries headers .empty e :=
  (carries_headers_iff he).mpr rfl

/-- An error with nothing attached carries all when there are no headers either. -/
theorem carries_bare_iff (he : e.Bare) :
    Carries headers trailing e ↔ headers.isEmpty = true ∧ onlyStatus trailing = true := by
  rw [he.carries_iff, onlyStatus_iff, HeaderMap.isEmpty_iff]
  exact and_congr_left' (forall_congr' fun n => eq_comm)

/-- An error with the trailing metadata whole carries no more than it should when
there is no status in it. -/
theorem carries_whole_iff (he : e.Attached headers trailing) :
    Carries headers trailing e ↔ noStatus trailing = true := by
  rw [he.carries_iff, noStatus, HeaderMap.allNames_iff]
  refine (and_iff_right fun _ => rfl).trans (forall_congr' fun n => ?_)
  cases isStatusTrailer n <;> simp

theorem carries_metadata (he : e.Attached headers (errorMetadataFromTrailers trailing)) :
    Carries headers trailing e :=
  he.carries_iff.mpr ⟨fun _ => rfl, getAll_errorMetadataFromTrailers trailing⟩

/-- An error with headers in place of trailing metadata. -/
theorem carries_copied_iff (he : e.Attached headers (errorMetadataFromTrailers headers)) :
    Carries headers .empty e ↔ onlyStatus headers = true := by
  rw [he.carries_iff, onlyStatus_iff]
  refine (and_iff_right fun _ => rfl).trans (forall_congr' fun n => ?_)
  rw [getAll_errorMetadataFromTrailers, HeaderMap.getAll_empty, ite_self]
  exact eq_comm

end

/-! ## Where errors come from -/

/-- The providers of a registry attach nothing to their errors. -/
def CompressionRegistry.BareErrors (reg : CompressionRegistry) : Prop :=
  ∀ p ∈ reg.providers, ∀ b limit e, p.decompressWithLimit b limit = .error e → e.Bare

theorem CompressionRegistry.BareErrors.bare {reg : CompressionRegistry} (h : reg.BareErrors)
    {encoding : String} {b : Bytes} {limit : ℕ} {e : ConnectError}
    (he : reg.decompressWithLimit encoding b limit = .error e) : e.Bare := by
  rw [CompressionRegistry.decompressWithLimit] at he
  by_cases hid : encoding = "identity"
  · rw [if_pos hid] at he
    split at he
    · cases he
      exact ConnectError.bare_new _ _
    · cases he
  · rw [if_neg hid] at he
    rcases hp : reg.get encoding with _ | p
    · rw [hp] at he
      cases he
      exact ConnectError.bare_new _ _
    · simp only [hp] at he
      split at he
      · cases he
      · exact h p (List.mem_of_find?_eq_some hp) _ _ _ he

theorem attached_mapResponseDecompressionError {e : ConnectError} {headers t : HeaderMap}
    (he : e.Attached headers t) : (mapResponseDecompressionError e).Attached headers t := by
  rw [mapResponseDecompressionError]
  split
  · exact he
  · exact he
  · exact he

/-- Whether a body can be read to its end within a bound. -/
def readable (limit : ℕ) (body : List BodyEvent) : Bool :=
  body.all BodyEvent.isFrame && (allData body).length ≤ limit

/-- A body is collected exactly when it can be read, and a failure attaches nothing. -/
theorem collectBodyBounded_cases {limit : ℕ} (late : Bool) :
    ∀ (body : List BodyEvent) (acc : Bytes), acc.length ≤ limit →
      match collectBodyBounded limit late acc body with
      | .ok b => body.all BodyEvent.isFrame = true ∧ b = acc ++ allData body ∧ b.length ≤ limit
      | .error e => (body.all BodyEvent.isFrame && (acc ++ allData body).length ≤ limit) = false ∧
          e.Bare := by
  intro body
  induction body with
  | nil =>
    intro acc hacc
    exact ⟨rfl, (List.append_nil acc).symm, hacc⟩
  | cons ev body ih =>
    intro acc hacc
    cases ev with
    | data d =>
      rw [collectBodyBounded]
      by_cases hfull : (acc ++ d).length > limit
      · rw [if_pos hfull]
        refine ⟨?_, ConnectError.bare_new _ _⟩
        have hlong : ¬ (acc ++ allData (.data d :: body)).length ≤ limit := by
          rw [allData, ← List.append_assoc, List.length_append]
          omega
        rw [decide_eq_false hlong, Bool.and_false]
      · rw [if_neg hfull]
        have hrest := ih (acc ++ d) (Nat.le_of_not_lt hfull)
        rw [List.append_assoc] at hrest
        exact hrest
    | trailers t =>
      rw [collectBodyBounded]
      exact ih acc hacc
    | failed text =>
      refine ⟨rfl, ?_⟩
      rw [classifyBodyReadError]
      cases late <;> exact ConnectError.bare_new _ _
    | deadline => exact ⟨rfl, ConnectError.bare_new _ _⟩

theorem readable_of_collect {limit : ℕ} {late : Bool} {body : List BodyEvent} {b : Bytes}
    (h : collectBodyBounded limit late [] body = .ok b) :
    readable limit body = true ∧ b = allData body := by
  have hcases := collectBodyBounded_cases late body [] (Nat.zero_le limit)
  rw [h] at hcases
  obtain ⟨hframes, rfl, hlen⟩ := hcases
  rw [List.nil_append] at hlen ⊢
  exact ⟨by rw [readable, hframes, decide_eq_true hlen, Bool.and_self], rfl⟩

theorem unreadable_of_collect {limit : ℕ} {late : Bool} {body : List BodyEvent} {e : ConnectError}
    (h : collectBodyBounded limit late [] body = .error e) :
    readable limit body = false ∧ e.Bare := by
  have hcases := collectBodyBounded_cases late body [] (Nat.zero_le limit)
  rw [h] at hcases
  exact hcases

/-- Where the deadline fires, it is what the collecting ends with. -/
theorem collectBodyBounded_deadline {limit : ℕ} (late : Bool) :
    ∀ (body : List BodyEvent) (acc : Bytes), deadlineReached limit acc.length body = true →
      collectBodyBounded limit late acc body = .error deadlineFired := by
  intro body
  induction body with
  | nil =>
    intro acc h
    cases h
  | cons ev body ih =>
    intro acc h
    cases ev with
    | data d =>
      rw [deadlineReached, Bool.and_eq_true, decide_eq_true_iff, ← List.length_append] at h
      rw [collectBodyBounded, if_neg (Nat.not_lt_of_le h.1)]
      exact ih _ h.2
    | trailers t => exact ih acc h
    | failed text => cases h
    | deadline => rfl

/-- A body that can be read is read before the deadline. -/
theorem deadlineReached_of_readable {limit : ℕ} {body : List BodyEvent}
    (h : readable limit body = true) : deadlineReached limit 0 body = false := by
  rw [← Bool.not_eq_true]
  intro hdeadline
  have hunread := unreadable_of_collect (collectBodyBounded_deadline false body [] hdeadline)
  rw [h] at hunread
  cases hunread.1

theorem bare_of_decodeWith {limitOf : LimitOf} {b : Bytes} {e : ConnectError}
    (h : decodeWith limitOf b = .error e) : e.Bare := by
  rw [decodeWith] at h
  split at h
  · cases h
  · simp only at h
    split at h
    · cases h
      exact ConnectError.bare_new _ _
    · split at h
      · cases h
      · cases h

theorem bare_of_decodeWithLimit {limit : ℕ} {b : Bytes} {e : ConnectError}
    (h : decodeWithLimit limit b = .error e) : e.Bare := by
  rw [decodeWithLimit, decodeContiguous_eq] at h
  exact bare_of_decodeWith h

theorem bare_of_parseConnectEndStream {b : Bytes} {e : ConnectError}
    (h : parseConnectEndStream cr b = .error e) : e.Bare := by
  rw [parseConnectEndStream] at h
  split at h
  · cases h
  · cases h
    exact ConnectError.bare_new _ _

/-- A status that is an error comes with the metadata of its map, and one that cannot
be read with nothing. -/
theorem attached_of_parseGrpcError {m : HeaderMap} {e : ConnectError}
    (h : parseGrpcErrorFromTrailers cr m = some e) :
    (CarriesError m ∧ e.Attached .empty (errorMetadataFromTrailers m)) ∨
      (¬ CarriesError m ∧ e.Bare) := by
  rw [parseGrpcErrorFromTrailers] at h
  rcases hv : m.get hdr.grpcStatus with _ | v
  · rw [hv] at h
    cases h
  · rw [hv] at h
    rcases hn : statusValue v with _ | _ | n
    · simp only [hn] at h
      cases h
      refine .inr ⟨?_, ConnectError.bare_new _ _⟩
      rintro ⟨v', n, hv', hn', -⟩
      rw [hv] at hv'
      obtain rfl := Option.some.inj hv'
      rw [hn] at hn'
      cases hn'
    · simp only [hn] at h
      cases h
    · simp only [hn] at h
      cases h
      exact .inl ⟨⟨v, n + 1, hv, hn, Nat.succ_ne_zero n⟩, rfl, rfl⟩

theorem attached_validateConnect {headers : HeaderMap} {codec : CodecFormat} {streaming : Bool}
    {e : ConnectError}
    (h : validateConnectResponseContentType headers codec streaming = .error e) :
    e.Attached headers .empty := by
  rw [validateConnectResponseContentType] at h
  split at h
  · cases h
  · simp only at h
    split at h
    · cases h
    · cases h
      exact ⟨rfl, rfl⟩

theorem attached_validateGrpc {headers : HeaderMap} {protocol : Protocol} {codec : CodecFormat}
    {e : ConnectError} (h : validateGrpcResponseContentType headers protocol codec = .error e) :
    e.Attached headers .empty := by
  rw [validateGrpcResponseContentType] at h
  split at h
  · cases h
  · simp only at h
    split at h
    · cases h
    · split at h
      · cases h
      · cases h
        exact ⟨rfl, rfl⟩

/-- Every error of the response head has the headers. -/
theorem attached_checkGrpcResponseHead {status : StatusCode} {headers : HeaderMap}
    {protocol : Protocol} {codec : CodecFormat} {e : ConnectError}
    (h : checkGrpcResponseHead status headers protocol codec = .error e) :
    e.Attached headers .empty := by
  rw [checkGrpcResponseHead] at h
  simp only at h
  split at h
  · rcases hct : validateGrpcResponseContentType headers protocol codec with err | _
    · rw [hct] at h
      obtain rfl := Except.error.inj h
      have herr := attached_validateGrpc hct
      exact ⟨herr.1, herr.2⟩
    · rw [hct] at h
      cases h
      exact ⟨rfl, rfl⟩
  · exact attached_validateGrpc h

section

variable {c : CallConfig α} {response : Response (List BodyEvent)} {late : Bool} {e : ConnectError}

/-! ## Connect unary -/

/-- The deadline fires while the body of a Connect unary response is read: the one of an error, or
the one of a message of an accepted content type. -/
def connectUnaryDeadline (c : CallConfig α) (response : Response (List BodyEvent)) : Bool :=
  (!response.status.isSuccess ||
      (validateConnectResponseContentType (plainHeaders response.headers) c.codecFormat
        false).isOk) &&
    deadlineReached c.messageLimit 0 response.body

/-- When an error of `parse_connect_unary_response` carries the metadata: there is no status among
the trailers, or nothing to carry where the deadline fires. -/
def ConnectUnaryKeeps (c : CallConfig α) (response : Response (List BodyEvent)) : Prop :=
  if connectUnaryDeadline c response then
    (plainHeaders response.headers).isEmpty = true ∧
      onlyStatus (carriedTrailers response.headers) = true
  else noStatus (carriedTrailers response.headers) = true

theorem attached_connectUnaryError
    (hdeadline : deadlineReached c.messageLimit 0 response.body = false) :
    (connectUnaryError cr c response late).Attached (plainHeaders response.headers)
      (carriedTrailers response.headers) := by
  rw [connectUnaryError]
  simp only
  split
  · rw [attachUnlessDeadline, hdeadline]
    exact ⟨rfl, rfl⟩
  · split
    · exact ⟨rfl, rfl⟩
    · split
      · exact ⟨rfl, rfl⟩
      · exact ⟨rfl, rfl⟩

/-- Before the deadline, every error of the Connect unary parser has the headers and all the
trailers that headers carry. -/
theorem attached_parseConnectUnaryResponse (hdecode : ∀ b e, c.decode b = .error e → e.Bare)
    (hcompression : c.compression.BareErrors) (hdeadline : connectUnaryDeadline c response = false)
    (h : parseConnectUnaryResponse cr c response late = .error e) :
    e.Attached (plainHeaders response.headers) (carriedTrailers response.headers) := by
  rw [parseConnectUnaryResponse] at h
  rw [connectUnaryDeadline] at hdeadline
  split at h
  · rename_i hstatus
    rw [hstatus, Bool.true_or, Bool.true_and] at hdeadline
    cases h
    exact attached_connectUnaryError cr hdeadline
  · simp only at h
    rcases hct : validateConnectResponseContentType (plainHeaders response.headers) c.codecFormat
        false with err | _
    · rw [hct] at h
      cases h
      exact (attached_validateConnect hct).withTrailers _
    · rw [hct, Except.isOk, Except.toBool, Bool.or_true, Bool.true_and] at hdeadline
      rw [hct] at h
      simp only [attachUnlessDeadline, hdeadline, Bool.false_eq_true, if_false] at h
      split at h
      -- the body, collected and decompressed
      · rename_i hbody
        cases h
        refine ConnectError.Bare.withResponseMetadata ?_ _ _
        rcases hcollect : collectBodyBounded c.messageLimit late [] response.body with err' | raw
        · rw [hcollect] at hbody
          cases hbody
          exact (unreadable_of_collect hcollect).2
        · rw [hcollect] at hbody
          simp only [Except.bind] at hbody
          split at hbody
          · cases hbody
          · rename_i encoding _
            rcases hz : c.compression.decompressWithLimit encoding raw c.messageLimit with err' | d
            · rw [hz] at hbody
              cases hbody
              exact attached_mapResponseDecompressionError (hcompression.bare hz)
            · rw [hz] at hbody
              cases hbody
      · split at h
        · cases h
          exact ConnectError.Bare.withResponseMetadata (ConnectError.bare_new _ _) _ _
        · rename_i body _ _
          rcases hd : c.decode body with err | m
          · rw [hd] at h
            cases h
            exact (hdecode _ _ hd).withResponseMetadata _ _
          · rw [hd] at h
            cases h

/-- At the deadline the error is that of `with_deadline`, which has nothing attached. -/
theorem parseConnectUnaryResponse_deadline (late : Bool)
    (hdeadline : connectUnaryDeadline c response = true) :
    parseConnectUnaryResponse cr c response late = .error deadlineFired := by
  rw [connectUnaryDeadline, Bool.and_eq_true, Bool.or_eq_true] at hdeadline
  obtain ⟨hread, hdeadline⟩ := hdeadline
  have hcollect : collectBodyBounded c.messageLimit late [] response.body = .error deadlineFired :=
    collectBodyBounded_deadline late response.body [] hdeadline
  rw [parseConnectUnaryResponse]
  by_cases hstatus : (!response.status.isSuccess) = true
  · rw [if_pos hstatus, connectUnaryError]
    simp only [hcollect, attachUnlessDeadline, hdeadline, if_true]
  · rw [if_neg hstatus]
    rcases hct : validateConnectResponseContentType (plainHeaders response.headers) c.codecFormat
        false with err | _
    · rw [hct] at hread
      rcases hread with hfails | hok
      · exact absurd hfails hstatus
      · cases hok
    · simp only [hct, hcollect, Except.bind, attachUnlessDeadline, hdeadline, if_true]

/-- **When an error of a Connect unary call carries the metadata.** -/
theorem parseConnectUnaryResponse_carries_iff (hdecode : ∀ b e, c.decode b = .error e → e.Bare)
    (hcompression : c.compression.BareErrors)
    (h : parseConnectUnaryResponse cr c response late = .error e) :
    Carries (plainHeaders response.headers) (carriedTrailers response.headers) e ↔
      ConnectUnaryKeeps c response := by
  rw [ConnectUnaryKeeps]
  rcases hdeadline : connectUnaryDeadline c response with _ | _
  · rw [if_neg Bool.false_ne_true]
    exact carries_whole_iff (attached_parseConnectUnaryResponse cr hdecode hcompression hdeadline h)
  · rw [parseConnectUnaryResponse_deadline cr late hdeadline] at h
    obtain rfl := Except.error.inj h
    rw [if_pos rfl]
    exact carries_bare_iff (ConnectError.bare_new _ _)

/-! ## Streams -/

/-- The error body of a Connect response is read without the headers at hand. -/
theorem carries_clientStreamStatusError_iff :
    Carries response.headers .empty (clientStreamStatusError cr c response late) ↔
      (readable c.messageLimit response.body = false → response.headers.isEmpty = true) := by
  rw [clientStreamStatusError]
  rcases hcollect : collectBodyBounded c.messageLimit late [] response.body with err | body
  · obtain ⟨hread, hbare⟩ := unreadable_of_collect hcollect
    rw [carries_bare_iff hbare, hread]
    exact ⟨fun h _ => h.1, fun h => ⟨h rfl, rfl⟩⟩
  · obtain ⟨hread, -⟩ := readable_of_collect hcollect
    rw [hread]
    refine iff_of_true ?_ fun h => Bool.noConfusion h
    simp only
    split
    · exact carries_headers ⟨rfl, rfl⟩
    · exact carries_headers ⟨rfl, rfl⟩

theorem streamStatusError_connect (hp : c.protocol = .connect) :
    streamStatusError cr c response late = clientStreamStatusError cr c response late := by
  rw [streamStatusError, if_pos hp]
  rfl

/-- When an error of `make_server_stream` carries the metadata. On Connect, the body of
a response that is not a success has to be readable; on gRPC, a status in the headers
has to be all that is in them. -/
def StreamHeadKeeps (c : CallConfig α) (response : Response (List BodyEvent)) : Prop :=
  if c.protocol = .connect then
    response.status.isSuccess = false → readable c.messageLimit response.body = false →
      response.headers.isEmpty = true
  else
    checkGrpcResponseHead response.status response.headers c.protocol c.codecFormat = .ok () →
      CarriesError response.headers → onlyStatus response.headers = true

theorem makeServerStream_carries_iff (h : makeServerStream cr c response late = .error e) :
    Carries response.headers .empty e ↔ StreamHeadKeeps c response := by
  rw [makeServerStream] at h
  rw [StreamHeadKeeps]
  by_cases hp : c.protocol = .connect
  · simp only [if_pos hp] at h ⊢
    rcases hs : response.status.isSuccess with _ | _
    · rw [hs] at h
      simp only [Bool.not_false, if_true] at h
      obtain rfl := Except.error.inj h
      rw [streamStatusError_connect cr hp, carries_clientStreamStatusError_iff]
      exact ⟨fun h _ => h, fun h => h rfl⟩
    · rw [hs] at h
      simp only [Bool.not_true, Bool.false_eq_true, if_false] at h
      refine iff_of_true ?_ fun h => Bool.noConfusion h
      split at h
      · rename_i hct
        obtain rfl := Except.error.inj h
        exact carries_headers (attached_validateConnect hct)
      · cases h
  · simp only [if_neg hp] at h ⊢
    rcases hhead : checkGrpcResponseHead response.status response.headers c.protocol c.codecFormat
      with err | _
    · rw [checkGrpcHead, hhead] at h
      obtain rfl := Except.error.inj h
      refine iff_of_true ?_ fun h => by cases h
      exact carries_headers (attached_checkGrpcResponseHead hhead)
    · rw [checkGrpcHead, hhead] at h
      rw [forall_prop_of_true rfl]
      rcases hparse : parseGrpcErrorFromTrailers cr response.headers with _ | err
      · rw [hparse] at h
        have hno : ¬ CarriesError response.headers := by
          intro hcarries
          obtain ⟨err, herr, -⟩ := hcarries.parse cr
          rw [hparse] at herr
          cases herr
        refine iff_of_true ?_ fun h => absurd h hno
        simp only at h
        split at h
        · obtain rfl := Except.error.inj h
          rw [streamStatusError, if_neg hp]
          exact carries_headers ⟨rfl, rfl⟩
        · cases h
      · rw [hparse] at h
        obtain rfl := Except.error.inj h
        rcases attached_of_parseGrpcError cr hparse with ⟨hcarries, hattached⟩ | ⟨hno, hbare⟩
        · rw [carries_copied_iff (hattached.withHeaders _)]
          exact ⟨fun h _ => h, fun h => h hcarries⟩
        · refine iff_of_true ?_ fun h => absurd h hno
          exact carries_headers (hbare.withHeaders _)

end

namespace StreamSetup

variable (s : StreamSetup α)

/-- The trailing metadata in an END_STREAM record; none where it cannot be read. -/
def endStreamMetadata (e : Envelope) : HeaderMap :=
  match (s.decompressEnvelope e).bind (parseConnectEndStream cr) with
  | .ok endStream => (endStream.metadata.map (appendMetadataCapped cr .empty)).getD .empty
  | .error _ => .empty

/-- The trailing metadata in the envelope that ends a stream. -/
def metadataIn (e : Envelope) : HeaderMap :=
  if s.isTrailerFrame e then (s.frameTrailers cr e).getD .empty
  else if e.isEndStream then s.endStreamMetadata cr e
  else .empty

/-- The trailing metadata a stream has read when it ends: what is in the envelope that
ends it, or the trailers after the last envelope. -/
def receivedBy (body : List BodyEvent) : HeaderMap :=
  let found := s.decoded (bodyRest s.protocol body).1
  match s.firstEnd found.items with
  | some e => s.metadataIn cr e
  | none =>
    match found.stop, (bodyRest s.protocol body).2 with
    | .rest _, .trailers trailers => trailers
    | _, _ => .empty

end StreamSetup

/-- An end holds the trailing metadata received; without any, its error has nothing
attached. -/
structure StreamEnd.Holds (received : HeaderMap) (ended : StreamEnd) : Prop where
  /-- the trailing metadata -/
  trailers : ended.trailers.getD .empty = received
  /-- an error before any trailers -/
  bare : ∀ e, ended.outcome = some e → ended.trailers = none → e.Bare

theorem StreamEnd.holds_ofError {e : ConnectError} (he : e.Bare) :
    (StreamEnd.ofError e).Holds .empty := by
  refine ⟨rfl, ?_⟩
  intro _ h _
  obtain rfl := Option.some.inj h
  exact he

/-- Attaching the metadata of the response makes the error carry it. -/
theorem StreamEnd.Holds.carries {received headers : HeaderMap} {ended : StreamEnd}
    {e : ConnectError} (h : ended.Holds received)
    (he : (ended.attachMetadata headers).outcome = some e) : Carries headers received e := by
  obtain ⟨hreceived, hbare⟩ := h
  rw [attachMetadata] at he
  rcases ho : ended.outcome with _ | err
  · rw [ho] at he
    cases he
  · rw [ho, Option.map_some] at he
    rcases ht : ended.trailers with _ | trailers
    · rw [ht] at he hreceived
      obtain rfl := Option.some.inj he
      rw [← hreceived]
      exact carries_headers ((hbare err ho ht).withHeaders headers)
    · rw [ht] at he hreceived
      obtain rfl := Option.some.inj he
      rw [← hreceived]
      exact carries_metadata ⟨rfl, rfl⟩

namespace StreamSetup

variable {s : StreamSetup α}

theorem classifyGrpcEnd_holds (sawBodyData : Bool) (trailers : Option HeaderMap) :
    (s.classifyGrpcEnd cr sawBodyData trailers).Holds (trailers.getD .empty) := by
  refine ⟨rfl, ?_⟩
  intro e he hnone
  simp only [classifyGrpcEnd] at he hnone
  rw [hnone] at he
  simp only [Option.bind_none] at he
  split at he
  · cases he
  · split at he
    · cases he
      exact ConnectError.bare_new _ _
    · cases he
      exact ConnectError.bare_new _ _

theorem bare_decompressEnvelope (hcompression : s.compression.BareErrors) {env : Envelope}
    {e : ConnectError} (h : s.decompressEnvelope env = .error e) : e.Bare := by
  rw [decompressEnvelope] at h
  split at h
  · split at h
    · cases h
      exact ConnectError.bare_new _ _
    · rename_i encoding _
      rcases hz : s.compression.decompressWithLimit encoding env.data s.maxMessageSize with err | d
      · rw [hz] at h
        cases h
        exact attached_mapResponseDecompressionError (hcompression.bare hz)
      · rw [hz] at h
        cases h
  · cases h

theorem processEndStream_holds (hcompression : s.compression.BareErrors) (env : Envelope) :
    (s.processEndStream cr env).Holds (s.endStreamMetadata cr env) := by
  rw [processEndStream, endStreamMetadata]
  rcases hd : s.decompressEnvelope env with err | data
  · exact StreamEnd.holds_ofError (bare_decompressEnvelope hcompression hd)
  · simp only [Except.bind]
    rcases hp : parseConnectEndStream cr data with err | endStream
    · exact StreamEnd.holds_ofError (bare_of_parseConnectEndStream cr hp)
    · refine ⟨rfl, ?_⟩
      intro e he _
      obtain ⟨err, -, rfl⟩ := Option.map_eq_some_iff.mp he
      exact ⟨rfl, rfl⟩

/-- An envelope that ends a stream: its trailing metadata is what is received. -/
theorem endBy_holds (hdecode : ∀ b e, s.decode b = .error e → e.Bare)
    (hcompression : s.compression.BareErrors) (sawBodyData : Bool) (env : Envelope) :
    (s.endBy cr sawBodyData env).Holds (s.metadataIn cr env) := by
  rw [endBy, metadataIn]
  by_cases hframe : s.isTrailerFrame env = true
  · rw [if_pos hframe, if_pos hframe]
    exact classifyGrpcEnd_holds cr _ _
  · rw [if_neg hframe, if_neg hframe]
    by_cases hend : env.isEndStream = true
    · rw [if_pos hend, if_pos hend]
      exact processEndStream_holds cr hcompression env
    · rw [if_neg hend, if_neg hend]
      rcases hd : s.decompressEnvelope env with err | data
      · exact StreamEnd.holds_ofError (bare_decompressEnvelope hcompression hd)
      · simp only [Except.bind]
        rcases hm : s.decode data with err | m
        · exact StreamEnd.holds_ofError (hdecode _ _ hm)
        · refine ⟨rfl, ?_⟩
          intro e he _
          cases he

/-- **Whatever ends a stream**, the end holds the trailing metadata received. -/
theorem reading_holds (hdecode : ∀ b e, s.decode b = .error e → e.Bare)
    (hcompression : s.compression.BareErrors) (body : List BodyEvent) :
    (s.reading cr body).2.Holds (s.receivedBy cr body) := by
  rw [reading_end, receivedBy]
  rcases s.firstEnd (s.decoded (bodyRest s.protocol body).1).items with _ | env
  · simp only
    rcases hstop : (s.decoded (bodyRest s.protocol body).1).stop with err | rest
    · -- decoding failed, and the body is read no further
      obtain ⟨r, hr⟩ := (decodeWith_stable s.limits).parse_failed hstop
      exact StreamEnd.holds_ofError (bare_of_decodeWith hr)
    · rw [endOf]
      rcases (bodyRest s.protocol body).2 with _ | trailers | text | _
      · rw [endOfBody]
        by_cases hp : s.protocol = .connect
        · rw [if_pos hp]
          exact StreamEnd.holds_ofError (ConnectError.bare_new _ _)
        · rw [if_neg hp]
          exact classifyGrpcEnd_holds cr _ none
      · exact classifyGrpcEnd_holds cr _ (some trailers)
      · refine StreamEnd.holds_ofError ?_
        rw [classifyBodyReadError]
        cases s.deadlineElapsed <;> exact ConnectError.bare_new _ _
      · exact StreamEnd.holds_ofError (ConnectError.bare_new _ _)
  · exact endBy_holds cr hdecode hcompression _ env

end StreamSetup

/-- **Every error of a stream carries the metadata**, however often it is asked for. -/
theorem message_carries {c : CallConfig α} {response : Response (List BodyEvent)} {late : Bool}
    (hdecode : ∀ b e, c.decode b = .error e → e.Bare) (hcompression : c.compression.BareErrors)
    {s : ServerStream α} (hs : makeServerStream cr c response late = .ok s) (n : ℕ)
    {e : ConnectError} (he : .error e ∈ s.answers cr n) :
    Carries response.headers ((c.setup response.headers late).receivedBy cr response.body) e := by
  obtain ⟨hlive, hsetup, hread⟩ := toRead_makeServerStream cr hs
  rw [ServerStream.answers_eq cr hlive, ServerStream.answersOf, take_append_const] at he
  have hmem := List.mem_of_mem_take he
  rcases List.mem_append.mp hmem with hmessage | hend
  · obtain ⟨m, -, hm⟩ := List.mem_map.mp hmessage
    cases hm
  · have hreplay := (List.mem_replicate.mp hend).2
    rw [hread, hsetup] at hreplay
    have hholds := StreamSetup.reading_holds cr (s := c.setup response.headers late) hdecode
      hcompression response.body
    rw [StreamEnd.replay] at hreplay
    split at hreplay
    · cases hreplay
    · rename_i err herr
      obtain rfl := Except.error.inj hreplay
      exact hholds.carries herr

/-! ## Connect client streams -/

theorem bare_scanPayload {compression : CompressionRegistry} {encoding : Option String} {limit : ℕ}
    {missing : String} {env : Envelope} {e : ConnectError} (hcompression : compression.BareErrors)
    (h : scanPayload compression encoding limit missing env = .error e) : e.Bare := by
  unfold scanPayload at h
  split at h
  · split at h
    · cases h
      exact ConnectError.bare_new _ _
    · rename_i enc
      rcases hz : compression.decompressWithLimit enc env.data limit with err | d
      · rw [hz] at h
        cases h
        exact attached_mapResponseDecompressionError (hcompression.bare hz)
      · rw [hz] at h
        cases h
  · cases h

namespace StreamSetup

variable (s : StreamSetup α)

/-- The END_STREAM record that a scan of some data comes to, which is the first
envelope or the one after a message, and that message. -/
def endRecord (b : Bytes) : Option (Option Bytes × Envelope) :=
  match decodeWithLimit s.maxMessageSize b with
  | .ok (some (envelope, rest)) =>
    if envelope.isEndStream then some (none, envelope)
    else
      match s.decompressEnvelope envelope with
      | .error _ => none
      | .ok data =>
        if data.length > s.maxMessageSize then none
        else
          match decodeWithLimit s.maxMessageSize rest with
          | .ok (some (next, _)) => if next.isEndStream then some (some data, next) else none
          | _ => none
  | _ => none

variable {s}

/-- The error of an END_STREAM record, or of one that cannot be read, comes with the
metadata of the record. -/
theorem scanEndStream_error_carries (hcompression : s.compression.BareErrors) {env : Envelope}
    {e : ConnectError} {headers : HeaderMap}
    (h : scanEndStream cr s.compression s.encoding s.maxMessageSize env = .error e) :
    Carries headers (s.endStreamMetadata cr env) (e.setResponseHeaders headers) := by
  rw [scanEndStream] at h
  rw [endStreamMetadata]
  rcases hd : s.decompressEnvelope env with err | data
  · rcases hs : scanPayload s.compression s.encoding s.maxMessageSize
        "received compressed END_STREAM without encoding header" env with err' | data
    · rw [hs] at h
      cases h
      exact carries_headers ((bare_scanPayload hcompression hs).withHeaders headers)
    · rw [scanPayload_ok_iff, hd] at hs
      cases hs
  · rw [(scanPayload_ok_iff _ _ _).mpr hd] at h
    simp only [Except.bind] at h ⊢
    rcases hp : parseConnectEndStream cr data with err | endStream
    · rw [hp] at h
      cases h
      exact carries_headers ((bare_of_parseConnectEndStream cr hp).withHeaders headers)
    · obtain ⟨_ | err, metadata⟩ := endStream
      · simp only [hp] at h
        cases h
      · simp only [hp] at h
        cases h
        refine carries_metadata ⟨rfl, ?_⟩
        cases metadata <;> rfl

/-- A record without an error gives the scan the metadata it holds. -/
theorem scanEndStream_ok_metadata {env : Envelope} {trailers : HeaderMap}
    (h : scanEndStream cr s.compression s.encoding s.maxMessageSize env = .ok trailers) :
    trailers = s.endStreamMetadata cr env ∧ (s.processEndStream cr env).outcome = none := by
  obtain ⟨received, hprocess, rfl⟩ := (scanEndStream_ok_iff cr env trailers).mp h
  refine ⟨?_, by rw [hprocess]⟩
  rw [processEndStream] at hprocess
  rw [endStreamMetadata]
  rcases hd : s.decompressEnvelope env with err | data
  · rw [hd] at hprocess
    cases hprocess
  · rw [hd] at hprocess
    simp only [Except.bind] at hprocess ⊢
    rcases hp : parseConnectEndStream cr data with err | endStream
    · rw [hp] at hprocess
      cases hprocess
    · rw [hp] at hprocess
      obtain ⟨-, rfl⟩ := StreamEnd.mk.inj hprocess
      rfl

/-- After the message a scan goes on for one more round at most. -/
theorem scanLoop_some (fuel : ℕ) (m b : Bytes) :
    scanLoop cr s.compression s.encoding s.maxMessageSize (fuel + 1) (some m) b =
      match decodeWithLimit s.maxMessageSize b with
      | .error e => .error e
      | .ok none => .ok (some m, none)
      | .ok (some (env, _)) =>
        if env.isEndStream then
          (scanEndStream cr s.compression s.encoding s.maxMessageSize env).map fun trailers =>
            (some m, some trailers)
        else
          .error (.unimplemented "client streaming response contains multiple data messages") := by
  rw [scanLoop]
  by_cases h0 : b = []
  · rw [if_pos h0, h0]
    rfl
  · rw [if_neg h0]
    rfl

/-- What a scan does with the END_STREAM record it comes to; without one it fails, and
the error has nothing attached. -/
theorem scan_endRecord (hcompression : s.compression.BareErrors) (b : Bytes) :
    match s.endRecord b with
    | some (message, env) =>
      scanConnectClientStreamEnvelopes cr b s.compression s.encoding s.maxMessageSize =
        (scanEndStream cr s.compression s.encoding s.maxMessageSize env).bind fun trailers =>
          match message with
          | none => .error (.unimplemented "client streaming response contains no data messages")
          | some message => .ok (message, trailers)
    | none => ∃ e, e.Bare ∧
      scanConnectClientStreamEnvelopes cr b s.compression s.encoding s.maxMessageSize =
        .error e := by
  rw [scanConnectClientStreamEnvelopes, endRecord, scanLoop]
  by_cases h0 : b = []
  · subst h0
    exact ⟨_, ConnectError.bare_new _ _, rfl⟩
  · obtain ⟨n, hn⟩ : ∃ n, b.length = n + 1 :=
      Nat.exists_eq_succ_of_ne_zero fun h => h0 (List.length_eq_zero_iff.mp h)
    rw [if_neg h0]
    rcases hd : decodeWithLimit s.maxMessageSize b with err | _ | ⟨env, rest⟩
    · exact ⟨err, bare_of_decodeWithLimit hd, rfl⟩
    · exact ⟨_, ConnectError.bare_new _ _, rfl⟩
    · simp only
      by_cases hend : env.isEndStream = true
      · simp only [if_pos hend]
        cases scanEndStream cr s.compression s.encoding s.maxMessageSize env <;> rfl
      · simp only [if_neg hend]
        rcases hdata : s.decompressEnvelope env with err | data
        · rcases hs : scanPayload s.compression s.encoding s.maxMessageSize
              "received compressed message without encoding header" env with err' | data
          · exact ⟨err', bare_scanPayload hcompression hs, rfl⟩
          · rw [scanPayload_ok_iff, hdata] at hs
            cases hs
        · rw [(scanPayload_ok_iff _ _ _).mpr hdata]
          by_cases hlong : data.length > s.maxMessageSize
          · simp only [if_pos hlong]
            exact ⟨_, ConnectError.bare_new _ _, rfl⟩
          · -- the second round, with the message
            simp only [if_neg hlong, hn, scanLoop_some]
            rcases hd' : decodeWithLimit s.maxMessageSize rest with err | _ | ⟨next, rest'⟩
            · exact ⟨err, bare_of_decodeWithLimit hd', rfl⟩
            · exact ⟨_, ConnectError.bare_new _ _, rfl⟩
            · simp only
              by_cases hnext : next.isEndStream = true
              · simp only [if_pos hnext]
                cases scanEndStream cr s.compression s.encoding s.maxMessageSize next <;> rfl
              · simp only [if_neg hnext]
                exact ⟨_, ConnectError.bare_new _ _, rfl⟩

end StreamSetup

/-- The END_STREAM record the client of a Connect client stream comes to, and the
message before it. -/
def scannedRecord (c : CallConfig α) (response : Response (List BodyEvent)) :
    Option (Option Bytes × Envelope) :=
  if response.status.isSuccess &&
      (validateConnectResponseContentType response.headers c.codecFormat true).isOk &&
      readable (clientStreamBodyLimit c) response.body then
    (c.setup response.headers false).endRecord (allData response.body)
  else none

/-- The trailing metadata the client of a Connect client stream has read. -/
def clientStreamReceived (c : CallConfig α) (response : Response (List BodyEvent)) : HeaderMap :=
  match scannedRecord c response with
  | some (_, env) => (c.setup response.headers false).endStreamMetadata cr env
  | none => .empty

/-- The deadline fires while the body of a Connect client stream's response is read. -/
def clientStreamDeadline (c : CallConfig α) (response : Response (List BodyEvent)) : Bool :=
  response.status.isSuccess &&
      (validateConnectResponseContentType response.headers c.codecFormat true).isOk &&
    deadlineReached (clientStreamBodyLimit c) 0 response.body

/-- When an error of `parse_connect_client_stream_response` carries the metadata: the
body of a response that is not a success has to be readable, and the deadline not to fire in that
of a success; and where the END_STREAM record has no error, it has to hold no status after a
message, and nothing but a status without one. -/
def ClientStreamKeeps (c : CallConfig α) (response : Response (List BodyEvent)) : Prop :=
  (response.status.isSuccess = false → readable c.messageLimit response.body = false →
      response.headers.isEmpty = true) ∧
    (clientStreamDeadline c response = true → response.headers.isEmpty = true) ∧
    ∀ message env, scannedRecord c response = some (message, env) →
      ((c.setup response.headers false).processEndStream cr env).outcome = none →
        if message.isSome then noStatus (clientStreamReceived cr c response) = true
        else onlyStatus (clientStreamReceived cr c response) = true

section

variable {c : CallConfig α} {response : Response (List BodyEvent)} {late : Bool} {e : ConnectError}

/-- Without an END_STREAM record to read, a success keeps the metadata before the deadline. -/
theorem clientStreamKeeps_none (hs : response.status.isSuccess = true)
    (hrecord : scannedRecord c response = none) :
    ClientStreamKeeps cr c response ↔
      (clientStreamDeadline c response = true → response.headers.isEmpty = true) := by
  rw [ClientStreamKeeps, hrecord, hs]
  exact ⟨fun h => h.2.1, fun h => ⟨fun hfalse => Bool.noConfusion hfalse, h, fun _ _ h => by cases h⟩⟩

/-- With one, what matters is whether it has an error and what else it holds. -/
theorem clientStreamKeeps_some {message : Option Bytes} {env : Envelope}
    (hs : response.status.isSuccess = true)
    (hrecord : scannedRecord c response = some (message, env)) :
    ClientStreamKeeps cr c response ↔
      (((c.setup response.headers false).processEndStream cr env).outcome = none →
        if message.isSome then
          noStatus ((c.setup response.headers false).endStreamMetadata cr env) = true
        else onlyStatus ((c.setup response.headers false).endStreamMetadata cr env) = true) := by
  have hread : clientStreamDeadline c response = false := by
    rw [scannedRecord] at hrecord
    split at hrecord
    · rename_i hread
      rw [clientStreamDeadline, deadlineReached_of_readable (Bool.and_eq_true_iff.mp hread).2,
        Bool.and_false]
    · cases hrecord
  rw [ClientStreamKeeps, clientStreamReceived, hrecord]
  constructor
  · exact fun h => h.2.2 message env rfl
  · intro h
    refine ⟨fun hfalse => ?_, fun hdeadline => ?_, ?_⟩
    · rw [hs] at hfalse
      cases hfalse
    · rw [hread] at hdeadline
      cases hdeadline
    · intro _ _ heq
      cases heq
      exact h

theorem parseConnectClientStreamResponse_carries_iff
    (hdecode : ∀ b e, c.decode b = .error e → e.Bare) (hcompression : c.compression.BareErrors)
    (h : parseConnectClientStreamResponse cr c response late = .error e) :
    Carries response.headers (clientStreamReceived cr c response) e ↔
      ClientStreamKeeps cr c response := by
  rw [parseConnectClientStreamResponse] at h
  rcases hs : response.status.isSuccess with _ | _
  · -- the HTTP status is an error
    have hrecord : scannedRecord c response = none := by
      rw [scannedRecord, hs]
      rfl
    rw [hs] at h
    obtain rfl := Except.error.inj h
    have hno : clientStreamDeadline c response = false := by
      rw [clientStreamDeadline, hs]
      rfl
    rw [clientStreamReceived, hrecord, carries_clientStreamStatusError_iff, ClientStreamKeeps,
      hrecord, hs, hno]
    exact ⟨fun h => ⟨fun _ => h, fun h => Bool.noConfusion h, fun _ _ h => by cases h⟩,
      fun h => h.1 rfl⟩
  · rw [hs] at h
    simp only [Bool.not_true, Bool.false_eq_true, if_false] at h
    have hnone : scannedRecord c response = none → clientStreamDeadline c response = false →
        e.Attached response.headers .empty →
        (Carries response.headers (clientStreamReceived cr c response) e ↔
          ClientStreamKeeps cr c response) := by
      intro hrecord hno he
      rw [clientStreamKeeps_none cr hs hrecord, clientStreamReceived, hrecord, hno]
      exact iff_of_true (carries_headers he) fun h => Bool.noConfusion h
    rcases hct : validateConnectResponseContentType response.headers c.codecFormat true with err | _
    · rw [hct] at h
      obtain rfl := Except.error.inj h
      refine hnone ?_ ?_ (attached_validateConnect hct)
      · rw [scannedRecord, hct, hs]
        rfl
      · rw [clientStreamDeadline, hct, hs]
        rfl
    · rw [hct] at h
      simp only at h
      rcases hcollect : collectBodyBounded (clientStreamBodyLimit c) late [] response.body
        with err | body
      · obtain ⟨hread, hbare⟩ := unreadable_of_collect hcollect
        rw [hcollect] at h
        obtain rfl := Except.error.inj h
        have hrecord : scannedRecord c response = none := by
          rw [scannedRecord, hread, Bool.and_false]
          rfl
        have hdeadline : clientStreamDeadline c response =
            deadlineReached (clientStreamBodyLimit c) 0 response.body := by
          rw [clientStreamDeadline, hs, hct]
          rfl
        rcases hno : clientStreamDeadline c response with _ | _
        · refine hnone hrecord hno ?_
          rw [attachUnlessDeadline, ← hdeadline, hno]
          exact hbare.withResponseMetadata _ _
        · -- what is attached is dropped with the parser
          rw [clientStreamKeeps_none cr hs hrecord, clientStreamReceived, hrecord,
            attachUnlessDeadline, ← hdeadline, hno, if_pos rfl, carries_bare_iff hbare]
          exact ⟨fun h _ => h.1, fun h => ⟨h rfl, rfl⟩⟩
      · obtain ⟨hread, rfl⟩ := readable_of_collect hcollect
        rw [hcollect] at h
        simp only [parseConnectClientStreamEnvelopes] at h
        have hrecord : scannedRecord c response =
            (c.setup response.headers false).endRecord (allData response.body) := by
          rw [scannedRecord, hs, hct, hread]
          rfl
        have hscan := StreamSetup.scan_endRecord cr (s := c.setup response.headers false)
          hcompression (allData response.body)
        rw [← hrecord] at hscan
        simp only [CallConfig.setup] at hscan
        rcases hfound : scannedRecord c response with _ | ⟨message, env⟩
        · rw [hfound] at hscan
          obtain ⟨err, hbare, hscan⟩ := hscan
          rw [hscan] at h
          obtain rfl := Except.error.inj h
          refine hnone hfound ?_ (hbare.withHeaders _)
          rw [clientStreamDeadline, deadlineReached_of_readable hread, Bool.and_false]
        · rw [hfound] at hscan
          simp only at hscan
          rw [hscan] at h
          rw [clientStreamReceived, hfound, clientStreamKeeps_some cr hs hfound]
          simp only
          rcases hend : scanEndStream cr c.compression
              ((response.headers.get c.protocol.contentEncodingHeader).bind HeaderValue.toStr)
              c.messageLimit env with err | trailers
          · rw [hend] at h
            obtain rfl := Except.error.inj h
            refine iff_of_true (StreamSetup.scanEndStream_error_carries cr
              (s := c.setup response.headers false) hcompression hend) fun hclean => ?_
            -- a record without an error is none to the scan
            have hok := (StreamSetup.scanEndStream_ok_iff cr (t := c.setup response.headers false)
              env _).mpr ⟨_, by rw [← hclean], rfl⟩
            rw [CallConfig.setup] at hok
            rw [hend] at hok
            cases hok
          · obtain ⟨htrailers, hclean⟩ := StreamSetup.scanEndStream_ok_metadata cr
              (s := c.setup response.headers false) hend
            rw [hend] at h
            rw [hclean, ← htrailers]
            cases message with
            | none =>
              obtain rfl := Except.error.inj h
              have hattached : ((ConnectError.unimplemented
                  "client streaming response contains no data messages").setResponseHeaders
                    response.headers).Attached response.headers .empty := ⟨rfl, rfl⟩
              refine (carries_headers_iff hattached).trans ?_
              exact ⟨fun h _ => h, fun h => h rfl⟩
            | some message =>
              simp only [Except.bind, Except.mapError] at h
              rcases hd : c.decode message with err | m
              · rw [hd] at h
                obtain rfl := Except.error.inj h
                rw [carries_whole_iff ((hdecode _ _ hd).withResponseMetadata _ _)]
                exact ⟨fun h _ => h, fun h => h rfl⟩
              · rw [hd] at h
                cases h

end

end ConnectRpc
