import ConnectRpc.Trailers

/-!
# Response heads

How a response head is put together. A `ResponseBuilder` takes headers one by one
and gives up for good when its map is full. `headers_withStatus` says what comes of
a whole list of headers: all of them, in order, if all but the last leave room in
the map.

On top of that, the two ways in which the library adds a map to a head: an error's
headers (`echoErrorHeaders`), of which some are held back, and trailers under the
`trailer-` prefix (`addTrailers`), whose names may get too long. Both come down to
such a list (`echoErrorHeaders_eq`, `addTrailers_eq`).
-/

namespace ConnectRpc

open Lib

variable (cr : Crates)

/-! ## Many headers -/

/-- Whether a list of headers fits a map: before the last one, fewer than `cap`
names are taken. -/
def Room (cap : ℕ) (es : List (HeaderName × HeaderValue)) : Prop :=
  (HeaderMap.empty.appendAll es.dropLast).nameCount < cap

instance (cap : ℕ) (es : List (HeaderName × HeaderValue)) : Decidable (Room cap es) :=
  inferInstanceAs (Decidable (_ < _))

/-- A shorter list has room if a longer one has. -/
theorem Room.init {cap : ℕ} {es : List (HeaderName × HeaderValue)}
    {e : HeaderName × HeaderValue} (h : Room cap (es ++ [e])) : Room cap es := by
  rw [Room, List.dropLast_concat] at h
  rcases List.eq_nil_or_concat es with rfl | ⟨l, a, rfl⟩
  · exact h
  · rw [List.concat_eq_append, HeaderMap.appendAll_concat] at h
    rw [Room, List.concat_eq_append, List.dropLast_concat]
    exact Nat.lt_of_le_of_lt (HeaderMap.nameCount_le_append _ _ _) h

/-- A few headers always fit. -/
theorem room_of_length {cap : ℕ} {es : List (HeaderName × HeaderValue)}
    (h : es.length ≤ cap) (hcap : 0 < cap) : Room cap es := by
  have hsub : (HeaderMap.empty.appendAll es.dropLast).names ⊆ es.dropLast.map Prod.fst :=
    fun n hn => HeaderMap.mem_names_appendAll.mp hn
  have hle := (List.subperm_of_subset (HeaderMap.names_nodup _) hsub).length_le
  rw [List.length_map, List.length_dropLast] at hle
  have : (HeaderMap.empty.appendAll es.dropLast).nameCount ≤ es.length - 1 := hle
  rw [Room]
  omega

namespace ResponseBuilder

/-- Several headers one after another. -/
def headers (cap : ℕ) (b : ResponseBuilder) (es : List (HeaderName × HeaderValue)) :
    ResponseBuilder :=
  es.foldl (fun b e => b.header cap e.1 e.2) b

@[simp] theorem headers_nil (cap : ℕ) (b : ResponseBuilder) : b.headers cap [] = b := rfl

@[simp] theorem headers_cons (cap : ℕ) (b : ResponseBuilder) (e : HeaderName × HeaderValue)
    (es : List (HeaderName × HeaderValue)) :
    b.headers cap (e :: es) = (b.header cap e.1 e.2).headers cap es := rfl

theorem headers_append (cap : ℕ) (b : ResponseBuilder)
    (es fs : List (HeaderName × HeaderValue)) :
    b.headers cap (es ++ fs) = (b.headers cap es).headers cap fs :=
  List.foldl_append

/-- What comes of a list of headers. -/
theorem headers_withStatus {cap : ℕ} (hcap : 0 < cap) (s : StatusCode)
    (es : List (HeaderName × HeaderValue)) :
    (withStatus s).headers cap es =
      if Room cap es then some (s, HeaderMap.empty.appendAll es) else none := by
  induction es using List.reverseRec with
  | nil => rw [if_pos (room_of_length (Nat.zero_le _) hcap)]; rfl
  | append_singleton es e ih =>
    have hroom : Room cap (es ++ [e]) ↔ (HeaderMap.empty.appendAll es).nameCount < cap := by
      rw [Room, List.dropLast_concat]
    rw [headers_append, ih]
    by_cases h : Room cap es
    · rw [if_pos h, headers_cons, headers_nil, header, Option.bind_some, HeaderMap.tryAppend,
        HeaderMap.appendAll_concat]
      by_cases hlast : (HeaderMap.empty.appendAll es).nameCount < cap
      · rw [if_pos hlast, if_pos (hroom.mpr hlast)]
        rfl
      · rw [if_neg hlast, if_neg fun hr => hlast (hroom.mp hr)]
        rfl
    · rw [if_neg h, if_neg fun hr => h hr.init]
      rfl

end ResponseBuilder

/-! ## The headers of a propagated error -/

namespace HeaderName

/-- `connection` -/
def connection : HeaderName := ⟨"connection", by decide⟩

/-- `keep-alive` -/
def keepAlive : HeaderName := ⟨"keep-alive", by decide⟩

/-- `proxy-authenticate` -/
def proxyAuthenticate : HeaderName := ⟨"proxy-authenticate", by decide⟩

/-- `proxy-authorization` -/
def proxyAuthorization : HeaderName := ⟨"proxy-authorization", by decide⟩

/-- `te` -/
def te : HeaderName := ⟨"te", by decide⟩

/-- `trailer` -/
def trailer : HeaderName := ⟨"trailer", by decide⟩

/-- `transfer-encoding` -/
def transferEncoding : HeaderName := ⟨"transfer-encoding", by decide⟩

/-- `upgrade` -/
def upgrade : HeaderName := ⟨"upgrade", by decide⟩

/-- `date` -/
def date : HeaderName := ⟨"date", by decide⟩

end HeaderName

/-- `is_unforwardable_header`. -/
def isUnforwardableHeader (name : HeaderName) : Bool :=
  -- one connection's own
  name = .connection || name = .keepAlive || name = .proxyAuthenticate ||
    name = .proxyAuthorization || name = .te || name = .trailer || name = .transferEncoding ||
    name = .upgrade ||
    -- the framing of other bytes
    name = .contentLength || name = .contentType || name = .contentEncoding ||
    name = hdr.grpcEncoding || name = hdr.connectContentEncoding ||
    -- provenance and status
    name = .date || name = hdr.grpcStatusDetailsBin

/-- `echo_error_headers`. What is already set is read off before the first header
is added, so that a header of several values keeps all of them. -/
def echoErrorHeaders (response : ResponseBuilder) (err : ConnectError) : ResponseBuilder :=
  let alreadySet := response.elim [] fun p => p.2.names
  err.responseHeaders.entries.foldl (fun response e =>
    if isUnforwardableHeader e.1 || alreadySet.contains e.1 then response
    else response.header cr.headerCap e.1 e.2) response

/-- The headers of an error that are added to a head which has some names set. -/
def echoed (alreadySet : List HeaderName) (err : ConnectError) : List (HeaderName × HeaderValue) :=
  err.responseHeaders.entries.filter fun e =>
    !(isUnforwardableHeader e.1 || alreadySet.contains e.1)

theorem echoErrorHeaders_eq (response : ResponseBuilder) (err : ConnectError) :
    echoErrorHeaders cr response err =
      response.headers cr.headerCap (echoed (response.elim [] fun p => p.2.names) err) := by
  rw [echoErrorHeaders, ResponseBuilder.headers, echoed, List.foldl_filter]
  congr 1
  funext b e
  cases isUnforwardableHeader e.1 || (response.elim [] fun p => p.2.names).contains e.1 <;> rfl

/-- Under a name that may be forwarded and is not set, all values are added, else
none. -/
theorem getAll_echoed (alreadySet : List HeaderName) (err : ConnectError) (n : HeaderName) :
    HeaderMap.getAll ⟨echoed alreadySet err⟩ n =
      if isUnforwardableHeader n = true ∨ n ∈ alreadySet then []
      else err.responseHeaders.getAll n := by
  rw [HeaderMap.getAll, echoed, List.filter_filter]
  by_cases h : isUnforwardableHeader n = true ∨ n ∈ alreadySet
  · rw [if_pos h, List.map_eq_nil_iff, List.filter_eq_nil_iff]
    rintro ⟨k, v⟩ -
    simp only [Bool.and_eq_true, decide_eq_true_eq, Bool.not_eq_true', Bool.or_eq_false_iff,
      List.contains_eq_mem, decide_eq_false_iff_not]
    rintro ⟨rfl, hk⟩
    rcases h with h | h
    · rw [h] at hk
      cases hk.1
    · exact hk.2 h
  · rw [if_neg h, HeaderMap.getAll]
    congr 1
    refine List.filter_congr fun e _ => ?_
    obtain ⟨hno, hset⟩ := not_or.mp h
    by_cases he : e.1 = n
    · subst he
      simp [hno, hset]
    · simp [he]

/-- Adding an error's headers to some that are already there. -/
theorem echoErrorHeaders_withStatus (s : StatusCode) (own : List (HeaderName × HeaderValue))
    (err : ConnectError) :
    echoErrorHeaders cr ((ResponseBuilder.withStatus s).headers cr.headerCap own) err =
      (ResponseBuilder.withStatus s).headers cr.headerCap
        (own ++ echoed (own.map Prod.fst) err) := by
  have hcap : 0 < cr.headerCap := Nat.lt_of_lt_of_le (by omega) cr.headerCap_large
  rw [echoErrorHeaders_eq, ResponseBuilder.headers_append]
  by_cases h : Room cr.headerCap own
  · have hset : ∀ n, n ∈ (HeaderMap.empty.appendAll own).names ↔ n ∈ own.map Prod.fst :=
      fun n => HeaderMap.mem_names_appendAll
    have hsame : echoed (HeaderMap.empty.appendAll own).names err =
        echoed (own.map Prod.fst) err := by
      refine List.filter_congr fun e _ => ?_
      simp only [List.contains_eq_mem, hset]
    rw [ResponseBuilder.headers_withStatus hcap, if_pos h, Option.elim_some, hsame]
  · -- the builder has given up, whatever is still added
    have hnone : ∀ es, ResponseBuilder.headers cr.headerCap none es = none := by
      intro es
      induction es with
      | nil => rfl
      | cons e es ih => exact ih
    rw [ResponseBuilder.headers_withStatus hcap, if_neg h, hnone, hnone]

/-! ## Trailers as headers -/

/-- The name under which a trailer travels in the head of a Connect unary
response. -/
def trailerKey (n : HeaderName) : Option HeaderName :=
  HeaderName.fromStr ("trailer-" ++ n.text)

/-- `add_trailers`. -/
def addTrailers (response : ResponseBuilder) (trailers : HeaderMap) : ResponseBuilder :=
  trailers.entries.foldl (fun response e =>
    match trailerKey e.1 with
    | none => none
    | some key => response.header cr.headerCap key e.2) response

/-- The trailers under their prefixed names, if all of these are names. -/
def prefixedTrailers (trailers : HeaderMap) : Option (List (HeaderName × HeaderValue)) :=
  trailers.entries.mapM fun e => (trailerKey e.1).map fun key => (key, e.2)

theorem addTrailers_eq (response : ResponseBuilder) (trailers : HeaderMap) :
    addTrailers cr response trailers =
      (prefixedTrailers trailers).bind fun es => response.headers cr.headerCap es := by
  rw [addTrailers, prefixedTrailers]
  induction trailers.entries generalizing response with
  | nil => rfl
  | cons e es ih =>
    rw [List.foldl_cons, ih, List.mapM_cons]
    rcases hk : trailerKey e.1 with _ | key
    · simp only [Option.map_none, Option.bind_eq_bind, Option.bind_none]
      rcases es.mapM _ with _ | fs
      · rfl
      · rw [Option.bind_some]
        induction fs with
        | nil => rfl
        | cons f fs ih => exact ih
    · simp only [Option.map_some, Option.bind_eq_bind, Option.bind_some]
      rcases es.mapM _ with _ | fs
      · rfl
      · rfl

/-- A prefixed name is the prefix and the name. -/
theorem text_of_trailerKey {n k : HeaderName} (h : trailerKey n = some k) :
    k.text = "trailer-" ++ n.text := by
  have hlower : ("trailer-" ++ n.text).toList.map Char.toLower = ("trailer-" ++ n.text).toList := by
    rw [String.toList_append, List.map_append]
    refine congrArg₂ (· ++ ·) (by decide) ?_
    exact (List.map_congr_left fun c hc => toLower_of_nameChar (n.nameChars c hc)).trans
      (List.map_id _)
  simp only [trailerKey, HeaderName.fromStr, hlower, String.ofList_toList] at h
  split at h
  · exact (congrArg HeaderName.text (Option.some.inj h)).symm
  · cases h

/-- Whether a name is one of the prefixed ones. -/
def isPrefixed (n : HeaderName) : Bool :=
  "trailer-".toList.isPrefixOf n.text.toList

theorem mem_of_mapM_some {α β : Type} {f : α → Option β} {l : List α} {l' : List β}
    (h : l.mapM f = some l') {b : β} (hb : b ∈ l') : ∃ a ∈ l, f a = some b := by
  induction l generalizing l' with
  | nil =>
    obtain rfl : l' = [] := (Option.some.inj h).symm
    cases hb
  | cons a l ih =>
    simp only [List.mapM_cons, Option.bind_eq_bind, Option.bind_eq_some_iff, Option.pure_def,
      Option.some.injEq] at h
    obtain ⟨c, hc, cs, hcs, rfl⟩ := h
    rcases List.mem_cons.mp hb with rfl | hb
    · exact ⟨a, List.mem_cons_self, hc⟩
    · obtain ⟨d, hd, hfd⟩ := ih hcs hb
      exact ⟨d, List.mem_cons_of_mem _ hd, hfd⟩

/-- Prefixed trailers have prefixed names only. -/
theorem getAll_prefixedTrailers {trailers : HeaderMap} {es : List (HeaderName × HeaderValue)}
    (h : prefixedTrailers trailers = some es) {n : HeaderName} (hn : isPrefixed n = false) :
    HeaderMap.getAll ⟨es⟩ n = [] := by
  rw [HeaderMap.getAll_eq_nil_iff]
  intro hmem
  obtain ⟨e, he, rfl⟩ := List.mem_map.mp hmem
  obtain ⟨a, -, ha⟩ := mem_of_mapM_some h he
  obtain ⟨key, hkey, rfl⟩ := Option.map_eq_some_iff.mp ha
  rw [isPrefixed, text_of_trailerKey hkey, String.toList_append] at hn
  rw [List.isPrefixOf_iff_prefix.mpr (List.prefix_append _ _)] at hn
  cases hn

end ConnectRpc
