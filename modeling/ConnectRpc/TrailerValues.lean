import ConnectRpc.RoundTrip
import ConnectRpc.UnaryClient

/-!
# The values of trailers

What a client finds of the trailers a server sets, name by name. Each protocol writes the
map in its own way: as HTTP trailers behind the status, as lines of a text block, as a JSON
object whose members either side walks in an order of its own, as headers with a prefix.

`Carried` is what they have in common: a name all of whose values are plain arrives with
exactly these values, in order. Everything here is for maps that leave room in a header map
for the status.
-/

namespace ConnectRpc

open Lib

variable (cr : Crates)

/-- Whether a name in the trailers belongs to the protocol. -/
def Protocol.reserves (protocol : Protocol) (n : HeaderName) : Bool :=
  match protocol with
  | .connect => false
  | _ => n = hdr.grpcStatus || n = hdr.grpcMessage || n = hdr.grpcStatusDetailsBin

/-- Every name that the protocol leaves to the handler and whose values are all plain has
arrived with exactly these values. -/
def Carried (protocol : Protocol) (trailers received : HeaderMap) : Prop :=
  ∀ n, protocol.reserves n = false → (∀ v ∈ trailers.getAll n, v.plain) →
    received.getAll n = trailers.getAll n

/-! ## Room -/

/-- Fewer names, fewer of them. -/
theorem HeaderMap.nameCount_le_of_subset {m m' : HeaderMap} (h : m.names ⊆ m'.names) :
    m.nameCount ≤ m'.nameCount :=
  (List.subperm_of_subset m.names_nodup h).length_le

/-- The names of some entries of a map with one more. -/
theorem HeaderMap.nameCount_appendAll_le {m : HeaderMap} {es : List (HeaderName × HeaderValue)}
    {own : List HeaderName} (h : ∀ e ∈ es, e.1 ∈ own ∨ e.1 ∈ m.names) :
    (HeaderMap.empty.appendAll es).nameCount ≤ own.length + m.nameCount := by
  have hsub : (HeaderMap.empty.appendAll es).names ⊆ own ++ m.names := by
    intro n hn
    obtain ⟨e, he, rfl⟩ := List.mem_map.mp (mem_names_appendAll.mp hn)
    exact List.mem_append.mpr (h e he)
  have hle := (List.subperm_of_subset (HeaderMap.names_nodup _) hsub).length_le
  rw [List.length_append] at hle
  exact hle

/-- Where the names all fit, there is room. -/
theorem room_of_nameCount {cap : ℕ} {es : List (HeaderName × HeaderValue)}
    (h : (HeaderMap.empty.appendAll es).nameCount < cap) : Room cap es := by
  refine Nat.lt_of_le_of_lt ?_ h
  apply HeaderMap.nameCount_le_of_subset
  intro n hn
  rw [HeaderMap.mem_names_appendAll] at hn ⊢
  obtain ⟨e, he, rfl⟩ := List.mem_map.mp hn
  exact List.mem_map_of_mem (List.dropLast_subset es he)

/-- So there is room for the block of a success with one name to spare. -/
theorem blockRoom_of_nameCount {trailers : HeaderMap}
    (h : 1 + trailers.nameCount < cr.headerCap) : BlockRoom cr none trailers := by
  have hnames : ∀ e ∈ (hdr.grpcStatus, HeaderValue.ofNat 0) :: trailers.entries.dropLast,
      e.1 ∈ [hdr.grpcStatus] ∨ e.1 ∈ trailers.names := by
    intro e he
    rcases List.mem_cons.mp he with rfl | he
    · exact .inl List.mem_cons_self
    · exact .inr (List.mem_eraseDups.mpr (List.mem_map_of_mem (List.dropLast_subset _ he)))
  exact Nat.lt_of_le_of_lt (HeaderMap.nameCount_appendAll_le hnames) h

theorem HeaderMap.mem_names_of_mem {m : HeaderMap} {e : HeaderName × HeaderValue}
    (h : e ∈ m.entries) : e.1 ∈ m.names := by
  rw [mem_names]
  exact List.ne_nil_of_mem (mem_getAll.mpr h)

/-! ## HTTP trailers -/

/-- The block of a success has the status under its own name only. -/
theorem getAll_grpcTrailerBlock_none (trailers : HeaderMap) {n : HeaderName}
    (h : n ≠ hdr.grpcStatus) :
    (grpcTrailerBlock cr none trailers).getAll n = trailers.getAll n := by
  have hstatus : (statusEntries cr none).getAll n = [] := by
    rw [statusEntries, HeaderMap.getAll_insert, if_neg h.symm, HeaderMap.getAll_empty]
  rw [getAll_grpcTrailerBlock, hstatus]
  rfl

theorem ne_grpcStatus_of_reserves {protocol : Protocol} (hp : protocol ≠ .connect)
    {n : HeaderName} (h : protocol.reserves n = false) : n ≠ hdr.grpcStatus := by
  rintro rfl
  cases protocol with
  | connect => exact hp rfl
  | grpc => cases h
  | grpcWeb => cases h

/-- **HTTP trailers** carry everything. -/
theorem carried_grpc {protocol : Protocol} (hp : protocol ≠ .connect) (trailers : HeaderMap) :
    Carried protocol trailers (grpcTrailerBlock cr none trailers) := by
  intro n hn _
  exact getAll_grpcTrailerBlock_none cr trailers (ne_grpcStatus_of_reserves hp hn)

/-! ## Text blocks -/

/-- What the lines of a block are read as, under a name with plain values. -/
theorem getAll_receivedEntries {es : List (HeaderName × HeaderValue)} {n : HeaderName}
    (h : ∀ v ∈ HeaderMap.getAll ⟨es⟩ n, v.plain) :
    HeaderMap.getAll ⟨es.filterMap (receivedEntry cr)⟩ n = HeaderMap.getAll ⟨es⟩ n := by
  induction es with
  | nil => rfl
  | cons e es ih =>
    obtain ⟨k, v⟩ := e
    rw [HeaderMap.getAll_cons] at h ⊢
    by_cases hk : k = n
    · subst hk
      rw [if_pos rfl] at h ⊢
      obtain ⟨hv, hrest⟩ := List.forall_mem_cons.mp h
      rw [List.filterMap_cons_some (receivedEntry_of_plain cr k hv), HeaderMap.getAll_cons,
        if_pos rfl, ih hrest]
    · rw [if_neg hk] at h ⊢
      rcases hr : receivedEntry cr (k, v) with _ | f
      · rw [List.filterMap_cons_none hr]
        exact ih h
      · have hname := name_of_receivedEntry cr hr
        rw [List.filterMap_cons_some hr, HeaderMap.getAll_cons, hname, if_neg hk]
        exact ih h

/-- The names of a block are the status and those of the trailers. -/
theorem mem_grpcTrailerBlock {trailers : HeaderMap} {e : HeaderName × HeaderValue}
    (h : e ∈ (grpcTrailerBlock cr none trailers).entries) :
    e.1 ∈ [hdr.grpcStatus] ∨ e.1 ∈ trailers.names := by
  by_cases hs : e.1 = hdr.grpcStatus
  · exact .inl (List.mem_singleton.mpr hs)
  · refine .inr (HeaderMap.mem_names.mpr ?_)
    rw [← getAll_grpcTrailerBlock_none cr trailers hs]
    exact List.ne_nil_of_mem (HeaderMap.mem_getAll.mpr h)

/-- **A text block** that is read carries every plain value. -/
theorem carried_grpcWeb {trailers : HeaderMap} (hroom : 1 + trailers.nameCount < cr.headerCap) :
    Carried .grpcWeb trailers (appendCapped cr .empty
      ((grpcTrailerBlock cr none trailers).entries.filterMap (receivedEntry cr))) := by
  have hnames : ∀ e ∈ (grpcTrailerBlock cr none trailers).entries.filterMap (receivedEntry cr),
      e.1 ∈ [hdr.grpcStatus] ∨ e.1 ∈ trailers.names := by
    intro e he
    obtain ⟨f, hf, hr⟩ := List.mem_filterMap.mp he
    rw [name_of_receivedEntry cr hr]
    exact mem_grpcTrailerBlock cr hf
  have hle := HeaderMap.nameCount_appendAll_le hnames
  intro n hn hplain
  have hsame := getAll_grpcTrailerBlock_none cr trailers
    (ne_grpcStatus_of_reserves (by decide) hn)
  have hentries : ∀ v ∈ HeaderMap.getAll ⟨(grpcTrailerBlock cr none trailers).entries⟩ n,
      v.plain := by
    intro v hv
    apply hplain
    rw [← hsame]
    exact hv
  rw [appendCapped_of_room cr (room_of_nameCount (Nat.lt_of_le_of_lt hle hroom)),
    HeaderMap.getAll_appendAll, HeaderMap.getAll_empty, List.nil_append,
    getAll_receivedEntries cr hentries]
  exact hsame

/-! ## JSON metadata -/

/-- A member value of the metadata as a header, if it is one. -/
def metadataEntry (e : String × String) : Option (HeaderName × HeaderValue) :=
  (HeaderName.fromStr e.1).bind fun n =>
    (HeaderValue.fromStr cr.opaqueOctets e.2).map fun v => (n, v)

/-- Where there is room the loop takes every header. -/
theorem metadata_go_eq : ∀ (es : List (String × String)) (m : HeaderMap),
    (m.appendAll (es.filterMap (metadataEntry cr))).nameCount < cr.headerCap →
      appendMetadataCapped.go cr m es = m.appendAll (es.filterMap (metadataEntry cr)) := by
  intro es
  induction es with
  | nil => exact fun _ _ => rfl
  | cons e es ih =>
    intro m hroom
    obtain ⟨name, value⟩ := e
    rw [appendMetadataCapped.go]
    rcases hn : HeaderName.fromStr name with _ | n
    · have hskip : metadataEntry cr (name, value) = none := by
        rw [metadataEntry, hn]
        rfl
      rw [List.filterMap_cons_none hskip] at hroom ⊢
      exact ih m hroom
    · rcases hv : HeaderValue.fromStr cr.opaqueOctets value with _ | v
      · have hskip : metadataEntry cr (name, value) = none := by
          rw [metadataEntry, hn, Option.bind_some, hv]
          rfl
        rw [List.filterMap_cons_none hskip] at hroom ⊢
        exact ih m hroom
      · have htake : metadataEntry cr (name, value) = some (n, v) := by
          rw [metadataEntry, hn, Option.bind_some, hv]
          rfl
        rw [List.filterMap_cons_some htake] at hroom ⊢
        have hstep : m.appendAll ((n, v) :: es.filterMap (metadataEntry cr)) =
            (m.append n v).appendAll (es.filterMap (metadataEntry cr)) := rfl
        rw [hstep] at hroom ⊢
        have hle : m.nameCount < cr.headerCap :=
          Nat.lt_of_le_of_lt (HeaderMap.nameCount_le_append m n v)
            (Nat.lt_of_le_of_lt (HeaderMap.nameCount_le_appendAll _ _) hroom)
        simp only [HeaderMap.tryAppend, if_pos hle]
        exact ih _ hroom

/-- The single values of some metadata. -/
def metadataValues (metadata : List (String × List String)) : List (String × String) :=
  metadata.flatMap fun e => e.2.map fun v => (e.1, v)

/-- The headers that a name gets from one member. -/
def memberValues (n : HeaderName) (e : String × List String) : List HeaderValue :=
  HeaderMap.getAll ⟨(e.2.map fun v => (e.1, v)).filterMap (metadataEntry cr)⟩ n

theorem getAll_metadataValues (metadata : List (String × List String)) (n : HeaderName) :
    HeaderMap.getAll ⟨(metadataValues metadata).filterMap (metadataEntry cr)⟩ n =
      metadata.flatMap (memberValues cr n) := by
  induction metadata with
  | nil => rfl
  | cons e metadata ih =>
    have hcons : metadataValues (e :: metadata) =
        (e.2.map fun v => (e.1, v)) ++ metadataValues metadata := rfl
    rw [hcons, List.filterMap_append, HeaderMap.getAll_append_entries, ih, List.flatMap_cons]
    rfl

/-- A flat map that only one key contributes to does not depend on the order of the keys. -/
theorem flatMap_eq_of_perm {β γ : Type} {l l' : List (String × β)} {f : String × β → List γ}
    {k : String} (hperm : l.Perm l') (hnodup : (l.map Prod.fst).Nodup)
    (hkey : ∀ e ∈ l, e.1 ≠ k → f e = []) : l.flatMap f = l'.flatMap f := by
  induction hperm with
  | nil => rfl
  | cons e _ ih =>
    have hrest := ih (List.nodup_cons.mp hnodup).2 (fun x hx => hkey x (List.mem_cons_of_mem _ hx))
    rw [List.flatMap_cons, List.flatMap_cons, hrest]
  | swap a b l =>
    have hne : b.1 ≠ a.1 := by
      intro h
      rw [List.map_cons, List.map_cons, List.nodup_cons, h] at hnodup
      exact hnodup.1 List.mem_cons_self
    rw [List.flatMap_cons, List.flatMap_cons, List.flatMap_cons, List.flatMap_cons]
    by_cases ha : a.1 = k
    · rw [hkey b List.mem_cons_self (ha ▸ hne)]
      rfl
    · rw [hkey a (List.mem_cons_of_mem _ List.mem_cons_self) ha]
      rfl
  | trans h₁ _ ih₁ ih₂ =>
    rw [ih₁ hnodup hkey]
    apply ih₂ ((h₁.map Prod.fst).nodup_iff.mp hnodup)
    exact fun e he => hkey e (h₁.mem_iff.mpr he)

/-- Names that read as another header contribute nothing. -/
theorem memberValues_ne {n k : HeaderName} (vs : List String) (h : k ≠ n) :
    memberValues cr n (k.text, vs) = [] := by
  rw [memberValues, HeaderMap.getAll_eq_nil_iff]
  intro hmem
  obtain ⟨e, he, rfl⟩ := List.mem_map.mp hmem
  obtain ⟨p, hp, hentry⟩ := List.mem_filterMap.mp he
  obtain ⟨v, -, rfl⟩ := List.mem_map.mp hp
  rw [metadataEntry, HeaderName.fromStr_text, Option.bind_some] at hentry
  obtain ⟨w, -, rfl⟩ := Option.map_eq_some_iff.mp hentry
  exact h rfl

/-- The values of a member that are all plain come back as they were. -/
theorem memberValues_plain (n : HeaderName) {vs : List HeaderValue} (h : ∀ v ∈ vs, v.plain) :
    memberValues cr n (n.text, vs.map HeaderValue.textOrEmpty) = vs := by
  induction vs with
  | nil => rfl
  | cons v vs ih =>
    obtain ⟨hv, hrest⟩ := List.forall_mem_cons.mp h
    have hstr : v.toStr = some v.textOrEmpty := by
      have hsome : v.toStr.isSome = true := 
        HeaderValue.toStr_isSome.trans (HeaderValue.visible_of_plain hv)
      obtain ⟨s, hs⟩ := Option.isSome_iff_exists.mp hsome
      rw [HeaderValue.textOrEmpty, hs]
      rfl
    have hentry : metadataEntry cr (n.text, v.textOrEmpty) = some (n, v) := by
      rw [metadataEntry, HeaderName.fromStr_text, Option.bind_some,
        HeaderValue.fromStr_toStr hstr]
      rfl
    have ih := ih hrest
    rw [memberValues] at ih ⊢
    rw [List.map_cons, List.map_cons, List.filterMap_cons_some hentry, HeaderMap.getAll_cons,
      if_pos rfl, ih]

/-- The members that a name is in. -/
theorem flatMap_headersToMetadata {trailers : HeaderMap} {n : HeaderName}
    (h : ∀ v ∈ trailers.getAll n, v.plain) :
    (headersToMetadata trailers).flatMap (memberValues cr n) = trailers.getAll n := by
  have hother : ∀ l : List HeaderName, n ∉ l →
      (l.map fun k => (k.text, (trailers.getAll k).map HeaderValue.textOrEmpty)).flatMap
        (memberValues cr n) = [] := by
    intro l hl
    rw [List.flatMap_eq_nil_iff]
    intro e he
    obtain ⟨k, hk, rfl⟩ := List.mem_map.mp he
    exact memberValues_ne cr _ (ne_of_mem_of_not_mem hk hl)
  rw [headersToMetadata]
  by_cases hmem : n ∈ trailers.names
  · obtain ⟨l, r, hsplit⟩ := List.append_of_mem hmem
    have hnodup := trailers.names_nodup
    rw [hsplit, List.nodup_append] at hnodup
    obtain ⟨-, hr, hdisjoint⟩ := hnodup
    have hl : n ∉ l := fun hn => hdisjoint n hn n List.mem_cons_self rfl
    rw [hsplit, List.map_append, List.flatMap_append, hother l hl, List.nil_append, List.map_cons,
      List.flatMap_cons, hother r (List.nodup_cons.mp hr).1, List.append_nil]
    exact memberValues_plain cr n h
  · rw [hother _ hmem]
    rw [HeaderMap.mem_names, not_not] at hmem
    exact hmem.symm

/-- The keys of metadata are names of the trailers. -/
theorem exists_name_of_mem {trailers : HeaderMap} {e : String × List String}
    (h : e ∈ headersToMetadata trailers) : ∃ k ∈ trailers.names, e.1 = k.text := by
  obtain ⟨k, hk, rfl⟩ := List.mem_map.mp h
  exact ⟨k, hk, rfl⟩

/-- **A JSON object** carries every plain value, whatever the orders in which the two sides
walk it. -/
theorem carried_connect {trailers : HeaderMap} (hroom : 1 + trailers.nameCount < cr.headerCap) :
    Carried .connect trailers (((EndStreamResponse.walkedMetadata cr trailers).map
      (appendMetadataCapped cr .empty)).getD .empty) := by
  intro n _ hplain
  rw [EndStreamResponse.walkedMetadata, EndStreamResponse.metadataFromTrailers]
  by_cases hempty : trailers.isEmpty = true
  · rw [if_pos hempty, HeaderMap.eq_empty_of_isEmpty hempty]
    rfl
  · rw [if_neg hempty, Option.map_some, Option.map_some, Option.getD_some]
    have hkeys := headersToMetadata_nodup trailers
    have hserver := cr.hashWalk_perm .server hkeys
    have hclient := cr.hashWalk_perm .client (((hserver.map Prod.fst).nodup_iff).mpr hkeys)
    have hwalk := hclient.trans hserver
    rw [appendMetadataCapped]
    generalize cr.hashWalk .client (cr.hashWalk .server (headersToMetadata trailers)) = walk
      at hwalk
    have hnodup : (walk.map Prod.fst).Nodup := ((hwalk.map Prod.fst).nodup_iff).mpr hkeys
    -- only names of the trailers are appended, so that the map never fills up
    have hnames : ∀ e ∈ (metadataValues walk).filterMap (metadataEntry cr),
        e.1 ∈ ([] : List HeaderName) ∨ e.1 ∈ trailers.names := by
      intro e he
      obtain ⟨p, hp, hentry⟩ := List.mem_filterMap.mp he
      obtain ⟨member, hmember, hvalue⟩ := List.mem_flatMap.mp hp
      obtain ⟨v, -, rfl⟩ := List.mem_map.mp hvalue
      obtain ⟨k, hk, htext⟩ := exists_name_of_mem (hwalk.mem_iff.mp hmember)
      rw [metadataEntry, htext, HeaderName.fromStr_text, Option.bind_some] at hentry
      obtain ⟨w, -, rfl⟩ := Option.map_eq_some_iff.mp hentry
      exact .inr hk
    have hle := HeaderMap.nameCount_appendAll_le hnames
    rw [List.length_nil, Nat.zero_add] at hle
    have hgo := metadata_go_eq cr (metadataValues walk) .empty (by omega)
    rw [metadataValues] at hgo
    rw [hgo, ← metadataValues, HeaderMap.getAll_appendAll, HeaderMap.getAll_empty, List.nil_append,
      getAll_metadataValues]
    have hperm := flatMap_eq_of_perm (k := n.text) hwalk hnodup (f := memberValues cr n) ?_
    · rw [hperm, flatMap_headersToMetadata cr hplain]
    · rintro ⟨key, vs⟩ he hne
      obtain ⟨k, -, rfl⟩ := exists_name_of_mem (hwalk.mem_iff.mp he)
      exact memberValues_ne cr vs fun h => hne (congrArg HeaderName.text h)

/-- **What is read of a terminal frame** carries every plain value. -/
theorem carried_receivedTrailers (protocol : Protocol) {trailers : HeaderMap}
    (hroom : 1 + trailers.nameCount < cr.headerCap) :
    Carried protocol trailers ((receivedTrailers cr protocol trailers).getD .empty) := by
  cases protocol with
  | connect => exact carried_connect cr hroom
  | grpc => exact carried_grpc cr (by decide) trailers
  | grpcWeb => exact carried_grpcWeb cr hroom

/-! ## Prefixed headers -/

/-- The header a trailer travels in is the one that carries it. -/
theorem carriedTrailer_iff {k n : HeaderName} :
    (carriedTrailer k).join = some n ↔ trailerKey n = some k := by
  rw [carriedTrailer]
  constructor
  · intro h
    split at h
    · rename_i hprefix
      obtain ⟨rest, hrest⟩ := List.isPrefixOf_iff_prefix.mp hprefix
      rw [← hrest, List.drop_left] at h
      have hchars : ∀ c ∈ rest, nameChar c = true := by
        intro c hc
        apply k.nameChars
        rw [← hrest]
        exact List.mem_append_right _ hc
      have hlower : rest.map Char.toLower = rest :=
        (List.map_congr_left fun c hc => toLower_of_nameChar (hchars c hc)).trans (List.map_id _)
      have htext : n.text = String.ofList rest := by
        rw [Option.join_some, HeaderName.fromStr, String.toList_ofList, hlower] at h
        split at h
        · exact (congrArg HeaderName.text (Option.some.inj h)).symm
        · cases h
      have hkey : "trailer-" ++ n.text = k.text := by
        have hrest' : (String.ofList rest).toList = rest := String.toList_ofList
        apply String.toList_inj.mp
        rw [String.toList_append, htext, hrest']
        exact hrest
      rw [trailerKey, hkey, HeaderName.fromStr_text]
    · cases h
  · intro h
    have htext : k.text.toList = trailerPrefix ++ n.text.toList := by
      rw [text_of_trailerKey h, String.toList_append]
      rfl
    have hprefix : trailerPrefix.isPrefixOf k.text.toList = true := by
      rw [htext]
      exact List.isPrefixOf_iff_prefix.mpr (List.prefix_append _ _)
    rw [if_pos hprefix, htext, List.drop_left, String.ofList_toList, HeaderName.fromStr_text]
    rfl

/-- The trailers that headers carry under a name are the values of its prefixed name. -/
theorem getAll_carriedTrailers (headers : HeaderMap) (n : HeaderName) :
    (carriedTrailers headers).getAll n = ((trailerKey n).map headers.getAll).getD [] := by
  rw [carriedTrailers, HeaderMap.getAll_appendAll, HeaderMap.getAll_empty, List.nil_append]
  obtain ⟨es⟩ := headers
  rcases hkey : trailerKey n with _ | k
  · rw [Option.map_none, Option.getD_none, HeaderMap.getAll_eq_nil_iff]
    intro hmem
    obtain ⟨f, hf, rfl⟩ := List.mem_map.mp hmem
    obtain ⟨e, -, he⟩ := List.mem_filterMap.mp hf
    obtain ⟨m, hm, rfl⟩ := Option.map_eq_some_iff.mp he
    rw [carriedTrailer_iff.mp hm] at hkey
    cases hkey
  · rw [Option.map_some, Option.getD_some]
    induction es with
    | nil => rfl
    | cons e es ih =>
      rw [HeaderMap.getAll_cons]
      rcases hm : (carriedTrailer e.1).join with _ | m
      · have hne : e.1 ≠ k := by
          rintro rfl
          rw [carriedTrailer_iff.mpr hkey] at hm
          cases hm
        rw [List.filterMap_cons_none (by rw [hm]; rfl), if_neg hne, ih]
      · rw [List.filterMap_cons_some (by rw [hm]; rfl), HeaderMap.getAll_cons, ih]
        by_cases hmn : m = n
        · subst hmn
          have hk := (carriedTrailer_iff.mp hm).symm.trans hkey
          rw [if_pos rfl, if_pos (Option.some.inj hk)]
        · have hne : e.1 ≠ k := by
            rintro rfl
            rw [carriedTrailer_iff.mpr hkey] at hm
            exact hmn (Option.some.inj hm).symm
          rw [if_neg hmn, if_neg hne]

/-- Prefixed trailers are found under their prefixed names. -/
theorem getAll_of_prefixedTrailers {trailers : HeaderMap} {ts : List (HeaderName × HeaderValue)}
    (h : prefixedTrailers trailers = some ts) {n k : HeaderName} (hk : trailerKey n = some k) :
    HeaderMap.getAll ⟨ts⟩ k = trailers.getAll n := by
  obtain ⟨es⟩ := trailers
  rw [prefixedTrailers] at h
  induction es generalizing ts with
  | nil =>
    obtain rfl := Option.some.inj h
    rfl
  | cons e es ih =>
    simp only [List.mapM_cons, Option.bind_eq_bind, Option.bind_eq_some_iff, Option.pure_def,
      Option.some.injEq] at h
    obtain ⟨f, hf, fs, hfs, rfl⟩ := h
    obtain ⟨key, hkey, rfl⟩ := Option.map_eq_some_iff.mp hf
    have hsame : key = k ↔ e.1 = n := by
      constructor
      · rintro rfl
        have hjoin := (carriedTrailer_iff.mpr hkey).symm.trans (carriedTrailer_iff.mpr hk)
        exact Option.some.inj hjoin
      · intro he
        rw [he, hk] at hkey
        exact (Option.some.inj hkey).symm
    rw [HeaderMap.getAll_cons, HeaderMap.getAll_cons, ih hfs]
    simp only [hsame]

/-- A name can be prefixed if that does not make it too long. -/
theorem trailerKey_isSome_iff {n : HeaderName} :
    (trailerKey n).isSome = true ↔ trailerPrefix.length + n.text.toList.length ≤ maxHeaderNameLen := by
  have hchars : ∀ c ∈ ("trailer-" ++ n.text).toList, nameChar c = true := by
    intro c hc
    rw [String.toList_append] at hc
    rcases List.mem_append.mp hc with hc | hc
    · have hprefix : "trailer-".toList.all nameChar = true := by decide
      exact List.all_eq_true.mp hprefix c hc
    · exact n.nameChars c hc
  have hlower : ("trailer-" ++ n.text).toList.map Char.toLower = ("trailer-" ++ n.text).toList :=
    (List.map_congr_left fun c hc => toLower_of_nameChar (hchars c hc)).trans (List.map_id _)
  have hall : ("trailer-" ++ n.text).toList.all nameChar = true := List.all_eq_true.mpr hchars
  have hlen : ("trailer-" ++ n.text).toList.length =
      trailerPrefix.length + n.text.toList.length := by
    rw [String.toList_append, List.length_append]
    rfl
  have hne : ("trailer-" ++ n.text).toList.isEmpty = false := by
    rw [List.isEmpty_eq_false_iff]
    intro h0
    have h8 : trailerPrefix.length = 8 := rfl
    rw [h0, h8, List.length_nil] at hlen
    omega
  have hvalid : validName ("trailer-" ++ n.text) = true ↔
      trailerPrefix.length + n.text.toList.length ≤ maxHeaderNameLen := by
    rw [validName, hne, hall, hlen]
    simp
  rw [trailerKey, HeaderName.fromStr, hlower, String.ofList_toList]
  by_cases hv : validName ("trailer-" ++ n.text) = true
  · simp [hv, hvalid.mp hv]
  · simp [hv, mt hvalid.mpr hv]

/-- All trailers can be prefixed if their names can. -/
theorem prefixedTrailers_isSome_iff {trailers : HeaderMap} :
    (prefixedTrailers trailers).isSome = true ↔
      ∀ e ∈ trailers.entries, (trailerKey e.1).isSome = true := by
  rw [prefixedTrailers]
  induction trailers.entries with
  | nil => simp
  | cons e es ih =>
    rw [List.forall_mem_cons, ← ih, List.mapM_cons]
    rcases trailerKey e.1 with _ | k
    · simp
    · simp only [Option.map_some, Option.bind_eq_bind, Option.bind_some, Option.pure_def,
        Option.isSome_some, true_and]
      rcases es.mapM _ with _ | fs
      · rfl
      · rfl

end ConnectRpc
