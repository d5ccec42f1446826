import ConnectRpc.ClientStatus
import ConnectRpc.Head

/-!
# Reading the gRPC-Web text block

What a client makes of a text block that a server wrote. The block is read as one
text, so a single value that is not UTF-8 loses all of it; otherwise each line is
read back as the entry it was written from, with blanks trimmed off its value
(`parseGrpcWebTrailerPayload_payload`). A value of printable ASCII without blanks
at its ends comes back as it was (`receivedEntry_of_plain`).
-/

namespace ConnectRpc

open Lib

variable (cr : Crates)

/-! ## Lines -/

/-- Whether every value of a map is UTF-8 text. -/
def AllText (t : HeaderMap) : Prop :=
  ∀ e ∈ t.entries, (decodeUtf8 e.2.bytes).isSome = true

instance (t : HeaderMap) : Decidable (AllText t) :=
  inferInstanceAs (Decidable (∀ e ∈ t.entries, (decodeUtf8 e.2.bytes).isSome = true))

/-- The entry that the line of an entry is read as. -/
def receivedEntry (e : HeaderName × HeaderValue) : Option (HeaderName × HeaderValue) :=
  (decodeUtf8 e.2.bytes).bind fun v =>
    (HeaderValue.fromStr cr.opaqueOctets (String.ofList (trim isWhitespace v))).map (e.1, ·)

/-- A line without its line feed, as text. -/
def lineChars (n : HeaderName) (v : List Char) : List Char :=
  n.text.toList ++ ':' :: ' ' :: (v ++ ['\r'])

theorem byteOfChar_mem_utf8 {c : Char} (hc : asciiChar c = true) {cs : List Char} (h : c ∈ cs) :
    byteOfChar c ∈ utf8 cs := by
  refine List.mem_flatMap.mpr ⟨c, h, ?_⟩
  rw [utf8EncodeChar_ascii hc]
  exact List.mem_singleton.mpr rfl

/-- A character that may not stand in a value does not stand in its text. -/
theorem not_mem_of_utf8_value {v : List Char} {w : HeaderValue} (h : utf8 v = w.bytes) {c : Char}
    (hc : asciiChar c = true) (hb : valueByte (byteOfChar c) = false) : c ∉ v := by
  intro hmem
  have := byteOfChar_mem_utf8 hc hmem
  rw [h] at this
  exact w.not_mem_bytes hb this

theorem not_mem_name (n : HeaderName) {c : Char} (h : nameChar c = false) : c ∉ n.text.toList := by
  intro hc
  have := n.nameChars c hc
  rw [h] at this
  cases this

theorem utf8_lineChars {e : HeaderName × HeaderValue} {v : List Char} (h : utf8 v = e.2.bytes) :
    utf8 (lineChars e.1 v) = trailerLineBody e := by
  have hsep : utf8 (':' :: ' ' :: (v ++ ['\r'])) = 58 :: 32 :: (e.2.bytes ++ [13]) := by
    rw [utf8_cons, utf8_cons, utf8_append, h]
    rfl
  rw [lineChars, utf8_append, hsep, trailerLineBody]
  simp [HeaderName.bytes, asBytes]

/-- A name has no blanks at its ends. -/
theorem trim_name (n : HeaderName) : trim isWhitespace n.text.toList = n.text.toList := by
  have hno : ∀ c, nameChar c = true → isWhitespace c = false := by
    intro c hc
    obtain ⟨hlt, -⟩ := nameChar_range hc
    have hall : (List.range 128).all fun k =>
        !nameChar (Char.ofNat k) || !isWhitespace (Char.ofNat k) := by decide
    have hk := List.all_eq_true.mp hall c.toNat (List.mem_range.mpr hlt)
    rw [Char.ofNat_toNat, hc] at hk
    simpa using hk
  refine trim_of_trimmed ⟨?_, ?_⟩
  · rcases hn : n.text.toList with _ | ⟨c, cs⟩
    · rfl
    · have := hno c (n.nameChars c (by rw [hn]; exact List.mem_cons_self))
      simp [this]
  · rcases hn : n.text.toList.getLast? with _ | c
    · rfl
    · have := hno c (n.nameChars c (List.mem_of_getLast? hn))
      simp [this]

/-- **One line.** -/
theorem trailerEntry_lineChars {e : HeaderName × HeaderValue} {v : List Char}
    (h : utf8 v = e.2.bytes) : trailerEntry cr (lineChars e.1 v) = receivedEntry cr e := by
  have hcr : '\r' ∉ v := not_mem_of_utf8_value h (by decide) (by decide)
  have htrim : trimEnd (fun c => c = '\r') (lineChars e.1 v) = e.1.text.toList ++ ':' :: ' ' :: v := by
    have hassoc : lineChars e.1 v = (e.1.text.toList ++ ':' :: ' ' :: v) ++ ['\r'] := by
      simp [lineChars]
    rw [hassoc, trimEnd_concat (by simp)]
    refine trimEnd_of_last ?_
    rw [List.getLast?_append_of_ne_nil _ (List.cons_ne_nil _ _)]
    rcases List.eq_nil_or_concat v with rfl | ⟨l, c, rfl⟩
    · rfl
    · have hlast : (':' :: ' ' :: (l.concat c)).getLast? = some c := by
        rw [List.concat_eq_append, ← List.cons_append, ← List.cons_append, List.getLast?_concat]
      have hc : c ≠ '\r' := by
        rintro rfl
        exact hcr (by simp)
      rw [hlast]
      simpa using hc
  have hdecode : decodeUtf8 e.2.bytes = some v := by
    rw [← h, decodeUtf8_utf8]
  have hblank : trim isWhitespace (' ' :: v) = trim isWhitespace v := trim_cons (by decide) v
  rw [trailerEntry, htrim, receivedEntry, hdecode, Option.bind_some]
  simp only [splitOnce_append ':' (not_mem_name e.1 (by decide)), trim_name, hblank,
    String.ofList_toList, HeaderName.fromStr_text, Option.bind_some]
  rw [if_neg (by simp)]
  rcases HeaderValue.fromStr cr.opaqueOctets (String.ofList (trim isWhitespace v)) with _ | w
  · rfl
  · rfl

/-! ## Blocks -/

/-- The text of a block all of whose values are text. -/
def blockChars (t : HeaderMap) : List Char :=
  t.entries.flatMap fun e => lineChars e.1 ((decodeUtf8 e.2.bytes).getD []) ++ ['\n']

theorem utf8_blockChars {t : HeaderMap} (h : AllText t) : utf8 (blockChars t) = trailerPayload t := by
  rw [blockChars, trailerPayload]
  have hes : ∀ e ∈ t.entries, (decodeUtf8 e.2.bytes).isSome = true := h
  revert hes
  induction t.entries with
  | nil => exact fun _ => rfl
  | cons e es ih =>
    intro hes
    obtain ⟨v, hv⟩ := Option.isSome_iff_exists.mp (hes e List.mem_cons_self)
    have hline : utf8 (lineChars e.1 v) = trailerLineBody e := utf8_lineChars (utf8_of_decodeUtf8 hv)
    rw [List.flatMap_cons, List.flatMap_cons, utf8_append, utf8_append, hv, Option.getD_some, hline,
      ih fun x hx => hes x (List.mem_cons_of_mem _ hx), trailerLine_eq]
    rfl

/-- A block that is text has only values that are text. -/
theorem allText_of_payload {t : HeaderMap} {cs : List Char} (h : utf8 cs = trailerPayload t) :
    AllText t := by
  obtain ⟨es⟩ := t
  rw [trailerPayload] at h
  rw [AllText]
  induction es generalizing cs with
  | nil => exact fun e he => by cases he
  | cons e es ih =>
    have hline : utf8 cs = trailerLineBody e ++ 10 :: es.flatMap trailerLine := by
      rw [h, List.flatMap_cons, trailerLine_eq, List.append_assoc]
      rfl
    obtain ⟨ds, rest, -, hds, hrest⟩ := exists_of_utf8_eq (by decide) hline
    have hbody : utf8 ds = e.1.bytes ++ 58 :: (32 :: (e.2.bytes ++ [13])) := by
      rw [hds, trailerLineBody]
      simp
    -- the separators cut the value out of the line
    obtain ⟨-, a, -, -, ha⟩ := exists_of_utf8_eq (by decide) hbody
    obtain ⟨-, b, -, -, hb⟩ := exists_of_utf8_eq (a := []) (by decide) ha
    obtain ⟨v, -, -, hv, -⟩ := exists_of_utf8_eq (by decide) hb
    intro x hx
    rcases List.mem_cons.mp hx with rfl | hx
    · rw [decodeUtf8_eq_some.mpr hv]
      rfl
    · exact ih hrest x hx

/-- The lines of a block, read one by one. -/
theorem filterMap_trailerEntry {t : HeaderMap} (h : AllText t) :
    (splitAll '\n' (blockChars t)).filterMap (trailerEntry cr) =
      t.entries.filterMap (receivedEntry cr) := by
  have hvalue : ∀ e ∈ t.entries, utf8 ((decodeUtf8 e.2.bytes).getD []) = e.2.bytes := by
    intro e he
    obtain ⟨v, hv⟩ := Option.isSome_iff_exists.mp (h e he)
    rw [hv]
    exact utf8_of_decodeUtf8 hv
  have hlines : blockChars t =
      (t.entries.map fun e => lineChars e.1 ((decodeUtf8 e.2.bytes).getD [])).flatMap
        (· ++ ['\n']) := by
    rw [blockChars, List.flatMap_map]
  have hfeed : ∀ w ∈ t.entries.map (fun e => lineChars e.1 ((decodeUtf8 e.2.bytes).getD [])),
      '\n' ∉ w := by
    intro w hw
    obtain ⟨e, he, rfl⟩ := List.mem_map.mp hw
    have hv := not_mem_of_utf8_value (hvalue e he) (c := '\n') (by decide) (by decide)
    have hn := not_mem_name e.1 (c := '\n') (by decide)
    simp [lineChars, hv, hn]
  have hlast : ([[]] : List (List Char)).filterMap (trailerEntry cr) = [] := rfl
  rw [hlines, splitAll_flatMap '\n' hfeed, List.filterMap_append, hlast, List.append_nil,
    List.filterMap_map]
  exact List.filterMap_congr fun e he => trailerEntry_lineChars cr (hvalue e he)

/-- **The block of a server as a client reads it.** -/
theorem parseGrpcWebTrailerPayload_payload (t : HeaderMap)
    (decompression : Option (CompressionRegistry × String)) :
    parseGrpcWebTrailerPayload cr false (trailerPayload t) decompression =
      if AllText t then
        some (appendCapped cr .empty (t.entries.filterMap (receivedEntry cr)))
      else none := by
  have hplain : parseGrpcWebTrailerPayload cr false (trailerPayload t) decompression =
      (fromUtf8 (trailerPayload t)).map (trailerBlockHeaders cr) := rfl
  rw [hplain, fromUtf8]
  by_cases h : AllText t
  · have hdecode := decodeUtf8_eq_some.mpr (utf8_blockChars h)
    rw [if_pos h, hdecode, Option.map_some, Option.map_some, trailerBlockHeaders,
      String.toList_ofList, filterMap_trailerEntry cr h]
  · have hnone : decodeUtf8 (trailerPayload t) = none := by
      rcases hd : decodeUtf8 (trailerPayload t) with _ | cs
      · rfl
      · exact absurd (allText_of_payload (utf8_of_decodeUtf8 hd)) h
    rw [if_neg h, hnone]
    rfl

/-! ## Values that survive -/

/-- A value of printable ASCII without blanks at its ends. -/
def HeaderValue.plain (v : HeaderValue) : Prop :=
  (∀ b ∈ v.bytes, 32 ≤ b ∧ b < 127) ∧ v.bytes.head? ≠ some 32 ∧ v.bytes.getLast? ≠ some 32

instance (v : HeaderValue) : Decidable v.plain :=
  decidable_of_iff (v.bytes.all (fun b => 32 ≤ b && b < 127) = true ∧
    v.bytes.head? ≠ some 32 ∧ v.bytes.getLast? ≠ some 32) (by simp [HeaderValue.plain])

theorem HeaderValue.visible_of_plain {v : HeaderValue} (h : v.plain) : v.visible = true := by
  refine List.all_eq_true.mpr fun b hb => ?_
  obtain ⟨h1, h2⟩ := h.1 b hb
  simp [visibleByte, h1, h2]

/-- Among printable ASCII the blank is the only white space. -/
theorem isWhitespace_charOfByte {b : UInt8} (h1 : 32 ≤ b) (h2 : b < 127) (h : b ≠ 32) :
    isWhitespace (charOfByte b) = false := by
  have hall : (List.range 127).all fun k => decide (k ≤ 32) || !isWhitespace (Char.ofNat k) := by
    decide
  have hk : b.toNat < 127 := by simpa [UInt8.lt_iff_toNat_lt] using h2
  have hmem := List.all_eq_true.mp hall b.toNat (List.mem_range.mpr hk)
  have hgt : ¬ b.toNat ≤ 32 := by
    intro hle
    refine h (UInt8.le_antisymm ?_ h1)
    simpa [UInt8.le_iff_toNat_le] using hle
  rw [Bool.or_eq_true, decide_eq_true_eq] at hmem
  simpa [charOfByte] using hmem.resolve_left hgt

theorem trimmed_of_plain {v : HeaderValue} (h : v.plain) :
    Trimmed isWhitespace (v.bytes.map charOfByte) := by
  obtain ⟨hall, hhead, hlast⟩ := h
  refine ⟨?_, ?_⟩
  · rw [List.head?_map]
    rcases hb : v.bytes.head? with _ | b
    · rfl
    · obtain ⟨h1, h2⟩ := hall b (List.mem_of_head? hb)
      have hne : b ≠ 32 := fun h0 => hhead (by rw [hb, h0])
      simp [isWhitespace_charOfByte h1 h2 hne]
  · rw [List.getLast?_map]
    rcases hb : v.bytes.getLast? with _ | b
    · rfl
    · obtain ⟨h1, h2⟩ := hall b (List.mem_of_getLast? hb)
      have hne : b ≠ 32 := fun h0 => hlast (by rw [hb, h0])
      simp [isWhitespace_charOfByte h1 h2 hne]

theorem decodeUtf8_visible {v : HeaderValue} (h : v.visible = true) :
    decodeUtf8 v.bytes = some (v.bytes.map charOfByte) :=
  decodeUtf8_eq_some.mpr
    (utf8_map_charOfByte fun b hb => visibleByte_ascii (List.all_eq_true.mp h b hb))

/-- A plain value comes back as it was. -/
theorem receivedEntry_of_plain (n : HeaderName) {v : HeaderValue} (h : v.plain) :
    receivedEntry cr (n, v) = some (n, v) := by
  have hvis := v.visible_of_plain h
  have hstr : v.toStr = some (String.ofList (v.bytes.map charOfByte)) := by
    rw [HeaderValue.toStr, if_pos hvis]
  rw [receivedEntry, decodeUtf8_visible hvis, Option.bind_some,
    trim_of_trimmed (trimmed_of_plain h), HeaderValue.fromStr_toStr hstr]
  rfl

/-- A line keeps its name. -/
theorem name_of_receivedEntry {e f : HeaderName × HeaderValue} (h : receivedEntry cr e = some f) :
    f.1 = e.1 := by
  obtain ⟨v, -, hv⟩ := Option.bind_eq_some_iff.mp h
  obtain ⟨w, -, rfl⟩ := Option.map_eq_some_iff.mp hv
  rfl

/-! ## The map they end up in -/

/-- Where all entries fit the map, all are in it. -/
theorem appendCapped_of_room {es : List (HeaderName × HeaderValue)}
    (h : Room cr.headerCap es) : appendCapped cr .empty es = HeaderMap.empty.appendAll es := by
  have hall : ∀ (es : List (HeaderName × HeaderValue)) (m : HeaderMap),
      (m.appendAll es.dropLast).nameCount < cr.headerCap →
        appendCapped cr m es = m.appendAll es := by
    intro es
    induction es with
    | nil => exact fun _ _ => rfl
    | cons e es ih =>
      intro m hm
      have hle : m.nameCount ≤ (m.appendAll (e :: es).dropLast).nameCount :=
        HeaderMap.nameCount_le_appendAll _ _
      rw [appendCapped, HeaderMap.tryAppend, if_pos (Nat.lt_of_le_of_lt hle hm)]
      rcases es with _ | ⟨f, es⟩
      · rfl
      · exact ih _ hm
  exact hall es .empty h

/-- The values a name has already stay in front. -/
theorem getAll_prefix_appendCapped (n : HeaderName) :
    ∀ (es : List (HeaderName × HeaderValue)) (m : HeaderMap),
      m.getAll n <+: (appendCapped cr m es).getAll n := by
  intro es
  induction es with
  | nil => exact fun m => List.prefix_rfl
  | cons e es ih =>
    intro m
    rw [appendCapped, HeaderMap.tryAppend]
    by_cases h : m.nameCount < cr.headerCap
    · rw [if_pos h]
      refine List.IsPrefix.trans ?_ (ih _)
      rw [HeaderMap.getAll_append]
      exact List.prefix_append _ _
    · exact (if_neg h) ▸ List.prefix_rfl

/-- The first entry of a block is the first value of its name. -/
theorem get_appendCapped_cons (e : HeaderName × HeaderValue)
    (es : List (HeaderName × HeaderValue)) :
    (appendCapped cr .empty (e :: es)).get e.1 = some e.2 := by
  have hcap : HeaderMap.empty.nameCount < cr.headerCap :=
    Nat.lt_of_lt_of_le (by decide) cr.headerCap_large
  rw [appendCapped, HeaderMap.tryAppend, if_pos hcap, HeaderMap.get]
  obtain ⟨r, hr⟩ := getAll_prefix_appendCapped cr e.1 es (HeaderMap.empty.append e.1 e.2)
  simp only
  rw [← hr, HeaderMap.getAll_append_self]
  rfl

/-! ## The block of an outcome -/

/-- The status entries are text, so a block is text when the trailers merged into it
are. -/
theorem allText_grpcTrailerBlock (outcome : Option ConnectError) (custom : HeaderMap) :
    AllText (grpcTrailerBlock cr outcome custom) ↔ AllText (mergedTrailers outcome custom) := by
  have hvalues : ∀ m : HeaderMap, AllText m ↔
      ∀ n, ∀ v ∈ m.getAll n, (decodeUtf8 v.bytes).isSome = true := by
    intro m
    refine ⟨fun h n v hv => h _ (HeaderMap.mem_getAll.mp hv), fun h e he => ?_⟩
    exact h e.1 e.2 (HeaderMap.mem_getAll.mpr he)
  rw [hvalues, hvalues]
  simp only [getAll_grpcTrailerBlock, List.mem_append]
  constructor
  · exact fun h n v hv => h n v (.inr hv)
  · rintro h n v (hv | hv)
    · rw [decodeUtf8_visible (visible_statusEntries cr outcome n v hv)]
      rfl
    · exact h n v hv

end ConnectRpc
