import ConnectRpc.ClientRequest

/-!
# Connect messages in a query

A message that is sent by `GET` stands in the query of the request, percent-encoded or as
base64, and the server takes the query apart again. `urlSafe_decodes` and `percent_decodes`
say that either form of a message is read back, and `splitAll_query` where the server finds
the pieces that the client has put together.

The name of an encoding is put into the query as it is. It is a token, and a token may hold
`&`, at which the query is split, and `#`, at which it ends. So a message comes back if and
only if its encoding's name survives that (`get_roundTrips_iff`).
-/

namespace ConnectRpc

open Lib

/-! ## The two forms of a message -/

/-- Whether a character is told apart from what delimits a query. -/
def PlainChar (c : Char) : Prop :=
  asciiChar c = true ∧ c ≠ '&' ∧ c ≠ '#' ∧ c ≠ '+'

/-- The URL-safe form of a base64 character. -/
def urlSafeOf (c : Char) : Char :=
  if c = '+' then '-' else if c = '/' then '_' else c

theorem urlSafeOf_char : ∀ n < 64, asciiChar (urlSafeOf (Base64.char n)) = true ∧
    urlSafeOf (Base64.char n) ∉ ['&', '#', '+', '%'] ∧
      urlSafeChar (byteOfChar (urlSafeOf (Base64.char n))) = Base64.char n := by
  decide

theorem mem_urlSafeEncode {b : Bytes} {c : Char} (h : c ∈ urlSafeEncode b) :
    PlainChar c ∧ c ≠ '%' := by
  obtain ⟨x, hx, rfl⟩ := List.mem_map.mp h
  obtain ⟨n, hn, rfl⟩ := Base64.mem_encodeNoPad hx
  obtain ⟨hascii, hmarks, -⟩ := urlSafeOf_char n hn
  rw [urlSafeOf] at hascii hmarks
  simp only [List.mem_cons, List.not_mem_nil, or_false, not_or] at hmarks
  exact ⟨⟨hascii, hmarks.1, hmarks.2.1, hmarks.2.2.1⟩, hmarks.2.2.2⟩

/-- URL-safe base64 reads back. -/
theorem urlSafe_decodes (b : Bytes) :
    decodeUrlSafe (asBytes (.ofList (urlSafeEncode b))) = some b := by
  have hbytes : asBytes (.ofList (urlSafeEncode b)) = (urlSafeEncode b).map byteOfChar := by
    rw [asBytes, String.toList_ofList]
    exact utf8_ascii fun c hc => (mem_urlSafeEncode hc).1.1
  have hback : (asBytes (.ofList (urlSafeEncode b))).map urlSafeChar = Base64.encodeNoPad b := by
    rw [hbytes, urlSafeEncode, List.map_map, List.map_map]
    conv => rhs; rw [← List.map_id (Base64.encodeNoPad b)]
    refine List.map_congr_left fun c hc => ?_
    obtain ⟨n, hn, rfl⟩ := Base64.mem_encodeNoPad hc
    exact (urlSafeOf_char n hn).2.2
  rw [decodeUrlSafe, hback, Base64.decodeNoPad_encodeNoPad]

theorem hexDigit_alphanum : ∀ n < 16, (hexDigit n).isAlphanum = true := by decide

theorem plainChar_of_alphanum {c : Char} (h : c.isAlphanum = true) : PlainChar c := by
  refine ⟨?_, ?_, ?_, ?_⟩
  · have hrange := isAlphanum_range h
    have : c.toNat < 128 := by omega
    simpa [asciiChar] using this
  · rintro rfl
    exact absurd h (by decide)
  · rintro rfl
    exact absurd h (by decide)
  · rintro rfl
    exact absurd h (by decide)

theorem mem_percentEncode_plain {b : Bytes} {c : Char}
    (h : c ∈ percentEncode nonAlphanumeric b) : PlainChar c := by
  simp only [percentEncode, List.mem_flatMap, percentEncodeByte] at h
  obtain ⟨x, -, hc⟩ := h
  have hx := x.toNat_lt
  split at hc
  · simp only [List.mem_cons, List.not_mem_nil, or_false] at hc
    rcases hc with rfl | rfl | rfl
    · exact ⟨by decide, by decide, by decide, by decide⟩
    · exact plainChar_of_alphanum (hexDigit_alphanum _ (by omega))
    · exact plainChar_of_alphanum (hexDigit_alphanum _ (by omega))
  · rename_i hplain
    obtain rfl := List.mem_singleton.mp hc
    apply plainChar_of_alphanum
    simpa [nonAlphanumeric] using hplain

/-- Percent-encoding reads back: it writes no `+`, which would be read as a blank. -/
theorem percent_decodes (b : Bytes) :
    percentDecodeQuery (.ofList (percentEncode nonAlphanumeric b)) = b := by
  have hplus : (percentEncode nonAlphanumeric b).map (fun c => if c = '+' then ' ' else c) =
      percentEncode nonAlphanumeric b := by
    conv => rhs; rw [← List.map_id (percentEncode nonAlphanumeric b)]
    refine List.map_congr_left fun c hc => ?_
    rw [if_neg (mem_percentEncode_plain hc).2.2.2]
    rfl
  have hhigh (x : UInt8) (hx : 128 ≤ x) : nonAlphanumeric x = true := by
    rw [nonAlphanumeric, Bool.not_eq_true']
    by_contra halnum
    have hascii := (plainChar_of_alphanum (by simpa using halnum)).1
    have hlow : x.toNat < 128 := by simpa [asciiChar, toNat_charOfByte] using hascii
    exact absurd (UInt8.le_iff_toNat_le.mp hx) (Nat.not_le.mpr hlow)
  rw [percentDecodeQuery, String.toList_ofList, hplus, asBytes, String.toList_ofList]
  exact percentDecode_percentEncode hhigh (by decide) b

/-- Nothing of a message in base64 is changed by percent-decoding it. -/
theorem percentDecode_urlSafe (b : Bytes) :
    percentDecodeQuery (.ofList (urlSafeEncode b)) = asBytes (.ofList (urlSafeEncode b)) := by
  have hplus : (urlSafeEncode b).map (fun c => if c = '+' then ' ' else c) = urlSafeEncode b := by
    conv => rhs; rw [← List.map_id (urlSafeEncode b)]
    refine List.map_congr_left fun c hc => ?_
    rw [if_neg (mem_urlSafeEncode hc).1.2.2.2]
    rfl
  rw [percentDecodeQuery, String.toList_ofList, hplus]
  apply percentDecode_of_not_mem
  rw [asBytes, String.toList_ofList, utf8_ascii fun c hc => (mem_urlSafeEncode hc).1.1]
  intro hmem
  obtain ⟨c, hc, hbyte⟩ := List.mem_map.mp hmem
  have hchar := charOfByte_byteOfChar (mem_urlSafeEncode hc).1.1
  rw [hbyte] at hchar
  exact (mem_urlSafeEncode hc).2 hchar.symm

/-! ## The pieces of a query -/

/-- What stands before the first `&` in the name of an encoding. -/
def nameHead (encoding : String) : List Char :=
  (splitAll '&' encoding.toList).headD []

/-- The pieces after it. -/
def nameTail (encoding : String) : List (List Char) :=
  (splitAll '&' encoding.toList).tail

theorem splitAll_name (encoding : String) :
    splitAll '&' encoding.toList = nameHead encoding :: nameTail encoding := by
  rw [nameHead, nameTail]
  rcases h : splitAll '&' encoding.toList with _ | ⟨w, ws⟩
  · exact absurd h (splitAll_ne_nil _ _)
  · rfl

/-- The pieces that the name of an encoding gives. -/
def compressionPieces : Option String → List (List Char)
  | some encoding => ("compression=".toList ++ nameHead encoding) :: nameTail encoding
  | none => []

/-- What the encoding of a message adds to a query. -/
theorem splitAll_compression {start : List Char} {pieces : List (List Char)}
    (h : splitAll '&' start = pieces) (compression : Option String) :
    splitAll '&' (start ++ (match compression with
      | some enc => "&compression=".toList ++ enc.toList
      | none => [])) = pieces ++ compressionPieces compression := by
  cases compression with
  | none =>
    simp only [compressionPieces, List.append_nil]
    exact h
  | some enc =>
    have hmark : "&compression=".toList = '&' :: "compression=".toList := by decide
    have hname := splitAll_prepend (w := "compression=".toList) (by decide) (splitAll_name enc)
    simp only [compressionPieces]
    rw [hmark, List.cons_append, splitAll_append_cons, h, hname]

/-- What comes after it. -/
theorem splitAll_end (start : List Char) {encoding message : List Char}
    (hencoding : '&' ∉ encoding) (hmessage : '&' ∉ message) :
    splitAll '&' (start ++ "&encoding=".toList ++ encoding ++ "&message=".toList ++ message) =
      splitAll '&' start ++ ["encoding=".toList ++ encoding, "message=".toList ++ message] := by
  have hmarks : "&encoding=".toList = '&' :: "encoding=".toList ∧
      "&message=".toList = '&' :: "message=".toList := by decide
  have hpiece : '&' ∉ "encoding=".toList ++ encoding := by
    rw [List.mem_append, not_or]
    exact ⟨by decide, hencoding⟩
  have hlast : '&' ∉ "message=".toList ++ message := by
    rw [List.mem_append, not_or]
    exact ⟨by decide, hmessage⟩
  rw [hmarks.1, hmarks.2, List.append_assoc, List.append_assoc, List.append_assoc, List.cons_append,
    splitAll_append_cons, List.cons_append, ← List.append_assoc, splitAll_append '&' hpiece,
    splitAll_of_not_mem hlast]

/-- What a query starts with, whatever the message. -/
def queryStart (useBase64 : Bool) : List Char :=
  "connect=v1".toList ++ if useBase64 then "&base64=1".toList else []

/-- The pieces of that. -/
def startPieces (useBase64 : Bool) : List (List Char) :=
  "connect=v1".toList :: if useBase64 then ["base64=1".toList] else []

theorem splitAll_queryStart (useBase64 : Bool) :
    splitAll '&' (queryStart useBase64) = startPieces useBase64 := by
  cases useBase64 <;> decide +kernel

/-- **The pieces of a query.** -/
theorem splitAll_query (useBase64 : Bool) (compression : Option String) {encoding : String}
    {message : List Char} (hencoding : '&' ∉ encoding.toList) (hmessage : '&' ∉ message) :
    splitAll '&' (buildConnectGetQuery useBase64 compression encoding message) =
      startPieces useBase64 ++ compressionPieces compression ++
        ["encoding=".toList ++ encoding.toList, "message=".toList ++ message] := by
  have hend := splitAll_end (queryStart useBase64 ++
      (match compression with
        | some enc => "&compression=".toList ++ enc.toList
        | none => [])) hencoding hmessage
  rw [splitAll_compression (splitAll_queryStart useBase64) compression] at hend
  exact hend

/-! ## Reading the pieces -/

namespace GetQueryParams

variable (params : GetQueryParams)

/-- Before the first parameter. -/
def initial : GetQueryParams := ⟨none, none, false, none, none⟩

theorem set_encoding (value : List Char) :
    params.set ("encoding=".toList ++ value) = { params with encoding := some (.ofList value) } := by
  have hsplit := splitOnce_append '=' (w := "encoding".toList) (by decide) value
  have hmark : "encoding=".toList = "encoding".toList ++ ['='] := by decide
  rw [set, hmark, List.append_assoc, List.singleton_append, hsplit]
  rfl

theorem set_message (value : List Char) :
    params.set ("message=".toList ++ value) = { params with message := some (.ofList value) } := by
  have hsplit := splitOnce_append '=' (w := "message".toList) (by decide) value
  have hmark : "message=".toList = "message".toList ++ ['='] := by decide
  rw [set, hmark, List.append_assoc, List.singleton_append, hsplit]
  rfl

theorem set_compression (value : List Char) :
    params.set ("compression=".toList ++ value) =
      { params with compression := some (.ofList value) } := by
  have hsplit := splitOnce_append '=' (w := "compression".toList) (by decide) value
  have hmark : "compression=".toList = "compression".toList ++ ['='] := by decide
  rw [set, hmark, List.append_assoc, List.singleton_append, hsplit]
  rfl

/-- A piece without a value: it empties the parameter it names. -/
theorem set_bare {piece : List Char} (h : '=' ∉ piece) :
    (params.set piece).base64 = (params.base64 && decide (piece ≠ "base64".toList)) ∧
      (params.set piece).compression =
        (if piece = "compression".toList then some "" else params.compression) ∧
      ((params.set piece).encoding = params.encoding ∨ (params.set piece).encoding = some "") := by
  rw [set, splitOnce_of_not_mem h]
  simp only [Option.getD_none]
  by_cases hmessage : piece = "message".toList
  · rw [if_pos hmessage, hmessage]
    exact ⟨(Bool.and_true _).symm, rfl, .inl rfl⟩
  · rw [if_neg hmessage]
    by_cases hencoding : piece = "encoding".toList
    · rw [if_pos hencoding, hencoding]
      exact ⟨(Bool.and_true _).symm, rfl, .inr rfl⟩
    · rw [if_neg hencoding]
      by_cases hbase : piece = "base64".toList
      · rw [if_pos hbase, hbase]
        exact ⟨(Bool.and_false _).symm, rfl, .inl rfl⟩
      · rw [if_neg hbase]
        have hkeep : params.base64 = (params.base64 && decide (piece ≠ "base64".toList)) := by
          rw [decide_eq_true hbase, Bool.and_true]
        by_cases hcompression : piece = "compression".toList
        · rw [if_pos hcompression, if_pos hcompression]
          exact ⟨hkeep, rfl, .inl rfl⟩
        · rw [if_neg hcompression, if_neg hcompression]
          split
          · exact ⟨hkeep, rfl, .inl rfl⟩
          · exact ⟨hkeep, rfl, .inl rfl⟩

/-- Several of them. -/
theorem foldl_set_bare {pieces : List (List Char)} (h : ∀ w ∈ pieces, '=' ∉ w) :
    (pieces.foldl set params).base64 =
        (params.base64 && decide ("base64".toList ∉ pieces)) ∧
      (pieces.foldl set params).compression =
        (if "compression".toList ∈ pieces then some "" else params.compression) ∧
      ((pieces.foldl set params).encoding = params.encoding ∨
        (pieces.foldl set params).encoding = some "") := by
  induction pieces generalizing params with
  | nil => exact ⟨(Bool.and_true _).symm, rfl, .inl rfl⟩
  | cons w pieces ih =>
    obtain ⟨hb, hc, he⟩ := params.set_bare (h w (List.mem_cons_self ..))
    obtain ⟨ihb, ihc, ihe⟩ := ih (params.set w) fun v hv => h v (List.mem_cons_of_mem _ hv)
    rw [List.foldl_cons]
    refine ⟨?_, ?_, ?_⟩
    · rw [ihb, hb, Bool.and_assoc, ← Bool.decide_and]
      congr 1
      rw [decide_eq_decide, List.mem_cons, not_or, ne_comm]
    · rw [ihc, hc]
      by_cases hmem : "compression".toList ∈ pieces
      · rw [if_pos hmem, if_pos (List.mem_cons_of_mem _ hmem)]
      · rw [if_neg hmem]
        by_cases hw : w = "compression".toList
        · rw [if_pos hw, if_pos (hw ▸ List.mem_cons_self ..)]
        · rw [if_neg hw, if_neg]
          rw [List.mem_cons, not_or]
          exact ⟨Ne.symm hw, hmem⟩
    · rcases ihe with ihe | ihe
      · rw [ihe]
        exact he
      · exact .inr ihe

end GetQueryParams

open GetQueryParams

theorem parseGetQueryParams_some (query : String) :
    parseGetQueryParams (some query) =
      if ((splitAll '&' query.toList).foldl set initial).encoding = none then
        .error (.invalidArgument "GET request requires 'encoding' query parameter")
      else .ok ((splitAll '&' query.toList).foldl set initial) := rfl

/-- The parameters that do not depend on the message. -/
theorem foldl_set_start (useBase64 : Bool) :
    ((startPieces useBase64).foldl set initial).base64 = useBase64 ∧
      ((startPieces useBase64).foldl set initial).compression = none ∧
      ((startPieces useBase64).foldl set initial).encoding = none := by
  cases useBase64 <;> decide +kernel

/-- The base64 and the compression that a server reads, with the name of an encoding in the
query as it is. -/
theorem foldl_set_compression {compression : Option String}
    (hbare : ∀ c ∈ compression, '=' ∉ c.toList) (params : GetQueryParams)
    (hparams : params.compression = none ∧ params.encoding = none) :
    ((compressionPieces compression).foldl set params).base64 =
        (params.base64 && compression.all fun c => "base64".toList ∉ nameTail c) ∧
      ((compressionPieces compression).foldl set params).compression =
        compression.map (fun c =>
          if "compression".toList ∈ nameTail c then "" else .ofList (nameHead c)) ∧
      (((compressionPieces compression).foldl set params).encoding = none ∨
        ((compressionPieces compression).foldl set params).encoding = some "") := by
  obtain ⟨hcompression, hencoding⟩ := hparams
  cases compression with
  | none => exact ⟨(Bool.and_true _).symm, hcompression, .inl hencoding⟩
  | some enc =>
    have htail : ∀ w ∈ nameTail enc, '=' ∉ w := by
      intro w hw hmem
      refine hbare enc rfl (mem_of_mem_splitAll (?_ : w ∈ splitAll '&' enc.toList) hmem)
      rw [splitAll_name]
      exact List.mem_cons_of_mem _ hw
    rw [compressionPieces, List.foldl_cons, set_compression]
    obtain ⟨hb, hc, he⟩ :=
      foldl_set_bare { params with compression := some (.ofList (nameHead enc)) } htail
    refine ⟨hb, ?_, ?_⟩
    · rw [hc]
      by_cases hmem : "compression".toList ∈ nameTail enc
      · rw [if_pos hmem, Option.map_some, if_pos hmem]
      · rw [if_neg hmem, Option.map_some, if_neg hmem]
    · rw [← hencoding]
      exact he.imp_left fun h => h

/-- **What a server reads in a query.** -/
theorem parse_query {useBase64 : Bool} {compression : Option String} {encoding : String}
    {message : List Char} (hbare : ∀ c ∈ compression, '=' ∉ c.toList)
    (hencoding : '&' ∉ encoding.toList) (hmessage : '&' ∉ message) :
    ∃ params, parseGetQueryParams
        (some (.ofList (buildConnectGetQuery useBase64 compression encoding message))) = .ok params ∧
      params.message = some (.ofList message) ∧ params.encoding = some encoding ∧
      params.base64 = (useBase64 && compression.all fun c => "base64".toList ∉ nameTail c) ∧
      params.compression = compression.map fun c =>
        if "compression".toList ∈ nameTail c then "" else .ofList (nameHead c) := by
  obtain ⟨hb, hc, he⟩ := foldl_set_start useBase64
  obtain ⟨hb', hc', -⟩ := foldl_set_compression hbare _ ⟨hc, he⟩
  rw [parseGetQueryParams_some, String.toList_ofList, splitAll_query _ _ hencoding hmessage,
    List.foldl_append, List.foldl_append, List.foldl_cons, List.foldl_cons, List.foldl_nil,
    set_encoding, set_message, String.ofList_toList]
  refine ⟨_, if_neg (by simp), rfl, rfl, ?_, hc'⟩
  rw [hb] at hb'
  exact hb'

/-! ## What comes of a name -/

/-- What a server takes for the message that was sent: it reads a text as base64 only if the
name of the encoding does not take the mark for that back. -/
def sentAs (encoding : String) (z : Bytes) : Bytes :=
  if "base64".toList ∈ nameTail encoding then asBytes (.ofList (urlSafeEncode z)) else z

/-- A server that takes the start of a name for all of it reads the message all the same. -/
def TakenApart (server : CompressionRegistry) (limit : ℕ) (encoding : String) (z body : Bytes) :
    Prop :=
  "compression".toList ∉ nameTail encoding ∧
    (server.unpack ((some (String.ofList (nameHead encoding))).filter (· ≠ "identity"))
      (sentAs encoding z) limit >>= checkMessageSize limit) = .ok body

/-- A name survives in a query: it holds no `#`, and no `&` unless the server does not mind. -/
def NameSurvives (server : CompressionRegistry) (limit : ℕ) (encoding : String) (z body : Bytes) :
    Prop :=
  '#' ∉ encoding.toList ∧ ('&' ∈ encoding.toList → TakenApart server limit encoding z body)

/-- A message is read out of a query, with its codec. -/
def ReadsBack (base64Error : Bytes → String) (server : CompressionRegistry) (limit : ℕ)
    (query : Option String) (codec : CodecFormat) (body : Bytes) : Prop :=
  ∃ params, parseGetQueryParams query = .ok params ∧ params.encoding = some codec.queryName ∧
    decodeGetMessage base64Error params server limit = .ok body

variable (base64Error : Bytes → String) {server : CompressionRegistry} {limit : ℕ}

theorem checkMessageSize_of_le {body : Bytes} (h : body.length ≤ limit) :
    checkMessageSize limit body = .ok body := by
  rw [checkMessageSize, if_neg (Nat.not_lt.mpr h)]

/-- A name that is not split is read as it is. -/
theorem takenApart_of_not_mem {sender : CompressionRegistry} {encoding : String} {z body : Bytes}
    (hinverts : Inverts sender server encoding) (hz : sender.compress encoding body = .ok z)
    (hlimit : body.length ≤ limit) (h : '&' ∉ encoding.toList) :
    TakenApart server limit encoding z body := by
  have hsplit := splitAll_name encoding
  rw [splitAll_of_not_mem h] at hsplit
  obtain ⟨hhead, htail⟩ := List.cons.inj hsplit
  rw [TakenApart, sentAs, ← hhead, ← htail, String.ofList_toList, if_neg List.not_mem_nil]
  refine ⟨List.not_mem_nil, ?_⟩
  have hopen : server.unpack ((some encoding).filter (· ≠ "identity")) z limit = .ok body := by
    by_cases hid : encoding = "identity"
    · rw [CompressionRegistry.compress, if_pos hid] at hz
      subst hid
      exact hz.symm ▸ rfl
    · rw [Option.filter_some, if_pos (by simpa using hid)]
      exact hinverts.decompress_compress hz hlimit
  rw [hopen]
  exact checkMessageSize_of_le hlimit

/-- No provider has an empty name. -/
theorem unpack_empty (z : Bytes) :
    (server.unpack ((some "").filter (· ≠ "identity")) z limit >>= checkMessageSize limit) =
      .error (CompressionRegistry.unsupported "") := by
  have hget : server.get "" = none := by
    rcases h : server.get "" with _ | p
    · rfl
    · exact absurd (CompressionRegistry.isHttpToken_of_get h) (by decide)
  rw [Option.filter_some, if_pos (by decide), CompressionRegistry.unpack,
    CompressionRegistry.decompressWithLimit, if_neg (by decide), hget]
  rfl

/-- **A compressed message**, in a query that is not cut. -/
theorem readsBack_compressed (codec : CodecFormat) {encoding : String} {z body : Bytes}
    (hbare : '=' ∉ encoding.toList) :
    ReadsBack base64Error server limit (some (getQuery codec z (some encoding))) codec body ↔
      TakenApart server limit encoding z body := by
  have hplain : '&' ∉ urlSafeEncode z := fun h => (mem_urlSafeEncode h).1.2.1 rfl
  have hcodec : '&' ∉ codec.queryName.toList := by cases codec <;> decide
  obtain ⟨params, hparse, hmessage, hencoding, hbase, hcompression⟩ :=
    @parse_query true (some encoding) _ _ (fun c hc => Option.some.inj hc ▸ hbare) hcodec hplain
  have hquery : getQuery codec z (some encoding) =
      .ofList (buildConnectGetQuery true (some encoding) codec.queryName (urlSafeEncode z)) := by
    simp only [getQuery, Option.isSome_some, Bool.or_true, if_true]
  have hsent : params.sent base64Error (.ofList (urlSafeEncode z)) = .ok (sentAs encoding z) := by
    have hmarks : '%' ∉ (String.ofList (urlSafeEncode z)).toList := by
      rw [String.toList_ofList]
      exact fun h => (mem_urlSafeEncode h).2 rfl
    rw [sent, hbase, Bool.true_and, Option.all_some, sentAs]
    by_cases hmem : "base64".toList ∈ nameTail encoding
    · have hflag : ¬ decide ("base64".toList ∉ nameTail encoding) = true := by
        rw [decide_eq_true_eq, not_not]
        exact hmem
      rw [if_pos hmem, if_neg hflag, percentDecode_urlSafe]
    · rw [if_neg hmem, if_pos (decide_eq_true hmem)]
      simp only [if_neg hmarks, urlSafe_decodes]
  have hdecode : decodeGetMessage base64Error params server limit = .ok body ↔
      TakenApart server limit encoding z body := by
    rw [decodeGetMessage, hmessage]
    simp only
    rw [hsent, hcompression, Option.map_some, TakenApart]
    by_cases hmem : "compression".toList ∈ nameTail encoding
    · rw [if_pos hmem]
      constructor
      · intro h
        exact absurd (unpack_empty (sentAs encoding z) ▸ h) (by intro h; cases h)
      · exact fun h => absurd hmem h.1
    · rw [if_neg hmem]
      exact ⟨fun h => ⟨hmem, h⟩, fun h => h.2⟩
  rw [ReadsBack, hquery]
  constructor
  · rintro ⟨params', hparse', -, h⟩
    obtain rfl := Except.ok.inj (hparse.symm.trans hparse')
    exact hdecode.mp h
  · exact fun h => ⟨params, hparse, hencoding, hdecode.mpr h⟩

/-- **A message that is not compressed** is read back. -/
theorem readsBack_plain (codec : CodecFormat) {body : Bytes} (hlimit : body.length ≤ limit) :
    ReadsBack base64Error server limit (some (getQuery codec body none)) codec body := by
  have hcodec : '&' ∉ codec.queryName.toList := by cases codec <;> decide
  cases codec with
  | proto =>
    have hplain : '&' ∉ urlSafeEncode body := fun h => (mem_urlSafeEncode h).1.2.1 rfl
    have hmarks : '%' ∉ (String.ofList (urlSafeEncode body)).toList := by
      rw [String.toList_ofList]
      exact fun h => (mem_urlSafeEncode h).2 rfl
    obtain ⟨params, hparse, hmessage, hencoding, hbase, hcompression⟩ :=
      @parse_query true none _ _ (fun c hc => nomatch hc) hcodec hplain
    refine ⟨params, hparse, hencoding, ?_⟩
    rw [decodeGetMessage, hmessage]
    simp only
    rw [sent, hbase, hcompression, if_pos (by rfl)]
    simp only [if_neg hmarks, urlSafe_decodes]
    exact checkMessageSize_of_le hlimit
  | json =>
    have hplain : '&' ∉ percentEncode nonAlphanumeric body :=
      fun h => (mem_percentEncode_plain h).2.1 rfl
    obtain ⟨params, hparse, hmessage, hencoding, hbase, hcompression⟩ :=
      @parse_query false none _ _ (fun c hc => nomatch hc) hcodec hplain
    refine ⟨params, hparse, hencoding, ?_⟩
    rw [decodeGetMessage, hmessage]
    simp only
    rw [sent, hbase, hcompression, Bool.false_and, if_neg Bool.false_ne_true, percent_decodes]
    exact checkMessageSize_of_le hlimit

/-! ## The query of a request -/

theorem takeWhile_until {c : Char} {a b : List Char} (h : c ∉ a) :
    (a ++ c :: b).takeWhile (· ≠ c) = a := by
  have ha : ∀ x ∈ a, decide (x ≠ c) = true :=
    fun x hx => decide_eq_true fun hxc => h (hxc ▸ hx)
  rw [List.takeWhile_append_of_pos ha, List.takeWhile_cons, if_neg (by simp), List.append_nil]

theorem takeWhile_all {c : Char} {a : List Char} (h : c ∉ a) : a.takeWhile (· ≠ c) = a := by
  have ha : ∀ x ∈ a, decide (x ≠ c) = true :=
    fun x hx => decide_eq_true fun hxc => h (hxc ▸ hx)
  have hall : (a ++ []).takeWhile (· ≠ c) = a ++ [].takeWhile (· ≠ c) :=
    List.takeWhile_append_of_pos ha
  simpa using hall

/-- The texts that a query is put together from are free of `#`. -/
theorem hash_not_mem_marks (useBase64 : Bool) (codec : CodecFormat) :
    '#' ∉ queryStart useBase64 ∧ '#' ∉ "&compression=".toList ∧ '#' ∉ "&encoding=".toList ∧
      '#' ∉ codec.queryName.toList ∧ '#' ∉ "&message=".toList := by
  cases useBase64 <;> cases codec <;> decide +kernel

theorem not_mem_append {α : Type} {c : α} {a b : List α} (ha : c ∉ a) (hb : c ∉ b) : c ∉ a ++ b :=
  fun h => (List.mem_append.mp h).elim ha hb

/-- The encoding of a message in a query. -/
def compressionText : Option String → List Char
  | some encoding => "&compression=".toList ++ encoding.toList
  | none => []

theorem getQuery_toList (codec : CodecFormat) (payload : Bytes) (compressedWith : Option String) :
    (getQuery codec payload compressedWith).toList =
      queryStart (codec = .proto || compressedWith.isSome) ++ compressionText compressedWith ++
        "&encoding=".toList ++ codec.queryName.toList ++ "&message=".toList ++
        (if (codec = .proto || compressedWith.isSome) then urlSafeEncode payload
          else percentEncode nonAlphanumeric payload) :=
  String.toList_ofList

/-- A query that no name cuts is taken whole. -/
theorem hash_not_mem_query {codec : CodecFormat} {payload : Bytes} {compressedWith : Option String}
    (h : ∀ encoding ∈ compressedWith, '#' ∉ encoding.toList) :
    '#' ∉ (getQuery codec payload compressedWith).toList := by
  obtain ⟨hstart, hcompression, hencoding, hcodec, hmessage⟩ :=
    hash_not_mem_marks (codec = .proto || compressedWith.isSome) codec
  have hname : '#' ∉ compressionText compressedWith := by
    cases compressedWith with
    | none => exact List.not_mem_nil
    | some encoding => exact not_mem_append hcompression (h encoding rfl)
  rw [getQuery_toList]
  apply not_mem_append (not_mem_append (not_mem_append (not_mem_append
    (not_mem_append hstart hname) hencoding) hcodec) hmessage)
  split
  · exact fun hmem => (mem_urlSafeEncode hmem).1.2.2.1 rfl
  · exact fun hmem => (mem_percentEncode_plain hmem).2.2.1 rfl

/-- **A query that a name cuts** has lost its codec. -/
theorem not_readsBack_cut (codec : CodecFormat) {encoding : String} {z body : Bytes}
    (hbare : '=' ∉ encoding.toList) (hcut : '#' ∈ encoding.toList) :
    ¬ ReadsBack base64Error server limit
      (some (.ofList ((getQuery codec z (some encoding)).toList.takeWhile (· ≠ '#')))) codec body := by
  obtain ⟨pre, post, hsplit, hpre⟩ := List.eq_append_cons_of_mem hcut
  have hbare' : ∀ c ∈ some (String.ofList pre), '=' ∉ c.toList := by
    intro c hc hmem
    obtain rfl := Option.some.inj hc
    rw [String.toList_ofList] at hmem
    exact hbare (hsplit ▸ List.mem_append_left _ hmem)
  obtain ⟨hstart, hcompression, -⟩ := hash_not_mem_marks true codec
  have hquery : (getQuery codec z (some encoding)).toList =
      (queryStart true ++ ("&compression=".toList ++ pre)) ++ '#' :: (post ++ "&encoding=".toList ++
        codec.queryName.toList ++ "&message=".toList ++ urlSafeEncode z) := by
    have happend (a c p q e n m u : List Char) :
        a ++ (c ++ (p ++ '#' :: q)) ++ e ++ n ++ m ++ u =
          (a ++ (c ++ p)) ++ '#' :: (q ++ e ++ n ++ m ++ u) := by
      simp
    have hflag : (decide (codec = .proto) || (some encoding).isSome) = true := Bool.or_true _
    have htext : (getQuery codec z (some encoding)).toList =
        queryStart true ++ ("&compression=".toList ++ encoding.toList) ++ "&encoding=".toList ++
          codec.queryName.toList ++ "&message=".toList ++ urlSafeEncode z := by
      have hall := getQuery_toList codec z (some encoding)
      rw [hflag] at hall
      exact hall
    rw [hsplit] at htext
    exact htext.trans (happend ..)
  have hpieces : splitAll '&' (queryStart true ++
      ("&compression=".toList ++ (String.ofList pre).toList)) =
        startPieces true ++ compressionPieces (some (.ofList pre)) :=
    splitAll_compression (splitAll_queryStart true) (some (.ofList pre))
  rw [String.toList_ofList (l := pre)] at hpieces
  obtain ⟨-, hc, he⟩ := foldl_set_start true
  obtain ⟨-, -, hencoding⟩ := foldl_set_compression hbare' _ ⟨hc, he⟩
  rw [hquery, takeWhile_until (not_mem_append hstart (not_mem_append hcompression hpre))]
  rintro ⟨params, hparse, hcodec, -⟩
  rw [parseGetQueryParams_some, String.toList_ofList, hpieces, List.foldl_append] at hparse
  -- without the codec there is an error, with an empty one it is the wrong one
  rcases hencoding with hencoding | hencoding
  · rw [if_pos hencoding] at hparse
    cases hparse
  · rw [if_neg (by rw [hencoding]; exact Option.some_ne_none _)] at hparse
    obtain rfl := Except.ok.inj hparse
    rw [hencoding] at hcodec
    cases codec <;> exact absurd (Option.some.inj hcodec) (by decide)

variable (cr : Crates) (ur : UriCrates)

/-- The path of a method, as it is generated, is only a path. -/
def PlainPath (procedure : String) : Prop :=
  '?' ∉ procedure.toList ∧ '#' ∉ procedure.toList

instance (procedure : String) : Decidable (PlainPath procedure) :=
  inferInstanceAs (Decidable (_ ∧ _))

/-- The query arrives up to the first `#`. -/
theorem procedureUri_query {config : ClientConfig} {procedure query : String} {uri : RequestUri}
    (hplain : PlainPath procedure) (h : procedureUri ur config procedure (some query) = .ok uri) :
    uri.pathAndQuery.query = some (.ofList (query.toList.takeWhile (· ≠ '#'))) := by
  have hbase {c : Char} (hc : c ∉ config.baseUri.path.toList) :
      c ∉ trimEnd (· = '/') config.baseUri.path.toList :=
    fun hmem => hc ((trimEnd_sublist _ _).subset hmem)
  rw [procedureUri, PathAndQuery.fromShared] at h
  split at h
  · cases h
  · rename_i pq hpq
    split at hpq
    · cases hpq
    · obtain rfl := Except.ok.inj hpq
      split at h
      · cases h
      · obtain rfl := Except.ok.inj h
        have hhash : ∀ x ∈ trimEnd (· = '/') config.baseUri.path.toList ++ procedure.toList ++ ['?'],
            decide (x ≠ '#') = true := by
          intro x hx
          apply decide_eq_true
          rintro rfl
          simp only [List.mem_append, List.mem_singleton] at hx
          rcases hx with (hx | hx) | hx
          · exact hbase config.baseUri.plain.2 hx
          · exact hplain.2 hx
          · exact absurd hx (by decide)
        have hmark : '?' ∉ trimEnd (· = '/') config.baseUri.path.toList ++ procedure.toList := by
          rw [List.mem_append, not_or]
          exact ⟨hbase config.baseUri.plain.1, hplain.1⟩
        have htext : (String.ofList (trimEnd (· = '/') config.baseUri.path.toList) ++ procedure ++
            ((some query).map ("?" ++ ·)).getD "").toList =
              (trimEnd (· = '/') config.baseUri.path.toList ++ procedure.toList ++ ['?']) ++
                query.toList := by
          simp
        rw [htext, List.takeWhile_append_of_pos hhash, PathAndQuery.query, List.append_assoc,
          List.append_assoc, ← List.append_assoc, List.singleton_append, splitOnce_append '?' hmark]
        rfl

/-! ## The round trip -/

/-- What is sent for a message, and the encoding it is sent with. -/
theorem compressWhole_payload {config : ClientConfig} {options : CallOptions}
    {body payload : Bytes} {applied : Option String}
    (h : compressWhole config options body = .ok (payload, applied)) :
    (applied = none ∧ payload = body) ∨ ∃ encoding ∈ config.requestCompression,
      applied = some encoding ∧ config.compression.compress encoding body = .ok payload := by
  rw [compressWhole] at h
  split at h
  · rename_i encoding hencoding
    split at h
    · obtain ⟨z, hz, heq⟩ := exists_of_map_ok h
      obtain ⟨rfl, rfl⟩ := Prod.mk.inj heq
      exact .inr ⟨encoding, hencoding, rfl, hz⟩
    · obtain ⟨rfl, rfl⟩ := Prod.mk.inj (Except.ok.inj h)
      exact .inl ⟨rfl, rfl⟩
  · obtain ⟨rfl, rfl⟩ := Prod.mk.inj (Except.ok.inj h)
    exact .inl ⟨rfl, rfl⟩

/-- A name that something is compressed with is a token. -/
theorem equals_not_mem_of_compress {reg : CompressionRegistry} {encoding : String} {data z : Bytes}
    (h : reg.compress encoding data = .ok z) : '=' ∉ encoding.toList := by
  have htoken : isHttpToken encoding = true := by
    rw [CompressionRegistry.compress] at h
    split at h
    · rename_i hid
      rw [hid]
      decide +kernel
    · split at h
      · cases h
      · rename_i p hp
        exact CompressionRegistry.isHttpToken_of_get hp
  intro hmem
  simp only [isHttpToken, Bool.and_eq_true, List.all_eq_true] at htoken
  exact absurd (htoken.2 '=' hmem) (by decide)

/-- **Connect messages in a query.** For every message, codec, configuration and base path, and
every server that inverts the client's compression: whenever the client builds a `GET` request,
its query gives the server the codec and exactly the message, if and only if the message is not
compressed or the name of its encoding survives in the query. -/
theorem get_roundTrips_iff {config : ClientConfig} {spec : CallSpec} {message : ClientMessage}
    {options : CallOptions} {req : ClientRequest} {body : Bytes}
    (h : callUnaryGet cr ur config spec message options = .ok req)
    (hbody : message config.codecFormat = .ok body) (hplain : PlainPath spec.procedure)
    (hinverts : ∀ encoding ∈ config.requestCompression,
      Inverts config.compression server encoding)
    (hlimit : body.length ≤ limit) :
    ReadsBack base64Error server limit req.uri.pathAndQuery.query config.codecFormat body ↔
      ∀ encoding ∈ wholeEncoding config options message, ∀ z,
        config.compression.compress encoding body = .ok z →
          NameSurvives server limit encoding z body := by
  obtain ⟨-, -, h⟩ := exists_of_bind_ok h
  obtain ⟨-, -, h⟩ := exists_of_bind_ok h
  obtain ⟨effective, heffective, h⟩ := exists_of_bind_ok h
  obtain ⟨body', hbody', h⟩ := exists_of_bind_ok h
  obtain ⟨⟨payload, applied⟩, hpayload, h⟩ := exists_of_bind_ok h
  obtain ⟨uri, huri, h⟩ := exists_of_bind_ok h
  obtain ⟨generated, -, rfl⟩ := finishRequest_ok cr h
  obtain rfl := Except.ok.inj ((orError_eq_ok hbody').symm.trans hbody)
  have hpayload := orError_eq_ok hpayload
  have hwhole := compressWhole_ok hbody (effectiveOptions_ok cr heffective).2.2 hpayload
  rw [procedureUri_query ur hplain (orError_eq_ok huri), ← hwhole]
  rcases compressWhole_payload hpayload with ⟨rfl, rfl⟩ | ⟨encoding, hencoding, rfl, hz⟩
  · rw [takeWhile_all (hash_not_mem_query fun _ hc => absurd hc (Option.not_mem_none _)), String.ofList_toList]
    exact ⟨fun _ _ hc => absurd hc (Option.not_mem_none _),
      fun _ => readsBack_plain base64Error _ hlimit⟩
  · have hbare := equals_not_mem_of_compress hz
    have hiff : ReadsBack base64Error server limit (some (.ofList
          ((getQuery config.codecFormat payload (some encoding)).toList.takeWhile (· ≠ '#'))))
            config.codecFormat body' ↔ NameSurvives server limit encoding payload body' := by
      by_cases hcut : '#' ∈ encoding.toList
      · exact ⟨fun hread => absurd hread (not_readsBack_cut base64Error _ hbare hcut),
          fun hsurvives => absurd hcut hsurvives.1⟩
      · rw [takeWhile_all (hash_not_mem_query fun c hc => Option.some.inj hc ▸ hcut),
          String.ofList_toList, readsBack_compressed base64Error _ hbare, NameSurvives]
        refine ⟨fun hread => ⟨hcut, fun _ => hread⟩, fun hsurvives => ?_⟩
        by_cases hsplit : '&' ∈ encoding.toList
        · exact hsurvives.2 hsplit
        · exact takenApart_of_not_mem (hinverts encoding hencoding) hz hlimit hsplit
    rw [hiff]
    constructor
    · intro hsurvives c hc z hcz
      obtain rfl := Option.some.inj hc
      obtain rfl := Except.ok.inj (hz.symm.trans hcz)
      exact hsurvives
    · exact fun hall => hall encoding rfl payload hz

/-! ## Two names -/

/-- A provider that puts a byte before the message. -/
def prefixProvider (name : String) : CompressionProvider where
  name := name
  compress data := .ok (0 :: data)
  decompressWithLimit z limit :=
    if z.tail.length ≤ limit then .ok z.tail else .error (.resourceExhausted "too large")

/-- A registry of that provider. -/
def prefixRegistry (name : String) (h : isHttpToken name = true) : CompressionRegistry :=
  CompressionRegistry.new.register (prefixProvider name) h

theorem prefixRegistry_get {name : String} (h : isHttpToken name = true) :
    (prefixRegistry name h).get name = some (prefixProvider name) := by
  have hfirst : decide ((prefixProvider name).name = name) = true := decide_eq_true rfl
  exact List.find?_cons_of_pos hfirst

/-- It inverts itself. -/
theorem prefixRegistry_inverts {name : String} (h : isHttpToken name = true) :
    Inverts (prefixRegistry name h) (prefixRegistry name h) name where
  registered _ := by
    rw [CompressionRegistry.supports, prefixRegistry_get]
    rfl
  inverts := by
    intro p q hp hq data z limit hz hlen
    obtain rfl := Option.some.inj ((prefixRegistry_get h).symm.trans hp)
    obtain rfl := Option.some.inj ((prefixRegistry_get h).symm.trans hq)
    obtain rfl := Except.ok.inj hz
    exact if_pos hlen
  nonempty := by
    intro p hp data hz
    obtain rfl := Option.some.inj ((prefixRegistry_get h).symm.trans hp)
    cases hz

/-- A Connect client that compresses all its requests. -/
def getConfig (name : String) (h : isHttpToken name = true) : ClientConfig where
  baseUri := ⟨some "http", some "localhost:8080", "/api/", by decide⟩
  protocol := .connect
  codecFormat := .json
  compression := prefixRegistry name h
  requestCompression := some name
  compressionPolicy := ⟨true, 0⟩
  defaultTimeout := none
  defaultMaxMessageSize := none
  defaultElementMemoryLimit := none
  defaultHeaders := .empty

/-- A method that may be called by `GET`. -/
def getSpec : CallSpec := ⟨"/pkg.Service/Get", .unary, .client⟩

/-- URIs that are all accepted. -/
def acceptingUris : UriCrates := ⟨fun _ => none, fun _ => none, fun b => b.path, fun s => s⟩

/-- No options. -/
def noOptions : CallOptions := ⟨.empty, none, none, none, none⟩

/-- `br` is a token. -/
theorem isHttpToken_br : isHttpToken "br" = true := by decide

/-- So is `a&b`. -/
theorem isHttpToken_ampersand : isHttpToken "a&b" = true := by decide

/-- The headers of a `GET` request without a timeout can be built. -/
theorem addGetRequestHeaders_plain (config : ClientConfig) :
    ∃ headers, addGetRequestHeaders cr .new config none = some headers := by
  have hroom : HeaderMap.empty.nameCount < cr.headerCap :=
    Nat.lt_of_lt_of_le (by decide) cr.headerCap_large
  rw [addGetRequestHeaders]
  rcases haccept : acceptValue cr config with _ | v
  · exact ⟨.empty, rfl⟩
  · rw [acceptValue] at haccept
    obtain ⟨value, -, rfl⟩ := Option.map_eq_some_iff.mp haccept
    exact ⟨_, if_pos hroom⟩

/-- The URI of the requests below. -/
def getUri (query : String) : RequestUri :=
  ⟨some "http", some "localhost:8080", ⟨("/api/pkg.Service/Get?" ++ query).toList⟩⟩

theorem getUri_query (query : String) : (getUri query).pathAndQuery.query = some query := by
  have hsplit := splitOnce_append '?' (w := "/api/pkg.Service/Get".toList) (by decide +kernel)
    query.toList
  have hmark : "/api/pkg.Service/Get?".toList = "/api/pkg.Service/Get".toList ++ ['?'] := by
    decide +kernel
  have htext : ("/api/pkg.Service/Get?" ++ query).toList =
      "/api/pkg.Service/Get".toList ++ '?' :: query.toList := by
    rw [String.toList_append, hmark, List.append_assoc, List.singleton_append]
  rw [PathAndQuery.query, getUri, htext, hsplit, Option.map_some, String.ofList_toList]

theorem procedureUri_get {name : String} (h : isHttpToken name = true) {query : String}
    (hhash : '#' ∉ query.toList) :
    procedureUri acceptingUris (getConfig name h) getSpec.procedure (some query) =
      .ok (getUri query) := by
  have hbase : String.ofList (trimEnd (· = '/') "/api/".toList) ++ "/pkg.Service/Get" ++ "?" =
      "/api/pkg.Service/Get?" := by
    decide +kernel
  have htext : (String.ofList (trimEnd (· = '/') "/api/".toList) ++ "/pkg.Service/Get" ++
      ("?" ++ query)).toList = "/api/pkg.Service/Get?".toList ++ query.toList := by
    rw [← String.append_assoc, hbase, String.toList_append]
  have hplain : '#' ∉ "/api/pkg.Service/Get?".toList := by decide +kernel
  have huri : PathAndQuery.fromShared acceptingUris (String.ofList (trimEnd (· = '/') "/api/".toList) ++
      "/pkg.Service/Get" ++ ("?" ++ query)) = .ok (getUri query).pathAndQuery := by
    rw [PathAndQuery.fromShared, htext, takeWhile_all (not_mem_append hplain hhash), getUri,
      String.toList_append]
    rfl
  rw [procedureUri]
  exact huri ▸ rfl

theorem orError_ok_bind {α β : Type} (a : α) (f : α → Except Failure β) :
    (orError (.ok a) >>= f) = f a := rfl

/-- The request that this client makes of a message. -/
theorem exists_getRequest {name : String} (h : isHttpToken name = true) (hname : name ≠ "identity")
    (hhash : '#' ∉ name.toList) (body : Bytes) :
    ∃ req, callUnaryGet .std acceptingUris (getConfig name h) getSpec (fun _ => .ok body) noOptions =
        .ok req ∧
      req.uri.pathAndQuery.query = some (getQuery .json (0 :: body) (some name)) := by
  obtain ⟨headers, hheaders⟩ := addGetRequestHeaders_plain .std (getConfig name h)
  have hspec : checkClientSpec acceptingUris getSpec .unary "call_unary_get" = .ok () := rfl
  have hcompress : compressWhole (getConfig name h) noOptions body = .ok (0 :: body, some name) := by
    have hz : (prefixRegistry name h).compress name body = .ok (0 :: body) := by
      rw [CompressionRegistry.compress, if_neg hname, prefixRegistry_get]
      rfl
    have hone : compressWhole (getConfig name h) noOptions body =
        ((prefixRegistry name h).compress name body).map fun z => (z, some name) := rfl
    rw [hone, hz]
    rfl
  have hbare : '#' ∉ (getQuery .json (0 :: body) (some name)).toList :=
    hash_not_mem_query fun c hc => Option.some.inj hc ▸ hhash
  have huri := procedureUri_get h hbare
  refine ⟨⟨.GET, getUri (getQuery .json (0 :: body) (some name)), headers, .full []⟩, ?_,
    getUri_query _⟩
  have hoptions : effectiveOptions .std (getConfig name h) noOptions = .ok noOptions := rfl
  have hrun : callUnaryGet .std acceptingUris (getConfig name h) getSpec (fun _ => .ok body)
      noOptions = (orError (compressWhole (getConfig name h) noOptions body) >>= fun r =>
        orError (procedureUri acceptingUris (getConfig name h) getSpec.procedure
          (some (getQuery .json r.1 r.2))) >>= fun uri =>
            finishRequest .std (addGetRequestHeaders .std .new (getConfig name h) none) .GET uri .empty
              (.full [])) := by
    rw [callUnaryGet, hspec, hoptions]
    rfl
  rw [hrun, hcompress, orError_ok_bind, huri, orError_ok_bind, hheaders]
  rfl

/-- A common name survives. -/
theorem get_roundTrips_br :
    ∃ req, callUnaryGet .std acceptingUris (getConfig "br" isHttpToken_br) getSpec
        (fun _ => .ok [123, 125]) noOptions = .ok req ∧
      ReadsBack (fun _ => "invalid") (prefixRegistry "br" isHttpToken_br) 100
        req.uri.pathAndQuery.query .json [123, 125] := by
  obtain ⟨req, hreq, -⟩ := exists_getRequest isHttpToken_br (by decide) (by decide) [123, 125]
  have hinverts : ∀ encoding ∈ (getConfig "br" isHttpToken_br).requestCompression,
      Inverts (getConfig "br" isHttpToken_br).compression (prefixRegistry "br" isHttpToken_br)
        encoding :=
    fun encoding hencoding => Option.some.inj hencoding ▸ prefixRegistry_inverts isHttpToken_br
  have hlimit : [(123 : UInt8), 125].length ≤ 100 := by decide
  have hiff := get_roundTrips_iff (fun _ => "invalid") .std acceptingUris hreq rfl
    (by decide +kernel) hinverts hlimit
  refine ⟨req, hreq, hiff.mpr fun encoding hencoding z hz => ?_⟩
  obtain rfl := Option.some.inj hencoding
  exact ⟨by decide, fun hmem => absurd hmem (by decide)⟩

/-- **A registered name with an ampersand does not**: the server looks for the encoding `a`. -/
theorem get_ampersand_lost :
    Inverts (prefixRegistry "a&b" isHttpToken_ampersand) (prefixRegistry "a&b" isHttpToken_ampersand)
        "a&b" ∧
      ∃ req, callUnaryGet .std acceptingUris (getConfig "a&b" isHttpToken_ampersand) getSpec
          (fun _ => .ok [123, 125]) noOptions = .ok req ∧
        ¬ ReadsBack (fun _ => "invalid") (prefixRegistry "a&b" isHttpToken_ampersand) 100
          req.uri.pathAndQuery.query .json [123, 125] := by
  obtain ⟨req, hreq, hquery⟩ :=
    exists_getRequest isHttpToken_ampersand (by decide) (by decide) [123, 125]
  refine ⟨prefixRegistry_inverts isHttpToken_ampersand, req, hreq, fun hread => ?_⟩
  rw [hquery, readsBack_compressed _ _ (by decide)] at hread
  have hlost : ((prefixRegistry "a&b" isHttpToken_ampersand).unpack
      ((some (String.ofList (nameHead "a&b"))).filter (· ≠ "identity")) (sentAs "a&b" [0, 123, 125])
        100 >>= checkMessageSize 100) = .error (CompressionRegistry.unsupported "a") := rfl
  exact absurd (hlost.symm.trans hread.2) (by intro h; cases h)

end ConnectRpc
