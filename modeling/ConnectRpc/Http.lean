import ConnectRpc.Lib.Utf8

/-!
# HTTP headers and responses

The vocabulary the protocol code is written in: header names and values, the
header multimap, and the response builder. Names and values carry their own
well-formedness, so a header that could not be put on the wire cannot be built.

A `HeaderMap` is kept as its entries in iteration order. `append` puts a value
after the last one of the same name, so iteration yields the values of one name
together, in the order they were added; the lemmas below say what each operation
does to `getAll`, and later proofs go through them.
-/

namespace ConnectRpc

open Lib

/-- Wire bytes. -/
abbrev Bytes := List UInt8

/-- The UTF-8 bytes of a text (`str::as_bytes`). -/
def asBytes (s : String) : Bytes :=
  utf8 s.toList

/-- `str::from_utf8`. -/
def fromUtf8 (b : Bytes) : Option String :=
  (decodeUtf8 b).map String.ofList

@[simp] theorem fromUtf8_asBytes (s : String) : fromUtf8 (asBytes s) = some s := by
  simp [fromUtf8, asBytes]

@[simp] theorem asBytes_append (s t : String) : asBytes (s ++ t) = asBytes s ++ asBytes t := by
  simp [asBytes]

/-! ## Names -/

/-- Whether a character may stand in a header name, once lower-cased: the RFC 9110
`tchar` set less the upper-case letters. -/
def nameChar (c : Char) : Bool :=
  ('a' ≤ c && c ≤ 'z') || ('0' ≤ c && c ≤ '9') || "!#$%&'*+-.^_`|~".toList.contains c

/-- The longest name a `HeaderName` holds. -/
def maxHeaderNameLen : ℕ := 65535

/-- Whether a text is a header name as `HeaderName` stores it. -/
def validName (s : String) : Bool :=
  !s.toList.isEmpty && s.toList.all nameChar && s.toList.length ≤ maxHeaderNameLen

/-- A header name: a non-empty lower-case token. -/
structure HeaderName where
  /-- the name as text -/
  text : String
  /-- it is a name -/
  valid : validName text = true
  deriving DecidableEq

/-- `HeaderName::from_bytes` on the bytes of a text: upper-case letters are
lowered, anything outside the token characters is refused. -/
def HeaderName.fromStr (s : String) : Option HeaderName :=
  let lower := String.ofList (s.toList.map Char.toLower)
  if h : validName lower = true then some ⟨lower, h⟩ else none

/-- A name's bytes. -/
def HeaderName.bytes (n : HeaderName) : Bytes :=
  asBytes n.text

theorem HeaderName.ext {n m : HeaderName} (h : n.text = m.text) : n = m := by
  cases n
  cases m
  simp_all

theorem HeaderName.nameChars (n : HeaderName) : ∀ c ∈ n.text.toList, nameChar c = true := by
  have h := n.valid
  simp only [validName, Bool.and_eq_true, List.all_eq_true] at h
  exact h.1.2

/-- A token character is ASCII and not an upper-case letter. -/
theorem nameChar_range {c : Char} (h : nameChar c = true) :
    c.toNat < 128 ∧ ¬ (65 ≤ c.toNat ∧ c.toNat ≤ 90) := by
  simp only [nameChar, Bool.or_eq_true, Bool.and_eq_true, decide_eq_true_eq,
    List.contains_iff_mem] at h
  rcases h with (⟨h1, h2⟩ | ⟨h1, h2⟩) | h
  · have h1 : 97 ≤ c.toNat := h1
    have h2 : c.toNat ≤ 122 := h2
    omega
  · have h1 : 48 ≤ c.toNat := h1
    have h2 : c.toNat ≤ 57 := h2
    omega
  · have hmarks : "!#$%&'*+-.^_`|~".toList.all (fun d =>
        decide (d.toNat < 128 ∧ ¬ (65 ≤ d.toNat ∧ d.toNat ≤ 90))) = true := by decide
    exact of_decide_eq_true (List.all_eq_true.mp hmarks c h)

theorem nameChar_ascii {c : Char} (h : nameChar c = true) : asciiChar c = true := by
  simpa [asciiChar] using (nameChar_range h).1

theorem toLower_of_nameChar {c : Char} (h : nameChar c = true) : c.toLower = c := by
  have hrange : ¬ (c.val ≥ 'A'.val ∧ c.val ≤ 'Z'.val) := by
    rintro ⟨h1, h2⟩
    exact (nameChar_range h).2 ⟨h1, h2⟩
  exact dif_neg hrange

/-- A name reads back as itself. -/
@[simp] theorem HeaderName.fromStr_text (n : HeaderName) :
    HeaderName.fromStr n.text = some n := by
  have hlower : n.text.toList.map Char.toLower = n.text.toList :=
    (List.map_congr_left fun c hc => toLower_of_nameChar (n.nameChars c hc)).trans
      (List.map_id _)
  simp [HeaderName.fromStr, hlower, n.valid]

namespace HeaderName

/-- `content-type` -/
def contentType : HeaderName := ⟨"content-type", by decide⟩

/-- `content-encoding` -/
def contentEncoding : HeaderName := ⟨"content-encoding", by decide⟩

/-- `content-length` -/
def contentLength : HeaderName := ⟨"content-length", by decide⟩

/-- `accept-encoding` -/
def acceptEncoding : HeaderName := ⟨"accept-encoding", by decide⟩

end HeaderName

/-! ## Values -/

/-- Whether a byte may stand in a header value: anything but control characters,
with the tab allowed. -/
def valueByte (b : UInt8) : Bool :=
  (32 ≤ b && b != 127) || b == 9

/-- Whether a byte is readable as text in a header value. -/
def visibleByte (b : UInt8) : Bool :=
  (32 ≤ b && b < 127) || b == 9

theorem valueByte_of_visibleByte {b : UInt8} (h : visibleByte b = true) :
    valueByte b = true := by
  simp only [visibleByte, valueByte, Bool.or_eq_true, Bool.and_eq_true, decide_eq_true_eq,
    bne_iff_ne, ne_eq, beq_iff_eq] at h ⊢
  refine h.imp_left fun ⟨h1, h2⟩ => ⟨h1, ?_⟩
  rintro rfl
  exact absurd h2 (by decide)

theorem visibleByte_ascii {b : UInt8} (h : visibleByte b = true) : b < 128 := by
  simp only [visibleByte, Bool.or_eq_true, Bool.and_eq_true, decide_eq_true_eq, beq_iff_eq] at h
  rcases h with ⟨-, h⟩ | rfl
  · exact UInt8.lt_trans h (by decide)
  · decide

/-- A header value: bytes with no control character but the tab. -/
structure HeaderValue where
  /-- the bytes of the value -/
  bytes : Bytes
  /-- all of them may stand in a value -/
  valid : bytes.all valueByte = true
  deriving DecidableEq

namespace HeaderValue

theorem ext {v w : HeaderValue} (h : v.bytes = w.bytes) : v = w := by
  cases v
  cases w
  simp_all

/-- `HeaderValue::from_bytes`. -/
def fromBytes (b : Bytes) : Option HeaderValue :=
  if h : b.all valueByte = true then some ⟨b, h⟩ else none

@[simp] theorem fromBytes_bytes (v : HeaderValue) : fromBytes v.bytes = some v := by
  simp [fromBytes, v.valid]

/-- Whether every byte is readable as text. -/
def visible (v : HeaderValue) : Bool :=
  v.bytes.all visibleByte

/-- `HeaderValue::to_str`: the value as text, if every byte of it is visible
ASCII or a tab. -/
def toStr (v : HeaderValue) : Option String :=
  if v.visible then some (String.ofList (v.bytes.map charOfByte)) else none

theorem asBytes_toStr {v : HeaderValue} {s : String} (h : v.toStr = some s) :
    asBytes s = v.bytes := by
  by_cases hv : v.visible = true
  · rw [toStr, if_pos hv] at h
    obtain rfl := Option.some.inj h
    rw [asBytes, String.toList_ofList]
    exact utf8_map_charOfByte fun b hb => visibleByte_ascii (List.all_eq_true.mp hv b hb)
  · rw [toStr, if_neg hv] at h
    cases h

theorem toStr_isSome {v : HeaderValue} : v.toStr.isSome = v.visible := by
  rw [toStr]
  split <;> simp_all

/-- `HeaderValue::from_str`. The text is taken byte by byte; `opaqueOctets` says
whether bytes above 127 are let through. -/
def fromStr (opaqueOctets : Bool) (s : String) : Option HeaderValue :=
  let b := asBytes s
  if b.all (fun x => valueByte x && (x < 128 || opaqueOctets)) then fromBytes b else none

theorem bytes_of_fromStr {o : Bool} {s : String} {v : HeaderValue}
    (h : fromStr o s = some v) : v.bytes = asBytes s := by
  simp only [fromStr, fromBytes] at h
  split at h
  · split at h
    · cases h
      rfl
    · cases h
  · cases h

/-- Visible text is always a value. -/
theorem fromStr_of_visible {o : Bool} {s : String} (h : (asBytes s).all visibleByte = true) :
    ∃ v, fromStr o s = some v ∧ v.bytes = asBytes s := by
  have hv : (asBytes s).all valueByte = true :=
    List.all_eq_true.mpr fun b hb => valueByte_of_visibleByte (List.all_eq_true.mp h b hb)
  have hcond : (asBytes s).all (fun x => valueByte x && (x < 128 || o)) = true := by
    refine List.all_eq_true.mpr fun b hb => ?_
    have hvis := List.all_eq_true.mp h b hb
    simp only [valueByte_of_visibleByte hvis, visibleByte_ascii hvis, Bool.true_and,
      Bool.or_eq_true, decide_true, true_or]
  refine ⟨⟨asBytes s, hv⟩, ?_, rfl⟩
  simp only [fromStr, fromBytes]
  rw [if_pos hcond, dif_pos hv]

/-- A value that reads as text is built again from that text. -/
theorem fromStr_toStr {o : Bool} {v : HeaderValue} {s : String} (h : v.toStr = some s) :
    fromStr o s = some v := by
  have hb := asBytes_toStr h
  have hvis : (asBytes s).all visibleByte = true := by
    have := toStr_isSome (v := v)
    rw [h] at this
    rw [hb]
    exact this.symm
  obtain ⟨w, hw, hwb⟩ := fromStr_of_visible (o := o) hvis
  rw [hw, ext (hwb.trans hb)]

/-- A static text as a value (`HeaderValue::from_static`). -/
def static (s : String) (h : (asBytes s).all valueByte = true) : HeaderValue :=
  ⟨asBytes s, h⟩

end HeaderValue

/-! ## Maps -/

/-- A header multimap, as its entries in iteration order. -/
structure HeaderMap where
  /-- the entries, those of one name together -/
  entries : List (HeaderName × HeaderValue)
  deriving DecidableEq

/-- Put an entry after the last one of its name, or at the end. -/
def appendEntry (n : HeaderName) (v : HeaderValue) :
    List (HeaderName × HeaderValue) → List (HeaderName × HeaderValue)
  | [] => [(n, v)]
  | e :: es =>
    if e.1 = n ∧ n ∉ es.map Prod.fst then e :: (n, v) :: es else e :: appendEntry n v es

/-- Put an entry in the place of the first of its name and drop the others of it;
put it at the end if there is none. -/
def insertEntry (n : HeaderName) (v : HeaderValue) :
    List (HeaderName × HeaderValue) → List (HeaderName × HeaderValue)
  | [] => [(n, v)]
  | e :: es =>
    if e.1 = n then (n, v) :: es.filter (fun x => x.1 ≠ n) else e :: insertEntry n v es

namespace HeaderMap

/-- `HeaderMap::new`. -/
def empty : HeaderMap := ⟨[]⟩

/-- `HeaderMap::is_empty`. -/
def isEmpty (m : HeaderMap) : Bool :=
  m.entries.isEmpty

/-- The values of one name, in order (`HeaderMap::get_all`). -/
def getAll (m : HeaderMap) (n : HeaderName) : List HeaderValue :=
  (m.entries.filter (fun e => e.1 = n)).map Prod.snd

/-- The first value of a name (`HeaderMap::get`). -/
def get (m : HeaderMap) (n : HeaderName) : Option HeaderValue :=
  (m.getAll n).head?

/-- `HeaderMap::contains_key`. -/
def contains (m : HeaderMap) (n : HeaderName) : Bool :=
  n ∈ m.entries.map Prod.fst

/-- `HeaderMap::append`, on a map with room: on a full one it panics where `tryAppend` is refused. -/
def append (m : HeaderMap) (n : HeaderName) (v : HeaderValue) : HeaderMap :=
  ⟨appendEntry n v m.entries⟩

/-- `HeaderMap::insert`, on a map with room. -/
def insert (m : HeaderMap) (n : HeaderName) (v : HeaderValue) : HeaderMap :=
  ⟨insertEntry n v m.entries⟩

/-- Append entries one after another. -/
def appendAll (m : HeaderMap) (es : List (HeaderName × HeaderValue)) : HeaderMap :=
  es.foldl (fun m e => m.append e.1 e.2) m

/-- The number of distinct names. -/
def nameCount (m : HeaderMap) : ℕ :=
  (m.entries.map Prod.fst).eraseDups.length

/-- `HeaderMap::try_append`: refused once the map holds `cap` names, whether or
not the name is one of them. -/
def tryAppend (cap : ℕ) (m : HeaderMap) (n : HeaderName) (v : HeaderValue) :
    Option HeaderMap :=
  if m.nameCount < cap then some (m.append n v) else none

/-- `HeaderMap::try_insert`, which is refused alike. -/
def tryInsert (cap : ℕ) (m : HeaderMap) (n : HeaderName) (v : HeaderValue) :
    Option HeaderMap :=
  if m.nameCount < cap then some (m.insert n v) else none

/-- `HeaderMap::append` of entries one after another, where it does not panic. -/
def tryAppendAll (cap : ℕ) (m : HeaderMap) (es : List (HeaderName × HeaderValue)) :
    Option HeaderMap :=
  es.foldlM (fun m e => m.tryAppend cap e.1 e.2) m

@[simp] theorem getAll_empty (n : HeaderName) : empty.getAll n = [] := rfl

@[simp] theorem isEmpty_empty : empty.isEmpty = true := rfl

theorem eq_empty_of_isEmpty {m : HeaderMap} (h : m.isEmpty = true) : m = empty := by
  cases m
  simp_all [isEmpty, empty]

theorem contains_iff {m : HeaderMap} {n : HeaderName} :
    m.contains n = true ↔ m.getAll n ≠ [] := by
  simp only [contains, getAll, ne_eq, List.map_eq_nil_iff, List.filter_eq_nil_iff,
    decide_eq_true_eq, List.mem_map]
  push Not
  rfl

theorem contains_eq_false {m : HeaderMap} {n : HeaderName} :
    m.contains n = false ↔ m.getAll n = [] := by
  rw [← Bool.not_eq_true, contains_iff, not_not]

theorem mem_getAll {m : HeaderMap} {n : HeaderName} {v : HeaderValue} :
    v ∈ m.getAll n ↔ (n, v) ∈ m.entries := by
  simp only [getAll, List.mem_map, List.mem_filter, decide_eq_true_eq]
  constructor
  · rintro ⟨⟨k, w⟩, ⟨he, rfl⟩, rfl⟩
    exact he
  · intro h
    exact ⟨(n, v), ⟨h, rfl⟩, rfl⟩

theorem getAll_cons (e : HeaderName × HeaderValue) (es : List (HeaderName × HeaderValue))
    (k : HeaderName) :
    getAll ⟨e :: es⟩ k = if e.1 = k then e.2 :: getAll ⟨es⟩ k else getAll ⟨es⟩ k := by
  by_cases h : e.1 = k <;> simp [getAll, h]

theorem getAll_appendEntry (n : HeaderName) (v : HeaderValue) (k : HeaderName) :
    ∀ es : List (HeaderName × HeaderValue),
      getAll ⟨appendEntry n v es⟩ k = getAll ⟨es⟩ k ++ if n = k then [v] else [] := by
  intro es
  induction es with
  | nil => by_cases h : n = k <;> simp [appendEntry, getAll, h]
  | cons e es ih =>
    rw [appendEntry]
    split
    · rename_i h
      obtain ⟨rfl, hno⟩ := h
      have hnone : getAll ⟨es⟩ e.1 = [] := by
        rw [← contains_eq_false]
        simpa [contains] using hno
      rw [getAll_cons, getAll_cons, getAll_cons]
      by_cases hk : e.1 = k
      · subst hk
        simp [hnone]
      · simp [hk]
    · rw [getAll_cons, getAll_cons, ih]
      by_cases hk : e.1 = k <;> simp [hk]

/-- Appending adds the value after those of its name and changes no other. -/
theorem getAll_append (m : HeaderMap) (n : HeaderName) (v : HeaderValue) (k : HeaderName) :
    (m.append n v).getAll k = m.getAll k ++ if n = k then [v] else [] :=
  getAll_appendEntry n v k m.entries

@[simp] theorem getAll_append_self (m : HeaderMap) (n : HeaderName) (v : HeaderValue) :
    (m.append n v).getAll n = m.getAll n ++ [v] := by
  simp [getAll_append]

theorem getAll_append_ne (m : HeaderMap) {n k : HeaderName} (v : HeaderValue) (h : n ≠ k) :
    (m.append n v).getAll k = m.getAll k := by
  simp [getAll_append, h]

/-- Appending a whole map's entries adds, for each name, that map's values. -/
theorem getAll_appendAll (m : HeaderMap) (es : List (HeaderName × HeaderValue))
    (k : HeaderName) : (m.appendAll es).getAll k = m.getAll k ++ getAll ⟨es⟩ k := by
  induction es generalizing m with
  | nil => simp [appendAll, getAll]
  | cons e es ih =>
    have hstep : m.appendAll (e :: es) = (m.append e.1 e.2).appendAll es := rfl
    rw [hstep, ih, getAll_append, getAll_cons]
    by_cases h : e.1 = k <;> simp [h]

theorem getAll_insertEntry (n : HeaderName) (v : HeaderValue) (k : HeaderName) :
    ∀ es : List (HeaderName × HeaderValue),
      getAll ⟨insertEntry n v es⟩ k = if n = k then [v] else getAll ⟨es⟩ k := by
  intro es
  induction es with
  | nil => by_cases h : n = k <;> simp [insertEntry, getAll, h]
  | cons e es ih =>
    rw [insertEntry]
    by_cases he : e.1 = n
    · rw [if_pos he, getAll_cons, getAll_cons]
      by_cases hk : n = k
      · subst hk
        simp [getAll]
      · have hek : ¬ e.1 = k := he ▸ hk
        simp only [hk, if_false, hek]
        simp only [getAll, List.filter_filter]
        congr 1
        refine List.filter_congr fun x _ => ?_
        by_cases hx : x.1 = k
        · simp [hx, Ne.symm hk]
        · simp [hx]
    · rw [if_neg he, getAll_cons, getAll_cons, ih]
      by_cases hk : n = k
      · subst hk
        simp [he]
      · simp [hk]

/-- Inserting replaces the values of its name and changes no other. -/
theorem getAll_insert (m : HeaderMap) (n : HeaderName) (v : HeaderValue) (k : HeaderName) :
    (m.insert n v).getAll k = if n = k then [v] else m.getAll k :=
  getAll_insertEntry n v k m.entries

@[simp] theorem getAll_insert_self (m : HeaderMap) (n : HeaderName) (v : HeaderValue) :
    (m.insert n v).getAll n = [v] := by
  simp [getAll_insert]

theorem tryAppend_eq_some {cap : ℕ} {m m' : HeaderMap} {n : HeaderName} {v : HeaderValue}
    (h : m.tryAppend cap n v = some m') : m' = m.append n v := by
  simp only [tryAppend] at h
  split at h
  · exact (Option.some.inj h).symm
  · cases h

end HeaderMap

/-! ## Responses -/

/-- An HTTP status code. -/
structure StatusCode where
  /-- the number -/
  code : ℕ
  /-- it has three digits -/
  valid : 100 ≤ code ∧ code ≤ 999
  deriving DecidableEq

namespace StatusCode

/-- 200 -/
def ok : StatusCode := ⟨200, by decide⟩

/-- 500 -/
def internalServerError : StatusCode := ⟨500, by decide⟩

/-- `StatusCode::is_success`. -/
def isSuccess (s : StatusCode) : Bool :=
  200 ≤ s.code && s.code < 300

end StatusCode

/-- A response. -/
structure Response (β : Type) where
  /-- the status -/
  status : StatusCode
  /-- the headers -/
  headers : HeaderMap
  /-- the body -/
  body : β
  deriving DecidableEq

/-- `Response::new`: status 200 and no headers. -/
def Response.new {β : Type} (body : β) : Response β :=
  ⟨.ok, .empty, body⟩

/-- A response under construction; `none` once a step of it failed, after which
the later steps do nothing. -/
abbrev ResponseBuilder := Option (StatusCode × HeaderMap)

namespace ResponseBuilder

/-- `Response::builder().status(..)`. -/
def withStatus (s : StatusCode) : ResponseBuilder :=
  some (s, .empty)

/-- `Builder::header`: append one header, failing when the map is full. -/
def header (cap : ℕ) (b : ResponseBuilder) (n : HeaderName) (v : HeaderValue) :
    ResponseBuilder :=
  b.bind fun p => (p.2.tryAppend cap n v).map fun m => (p.1, m)

/-- `Builder::body`. -/
def body {β : Type} (b : ResponseBuilder) (x : β) : Option (Response β) :=
  b.map fun p => ⟨p.1, p.2, x⟩

end ResponseBuilder

end ConnectRpc
