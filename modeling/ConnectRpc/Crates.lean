import ConnectRpc.Http
import ConnectRpc.Lib.JsonText
import ConnectRpc.Lib.Varint

/-!
# What is taken from other crates

The library stands on crates whose code is not part of it. What it relies on is
collected here as one structure: the operations, and as fields the documented
facts about them. Everything built on these operations takes a `Crates` and holds
for every one.

The operations are the JSON text layer of `serde_json` (its record conventions
are in `Lib.Json`), the varint and tag primitives of `buffa`, the capacity of
`http`'s header map, the iteration order of `std`'s hash map, and a few renderings
used in messages.
-/

namespace ConnectRpc

open Lib

/-- Who walks a hash map. Each side has its own random state. -/
inductive Side : Type where
  | server
  | client
  deriving DecidableEq

/-- The protobuf wire types. -/
inductive WireType : Type where
  | varint
  | fixed64
  | lengthDelimited
  | startGroup
  | endGroup
  | fixed32
  deriving DecidableEq

/-- The third-party operations, with what is documented about them. -/
structure Crates where
  /-- the most names an `http::HeaderMap` holds -/
  headerCap : ℕ
  /-- it is far more than the protocol's own headers need -/
  headerCap_large : 64 ≤ headerCap
  /-- whether `HeaderValue::from_str` lets bytes above 127 through -/
  opaqueOctets : Bool
  /-- `{:?}` of a header value -/
  debugHeaderValue : HeaderValue → String
  /-- the order in which a hash map filled with these keys is walked -/
  hashOrder : Side → List String → List String
  /-- a walk visits each key once -/
  hashOrder_perm : ∀ (s : Side) (l : List String), (hashOrder s l).Perm l
  /-- `String::from_utf8_lossy` -/
  utf8Lossy : Bytes → String
  /-- valid text is left alone -/
  utf8Lossy_asBytes : ∀ s : String, utf8Lossy (asBytes s) = s
  /-- `serde_json::to_vec` -/
  jsonToVec : Json → Bytes
  /-- `serde_json::from_slice`, with the text of its error -/
  jsonFromSlice : Bytes → Except String Json
  /-- the text of the error for a value that is not of the type asked for -/
  jsonDataError : Bytes → String
  /-- what writing and reading does to a number -/
  jsonNumber : Number → Number
  /-- how deep the reader follows nesting -/
  jsonDepth : ℕ
  /-- the limit leaves room for the protocol's own records -/
  jsonDepth_large : 8 ≤ jsonDepth
  /-- reading inverts writing up to the rounding of numbers, for values that are
  not nested too deep -/
  jsonFromSlice_toVec : ∀ v : Json, v.depth ≤ jsonDepth →
    jsonFromSlice (jsonToVec v) = .ok (v.mapNum jsonNumber)
  /-- deeper values are refused -/
  jsonFromSlice_deep : ∀ v : Json, jsonDepth < v.depth →
    ∃ e, jsonFromSlice (jsonToVec v) = .error e
  /-- `buffa::encoding::encode_varint`; the numbers written are lengths of buffers
  and status codes, which always fit its 64 bits: the bound is not carried along here -/
  encodeVarint : ℕ → Bytes
  /-- `buffa::encoding::decode_varint`: the value and the input after it -/
  decodeVarint : Bytes → Option (ℕ × Bytes)
  /-- decoding reads back what encoding wrote -/
  decodeVarint_encode : ∀ (n : ℕ) (r : Bytes),
    decodeVarint (encodeVarint n ++ r) = some (n, r)
  /-- a varint has at least one byte -/
  decodeVarint_shorter : ∀ {b r : Bytes} {n : ℕ},
    decodeVarint b = some (n, r) → r.length < b.length
  /-- `Tag::encode` -/
  encodeTag : ℕ → WireType → Bytes
  /-- `Tag::decode`: the field number, the wire type and the input after them -/
  decodeTag : Bytes → Option (ℕ × WireType × Bytes)
  /-- decoding reads back what encoding wrote, for valid field numbers -/
  decodeTag_encode : ∀ (n : ℕ) (w : WireType) (r : Bytes), 1 ≤ n → n < 0x20000000 →
    decodeTag (encodeTag n w ++ r) = some (n, w, r)
  /-- a tag has at least one byte -/
  decodeTag_shorter : ∀ {b r : Bytes} {n : ℕ} {w : WireType},
    decodeTag b = some (n, w, r) → r.length < b.length

namespace Crates

variable (cr : Crates)

/-- `serde_json::from_slice` at a record type, which is read from the tree by
`read`. -/
def jsonRead {α : Type} (read : Json → Option α) (b : Bytes) : Except String α :=
  match cr.jsonFromSlice b with
  | .error e => .error e
  | .ok v =>
    match read v with
    | some a => .ok a
    | none => .error (cr.jsonDataError b)

/-- The entries of a hash map, in the order a side walks them. -/
def hashWalk {β : Type} (side : Side) (entries : List (String × β)) : List (String × β) :=
  (cr.hashOrder side (entries.map Prod.fst)).filterMap fun k =>
    entries.find? (fun e => e.1 = k)

theorem jsonRead_toVec {α : Type} (read : Json → Option α) {v : Json}
    (h : v.depth ≤ cr.jsonDepth) :
    cr.jsonRead read (cr.jsonToVec v) =
      match read (v.mapNum cr.jsonNumber) with
      | some a => .ok a
      | none => .error (cr.jsonDataError (cr.jsonToVec v)) := by
  simp only [jsonRead, cr.jsonFromSlice_toVec v h]

theorem jsonRead_deep {α : Type} (read : Json → Option α) {v : Json}
    (h : cr.jsonDepth < v.depth) : ∃ e, cr.jsonRead read (cr.jsonToVec v) = .error e := by
  obtain ⟨e, he⟩ := cr.jsonFromSlice_deep v h
  exact ⟨e, by simp only [jsonRead, he]⟩

/-- A walk of a hash map is a reordering of its entries. -/
theorem hashWalk_perm {β : Type} (side : Side) {entries : List (String × β)}
    (h : (entries.map Prod.fst).Nodup) : (cr.hashWalk side entries).Perm entries := by
  refine ((cr.hashOrder_perm side (entries.map Prod.fst)).filterMap _).trans ?_
  rw [List.filterMap_map]
  have hfind : ∀ (l : List (String × β)), (l.map Prod.fst).Nodup → ∀ e ∈ l,
      l.find? (fun x => x.1 = e.1) = some e := by
    intro l
    induction l with
    | nil => intro _ e he; cases he
    | cons a l ih =>
      intro hnd e he
      rw [List.map_cons, List.nodup_cons] at hnd
      rcases List.mem_cons.mp he with rfl | he
      · simp
      · have hne : ¬ a.1 = e.1 := by
          intro hae
          exact hnd.1 (hae ▸ List.mem_map_of_mem (f := Prod.fst) he)
        rw [List.find?_cons_of_neg (by simpa using hne)]
        exact ih hnd.2 e he
  have hsome : entries.filterMap ((fun k => entries.find? (fun e => e.1 = k)) ∘ Prod.fst) =
      entries.filterMap some :=
    List.filterMap_congr fun e he => hfind entries h e he
  rw [hsome, List.filterMap_some]

/-- An encoded tag is not empty. -/
theorem encodeTag_ne_nil {n : ℕ} (w : WireType) (h1 : 1 ≤ n) (h2 : n < 0x20000000) :
    cr.encodeTag n w ≠ [] := by
  intro h
  have hd := cr.decodeTag_encode n w [] h1 h2
  rw [h] at hd
  exact Nat.lt_irrefl _ (cr.decodeTag_shorter hd)

/-! ## An instance -/

/-- The number of a wire type. -/
def wireTypeNumber : WireType → ℕ
  | .varint => 0
  | .fixed64 => 1
  | .lengthDelimited => 2
  | .startGroup => 3
  | .endGroup => 4
  | .fixed32 => 5

/-- The wire type of a number. -/
def wireTypeOfNumber : ℕ → Option WireType
  | 0 => some .varint
  | 1 => some .fixed64
  | 2 => some .lengthDelimited
  | 3 => some .startGroup
  | 4 => some .endGroup
  | 5 => some .fixed32
  | _ => none

/-- A tag: the field number and the wire type in one varint. -/
def tagBytes (fieldNumber : ℕ) (wireType : WireType) : Bytes :=
  Varint.encode (fieldNumber * 8 + wireTypeNumber wireType)

/-- Read a tag, of 32 bits. -/
def tagOfBytes (b : Bytes) : Option (ℕ × WireType × Bytes) :=
  match Varint.decode b with
  | none => none
  | some (v, r) =>
    if v / 8 = 0 ∨ 0x20000000 ≤ v / 8 then none
    else (wireTypeOfNumber (v % 8)).map fun w => (v / 8, w, r)

theorem tagOfBytes_tagBytes {n : ℕ} (w : WireType) (r : Bytes) (h : 1 ≤ n) (h' : n < 0x20000000) :
    tagOfBytes (tagBytes n w ++ r) = some (n, w, r) := by
  have hw : wireTypeNumber w < 8 := by cases w <;> decide
  have hrw : wireTypeOfNumber (wireTypeNumber w) = some w := by cases w <;> rfl
  simp only [tagOfBytes, tagBytes, Varint.decode_encode]
  rw [show (n * 8 + wireTypeNumber w) / 8 = n by omega,
    show (n * 8 + wireTypeNumber w) % 8 = wireTypeNumber w by omega, if_neg (by omega), hrw]
  rfl

theorem tagOfBytes_shorter {b r : Bytes} {n : ℕ} {w : WireType}
    (h : tagOfBytes b = some (n, w, r)) : r.length < b.length := by
  rcases hd : Varint.decode b with _ | ⟨v, r'⟩
  · simp only [tagOfBytes, hd] at h
    cases h
  · simp only [tagOfBytes, hd] at h
    split at h
    · cases h
    · simp only [Option.map_eq_some_iff] at h
      obtain ⟨w', -, heq⟩ := h
      cases heq
      exact Varint.decode_shorter hd

/-- Read a JSON text in UTF-8. -/
def jsonOfBytes (limit : ℕ) (b : Bytes) : Except String Json :=
  match decodeUtf8 b with
  | none => .error "invalid unicode code point"
  | some cs =>
    match JsonText.parse limit cs with
    | none => .error "expected value"
    | some v => .ok v

theorem jsonOfBytes_print (limit : ℕ) (v : Json) :
    jsonOfBytes limit (utf8 (JsonText.print v)) =
      if v.depth ≤ limit then .ok v else .error "expected value" := by
  simp only [jsonOfBytes, decodeUtf8_utf8, JsonText.parse_print]
  by_cases h : v.depth ≤ limit
  · simp only [if_pos h]
  · simp only [if_neg h]

/-- The crates at their defaults, for running the model on concrete inputs. JSON
is compact text without blanks, hash maps are walked in insertion order. -/
def std : Crates where
  headerCap := 24576
  headerCap_large := by decide
  opaqueOctets := true
  debugHeaderValue v := "\"" ++ (v.toStr.getD "") ++ "\""
  hashOrder _ l := l
  hashOrder_perm _ _ := .refl _
  utf8Lossy b := (fromUtf8 b).getD "\uFFFD"
  utf8Lossy_asBytes s := by rw [fromUtf8_asBytes]; rfl
  jsonToVec v := utf8 (JsonText.print v)
  jsonFromSlice := jsonOfBytes 127
  jsonDataError _ := "invalid type"
  jsonNumber n := n
  jsonDepth := 127
  jsonDepth_large := by decide
  jsonFromSlice_toVec v h := by rw [jsonOfBytes_print, if_pos h, Json.mapNum_id]
  jsonFromSlice_deep v h := ⟨_, by rw [jsonOfBytes_print, if_neg (by omega)]⟩
  encodeVarint := Varint.encode
  decodeVarint := Varint.decode
  decodeVarint_encode := Varint.decode_encode
  decodeVarint_shorter := Varint.decode_shorter
  encodeTag := tagBytes
  decodeTag := tagOfBytes
  decodeTag_encode _ w r h h' := tagOfBytes_tagBytes w r h h'
  decodeTag_shorter := tagOfBytes_shorter

end Crates

end ConnectRpc
