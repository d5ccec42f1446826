import ConnectRpc.GrpcStatus
import Mathlib.Data.List.Induction

/-!
# What a `google.rpc.Status` is decoded from

Protobuf fields come in any order, with fields in between that the reader does not know. This
file says what a valid encoding is (`Encoding`, `StatusEncoding`), in terms of what `buffa`
reads as a tag and as a number, and what the details are that one holds (`held`).

The walk over the status skips every kind of field, and the walk over an `Any` stops at the
first field of fixed width. What it makes of an `Any` is what the fields before that one hold, if
they name a type (`decodeAny_encoding`).
-/

namespace ConnectRpc

open Lib

namespace GrpcStatus

variable (cr : Crates)

/-! ## Fields -/

/-- The content of a field. -/
inductive Payload : Type where
  | varint (v : ℕ) : Payload
  | fixed64 (b : Bytes) : Payload
  | bytes (b : Bytes) : Payload
  | fixed32 (b : Bytes) : Payload
  deriving DecidableEq

/-- Whether the width is fixed. -/
def Payload.isFixed : Payload → Bool
  | varint _ => false
  | fixed64 _ => true
  | bytes _ => false
  | fixed32 _ => true

/-- A field. -/
structure Field where
  /-- its number -/
  number : ℕ
  /-- its content -/
  payload : Payload
  deriving DecidableEq

/-- The bytes of a field, if it has this number and holds bytes. -/
def Field.bytesOf (n : ℕ) : Field → Option Bytes
  | ⟨m, .bytes b⟩ => if m = n then some b else none
  | _ => none

/-- These bytes are read as a tag, whatever comes after them. -/
def IsTag (n : ℕ) (w : WireType) (t : Bytes) : Prop :=
  ∀ rest, cr.decodeTag (t ++ rest) = some (n, w, rest)

/-- These bytes are read as a number, whatever comes after them. -/
def IsVarint (v : ℕ) (t : Bytes) : Prop :=
  ∀ rest, cr.decodeVarint (t ++ rest) = some (v, rest)

/-- The bytes of a field. -/
inductive FieldBytes : Field → Bytes → Prop where
  | varint {n v : ℕ} {t w : Bytes} (ht : IsTag cr n .varint t) (hw : IsVarint cr v w) :
      FieldBytes ⟨n, .varint v⟩ (t ++ w)
  | fixed64 {n : ℕ} {t b : Bytes} (ht : IsTag cr n .fixed64 t) (hb : b.length = 8) :
      FieldBytes ⟨n, .fixed64 b⟩ (t ++ b)
  | bytes {n : ℕ} {t w b : Bytes} (ht : IsTag cr n .lengthDelimited t)
      (hw : IsVarint cr b.length w) : FieldBytes ⟨n, .bytes b⟩ (t ++ (w ++ b))
  | fixed32 {n : ℕ} {t b : Bytes} (ht : IsTag cr n .fixed32 t) (hb : b.length = 4) :
      FieldBytes ⟨n, .fixed32 b⟩ (t ++ b)

/-- A message: the bytes of its fields, in order. -/
inductive Encoding : List Field → Bytes → Prop where
  | nil : Encoding [] []
  | cons {f : Field} {fs : List Field} {b r : Bytes} (head : FieldBytes cr f b)
      (tail : Encoding fs r) : Encoding (f :: fs) (b ++ r)

/-- The fields of an `Any` are valid if its type is text, every time it is given. -/
def ValidAny (as : List Field) : Prop :=
  ∀ f ∈ as, ∀ b, f.bytesOf 1 = some b → (fromUtf8 b).isSome = true

/-- A valid status, with the fields of its details: an `Any` in every field 3, and any other
fields before, between and after them. -/
inductive StatusEncoding : List (List Field) → Bytes → Prop where
  | nil : StatusEncoding [] []
  | detail {as : List Field} {anys : List (List Field)} {p b r : Bytes} (any : Encoding cr as p)
      (valid : ValidAny as) (head : FieldBytes cr ⟨3, .bytes p⟩ b) (tail : StatusEncoding anys r) :
      StatusEncoding (as :: anys) (b ++ r)
  | other {f : Field} {anys : List (List Field)} {b r : Bytes} (head : FieldBytes cr f b)
      (unknown : f.bytesOf 3 = none) (tail : StatusEncoding anys r) : StatusEncoding anys (b ++ r)

/-- The last bytes that are given under a number. -/
def lastBytes (n : ℕ) (as : List Field) : Option Bytes :=
  (as.filterMap (Field.bytesOf n)).getLast?

/-- The detail an `Any` holds: the last type and the last value, either being empty if it is
absent. -/
def held (as : List Field) : ErrorDetail :=
  ⟨((lastBytes 1 as).bind fromUtf8).getD "", some (detailB64.encode ((lastBytes 2 as).getD [])),
    none⟩

/-- A type is named. -/
def NamesType (as : List Field) : Prop :=
  ∃ f ∈ as, (f.bytesOf 1).isSome = true

/-- The fields before the first one of fixed width. -/
def beforeFixed (as : List Field) : List Field :=
  as.takeWhile fun f => !f.payload.isFixed

/-! ## Reading a field -/

/-- The field that some data starts with. -/
def readField (buf : Bytes) : Option (Field × Bytes) :=
  match cr.decodeTag buf with
  | none => none
  | some (n, w, buf) =>
    match w with
    | .varint => (cr.decodeVarint buf).map fun (v, buf) => (⟨n, .varint v⟩, buf)
    | .lengthDelimited =>
      (cr.decodeVarint buf).bind fun (len, buf) =>
        if buf.length < len then none else some (⟨n, .bytes (buf.take len)⟩, buf.drop len)
    | .fixed64 => if buf.length < 8 then none else some (⟨n, .fixed64 (buf.take 8)⟩, buf.drop 8)
    | .fixed32 => if buf.length < 4 then none else some (⟨n, .fixed32 (buf.take 4)⟩, buf.drop 4)
    | _ => none

theorem IsTag.ne_nil {n : ℕ} {w : WireType} {t : Bytes} (h : IsTag cr n w t) : t ≠ [] := by
  rintro rfl
  exact Nat.lt_irrefl _ (cr.decodeTag_shorter (h []))

theorem FieldBytes.ne_nil {f : Field} {b : Bytes} (h : FieldBytes cr f b) : b ≠ [] := by
  cases h with
  | varint ht => exact List.append_ne_nil_of_left_ne_nil ht.ne_nil _
  | fixed64 ht => exact List.append_ne_nil_of_left_ne_nil ht.ne_nil _
  | bytes ht => exact List.append_ne_nil_of_left_ne_nil ht.ne_nil _
  | fixed32 ht => exact List.append_ne_nil_of_left_ne_nil ht.ne_nil _

/-- The bytes of a field are read as it. -/
theorem FieldBytes.readField {f : Field} {b : Bytes} (h : FieldBytes cr f b) (rest : Bytes) :
    readField cr (b ++ rest) = some (f, rest) := by
  cases h with
  | varint ht hw =>
    rw [List.append_assoc, GrpcStatus.readField, ht]
    simp only [hw rest, Option.map_some]
  | fixed64 ht hb =>
    rw [List.append_assoc, GrpcStatus.readField, ht]
    simp [← hb]
  | @bytes n t w b ht hw =>
    rw [List.append_assoc, List.append_assoc, GrpcStatus.readField, ht]
    simp [hw (b ++ rest)]
  | fixed32 ht hb =>
    rw [List.append_assoc, GrpcStatus.readField, ht]
    simp [← hb]

/-- What a field adds to the details. -/
def detailsOf (f : Field) : List ErrorDetail :=
  ((f.bytesOf 3).bind (decodeAny cr)).toList

/-- A round of `decode_details` reads a field, whichever kind it is. -/
theorem decodeDetailsLoop_eq (m : ℕ) (buf : Bytes) :
    decodeDetailsLoop cr (m + 1) buf =
      (readField cr buf).elim [] fun (f, rest) => detailsOf cr f ++ decodeDetailsLoop cr m rest := by
  rw [decodeDetailsLoop, readField]
  by_cases hnil : buf = []
  · rw [if_pos hnil]
    rcases htag : cr.decodeTag buf with _ | ⟨n, w, rest⟩
    · rfl
    · have hshort := cr.decodeTag_shorter htag
      rw [hnil] at hshort
      exact absurd hshort (Nat.not_lt_zero _)
  · rw [if_neg hnil]
    rcases cr.decodeTag buf with _ | ⟨n, w, rest⟩
    · rfl
    · cases w with
      | varint =>
        rcases hv : cr.decodeVarint rest with _ | ⟨v, rest'⟩
        · simp [hv]
        · simp [hv, detailsOf, Field.bytesOf]
      | fixed64 =>
        by_cases hlen : rest.length < 8
        · simp [hlen]
        · simp [hlen, detailsOf, Field.bytesOf]
      | lengthDelimited =>
        rcases hv : cr.decodeVarint rest with _ | ⟨len, rest'⟩
        · simp [hv]
        · by_cases hlen : rest'.length < len
          · simp [hv, hlen]
          · by_cases hn : n = 3
            · simp [hv, hlen, hn, detailsOf, Field.bytesOf]
            · simp [hv, hlen, hn, detailsOf, Field.bytesOf]
      | startGroup => rfl
      | endGroup => rfl
      | fixed32 =>
        by_cases hlen : rest.length < 4
        · simp [hlen]
        · simp [hlen, detailsOf, Field.bytesOf]

/-! ## Reading an `Any` -/

/-- What `decode_any` has seen after one more field, if it is text where that is asked for. -/
def AnyFields.read (acc : AnyFields) (f : Field) : AnyFields :=
  ⟨((f.bytesOf 1).bind fromUtf8).or acc.typeUrl, (f.bytesOf 2).or acc.value⟩

/-- A round of `decode_any` on a field. -/
theorem decodeAnyLoop_field {f : Field} {b : Bytes} (h : FieldBytes cr f b)
    (hvalid : ∀ b, f.bytesOf 1 = some b → (fromUtf8 b).isSome = true) (m : ℕ) (rest : Bytes)
    (acc : AnyFields) :
    decodeAnyLoop cr (m + 1) (b ++ rest) acc =
      if f.payload.isFixed then some acc else decodeAnyLoop cr m rest (acc.read f) := by
  have hne : b ++ rest ≠ [] := List.append_ne_nil_of_left_ne_nil h.ne_nil _
  rw [decodeAnyLoop, if_neg hne]
  cases h with
  | varint ht hw =>
    rw [List.append_assoc, ht]
    simp only [hw rest]
    rfl
  | fixed64 ht hb =>
    rw [List.append_assoc, ht]
    rfl
  | @bytes n t w b ht hw =>
    rw [List.append_assoc, List.append_assoc, ht]
    simp only [hw (b ++ rest), List.length_append]
    rw [if_neg (by omega), List.take_left, List.drop_left]
    by_cases h1 : n = 1
    · subst h1
      obtain ⟨s, hs⟩ := Option.isSome_iff_exists.mp (hvalid b rfl)
      simp [hs, AnyFields.read, Field.bytesOf, Payload.isFixed]
    · by_cases h2 : n = 2
      · subst h2
        simp [AnyFields.read, Field.bytesOf, Payload.isFixed]
      · simp [h1, h2, AnyFields.read, Field.bytesOf, Payload.isFixed]
  | fixed32 ht hb =>
    rw [List.append_assoc, ht]
    rfl

/-- What has been seen after some fields: the last of each. -/
theorem foldl_read {as : List Field} (hvalid : ValidAny as) (acc : AnyFields) :
    as.foldl AnyFields.read acc =
      ⟨((lastBytes 1 as).bind fromUtf8).or acc.typeUrl, (lastBytes 2 as).or acc.value⟩ := by
  induction as using List.reverseRecOn with
  | nil => rfl
  | append_singleton as f ih =>
    have hlast {n : ℕ} : lastBytes n (as ++ [f]) = (f.bytesOf n).or (lastBytes n as) := by
      rw [lastBytes, List.filterMap_append, List.getLast?_append, lastBytes]
      rcases hf : f.bytesOf n with _ | b
      · simp [hf]
      · simp [hf]
    rw [List.foldl_append, ih fun g hg => hvalid g (List.mem_append_left _ hg), hlast, hlast]
    have htype : ((f.bytesOf 1).or (lastBytes 1 as)).bind fromUtf8 =
        ((f.bytesOf 1).bind fromUtf8).or ((lastBytes 1 as).bind fromUtf8) := by
      rcases hf : f.bytesOf 1 with _ | b
      · rfl
      · obtain ⟨s, hs⟩ := Option.isSome_iff_exists.mp
          (hvalid f (List.mem_append_right _ List.mem_cons_self) b hf)
        simp [hs]
    rw [htype, Option.or_assoc, Option.or_assoc]
    rfl

theorem ValidAny.beforeFixed {as : List Field} (h : ValidAny as) : ValidAny (beforeFixed as) :=
  fun f hf => h f ((List.takeWhile_subset _) hf)

/-- The walk over an `Any` sees the fields before the first one of fixed width. -/
theorem decodeAnyLoop_encoding {as : List Field} {p : Bytes} (h : Encoding cr as p) :
    ValidAny as → ∀ (m : ℕ) (acc : AnyFields), p.length ≤ m →
      decodeAnyLoop cr m p acc = some ((beforeFixed as).foldl AnyFields.read acc) := by
  induction h with
  | nil => exact fun _ m acc _ => decodeAnyLoop_nil cr m acc
  | @cons f fs b r head tail ih =>
    intro hvalid m acc hm
    obtain ⟨hf, hfs⟩ := List.forall_mem_cons.mp hvalid
    have hpos := List.length_pos_of_ne_nil head.ne_nil
    rw [List.length_append] at hm
    obtain ⟨m, rfl⟩ : ∃ k, m = k + 1 := ⟨m - 1, by omega⟩
    rw [decodeAnyLoop_field cr head hf, beforeFixed, List.takeWhile_cons]
    cases f.payload.isFixed with
    | true => rfl
    | false => exact ih hfs m (acc.read f) (by omega)

/-- The detail of an `Any` that names a type. -/
def heldIfNamed (as : List Field) : Option ErrorDetail :=
  ((lastBytes 1 as).bind fromUtf8).map fun _ => held as

/-- What `decode_any` makes of a valid `Any`. -/
theorem decodeAny_encoding {as : List Field} {p : Bytes} (h : Encoding cr as p)
    (hvalid : ValidAny as) : decodeAny cr p = heldIfNamed (beforeFixed as) := by
  rw [decodeAny, decodeAnyLoop_encoding cr h hvalid _ _ (Nat.le_refl _),
    foldl_read hvalid.beforeFixed, heldIfNamed, held]
  rcases (lastBytes 1 (beforeFixed as)).bind fromUtf8 with _ | s
  · rfl
  · simp

/-! ## Reading a status -/

theorem decodeDetailsLoop_encoding {anys : List (List Field)} {data : Bytes}
    (h : StatusEncoding cr anys data) : ∀ m, data.length ≤ m →
      decodeDetailsLoop cr m data = anys.filterMap fun as => heldIfNamed (beforeFixed as) := by
  have hround {f : Field} {b : Bytes} (head : FieldBytes cr f b) (m : ℕ) (r : Bytes) :
      decodeDetailsLoop cr (m + 1) (b ++ r) = detailsOf cr f ++ decodeDetailsLoop cr m r := by
    rw [decodeDetailsLoop_eq, head.readField]
    rfl
  have hfuel {f : Field} {b r : Bytes} (head : FieldBytes cr f b) {m : ℕ}
      (hm : (b ++ r).length ≤ m) : ∃ k, m = k + 1 ∧ r.length ≤ k := by
    have hpos := List.length_pos_of_ne_nil head.ne_nil
    rw [List.length_append] at hm
    exact ⟨m - 1, by omega, by omega⟩
  induction h with
  | nil => exact fun m _ => decodeDetailsLoop_nil cr m
  | @detail as anys p b r any valid head tail ih =>
    intro m hm
    obtain ⟨k, rfl, hk⟩ := hfuel head hm
    have hdetails : detailsOf cr ⟨3, .bytes p⟩ = (heldIfNamed (beforeFixed as)).toList :=
      congrArg Option.toList (decodeAny_encoding cr any valid)
    rw [hround head, ih k hk, hdetails, List.filterMap_cons]
    rcases heldIfNamed (beforeFixed as) with _ | d
    · rfl
    · rfl
  | @other f anys b r head unknown tail ih =>
    intro m hm
    obtain ⟨k, rfl, hk⟩ := hfuel head hm
    rw [hround head, ih k hk, detailsOf, unknown]
    rfl

/-- What `decode_details` makes of a valid status. -/
theorem decodeDetails_encoding {anys : List (List Field)} {data : Bytes}
    (h : StatusEncoding cr anys data) :
    decodeDetails cr data = anys.filterMap fun as => heldIfNamed (beforeFixed as) :=
  decodeDetailsLoop_encoding cr h _ (Nat.le_refl _)

/-- The type that counts is text, if one is named. -/
theorem isSome_lastType_iff {as : List Field} (hvalid : ValidAny as) :
    ((lastBytes 1 as).bind fromUtf8).isSome = true ↔ NamesType as := by
  constructor
  · intro h
    obtain ⟨s, hs⟩ := Option.isSome_iff_exists.mp h
    obtain ⟨b, hb, -⟩ := Option.bind_eq_some_iff.mp hs
    obtain ⟨f, hf, hfb⟩ := List.mem_filterMap.mp (List.mem_of_getLast? hb)
    exact ⟨f, hf, by rw [hfb]; rfl⟩
  · rintro ⟨f, hf, hsome⟩
    obtain ⟨b, hb⟩ := Option.isSome_iff_exists.mp hsome
    have hne := List.ne_nil_of_mem (List.mem_filterMap.mpr ⟨f, hf, hb⟩)
    have hlast := List.getLast?_eq_some_getLast hne
    obtain ⟨g, hg, hgb⟩ := List.mem_filterMap.mp (List.getLast_mem hne)
    rw [lastBytes, hlast]
    exact hvalid g hg _ hgb

/-- Such a detail is the right one if a type is named, and what is held is right. -/
theorem heldIfNamed_eq_iff {as : List Field} (hvalid : ValidAny as) {d : ErrorDetail} :
    heldIfNamed as = some d ↔ NamesType as ∧ held as = d := by
  rw [heldIfNamed, ← isSome_lastType_iff hvalid]
  rcases (lastBytes 1 as).bind fromUtf8 with _ | s
  · simp
  · simp

theorem StatusEncoding.valid {anys : List (List Field)} {data : Bytes}
    (h : StatusEncoding cr anys data) : ∀ as ∈ anys, ValidAny as := by
  induction h with
  | nil => exact fun as has => absurd has List.not_mem_nil
  | detail any valid head tail ih => exact List.forall_mem_cons.mpr ⟨valid, ih⟩
  | other head unknown tail ih => exact ih

/-- **Exactly when the details come out right**: the fields of each `Any` before the first one
of fixed width name a type, and hold what all of them hold. -/
theorem decodeDetails_exact_iff {anys : List (List Field)} {data : Bytes}
    (h : StatusEncoding cr anys data) :
    decodeDetails cr data = anys.map held ↔
      ∀ as ∈ anys, NamesType (beforeFixed as) ∧ held (beforeFixed as) = held as := by
  rw [decodeDetails_encoding cr h, List.filterMap_eq_map_iff_forall_eq_some]
  exact forall₂_congr fun as has => heldIfNamed_eq_iff (h.valid cr as has).beforeFixed

/-! ## Any bytes at all -/

/-- What is read is the front of the input, and nothing after it is looked at. -/
structure ReadsPrefix : Prop where
  /-- a tag -/
  tag : ∀ {b r : Bytes} {n : ℕ} {w : WireType}, cr.decodeTag b = some (n, w, r) →
    ∃ t, b = t ++ r ∧ IsTag cr n w t
  /-- a number -/
  varint : ∀ {b r : Bytes} {v : ℕ}, cr.decodeVarint b = some (v, r) →
    ∃ t, b = t ++ r ∧ IsVarint cr v t

/-- What is read as a field is the bytes of one. -/
theorem readField_sound (hreads : ReadsPrefix cr) {buf rest : Bytes} {f : Field}
    (h : readField cr buf = some (f, rest)) : ∃ b, buf = b ++ rest ∧ FieldBytes cr f b := by
  rw [readField] at h
  rcases htag : cr.decodeTag buf with _ | ⟨n, w, r⟩
  · rw [htag] at h
    cases h
  · obtain ⟨t, rfl, ht⟩ := hreads.tag htag
    rw [htag] at h
    cases w with
    | varint =>
      obtain ⟨⟨v, r'⟩, hv, heq⟩ := Option.map_eq_some_iff.mp h
      obtain ⟨t', rfl, ht'⟩ := hreads.varint hv
      cases heq
      exact ⟨t ++ t', (List.append_assoc ..).symm, .varint ht ht'⟩
    | fixed64 =>
      simp only [Option.ite_none_left_eq_some] at h
      obtain ⟨hlen, heq⟩ := h
      cases heq
      refine ⟨t ++ r.take 8, by rw [List.append_assoc, List.take_append_drop], .fixed64 ht ?_⟩
      rw [List.length_take]
      omega
    | lengthDelimited =>
      obtain ⟨⟨len, r'⟩, hv, heq⟩ := Option.bind_eq_some_iff.mp h
      obtain ⟨t', rfl, ht'⟩ := hreads.varint hv
      simp only [Option.ite_none_left_eq_some] at heq
      obtain ⟨hlen, heq⟩ := heq
      cases heq
      have htake : (r'.take len).length = len := by
        rw [List.length_take]
        omega
      refine ⟨t ++ (t' ++ r'.take len), ?_, .bytes ht (htake.symm ▸ ht')⟩
      rw [List.append_assoc, List.append_assoc, List.take_append_drop]
    | startGroup => cases h
    | endGroup => cases h
    | fixed32 =>
      simp only [Option.ite_none_left_eq_some] at h
      obtain ⟨hlen, heq⟩ := h
      cases heq
      refine ⟨t ++ r.take 4, by rw [List.append_assoc, List.take_append_drop], .fixed32 ht ?_⟩
      rw [List.length_take]
      omega

/-- The walk over a status takes as many fields as there are, and its result is what they
add. -/
theorem decodeDetailsLoop_walk (hreads : ReadsPrefix cr) : ∀ (m : ℕ) (data : Bytes),
    data.length ≤ m → ∃ fs p r, data = p ++ r ∧ Encoding cr fs p ∧ readField cr r = none ∧
      decodeDetailsLoop cr m data = fs.flatMap (detailsOf cr) := by
  have hstop {data : Bytes} (hdata : readField cr data = none) {m : ℕ}
      (hloop : decodeDetailsLoop cr m data = []) : ∃ fs p r, data = p ++ r ∧ Encoding cr fs p ∧
        readField cr r = none ∧ decodeDetailsLoop cr m data = fs.flatMap (detailsOf cr) :=
    ⟨[], [], data, rfl, .nil, hdata, hloop⟩
  intro m
  induction m with
  | zero =>
    intro data hm
    obtain rfl := List.length_eq_zero_iff.mp (Nat.le_zero.mp hm)
    refine hstop ?_ rfl
    rcases hread : readField cr [] with _ | ⟨f, rest⟩
    · rfl
    · obtain ⟨b, hb, hf⟩ := readField_sound cr hreads hread
      exact absurd (List.append_eq_nil_iff.mp hb.symm).1 hf.ne_nil
  | succ m ih =>
    intro data hm
    rcases hread : readField cr data with _ | ⟨f, rest⟩
    · refine hstop hread ?_
      rw [decodeDetailsLoop_eq, hread]
      rfl
    · obtain ⟨b, rfl, hf⟩ := readField_sound cr hreads hread
      have hpos := List.length_pos_of_ne_nil hf.ne_nil
      rw [List.length_append] at hm
      obtain ⟨fs, p, r, rfl, hfs, hr, hloop⟩ := ih rest (by omega)
      refine ⟨f :: fs, b ++ p, r, (List.append_assoc ..).symm, .cons hf hfs, hr, ?_⟩
      rw [decodeDetailsLoop_eq, hread, List.flatMap_cons, ← hloop]
      rfl

/-! ## The reader of error details -/

/-- **Error details are decoded from every valid status exactly when** each `Any` names a type, and
no field of fixed width in it comes before the type and the value that count. What the writer writes is decoded
as it was meant; and of any bytes at all, the details are those in the fields of the longest
valid prefix. -/
theorem status_details (hreads : ReadsPrefix cr) :
    (∀ anys data, StatusEncoding cr anys data →
      (decodeDetails cr data = anys.map held ↔
        ∀ as ∈ anys, NamesType (beforeFixed as) ∧ held (beforeFixed as) = held as)) ∧
    (∀ err, decodeDetails cr (encode cr err) = err.details.map received) ∧
    ∀ data, ∃ fs p r, data = p ++ r ∧ Encoding cr fs p ∧
      (∀ f b r', r = b ++ r' → ¬FieldBytes cr f b) ∧
      decodeDetails cr data = fs.flatMap (detailsOf cr) := by
  refine ⟨fun _ _ h => decodeDetails_exact_iff cr h, decodeDetails_encode cr, fun data => ?_⟩
  obtain ⟨fs, p, r, hdata, hfs, hr, hloop⟩ :=
    decodeDetailsLoop_walk cr hreads _ data (Nat.le_refl _)
  refine ⟨fs, p, r, hdata, hfs, ?_, hloop⟩
  rintro f b r' rfl hf
  rw [hf.readField] at hr
  cases hr

/-! ## An instance -/

/-- What the writer writes is a tag. -/
theorem isTag_encodeTag {n : ℕ} (w : WireType) (h1 : 1 ≤ n) (h2 : n < 0x20000000) :
    IsTag cr n w (cr.encodeTag n w) :=
  fun rest => cr.decodeTag_encode n w rest h1 h2

/-- A field that the writer writes. -/
theorem fieldBytes_writeBytesField {n : ℕ} (h1 : 1 ≤ n) (h2 : n < 0x20000000) (b : Bytes) :
    FieldBytes cr ⟨n, .bytes b⟩ (writeBytesField cr n b) := by
  rw [writeBytesField, List.append_assoc]
  exact .bytes (isTag_encodeTag cr _ h1 h2) (cr.decodeVarint_encode _)

theorem varint_readsPrefix : ∀ {b r : Bytes} {v : ℕ}, Varint.decode b = some (v, r) →
    ∃ t, b = t ++ r ∧ ∀ rest, Varint.decode (t ++ rest) = some (v, rest) := by
  intro b
  induction b with
  | nil => intro r v h; cases h
  | cons x b ih =>
    intro r v h
    rw [Varint.decode] at h
    split at h
    · rename_i hlast
      cases h
      refine ⟨[x], rfl, fun rest => ?_⟩
      rw [List.singleton_append, Varint.decode, if_pos hlast]
    · rename_i hmore
      obtain ⟨⟨v', r'⟩, hv, heq⟩ := Option.map_eq_some_iff.mp h
      cases heq
      obtain ⟨t, rfl, ht⟩ := ih hv
      refine ⟨x :: t, rfl, fun rest => ?_⟩
      rw [List.cons_append, Varint.decode, if_neg hmore, ht]
      rfl

theorem std_readsPrefix : ReadsPrefix Crates.std where
  tag {b r n w} h := by
    have htag : Crates.tagOfBytes b = some (n, w, r) := h
    rw [Crates.tagOfBytes] at htag
    rcases hd : Varint.decode b with _ | ⟨v, r'⟩
    · rw [hd] at htag
      cases htag
    · obtain ⟨t, rfl, ht⟩ := varint_readsPrefix hd
      simp only [hd, Option.ite_none_left_eq_some, Option.map_eq_some_iff] at htag
      obtain ⟨hn, w', hw, heq⟩ := htag
      cases heq
      refine ⟨t, rfl, fun rest => ?_⟩
      change Crates.tagOfBytes (t ++ rest) = _
      simp only [Crates.tagOfBytes, ht, if_neg hn, hw, Option.map_some]
  varint := varint_readsPrefix

/-- An unknown field of four bytes. -/
def unknownField : Field :=
  ⟨8, .fixed32 [0, 0, 0, 0]⟩

/-- The bytes of the unknown field. -/
def unknownBytes : Bytes :=
  Crates.std.encodeTag 8 .fixed32 ++ [0, 0, 0, 0]

/-- The fields of a detail of type `a` and with the value `b`. -/
def knownFields : List Field :=
  [⟨1, .bytes [97]⟩, ⟨2, .bytes [98]⟩]

/-- The bytes of these fields, and some after them. -/
def knownBytes (rest : Bytes) : Bytes :=
  writeBytesField Crates.std 1 [97] ++ (writeBytesField Crates.std 2 [98] ++ rest)

/-- A status with the unknown field and one detail. -/
def statusBytes (any : Bytes) : Bytes :=
  unknownBytes ++ (writeBytesField Crates.std 3 any ++ [])

theorem fieldBytes_unknown : FieldBytes Crates.std unknownField unknownBytes :=
  .fixed32 (isTag_encodeTag Crates.std _ (by decide) (by decide)) rfl

theorem encoding_known {fs : List Field} {rest : Bytes} (h : Encoding Crates.std fs rest) :
    Encoding Crates.std (knownFields ++ fs) (knownBytes rest) :=
  .cons (fieldBytes_writeBytesField _ (by decide) (by decide) _)
    (.cons (fieldBytes_writeBytesField _ (by decide) (by decide) _) h)

theorem statusEncoding_one {as : List Field} {any : Bytes} (h : Encoding Crates.std as any)
    (hvalid : ValidAny as) : StatusEncoding Crates.std [as] (statusBytes any) :=
  .other fieldBytes_unknown rfl
    (.detail h hvalid (fieldBytes_writeBytesField _ (by decide) (by decide) _) .nil)

/-- With its type and value alone, or both with the unknown field, an `Any` is valid. -/
theorem validAny_known {as : List Field} (h : ∀ f ∈ as, f ∈ unknownField :: knownFields) :
    ValidAny as := by
  intro f hf b hb
  rcases List.mem_cons.mp (h f hf) with rfl | hknown
  · cases hb
  · rcases List.mem_cons.mp hknown with rfl | hvalue
    · obtain rfl := Option.some.inj hb
      rfl
    · rw [List.mem_singleton.mp hvalue] at hb
      cases hb

/-- With the unknown field at the end, the detail is decoded. -/
theorem status_details_last : decodeDetails Crates.std (statusBytes (knownBytes (unknownBytes ++ []))) =
    [⟨"a", some "Yg", none⟩] := by
  have hencoding := statusEncoding_one (encoding_known (.cons fieldBytes_unknown .nil))
    (validAny_known (by decide))
  have hlast : ∀ as ∈ [knownFields ++ [unknownField]],
      NamesType (beforeFixed as) ∧ held (beforeFixed as) = held as := by
    intro as has
    rw [List.mem_singleton.mp has]
    exact ⟨⟨⟨1, .bytes [97]⟩, List.mem_cons_self, rfl⟩, rfl⟩
  exact ((status_details Crates.std std_readsPrefix).1 _ _ hencoding).mpr hlast

/-- With the unknown field at the front, it is lost. -/
theorem fixed_first_lost :
    StatusEncoding Crates.std [unknownField :: knownFields]
        (statusBytes (unknownBytes ++ knownBytes [])) ∧
      [unknownField :: knownFields].map held = [⟨"a", some "Yg", none⟩] ∧
      decodeDetails Crates.std (statusBytes (unknownBytes ++ knownBytes [])) = [] := by
  have hencoding := statusEncoding_one (.cons fieldBytes_unknown (encoding_known .nil))
    (validAny_known (by decide))
  exact ⟨hencoding, rfl, decodeDetails_encoding Crates.std hencoding⟩

end GrpcStatus

end ConnectRpc
