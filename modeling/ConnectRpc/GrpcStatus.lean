import ConnectRpc.Crates
import ConnectRpc.Error
import ConnectRpc.Lib.Base64

/-!
# The `google.rpc.Status` message

Error details travel over gRPC as a `google.rpc.Status` protobuf message. It is
written and read by hand, field by field. `decodeDetails_encode` is the round
trip: the details come back in order, their types carrying the `Any` prefix and
their values re-encoded in the canonical alphabet.
-/

namespace ConnectRpc

open Lib

/-! ## Base64 of detail values -/

namespace detailB64

/-- Unpadded standard alphabet. -/
def encode (b : Bytes) : String :=
  String.ofList (Base64.encodeNoPad b)

/-- Padding accepted. -/
def decodeLenient (s : String) : Option Bytes :=
  (Base64.decodeNoPad s.toList).or (Base64.decodePad s.toList)

@[simp] theorem decodeLenient_encode (b : Bytes) : decodeLenient (encode b) = some b := by
  simp [decodeLenient, encode]

end detailB64

namespace GrpcStatus

variable (cr : Crates)

/-! ## Writing -/

/-- A length-delimited field. -/
def writeBytesField (fieldNumber : ℕ) (data : Bytes) : Bytes :=
  cr.encodeTag fieldNumber .lengthDelimited ++ cr.encodeVarint data.length ++ data

/-- The type of a detail as an `Any` carries it: a bare name gets the standard
prefix. -/
def anyTypeUrl (typeUrl : String) : String :=
  if '/' ∈ typeUrl.toList then typeUrl else "type.googleapis.com/" ++ typeUrl

/-- The value field of an `Any`. A value that is not valid base64 is left out. -/
def valueField : Option String → Bytes
  | none => []
  | some valueStr =>
    match detailB64.decodeLenient valueStr with
    | some valueBytes => writeBytesField cr 2 valueBytes
    | none => []

/-- A `google.protobuf.Any`. -/
def encodeAny (typeUrl : String) (value : Option String) : Bytes :=
  writeBytesField cr 1 (asBytes (anyTypeUrl typeUrl)) ++ valueField cr value

/-- The message field of a status. -/
def messageField : Option String → Bytes
  | none => []
  | some message => writeBytesField cr 2 (asBytes message)

/-- The details, each as field 3. -/
def encodeDetails (details : List ErrorDetail) : Bytes :=
  details.flatMap fun d => writeBytesField cr 3 (encodeAny cr d.typeUrl d.value)

/-- `google.rpc.Status`: the code, the message if there is one, the details. -/
def encode (err : ConnectError) : Bytes :=
  cr.encodeTag 1 .varint ++ (cr.encodeVarint err.code.grpcCode ++
    (messageField cr err.message ++ encodeDetails cr err.details))

/-! ## Reading -/

/-- The fields of an `Any` seen so far. -/
structure AnyFields where
  /-- the type -/
  typeUrl : Option String
  /-- the value -/
  value : Option Bytes

/-- The loop of `decode_any`; `none` where the source gives up on the detail. -/
def decodeAnyLoop : ℕ → Bytes → AnyFields → Option AnyFields
  | 0, _, acc => some acc
  | n + 1, buf, acc =>
    if buf = [] then some acc
    else
      match cr.decodeTag buf with
      | none => none
      | some (fieldNumber, wireType, buf) =>
        match wireType with
        | .lengthDelimited =>
          match cr.decodeVarint buf with
          | none => none
          | some (len, buf) =>
            if buf.length < len then some acc
            else if fieldNumber = 1 then
              match fromUtf8 (buf.take len) with
              | none => none
              | some s => decodeAnyLoop n (buf.drop len) { acc with typeUrl := some s }
            else if fieldNumber = 2 then
              decodeAnyLoop n (buf.drop len) { acc with value := some (buf.take len) }
            else decodeAnyLoop n (buf.drop len) acc
        | .varint =>
          match cr.decodeVarint buf with
          | none => none
          | some (_, buf) => decodeAnyLoop n buf acc
        | _ => some acc

/-- `decode_any`. -/
def decodeAny (data : Bytes) : Option ErrorDetail :=
  match decodeAnyLoop cr data.length data ⟨none, none⟩ with
  | some ⟨some typeUrl, value⟩ => some ⟨typeUrl, some (detailB64.encode (value.getD [])), none⟩
  | _ => none

/-- The loop of `decode_details`. -/
def decodeDetailsLoop : ℕ → Bytes → List ErrorDetail
  | 0, _ => []
  | n + 1, buf =>
    if buf = [] then []
    else
      match cr.decodeTag buf with
      | none => []
      | some (fieldNumber, wireType, buf) =>
        match wireType with
        | .varint =>
          match cr.decodeVarint buf with
          | none => []
          | some (_, buf) => decodeDetailsLoop n buf
        | .lengthDelimited =>
          match cr.decodeVarint buf with
          | none => []
          | some (len, buf) =>
            if buf.length < len then []
            else
              (if fieldNumber = 3 then (decodeAny cr (buf.take len)).toList else []) ++
                decodeDetailsLoop n (buf.drop len)
        | .fixed64 => if buf.length < 8 then [] else decodeDetailsLoop n (buf.drop 8)
        | .fixed32 => if buf.length < 4 then [] else decodeDetailsLoop n (buf.drop 4)
        | _ => []

/-- `decode_details`. Every field has a tag, so the length of the input bounds
the number of fields. -/
def decodeDetails (data : Bytes) : List ErrorDetail :=
  decodeDetailsLoop cr data.length data

/-! ## The round trip -/

/-- The bytes of a detail's value; an absent value is an empty message. -/
def valueBytes (value : Option String) : Bytes :=
  (value.bind detailB64.decodeLenient).getD []

/-- A detail as it comes back over gRPC. -/
def received (d : ErrorDetail) : ErrorDetail :=
  ⟨anyTypeUrl d.typeUrl, some (detailB64.encode (valueBytes d.value)), none⟩

theorem writeBytesField_ne_nil {n : ℕ} (h1 : 1 ≤ n) (h2 : n < 0x20000000) (data : Bytes) :
    writeBytesField cr n data ≠ [] := by
  intro h
  simp only [writeBytesField, List.append_eq_nil_iff] at h
  exact cr.encodeTag_ne_nil _ h1 h2 h.1.1

theorem length_le_writeBytesField {n : ℕ} (h1 : 1 ≤ n) (h2 : n < 0x20000000) (data : Bytes) :
    0 < (writeBytesField cr n data).length :=
  List.length_pos_of_ne_nil (writeBytesField_ne_nil cr h1 h2 data)

/-- A written field reads as its number, its length and its bytes. -/
theorem decode_writeBytesField {n : ℕ} (h1 : 1 ≤ n) (h2 : n < 0x20000000) (data rest : Bytes) :
    cr.decodeTag (writeBytesField cr n data ++ rest) =
        some (n, .lengthDelimited, cr.encodeVarint data.length ++ (data ++ rest)) ∧
      cr.decodeVarint (cr.encodeVarint data.length ++ (data ++ rest)) =
        some (data.length, data ++ rest) := by
  refine ⟨?_, cr.decodeVarint_encode _ _⟩
  simp only [writeBytesField, List.append_assoc]
  exact cr.decodeTag_encode n _ _ h1 h2

/-- `decode_any` on a written type field. -/
theorem decodeAnyLoop_typeUrl (m : ℕ) (s : String) (rest : Bytes) (acc : AnyFields) :
    decodeAnyLoop cr (m + 1) (writeBytesField cr 1 (asBytes s) ++ rest) acc =
      decodeAnyLoop cr m rest { acc with typeUrl := some s } := by
  obtain ⟨htag, hlen⟩ := decode_writeBytesField cr (n := 1) (by omega) (by omega)
    (asBytes s) rest
  have hne : writeBytesField cr 1 (asBytes s) ++ rest ≠ [] := by
    intro h
    exact writeBytesField_ne_nil cr (by omega) (by omega) _ (List.append_eq_nil_iff.mp h).1
  have hshort : ¬ (asBytes s ++ rest).length < (asBytes s).length := by
    rw [List.length_append]
    omega
  simp only [decodeAnyLoop, if_neg hne, htag, hlen, if_neg hshort, List.take_left, List.drop_left,
    if_true, fromUtf8_asBytes]

/-- `decode_any` on a written value field. -/
theorem decodeAnyLoop_value (m : ℕ) (b rest : Bytes) (acc : AnyFields) :
    decodeAnyLoop cr (m + 1) (writeBytesField cr 2 b ++ rest) acc =
      decodeAnyLoop cr m rest { acc with value := some b } := by
  obtain ⟨htag, hlen⟩ := decode_writeBytesField cr (n := 2) (by omega) (by omega) b rest
  have hne : writeBytesField cr 2 b ++ rest ≠ [] := by
    intro h
    exact writeBytesField_ne_nil cr (by omega) (by omega) _ (List.append_eq_nil_iff.mp h).1
  have hshort : ¬ (b ++ rest).length < b.length := by
    rw [List.length_append]
    omega
  simp only [decodeAnyLoop, if_neg hne, htag, hlen, if_neg hshort, List.take_left, List.drop_left,
    if_true, if_neg (show ¬ (2 = 1) by omega)]

theorem decodeAnyLoop_nil (m : ℕ) (acc : AnyFields) : decodeAnyLoop cr m [] acc = some acc := by
  cases m <;> rfl

/-- `decode_any` on the value field, whichever it is. -/
theorem decodeAnyLoop_valueField {m : ℕ} {v : Option String}
    (hm : (valueField cr v).length ≤ m) (acc : AnyFields) (hacc : acc.value = none) :
    ∃ b, decodeAnyLoop cr m (valueField cr v) acc = some { acc with value := b } ∧
      b.getD [] = valueBytes v := by
  have hnil : valueField cr v = [] → valueBytes v = [] →
      ∃ b, decodeAnyLoop cr m (valueField cr v) acc = some { acc with value := b } ∧
        b.getD [] = valueBytes v := by
    intro hf hb
    refine ⟨none, ?_, hb.symm⟩
    rw [hf, decodeAnyLoop_nil, ← hacc]
  rcases v with _ | s
  · exact hnil rfl rfl
  · rcases hb : detailB64.decodeLenient s with _ | b
    · exact hnil (by simp only [valueField, hb]) (by simp [valueBytes, hb])
    · have hf : valueField cr (some s) = writeBytesField cr 2 b := by simp only [valueField, hb]
      have hpos := length_le_writeBytesField cr (n := 2) (by omega) (by omega) b
      rw [hf] at hm
      obtain ⟨k, rfl⟩ : ∃ k, m = k + 1 := ⟨m - 1, by omega⟩
      have hstep := decodeAnyLoop_value cr k b [] acc
      rw [List.append_nil] at hstep
      exact ⟨some b, by rw [hf, hstep, decodeAnyLoop_nil], by simp [valueBytes, hb]⟩

/-- One detail comes back as `received`. -/
theorem decodeAny_encodeAny (d : ErrorDetail) :
    decodeAny cr (encodeAny cr d.typeUrl d.value) = some (received d) := by
  have hpos := length_le_writeBytesField cr (n := 1) (by omega) (by omega)
    (asBytes (anyTypeUrl d.typeUrl))
  have hlen : (encodeAny cr d.typeUrl d.value).length =
      (writeBytesField cr 1 (asBytes (anyTypeUrl d.typeUrl))).length +
        (valueField cr d.value).length := List.length_append
  obtain ⟨m, hm⟩ : ∃ m, (encodeAny cr d.typeUrl d.value).length = m + 1 :=
    ⟨(encodeAny cr d.typeUrl d.value).length - 1, by omega⟩
  obtain ⟨v, hv, hval⟩ := decodeAnyLoop_valueField cr (m := m) (v := d.value)
    (by omega) ⟨some (anyTypeUrl d.typeUrl), none⟩ rfl
  have hloop : decodeAnyLoop cr (encodeAny cr d.typeUrl d.value).length
      (encodeAny cr d.typeUrl d.value) ⟨none, none⟩ = some ⟨some (anyTypeUrl d.typeUrl), v⟩ := by
    rw [hm, encodeAny, decodeAnyLoop_typeUrl]
    exact hv
  simp only [decodeAny, hloop, received, hval]

/-- `decode_details` on a written field: only field 3 counts. -/
theorem decodeDetailsLoop_field {n : ℕ} (h1 : 1 ≤ n) (h2 : n < 0x20000000) (m : ℕ)
    (data rest : Bytes) :
    decodeDetailsLoop cr (m + 1) (writeBytesField cr n data ++ rest) =
      (if n = 3 then (decodeAny cr data).toList else []) ++ decodeDetailsLoop cr m rest := by
  obtain ⟨htag, hlen⟩ := decode_writeBytesField cr h1 h2 data rest
  have hne : writeBytesField cr n data ++ rest ≠ [] := by
    intro h
    exact writeBytesField_ne_nil cr h1 h2 _ (List.append_eq_nil_iff.mp h).1
  have hshort : ¬ (data ++ rest).length < data.length := by
    rw [List.length_append]
    omega
  simp only [decodeDetailsLoop, if_neg hne, htag, hlen, if_neg hshort, List.take_left,
    List.drop_left]

theorem decodeDetailsLoop_nil (m : ℕ) : decodeDetailsLoop cr m [] = [] := by
  cases m <;> rfl

/-- The details loop, by induction on the details; each takes at least one byte,
so fuel for every byte is fuel for every field. -/
theorem decodeDetailsLoop_encodeDetails : ∀ (ds : List ErrorDetail) (m : ℕ),
    (encodeDetails cr ds).length ≤ m →
      decodeDetailsLoop cr m (encodeDetails cr ds) = ds.map received := by
  intro ds
  induction ds with
  | nil => intro m _; exact decodeDetailsLoop_nil cr m
  | cons d ds ih =>
    intro m hm
    have hcons : encodeDetails cr (d :: ds) =
        writeBytesField cr 3 (encodeAny cr d.typeUrl d.value) ++ encodeDetails cr ds := rfl
    have hpos := length_le_writeBytesField cr (n := 3) (by omega) (by omega)
      (encodeAny cr d.typeUrl d.value)
    rw [hcons, List.length_append] at hm
    obtain ⟨m, rfl⟩ : ∃ k, m = k + 1 := ⟨m - 1, by omega⟩
    rw [hcons, decodeDetailsLoop_field cr (by omega) (by omega), if_pos rfl, decodeAny_encodeAny,
      ih m (by omega)]
    rfl

/-- The message field is skipped. -/
theorem decodeDetailsLoop_messageField {m : ℕ} (message : Option String) (ds : List ErrorDetail)
    (hm : (messageField cr message ++ encodeDetails cr ds).length ≤ m) :
    decodeDetailsLoop cr m (messageField cr message ++ encodeDetails cr ds) =
      ds.map received := by
  rcases message with _ | message
  · exact decodeDetailsLoop_encodeDetails cr ds m hm
  · have hpos := length_le_writeBytesField cr (n := 2) (by omega) (by omega)
      (asBytes message)
    have hf : messageField cr (some message) = writeBytesField cr 2 (asBytes message) := rfl
    rw [hf] at hm ⊢
    rw [List.length_append] at hm
    obtain ⟨k, rfl⟩ : ∃ k, m = k + 1 := ⟨m - 1, by omega⟩
    rw [decodeDetailsLoop_field cr (by omega) (by omega), if_neg (by omega), List.nil_append]
    exact decodeDetailsLoop_encodeDetails cr ds k (by omega)

/-- **The details round trip.** -/
theorem decodeDetails_encode (err : ConnectError) :
    decodeDetails cr (encode cr err) = err.details.map received := by
  have htag := cr.decodeTag_encode 1 .varint (cr.encodeVarint err.code.grpcCode ++
    (messageField cr err.message ++ encodeDetails cr err.details)) (by omega) (by omega)
  have hvar := cr.decodeVarint_encode err.code.grpcCode
    (messageField cr err.message ++ encodeDetails cr err.details)
  have hlen := cr.decodeTag_shorter htag
  have hlen2 := cr.decodeVarint_shorter hvar
  have hne : encode cr err ≠ [] := by
    intro h
    exact cr.encodeTag_ne_nil .varint (Nat.le_refl 1) (by omega) (List.append_eq_nil_iff.mp h).1
  have henc : encode cr err = cr.encodeTag 1 .varint ++ (cr.encodeVarint err.code.grpcCode ++
    (messageField cr err.message ++ encodeDetails cr err.details)) := rfl
  rw [← henc] at htag hlen
  obtain ⟨m, hm⟩ : ∃ m, (encode cr err).length = m + 1 :=
    ⟨(encode cr err).length - 1, by omega⟩
  rw [decodeDetails, hm]
  simp only [decodeDetailsLoop, if_neg hne, htag, hvar]
  exact decodeDetailsLoop_messageField cr _ _ (by omega)

end GrpcStatus

end ConnectRpc
