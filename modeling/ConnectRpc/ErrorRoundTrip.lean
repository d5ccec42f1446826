import ConnectRpc.ErrorMetadata
import ConnectRpc.ErrorResponse
import ConnectRpc.RequestRoundTrip
import ConnectRpc.TrailerValues
import ConnectRpc.UnaryResponse
import Mathlib.Data.List.Forall2

/-!
# Errors end to end

An error goes from a handler to the client in a JSON body, in an END_STREAM record, in HTTP
trailers, in a text block, or in the head of a response. A handler returns it
(`FailedCall.returned`: one of the renderings of `ErrorResponse`) or yields it in a stream
(`FailedCall.yielded`: the terminal frame of `ServerStream`), and the client has a parser for
each.

Each way to write an error has a lemma `comesBack_...`, which says what is read of it: the code,
the message and the details. A text block trims the blanks off the ends of a message. The head of
a stream of gRPC has no details, and the client does not look for them in the trailers when there
is an error in the head.
-/

namespace ConnectRpc

open Lib

variable (cr : Crates) {α : Type}

/-! ## What comes back -/

/-- The name of a type, without the prefix that an `Any` may give it. -/
def typeName (typeUrl : String) : List Char :=
  (typeUrl.toList.dropPrefix? "type.googleapis.com/".toList).getD typeUrl.toList

/-- Two details that say the same: the type up to its prefix, and the bytes of the value. -/
structure SameDetail (d d' : ErrorDetail) : Prop where
  /-- the type -/
  type : typeName d.typeUrl = typeName d'.typeUrl
  /-- the value, an absent one being an empty one -/
  value : GrpcStatus.valueBytes d.value = GrpcStatus.valueBytes d'.value

/-- The prefix of an `Any` does not change the name. -/
theorem typeName_anyTypeUrl (s : String) : typeName (GrpcStatus.anyTypeUrl s) = typeName s := by
  rw [GrpcStatus.anyTypeUrl]
  by_cases hslash : '/' ∈ s.toList
  · rw [if_pos hslash]
  · rw [if_neg hslash]
    have hadded : typeName ("type.googleapis.com/" ++ s) = s.toList := by
      rw [typeName, String.toList_append, List.dropPrefix?_append_of_beq _ (beq_self_eq_true _),
        Option.getD_some]
    -- the prefix has a slash, and the name has none
    have hown : s.toList.dropPrefix? "type.googleapis.com/".toList = none := by
      rw [Option.eq_none_iff_forall_ne_some]
      intro rest h
      obtain ⟨p, hp, hbeq⟩ := List.dropPrefix?_eq_some_iff.mp h
      obtain rfl : p = "type.googleapis.com/".toList := by simpa using hbeq
      apply hslash
      rw [hp]
      exact List.mem_append_left _ (by decide)
    rw [hadded, typeName, hown, Option.getD_none]

/-- A detail comes back over gRPC. -/
theorem sameDetail_received (d : ErrorDetail) : SameDetail d (GrpcStatus.received d) where
  type := (typeName_anyTypeUrl d.typeUrl).symm
  value := by
    have hvalue : (GrpcStatus.received d).value =
        some (detailB64.encode (GrpcStatus.valueBytes d.value)) := rfl
    rw [hvalue]
    simp [GrpcStatus.valueBytes]

/-- A detail comes back over Connect. -/
theorem sameDetail_rounded (d : ErrorDetail) : SameDetail d (d.rounded cr) :=
  ⟨rfl, rfl⟩

/-- A list of details comes back when each of them does. -/
theorem forall₂_sameDetail {f : ErrorDetail → ErrorDetail} (h : ∀ d, SameDetail d (f d))
    (ds : List ErrorDetail) : List.Forall₂ SameDetail ds (ds.map f) := by
  rw [List.forall₂_map_right_iff]
  exact List.forall₂_same.mpr fun d _ => h d

/-- The text of a message; an absent message is an empty one. -/
def ConnectError.text (e : ConnectError) : String :=
  e.message.getD ""

/-- What arrives of an error: its code; its message, which a text block may trim; its details,
if they are not left behind. -/
structure ComesBack (trims drops : Bool) (err e : ConnectError) : Prop where
  /-- the code -/
  code : e.code = err.code
  /-- the message -/
  message : (trims = true → Trimmed (· = ' ') err.text.toList) → e.text = err.text
  /-- the details -/
  details : (drops = true → err.details = []) → List.Forall₂ SameDetail err.details e.details

section ComesBack

variable {trims drops : Bool} {err e : ConnectError}

/-- What is attached to an error does not count. -/
theorem ComesBack.attach (h : ComesBack trims drops err e) (headers trailers : HeaderMap) :
    ComesBack trims drops err ((e.setResponseHeaders headers).setTrailers trailers) :=
  ⟨h.code, h.message, h.details⟩

theorem ComesBack.withHeaders (h : ComesBack trims drops err e) (headers : HeaderMap) :
    ComesBack trims drops err (e.setResponseHeaders headers) :=
  ⟨h.code, h.message, h.details⟩

/-- Less may be asked for. -/
theorem ComesBack.weaken (h : ComesBack false false err e) (trims drops : Bool) :
    ComesBack trims drops err e :=
  ⟨h.code, fun _ => h.message Bool.noConfusion, fun _ => h.details Bool.noConfusion⟩

end ComesBack

/-! ## A status in a header map -/

/-- A value that is built from printable text reads as that text. -/
theorem HeaderValue.toStr_of_fromStr {o : Bool} {s : String} {v : HeaderValue}
    (h : HeaderValue.fromStr o s = some v) (hvisible : v.visible = true) : v.toStr = some s := by
  have hsome := v.toStr_isSome
  rw [hvisible] at hsome
  obtain ⟨t, ht⟩ := Option.isSome_iff_exists.mp hsome
  have hbytes : asBytes t = asBytes s :=
    (HeaderValue.asBytes_toStr ht).trans (HeaderValue.bytes_of_fromStr h)
  have htext : some t = some s := by
    rw [← fromUtf8_asBytes t, hbytes, fromUtf8_asBytes]
  rw [ht, htext]

/-- The number of a code reads as it was written. -/
theorem statusValue_grpcCode (code : ErrorCode) :
    statusValue (.ofNat code.grpcCode) = some code.grpcCode := by
  cases code <;> rfl

/-- A value under a name that the library writes is printable. -/
theorem visible_of_statusEntries {err : ConnectError} {n : HeaderName} {v : HeaderValue}
    (h : (statusEntries cr (some err)).getAll n = [v]) : v.visible = true := by
  apply visible_statusEntries cr (some err) n
  rw [h]
  exact List.mem_singleton.mpr rfl

theorem visible_messageValue {err : ConnectError} {v : HeaderValue}
    (h : messageValue cr err = some v) : v.visible = true := by
  apply @visible_of_statusEntries cr err hdr.grpcMessage
  rw [getAll_statusEntries_message, outcomeMessage, Option.bind_some, h]
  rfl

theorem visible_detailsValue {err : ConnectError} {v : HeaderValue}
    (h : detailsValue cr err = some v) : v.visible = true := by
  apply @visible_of_statusEntries cr err hdr.grpcStatusDetailsBin
  rw [getAll_statusEntries_details, outcomeDetails, Option.bind_some, h]
  rfl

/-- The message is read as it was. -/
theorem statusMessage_eq {m : HeaderMap} {err : ConnectError}
    (h : m.get hdr.grpcMessage = messageValue cr err) :
    (statusMessage cr m).getD "" = err.text := by
  rw [statusMessage, h, ConnectError.text]
  rcases hm : err.message with _ | message
  · rw [messageValue, hm]
    rfl
  · obtain ⟨v, hv, -⟩ := messageValue_eq cr hm
    have hvisible := visible_messageValue cr hv
    rw [hv]
    rw [messageValue, hm, Option.bind_some] at hv
    rw [Option.bind_some, HeaderValue.toStr_of_fromStr hv hvisible, Option.map_some,
      grpcPercentDecode_encode]

/-- So are the details. -/
theorem statusDetails_eq {m : HeaderMap} {err : ConnectError}
    (h : m.get hdr.grpcStatusDetailsBin = detailsValue cr err) :
    statusDetails cr m = err.details.map GrpcStatus.received := by
  obtain ⟨v, hv, -⟩ := detailsValue_eq cr err
  have hvisible := visible_detailsValue cr hv
  rw [statusDetails, h, hv]
  rw [detailsValue] at hv
  rw [Option.bind_some, HeaderValue.toStr_of_fromStr hv hvisible]
  -- the value has no padding: it is read by the second engine, unless it needs none
  have hdecode : (Base64.decodePad (Base64.encodeNoPad (GrpcStatus.encode cr err))).or
      (Base64.decodeNoPad (Base64.encodeNoPad (GrpcStatus.encode cr err))) =
        some (GrpcStatus.encode cr err) := by
    rcases Base64.decodePad_encodeNoPad (GrpcStatus.encode cr err) with hpad | hpad
    · rw [hpad]
      rfl
    · rw [hpad, Base64.decodeNoPad_encodeNoPad]
      rfl
  simp only [String.toList_ofList, hdecode]
  exact GrpcStatus.decodeDetails_encode cr err

/-- A status in a header map is read as an error. -/
theorem parseGrpcError_of_status {m : HeaderMap} {err : ConnectError}
    (h : m.get hdr.grpcStatus = some (.ofNat err.code.grpcCode)) :
    parseGrpcErrorFromTrailers cr m = some
      ({ ConnectError.new err.code ((statusMessage cr m).getD "") with
        details := statusDetails cr m }.setTrailers (errorMetadataFromTrailers m)) := by
  obtain ⟨hpos, -⟩ := err.code.grpcCode_range
  have hcode := ErrorCode.fromGrpcCode_grpcCode err.code
  have hvalue := statusValue_grpcCode err.code
  rw [parseGrpcErrorFromTrailers, h]
  simp only [hvalue]
  revert hpos hcode
  generalize err.code.grpcCode = k
  intro hpos hcode
  cases k with
  | zero => cases hpos
  | succ k =>
    simp only [hcode]
    rfl

/-- Two values of a status, or of a part of one, that say what the error says. -/
theorem comesBack_of_status {trims drops : Bool} {m : HeaderMap} {err : ConnectError}
    (hstatus : m.get hdr.grpcStatus = some (.ofNat err.code.grpcCode))
    (hmessage : (trims = true → Trimmed (· = ' ') err.text.toList) →
      m.get hdr.grpcMessage = messageValue cr err)
    (hdetails : drops = false → m.get hdr.grpcStatusDetailsBin = detailsValue cr err)
    (hdropped : drops = true → m.get hdr.grpcStatusDetailsBin = none) :
    ∃ e, parseGrpcErrorFromTrailers cr m = some e ∧ ComesBack trims drops err e := by
  refine ⟨_, parseGrpcError_of_status cr hstatus, rfl, fun htrims => ?_, fun hdrops => ?_⟩
  · exact statusMessage_eq cr (hmessage htrims)
  · change List.Forall₂ SameDetail err.details (statusDetails cr m)
    cases drops with
    | false =>
      rw [statusDetails_eq cr (hdetails rfl)]
      exact forall₂_sameDetail sameDetail_received err.details
    | true =>
      rw [hdrops rfl, statusDetails, hdropped rfl]
      exact .nil

/-! ## A message as text -/

/-- The bytes a character of a message is written as. -/
def messageBytes (c : Char) : Bytes :=
  (percentEncode GRPC_MESSAGE_ENCODE_SET (String.utf8EncodeChar c)).map byteOfChar

theorem asBytes_grpcPercentEncode (m : String) :
    asBytes (grpcPercentEncode m) = m.toList.flatMap messageBytes := by
  have hascii : ∀ c ∈ percentEncode GRPC_MESSAGE_ENCODE_SET (asBytes m), asciiChar c = true :=
    fun c hc => percentEncode_ascii grpcMessageEncodeSet_high hc
  rw [grpcPercentEncode, asBytes, String.toList_ofList, utf8_ascii hascii, percentEncode, asBytes,
    utf8, List.flatMap_assoc, List.map_flatMap]
  rfl

/-- Only a blank is written as one. -/
theorem messageBytes_not_blank {c : Char} (h : c ≠ ' ') :
    messageBytes c ≠ [] ∧ ∀ b ∈ messageBytes c, b ≠ 32 := by
  have hblank : (32 : UInt8) ∉ String.utf8EncodeChar c := by
    intro hmem
    obtain ⟨a, r, har⟩ := List.append_of_mem hmem
    have hutf8 : utf8 [c] = a ++ 32 :: r := by
      rw [utf8_cons, utf8_nil, List.append_nil, har]
    -- a byte below 128 is a character of its own
    obtain ⟨ds, es, hcs, -, -⟩ := exists_of_utf8_eq (by decide) hutf8
    rcases ds with _ | ⟨d, ds⟩
    · exact h (List.cons.inj hcs).1
    · have hlen := congrArg List.length hcs
      simp at hlen
  have hhex : ∀ n < 16, byteOfChar (hexDigit n) ≠ 32 := by decide
  refine ⟨?_, ?_⟩
  · obtain ⟨y, hy⟩ := List.exists_mem_of_ne_nil _ (String.utf8EncodeChar_ne_nil (c := c))
    intro hnil
    have hbyte := List.flatMap_eq_nil_iff.mp (List.map_eq_nil_iff.mp hnil) y hy
    rw [percentEncodeByte] at hbyte
    split at hbyte
    · cases hbyte
    · cases hbyte
  · intro b hb
    obtain ⟨x, hx, rfl⟩ := List.mem_map.mp hb
    obtain ⟨y, hy, hxy⟩ := List.mem_flatMap.mp hx
    have hlt := y.toNat_lt
    rw [percentEncodeByte] at hxy
    split at hxy
    · simp only [List.mem_cons, List.not_mem_nil, or_false] at hxy
      rcases hxy with rfl | rfl | rfl
      · decide
      · exact hhex _ (by omega)
      · exact hhex _ (by omega)
    · rename_i hplain
      obtain rfl := List.mem_singleton.mp hxy
      have hlow : y < 128 := by
        by_contra hhigh
        exact hplain (grpcMessageEncodeSet_high y (UInt8.not_lt.mp hhigh))
      rw [byteOfChar_charOfByte hlow]
      rintro rfl
      exact hblank hy

/-- A value without blanks at its ends is plain. -/
theorem plain_of_trimmed {v : HeaderValue} (hrange : ∀ b ∈ v.bytes, 32 ≤ b ∧ b < 127)
    (h : Trimmed (· = 32) v.bytes) : v.plain := by
  obtain ⟨hfirst, hlast⟩ := h
  refine ⟨hrange, fun h0 => ?_, fun h0 => ?_⟩
  · rw [h0] at hfirst
    cases hfirst
  · rw [h0] at hlast
    cases hlast

/-- A message without blanks at its ends is written as a plain value. -/
theorem plain_messageValue {err : ConnectError} {v : HeaderValue}
    (h : messageValue cr err = some v) (htrimmed : Trimmed (· = ' ') err.text.toList) :
    v.plain := by
  rw [ConnectError.text] at htrimmed
  rw [messageValue] at h
  obtain ⟨m, hm, hv⟩ := Option.bind_eq_some_iff.mp h
  rw [hm, Option.getD_some] at htrimmed
  have hbytes := HeaderValue.bytes_of_fromStr hv
  refine plain_of_trimmed ?_ ?_
  · rw [hbytes]
    exact grpcPercentEncode_visible m
  · rw [hbytes, asBytes_grpcPercentEncode]
    refine trimmed_flatMap (fun c hc => ?_) htrimmed
    obtain ⟨hne, hall⟩ := messageBytes_not_blank (of_decide_eq_false hc)
    exact ⟨hne, fun b hb => decide_eq_false (hall b hb)⟩

/-- Details are written as a plain value. -/
theorem plain_detailsValue {err : ConnectError} {v : HeaderValue}
    (h : detailsValue cr err = some v) : v.plain := by
  have hchar : ∀ n < 64, asciiChar (Base64.char n) = true ∧ 33 ≤ byteOfChar (Base64.char n) ∧
      byteOfChar (Base64.char n) < 127 := by decide
  rw [detailsValue] at h
  have hbytes := HeaderValue.bytes_of_fromStr h
  have hascii : ∀ c ∈ Base64.encodeNoPad (GrpcStatus.encode cr err), asciiChar c = true := by
    intro c hc
    obtain ⟨n, hn, rfl⟩ := Base64.mem_encodeNoPad hc
    exact (hchar n hn).1
  have hrange : ∀ b ∈ v.bytes, 33 ≤ b ∧ b < 127 := by
    intro b hb
    rw [hbytes, asBytes, String.toList_ofList, utf8_ascii hascii] at hb
    obtain ⟨c, hc, rfl⟩ := List.mem_map.mp hb
    obtain ⟨n, hn, rfl⟩ := Base64.mem_encodeNoPad hc
    exact (hchar n hn).2
  have hblank : (32 : UInt8) ∉ v.bytes := by
    intro hmem
    exact absurd (hrange 32 hmem).1 (by decide)
  refine ⟨fun b hb => ?_, fun h0 => hblank (List.mem_of_head? h0),
    fun h0 => hblank (List.mem_of_getLast? h0)⟩
  obtain ⟨hlow, hhigh⟩ := hrange b hb
  exact ⟨UInt8.le_trans (by decide) hlow, hhigh⟩

/-- So is a code. -/
theorem plain_grpcCode (code : ErrorCode) : (HeaderValue.ofNat code.grpcCode).plain := by
  cases code <;> decide

/-! ## The trailers of an error -/

/-- The handler's trailers bring no message in place of one that the error does not have. -/
def NoOtherMessage (err : ConnectError) (trailers : HeaderMap) : Prop :=
  err.message = none → trailers.getAll hdr.grpcMessage = []

section Block

variable {err : ConnectError} {trailers : HeaderMap}

/-- The block has the entries of the error in front of the handler's. -/
theorem getAll_errorBlock (hbare : err.trailers = .empty) (n : HeaderName) :
    (grpcTrailerBlock cr (some err) trailers).getAll n =
      (statusEntries cr (some err)).getAll n ++ trailers.getAll n := by
  have hmerged : mergedTrailers (some err) trailers = trailers := by
    rw [mergedTrailers, hbare]
    rfl
  rw [getAll_grpcTrailerBlock, hmerged]

theorem get_status_errorBlock :
    (grpcTrailerBlock cr (some err) trailers).get hdr.grpcStatus =
      some (.ofNat err.code.grpcCode) :=
  get_grpcStatus_grpcTrailerBlock cr (some err) trailers

theorem get_message_errorBlock (hbare : err.trailers = .empty)
    (hmessage : NoOtherMessage err trailers) :
    (grpcTrailerBlock cr (some err) trailers).get hdr.grpcMessage = messageValue cr err := by
  rw [HeaderMap.get, getAll_errorBlock cr hbare, getAll_statusEntries_message, outcomeMessage,
    Option.bind_some]
  rcases hm : err.message with _ | m
  · rw [hmessage hm, messageValue, hm]
    rfl
  · obtain ⟨v, hv, -⟩ := messageValue_eq cr hm
    rw [hv]
    rfl

theorem get_details_errorBlock (hbare : err.trailers = .empty) :
    (grpcTrailerBlock cr (some err) trailers).get hdr.grpcStatusDetailsBin =
      detailsValue cr err := by
  obtain ⟨v, hv, -⟩ := detailsValue_eq cr err
  rw [HeaderMap.get, getAll_errorBlock cr hbare, getAll_statusEntries_details, outcomeDetails,
    Option.bind_some, hv]
  rfl

/-- **HTTP trailers** bring all of an error. -/
theorem comesBack_trailers (hbare : err.trailers = .empty)
    (hmessage : NoOtherMessage err trailers) :
    ∃ e, parseGrpcErrorFromTrailers cr (grpcTrailerBlock cr (some err) trailers) = some e ∧
      ComesBack false false err e :=
  comesBack_of_status cr (get_status_errorBlock cr)
    (fun _ => get_message_errorBlock cr hbare hmessage)
    (fun _ => get_details_errorBlock cr hbare) (fun h => by cases h)

theorem HeaderMap.get_cons (e : HeaderName × HeaderValue) (es : List (HeaderName × HeaderValue))
    (n : HeaderName) :
    HeaderMap.get ⟨e :: es⟩ n = if e.1 = n then some e.2 else HeaderMap.get ⟨es⟩ n := by
  rw [HeaderMap.get, HeaderMap.getAll_cons, HeaderMap.get]
  split <;> rfl

/-- What the first line under a name is read as, if its value is plain. -/
theorem get_receivedEntries {es : List (HeaderName × HeaderValue)} {n : HeaderName}
    (h : ∀ v, HeaderMap.get ⟨es⟩ n = some v → v.plain) :
    HeaderMap.get ⟨es.filterMap (receivedEntry cr)⟩ n = HeaderMap.get ⟨es⟩ n := by
  induction es with
  | nil => rfl
  | cons e es ih =>
    obtain ⟨k, v⟩ := e
    rw [HeaderMap.get_cons] at h ⊢
    by_cases hk : k = n
    · subst hk
      rw [if_pos rfl] at h ⊢
      rw [List.filterMap_cons_some (receivedEntry_of_plain cr k (h v rfl)), HeaderMap.get_cons,
        if_pos rfl]
    · rw [if_neg hk] at h ⊢
      rcases hr : receivedEntry cr (k, v) with _ | f
      · -- a line that is not read
        rw [List.filterMap_cons_none hr]
        exact ih h
      · rw [List.filterMap_cons_some hr, HeaderMap.get_cons, name_of_receivedEntry cr hr,
          if_neg hk]
        exact ih h

/-- The map that a text block is read into. -/
def receivedBlock (m : HeaderMap) : HeaderMap :=
  appendCapped cr .empty (m.entries.filterMap (receivedEntry cr))

/-- The names of the block are those of a status and those of the trailers. -/
theorem mem_errorBlock (hbare : err.trailers = .empty) {e : HeaderName × HeaderValue}
    (h : e ∈ (grpcTrailerBlock cr (some err) trailers).entries) :
    e.1 ∈ [hdr.grpcStatus, hdr.grpcMessage, hdr.grpcStatusDetailsBin] ∨ e.1 ∈ trailers.names := by
  by_cases hown : e.1 ∈ [hdr.grpcStatus, hdr.grpcMessage, hdr.grpcStatusDetailsBin]
  · exact .inl hown
  · refine .inr (HeaderMap.mem_names.mpr ?_)
    have hnone : (statusEntries cr (some err)).getAll e.1 = [] := by
      simp only [List.mem_cons, List.not_mem_nil, or_false, not_or] at hown
      obtain ⟨hstatus, hmessage, hdetails⟩ := hown
      simp only [statusEntries, HeaderMap.getAll_insertOpt, HeaderMap.getAll_insert,
        Ne.symm hstatus, Ne.symm hmessage, Ne.symm hdetails, false_and, if_false,
        HeaderMap.getAll_empty]
    have hall := List.ne_nil_of_mem (HeaderMap.mem_getAll.mpr h)
    rw [getAll_errorBlock cr hbare, hnone] at hall
    exact hall

/-- The first value under a name is read from a text block, if it is plain. -/
theorem get_receivedBlock (hbare : err.trailers = .empty)
    (hroom : 3 + trailers.nameCount < cr.headerCap) {n : HeaderName}
    (h : ∀ v, (grpcTrailerBlock cr (some err) trailers).get n = some v → v.plain) :
    (receivedBlock cr (grpcTrailerBlock cr (some err) trailers)).get n =
      (grpcTrailerBlock cr (some err) trailers).get n := by
  have hnames : ∀ e ∈ (grpcTrailerBlock cr (some err) trailers).entries.filterMap
      (receivedEntry cr), e.1 ∈ [hdr.grpcStatus, hdr.grpcMessage, hdr.grpcStatusDetailsBin] ∨
        e.1 ∈ trailers.names := by
    intro e he
    obtain ⟨f, hf, hr⟩ := List.mem_filterMap.mp he
    rw [name_of_receivedEntry cr hr]
    exact mem_errorBlock cr hbare hf
  have hle := HeaderMap.nameCount_appendAll_le hnames
  have hread := get_receivedEntries cr h
  rw [receivedBlock, appendCapped_of_room cr (room_of_nameCount (Nat.lt_of_le_of_lt hle hroom)),
    HeaderMap.get, HeaderMap.getAll_appendAll, HeaderMap.getAll_empty, List.nil_append]
  exact hread

/-- The code is read from a text block. -/
theorem get_status_receivedBlock (hbare : err.trailers = .empty)
    (hroom : 3 + trailers.nameCount < cr.headerCap) :
    (receivedBlock cr (grpcTrailerBlock cr (some err) trailers)).get hdr.grpcStatus =
      some (.ofNat err.code.grpcCode) := by
  have hstatus : (grpcTrailerBlock cr (some err) trailers).get hdr.grpcStatus = _ :=
    get_status_errorBlock cr
  rw [get_receivedBlock cr hbare hroom, hstatus]
  intro v hv
  obtain rfl := Option.some.inj (hstatus.symm.trans hv)
  exact plain_grpcCode err.code

/-- **A text block** brings an error with the blanks at the ends of its message trimmed off. -/
theorem comesBack_block (hbare : err.trailers = .empty) (hmessage : NoOtherMessage err trailers)
    (hroom : 3 + trailers.nameCount < cr.headerCap) :
    ∃ e, parseGrpcErrorFromTrailers cr
        (receivedBlock cr (grpcTrailerBlock cr (some err) trailers)) = some e ∧
      ComesBack true false err e := by
  have hdetails : (grpcTrailerBlock cr (some err) trailers).get hdr.grpcStatusDetailsBin = _ :=
    get_details_errorBlock cr hbare
  have hvalue := get_message_errorBlock cr hbare hmessage
  refine comesBack_of_status cr (get_status_receivedBlock cr hbare hroom) (fun htrimmed => ?_)
    (fun _ => ?_) (fun h => by cases h)
  · rw [get_receivedBlock cr hbare hroom, hvalue]
    intro v hv
    exact plain_messageValue cr (hvalue.symm.trans hv) (htrimmed rfl)
  · rw [get_receivedBlock cr hbare hroom, hdetails]
    intro v hv
    exact plain_detailsValue cr (hdetails.symm.trans hv)

end Block

/-! ## The records of Connect -/

/-- An error as the client reads it in a record. -/
def ConnectError.record (err : ConnectError) : ClientError :=
  ⟨some err.code.asStr, err.message, err.details.map (ErrorDetail.rounded cr)⟩

/-- **The body of a unary response** brings all of an error. -/
theorem comesBack_toConnectError (err : ConnectError) (status : StatusCode) :
    ComesBack false false err ((err.record cr).toConnectError status) where
  code := by
    rw [ClientError.toConnectError, ConnectError.record]
    simp
  message _ := rfl
  details _ := forall₂_sameDetail (sameDetail_rounded cr) err.details

/-- **An END_STREAM** brings all of an error. -/
theorem comesBack_endStream (err : ConnectError) :
    ComesBack false false err (endStreamErrorToConnectError (err.record cr)) where
  code := by
    rw [endStreamErrorToConnectError, ConnectError.record]
    simp
  message _ := rfl
  details _ := forall₂_sameDetail (sameDetail_rounded cr) err.details

/-! ## The terminal frame of an error -/

/-- Whether a client can read the terminal frame of an error: an END_STREAM record is within
its limit on messages and not nested too deep; a text block is within the limit on trailer
frames, is text, and has few enough names. Next to the status of an error without a message
the handler sends none of its own. -/
def ErrorReadable (protocol : Protocol) (limit : ℕ) (err : ConnectError) (trailers : HeaderMap) :
    Prop :=
  match protocol with
  | .connect =>
    ((EndStreamResponse.forError err trailers).toJson cr).length ≤ u32Max ∧
      ((EndStreamResponse.forError err trailers).toJson cr).length ≤ limit ∧
      ((EndStreamResponse.forError err trailers).toJsonValue cr).depth ≤ cr.jsonDepth
  | .grpc => NoOtherMessage err trailers
  | .grpcWeb =>
    NoOtherMessage err trailers ∧
      (trailerPayload (grpcTrailerBlock cr (some err) trailers)).length ≤
        MAX_GRPC_WEB_TRAILER_SIZE ∧
      AllText trailers ∧ 3 + trailers.nameCount < cr.headerCap

/-- A status that is an error ends the stream with it. -/
theorem classifyGrpcEnd_error {t : StreamSetup α} {m : HeaderMap} {e : ConnectError}
    (h : parseGrpcErrorFromTrailers cr m = some e) (saw : Bool) :
    t.classifyGrpcEnd cr saw (some m) = ⟨some e, some m⟩ := by
  rw [StreamSetup.classifyGrpcEnd, Option.bind_some, h]

/-- The merged block of an error is text when the handler's trailers are. -/
theorem allText_errorBlock {err : ConnectError} {trailers : HeaderMap}
    (hbare : err.trailers = .empty) (h : AllText trailers) :
    AllText (grpcTrailerBlock cr (some err) trailers) := by
  apply (allText_grpcTrailerBlock cr (some err) trailers).mpr
  rw [mergedTrailers, hbare]
  exact h

/-- **The terminal frame of an error** is read as that error. -/
theorem readTerminal_error {t : StreamSetup α} {err : ConnectError} {trailers : HeaderMap}
    (hbare : err.trailers = .empty)
    (h : ErrorReadable cr t.protocol t.maxMessageSize err trailers) (saw : Bool) :
    ∃ e received, t.readTerminal cr saw (t.protocol.finalizer.terminal cr (some err) trailers) =
        ([], ⟨some e, received⟩) ∧ ComesBack (t.protocol = .grpcWeb) false err e := by
  rcases hp : t.protocol with _ | _ | _
  · simp only [hp, ErrorReadable] at h
    obtain ⟨hsize, hlimit, hdepth⟩ := h
    refine ⟨_, (EndStreamResponse.walkedMetadata cr
      (if err.trailers.isEmpty then trailers else err.trailers)).map
        (appendMetadataCapped cr .empty),
      ?_, (comesBack_endStream cr err).weaken _ _⟩
    rw [Protocol.finalizer, StreamFinalizer.terminal, StreamFinalizer.error,
      t.readTerminal_endStream cr hp saw hsize hlimit,
      parseConnectEndStream_forError cr err trailers hdepth]
    rfl
  · simp only [hp, ErrorReadable] at h
    have hne : t.protocol ≠ .connect := by
      rw [hp]
      decide
    obtain ⟨e, hparse, hback⟩ := comesBack_trailers cr hbare h
    refine ⟨e, some (grpcTrailerBlock cr (some err) trailers), ?_, hback⟩
    rw [Protocol.finalizer, StreamFinalizer.terminal_grpc, t.readTerminal_trailers cr hne,
      classifyGrpcEnd_error cr hparse]
  · simp only [hp, ErrorReadable] at h
    obtain ⟨hmessage, hlimit, htext, hroom⟩ := h
    obtain ⟨e, hparse, hback⟩ := comesBack_block cr hbare hmessage hroom
    refine ⟨e, some (receivedBlock cr (grpcTrailerBlock cr (some err) trailers)), ?_, hback⟩
    rw [Protocol.finalizer, StreamFinalizer.terminal_grpcWeb,
      t.readTerminal_grpcWeb cr hp saw hlimit,
      if_pos (allText_errorBlock cr hbare htext)]
    exact congrArg (Prod.mk []) (classifyGrpcEnd_error cr hparse saw)

/-! ## Streams with an error -/

/-- A stream, if one is made, yields some messages and then an error. -/
def StreamFails (c : CallConfig α) (response : Response (List BodyEvent)) (late : Bool)
    (msgs : List α) (e : ConnectError) : Prop :=
  (msgs = [] ∧ makeServerStream cr c response late = .error e) ∨
    ∃ s ended, makeServerStream cr c response late = .ok s ∧ s.Run cr msgs ended ∧
      ended.outcome = some e

/-- What a client's stream reads of a server's stream that an error ends. -/
theorem reading_error {t : StreamSetup α} {source : List SourceEvent} {err : ConnectError}
    {trailers : HeaderMap} {compression : Option (CompressionRegistry × String)}
    {policy : CompressionPolicy} {frames : List (Option Frame)} {body : List BodyEvent}
    {msgs : List α} (hunderstands : Understands t compression)
    (hlimit : WithinLimit t.maxMessageSize ⟨compression, policy⟩ source)
    (hmsgs : List.Forall₂ (fun b msg => t.decode b = .ok msg)
      (delivered ⟨compression, policy⟩ source) msgs)
    (hframes : BatchingEnvelopeStream.Complete
      ((planned ⟨compression, policy⟩ source).1.flatMap Envelope.wire)
      (t.protocol.finalizer.terminal cr (some err) trailers) frames)
    (hbody : Recut frames.reduceOption body) (hbare : err.trailers = .empty)
    (hreadable : ErrorReadable cr t.protocol t.maxMessageSize err trailers) :
    ∃ e received, t.reading cr body = (msgs, ⟨some e, received⟩) ∧
      ComesBack (t.protocol = .grpcWeb) false err e := by
  obtain ⟨saw, -, hread⟩ := t.reading_served cr hunderstands hlimit hmsgs hframes hbody
  obtain ⟨e, received, hterminal, hback⟩ := readTerminal_error cr hbare hreadable saw
  refine ⟨e, received, ?_, hback⟩
  rw [hread, hterminal, List.append_nil]

/-- A stream that reads an error reports it. -/
theorem streamFails_of_reading {c : CallConfig α} {headers : HeaderMap} {body : List BodyEvent}
    {late : Bool} {msgs : List α} {err e : ConnectError} {received : Option HeaderMap}
    {trims drops : Bool}
    (hmake : makeServerStream cr c ⟨.ok, headers, body⟩ late =
      .ok (.start (c.setup headers late) body))
    (hread : (c.setup headers late).reading cr body = (msgs, ⟨some e, received⟩))
    (hback : ComesBack trims drops err e) :
    ∃ e, StreamFails cr c ⟨.ok, headers, body⟩ late msgs e ∧ ComesBack trims drops err e := by
  -- the reader on the whole body stands for the run
  have hrun := (ServerStream.run_iff cr (ServerStream.start_live (c.setup headers late) body)).mpr
    ⟨⟨some e, received⟩, by rw [ServerStream.toRead_start, hread], rfl⟩
  have hattached : ∃ e', (StreamEnd.attachMetadata ⟨some e, received⟩ headers).outcome = some e' ∧
      ComesBack trims drops err e' := by
    cases received with
    | none => exact ⟨_, rfl, hback.withHeaders headers⟩
    | some trailers => exact ⟨_, rfl, hback.attach headers _⟩
  obtain ⟨e', houtcome, hback'⟩ := hattached
  exact ⟨e', .inr ⟨_, _, hmake, hrun, houtcome⟩, hback'⟩

/-! ## Renderings of an error -/

namespace Rendering

/-- The protocol of a rendering. -/
def protocol : Rendering → Protocol
  | connectUnary => .connect
  | streaming protocol _ => protocol
  | grpcUnary protocol _ _ => protocol

/-- A client whose call is answered so. -/
def Suits (c : CallConfig α) : Rendering → Prop
  | connectUnary => c.protocol = .connect
  | streaming protocol codec => c.protocol = protocol ∧ c.codecFormat = codec
  | grpcUnary protocol _ codec => c.protocol = protocol ∧ c.codecFormat = codec

/-- The error that the client's parser of the same shape reports. -/
def Reports (c : CallConfig α) (response : Response (List BodyEvent)) (late : Bool)
    (e : ConnectError) : Rendering → Prop
  | connectUnary => parseConnectUnaryResponse cr c response late = .error e
  | streaming _ _ => StreamFails cr c response late [] e
  | grpcUnary _ _ _ => parseGrpcUnaryResponse cr c response late = .error e

/-- Whether the client can read the rendering: a JSON body is within its limit and not nested
too deep, a terminal frame can be read, and a text block fits the buffer of a unary body. -/
def Readable (c : CallConfig α) (err : ConnectError) : Rendering → Prop
  | connectUnary => (err.toJson cr).length ≤ c.messageLimit ∧ err.toJsonValue.depth ≤ cr.jsonDepth
  | streaming protocol _ => ErrorReadable cr protocol c.messageLimit err .empty
  | grpcUnary protocol _ _ =>
    ErrorReadable cr protocol c.messageLimit err .empty ∧
      (protocol = .grpcWeb → (encodeGrpcWebTrailers
        (grpcTrailerBlock cr (some err) .empty)).length ≤ maxUnaryBuffer c)

/-- Whether the details are left behind: a stream of gRPC believes the status in the head,
which has none. -/
def drops : Rendering → Bool
  | streaming .grpc _ => true
  | _ => false

section Head

variable {err : ConnectError}

/-- An error with nothing attached adds nothing to a head. -/
theorem headEntries_bare (hbare : err.Bare) (r : Rendering) :
    r.headEntries cr err = some (r.ownEntries cr err) := by
  obtain ⟨hheaders, htrailers⟩ := hbare
  have hechoed : echoed ((r.ownEntries cr err).map Prod.fst) err = [] := by
    rw [echoed, hheaders]
    rfl
  have hnone : r.headTrailers err = some [] := by
    cases r with
    | connectUnary =>
      rw [headTrailers, htrailers]
      rfl
    | streaming protocol codec => rfl
    | grpcUnary protocol h codec => rfl
  rw [headEntries, hnone, hechoed, Option.map_some, List.append_nil, List.append_nil]

/-- The head of a rendering. -/
def headers (r : Rendering) (err : ConnectError) : HeaderMap :=
  HeaderMap.empty.appendAll (r.ownEntries cr err)

theorem room_ownEntries (r : Rendering) (err : ConnectError) :
    Room cr.headerCap (r.ownEntries cr err) := by
  have hlarge := cr.headerCap_large
  apply room_of_length
  · have hstatus : (r.derivedStatus err).length ≤ 1 := by
      rw [derivedStatus]
      split <;> simp
    have hmessage : (r.derivedMessage cr err).length ≤ 1 := by
      rw [derivedMessage]
      rcases messageValue cr err with _ | v
      · split <;> simp
      · split <;> simp
    rw [ownEntries, List.length_cons, List.length_append, List.length_map, List.length_map]
    omega
  · exact headerCap_pos cr

/-- What is rendered of an error with nothing attached. -/
theorem render_bare (hbare : err.Bare) (r : Rendering) :
    r.render cr err = ⟨r.status err, r.headers cr err, r.bodyFrames cr err⟩ :=
  render_of_room cr (headEntries_bare cr hbare r) (room_ownEntries cr r err)

/-- Its head has the rendering's own headers only. -/
theorem safeHead_bare (hbare : err.Bare) (r : Rendering) :
    SafeHead cr r err (r.headers cr err) := by
  have hforwardable : Forwardable cr r err := by
    have hheaders := hbare.1
    refine ⟨⟨_, headEntries_bare cr hbare r, room_ownEntries cr r err⟩, ?_, fun _ => ?_,
      fun _ => ?_⟩
    · rw [hheaders, HeaderMap.getAll_empty]
    · rw [hheaders, HeaderMap.getAll_empty]
    · rw [hheaders, HeaderMap.getAll_empty]
  have hsafe := (render_safeHead_iff cr r err).mpr hforwardable
  rw [render_bare cr hbare r] at hsafe
  exact hsafe

/-- No encoding is announced. -/
theorem get_encoding {r : Rendering} {headers : HeaderMap} (hsafe : SafeHead cr r err headers)
    {n : HeaderName} (hn : n ∈ bodyFraming) : headers.get n = none := by
  rw [HeaderMap.get, hsafe.notForwarded n (List.mem_append_right _ hn)]
  rfl

/-- A content type of the gRPC family is accepted by a client with the same protocol and
codec. -/
theorem validateGrpc_contentType {headers : HeaderMap} {protocol : Protocol} {codec : CodecFormat}
    (hp : protocol ≠ .connect)
    (h : headers.getAll .contentType = [contentTypeValue protocol codec true]) :
    validateGrpcResponseContentType headers protocol codec = .ok () := by
  have hmedia : mediaType (protocol.responseContentType codec true) =
      (protocol.responseContentType codec false).toList := by
    cases protocol with
    | connect => exact absurd rfl hp
    | grpc => cases codec <;> decide +kernel
    | grpcWeb => cases codec <;> decide +kernel
  rw [validateGrpcResponseContentType, HeaderMap.get, h]
  simp only [List.head?_cons, contentTypeText, toStr_contentTypeValue, Option.getD_some, hmedia]
  rw [if_neg hp, if_pos (.inl trivial)]

/-- So is that of a stream of Connect. -/
theorem validateConnect_contentType {headers : HeaderMap} {codec : CodecFormat}
    (h : headers.getAll .contentType = [contentTypeValue .connect codec true]) :
    validateConnectResponseContentType headers codec true = .ok () := by
  have hmedia : mediaType (Protocol.connect.responseContentType codec true) =
      (Protocol.connect.responseContentType codec true).toList := by
    cases codec <;> decide +kernel
  rw [validateConnectResponseContentType, HeaderMap.get, h]
  simp only [List.head?_cons, contentTypeText, toStr_contentTypeValue, Option.getD_some, hmedia,
    if_true]

/-- A body of data is collected if it is within the limit. -/
theorem collectBodyBounded_datas {limit : ℕ} (late : Bool) {datas : List Bytes}
    (h : datas.flatten.length ≤ limit) :
    collectBodyBounded limit late [] (datas.map .data) = .ok datas.flatten := by
  have hbody : grpcBody datas none = datas.map .data := List.append_nil _
  have hcases := collectBodyBounded_cases late (datas.map .data) [] (Nat.zero_le limit)
  rw [← hbody] at hcases ⊢
  rw [allData_grpcBody, isFrame_grpcBody, List.nil_append] at hcases
  rcases hcollected : collectBodyBounded limit late [] (grpcBody datas none) with e | b
  · rw [hcollected, decide_eq_true h] at hcases
    cases hcases.1
  · rw [hcollected] at hcases
    rw [hcases.2.1]

/-- What is made of the body of Connect depends on how it reads as JSON. -/
theorem parseConnectUnaryResponse_json {c : CallConfig α} (hbare : err.Bare)
    (hfails : err.httpStatus.isSuccess = false)
    (hlimit : (err.toJson cr).length ≤ c.messageLimit) {body : List BodyEvent}
    (hbody : Recut (connectUnary.bodyFrames cr err) body) (late : Bool) :
    parseConnectUnaryResponse cr c ⟨err.httpStatus, connectUnary.headers cr err, body⟩ late =
      .error (((match cr.jsonRead connectErrorResponse (err.toJson cr) with
        | .ok error => error.toConnectError err.httpStatus
        | .error _ => .new (httpStatusToErrorCode err.httpStatus)
          s!"HTTP error {err.httpStatus.code}: {cr.utf8Lossy (err.toJson cr)}").setResponseHeaders
            (plainHeaders (connectUnary.headers cr err))).setTrailers
              (carriedTrailers (connectUnary.headers cr err))) := by
  obtain ⟨datas, hdatas, rfl⟩ := hbody
  have hframes : sentBytes (fullFrames (err.toJson cr)) = err.toJson cr ∧
      sentTrailers (fullFrames (err.toJson cr)) = [] := by
    rw [fullFrames]
    split
    · rename_i hnil
      rw [hnil]
      exact ⟨rfl, rfl⟩
    · exact ⟨List.append_nil _, rfl⟩
  rw [bodyFrames] at hdatas ⊢
  rw [hframes.1] at hdatas
  rw [hframes.2, List.map_nil, List.append_nil]
  rw [← hdatas] at hlimit
  have hcollected := collectBodyBounded_datas late hlimit
  have hencoding := get_encoding cr (safeHead_bare cr hbare connectUnary)
    (n := .contentEncoding) (by decide)
  rw [parseConnectUnaryResponse]
  simp only [hfails, Bool.not_false, if_true, connectUnaryError, hcollected, hdatas, hencoding,
    Option.bind_none]
  rcases cr.jsonRead connectErrorResponse (err.toJson cr) with text | error
  · rfl
  · rfl

/-- **The JSON body of Connect** is read as the error. -/
theorem connectUnary_comesBack {c : CallConfig α} (hbare : err.Bare)
    (hfails : err.httpStatus.isSuccess = false) (hread : connectUnary.Readable cr c err)
    {body : List BodyEvent} (hbody : Recut (connectUnary.bodyFrames cr err) body) (late : Bool) :
    ∃ e, parseConnectUnaryResponse cr c ⟨err.httpStatus, connectUnary.headers cr err, body⟩ late =
        .error e ∧ ComesBack false false err e := by
  obtain ⟨hlimit, hdepth⟩ := hread
  have hjson : cr.jsonRead connectErrorResponse (err.toJson cr) = .ok (err.record cr) := by
    rw [ConnectError.toJson, cr.jsonRead_toVec _ hdepth, ConnectError.ofJson_toJsonValue]
    rfl
  refine ⟨_, parseConnectUnaryResponse_json cr hbare hfails hlimit hbody late, ?_⟩
  rw [hjson]
  exact (comesBack_toConnectError cr err err.httpStatus).attach _ _

/-- If it is nested too deep, the code is that of the HTTP status. -/
theorem connectUnary_deep {c : CallConfig α} (hbare : err.Bare)
    (hfails : err.httpStatus.isSuccess = false)
    (hlimit : (err.toJson cr).length ≤ c.messageLimit)
    (hdeep : cr.jsonDepth < err.toJsonValue.depth) {body : List BodyEvent}
    (hbody : Recut (connectUnary.bodyFrames cr err) body) (late : Bool) :
    ∃ e, parseConnectUnaryResponse cr c ⟨err.httpStatus, connectUnary.headers cr err, body⟩ late =
        .error e ∧ e.code = httpStatusToErrorCode err.httpStatus := by
  obtain ⟨text, hjson⟩ := cr.jsonRead_deep connectErrorResponse hdeep
  have hread : cr.jsonRead connectErrorResponse (err.toJson cr) = .error text := hjson
  refine ⟨_, parseConnectUnaryResponse_json cr hbare hfails hlimit hbody late, ?_⟩
  rw [hread]
  rfl

/-- The body of a rendering that is a terminal frame. -/
theorem bodyFrames_bare (hbare : err.Bare) (protocol : Protocol) :
    [protocol.finalizer.error cr err err.trailers] =
      [protocol.finalizer.terminal cr (some err) .empty] := by
  rw [hbare.2]
  rfl

theorem carriesError_of_status {m : HeaderMap}
    (h : m.get hdr.grpcStatus = some (.ofNat err.code.grpcCode)) : CarriesError m :=
  ⟨_, _, h, statusValue_grpcCode err.code, Nat.ne_of_gt err.code.grpcCode_range.1⟩

/-- **The unary fast path of gRPC and gRPC-Web** is read as the error. -/
theorem grpcUnary_comesBack {c : CallConfig α} {protocol : Protocol} {hp : protocol ≠ .connect}
    {codec : CodecFormat} (hbare : err.Bare) (hsuits : (grpcUnary protocol hp codec).Suits c)
    (hread : (grpcUnary protocol hp codec).Readable cr c err) {body : List BodyEvent}
    (hbody : Recut ((grpcUnary protocol hp codec).bodyFrames cr err) body) (late : Bool) :
    ∃ e, parseGrpcUnaryResponse cr c
        ⟨.ok, (grpcUnary protocol hp codec).headers cr err, body⟩ late = .error e ∧
      ComesBack (protocol = .grpcWeb) false err e := by
  obtain ⟨rfl, rfl⟩ := hsuits
  obtain ⟨hreadable, hbuffer⟩ := hread
  have hsafe := safeHead_bare cr hbare (grpcUnary c.protocol hp c.codecFormat)
  generalize (grpcUnary c.protocol hp c.codecFormat).headers cr err = headers at hsafe ⊢
  have haccepted := validateGrpc_contentType hp hsafe.contentType
  have hencoding : unsupportedEncoding c headers = none := by
    have hnone : headers.get hdr.grpcEncoding = none := get_encoding cr hsafe (by decide)
    rw [unsupportedEncoding, grpcEncodingOf, hnone]
    rfl
  rw [bodyFrames, bodyFrames_bare cr hbare] at hbody
  obtain ⟨datas, hdatas, rfl⟩ := hbody
  rcases hprotocol : c.protocol with _ | _ | _
  · exact absurd hprotocol hp
  · -- HTTP trailers, and no data
    rw [hprotocol] at hdatas hreadable
    obtain ⟨e, hparse, hback⟩ := comesBack_trailers cr hbare.2 hreadable
    have hnil : datas.flatten = [] := hdatas
    have hscope : InScope c headers datas.flatten := by
      refine ⟨hp, haccepted, ?_, ?_⟩
      · rw [hnil]
        exact Nat.zero_le _
      · have hnone : parse decodeAny [] = _ := parse_none (decodeWith_short (by decide))
        rw [hnil, hnone]
        exact fun e he => by cases he
    have hcarries : CarriesError (grpcTrailerBlock cr (some err) .empty) :=
      carriesError_of_status (get_status_errorBlock cr)
    refine ⟨_, ?_, hback.withHeaders headers⟩
    exact parseGrpcUnaryResponse_afterBody cr late hscope hencoding (.inl hnil)
      (.inr ⟨rfl, .inl rfl⟩) hcarries hparse
  · -- one trailer frame
    rw [hprotocol] at hdatas hreadable
    obtain ⟨hmessage, hlimit, htext, hroom⟩ := hreadable
    obtain ⟨e, hparse, hback⟩ := comesBack_block cr hbare.2 hmessage hroom
    generalize hblock : grpcTrailerBlock cr (some err) .empty = block at hlimit hparse
    have hstatus := get_status_receivedBlock cr hbare.2 hroom
    rw [hblock] at hstatus
    let f : Envelope := ⟨flags.GRPC_WEB_TRAILER, trailerPayload block⟩
    have hwire : datas.flatten = f.wire ++ [] := by
      rw [hdatas, Protocol.finalizer, StreamFinalizer.terminal_grpcWeb, hblock]
      rfl
    have hsize : f.data.length ≤ u32Max := Nat.le_trans hlimit (by decide)
    obtain ⟨hplain, -, hflag⟩ := Envelope.kind_eq (Envelope.kind_trailer (trailerPayload block))
    have hframe : (c.setup headers false).isTrailerFrame f = true := by
      have hweb : (c.setup headers false).protocol = .grpcWeb := hprotocol
      rw [StreamSetup.isTrailerFrame, hweb, hflag]
      rfl
    have hat : FrameAt cr c headers (f.wire ++ []) (receivedBlock cr block) := by
      refine ⟨f, [], decodeWith_wire [] hsize ?_, hframe, ?_⟩
      · rw [limits_trailerFrame hframe]
        exact hlimit
      · rw [StreamSetup.frameTrailers, hplain, parseGrpcWebTrailerPayload_payload,
          if_pos (hblock ▸ allText_errorBlock cr hbare.2 htext)]
        rfl
    have hscope : InScope c headers datas.flatten := by
      refine ⟨hp, haccepted, ?_, ?_⟩
      · have hfits := hbuffer hprotocol
        rw [hblock] at hfits
        rw [hwire, List.append_nil]
        exact hfits
      · have hparsed : parse decodeAny (f.wire ++ []) = _ :=
          (decodeWith_stable (messageLimit u32Max)).parse_item (decodeAny_wire hsize [])
        have hnone : parse (decodeWith (messageLimit u32Max)) [] = _ :=
          parse_none (decodeWith_short (by decide))
        rw [hwire, hparsed, Parsed.items_prepend, hnone]
        intro e he
        obtain rfl : e = f := by simpa using he
        exact .inr (.inr ⟨hprotocol, hflag⟩)
    have hcarries := carriesError_of_status hstatus
    have hreported : parseGrpcUnaryResponse cr c (grpcReply headers datas none) late =
        .error (e.setResponseHeaders headers) :=
      parseGrpcUnaryResponse_afterBody cr late hscope hencoding (.inl hwire) (.inl hat) hcarries
        hparse
    exact ⟨_, hreported, hback.withHeaders headers⟩

/-- A terminal frame that is all of a body. -/
theorem complete_terminal (f : Frame) : BatchingEnvelopeStream.Complete [] f [some f] :=
  ⟨[], 0, (fun _ hb => by cases hb), rfl, rfl⟩

/-- The head of a response of the gRPC family is accepted. -/
theorem checkGrpcResponseHead_head {c : CallConfig α} {headers : HeaderMap}
    (hp : c.protocol ≠ .connect)
    (hsafe : SafeHead cr (streaming c.protocol c.codecFormat) err headers) :
    checkGrpcResponseHead .ok headers c.protocol c.codecFormat = .ok () := by
  have hsuccess : StatusCode.ok.isSuccess = true := rfl
  rw [checkGrpcResponseHead]
  simp only [hsuccess, Bool.not_true, Bool.false_and, Bool.false_eq_true, if_false]
  exact validateGrpc_contentType hp hsafe.contentType

/-- The head of a stream that is not one of gRPC makes a stream. -/
theorem makeServerStream_head {c : CallConfig α} {headers : HeaderMap}
    (hgrpc : c.protocol ≠ .grpc)
    (hsafe : SafeHead cr (streaming c.protocol c.codecFormat) err headers) (body : List BodyEvent)
    (late : Bool) :
    makeServerStream cr c ⟨.ok, headers, body⟩ late =
      .ok (.start (c.setup headers late) body) := by
  have hsuccess : (!StatusCode.ok.isSuccess) = false := rfl
  rw [makeServerStream]
  by_cases hp : c.protocol = .connect
  · have hcontent := hsafe.contentType
    rw [hp] at hcontent
    rw [if_pos hp, if_pos hp]
    simp only [hsuccess, Bool.false_eq_true, if_false, validateConnect_contentType hcontent]
  · have hset : (streaming c.protocol c.codecFormat).setsStatus = false := decide_eq_false hgrpc
    have hnone : parseGrpcErrorFromTrailers cr headers = none := by
      apply (parseGrpcErrorFromTrailers_none_iff cr headers).mpr
      left
      rw [HeaderMap.get, hsafe.status, derivedStatus, hset]
      rfl
    rw [if_neg hp, if_neg hp, checkGrpcHead]
    simp only [checkGrpcResponseHead_head cr hp hsafe, hnone, hsuccess, Bool.false_eq_true,
      if_false]

/-- The status in the head of a stream of gRPC: its details are left behind. -/
theorem comesBack_of_head {c : CallConfig α} {headers : HeaderMap} (hgrpc : c.protocol = .grpc)
    (hsafe : SafeHead cr (streaming c.protocol c.codecFormat) err headers) :
    ∃ e, parseGrpcErrorFromTrailers cr headers = some e ∧ ComesBack false true err e := by
  have hset : (streaming c.protocol c.codecFormat).setsStatus = true := decide_eq_true hgrpc
  -- status and message are derived from the error, and nothing is derived from its details
  refine comesBack_of_status cr ?_ (fun _ => ?_) (fun h => by cases h) (fun _ => ?_)
  · rw [HeaderMap.get, hsafe.status, derivedStatus, hset]
    rfl
  · rw [HeaderMap.get, hsafe.message, derivedMessage, hset]
    rcases messageValue cr err with _ | v
    · rfl
    · rfl
  · rw [HeaderMap.get, hsafe.details]
    rfl

/-- **The streaming path** is read as the error, by the stream or before there is one. -/
theorem streaming_comesBack {c : CallConfig α} {protocol : Protocol} {codec : CodecFormat}
    (hbare : err.Bare) (hsuits : (streaming protocol codec).Suits c)
    (hread : (streaming protocol codec).Readable cr c err) {body : List BodyEvent}
    (hbody : Recut ((streaming protocol codec).bodyFrames cr err) body) (late : Bool) :
    ∃ e, StreamFails cr c ⟨.ok, (streaming protocol codec).headers cr err, body⟩ late [] e ∧
      ComesBack (protocol = .grpcWeb) (streaming protocol codec).drops err e := by
  obtain ⟨rfl, rfl⟩ := hsuits
  have hsafe := safeHead_bare cr hbare (streaming c.protocol c.codecFormat)
  generalize (streaming c.protocol c.codecFormat).headers cr err = headers at hsafe ⊢
  rw [bodyFrames, bodyFrames_bare cr hbare] at hbody
  by_cases hgrpc : c.protocol = .grpc
  · -- the status in the head is the error, before there is a stream
    have hp : c.protocol ≠ .connect := by
      rw [hgrpc]
      decide
    obtain ⟨e, hparse, hback⟩ := comesBack_of_head cr hgrpc hsafe
    refine ⟨e.setResponseHeaders headers, .inl ⟨rfl, ?_⟩, ?_⟩
    · rw [makeServerStream, if_neg hp, checkGrpcHead]
      simp only [checkGrpcResponseHead_head cr hp hsafe, hparse]
    · rw [hgrpc]
      exact hback.withHeaders headers
  · have hmake := makeServerStream_head cr hgrpc hsafe body late
    let t := c.setup headers late
    -- a stream of nothing but the error, in which nothing is compressed
    have hunderstands : Understands t none := fun _ _ h => by cases h
    have hlimit : WithinLimit t.maxMessageSize ⟨none, .disabled⟩ [.error err] :=
      fun body hbody => by simp at hbody
    obtain ⟨e, received, hreading, hback⟩ := reading_error cr hunderstands hlimit .nil
      (complete_terminal _) hbody hbare.2 hread
    have hdrops : (streaming c.protocol c.codecFormat).drops = false := by
      cases hp : c.protocol with
      | connect => rfl
      | grpc => exact absurd hp hgrpc
      | grpcWeb => rfl
    rw [hdrops]
    exact streamFails_of_reading cr hmake hreading hback

end Head

end Rendering

/-! ## Errors in a stream -/

/-- A response stream whose handler yields an error after some messages, and a client that
takes its head and the messages. -/
structure YieldingCall (α : Type) where
  /-- the client -/
  client : CallConfig α
  /-- the head of the response -/
  headers : HeaderMap
  /-- the trailers that the handler sets -/
  trailers : HeaderMap
  /-- what the handler yields before the error -/
  before : List SourceEvent
  /-- what it would yield after it -/
  after : List SourceEvent
  /-- what the server compresses with -/
  compression : Option (CompressionRegistry × String)
  /-- when it does -/
  policy : CompressionPolicy
  /-- the messages -/
  messages : List α
  /-- the client makes a stream of the response -/
  accepted : ∀ body late, makeServerStream cr client ⟨.ok, headers, body⟩ late =
    .ok (.start (client.setup headers late) body)
  /-- it can undo the compression -/
  understands : Understands (client.setup headers false) compression
  /-- the error is the first -/
  good : ∀ ev ∈ before, ev.goesOn ⟨compression, policy⟩ = true
  /-- the messages are within the client's limit -/
  limit : WithinLimit client.messageLimit ⟨compression, policy⟩ before
  /-- they are what the payloads decode to -/
  decodes : List.Forall₂ (fun b msg => client.decode b = .ok msg) (payloads before) messages

/-- What comes after an error is not asked for. -/
theorem planned_error {enc : EnvelopeEncoder} {before : List SourceEvent}
    (h : ∀ ev ∈ before, ev.goesOn enc = true) (err : ConnectError) (after : List SourceEvent) :
    planned enc (before ++ .error err :: after) = ((planned enc before).1, some err) ∧
      delivered enc (before ++ .error err :: after) = payloads before := by
  induction before with
  | nil => exact ⟨rfl, rfl⟩
  | cons ev before ih =>
    obtain ⟨hev, hrest⟩ := List.forall_mem_cons.mp h
    obtain ⟨hplanned, hdelivered⟩ := ih hrest
    cases ev with
    | pending => exact ⟨hplanned, hdelivered⟩
    | error e => cases hev
    | item body =>
      rw [SourceEvent.goesOn] at hev
      rcases he : enc.envelope body with e | e
      · rw [he] at hev
        cases hev
      · simp only [List.cons_append, planned, delivered, payloads, he, hplanned, hdelivered,
          and_self]

namespace YieldingCall

variable {cr} (call : YieldingCall cr α)

/-- What the server has sent in a number of polls. -/
def frames (err : ConnectError) (n : ℕ) : List (Option Frame) :=
  served cr (call.before ++ .error err :: call.after) call.trailers call.compression call.policy
    call.client.protocol.finalizer n

/-- The messages arrive, and then the error. -/
theorem comesBack {err : ConnectError} (hbare : err.trailers = .empty)
    (hreadable : ErrorReadable cr call.client.protocol call.client.messageLimit err call.trailers)
    {n : ℕ} (hn : none ∈ call.frames err n) {body : List BodyEvent}
    (hbody : Recut (call.frames err n).reduceOption body) (late : Bool) :
    ∃ e, StreamFails cr call.client ⟨.ok, call.headers, body⟩ late call.messages e ∧
      ComesBack (call.client.protocol = .grpcWeb) false err e := by
  obtain ⟨-, hcomplete⟩ := served_complete cr (call.before ++ .error err :: call.after)
    call.trailers call.compression call.policy call.client.protocol.finalizer
  have hframes := hcomplete n hn
  obtain ⟨hplanned, -⟩ := planned_error call.good err call.after
  -- the same is planned when nothing comes after the error
  obtain ⟨hplanned', hdelivered'⟩ := planned_error call.good err []
  have hlimit : WithinLimit (call.client.setup call.headers late).maxMessageSize
      ⟨call.compression, call.policy⟩ (call.before ++ [.error err]) := by
    intro body hmem
    rcases List.mem_append.mp hmem with hmem | hmem
    · exact call.limit body hmem
    · simp at hmem
  have hdecodes : List.Forall₂
      (fun b msg => (call.client.setup call.headers late).decode b = .ok msg)
      (delivered ⟨call.compression, call.policy⟩ (call.before ++ [.error err])) call.messages := by
    rw [hdelivered']
    exact call.decodes
  rw [hplanned] at hframes
  have hsame : (planned ⟨call.compression, call.policy⟩ (call.before ++ [.error err])).1 =
      (planned ⟨call.compression, call.policy⟩ call.before).1 := by
    rw [hplanned']
  obtain ⟨e, received, hread, hback⟩ := reading_error cr (t := call.client.setup call.headers late)
    call.understands hlimit hdecodes (hsame ▸ hframes) hbody hbare hreadable
  exact streamFails_of_reading cr (call.accepted body late) hread hback

end YieldingCall

/-! ## All of them -/

/-- A call whose handler fails. -/
inductive FailedCall (α : Type) where
  /-- it returns an error, and the response is a rendering of that -/
  | returned (r : Rendering) (client : CallConfig α) (h : r.Suits client) : FailedCall α
  /-- it yields an error in a stream -/
  | yielded : YieldingCall cr α → FailedCall α

namespace FailedCall

variable {cr}

/-- However the body is cut, the client reports an error of which something holds. -/
def Delivers (err : ConnectError) (P : ConnectError → Prop) : FailedCall cr α → Prop
  | returned r client _ =>
    ∀ body, Recut (r.render cr err).body body → ∀ late, ∃ e,
      r.Reports cr client ⟨(r.render cr err).status, (r.render cr err).headers, body⟩ late e ∧ P e
  | yielded call =>
    (∃ n, none ∈ call.frames err n) ∧ ∀ n, none ∈ call.frames err n →
      ∀ body, Recut (call.frames err n).reduceOption body → ∀ late, ∃ e,
        StreamFails cr call.client ⟨.ok, call.headers, body⟩ late call.messages e ∧ P e

/-- Whether the client can read what the server sends. -/
def Readable (err : ConnectError) : FailedCall cr α → Prop
  | returned r client _ => r.Readable cr client err
  | yielded call =>
    ErrorReadable cr call.client.protocol call.client.messageLimit err call.trailers

/-- Whether the message travels in a text block. -/
def trims : FailedCall cr α → Bool
  | returned r _ _ => r.protocol = .grpcWeb
  | yielded call => call.client.protocol = .grpcWeb

/-- Whether the details are left behind. -/
def drops : FailedCall cr α → Bool
  | returned r _ _ => r.drops
  | yielded _ => false

end FailedCall

/-- An error has an HTTP status that is not one of success, unless it is given one. -/
theorem httpStatus_not_success {err : ConnectError}
    (h : ∀ s, err.httpStatusOverride = some s → s.isSuccess = false) :
    err.httpStatus.isSuccess = false := by
  rw [ConnectError.httpStatus]
  rcases ho : err.httpStatusOverride with _ | s
  · exact err.code.httpStatus_not_success
  · exact h s ho

/-- **Errors come back.** For every call and every error with nothing attached, if the client
can read what the server sends, it reports an error with the same code; the same message, but
for blanks that a text block trims off its ends; and the same details, unless they are left
behind. -/
theorem error_comesBack {cr : Crates} (call : FailedCall cr α) {err : ConnectError}
    (hbare : err.Bare) (hfails : ∀ s, err.httpStatusOverride = some s → s.isSuccess = false)
    (hreadable : call.Readable err) :
    call.Delivers err (ComesBack call.trims call.drops err) := by
  cases call with
  | returned r client hsuits =>
    intro body hbody late
    rw [Rendering.render_bare cr hbare r] at hbody ⊢
    cases r with
    | connectUnary =>
      have hstatus := httpStatus_not_success hfails
      exact Rendering.connectUnary_comesBack cr hbare hstatus hreadable hbody late
    | streaming protocol codec =>
      exact Rendering.streaming_comesBack cr hbare hsuits hreadable hbody late
    | grpcUnary protocol hp codec =>
      exact Rendering.grpcUnary_comesBack cr hbare hsuits hreadable hbody late
  | yielded call =>
    obtain ⟨hends, -⟩ := served_complete cr (call.before ++ .error err :: call.after) call.trailers
      call.compression call.policy call.client.protocol.finalizer
    exact ⟨hends, fun n hn body hbody late => call.comesBack hbare.2 hreadable hn hbody late⟩

/-! ## Errors that come back, and errors that do not -/

/-- A client of a protocol. -/
def bytesClient (protocol : Protocol) (limit : Option ℕ) : CallConfig Bytes where
  protocol := protocol
  compression := .new
  codecFormat := .proto
  maxMessageSize := limit
  decode := .ok

/-- An error with one detail. -/
def detailedError (debug : Option Json) : ConnectError :=
  { ConnectError.invalidArgument "x" with details := [⟨"a", some "Yg", debug⟩] }

/-- A stream of gRPC-Web with a message before the error, and a trailer. -/
def yieldingCall : YieldingCall .std Bytes where
  client := bytesClient .grpcWeb none
  headers := .empty
  trailers := ⟨[(xNote, .letters 3)]⟩
  before := [.pending, .item (.segmented [[7], [9]])]
  after := [.item (.contiguous [8])]
  compression := none
  policy := .disabled
  messages := [[7, 9]]
  accepted _ _ := rfl
  understands _ _ h := by cases h
  good := by decide
  limit body hbody := by
    obtain rfl : body = .segmented [[7], [9]] := by simpa using hbody
    refine ⟨by decide, fun e he => ?_⟩
    obtain rfl : (⟨flags.DATA, [7, 9]⟩ : Envelope) = e := Except.ok.inj he
    decide
  decodes := .cons rfl .nil

/-- It has no HTTP status of its own. -/
theorem detailedError_fails (debug : Option Json) :
    ∀ s, (detailedError debug).httpStatusOverride = some s → s.isSuccess = false := by
  intro s h
  have hnone : (detailedError debug).httpStatusOverride = none := rfl
  rw [hnone] at h
  cases h

/-- An error comes back in a JSON body, and in a stream. -/
theorem error_comesBack_detailed :
    (FailedCall.returned .connectUnary (bytesClient .connect none) rfl :
        FailedCall .std Bytes).Delivers (detailedError none)
          (ComesBack false false (detailedError none)) ∧
      (FailedCall.yielded yieldingCall).Delivers (detailedError none)
        (ComesBack true false (detailedError none)) := by
  have hbare : (detailedError none).Bare := ⟨rfl, rfl⟩
  have hbody : (FailedCall.returned .connectUnary (bytesClient .connect none) rfl :
      FailedCall .std Bytes).Readable (detailedError none) :=
    ⟨by decide +kernel, by decide +kernel⟩
  have hstream : (FailedCall.yielded yieldingCall).Readable (detailedError none) := by
    refine ⟨fun h => ?_, by decide +kernel, by decide, by decide⟩
    cases h
  exact ⟨error_comesBack _ hbare (detailedError_fails none) hbody,
    error_comesBack _ hbare (detailedError_fails none) hstream⟩

/-- The response to an error, with its body in one piece. -/
def replyOf (r : Rendering) (err : ConnectError) : Response (List BodyEvent) :=
  ⟨(r.render cr err).status, (r.render cr err).headers,
    [sentBytes (r.render cr err).body].map .data ++
      (sentTrailers (r.render cr err).body).map .trailers⟩

/-- That is one way to cut the body. -/
theorem recut_replyOf (r : Rendering) (err : ConnectError) :
    Recut (r.render cr err).body (replyOf cr r err).body :=
  ⟨[_], by rw [List.flatten_singleton], rfl⟩

theorem replyOf_bare {err : ConnectError} (hbare : err.Bare) (r : Rendering) :
    replyOf cr r err = ⟨r.status err, r.headers cr err, (replyOf cr r err).body⟩ := by
  simp only [replyOf, Rendering.render_bare cr hbare r]

namespace FailedCall

variable {cr} {err : ConnectError}

/-- What is reported of it. -/
theorem Delivers.reports {r : Rendering} {client : CallConfig α} {hsuits : r.Suits client}
    {P : ConnectError → Prop} (h : (returned r client hsuits : FailedCall cr α).Delivers err P) :
    ∃ e, r.Reports cr client (replyOf cr r err) false e ∧ P e :=
  h _ (recut_replyOf cr r err) false

/-- An error whose JSON is nested too deep does not come back, when the code of its HTTP status
is not its own. -/
theorem not_delivers_deep {client : CallConfig α} {hsuits : Rendering.connectUnary.Suits client}
    {trims drops : Bool} (hbare : err.Bare) (hfails : err.httpStatus.isSuccess = false)
    (hlimit : (err.toJson cr).length ≤ client.messageLimit)
    (hdeep : cr.jsonDepth < err.toJsonValue.depth)
    (hcode : httpStatusToErrorCode err.httpStatus ≠ err.code) :
    ¬ (returned .connectUnary client hsuits : FailedCall cr α).Delivers err
      (ComesBack trims drops err) := by
  intro h
  obtain ⟨e, he, hback⟩ := h.reports
  have hbody := recut_replyOf cr .connectUnary err
  rw [Rendering.render_bare cr hbare] at hbody
  obtain ⟨e', he', hcode'⟩ :=
    Rendering.connectUnary_deep cr hbare hfails hlimit hdeep hbody false
  have hreports : parseConnectUnaryResponse cr client (replyOf cr .connectUnary err) false =
      .error e := he
  rw [replyOf_bare cr hbare] at hreports
  obtain rfl : e = e' := Except.error.inj (hreports.symm.trans he')
  exact hcode (hcode'.symm.trans hback.code)

end FailedCall

/-- What is looked at of a failure. -/
def failedWith {β γ : Type} (f : ConnectError → γ) : Except ConnectError β → Option γ
  | .ok _ => none
  | .error e => some (f e)

/-- A value in a number of arrays. -/
def nested : ℕ → Json
  | 0 => .null
  | n + 1 => .arr [nested n]

/-- Errors that do not come back as they were: the client's limit is less than the JSON; the
debug information is nested too deep; a stream of gRPC is refused with details; and over
gRPC-Web a message starts with a blank. -/
theorem error_lost :
    ¬ (FailedCall.returned .connectUnary (bytesClient .connect (some 8)) rfl :
        FailedCall .std Bytes).Delivers (.internal "x") (ComesBack false false (.internal "x")) ∧
      ¬ (FailedCall.returned .connectUnary (bytesClient .connect none) rfl :
        FailedCall .std Bytes).Delivers (detailedError (some (nested 127)))
          (ComesBack false false (detailedError (some (nested 127)))) ∧
      ¬ (FailedCall.returned (.streaming .grpc .proto) (bytesClient .grpc none) ⟨rfl, rfl⟩ :
        FailedCall .std Bytes).Delivers (detailedError none)
          (ComesBack false false (detailedError none)) ∧
      ¬ (FailedCall.returned (.grpcUnary .grpcWeb (by decide) .proto) (bytesClient .grpcWeb none)
        ⟨rfl, rfl⟩ : FailedCall .std Bytes).Delivers (.internal " x")
          (ComesBack false false (.internal " x")) := by
  refine ⟨fun h => ?_, ?_, fun h => ?_, fun h => ?_⟩
  · obtain ⟨e, he, hback⟩ := h.reports
    have hcode : failedWith ConnectError.code (parseConnectUnaryResponse .std
        (bytesClient .connect (some 8)) (replyOf .std .connectUnary (.internal "x")) false) =
          some .resourceExhausted := by decide +kernel
    have hreports : parseConnectUnaryResponse .std (bytesClient .connect (some 8))
        (replyOf .std .connectUnary (.internal "x")) false = .error e := he
    rw [hreports, failedWith, hback.code] at hcode
    cases hcode
  · -- by the law for nesting: the parser is not run on so long a text
    have hbare : (detailedError (some (nested 127))).Bare := ⟨rfl, rfl⟩
    exact FailedCall.not_delivers_deep hbare rfl (by decide +kernel) (by decide +kernel) (by decide)
  · obtain ⟨e, he, hback⟩ := h.reports
    have hdetails : failedWith (fun e => e.details.length) (makeServerStream .std
        (bytesClient .grpc none) (replyOf .std (.streaming .grpc .proto) (detailedError none))
          false) = some 0 := by decide +kernel
    have hlength := (hback.details Bool.noConfusion).length_eq
    rcases he with ⟨-, he⟩ | ⟨s, ended, hs, -⟩
    · rw [he, failedWith, ← hlength] at hdetails
      cases hdetails
    · rw [hs, failedWith] at hdetails
      cases hdetails
  · obtain ⟨e, he, hback⟩ := h.reports
    have htext : failedWith ConnectError.text (parseGrpcUnaryResponse .std
        (bytesClient .grpcWeb none)
          (replyOf .std (.grpcUnary .grpcWeb (by decide) .proto) (.internal " x")) false) =
          some "x" := by decide +kernel
    have hreports : parseGrpcUnaryResponse .std (bytesClient .grpcWeb none)
        (replyOf .std (.grpcUnary .grpcWeb (by decide) .proto) (.internal " x")) false =
          .error e := he
    rw [hreports, failedWith, hback.message Bool.noConfusion] at htext
    exact absurd htext (by decide)

end ConnectRpc
