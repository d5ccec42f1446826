import ConnectRpc.Compression
import ConnectRpc.Lib.Incremental

/-!
# Envelopes

Every enveloped message is a flag byte, the length of the payload as a big-endian
32-bit number, and the payload. This file has the envelope, its contiguous
decoder, and the encoder with its compression and chaining decisions.

`decodeWith` is the contiguous decoder with the limit chosen by the flag byte, the
form the incremental decoder is compared with; the source's decoder, with one
limit, is an instance of it (`decodeContiguous_eq`).
-/

namespace ConnectRpc

open Lib

/-! ## Flags and sizes -/

namespace flags

/-- a message -/
def DATA : UInt8 := 0x00

/-- a compressed message -/
def COMPRESSED : UInt8 := 0x01

/-- end of stream -/
def END_STREAM : UInt8 := 0x02

/-- gRPC-Web trailer frame -/
def GRPC_WEB_TRAILER : UInt8 := 0x80

end flags

/-- The size of an envelope header. -/
def HEADER_SIZE : ℕ := 5

/-- The smallest payload chained as its own body frame. -/
def MIN_CHAIN_SIZE : ℕ := 16 * 1024

/-- The size of the slab small payloads are copied into. -/
def READ_SLAB_SIZE : ℕ := 8 * 1024

/-- The largest number a length field holds. -/
def u32Max : ℕ := 0xFFFFFFFF

/-- `u32::to_be_bytes`. -/
def toBeBytes (n : ℕ) : Bytes :=
  [UInt8.ofNat (n / 0x1000000), UInt8.ofNat (n / 0x10000), UInt8.ofNat (n / 0x100), UInt8.ofNat n]

/-- `u32::from_be_bytes` of the first four bytes. -/
def fromBeBytes : Bytes → ℕ
  | a :: b :: c :: d :: _ => a.toNat * 0x1000000 + b.toNat * 0x10000 + c.toNat * 0x100 + d.toNat
  | _ => 0

@[simp] theorem length_toBeBytes (n : ℕ) : (toBeBytes n).length = 4 := rfl

@[simp] theorem fromBeBytes_toBeBytes {n : ℕ} (h : n ≤ u32Max) (r : Bytes) :
    fromBeBytes (toBeBytes n ++ r) = n := by
  simp only [u32Max] at h
  simp only [toBeBytes, List.cons_append, fromBeBytes, UInt8.toNat_ofNat']
  omega

theorem fromBeBytes_le (b : Bytes) : fromBeBytes b ≤ u32Max := by
  rcases b with _ | ⟨a, _ | ⟨b, _ | ⟨c, _ | ⟨d, r⟩⟩⟩⟩ <;> simp only [fromBeBytes, u32Max]
  · omega
  · omega
  · omega
  · omega
  · have ha := a.toNat_lt
    have hb := b.toNat_lt
    have hc := c.toNat_lt
    have hd := d.toNat_lt
    omega

/-! ## The envelope and its contiguous decoder -/

/-- An enveloped message. -/
structure Envelope where
  /-- the flag byte -/
  flags : UInt8
  /-- the payload -/
  data : Bytes
  deriving DecidableEq

namespace Envelope

/-- Whether the payload is compressed. -/
def isCompressed (e : Envelope) : Bool :=
  e.flags &&& flags.COMPRESSED != 0

/-- Whether this is an end-of-stream envelope. -/
def isEndStream (e : Envelope) : Bool :=
  e.flags &&& flags.END_STREAM != 0

/-- Whether this is a gRPC-Web trailer frame. -/
def isGrpcWebTrailer (e : Envelope) : Bool :=
  e.flags &&& flags.GRPC_WEB_TRAILER != 0

/-- The wire form. -/
def wire (e : Envelope) : Bytes :=
  e.flags :: toBeBytes e.data.length ++ e.data

/-- How an envelope with exactly this flag is read: compressed, end of the stream,
trailer frame. -/
def kind (e : Envelope) : Bool × Bool × Bool :=
  (e.isCompressed, e.isEndStream, e.isGrpcWebTrailer)

theorem kind_eq {e : Envelope} {compressed endStream trailer : Bool}
    (h : e.kind = (compressed, endStream, trailer)) :
    e.isCompressed = compressed ∧ e.isEndStream = endStream ∧ e.isGrpcWebTrailer = trailer := by
  rw [kind, Prod.mk.injEq, Prod.mk.injEq] at h
  exact h

theorem kind_data (b : Bytes) : kind ⟨flags.DATA, b⟩ = (false, false, false) := by
  have h : (flags.DATA &&& flags.COMPRESSED != 0, flags.DATA &&& flags.END_STREAM != 0,
    flags.DATA &&& flags.GRPC_WEB_TRAILER != 0) = (false, false, false) := by decide
  exact h

theorem kind_compressed (b : Bytes) : kind ⟨flags.COMPRESSED, b⟩ = (true, false, false) := by
  have h : (flags.COMPRESSED &&& flags.COMPRESSED != 0, flags.COMPRESSED &&& flags.END_STREAM != 0,
    flags.COMPRESSED &&& flags.GRPC_WEB_TRAILER != 0) = (true, false, false) := by decide
  exact h

theorem kind_endStream (b : Bytes) : kind ⟨flags.END_STREAM, b⟩ = (false, true, false) := by
  have h : (flags.END_STREAM &&& flags.COMPRESSED != 0, flags.END_STREAM &&& flags.END_STREAM != 0,
    flags.END_STREAM &&& flags.GRPC_WEB_TRAILER != 0) = (false, true, false) := by decide
  exact h

theorem kind_trailer (b : Bytes) : kind ⟨flags.GRPC_WEB_TRAILER, b⟩ = (false, false, true) := by
  have h : (flags.GRPC_WEB_TRAILER &&& flags.COMPRESSED != 0,
    flags.GRPC_WEB_TRAILER &&& flags.END_STREAM != 0,
    flags.GRPC_WEB_TRAILER &&& flags.GRPC_WEB_TRAILER != 0) = (false, false, true) := by decide
  exact h

end Envelope

/-- The error for a payload over the limit. -/
def sizeExceeded (what : String) (length limit : ℕ) : ConnectError :=
  .resourceExhausted s!"{what} size {length} exceeds limit {limit}"

/-- `Envelope::decode_contiguous`: fail on a declared size over the limit, ask for
more, or cut one envelope off the front. -/
def decodeContiguous (maxSize : ℕ) : Parser UInt8 Envelope ConnectError := fun buf =>
  if buf.length < HEADER_SIZE then .ok none
  else
    let flags := buf.headD 0
    let length := fromBeBytes (buf.drop 1)
    if length > maxSize then .error (sizeExceeded "message" length maxSize)
    else if buf.length < HEADER_SIZE + length then .ok none
    else
      let rest := buf.drop HEADER_SIZE
      .ok (some (⟨flags, rest.take length⟩, rest.drop length))

/-- `Envelope::decode_with_limit` (and `decode_bytes_with_limit`). -/
def decodeWithLimit (maxSize : ℕ) : Parser UInt8 Envelope ConnectError :=
  decodeContiguous maxSize

/-- Which limit a flag byte is held to, and what it is called. -/
abbrev LimitOf := UInt8 → String × ℕ

/-- The contiguous decoder with the limit chosen by the flag byte. -/
def decodeWith (limitOf : LimitOf) : Parser UInt8 Envelope ConnectError := fun buf =>
  if buf.length < HEADER_SIZE then .ok none
  else
    let flags := buf.headD 0
    let length := fromBeBytes (buf.drop 1)
    if length > (limitOf flags).2 then
      .error (sizeExceeded (limitOf flags).1 length (limitOf flags).2)
    else if buf.length < HEADER_SIZE + length then .ok none
    else
      let rest := buf.drop HEADER_SIZE
      .ok (some (⟨flags, rest.take length⟩, rest.drop length))

/-- One limit for every flag byte. -/
def messageLimit (maxSize : ℕ) : LimitOf := fun _ => ("message", maxSize)

theorem decodeContiguous_eq (maxSize : ℕ) :
    decodeContiguous maxSize = decodeWith (messageLimit maxSize) := rfl

section

variable {limitOf : LimitOf}

theorem decodeWith_short {buf : Bytes} (h : buf.length < HEADER_SIZE) :
    decodeWith limitOf buf = .ok none := by
  rw [decodeWith, if_pos h]

/-- The decoder on a header and what follows it. -/
theorem decodeWith_header {header rest : Bytes} (h : header.length = HEADER_SIZE) :
    decodeWith limitOf (header ++ rest) =
      let length := fromBeBytes (header.drop 1)
      let limit := limitOf (header.headD 0)
      if length > limit.2 then .error (sizeExceeded limit.1 length limit.2)
      else if rest.length < length then .ok none
      else .ok (some (⟨header.headD 0, rest.take length⟩, rest.drop length)) := by
  obtain ⟨f, b1, b2, b3, b4, rfl⟩ : ∃ f b1 b2 b3 b4, header = [f, b1, b2, b3, b4] := by
    rcases header with _ | ⟨f, _ | ⟨b1, _ | ⟨b2, _ | ⟨b3, _ | ⟨b4, _ | ⟨x, t⟩⟩⟩⟩⟩⟩ <;>
      simp [HEADER_SIZE] at h
    exact ⟨f, b1, b2, b3, b4, rfl⟩
  have hlen : ([f, b1, b2, b3, b4] ++ rest).length = HEADER_SIZE + rest.length := by
    rw [List.length_append, h]
  have hbe : fromBeBytes (([f, b1, b2, b3, b4] ++ rest).drop 1) =
      fromBeBytes ([f, b1, b2, b3, b4].drop 1) := rfl
  simp only [decodeWith, hlen, hbe]
  rw [if_neg (by omega), List.drop_left' h]
  simp only [Nat.add_lt_add_iff_left, List.cons_append, List.headD_cons]
  rfl

/-- Split a buffer that holds a whole header. -/
theorem exists_header {buf : Bytes} (h : ¬ buf.length < HEADER_SIZE) :
    ∃ header rest, buf = header ++ rest ∧ header.length = HEADER_SIZE := by
  refine ⟨buf.take HEADER_SIZE, buf.drop HEADER_SIZE, (List.take_append_drop _ _).symm, ?_⟩
  rw [List.length_take]
  omega

/-- An envelope cut off the front uses up its header and its payload. -/
theorem decodeWith_item {buf rest : Bytes} {e : Envelope}
    (h : decodeWith limitOf buf = .ok (some (e, rest))) :
    ∃ header, header.length = HEADER_SIZE ∧ buf = header ++ (e.data ++ rest) ∧
      e.flags = header.headD 0 ∧ e.data.length = fromBeBytes (header.drop 1) ∧
      e.data.length ≤ (limitOf e.flags).2 := by
  by_cases hlen : buf.length < HEADER_SIZE
  · rw [decodeWith_short hlen] at h
    cases h
  · obtain ⟨header, tail, rfl, hh⟩ := exists_header hlen
    rw [decodeWith_header hh] at h
    simp only at h
    split at h
    · cases h
    · split at h
      · cases h
      · rename_i hlimit hshort
        simp only [Except.ok.injEq, Option.some.injEq, Prod.mk.injEq] at h
        obtain ⟨rfl, rfl⟩ := h
        have hd : (tail.take (fromBeBytes (header.drop 1))).length = fromBeBytes (header.drop 1) := by
          rw [List.length_take]
          omega
        refine ⟨header, hh, by rw [List.take_append_drop], rfl, hd, ?_⟩
        rw [hd]
        exact Nat.le_of_not_lt hlimit

/-- The contiguous decoder answers the same whatever arrives later. -/
theorem decodeWith_stable (limitOf : LimitOf) : Stable (decodeWith limitOf) where
  shorter := by
    intro a r e h
    obtain ⟨header, hh, rfl, -⟩ := decodeWith_item h
    simp only [List.length_append, hh, HEADER_SIZE]
    omega
  item_append := by
    intro a r e c h
    obtain ⟨header, hh, rfl, hf, hd, hl⟩ := decodeWith_item h
    rw [List.append_assoc, List.append_assoc, decodeWith_header hh]
    rw [hf, hd] at hl
    simp only
    rw [if_neg (by omega), ← hf, ← hd, List.take_left, List.drop_left, if_neg]
    rw [List.length_append]
    omega
  error_append := by
    intro a e c h
    by_cases hlen : a.length < HEADER_SIZE
    · rw [decodeWith_short hlen] at h
      cases h
    · obtain ⟨header, tail, rfl, hh⟩ := exists_header hlen
      rw [decodeWith_header hh] at h
      rw [List.append_assoc, decodeWith_header hh]
      simp only at h ⊢
      split at h
      · rename_i hlimit
        rw [if_pos hlimit, h]
      · split at h <;> cases h

/-- An encoded envelope within its limit decodes to itself. -/
theorem decodeWith_wire {e : Envelope} (rest : Bytes) (hsize : e.data.length ≤ u32Max)
    (hlimit : e.data.length ≤ (limitOf e.flags).2) :
    decodeWith limitOf (e.wire ++ rest) = .ok (some (e, rest)) := by
  have hh : (e.flags :: toBeBytes e.data.length).length = HEADER_SIZE := rfl
  have hb : fromBeBytes (toBeBytes e.data.length) = e.data.length := by
    simpa using fromBeBytes_toBeBytes hsize []
  rw [Envelope.wire, List.append_assoc, decodeWith_header hh]
  simp only [List.drop_succ_cons, List.drop_zero, List.headD_cons, hb]
  rw [if_neg (by omega), List.take_left, List.drop_left, if_neg]
  rw [List.length_append]
  omega

theorem toBeBytes_fromBeBytes {b : Bytes} (h : b.length = 4) : toBeBytes (fromBeBytes b) = b := by
  obtain ⟨b1, b2, b3, b4, rfl⟩ : ∃ b1 b2 b3 b4, b = [b1, b2, b3, b4] := by
    rcases b with _ | ⟨b1, _ | ⟨b2, _ | ⟨b3, _ | ⟨b4, _ | ⟨x, t⟩⟩⟩⟩⟩ <;> simp at h
    exact ⟨b1, b2, b3, b4, rfl⟩
  have h1 := b1.toNat_lt
  have h2 := b2.toNat_lt
  have h3 := b3.toNat_lt
  have h4 := b4.toNat_lt
  have hbyte : ∀ (n : ℕ) (x : UInt8), n % 256 = x.toNat → UInt8.ofNat n = x := by
    intro n x hn
    refine UInt8.toNat_inj.mp ?_
    rw [UInt8.toNat_ofNat', hn]
  rw [fromBeBytes, toBeBytes, hbyte _ b1 (by omega), hbyte _ b2 (by omega), hbyte _ b3 (by omega),
    hbyte _ b4 (by omega)]

/-- An envelope cut off the front was there in its wire form. -/
theorem decodeWith_eq_wire {buf rest : Bytes} {e : Envelope}
    (h : decodeWith limitOf buf = .ok (some (e, rest))) : buf = e.wire ++ rest := by
  obtain ⟨header, hlen, rfl, hflag, hdata, -⟩ := decodeWith_item h
  rcases header with _ | ⟨f, header⟩
  · cases hlen
  · have hheader : toBeBytes e.data.length = header := by
      rw [hdata]
      exact toBeBytes_fromBeBytes (by simpa [HEADER_SIZE] using hlen)
    rw [Envelope.wire, hheader, hflag, ← List.append_assoc]
    rfl

theorem length_of_decodeWith {buf rest : Bytes} {e : Envelope}
    (h : decodeWith limitOf buf = .ok (some (e, rest))) : e.data.length ≤ u32Max := by
  obtain ⟨header, -, -, -, hdata, -⟩ := decodeWith_item h
  rw [hdata]
  exact fromBeBytes_le _

end

/-! ## Whole envelopes -/

/-- The decoder with a limit no length field exceeds. -/
def decodeAny : Parser UInt8 Envelope ConnectError :=
  decodeWith (messageLimit u32Max)

/-- Bytes that are a whole number of complete envelopes. -/
def WholeEnvelopes (b : Bytes) : Prop :=
  (parse decodeAny b).stop = .rest []

theorem decodeAny_wire {e : Envelope} (h : e.data.length ≤ u32Max) (rest : Bytes) :
    decodeAny (e.wire ++ rest) = .ok (some (e, rest)) :=
  decodeWith_wire rest h h

/-- Bytes are whole envelopes when some envelopes are written as them. -/
theorem wholeEnvelopes_iff {b : Bytes} :
    WholeEnvelopes b ↔
      ∃ es : List Envelope, (∀ e ∈ es, e.data.length ≤ u32Max) ∧ b = es.flatMap Envelope.wire := by
  have hstable := decodeWith_stable (messageLimit u32Max)
  constructor
  · intro h
    obtain ⟨r, hr, hstop⟩ := hstable.parse_eq_flatMap decodeWith_eq_wire b
    obtain rfl := hstop [] h
    rw [List.append_nil] at hr
    exact ⟨_, hstable.parse_forall length_of_decodeWith b, hr⟩
  · rintro ⟨es, hes, rfl⟩
    have hparse := hstable.parse_flatMap (fun e he r => decodeAny_wire (hes e he) r) []
    rw [List.append_nil] at hparse
    rw [WholeEnvelopes, decodeAny, hparse, Parsed.stop_prepend, parse_none (decodeWith_short (by decide))]

/-- What is left incomplete under a limit is incomplete without one. -/
theorem decodeAny_of_none {limitOf : LimitOf} {b : Bytes} (h : decodeWith limitOf b = .ok none) :
    decodeAny b = .ok none := by
  by_cases hlen : b.length < HEADER_SIZE
  · exact decodeWith_short hlen
  · obtain ⟨header, rest, rfl, hh⟩ := exists_header hlen
    rw [decodeWith_header hh] at h
    rw [decodeAny, decodeWith_header hh]
    have hle : ¬ fromBeBytes (header.drop 1) > (messageLimit u32Max (header.headD 0)).2 :=
      Nat.not_lt.mpr (fromBeBytes_le _)
    simp only at h ⊢
    rw [if_neg hle]
    split at h
    · cases h
    · split at h
      · rename_i hshort
        rw [if_pos hshort]
      · cases h

/-- Data that a limited decoder leaves a remainder of is whole envelopes exactly if
the remainder is empty. -/
theorem wholeEnvelopes_of_rest {limitOf : LimitOf} {b r : Bytes}
    (h : (parse (decodeWith limitOf) b).stop = .rest r) : WholeEnvelopes b ↔ r = [] := by
  have hstable := decodeWith_stable limitOf
  have hany := decodeWith_stable (messageLimit u32Max)
  obtain ⟨r', hr', hstop⟩ := hstable.parse_eq_flatMap decodeWith_eq_wire b
  obtain rfl := hstop r h
  have hitems := hstable.parse_forall (P := fun e => e.data.length ≤ u32Max) length_of_decodeWith b
  have hparse := hany.parse_flatMap (fun e he r => decodeAny_wire (hitems e he) r) r
  have hrest := parse_none (decodeAny_of_none (hstable.parse_rest h))
  rw [← hr'] at hparse
  rw [WholeEnvelopes, decodeAny, hparse, Parsed.stop_prepend]
  rw [decodeAny] at hrest
  rw [hrest]
  simp

/-! ## The encoder -/

/-- An encoded message body, in one piece or several. -/
inductive EncodedBody : Type where
  /-- one buffer -/
  | contiguous : Bytes → EncodedBody
  /-- several buffers, in wire order -/
  | segmented : List Bytes → EncodedBody
  deriving DecidableEq

namespace EncodedBody

/-- The segments in wire order. -/
def segments : EncodedBody → List Bytes
  | contiguous b => [b]
  | segmented v => v

/-- The total length. -/
def len : EncodedBody → ℕ
  | contiguous b => b.length
  | segmented v => v.foldr (fun segment n => segment.length + n) 0

/-- The body as one buffer. -/
def intoContiguous : EncodedBody → Bytes
  | contiguous b => b
  | segmented v => v.flatten

theorem flatten_segments (b : EncodedBody) : b.segments.flatten = b.intoContiguous := by
  cases b <;> simp [segments, intoContiguous]

theorem len_eq (b : EncodedBody) : b.len = b.intoContiguous.length := by
  cases b with
  | contiguous b => rfl
  | segmented v =>
    simp only [len, intoContiguous]
    induction v with
    | nil => rfl
    | cons s v ih => rw [List.foldr_cons, List.flatten_cons, List.length_append, ih]

end EncodedBody

/-- The error for a payload whose length does not fit the length field. -/
def lengthOverflow (len : ℕ) : ConnectError :=
  .resourceExhausted s!"envelope payload {len} bytes exceeds u32::MAX"

/-- The length field for a payload. -/
def envelopeLength (len : ℕ) : Except ConnectError ℕ :=
  if len ≤ u32Max then .ok len else .error (lengthOverflow len)

/-- Write an envelope header. -/
def putEnvelopeHeader (flag : UInt8) (len : ℕ) (dst : Bytes) : Bytes :=
  dst ++ flag :: toBeBytes len

/-- Write one envelope. -/
def writeEnvelope (flag : UInt8) (data dst : Bytes) : Except ConnectError Bytes :=
  (envelopeLength data.length).map fun len => putEnvelopeHeader flag len dst ++ data

/-- Write an envelope header, then the body after it if it is shorter than
`minChain` (when there is such a bound), else hand the body's segments over to
`chained`. -/
def writeEnvelopeChained (flag : UInt8) (body : EncodedBody) (dst : Bytes)
    (chained : List Bytes) (minChain : Option ℕ) : Except ConnectError (Bytes × List Bytes) :=
  (envelopeLength body.len).map fun declared =>
    let head := putEnvelopeHeader flag declared dst
    if minChain.all (fun bound => body.len < bound) then (head ++ body.segments.flatten, chained)
    else (head, chained ++ body.segments)

/-- The streaming encoder. -/
structure EnvelopeEncoder where
  /-- the registry and the encoding name, when one was negotiated -/
  compression : Option (CompressionRegistry × String)
  /-- when to compress -/
  policy : CompressionPolicy

namespace EnvelopeEncoder

/-- An encoder without compression. -/
def uncompressed : EnvelopeEncoder :=
  ⟨none, .disabled⟩

/-- The flag and the body an encoder sends for a message. -/
def prepare (enc : EnvelopeEncoder) (body : EncodedBody) :
    Except ConnectError (UInt8 × EncodedBody) :=
  match enc.compression with
  | some (reg, encoding) =>
    if enc.policy.shouldCompress body.len then
      (reg.compress encoding body.intoContiguous).map fun b =>
        (flags.COMPRESSED, .contiguous b)
    else .ok (flags.DATA, body)
  | none => .ok (flags.DATA, body)

/-- `EnvelopeEncoder::encode_chained`. The bound is absent where the source passes
`usize::MAX`. -/
def encodeChained (enc : EnvelopeEncoder) (body : EncodedBody) (dst : Bytes)
    (chained : List Bytes) (minChain : Option ℕ) : Except ConnectError (Bytes × List Bytes) :=
  match enc.prepare body with
  | .error e => .error e
  | .ok (flag, body) => writeEnvelopeChained flag body dst chained minChain

/-- `Encoder::encode`: never chain. -/
def encode (enc : EnvelopeEncoder) (data dst : Bytes) : Except ConnectError Bytes :=
  (enc.encodeChained (.contiguous data) dst [] none).map Prod.fst

/-- `EnvelopeEncoder::encode_end_stream`. -/
def encodeEndStream (data dst : Bytes) : Except ConnectError Bytes :=
  writeEnvelope flags.END_STREAM data dst

/-- The envelope an encoder makes of a message. -/
def envelope (enc : EnvelopeEncoder) (body : EncodedBody) : Except ConnectError Envelope :=
  match enc.prepare body with
  | .error e => .error e
  | .ok (flag, body) =>
    (envelopeLength body.len).map fun _ => ⟨flag, body.intoContiguous⟩

end EnvelopeEncoder

theorem envelopeLength_eq_ok {len n : ℕ} (h : envelopeLength len = .ok n) :
    n = len ∧ len ≤ u32Max := by
  simp only [envelopeLength] at h
  split at h
  · rename_i hle
    cases h
    exact ⟨rfl, hle⟩
  · cases h

theorem envelopeLength_of_le {len : ℕ} (h : len ≤ u32Max) : envelopeLength len = .ok len := by
  rw [envelopeLength, if_pos h]

theorem writeEnvelope_eq {flag : UInt8} {data dst : Bytes} (h : data.length ≤ u32Max) :
    writeEnvelope flag data dst = .ok (dst ++ (Envelope.mk flag data).wire) := by
  simp [writeEnvelope, envelopeLength_of_le h, Except.map, putEnvelopeHeader, Envelope.wire]

namespace EnvelopeEncoder

/-- An envelope an encoder makes fits the length field. -/
theorem envelope_length {enc : EnvelopeEncoder} {body : EncodedBody} {e : Envelope}
    (h : enc.envelope body = .ok e) : e.data.length ≤ u32Max := by
  simp only [envelope] at h
  split at h
  · cases h
  · rename_i flag b _
    rcases hl : envelopeLength b.len with x | n
    · rw [hl] at h
      cases h
    · rw [hl] at h
      cases h
      rw [← EncodedBody.len_eq]
      exact (envelopeLength_eq_ok hl).2

/-- What an encoder prepares is the message itself, or the message compressed where
the policy asks for it. -/
theorem prepare_cases {enc : EnvelopeEncoder} {body b : EncodedBody} {flag : UInt8}
    (h : enc.prepare body = .ok (flag, b)) :
    (flag = flags.DATA ∧ b = body ∧
        (enc.compression = none ∨ enc.policy.shouldCompress body.len = false)) ∨
      ∃ reg encoding z, enc.compression = some (reg, encoding) ∧
        enc.policy.shouldCompress body.len = true ∧
        reg.compress encoding body.intoContiguous = .ok z ∧ flag = flags.COMPRESSED ∧
        b = .contiguous z := by
  rw [prepare] at h
  rcases hc : enc.compression with _ | ⟨reg, encoding⟩
  · rw [hc] at h
    cases h
    exact .inl ⟨rfl, rfl, .inl rfl⟩
  · simp only [hc] at h
    by_cases hs : enc.policy.shouldCompress body.len = true
    · rw [if_pos hs] at h
      rcases hz : reg.compress encoding body.intoContiguous with err | z
      · rw [hz] at h
        cases h
      · rw [hz] at h
        cases h
        exact .inr ⟨reg, encoding, z, rfl, hs, hz, rfl, rfl⟩
    · rw [if_neg hs] at h
      cases h
      exact .inl ⟨rfl, rfl, .inr (by simpa using hs)⟩

/-- So is the envelope it makes. -/
theorem envelope_cases {enc : EnvelopeEncoder} {body : EncodedBody} {e : Envelope}
    (h : enc.envelope body = .ok e) :
    (e = ⟨flags.DATA, body.intoContiguous⟩ ∧
        (enc.compression = none ∨ enc.policy.shouldCompress body.len = false)) ∨
      ∃ reg encoding z, enc.compression = some (reg, encoding) ∧
        enc.policy.shouldCompress body.len = true ∧
        reg.compress encoding body.intoContiguous = .ok z ∧ e = ⟨flags.COMPRESSED, z⟩ := by
  rw [envelope] at h
  rcases hp : enc.prepare body with err | ⟨flag, b⟩
  · rw [hp] at h
    cases h
  · simp only [hp] at h
    rcases hl : envelopeLength b.len with err | n
    · rw [hl] at h
      cases h
    · rw [hl] at h
      obtain rfl := Except.ok.inj h
      rcases prepare_cases hp with ⟨rfl, rfl, hno⟩ | ⟨reg, encoding, z, hc, hs, hz, rfl, rfl⟩
      · exact .inl ⟨rfl, hno⟩
      · exact .inr ⟨reg, encoding, z, hc, hs, hz, rfl⟩

/-- **Where the bytes of an envelope go.** Encoding a message either fails as
`envelope` does, or appends bytes to the buffer and segments to the queue which
together are the envelope's wire form; the header is always in the buffer, and
segments are queued only for a payload of the bound or more. -/
theorem encodeChained_eq (enc : EnvelopeEncoder) (body : EncodedBody) (dst : Bytes)
    (chained : List Bytes) (minChain : Option ℕ) :
    match enc.envelope body with
    | .error e => enc.encodeChained body dst chained minChain = .error e
    | .ok e => ∃ head segs, enc.encodeChained body dst chained minChain =
        .ok (dst ++ head, chained ++ segs) ∧ head ++ segs.flatten = e.wire ∧ head ≠ [] := by
  rcases hp : enc.prepare body with e | ⟨flag, b⟩
  · simp only [envelope, encodeChained, hp]
  · rcases hl : envelopeLength b.len with e | n
    · simp only [envelope, encodeChained, writeEnvelopeChained, hp, hl, Except.map]
    · obtain ⟨rfl, -⟩ := envelopeLength_eq_ok hl
      simp only [envelope, encodeChained, writeEnvelopeChained, hp, hl, Except.map]
      by_cases hc : minChain.all (fun bound => b.len < bound) = true
      · refine ⟨flag :: toBeBytes b.len ++ b.segments.flatten, [], ?_, ?_, by simp⟩
        · rw [if_pos hc]
          simp [putEnvelopeHeader]
        · simp [Envelope.wire, EncodedBody.flatten_segments, EncodedBody.len_eq]
      · refine ⟨flag :: toBeBytes b.len, b.segments, ?_, ?_, by simp⟩
        · rw [if_neg hc]
          rfl
        · simp [Envelope.wire, EncodedBody.flatten_segments, EncodedBody.len_eq]

/-- `encode` appends the envelope's wire form. -/
theorem encode_eq (enc : EnvelopeEncoder) (data dst : Bytes) :
    enc.encode data dst =
      (enc.envelope (.contiguous data)).map fun e => dst ++ e.wire := by
  rcases hp : enc.prepare (.contiguous data) with e | ⟨flag, b⟩
  · simp [envelope, encode, encodeChained, hp, Except.map]
  · rcases hl : envelopeLength b.len with e | n
    · simp [envelope, encode, encodeChained, writeEnvelopeChained, hp, hl, Except.map]
    · obtain ⟨rfl, -⟩ := envelopeLength_eq_ok hl
      simp only [envelope, encode, encodeChained, writeEnvelopeChained, hp, hl, Except.map]
      simp [putEnvelopeHeader, Envelope.wire, EncodedBody.flatten_segments, EncodedBody.len_eq]

end EnvelopeEncoder

end ConnectRpc
