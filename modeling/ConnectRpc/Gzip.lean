import ConnectRpc.Envelope
import ConnectRpc.GzipHeader
import Mathlib.Algebra.Group.Nat.Defs

/-!
# Gzip

The provider drives the raw codecs of `flate2`, which it keeps in pools. A raw codec is fed with
what is left of the input and appends to a buffer as long as there is room; the loop around it
makes room, up to one byte more than the limit, and follows how much was read.

What `flate2` promises is `Flate2.Lawful`, about a relation between DEFLATE streams and what they
hold. Each loop is treated by one round and a rule for loops (`Outcome.loop_keeps`). A codec from
a pool is as good as a new one (`Reachable.decompressor`), whatever the calls before have done to
it.
-/

namespace ConnectRpc

/-! ## Loops -/

/-- A loop. A round says whether it goes on; `running` is a loop that has not ended in so many
rounds. -/
def Outcome.loop {σ : Type} (round : σ → Outcome Bool × σ) : ℕ → σ → Outcome Unit × σ
  | 0, s => (.running, s)
  | fuel + 1, s =>
    match round s with
    | (.value true, s) => loop round fuel s
    | (.value false, s) => (.value (), s)
    | (.failed e, s) => (.failed e, s)
    | (.panicked, s) => (.panicked, s)
    | (.running, s) => (.running, s)

/-- How a round ends a loop. -/
inductive Outcome.Stops {σ : Type} (ends : Outcome Unit → σ → Prop) : Outcome Bool × σ → Prop where
  | done {s : σ} (h : ends (.value ()) s) : Stops ends (.value false, s)
  | failed {e : ConnectError} {s : σ} (h : ends (.failed e) s) : Stops ends (.failed e, s)

/-- **The rule for loops**: each round goes on, and then keeps what holds and comes closer to the
end, or it ends the loop. -/
theorem Outcome.loop_keeps {σ : Type} {round : σ → Outcome Bool × σ} {holds : σ → Prop}
    {left : σ → ℕ} {ends : Outcome Unit → σ → Prop}
    (hround : ∀ s, holds s →
      (∃ s', round s = (.value true, s') ∧ holds s' ∧ left s' < left s) ∨ Stops ends (round s)) :
    ∀ (fuel : ℕ) (s : σ), holds s → left s < fuel →
      ends (loop round fuel s).1 (loop round fuel s).2 := by
  intro fuel
  induction fuel with
  | zero => exact fun s _ hleft => absurd hleft (Nat.not_lt_zero _)
  | succ fuel ih =>
    intro s hs hleft
    rw [loop]
    rcases hround s hs with ⟨s', heq, hs', hless⟩ | hstops
    · rw [heq]
      exact ih s' hs' (by omega)
    · cases hr : round s with
      | mk o s' =>
        rw [hr] at hstops
        cases hstops with
        | done h => exact h
        | failed h => exact h

namespace Gzip

/-! ## The raw codecs -/

/-- `flate2::Status`. -/
inductive CodecStatus : Type where
  | ok
  | bufError
  | streamEnd

/-- What a call does. -/
structure Progress (σ : Type) where
  /-- the status, or an error -/
  status : Except String CodecStatus
  /-- what is appended to the output -/
  written : Bytes
  /-- the codec after it -/
  state : σ

/-- A raw codec, which is called with some input and room for so many bytes. -/
structure RawCodec where
  /-- its states -/
  State : Type
  /-- `total_in` -/
  totalIn : State → ℕ
  /-- `compress_vec` with `Finish`, or `decompress_vec` -/
  vec : State → Bytes → ℕ → Progress State
  /-- `reset` -/
  reset : State → State
  /-- what is consumed counts -/
  le_totalIn : ∀ s input room, totalIn s ≤ totalIn (vec s input room).state
  /-- no more is consumed than there is -/
  totalIn_le : ∀ s input room, totalIn (vec s input room).state ≤ totalIn s + input.length
  /-- no more is appended than there is room for -/
  fits : ∀ s input room, (vec s input room).written.length ≤ room

namespace RawCodec

variable (k : RawCodec)

/-- The part of the input that a call consumes. -/
def consumed (s : k.State) (input : Bytes) (room : ℕ) : Bytes :=
  input.take (k.totalIn (k.vec s input room).state - k.totalIn s)

/-- A codec that is in use. -/
inductive Used (start : k.State) : k.State → Prop where
  | start : Used start start
  | vec {s : k.State} (h : Used start s) (input : Bytes) (room : ℕ) :
      Used start (k.vec s input room).state

/-- A codec that has consumed and written this, and has more to do. -/
inductive Reads (start : k.State) : k.State → Bytes → Bytes → Prop where
  | start : Reads start start [] []
  | vec {s : k.State} {c o : Bytes} (h : Reads start s c o) (input : Bytes) (room : ℕ)
      (hok : (k.vec s input room).status = .ok .ok) :
      Reads start (k.vec s input room).state (c ++ k.consumed s input room)
        (o ++ (k.vec s input room).written)

/-- A codec that is to compress `data`, has consumed this much of it and written this. -/
inductive Finishes (start : k.State) (data : Bytes) : k.State → ℕ → Bytes → Prop where
  | start : Finishes start data start 0 []
  | vec {s : k.State} {n : ℕ} {o : Bytes} (h : Finishes start data s n o) (room : ℕ)
      (status : CodecStatus) (hok : (k.vec s (data.drop n) room).status = .ok status)
      (hmore : status ≠ .streamEnd) :
      Finishes start data (k.vec s (data.drop n) room).state
        (n + (k.totalIn (k.vec s (data.drop n) room).state - k.totalIn s))
        (o ++ (k.vec s (data.drop n) room).written)

end RawCodec

/-- `flate2`: `Compress` and `Decompress`, for raw streams. -/
structure Flate2 where
  /-- `Compress` -/
  compress : RawCodec
  /-- `Compress::new`, of a level -/
  newCompress : ℕ → compress.State
  /-- `Decompress` -/
  decompress : RawCodec
  /-- `Decompress::new` -/
  newDecompress : decompress.State

/-- What `flate2` promises, for the streams of the DEFLATE format and what they hold. -/
structure Flate2.Lawful (f : Flate2) (stream : Bytes → Bytes → Prop) : Prop where
  /-- a stream holds one thing -/
  holds_one : ∀ {z x y : Bytes}, stream z x → stream z y → x = y
  /-- a stream tells where it ends -/
  tells_end : ∀ {z rest x y : Bytes}, stream z x → stream (z ++ rest) y → rest = []
  /-- `reset` makes a `Decompress` as good as new -/
  reset_decompress : ∀ {d : f.decompress.State}, f.decompress.Used f.newDecompress d →
    f.decompress.reset d = f.newDecompress
  /-- and a `Compress`, of its level -/
  reset_compress : ∀ {level : ℕ} {c : f.compress.State}, f.compress.Used (f.newCompress level) c →
    f.compress.reset c = f.newCompress level
  /-- `StreamEnd` is reported at the end of a stream -/
  stream_end : ∀ {d : f.decompress.State} {c o : Bytes} (input : Bytes) (room : ℕ),
    f.decompress.Reads f.newDecompress d c o →
    (f.decompress.vec d input room).status = .ok .streamEnd →
    stream (c ++ f.decompress.consumed d input room) (o ++ (f.decompress.vec d input room).written)
  /-- `Ok` is reported when there was progress, as `BufError` is without -/
  progress : ∀ {d : f.decompress.State} {c o : Bytes} (input : Bytes) (room : ℕ),
    f.decompress.Reads f.newDecompress d c o →
    (f.decompress.vec d input room).status = .ok .ok →
    f.decompress.totalIn d < f.decompress.totalIn (f.decompress.vec d input room).state ∨
      (f.decompress.vec d input room).written ≠ []
  /-- with a whole stream before it, and with room, progress is possible, and it writes what the
  stream holds -/
  inflates : ∀ {d : f.decompress.State} {c o input z x : Bytes} {room : ℕ},
    f.decompress.Reads f.newDecompress d c o → stream z x → z <+: c ++ input → 0 < room →
    ((f.decompress.vec d input room).status = .ok .ok ∨
      (f.decompress.vec d input room).status = .ok .streamEnd) ∧
    o ++ (f.decompress.vec d input room).written <+: x
  /-- a `Compress` that has room makes progress, until it has written a stream of its input -/
  deflates : ∀ {level : ℕ} {data : Bytes} {c : f.compress.State} {n room : ℕ} {o : Bytes},
    level ≤ 9 → f.compress.Finishes (f.newCompress level) data c n o → 0 < room →
    ((f.compress.vec c (data.drop n) room).status = .ok .streamEnd ∧
      stream (o ++ (f.compress.vec c (data.drop n) room).written) data) ∨
    ∃ status, (f.compress.vec c (data.drop n) room).status = .ok status ∧ status ≠ .streamEnd ∧
      (f.compress.totalIn c < f.compress.totalIn (f.compress.vec c (data.drop n) room).state ∨
        (f.compress.vec c (data.drop n) room).written ≠ [])
  /-- what it writes is bounded -/
  deflate_bound : ∀ (level : ℕ) (data : Bytes), level ≤ 9 → ∃ bound : ℕ,
    ∀ {c : f.compress.State} {n : ℕ} {o : Bytes},
      f.compress.Finishes (f.newCompress level) data c n o → o.length ≤ bound

/-! ## Checksums -/

/-- One bit of the checksum. -/
def crcBit (c : UInt32) : UInt32 :=
  if c &&& 1 = 1 then (c >>> 1) ^^^ 0xEDB88320 else c >>> 1

/-- One byte. -/
def crcByte (c : UInt32) (b : UInt8) : UInt32 :=
  crcBit (crcBit (crcBit (crcBit (crcBit (crcBit (crcBit (crcBit (c ^^^ b.toUInt32))))))))

/-- `flate2::Crc`, the CRC-32 of RFC 1952. -/
def crc32 (data : Bytes) : UInt32 :=
  data.foldl crcByte 0xFFFFFFFF ^^^ 0xFFFFFFFF

/-- `u32::to_le_bytes`. -/
def toLeBytes (n : ℕ) : Bytes := (toBeBytes n).reverse

/-- `u32::from_le_bytes`. -/
def fromLeBytes (b : Bytes) : ℕ := fromBeBytes b.reverse

theorem fromLeBytes_eq_iff {b : Bytes} {n : ℕ} (hb : b.length = 4) (hn : n ≤ u32Max) :
    fromLeBytes b = n ↔ b = toLeBytes n := by
  constructor
  · rintro rfl
    rw [toLeBytes, fromLeBytes, toBeBytes_fromBeBytes (by rw [List.length_reverse, hb]),
      List.reverse_reverse]
  · rintro rfl
    rw [toLeBytes, fromLeBytes, List.reverse_reverse]
    have h := fromBeBytes_toBeBytes hn []
    rwa [List.append_nil] at h

/-- The checksum and the length, as they follow a stream. -/
def trailerOf (x : Bytes) : Bytes :=
  toLeBytes (crc32 x).toNat ++ toLeBytes (x.length % 2 ^ 32)

/-- Bytes that begin with a gzip member that holds `x`. -/
def IsGzipMember (stream : Bytes → Bytes → Prop) (data x : Bytes) : Prop :=
  ∃ header z rest, IsGzipHeader header ∧ stream z x ∧ data = header ++ z ++ trailerOf x ++ rest

/-! ## The provider -/

/-- A `Vec`, which has room up to its capacity. -/
structure Buffer where
  /-- what it holds -/
  bytes : Bytes
  /-- its capacity -/
  capacity : ℕ

/-- The room that is left. -/
def Buffer.room (b : Buffer) : ℕ := b.capacity - b.bytes.length

/-- `Vec::reserve_exact`. -/
def Buffer.reserveExact (b : Buffer) (additional : ℕ) : Buffer :=
  { b with capacity := max b.capacity (b.bytes.length + additional) }

/-- What is appended where there is room for it. -/
def Buffer.append (b : Buffer) (bytes : Bytes) : Buffer :=
  { b with bytes := b.bytes ++ bytes }

/-- A buffer that is being filled, and the codec that fills it. -/
structure Coding (k : RawCodec) where
  /-- the buffer -/
  output : Buffer
  /-- the codec -/
  codec : k.State

/-- Some bytes from an offset on. -/
def sliceFrom (data : Bytes) (i : ℕ) : Outcome Bytes :=
  if i ≤ data.length then .value (data.drop i) else .panicked

/-- `initial_decompress_capacity`. The numbers are sizes of things in memory, so a sum of them does
not overflow; nor is a limit that large ever reached. -/
def initialDecompressCapacity (inputLen multiplier : ℕ) (maxSize : Option ℕ) : ℕ :=
  match maxSize with
  | some limit => min (max (inputLen * multiplier) 256) (limit + 1)
  | none => max (inputLen * multiplier) 256

/-- The error for too large a message. -/
def exceedsLimit (limit : ℕ) : ConnectError :=
  .resourceExhausted s!"decompressed size exceeds limit {limit}"

/-- Whether an output is past the limit. -/
def pastLimit (maxSize : Option ℕ) (output : Bytes) : Option ℕ :=
  maxSize.filter fun limit => decide (output.length > limit)

/-- Makes room in a buffer that is full, but not for more than one byte past the limit. -/
def makeRoom (maxSize : Option ℕ) (output : Buffer) : Outcome Buffer :=
  if output.capacity = output.bytes.length then
    match pastLimit maxSize output.bytes with
    | some limit => .failed (exceedsLimit limit)
    | none =>
      let additional := max output.bytes.length 4096
      match maxSize with
      | some limit => .value (output.reserveExact (min additional (limit + 1 - output.capacity)))
      | none => .value (output.reserveExact additional)
  else .value output

/-- One round of the loop in `decompress_inner`, with whether it goes on. -/
def inflateRound (k : RawCodec) (streamData : Bytes) (startIn : ℕ) (maxSize : Option ℕ)
    (s : Coding k) : Outcome Bool × Coding k :=
  let consumed := k.totalIn s.codec - startIn
  match makeRoom maxSize s.output with
  | .value output =>
    match sliceFrom streamData consumed with
    | .value input =>
      let p := k.vec s.codec input output.room
      (match p.status with
        | .error e => .failed (malformedCompressedPayload s!"gzip decompression failed: {e}")
        | .ok .streamEnd => .value false
        | .ok .ok => .value true
        -- there is room, so what is missing is input
        | .ok .bufError => .failed (malformedCompressedPayload
            "gzip decompression stalled: truncated or invalid deflate stream"),
        ⟨output.append p.written, p.state⟩)
    | _ => (.panicked, ⟨output, s.codec⟩)
  | .failed e => (.failed e, s)
  | _ => (.panicked, s)

/-- What `decompress_inner` does after its loop: it compares the trailer. -/
def checkTrailer (streamData : Bytes) (trailerStart : ℕ) (maxSize : Option ℕ) (output : Bytes) :
    Outcome Bytes :=
  match pastLimit maxSize output with
  | some limit => .failed (exceedsLimit limit)
  | none =>
    if streamData.length < trailerStart + 8 then
      .failed (malformedCompressedPayload "gzip data too short for trailer")
    else
      (sliceFrom streamData trailerStart).bind fun trailer =>
      let expectedCrc := fromLeBytes (trailer.take 4)
      let expectedSize := fromLeBytes ((trailer.drop 4).take 4)
      if (crc32 output).toNat ≠ expectedCrc then
        .failed (malformedCompressedPayload "gzip CRC32 mismatch")
      else if expectedSize ≠ output.length % 2 ^ 32 then
        .failed (malformedCompressedPayload "gzip size mismatch")
      else .value output

/-- `GzipProvider::decompress_inner`, with the buffer and the codec after it. -/
def decompressInner (k : RawCodec) (fuel : ℕ) (decompressor : k.State) (data : Bytes)
    (maxSize : Option ℕ) : Outcome Bytes × Coding k :=
  match (gzipHeaderLen data).bind (sliceFrom data) with
  | .value streamData =>
    let startIn := k.totalIn decompressor
    let output := ⟨[], initialDecompressCapacity data.length 2 maxSize⟩
    let r := Outcome.loop (inflateRound k streamData startIn maxSize) fuel ⟨output, decompressor⟩
    (r.1.bind fun _ =>
      checkTrailer streamData (k.totalIn r.2.codec - startIn) maxSize r.2.output.bytes, r.2)
  | .failed e => (.failed e, ⟨⟨[], 0⟩, decompressor⟩)
  | _ => (.panicked, ⟨⟨[], 0⟩, decompressor⟩)

/-- The bytes around a stream. -/
def GZIP_FRAMING_LEN : ℕ := 18

/-- The header that `compress_inner` writes. -/
def plainHeader : Bytes := [0x1f, 0x8b, 0x08, 0x00, 0x00, 0x00, 0x00, 0x00, 0x00, 0xff]

/-- One round of the loop in `compress_inner`. -/
def deflateRound (k : RawCodec) (data : Bytes) (startIn : ℕ) (s : Coding k) :
    Outcome Bool × Coding k :=
  let consumed := k.totalIn s.codec - startIn
  let output :=
    if s.output.bytes.length = s.output.capacity then s.output.reserveExact 4096 else s.output
  match sliceFrom data consumed with
  | .value input =>
    let p := k.vec s.codec input output.room
    (match p.status with
      | .error e => .failed (.internal s!"gzip compression failed: {e}")
      | .ok .streamEnd => .value false
      | .ok _ => .value true,
      ⟨output.append p.written, p.state⟩)
  | _ => (.panicked, ⟨output, s.codec⟩)

/-- `GzipProvider::compress_inner`. Whether the buffer is copied in the end makes no difference to
what it holds. -/
def compressInner (k : RawCodec) (fuel : ℕ) (compressor : k.State) (data : Bytes) :
    Outcome Bytes × Coding k :=
  let deflateBound := data.length + (data.length + 7) / 8 + (data.length + 63) / 64 + 5
  let output := ⟨plainHeader, GZIP_FRAMING_LEN + deflateBound⟩
  let r := Outcome.loop (deflateRound k data (k.totalIn compressor)) fuel ⟨output, compressor⟩
  (r.1.bind fun _ => .value (r.2.output.bytes ++ trailerOf data), r.2)

/-- `GzipProvider`. The codec that is taken next from a pool comes first. -/
structure GzipProvider (f : Flate2) where
  /-- the level -/
  level : ℕ
  /-- the pools -/
  compressors : List f.compress.State
  decompressors : List f.decompress.State

namespace GzipProvider

variable {f : Flate2}

/-- `MAX_POOL_SIZE`. -/
def MAX_POOL_SIZE : ℕ := 64

/-- `GzipProvider::with_level`. -/
def withLevel (f : Flate2) (level : ℕ) : GzipProvider f := ⟨level, [], []⟩

/-- `take_compressor`. -/
def takeCompressor (p : GzipProvider f) : f.compress.State × GzipProvider f :=
  match p.compressors with
  | c :: rest => (c, { p with compressors := rest })
  | [] => (f.newCompress p.level, p)

/-- `return_compressor`. -/
def returnCompressor (p : GzipProvider f) (c : f.compress.State) : GzipProvider f :=
  if p.compressors.length < MAX_POOL_SIZE then
    { p with compressors := f.compress.reset c :: p.compressors }
  else p

/-- `take_decompressor`. -/
def takeDecompressor (p : GzipProvider f) : f.decompress.State × GzipProvider f :=
  match p.decompressors with
  | d :: rest => (d, { p with decompressors := rest })
  | [] => (f.newDecompress, p)

/-- `return_decompressor`. -/
def returnDecompressor (p : GzipProvider f) (d : f.decompress.State) : GzipProvider f :=
  if p.decompressors.length < MAX_POOL_SIZE then
    { p with decompressors := f.decompress.reset d :: p.decompressors }
  else p

/-- `compress`. -/
def compress (p : GzipProvider f) (fuel : ℕ) (data : Bytes) : Outcome Bytes × GzipProvider f :=
  let (c, p) := p.takeCompressor
  let r := compressInner f.compress fuel c data
  (r.1, p.returnCompressor r.2.codec)

/-- `decompress_with_limit`, with the capacity that the buffer has had. -/
def decompressWithLimit (p : GzipProvider f) (fuel : ℕ) (data : Bytes) (maxSize : ℕ) :
    (Outcome Bytes × ℕ) × GzipProvider f :=
  let (d, p) := p.takeDecompressor
  let r := decompressInner f.decompress fuel d data (some maxSize)
  ((r.1, r.2.output.capacity), p.returnDecompressor r.2.codec)

/-- A provider that has served any calls, at the same time or not, and whatever came of them: each
takes a codec from a pool, uses it and gives it back. -/
inductive Reachable (level : ℕ) : GzipProvider f → Prop where
  | new : Reachable level (withLevel f level)
  | takeCompressor {p : GzipProvider f} (h : Reachable level p) : Reachable level p.takeCompressor.2
  | returnCompressor {p : GzipProvider f} (h : Reachable level p) {c : f.compress.State}
      (hused : f.compress.Used (f.newCompress level) c) : Reachable level (p.returnCompressor c)
  | takeDecompressor {p : GzipProvider f} (h : Reachable level p) :
      Reachable level p.takeDecompressor.2
  | returnDecompressor {p : GzipProvider f} (h : Reachable level p) {d : f.decompress.State}
      (hused : f.decompress.Used f.newDecompress d) : Reachable level (p.returnDecompressor d)

end GzipProvider

/-! ## Decompressing -/

section Decompress

variable {f : Flate2} {stream : Bytes → Bytes → Prop} {streamData : Bytes} {limit : ℕ}

theorem sliceFrom_of_le {data : Bytes} {i : ℕ} (h : i ≤ data.length) :
    sliceFrom data i = .value (data.drop i) :=
  if_pos h

/-- There is room, or the limit is passed. -/
theorem makeRoom_cases {output : Buffer} (hheld : output.bytes.length ≤ output.capacity)
    (hcap : output.capacity ≤ limit + 1) :
    (makeRoom (some limit) output = .failed (exceedsLimit limit) ∧
      limit < output.bytes.length) ∨
    ∃ capacity, makeRoom (some limit) output = .value ⟨output.bytes, capacity⟩ ∧
      output.bytes.length < capacity ∧ capacity ≤ limit + 1 := by
  rw [makeRoom]
  by_cases hfull : output.capacity = output.bytes.length
  · rw [if_pos hfull]
    by_cases hpast : limit < output.bytes.length
    · rw [pastLimit, Option.filter_some, if_pos (decide_eq_true hpast)]
      exact .inl ⟨rfl, hpast⟩
    · rw [pastLimit, Option.filter_some, if_neg (by simpa using hpast)]
      refine .inr ⟨_, rfl, ?_, ?_⟩
      · omega
      · omega
  · rw [if_neg hfull]
    exact .inr ⟨output.capacity, rfl, by omega, hcap⟩

/-- Where the loop is: the codec has consumed `c`. -/
structure Inflated (f : Flate2) (stream : Bytes → Bytes → Prop) (streamData : Bytes) (limit : ℕ)
    (s : Coding f.decompress) (c : Bytes) : Prop where
  /-- and has written what is in the buffer -/
  reads : f.decompress.Reads f.newDecompress s.codec c s.output.bytes
  part : c <+: streamData
  counted : f.decompress.totalIn s.codec = f.decompress.totalIn f.newDecompress + c.length
  held : s.output.bytes.length ≤ s.output.capacity
  capacity : s.output.capacity ≤ limit + 1
  /-- which is a part of what a stream holds that is there -/
  within : ∀ z x, stream z x → z <+: streamData → s.output.bytes <+: x

/-- How the loop ends. -/
inductive InflateEnds (f : Flate2) (stream : Bytes → Bytes → Prop) (streamData : Bytes)
    (limit : ℕ) : Outcome Unit → Coding f.decompress → Prop where
  /-- at the end of a stream -/
  | done {s : Coding f.decompress} {c : Bytes} (hstream : stream c s.output.bytes)
      (part : c <+: streamData)
      (counted : f.decompress.totalIn s.codec = f.decompress.totalIn f.newDecompress + c.length)
      (capacity : s.output.capacity ≤ limit + 1) :
      InflateEnds f stream streamData limit (.value ()) s
  /-- past the limit -/
  | past {s : Coding f.decompress} {c : Bytes} (at_c : Inflated f stream streamData limit s c)
      (hlong : limit < s.output.bytes.length) :
      InflateEnds f stream streamData limit (.failed (exceedsLimit limit)) s
  /-- or because there is no stream -/
  | malformed {s : Coding f.decompress} {message : String} (capacity : s.output.capacity ≤ limit + 1)
      (hnone : ∀ z x, stream z x → ¬ z <+: streamData) :
      InflateEnds f stream streamData limit (.failed (malformedCompressedPayload message)) s

/-- What is left to do, at most. -/
def inflateLeft (f : Flate2) (streamData : Bytes) (limit : ℕ) (s : Coding f.decompress) : ℕ :=
  (f.decompress.totalIn f.newDecompress + streamData.length - f.decompress.totalIn s.codec) +
    (limit + 1 - s.output.bytes.length)

/-- **One round.** -/
theorem inflateRound_keeps (h : f.Lawful stream) (s : Coding f.decompress)
    (hs : ∃ c, Inflated f stream streamData limit s c) :
    (∃ s', inflateRound f.decompress streamData (f.decompress.totalIn f.newDecompress)
        (some limit) s = (.value true, s') ∧
      (∃ c, Inflated f stream streamData limit s' c) ∧
      inflateLeft f streamData limit s' < inflateLeft f streamData limit s) ∨
    Outcome.Stops (InflateEnds f stream streamData limit)
      (inflateRound f.decompress streamData (f.decompress.totalIn f.newDecompress)
        (some limit) s) := by
  obtain ⟨c, hs⟩ := hs
  have hcount : f.decompress.totalIn s.codec - f.decompress.totalIn f.newDecompress = c.length := by
    rw [hs.counted, Nat.add_sub_cancel_left]
  have hroom := makeRoom_cases hs.held hs.capacity
  obtain ⟨input, hinput⟩ := hs.part
  have hslice : sliceFrom streamData c.length = .value input := by
    rw [sliceFrom_of_le hs.part.length_le, ← hinput, List.drop_left]
  rcases hroom with ⟨hfull, hlong⟩ | ⟨capacity, hmade, hroom, hcap⟩
  · have hround : inflateRound f.decompress streamData
        (f.decompress.totalIn f.newDecompress) (some limit) s = (.failed (exceedsLimit limit), s) := by
      rw [inflateRound, hfull]
    rw [hround]
    exact .inr (.failed (.past hs hlong))
  · -- the codec is called with all that is left, and with room
    have hpos : 0 < (Buffer.mk s.output.bytes capacity).room := Nat.sub_pos_of_lt hroom
    generalize hp : f.decompress.vec s.codec input (Buffer.mk s.output.bytes capacity).room = p
    have hle := f.decompress.le_totalIn s.codec input (Buffer.mk s.output.bytes capacity).room
    have hge := f.decompress.totalIn_le s.codec input (Buffer.mk s.output.bytes capacity).room
    have hfits := f.decompress.fits s.codec input (Buffer.mk s.output.bytes capacity).room
    rw [hp] at hle hge hfits
    have hnone : ¬ (p.status = .ok .ok ∨ p.status = .ok .streamEnd) →
        ∀ z x, stream z x → ¬ z <+: streamData := by
      intro hbad z x hz hpre
      have hok := (h.inflates hs.reads hz (hinput ▸ hpre) hpos).1
      rw [hp] at hok
      exact hbad hok
    have hconsumed : f.decompress.consumed s.codec input
        (Buffer.mk s.output.bytes capacity).room =
          input.take (f.decompress.totalIn p.state - f.decompress.totalIn s.codec) := by
      rw [RawCodec.consumed, hp]
    have hpart : c ++ input.take (f.decompress.totalIn p.state - f.decompress.totalIn s.codec) <+:
        streamData := by
      rw [← hinput]
      exact (List.prefix_append_right_inj c).mpr (List.take_prefix _ _)
    have hcounted : f.decompress.totalIn p.state = f.decompress.totalIn f.newDecompress +
        (c ++ input.take (f.decompress.totalIn p.state - f.decompress.totalIn s.codec)).length := by
      rw [List.length_append, List.length_take, Nat.min_eq_left (by omega), ← Nat.add_assoc,
        ← hs.counted]
      omega
    rcases hstatus : p.status with e | _ | _ | _
    · have hround : inflateRound f.decompress streamData
          (f.decompress.totalIn f.newDecompress) (some limit) s =
          (.failed (malformedCompressedPayload s!"gzip decompression failed: {e}"),
            ⟨⟨s.output.bytes ++ p.written, capacity⟩, p.state⟩) := by
        rw [inflateRound, hmade, hcount]
        simp only [hslice, hp, hstatus]
        rfl
      rw [hround]
      exact .inr (.failed (.malformed hcap (hnone (by rw [hstatus]; simp))))
    · have hround : inflateRound f.decompress streamData
          (f.decompress.totalIn f.newDecompress) (some limit) s =
          (.value true, ⟨⟨s.output.bytes ++ p.written, capacity⟩, p.state⟩) := by
        rw [inflateRound, hmade, hcount]
        simp only [hslice, hp, hstatus]
        rfl
      have hreads := hs.reads.vec input (Buffer.mk s.output.bytes capacity).room
        (by rw [hp]; exact hstatus)
      rw [hp, hconsumed] at hreads
      have hprogress := h.progress input (Buffer.mk s.output.bytes capacity).room hs.reads
        (by rw [hp]; exact hstatus)
      rw [hp] at hprogress
      have hheld : (s.output.bytes ++ p.written).length ≤ capacity := by
        rw [List.length_append]
        rw [Buffer.room] at hfits
        dsimp only at hfits
        omega
      refine .inl ⟨_, hround, ⟨_, hreads, hpart, hcounted, hheld, hcap, fun z x hz hpre => ?_⟩, ?_⟩
      · have hwithin := (h.inflates hs.reads hz (hinput ▸ hpre) hpos).2
        rw [hp] at hwithin
        exact hwithin
      · have hin : c.length + input.length = streamData.length := by
          rw [← hinput, List.length_append]
        have hout : (s.output.bytes ++ p.written).length =
            s.output.bytes.length + p.written.length := List.length_append
        have hstart := hs.counted
        unfold inflateLeft
        dsimp only
        rcases hprogress with hmore | hmore
        · omega
        · have hwrote := List.length_pos_of_ne_nil hmore
          omega
    · have hround : inflateRound f.decompress streamData
          (f.decompress.totalIn f.newDecompress) (some limit) s =
          (.failed (malformedCompressedPayload
            "gzip decompression stalled: truncated or invalid deflate stream"),
            ⟨⟨s.output.bytes ++ p.written, capacity⟩, p.state⟩) := by
        rw [inflateRound, hmade, hcount]
        simp only [hslice, hp, hstatus]
        rfl
      rw [hround]
      exact .inr (.failed (.malformed hcap (hnone (by rw [hstatus]; simp))))
    · have hround : inflateRound f.decompress streamData
          (f.decompress.totalIn f.newDecompress) (some limit) s =
          (.value false, ⟨⟨s.output.bytes ++ p.written, capacity⟩, p.state⟩) := by
        rw [inflateRound, hmade, hcount]
        simp only [hslice, hp, hstatus]
        rfl
      have hend := h.stream_end input (Buffer.mk s.output.bytes capacity).room hs.reads
        (by rw [hp]; exact hstatus)
      rw [hp, hconsumed] at hend
      rw [hround]
      exact .inr (.done (.done hend hpart hcounted hcap))

/-- **The loop** ends, in one of the three ways. -/
theorem inflate_ends (h : f.Lawful stream) {capacity fuel : ℕ} (hcap : capacity ≤ limit + 1)
    (hfuel : streamData.length + limit + 2 ≤ fuel) :
    InflateEnds f stream streamData limit
      (Outcome.loop (inflateRound f.decompress streamData
        (f.decompress.totalIn f.newDecompress) (some limit)) fuel
        ⟨⟨[], capacity⟩, f.newDecompress⟩).1
      (Outcome.loop (inflateRound f.decompress streamData
        (f.decompress.totalIn f.newDecompress) (some limit)) fuel
        ⟨⟨[], capacity⟩, f.newDecompress⟩).2 := by
  refine Outcome.loop_keeps (fun s hs => inflateRound_keeps h s hs) fuel _ ?_ ?_
  · exact ⟨[], .start, List.nil_prefix, rfl, Nat.zero_le _, hcap, fun _ _ _ _ => List.nil_prefix⟩
  · unfold inflateLeft
    dsimp only [List.length_nil]
    omega

theorem pastLimit_some {output : Bytes} :
    pastLimit (some limit) output = if limit < output.length then some limit else none := by
  rw [pastLimit, Option.filter_some]
  by_cases h : limit < output.length
  · rw [if_pos h, if_pos (decide_eq_true h)]
  · rw [if_neg h, if_neg (by simpa using h)]

theorem length_trailerOf (x : Bytes) : (trailerOf x).length = 8 := rfl

/-- The output is returned if and only if its trailer follows. -/
theorem checkTrailer_eq_iff {n : ℕ} {output x : Bytes} :
    checkTrailer streamData n (some limit) output = .value x ↔
      x = output ∧ output.length ≤ limit ∧ trailerOf output <+: streamData.drop n := by
  rw [checkTrailer, pastLimit_some]
  by_cases hpast : limit < output.length
  · rw [if_pos hpast]
    constructor
    · intro h
      cases h
    · rintro ⟨-, hle, -⟩
      exact absurd hle (Nat.not_le.mpr hpast)
  · rw [if_neg hpast]
    dsimp only
    have hle := Nat.le_of_not_lt hpast
    by_cases hshort : streamData.length < n + 8
    · rw [if_pos hshort]
      constructor
      · intro h
        cases h
      · rintro ⟨-, -, hpre⟩
        have hlen := hpre.length_le
        rw [length_trailerOf, List.length_drop] at hlen
        omega
    · rw [if_neg hshort, sliceFrom_of_le (by omega)]
      generalize htrailer : streamData.drop n = trailer
      have hlen : 8 ≤ trailer.length := by
        rw [← htrailer, List.length_drop]
        omega
      have hcrc : fromLeBytes (trailer.take 4) = (crc32 output).toNat ↔
          trailer.take 4 = toLeBytes (crc32 output).toNat := by
        refine fromLeBytes_eq_iff ?_ ?_
        · rw [List.length_take]
          omega
        · have := (crc32 output).toNat_lt
          rw [u32Max]
          omega
      have hsize : fromLeBytes ((trailer.drop 4).take 4) = output.length % 2 ^ 32 ↔
          (trailer.drop 4).take 4 = toLeBytes (output.length % 2 ^ 32) := by
        refine fromLeBytes_eq_iff ?_ ?_
        · rw [List.length_take, List.length_drop]
          omega
        · rw [u32Max]
          omega
      have hboth : trailerOf output <+: trailer ↔
          trailer.take 4 = toLeBytes (crc32 output).toNat ∧
            (trailer.drop 4).take 4 = toLeBytes (output.length % 2 ^ 32) := by
        constructor
        · rintro ⟨rest, rfl⟩
          exact ⟨rfl, rfl⟩
        · rintro ⟨h4, h8⟩
          refine ⟨(trailer.drop 4).drop 4, ?_⟩
          rw [trailerOf, ← h4, ← h8, List.append_assoc, List.take_append_drop,
            List.take_append_drop]
      change (if _ then _ else if _ then _ else _) = _ ↔ _
      rw [hboth, ← hcrc, ← hsize]
      constructor
      · intro h
        split at h
        · cases h
        · next hcrc =>
          split at h
          · cases h
          · next hsize =>
            cases h
            exact ⟨rfl, hle, (Classical.not_not.mp hcrc).symm, Classical.not_not.mp hsize⟩
      · rintro ⟨rfl, -, h4, h8⟩
        rw [if_neg (Classical.not_not.mpr h4.symm), if_neg (Classical.not_not.mpr h8)]

theorem checkTrailer_safe (streamData : Bytes) (limit n : ℕ) (output : Bytes) :
    (checkTrailer streamData n (some limit) output).Parses ∨
      (checkTrailer streamData n (some limit) output = .failed (exceedsLimit limit) ∧
        limit < output.length) := by
  rw [checkTrailer, pastLimit_some]
  by_cases hpast : limit < output.length
  · rw [if_pos hpast]
    exact .inr ⟨rfl, hpast⟩
  · rw [if_neg hpast]
    refine .inl ?_
    dsimp only
    split
    · exact .malformed _
    · rw [sliceFrom_of_le (by omega)]
      change Outcome.Parses (if _ then _ else if _ then _ else _)
      split
      · exact .malformed _
      · split
        · exact .malformed _
        · exact .value _

end Decompress

/-! ## What decompressing comes to -/

section Law

variable {f : Flate2} {stream : Bytes → Bytes → Prop}

/-- The bytes after a header hold more than the limit, as far as the codec has read them. -/
def InflatesPast (f : Flate2) (stream : Bytes → Bytes → Prop) (data : Bytes) (limit : ℕ) : Prop :=
  ∃ header streamData c o, IsGzipHeader header ∧ data = header ++ streamData ∧ c <+: streamData ∧
    ((∃ d, f.decompress.Reads f.newDecompress d c o) ∨ stream c o) ∧ limit < o.length

/-- What is promised of a call. -/
structure DecompressLaw (f : Flate2) (stream : Bytes → Bytes → Prop) (data : Bytes) (limit : ℕ)
    (result : Outcome Bytes) (capacity : ℕ) : Prop where
  /-- it ends, and reads nothing that is not there -/
  ends : result ≠ .running ∧ result ≠ .panicked
  /-- it returns what a member holds, unless that is too large -/
  exact_iff : ∀ x, result = .value x ↔ IsGzipMember stream data x ∧ x.length ≤ limit
  /-- else it says that the payload is malformed, or too large -/
  refuses : ∀ e, result = .failed e →
    e = exceedsLimit limit ∨ ∃ message, e = malformedCompressedPayload message
  /-- and too large only if it is -/
  exhausts : ∀ e, result = .failed e → e.code = .resourceExhausted →
    InflatesPast f stream data limit ∧
      ∀ header z x rest, IsGzipHeader header → stream z x → data = header ++ z ++ rest →
        limit < x.length
  /-- the buffer is never larger -/
  bounded : capacity ≤ max (initialDecompressCapacity data.length 2 (some limit)) (limit + 1)

theorem header_unique {header header' rest rest' : Bytes} (hh : IsGzipHeader header)
    (hh' : IsGzipHeader header') (heq : header ++ rest = header' ++ rest') : rest = rest' := by
  have h1 := gzipHeaderLen_eq_iff.mpr ⟨header, rest, rfl, rfl, hh⟩
  have h2 := gzipHeaderLen_eq_iff.mpr ⟨header', rest', heq, rfl, hh'⟩
  rw [h1] at h2
  exact List.append_inj_right heq (Outcome.value.inj h2)

/-- Of two streams at the same place neither goes on after the other. -/
theorem stream_unique (h : f.Lawful stream) {z z' x x' data : Bytes} (hz : stream z x)
    (hz' : stream z' x') (hpre : z <+: data) (hpre' : z' <+: data) : z = z' ∧ x = x' := by
  have heq : z = z' := by
    rcases List.prefix_or_prefix_of_prefix hpre hpre' with ⟨rest, rfl⟩ | ⟨rest, rfl⟩
    · rw [h.tells_end hz hz', List.append_nil]
    · rw [h.tells_end hz' hz, List.append_nil]
  subst heq
  exact ⟨rfl, h.holds_one hz hz'⟩

theorem initialDecompressCapacity_le (n limit : ℕ) :
    initialDecompressCapacity n 2 (some limit) ≤ limit + 1 :=
  Nat.min_le_right _ _

theorem ended_failed {α : Type} (e : ConnectError) :
    (.failed e : Outcome α) ≠ .running ∧ (.failed e : Outcome α) ≠ .panicked :=
  ⟨(nomatch ·), (nomatch ·)⟩

theorem ended_value {α : Type} (a : α) :
    (.value a : Outcome α) ≠ .running ∧ (.value a : Outcome α) ≠ .panicked :=
  ⟨(nomatch ·), (nomatch ·)⟩

/-- A payload without a header. -/
theorem decompressLaw_noHeader {data : Bytes} {limit : ℕ} {message : String}
    (hlen : gzipHeaderLen data = .failed (malformedCompressedPayload message)) :
    DecompressLaw f stream data limit (.failed (malformedCompressedPayload message)) 0 where
  ends := ended_failed _
  exact_iff := by
    intro x
    constructor
    · intro h
      cases h
    · rintro ⟨⟨header, z, rest, hheader, -, rfl⟩, -⟩
      have hsome := gzipHeaderLen_eq_iff.mpr ⟨header, z ++ (trailerOf x ++ rest), rfl, rfl, hheader⟩
      rw [← List.append_assoc, ← List.append_assoc, hlen] at hsome
      cases hsome
  refuses := by
    intro e he
    cases he
    exact .inr ⟨message, rfl⟩
  exhausts := by
    intro e he hcode
    cases he
    cases hcode
  bounded := Nat.zero_le _

/-- A payload with a header. -/
theorem decompressLaw_header (h : f.Lawful stream) {data header streamData : Bytes} {limit : ℕ}
    (hheader : IsGzipHeader header) (hdata : data = header ++ streamData)
    {o : Outcome Unit} {s : Coding f.decompress}
    (hends : InflateEnds f stream streamData limit o s) :
    DecompressLaw f stream data limit (o.bind fun _ => checkTrailer streamData
      (f.decompress.totalIn s.codec - f.decompress.totalIn f.newDecompress) (some limit)
      s.output.bytes) s.output.capacity := by
  -- a stream after a header lies at the beginning of what the loop has read
  have hplace : ∀ {header' : Bytes} (z rest : Bytes), IsGzipHeader header' →
      data = header' ++ z ++ rest → streamData = z ++ rest := by
    intro header' z rest hheader' heq
    rw [hdata, List.append_assoc] at heq
    exact header_unique hheader hheader' heq
  cases hends with
  | @done _ c hstream part counted capacity =>
    rw [counted, Nat.add_sub_cancel_left]
    obtain ⟨rest, hrest⟩ := part
    have hdrop : streamData.drop c.length = rest := by rw [← hrest, List.drop_left]
    have hsafe := checkTrailer_safe streamData limit c.length s.output.bytes
    refine ⟨?_, fun x => ?_, fun e he => ?_, fun e he hcode => ?_, capacity.trans (le_max_right _ _)⟩
    · change checkTrailer _ _ _ _ ≠ _ ∧ checkTrailer _ _ _ _ ≠ _
      rcases hsafe with (⟨x, hx⟩ | ⟨message, hx⟩) | ⟨hx, -⟩
      · rw [hx]
        exact ended_value x
      · rw [hx]
        exact ended_failed _
      · rw [hx]
        exact ended_failed _
    · change checkTrailer _ _ _ _ = _ ↔ _
      rw [checkTrailer_eq_iff, hdrop]
      constructor
      · rintro ⟨rfl, hle, more, hmore⟩
        refine ⟨⟨header, c, more, hheader, hstream, ?_⟩, hle⟩
        rw [hdata, ← hrest, ← hmore]
        simp only [List.append_assoc]
      · rintro ⟨⟨header', z, more, hheader', hz, heq⟩, hle⟩
        have hst := hplace z (trailerOf x ++ more) hheader' (by
          rw [heq]
          simp only [List.append_assoc])
        obtain ⟨rfl, rfl⟩ := stream_unique h hz hstream ⟨_, hst.symm⟩ ⟨rest, hrest⟩
        refine ⟨rfl, hle, more, ?_⟩
        rw [← hrest] at hst
        exact (List.append_cancel_left hst).symm
    · change checkTrailer _ _ _ _ = _ at he
      rcases hsafe with (⟨x, hx⟩ | ⟨message, hx⟩) | ⟨hx, -⟩
      · rw [hx] at he
        cases he
      · rw [hx] at he
        cases he
        exact .inr ⟨message, rfl⟩
      · rw [hx] at he
        cases he
        exact .inl rfl
    · change checkTrailer _ _ _ _ = _ at he
      rcases hsafe with (⟨x, hx⟩ | ⟨message, hx⟩) | ⟨hx, hlong⟩
      · rw [hx] at he
        cases he
      · rw [hx] at he
        cases he
        cases hcode
      · refine ⟨⟨header, streamData, c, s.output.bytes, hheader, hdata, ⟨rest, hrest⟩,
          .inr hstream, hlong⟩, fun header' z x more hheader' hz heq => ?_⟩
        obtain ⟨-, rfl⟩ := stream_unique h hz hstream ⟨more, (hplace z more hheader' heq).symm⟩
          ⟨rest, hrest⟩
        exact hlong
  | @past _ c at_c hlong =>
    have hmore : ∀ header' z x more, IsGzipHeader header' → stream z x →
        data = header' ++ z ++ more → limit < x.length := by
      intro header' z x more hheader' hz heq
      have hwithin := at_c.within z x hz ⟨more, (hplace z more hheader' heq).symm⟩
      exact hlong.trans_le hwithin.length_le
    refine ⟨ended_failed _, fun x => ⟨(nomatch ·), ?_⟩,
      fun e he => ?_, fun e he _ => ?_, at_c.capacity.trans (le_max_right _ _)⟩
    · rintro ⟨⟨header', z, more, hheader', hz, heq⟩, hle⟩
      have hlt := hmore header' z x (trailerOf x ++ more) hheader' hz (by
        rw [heq]
        simp only [List.append_assoc])
      exact absurd hle (Nat.not_le.mpr hlt)
    · cases he
      exact .inl rfl
    · exact ⟨⟨header, streamData, c, s.output.bytes, hheader, hdata, at_c.part,
        .inl ⟨_, at_c.reads⟩, hlong⟩, hmore⟩
  | @malformed _ message capacity hnone =>
    refine ⟨ended_failed _, fun x => ⟨(nomatch ·), ?_⟩,
      fun e he => ?_, fun e he hcode => ?_, capacity.trans (le_max_right _ _)⟩
    · rintro ⟨⟨header', z, more, hheader', hz, heq⟩, -⟩
      have hst := hplace z (trailerOf x ++ more) hheader' (by
        rw [heq]
        simp only [List.append_assoc])
      exact absurd ⟨_, hst.symm⟩ (hnone z x hz)
    · cases he
      exact .inr ⟨message, rfl⟩
    · cases he
      cases hcode

/-- **Decompressing** with a new codec. -/
theorem decompressInner_law (h : f.Lawful stream) {fuel limit : ℕ} {data : Bytes}
    (hfuel : data.length + limit + 2 ≤ fuel) :
    DecompressLaw f stream data limit
      (decompressInner f.decompress fuel f.newDecompress data (some limit)).1
      (decompressInner f.decompress fuel f.newDecompress data (some limit)).2.output.capacity := by
  rcases gzipHeaderLen_safe data with ⟨n, hn⟩ | ⟨message, hno⟩
  · obtain ⟨header, streamData, hdata, hlen, hheader⟩ := gzipHeaderLen_eq_iff.mp hn
    have hslice : (gzipHeaderLen data).bind (sliceFrom data) = .value streamData := by
      rw [hn]
      change sliceFrom data n = _
      rw [sliceFrom_of_le (hlen ▸ hdata ▸ (List.prefix_append _ _).length_le), hdata, ← hlen,
        List.drop_left]
    have hshort : streamData.length ≤ data.length := by
      rw [hdata, List.length_append]
      exact Nat.le_add_left _ _
    have hends := inflate_ends h (initialDecompressCapacity_le data.length limit)
      (by omega : streamData.length + limit + 2 ≤ fuel)
    rw [decompressInner, hslice]
    exact decompressLaw_header h hheader hdata hends
  · rw [decompressInner, hno]
    exact decompressLaw_noHeader hno

/-! ## Compressing -/

/-- The codec has consumed `n` bytes, and has written what is in the buffer after the header. -/
structure Deflated (f : Flate2) (level : ℕ) (data : Bytes) (s : Coding f.compress) (n : ℕ)
    (o : Bytes) : Prop where
  finishes : f.compress.Finishes (f.newCompress level) data s.codec n o
  holds : s.output.bytes = plainHeader ++ o
  counted : f.compress.totalIn s.codec = f.compress.totalIn (f.newCompress level) + n
  within : n ≤ data.length
  held : s.output.bytes.length ≤ s.output.capacity

/-- The loop ends with a stream of the data. -/
def DeflateEnds (f : Flate2) (stream : Bytes → Bytes → Prop) (data : Bytes) (o : Outcome Unit)
    (s : Coding f.compress) : Prop :=
  o = .value () ∧ ∃ z, stream z data ∧ s.output.bytes = plainHeader ++ z

/-- **One round.** -/
theorem deflateRound_keeps (h : f.Lawful stream) {level bound : ℕ} (hlevel : level ≤ 9)
    {data : Bytes}
    (hbound : ∀ {c : f.compress.State} {n : ℕ} {o : Bytes},
      f.compress.Finishes (f.newCompress level) data c n o → o.length ≤ bound)
    (s : Coding f.compress) (hs : ∃ n o, Deflated f level data s n o) :
    (∃ s', deflateRound f.compress data (f.compress.totalIn (f.newCompress level)) s =
        (.value true, s') ∧ (∃ n o, Deflated f level data s' n o) ∧
      (f.compress.totalIn (f.newCompress level) + data.length - f.compress.totalIn s'.codec) +
          (plainHeader.length + bound - s'.output.bytes.length) <
        (f.compress.totalIn (f.newCompress level) + data.length - f.compress.totalIn s.codec) +
          (plainHeader.length + bound - s.output.bytes.length)) ∨
    Outcome.Stops (DeflateEnds f stream data)
      (deflateRound f.compress data (f.compress.totalIn (f.newCompress level)) s) := by
  obtain ⟨n, o, hs⟩ := hs
  have hcount : f.compress.totalIn s.codec - f.compress.totalIn (f.newCompress level) = n := by
    rw [hs.counted, Nat.add_sub_cancel_left]
  -- there is room, for the buffer grows when it is full
  obtain ⟨capacity, hmade, hroom⟩ : ∃ capacity,
      (if s.output.bytes.length = s.output.capacity then s.output.reserveExact 4096 else s.output) =
        ⟨s.output.bytes, capacity⟩ ∧ s.output.bytes.length < capacity := by
    by_cases hfull : s.output.bytes.length = s.output.capacity
    · rw [if_pos hfull]
      refine ⟨_, rfl, ?_⟩
      omega
    · rw [if_neg hfull]
      have := hs.held
      exact ⟨s.output.capacity, rfl, by omega⟩
  have hpos : 0 < (Buffer.mk s.output.bytes capacity).room := Nat.sub_pos_of_lt hroom
  have hdeflates := h.deflates hlevel hs.finishes hpos
  have hround : deflateRound f.compress data (f.compress.totalIn (f.newCompress level)) s =
      (match (f.compress.vec s.codec (data.drop n) (Buffer.mk s.output.bytes capacity).room).status with
        | .error e => .failed (.internal s!"gzip compression failed: {e}")
        | .ok .streamEnd => .value false
        | .ok _ => .value true,
        ⟨⟨s.output.bytes ++ (f.compress.vec s.codec (data.drop n)
            (Buffer.mk s.output.bytes capacity).room).written, capacity⟩,
          (f.compress.vec s.codec (data.drop n) (Buffer.mk s.output.bytes capacity).room).state⟩) := by
    rw [deflateRound, hcount]
    simp only [hmade, sliceFrom_of_le hs.within]
    rfl
  have hle := f.compress.le_totalIn s.codec (data.drop n) (Buffer.mk s.output.bytes capacity).room
  have hge := f.compress.totalIn_le s.codec (data.drop n) (Buffer.mk s.output.bytes capacity).room
  have hfits := f.compress.fits s.codec (data.drop n) (Buffer.mk s.output.bytes capacity).room
  have hnext := hs.finishes.vec (Buffer.mk s.output.bytes capacity).room
  rw [hround]
  generalize f.compress.vec s.codec (data.drop n) (Buffer.mk s.output.bytes capacity).room = p at *
  rcases hdeflates with ⟨hstatus, hstream⟩ | ⟨status, hstatus, hmore, hprogress⟩
  · refine .inr ?_
    rw [hstatus]
    refine .done ⟨rfl, o ++ p.written, hstream, ?_⟩
    dsimp only
    rw [hs.holds, List.append_assoc]
  · have hfin := hnext status hstatus hmore
    have hwrote := hbound hfin
    have hdrop : (data.drop n).length = data.length - n := List.length_drop
    have hin := hs.counted
    have hwithin := hs.within
    rw [hdrop] at hge
    have hlen : (s.output.bytes ++ p.written).length = s.output.bytes.length + p.written.length :=
      List.length_append
    have hheld : s.output.bytes.length = plainHeader.length + o.length := by
      rw [hs.holds, List.length_append]
    refine .inl ⟨⟨⟨s.output.bytes ++ p.written, capacity⟩, p.state⟩, ?_,
      ⟨_, _, hfin, ?_, ?_, ?_, ?_⟩, ?_⟩
    · rw [hstatus]
      cases status with
      | ok => rfl
      | bufError => rfl
      | streamEnd => exact absurd rfl hmore
    · dsimp only
      rw [hs.holds, List.append_assoc]
    · dsimp only
      omega
    · omega
    · dsimp only
      rw [Buffer.room] at hfits
      dsimp only at hfits
      omega
    · dsimp only
      rw [List.length_append] at hwrote
      rcases hprogress with hprog | hprog
      · omega
      · have hpos' := List.length_pos_of_ne_nil hprog
        omega

theorem isGzipHeader_plain : IsGzipHeader plainHeader :=
  ⟨0x00, [0x00, 0x00, 0x00, 0x00, 0x00, 0xff], [], [], [], [], rfl, rfl, .inr ⟨by decide, rfl⟩,
    .inr ⟨by decide, rfl⟩, .inr ⟨by decide, rfl⟩, .inr ⟨by decide, rfl⟩⟩

/-- **Compressing** with a new codec makes a member that holds the data. -/
theorem compressInner_member (h : f.Lawful stream) {level : ℕ} (hlevel : level ≤ 9) (data : Bytes) :
    ∃ enough, ∀ fuel, enough ≤ fuel → ∃ z,
      (compressInner f.compress fuel (f.newCompress level) data).1 = .value z ∧
        IsGzipMember stream z data := by
  obtain ⟨bound, hbound⟩ := h.deflate_bound level data hlevel
  refine ⟨data.length + bound + 1, fun fuel hfuel => ?_⟩
  have hends := Outcome.loop_keeps (fun s hs => deflateRound_keeps h hlevel hbound s hs) fuel
    ⟨⟨plainHeader, GZIP_FRAMING_LEN +
      (data.length + (data.length + 7) / 8 + (data.length + 63) / 64 + 5)⟩, f.newCompress level⟩
    ⟨0, [], .start, rfl, rfl, Nat.zero_le _, by
      rw [GZIP_FRAMING_LEN, plainHeader]
      simp only [List.length_cons, List.length_nil]
      omega⟩
    (by
      dsimp only
      omega)
  obtain ⟨hvalue, z, hz, hbytes⟩ := hends
  refine ⟨plainHeader ++ z ++ trailerOf data, ?_, plainHeader, z, [], isGzipHeader_plain, hz,
    (List.append_nil _).symm⟩
  rw [compressInner, ← hbytes]
  dsimp only
  rw [hvalue]
  rfl

end Law

/-! ## The pools -/

/-- What a round keeps a loop keeps, whenever it is looked at. -/
theorem loop_invariant {σ : Type} {round : σ → Outcome Bool × σ} {holds : σ → Prop}
    (hround : ∀ s, holds s → holds (round s).2) (fuel : ℕ) {s : σ} (hs : holds s) :
    holds (Outcome.loop round fuel s).2 := by
  induction fuel generalizing s with
  | zero => exact hs
  | succ fuel ih =>
    rw [Outcome.loop]
    have hnext := hround s hs
    rcases hr : round s with ⟨o, s'⟩
    rw [hr] at hnext
    cases o with
    | value more =>
      cases more with
      | true => exact ih hnext
      | false => exact hnext
    | failed e => exact hnext
    | panicked => exact hnext
    | running => exact hnext

section Pools

variable {f : Flate2} {stream : Bytes → Bytes → Prop} {level : ℕ}

theorem used_inflateRound {k : RawCodec} {start : k.State} (streamData : Bytes) (startIn : ℕ)
    (maxSize : Option ℕ) (s : Coding k) (hs : k.Used start s.codec) :
    k.Used start (inflateRound k streamData startIn maxSize s).2.codec := by
  rw [inflateRound]
  dsimp only
  split
  · split
    · exact hs.vec _ _
    · exact hs
  · exact hs
  · exact hs

theorem used_deflateRound {k : RawCodec} {start : k.State} (data : Bytes) (startIn : ℕ)
    (s : Coding k) (hs : k.Used start s.codec) :
    k.Used start (deflateRound k data startIn s).2.codec := by
  rw [deflateRound]
  dsimp only
  split
  · exact hs.vec _ _
  · exact hs

theorem used_decompressInner {k : RawCodec} {start : k.State} (fuel : ℕ) (data : Bytes)
    (maxSize : Option ℕ) :
    k.Used start (decompressInner k fuel start data maxSize).2.codec := by
  rw [decompressInner]
  split
  · next streamData _ =>
    exact loop_invariant (used_inflateRound streamData (k.totalIn start) maxSize) fuel .start
  · exact .start
  · exact .start

theorem used_compressInner {k : RawCodec} {start : k.State} (fuel : ℕ) (data : Bytes) :
    k.Used start (compressInner k fuel start data).2.codec := by
  rw [compressInner]
  exact loop_invariant (used_deflateRound data (k.totalIn start)) fuel .start

namespace GzipProvider

/-- The codecs in the pools are as good as new, and there are not too many. -/
structure Fresh (f : Flate2) (level : ℕ) (p : GzipProvider f) : Prop where
  sameLevel : p.level = level
  compressors : ∀ c ∈ p.compressors, c = f.newCompress level
  decompressors : ∀ d ∈ p.decompressors, d = f.newDecompress
  fewCompressors : p.compressors.length ≤ MAX_POOL_SIZE
  fewDecompressors : p.decompressors.length ≤ MAX_POOL_SIZE

theorem Fresh.takeCompressor {p : GzipProvider f} (h : Fresh f level p) :
    p.takeCompressor.1 = f.newCompress level ∧ Fresh f level p.takeCompressor.2 := by
  obtain ⟨hlevel, hc, hd, hfew, hfew'⟩ := h
  rw [GzipProvider.takeCompressor]
  split
  · next c rest heq =>
    rw [heq] at hc hfew
    exact ⟨hc c List.mem_cons_self, hlevel, fun c' hc' => hc c' (List.mem_cons_of_mem c hc'), hd,
      (Nat.le_succ _).trans hfew, hfew'⟩
  · exact ⟨congrArg f.newCompress hlevel, hlevel, hc, hd, hfew, hfew'⟩

theorem Fresh.takeDecompressor {p : GzipProvider f} (h : Fresh f level p) :
    p.takeDecompressor.1 = f.newDecompress ∧ Fresh f level p.takeDecompressor.2 := by
  obtain ⟨hlevel, hc, hd, hfew, hfew'⟩ := h
  rw [GzipProvider.takeDecompressor]
  split
  · next d rest heq =>
    rw [heq] at hd hfew'
    exact ⟨hd d List.mem_cons_self, hlevel, hc, fun d' hd' => hd d' (List.mem_cons_of_mem d hd'),
      hfew, (Nat.le_succ _).trans hfew'⟩
  · exact ⟨rfl, hlevel, hc, hd, hfew, hfew'⟩

theorem Fresh.returnCompressor (hf : f.Lawful stream) {p : GzipProvider f} (h : Fresh f level p)
    {c : f.compress.State} (hused : f.compress.Used (f.newCompress level) c) :
    Fresh f level (p.returnCompressor c) := by
  rw [GzipProvider.returnCompressor]
  split
  · next hroom =>
    refine ⟨h.sameLevel, fun c' hc' => ?_, h.decompressors, hroom, h.fewDecompressors⟩
    rcases List.mem_cons.mp hc' with rfl | hc'
    · exact hf.reset_compress hused
    · exact h.compressors c' hc'
  · exact h

theorem Fresh.returnDecompressor (hf : f.Lawful stream) {p : GzipProvider f} (h : Fresh f level p)
    {d : f.decompress.State} (hused : f.decompress.Used f.newDecompress d) :
    Fresh f level (p.returnDecompressor d) := by
  rw [GzipProvider.returnDecompressor]
  split
  · next hroom =>
    refine ⟨h.sameLevel, h.compressors, fun d' hd' => ?_, h.fewCompressors, hroom⟩
    rcases List.mem_cons.mp hd' with rfl | hd'
    · exact hf.reset_decompress hused
    · exact h.decompressors d' hd'
  · exact h

/-- **The pools**, after any calls. -/
theorem Reachable.fresh (hf : f.Lawful stream) {p : GzipProvider f} (h : Reachable level p) :
    Fresh f level p := by
  induction h with
  | new =>
    exact ⟨rfl, fun c hc => absurd hc List.not_mem_nil, fun d hd => absurd hd List.not_mem_nil,
      Nat.zero_le _, Nat.zero_le _⟩
  | takeCompressor _ ih => exact ih.takeCompressor.2
  | returnCompressor _ hused ih => exact ih.returnCompressor hf hused
  | takeDecompressor _ ih => exact ih.takeDecompressor.2
  | returnDecompressor _ hused ih => exact ih.returnDecompressor hf hused

/-- A call uses the codec that it takes, and gives it back. -/
theorem Reachable.compress (hf : f.Lawful stream) {p : GzipProvider f} (h : Reachable level p)
    (fuel : ℕ) (data : Bytes) :
    (p.compress fuel data).1 = (compressInner f.compress fuel (f.newCompress level) data).1 ∧
      Reachable level (p.compress fuel data).2 := by
  have hnew := (h.fresh hf).takeCompressor.1
  rw [GzipProvider.compress]
  dsimp only
  rw [hnew]
  exact ⟨rfl, h.takeCompressor.returnCompressor (used_compressInner fuel data)⟩

theorem Reachable.decompress (hf : f.Lawful stream) {p : GzipProvider f} (h : Reachable level p)
    (fuel : ℕ) (data : Bytes) (limit : ℕ) :
    (p.decompressWithLimit fuel data limit).1 =
        ((decompressInner f.decompress fuel f.newDecompress data (some limit)).1,
          (decompressInner f.decompress fuel f.newDecompress data (some limit)).2.output.capacity) ∧
      Reachable level (p.decompressWithLimit fuel data limit).2 := by
  have hnew := (h.fresh hf).takeDecompressor.1
  rw [GzipProvider.decompressWithLimit]
  dsimp only
  rw [hnew]
  exact ⟨rfl, h.takeDecompressor.returnDecompressor (used_decompressInner fuel data _)⟩

end GzipProvider

end Pools

end Gzip

end ConnectRpc
