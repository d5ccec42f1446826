import ConnectRpc.Protocol
import ConnectRpc.RequestStream
import Mathlib.Data.List.Chain

/-!
# Encoding views

A view borrows its fields from the buffer it was decoded from. It can be encoded into a rope,
which takes large fields over from that buffer, and it is encoded so if a walk over the view
finds a field to take. Every walk consumes a cache of sizes, which has to be filled again.

`view_segments` says that the rope makes no difference: it fails where the contiguous encoding
fails, and its segments are the same bytes. It also says what happens to the fragments between
the large fields, which `coalesce_small_runs` joins.
-/

namespace ConnectRpc

open Lib

/-- A slice of memory. -/
structure Slice where
  /-- where it starts -/
  start : ℕ
  /-- what is in it -/
  bytes : Bytes

/-- The calls of an `EncodeSink`. -/
inductive Put : Type where
  | u8 (value : UInt8)
  | slice (src : Slice)
  | u32Le (value : UInt32)
  | u64Le (value : UInt64)
  | shared (bytes : Bytes)

/-- The bytes of a number, the lowest first. -/
def Put.littleEndian : ℕ → ℕ → Bytes
  | 0, _ => []
  | size + 1, n => .ofNat n :: littleEndian size (n / 256)

/-- The bytes that a call writes. -/
def Put.bytes : Put → Bytes
  | u8 value => [value]
  | slice src => src.bytes
  | u32Le value => littleEndian 4 value.toNat
  | u64Le value => littleEndian 8 value.toNat
  | shared bytes => bytes

/-- What is used of `buffa`, for one type of views. -/
structure ViewCrate where
  /-- the views -/
  View : Type
  /-- `SizeCache` -/
  SizeCache : Type
  /-- `SizeCache::new` -/
  new : SizeCache
  /-- `SizeCache::clear` -/
  clear : SizeCache → SizeCache
  /-- `ViewEncode::compute_size` -/
  computeSize : View → SizeCache → ℕ × SizeCache
  /-- `checked_encode_size` -/
  checkedEncodeSize : ℕ → Option ℕ
  /-- `ViewEncode::write_to`, into a sink that is segmented or not -/
  writeTo : View → SizeCache → Bool → List Put × SizeCache
  /-- `Rope` -/
  Rope : Type
  /-- `Rope::with_min_segment` -/
  withMinSegment : ℕ → Rope
  /-- `Rope::with_backing` -/
  withBacking : Rope → Slice → Rope
  /-- the calls of a rope as a sink -/
  put : Rope → Put → Rope
  /-- `Rope::into_segments` -/
  intoSegments : Rope → List Bytes

namespace ViewCrate

/-- A cache that was just filled. -/
def Fresh (buffa : ViewCrate) (view : buffa.View) (cache : buffa.SizeCache) : Prop :=
  cache = (buffa.computeSize view buffa.new).2 ∨
    ∃ old, cache = (buffa.computeSize view (buffa.clear old)).2

/-- A rope with a backing. -/
def rope (buffa : ViewCrate) (minSegment : ℕ) (backing : Slice) : buffa.Rope :=
  buffa.withBacking (buffa.withMinSegment minSegment) backing

/-- Views write the same bytes into every sink, and ropes give back what was written. -/
structure Lawful (buffa : ViewCrate) : Prop where
  /-- the same bytes, given a cache that was just filled -/
  writeTo_bytes : ∀ {view cache cache'}, buffa.Fresh view cache → buffa.Fresh view cache' →
    ∀ segmented segmented', (buffa.writeTo view cache segmented).1.flatMap Put.bytes =
      (buffa.writeTo view cache' segmented').1.flatMap Put.bytes
  /-- the segments of a rope -/
  intoSegments_flatten : ∀ minSegment backing (puts : List Put),
    (buffa.intoSegments (puts.foldl buffa.put (buffa.rope minSegment backing))).flatten =
      puts.flatMap Put.bytes

end ViewCrate

/-! ## The encodings -/

/-- `EncodedBody::from_segments`. -/
def EncodedBody.fromSegments : List Bytes → EncodedBody
  | [] => contiguous []
  | [segment] => contiguous segment
  | segments => segmented segments

/-- The error for JSON. -/
def viewJsonError : ConnectError :=
  .unimplemented ("view-body responses do not support the JSON codec; " ++
    "return the owned message type for JSON-serving handlers")

/-- `worth_segmenting` -/
def worthSegmenting (size backingLen minSegment : ℕ) : Bool :=
  size ≥ minSegment && min (size * 2) usizeMax ≥ backingLen

/-- `CaptureProbe` -/
structure CaptureProbe where
  /-- the buffer that a rope would capture from -/
  backing : Slice
  /-- how long a segment is at least -/
  minSegment : ℕ
  /-- whether there was one -/
  found : Bool

/-- `CaptureProbe::new` -/
def CaptureProbe.new (backing : Slice) (minSegment : ℕ) : CaptureProbe :=
  ⟨backing, max minSegment 1, false⟩

/-- Where a slice ends, unless that overflows. -/
def Slice.stop (slice : Slice) : Option ℕ :=
  if slice.start + slice.bytes.length ≤ usizeMax then some (slice.start + slice.bytes.length)
  else none

/-- A probe as a sink. -/
def CaptureProbe.put (probe : CaptureProbe) : Put → CaptureProbe
  | .slice src =>
    if probe.found || src.bytes.length < probe.minSegment then probe
    else
      match probe.backing.stop, src.stop with
      | some backingEnd, some sliceEnd =>
        if src.start ≥ probe.backing.start ∧ sliceEnd ≤ backingEnd then { probe with found := true }
        else probe
      | _, _ => probe
  | .shared bytes =>
    if bytes.length ≥ probe.minSegment then { probe with found := true } else probe
  | .u8 _ => probe
  | .u32Le _ => probe
  | .u64Le _ => probe

/-- The loop of `coalesce_small_runs`. -/
def coalesceLoop (minSegment : ℕ) : List Bytes → Bytes → List Bytes → List Bytes
  | out, pending, [] => if pending = [] then out else out ++ [pending]
  | out, pending, segment :: segments =>
    if segment.length ≥ minSegment then
      coalesceLoop minSegment ((if pending = [] then out else out ++ [pending]) ++ [segment]) []
        segments
    else coalesceLoop minSegment out (pending ++ segment) segments

/-- `coalesce_small_runs` -/
def coalesceSmallRuns (segments : List Bytes) (minSegment : ℕ) : List Bytes :=
  if segments.length < 2 then segments else coalesceLoop minSegment [] [] segments

namespace ViewCrate

variable (buffa : ViewCrate)

/-- `checked_response_size` -/
def checkedResponseSize (size : ℕ) : Except ConnectError ℕ :=
  match buffa.checkedEncodeSize size with
  | some size => .ok size
  | none => .error (.internal "response message exceeds the 2 GiB protobuf size limit")

/-- What `write_to` leaves in an empty vector. -/
def writeToVec (view : buffa.View) (cache : buffa.SizeCache) : Bytes :=
  (buffa.writeTo view cache false).1.flatMap Put.bytes

/-- `encode_view_body`. -/
def encodeViewBody (view : buffa.View) : CodecFormat → Except ConnectError Bytes
  | .proto =>
    let (size, cache) := buffa.computeSize view buffa.new
    (buffa.checkedResponseSize size).map fun _ => buffa.writeToVec view cache
  | .json => .error viewJsonError

/-- `has_capturable_field`, and the cache that it leaves. -/
def hasCapturableField (view : buffa.View) (cache : buffa.SizeCache) (backing : Slice)
    (minSegment : ℕ) : Bool × buffa.SizeCache :=
  let (puts, cache) := buffa.writeTo view cache true
  let probe := puts.foldl CaptureProbe.put (.new backing minSegment)
  (probe.found, (buffa.computeSize view (buffa.clear cache)).2)

/-- `encode_view_body_with_min_segment`. -/
def encodeViewBodyWithMinSegment (view : buffa.View) (backing : Slice) (codec : CodecFormat)
    (minSegment : ℕ) : Except ConnectError EncodedBody :=
  match codec with
  | .json => .error viewJsonError
  | .proto =>
    let (size, cache) := buffa.computeSize view buffa.new
    (buffa.checkedResponseSize size).map fun size =>
      -- the fields are walked only where the size is worth it
      let (captures, cache) :=
        if worthSegmenting size backing.bytes.length minSegment then
          buffa.hasCapturableField view cache backing minSegment
        else (false, cache)
      if captures then
        let (puts, _) := buffa.writeTo view cache true
        let rope := puts.foldl buffa.put (buffa.rope minSegment backing)
        .fromSegments (coalesceSmallRuns (buffa.intoSegments rope) minSegment)
      else .contiguous (buffa.writeToVec view cache)

end ViewCrate

/-! ## Joining fragments -/

section Coalesce

variable {minSegment : ℕ} {out segments before after : List Bytes} {pending segment : Bytes}

theorem flatten_flush :
    (if pending = [] then out else out ++ [pending]).flatten = out.flatten ++ pending := by
  split
  · rename_i h
    rw [h, List.append_nil]
  · simp

theorem flatten_coalesceLoop :
    (coalesceLoop minSegment out pending segments).flatten =
      out.flatten ++ pending ++ segments.flatten := by
  induction segments generalizing out pending with
  | nil =>
    rw [coalesceLoop, flatten_flush]
    simp
  | cons segment segments ih =>
    rw [coalesceLoop]
    split
    · rw [ih, List.flatten_append, flatten_flush]
      simp
    · rw [ih]
      simp

/-- What was put out stays. -/
theorem coalesceLoop_out (segments : List Bytes) (out more : List Bytes) (pending : Bytes) :
    coalesceLoop minSegment (out ++ more) pending segments =
      out ++ coalesceLoop minSegment more pending segments := by
  induction segments generalizing more pending with
  | nil =>
    rw [coalesceLoop, coalesceLoop]
    split
    · rfl
    · rw [List.append_assoc]
  | cons segment segments ih =>
    rw [coalesceLoop, coalesceLoop]
    split
    · rw [← ih]
      congr 1
      split
      · rw [List.append_assoc]
      · simp only [List.append_assoc]
    · exact ih more (pending ++ segment)

/-- A large segment stays as it is and where it is. -/
theorem coalesceLoop_large (hlarge : minSegment ≤ segment.length) (out : List Bytes)
    (pending : Bytes) :
    ∃ before' after', coalesceLoop minSegment out pending (before ++ segment :: after) =
        before' ++ segment :: after' ∧
      before'.flatten = out.flatten ++ pending ++ before.flatten ∧
      after'.flatten = after.flatten := by
  induction before generalizing out pending with
  | nil =>
    refine ⟨if pending = [] then out else out ++ [pending], coalesceLoop minSegment [] [] after,
      ?_, ?_, ?_⟩
    · have happend : coalesceLoop minSegment
          ((if pending = [] then out else out ++ [pending]) ++ [segment] ++ []) [] after = _ :=
        coalesceLoop_out after _ [] []
      rw [List.append_nil] at happend
      rw [List.nil_append, coalesceLoop, if_pos hlarge, happend, List.append_assoc,
        List.singleton_append]
    · rw [flatten_flush, List.flatten_nil, List.append_nil]
    · rw [flatten_coalesceLoop]
      rfl
  | cons first before ih =>
    rw [List.cons_append, coalesceLoop]
    split
    · obtain ⟨before', after', heq, hbefore, hafter⟩ :=
        ih ((if pending = [] then out else out ++ [pending]) ++ [first]) []
      refine ⟨before', after', heq, ?_, hafter⟩
      rw [hbefore, List.flatten_append, flatten_flush]
      simp
    · obtain ⟨before', after', heq, hbefore, hafter⟩ := ih out (pending ++ first)
      refine ⟨before', after', heq, ?_, hafter⟩
      rw [hbefore]
      simp

/-- One of two segments is large. -/
def Apart (minSegment : ℕ) (a b : Bytes) : Prop :=
  minSegment ≤ a.length ∨ minSegment ≤ b.length

theorem isChain_concat (hchain : out.IsChain (Apart minSegment))
    (hlast : ∀ x ∈ out.getLast?, minSegment ≤ x.length) (segment : Bytes) :
    (out ++ [segment]).IsChain (Apart minSegment) :=
  hchain.append (.singleton segment) fun x hx _ _ => .inl (hlast x hx)

/-- No two fragments stand side by side. What was put out last was large, so that a fragment can
follow it. -/
theorem isChain_coalesceLoop (hchain : out.IsChain (Apart minSegment))
    (hlast : ∀ x ∈ out.getLast?, minSegment ≤ x.length) :
    (coalesceLoop minSegment out pending segments).IsChain (Apart minSegment) := by
  induction segments generalizing out pending with
  | nil =>
    rw [coalesceLoop]
    split
    · exact hchain
    · exact isChain_concat hchain hlast pending
  | cons segment segments ih =>
    rw [coalesceLoop]
    split
    · rename_i hlarge
      have hflushed : (if pending = [] then out else out ++ [pending]).IsChain
          (Apart minSegment) := by
        split
        · exact hchain
        · exact isChain_concat hchain hlast pending
      refine ih (hflushed.append (.singleton segment) fun x _ y hy => .inr ?_) fun x hx => ?_
      · obtain rfl := Option.some.inj hy
        exact hlarge
      · rw [List.getLast?_append, List.getLast?_singleton] at hx
        obtain rfl := Option.some.inj hx
        exact hlarge
    · exact ih hchain hlast

/-- **Joining fragments** changes no bytes and no large segment, and leaves no two fragments side
by side. -/
theorem coalesceSmallRuns_law (segments : List Bytes) (minSegment : ℕ) :
    (coalesceSmallRuns segments minSegment).flatten = segments.flatten ∧
    (∀ before segment after, segments = before ++ segment :: after →
      minSegment ≤ segment.length → ∃ before' after',
        coalesceSmallRuns segments minSegment = before' ++ segment :: after' ∧
        before'.flatten = before.flatten ∧ after'.flatten = after.flatten) ∧
    (coalesceSmallRuns segments minSegment).IsChain (Apart minSegment) := by
  rw [coalesceSmallRuns]
  split
  · rename_i hshort
    refine ⟨rfl, fun before segment after heq _ => ⟨before, after, heq, rfl, rfl⟩, ?_⟩
    cases segments with
    | nil => exact .nil
    | cons segment rest =>
      cases rest with
      | nil => exact .singleton segment
      | cons _ _ =>
        rw [List.length_cons, List.length_cons] at hshort
        omega
  · refine ⟨flatten_coalesceLoop, ?_, isChain_coalesceLoop .nil nofun⟩
    rintro before segment after rfl hlarge
    exact coalesceLoop_large hlarge [] []

end Coalesce

/-! ## The same bytes -/

theorem EncodedBody.flatten_fromSegments (segments : List Bytes) :
    (fromSegments segments).segments.flatten = segments.flatten := by
  rcases segments with _ | ⟨segment, _ | ⟨second, rest⟩⟩
  · rfl
  · rfl
  · rfl

namespace ViewCrate

variable {buffa : ViewCrate}

/-- The cache is fresh again behind the probe. -/
theorem fresh_hasCapturableField (view : buffa.View) (cache : buffa.SizeCache) (backing : Slice)
    (minSegment : ℕ) :
    buffa.Fresh view (buffa.hasCapturableField view cache backing minSegment).2 :=
  .inr ⟨_, rfl⟩

/-- **A view in segments** is the same as in one piece, whatever the backing is. -/
theorem encodeViewBody_eq (hbuffa : buffa.Lawful) (view : buffa.View) (backing : Slice)
    (codec : CodecFormat) (minSegment : ℕ) :
    (buffa.encodeViewBodyWithMinSegment view backing codec minSegment).map
        (fun body => body.segments.flatten) = buffa.encodeViewBody view codec := by
  cases codec with
  | json => rfl
  | proto =>
    have hfirst : buffa.Fresh view (buffa.computeSize view buffa.new).2 := .inl rfl
    rw [encodeViewBodyWithMinSegment, encodeViewBody]
    simp only
    rcases buffa.checkedResponseSize (buffa.computeSize view buffa.new).1 with err | size
    · rfl
    · -- the cache that the encoder is given, whichever it is
      have hcache : ∀ cache, buffa.Fresh view cache → ∀ captures : Bool,
          (if captures then
            EncodedBody.fromSegments (coalesceSmallRuns (buffa.intoSegments
              ((buffa.writeTo view cache true).1.foldl buffa.put (buffa.rope minSegment backing)))
              minSegment)
          else .contiguous (buffa.writeToVec view cache)).segments.flatten =
            buffa.writeToVec view (buffa.computeSize view buffa.new).2 := by
        intro cache hfresh captures
        have hbytes := hbuffa.writeTo_bytes hfresh hfirst
        cases captures with
        | true =>
          rw [if_pos rfl, EncodedBody.flatten_fromSegments, (coalesceSmallRuns_law _ _).1,
            hbuffa.intoSegments_flatten]
          exact hbytes true false
        | false =>
          rw [if_neg Bool.false_ne_true, EncodedBody.segments, List.flatten_singleton]
          exact hbytes false false
      simp only [Except.map]
      split
      · exact congrArg Except.ok (hcache _ (fresh_hasCapturableField _ _ _ _) _)
      · exact congrArg Except.ok (hcache _ hfirst false)

end ViewCrate

/-- **Segmented view encoding is contiguous encoding**: it succeeds where that does, and its
segments are the bytes of that, whatever the view, the backing and the threshold are. And joining
fragments changes no bytes and no large segment, and leaves no two fragments side by side. -/
theorem view_segments {buffa : ViewCrate} (hbuffa : buffa.Lawful) :
    (∀ view backing codec minSegment,
      (buffa.encodeViewBodyWithMinSegment view backing codec minSegment).map
        (fun body => body.segments.flatten) = buffa.encodeViewBody view codec) ∧
    ∀ (segments : List Bytes) (minSegment : ℕ),
      (coalesceSmallRuns segments minSegment).flatten = segments.flatten ∧
      (∀ before segment after, segments = before ++ segment :: after →
        minSegment ≤ segment.length → ∃ before' after',
          coalesceSmallRuns segments minSegment = before' ++ segment :: after' ∧
          before'.flatten = before.flatten ∧ after'.flatten = after.flatten) ∧
      (coalesceSmallRuns segments minSegment).IsChain fun a b =>
        minSegment ≤ a.length ∨ minSegment ≤ b.length :=
  ⟨ViewCrate.encodeViewBody_eq hbuffa, coalesceSmallRuns_law⟩

/-! ## A message of one field -/

/-- A rope: the segments so far, and what was copied since. -/
structure TailRope where
  /-- how long a segment is at least -/
  minSegment : ℕ
  /-- what is captured from -/
  backing : Slice
  /-- the segments so far -/
  segments : List Bytes
  /-- what was copied since -/
  tail : Bytes

namespace TailRope

/-- The segments, with what was copied. -/
def intoSegments (r : TailRope) : List Bytes :=
  if r.tail = [] then r.segments else r.segments ++ [r.tail]

/-- Take a segment over. -/
def capture (r : TailRope) (bytes : Bytes) : TailRope :=
  { r with segments := r.intoSegments ++ [bytes], tail := [] }

/-- Whether a slice is captured. -/
def captures (r : TailRope) (src : Slice) : Bool :=
  max r.minSegment 1 ≤ src.bytes.length && r.backing.start ≤ src.start &&
    src.start + src.bytes.length ≤ r.backing.start + r.backing.bytes.length

/-- The rope as a sink. -/
def put (r : TailRope) : Put → TailRope
  | .slice src => if r.captures src then r.capture src.bytes
      else { r with tail := r.tail ++ src.bytes }
  | .shared bytes => if max r.minSegment 1 ≤ bytes.length then r.capture bytes
      else { r with tail := r.tail ++ bytes }
  | .u8 value => { r with tail := r.tail ++ [value] }
  | .u32Le value => { r with tail := r.tail ++ Put.littleEndian 4 value.toNat }
  | .u64Le value => { r with tail := r.tail ++ Put.littleEndian 8 value.toNat }

theorem flatten_intoSegments (r : TailRope) :
    r.intoSegments.flatten = r.segments.flatten ++ r.tail :=
  flatten_flush

theorem flatten_put (r : TailRope) (p : Put) :
    (r.put p).intoSegments.flatten = r.intoSegments.flatten ++ p.bytes := by
  have hcapture : ∀ bytes, (r.capture bytes).intoSegments.flatten =
      r.intoSegments.flatten ++ bytes := by
    intro bytes
    rw [flatten_intoSegments, capture, List.append_nil, List.flatten_append,
      List.flatten_singleton]
  have hcopy : ∀ bytes, ({ r with tail := r.tail ++ bytes } : TailRope).intoSegments.flatten =
      r.intoSegments.flatten ++ bytes := by
    intro bytes
    rw [flatten_intoSegments, flatten_intoSegments, List.append_assoc]
  cases p with
  | u8 value => exact hcopy [value]
  | slice src =>
    rw [put]
    split
    · exact hcapture src.bytes
    · exact hcopy src.bytes
  | u32Le value => exact hcopy _
  | u64Le value => exact hcopy _
  | shared bytes =>
    rw [put]
    split
    · exact hcapture bytes
    · exact hcopy bytes

end TailRope

/-- Views of a `StringValue`, of less than 128 bytes: a tag, a length and the value. -/
def stringValueViews : ViewCrate where
  View := Slice
  SizeCache := List ℕ
  new := []
  clear _ := []
  computeSize view cache := (if view.bytes = [] then 0 else 2 + view.bytes.length, cache)
  checkedEncodeSize size := if size ≤ 0x7FFFFFFF then some size else none
  writeTo view cache _ :=
    (if view.bytes = [] then [] else [.u8 0x0A, .u8 (.ofNat view.bytes.length), .slice view], cache)
  Rope := TailRope
  withMinSegment minSegment := ⟨minSegment, ⟨0, []⟩, [], []⟩
  withBacking r backing := { r with backing := backing }
  put := TailRope.put
  intoSegments := TailRope.intoSegments

theorem stringValueViews_lawful : stringValueViews.Lawful where
  writeTo_bytes _ _ _ _ := rfl
  intoSegments_flatten := by
    intro minSegment backing puts
    have hall : ∀ (puts : List Put) (r : TailRope),
        (puts.foldl TailRope.put r).intoSegments.flatten =
          r.intoSegments.flatten ++ puts.flatMap Put.bytes := by
      intro puts
      induction puts with
      | nil => exact fun r => (List.append_nil _).symm
      | cons p puts ih =>
        intro r
        rw [List.foldl_cons, ih, TailRope.flatten_put, List.flatMap_cons, List.append_assoc]
    exact hall puts _

/-- Four letters, captured from the buffer that they were decoded from. -/
theorem view_segments_four :
    (stringValueViews.encodeViewBodyWithMinSegment ⟨102, [97, 98, 99, 100]⟩
        ⟨100, [0x0A, 4, 97, 98, 99, 100]⟩ .proto 4) =
      .ok (.segmented [[0x0A, 4], [97, 98, 99, 100]]) ∧
    stringValueViews.encodeViewBody ⟨102, [97, 98, 99, 100]⟩ .proto =
      .ok [0x0A, 4, 97, 98, 99, 100] := by
  refine ⟨rfl, ?_⟩
  rw [← (view_segments stringValueViews_lawful).1 ⟨102, [97, 98, 99, 100]⟩
    ⟨100, [0x0A, 4, 97, 98, 99, 100]⟩ .proto 4]
  rfl

end ConnectRpc
