import ConnectRpc.ErrorResponse
import ConnectRpc.RoundTrip

/-!
# Unary responses of gRPC

The fast path of gRPC and gRPC-Web for a call with one response: the envelope is
framed in place and the body is a `GrpcUnaryBody`, without an encoder or a stream.

`grpcUnaryBody_eq_stream` says that nobody can tell on the wire. Both paths make the
same envelope (`encodeBodyParts_eq`), cut into segments in different places, and the
same terminal frame. They differ where the payload does not fit the length field: the
stream ends with an error, the fast path has no body at all (`grpcUnaryBody_none`). With
trailers that leave no room for the status both panic (`grpcUnaryBody_full`).
-/

namespace ConnectRpc

open Lib

variable (cr : Crates)

/-! ## The fast path -/

/-- `Envelope::encode_body_parts`: the head and the segments of an envelope. There are
none where the source panics, as the payload does not fit the length field. -/
def Envelope.encodeBodyParts (flag : UInt8) (body : EncodedBody) (minChain : ℕ) :
    Option (Bytes × List Bytes) :=
  match writeEnvelopeChained flag body [] [] (some minChain) with
  | .ok parts => some parts
  | .error _ => none

/-- What a handler answers (`Response` of the handler side). -/
structure HandlerResponse (β : Type) where
  /-- the body -/
  body : β
  /-- headers to send before the body -/
  headers : HeaderMap
  /-- trailers to send after the body -/
  trailers : HeaderMap
  /-- whether to compress, if not as the policy says -/
  compress : Option Bool

/-- A response with an encoded body. -/
abbrev EncodedResponse := HandlerResponse EncodedBody

/-- The envelope of a unary response. A body that does not compress is sent as it is. -/
def grpcUnaryEnvelope (compression : CompressionRegistry) (responseEncoding : Option String)
    (effectivePolicy : CompressionPolicy) (body : EncodedBody) : Option (Bytes × List Bytes) :=
  match responseEncoding with
  | some encoding =>
    if effectivePolicy.shouldCompress body.len then
      let flat := body.intoContiguous
      match compression.compress encoding flat with
      | .ok compressed =>
        Envelope.encodeBodyParts flags.COMPRESSED (.contiguous compressed) MIN_CHAIN_SIZE
      | .error _ => Envelope.encodeBodyParts flags.DATA (.contiguous flat) MIN_CHAIN_SIZE
    else Envelope.encodeBodyParts flags.DATA body MIN_CHAIN_SIZE
  | none => Envelope.encodeBodyParts flags.DATA body MIN_CHAIN_SIZE

/-- The body that `handle_grpc_unary_request` answers with. There is none where the source panics:
the payload does not fit the length field, or the trailers leave no room for the status. -/
def grpcUnaryBody (protocol : Protocol) (h : protocol ≠ .connect)
    (compression : CompressionRegistry) (compressionPolicy : CompressionPolicy)
    (responseEncoding : Option String) (resp : EncodedResponse) : Option GrpcUnaryBody :=
  let effectivePolicy := compressionPolicy.withOverride resp.compress
  (grpcUnaryEnvelope compression responseEncoding effectivePolicy resp.body).bind
    fun (encodedData, chainedPayload) =>
      (buildGrpcTrailers cr none resp.trailers).map fun grpcTrailers =>
        ⟨some encodedData, chainedPayload, some (grpcTrailersOf protocol h grpcTrailers)⟩

section Room

variable {cr} {protocol : Protocol} {h : protocol ≠ .connect} {compression : CompressionRegistry}
variable {policy : CompressionPolicy} {encoding : Option String} {resp : EncodedResponse}

/-- With room for the status, the envelope decides. -/
theorem grpcUnaryBody_of_room (hroom : BlockRoom cr none resp.trailers) :
    grpcUnaryBody cr protocol h compression policy encoding resp =
      (grpcUnaryEnvelope compression encoding (policy.withOverride resp.compress) resp.body).map
        fun (encodedData, chainedPayload) => ⟨some encodedData, chainedPayload,
          some (grpcTrailersOf protocol h (grpcTrailerBlock cr none resp.trailers))⟩ := by
  rw [grpcUnaryBody, buildGrpcTrailers_eq, if_pos hroom]
  rcases grpcUnaryEnvelope compression encoding (policy.withOverride resp.compress) resp.body
    with _ | ⟨head, segments⟩
  · rfl
  · rfl

/-- Without, there is no body. -/
theorem grpcUnaryBody_full (hroom : ¬ BlockRoom cr none resp.trailers) :
    grpcUnaryBody cr protocol h compression policy encoding resp = none := by
  rw [grpcUnaryBody, buildGrpcTrailers_eq, if_neg hroom]
  exact Option.bind_eq_none_iff.mpr fun _ _ => rfl

/-- A body that is built carries its envelope and the block of its trailers. -/
theorem grpcUnaryBody_eq_some {body : GrpcUnaryBody}
    (hbody : grpcUnaryBody cr protocol h compression policy encoding resp = some body) :
    BlockRoom cr none resp.trailers ∧ ∃ head segments,
      grpcUnaryEnvelope compression encoding (policy.withOverride resp.compress) resp.body =
        some (head, segments) ∧
      body = ⟨some head, segments,
        some (grpcTrailersOf protocol h (grpcTrailerBlock cr none resp.trailers))⟩ := by
  by_cases hroom : BlockRoom cr none resp.trailers
  · rw [grpcUnaryBody_of_room hroom] at hbody
    obtain ⟨⟨head, segments⟩, hframed, rfl⟩ := Option.map_eq_some_iff.mp hbody
    exact ⟨hroom, head, segments, hframed, rfl⟩
  · rw [grpcUnaryBody_full hroom] at hbody
    cases hbody

end Room

/-! ## Its envelope -/

/-- A payload that fits the length field is framed as its envelope. -/
theorem Envelope.encodeBodyParts_eq (flag : UInt8) {body : EncodedBody} (minChain : ℕ)
    (h : body.len ≤ u32Max) :
    ∃ head segments, encodeBodyParts flag body minChain = some (head, segments) ∧
      head ++ segments.flatten = (Envelope.mk flag body.intoContiguous).wire := by
  have hwire : flag :: toBeBytes body.len ++ body.segments.flatten =
      (Envelope.mk flag body.intoContiguous).wire := by
    rw [wire, EncodedBody.flatten_segments, EncodedBody.len_eq]
  rw [encodeBodyParts, writeEnvelopeChained, envelopeLength_of_le h]
  simp only [Except.map, putEnvelopeHeader, List.nil_append]
  by_cases hc : (some minChain).all (fun bound => body.len < bound) = true
  · rw [if_pos hc]
    exact ⟨_, [], rfl, by rw [List.flatten_nil, List.append_nil, hwire]⟩
  · rw [if_neg hc]
    exact ⟨_, body.segments, rfl, hwire⟩

/-- A payload that does not is not framed. -/
theorem Envelope.encodeBodyParts_none {flag : UInt8} (body : EncodedBody) (minChain : ℕ)
    (h : u32Max < body.len) : encodeBodyParts flag body minChain = none := by
  rw [encodeBodyParts, writeEnvelopeChained, envelopeLength, if_neg (Nat.not_le.mpr h)]
  rfl

/-- The fast path frames what the streaming encoder prepares. -/
theorem grpcUnaryEnvelope_eq {reg : CompressionRegistry} {encoding : Option String}
    {policy : CompressionPolicy} {body b : EncodedBody} {flag : UInt8}
    (h : EnvelopeEncoder.prepare ⟨encoding.map (reg, ·), policy⟩ body = .ok (flag, b)) :
    grpcUnaryEnvelope reg encoding policy body =
      Envelope.encodeBodyParts flag b MIN_CHAIN_SIZE := by
  rw [EnvelopeEncoder.prepare] at h
  rcases encoding with _ | encoding
  · simp only [Option.map_none] at h
    cases h
    rfl
  · simp only [Option.map_some] at h
    rw [grpcUnaryEnvelope]
    by_cases hs : policy.shouldCompress body.len = true
    · rw [if_pos hs] at h
      simp only [if_pos hs]
      rcases hz : reg.compress encoding body.intoContiguous with err | z
      · rw [hz] at h
        cases h
      · rw [hz] at h
        cases h
        rfl
    · rw [if_neg hs] at h
      simp only [if_neg hs]
      cases h
      rfl

/-- A body that fits is prepared to something that fits. -/
theorem prepare_of_fits {reg : CompressionRegistry} {encoding : Option String}
    {policy : CompressionPolicy} {body : EncodedBody} (hlen : body.len ≤ u32Max)
    (hcompress : ∀ name, encoding = some name → policy.shouldCompress body.len = true →
      ∃ z, reg.compress name body.intoContiguous = .ok z ∧ z.length ≤ u32Max) :
    ∃ flag b, EnvelopeEncoder.prepare ⟨encoding.map (reg, ·), policy⟩ body = .ok (flag, b) ∧
      b.len ≤ u32Max := by
  rw [EnvelopeEncoder.prepare]
  rcases encoding with _ | name
  · exact ⟨_, _, rfl, hlen⟩
  · simp only [Option.map_some]
    by_cases hs : policy.shouldCompress body.len = true
    · obtain ⟨z, hz, hfits⟩ := hcompress name rfl hs
      rw [if_pos hs, hz]
      exact ⟨_, _, rfl, hfits⟩
    · rw [if_neg hs]
      exact ⟨_, _, rfl, hlen⟩

/-! ## Its frames -/

namespace GrpcUnaryBody

/-- What a number of polls of the body answer. -/
def sent : ℕ → GrpcUnaryBody → List (Option Frame)
  | 0, _ => []
  | n + 1, me => me.pollFrame.1 :: sent n me.pollFrame.2

/-- The polls answer the frames one by one, then that there are no more. -/
theorem sent_eq (n : ℕ) : ∀ me : GrpcUnaryBody,
    me.sent n = (me.frames.map some ++ List.replicate n none).take n := by
  induction n with
  | zero => exact fun _ => rfl
  | succ n ih =>
    intro me
    obtain ⟨hhead, htail⟩ := me.pollFrame_frames
    rw [sent, hhead, ih, htail]
    rcases me.frames with _ | ⟨f, frames⟩
    · simp [List.replicate_succ]
    · have hlen : n ≤ (frames.map some ++ List.replicate n (none : Option Frame)).length := by
        simp
      rw [List.replicate_succ', List.map_cons, List.cons_append, List.take_succ_cons,
        ← List.append_assoc, List.take_append_of_le_length hlen]
      rfl

/-- A body that has ended has sent its frames. -/
theorem reduceOption_sent {me : GrpcUnaryBody} {n : ℕ} (h : none ∈ me.sent n) :
    (me.sent n).reduceOption = me.frames := by
  have hlen : me.frames.length ≤ n := by
    rw [sent_eq] at h
    by_contra hlt
    have hle : n ≤ (me.frames.map some).length := by
      rw [List.length_map]
      omega
    rw [List.take_append_of_le_length hle] at h
    obtain ⟨f, -, hf⟩ := List.mem_map.mp (List.mem_of_mem_take h)
    cases hf
  rw [sent_eq, List.take_append, List.take_of_length_le (by rw [List.length_map]; exact hlen),
    List.reduceOption_append, List.take_replicate, List.reduceOption_replicate_none,
    List.append_nil, List.reduceOption, List.filterMap_map]
  exact List.filterMap_some

/-- It does end. -/
theorem none_mem_sent (me : GrpcUnaryBody) : ∃ n, none ∈ me.sent n := by
  refine ⟨me.frames.length + 1, ?_⟩
  rw [sent_eq, List.take_append, List.length_map, Nat.add_sub_cancel_left]
  refine List.mem_append_right _ ?_
  rw [List.replicate_succ]
  exact List.mem_cons_self

end GrpcUnaryBody

/-! ## The same on the wire -/

/-- A source of one message, which may keep the stream waiting before and after
it. -/
def oneItem (before after : ℕ) (body : EncodedBody) : List SourceEvent :=
  List.replicate before .pending ++ .item body :: List.replicate after .pending

theorem planned_pendings (enc : EnvelopeEncoder) (n : ℕ) (source : List SourceEvent) :
    planned enc (List.replicate n .pending ++ source) = planned enc source := by
  induction n with
  | zero => rfl
  | succ n ih =>
    rw [List.replicate_succ, List.cons_append, planned]
    exact ih

theorem planned_oneItem {enc : EnvelopeEncoder} {body : EncodedBody} {e : Envelope}
    (h : enc.envelope body = .ok e) (before after : ℕ) :
    planned enc (oneItem before after body) = ([e], none) := by
  have hrest : planned enc (List.replicate after .pending) = ([], none) := by
    have hnil := planned_pendings enc after []
    rw [List.append_nil] at hnil
    exact hnil
  rw [oneItem, planned_pendings, planned, h]
  simp only [hrest]

/-- A unary body and a response stream, polled until they have ended, have sent the
same bytes and the same trailers; and both do end. -/
structure SameWire (body : GrpcUnaryBody) (source : List SourceEvent) (trailers : HeaderMap)
    (compression : Option (CompressionRegistry × String)) (policy : CompressionPolicy)
    (fin : StreamFinalizer) : Prop where
  /-- the unary body ends -/
  ends : ∃ n, none ∈ body.sent n
  /-- so does the stream -/
  streamEnds : ∃ m, none ∈ served cr source trailers compression policy fin m
  /-- the same bytes -/
  bytes : ∀ n m, none ∈ body.sent n → none ∈ served cr source trailers compression policy fin m →
    sentBytes (body.sent n).reduceOption =
      sentBytes (served cr source trailers compression policy fin m).reduceOption
  /-- the same trailers -/
  trailers : ∀ n m, none ∈ body.sent n →
    none ∈ served cr source trailers compression policy fin m →
      sentTrailers (body.sent n).reduceOption =
        sentTrailers (served cr source trailers compression policy fin m).reduceOption

/-- What a unary body that carries an envelope sends. -/
theorem GrpcUnaryBody.sent_wire {me : GrpcUnaryBody} {e : Envelope} {head : Bytes} {f : Frame}
    {segments : List Bytes} (hframes : me.frames = ([head] ++ segments).map .data ++ [f])
    (hwire : head ++ segments.flatten = e.wire) :
    sentBytes me.frames = e.wire ++ sentBytes [f] ∧ sentTrailers me.frames = sentTrailers [f] := by
  rw [hframes, sentBytes_append, sentBytes_datas, List.flatten_append, List.flatten_singleton, hwire,
    sentTrailers_append, sentTrailers_datas]
  exact ⟨rfl, rfl⟩

/-- The terminal frame of the fast path is that of the stream. -/
theorem frame_grpcTrailersOf_success (protocol : Protocol) (h : protocol ≠ .connect)
    (trailers : HeaderMap) :
    (grpcTrailersOf protocol h (grpcTrailerBlock cr none trailers)).frame =
      protocol.finalizer.terminal cr none trailers := by
  cases protocol with
  | connect => exact absurd rfl h
  | grpc => rfl
  | grpcWeb => rfl

/-- **The fast path is the stream of one message.** For every body, however it is
segmented, trailers, policy, override and encoding: if the body fits the length field,
and compresses to something that does where it is compressed, the frames of the fast
path have the bytes and the trailers of the stream's frames. The trailers have to leave
room for the status. -/
theorem grpcUnaryBody_eq_stream {protocol : Protocol} {h : protocol ≠ .connect}
    {compression : CompressionRegistry} {policy : CompressionPolicy} {encoding : Option String}
    {resp : EncodedResponse} (hlen : resp.body.len ≤ u32Max)
    (hcompress : ∀ name, encoding = some name →
      (policy.withOverride resp.compress).shouldCompress resp.body.len = true →
        ∃ z, compression.compress name resp.body.intoContiguous = .ok z ∧ z.length ≤ u32Max)
    (hroom : BlockRoom cr none resp.trailers) :
    ∃ body, grpcUnaryBody cr protocol h compression policy encoding resp = some body ∧
      ∀ before after, SameWire cr body (oneItem before after resp.body) resp.trailers
        (encoding.map (compression, ·)) (policy.withOverride resp.compress)
        protocol.finalizer := by
  obtain ⟨flag, b, hprepare, hb⟩ := prepare_of_fits hlen hcompress
  obtain ⟨head, segments, hparts, hwire⟩ :=
    Envelope.encodeBodyParts_eq flag MIN_CHAIN_SIZE hb
  have henvelope : EnvelopeEncoder.envelope
      ⟨encoding.map (compression, ·), policy.withOverride resp.compress⟩ resp.body =
        .ok ⟨flag, b.intoContiguous⟩ := by
    rw [EnvelopeEncoder.envelope, hprepare]
    simp only [envelopeLength_of_le hb, Except.map]
  have hunary : grpcUnaryBody cr protocol h compression policy encoding resp =
      some ⟨some head, segments,
        some (grpcTrailersOf protocol h (grpcTrailerBlock cr none resp.trailers))⟩ := by
    rw [grpcUnaryBody_of_room hroom, grpcUnaryEnvelope_eq hprepare, hparts]
    rfl
  refine ⟨_, hunary, ?_⟩
  intro before after
  have hframes : GrpcUnaryBody.frames ⟨some head, segments,
      some (grpcTrailersOf protocol h (grpcTrailerBlock cr none resp.trailers))⟩ =
        ([head] ++ segments).map .data ++ [protocol.finalizer.terminal cr none resp.trailers] := by
    rw [← frame_grpcTrailersOf_success cr protocol h]
    rfl
  obtain ⟨hbytes, htrailers⟩ := GrpcUnaryBody.sent_wire hframes hwire
  obtain ⟨hends, hcomplete⟩ := served_complete cr (oneItem before after resp.body) resp.trailers
    (encoding.map (compression, ·)) (policy.withOverride resp.compress) protocol.finalizer
  rw [planned_oneItem henvelope] at hcomplete
  refine ⟨GrpcUnaryBody.none_mem_sent _, hends, ?_, ?_⟩
  · intro n m hn hm
    obtain ⟨hstream, -⟩ := (hcomplete m hm).sent
    rw [GrpcUnaryBody.reduceOption_sent hn, hbytes, hstream, List.flatMap_singleton]
  · intro n m hn hm
    obtain ⟨-, hstream⟩ := (hcomplete m hm).sent
    rw [GrpcUnaryBody.reduceOption_sent hn, htrailers, hstream]

/-- The provider grows all messages but one by a byte. -/
theorem compress_swapRegistry {data : Bytes} (h : data ≠ [7]) :
    swapRegistry.compress "swap" data = .ok (0 :: data) := by
  have hget : swapRegistry.get "swap" = some swapProvider := rfl
  rw [CompressionRegistry.compress, if_neg (by decide), hget]
  exact congrArg Except.ok (if_neg h)

/-- Two segments, sent as they are and compressed. -/
theorem segmented_eq_stream :
    (∃ body, grpcUnaryBody .std .grpc (by decide) .new .default none
      ⟨.segmented [[7], [9]], .empty, ⟨[(xNote, .letters 3)]⟩, none⟩ = some body ∧
        ∀ before after, SameWire .std body (oneItem before after (.segmented [[7], [9]]))
          ⟨[(xNote, .letters 3)]⟩ none .default (Protocol.finalizer .grpc)) ∧
    (∃ body, grpcUnaryBody .std .grpcWeb (by decide) swapRegistry .default (some "swap")
      ⟨.segmented [[7], [9]], .empty, .empty, some true⟩ = some body ∧
        ∀ before after, SameWire .std body (oneItem before after (.segmented [[7], [9]])) .empty
          (some (swapRegistry, "swap")) ⟨true, 0⟩ (Protocol.finalizer .grpcWeb)) := by
  refine ⟨grpcUnaryBody_eq_stream .std (by decide) (by simp) (by decide),
    grpcUnaryBody_eq_stream .std (by decide) ?_ (by decide)⟩
  rintro name hname -
  obtain rfl := Option.some.inj hname
  exact ⟨[0, 7, 9], compress_swapRegistry (by decide), by decide⟩

/-! ## Where the fast path has no body -/

/-- A payload that compresses to more than the length field holds has no body. -/
theorem grpcUnaryBody_none {protocol : Protocol} {h : protocol ≠ .connect}
    {compression : CompressionRegistry} {policy : CompressionPolicy} {encoding : String}
    {resp : EncodedResponse} {z : Bytes}
    (hshould : (policy.withOverride resp.compress).shouldCompress resp.body.len = true)
    (hz : compression.compress encoding resp.body.intoContiguous = .ok z)
    (hlong : u32Max < z.length) :
    grpcUnaryBody cr protocol h compression policy (some encoding) resp = none := by
  have hprepare : EnvelopeEncoder.prepare
      ⟨(some encoding).map (compression, ·), policy.withOverride resp.compress⟩ resp.body =
        .ok (flags.COMPRESSED, .contiguous z) := by
    simp only [EnvelopeEncoder.prepare, Option.map_some]
    rw [if_pos hshould, hz]
    rfl
  rw [grpcUnaryBody, grpcUnaryEnvelope_eq hprepare,
    Envelope.encodeBodyParts_none (.contiguous z) _ hlong]
  rfl

/-- A body as long as the length field allows that one more byte is put in front of: the
fast path panics. -/
theorem grown_payload_no_body :
    (EncodedBody.contiguous (List.replicate u32Max 0)).len ≤ u32Max ∧
      (∃ z, swapRegistry.compress "swap" (List.replicate u32Max 0) = .ok z) ∧
      ¬ ∃ body, grpcUnaryBody .std .grpc (by decide) swapRegistry .default (some "swap")
        ⟨.contiguous (List.replicate u32Max 0), .empty, .empty, none⟩ = some body ∧
          SameWire .std body (oneItem 0 0 (.contiguous (List.replicate u32Max 0))) .empty
            (some (swapRegistry, "swap")) .default (Protocol.finalizer .grpc) := by
  have hlength : (List.replicate u32Max (0 : UInt8)).length = u32Max := List.length_replicate
  have hne : List.replicate u32Max (0 : UInt8) ≠ [7] := by
    intro h
    have hone := congrArg List.length h
    rw [hlength] at hone
    exact absurd hone (by decide)
  have hz := compress_swapRegistry hne
  have hlen : (EncodedBody.contiguous (List.replicate u32Max 0)).len = u32Max := hlength
  refine ⟨Nat.le_of_eq hlen, ⟨_, hz⟩, ?_⟩
  rintro ⟨body, hbody, -⟩
  have hnone := @grpcUnaryBody_none .std .grpc (by decide) swapRegistry .default "swap"
    ⟨.contiguous (List.replicate u32Max 0), .empty, .empty, none⟩ _
    (by rw [hlen]; decide) hz (by rw [List.length_cons, hlength]; exact Nat.lt_succ_self _)
  rw [hnone] at hbody
  cases hbody

end ConnectRpc
