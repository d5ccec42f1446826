import ConnectRpc.UnaryAgreement

/-!
# How a unary body is cut

The gRPC parser reads a unary body frame by frame: a frame is cut to the room that is left,
the data is searched for a trailer frame after each, and only then a frame that was cut is an
error. None of that depends on where one frame ends and the next begins. Two frames are read
as one with the data of both (`readUnaryBody_merge`), and so any number are.
-/

namespace ConnectRpc

open Lib

variable (cr : Crates) {α : Type}

/-- What the reading loop looks for after each frame. -/
def searchEnd (protocol : Protocol) (b : Bytes) : Option ℕ :=
  if protocol = .grpcWeb then grpcWebTrailerFrameEnd b else none

/-- What is found stays where it is, whatever comes after. -/
theorem searchEnd_append {protocol : Protocol} {b : Bytes} {k : ℕ}
    (h : searchEnd protocol b = some k) (d : Bytes) :
    searchEnd protocol (b ++ d) = some k ∧ k ≤ b.length := by
  rw [searchEnd] at h ⊢
  split at h
  · rename_i hweb
    rw [if_pos hweb]
    exact grpcWebTrailerFrameEnd_append _ (Nat.le_refl _) h d
  · cases h

section Cutting

variable {protocol : Protocol} {maxBufSize : ℕ} {success late : Bool}

/-- One round of the reading loop. -/
theorem readUnaryBody_data (acc : UnaryBody) (d : Bytes) (body : List BodyEvent) :
    readUnaryBody protocol maxBufSize success late acc (.data d :: body) =
      let buf := acc.buf ++ d.take (maxBufSize - acc.buf.length)
      let has := acc.hasBodyData || !d.isEmpty
      (searchEnd protocol buf).elim
        (if maxBufSize - acc.buf.length < d.length then
          .error (.resourceExhausted s!"response body size exceeds limit {maxBufSize}")
        else readUnaryBody protocol maxBufSize success late ⟨buf, acc.trailers, has⟩ body)
        fun trailerEnd => .ok ⟨buf.take trailerEnd, acc.trailers, has⟩ := by
  have htake : d.take (min d.length (maxBufSize - acc.buf.length)) =
      d.take (maxBufSize - acc.buf.length) := by
    rw [Nat.min_comm, ← List.take_take, List.take_length]
  have hcut : min d.length (maxBufSize - acc.buf.length) < d.length ↔
      maxBufSize - acc.buf.length < d.length := by
    omega
  rw [readUnaryBody, htake]
  simp only [hcut, searchEnd]
  split
  · rename_i k hk
    rw [hk]
    rfl
  · rename_i hk
    rw [hk]
    rfl

/-- Two frames are read as one with the data of both. -/
theorem readUnaryBody_merge {acc : UnaryBody} (hnone : searchEnd protocol acc.buf = none)
    (a b : Bytes) (body : List BodyEvent) :
    readUnaryBody protocol maxBufSize success late acc (.data a :: .data b :: body) =
      readUnaryBody protocol maxBufSize success late acc (.data (a ++ b) :: body) := by
  rw [readUnaryBody_data, readUnaryBody_data]
  generalize hroom : maxBufSize - acc.buf.length = room
  have hsplit : acc.buf ++ (a ++ b).take room =
      acc.buf ++ a.take room ++ b.take (room - a.length) := by
    rw [List.take_append, List.append_assoc]
  have hhas : (acc.hasBodyData || !(a ++ b).isEmpty) =
      (acc.hasBodyData || !a.isEmpty || !b.isEmpty) := by
    cases a <;> simp
  simp only [hsplit, hhas, List.length_append]
  rcases hend : searchEnd protocol (acc.buf ++ a.take room) with _ | k
  · by_cases hover : room < a.length
    · -- the first frame is cut, and the second would find no room
      have hno : room - a.length = 0 := by omega
      rw [hno, List.take_zero, List.append_nil, hend]
      simp only [Option.elim_none]
      rw [if_pos hover, if_pos (by omega)]
    · have htake : a.take room = a := List.take_of_length_le (Nat.le_of_not_lt hover)
      have hleft : maxBufSize - (acc.buf ++ a).length = room - a.length := by
        rw [List.length_append]
        omega
      rw [htake]
      simp only [Option.elim_none]
      rw [if_neg hover, readUnaryBody_data, hleft]
      have hiff : room - a.length < b.length ↔ room < a.length + b.length := by omega
      simp only [hiff]
  · -- the trailer frame ends in the first frame, which is not empty then
    obtain ⟨hsame, hle⟩ := searchEnd_append hend (b.take (room - a.length))
    have hsome : a.isEmpty = false := by
      rcases a with _ | ⟨x, a⟩
      · rw [List.take_nil, List.append_nil, hnone] at hend
        cases hend
      · rfl
    simp only [hsame, Option.elim_some, hsome, Bool.not_false, Bool.or_true, Bool.true_or,
      List.take_append_of_le_length hle]

/-- A frame without data is read as none. -/
theorem readUnaryBody_empty {acc : UnaryBody} (hnone : searchEnd protocol acc.buf = none)
    (body : List BodyEvent) :
    readUnaryBody protocol maxBufSize success late acc (.data [] :: body) =
      readUnaryBody protocol maxBufSize success late acc body := by
  rw [readUnaryBody_data]
  simp only [List.take_nil, List.append_nil, hnone, Option.elim_none, List.length_nil,
    Nat.not_lt_zero, if_false, List.isEmpty_nil, Bool.not_true, Bool.or_false]

/-- Any number of frames are read as one. -/
theorem readUnaryBody_flatten {acc : UnaryBody} (hnone : searchEnd protocol acc.buf = none)
    (body : List BodyEvent) : ∀ (datas : List Bytes) (d : Bytes),
    readUnaryBody protocol maxBufSize success late acc (.data d :: (datas.map .data ++ body)) =
      readUnaryBody protocol maxBufSize success late acc (.data (d ++ datas.flatten) :: body) := by
  intro datas
  induction datas with
  | nil =>
    intro d
    rw [List.flatten_nil, List.append_nil]
    rfl
  | cons e datas ih =>
    intro d
    rw [List.map_cons, List.cons_append, readUnaryBody_merge hnone, ih, List.flatten_cons,
      List.append_assoc]

end Cutting

section Body

variable (c : CallConfig α) (response : Response (List BodyEvent)) (body : List BodyEvent)

/-- Decoding reads the status and the headers of a response, not its body. -/
theorem decodeUnaryBody_body (encoding : Option String) :
    ∀ (fuel : ℕ) (message : Option Bytes) (trailers : HeaderMap) (buf : Bytes),
      decodeUnaryBody cr c { response with body := body } encoding fuel message trailers buf =
        decodeUnaryBody cr c response encoding fuel message trailers buf := by
  intro fuel
  induction fuel with
  | zero => exact fun _ _ _ => rfl
  | succ fuel ih =>
    intro message trailers buf
    simp only [decodeUnaryBody, invalidTrailerFlag, ih]

/-- So does what comes after it. -/
theorem finishUnary_body (late has : Bool) (message : Option Bytes) (trailers : HeaderMap) :
    finishUnary cr c { response with body := body } late has message trailers =
      finishUnary cr c response late has message trailers := by
  simp only [finishUnary]

end Body

/-- However a body is cut into frames, empty ones included, and whatever comes after them, the
parser returns what it returns for all the data in one frame. -/
theorem parseGrpcUnaryResponse_cutting (c : CallConfig α) (response : Response (List BodyEvent))
    (late : Bool) (datas : List Bytes) (tail : List BodyEvent) :
    parseGrpcUnaryResponse cr c { response with body := datas.map .data ++ tail } late =
      parseGrpcUnaryResponse cr c { response with body := .data datas.flatten :: tail } late := by
  have hnone : searchEnd c.protocol ([] : Bytes) = none := by
    rw [searchEnd]
    split <;> rfl
  have hread : readUnaryBody c.protocol (maxUnaryBuffer c) response.status.isSuccess late
      ⟨[], .empty, false⟩ (datas.map .data ++ tail) =
      readUnaryBody c.protocol (maxUnaryBuffer c) response.status.isSuccess late
        ⟨[], .empty, false⟩ (.data datas.flatten :: tail) := by
    rw [← List.nil_append datas.flatten, ← readUnaryBody_flatten hnone, readUnaryBody_empty hnone]
  simp only [parseGrpcUnaryResponse, hread, decodeUnaryBody_body cr c response,
    finishUnary_body cr c response]

end ConnectRpc
