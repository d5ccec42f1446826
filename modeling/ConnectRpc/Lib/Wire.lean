import Mathlib.Tactic.Common
import Mathlib.Algebra.Order.Group.Nat
import Mathlib.Data.List.Basic

/-!
# The wire format of protocol buffers

The grammar of a message, as far as it can be told without a schema: numbers in groups of
seven bits, and fields that are each a tag and a value in one of four forms. A tag is the
number of the field and its form in the lowest three bits.

A number has at most ten bytes, and what goes beyond 64 bits is dropped.
-/

namespace ConnectRpc.Lib.Wire

/-! ## Numbers -/

/-- The groups of seven bits, the lowest first. -/
def groups : List UInt8 → ℕ
  | [] => 0
  | b :: r => b.toNat % 128 + 128 * groups r

/-- Every byte but the last has its top bit set. -/
def Terminated : List UInt8 → Prop
  | [] => False
  | b :: r => if b.toNat < 128 then r = [] else Terminated r

/-- The bytes are a number. -/
structure IsVarint (w : List UInt8) (n : ℕ) : Prop where
  /-- it ends with them -/
  terminated : Terminated w
  /-- ten groups at most -/
  length_le : w.length ≤ 10
  /-- its lowest 64 bits -/
  value : n = groups w % 2 ^ 64

theorem Terminated.ne_nil {w : List UInt8} (h : Terminated w) : w ≠ [] := by
  rintro rfl
  exact h

theorem IsVarint.length_pos {w : List UInt8} {n : ℕ} (h : IsVarint w n) : 0 < w.length :=
  List.length_pos_iff.mpr h.terminated.ne_nil

/-! ## Fields -/

/-- The bytes are what stands behind a tag of a form; the payload is there if they are
length-delimited. -/
inductive IsBody : ℕ → List UInt8 → Option (List UInt8) → Prop where
  | varint {v : List UInt8} {n : ℕ} : IsVarint v n → IsBody 0 v none
  | fixed64 {body : List UInt8} : body.length = 8 → IsBody 1 body none
  | delimited {len body : List UInt8} : IsVarint len body.length →
    IsBody 2 (len ++ body) (some body)
  | fixed32 {body : List UInt8} : body.length = 4 → IsBody 5 body none

/-- The bytes are a field, with a number and, if it is length-delimited, a payload. -/
inductive IsField : List UInt8 → ℕ → Option (List UInt8) → Prop where
  | mk {tag body : List UInt8} {form number : ℕ} {payload : Option (List UInt8)} :
    IsVarint tag (8 * number + form) → IsBody form body payload →
    IsField (tag ++ body) number payload

/-- The bytes are a sequence of fields. -/
inductive Fields : List UInt8 → List (ℕ × Option (List UInt8)) → Prop where
  | nil : Fields [] []
  | cons {b r : List UInt8} {f : ℕ} {p : Option (List UInt8)}
    {fs : List (ℕ × Option (List UInt8))} : IsField b f p → Fields r fs →
    Fields (b ++ r) ((f, p) :: fs)

/-- The payloads of the length-delimited fields with a number, in order. -/
def payloads (number : ℕ) (fs : List (ℕ × Option (List UInt8))) : List (List UInt8) :=
  fs.filterMap fun e => if e.1 = number then e.2 else none

theorem IsBody.form_lt {form : ℕ} {body : List UInt8} {payload : Option (List UInt8)}
    (h : IsBody form body payload) : form < 8 := by
  cases h with
  | varint => omega
  | fixed64 => omega
  | delimited => omega
  | fixed32 => omega

theorem IsField.length_pos {b : List UInt8} {f : ℕ} {p : Option (List UInt8)}
    (h : IsField b f p) : 0 < b.length := by
  cases h with
  | mk htag _ =>
    rw [List.length_append]
    exact Nat.add_pos_left htag.length_pos _

/-- A sequence of fields is empty, or starts with one. -/
theorem Fields.cases_first {b : List UInt8} {fs : List (ℕ × Option (List UInt8))}
    (h : Fields b fs) :
    b = [] ∧ fs = [] ∨ ∃ w r number payload fs', b = w ++ r ∧ 0 < w.length ∧
      fs = (number, payload) :: fs' ∧ IsField w number payload ∧ Fields r fs' := by
  cases h with
  | nil => exact .inl ⟨rfl, rfl⟩
  | cons hfield hrest =>
    exact .inr ⟨_, _, _, _, _, rfl, hfield.length_pos, rfl, hfield, hrest⟩

end ConnectRpc.Lib.Wire
