import Mathlib.Tactic.Common

/-!
# JSON values and typed records

The tree a JSON text denotes, and how a record type is read from and written to
such a tree. Reading follows the conventions of derived deserializers: an object
gives its members by name, members of other names are ignored and a known name
given twice is refused; an array gives the members by position.

Numbers are kept as an integer or as a decimal fraction, since the text of a
number is not needed to talk about the records.
-/

namespace ConnectRpc.Lib

/-- A JSON number. -/
inductive Number : Type where
  /-- an integer -/
  | int : Int → Number
  /-- `mantissa · 10 ^ exponent` -/
  | decimal : (mantissa exponent : Int) → Number
  deriving DecidableEq

/-- A JSON value. -/
inductive Json : Type where
  /-- `null` -/
  | null : Json
  /-- `true` or `false` -/
  | bool : Bool → Json
  /-- a number -/
  | num : Number → Json
  /-- a string -/
  | str : String → Json
  /-- an array -/
  | arr : List Json → Json
  /-- an object, members in the order they are written -/
  | obj : List (String × Json) → Json

namespace Json

mutual

/-- How deep arrays and objects are nested. -/
def depth : Json → ℕ
  | .arr vs => depthList vs + 1
  | .obj ms => depthMembers ms + 1
  | _ => 0

/-- The deepest of some values. -/
def depthList : List Json → ℕ
  | [] => 0
  | v :: vs => max v.depth (depthList vs)

/-- The deepest of some members. -/
def depthMembers : List (String × Json) → ℕ
  | [] => 0
  | m :: ms => max m.2.depth (depthMembers ms)

end

mutual

/-- Rewrite every number. -/
def mapNum (f : Number → Number) : Json → Json
  | .num n => .num (f n)
  | .arr vs => .arr (mapNumList f vs)
  | .obj ms => .obj (mapNumMembers f ms)
  | v => v

/-- Rewrite every number of some values. -/
def mapNumList (f : Number → Number) : List Json → List Json
  | [] => []
  | v :: vs => v.mapNum f :: mapNumList f vs

/-- Rewrite every number of some members. -/
def mapNumMembers (f : Number → Number) : List (String × Json) → List (String × Json)
  | [] => []
  | m :: ms => (m.1, m.2.mapNum f) :: mapNumMembers f ms

end

@[simp] theorem mapNum_null (f : Number → Number) : mapNum f .null = .null := by simp [mapNum]

@[simp] theorem mapNum_str (f : Number → Number) (s : String) : mapNum f (.str s) = .str s := by
  simp [mapNum]

@[simp] theorem mapNum_arr (f : Number → Number) (vs : List Json) :
    mapNum f (.arr vs) = .arr (vs.map (mapNum f)) := by
  have h : ∀ vs : List Json, mapNumList f vs = vs.map (mapNum f) := by
    intro vs
    induction vs with
    | nil => simp [mapNumList]
    | cons v vs ih => simp [mapNumList, ih]
  rw [mapNum, h]

@[simp] theorem mapNum_obj (f : Number → Number) (ms : List (String × Json)) :
    mapNum f (.obj ms) = .obj (ms.map fun m => (m.1, m.2.mapNum f)) := by
  have h : ∀ ms : List (String × Json),
      mapNumMembers f ms = ms.map fun m => (m.1, m.2.mapNum f) := by
    intro ms
    induction ms with
    | nil => simp [mapNumMembers]
    | cons m ms ih => simp [mapNumMembers, ih]
  rw [mapNum, h]

mutual

/-- Leaving numbers alone leaves the value alone. -/
theorem mapNum_id : ∀ v : Json, v.mapNum (fun n => n) = v
  | .null => by rw [mapNum_null]
  | .bool b => by simp [mapNum]
  | .num n => by simp [mapNum]
  | .str s => by rw [mapNum_str]
  | .arr vs => by rw [mapNum, mapNumList_id vs]
  | .obj ms => by rw [mapNum, mapNumMembers_id ms]

theorem mapNumList_id : ∀ vs : List Json, mapNumList (fun n => n) vs = vs
  | [] => by simp [mapNumList]
  | v :: vs => by rw [mapNumList, mapNum_id v, mapNumList_id vs]

theorem mapNumMembers_id : ∀ ms : List (String × Json), mapNumMembers (fun n => n) ms = ms
  | [] => by simp [mapNumMembers]
  | (k, v) :: ms => by simp only [mapNumMembers, mapNum_id v, mapNumMembers_id ms]

end

@[simp] theorem depth_str (s : String) : depth (.str s) = 0 := by simp [depth]

@[simp] theorem depth_null : depth .null = 0 := by simp [depth]

theorem depth_arr_le {vs : List Json} {n : ℕ} :
    depth (.arr vs) ≤ n + 1 ↔ ∀ v ∈ vs, v.depth ≤ n := by
  have h : depthList vs ≤ n ↔ ∀ v ∈ vs, v.depth ≤ n := by
    induction vs with
    | nil => simp [depthList]
    | cons v vs ih =>
      rw [depthList, Nat.max_le, ih]
      simp
  rw [depth, Nat.add_le_add_iff_right, h]

theorem depth_obj_le {ms : List (String × Json)} {n : ℕ} :
    depth (.obj ms) ≤ n + 1 ↔ ∀ m ∈ ms, m.2.depth ≤ n := by
  have h : depthMembers ms ≤ n ↔ ∀ m ∈ ms, m.2.depth ≤ n := by
    induction ms with
    | nil => simp [depthMembers]
    | cons m ms ih =>
      rw [depthMembers, Nat.max_le, ih]
      simp
  rw [depth, Nat.add_le_add_iff_right, h]

/-! ## Records -/

/-- A field of a record type. -/
structure Field where
  /-- its name -/
  name : String
  /-- whether an array too short to reach it leaves it at its default -/
  default : Bool

/-- The value an object gives a field: none, one, or the name is given twice. -/
def member (ms : List (String × Json)) (name : String) : Option (Option Json) :=
  match ms.filter (fun m => m.1 = name) with
  | [] => some none
  | [m] => some (some m.2)
  | _ => none

/-- The values an array gives some fields, by position. -/
def positional : List Field → List Json → Option (List (Option Json))
  | [], [] => some []
  | [], _ :: _ => none
  | f :: fs, [] => if f.default then (positional fs []).map (none :: ·) else none
  | _ :: fs, v :: vs => (positional fs vs).map (some v :: ·)

/-- The value given to each field of a record, in the order of the fields. -/
def fields (fs : List Field) : Json → Option (List (Option Json))
  | .obj ms => fs.mapM fun f => member ms f.name
  | .arr vs => positional fs vs
  | _ => none

/-- An optional text: absent and `null` are the same. -/
def optStr : Option Json → Option (Option String)
  | none => some none
  | some .null => some none
  | some (.str s) => some (some s)
  | some _ => none

/-- A required text. -/
def reqStr : Option Json → Option String
  | some (.str s) => some s
  | _ => none

/-- An optional value: absent and `null` are the same. -/
def optValue : Option Json → Option Json
  | none => none
  | some .null => none
  | some v => some v

/-- The text of a string. -/
def str? : Json → Option String
  | .str s => some s
  | _ => none

end Json

end ConnectRpc.Lib
