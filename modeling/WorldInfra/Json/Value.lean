/-
JSON values as `serde_json` has them without its `preserve_order` feature: the fields of an object
stand by ascending key. Paths into a value, and what shows at the end of one.
-/
import WorldInfra.Lib.SortedMap
import WorldInfra.Rust.Text

namespace WorldInfra.Json

open WorldInfra.Lib WorldInfra.Rust

/-- `serde_json::Value`, for any type of numbers. -/
inductive Value (Number : Type) where
  | null
  | bool (b : Bool)
  | number (n : Number)
  | string (s : Str)
  | array (items : List (Value Number))
  | object (map : List (Str × Value Number))

namespace Value

variable {Number : Type}

/-! ## Well-formed values -/

mutual

/-- Every object in the value is a map: its keys ascend. -/
def Sorted : Value Number → Prop
  | array items => SortedItems items
  | object map => SortedMap.Ascending map ∧ SortedFields map
  | _ => True

def SortedItems : List (Value Number) → Prop
  | [] => True
  | item :: items => item.Sorted ∧ SortedItems items

def SortedFields : List (Str × Value Number) → Prop
  | [] => True
  | (_, value) :: map => value.Sorted ∧ SortedFields map

end

/-! ## Paths -/

inductive Step where
  | key (key : Str)
  | index (i : Nat)

def child : Value Number → Step → Option (Value Number)
  | object map, .key key => map.lookup key
  | array items, .index i => items[i]?
  | _, _ => none

/-- The value at a path, if there is one. -/
def atPath : Value Number → List Step → Option (Value Number)
  | value, [] => some value
  | value, step :: path =>
    match value.child step with
    | none => none
    | some child => child.atPath path

/-- What a value shows without its children: a scalar all of it, an array how many there are, an object
under which keys. -/
inductive Outline (Number : Type) where
  | scalar (value : Value Number)
  | array (length : Nat)
  | object (keys : List Str)

def outline : Value Number → Outline Number
  | array items => .array items.length
  | object map => .object (map.map Prod.fst)
  | value => .scalar value

end Value

/-- A `serde_json::Value` as a program can hold it. -/
@[ext] structure Document (Number : Type) where
  value : Value Number
  sorted : value.Sorted

end WorldInfra.Json
