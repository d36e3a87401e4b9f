import ApiDouble.Collection.SortedMap
import ApiDouble.Collection.SortedSet
import ApiDouble.Document.Basic

/-!
# Written forms

`Written` joins a type to the documents that stand for its values. A record is written as an object
with one member per field; it is read from such an object, unknown members passed over, or from an
array holding the fields in their order. A field is required, or has a default, or is optional; only
an optional field may be `null`, and it is left out when there is nothing to write.
-/

namespace ApiDouble

/-- A type whose values are written as documents. -/
class Written (α : Type) where
  write : α → Document
  read? : Document → Option α

/-- Reading what was written gives it back. -/
class LawfulWritten (α : Type) [Written α] : Prop where
  read?_write (x : α) : Written.read? (Written.write x) = some x

namespace Written

instance : Written String := ⟨.string, Document.string?⟩

instance : LawfulWritten String := ⟨fun _ => rfl⟩

instance : Written Bool := ⟨.bool, fun
  | .bool b => some b
  | _ => none⟩

instance : LawfulWritten Bool := ⟨fun _ => rfl⟩

/-- An integer from 0 up to `limit`, not included. -/
def natural? (limit : Nat) : Document → Option Nat
  | .number (.integer z) => if 0 ≤ z ∧ z < limit then some z.toNat else none
  | _ => none

instance : Written UInt64 :=
  ⟨fun n => .ofNat n.toNat, fun d => (natural? UInt64.size d).map UInt64.ofNat⟩

variable {α : Type} [Written α]

instance : Written (List α) where
  write xs := .array (xs.map write)
  read?
    | .array xs => xs.mapM read?
    | _ => none

/-- A set is written as the array of its members. -/
instance [Ord α] [Std.TransOrd α] [Std.LawfulEqOrd α] : Written (SortedSet α) where
  write s := write s.toList
  read? d := (read? d).map SortedSet.ofList

/-- A map is written as an object. -/
instance : Written (SortedMap String α) where
  write m := .object (m.toList.map fun e => (e.1, write e.2))
  read?
    | .object ms => do return .ofList (← ms.mapM fun m => do return (m.1, ← read? m.2))
    | _ => none

/-! ## Words -/

/-- A choice is written as a word. The word may also be the only key of an object, with `null` as
its value. -/
def choice? (all : List α) (word : α → String) : Document → Option α
  | .string s => all.find? fun x => word x == s
  | .object [(s, .null)] => all.find? fun x => word x == s
  | _ => none

end Written

/-! ## Records -/

/-- The fields of a record being read: what there is under a name. -/
abbrev Fields := String → Option Document

namespace Fields

/-- The fields of an object, or of an array holding at most the named ones in order. -/
def ofDocument? (names : List String) : Document → Option Fields
  | .object ms => some (Document.valueOf? · ms)
  | .array xs =>
    if xs.length ≤ names.length then some (Document.valueOf? · (names.zip xs)) else none
  | _ => none

variable {α : Type} [Written α]

def required (f : Fields) (name : String) : Option α := (f name).bind Written.read?

def orDefault (f : Fields) (name : String) (value : α) : Option α :=
  match f name with
  | none => some value
  | some d => Written.read? d

def optional (f : Fields) (name : String) : Option (Option α) :=
  match f name with
  | none | some .null => some none
  | some d => (Written.read? d).map some

end Fields

/-- The member of an optional field. -/
def optionalMember {α : Type} [Written α] (name : String) :
    Option α → List (String × Document)
  | none => []
  | some x => [(name, Written.write x)]

end ApiDouble
