import ApiDouble.Document.Basic

/-!
# Paths through documents

A path is a sequence of steps. Each step takes the parts found so far to those that it finds from
there, in document order; a part that it finds nothing in drops out (`Step.select`). A filter keeps
the items of an array that meet a condition; anything but an array is taken for its own only item.

Conditions compare the values that two operands find. Numbers are equal if they are written alike,
integer or not, and are ordered by value. There is no matching of regular expressions.
-/

namespace ApiDouble.Document

/-- How the values of two operands may be related. -/
inductive Relation
  | equal | unequal | less | atMost | greater | atLeast
  | within | notWithin | size | anyOf | noneOf | subsetOf
deriving DecidableEq, Repr

mutual

/-- One step of a path. A slice has its bounds, zero as the second one standing for the length, and
its stride. `length` is that of the first array found, `count` the number of parts found. -/
inductive Step
  | root
  | current (path : List Step)
  | field (key : String)
  | fields (keys : List String)
  | index (i : Nat)
  | indices (is : List Int)
  | slice (start stop : Int) (stride : Nat)
  | every
  | descend (key : String)
  | descendAll
  | filter (condition : Condition)
  | length
  | count

/-- What a filter asks of an item. -/
inductive Condition
  | found (x : Operand)
  | related (x : Operand) (r : Relation) (y : Operand)
  | and (c d : Condition)
  | or (c d : Condition)
  | not (c : Condition)

/-- One side of a condition. -/
inductive Operand
  | constant (d : Document)
  | path (steps : List Step)

end

abbrev Path := List Step

/-! ## Comparing -/

/-- A number as binary floating point, none if it is too large. -/
def toBinary? : Number → Option Binary64
  | .integer z => Binary64.ofRatio? (z < 0) z.natAbs 1
  | .binary x => some x

/-- Whether both sides are single numbers, the first one below the second. -/
def less : List Document → List Document → Bool
  | [.number a], [.number b] =>
    match toBinary? a, toBinary? b with
    | some x, some y => x.compareValue y == .lt
    | _, _ => false
  | _, _ => false

def equal (xs ys : List Document) : Bool := sameItems xs ys

/-- Whether one of the values is a member of the first collection on the other side. -/
def within (xs : List Document) : List Document → Bool
  | .array ys :: _ => xs.any fun x => ys.any (same x)
  | .object ms :: _ => xs.any fun x => ms.any fun m => same x m.2
  | _ => false

def spread : Document → List Document
  | .array xs => xs
  | x => [x]

/-- Whether one of the values, or of their items, is an item of the first array on the other side.
No values at all count as one that is. -/
def anyOf (xs : List Document) : List Document → Bool
  | .array ys :: _ => xs.isEmpty || (xs.flatMap spread).any fun x => ys.any (same x)
  | _ => xs.isEmpty

/-- Whether the items of the first array are items of the first array on the other side, which has
some. -/
def subsetOf : List Document → List Document → Bool
  | [], _ => true
  | .array xs :: _, .array ys :: _ => !ys.isEmpty && xs.all fun x => ys.any (same x)
  | _, _ => false

/-- The whole part of a number that is not below zero. -/
def wholePart (x : Binary64) : Nat := if x.negative then 0 else x.ratio.1 / x.ratio.2

/-- The size of a string in bytes, or of a container in parts. -/
def extent? : Document → Option Nat
  | .string s => some s.utf8ByteSize
  | .array xs => some xs.length
  | .object ms => some ms.length
  | _ => none

/-- Whether all values have the size that the other side says. -/
def hasSize (xs : List Document) : List Document → Bool
  | .number n :: _ =>
    match toBinary? n with
    | some x => xs.all fun d => extent? d == some (wholePart x)
    | none => false
  | _ => false

def Relation.holds (r : Relation) (xs ys : List Document) : Bool :=
  match r with
  | equal => Document.equal xs ys
  | unequal => !Document.equal xs ys
  | less => Document.less xs ys
  | atMost => Document.less xs ys || Document.equal xs ys
  | greater => Document.less ys xs
  | atLeast => Document.less ys xs || Document.equal xs ys
  | within => Document.within xs ys
  | notWithin => !Document.within xs ys
  | size => hasSize xs ys
  | anyOf => Document.anyOf xs ys
  | noneOf => !Document.anyOf xs ys
  | subsetOf => Document.subsetOf xs ys

/-! ## Selecting -/

/-- The parts one level down. -/
def children : Document → List Document
  | .array xs => xs
  | .object ms => ms.map (·.2)
  | _ => []

mutual

/-- All parts below a document, each before its own. -/
def descendants : Document → List Document
  | .array xs => descendantsOfItems xs
  | .object ms => descendantsOfMembers ms
  | _ => []

def descendantsOfItems : List Document → List Document
  | [] => []
  | x :: xs => x :: descendants x ++ descendantsOfItems xs

def descendantsOfMembers : List (String × Document) → List Document
  | [] => []
  | (_, x) :: ms => x :: descendants x ++ descendantsOfMembers ms

end

/-- A bound of a slice in an array, counted from the end if negative; none beyond either end. -/
def bound? (size : Nat) (z : Int) : Option Nat :=
  if (size : Int) < z ∨ z < -(size : Int) then none
  else some (if z < 0 then (size + z).toNat else z.toNat)

/-- Every item whose place is a multiple of `stride` away from the first. -/
def stridden (stride : Nat) (xs : List Document) : List Document :=
  (xs.zipIdx.filter fun x => x.2 % stride == 0).map (·.1)

def sliced (start stop : Int) (stride : Nat) (xs : List Document) : List Document :=
  match bound? xs.length start, bound? xs.length stop with
  | some a, some b =>
    let b := if b = 0 then xs.length else b
    stridden stride ((xs.take b).drop a)
  | _, _ => []

/-- The item at a place, none before the first. -/
def item? (d : Document) (i : Int) : Option Document :=
  if i < 0 then none else d.items[i.toNat]?

/-- What a filter looks at. -/
def candidates : Document → List Document := spread

def firstLength : List Document → List Document
  | .array xs :: _ => [.ofNat xs.length]
  | _ => []

mutual

/-- What a step finds from the parts found so far. -/
def Step.select (root : Document) : Step → List Document → List Document
  | .root, ds => ds.map fun _ => root
  | .current path, ds => ds.flatMap fun d => select root path [d]
  | .field key, ds => ds.filterMap (·.get? key)
  | .fields keys, ds => ds.flatMap fun d => keys.filterMap d.get?
  | .index i, ds => ds.filterMap fun d => d.items[i]?
  | .indices is, ds => ds.flatMap fun d => is.filterMap d.item?
  | .slice start stop stride, ds => ds.flatMap fun d => sliced start stop stride d.items
  | .every, ds => ds.flatMap children
  | .descend key, ds => ds.flatMap fun d => (d :: d.descendants).filterMap (·.get? key)
  | .descendAll, ds => ds.flatMap descendants
  | .filter c, ds => ds.flatMap fun d => d.candidates.filter fun x => c.holds root x
  | .length, ds => firstLength ds
  | .count, ds => if ds.isEmpty then [] else [.ofNat ds.length]

/-- What a path finds from the parts found so far. -/
def select (root : Document) : Path → List Document → List Document
  | [], ds => ds
  | s :: path, ds => select root path (s.select root ds)

/-- Whether an item meets a condition. The parts of a compound condition look at the items of an
array. -/
def Condition.holds (root : Document) : Condition → Document → Bool
  | .found x, d => !(x.values root d).isEmpty
  | .related x r y, d => r.holds (x.values root d) (y.values root d)
  | .and a b, d => d.candidates.any (fun x => a.holds root x) &&
      d.candidates.any (fun x => b.holds root x)
  | .or a b, d => d.candidates.any (fun x => a.holds root x) ||
      d.candidates.any (fun x => b.holds root x)
  | .not a, d => !d.candidates.any (fun x => a.holds root x)

/-- The values that an operand stands for. -/
def Operand.values (root : Document) : Operand → Document → List Document
  | .constant x, _ => [x]
  | .path steps, d => select root steps [d]

end

/-- All parts of a document that a path finds, in the order in which it finds them. -/
def Path.find (path : Path) (d : Document) : List Document := select d path [d]

end ApiDouble.Document
