import ApiDouble.Decimal.Binary64
import ApiDouble.Text.Characters
import ApiDouble.Text.Search

/-!
# Document trees

A document is what a JSON or YAML text stands for. Objects keep the order in which their keys first
appeared, and a key appears once: writing it again replaces its value in place (`Document.put`).

The accessors never fail: a part that is not there reads as `null`, and what is no object or array
has no members or items.

A pointer to a part is empty or a sequence of steps, each behind a slash. A step is a key of an
object or an index of an array; in it `~1` stands for a slash and `~0` for a tilde.
-/

namespace ApiDouble

/-- A number, exact if it was written as an integer of 64 bits. -/
inductive Number
  | integer (value : Int)
  | binary (value : Binary64)
deriving DecidableEq, Inhabited

/-- Equality of values, except that an integer equals no binary number; the two zeros are equal. -/
def Number.same : Number → Number → Bool
  | integer a, integer b => a == b
  | binary x, binary y => x.compareValue y == .eq
  | _, _ => false

/-- The tree of a JSON or YAML text. -/
inductive Document
  | null
  | bool (value : Bool)
  | number (value : Number)
  | string (value : String)
  | array (items : List Document)
  | object (members : List (String × Document))
deriving Inhabited

namespace Document

def ofNat (n : Nat) : Document := .number (.integer n)

def ofOption (f : α → Document) : Option α → Document
  | none => .null
  | some x => f x

def strings (xs : List String) : Document := .array (xs.map .string)

/-! ## Parts -/

def members : Document → List (String × Document)
  | .object ms => ms
  | _ => []

def items : Document → List Document
  | .array xs => xs
  | _ => []

def string? : Document → Option String
  | .string s => some s
  | _ => none

def isObject : Document → Bool
  | .object _ => true
  | _ => false

def isNull : Document → Bool
  | .null => true
  | _ => false

/-- The value of the first member with a key. -/
def valueOf? (key : String) : List (String × Document) → Option Document
  | [] => none
  | m :: ms => if m.1 = key then some m.2 else valueOf? key ms

/-- The value of a key, if the document is an object with that key. -/
def get? (d : Document) (key : String) : Option Document := valueOf? key d.members

/-- The value of a key, `null` where there is none. -/
def get (d : Document) (key : String) : Document := (d.get? key).getD .null

def has (d : Document) (key : String) : Bool := (d.get? key).isSome

@[simp] theorem get?_object (ms : List (String × Document)) (key : String) :
    (object ms).get? key = valueOf? key ms := rfl

/-! ## Building objects -/

/-- The members with one written: in the place of an older one with its key, or else at the end. -/
def put (key : String) (value : Document) : List (String × Document) → List (String × Document)
  | [] => [(key, value)]
  | m :: ms => if m.1 = key then (key, value) :: ms else m :: put key value ms

/-- The object of members written one after the other. -/
def ofMembers (ms : List (String × Document)) : Document :=
  .object (ms.foldl (fun acc m => put m.1 m.2 acc) [])

theorem valueOf?_put (key k : String) (value : Document) (ms : List (String × Document)) :
    valueOf? k (put key value ms) = if key = k then some value else valueOf? k ms := by
  induction ms with
  | nil => rfl
  | cons m ms ih => by_cases h : m.1 = key <;> by_cases h' : key = k <;> simp_all [put, valueOf?]

/-! ## Equality -/

mutual

/-- Equality of documents, members in any order. -/
def same : Document → Document → Bool
  | .null, .null => true
  | .bool a, .bool b => a == b
  | .number a, .number b => a.same b
  | .string a, .string b => a == b
  | .array xs, .array ys => sameItems xs ys
  | .object ms, .object ns => ms.length == ns.length && sameMembers ms ns
  | _, _ => false

def sameItems : List Document → List Document → Bool
  | [], [] => true
  | x :: xs, y :: ys => same x y && sameItems xs ys
  | _, _ => false

def sameMembers : List (String × Document) → List (String × Document) → Bool
  | [], _ => true
  | (k, x) :: ms, ns =>
    (match valueOf? k ns with
      | some y => same x y
      | none => false) && sameMembers ms ns

end

end Document

end ApiDouble

/-! ## Pointers -/

namespace ApiDouble.Document

open Text

/-- The index that a step stands for: decimal digits without a leading zero. -/
def index? (step : List Char) : Option Nat :=
  if step.head? = some '0' ∧ step.length ≠ 1 then none else natural? step

/-- The part of a document that one step leads to. -/
def step? (d : Document) (step : List Char) : Option Document :=
  match d with
  | .object ms => valueOf? (String.ofList step) ms
  | .array xs => (index? step).bind (xs[·]?)
  | _ => none

def steps? : List (List Char) → Document → Option Document
  | [], d => some d
  | s :: ss, d => (d.step? s).bind (steps? ss)

/-- What a step of a pointer says once its tildes are read. -/
def unescaped (step : List Char) : List Char :=
  replaceAll ['~', '0'] ['~'] (replaceAll ['~', '1'] ['/'] step)

/-- The steps of a pointer, none if it starts with anything but a slash. -/
def pointerSteps? : List Char → Option (List (List Char))
  | [] => some []
  | '/' :: rest => some ((splitOn '/' rest).map unescaped)
  | _ => none

/-- The part of a document that a pointer leads to. -/
def at? (d : Document) (pointer : List Char) : Option Document :=
  (pointerSteps? pointer).bind fun ss => steps? ss d

end ApiDouble.Document
