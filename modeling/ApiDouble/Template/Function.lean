import ApiDouble.Template.Expression
import ApiDouble.Text.Bytes
import ApiDouble.Text.Case
import ApiDouble.Text.Characters
import ApiDouble.Time.Pattern

/-!
# The functions of expressions

Case, base 64 and defaults depend on their arguments alone. The time of day and random values come
from `Chance`: a moment and a generator, which every draw moves on.
-/

namespace ApiDouble.Template

open Text

/-- The moment at which a template is rendered, and where its random values come from. -/
structure Chance where
  moment : Time.Moment
  generator : StdGen

/-- A computation that looks at the clock and draws random numbers. -/
abbrev Draw := StateM Chance

/-- A random number from `low` up to `high`. -/
def draw (low high : Nat) : Draw Nat := fun c =>
  let (n, generator) := randNat c.generator low high
  (n, { c with generator })

/-! ## Arguments -/

def needed (function : String) : Option (Option String) → Except EvalError String
  | some (some s) => .ok s
  | some none => .error (.badArgument function "argument did not resolve")
  | none => .error (.badArgument function "missing argument")

/-- A numeric argument within bounds, or else a default if it is not there. -/
def number (function : String) (low high default : Int) :
    Option (Option String) → Except EvalError Int
  | none => .ok default
  | some none => .error (.badArgument function "argument did not resolve")
  | some (some s) =>
    let read := if low < 0 then integer? else fun ds => (unsigned? ds).map Int.ofNat
    match (read (trim s.toList)).filter fun z => low ≤ z ∧ z ≤ high with
    | some z => .ok z
    | none => .error (.badArgument function ("'" ++ s ++ "' is not a number"))

/-! ## Texts -/

/-- The function that changes the text of its first argument. -/
def ofText (name : String) (f : String → String) : Function Draw := fun args =>
  return (needed name args[0]?).map f

/-- The first argument, or the second one if that is missing, unresolved or empty. -/
def orDefault : Function Draw := fun args =>
  match args[0]?.join with
  | some s => return .ok (if s.isEmpty then fallback args else s)
  | none => return .ok (fallback args)
where
  fallback (args : List (Option String)) : String := args[1]?.join.getD ""

/-! ## The time of day -/

/-- The time in milliseconds, or in the format of a date pattern. -/
def now : Function Draw := fun args => do
  let moment := (← get).moment
  match args[0]? with
  | none => return .ok (toString (moment.nanos / 1000000))
  | some none => return .error (.badArgument "now" "pattern did not resolve")
  | some (some pattern) =>
    match Time.read pattern with
    | .ok items => return .ok (Time.format items moment)
    | .error e => return .error (.badArgument "now" e.message)

/-- The time in seconds. -/
def timestamp : Function Draw := fun _ => do
  return .ok (toString ((← get).moment.nanos / 1000000000))

/-! ## Random values -/

/-- So many digits of base 16, letters written small. -/
def hex (width n : Nat) : List Char :=
  let ds := Nat.toDigits 16 n
  List.replicate (width - ds.length) '0' ++ ds

/-- A random identifier of 128 bits, six of which say that it is one. -/
def uuid : Function Draw := fun _ => do
  let a ← draw 0 0xFFFFFFFF
  let b ← draw 0 0xFFFF
  let c ← draw 0 0xFFF
  let d ← draw 0 0x3FFF
  let e ← draw 0 0xFFFFFF
  let f ← draw 0 0xFFFFFF
  return .ok (String.ofList (hex 8 a ++ '-' :: hex 4 b ++ '-' :: '4' :: hex 3 c ++ '-' ::
    hex 4 (d + 0x8000) ++ '-' :: hex 6 e ++ hex 6 f))

/-- A random integer between two others, from 0 to 100 if they are not given. -/
def randomInt : Function Draw := fun args => do
  let bounds : Except EvalError (Int × Int) := do
    return (← number "randomInt" least64 greatest64 0 args[0]?,
      ← number "randomInt" least64 greatest64 100 args[1]?)
  match bounds with
  | .error e => return .error e
  | .ok (low, high) =>
    if high < low then
      return .error (.badArgument "randomInt"
        ("min " ++ toString low ++ " is greater than max " ++ toString high))
    else return .ok (toString (low + (← draw 0 (high - low).toNat)))

def alphanumerics : List Char :=
  "ABCDEFGHIJKLMNOPQRSTUVWXYZabcdefghijklmnopqrstuvwxyz0123456789".toList

/-- So many random letters and digits. -/
def letters : Nat → Draw (List Char)
  | 0 => return []
  | n + 1 => do
    let i ← draw 0 61
    return alphanumerics.getD i 'A' :: (← letters n)

/-- Random letters and digits, 32 of them if no other number is given. -/
def randomString : Function Draw := fun args => do
  match number "randomString" 0 (UInt64.size - 1) 32 args[0]? with
  | .ok n => return .ok (String.ofList (← letters n.toNat))
  | .error e => return .error e

def randomBoolean : Function Draw := fun _ => do
  return .ok (if (← draw 0 1) = 1 then "true" else "false")

/-! ## All of them -/

/-- The functions that are always there. -/
def standardFunctions : Functions Draw
  | "now" => some now
  | "timestamp" => some timestamp
  | "uuid" => some uuid
  | "randomInt" => some randomInt
  | "randomString" => some randomString
  | "randomBoolean" => some randomBoolean
  | "upper" => some (ofText "upper" upper)
  | "lower" => some (ofText "lower" lower)
  | "base64" => some (ofText "base64" fun s => String.ofList (base64 (Utf8.bytes s)))
  | "default" => some orDefault
  | _ => none

end ApiDouble.Template
