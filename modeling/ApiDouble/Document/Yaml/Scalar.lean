import ApiDouble.Document.Basic
import ApiDouble.Text.Characters

/-!
# Plain scalars

What an unquoted scalar stands for: nothing, a truth value, an integer, a floating-point number, or
its own text. The rules are those of the core schema, with binary integers beside octal and
hexadecimal ones. Digits after a leading zero are text. Integers must fit into 64 bits; up to 128
bits they are refused, and longer ones are floating-point numbers.
-/

namespace ApiDouble.Yaml

/-- Whether a text is a zero followed by more digits, a sign before it aside. -/
def hasLeadingZero (s : List Char) : Bool :=
  let s :=
    match s with
    | '-' :: r => r
    | '+' :: r => r
    | s => s
  match s with
  | '0' :: d :: ds => (d :: ds).all Char.isDigit
  | _ => false

/-- A number in digits, with the base before them unless it is ten. -/
def magnitude? : List Char → Option Nat
  | '0' :: 'x' :: ds => Text.naturalIn? 16 ds
  | '0' :: 'o' :: ds => Text.naturalIn? 8 ds
  | '0' :: 'b' :: ds => Text.naturalIn? 2 ds
  | ds => Text.naturalIn? 10 ds

/-- An integer of any size. -/
def integer? (s : List Char) : Option Int :=
  if hasLeadingZero s then none
  else
    match s with
    | '-' :: r => (magnitude? r).map fun n => -(n : Int)
    | '+' :: r => (magnitude? r).map Int.ofNat
    | r => (magnitude? r).map Int.ofNat

/-- A decimal fraction: digits with at most one point among or around them, and an exponent. -/
def decimal? (negative : Bool) (s : List Char) : Option (Option Binary64) :=
  let whole := s.takeWhile Char.isDigit
  let rest := s.dropWhile Char.isDigit
  let (fraction, rest) :=
    match rest with
    | '.' :: r => (r.takeWhile Char.isDigit, r.dropWhile Char.isDigit)
    | r => ([], r)
  let exponent? : Option Int :=
    match rest with
    | [] => some 0
    | e :: r =>
      if e = 'e' ∨ e = 'E' then
        match r with
        | '-' :: ds => (Text.naturalIn? 10 ds).map fun n => -(n : Int)
        | '+' :: ds => (Text.naturalIn? 10 ds).map Int.ofNat
        | ds => (Text.naturalIn? 10 ds).map Int.ofNat
      else none
  match Text.naturalIn? 10 (whole ++ fraction), exponent? with
  | some n, some e => some (Binary64.ofDecimal? negative n (e - fraction.length))
  | _, _ => none

/-- A floating-point number as a document. Infinities and what is no number read as `null`; a
decimal beyond the range is no floating-point number. -/
def float? (s : List Char) : Option Document :=
  let special := [".inf", ".Inf", ".INF"].map String.toList
  let unsigned :=
    match s with
    | '+' :: '-' :: _ | '+' :: '+' :: _ => []
    | '+' :: r => r
    | r => r
  if special.contains unsigned ∨ ([".nan", ".NaN", ".NAN"].map String.toList).contains s then
    some .null
  else
    match unsigned with
    | '-' :: r =>
      if special.contains r then some .null
      else ((decimal? true r).bind id).map fun x => .number (.binary x)
    | r => ((decimal? false r).bind id).map fun x => .number (.binary x)

def isNull (s : List Char) : Bool := (["null", "Null", "NULL", "~"].map String.toList).contains s

def bool? (s : List Char) : Option Bool :=
  if (["true", "True", "TRUE"].map String.toList).contains s then some true
  else if (["false", "False", "FALSE"].map String.toList).contains s then some false
  else none

/-- What an integer of any size stands for: itself if it fits into 64 bits; nothing up to 128 bits.
The outer option says whether it is an integer at all. -/
def sized (z : Int) : Option (Option Document) :=
  if Text.least64 ≤ z ∧ z < UInt64.size then some (some (.number (.integer z)))
  else if -0x80000000000000000000000000000000 ≤ z ∧ z < 0x100000000000000000000000000000000 then
    some none
  else none

/-- What a plain scalar stands for, nothing if it is an integer out of range. -/
def plain? (text : String) : Option Document :=
  let s := text.toList
  if s.isEmpty ∨ isNull s then some .null
  else
    match bool? s with
    | some b => some (.bool b)
    | none =>
      match (integer? s).bind sized with
      | some d => d
      | none =>
        if hasLeadingZero s then some (.string text)
        else some ((float? s).getD (.string text))

/-- What a scalar with one of the standard tags stands for. -/
def tagged? (tag text : String) : Option Document :=
  let s := text.toList
  match tag with
  | "tag:yaml.org,2002:bool" => (bool? s).map .bool
  | "tag:yaml.org,2002:int" => ((integer? s).bind sized).bind id
  | "tag:yaml.org,2002:float" => float? s
  | "tag:yaml.org,2002:null" => if isNull s then some .null else none
  | _ => some (.string text)

end ApiDouble.Yaml
