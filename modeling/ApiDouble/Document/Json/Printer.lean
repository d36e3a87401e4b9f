import ApiDouble.Decimal.Shortest
import ApiDouble.Document.Basic

/-!
# Documents as JSON text

The compact form has no blanks and keeps the order of members. Only quotes, backslashes and control
characters are escaped. Numbers that are not integers are written with the fewest digits that read
back, positionally from `0.00001` up to sixteen digits before the point.
-/

namespace ApiDouble

namespace Json

/-- Positional from `0.00001` to `9999999999999999`, exponents with their sign. -/
def numberFormat : NumberFormat := ⟨-5, 16, true⟩

def integerText (z : Int) : List Char :=
  if z < 0 then '-' :: Nat.toDigits 10 z.natAbs else Nat.toDigits 10 z.natAbs

def numberText : Number → List Char
  | .integer z => integerText z
  | .binary x => numberFormat.text x

/-- A character inside a quoted string. -/
def escaped (c : Char) : List Char :=
  match c with
  | '"' => ['\\', '"']
  | '\\' => ['\\', '\\']
  | '\x08' => ['\\', 'b']
  | '\x0c' => ['\\', 'f']
  | '\n' => ['\\', 'n']
  | '\r' => ['\\', 'r']
  | '\t' => ['\\', 't']
  | c =>
    if c.toNat < 0x20 then
      ['\\', 'u', '0', '0', Nat.digitChar (c.toNat / 16), Nat.digitChar (c.toNat % 16)]
    else [c]

def quoted (s : String) : List Char := '"' :: s.toList.flatMap escaped ++ ['"']

mutual

/-- A document without blanks. -/
def compact : Document → List Char
  | .null => ['n', 'u', 'l', 'l']
  | .bool true => ['t', 'r', 'u', 'e']
  | .bool false => ['f', 'a', 'l', 's', 'e']
  | .number n => numberText n
  | .string s => quoted s
  | .array xs => '[' :: compactItems xs ++ [']']
  | .object ms => '{' :: compactMembers ms ++ ['}']

def compactItems : List Document → List Char
  | [] => []
  | [x] => compact x
  | x :: y :: rest => compact x ++ ',' :: compactItems (y :: rest)

def compactMembers : List (String × Document) → List Char
  | [] => []
  | [(k, x)] => quoted k ++ ':' :: compact x
  | (k, x) :: m :: rest => quoted k ++ ':' :: compact x ++ ',' :: compactMembers (m :: rest)

end

def indentation (depth : Nat) : List Char := '\n' :: List.replicate (2 * depth) ' '

mutual

/-- A document with every item and member on a line of its own, at `depth` levels of two blanks.
Empty arrays and objects stay closed. -/
def indented (depth : Nat) : Document → List Char
  | .array [] => ['[', ']']
  | .array (x :: xs) => '[' :: indentedItems depth (x :: xs) ++ indentation depth ++ [']']
  | .object [] => ['{', '}']
  | .object (m :: ms) => '{' :: indentedMembers depth (m :: ms) ++ indentation depth ++ ['}']
  | d => compact d

def indentedItems (depth : Nat) : List Document → List Char
  | [] => []
  | [x] => indentation (depth + 1) ++ indented (depth + 1) x
  | x :: y :: rest =>
    indentation (depth + 1) ++ indented (depth + 1) x ++ ',' :: indentedItems depth (y :: rest)

def indentedMembers (depth : Nat) : List (String × Document) → List Char
  | [] => []
  | [(k, x)] => indentation (depth + 1) ++ quoted k ++ ':' :: ' ' :: indented (depth + 1) x
  | (k, x) :: m :: rest =>
    indentation (depth + 1) ++ quoted k ++ ':' :: ' ' :: indented (depth + 1) x ++
      ',' :: indentedMembers depth (m :: rest)

end

end Json

namespace Document

/-- The compact JSON text. -/
def toJson (d : Document) : String := String.ofList (Json.compact d)

/-- The JSON text with one item or member a line. -/
def toIndentedJson (d : Document) : String := String.ofList (Json.indented 0 d)

/-- A document as plain text: a string as it is, nothing for `null`, JSON for the rest. -/
def text : Document → String
  | .null => ""
  | .string s => s
  | d => d.toJson

end Document

end ApiDouble
