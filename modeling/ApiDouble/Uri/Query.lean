import ApiDouble.Text.Bytes
import ApiDouble.Text.Search

/-!
# Percent coding and queries

A byte is written as itself or as a percent sign and two hexadecimal digits. Two sets of bytes stay
as they are: `isPathByte` for values inside a path, `isUnreserved` for names and values of a query,
where a blank is moreover written as a plus sign.

Decoding never fails on the level of bytes: a percent sign without two digits behind it stands for
itself. Whether the bytes are text again is a second question.

A query is a list of named values. In text they are written `name=value` and joined by `&`; parts
without text are passed over, and a part without `=` has the empty value.
-/

namespace ApiDouble.Uri

open Text

/-! ## Percent coding -/

/-- Letters, digits and `- . _ ~`. -/
def isUnreserved (b : UInt8) : Bool :=
  (Char.ofNat b.toNat).isAlphanum || ['-', '.', '_', '~'].contains (Char.ofNat b.toNat)

/-- Unreserved characters, sub-delimiters, `:`, `@` and `/`. -/
def isPathByte (b : UInt8) : Bool :=
  isUnreserved b ||
    ['!', '$', '&', '\'', '(', ')', '*', '+', ',', ';', '=', ':', '@', '/'].contains
      (Char.ofNat b.toNat)

/-- A digit of base sixteen, letters written large. -/
def hexDigit (n : Nat) : Char := if n < 10 then Char.ofNat (48 + n) else Char.ofNat (55 + n)

/-- One byte, written as itself if `keep` says so. -/
def encodeByte (keep : UInt8 → Bool) (b : UInt8) : List Char :=
  if keep b then [Char.ofNat b.toNat]
  else ['%', hexDigit (b.toNat / 16), hexDigit (b.toNat % 16)]

def encode (keep : UInt8 → Bool) (s : List Char) : List Char :=
  (Utf8.encode s).flatMap (encodeByte keep)

/-- The value of a hexadecimal digit in either case. -/
def hexValue? (b : UInt8) : Option UInt8 :=
  if 48 ≤ b ∧ b ≤ 57 then some (b - 48)
  else if 65 ≤ b ∧ b ≤ 70 then some (b - 55)
  else if 97 ≤ b ∧ b ≤ 102 then some (b - 87)
  else none

/-- The bytes that a percent-coded byte string stands for. -/
def decodeBytes : List UInt8 → List UInt8
  | [] => []
  | 37 :: a :: b :: rest =>
    match hexValue? a, hexValue? b with
    | some x, some y => (16 * x + y) :: decodeBytes rest
    | _, _ => 37 :: decodeBytes (a :: b :: rest)
  | c :: rest => c :: decodeBytes rest

/-- The text that a percent-coded text stands for; the text itself if that is not UTF-8. -/
def decode (s : List Char) : List Char := (Utf8.decode? (decodeBytes (Utf8.encode s))).getD s

/-! ### Values in a path -/

def encodePath (s : List Char) : List Char := encode isPathByte s

/-! ### Names and values in a query -/

def encodeQuery (s : List Char) : List Char :=
  replaceAll ['%', '2', '0'] ['+'] (encode isUnreserved s)

def decodeQuery (s : List Char) : List Char :=
  decode (s.map fun c => if c = '+' then ' ' else c)

end ApiDouble.Uri

/-! ## Queries -/

namespace ApiDouble

/-- A named value. -/
structure Parameter where
  name : String
  value : String
deriving DecidableEq, Inhabited, Repr

namespace Uri

open Text

/-- One named value in its written form. -/
def argument (p : Parameter) : List Char :=
  encodeQuery p.name.toList ++ '=' :: encodeQuery p.value.toList

/-- The written form of a list of named values. -/
def queryText (ps : List Parameter) : List Char := ['&'].intercalate (ps.map argument)

/-- The named value that a part of a query stands for. -/
def readArgument (part : List Char) : Parameter :=
  match splitOnce? '=' part with
  | some (name, value) => ⟨String.ofList (decodeQuery name), String.ofList (decodeQuery value)⟩
  | none => ⟨String.ofList (decodeQuery part), ""⟩

/-- The named values of a query, a question mark before it aside. -/
def parseQuery (s : List Char) : List Parameter :=
  let s := if s.head? = some '?' then s.drop 1 else s
  ((splitOn '&' s).filter (!·.isEmpty)).map readArgument

end Uri

end ApiDouble
