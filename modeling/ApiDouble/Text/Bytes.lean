/-!
# Bytes

**UTF-8.** Bytes are read as text in steps. One step (`nextChar`) reads a well-formed character or
finds the longest start of one that is broken off. Strict decoding refuses the latter; lenient
decoding puts one replacement character in its place.

**Base 64.** Three bytes are four letters of six bits each. What is missing at the end is filled up
with `=`.
-/

namespace ApiDouble.Text.Utf8

/-! ## UTF-8 -/

def encode (s : List Char) : List UInt8 := s.flatMap String.utf8EncodeChar

/-- The bytes of a string. -/
def bytes (s : String) : List UInt8 := encode s.toList

/-- How many bytes follow a first byte, and the bounds of the second byte. -/
structure Lead where
  tail : Nat
  low : Nat
  high : Nat

/-- What a byte above 0x7F starts. The bounds of the second byte leave out overlong forms, the
surrogates and what lies above U+10FFFF. -/
def lead? (b : Nat) : Option Lead :=
  if 0xC2 ≤ b ∧ b ≤ 0xDF then some ⟨1, 0x80, 0xBF⟩
  else if b = 0xE0 then some ⟨2, 0xA0, 0xBF⟩
  else if b = 0xED then some ⟨2, 0x80, 0x9F⟩
  else if 0xE1 ≤ b ∧ b ≤ 0xEF then some ⟨2, 0x80, 0xBF⟩
  else if b = 0xF0 then some ⟨3, 0x90, 0xBF⟩
  else if 0xF1 ≤ b ∧ b ≤ 0xF3 then some ⟨3, 0x80, 0xBF⟩
  else if b = 0xF4 then some ⟨3, 0x80, 0x8F⟩
  else none

/-- The payload bits of the continuation bytes that follow, at most `n` of them; the first must lie
within the bounds. -/
def tailBits : (n low high : Nat) → List UInt8 → List Nat
  | 0, _, _, _ => []
  | _ + 1, _, _, [] => []
  | n + 1, low, high, b :: bs =>
    if low ≤ b.toNat ∧ b.toNat ≤ high then b.toNat % 64 :: tailBits n 0x80 0xBF bs else []

/-- The payload bits of a first byte with `n` bytes to follow. -/
def leadBits (n b : Nat) : Nat :=
  match n with
  | 1 => b % 32
  | 2 => b % 16
  | _ => b % 8

/-- The character that starts with byte `b`, or none if it is ill-formed or broken off, and how many
bytes of `bs` go with it. -/
def nextChar (b : UInt8) (bs : List UInt8) : Option Char × Nat :=
  if b.toNat < 0x80 then (some (Char.ofNat b.toNat), 0)
  else
    match lead? b.toNat with
    | none => (none, 0)
    | some l =>
      let bits := tailBits l.tail l.low l.high bs
      let code := bits.foldl (fun acc x => acc * 64 + x) (leadBits l.tail b.toNat)
      if bits.length = l.tail then (some (Char.ofNat code), l.tail)
      else (none, bits.length)

/-- Characters and, in the place of ill-formed bytes, `none`. -/
def scan : List UInt8 → List (Option Char)
  | [] => []
  | b :: bs =>
    let step := nextChar b bs
    step.1 :: scan (bs.drop step.2)
termination_by bs => bs.length
decreasing_by simp only [List.length_drop, List.length_cons]; omega

/-- The text of well-formed bytes. -/
def decode? (bs : List UInt8) : Option (List Char) := (scan bs).mapM id

/-- The text of any bytes, ill-formed ones replaced. -/
def decodeLenient (bs : List UInt8) : List Char := (scan bs).map (·.getD '\uFFFD')

/-- `decode?` as a string. -/
def string? (bs : List UInt8) : Option String := (decode? bs).map String.ofList

end ApiDouble.Text.Utf8

/-! ## Base 64 -/

namespace ApiDouble.Text

/-- The letter for six bits. -/
def base64Letter (n : Nat) : Char :=
  if n < 26 then Char.ofNat (65 + n)
  else if n < 52 then Char.ofNat (97 + (n - 26))
  else if n < 62 then Char.ofNat (48 + (n - 52))
  else if n = 62 then '+'
  else '/'

def base64 : List UInt8 → List Char
  | [] => []
  | [a] =>
    let a := a.toNat
    [base64Letter (a / 4), base64Letter (a % 4 * 16), '=', '=']
  | [a, b] =>
    let (a, b) := (a.toNat, b.toNat)
    [base64Letter (a / 4), base64Letter (a % 4 * 16 + b / 16), base64Letter (b % 16 * 4), '=']
  | a :: b :: c :: rest =>
    let (a, b, c) := (a.toNat, b.toNat, c.toNat)
    base64Letter (a / 4) :: base64Letter (a % 4 * 16 + b / 16) ::
      base64Letter (b % 16 * 4 + c / 64) :: base64Letter (c % 64) :: base64 rest

end ApiDouble.Text
