/-!
# Characters

**ASCII case.** Names of headers, methods and keywords are compared without regard to the case of
the 26 letters; every other character counts as it is.

**Digits.** Natural numbers and integers are written in ASCII digits. A sign is one character in
front; blanks and separators are no part of a number.

**Blanks.** A blank is a character of the Unicode class White_Space. Trimming drops the blanks at
both ends of a text and keeps those inside; the zero-width space and the byte order mark are not
blanks.
-/

namespace ApiDouble.Text

/-! ## ASCII case -/

/-- A text with the letters A to Z written small. -/
def asciiLower (s : List Char) : List Char := s.map Char.toLower

/-- A text with the letters a to z written large. -/
def asciiUpper (s : List Char) : List Char := s.map Char.toUpper

/-- Equality up to the case of the 26 letters. -/
def sameName (a b : String) : Bool := asciiLower a.toList == asciiLower b.toList

@[simp] theorem sameName_iff {a b : String} :
    sameName a b ↔ asciiLower a.toList = asciiLower b.toList := beq_iff_eq

@[simp] theorem sameName_refl (a : String) : sameName a a := by simp

theorem sameName_comm (a b : String) : sameName a b = sameName b a := by
  rw [Bool.eq_iff_iff, sameName_iff, sameName_iff]
  exact eq_comm

theorem sameName_trans {a b c : String} (h : sameName a b) (h' : sameName b c) : sameName a c := by
  rw [sameName_iff] at *
  exact h.trans h'

/-! ## Digits -/

/-- The least integer of 64 bits. -/
def least64 : Int := -0x8000000000000000

/-- The greatest integer of 64 bits. -/
def greatest64 : Int := 0x7FFFFFFFFFFFFFFF

/-- The value of a row of digits. -/
def natOfDigits (ds : List Char) : Nat := ds.foldl (fun n c => n * 10 + (c.toNat - '0'.toNat)) 0

/-- The value of a digit in a base up to sixteen. -/
def digitIn? (base : Nat) (c : Char) : Option Nat :=
  let n :=
    if '0' ≤ c ∧ c ≤ '9' then c.toNat - '0'.toNat
    else if 'a' ≤ c ∧ c ≤ 'f' then c.toNat - 'a'.toNat + 10
    else if 'A' ≤ c ∧ c ≤ 'F' then c.toNat - 'A'.toNat + 10
    else base
  if n < base then some n else none

/-- The number that one or more digits make in a base. -/
def naturalIn? (base : Nat) (ds : List Char) : Option Nat :=
  if ds.isEmpty then none
  else ds.foldlM (fun n c => (digitIn? base c).map (n * base + ·)) 0

/-- The number that decimal digits alone make. -/
def natural? (s : List Char) : Option Nat :=
  if s.isEmpty ∨ !s.all Char.isDigit then none else some (natOfDigits s)

/-- A number that may have a plus sign. -/
def unsigned? : List Char → Option Nat
  | '+' :: ds => natural? ds
  | ds => natural? ds

/-- A number that may have a sign. -/
def integer? : List Char → Option Int
  | '-' :: ds => (natural? ds).map fun n => -(n : Int)
  | s => (unsigned? s).map Int.ofNat

/-! ## Blanks -/

/-- The characters of the class White_Space. -/
def isBlank (c : Char) : Bool :=
  let n := c.toNat
  (9 ≤ n && n ≤ 13) || n == 0x20 || n == 0x85 || n == 0xA0 || n == 0x1680 ||
    (0x2000 ≤ n && n ≤ 0x200A) || n == 0x2028 || n == 0x2029 || n == 0x202F || n == 0x205F ||
    n == 0x3000

def dropBlanks (s : List Char) : List Char := s.dropWhile isBlank

def dropEndBlanks (s : List Char) : List Char := (s.reverse.dropWhile isBlank).reverse

/-- A text without the blanks at its two ends. -/
def trim (s : List Char) : List Char := dropEndBlanks (dropBlanks s)

/-- Whether a text has nothing but blanks. -/
def allBlank (s : List Char) : Bool := s.all isBlank

/-- `trim` on strings. -/
def trimmed (s : String) : String := String.ofList (trim s.toList)

end ApiDouble.Text
