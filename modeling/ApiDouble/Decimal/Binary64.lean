/-!
# Binary floating point in exact arithmetic

The finite numbers of the binary64 format, counted off by their absolute value, and correct rounding
of a ratio of natural numbers to the nearest of them. Nothing here is approximate: a number is a
sign and a rank, and every operation is integer arithmetic.

Two readings of decimal text rest on it. `ofDecimal?` rounds once. `ofScaled?` rounds the digits
first and then scales them by a rounded power of ten, which is what the number grammar of JSON
documents asks for.
-/

namespace ApiDouble

/-- How many absolute values there are from a power of two up to the next: two to the power 52. -/
def Binary64.binade : Nat := 0x10000000000000

/-- How many absolute values there are. -/
def Binary64.rankCount : Nat := 2047 * Binary64.binade

/-- A finite binary64 number: its sign, and how many absolute values lie below its own. -/
structure Binary64 where
  negative : Bool
  rank : Nat
  rank_lt : rank < Binary64.rankCount
deriving DecidableEq

namespace Binary64

instance : Inhabited Binary64 := ⟨⟨false, 0, by decide⟩⟩

def zero : Binary64 := ⟨false, 0, by decide⟩

def isZero (x : Binary64) : Bool := x.rank == 0

/-- The absolute value is `significand * 2 ^ exponent`. -/
def significand (x : Binary64) : Nat :=
  if x.rank < binade then x.rank else binade + x.rank % binade

def exponent (x : Binary64) : Int :=
  if x.rank < binade then -1074 else (x.rank / binade : Nat) - 1075

/-- The quotient rounded to the nearest integer, a half to the even one. -/
def roundDiv (num den : Nat) : Nat :=
  let d := num / den
  let r := num % den
  if 2 * r < den then d else if den < 2 * r then d + 1 else d + d % 2

/-- The rank of the binary64 value nearest to `num / den`, a half to the even one. Ranks from
`rankCount` up stand for overflow. -/
def nearestRank (num den : Nat) : Nat :=
  if num = 0 then 0
  else
    let scaled (q : Int) : Nat × Nat := (num * Nat.pow 2 (-q).toNat, den * Nat.pow 2 q.toNat)
    let high : Int := (num.log2 : Int) - den.log2 - 52
    let normal := if (scaled high).1 / (scaled high).2 < binade then high - 1 else high
    let q := max normal (-1074)
    (q + 1074).toNat * binade + roundDiv (scaled q).1 (scaled q).2

/-- The number nearest to a ratio, none on overflow. -/
def ofRatio? (negative : Bool) (num den : Nat) : Option Binary64 :=
  let r := nearestRank num den
  if h : r < rankCount then some ⟨negative, r, h⟩ else none

/-- Numerator and denominator of the absolute value. -/
def ratio (x : Binary64) : Nat × Nat :=
  (x.significand * Nat.pow 2 x.exponent.toNat, Nat.pow 2 (-x.exponent).toNat)

/-- The product, rounded; none on overflow. -/
def mul? (x y : Binary64) : Option Binary64 :=
  ofRatio? (x.negative != y.negative) (x.ratio.1 * y.ratio.1) (x.ratio.2 * y.ratio.2)

/-- The quotient by a number other than zero, rounded; none on overflow. -/
def div? (x y : Binary64) : Option Binary64 :=
  ofRatio? (x.negative != y.negative) (x.ratio.1 * y.ratio.2) (x.ratio.2 * y.ratio.1)

/-- `digits * 10 ^ e` rounded once; none on overflow. Exponents far outside the range are decided
without writing the power out. -/
def ofDecimal? (negative : Bool) (digits : Nat) (e : Int) : Option Binary64 :=
  let size : Int := (Nat.toDigits 10 digits).length
  if digits = 0 ∨ size + e < -330 then some { zero with negative }
  else if 310 < size + e then none
  else ofRatio? negative (digits * Nat.pow 10 e.toNat) (Nat.pow 10 (-e).toNat)

def powerOfTen? (e : Nat) : Option Binary64 := ofRatio? false (Nat.pow 10 e) 1

/-- `x` divided `n` times by a power of ten, or until nothing is left of it. -/
def divideOut? (power : Binary64) : Nat → Binary64 → Option Binary64
  | 0, x => some x
  | n + 1, x => if x.isZero then some x else (x.div? power).bind (divideOut? power n)

/-- `x * 10 ^ e` with the power rounded first. Powers without a binary64 value are divided out in
steps of `10 ^ 308`; multiplying by one overflows. -/
def scale? (x : Binary64) (e : Int) : Option Binary64 :=
  if 0 ≤ e then
    if e ≤ 308 then (powerOfTen? e.toNat).bind x.mul? else if x.isZero then some x else none
  else
    let steps := ((-e).toNat - 1) / 308
    ((powerOfTen? 308).bind fun power => divideOut? power steps x).bind fun y =>
      if y.isZero then some y else (powerOfTen? ((-e).toNat - 308 * steps)).bind y.div?

/-- `digits * 10 ^ e` in two roundings, of the digits and of their scaling; none on overflow. -/
def ofScaled? (negative : Bool) (digits : Nat) (e : Int) : Option Binary64 :=
  ((ofRatio? false digits 1).bind (scale? · e)).map fun x => { x with negative }

/-- The order of the values; the two zeros are equal. -/
def compareValue (x y : Binary64) : Ordering :=
  let key (z : Binary64) : Int := if z.negative then -(z.rank : Int) else z.rank
  compare (key x) (key y)

end Binary64

end ApiDouble
