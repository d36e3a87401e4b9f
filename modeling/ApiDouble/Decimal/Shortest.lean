import ApiDouble.Decimal.Binary64

/-!
# The shortest decimal that reads back

A binary64 number stands for every real number that rounds to it. Among the decimals in that
interval the shortest is chosen, and of two equally short ones the nearer (`shortest`).
`NumberFormat` holds what is left to decide: where positional notation ends and how an exponent is
written.
-/

namespace ApiDouble

namespace Binary64

/-- The number of digits of `n`, none for zero. -/
def digitCount (n : Nat) : Nat := if n = 0 then 0 else (Nat.toDigits 10 n).length

/-- The reals that round to a positive number, in units of a quarter of its last binary place: from
`low` to `high` with `value` between them, the ends belonging to it or not. -/
structure Interval where
  low : Nat
  value : Nat
  high : Nat
  closed : Bool

def interval (x : Binary64) : Interval :=
  let m := x.significand
  let atPowerOfTwo := m == binade && x.exponent != -1074
  ⟨4 * m - (if atPowerOfTwo then 1 else 2), 4 * m, 4 * m + 2, m % 2 == 0⟩

/-- A decimal `digits * 10 ^ e`. -/
structure Decimal where
  digits : Nat
  e : Int
deriving DecidableEq, Repr

/-- The decimal without zeros at its end. -/
def Decimal.stripped (d : Decimal) : Decimal :=
  if h : d.digits ≠ 0 ∧ d.digits % 10 = 0 then Decimal.stripped ⟨d.digits / 10, d.e + 1⟩ else d
termination_by d.digits
decreasing_by exact Nat.div_lt_self (Nat.pos_of_ne_zero h.1) (by decide)

/-- The multiple of `10 ^ e` in the interval of `x` that is nearest to `x`, if there is one. Both
sides of every comparison are brought to the common unit `unit`. -/
def onGrid? (x : Binary64) (e : Int) : Option Decimal :=
  let i := x.interval
  let q := x.exponent - 2
  let grid := Nat.pow 10 e.toNat * Nat.pow 2 (-q).toNat
  let unit := Nat.pow 10 (-e).toNat * Nat.pow 2 q.toNat
  let inside (d : Nat) : Bool :=
    if i.closed then i.low * unit ≤ d * grid && d * grid ≤ i.high * unit
    else i.low * unit < d * grid && d * grid < i.high * unit
  let below := i.value * unit / grid
  let above := below + 1
  match inside below, inside above with
  | true, true =>
    let down := i.value * unit - below * grid
    let up := above * grid - i.value * unit
    some ⟨if down < up ∨ (down = up ∧ below % 2 = 0) then below else above, e⟩
  | true, false => some ⟨below, e⟩
  | false, true => some ⟨above, e⟩
  | false, false => none

/-- The power of ten of the first digit of a positive number. -/
def leadingPower (x : Binary64) : Int :=
  let (num, den) := x.ratio
  if den ≤ num then (digitCount (num / den) : Int) - 1
  else -(digitCount ((den + num - 1) / num - 1) : Int)

/-- The shortest decimal that rounds to a positive number. Seventeen digits always suffice. -/
def shortest (x : Binary64) : Decimal :=
  let top := x.leadingPower
  (((List.range 17).findSome? fun (n : Nat) => x.onGrid? (top - n)).getD ⟨0, 0⟩).stripped

end Binary64

/-- How a number is written: positionally from `10 ^ leastPower` up to, not including,
`10 ^ limitPower`, and with an exponent beyond. -/
structure NumberFormat where
  leastPower : Int
  limitPower : Int
  plusSign : Bool

/-- A positive decimal as text. -/
def NumberFormat.write (f : NumberFormat) (d : Binary64.Decimal) : List Char :=
  let digits := Nat.toDigits 10 d.digits
  let point : Int := digits.length + d.e
  let power := point - 1
  if f.leastPower ≤ power ∧ power < f.limitPower then
    if 0 ≤ d.e then digits ++ List.replicate d.e.toNat '0' ++ ['.', '0']
    else if 0 < point then digits.take point.toNat ++ '.' :: digits.drop point.toNat
    else '0' :: '.' :: List.replicate (-point).toNat '0' ++ digits
  else
    let tail := digits.drop 1
    digits.take 1 ++ (if tail.isEmpty then [] else '.' :: tail) ++
      'e' :: (if power < 0 then ['-'] else if f.plusSign then ['+'] else []) ++
      Nat.toDigits 10 power.natAbs

/-- A binary64 number as text, with at least one digit after a point or an exponent. -/
def NumberFormat.text (f : NumberFormat) (x : Binary64) : List Char :=
  (if x.negative then ['-'] else []) ++
    if x.isZero then ['0', '.', '0'] else f.write x.shortest

end ApiDouble
