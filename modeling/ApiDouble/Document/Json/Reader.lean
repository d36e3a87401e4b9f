import ApiDouble.Document.Basic
import ApiDouble.Text.Bytes
import ApiDouble.Text.Characters

/-!
# Reading JSON text

The grammar is the strict one: no comments, no comma before a closing bracket, no leading zeros, no
control characters inside strings, no halves of surrogate pairs, nothing but blanks after the value.
Containers may be nested `depthLimit` deep.

Each reader answers with the value and the rest of the text, together with the fact that the rest is
shorter. That is what lets `value?` and the loops over items and members end.
-/

namespace ApiDouble

namespace Json

open Text

/-- What is left of `s` after something was read from it. -/
abbrev Rest (s : List Char) := { r : List Char // r.length < s.length }

def isSpace (c : Char) : Bool := c == ' ' || c == '\t' || c == '\n' || c == '\r'

def skipSpace (s : List Char) : List Char := s.dropWhile isSpace

theorem length_lt_cons {c : Char} {r : List Char} : r.length < (c :: r).length :=
  Nat.lt_succ_self _

theorem length_dropWhile_le (p : Char → Bool) (s : List Char) :
    (s.dropWhile p).length ≤ s.length := (s.dropWhile_suffix p).length_le

namespace Rest

/-- What is left of a shorter text is left of the longer one. -/
def of {r s : List Char} (rest : Rest r) (h : r.length < s.length) : Rest s :=
  ⟨rest.1, Nat.lt_trans rest.2 h⟩

/-- What is left of what was left. -/
def andThen {s : List Char} (r : Rest s) (rest : Rest r.1) : Rest s :=
  ⟨rest.1, Nat.lt_trans rest.2 r.2⟩

def tail {c : Char} {r : List Char} : Rest (c :: r) := ⟨r, length_lt_cons⟩

def cons {c : Char} {r : List Char} (rest : Rest r) : Rest (c :: r) := rest.of length_lt_cons

/-- What is left of a text without the blanks before it. -/
def ofSkipSpace {s : List Char} (rest : Rest (skipSpace s)) : Rest s :=
  ⟨rest.1, Nat.lt_of_lt_of_le rest.2 (length_dropWhile_le isSpace s)⟩

end Rest

theorem length_lt_of_skipSpace {s r : List Char} {c : Char} (h : skipSpace s = c :: r) :
    r.length < s.length := by
  have := length_dropWhile_le isSpace s
  rw [skipSpace] at h
  simp only [h, List.length_cons] at this
  omega

/-! ## Strings -/

def hexDigit? (c : Char) : Option Nat :=
  if '0' ≤ c ∧ c ≤ '9' then some (c.toNat - '0'.toNat)
  else if 'a' ≤ c ∧ c ≤ 'f' then some (c.toNat - 'a'.toNat + 10)
  else if 'A' ≤ c ∧ c ≤ 'F' then some (c.toNat - 'A'.toNat + 10)
  else none

def hexUnit? (a b c d : Char) : Option Nat := do
  return (((← hexDigit? a) * 16 + (← hexDigit? b)) * 16 + (← hexDigit? c)) * 16 + (← hexDigit? d)

/-- The character of a one-letter escape. -/
def simpleEscape? : Char → Option Char
  | '"' => some '"'
  | '\\' => some '\\'
  | '/' => some '/'
  | 'b' => some '\x08'
  | 'f' => some '\x0c'
  | 'n' => some '\n'
  | 'r' => some '\r'
  | 't' => some '\t'
  | _ => none

/-- The character of two surrogate halves. -/
def pair? (high low : Nat) : Option Char :=
  if 0xD800 ≤ high ∧ high < 0xDC00 ∧ 0xDC00 ≤ low ∧ low < 0xE000 then
    some (Char.ofNat (0x10000 + (high - 0xD800) * 0x400 + (low - 0xDC00)))
  else none

def isSurrogate (n : Nat) : Bool := 0xD800 ≤ n && n < 0xE000

/-- The number that four hexadecimal digits make. -/
def unit? (s : List Char) : Option (Nat × Rest s) :=
  match s with
  | a :: b :: c :: d :: _ => (hexUnit? a b c d).map (·, Rest.tail.cons.cons.cons)
  | _ => none

/-- The number of an escape by number. -/
def escapedUnit? (s : List Char) : Option (Nat × Rest s) :=
  match s with
  | '\\' :: 'u' :: r => (unit? r).map fun p => (p.1, p.2.cons.cons)
  | _ => none

/-- The characters up to the closing quote. -/
def chars? : (s : List Char) → Option (List Char × Rest s)
  | '"' :: _ => some ([], Rest.tail)
  | '\\' :: 'u' :: r => do
    let (u, r₁) ← unit? r
    have _h₁ := r₁.2
    if isSurrogate u then
      let (low, r₂) ← escapedUnit? r₁.1
      have _h₂ := r₂.2
      let x ← pair? u low
      let (cs, rest) ← chars? r₂.1
      return (x :: cs, (r₁.andThen (r₂.andThen rest)).cons.cons)
    else
      let (cs, rest) ← chars? r₁.1
      return (Char.ofNat u :: cs, (r₁.andThen rest).cons.cons)
  | '\\' :: e :: r => do
    let x ← simpleEscape? e
    let (cs, rest) ← chars? r
    return (x :: cs, rest.cons.cons)
  | c :: r =>
    if c.toNat < 0x20 ∨ c = '\\' then none
    else do
      let (cs, rest) ← chars? r
      return (c :: cs, rest.cons)
  | [] => none
termination_by s => s.length

/-! ## Numbers -/

/-- Digits collected into a number below `limit`, and the digits from the first that no longer
fits. -/
def collect (limit n : Nat) : List Char → Nat × List Char
  | [] => (n, [])
  | d :: ds =>
    let m := n * 10 + (d.toNat - '0'.toNat)
    if m < limit then collect limit m ds else (n, d :: ds)

/-- The parts of a number literal: the digits before the point, those after it, and the exponent's
sign and digits. -/
structure Literal where
  negative : Bool
  whole : List Char
  fraction : Option (List Char)
  exponent : Option (Bool × List Char)

/-- Whether the parts make up a number: no zero before other digits, and no fraction or exponent
without digits. -/
def Literal.wellFormed (l : Literal) : Bool :=
  (l.whole.head? != some '0' || l.whole.length == 1) &&
    l.fraction != some [] && (l.exponent.all fun e => !e.2.isEmpty)

/-- The value as binary floating point. Of the digits those that fit into 64 bits count; the others
only shift the point. -/
def Literal.binary? (l : Literal) : Option Binary64 :=
  let fraction := l.fraction.getD []
  let (n, skipped) := collect UInt64.size 0 l.whole
  let (n, unused) := collect UInt64.size n fraction
  let e : Int :=
    match l.exponent with
    | none => 0
    | some (negative, ds) => if negative then -(natOfDigits ds : Int) else natOfDigits ds
  Binary64.ofScaled? l.negative n (e + skipped.length - (fraction.length - unused.length : Nat))

/-- The value of a literal. Digits alone make an integer if it fits into 64 bits, with or without a
sign; minus zero is not an integer. -/
def Literal.number? (l : Literal) : Option Number :=
  let n := natOfDigits l.whole
  let limit : Int := if l.negative then -least64 else UInt64.size - 1
  if l.fraction.isNone ∧ l.exponent.isNone ∧ n ≤ limit ∧ ¬ (l.negative ∧ n = 0) then
    some (.integer (if l.negative then -n else n))
  else l.binary?.map .binary

def splitFraction : List Char → Option (List Char) × List Char
  | '.' :: r => (some (r.takeWhile Char.isDigit), r.dropWhile Char.isDigit)
  | s => (none, s)

def splitSign : List Char → Bool × List Char
  | '-' :: r => (true, r)
  | '+' :: r => (false, r)
  | s => (false, s)

def splitExponent : List Char → Option (Bool × List Char) × List Char
  | [] => (none, [])
  | c :: r =>
    if c = 'e' ∨ c = 'E' then
      let (negative, r) := splitSign r
      (some (negative, r.takeWhile Char.isDigit), r.dropWhile Char.isDigit)
    else (none, c :: r)

theorem length_splitFraction_le (s : List Char) : (splitFraction s).2.length ≤ s.length := by
  unfold splitFraction
  split
  · exact Nat.le_trans (length_dropWhile_le _ _) (by simp)
  · exact Nat.le_refl _

theorem length_splitSign_le (s : List Char) : (splitSign s).2.length ≤ s.length := by
  unfold splitSign
  split <;> simp

theorem length_splitExponent_le (s : List Char) : (splitExponent s).2.length ≤ s.length := by
  cases s with
  | nil => exact Nat.le_refl _
  | cons c r =>
    have h := length_splitSign_le r
    have h' := length_dropWhile_le Char.isDigit (splitSign r).2
    by_cases hc : c = 'e' ∨ c = 'E' <;> simp only [splitExponent, hc, if_true, if_false]
    · simp only [List.length_cons]; omega
    · exact Nat.le_refl _

theorem length_lt_of_digits {s : List Char} (h : (s.takeWhile Char.isDigit).isEmpty = false) :
    (splitExponent (splitFraction (s.dropWhile Char.isDigit)).2).2.length < s.length := by
  have h₁ := length_splitExponent_le (splitFraction (s.dropWhile Char.isDigit)).2
  have h₂ := length_splitFraction_le (s.dropWhile Char.isDigit)
  have h₃ := congrArg List.length (List.takeWhile_append_dropWhile (p := Char.isDigit) (l := s))
  have h₄ := List.length_pos_iff.2 (List.isEmpty_eq_false_iff.1 h)
  simp only [List.length_append] at h₃
  omega

/-- The literal whose first digit stands at the head of `s`. -/
def literal? (negative : Bool) (s : List Char) : Option (Literal × Rest s) :=
  let fraction := splitFraction (s.dropWhile Char.isDigit)
  let exponent := splitExponent fraction.2
  let literal : Literal := ⟨negative, s.takeWhile Char.isDigit, fraction.1, exponent.1⟩
  if h : (s.takeWhile Char.isDigit).isEmpty = false ∧ literal.wellFormed then
    some (literal, ⟨exponent.2, length_lt_of_digits h.1⟩)
  else none

/-- The number whose first digit stands at the head of `s`. -/
def unsigned? (negative : Bool) (s : List Char) : Option (Number × Rest s) := do
  let (literal, rest) ← literal? negative s
  return (← literal.number?, rest)

/-! ## Values -/

/-- How deep containers may be nested. -/
def depthLimit : Nat := 127

/-- The keyword or number at the head of a text. -/
def scalar? (s : List Char) : Option (Document × Rest s) :=
  match s with
  | 'n' :: 'u' :: 'l' :: 'l' :: _ => some (.null, Rest.tail.cons.cons.cons)
  | 't' :: 'r' :: 'u' :: 'e' :: _ => some (.bool true, Rest.tail.cons.cons.cons)
  | 'f' :: 'a' :: 'l' :: 's' :: 'e' :: _ => some (.bool false, Rest.tail.cons.cons.cons.cons)
  | '-' :: r => (unsigned? true r).map fun p => (.number p.1, p.2.cons)
  | s => (unsigned? false s).map fun p => (.number p.1, p.2)

/-- A key and the colon after it. -/
def key? (s : List Char) : Option (String × Rest s) :=
  match h : skipSpace s with
  | '"' :: r => do
    let (k, rest) ← chars? r
    match h' : skipSpace rest.1 with
    | ':' :: r' =>
      return (String.ofList k, ⟨r', Nat.lt_trans (length_lt_of_skipSpace h')
        (Nat.lt_trans rest.2 (length_lt_of_skipSpace h))⟩)
    | _ => none
  | _ => none

mutual

/-- A value at the head of `s`, blanks before it aside, with containers nested `depth` deep at most.
-/
def value? (depth : Nat) (s : List Char) : Option (Document × Rest s) :=
  match h : skipSpace s with
  | [] => none
  | '"' :: r => do
    have hr := length_lt_of_skipSpace h
    let (cs, rest) ← chars? r
    return (.string (String.ofList cs), rest.of hr)
  | '[' :: r =>
    have hr := length_lt_of_skipSpace h
    match depth with
    | 0 => none
    | depth + 1 =>
      match h' : skipSpace r with
      | ']' :: r' => some (.array [], ⟨r', Nat.lt_trans (length_lt_of_skipSpace h') hr⟩)
      | _ => do
        let (xs, rest) ← items? depth r
        return (.array xs, rest.of hr)
  | '{' :: r =>
    have hr := length_lt_of_skipSpace h
    match depth with
    | 0 => none
    | depth + 1 =>
      match h' : skipSpace r with
      | '}' :: r' => some (.object [], ⟨r', Nat.lt_trans (length_lt_of_skipSpace h') hr⟩)
      | _ => do
        let (ms, rest) ← members? depth r
        return (.ofMembers ms, rest.of hr)
  | c :: r => do
    let (d, rest) ← scalar? (c :: r)
    return (d, ⟨rest.1, Nat.lt_of_lt_of_le rest.2 (length_lt_of_skipSpace h)⟩)
termination_by (depth, s.length, 0)

/-- Items up to the closing bracket, at least one. -/
def items? (depth : Nat) (s : List Char) : Option (List Document × Rest s) := do
  let (x, r) ← value? depth s
  have hr := r.2
  match h : skipSpace r.1 with
  | ',' :: r' =>
    have hr' := length_lt_of_skipSpace h
    let (xs, rest) ← items? depth r'
    return (x :: xs, rest.of (Nat.lt_trans hr' hr))
  | ']' :: r' => some ([x], ⟨r', Nat.lt_trans (length_lt_of_skipSpace h) hr⟩)
  | _ => none
termination_by (depth, s.length, 1)

/-- Members up to the closing brace, at least one. -/
def members? (depth : Nat) (s : List Char) : Option (List (String × Document) × Rest s) := do
  let (k, rv) ← key? s
  have hv := rv.2
  let (x, rx) ← value? depth rv.1
  have hx := Nat.lt_trans rx.2 hv
  match h : skipSpace rx.1 with
  | ',' :: r' =>
    have hr' := length_lt_of_skipSpace h
    let (ms, rest) ← members? depth r'
    return ((k, x) :: ms, rest.of (Nat.lt_trans hr' hx))
  | '}' :: r' => some ([(k, x)], ⟨r', Nat.lt_trans (length_lt_of_skipSpace h) hx⟩)
  | _ => none
termination_by (depth, s.length, 1)

end

/-- The document of a JSON text. -/
def parse? (s : List Char) : Option Document := do
  let (d, rest) ← value? depthLimit s
  if (skipSpace rest.1).isEmpty then some d else none

/-- The document of a JSON text in UTF-8. -/
def parseBytes? (bs : List UInt8) : Option Document := (Utf8.decode? bs).bind parse?

end Json

end ApiDouble
