import ApiDouble.Document.Json.Reader
import ApiDouble.Document.Path.Basic
import ApiDouble.Text.Search

/-!
# Reading paths

The written form of a path: `$` and `@` for the whole document and the current item, `.key` and
`['key']`, `[0]`, `[0,2]`, `['a','b']`, `[1:5:2]`, `*`, `..key`, `..*`, `[?(...)]` and `.length()`.
A key after a point has ASCII letters, digits and `_ - / \ #`; a quoted one is taken as it stands,
its escapes unread. Blanks may stand between steps and inside brackets.

What is read first wins: at each place the alternatives are tried in turn, and none is tried again
when a later part fails.

The sign `~=` of a match with a regular expression is left out. A text with it is not read as a
path, as if it were malformed.
-/

namespace ApiDouble.Document.Path

open Json Text

/-! ## Keys and quoted texts -/

def isKeyChar (c : Char) : Bool := c.isAlphanum || ['_', '-', '/', '\\', '#'].contains c

/-- The key at the head of a text; the call of `length` is none. -/
def key? (s : List Char) : Option (List Char) :=
  let key := s.takeWhile isKeyChar
  if key.isEmpty ∨ (after? "length()".toList s).isSome then none else some key

def isEscapable (c : Char) : Bool :=
  ['"', '\'', '\\', '/', 'b', 'f', 'n', 'r', 't', '(', ')'].contains c

/-- The characters up to the first quote or the first backslash that starts no escape. -/
def quotedChars : List Char → List Char
  | '\\' :: 'u' :: a :: b :: c :: d :: r =>
    if [a, b, c, d].all fun x => (hexDigit? x).isSome then
      '\\' :: 'u' :: a :: b :: c :: d :: quotedChars r
    else []
  | '\\' :: c :: r => if isEscapable c then '\\' :: c :: quotedChars r else []
  | c :: r => if c = '"' ∨ c = '\'' ∨ c = '\\' then [] else c :: quotedChars r
  | [] => []

/-- A quoted text, as it stands between its quotes. -/
def quoted? : (s : List Char) → Option (String × Rest s)
  | q :: r =>
    if q = '"' ∨ q = '\'' then
      let text := quotedChars r
      match h : r.drop text.length with
      | c :: rest =>
        if c = q then
          some (String.ofList text, ⟨rest, by
            have := congrArg List.length h
            simp only [List.length_drop, List.length_cons] at this ⊢
            omega⟩)
        else none
      | [] => none
    else none
  | [] => none

/-- A character, blanks before it aside. -/
def sign? (c : Char) (s : List Char) : Option (Rest s) :=
  match h : skipSpace s with
  | d :: r => if d = c then some ⟨r, length_lt_of_skipSpace h⟩ else none
  | [] => none

theorem length_lt_of_after? {c : Char} {word s r : List Char}
    (h : after? (c :: word) s = some r) : r.length < s.length := by
  have := congrArg List.length (after?_eq_some_iff.1 h)
  simp only [List.length_append, List.length_cons] at this
  omega

/-- A word, given by its first character and the others, at the head of a text. -/
def word? (c : Char) (word s : List Char) : Option (Rest s) :=
  match h : after? (c :: word) s with
  | some r => some ⟨r, length_lt_of_after? h⟩
  | none => none

/-! ## Numbers -/

/-- The value of a literal: an integer if digits alone make one of 64 bits with a sign, or else the
nearest binary number. -/
def comparand (l : Literal) : Document :=
  let n := natOfDigits l.whole
  let fraction := l.fraction.getD []
  let e : Int :=
    match l.exponent with
    | none => 0
    | some (negative, ds) => if negative then -(natOfDigits ds : Int) else natOfDigits ds
  if l.fraction.isNone ∧ l.exponent.isNone ∧
      n ≤ (if l.negative then -least64 else greatest64) then
    .number (.integer (if l.negative then -n else n))
  else
    let digits := natOfDigits (l.whole ++ fraction)
    match Binary64.ofDecimal? l.negative digits (e - fraction.length) with
    | some x => .number (.binary x)
    | none => .null

/-- A literal with an optional sign. -/
def signed? (s : List Char) : Option (Literal × Rest s) :=
  match s with
  | '-' :: r => (literal? true r).map fun p => (p.1, p.2.cons)
  | s => literal? false s

/-- An integer with an optional sign. -/
def bound? (s : List Char) : Option (Int × Rest s) := do
  let (l, rest) ← signed? s
  if l.fraction.isNone ∧ l.exponent.isNone then
    return (if l.negative then -(natOfDigits l.whole : Int) else natOfDigits l.whole, rest)
  else none

/-! ## Lists of keys and indices, slices -/

/-- More quoted texts, each behind a comma, and the bracket that ends them. -/
def moreKeys? (s : List Char) : Option (List String × Rest s) :=
  match sign? ']' s with
  | some r => some ([], r)
  | none => do
    let r ← sign? ',' s
    have hr := r.2
    let (k, r₁) ← quoted? (skipSpace r.1)
    have h₁ : r₁.1.length < s.length :=
      Nat.lt_trans (Nat.lt_of_lt_of_le r₁.2 (length_dropWhile_le _ _)) hr
    let (ks, rest) ← moreKeys? r₁.1
    return (k :: ks, rest.of h₁)
termination_by s.length

/-- More literals, each behind a comma, and the bracket that ends them. -/
def moreIndices? (s : List Char) : Option (List Int × Rest s) :=
  match sign? ']' s with
  | some r => some ([], r)
  | none => do
    let r ← sign? ',' s
    have hr := r.2
    let (i, r₁) ← bound? (skipSpace r.1)
    have h₁ : r₁.1.length < s.length :=
      Nat.lt_trans (Nat.lt_of_lt_of_le r₁.2 (length_dropWhile_le _ _)) hr
    let (is, rest) ← moreIndices? r₁.1
    return (i :: is, rest.of h₁)
termination_by s.length

/-- A slice from its colon on. -/
def sliceFrom? (start : Int) (s : List Char) : Option (Step × Rest s) := do
  let r ← sign? ':' s
  let (stop, r) ← match bound? (skipSpace r.1) with
    | some (z, r₁) =>
      pure (z, r.andThen r₁.ofSkipSpace)
    | none => pure ((0 : Int), r)
  let r : Rest s := r
  match sign? ']' r.1 with
  | some r' => return (.slice start stop 1, r.andThen r')
  | none =>
    let r₁ ← sign? ':' r.1
    let (stride, r₂) ← literal? false (skipSpace r₁.1)
    if stride.fraction.isSome ∨ stride.exponent.isSome then none
    let r₃ ← sign? ']' r₂.1
    return (.slice start stop (natOfDigits stride.whole),
      r.andThen (r₁.andThen (r₂.andThen r₃).ofSkipSpace))

/-- Keys, indices or a slice up to the closing bracket. -/
def places? (s : List Char) : Option (Step × Rest s) :=
  match quoted? s with
  | some (k, r) => do
    let (ks, rest) ← moreKeys? r.1
    if ks.isEmpty then none
    return (.fields (k :: ks), r.andThen rest)
  | none =>
    match bound? s with
    | some (z, r) =>
      match sliceFrom? z r.1 with
      | some (x, rest) => some (x, r.andThen rest)
      | none => do
        let (is, rest) ← moreIndices? r.1
        if is.isEmpty then
          if z < 0 ∨ s.head? = some '-' then none
          return (.index z.toNat, r.andThen rest)
        return (.indices (z :: is), r.andThen rest)
    | none => sliceFrom? 0 s

/-! ## Steps and conditions -/

/-- The relations in the order in which their signs are tried. -/
def relations : List (String × Relation) :=
  [("==", .equal), ("!=", .unequal), (">=", .atLeast), (">", .greater), ("<=", .atMost),
    ("<", .less), ("in", .within), ("nin", .notWithin), ("size", .size), ("noneOf", .noneOf), ("anyOf", .anyOf),
    ("subsetOf", .subsetOf)]

def relation? (s : List Char) : Option (Relation × Rest s) :=
  relations.findSome? fun r =>
    match r.1.toList with
    | [] => none
    | c :: word => (word? c word s).map (r.2, ·)

/-- Whether the length at the end of a path is that of the list of parts found: if a step finds
several parts and no single index comes after it. -/
def countsParts (steps : List Step) : Bool :=
  steps.foldl (fun several step =>
    match step with
    | .fields _ | .indices _ | .slice .. | .filter _ | .every => true
    | .index _ => false
    | _ => several) false

/-- A path with the meaning of its last `length` settled. -/
def settled (steps : List Step) : Path :=
  match steps.getLast? with
  | some .length =>
    if 2 < steps.length ∧ countsParts steps then steps.dropLast ++ [.count] else steps
  | _ => steps

/-- What a path of one step stands for as an operand: keys and indices are lists of constants. -/
def operand : Path → Operand
  | [.fields ks] => .constant (.strings ks)
  | [.indices is] => .constant (.array (is.map fun i => .number (.integer i)))
  | [.field k] => .constant (.strings [k])
  | path => .path path

/-- The constant at the head of a text. -/
def constant? (s : List Char) : Option (Document × Rest s) :=
  match quoted? s with
  | some (text, r) => some (.string text, r)
  | none =>
    match signed? s with
    | some (l, r) => some (comparand l, r)
    | none =>
      match s with
      | 't' :: 'r' :: 'u' :: 'e' :: _ => some (.bool true, Rest.tail.cons.cons.cons)
      | 'f' :: 'a' :: 'l' :: 's' :: 'e' :: _ => some (.bool false, Rest.tail.cons.cons.cons.cons)
      | 'n' :: 'u' :: 'l' :: 'l' :: _ => some (.null, Rest.tail.cons.cons.cons)
      | _ => none

/-- A key behind a point, or in quotes and brackets. -/
def named? (s : List Char) : Option (String × Rest s) :=
  match s with
  | '[' :: r =>
    match quoted? r with
    | some (k, ⟨']' :: rest, h⟩) =>
      some (k, ⟨rest, by simp only [List.length_cons] at *; omega⟩)
    | _ => none
  | s =>
    match key? s with
    | some k => if h : k.length = 0 ∨ s.length = 0 then none
      else some (String.ofList k, ⟨s.drop k.length, by simp only [List.length_drop]; omega⟩)
    | none => none

/-- What stands behind the first of two points. -/
def descent? (s : List Char) : Option (Step × Rest s) := do
  let r ← sign? '.' s
  match named? (skipSpace r.1) with
  | some (k, rest) => return (.descend k, r.andThen rest.ofSkipSpace)
  | none => (sign? '*' r.1).map fun rest => (.descendAll, r.andThen rest)

/-- What stands behind a point that no bracket follows. -/
def pointed? (s : List Char) : Option (Step × Rest s) :=
  match descent? s, sign? '*' s with
  | some x, _ => some x
  | none, some rest => some (.every, rest)
  | none, none => (named? s).map fun x => (.field x.1, x.2)

/-- A step that needs no brackets, or none but those around a quoted key. -/
def simple? (s : List Char) : Option (Step × Rest s) :=
  match s with
  | '.' :: r => (pointed? r).map fun x => (x.1, x.2.cons)
  | '[' :: r => (named? ('[' :: r)).map fun x => (.field x.1, x.2)
  | _ => none

/-- The call of `length` behind a point. -/
def lengthCall? (s : List Char) : Option (Step × Rest s) :=
  match s with
  | '.' :: r => do
    let r₁ ← word? 'l' "ength".toList (skipSpace r)
    let r₂ ← sign? '(' r₁.1
    let r₃ ← sign? ')' r₂.1
    return (.length, (r₁.andThen (r₂.andThen r₃)).ofSkipSpace.cons)
  | _ => none

/-- What stands after an opening bracket, which may come behind a point. -/
def opened? (s : List Char) : Option (Rest s) :=
  match s with
  | '.' :: r => (sign? '[' r).map Rest.cons
  | '[' :: _ => some Rest.tail
  | _ => none

mutual

/-- The step at the head of a text. -/
def step? (s : List Char) : Option (Step × Rest s) :=
  match s with
  | '$' :: _ => some (.root, Rest.tail)
  | '@' :: r =>
    match steps? r with
    | some (path, rest) => some (.current (settled path), rest.cons)
    | none => some (.current [], Rest.tail)
  | s =>
    match simple? s with
    | some x => some x
    | none =>
      match opened? s with
      | some r =>
        have _h : (skipSpace r.1).length < s.length :=
          Nat.lt_of_le_of_lt (length_dropWhile_le _ _) r.2
        (bracketed? (skipSpace r.1)).map fun x => (x.1, r.andThen x.2.ofSkipSpace)
      | none => lengthCall? s
termination_by 8 * s.length

/-- Steps at the head of a text, at least one. -/
def steps? (s : List Char) : Option (List Step × Rest s) := do
  let (x, r) ← step? (skipSpace s)
  have hr : r.1.length < s.length := Nat.lt_of_lt_of_le r.2 (length_dropWhile_le _ _)
  match steps? r.1 with
  | some (xs, rest) => return (x :: xs, rest.of hr)
  | none => return ([x], ⟨r.1, hr⟩)
termination_by 8 * s.length + 1
decreasing_by
  · have := length_dropWhile_le isSpace s
    simp only [skipSpace]
    omega
  · omega

/-- What stands in brackets, and the closing bracket. -/
def bracketed? (s : List Char) : Option (Step × Rest s) :=
  match s with
  | '*' :: r => (sign? ']' r).map fun x => (.every, x.cons)
  | '?' :: r => do
    let r₁ ← sign? '(' r
    have _h₁ := r₁.2
    let (c, r₂) ← disjunction? r₁.1
    let r₃ ← sign? ')' r₂.1
    let r₄ ← sign? ']' r₃.1
    return (.filter c, (r₁.andThen (r₂.andThen (r₃.andThen r₄))).cons)
  | s => places? s
termination_by 8 * s.length

/-- Conditions of which one has to hold. -/
def disjunction? (s : List Char) : Option (Condition × Rest s) := do
  let (c, r) ← conjunction? s
  have hr := r.2
  moreDisjuncts? c ⟨r.1, hr⟩
termination_by 8 * s.length + 6

/-- The condition read so far, joined with those behind a double bar. -/
def moreDisjuncts? {s : List Char} (c : Condition) (r : Rest s) : Option (Condition × Rest s) :=
  match word? '|' ['|'] (skipSpace r.1) with
  | none => some (c, r)
  | some r₁ =>
    have h₁ : r₁.1.length < r.1.length := Nat.lt_of_lt_of_le r₁.2 (length_dropWhile_le _ _)
    match conjunction? r₁.1 with
    | none => some (c, r)
    | some (d, r₂) =>
      have h₂ : r₂.1.length < r.1.length := Nat.lt_trans r₂.2 h₁
      moreDisjuncts? (.or c d) ⟨r₂.1, Nat.lt_trans h₂ r.2⟩
termination_by 8 * r.1.length + 6

/-- Conditions that all have to hold. -/
def conjunction? (s : List Char) : Option (Condition × Rest s) := do
  let (c, r) ← negation? s
  have hr := r.2
  moreConjuncts? c ⟨r.1, hr⟩
termination_by 8 * s.length + 5

/-- The condition read so far, joined with those behind a double ampersand. -/
def moreConjuncts? {s : List Char} (c : Condition) (r : Rest s) : Option (Condition × Rest s) :=
  match word? '&' ['&'] (skipSpace r.1) with
  | none => some (c, r)
  | some r₁ =>
    have h₁ : r₁.1.length < r.1.length := Nat.lt_of_lt_of_le r₁.2 (length_dropWhile_le _ _)
    match negation? r₁.1 with
    | none => some (c, r)
    | some (d, r₂) =>
      have h₂ : r₂.1.length < r.1.length := Nat.lt_trans r₂.2 h₁
      moreConjuncts? (.and c d) ⟨r₂.1, Nat.lt_trans h₂ r.2⟩
termination_by 8 * r.1.length + 5

/-- A condition or the opposite of one. -/
def negation? (s : List Char) : Option (Condition × Rest s) :=
  match sign? '!' s with
  | some r =>
    have hr := r.2
    (comparison? r.1).map fun x => (.not x.1, x.2.of hr)
  | none => comparison? s
termination_by 8 * s.length + 4

/-- A comparison, a single operand, or a condition in parentheses. -/
def comparison? (s : List Char) : Option (Condition × Rest s) :=
  match operand? s with
  | some (x, r) =>
    have hr := r.2
    match relation? (skipSpace r.1) with
    | none => some (.found x, ⟨r.1, hr⟩)
    | some (rel, r₁) =>
      have h₁ : r₁.1.length < s.length :=
        Nat.lt_trans (Nat.lt_of_lt_of_le r₁.2 (length_dropWhile_le _ _)) hr
      match operand? r₁.1 with
      | some (y, r₂) => some (.related x rel y, r₂.of h₁)
      | none => some (.found x, ⟨r.1, hr⟩)
  | none => do
    let r ← sign? '(' s
    have hr := r.2
    let (c, r₁) ← disjunction? r.1
    have h₁ := r₁.2
    let r₂ ← sign? ')' r₁.1
    return (c, ⟨r₂.1, Nat.lt_trans r₂.2 (Nat.lt_trans h₁ hr)⟩)
termination_by 8 * s.length + 3

/-- A path or a constant, blanks before it aside. -/
def operand? (s : List Char) : Option (Operand × Rest s) :=
  match steps? s with
  | some (path, r) => some (operand (settled path), r)
  | none => (constant? (skipSpace s)).map fun x =>
      (.constant x.1, x.2.ofSkipSpace)
termination_by 8 * s.length + 2

end

/-- The path that a text writes. -/
def parse? (s : List Char) : Option Path := do
  let (steps, rest) ← steps? s
  if (skipSpace rest.1).isEmpty then return settled steps else none

end ApiDouble.Document.Path
