import ApiDouble.Collection.SortedMap
import ApiDouble.Uri.Query

/-!
# Path patterns

A pattern marks the variable parts of a path as `{name}` or, after a slash, as `:name`. Reading a
pattern gives its segments (`Pattern.parse`); matching a path against them gives a value for every
variable (`Pattern.match?`). A variable never reaches over a slash, and before a literal it ends
where that literal first occurs.

Filling in a pattern (`instantiate`) goes the other way. A value whose name is a variable of the
pattern goes in the variable's place; all others become the query. Values are filled in one after
the other, so a value that was filled in can hold what looks like a variable to the next one.
-/

namespace ApiDouble.Uri

open Text

/-! ## Reading and matching -/

/-- A piece of a pattern: text that stands for itself, or a variable. -/
inductive Segment
  | literal (text : List Char)
  | variable (name : List Char)
deriving DecidableEq, Repr

abbrev Pattern := List Segment

/-- The characters of a variable's name after a colon. -/
def isNameChar (c : Char) : Bool := c.isAlphanum || c == '_' || c == '-'

/-- Literal text as segments: none for no text. -/
def literals (text : List Char) : Pattern := if text.isEmpty then [] else [.literal text]

/-- The segments of a pattern, after the literal text `before`. A brace without its partner is text,
and so is a colon without a name; of empty braces the opening one stays. -/
def Pattern.parseAfter (before : List Char) : List Char → Pattern
  | [] => literals before
  | '{' :: rest =>
    let name := rest.takeWhile (· != '}')
    match _h : rest.dropWhile (· != '}') with
    | [] => literals (before ++ '{' :: name)
    | _ :: rest' =>
      if name.isEmpty then parseAfter (before ++ ['{']) rest'
      else literals before ++ .variable name :: parseAfter [] rest'
  | '/' :: ':' :: rest =>
    let name := rest.takeWhile isNameChar
    if name.isEmpty then parseAfter (before ++ ['/', ':']) rest
    else .literal (before ++ ['/']) :: .variable name :: parseAfter [] (rest.dropWhile isNameChar)
  | c :: rest => parseAfter (before ++ [c]) rest
termination_by s => s.length
decreasing_by
  · have := (rest.dropWhile_suffix (· != '}')).length_le
    simp only [_h, List.length_cons] at *; omega
  · have := (rest.dropWhile_suffix (· != '}')).length_le
    simp only [_h, List.length_cons] at *; omega
  · simp only [List.length_cons]; omega
  · have := (rest.dropWhile_suffix isNameChar).length_le
    simp only [List.length_cons]; omega
  · simp only [List.length_cons]; omega

def Pattern.parse (s : List Char) : Pattern := parseAfter [] s

/-- The names of the variables in order of appearance. -/
def Pattern.names (p : Pattern) : List (List Char) :=
  p.filterMap fun
    | .variable name => some name
    | .literal _ => none

/-- How many characters of `s` a variable takes when `rest` follows it in the pattern. -/
def reach (rest : Pattern) (s : List Char) : List Char :=
  let segment := s.takeWhile (· != '/')
  match rest with
  | .literal next :: _ => ((breakAt? next segment).map (·.1)).getD segment
  | _ => segment

/-- The raw text of each variable in a path of the pattern's shape. -/
def Pattern.bind? : Pattern → List Char → Option (List (List Char × List Char))
  | [], [] => some []
  | [], _ :: _ => none
  | .literal text :: rest, s => (after? text s).bind (bind? rest)
  | .variable name :: rest, s =>
    let raw := reach rest s
    (bind? rest (s.drop raw.length)).map ((name, raw) :: ·)

/-- The value of each variable in a path of the pattern's shape. A variable that occurs more than
once has its last value. -/
def Pattern.match? (p : Pattern) (path : List Char) : Option (SortedMap String String) :=
  (p.bind? path).map fun bs =>
    .ofList (bs.map fun b => (String.ofList b.1, String.ofList (decode b.2)))

/-- A quick test for variables: a brace or a colon where a segment starts. -/
def hasVariables (pattern : String) : Bool :=
  let s := pattern.toList
  occurs ['/', ':'] s || occurs ['/', '{'] s || s.head? = some '{'

/-- The names of a pattern's variables in order of appearance. -/
def variableNames (pattern : String) : List String :=
  (Pattern.parse pattern.toList).names.map String.ofList

/-- The values of a pattern's variables in a path, none if the path has another shape. -/
def extract? (pattern path : String) : Option (SortedMap String String) :=
  (Pattern.parse pattern.toList).match? path.toList

/-! ## Filling in -/

/-- Replaces the first `/:name` that no longer name continues; none if there is no such place. -/
def fillColon? (name value : List Char) : (s : List Char) → Option (List Char)
  | [] => none
  | c :: rest =>
    let marker := '/' :: ':' :: name
    match after? marker (c :: rest) with
    | some r =>
      if r.head?.any isNameChar then
        (fillColon? name value (rest.drop (marker.length - 1))).map (marker ++ ·)
      else some ('/' :: value ++ r)
    | none => (fillColon? name value rest).map (c :: ·)
termination_by s => s.length
decreasing_by all_goals simp only [List.length_cons, List.length_drop]; omega

/-- Puts an encoded value in the place of a variable, none if the pattern has no such variable. -/
def fill? (name value s : List Char) : Option (List Char) :=
  let braces := '{' :: name ++ ['}']
  if occurs braces s then some (replaceAll braces value s) else fillColon? name value s

/-- A pattern partly filled in, and the values left for its query. -/
structure Filling where
  uri : List Char
  query : List Parameter

def Filling.add (f : Filling) (p : Parameter) : Filling :=
  match fill? p.name.toList (encodePath p.value.toList) f.uri with
  | some uri => { f with uri }
  | none => { f with query := f.query ++ [p] }

/-- Appends a query, with the separator that the text so far asks for. -/
def appendQuery (uri : List Char) (query : List Char) : List Char :=
  if query.isEmpty then uri
  else if !uri.contains '?' then uri ++ '?' :: query
  else if uri.getLast? = some '?' ∨ uri.getLast? = some '&' then uri ++ query
  else uri ++ '&' :: query

/-- The address that a pattern and the values of its parameters make. -/
def instantiate (pattern : String) (ps : List Parameter) : String :=
  let f := ps.foldl Filling.add ⟨pattern.toList, []⟩
  String.ofList (appendQuery f.uri (queryText f.query))

end ApiDouble.Uri
