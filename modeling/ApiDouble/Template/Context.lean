import ApiDouble.Collection.SortedMap
import ApiDouble.Document.Basic
import ApiDouble.Document.Json.Printer
import ApiDouble.Document.Json.Reader
import ApiDouble.Text.Characters

/-!
# References to variables

A reference names a variable and then leads into its value: `.key` and `[key]` to a member of an
object, a slash to the place that a JSON pointer says. Keys are compared exactly, and if that finds
nothing without regard to ASCII case.
-/

namespace ApiDouble.Template

open Text

/-- Why an expression has no value. -/
inductive EvalError
  | unknownFunction (name : String)
  | unresolved (reference : String)
  | badArgument (function message : String)
  | malformed (expression : String)
deriving DecidableEq, Repr

def EvalError.message : EvalError → String
  | unknownFunction name => "unknown function '" ++ name ++ "'"
  | unresolved reference => "unresolved variable '" ++ reference ++ "'"
  | badArgument function message => "bad argument to " ++ function ++ "(): " ++ message
  | malformed expression => "malformed expression '" ++ expression ++ "'"

/-- One step of a reference. A bracket that is never closed is a step that cannot be taken. -/
inductive Access
  | child (key : List Char)
  | pointer (text : List Char)
  | unclosed
deriving DecidableEq, Repr

/-- The characters that end the name of a variable or a key behind a point. -/
def isStop (c : Char) : Bool := c == '.' || c == '[' || c == '/'

def isQuote (c : Char) : Bool := c == '\'' || c == '"'

/-- A key in brackets without the blanks and quotes around it. -/
def bareKey (s : List Char) : List Char :=
  (((trim s).dropWhile isQuote).reverse.dropWhile isQuote).reverse

/-- The steps of a reference after the name of the variable. -/
def accesses : List Char → List Access
  | [] => []
  | '.' :: rest =>
    .child (rest.takeWhile (!isStop ·)) :: accesses (rest.dropWhile (!isStop ·))
  | '[' :: rest =>
    match h : breakAt? [']'] rest with
    | none => [.unclosed]
    | some (key, rest') =>
      have := length_of_breakAt? h
      .child (bareKey key) :: accesses rest'
  | s => [.pointer s]
termination_by s => s.length
decreasing_by
  · have := (rest.dropWhile_suffix (!isStop ·)).length_le
    simp only [List.length_cons]; omega
  · simp only [List.length_cons] at *; omega

/-- The member of an object with a key. -/
def child? (key : String) : Document → Option Document
  | .object ms =>
    (Document.valueOf? key ms).or ((ms.find? fun m => sameName m.1 key).map (·.2))
  | _ => none

/-- The place that a pointer leads to; a string is read as JSON first. -/
def pointed? (pointer : List Char) : Document → Option Document
  | .string s => (Json.parse? s.toList).bind (·.at? pointer)
  | d => d.at? pointer

/-- Where a sequence of steps leads. -/
def walk (reference : String) : List Access → Document → Except EvalError Document
  | [], d => .ok d
  | .child key :: rest, d =>
    match child? (String.ofList key) d with
    | some x => walk reference rest x
    | none => .error (.unresolved reference)
  | .pointer p :: rest, d =>
    match pointed? p d with
    | some x => walk reference rest x
    | none => .error (.unresolved reference)
  | .unclosed :: _, _ => .error (.malformed reference)

/-- The variables that expressions can refer to. -/
abbrev Context := SortedMap String Document

namespace Context

/-- The name of the variable at the head of a reference. -/
def rootOf (reference : List Char) : String := String.ofList (reference.takeWhile (!isStop ·))

/-- The value of a reference. -/
def value (ctx : Context) (reference : String) : Except EvalError Document :=
  match ctx.get? (rootOf reference.toList) with
  | some d => walk reference (accesses (reference.toList.dropWhile (!isStop ·))) d
  | none => .error (.unresolved reference)

/-- The text that a reference stands for; `null` is no text. -/
def lookup (ctx : Context) (reference : String) : Except EvalError String := do
  let d ← ctx.value reference
  if d.isNull then .error (.unresolved reference) else .ok d.text

end Context

/-! ## The request as a variable -/

/-- What templates see of a request. -/
structure RequestView where
  body : Option String
  path : String
  method : String
  headers : SortedMap String String
  params : SortedMap String String

def texts (m : SortedMap String String) : Document :=
  .object (m.toList.map fun e => (e.1, .string e.2))

def RequestView.document (v : RequestView) : Document :=
  .object [("body", .ofOption .string v.body), ("path", .string v.path),
    ("method", .string v.method), ("headers", texts v.headers), ("params", texts v.params)]

/-- The context of a request, which is bound to the name `request`. -/
def Context.ofRequest (v : RequestView) : Context :=
  (SortedMap.empty : Context).insert "request" v.document

end ApiDouble.Template
