import ApiDouble.Template.Context

/-!
# Expressions and templates

An expression is a text in quotes, a call of a function, or a reference to a variable. The arguments
of a call are separated by commas, except inside quotes and brackets; one without quotes is a
reference if it starts with the name of a variable, and a text if it does not. Functions may have
effects of a monad `m`, such as drawing random numbers.

A template is a text with expressions between double braces. It is read once, from its start to its
end: the text in front of an expression stays as it is, the value of the expression is put in its
place, and reading goes on behind its braces. An expression without a value stays as it is written,
and so do braces that are never closed.
-/

namespace ApiDouble.Template

open Text

/-! ## Expressions -/

/-- A function of expressions. An argument is none if it is a reference that leads nowhere. -/
abbrev Function (m : Type → Type) := List (Option String) → m (Except EvalError String)

/-- The functions that have a name. -/
abbrev Functions (m : Type → Type) := String → Option (Function m)

def Functions.register {m : Type → Type} (fs : Functions m) (name : String) (f : Function m) :
    Functions m := fun n => if n = name then some f else fs n

/-- What an expression is. -/
inductive Expression
  | empty
  | literal (text : List Char)
  | call (name : List Char) (arguments : List (List Char))
  | reference (text : List Char)
deriving DecidableEq, Repr

/-- The text between two equal quotes. -/
def unquoted? : List Char → Option (List Char)
  | q :: rest => if isQuote q ∧ rest.getLast? = some q then some rest.dropLast else none
  | [] => none

/-- Where a scan through arguments stands: the quote that it is inside of, and how many brackets
deep it is. -/
structure Nesting where
  quote : Option Char := none
  depth : Nat := 0

/-- Whether a comma would end an argument. -/
def Nesting.isOutside (n : Nesting) : Bool := n.quote.isNone && n.depth == 0

/-- The nesting after one more character. A bracket that was never opened closes nothing. -/
def Nesting.next (n : Nesting) (c : Char) : Nesting :=
  match n.quote with
  | some q => if c = q then { n with quote := none } else n
  | none =>
    if isQuote c then { n with quote := some c }
    else if c = '[' ∨ c = '(' then { n with depth := n.depth + 1 }
    else if c = ']' ∨ c = ')' then { n with depth := n.depth - 1 }
    else n

/-- The texts between the commas outside quotes and brackets, `current` being what has been read of
the first one. -/
def splitArguments (n : Nesting) (current : List Char) : List Char → List (List Char)
  | [] => [current]
  | c :: rest =>
    if n.isOutside ∧ c = ',' then current :: splitArguments n [] rest
    else splitArguments (n.next c) (current ++ [c]) rest

/-- The arguments of a call, blanks around them aside. Blanks alone are no argument. -/
def arguments (s : List Char) : List (List Char) :=
  if allBlank s then [] else (splitArguments {} [] s).map trim

def startsName (c : Char) : Bool := c.isAlpha || c == '_'

def isNameChar (c : Char) : Bool := c.isAlphanum || c == '_'

/-- The name and the arguments of a call: a name, a parenthesis behind it, and one at the end. -/
def call? (s : List Char) : Option (List Char × List (List Char)) :=
  if s.head?.any startsName then
    match dropBlanks (s.dropWhile isNameChar) with
    | '(' :: rest =>
      if rest.getLast? = some ')' then some (s.takeWhile isNameChar, arguments rest.dropLast)
      else none
    | _ => none
  else none

/-- What an expression says, blanks around it aside. -/
def Expression.parse (s : List Char) : Expression :=
  let s := trim s
  if s.isEmpty then empty
  else
    match unquoted? s, call? s with
    | some text, _ => literal text
    | none, some (name, arguments) => call name arguments
    | none, none => reference s

/-- The value of an argument. -/
def argument (ctx : Context) (s : List Char) : Option String :=
  match unquoted? s with
  | some text => some (String.ofList text)
  | none =>
    if ctx.contains (Context.rootOf s) then (ctx.lookup (String.ofList s)).toOption
    else some (String.ofList s)

variable {m : Type → Type} [Monad m]

/-- The value of an expression. -/
def Expression.eval (fs : Functions m) (ctx : Context) : Expression → m (Except EvalError String)
  | empty => return .error (.malformed "")
  | literal text => return .ok (String.ofList text)
  | call name arguments =>
    match fs (String.ofList name) with
    | some f => f (arguments.map (argument ctx))
    | none => return .error (.unknownFunction (String.ofList name))
  | reference text => return ctx.lookup (String.ofList text)

/-- The value of the expression that a text writes. -/
def evaluate (fs : Functions m) (ctx : Context) (s : List Char) : m (Except EvalError String) :=
  (Expression.parse s).eval fs ctx

/-! ## Rendering -/

/-- An expression as it is written in a template. -/
def inBraces (text : List Char) : List Char := ['{', '{'] ++ text ++ ['}', '}']

/-- What stands in the place of an expression when it has been evaluated. -/
def shown (text : List Char) : Except EvalError String → List Char
  | .ok value => value.toList
  | .error _ => inBraces text

/-- The text that a template is rendered to, in characters. -/
def renderText (fs : Functions m) (ctx : Context) (s : List Char) : m (List Char) :=
  match h : breakAt? ['{', '{'] s with
  | none => return s
  | some (before, rest) =>
    match h' : breakAt? ['}', '}'] rest with
    | none => return s
    | some (text, rest') => do
      have := length_of_breakAt? h
      have := length_of_breakAt? h'
      let value ← evaluate fs ctx text
      return before ++ shown text value ++ (← renderText fs ctx rest')
termination_by s.length
decreasing_by simp only [List.length_cons] at *; omega

/-- The text that a template is rendered to. -/
def render (fs : Functions m) (ctx : Context) (template : String) : m String := do
  return String.ofList (← renderText fs ctx template.toList)

end ApiDouble.Template
