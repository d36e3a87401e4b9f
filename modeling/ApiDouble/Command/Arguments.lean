import ApiDouble.Contract.Exchange
import ApiDouble.Text.Characters

/-!
# Command line arguments

The words of a command line are read from the left. The first word that is wrong, or that asks for
help or for the version, decides; what the options need of one another is looked at last.

An option has a long name and may have a letter. Its value follows its name after `=`, follows its
letter directly or after `=`, or is the next word, which must not look like an option then.
-/

namespace ApiDouble.Command

open Text

/-- How much is logged. -/
inductive LogLevel
  | error | warn | info | debug | trace
deriving DecidableEq, Repr, Inhabited

namespace LogLevel

def all : List LogLevel := [error, warn, info, debug, trace]

def word : LogLevel → String
  | error => "error"
  | warn => "warn"
  | info => "info"
  | debug => "debug"
  | trace => "trace"

/-- A level by its word in any ASCII case, or by its number from 1 on. -/
def read? (s : String) : Option LogLevel :=
  match unsigned? s.toList with
  | some n => if n = 0 then none else all[n - 1]?
  | none => all.find? (sameName ·.word s)

end LogLevel

/-- What to do, as the command line says it. -/
structure Arguments where
  settings : String := "contract-mock.yaml"
  level : LogLevel := .info
  showsSettings : Bool := false
  validates : Bool := false
  specification : Option String := none
  endpoint : Option String := none
  operations : List String := []
  headers : List Header := []
deriving DecidableEq, Inhabited

/-! ## Options -/

/-- The options. -/
inductive Flag
  | settings | level | showsSettings | validates | specification | endpoint | operation | header
  | help | version
deriving DecidableEq, Repr, Inhabited

namespace Flag

def all : List Flag :=
  [settings, level, showsSettings, validates, specification, endpoint, operation, header, help,
    version]

def name : Flag → String
  | settings => "config"
  | level => "log-level"
  | showsSettings => "print-config"
  | validates => "validate"
  | specification => "import"
  | endpoint => "test-endpoint"
  | operation => "operation"
  | header => "header"
  | help => "help"
  | version => "version"

def letter? : Flag → Option Char
  | settings => some 'c'
  | level => some 'L'
  | specification => some 'i'
  | endpoint => some 't'
  | help => some 'h'
  | version => some 'V'
  | showsSettings | validates | operation | header => none

/-- What the value of an option is, none for an option without a value. -/
def valueName? : Flag → Option String
  | settings => some "CONFIG"
  | level => some "LOG_LEVEL"
  | specification => some "SPEC"
  | endpoint => some "URL"
  | operation => some "NAME"
  | header => some "NAME=VALUE"
  | showsSettings | validates | help | version => none

def takesValue (f : Flag) : Bool := f.valueName?.isSome

/-- Whether an option may be given more than once. -/
def repeats : Flag → Bool
  | operation | header => true
  | _ => false

def about : Flag → String
  | settings => "Path to configuration file [default: contract-mock.yaml]"
  | level => "Log level (trace, debug, info, warn, error) [default: info]"
  | showsSettings => "Print default configuration and exit"
  | validates => "Validate configuration and exit"
  | specification => "AsyncAPI or OpenAPI document to import"
  | endpoint => "Replay the imported requests against this endpoint"
  | operation => "Only test this operation (repeatable)"
  | header => "Header added to every test request (repeatable)"
  | help => "Print help"
  | version => "Print version"

def ofName? (name : String) : Option Flag := all.find? (·.name == name)

def ofLetter? (c : Char) : Option Flag := all.find? (·.letter? == some c)

end Flag

/-! ## Words -/

/-- What a word looks like. -/
inductive Word
  | text (s : String)
  | separator
  | long (name : String) (value : Option String)
  | short (letter : Char) (rest : List Char)
deriving DecidableEq, Repr

def Word.ofString (s : String) : Word :=
  match s.toList with
  | ['-', '-'] => .separator
  | '-' :: '-' :: name =>
    match splitOnce? '=' name with
    | some (name, value) => .long (String.ofList name) (some (String.ofList value))
    | none => .long (String.ofList name) none
  | '-' :: c :: rest => .short c rest
  | _ => .text s

/-- The value that stands in one word with the letter of its option. -/
def attachedValue? : List Char → Option String
  | [] => none
  | '=' :: value => some (String.ofList value)
  | value => some (String.ofList value)

/-! ## Reading -/

/-- What is wrong with a command line. -/
inductive UsageError
  | unexpected (word : String)
  | repeated (flag : Flag)
  | missingValue (flag : Flag)
  | unneededValue (flag : Flag)
  | invalidValue (flag : Flag) (value : String)
  | missing (flag : Flag)
deriving DecidableEq, Repr

def UsageError.message : UsageError → String
  | unexpected word => "unexpected argument '" ++ word ++ "' found"
  | repeated f => "the argument '--" ++ f.name ++ "' cannot be used multiple times"
  | missingValue f => "a value is required for '--" ++ f.name ++ "' but none was supplied"
  | unneededValue f => "unexpected value for '--" ++ f.name ++ "' found; no more were expected"
  | invalidValue f value => "invalid value '" ++ value ++ "' for '--" ++ f.name ++ "'"
  | missing f => "the following required arguments were not provided: --" ++ f.name

/-- What is asked for. -/
inductive Wish
  | run (a : Arguments)
  | help
  | version
deriving DecidableEq

/-- What is known when a part of the command line is read. -/
structure Progress where
  arguments : Arguments := {}
  given : List Flag := []

/-- A header as `NAME=VALUE`; blanks around the name do not count. -/
def header? (s : String) : Option Header :=
  match splitOnce? '=' s.toList with
  | some (name, value) =>
    if (trim name).isEmpty then none
    else some (.ofCsv (String.ofList (trim name)) (String.ofList value))
  | none => none

def path? (s : String) : Option String := if s.isEmpty then none else some s

/-- The arguments with the value of an option, none if the value is no good. -/
def Arguments.set? (a : Arguments) (value : String) : Flag → Option Arguments
  | .settings => (path? value).map ({ a with settings := · })
  | .level => (LogLevel.read? value).map ({ a with level := · })
  | .showsSettings => some { a with showsSettings := true }
  | .validates => some { a with validates := true }
  | .specification => (path? value).map ({ a with specification := some · })
  | .endpoint => some { a with endpoint := some value }
  | .operation => some { a with operations := a.operations ++ [value] }
  | .header => (header? value).map fun h => { a with headers := a.headers ++ [h] }
  | .help | .version => some a

namespace Progress

/-- Takes an option with its value, which is empty for an option without one. -/
def take (p : Progress) (f : Flag) (value : String) : Except UsageError Progress :=
  if p.given.contains f ∧ !f.repeats then .error (.repeated f)
  else match p.arguments.set? value f with
    | some a => .ok ⟨a, f :: p.given⟩
    | none => .error (.invalidValue f value)

/-- The arguments when all words are read: an endpoint needs a specification. -/
def finish (p : Progress) : Except UsageError Wish :=
  if p.given.contains .endpoint ∧ !p.given.contains .specification then
    .error (.missing .specification)
  else .ok (.run p.arguments)

/-- What follows a word: the end, or more words, the next of which may be the value of an option. -/
inductive Next
  | wish (w : Wish)
  | words (p : Progress) (waiting : Option Flag)

/-- Takes an option in which a value may stand already. -/
def option (p : Progress) (f : Flag) (value : Option String) : Except UsageError Next :=
  if f.takesValue then
    match value with
    | some value => return .words (← p.take f value) none
    | none => .ok (.words p (some f))
  else if value.isSome then .error (.unneededValue f)
  else match f with
    | .help => .ok (.wish .help)
    | .version => .ok (.wish .version)
    | f => return .words (← p.take f "") none

/-- Takes a word that no option waits for. -/
def word (p : Progress) (s : String) : Word → Except UsageError Next
  | .long name value =>
    match Flag.ofName? name with
    | some f => p.option f value
    | none => .error (.unexpected s)
  | .short c rest =>
    match Flag.ofLetter? c with
    | some f => p.option f (if f.takesValue then attachedValue? rest else none)
    | none => .error (.unexpected s)
  | .text _ | .separator => .error (.unexpected s)

/-- Reads words, the first of which may be the value that an option waits for. Nothing may follow
the separator, since there are no arguments apart from the options. -/
def read (p : Progress) : Option Flag → List String → Except UsageError Wish
  | none, [] => p.finish
  | some f, [] => .error (.missingValue f)
  | some f, s :: rest =>
    match Word.ofString s with
    | .text value => do (← p.take f value).read none rest
    | _ => .error (.missingValue f)
  | none, s :: rest =>
    match Word.ofString s, rest with
    | .separator, [] => p.finish
    | .separator, t :: _ => .error (.unexpected t)
    | w, _ =>
      match p.word s w with
      | .error e => .error e
      | .ok (.wish wish) => .ok wish
      | .ok (.words p waiting) => p.read waiting rest

end Progress

/-- What a command line asks for. -/
def Wish.ofWords (words : List String) : Except UsageError Wish := ({} : Progress).read none words

/-! ## Help -/

/-- The line about an option, its description beginning in a column of its own. -/
def Flag.helpLine (f : Flag) : String :=
  let letter := match f.letter? with
    | some c => "  -" ++ String.singleton c ++ ", --"
    | none => "      --"
  let value := match f.valueName? with
    | some v => " <" ++ v ++ ">"
    | none => ""
  let left := letter ++ f.name ++ value
  left ++ String.ofList (List.replicate (31 - left.length) ' ') ++ f.about ++ "\n"

def helpText : String :=
  "API virtualization and contract testing - import specs, dispatch mocks, replay tests\n\n" ++
    "Usage: contract-mock [OPTIONS]\n\nOptions:\n" ++ String.join (Flag.all.map Flag.helpLine)

def versionText : String := "contract-mock 0.2.0\n"

end ApiDouble.Command
