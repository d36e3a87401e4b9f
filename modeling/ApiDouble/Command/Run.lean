import ApiDouble.Command.Arguments
import ApiDouble.Import.Specification
import ApiDouble.Replay.Testbed

/-!
# Running a command

A command reads its settings, imports a specification, and either shows what was imported or replays
the recorded requests against an endpoint and shows the reports. The files and the transport are
parameters, so that a command can be run in any monad.
-/

namespace ApiDouble

/-- A settings file that sets everything to its default. -/
def Settings.sample : String := "\n".intercalate [
  "# Default configuration for contract-mock.",
  "",
  "importer:",
  "  # Leading non-blank lines inspected to tell JSON from YAML",
  "  sniff_lines: 20",
  "  # Format assumed when no clue is found",
  "  default_format: yaml",
  "  # Content type for messages that declare none",
  "  default_content_type: application/json",
  "  # Maximum chained $ref / $payloadRef hops",
  "  max_reference_depth: 16",
  "",
  "runner:",
  "  connect_timeout_ms: 5000",
  "  read_timeout_ms: 30000",
  "  retries: 0",
  "  retry_delay_ms: 200",
  "  parallel_operations: true",
  "",
  "settings:",
  "  log_matches: true",
  "  log_unmatched: true",
  ""]

namespace Command

open Replay Text

/-! ## Files -/

/-- What stands under a path. -/
inductive FileState
  | missing
  | unreadable
  | content (bytes : List UInt8)

def FileState.content? : FileState → Option (List UInt8)
  | content bytes => some bytes
  | _ => none

/-- The extension of a file name: what follows its last dot, if something precedes that dot. -/
def extension? (path : String) : Option (List Char) := do
  let parts := (splitOn '/' path.toList).filter fun part => !part.isEmpty && part != ['.']
  let name ← parts.getLast?
  let reversed := name.reverse
  let extension := reversed.takeWhile (· != '.')
  if name = ['.', '.'] ∨ extension.length + 1 ≥ name.length then none
  else some extension.reverse

/-- The format that a file name declares. -/
def declaredFormat (path : String) : Option Format := do
  match String.ofList (asciiLower (← extension? path)) with
  | "json" => some .json
  | "yaml" | "yml" => some .yaml
  | _ => none

/-- A path in quotes. -/
def quotedPath (path : String) : String :=
  "\"" ++ String.join (path.toList.map escaped) ++ "\""
where
  escaped (c : Char) : String :=
    match c with
    | '\t' => "\\t"
    | '\r' => "\\r"
    | '\n' => "\\n"
    | '\'' => "\\'"
    | '"' => "\\\""
    | '\\' => "\\\\"
    | '\x00' => "\\0"
    | c =>
      if c.toNat < 0x20 ∨ (0x7F ≤ c.toNat ∧ c.toNat < 0xA0) then
        "\\u\x7b" ++ String.ofList (Nat.toDigits 16 c.toNat) ++ "\x7d"
      else String.singleton c

/-! ## Results -/

/-- Why a command fails. -/
inductive CommandError
  | unreadableSettings
  | noSettings (path : String)
  | settings (e : SettingsError)
  | nothingToDo
  | unreadableSpecification (path : String)
  | specification (e : Import.Error)
  | launch (e : LaunchError)
  | failedTest
deriving DecidableEq, Repr

/-- The wording of an error, none where it is up to the reader of a format or to the system. -/
def CommandError.message? : CommandError → Option String
  | unreadableSettings => none
  | noSettings path => some ("Configuration file not found: " ++ quotedPath path)
  | settings .unreadable => none
  | settings e => some e.message
  | nothingToDo => some "Nothing to do: pass --import <SPEC> (see --help)"
  | unreadableSpecification path => some ("reading " ++ path)
  | specification e => e.message?
  | launch e => some e.message
  | failedTest => some "Contract test failed"

/-- How a command ends: what it prints, and what went wrong. -/
structure Finish where
  output : String := ""
  error : Option CommandError := none
deriving DecidableEq

/-- The status that a command leaves: 0 if all went well, else 1. -/
def Finish.status (f : Finish) : Nat := if f.error.isSome then 1 else 0

/-! ## Running -/

/-- What a command needs of the machine. -/
structure Machine (m : Type → Type) where
  file : String → m FileState
  clock : m UInt64
  send : Transport m
  warn : String → m Unit

variable {m : Type → Type} [Monad m]

/-- The settings to use. A missing file stands for the defaults, unless it is to be checked. -/
def loadSettings (machine : Machine m) (a : Arguments) : ExceptT CommandError m Settings := do
  match ← (machine.file a.settings : m FileState) with
  | .missing => if a.validates then throw (.noSettings a.settings) else return {}
  | .unreadable => throw .unreadableSettings
  | .content bytes =>
    let some text := Utf8.string? bytes | throw .unreadableSettings
    match Settings.load text with
    | .ok s => return s
    | .error e => throw (.settings e)

/-- The service of the specification, its warnings shown. -/
def importFrom (machine : Machine m) (settings : Settings) (path : String) :
    ExceptT CommandError m (Import.Noted Service) := do
  let some bytes := (← (machine.file path : m FileState)).content?
    | throw (.unreadableSpecification path)
  match Import.importText bytes (declaredFormat path) settings.importing with
  | .error e => throw (.specification e)
  | .ok outcome =>
    for w in outcome.warnings do
      machine.warn w.text
    return outcome

/-- The tests to run: one of each service that is no event service. -/
def testsOf (a : Arguments) (endpoint : String) (services : List Service) : List TestRequest :=
  (services.filter (·.kind != .event)).map fun s => {
    id := s.key.text
    service := s.key
    endpoint
    operations := a.operations
    overrides := { HeaderOverrides.none with globals := a.headers } }

/-- Runs tests one after the other. The first that does not begin ends them all. -/
def runTests (machine : Machine m) (parallel : Bool) (catalogue : Catalogue) :
    List TestRequest → Testbed → ExceptT CommandError m (List TestReport)
  | [], _ => return []
  | t :: ts, x => do
    let transport : Transport (StateT Testbed m) := fun call => liftM (machine.send call)
    let (result, x) ←
      ((Testbed.launch (liftM machine.clock) transport parallel catalogue t).run x : m _)
    match result with
    | .error e => throw (.launch e)
    | .ok report? => return report?.toList ++ (← runTests machine parallel catalogue ts x)

/-- Runs a command. -/
def run (machine : Machine m) (a : Arguments) : m Finish := do
  match ← (go : ExceptT CommandError m Finish).run with
  | .ok f => return f
  | .error e => return { error := some e }
where
  go : ExceptT CommandError m Finish := do
    if a.showsSettings then return { output := Settings.sample ++ "\n" }
    let settings ← loadSettings machine a
    if a.validates then return { output := "Configuration is valid\n" }
    let some path := a.specification | throw .nothingToDo
    let outcome ← importFrom machine settings path
    let some endpoint := a.endpoint
      | return { output := outcome.document.toIndentedJson ++ "\n" }
    let services := [outcome.value]
    let catalogue := services.foldl (fun (c : Catalogue) s => (c.publish s).2) .empty
    let reports ← runTests machine settings.replay.parallel catalogue
      (testsOf a endpoint services) {}
    return {
      output := (Written.write reports).toIndentedJson ++ "\n"
      error := if reports.any (!·.success) then some .failedTest else none }

end Command

end ApiDouble
