import ApiDouble.Document.Record
import ApiDouble.Document.Yaml.Reader

/-!
# Settings

What can be set: how specifications are read, how tests are replayed, and what is logged when
serving. Everything has a default. Settings are read from documents and from the nodes of a YAML
file (`SettingSource`); unknown and repeated names are refused in both.
-/

namespace ApiDouble

/-- How a specification is written. -/
inductive Format
  | json | yaml
deriving DecidableEq, Repr, Inhabited

def Format.all : List Format := [.json, .yaml]

def Format.word : Format → String
  | .json => "json"
  | .yaml => "yaml"

instance : Written Format := ⟨fun f => .string f.word, Written.choice? Format.all Format.word⟩

/-- How specifications are read: how many lines decide about their format, the format if they do
not, the content type of messages that have none, and how many references may follow one another. -/
structure ImportSettings where
  sniffLines : Nat := 20
  defaultFormat : Format := .yaml
  defaultContentType : String := "application/json"
  maxReferenceDepth : Nat := 16
deriving DecidableEq, Inhabited

/-- How tests are replayed; times are in milliseconds. -/
structure ReplaySettings where
  connectTimeout : Nat := 5000
  readTimeout : Nat := 30000
  retries : Nat := 0
  retryDelay : Nat := 200
  parallel : Bool := true
deriving DecidableEq, Inhabited

/-- What is logged when serving. -/
structure ServeSettings where
  logMatches : Bool := true
  logUnmatched : Bool := true
deriving DecidableEq, Inhabited

structure Settings where
  importing : ImportSettings := {}
  replay : ReplaySettings := {}
  serving : ServeSettings := {}
deriving DecidableEq, Inhabited

/-! ## Reading -/

/-- What settings can be read from. A section gives the value of each of its names, none if a name
is unknown or stands there twice. -/
class SettingSource (σ : Type) where
  fields? : List String → σ → Option (String → Option σ)
  natural? : Nat → σ → Option Nat
  bool? : σ → Option Bool
  text? : σ → Option String
  format? : σ → Option Format

instance : SettingSource Document where
  fields? names d := do
    if d.members.all fun m => names.contains m.1 then Fields.ofDocument? names d else none
  natural? := Written.natural?
  bool? := Written.read?
  text? := Document.string?
  format? := Written.read?

/-- The entries of a mapping under their names; the empty scalar counts as the empty mapping. -/
def Yaml.Node.fields? (names : List String) : Yaml.Node → Option (String → Option Yaml.Node)
  | .scalar _ true "" => some fun _ => none
  | .mapping _ entries => do
    let es ← entries.mapM fun e => do return (← e.1.text?, e.2)
    let keys := es.map (·.1)
    if keys.all names.contains ∧ keys.eraseDups.length = keys.length then some fun k => es.lookup k
    else none
  | _ => none

instance : SettingSource Yaml.Node where
  fields? := Yaml.Node.fields?
  natural? limit
    | .scalar _ true text =>
      if text.toList.head? = some '-' then none
      else (Yaml.integer? text.toList).bind fun z => if z < limit then some z.toNat else none
    | _ => none
  bool?
    | .scalar _ true text => Yaml.bool? text.toList
    | _ => none
  text? := Yaml.Node.text?
  format?
    | .scalar ⟨_, tag⟩ plain text =>
      if Yaml.isCustomTag tag then
        if plain ∧ (text.isEmpty ∨ Yaml.isNull text.toList) then
          Format.all.find? fun f => tag == some ("!" ++ f.word)
        else none
      else Format.all.find? (·.word == text)
    | _ => none

section

variable {σ : Type} [SettingSource σ]

open SettingSource

/-- The value under a name, or else a default. -/
def settingOr {α : Type} (fields : String → Option σ) (name : String) (read : σ → Option α)
    (value : α) : Option α :=
  match fields name with
  | none => some value
  | some x => read x

def ImportSettings.read? (x : σ) : Option ImportSettings := do
  let f ← fields? ["sniff_lines", "default_format", "default_content_type",
    "max_reference_depth"] x
  let d : ImportSettings := {}
  return {
    sniffLines := ← settingOr f "sniff_lines" (natural? UInt64.size) d.sniffLines
    defaultFormat := ← settingOr f "default_format" format? d.defaultFormat
    defaultContentType := ← settingOr f "default_content_type" text? d.defaultContentType
    maxReferenceDepth := ← settingOr f "max_reference_depth" (natural? UInt64.size)
      d.maxReferenceDepth }

def ReplaySettings.read? (x : σ) : Option ReplaySettings := do
  let f ← fields? ["connect_timeout_ms", "read_timeout_ms", "retries", "retry_delay_ms",
    "parallel_operations"] x
  let d : ReplaySettings := {}
  return {
    connectTimeout := ← settingOr f "connect_timeout_ms" (natural? UInt64.size) d.connectTimeout
    readTimeout := ← settingOr f "read_timeout_ms" (natural? UInt64.size) d.readTimeout
    retries := ← settingOr f "retries" (natural? UInt32.size) d.retries
    retryDelay := ← settingOr f "retry_delay_ms" (natural? UInt64.size) d.retryDelay
    parallel := ← settingOr f "parallel_operations" bool? d.parallel }

def ServeSettings.read? (x : σ) : Option ServeSettings := do
  let f ← fields? ["log_matches", "log_unmatched"] x
  let d : ServeSettings := {}
  return {
    logMatches := ← settingOr f "log_matches" bool? d.logMatches
    logUnmatched := ← settingOr f "log_unmatched" bool? d.logUnmatched }

def Settings.read? (x : σ) : Option Settings := do
  let f ← fields? ["importer", "runner", "settings"] x
  return {
    importing := ← settingOr f "importer" ImportSettings.read? {}
    replay := ← settingOr f "runner" ReplaySettings.read? {}
    serving := ← settingOr f "settings" ServeSettings.read? {} }

end

/-! ## Validity -/

/-- Why settings cannot be used. -/
inductive SettingsError
  | unreadable
  | noSniffLines
  | referenceDepth (depth : Nat)
  | noConnectTimeout
  | noReadTimeout
deriving DecidableEq, Repr

/-- The wording of an error; one about the file as a whole has none of its own. -/
def SettingsError.message : SettingsError → String
  | unreadable => ""
  | noSniffLines => "importer: sniff_lines must be greater than 0"
  | referenceDepth n =>
    "importer: max_reference_depth must be within 1..=64, got " ++ toString n
  | noConnectTimeout => "runner: connect_timeout_ms must be greater than 0"
  | noReadTimeout => "runner: read_timeout_ms must be greater than 0"

/-- The first thing wrong with settings. -/
def Settings.error? (s : Settings) : Option SettingsError :=
  if s.importing.sniffLines = 0 then some .noSniffLines
  else if s.importing.maxReferenceDepth < 1 ∨ 64 < s.importing.maxReferenceDepth then
    some (.referenceDepth s.importing.maxReferenceDepth)
  else if s.replay.connectTimeout = 0 then some .noConnectTimeout
  else if s.replay.readTimeout = 0 then some .noReadTimeout
  else none

/-- The settings in a YAML text; a text without a document has the defaults. -/
def Settings.load (text : String) : Except SettingsError Settings := do
  let some root := Yaml.root? text.toList | throw .unreadable
  let some s := (match root with
    | none => some ({} : Settings)
    | some n => Settings.read? n) | throw .unreadable
  match s.error? with
  | some e => throw e
  | none => return s

/-! ## Written form -/

def ImportSettings.document (s : ImportSettings) : Document :=
  .object [("sniff_lines", .ofNat s.sniffLines), ("default_format", .string s.defaultFormat.word),
    ("default_content_type", .string s.defaultContentType),
    ("max_reference_depth", .ofNat s.maxReferenceDepth)]

def ReplaySettings.document (s : ReplaySettings) : Document :=
  .object [("connect_timeout_ms", .ofNat s.connectTimeout),
    ("read_timeout_ms", .ofNat s.readTimeout), ("retries", .ofNat s.retries), ("retry_delay_ms", .ofNat s.retryDelay),
    ("parallel_operations", .bool s.parallel)]

def ServeSettings.document (s : ServeSettings) : Document :=
  .object [("log_matches", .bool s.logMatches), ("log_unmatched", .bool s.logUnmatched)]

def Settings.document (s : Settings) : Document :=
  .object [("importer", s.importing.document), ("runner", s.replay.document),
    ("settings", s.serving.document)]

end ApiDouble
