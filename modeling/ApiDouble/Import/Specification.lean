import ApiDouble.Document.Json.Reader
import ApiDouble.Import.AsyncApi
import ApiDouble.Import.OpenApi

/-!
# Importing a specification

A specification in any dialect gives one service and the warnings about what was left out. Whether
it is JSON or YAML is decided by the first of its leading lines that begins with a mark of either
(`sniff`), and by a default if none does. The document must be an object, and its dialect is told by
the key at its root.
-/

namespace ApiDouble.Import

open Text

/-! ## From bytes to a document -/

/-- The format that a line begins like: brackets mean JSON, a document mark or the root key of a
specification means YAML. -/
def lineFormat? (line : List Char) : Option Format :=
  if line.head? = some '\x7b' ∨ line.head? = some '[' then some .json
  else if ["---", "asyncapi:", "openapi:", "swagger:"].any fun m => m.toList.isPrefixOf line then
    some .yaml
  else none

/-- The lines of a text without the blanks at their ends, empty ones left out. -/
def significantLines (s : List Char) : List (List Char) :=
  ((s.splitOn '\n').map trim).filter (!·.isEmpty)

/-- The format of a specification. Bytes that are no text count as replacement characters. -/
def sniff (content : List UInt8) (maxLines : Nat) (fallback : Format) : Format :=
  (((significantLines (Utf8.decodeLenient content)).take maxLines).findSome? lineFormat?).getD
    fallback

/-- The document of a text in a format. -/
def parseAs? (format : Format) (content : List UInt8) : Option Document :=
  match format with
  | .json => Json.parseBytes? content
  | .yaml => Yaml.parseBytes? content

/-- The document of a specification. A declared format is the one to fall back to. -/
def parse (content : List UInt8) (declared : Option Format) (settings : ImportSettings) :
    Except Error Document :=
  let format := sniff content settings.sniffLines (declared.getD settings.defaultFormat)
  match parseAs? format content with
  | none => .error (.malformed format)
  | some d => if d.isObject then .ok d else .error (.rootNotObject format)

/-! ## From a document to a service -/

/-- The service of a document in a dialect. -/
def Dialect.service : Dialect → ImportSettings → Document → Except Error (Noted Service)
  | asyncApi => AsyncApi.service
  | openApi => OpenApi.service

/-- The dialect of a document; an error names its first keys. -/
def dialect (root : Document) : Except Error Dialect :=
  match Dialect.all.find? fun d => root.has d.rootKey with
  | some d => .ok d
  | none => .error (.unknownDialect ((root.members.map (·.1)).take 3))

/-- The service of a text in a dialect. -/
def importAs (d : Dialect) (content : List UInt8) (declared : Option Format)
    (settings : ImportSettings) : Except Error (Noted Service) := do
  d.service settings (← parse content declared settings)

/-- The service of a text, whatever its dialect. -/
def importText (content : List UInt8) (declared : Option Format) (settings : ImportSettings) :
    Except Error (Noted Service) := do
  let root ← parse content declared settings
  (← dialect root).service settings root

/-! ### Written form -/

def Warning.document (w : Warning) : Document :=
  .object [("kind", .string w.kind.word), ("unit", .string w.unit), ("reason", .string w.reason)]

def Noted.document (outcome : Noted Service) : Document :=
  .object [("services", .array [Written.write outcome.value]),
    ("warnings", .array (outcome.warnings.map Warning.document))]

end ApiDouble.Import
