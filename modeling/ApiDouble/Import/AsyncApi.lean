import ApiDouble.Document.Json.Printer
import ApiDouble.Document.Json.Reader
import ApiDouble.Import.Warning
import ApiDouble.Uri.Pattern

/-!
# Services from AsyncAPI documents

Every `subscribe` and `publish` of a channel is an operation. The examples of its messages are its
exchanges, and its bindings are those of the operation and of the channel, refined by those of the
messages.
-/

namespace ApiDouble.Import.AsyncApi

open Text Noted

/-- What the operations of a document have in common: the way references are followed, and the
content type of messages without one. -/
structure Source where
  resolve : String → Document → Except ReferenceError Document
  contentType : String

/-! ## Bindings -/

def isScalar : Document → Bool
  | .string _ | .number _ | .bool _ => true
  | _ => false

/-- A name with a capital at its start. -/
def capitalized (s : String) : String :=
  match s.toList with
  | [] => ""
  | c :: cs => String.ofList (upperOf c ++ cs)

/-- The attributes that one member of a binding stands for: a scalar is one, an array is one with
its scalars joined by commas, an object is one for each of its scalars, under both keys run
together. -/
def attributesOf (key : String) : Document → List (String × String)
  | .null => []
  | .object ms => (ms.filter (isScalar ·.2)).map fun m => (key ++ capitalized m.1, m.2.text)
  | .array xs => [(key, ",".intercalate ((xs.filter isScalar).map Document.text))]
  | scalar => [(key, scalar.text)]

/-- The attributes of a binding; its version is not one of them. -/
def flatten (binding : Document) : List (String × String) :=
  (binding.members.filter (·.1 ≠ "bindingVersion")).flatMap fun m => attributesOf m.1 m.2

/-- Merges the bindings of one scope into an operation. -/
def mergeBindings (scope : Scope) (bindings : Document) (op : Operation) : Noted Operation :=
  bindings.members.foldlM (fun op m =>
    match Protocol.ofKey? m.1 with
    | some p => return { op with bindings := op.bindings.merge p scope (flatten m.2) }
    | none => do
      incomplete (op.name ++ "#bindings." ++ m.1) "unsupported binding type"
      return op) op

/-! ## Examples -/

/-- The keys that tell an example from a list of named examples. -/
def exampleKeys : List String := ["payload", "$payloadRef", "headers", "name", "summary"]

/-- The examples in one entry of a message's list, with their names: the entry is one example, or it
has an example under each of its keys. -/
def namedExamples (message : Document) (index : Nat) (entry : Document) :
    List (String × Document) :=
  if entry.members.any fun m => exampleKeys.contains m.1 then
    let name := (entry.get "name").string?.getD
      (((message.get "name").string?.getD "example") ++ "-" ++ toString (index + 1))
    [(name, entry)]
  else entry.members

/-- The payload of an example, its own or the one it refers to; none if it has neither. -/
def payload? (source : Source) (entry : Document) : Except ReferenceError (Option Document) :=
  match entry.get? "payload" with
  | some p => return some p
  | none =>
    if entry.has "$payloadRef" then do
      let found ← source.resolve "$payloadRef" entry
      return some (((found.get? "payload").or (found.get? "value")).getD found)
    else return none

/-- The headers in an object: one for each member, from its text. -/
def headersOf (ms : List (String × Document)) : List Header :=
  ms.map fun m => .ofCsv m.1 m.2.text

/-- The headers of an example, given as an object or as a string with the JSON text of one. -/
def headers (unit : String) (entry : Document) : Noted (List Header) :=
  match entry.get "headers" with
  | .null => return []
  | .object ms => return headersOf ms
  | .string raw =>
    match Json.parse? raw.toList with
    | some (.object ms) => return headersOf ms
    | _ => do
      incomplete (unit ++ "#headers")
        ("headers value '" ++ raw ++ "' is a string but not a JSON object")
      return []
  | _ => do
    incomplete (unit ++ "#headers") "headers is neither a map nor a string"
    return []

/-- The exchange that an example records, none if it has no payload to record. -/
def exchange? (source : Source) (opName contentType : String) (named : String × Document) :
    Noted (Option Exchange) := do
  let unit := opName ++ "#" ++ named.1
  match payload? source named.2 with
  | .error e => do dangling unit e; return none
  | .ok none => do incomplete unit "example has no payload"; return none
  | .ok (some p) =>
    let headers ← headers unit named.2
    return some (.event {
      name := named.1
      content := some p.text
      mediaType := some contentType
      headers
      parameters := (named.2.get "parameters").members.map fun m => ⟨m.1, m.2.text⟩ })

/-- The exchanges that the examples of a message record. -/
def exchanges (source : Source) (opName : String) (message : Document) : Noted (List Exchange) := do
  let contentType := (message.get "contentType").string?.getD source.contentType
  let named := ((message.get "examples").items.zipIdx.map fun e => namedExamples message e.2 e.1)
  return (← named.flatten.mapM (exchange? source opName contentType)).filterMap id

/-! ## Operations -/

/-- The messages that a message stands for: the members of its `oneOf`, or else itself. -/
def alternatives (source : Source) (opName : String) (message : Document) : Noted (List Document) :=
  if message.has "oneOf" then do
    return (← (message.get "oneOf").items.mapM fun candidate =>
      orDangling (opName ++ "#oneOf") (source.resolve "$ref" candidate)).filterMap id
  else return [message]

/-- Adds what a message says to an operation. -/
def addMessage (source : Source) (op : Operation) (message : Document) : Noted Operation := do
  let es ← exchanges source op.name message
  mergeBindings .message (message.get "bindings") { op with exchanges := op.exchanges ++ es }

/-- An operation as its channel addresses it: by the variables of the channel's name, those that the
channel declares if it does, or by the name itself. -/
def addressed (verb name : String) (channel : Document) : Operation :=
  let op := Operation.ofPath verb name
  if Uri.hasVariables name then
    let declared := (channel.get "parameters").members.map (·.1)
    let names := if declared.isEmpty then Uri.variableNames name else declared
    { op with dispatcher := .uriParts, rule := some (" && ".intercalate names) }
  else op.addResourcePath (trimmed name)

/-- The operation of one verb of a channel. -/
def operation (source : Source) (name : String) (channel : Document) (verb : String)
    (node : Document) : Noted Operation := do
  let op ← mergeBindings .operation (node.get "bindings") (addressed verb name channel)
  let op ← mergeBindings .operation (channel.get "bindings") op
  match ← orDangling (op.name ++ "#message") (source.resolve "$ref" (node.get "message")) with
  | none => return op
  | some message => (← alternatives source op.name message).foldlM (addMessage source) op

def verbs : List String := ["subscribe", "publish"]

/-- Adds the operations of a channel to a service. -/
def addChannel (source : Source) (service : Service) (name : String) (channel : Document) :
    Noted Service :=
  if channel.isObject then
    (channel.members.filter fun m => verbs.contains m.1).foldlM (fun service m => do
      declare service (← operation source name channel m.1 m.2)) service
  else do
    incomplete name "channel is not an object"
    return service

/-- The service of a document. -/
def service (settings : ImportSettings) (root : Document) : Except Error (Noted Service) :=
  let title := trimmed ((root.get "info").get "title").text
  if title.isEmpty then .error (.untitled .asyncApi)
  else
    let source : Source := {
      resolve := resolve root settings.maxReferenceDepth
      contentType := (root.get "defaultContentType").string?.getD settings.defaultContentType }
    let empty : Service := {
      name := title
      version := trimmed ((root.get "info").get "version").text
      kind := .event
      operations := [] }
    .ok ((root.get "channels").members.foldlM (fun s m => addChannel source s m.1 m.2) empty)

end ApiDouble.Import.AsyncApi
