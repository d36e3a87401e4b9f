import ApiDouble.Document.Json.Printer
import ApiDouble.Import.Warning
import ApiDouble.Uri.Pattern

/-!
# Services from OpenAPI documents

Every verb of a path is an operation. The named examples of its responses are its exchanges; the
examples of parameters and request bodies join them by name.
-/

namespace ApiDouble.Import.OpenApi

open Text Noted

/-- The way references are followed. -/
abbrev Resolver := Document → Except ReferenceError Document

/-! ## Parameters -/

/-- A declared parameter: its name, where it goes, and its node. -/
structure Declared where
  name : String
  location : String
  node : Document

/-- Two declarations of one parameter. -/
def Declared.sameAs (p q : Declared) : Bool := p.name == q.name && p.location == q.location

/-- The parameter that a node declares, none if it declares none. -/
def declared? (resolve : Resolver) (unit : String) (node : Document) : Noted (Option Declared) := do
  match ← orDangling (unit ++ "#parameters") (resolve node) with
  | none => return none
  | some node =>
    let name := (node.get "name").text
    if name.isEmpty then do
      incomplete unit "parameter without a name"
      return none
    else return some ⟨name, (node.get "in").text, node⟩

/-- The parameters that a list declares. -/
def declared (resolve : Resolver) (unit : String) (list : Document) : Noted (List Declared) := do
  return (← list.items.mapM (declared? resolve unit)).filterMap id

/-- Adds a declaration at the end, in place of an earlier one of the same parameter. -/
def replaceDeclared (ps : List Declared) (p : Declared) : List Declared :=
  ps.filter (!·.sameAs p) ++ [p]

/-- The parameters of an operation: those of its path, overridden by its own. -/
def effective (shared own : List Declared) : List Declared := own.foldl replaceDeclared shared

/-- The names of the parameters at a location. -/
def namesAt (location : String) (ps : List Declared) : List String :=
  (ps.filter (·.location == location)).map (·.name)

/-- How the parameters of an operation tell its exchanges apart. -/
def dispatch (ps : List Declared) : Dispatcher × Option String :=
  let rule := " && ".intercalate (namesAt "path" ps ++ namesAt "query" ps)
  match (namesAt "path" ps).isEmpty, (namesAt "query" ps).isEmpty with
  | false, true => (.uriParts, some rule)
  | true, false => (.queryArgs, some rule)
  | false, false => (.uriParams, some rule)
  | true, true => (.none, none)

/-- What `x-dispatch` says over the parameters: a dispatcher, a rule and a fallback. An unknown
dispatcher puts all three out of force. -/
def override (extension : Document) (op : Operation) : Noted Operation := do
  let word? (key : String) : Option String := (extension.get? key).bind Document.string?
  let ruled (op : Operation) : Operation :=
    { op with rule := (word? "rule").or op.rule, fallback := (word? "fallback").or op.fallback }
  match word? "dispatcher" with
  | none => return ruled op
  | some word =>
    match Dispatcher.ofName? word with
    | some d => return ruled { op with dispatcher := d }
    | none => do
      incomplete (op.name ++ "#x-dispatch") ("unknown dispatcher '" ++ word ++ "'")
      return op

/-! ## Examples -/

/-- The value of an example, none if it has no value or refers to nothing. -/
def value? (resolve : Resolver) (unit : String) (node : Document) : Noted (Option Document) := do
  match ← orDangling unit (resolve node) with
  | none => return none
  | some node =>
    match node.get? "value" with
    | some v => return some v
    | none => do
      incomplete unit "example has no value"
      return none

/-- The value of the example with a name among those of a node, none if there is no such example. -/
def exampleOf? (resolve : Resolver) (unit name : String) (node : Document) :
    Noted (Option Document) :=
  match (node.get "examples").get? name with
  | none => return none
  | some e => value? resolve unit e

/-- The first body of a request with an example of a name: its content and its media type. -/
def body? (resolve : Resolver) (unit name : String) :
    List (String × Document) → Noted (Option (String × String))
  | [] => return none
  | (mediaType, content) :: rest => do
    match ← exampleOf? resolve unit name content with
    | some v => return some (v.text, mediaType)
    | none => body? resolve unit name rest

/-- The request with a name: the examples of that name of the body and of the parameters. -/
def request (resolve : Resolver) (unit name : String) (node : Document) (ps : List Declared) :
    Noted Message := do
  let body ← body? resolve unit name ((node.get "requestBody").get "content").members
  let values ← ps.mapM fun p => do
    return (← exampleOf? resolve unit name p.node).map fun v => (p, v.text)
  let values := values.filterMap id
  return {
    name
    content := body.map (·.1)
    mediaType := body.map (·.2)
    headers := (values.filter (·.1.location == "header")).map fun v => .ofCsv v.1.name v.2
    parameters := (values.filter fun v => v.1.location == "path" || v.1.location == "query").map
      fun v => ⟨v.1.name, v.2⟩ }

/-- The headers of a response for the example with a name. -/
def responseHeaders (resolve : Resolver) (unit name : String) (response : Document) :
    Noted (List Header) := do
  let hs ← (response.get "headers").members.mapM fun m => do
    match ← orDangling (unit ++ "#headers." ++ m.1) (resolve m.2) with
    | none => return none
    | some h => return (← exampleOf? resolve unit name h).map fun v => Header.ofCsv m.1 v.text
  return hs.filterMap id

/-! ## Operations -/

/-- A place where an operation gives an example of a response. -/
structure Recorded where
  status : String
  mediaType : String
  name : String
  response : Document
  node : Document

/-- Every example of a response, in the order of the document. -/
def recorded (status : String) (response : Document) : List Recorded :=
  (response.get "content").members.flatMap fun c =>
    (c.2.get "examples").members.map fun e =>
      { status, mediaType := c.1, name := e.1, response, node := e.2 }

/-- Adds the exchange that an example of a response records, the request joined by name. The first
example of a name counts. -/
def addRecorded (resolve : Resolver) (node : Document) (ps : List Declared) (op : Operation)
    (r : Recorded) : Noted Operation := do
  let unit := op.name ++ "#" ++ r.name
  if (op.exchange? r.name).isSome then do
    incomplete unit "example name already used by another response"
    return op
  else
    match ← value? resolve unit r.node with
    | none => return op
    | some v =>
      let headers ← responseHeaders resolve unit r.name r.response
      let request ← request resolve unit r.name node ps
      return { op with exchanges := op.exchanges ++ [.requestResponse request {
        name := r.name
        status := some r.status
        content := some v.text
        mediaType := some r.mediaType
        headers }] }

/-- Adds the exchanges that a response records. -/
def addResponse (resolve : Resolver) (node : Document) (ps : List Declared) (op : Operation)
    (status : String) (response : Document) : Noted Operation := do
  match ← orDangling (op.name ++ "#responses." ++ status) (resolve response) with
  | none => return op
  | some response => (recorded status response).foldlM (addRecorded resolve node ps) op

/-- Notes every example of a request body that joins no response. -/
def noteUnanswered (op : Operation) (node : Document) : Noted Unit :=
  (((node.get "requestBody").get "content").members.flatMap fun c =>
    (c.2.get "examples").members).forM fun e =>
      if (op.exchange? e.1).isSome then return ()
      else incomplete (op.name ++ "#" ++ e.1) "request example has no matching response example"

/-- Notes a fallback that is the name of no exchange. -/
def noteFallback (op : Operation) : Noted Unit :=
  match op.fallback with
  | none => return ()
  | some name =>
    if (op.exchange? name).isSome then return ()
    else incomplete (op.name ++ "#x-dispatch") ("fallback '" ++ name ++ "' names no example")

/-- An operation as its parameters address it. -/
def addressed (verb path : String) (ps : List Declared) : Operation :=
  let op := { Operation.ofPath verb path with
    dispatcher := (dispatch ps).1
    rule := (dispatch ps).2 }
  if Uri.hasVariables path then op else op.addResourcePath (trimmed path)

/-- The operation of one verb of a path. -/
def operation (resolve : Resolver) (path verb : String) (node : Document) (ps : List Declared) :
    Noted Operation := do
  let op ← override (node.get "x-dispatch") (addressed verb path ps)
  let op ← (node.get "responses").members.foldlM (fun op m =>
    addResponse resolve node ps op m.1 m.2) op
  noteUnanswered op node
  noteFallback op
  return op

def verbs : List String := ["get", "put", "post", "delete", "patch", "head", "options", "trace"]

/-- Adds the operations of a path to a service. -/
def addPath (resolve : Resolver) (service : Service) (path : String) (item : Document) :
    Noted Service := do
  match ← orDangling path (resolve item) with
  | none => return service
  | some item =>
    let shared ← declared resolve path (item.get "parameters")
    (item.members.filter fun m => verbs.contains m.1).foldlM (fun service m => do
      let own ← declared resolve path (m.2.get "parameters")
      declare service (← operation resolve path m.1 m.2 (effective shared own))) service

/-- The service of a document. -/
def service (settings : ImportSettings) (root : Document) : Except Error (Noted Service) :=
  let title := trimmed ((root.get "info").get "title").text
  if title.isEmpty then .error (.untitled .openApi)
  else
    let empty : Service := {
      name := title
      version := trimmed ((root.get "info").get "version").text
      kind := .rest
      operations := [] }
    .ok ((root.get "paths").members.foldlM (fun s m =>
      addPath (resolve root settings.maxReferenceDepth "$ref") s m.1 m.2) empty)

end ApiDouble.Import.OpenApi
