import ApiDouble.Contract.Exchange
import ApiDouble.Document.Record
import ApiDouble.Text.Case
import ApiDouble.Text.Characters

/-!
# Services

A service is one version of an API: its operations, each with the exchanges recorded for it. An
operation is named by its verb and path, and the names within a service differ where the service is
built by adding one operation after the other (`Service.addOperation?`). A service that comes in its
written form is taken as it is.

A binding says how an operation is carried by a messaging protocol, as attributes with text values.
Attributes come from two scopes: those of the operation only fill what is missing, those of a
message overwrite.

A catalogue has one published service under each key. Publishing puts a whole service in the place
of an older one with its key.
-/

namespace ApiDouble

open Text

/-! ## Bindings -/

/-- A protocol that carries messages. -/
inductive Protocol
  | kafka | amqp | amqp1 | mqtt | nats | ws | http
deriving DecidableEq, Repr, Ord, Inhabited

namespace Protocol

instance : Std.TransOrd Protocol where
  eq_swap {a b} := by cases a <;> cases b <;> rfl
  isLE_trans {a b c} := by cases a <;> cases b <;> cases c <;> decide

instance : Std.LawfulEqOrd Protocol where
  compare_self {a} := by cases a <;> rfl
  eq_of_compare {a b} := by cases a <;> cases b <;> decide

def all : List Protocol := [kafka, amqp, amqp1, mqtt, nats, ws, http]

def word : Protocol → String
  | kafka => "KAFKA"
  | amqp => "AMQP"
  | amqp1 => "AMQP1"
  | mqtt => "MQTT"
  | nats => "NATS"
  | ws => "WS"
  | http => "HTTP"

/-- The protocol that a key of a specification names, in any ASCII case. -/
def ofKey? (key : String) : Option Protocol :=
  all.find? fun p => p.word.toList == asciiUpper key.toList

end Protocol

instance : Written Protocol := ⟨fun p => .string p.word, Written.choice? Protocol.all Protocol.word⟩

/-- Where an attribute was found. -/
inductive Scope
  | operation | message
deriving DecidableEq, Repr

/-- The attributes of one protocol. -/
structure Binding where
  protocol : Protocol
  attributes : SortedMap String String
deriving DecidableEq, Inhabited

namespace Binding

/-- Writes one attribute. -/
def write (b : Binding) (scope : Scope) (key value : String) : Binding :=
  { b with attributes :=
      match scope with
      | .operation => b.attributes.insertNew key value
      | .message => b.attributes.insert key value }

def merge (b : Binding) (scope : Scope) (attributes : List (String × String)) : Binding :=
  attributes.foldl (fun b a => b.write scope a.1 a.2) b

end Binding

instance : Written Binding where
  write b :=
    .object [("type", Written.write b.protocol), ("attributes", Written.write b.attributes)]
  read? d := do
    let f ← Fields.ofDocument? ["type", "attributes"] d
    return { protocol := ← f.required "type", attributes := ← f.orDefault "attributes" .empty }

/-- The bindings of one operation. -/
abbrev Bindings := SortedMap Protocol Binding

/-- Merges attributes into the binding of a protocol, which is made if there is none. -/
def Bindings.merge (bs : Bindings) (p : Protocol) (scope : Scope)
    (attributes : List (String × String)) : Bindings :=
  bs.insert p (((bs.get? p).getD ⟨p, .empty⟩).merge scope attributes)

instance : Written Bindings where
  write bs := .object (bs.toList.map fun e => (e.1.word, Written.write e.2))
  read?
    | .object ms => do
      return .ofList (← ms.mapM fun m => do
        return (← Protocol.all.find? (·.word == m.1), ← Written.read? m.2))
    | _ => none

/-! ## Operations and services -/

/-- The kind of API that a service describes. -/
inductive ServiceKind
  | rest | soap | event | graphql | genericRest | genericEvent
deriving DecidableEq, Repr, Inhabited

namespace ServiceKind

def all : List ServiceKind := [rest, soap, event, graphql, genericRest, genericEvent]

def word : ServiceKind → String
  | rest => "REST"
  | soap => "SOAP"
  | event => "EVENT"
  | graphql => "GRAPHQL"
  | genericRest => "GENERIC_REST"
  | genericEvent => "GENERIC_EVENT"

end ServiceKind

instance : Written ServiceKind :=
  ⟨fun k => .string k.word, Written.choice? ServiceKind.all ServiceKind.word⟩

/-- How an exchange is picked for a request: by variables of the path, by these and query arguments,
by query arguments, by a place in a JSON body, or by headers. -/
inductive Dispatcher
  | none | uriParts | uriParams | queryArgs | jsonBody | queryHeader
deriving DecidableEq, Repr, Inhabited

namespace Dispatcher

def all : List Dispatcher := [none, uriParts, uriParams, queryArgs, jsonBody, queryHeader]

def word : Dispatcher → String
  | none => "NONE"
  | uriParts => "URI_PARTS"
  | uriParams => "URI_PARAMS"
  | queryArgs => "QUERY_ARGS"
  | jsonBody => "JSON_BODY"
  | queryHeader => "QUERY_HEADER"

/-- The dispatcher that a specification names, in any ASCII case; no name means none. -/
def ofName? (name : String) : Option Dispatcher :=
  let word := asciiUpper (trim name.toList)
  if word.isEmpty then some none else all.find? (·.word.toList == word)

end Dispatcher

instance : Written Dispatcher :=
  ⟨fun d => .string d.word, Written.choice? Dispatcher.all Dispatcher.word⟩

/-- One action of a service. `fallback` names the exchange that answers when none matches. -/
structure Operation where
  name : String
  method : String
  dispatcher : Dispatcher
  rule : Option String
  resourcePaths : List String
  bindings : Bindings
  fallback : Option String
  exchanges : List Exchange
deriving DecidableEq, Inhabited

namespace Operation

/-- The name of an operation: its verb in upper case and its path. -/
def nameOf (method path : String) : String := upper method ++ " " ++ trimmed path

/-- An operation without exchanges. -/
def ofPath (method path : String) : Operation where
  name := nameOf method path
  method := upper method
  dispatcher := .none
  rule := none
  resourcePaths := []
  bindings := .empty
  fallback := none
  exchanges := []

/-- What follows the first blank of the name; the whole name if nothing does. -/
def pathPattern (op : Operation) : String :=
  match splitOnce? ' ' op.name.toList with
  | some (_, []) | none => op.name
  | some (_, path) => String.ofList path

def addResourcePath (op : Operation) (path : String) : Operation :=
  if op.resourcePaths.contains path then op
  else { op with resourcePaths := op.resourcePaths ++ [path] }

/-- The first exchange with a name. -/
def exchange? (op : Operation) (name : String) : Option Exchange :=
  op.exchanges.find? (·.name == name)

end Operation

instance : Written Operation where
  write op := .object ([("name", .string op.name), ("method", .string op.method),
      ("dispatcher", Written.write op.dispatcher)] ++ optionalMember "dispatcherRules" op.rule ++
    [("resourcePaths", Written.write op.resourcePaths), ("bindings", Written.write op.bindings)] ++
    optionalMember "fallback" op.fallback ++ [("exchanges", Written.write op.exchanges)])
  read? d := do
    let f ← Fields.ofDocument? ["name", "method", "dispatcher", "dispatcherRules", "resourcePaths",
      "bindings", "fallback", "exchanges"] d
    return {
      name := ← f.required "name"
      method := ← f.required "method"
      dispatcher := ← f.orDefault "dispatcher" .none
      rule := ← f.optional "dispatcherRules"
      resourcePaths := ← f.orDefault "resourcePaths" []
      bindings := ← f.orDefault "bindings" .empty
      fallback := ← f.optional "fallback"
      exchanges := ← f.orDefault "exchanges" [] }

/-- What identifies a service. -/
structure ServiceKey where
  name : String
  version : String
deriving DecidableEq, Inhabited, Repr

namespace ServiceKey

def text (k : ServiceKey) : String := k.name ++ ":" ++ k.version

/-- Keys are in the order of their names, those of one name in the order of their versions. -/
instance : Ord ServiceKey := ⟨compareLex (compareOn name) (compareOn version)⟩

instance : Std.TransOrd ServiceKey :=
  inferInstanceAs (Std.TransCmp (compareLex (compareOn name) (compareOn version)))

instance : Std.LawfulEqOrd ServiceKey where
  compare_self := Std.ReflCmp.compare_self
  eq_of_compare {a b} h := by
    have h : (compare a.name b.name).then (compare a.version b.version) = .eq := h
    rw [Ordering.then_eq_eq] at h
    obtain ⟨a₁, a₂⟩ := a
    obtain ⟨b₁, b₂⟩ := b
    simp only [Std.compare_eq_iff_eq] at h
    simp [h]

end ServiceKey

instance : Written ServiceKey where
  write k := .object [("name", .string k.name), ("version", .string k.version)]
  read? d := do
    let f ← Fields.ofDocument? ["name", "version"] d
    return { name := ← f.required "name", version := ← f.required "version" }

/-- One version of an API. -/
structure Service where
  name : String
  version : String
  kind : ServiceKind
  operations : List Operation
deriving DecidableEq, Inhabited

namespace Service

def key (s : Service) : ServiceKey := ⟨s.name, s.version⟩

/-- The first operation with a name. -/
def operation? (s : Service) (name : String) : Option Operation :=
  s.operations.find? (·.name == name)

/-- The service with one more operation, none if its name is taken. -/
def addOperation? (s : Service) (op : Operation) : Option Service :=
  if (s.operation? op.name).isSome then none
  else some { s with operations := s.operations ++ [op] }

end Service

instance : Written Service where
  write s := .object [("name", .string s.name), ("version", .string s.version),
    ("type", Written.write s.kind), ("operations", Written.write s.operations)]
  read? d := do
    let f ← Fields.ofDocument? ["name", "version", "type", "operations"] d
    return {
      name := ← f.required "name"
      version := ← f.required "version"
      kind := ← f.required "type"
      operations := ← f.orDefault "operations" [] }

/-! ## Catalogues -/

abbrev Catalogue := SortedMap ServiceKey Service

namespace Catalogue

/-- Publishes a service. Gives the one that it replaces. -/
def publish (c : Catalogue) (s : Service) : Option Service × Catalogue :=
  (c.get? s.key, c.insert s.key s)

/-- Takes a service away. Gives it back. -/
def remove (c : Catalogue) (k : ServiceKey) : Option Service × Catalogue := (c.get? k, c.erase k)

end Catalogue

end ApiDouble
