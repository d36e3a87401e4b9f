import ApiDouble.Collection.SortedSet
import ApiDouble.Document.Record
import ApiDouble.Text.Characters
import ApiDouble.Text.Search
import ApiDouble.Uri.Query

/-!
# Headers and exchanges

A header has a name and a set of values. In text the values are joined by commas; blanks around a
value, empty values, repetitions and order are of no account (`Header.ofCsv`). Names are compared
without regard to ASCII case.

An exchange is a recorded example of an operation: a request with its response, or a message that
stands alone. The inbound side of both has the same parts and is what dispatching looks at.
-/

namespace ApiDouble

open Text

/-! ## Headers -/

/-- A named set of values. -/
structure Header where
  name : String
  values : SortedSet String
deriving DecidableEq, Inhabited

namespace Header

/-- The values in a comma-separated text. -/
def csvValues (csv : List Char) : List String :=
  (((splitOn ',' csv).map trim).filter (!·.isEmpty)).map String.ofList

/-- A header from a comma-separated text. -/
def ofCsv (name csv : String) : Header := ⟨name, .ofList (csvValues csv.toList)⟩

/-- The values of a header in one text. -/
def joined (h : Header) : String := ",".intercalate h.values.toList

/-- The first header with a name. -/
def find? (hs : List Header) (name : String) : Option Header := hs.find? (sameName ·.name name)

/-- Adds a header to a list: an earlier one of its name takes over the values and keeps its place
and spelling. -/
def override : List Header → Header → List Header
  | [], h => [h]
  | g :: gs, h => if sameName g.name h.name then { g with values := h.values } :: gs
    else g :: override gs h

/-- Headers of several layers in one list, later layers overriding earlier ones. -/
def merge (layers : List (List Header)) : List Header := layers.flatten.foldl override []

end Header

instance : Written Header where
  write h := .object [("name", .string h.name), ("values", Written.write h.values)]
  read? d := do
    let f ← Fields.ofDocument? ["name", "values"] d
    return { name := ← f.required "name", values := ← f.required "values" }

/-! ## Exchanges -/

/-- The inbound side of an exchange. Parameters are in the order of their declaration. -/
structure Message where
  name : String
  content : Option String
  mediaType : Option String
  headers : List Header
  parameters : List Parameter
deriving DecidableEq, Inhabited

/-- The answer of a recorded request. -/
structure Response where
  name : String
  status : Option String
  content : Option String
  mediaType : Option String
  headers : List Header
deriving DecidableEq, Inhabited

/-- A recorded example. -/
inductive Exchange
  | requestResponse (request : Message) (response : Response)
  | event (message : Message)
deriving DecidableEq, Inhabited

namespace Exchange

/-- What came in. -/
def inbound : Exchange → Message
  | requestResponse request _ => request
  | event message => message

def name (e : Exchange) : String := e.inbound.name

def request? : Exchange → Option Message
  | requestResponse request _ => some request
  | event _ => none

end Exchange

/-! ### Written forms -/

instance : Written Parameter where
  write p := .object [("name", .string p.name), ("value", .string p.value)]
  read? d := do
    let f ← Fields.ofDocument? ["name", "value"] d
    return { name := ← f.required "name", value := ← f.required "value" }

instance : Written Message where
  write m := .object ([("name", .string m.name)] ++ optionalMember "content" m.content ++
    optionalMember "mediaType" m.mediaType ++
    [("headers", Written.write m.headers), ("parameters", Written.write m.parameters)])
  read? d := do
    let f ← Fields.ofDocument? ["name", "content", "mediaType", "headers", "parameters"] d
    return {
      name := ← f.required "name"
      content := ← f.optional "content"
      mediaType := ← f.optional "mediaType"
      headers := ← f.orDefault "headers" []
      parameters := ← f.orDefault "parameters" [] }

instance : Written Response where
  write r := .object ([("name", .string r.name)] ++ optionalMember "status" r.status ++
    optionalMember "content" r.content ++ optionalMember "mediaType" r.mediaType ++
    [("headers", Written.write r.headers)])
  read? d := do
    let f ← Fields.ofDocument? ["name", "status", "content", "mediaType", "headers"] d
    return {
      name := ← f.required "name"
      status := ← f.optional "status"
      content := ← f.optional "content"
      mediaType := ← f.optional "mediaType"
      headers := ← f.orDefault "headers" [] }

/-- The kind of an exchange and the document of its other fields: an object has the kind among its
members, an array has it first. -/
def Exchange.tagged? : Document → Option (String × Document)
  | .object ms => do
    let kind ← (Document.valueOf? "kind" ms).bind Document.string?
    return (kind, .object (ms.filter (·.1 ≠ "kind")))
  | .array (.string kind :: rest) => some (kind, .array rest)
  | _ => none

instance : Written Exchange where
  write
    | .requestResponse request response => .object [("kind", .string "request_response"),
        ("request", Written.write request), ("response", Written.write response)]
    | .event message => .object [("kind", .string "event"), ("message", Written.write message)]
  read? d := do
    let (kind, d) ← Exchange.tagged? d
    match kind with
    | "request_response" =>
      let f ← Fields.ofDocument? ["request", "response"] d
      return .requestResponse (← f.required "request") (← f.required "response")
    | "event" =>
      let f ← Fields.ofDocument? ["message"] d
      return .event (← f.required "message")
    | _ => none

end ApiDouble
