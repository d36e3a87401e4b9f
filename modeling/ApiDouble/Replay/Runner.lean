import ApiDouble.Replay.Call
import ApiDouble.Replay.Report
import ApiDouble.Text.Characters
import ApiDouble.Text.Word
import ApiDouble.Uri.Pattern

/-!
# Runners

A runner turns a recorded request into a call and the reply into an outcome. What differs from
protocol to protocol is the address, the last touch to the call, the verdict and the message; the
rest is the same for all of them. A call without a response is a failure.

So is a SOAP response that has a `Fault` element, whatever its status. Its reason is the text of the
first `faultstring` or `Text` element. Elements are found in the text as it stands, with or without
a prefix before their name.
-/

namespace ApiDouble.Replay.Soap

open Text

/-! ## SOAP faults -/

/-- The characters of a prefix. -/
def isPrefixChar (c : Char) : Bool := isWord c || c == '.' || c == '-'

/-- What follows an optional prefix: the two ways to read a name. -/
def afterPrefix (s : List Char) : List (List Char) :=
  match s.takeWhile isPrefixChar, s.dropWhile isPrefixChar with
  | _ :: _, ':' :: rest => [rest, s]
  | _, _ => [s]

/-- What follows an opening bracket and one of the names at the head of a text. -/
def afterName? (names : List String) : List Char → Option (List Char)
  | '<' :: rest =>
    (afterPrefix rest).findSome? fun s => names.findSome? fun name => after? name.toList s
  | _ => none

/-- The first of the values that the suffixes of a text have. -/
def firstIn? {α : Type} (f : List Char → Option α) : List Char → Option α
  | [] => f []
  | c :: rest =>
    match f (c :: rest) with
    | some x => some x
    | none => firstIn? f rest

/-- Whether a `Fault` element starts at the head of a text. -/
def startsFault (s : List Char) : Bool :=
  ((afterName? ["Fault"] s).bind (·.head?)).any fun c => isBlank c || c == '/' || c == '>'

/-- Whether a text has a `Fault` element. -/
def hasFault (body : List Char) : Bool :=
  (firstIn? (fun s => if startsFault s then some () else none) body).isSome

/-- The text of the element at the head of a text, up to the next closing tag. -/
def reasonAt? (s : List Char) : Option (List Char) := do
  let tag ← afterName? ["faultstring", "Text"] s
  let (_, content) ← breakAt? ['>'] tag
  let (text, _) ← breakAt? ['<', '/'] content
  return text

/-- The reason of a fault, nothing if it gives none. -/
def reason (body : List Char) : List Char := ((firstIn? reasonAt? body).map trim).getD []

end ApiDouble.Replay.Soap

/-! ## Runners -/

namespace ApiDouble.Replay

open Text

/-- What a test says about the calls of one operation: a method and a SOAP action to use. -/
structure Invocation where
  method : Option String := none
  soapAction : Option String := none
deriving DecidableEq, Inhabited

namespace Invocation

def ofMethod (method : String) : Invocation := { method := some (upper method) }

def ofSoapAction (action : String) : Invocation := { soapAction := some action }

end Invocation

/-- The way to replay requests over one protocol. -/
structure Runner where
  kind : RunnerKind
  target : (endpoint : String) → Operation → Message → String
  prepare : Operation → Invocation → Call → Call
  classify : Capture → Verdict
  describe : Capture → String

/-! ### Verdicts and messages -/

/-- A status from 200 up to 399 is a success. -/
def verdictOfStatus (c : Capture) : Verdict :=
  if 200 ≤ c.status ∧ c.status < 400 then .success else .failure

def describeStatus (c : Capture) : String := toString c.status

/-! ### HTTP -/

/-- The endpoint and the path of the operation, with one slash between them. -/
def pathTarget (endpoint : String) (op : Operation) (request : Message) : String :=
  let path := (Uri.instantiate op.pathPattern request.parameters).toList
  let base := (endpoint.toList.reverse.dropWhile (· == '/')).reverse
  String.ofList
    (if path.head? = some '/' ∨ path.head? = some '?' then base ++ path else base ++ '/' :: path)

namespace Runner

/-- The runner for services like REST. -/
def http : Runner where
  kind := .http
  target := pathTarget
  prepare _ invocation call := { call with method := invocation.method.getD call.method }
  classify := verdictOfStatus
  describe := describeStatus

end Runner

/-! ### SOAP -/

namespace Soap

/-- The call as a SOAP call: a POST with exactly one action, the path of the operation if no other
is given, and XML if nothing else is said. -/
def prepare (op : Operation) (invocation : Invocation) (call : Call) : Call :=
  let action := "\"" ++ invocation.soapAction.getD op.pathPattern ++ "\""
  let headers := call.headers.filter (!sameName ·.name "SOAPAction") ++
    [⟨"SOAPAction", .ofList [action]⟩]
  { call with
    method := "POST"
    headers :=
      if headers.any (sameName ·.name "content-type") then headers
      else headers ++ [⟨"Content-Type", .ofList ["text/xml;charset=UTF-8"]⟩] }

def classify (c : Capture) : Verdict :=
  if hasFault c.body.toList then .failure else verdictOfStatus c

def describe (c : Capture) : String :=
  if hasFault c.body.toList then
    "SOAP Fault (" ++ toString c.status ++ "): " ++ String.ofList (reason c.body.toList)
  else describeStatus c

end Soap

namespace Runner

/-- The runner for SOAP services. Calls go to the endpoint as it is. -/
def soap : Runner where
  kind := .soapHttp
  target endpoint _ _ := endpoint
  prepare := Soap.prepare
  classify := Soap.classify
  describe := Soap.describe

/-- The runner for a kind of service, none for events. -/
def ofService? : ServiceKind → Option Runner
  | .rest | .genericRest | .graphql => some http
  | .soap => some soap
  | .event | .genericEvent => none

end Runner

/-! ### Calls and outcomes -/

/-- What the requests of one operation are replayed with. -/
structure Plan where
  runner : Runner
  operation : Operation
  overrides : HeaderOverrides
  endpoint : String
  invocation : Invocation

namespace Plan

/-- The headers of a request: the recorded ones, overridden by those of the test, and the content
type of the body if none is among them. -/
def headers (p : Plan) (request : Message) : List Header :=
  let merged := Header.merge
    [request.headers, p.overrides.globals, p.overrides.of p.operation.name]
  match request.mediaType, request.content with
  | some mediaType, some _ =>
    if (Header.find? merged "content-type").isSome then merged
    else merged ++ [⟨"Content-Type", .ofList [mediaType]⟩]
  | _, _ => merged

/-- The call that replays a request. -/
def call (p : Plan) (request : Message) : Call :=
  p.runner.prepare p.operation p.invocation
    { method := p.operation.method
      url := p.runner.target p.endpoint p.operation request
      headers := p.headers request
      body := request.content }

/-- The outcome of a request, which is recorded with the headers that were sent. -/
def outcome (p : Plan) (request : Message) (reply : Reply) (elapsed : UInt64) : Outcome :=
  let sent := { request with headers := (p.call request).headers }
  match reply with
  | .ok c => {
      verdict := p.runner.classify c
      elapsed
      message := some (p.runner.describe c)
      request := sent
      response := some {
        name := request.name
        status := some (toString c.status)
        content := some c.body
        mediaType := c.mediaType
        headers := c.headers } }
  | .error e => {
      verdict := .failure
      elapsed
      message := some e.message
      request := sent
      response := none }

end Plan

end ApiDouble.Replay
