import ApiDouble.Contract.Exchange
import ApiDouble.Contract.Service
import ApiDouble.Document.Basic
import ApiDouble.Document.Json.Printer
import ApiDouble.Document.Path.Reader
import ApiDouble.Text.Case
import ApiDouble.Uri.Pattern
import ApiDouble.Uri.Query

/-!
# Choosing an exchange

A request comes in with its target divided into the path and the arguments of the query. What tells
the exchanges of an operation apart is put into one text, the criteria, by the same rule for a
recorded exchange and for a request; one that lacks something the rule asks for has none.

The first exchange whose criteria are those of the request answers it. If there is none, the
fallback of the operation does. An operation without a dispatcher always answers with its first
exchange.
-/

namespace ApiDouble

open Text

/-! ## Requests -/

/-- A request to be answered. -/
structure Request where
  method : String
  path : String
  query : List Parameter
  headers : List Header
  body : Option String
deriving DecidableEq, Inhabited

namespace Request

/-- A request without headers and body. The first question mark of the target ends its path. -/
def ofTarget (method target : String) : Request :=
  let (path, query) := (splitOnce? '?' target.toList).getD (target.toList, [])
  { method := upper method
    path := String.ofList path
    query := Uri.parseQuery query
    headers := []
    body := none }

/-- The request with one more header, its values separated by commas. -/
def addHeader (r : Request) (name csv : String) : Request :=
  { r with headers := r.headers ++ [.ofCsv name csv] }

end Request

end ApiDouble

/-! ## Criteria -/

namespace ApiDouble.Dispatch

open Text

/-- What criteria are made of. Of several parameters of a name the first counts. -/
structure Input where
  params : SortedMap String String
  headers : List Header
  body : Option String

/-- The parameters of a list by name, the first of a name. -/
def firstOfEach (ps : List Parameter) : SortedMap String String :=
  .ofListFirst (ps.map fun p => (p.name, p.value))

/-- What an exchange recorded. -/
def Input.ofExchange (e : Exchange) : Input :=
  ⟨firstOfEach e.inbound.parameters, e.inbound.headers, e.inbound.content⟩

/-- The parameters of a request: the variables of the path, then the arguments of the query. -/
def paramsOf (pattern : String) (r : Request) : SortedMap String String :=
  let found := (Uri.extract? pattern r.path).getD .empty
  .ofListFirst (found.toList ++ r.query.map fun p => (p.name, p.value))

/-- What a request brings, the path read by a pattern. -/
def Input.ofRequest (pattern : String) (r : Request) : Input :=
  ⟨paramsOf pattern r, r.headers, r.body⟩

/-- The names in a rule, which are separated by `&&`. -/
def ruleNames (rule : Option String) : List String :=
  (((splitAt ['&', '&'] (rule.getD "").toList).map trim).filter (!·.isEmpty)).map String.ofList

def sorted (names : List String) : List String := names.mergeSort fun a b => decide (a ≤ b)

/-- `/a=1/b=2`, in the order of the names. -/
def pathText? (names : List String) (params : SortedMap String String) : Option (List Char) := do
  let parts ← (sorted names).mapM fun name => do
    let value ← params.get? name
    return '/' :: name.toList ++ '=' :: Uri.encodePath value.toList
  return parts.flatten

/-- `?a=1&b=2`, in the order of the names, of which there has to be one. -/
def argumentText? (names : List String) (params : SortedMap String String) :
    Option (List Char) := do
  let arguments ← (sorted names).mapM fun name => (params.get? name).map (Parameter.mk name)
  if arguments.isEmpty then none else return '?' :: Uri.queryText arguments

/-- The two texts after one another; the second one is empty if there are no names for it. -/
def addressText? (pathNames queryNames : List String) (params : SortedMap String String) :
    Option (List Char) := do
  let path ← pathText? pathNames params
  if queryNames.isEmpty then return path
  return path ++ (← argumentText? queryNames params)

/-- What a rule finds in a document: a path if it starts with `$`, a pointer if not. -/
def place? (rule : List Char) (d : Document) : Option Document :=
  if rule.head? = some '$' then (Document.Path.parse? rule).bind fun path => (path.find d).head?
  else d.at? rule

/-- The text of what a rule finds in a JSON body. -/
def bodyText? (rule body : String) : Option String := do
  let d ← Json.parse? body.toList
  let found ← place? (trim rule.toList) d
  if found.isNull then none else return found.text

/-- `?name=v1,v2&other=v`, in the order of the rule, names in lower case. -/
def headerText? (names : List String) (headers : List Header) : Option (List Char) := do
  let parts ← names.mapM fun name => do
    let header ← Header.find? headers name
    return asciiLower name.toList ++ '=' :: header.joined.toList
  if parts.isEmpty then none else return '?' :: ['&'].intercalate parts

/-- The criteria of an exchange or a request for an operation. -/
def criteria? (op : Operation) (input : Input) : Option String :=
  let rule := ruleNames op.rule
  let inPath := Uri.variableNames op.pathPattern
  match op.dispatcher with
  | .none => none
  | .uriParts =>
    (pathText? (if rule.isEmpty then inPath else rule) input.params).map String.ofList
  | .queryArgs =>
    let names := if rule.isEmpty then input.params.keys else rule
    (argumentText? names input.params).map String.ofList
  | .uriParams =>
    let (path, query) :=
      if rule.isEmpty then (inPath, input.params.keys.filter (!inPath.contains ·))
      else rule.partition inPath.contains
    (addressText? path query input.params).map String.ofList
  | .jsonBody => do bodyText? (← op.rule) (← input.body)
  | .queryHeader => (headerText? rule input.headers).map String.ofList

/-! ## Choices -/

/-- Which exchange answers a request. -/
inductive Choice
  | matched (e : Exchange)
  | fallback (e : Exchange)
  | miss
deriving DecidableEq

def Choice.exchange? : Choice → Option Exchange
  | matched e | fallback e => some e
  | miss => none

/-- The first exchange with the criteria of a request. -/
def matching? (op : Operation) (r : Request) : Option Exchange := do
  let wanted ← criteria? op (.ofRequest op.pathPattern r)
  op.exchanges.find? fun e => criteria? op (.ofExchange e) == some wanted

/-- The exchange that an operation names as its fallback. -/
def fallback? (op : Operation) : Option Exchange := op.fallback.bind op.exchange?

/-- The exchange of an operation that answers a request. -/
def choose (op : Operation) (r : Request) : Choice :=
  if op.dispatcher = .none then
    match op.exchanges.head? with
    | some e => .matched e
    | none => .miss
  else
    match matching? op r, fallback? op with
    | some e, _ => .matched e
    | none, some e => .fallback e
    | none, none => .miss

end ApiDouble.Dispatch
