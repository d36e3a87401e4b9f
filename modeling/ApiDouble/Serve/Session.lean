import ApiDouble.Contract.Service
import ApiDouble.Dispatch.Choice
import ApiDouble.Template.Expression
import ApiDouble.Text.Characters

/-!
# Serving

A service answers a request with the exchange that the right operation chooses, its headers and its
body rendered for the request. An operation whose literal path is asked for goes before one whose
pattern fits, wherever they stand.

A server answers requests from a catalogue and counts them. Serving a request has three steps: it is
counted in, the service is looked up, and the outcome is counted. Other requests may go through
theirs in between.
-/

namespace ApiDouble.Serve

open Text Template

/-! ## Answers -/

/-- Why a request is not answered. -/
inductive Miss
  | unknownService (key : ServiceKey)
  | noOperation (method path : String)
  | noExchange (operation : String)
deriving DecidableEq

def Miss.message : Miss → String
  | unknownService key => "no service " ++ key.text
  | noOperation method path => "no operation for " ++ method ++ " " ++ path
  | noExchange operation => "no exchange of " ++ operation ++ " matches"

/-- The answer to a request. `fallback` says that the exchange of that name stood in. -/
structure Answer where
  status : Nat
  headers : List Header
  body : Option String
  mediaType : Option String
  exchange : String
  fallback : Bool
deriving DecidableEq

/-! ### The operation -/

/-- Whether a path is one of the literal paths of an operation. -/
def hasPath (op : Operation) (path : String) : Bool :=
  op.resourcePaths.contains path ||
    (!Uri.hasVariables op.pathPattern && op.pathPattern == path)

/-- The operations of a service for a method. -/
def operationsFor (s : Service) (method : String) : List Operation :=
  s.operations.filter fun op => sameName op.method method

/-- The operation that a request asks for, and the variables of the path. -/
def operationFor? (s : Service) (r : Request) : Option (Operation × SortedMap String String) :=
  match (operationsFor s r.method).find? (hasPath · r.path) with
  | some op => some (op, .empty)
  | none => (operationsFor s r.method).findSome? fun op =>
      (Uri.extract? op.pathPattern r.path).map (op, ·)

/-! ### The answer -/

/-- What templates see of a request: the arguments of the query join the variables of the path. -/
def view (r : Request) (found : SortedMap String String) : RequestView where
  body := r.body
  path := r.path
  method := r.method
  headers := .ofList (r.headers.map fun h => (h.name, h.joined))
  params := r.query.foldl (fun m p => m.insertNew p.name p.value) found

/-- The status that a response records; 200 if that is no number of 16 bits. -/
def statusOf (r : Response) : Nat :=
  ((r.status.bind fun s => unsigned? (trim s.toList)).filter (· < UInt16.size)).getD 200

variable {m : Type → Type} [Monad m]

def renderHeader (fs : Functions m) (ctx : Context) (h : Header) : m Header := do
  return ⟨h.name, .ofList (← h.values.toList.mapM (render fs ctx))⟩

/-- The answer of an exchange. -/
def answer (fs : Functions m) (ctx : Context) (e : Exchange) (fallback : Bool) : m Answer := do
  let (status, headers, content, mediaType) :=
    match e with
    | .requestResponse _ r => (statusOf r, r.headers, r.content, r.mediaType)
    | .event message => (200, message.headers, message.content, message.mediaType)
  return {
    status
    headers := ← headers.mapM (renderHeader fs ctx)
    body := ← content.mapM (render fs ctx)
    mediaType
    exchange := e.name
    fallback }

/-- The answer of a service. -/
def answerFrom (fs : Functions m) (s : Service) (r : Request) : m (Except Miss Answer) := do
  match operationFor? s r with
  | none => return .error (.noOperation r.method r.path)
  | some (op, found) =>
    let ctx := Context.ofRequest (view r found)
    match Dispatch.choose op r with
    | .matched e => return .ok (← answer fs ctx e false)
    | .fallback e => return .ok (← answer fs ctx e true)
    | .miss => return .error (.noExchange op.name)

/-! ## Sessions -/

/-- How many requests came in, were answered, and were not. -/
structure Counters where
  total : UInt64 := 0
  matched : UInt64 := 0
  unmatched : UInt64 := 0
deriving DecidableEq

/-- Counts a request in. -/
def Counters.start (c : Counters) : Counters := { c with total := c.total + 1 }

/-- Counts how a request went. -/
def Counters.finish (c : Counters) (outcome : Except Miss Answer) : Counters :=
  match outcome with
  | .ok _ => { c with matched := c.matched + 1 }
  | .error _ => { c with unmatched := c.unmatched + 1 }

/-- The answer of the service that was found under a key. -/
def outcome (fs : Template.Functions m) (key : ServiceKey) (found : Option Service) (r : Request) :
    m (Except Miss Answer) :=
  match found with
  | some s => answerFrom fs s r
  | none => return .error (.unknownService key)

/-- A catalogue being served. -/
structure Session where
  catalogue : Catalogue := .empty
  counters : Counters := {}

/-- Serves a request from start to end. -/
def Session.serve (fs : Template.Functions m) (key : ServiceKey) (r : Request) (s : Session) :
    m (Except Miss Answer × Session) := do
  let counters := s.counters.start
  let result ← outcome fs key (s.catalogue.get? key) r
  return (result, { s with counters := counters.finish result })

end ApiDouble.Serve
