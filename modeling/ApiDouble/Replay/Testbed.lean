import ApiDouble.Collection.SortedMap
import ApiDouble.Contract.Service
import ApiDouble.Replay.Batch

/-!
# Executing tests

A test replays the requests of some operations of a service, one batch for each operation. The
testbed keeps the report of every test, which can be looked at while the test runs: the case of an
operation is recorded as soon as its batch is done.

A test can be cancelled by its id while it runs. Every run has a token of its own, so that
cancelling an id never reaches an older run of it. A token once cancelled stays so.

Several tests may run at once, and the batches of one test may, too. What can happen is said in
small steps: a test begins (`begin`), a batch of it moves (`writeBatch?`), a case is recorded
(`record?`), the test ends (`finish?`), and a test is cancelled (`cancel`). `launch` takes these
steps for one test from its beginning to its end. `takeUp` goes on with a test that has begun, once
through its batches, and may be repeated until the replies that it waits for are there.
-/

namespace ApiDouble.Replay

/-! ## Tokens -/

/-- What tells the runs of tests apart. -/
structure Token where
  number : Nat
deriving DecidableEq, Inhabited, Repr

/-- The tokens given out, those cancelled, and those of the tests that run. -/
structure Tokens where
  issued : Nat := 0
  cancelled : List Token := []
  running : SortedMap String Token := .empty

namespace Tokens

/-- A new token. -/
def issue (r : Tokens) : Token × Tokens := (⟨r.issued⟩, { r with issued := r.issued + 1 })

/-- A new token for an id, which an older one no longer has. -/
def register (r : Tokens) (id : String) : Token × Tokens :=
  let (t, r) := r.issue
  (t, { r with running := r.running.insert id t })

def isCancelled (r : Tokens) (t : Token) : Bool := r.cancelled.contains t

def cancelToken (r : Tokens) (t : Token) : Tokens := { r with cancelled := t :: r.cancelled }

/-- Cancels the token of an id and forgets it. Says whether there was one. -/
def cancel (r : Tokens) (id : String) : Bool × Tokens :=
  match r.running.get? id with
  | some t => (true, { r.cancelToken t with running := r.running.erase id })
  | none => (false, r)

/-- Forgets the token of an id. -/
def remove (r : Tokens) (id : String) : Tokens := { r with running := r.running.erase id }

end Tokens

/-! ## Tests -/

/-- What to test. Without any names all operations are tested. -/
structure TestRequest where
  id : String
  service : ServiceKey
  endpoint : String
  operations : List String
  overrides : HeaderOverrides
deriving DecidableEq, Inhabited

/-- Why a test does not begin. -/
inductive LaunchError
  | unsupported (kind : ServiceKind)
  | unknownService (key : ServiceKey)
  | unknownOperation (name : String)
  | alreadyRunning (id : String)
deriving DecidableEq, Repr

def kindTitle : ServiceKind → String
  | .rest => "Rest"
  | .soap => "Soap"
  | .event => "Event"
  | .graphql => "Graphql"
  | .genericRest => "GenericRest"
  | .genericEvent => "GenericEvent"

def LaunchError.message : LaunchError → String
  | unsupported kind => "no runner for " ++ kindTitle kind ++ " services"
  | unknownService key => "unknown service " ++ key.text
  | unknownOperation name => "unknown operation '" ++ name ++ "'"
  | alreadyRunning id => "test '" ++ id ++ "' is already running"

/-- A test that runs: its batches, and which of them are recorded in its report. -/
structure Launch where
  id : String
  token : Token
  batches : List Batch
  recorded : List Bool

/-- The operations of a test in the order in which they were asked for. -/
def Launch.operations (l : Launch) : List Operation := l.batches.map (·.plan.operation)

/-- The reports of all tests, the tokens, and the tests that run. -/
structure Testbed where
  reports : SortedMap String TestReport := .empty
  tokens : Tokens := {}
  launches : List Launch := []

/-! ### Beginning -/

/-- The operations with the given names, all operations if there are none. -/
def selection (s : Service) (names : List String) : Except LaunchError (List Operation) :=
  if names.isEmpty then .ok s.operations
  else names.mapM fun name =>
    match s.operation? name with
    | some op => .ok op
    | none => .error (.unknownOperation name)

/-- The requests that an operation recorded. -/
def recordedRequests (op : Operation) : List Message := op.exchanges.filterMap Exchange.request?

/-- A test that is ready to begin: its first report and its batches. -/
structure Prepared where
  report : TestReport
  batches : List Batch

/-- Prepares a test of a published service. -/
def prepare (catalogue : Catalogue) (t : TestRequest) : Except LaunchError Prepared := do
  let some service := catalogue.get? t.service | .error (.unknownService t.service)
  let some runner := Runner.ofService? service.kind | .error (.unsupported service.kind)
  let operations ← selection service t.operations
  return {
    report :=
      { TestReport.begin t.id t.service t.endpoint runner.kind with overrides := t.overrides }
    batches := operations.map fun operation => {
      plan := {
        runner, operation, overrides := t.overrides, endpoint := t.endpoint, invocation := {} }
      waiting := recordedRequests operation } }

namespace Testbed

/-- Whether a test with an id runs. -/
def isRunning (x : Testbed) (id : String) : Bool := (x.reports.get? id).any (·.inProgress)

/-- Begins a test, unless one with its id runs. -/
def begin (catalogue : Catalogue) (t : TestRequest) (x : Testbed) :
    Except LaunchError (Token × Testbed) := do
  let p ← prepare catalogue t
  if x.isRunning t.id then .error (.alreadyRunning t.id)
  else
    let (token, tokens) := x.tokens.register t.id
    return (token, {
      reports := x.reports.insert t.id p.report
      tokens
      launches := x.launches ++
        [{ id := t.id, token, batches := p.batches, recorded := p.batches.map fun _ => false }] })

/-! ### Moving -/

/-- The test with a token, if it runs. -/
def launch? (x : Testbed) (token : Token) : Option Launch := x.launches.find? (·.token == token)

def batch? (x : Testbed) (token : Token) (i : Nat) : Option Batch :=
  (x.launch? token).bind (·.batches[i]?)

/-- The testbed with the test of a token changed. -/
def modifyLaunch (x : Testbed) (token : Token) (f : Launch → Launch) : Testbed :=
  { x with launches := x.launches.map fun l => if l.token = token then f l else l }

def writeBatch (token : Token) (i : Nat) (b : Batch) (x : Testbed) : Testbed :=
  x.modifyLaunch token fun l => { l with batches := l.batches.set i b }

/-- The case of a batch that is done. -/
def caseOf (b : Batch) : CaseReport :=
  .ofSteps b.plan.operation.name (b.outcomes.map Outcome.step)

/-- Records the case of a batch that is done, once. -/
def record? (token : Token) (i : Nat) (x : Testbed) : Option Testbed := do
  let l ← x.launch? token
  let b ← l.batches[i]?
  if b.isDone ∧ l.recorded[i]? = some false then
    let report ← x.reports.get? l.id
    let report := { report with cases := report.cases ++ [caseOf b] }
    some ({ x with reports := x.reports.insert l.id report }.modifyLaunch token fun l =>
      { l with recorded := l.recorded.set i true })
  else none

/-! ### Ending -/

/-- Cases in the order of the operations, the first place of a name counting. -/
def orderCases (operations : List Operation) (cases : List CaseReport) : List CaseReport :=
  let place (c : CaseReport) : Nat := operations.findIdx (·.name == c.operation)
  cases.mergeSort fun a b => decide (place a ≤ place b)

/-- Ends a test whose cases are all recorded. Gives its report. -/
def finish? (token : Token) (elapsed : UInt64) (x : Testbed) : Option (TestReport × Testbed) := do
  let l ← x.launch? token
  let report ← x.reports.get? l.id
  if l.recorded.all id then
    let report := { report with cases := orderCases l.operations report.cases }.complete elapsed
    some (report, {
      reports := x.reports.insert l.id report
      tokens := x.tokens.remove l.id
      launches := x.launches.filter (·.token ≠ token) })
  else none

/-! ### Looking and cancelling -/

/-- The report of a test, as far as it is there. -/
def snapshot (x : Testbed) (id : String) : Option TestReport := x.reports.get? id

/-- Cancels a test. Says whether it runs. -/
def cancel (x : Testbed) (id : String) : Bool × Testbed :=
  let (found, tokens) := x.tokens.cancel id
  (found, { x with tokens })

/-! ### From beginning to end -/

variable {m : Type → Type} [Monad m]

/-- The place of a batch in the testbed. -/
def seat (token : Token) (i : Nat) (b : Batch) : Seat (StateT Testbed m) where
  isCancelled := return (← get).tokens.isCancelled token
  read := return ((← get).batch? token i).getD b
  write b := modify (writeBatch token i b)

/-- Runs the batches of a test in their order and records each that is done. A batch that is stuck
holds up those after it, unless batches run side by side. Gives the ones that are stuck. -/
def runBatches (transport : Transport (StateT Testbed m)) (parallel : Bool) (token : Token) :
    Nat → List Batch → StateT Testbed m (List (Nat × Batch))
  | _, [] => return []
  | i, b :: rest => do
    if ← (seat token i b).run transport b.waiting.length then
      modify fun x => (x.record? token i).getD x
      runBatches transport parallel token (i + 1) rest
    else if parallel then
      return (i, b) :: (← runBatches transport parallel token (i + 1) rest)
    else return [(i, b)]

/-- Moves on the batches that are stuck, which they can once their test is cancelled. -/
def resumeBatches (transport : Transport (StateT Testbed m)) (token : Token) :
    List (Nat × Batch) → StateT Testbed m Unit
  | [] => return ()
  | (i, b) :: rest => do
    if ← (seat token i b).resume transport then
      modify fun x => (x.record? token i).getD x
    resumeBatches transport token rest

/-- Runs a test from its beginning to its end, the clock counting milliseconds. No report stands for
a test that waits for ever. -/
def launch (clock : StateT Testbed m UInt64) (transport : Transport (StateT Testbed m))
    (parallel : Bool) (catalogue : Catalogue) (t : TestRequest) :
    StateT Testbed m (Except LaunchError (Option TestReport)) := do
  match (← get).begin catalogue t with
  | .error e => return .error e
  | .ok (token, x) =>
    set x
    let started ← clock
    let batches := ((x.launch? token).map (·.batches)).getD []
    resumeBatches transport token (← runBatches transport parallel token 0 batches)
    let ended ← clock
    match (← get).finish? token (ended - started) with
    | some (report, x) =>
      set x
      return .ok (some report)
    | none => return .ok none

/-! ### Taking up again -/

/-- Goes once through the batches of a test, each of which moves on as far as it can, and records
those that are done. A batch that is stuck holds up those after it, unless batches run side by side.
-/
def pollBatches (transport late : Transport (StateT Testbed m)) (parallel : Bool) (token : Token) :
    Nat → List Batch → StateT Testbed m Unit
  | _, [] => return ()
  | i, b :: rest => do
    if ← (seat token i b).poll transport late then
      modify fun x => (x.record? token i).getD x
      pollBatches transport late parallel token (i + 1) rest
    else if parallel then pollBatches transport late parallel token (i + 1) rest
    else return ()

/-- Takes up a test that has begun and may wait for late replies. Gives its report if it comes to
its end this time. -/
def takeUp (transport late : Transport (StateT Testbed m)) (parallel : Bool) (token : Token)
    (elapsed : UInt64) : StateT Testbed m (Option TestReport) := do
  let batches := (((← get).launch? token).map (·.batches)).getD []
  pollBatches transport late parallel token 0 batches
  match (← get).finish? token elapsed with
  | some (report, x) =>
    set x
    return some report
  | none => return none

end Testbed

end ApiDouble.Replay
