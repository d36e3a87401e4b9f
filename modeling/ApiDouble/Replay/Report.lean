import ApiDouble.Contract.Service

/-!
# Test reports

Replaying the requests of an operation gives an outcome for each of them (`Outcome`), summed up per
operation (`CaseReport`) and per test (`TestReport`). A case or a test without any step is no
success.
-/

namespace ApiDouble

/-- Which family of runners a test uses. -/
inductive RunnerKind
  | http | soapHttp
deriving DecidableEq, Repr, Inhabited

def RunnerKind.all : List RunnerKind := [.http, .soapHttp]

def RunnerKind.word : RunnerKind → String
  | .http => "HTTP"
  | .soapHttp => "SOAP_HTTP"

instance : Written RunnerKind :=
  ⟨fun k => .string k.word, Written.choice? RunnerKind.all RunnerKind.word⟩

/-- How a replayed request ended. -/
inductive Verdict
  | success | failure | skipped
deriving DecidableEq, Repr, Inhabited

def Verdict.all : List Verdict := [.success, .failure, .skipped]

def Verdict.word : Verdict → String
  | .success => "SUCCESS"
  | .failure => "FAILURE"
  | .skipped => "SKIPPED"

instance : Written Verdict := ⟨fun v => .string v.word, Written.choice? Verdict.all Verdict.word⟩

/-- The outcome of one replayed request: the request as it was sent and the response captured. -/
structure Outcome where
  verdict : Verdict
  elapsed : UInt64
  message : Option String
  request : Message
  response : Option Response
deriving DecidableEq, Inhabited

/-- The outcome of a request that was not sent because the test was cancelled. -/
def Outcome.skipped (request : Message) : Outcome :=
  ⟨.skipped, 0, some "Skipped: test cancelled", request, none⟩

def Outcome.isSuccess (o : Outcome) : Bool := o.verdict == .success

instance : Written Outcome where
  write o := .object ([("code", Written.write o.verdict), ("elapsedMs", Written.write o.elapsed)] ++
    optionalMember "message" o.message ++ [("request", Written.write o.request)] ++
    optionalMember "response" o.response)
  read? d := do
    let f ← Fields.ofDocument? ["code", "elapsedMs", "message", "request", "response"] d
    return {
      verdict := ← f.required "code"
      elapsed := ← f.required "elapsedMs"
      message := ← f.optional "message"
      request := ← f.required "request"
      response := ← f.optional "response" }

/-- One step of a case: an outcome without what was sent and received. -/
structure StepReport where
  requestName : String
  success : Bool
  skipped : Bool
  elapsed : UInt64
  message : Option String
deriving DecidableEq, Inhabited

def Outcome.step (o : Outcome) : StepReport :=
  ⟨o.request.name, o.verdict == .success, o.verdict == .skipped, o.elapsed, o.message⟩

instance : Written StepReport where
  write s := .object ([("requestName", .string s.requestName), ("success", .bool s.success),
    ("skipped", .bool s.skipped), ("elapsedMs", Written.write s.elapsed)] ++
    optionalMember "message" s.message)
  read? d := do
    let f ← Fields.ofDocument? ["requestName", "success", "skipped", "elapsedMs", "message"] d
    return {
      requestName := ← f.required "requestName"
      success := ← f.required "success"
      skipped := ← f.orDefault "skipped" false
      elapsed := ← f.required "elapsedMs"
      message := ← f.optional "message" }

/-- The report of one operation. -/
structure CaseReport where
  operation : String
  success : Bool
  elapsed : UInt64
  steps : List StepReport
deriving DecidableEq, Inhabited

/-- A case succeeds if it has a step and every step does. -/
def CaseReport.ofSteps (operation : String) (steps : List StepReport) : CaseReport where
  operation := operation
  success := !steps.isEmpty && steps.all (·.success)
  elapsed := (steps.map (·.elapsed)).foldl (· + ·) 0
  steps := steps

instance : Written CaseReport where
  write c := .object [("operationName", .string c.operation), ("success", .bool c.success),
    ("elapsedMs", Written.write c.elapsed), ("steps", Written.write c.steps)]
  read? d := do
    let f ← Fields.ofDocument? ["operationName", "success", "elapsedMs", "steps"] d
    return {
      operation := ← f.required "operationName"
      success := ← f.required "success"
      elapsed := ← f.required "elapsedMs"
      steps := ← f.orDefault "steps" [] }

/-- Headers that a test sends in the place of the recorded ones: for all operations, and by the name
of an operation. -/
structure HeaderOverrides where
  globals : List Header
  operations : SortedMap String (List Header)
deriving DecidableEq, Inhabited

def HeaderOverrides.none : HeaderOverrides := ⟨[], .empty⟩

def HeaderOverrides.of (h : HeaderOverrides) (operation : String) : List Header :=
  (h.operations.get? operation).getD []

instance : Written HeaderOverrides where
  write h := .object [("globals", Written.write h.globals),
    ("operations", Written.write h.operations)]
  read? d := do
    let f ← Fields.ofDocument? ["globals", "operations"] d
    return {
      globals := ← f.orDefault "globals" []
      operations := ← f.orDefault "operations" .empty }

/-- The report of a test of a service. -/
structure TestReport where
  id : String
  service : ServiceKey
  endpoint : String
  runner : RunnerKind
  success : Bool
  inProgress : Bool
  elapsed : UInt64
  overrides : HeaderOverrides
  cases : List CaseReport
deriving DecidableEq, Inhabited

namespace TestReport

/-- The report of a test that has just begun. -/
def begin (id : String) (service : ServiceKey) (endpoint : String) (runner : RunnerKind) :
    TestReport :=
  ⟨id, service, endpoint, runner, false, true, 0, .none, []⟩

/-- The report once every case is there. -/
def complete (r : TestReport) (elapsed : UInt64) : TestReport :=
  { r with success := !r.cases.isEmpty && r.cases.all (·.success), elapsed, inProgress := false }

end TestReport

instance : Written TestReport where
  write r := .object [("id", .string r.id), ("service", Written.write r.service),
    ("testEndpoint", .string r.endpoint), ("runnerType", Written.write r.runner),
    ("success", .bool r.success), ("inProgress", .bool r.inProgress),
    ("elapsedMs", Written.write r.elapsed), ("operationsHeaders", Written.write r.overrides),
    ("testCaseResults", Written.write r.cases)]
  read? d := do
    let f ← Fields.ofDocument? ["id", "service", "testEndpoint", "runnerType", "success",
      "inProgress", "elapsedMs", "operationsHeaders", "testCaseResults"] d
    return {
      id := ← f.required "id"
      service := ← f.required "service"
      endpoint := ← f.required "testEndpoint"
      runner := ← f.required "runnerType"
      success := ← f.required "success"
      inProgress := ← f.required "inProgress"
      elapsed := ← f.required "elapsedMs"
      overrides := ← f.orDefault "operationsHeaders" .none
      cases := ← f.orDefault "testCaseResults" [] }

end ApiDouble
