import ApiDouble.Proofs.Replay.Testbed

/-!
# Reports

What the report of a test shows after any run of the testbed: while the test is active, the cases of
the operations that have finished (`Active`); once it has ended, one case for every operation, in
the order of the operations (`Ended`).

A case that is recorded has one step for each recorded request (`IsCaseOf`), whether the request was
answered or skipped.

Main result: `reports_of_run`.
-/

namespace ApiDouble.Replay.Testbed

/-! ## Cases -/

/-- The recorded requests of an operation are those of its exchanges that have a response. -/
theorem mem_recordedRequests_iff {op : Operation} {request : Message} :
    request ∈ recordedRequests op ↔
      ∃ response, .requestResponse request response ∈ op.exchanges := by
  rw [recordedRequests, List.mem_filterMap]
  constructor
  · rintro ⟨e, he, hrequest⟩
    cases e with
    | requestResponse request' response =>
      cases hrequest
      exact ⟨response, he⟩
    | event message => cases hrequest
  · rintro ⟨response, he⟩
    exact ⟨_, he, rfl⟩

/-- A case with one step for every recorded request of an operation, in their order. It succeeds if
it has a step and every step does. -/
structure IsCaseOf (op : Operation) (c : CaseReport) : Prop where
  operation : c.operation = op.name
  steps : c.steps.map (·.requestName) = (recordedRequests op).map (·.name)
  success : c.success = true ↔ c.steps ≠ [] ∧ ∀ step ∈ c.steps, step.success = true

variable {trace : List Action} {x x' : Testbed} {l : Launch} {s : Setup} {token : Token} {b : Batch}

theorem name_outcome (p : Plan) (a : Answered) : (a.outcome p).request.name = a.request.name := by
  obtain ⟨request, reply, elapsed⟩ := a
  cases reply <;> rfl

theorem names_of_concluded {p : Plan} {requests skipped : List Message} {t : Moment}
    {answered : List Answered} (h : Concluded p requests t answered skipped) :
    t.batch.outcomes.map (·.request.name) = requests.map (·.name) := by
  have hanswered : (answered.map (·.outcome p)).map (·.request.name) =
      (answered.map (·.request)).map (·.name) := by
    rw [List.map_map, List.map_map]
    exact List.map_congr_left fun a _ => name_outcome p a
  have hskipped : (skipped.map Outcome.skipped).map (·.request.name) = skipped.map (·.name) := by
    rw [List.map_map]
    rfl
  rw [h.outcomes, h.requests, List.map_append, List.map_append, hanswered, hskipped]

theorem Follows.concluded (h : Follows trace x l s) {i : Nat} (hb : l.batches[i]? = some b)
    (hdone : b.isDone = true) : ∃ answered skipped, Concluded b.plan
      (recordedRequests b.plan.operation)
      ⟨b, x.tokens.isCancelled l.token, eventsOf l.token i trace⟩ answered skipped :=
  (course_of_steps (h.steps i b hb)).concluded hdone

theorem Follows.isCaseOf (h : Follows trace x l s) (hb : b ∈ l.finished) :
    IsCaseOf b.plan.operation (caseOf b) := by
  obtain ⟨i, hi, hrecorded⟩ := mem_marked hb
  obtain ⟨answered, skipped, hconcluded⟩ := h.concluded hi (h.done i b hi hrecorded)
  refine ⟨rfl, ?_, ?_⟩
  · show (b.outcomes.map Outcome.step).map (·.requestName) = _
    rw [List.map_map]
    exact names_of_concluded hconcluded
  · show (!(b.outcomes.map Outcome.step).isEmpty &&
      (b.outcomes.map Outcome.step).all (·.success)) = true ↔ _
    rw [Bool.and_eq_true, List.all_eq_true, Bool.not_eq_true', List.isEmpty_eq_false_iff]
    rfl

/-! ## Order -/

/-- Where an operation of a case's name stands first. -/
def place (operations : List Operation) (c : CaseReport) : Nat :=
  operations.findIdx (·.name == c.operation)

theorem orderCases_perm (operations : List Operation) (cases : List CaseReport) :
    (orderCases operations cases).Perm cases := List.mergeSort_perm _ _

theorem orderCases_ordered (operations : List Operation) (cases : List CaseReport) :
    (orderCases operations cases).Pairwise fun c c' =>
      place operations c ≤ place operations c' := by
  have htrans : ∀ c₁ c₂ c₃, decide (place operations c₁ ≤ place operations c₂) = true →
      decide (place operations c₂ ≤ place operations c₃) = true →
      decide (place operations c₁ ≤ place operations c₃) = true := by
    intro c₁ c₂ c₃ h h'
    exact decide_eq_true (Nat.le_trans (of_decide_eq_true h) (of_decide_eq_true h'))
  have htotal : ∀ c c', (decide (place operations c ≤ place operations c') ||
      decide (place operations c' ≤ place operations c)) = true := by
    intro c c'
    rw [Bool.or_eq_true]
    exact (Nat.le_total _ _).imp decide_eq_true decide_eq_true
  exact (List.pairwise_mergeSort htrans htotal cases).imp of_decide_eq_true

/-- Cases of one name stay in the order in which they were recorded. -/
theorem orderCases_same {operations : List Operation} {cases : List CaseReport} {name : String}
    (h : ∀ c ∈ cases, c.operation = name) : orderCases operations cases = cases := by
  refine List.mergeSort_of_pairwise (List.pairwise_of_forall_mem_list fun c hc c' hc' => ?_)
  simp only [h c hc, h c' hc', Nat.le_refl, decide_true]

/-! ## Active and ended tests -/

/-- The report of a test while it is active. -/
structure Active (trace : List Action) (x : Testbed) (l : Launch) (s : Setup) (r : TestReport) :
    Prop where
  id : l.id = s.request.id
  began : .began s.catalogue s.request l.token ∈ trace
  operations : l.operations = s.operations
  stored : x.snapshot l.id = some r
  inProgress : r.inProgress = true
  success : r.success = false
  finished : ∀ i : Nat, l.recorded[i]? = some true ↔ .recorded l.token i ∈ trace
  cases : r.cases.Perm (l.finished.map caseOf)
  each : ∀ b ∈ l.finished, IsCaseOf b.plan.operation (caseOf b)

/-- The report of a test once it has ended, `l` being its launch up to then. -/
structure Ended (trace : List Action) (x : Testbed) (l : Launch) (s : Setup) (r : TestReport) :
    Prop where
  id : l.id = s.request.id
  began : .began s.catalogue s.request l.token ∈ trace
  operations : l.operations = s.operations
  stored : x.snapshot l.id = some r
  inProgress : r.inProgress = false
  success : r.success = true ↔ r.cases ≠ [] ∧ ∀ c ∈ r.cases, c.success = true
  cases : r.cases.Perm (l.batches.map caseOf)
  each : ∀ b ∈ l.batches, IsCaseOf b.plan.operation (caseOf b)
  ordered : r.cases.Pairwise fun c c' => place s.operations c ≤ place s.operations c'
  inactive : ∀ l' ∈ x.launches, l'.id ≠ l.id

theorem Follows.operations (h : Follows trace x l s) : l.operations = s.operations := by
  have hplans : (l.batches.map (·.plan)).map (·.operation) =
      (s.operations.map s.plan).map (·.operation) := by
    rw [h.plans]
  rw [List.map_map, List.map_map] at hplans
  exact hplans.trans (List.map_id _)

theorem Follows.active (h : Follows trace x l s) : ∃ r, Active trace x l s r := by
  obtain ⟨cases, hcases, hperm⟩ := h.report
  exact ⟨s.report cases, {
    id := h.id
    began := h.began
    operations := h.operations
    stored := hcases
    inProgress := rfl
    success := rfl
    finished := h.recorded
    cases := hperm
    each := fun _ hb => h.isCaseOf hb }⟩

theorem Follows.finished_eq (h : Follows trace x l s) (hall : ∀ mark ∈ l.recorded, mark = true) :
    l.finished = l.batches := marked_of_all h.length hall

theorem Sound.ended (h : Sound trace x) {elapsed : UInt64} {r : TestReport}
    (hfinish : x.finish? token elapsed = some (r, x')) :
    ∃ l ∈ x.launches, l.token = token ∧ ∃ s, Ended trace x' l s r := by
  obtain ⟨l, r₀, hl, hr₀, hall, rfl, rfl⟩ := finish?_eq_some hfinish
  obtain ⟨hmem, htoken⟩ := launch?_eq_some hl
  obtain ⟨s, hs⟩ := h.launches l hmem
  obtain ⟨cases, hcases, hperm⟩ := hs.report
  obtain rfl : r₀ = s.report cases := Option.some.inj (hr₀.symm.trans hcases)
  -- All marks are set, so the cases are those of all batches.
  rw [hs.finished_eq hall] at hperm
  refine ⟨l, hmem, htoken, s, {
    id := hs.id
    began := hs.began
    operations := hs.operations
    stored := SortedMap.get?_insert_self
    inProgress := rfl
    success := ?_
    cases := (orderCases_perm l.operations cases).trans hperm
    each := fun b hb => hs.isCaseOf (by rwa [hs.finished_eq hall])
    ordered := ?_
    inactive := ?_ }⟩
  · show (!(orderCases l.operations cases).isEmpty &&
      (orderCases l.operations cases).all (·.success)) = true ↔ _
    rw [Bool.and_eq_true, List.all_eq_true, Bool.not_eq_true', List.isEmpty_eq_false_iff]
    rfl
  · rw [← hs.operations]
    exact orderCases_ordered l.operations cases
  · intro l' hl'
    obtain ⟨hl', hne⟩ := List.mem_filter.1 hl'
    rcases h.eq_or_apart hl' hmem with rfl | hapart
    · exact absurd rfl (of_decide_eq_true hne)
    · exact hapart.1

/-- **Reports after any run.** No two active tests have an id in common. An active test shows the
cases that are recorded, and is no success yet. A test that ends gives the report that is kept, with
one case for every operation. -/
theorem reports_of_run (h : Run trace x) :
    (x.launches.map (·.id)).Nodup ∧
      (∀ l ∈ x.launches, ∃ s r, Active trace x l s r) ∧
      ∀ token elapsed r x', x.finish? token elapsed = some (r, x') →
        ∃ l ∈ x.launches, l.token = token ∧ ∃ s, Ended trace x' l s r := by
  have hsound := sound_of_run h
  refine ⟨?_, ?_, ?_⟩
  · rw [List.Nodup, List.pairwise_map]
    exact hsound.apart.imp fun hne => hne.1
  · intro l hl
    obtain ⟨s, hs⟩ := hsound.launches l hl
    exact ⟨s, hs.active⟩
  · intro token elapsed r x' hfinish
    exact hsound.ended hfinish

/-! ## A run -/

/-- A service with one recorded request. -/
def ping : Service where
  name := "Ping"
  version := "1"
  kind := .rest
  operations := [{ Operation.ofPath "GET" "/ping" with
    exchanges := [.requestResponse ⟨"ping", none, none, [], []⟩ ⟨"pong", none, none, none, []⟩] }]

def pingCatalogue : Catalogue := (Catalogue.publish .empty ping).2

def pingTest : TestRequest := ⟨"ping", ping.key, "http://localhost", [], .none⟩

/-- Every call is answered. -/
def pong (_ : Call) : Reply := .ok ⟨200, [], none, "pong"⟩

/-- An operation with one recorded request. -/
def recordedOnce (name request : String) : Operation where
  name := name
  method := "GET"
  dispatcher := .none
  rule := none
  resourcePaths := []
  bindings := .empty
  fallback := none
  exchanges :=
    [.requestResponse ⟨request, none, none, [], []⟩ ⟨request, none, none, none, []⟩]

def clock : Service where
  name := "Clock"
  version := "1"
  kind := .rest
  operations := [recordedOnce "GET /time" "now", recordedOnce "GET /date" "today"]

def clockCatalogue : Catalogue := (Catalogue.publish .empty clock).2

/-- The first operation is tested twice. -/
def clockTest : TestRequest :=
  ⟨"clock", clock.key, "http://localhost", ["GET /time", "GET /date", "GET /time"], .none⟩

def callOf (url : String) : Call := ⟨"GET", url, [], none⟩

def timeCall : Call := callOf "http://localhost/time"

def dateCall : Call := callOf "http://localhost/date"

/-- The three batches are under way at once, and the first of them is the last to be done. -/
def clockTrace : List Action :=
  [.began clockCatalogue clockTest ⟨0⟩,
    .moved ⟨0⟩ 0 (some (.sent timeCall)),
    .moved ⟨0⟩ 1 (some (.sent dateCall)),
    .moved ⟨0⟩ 1 (some (.replied dateCall (pong dateCall) 3)),
    .moved ⟨0⟩ 2 (some (.sent timeCall)),
    .recorded ⟨0⟩ 1,
    .moved ⟨0⟩ 2 (some (.replied timeCall (pong timeCall) 1)),
    .recorded ⟨0⟩ 2,
    .moved ⟨0⟩ 0 (some (.replied timeCall (pong timeCall) 5)),
    .recorded ⟨0⟩ 0]

theorem run_clock : ∃ x, Run clockTrace x ∧ x.tokens.isCancelled ⟨0⟩ = false ∧
    ∃ r x', x.finish? ⟨0⟩ 7 = some (r, x') := by
  have h := Run.start.step (@Step.start _ _ clockCatalogue clockTest _ rfl)
  have h := h.step (@Step.send _ ⟨0⟩ 0 _ _ _ rfl rfl)
  have h := h.step (@Step.send _ ⟨0⟩ 1 _ _ _ rfl rfl)
  have h := h.step (@Step.receive _ ⟨0⟩ 1 _ _ _ (pong dateCall) 3 rfl rfl rfl)
  have h := h.step (@Step.send _ ⟨0⟩ 2 _ _ _ rfl rfl)
  have h := h.step (@Step.record _ _ ⟨0⟩ 1 rfl)
  have h := h.step (@Step.receive _ ⟨0⟩ 2 _ _ _ (pong timeCall) 1 rfl rfl rfl)
  have h := h.step (@Step.record _ _ ⟨0⟩ 2 rfl)
  have h := h.step (@Step.receive _ ⟨0⟩ 0 _ _ _ (pong timeCall) 5 rfl rfl rfl)
  have h := h.step (@Step.record _ _ ⟨0⟩ 0 rfl)
  exact ⟨_, h, rfl, _, _, rfl⟩

theorem reports_of_clock : ∃ (x x' : Testbed) (r : TestReport),
    Run clockTrace x ∧ x.finish? ⟨0⟩ 7 = some (r, x') ∧
    ∃ l ∈ x.launches, l.token = ⟨0⟩ ∧ ∃ s, Ended clockTrace x' l s r := by
  obtain ⟨x, hrun, -, r, x', hfinish⟩ := run_clock
  obtain ⟨-, -, hended⟩ := reports_of_run hrun
  exact ⟨x, x', r, hrun, hfinish, hended _ _ _ _ hfinish⟩

end ApiDouble.Replay.Testbed
