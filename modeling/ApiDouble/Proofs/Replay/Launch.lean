import ApiDouble.Replay.Testbed

/-!
# Launches

What a test is begun with is put together once (`Setup`): the service was published, a runner for it
exists, and the operations were found. The batches and the first report follow from it.

A launch marks every batch whose case is recorded. The marked batches (`Launch.finished`) stay the
same when another batch moves, and are one more when a case is recorded.

Main results: `begin_eq_ok`, `record?_eq_some`, `finish?_eq_some`, `marked_set`, `marked_set_true`.
-/

namespace ApiDouble.Replay

/-! ## Setups -/

/-- What a test is begun with, as far as it can begin at all. -/
structure Setup where
  catalogue : Catalogue
  request : TestRequest
  service : Service
  runner : Runner
  operations : List Operation
  published : catalogue.get? request.service = some service
  supported : Runner.ofService? service.kind = some runner
  selected : selection service request.operations = .ok operations

namespace Setup

/-- What the requests of an operation are replayed with. -/
def plan (s : Setup) (op : Operation) : Plan where
  runner := s.runner
  operation := op
  overrides := s.request.overrides
  endpoint := s.request.endpoint
  invocation := {}

/-- The batch of an operation before its first move. -/
def batch (s : Setup) (op : Operation) : Batch :=
  { plan := s.plan op, waiting := recordedRequests op }

/-- The report of the test while it runs, with the cases recorded so far. -/
def report (s : Setup) (cases : List CaseReport) : TestReport :=
  { TestReport.begin s.request.id s.request.service s.request.endpoint s.runner.kind with
    overrides := s.request.overrides
    cases := cases }

theorem eq_of_request {s s' : Setup} (hcatalogue : s'.catalogue = s.catalogue)
    (hrequest : s'.request = s.request) : s' = s := by
  obtain ⟨catalogue, request, service, runner, operations, hpublished, hsupported, hselected⟩ := s
  obtain ⟨_, _, service', runner', operations', hpublished', hsupported', hselected'⟩ := s'
  obtain rfl := hcatalogue
  obtain rfl := hrequest
  obtain rfl : service = service' := Option.some.inj (hpublished.symm.trans hpublished')
  obtain rfl : runner = runner' := Option.some.inj (hsupported.symm.trans hsupported')
  obtain rfl : operations = operations' := Except.ok.inj (hselected.symm.trans hselected')
  rfl

end Setup

theorem prepare_eq_ok {catalogue : Catalogue} {t : TestRequest} {p : Prepared}
    (h : prepare catalogue t = .ok p) : ∃ s : Setup, s.catalogue = catalogue ∧ s.request = t ∧
      p = ⟨s.report [], s.operations.map s.batch⟩ := by
  unfold prepare at h
  cases hservice : catalogue.get? t.service with
  | none =>
    rw [hservice] at h
    cases h
  | some service =>
    rw [hservice] at h
    cases hrunner : Runner.ofService? service.kind with
    | none =>
      simp only [hrunner] at h
      cases h
    | some runner =>
      simp only [hrunner] at h
      cases hselection : selection service t.operations with
      | error e =>
        rw [hselection] at h
        cases h
      | ok operations =>
        rw [hselection] at h
        cases h
        exact ⟨⟨catalogue, t, service, runner, operations, hservice, hrunner, hselection⟩,
          rfl, rfl, rfl⟩

theorem prepare_setup (s : Setup) :
    prepare s.catalogue s.request = .ok ⟨s.report [], s.operations.map s.batch⟩ := by
  unfold prepare
  rw [s.published]
  simp only [s.supported, s.selected]
  rfl

/-! ## Inversions -/

/-- The launch of a setup before its first move. -/
def Setup.launch (s : Setup) (token : Token) : Launch where
  id := s.request.id
  token := token
  batches := s.operations.map s.batch
  recorded := (s.operations.map s.batch).map fun _ => false

theorem Setup.recorded_launch (s : Setup) (token : Token) (i : Nat) :
    (s.launch token).recorded[i]? ≠ some true := by
  intro h
  have h : (((s.operations.map s.batch).map fun _ => false)[i]?) = some true := h
  rw [List.getElem?_map] at h
  obtain ⟨b, -, hb⟩ := Option.map_eq_some_iff.1 h
  cases hb

namespace Testbed

variable {x x' : Testbed} {token : Token}

/-- The testbed once a test has begun. -/
def started (x : Testbed) (s : Setup) : Testbed where
  reports := x.reports.insert s.request.id (s.report [])
  tokens := (x.tokens.register s.request.id).2
  launches := x.launches ++ [s.launch ⟨x.tokens.issued⟩]

theorem begin_eq_ok {catalogue : Catalogue} {t : TestRequest}
    (h : x.begin catalogue t = .ok (token, x')) : ∃ s : Setup, s.catalogue = catalogue ∧
      s.request = t ∧ x.isRunning t.id = false ∧ token = ⟨x.tokens.issued⟩ ∧ x' = x.started s := by
  unfold «begin» at h
  cases hp : prepare catalogue t with
  | error e =>
    rw [hp] at h
    cases h
  | ok p =>
    obtain ⟨s, rfl, rfl, rfl⟩ := prepare_eq_ok hp
    rw [hp] at h
    cases hrunning : x.isRunning s.request.id with
    | true =>
      simp only [hrunning, if_true, bind, Except.bind] at h
      cases h
    | false =>
      simp only [hrunning, Bool.false_eq_true, if_false, bind, Except.bind] at h
      cases h
      exact ⟨s, rfl, rfl, rfl, rfl, rfl⟩

/-- Unless one with its id runs, every test of a setup begins. -/
theorem begin_setup (s : Setup) (hs : x.isRunning s.request.id = false) :
    x.begin s.catalogue s.request = .ok (⟨x.tokens.issued⟩, x.started s) := by
  unfold «begin»
  rw [prepare_setup s]
  simp only [bind, Except.bind, hs, Bool.false_eq_true, if_false]
  rfl

theorem launch?_eq_some {l : Launch} (h : x.launch? token = some l) :
    l ∈ x.launches ∧ l.token = token :=
  ⟨List.mem_of_find?_eq_some h, by simpa using List.find?_some h⟩

theorem batch?_eq_some {i : Nat} {b : Batch} (h : x.batch? token i = some b) :
    ∃ l, x.launch? token = some l ∧ l.batches[i]? = some b := by
  unfold batch? at h
  obtain ⟨l, hl, hb⟩ := Option.bind_eq_some_iff.1 h
  exact ⟨l, hl, hb⟩

/-- The testbed with one more case in the report of a launch. -/
def withCase (x : Testbed) (l : Launch) (i : Nat) (r : TestReport) (c : CaseReport) : Testbed :=
  { x with reports := x.reports.insert l.id { r with cases := r.cases ++ [c] } }.modifyLaunch
    l.token fun l => { l with recorded := l.recorded.set i true }

theorem record?_eq_some {i : Nat} (h : x.record? token i = some x') : ∃ l b r,
    x.launch? token = some l ∧ l.batches[i]? = some b ∧ b.isDone = true ∧
      l.recorded[i]? = some false ∧ x.reports.get? l.id = some r ∧
      x' = x.withCase l i r (caseOf b) := by
  unfold record? at h
  obtain ⟨l, hl, h⟩ := Option.bind_eq_some_iff.1 h
  obtain ⟨b, hb, h⟩ := Option.bind_eq_some_iff.1 h
  by_cases hdone : b.isDone ∧ l.recorded[i]? = some false
  · rw [if_pos hdone] at h
    obtain ⟨r, hr, h⟩ := Option.bind_eq_some_iff.1 h
    obtain rfl := (launch?_eq_some hl).2
    cases h
    exact ⟨l, b, r, hl, hb, hdone.1, hdone.2, hr, rfl⟩
  · rw [if_neg hdone] at h
    cases h

theorem record?_of_isDone {l : Launch} {i : Nat} {b : Batch} {r : TestReport}
    (hl : x.launch? token = some l) (hb : l.batches[i]? = some b) (hdone : b.isDone = true)
    (hi : l.recorded[i]? = some false) (hr : x.reports.get? l.id = some r) :
    x.record? token i = some (x.withCase l i r (caseOf b)) := by
  obtain ⟨-, rfl⟩ := launch?_eq_some hl
  unfold record?
  simp [hl, hb, hdone, hi, hr, withCase]

/-- The testbed once a launch has ended. -/
def ended (x : Testbed) (l : Launch) (r : TestReport) : Testbed where
  reports := x.reports.insert l.id r
  tokens := x.tokens.remove l.id
  launches := x.launches.filter (·.token ≠ l.token)

theorem finish?_eq_some {elapsed : UInt64} {r : TestReport}
    (h : x.finish? token elapsed = some (r, x')) : ∃ l r₀,
      x.launch? token = some l ∧ x.reports.get? l.id = some r₀ ∧
      (∀ mark ∈ l.recorded, mark = true) ∧
      r = { r₀ with cases := orderCases l.operations r₀.cases }.complete elapsed ∧
      x' = x.ended l r := by
  unfold finish? at h
  obtain ⟨l, hl, h⟩ := Option.bind_eq_some_iff.1 h
  obtain ⟨r₀, hr, h⟩ := Option.bind_eq_some_iff.1 h
  by_cases hall : l.recorded.all id = true
  · rw [if_pos hall] at h
    obtain rfl := (launch?_eq_some hl).2
    cases h
    exact ⟨l, r₀, hl, hr, fun mark hm => List.all_eq_true.1 hall mark hm, rfl, rfl⟩
  · rw [if_neg hall] at h
    cases h

theorem finish?_of_all {l : Launch} {r : TestReport} (hl : x.launch? token = some l)
    (hr : x.reports.get? l.id = some r) (hall : ∀ mark ∈ l.recorded, mark = true)
    (elapsed : UInt64) : ∃ r' x', x.finish? token elapsed = some (r', x') := by
  have hfalse : false ∉ l.recorded := fun hm => Bool.false_ne_true (hall false hm)
  unfold finish?
  simp [hl, hr, hfalse]

end Testbed

/-! ## Recorded batches -/

/-- The members of a list that are marked. -/
def marked {α : Type} : List α → List Bool → List α
  | a :: as, true :: marks => a :: marked as marks
  | _ :: as, false :: marks => marked as marks
  | _, _ => []

section

variable {α : Type} {as : List α} {marks : List Bool} {i : Nat} {a : α}

theorem marked_map_false (as : List α) : marked as (as.map fun _ => false) = [] := by
  induction as with
  | nil => rfl
  | cons a as ih => exact ih

theorem marked_of_all (hlength : marks.length = as.length) (h : ∀ mark ∈ marks, mark = true) :
    marked as marks = as := by
  induction as generalizing marks with
  | nil => cases marks <;> rfl
  | cons a as ih =>
    cases marks with
    | nil => cases hlength
    | cons mark marks =>
      obtain rfl : mark = true := h mark List.mem_cons_self
      rw [marked, ih (Nat.succ.inj hlength) fun mark hm => h mark (List.mem_cons_of_mem _ hm)]

theorem mem_marked (h : a ∈ marked as marks) :
    ∃ i : Nat, as[i]? = some a ∧ marks[i]? = some true := by
  induction as generalizing marks with
  | nil => cases marks <;> cases h
  | cons b as ih =>
    cases marks with
    | nil => cases h
    | cons mark marks =>
      cases mark with
      | true =>
        rcases List.mem_cons.1 h with rfl | h
        · exact ⟨0, rfl, rfl⟩
        · obtain ⟨i, hi⟩ := ih h
          exact ⟨i + 1, hi⟩
      | false =>
        obtain ⟨i, hi⟩ := ih h
        exact ⟨i + 1, hi⟩

theorem marked_set (h : marks[i]? ≠ some true) : marked (as.set i a) marks = marked as marks := by
  induction as generalizing marks i with
  | nil => rfl
  | cons b as ih =>
    cases marks with
    | nil => cases i <;> rfl
    | cons mark marks =>
      cases i with
      | zero =>
        cases mark with
        | true => exact absurd rfl h
        | false => rfl
      | succ i =>
        have hi : marks[i]? ≠ some true := h
        have ih := ih hi
        cases mark with
        | true => exact congrArg (b :: ·) ih
        | false => exact ih

theorem marked_set_true (ha : as[i]? = some a) (h : marks[i]? = some false) :
    (marked as (marks.set i true)).Perm (marked as marks ++ [a]) := by
  induction as generalizing marks i with
  | nil => cases ha
  | cons b as ih =>
    cases marks with
    | nil => cases h
    | cons mark marks =>
      cases i with
      | zero =>
        cases ha
        cases h
        exact (List.perm_append_singleton a (marked as marks)).symm
      | succ i =>
        have hi : as[i]? = some a := ha
        have hmark : marks[i]? = some false := h
        have ih := ih hi hmark
        cases mark with
        | true => exact ih.cons b
        | false => exact ih

end

/-- The batches whose cases are recorded. -/
def Launch.finished (l : Launch) : List Batch := marked l.batches l.recorded

end ApiDouble.Replay
