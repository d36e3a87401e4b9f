import ApiDouble.Proofs.Contract.Service
import ApiDouble.Proofs.Replay.Sequence
import Mathlib.Data.List.Nodup

/-!
# Side by side or one after the other

The batches of a test may run side by side and their cases be recorded in any order. As long as the
reply to a call depends on the call alone and the test is not cancelled, its report is that of the
same test launched with one batch after the other, apart from times.

**One case** (`untimed_caseOf`). Without times, the case of a batch is made of its plan alone.

**All cases.** Both reports hold the same cases, in the order of the places that the names of their
operations have. If no two different operations that are tested have a name in common, there is only
one such order (`eq_of_ordered`). So it is when the operations were asked for by name
(`selection_by_name`), and when the names of the service differ, as they do in every service that
was built by adding operations. A service that was published with two operations of one name may be
reported on in more than one order (`twins_disagree`).

Main results: `Undisturbed.untimed_eq`, `launch_agrees`.
-/

namespace ApiDouble

/-! ## Reports without times -/

def StepReport.untimed (s : StepReport) : StepReport := { s with elapsed := 0 }

def CaseReport.untimed (c : CaseReport) : CaseReport :=
  { c with elapsed := 0, steps := c.steps.map StepReport.untimed }

def TestReport.untimed (r : TestReport) : TestReport :=
  { r with elapsed := 0, cases := r.cases.map CaseReport.untimed }

theorem succeeds_map {α : Type} {success : α → Bool} {g : α → α}
    (hg : ∀ a, success (g a) = success a) (as : List α) :
    (!as.isEmpty && as.all success) = (!(as.map g).isEmpty && (as.map g).all success) := by
  have hcomp : success ∘ g = success := funext hg
  rw [List.isEmpty_map, List.all_map, hcomp]

theorem CaseReport.untimed_ofSteps (operation : String) {steps steps' : List StepReport}
    (h : steps.map StepReport.untimed = steps'.map StepReport.untimed) :
    (ofSteps operation steps).untimed = (ofSteps operation steps').untimed := by
  have hkept : ∀ s : StepReport, s.untimed.success = s.success := fun _ => rfl
  show CaseReport.mk operation (!steps.isEmpty && steps.all (·.success)) 0
      (steps.map StepReport.untimed) =
    CaseReport.mk operation (!steps'.isEmpty && steps'.all (·.success)) 0
      (steps'.map StepReport.untimed)
  rw [succeeds_map hkept steps, succeeds_map hkept steps', h]

end ApiDouble

namespace ApiDouble.Replay.Testbed

variable {trace : List Action} {x x' : Testbed} {token : Token} {f : Call → Reply} {l : Launch}
  {s : Setup} {b : Batch}

/-! ## One case -/

/-- The case of a plan whose calls are answered by a rule, without times. -/
def answeredCase (f : Call → Reply) (p : Plan) : CaseReport :=
  (CaseReport.ofSteps p.operation.name ((recordedRequests p.operation).map fun request =>
    (p.outcome request (f (p.call request)) 0).step)).untimed

theorem untimed_outcome (p : Plan) (request : Message) (reply : Reply) (elapsed : UInt64) :
    (p.outcome request reply elapsed).step.untimed = (p.outcome request reply 0).step.untimed := by
  cases reply <;> rfl

theorem moved_mem {event : Event} {i : Nat} (h : event ∈ eventsOf token i trace) :
    .moved token i (some event) ∈ trace := by
  obtain ⟨a, ha, hevent⟩ := List.mem_filterMap.1 h
  cases a with
  | moved token' i' event' =>
    simp only [Action.event?] at hevent
    by_cases hsame : token' = token ∧ i' = i
    · obtain ⟨rfl, rfl⟩ := hsame
      rw [if_pos ⟨rfl, rfl⟩] at hevent
      rwa [← hevent]
    · rw [if_neg hsame] at hevent
      cases hevent
  | _ => cases hevent

/-- The case of a batch that nobody disturbs. -/
theorem Undisturbed.untimed_caseOf (h : Undisturbed f token trace x) (hl : Follows trace x l s)
    (htoken : l.token = token) {i : Nat} (hb : l.batches[i]? = some b) (hdone : b.isDone = true) :
    (caseOf b).untimed = answeredCase f b.plan := by
  subst htoken
  obtain ⟨answered, skipped, hconcluded⟩ := hl.concluded hb hdone
  obtain rfl : skipped = [] := hconcluded.uncancelled h.quiet
  have hseen : eventsOf l.token i trace = answered.flatMap (·.events b.plan) := by
    rcases hconcluded.seen with hseen | ⟨first, hfirst, -⟩
    · exact hseen
    · cases hfirst
  -- The replies in the outcomes are those of the trace, and these follow the rule `f`.
  have hreply : ∀ a ∈ answered, a.reply = f (b.plan.call a.request) := by
    intro a ha
    have hevent :
        .replied (b.plan.call a.request) a.reply a.elapsed ∈ eventsOf l.token i trace := by
      rw [hseen, List.mem_flatMap]
      exact ⟨a, ha, List.mem_cons_of_mem _ List.mem_cons_self⟩
    exact h.replies i _ _ _ (moved_mem hevent)
  apply CaseReport.untimed_ofSteps
  have houtcomes : b.outcomes = answered.map (·.outcome b.plan) :=
    hconcluded.outcomes.trans (List.append_nil _)
  have hrequests : recordedRequests b.plan.operation = answered.map (·.request) :=
    hconcluded.requests.trans (List.append_nil _)
  rw [houtcomes, hrequests, List.map_map, List.map_map, List.map_map, List.map_map]
  apply List.map_congr_left
  intro a ha
  show (b.plan.outcome a.request a.reply a.elapsed).step.untimed = _
  rw [hreply a ha]
  exact untimed_outcome _ _ _ _

/-! ## All cases -/

/-- The cases of a test whose calls are answered by a rule, without times. -/
def answeredCases (f : Call → Reply) (s : Setup) : List CaseReport :=
  s.operations.map fun op => answeredCase f (s.plan op)

theorem Undisturbed.untimed_cases (h : Undisturbed f token trace x) (hl : Follows trace x l s)
    (htoken : l.token = token) (hall : ∀ mark ∈ l.recorded, mark = true) :
    (l.batches.map caseOf).map CaseReport.untimed = answeredCases f s := by
  have hplans : answeredCases f s = (l.batches.map (·.plan)).map (answeredCase f) := by
    rw [hl.plans, List.map_map]
    rfl
  rw [hplans, List.map_map, List.map_map]
  apply List.map_congr_left
  intro b hb
  have hfinished : b ∈ l.finished := by rwa [hl.finished_eq hall]
  obtain ⟨i, hi, hrecorded⟩ := mem_marked hfinished
  exact h.untimed_caseOf hl htoken hi (hl.done i b hi hrecorded)

/-- Cases in an order that their places allow. -/
def Ordered (s : Setup) (cases : List CaseReport) : Prop :=
  cases.Pairwise fun c c' => place s.operations c ≤ place s.operations c'

/-- The report of a test that has ended with some cases, without times. -/
def endedReport (s : Setup) (cases : List CaseReport) : TestReport := (s.report cases).complete 0

/-- The report of a test that nobody disturbs, whatever the order of its steps was. -/
theorem Undisturbed.untimed_report (h : Undisturbed f token trace x) (s : Setup)
    (hbegan : .began s.catalogue s.request token ∈ trace) {elapsed : UInt64} {r : TestReport}
    (hfinish : x.finish? token elapsed = some (r, x')) :
    ∃ cases, cases.Perm (answeredCases f s) ∧ Ordered s cases ∧
      r.untimed = endedReport s cases := by
  obtain ⟨l, r₀, hl, hr₀, hall, rfl, -⟩ := finish?_eq_some hfinish
  obtain ⟨hmem, htoken⟩ := launch?_eq_some hl
  have hsound := sound_of_run h.run
  obtain ⟨s', hs⟩ := hsound.launches l hmem
  obtain rfl : s' = s := by
    -- The trace says what the token's test began with, and a token is given out once.
    rw [← htoken] at hbegan
    obtain ⟨hcatalogue, hrequest⟩ := hsound.tokens.once _ _ _ _ _ hbegan hs.began
    exact Setup.eq_of_request hcatalogue hrequest
  obtain ⟨cases, hcases, hperm⟩ := hs.report
  obtain rfl : r₀ = s'.report cases := Option.some.inj (hr₀.symm.trans hcases)
  have hordered := orderCases_ordered l.operations cases
  have hperm' := (orderCases_perm l.operations cases).trans hperm
  rw [hs.finished_eq hall] at hperm'
  refine ⟨(orderCases l.operations cases).map CaseReport.untimed, ?_, ?_, ?_⟩
  · rw [← h.untimed_cases hs htoken hall]
    exact hperm'.map _
  · rw [Ordered, List.pairwise_map, ← hs.operations]
    exact hordered
  · show TestReport.mk _ _ _ _ (!(orderCases l.operations cases).isEmpty &&
      (orderCases l.operations cases).all (·.success)) _ _ _ _ = _
    rw [succeeds_map fun c : CaseReport => (rfl : c.untimed.success = c.success)]
    rfl

theorem success_perm {cases cases' : List CaseReport} (h : cases.Perm cases') :
    (!cases.isEmpty && cases.all (·.success)) = (!cases'.isEmpty && cases'.all (·.success)) := by
  have hall : cases.all (·.success) = cases'.all (·.success) := by
    rw [Bool.eq_iff_iff, List.all_eq_true, List.all_eq_true]
    exact ⟨fun hc c hmem => hc c (h.mem_iff.2 hmem), fun hc c hmem => hc c (h.mem_iff.1 hmem)⟩
  rw [h.isEmpty_eq, hall]

/-! ## One order -/

theorem name_at_place {operations : List Operation} {op : Operation} {c : CaseReport}
    (hop : op ∈ operations) (hc : c.operation = op.name) :
    (operations[place operations c]?).map (·.name) = some c.operation := by
  have hexists : ∃ op ∈ operations, (op.name == c.operation) = true :=
    ⟨op, hop, by rw [hc]; exact beq_self_eq_true _⟩
  have hlt : place operations c < operations.length :=
    List.findIdx_lt_length_of_exists hexists
  have hname : operations[place operations c].name = c.operation :=
    eq_of_beq (List.findIdx_getElem (w := hlt))
  rw [List.getElem?_eq_getElem hlt, Option.map_some, hname]

/-- If no two different operations have a name in common, only one order is possible. -/
theorem eq_of_ordered (hnames : ∀ op ∈ s.operations, ∀ op' ∈ s.operations,
    op.name = op'.name → op = op') {cases cases' : List CaseReport}
    (hperm : cases.Perm (answeredCases f s)) (hperm' : cases'.Perm (answeredCases f s))
    (h : Ordered s cases) (h' : Ordered s cases') : cases = cases' := by
  refine List.Perm.eq_of_pairwise ?_ h h' (hperm.trans hperm'.symm)
  intro c c' hc hc' hle hle'
  obtain ⟨op, hop, rfl⟩ := List.mem_map.1 (hperm.mem_iff.1 hc)
  obtain ⟨op', hop', rfl⟩ := List.mem_map.1 (hperm'.mem_iff.1 hc')
  have hname := name_at_place (c := answeredCase f (s.plan op)) hop rfl
  have hname' := name_at_place (c := answeredCase f (s.plan op')) hop' rfl
  rw [Nat.le_antisymm hle hle', hname'] at hname
  rw [hnames op hop op' hop' (Option.some.inj hname).symm]

theorem exists_of_mapM {α β ε : Type} {g : α → Except ε β} {as : List α} {bs : List β}
    (h : as.mapM g = .ok bs) : ∀ b ∈ bs, ∃ a, g a = .ok b := by
  induction as generalizing bs with
  | nil =>
    cases h
    exact fun b hb => by cases hb
  | cons a as ih =>
    rw [List.mapM_cons] at h
    cases ha : g a with
    | error e =>
      rw [ha] at h
      cases h
    | ok b₀ =>
      rw [ha] at h
      cases has : as.mapM g with
      | error e =>
        rw [has] at h
        cases h
      | ok bs₀ =>
        rw [has] at h
        cases h
        intro b hb
        rcases List.mem_cons.1 hb with rfl | hb
        · exact ⟨a, ha⟩
        · exact ih has b hb

theorem selection_by_name {service : Service} {names : List String} {operations : List Operation}
    (h : selection service names = .ok operations) (hne : names ≠ []) :
    ∀ op ∈ operations, service.operation? op.name = some op := by
  unfold selection at h
  rw [if_neg (by rwa [List.isEmpty_iff])] at h
  intro op hop
  obtain ⟨name, hname⟩ := exists_of_mapM h op hop
  cases hfound : service.operation? name with
  | none =>
    rw [hfound] at hname
    cases hname
  | some found =>
    rw [hfound] at hname
    cases hname
    have hsame : op.name = name :=
      eq_of_beq (List.find?_some (p := fun o : Operation => o.name == name) hfound)
    rw [hsame, hfound]

theorem names_of_selection (s : Setup)
    (h : s.request.operations ≠ [] ∨ (s.service.operations.map (·.name)).Nodup) :
    ∀ op ∈ s.operations, ∀ op' ∈ s.operations, op.name = op'.name → op = op' := by
  intro op hop op' hop' hname
  by_cases hne : s.request.operations = []
  · have hnodup := h.resolve_left fun h => h hne
    have hall : s.service.operations = s.operations := by
      have hselected := s.selected
      rw [hne] at hselected
      exact Except.ok.inj hselected
    rw [hall] at hnodup
    exact List.inj_on_of_nodup_map hnodup hop hop' hname
  · have hfound := selection_by_name s.selected hne op hop
    have hfound' := selection_by_name s.selected hne op' hop'
    rw [hname, hfound'] at hfound
    exact (Option.some.inj hfound).symm

/-! ## Agreement -/

/-- Two reports of a test agree up to times, and up to the order of cases of one place. -/
structure Agree (s : Setup) (r r' : TestReport) : Prop where
  fields : { r.untimed with cases := [] } = { r'.untimed with cases := [] }
  cases : r.untimed.cases.Perm r'.untimed.cases
  ordered : Ordered s r.untimed.cases
  ordered' : Ordered s r'.untimed.cases

/-- **Any two interleavings of a test give one report**, up to times, if no two different operations
that are tested have a name in common. -/
theorem Undisturbed.untimed_eq {trace' : List Action} {y y' : Testbed} {token' : Token}
    (hnames : ∀ op ∈ s.operations, ∀ op' ∈ s.operations, op.name = op'.name → op = op')
    (h : Undisturbed f token trace x) (hbegan : .began s.catalogue s.request token ∈ trace)
    {elapsed : UInt64} {r : TestReport} (hfinish : x.finish? token elapsed = some (r, x'))
    (h' : Undisturbed f token' trace' y)
    (hbegan' : .began s.catalogue s.request token' ∈ trace') {elapsed' : UInt64} {r' : TestReport}
    (hfinish' : y.finish? token' elapsed' = some (r', y')) : r.untimed = r'.untimed := by
  obtain ⟨cases, hperm, hordered, hr⟩ := h.untimed_report s hbegan hfinish
  obtain ⟨cases', hperm', hordered', hr'⟩ := h'.untimed_report s hbegan' hfinish'
  rw [hr, hr', eq_of_ordered hnames hperm hperm' hordered hordered']

/-- So it is for every service that was built by adding operations. -/
theorem Undisturbed.untimed_eq_of_built {trace' : List Action} {y y' : Testbed} {token' : Token}
    (hbuilt : s.service.Built) (h : Undisturbed f token trace x)
    (hbegan : .began s.catalogue s.request token ∈ trace) {elapsed : UInt64} {r : TestReport}
    (hfinish : x.finish? token elapsed = some (r, x')) (h' : Undisturbed f token' trace' y)
    (hbegan' : .began s.catalogue s.request token' ∈ trace') {elapsed' : UInt64} {r' : TestReport}
    (hfinish' : y.finish? token' elapsed' = some (r', y')) : r.untimed = r'.untimed :=
  h.untimed_eq (names_of_selection s (.inr hbuilt.nodup)) hbegan hfinish h' hbegan' hfinish'

/-- **Interleaving makes no difference.** Take a test whose calls are answered by a rule and that is
not cancelled, its batches moving in any order, and launch the same test with one batch after the
other. This launch comes to its end, and the reports agree. They are equal up to times if the
operations were asked for by name, or if the names of the service differ. -/
theorem launch_agrees {trace₀ : List Action} {x₀ : Testbed} {W : Type} (s : Setup)
    (h : Undisturbed f token trace x) (hbegan : .began s.catalogue s.request token ∈ trace)
    {elapsed : UInt64} {r : TestReport} (hfinish : x.finish? token elapsed = some (r, x'))
    (h₀ : Run trace₀ x₀) (hidle : x₀.isRunning s.request.id = false)
    (tick : W → UInt64 × W) (time : Call → W → UInt64 × W) (parallel : Bool) (w : W) :
    ∃ r₀ x₁ w₁,
      launch (ticking tick) (answering time f) parallel s.catalogue s.request x₀ w =
        ((.ok (some r₀), x₁), w₁) ∧
      Agree s r r₀ ∧
      (s.request.operations ≠ [] ∨ (s.service.operations.map (·.name)).Nodup →
        r.untimed = r₀.untimed) := by
  obtain ⟨trace₁, x₁, x₂, elapsed₁, r₀, w₁, hlaunch, h₁, hbegan₁, hfinish₁⟩ :=
    launch_eq time tick parallel s f w h₀ hidle
  obtain ⟨cases, hperm, hordered, hr⟩ := h.untimed_report s hbegan hfinish
  obtain ⟨cases₀, hperm₀, hordered₀, hr₀⟩ := h₁.untimed_report s hbegan₁ hfinish₁
  refine ⟨r₀, x₂, w₁, hlaunch, ⟨?_, ?_, ?_, ?_⟩, ?_⟩
  · have hsuccess := success_perm (hperm.trans hperm₀.symm)
    rw [hr, hr₀]
    unfold endedReport TestReport.complete Setup.report
    simp only [hsuccess]
  · rw [hr, hr₀]
    exact hperm.trans hperm₀.symm
  · rw [hr]
    exact hordered
  · rw [hr₀]
    exact hordered₀
  · intro hnames
    exact h.untimed_eq (names_of_selection s hnames) hbegan hfinish h₁ hbegan₁ hfinish₁

/-- If the action is a reply, it is what the rule `f` says. -/
def Action.Obeys (f : Call → Reply) : Action → Prop
  | .moved _ _ (some (.replied call reply _)) => reply = f call
  | _ => True

theorem Undisturbed.of_obeys (hrun : Run trace x) (hquiet : x.tokens.isCancelled token = false)
    (h : ∀ a ∈ trace, Action.Obeys f a) : Undisturbed f token trace x :=
  ⟨hrun, fun _ _ _ _ hmem => h _ hmem, hquiet⟩

def clockSetup : Setup where
  catalogue := clockCatalogue
  request := clockTest
  service := clock
  runner := .http
  operations :=
    [recordedOnce "GET /time" "now", recordedOnce "GET /date" "today",
      recordedOnce "GET /time" "now"]
  published := rfl
  supported := rfl
  selected := rfl

theorem launch_agrees_clock : ∃ (x x' x₁ : Testbed) (r r₀ : TestReport) (w₁ : UInt64),
    Undisturbed pong ⟨0⟩ clockTrace x ∧ x.finish? ⟨0⟩ 7 = some (r, x') ∧
      launch (ticking fun n : UInt64 => (n, n + 1)) (answering (fun _ n => (9, n)) pong) false
        clockCatalogue clockTest {} 0 = ((.ok (some r₀), x₁), w₁) ∧
      r.untimed = r₀.untimed := by
  obtain ⟨x, hrun, hquiet, r, x', hfinish⟩ := run_clock
  have hundisturbed : Undisturbed pong ⟨0⟩ clockTrace x :=
    .of_obeys hrun hquiet (by simp [clockTrace, Action.Obeys])
  obtain ⟨r₀, x₁, w₁, hlaunch, -, hequal⟩ := launch_agrees clockSetup hundisturbed
    List.mem_cons_self hfinish .start rfl (fun n : UInt64 => (n, n + 1)) (fun _ n => (9, n)) false 0
  have hnamed : clockTest.operations ≠ [] := List.cons_ne_nil _ _
  exact ⟨x, x', x₁, r, r₀, w₁, hundisturbed, hfinish, hlaunch, hequal (.inl hnamed)⟩

/-! ## Operations of one name -/

/-- A service that was published with two operations of one name. -/
def twins : Service where
  name := "Twins"
  version := "1"
  kind := .rest
  operations := [recordedOnce "GET /ping" "slow", recordedOnce "GET /ping" "quick"]

def twinsCatalogue : Catalogue := (Catalogue.publish .empty twins).2

def twinsTest : TestRequest := ⟨"twins", twins.key, "http://localhost", [], .none⟩

def pingCall : Call := callOf "http://localhost/ping"

/-- Both calls go out, and the second one is answered first. -/
def twinsTrace : List Action :=
  [.began twinsCatalogue twinsTest ⟨0⟩,
    .moved ⟨0⟩ 0 (some (.sent pingCall)),
    .moved ⟨0⟩ 1 (some (.sent pingCall)),
    .moved ⟨0⟩ 1 (some (.replied pingCall (pong pingCall) 1)),
    .recorded ⟨0⟩ 1,
    .moved ⟨0⟩ 0 (some (.replied pingCall (pong pingCall) 5)),
    .recorded ⟨0⟩ 0]

/-- The case of one of the twins. -/
def twinCase (request : String) (elapsed : UInt64) : CaseReport :=
  .ofSteps "GET /ping" [⟨request, true, false, elapsed, some "200"⟩]

theorem operation_of_mem_twins {request request' : String} {elapsed elapsed' : UInt64} :
    ∀ c ∈ [twinCase request elapsed, twinCase request' elapsed'], c.operation = "GET /ping" := by
  refine List.forall_mem_cons.2 ⟨rfl, List.forall_mem_singleton.2 rfl⟩

theorem run_twins : ∃ x, Run twinsTrace x ∧ x.tokens.isCancelled ⟨0⟩ = false ∧
    ∃ r x', x.finish? ⟨0⟩ 7 = some (r, x') ∧ r.cases = [twinCase "quick" 1, twinCase "slow" 5] := by
  have h := Run.start.step (@Step.start _ _ twinsCatalogue twinsTest _ rfl)
  have h := h.step (@Step.send _ ⟨0⟩ 0 _ _ _ rfl rfl)
  have h := h.step (@Step.send _ ⟨0⟩ 1 _ _ _ rfl rfl)
  have h := h.step (@Step.receive _ ⟨0⟩ 1 _ _ _ (pong pingCall) 1 rfl rfl rfl)
  have h := h.step (@Step.record _ _ ⟨0⟩ 1 rfl)
  have h := h.step (@Step.receive _ ⟨0⟩ 0 _ _ _ (pong pingCall) 5 rfl rfl rfl)
  have h := h.step (@Step.record _ _ ⟨0⟩ 0 rfl)
  refine ⟨_, h, rfl, _, _, rfl, ?_⟩
  exact @orderCases_same twins.operations _ _ operation_of_mem_twins

theorem launch_twins : ∃ r x w,
    launch (ticking fun n : UInt64 => (n, n + 1)) (answering (fun _ n => (9, n)) pong) false
        twinsCatalogue twinsTest {} 0 = ((.ok (some r), x), w) ∧
      r.cases = [twinCase "slow" 9, twinCase "quick" 9] := by
  refine ⟨_, _, _, rfl, ?_⟩
  exact @orderCases_same twins.operations _ _ operation_of_mem_twins

/-- **The names have to differ.** Where all operations are tested and two of them have a name in
common, their cases stand in the order in which they were recorded, which is that of the batches
only if these run one after the other. -/
theorem twins_disagree : ∃ (x x' x₁ : Testbed) (r r₀ : TestReport) (w₁ : UInt64),
    Undisturbed pong ⟨0⟩ twinsTrace x ∧ .began twinsCatalogue twinsTest ⟨0⟩ ∈ twinsTrace ∧
      x.finish? ⟨0⟩ 7 = some (r, x') ∧
      launch (ticking fun n : UInt64 => (n, n + 1)) (answering (fun _ n => (9, n)) pong) false
        twinsCatalogue twinsTest {} 0 = ((.ok (some r₀), x₁), w₁) ∧
      r.untimed ≠ r₀.untimed := by
  obtain ⟨x, hrun, hquiet, r, x', hfinish, hcases⟩ := run_twins
  obtain ⟨r₀, x₁, w₁, hlaunch, hcases₀⟩ := launch_twins
  have hundisturbed : Undisturbed pong ⟨0⟩ twinsTrace x :=
    .of_obeys hrun hquiet (by simp [twinsTrace, Action.Obeys])
  refine ⟨x, x', x₁, r, r₀, w₁, hundisturbed, List.mem_cons_self, hfinish, hlaunch,
    fun hequal => ?_⟩
  have huntimed : r.cases.map CaseReport.untimed = r₀.cases.map CaseReport.untimed :=
    congrArg TestReport.cases hequal
  rw [hcases, hcases₀] at huntimed
  exact absurd huntimed (by decide)

end ApiDouble.Replay.Testbed
