import ApiDouble.Proofs.Replay.Loop
import ApiDouble.Proofs.Replay.Report

/-!
# Refused tests

**What is refused** (`Refusal`). A test does not begin if its service is not published, if there is
no runner for it, if one of the operations asked for is unknown, or if a test with its id runs. In
each of these cases the launch ends before it has changed anything or called anybody
(`launch_eq_error_iff`).

**What goes on** (`Attended`). Every report in progress is that of a test that runs, and a test that
runs is cancelled by its id unless it is cancelled already. That is so after every run of the
testbed, one step at a time, and a launch that is refused because of a running test leaves it so.

Main results: `launch_eq_error_iff`, `attended_of_run`, `launch_refused`.
-/

namespace ApiDouble.Replay.Testbed

/-! ## Reasons -/

/-- Why a test does not begin. The reasons are looked for in this order. -/
inductive Refusal (catalogue : Catalogue) (x : Testbed) (t : TestRequest) : LaunchError → Prop
  | unknownService (h : catalogue.get? t.service = none) :
      Refusal catalogue x t (.unknownService t.service)
  | unsupported {service : Service} (hservice : catalogue.get? t.service = some service)
      (hrunner : Runner.ofService? service.kind = none) :
      Refusal catalogue x t (.unsupported service.kind)
  | unknownOperation {service : Service} {runner : Runner} {known rest : List String}
      {name : String} (hservice : catalogue.get? t.service = some service)
      (hrunner : Runner.ofService? service.kind = some runner)
      (hnames : t.operations = known ++ name :: rest)
      (hknown : ∀ n ∈ known, (service.operation? n).isSome)
      (hname : service.operation? name = none) :
      Refusal catalogue x t (.unknownOperation name)
  | alreadyRunning (s : Setup) (hcatalogue : s.catalogue = catalogue) (hrequest : s.request = t)
      (hrunning : x.isRunning t.id = true) : Refusal catalogue x t (.alreadyRunning t.id)

variable {catalogue : Catalogue} {x x' : Testbed} {t : TestRequest} {e : LaunchError}

/-- A mapping fails with the error of the first member that has one. -/
theorem mapM_eq_error_iff {α β ε : Type} {g : α → Except ε β} {as : List α} {e : ε} :
    as.mapM g = .error e ↔ ∃ before a after, as = before ++ a :: after ∧
      (∀ b ∈ before, ∃ y, g b = .ok y) ∧ g a = .error e := by
  induction as with
  | nil =>
    refine iff_of_false nofun ?_
    rintro ⟨before, a, after, hsplit, -⟩
    exact List.append_ne_nil_of_right_ne_nil before (List.cons_ne_nil a after) hsplit.symm
  | cons a as ih =>
    rw [List.mapM_cons]
    cases ha : g a with
    | error e' =>
      constructor
      · intro h
        cases h
        exact ⟨[], a, as, rfl, nofun, ha⟩
      · rintro ⟨before, a', after, hsplit, hbefore, ha'⟩
        -- The first member fails, so none that gives something stands before it.
        cases before with
        | nil =>
          cases hsplit
          rw [ha] at ha'
          cases ha'
          rfl
        | cons b before =>
          cases hsplit
          obtain ⟨y, hy⟩ := hbefore a List.mem_cons_self
          rw [ha] at hy
          cases hy
    | ok y =>
      have hrest : (do let ys ← as.mapM g; pure (y :: ys) : Except ε (List β)) = .error e ↔
          as.mapM g = .error e := by
        cases as.mapM g with
        | error e' => rfl
        | ok ys => exact iff_of_false nofun nofun
      refine hrest.trans (ih.trans ⟨?_, ?_⟩)
      · rintro ⟨before, a', after, rfl, hbefore, ha'⟩
        refine ⟨a :: before, a', after, rfl, fun b hb => ?_, ha'⟩
        rcases List.mem_cons.1 hb with rfl | hb
        · exact ⟨y, ha⟩
        · exact hbefore b hb
      · rintro ⟨before, a', after, hsplit, hbefore, ha'⟩
        cases before with
        | nil =>
          cases hsplit
          rw [ha] at ha'
          cases ha'
        | cons b before =>
          cases hsplit
          exact ⟨before, a', after, rfl, fun b hb => hbefore b (List.mem_cons_of_mem _ hb), ha'⟩

/-- Selecting operations fails at the first name that is unknown. -/
theorem selection_eq_error_iff {s : Service} {names : List String} :
    selection s names = .error e ↔ ∃ known name rest, names = known ++ name :: rest ∧
      (∀ n ∈ known, (s.operation? n).isSome) ∧ s.operation? name = none ∧
      e = .unknownOperation name := by
  cases names with
  | nil =>
    refine iff_of_false nofun fun h => ?_
    obtain ⟨known, name, rest, hsplit, -⟩ := h
    simp at hsplit
  | cons name names =>
    rw [selection, if_neg (by simp), mapM_eq_error_iff]
    refine exists_congr fun known => exists_congr fun sought => exists_congr fun rest =>
      and_congr_right fun _ => and_congr (forall₂_congr fun n _ => ?_) ?_
    · cases s.operation? n with
      | none => exact iff_of_false nofun nofun
      | some op => exact iff_of_true ⟨op, rfl⟩ rfl
    · cases s.operation? sought with
      | none => simp [eq_comm]
      | some op => simp

/-! ## The beginning -/

theorem refusal_of_prepare (x : Testbed) (h : prepare catalogue t = .error e) :
    Refusal catalogue x t e := by
  unfold prepare at h
  cases hservice : catalogue.get? t.service with
  | none =>
    rw [hservice] at h
    cases h
    exact .unknownService hservice
  | some service =>
    rw [hservice] at h
    cases hrunner : Runner.ofService? service.kind with
    | none =>
      simp only [hrunner] at h
      cases h
      exact .unsupported hservice hrunner
    | some runner =>
      simp only [hrunner] at h
      cases hselection : selection service t.operations with
      | error e' =>
        rw [hselection] at h
        cases h
        obtain ⟨known, name, rest, hnames, hknown, hname, rfl⟩ :=
          selection_eq_error_iff.1 hselection
        exact .unknownOperation hservice hrunner hnames hknown hname
      | ok operations =>
        rw [hselection] at h
        cases h

/-- A test is refused for just the reasons there are. -/
theorem begin_eq_error_iff : x.begin catalogue t = .error e ↔ Refusal catalogue x t e := by
  constructor
  · intro h
    unfold «begin» at h
    cases hp : prepare catalogue t with
    | error e' =>
      rw [hp] at h
      cases h
      exact refusal_of_prepare x hp
    | ok p =>
      obtain ⟨s, rfl, rfl, rfl⟩ := prepare_eq_ok hp
      rw [hp] at h
      cases hrunning : x.isRunning s.request.id with
      | true =>
        simp only [hrunning, if_true, bind, Except.bind] at h
        cases h
        exact .alreadyRunning s rfl rfl hrunning
      | false =>
        simp only [hrunning, Bool.false_eq_true, if_false, bind, Except.bind] at h
        cases h
  · intro h
    unfold «begin»
    cases h with
    | unknownService h =>
      unfold prepare
      rw [h]
      rfl
    | unsupported hservice hrunner =>
      unfold prepare
      rw [hservice]
      simp only [hrunner]
      rfl
    | unknownOperation hservice hrunner hnames hknown hname =>
      have hselection := selection_eq_error_iff.2 ⟨_, _, _, hnames, hknown, hname, rfl⟩
      unfold prepare
      rw [hservice]
      simp only [hrunner, hselection]
      rfl
    | alreadyRunning s hcatalogue hrequest hrunning =>
      subst hcatalogue hrequest
      rw [prepare_setup s]
      simp only [bind, Except.bind, hrunning, if_true]

/-! ## Launching -/

section

variable {W : Type} (clock : StateT Testbed (StateM W) UInt64)
  (transport : Transport (StateT Testbed (StateM W))) (parallel : Bool) {w w' : W}

theorem launch_of_begin_eq_error (h : x.begin catalogue t = .error e) (w : W) :
    launch clock transport parallel catalogue t x w = ((.error e, x), w) := by
  unfold launch
  simp only [bind_apply, get_apply, h]
  rfl

theorem bind_ne_error {α β : Type} {c : StateT Testbed (StateM W) α}
    {k : α → StateT Testbed (StateM W) (Except LaunchError β)}
    (hk : ∀ a y w, (k a y w).1.1 ≠ .error e) (y : Testbed) (w : W) :
    ((c >>= k) y w).1.1 ≠ .error e := hk _ _ _

theorem launch_ne_error {begun : Token × Testbed} (h : x.begin catalogue t = .ok begun) (w : W) :
    (launch clock transport parallel catalogue t x w).1.1 ≠ .error e := by
  unfold launch
  rw [bind_apply, get_apply]
  simp only [h]
  refine bind_ne_error (fun _ => bind_ne_error fun started => bind_ne_error fun _ =>
    bind_ne_error fun _ => bind_ne_error fun ended => bind_ne_error fun y => ?_) x w
  cases y.finish? begun.1 (ended - started) with
  | some _ => exact bind_ne_error fun _ _ _ => nofun
  | none => exact fun _ _ => nofun

/-- **A launch gives an error for just the reasons there are**, and whatever it runs in is then as
before. -/
theorem launch_eq_error_iff :
    launch clock transport parallel catalogue t x w = ((.error e, x'), w') ↔
      Refusal catalogue x t e ∧ x' = x ∧ w' = w := by
  rw [← begin_eq_error_iff]
  constructor
  · intro h
    cases hbegin : x.begin catalogue t with
    | error e' =>
      rw [launch_of_begin_eq_error clock transport parallel hbegin w] at h
      cases h
      exact ⟨rfl, rfl, rfl⟩
    | ok begun =>
      have hne := launch_ne_error clock transport parallel (e := e) hbegin w
      rw [h] at hne
      exact absurd rfl hne
  · rintro ⟨h, rfl, rfl⟩
    exact launch_of_begin_eq_error clock transport parallel h w'

end

/-! ## What goes on -/

/-- Every report in progress is that of a test that runs, and a test that runs is cancelled by its
id unless it is cancelled already. -/
structure Attended (x : Testbed) : Prop where
  running : ∀ id, x.isRunning id = true → ∃ l ∈ x.launches, l.id = id
  reached : ∀ l ∈ x.launches,
    x.tokens.isCancelled l.token = true ∨ x.tokens.running.get? l.id = some l.token

variable {trace : List Action} {a : Action} {l : Launch} {token : Token} {i : Nat}

theorem isRunning_insert {id : String} {r : TestReport}
    (hreports : x'.reports = x.reports.insert id r) (id' : String) :
    x'.isRunning id' = if id' = id then r.inProgress else x.isRunning id' := by
  unfold isRunning
  rw [hreports, SortedMap.get?_insert]
  by_cases hid : id' = id
  · rw [if_pos hid, if_pos (Std.compare_eq_iff_eq.2 hid), Option.any_some]
  · rw [if_neg hid, if_neg (mt Std.compare_eq_iff_eq.1 hid)]

/-- A step of one launch starts and ends none. -/
theorem Attended.modify (h : Attended x) {f : Launch → Launch}
    (hf : ∀ l, (f l).id = l.id ∧ (f l).token = l.token)
    (hlaunches : x'.launches = (x.modifyLaunch token f).launches) (htokens : x'.tokens = x.tokens)
    (hrunning : ∀ id, x'.isRunning id = x.isRunning id) : Attended x' := by
  have hsame := same_modified hf token
  constructor
  · intro id hid
    rw [hrunning] at hid
    obtain ⟨l, hl, rfl⟩ := h.running id hid
    rw [hlaunches]
    exact ⟨_, List.mem_map_of_mem hl, (hsame l).1⟩
  · intro l' hl'
    rw [hlaunches] at hl'
    obtain ⟨l, hl, rfl⟩ := List.mem_map.1 hl'
    rw [htokens, (hsame l).1, (hsame l).2]
    exact h.reached l hl

theorem Attended.move (h : Attended x) (token : Token) (i : Nat) (b : Batch) :
    Attended (x.writeBatch token i b) :=
  h.modify (f := fun l => { l with batches := l.batches.set i b }) (fun _ => ⟨rfl, rfl⟩) rfl rfl
    fun _ => rfl

theorem Attended.record (h : Attended x) (hx' : x.record? token i = some x') : Attended x' := by
  obtain ⟨l, b, report, -, -, -, -, hreport, rfl⟩ := record?_eq_some hx'
  refine h.modify (f := fun l => { l with recorded := l.recorded.set i true })
    (fun _ => ⟨rfl, rfl⟩) rfl rfl fun id => ?_
  rw [isRunning_insert (x := x) (r := { report with cases := report.cases ++ [caseOf b] }) rfl]
  split
  · next hid =>
    rw [hid, isRunning, hreport]
    rfl
  · rfl

theorem Attended.start (h : Attended x) (hsound : Sound trace x) (s : Setup)
    (hs : x.isRunning s.request.id = false) : Attended (x.started s) := by
  constructor
  · intro id hid
    rw [isRunning_insert (x := x) (r := s.report []) rfl] at hid
    split at hid
    · next heq =>
      rw [heq]
      exact ⟨_, List.mem_append_right _ (List.mem_singleton.2 rfl), rfl⟩
    · obtain ⟨l, hl, rfl⟩ := h.running id hid
      exact ⟨l, List.mem_append_left _ hl, rfl⟩
  · intro l hl
    show _ ∨ (x.tokens.running.insert s.request.id ⟨x.tokens.issued⟩).get? l.id = _
    rw [SortedMap.get?_insert]
    rcases List.mem_append.1 hl with hl | hl
    · have hid : l.id ≠ s.request.id := by
        intro he
        have hrunning := hsound.isRunning hl
        rw [he, hs] at hrunning
        cases hrunning
      rw [if_neg (mt Std.compare_eq_iff_eq.1 hid)]
      exact h.reached l hl
    · rw [List.mem_singleton.1 hl]
      exact .inr (if_pos (Std.compare_eq_iff_eq.2 rfl))

theorem Attended.finish (h : Attended x) (hsound : Sound trace x) (hl : x.launch? token = some l)
    (report : TestReport) (hreport : report.inProgress = false) :
    Attended (x.ended l report) := by
  obtain ⟨hmem, -⟩ := launch?_eq_some hl
  constructor
  · intro id hid
    rw [isRunning_insert (x := x) (r := report) rfl, hreport] at hid
    split at hid
    · cases hid
    · next hne =>
      obtain ⟨l', hl', rfl⟩ := h.running id hid
      -- The report and the token that go are those of one launch: another id means another token.
      have hother : l'.token ≠ l.token := by
        rcases hsound.eq_or_apart hl' hmem with rfl | hapart
        · exact absurd rfl hne
        · exact hapart.2
      exact ⟨l', List.mem_filter.2 ⟨hl', decide_eq_true hother⟩, rfl⟩
  · intro l' hl'
    obtain ⟨hl', hother⟩ := List.mem_filter.1 hl'
    have hid : l'.id ≠ l.id := by
      rcases hsound.eq_or_apart hl' hmem with rfl | hapart
      · exact absurd rfl (of_decide_eq_true hother)
      · exact hapart.1
    show _ ∨ (x.tokens.running.erase l.id).get? l'.id = _
    rw [SortedMap.get?_erase, if_neg (mt Std.compare_eq_iff_eq.1 hid)]
    exact h.reached l' hl'

theorem Attended.isCancelled_cancel (h : Attended x) (hl : l ∈ x.launches) :
    (x.cancel l.id).2.tokens.isCancelled l.token = true := by
  rcases h.reached l hl with hcancelled | hrunning
  · exact Testbed.isCancelled_cancel x.tokens l.id hcancelled
  · show (x.tokens.cancel l.id).2.isCancelled l.token = true
    unfold Tokens.cancel
    rw [hrunning]
    exact List.contains_iff_mem.2 List.mem_cons_self

theorem Attended.cancel (h : Attended x) (id : String) : Attended (x.cancel id).2 := by
  refine ⟨h.running, fun l hl => ?_⟩
  by_cases hid : l.id = id
  · subst hid
    exact .inl (h.isCancelled_cancel hl)
  · refine (h.reached l hl).imp (Testbed.isCancelled_cancel x.tokens id) fun hrunning => ?_
    show (x.tokens.cancel id).2.running.get? l.id = _
    unfold Tokens.cancel
    cases x.tokens.running.get? id with
    | none => exact hrunning
    | some token =>
      show (x.tokens.running.erase id).get? l.id = _
      rwa [SortedMap.get?_erase, if_neg (mt Std.compare_eq_iff_eq.1 hid)]

/-- One step keeps the tests attended. -/
theorem Attended.step (h : Attended x) (hsound : Sound trace x) (hstep : Step x a x') :
    Attended x' := by
  cases hstep with
  | start hbegin =>
    obtain ⟨s, rfl, rfl, hs, rfl, rfl⟩ := begin_eq_ok hbegin
    exact h.start hsound s hs
  | refuse => exact h
  | send => exact h.move _ _ _
  | receive => exact h.move _ _ _
  | abandon => exact h.move _ _ _
  | record hrecord => exact h.record hrecord
  | finish hfinish =>
    obtain ⟨l, r₀, hl, -, -, rfl, rfl⟩ := finish?_eq_some hfinish
    exact h.finish hsound hl _ rfl
  | cancel id => exact h.cancel id
  | look => exact h

/-- **Tests are attended after every run.** -/
theorem attended_of_run (h : Run trace x) : Attended x := by
  induction h with
  | start =>
    constructor
    · intro id hid
      cases hid
    · intro l hl
      cases hl
  | step hrun hstep ih => exact ih.step (sound_of_run hrun) hstep

/-! ## Refused launches -/

/-- A test that runs under an id: its report shows what is recorded of it, and it is cancelled by
the id. -/
structure Standing (trace : List Action) (x : Testbed) (id : String) (l : Launch) : Prop where
  mem : l ∈ x.launches
  named : l.id = id
  active : ∃ s r, Active trace x l s r
  cancelled : (x.cancel id).2.tokens.isCancelled l.token = true

/-- **A launch that is refused changes nothing.** There is a reason for it, the testbed is as before
with all reports, tokens and batches, and so are the surroundings, in which all calls are made. It
is a step of any run; and if the reason is a test that runs, that one goes on with its report and
its token. -/
theorem launch_refused {W : Type} (clock : StateT Testbed (StateM W) UInt64)
    (transport : Transport (StateT Testbed (StateM W))) (parallel : Bool) {w w' : W}
    (h : launch clock transport parallel catalogue t x w = ((.error e, x'), w')) :
    Refusal catalogue x t e ∧ x' = x ∧ w' = w ∧
      ∀ trace, Run trace x → Run (trace ++ [.refused t e]) x' ∧
        (e = .alreadyRunning t.id → ∃ l, Standing (trace ++ [.refused t e]) x' t.id l) := by
  obtain ⟨hrefusal, rfl, rfl⟩ := (launch_eq_error_iff clock transport parallel).1 h
  refine ⟨hrefusal, rfl, rfl, fun trace hrun => ?_⟩
  have hrefused : Run (trace ++ [.refused t e]) x' :=
    hrun.step (.refuse (begin_eq_error_iff.2 hrefusal))
  refine ⟨hrefused, ?_⟩
  rintro rfl
  cases hrefusal with
  | alreadyRunning s hcatalogue hrequest hrunning =>
    -- A report in progress alone does not say that a test runs; that it does is an invariant of
    -- runs.
    have hattended := attended_of_run hrefused
    obtain ⟨l, hl, hid⟩ := hattended.running t.id hrunning
    obtain ⟨s, hs⟩ := (sound_of_run hrefused).launches l hl
    refine ⟨l, hl, hid, ⟨s, hs.active⟩, ?_⟩
    rw [← hid]
    exact hattended.isCancelled_cancel hl

/-- A clock that stands still. -/
def stopped : StateT Testbed (StateM Nat) UInt64 := fun x n => ((0, x), n)

/-- Counts the calls and never answers. -/
def counting : Transport (StateT Testbed (StateM Nat)) := fun _ x n => ((.silent, x), n + 1)

theorem launch_refused_ping : ∃ x l,
    launch stopped counting true pingCatalogue pingTest x 0 =
      ((.error (.alreadyRunning "ping"), x), 0) ∧
    Standing
      ([.began pingCatalogue pingTest ⟨0⟩] ++ [.refused pingTest (.alreadyRunning "ping")])
      x "ping" l := by
  obtain ⟨x, hbegan, hlaunch⟩ : ∃ x, Run [.began pingCatalogue pingTest ⟨0⟩] x ∧
      launch stopped counting true pingCatalogue pingTest x 0 =
        ((.error (.alreadyRunning "ping"), x), 0) :=
    ⟨_, Run.start.step (@Step.start _ _ pingCatalogue pingTest _ rfl), rfl⟩
  obtain ⟨-, -, -, hruns⟩ := launch_refused stopped counting true hlaunch
  obtain ⟨l, hl⟩ := (hruns _ hbegan).2 rfl
  exact ⟨x, l, hlaunch, hl⟩

end ApiDouble.Replay.Testbed
