import ApiDouble.Proofs.Replay.Loop
import ApiDouble.Proofs.Replay.Report

/-!
# Launching a test

A test is launched from its beginning to its end while nothing else happens and every call is
answered by a rule (`answering`). What it does are steps of the testbed that nobody disturbs
(`Undisturbed`), and they go on until the test can end.

Main results: `launch_eq`, `Undisturbed.exists_end`.
-/

namespace ApiDouble.Replay.Testbed

variable {trace : List Action} {x x' : Testbed} {a : Action} {token : Token} {i : Nat}
  {f : Call → Reply}

/-! ## Undisturbed runs -/

/-- A run in which all calls of a test are answered by a rule and the test is not cancelled. -/
structure Undisturbed (f : Call → Reply) (token : Token) (trace : List Action) (x : Testbed) :
    Prop where
  run : Run trace x
  replies : ∀ i call reply elapsed,
    .moved token i (some (.replied call reply elapsed)) ∈ trace → reply = f call
  quiet : x.tokens.isCancelled token = false

theorem Undisturbed.step (h : Undisturbed f token trace x) (hstep : Step x a x')
    (ha : ∀ i call reply elapsed, a = .moved token i (some (.replied call reply elapsed)) →
      reply = f call)
    (htokens : x'.tokens = x.tokens) : Undisturbed f token (trace ++ [a]) x' where
  run := h.run.step hstep
  replies i call reply elapsed hmem := by
    rcases List.mem_append.1 hmem with hmem | hmem
    · exact h.replies i call reply elapsed hmem
    · exact ha i call reply elapsed (List.mem_singleton.1 hmem).symm
  quiet := by
    rw [htokens]
    exact h.quiet

theorem Undisturbed.start (h : Run trace x) (s : Setup) (hs : x.isRunning s.request.id = false)
    (f : Call → Reply) : Undisturbed f ⟨x.tokens.issued⟩
      (trace ++ [.began s.catalogue s.request ⟨x.tokens.issued⟩]) (x.started s) where
  run := h.step (.start (begin_setup s hs))
  replies i call reply elapsed hmem := by
    rcases List.mem_append.1 hmem with hmem | hmem
    · have hlt := (sound_of_run h).tokens.issued _ hmem _ rfl
      exact absurd hlt (Nat.lt_irrefl _)
    · cases List.mem_singleton.1 hmem
  quiet := (sound_of_run h).tokens.not_cancelled

/-! ## Looking up what was written -/

theorem launch?_modifyLaunch {g : Launch → Launch} (hg : ∀ l, (g l).token = l.token)
    (x : Testbed) (token : Token) :
    (x.modifyLaunch token g).launch? token = (x.launch? token).map g := by
  unfold launch? modifyLaunch
  induction x.launches with
  | nil => rfl
  | cons l ls ih =>
    rw [List.map_cons, List.find?_cons, List.find?_cons]
    by_cases hl : l.token = token
    · simp [hl, hg]
    · simp only [hl, if_false, beq_eq_false_iff_ne.2 hl]
      exact ih

theorem launch?_writeBatch {l : Launch} (hl : x.launch? token = some l) (i : Nat) (b : Batch) :
    (x.writeBatch token i b).launch? token = some { l with batches := l.batches.set i b } := by
  let g (l : Launch) : Launch := { l with batches := l.batches.set i b }
  have hg : ∀ l, (g l).token = l.token := fun _ => rfl
  have h := launch?_modifyLaunch hg x token
  rw [hl] at h
  exact h

theorem batch?_of_launch? {l : Launch} (hl : x.launch? token = some l) (i : Nat) :
    x.batch? token i = l.batches[i]? := by
  unfold batch?
  rw [hl]
  rfl

/-! ## One batch -/

variable {W : Type}

/-- Answers every call by a rule. Only the surroundings know how long it takes. -/
def answering (time : Call → W → UInt64 × W) (f : Call → Reply) :
    Transport (StateT Testbed (StateM W)) := fun call x w =>
  ((.replied (f call) (time call w).1, x), (time call w).2)

section

variable (b b' : Batch) (w : W)

theorem isCancelled_seat :
    (seat (m := StateM W) token i b).isCancelled x w = ((x.tokens.isCancelled token, x), w) := rfl

theorem read_seat :
    (seat (m := StateM W) token i b).read x w = (((x.batch? token i).getD b, x), w) := rfl

theorem write_seat :
    (seat (m := StateM W) token i b).write b' x w = (((), x.writeBatch token i b'), w) := rfl

end

variable {l : Launch} (time : Call → W → UInt64 × W) {p : Plan} {request : Message}
  {rest : List Message} {done : List Outcome}

/-- One iteration of the loop: the request is sent and answered. -/
theorem run_seat_succ (n : Nat) (b : Batch) (w : W) (hl : x.launch? token = some l)
    (hb : l.batches[i]? = some ⟨p, request :: rest, false, done⟩)
    (hquiet : x.tokens.isCancelled token = false) :
    (seat token i b).run (answering time f) (n + 1) x w =
      (seat token i b).run (answering time f) n
        ((x.writeBatch token i ⟨p, request :: rest, true, done⟩).writeBatch token i
          ⟨p, rest, false, done ++ [p.outcome request (f (p.call request))
            (time (p.call request) w).1]⟩)
        (time (p.call request) w).2 := by
  have hlt := (List.getElem?_eq_some_iff.1 hb).1
  have hread : x.batch? token i = some ⟨p, request :: rest, false, done⟩ :=
    (batch?_of_launch? hl i).trans hb
  have hcalling : (x.writeBatch token i ⟨p, request :: rest, true, done⟩).batch? token i =
      some ⟨p, request :: rest, true, done⟩ := by
    rw [batch?_of_launch? (launch?_writeBatch hl i _)]
    exact List.getElem?_set_self hlt
  rw [Seat.run]
  simp only [bind_apply, read_seat, isCancelled_seat, hread, hquiet, Option.getD_some, Batch.send?]
  simp [bind_apply, read_seat, write_seat, answering, hcalling, Batch.receive?, Batch.settle?]

/-- The steps of that iteration. -/
theorem Undisturbed.exchange (h : Undisturbed f token trace x) (hl : x.launch? token = some l)
    (hb : l.batches[i]? = some ⟨p, request :: rest, false, done⟩) (elapsed : UInt64) :
    Undisturbed f token
      (trace ++ [.moved token i (some (.sent (p.call request)))] ++
        [.moved token i (some (.replied (p.call request) (f (p.call request)) elapsed))])
      ((x.writeBatch token i ⟨p, request :: rest, true, done⟩).writeBatch token i
        ⟨p, rest, false, done ++ [p.outcome request (f (p.call request)) elapsed]⟩) := by
  have hlt := (List.getElem?_eq_some_iff.1 hb).1
  have hsend : Step x (.moved token i (some (.sent (p.call request))))
      (x.writeBatch token i ⟨p, request :: rest, true, done⟩) := by
    refine @Step.send _ _ _ _ _ (some _) ((batch?_of_launch? hl i).trans hb) ?_
    rw [h.quiet]
    rfl
  have hcalling : (x.writeBatch token i ⟨p, request :: rest, true, done⟩).batch? token i =
      some ⟨p, request :: rest, true, done⟩ := by
    rw [batch?_of_launch? (launch?_writeBatch hl i _)]
    exact List.getElem?_set_self hlt
  have hsent := h.step hsend (fun _ _ _ _ he => by cases he) rfl
  refine hsent.step (.receive hcalling rfl rfl) (fun _ _ _ _ he => ?_) rfl
  cases he
  rfl

/-- A batch runs to its end, and nothing else changes. -/
theorem run_seat (b₀ : Batch) (waiting : List Message) (done : List Outcome) (w : W)
    (h : Undisturbed f token trace x) (hl : x.launch? token = some l)
    (hb : l.batches[i]? = some ⟨p, waiting, false, done⟩) :
    ∃ b trace' x' w', (seat token i b₀).run (answering time f) waiting.length x w =
        ((true, x'), w') ∧
      Undisturbed f token trace' x' ∧ trace ⊆ trace' ∧ b.isDone = true ∧
      x'.launch? token = some { l with batches := l.batches.set i b } := by
  -- Every request is one iteration, in which the batch is written twice: called, and answered.
  induction waiting generalizing done w trace x l with
  | nil =>
    have hread : x.batch? token i = some ⟨p, [], false, done⟩ := (batch?_of_launch? hl i).trans hb
    refine ⟨⟨p, [], false, done⟩, trace, x, w, ?_, h, fun _ => id, rfl, ?_⟩
    · show ((((x.batch? token i).getD b₀).isDone, x), w) = _
      rw [hread]
      rfl
    · rw [set_eq_self hb]
      exact hl
  | cons request rest ih =>
    have hlt := (List.getElem?_eq_some_iff.1 hb).1
    have hexchange := h.exchange hl hb (time (p.call request) w).1
    have hl₂ := launch?_writeBatch (launch?_writeBatch hl i ⟨p, request :: rest, true, done⟩) i
      ⟨p, rest, false, done ++ [p.outcome request (f (p.call request))
        (time (p.call request) w).1]⟩
    rw [List.set_set] at hl₂
    obtain ⟨b, trace', x', w', hrun, h', hsub, hdone, hl'⟩ :=
      ih _ (time (p.call request) w).2 hexchange hl₂ (List.getElem?_set_self hlt)
    refine ⟨b, trace', x', w', ?_, h', ?_, hdone, ?_⟩
    · rw [List.length_cons, run_seat_succ time rest.length b₀ w hl hb h.quiet]
      exact hrun
    · intro a ha
      exact hsub (List.mem_append_left _ (List.mem_append_left _ ha))
    · rw [List.set_set] at hl'
      exact hl'

/-! ## All batches -/

theorem Undisturbed.report (h : Undisturbed f token trace x) (hl : x.launch? token = some l) :
    ∃ r, x.reports.get? l.id = some r := by
  obtain ⟨s, hs⟩ := (sound_of_run h.run).launches l (launch?_eq_some hl).1
  obtain ⟨cases, hcases, -⟩ := hs.report
  exact ⟨_, hcases⟩

theorem launch?_withCase (hl : x.launch? token = some l) (i : Nat) (r : TestReport)
    (c : CaseReport) :
    (x.withCase l i r c).launch? token = some { l with recorded := l.recorded.set i true } := by
  obtain ⟨-, rfl⟩ := launch?_eq_some hl
  let g (l : Launch) : Launch := { l with recorded := l.recorded.set i true }
  have hg : ∀ l, (g l).token = l.token := fun _ => rfl
  have h := launch?_modifyLaunch hg x l.token
  rw [hl] at h
  exact h

theorem Undisturbed.record (h : Undisturbed f token trace x) (hl : x.launch? token = some l)
    {b : Batch} (hb : l.batches[i]? = some b) (hdone : b.isDone = true)
    (hi : l.recorded[i]? = some false) :
    ∃ x', x.record? token i = some x' ∧ Undisturbed f token (trace ++ [.recorded token i]) x' ∧
      x'.launch? token = some { l with recorded := l.recorded.set i true } := by
  obtain ⟨r, hr⟩ := h.report hl
  have hrecord := record?_of_isDone hl hb hdone hi hr
  exact ⟨_, hrecord, h.step (.record hrecord) (fun _ _ _ _ he => by cases he) rfl,
    launch?_withCase hl i r (caseOf b)⟩

theorem set_replicate (i n : Nat) :
    (List.replicate i true ++ List.replicate (n + 1) false).set i true =
      List.replicate (i + 1) true ++ List.replicate n false := by
  rw [List.set_append_right _ _ (Nat.le_of_eq List.length_replicate), List.length_replicate,
    Nat.sub_self, List.replicate_succ, List.set_cons_zero, List.replicate_succ', List.append_assoc]
  rfl

/-- All batches run to their ends, one after the other, and are recorded. -/
theorem runBatches_eq (parallel : Bool) (rest : List Batch) (i : Nat) (w : W)
    (h : Undisturbed f token trace x) (hl : x.launch? token = some l)
    (hbatches : l.batches.drop i = rest) (hcalling : ∀ b ∈ rest, b.calling = false)
    (hrecorded : l.recorded = .replicate i true ++ .replicate rest.length false) :
    ∃ trace' x' l' w', runBatches (answering time f) parallel token i rest x w = (([], x'), w') ∧
      Undisturbed f token trace' x' ∧ trace ⊆ trace' ∧ x'.launch? token = some l' ∧
      ∀ mark ∈ l'.recorded, mark = true := by
  -- By induction on the batches that are left; `hrecorded` says that just those before them are
  -- recorded.
  induction rest generalizing i w trace x l with
  | nil =>
    refine ⟨trace, x, l, w, rfl, h, fun _ => id, hl, ?_⟩
    rw [hrecorded, List.length_nil, List.replicate_zero, List.append_nil]
    exact fun mark hm => List.eq_of_mem_replicate hm
  | cons b rest ih =>
    obtain ⟨p, waiting, calling, done⟩ := b
    obtain rfl : calling = false := hcalling _ List.mem_cons_self
    have hb : l.batches[i]? = some ⟨p, waiting, false, done⟩ := by
      rw [← List.head?_drop, hbatches]
      rfl
    have hlt := (List.getElem?_eq_some_iff.1 hb).1
    obtain ⟨b, trace₁, x₁, w₁, hrun, h₁, hsub₁, hdone, hl₁⟩ :=
      run_seat time ⟨p, waiting, false, done⟩ waiting done w h hl hb
    have hi : l.recorded[i]? = some false := by
      rw [hrecorded, List.getElem?_append_right (by simp), List.length_replicate, Nat.sub_self]
      rfl
    obtain ⟨x₂, hrecord, h₂, hl₂⟩ := h₁.record hl₁ (List.getElem?_set_self hlt) hdone hi
    have hdrop : (l.batches.set i b).drop (i + 1) = rest := by
      rw [List.drop_set_of_lt (Nat.lt_succ_self i), ← List.tail_drop, hbatches]
      rfl
    have hset : l.recorded.set i true =
        .replicate (i + 1) true ++ .replicate rest.length false := by
      rw [hrecorded, List.length_cons, set_replicate]
    obtain ⟨trace', x', l', w', hruns, h', hsub, hl', hall⟩ := ih (i + 1) w₁ h₂ hl₂ hdrop
      (fun b hb => hcalling b (List.mem_cons_of_mem _ hb)) hset
    refine ⟨trace', x', l', w', ?_, h', ?_, hl', hall⟩
    · rw [runBatches]
      simp only [bind_apply, hrun, if_true]
      show runBatches (m := StateM W) (answering time f) parallel token (i + 1) rest
        ((x₁.record? token i).getD x₁) w₁ = _
      rw [hrecord]
      exact hruns
    · intro a ha
      exact hsub (List.mem_append_left _ (hsub₁ ha))

/-! ## Launching -/

/-- A clock in the surroundings. -/
def ticking (tick : W → UInt64 × W) : StateT Testbed (StateM W) UInt64 := fun x w =>
  (((tick w).1, x), (tick w).2)

/-- **A launch comes to its end**, by steps of the testbed that nobody disturbs. -/
theorem launch_eq (tick : W → UInt64 × W) (parallel : Bool) (s : Setup) (f : Call → Reply) (w : W)
    (h : Run trace x) (hs : x.isRunning s.request.id = false) :
    ∃ trace' x₁ x₂ elapsed r w',
      launch (ticking tick) (answering time f) parallel s.catalogue s.request x w =
        ((.ok (some r), x₂), w') ∧
      Undisturbed f ⟨x.tokens.issued⟩ trace' x₁ ∧
      .began s.catalogue s.request ⟨x.tokens.issued⟩ ∈ trace' ∧
      x₁.finish? ⟨x.tokens.issued⟩ elapsed = some (r, x₂) := by
  have hstart := Undisturbed.start h s hs f
  have hmem : s.launch ⟨x.tokens.issued⟩ ∈ (x.started s).launches :=
    List.mem_append_right _ (List.mem_singleton.2 rfl)
  have hl : (x.started s).launch? ⟨x.tokens.issued⟩ = some (s.launch ⟨x.tokens.issued⟩) := by
    -- Launches are looked up by their tokens, of which no two launches have the same.
    cases hfound : (x.started s).launch? ⟨x.tokens.issued⟩ with
    | none =>
      have hne := List.find?_eq_none.1 hfound _ hmem
      simp [Setup.launch] at hne
    | some l =>
      obtain ⟨hl, htoken⟩ := launch?_eq_some hfound
      rcases (sound_of_run hstart.run).eq_or_apart hl hmem with rfl | hapart
      · rfl
      · exact absurd htoken hapart.2
  have hcalling : ∀ b ∈ s.operations.map s.batch, b.calling = false := by
    intro b hb
    obtain ⟨op, -, rfl⟩ := List.mem_map.1 hb
    rfl
  have hrecorded : (s.launch ⟨x.tokens.issued⟩).recorded =
      .replicate 0 true ++ .replicate (s.operations.map s.batch).length false := by
    show (s.operations.map s.batch).map (fun _ => false) = _
    rw [List.map_const', List.replicate_zero, List.nil_append]
  obtain ⟨trace', x₁, l', w₁, hruns, h₁, hsub, hl', hall⟩ :=
    runBatches_eq time parallel (s.operations.map s.batch) 0 (tick w).2 hstart hl List.drop_zero
      hcalling hrecorded
  obtain ⟨r₀, hr₀⟩ := h₁.report hl'
  obtain ⟨r, x₂, hfinish⟩ := finish?_of_all hl' hr₀ hall ((tick w₁).1 - (tick w).1)
  have hbegan : .began s.catalogue s.request ⟨x.tokens.issued⟩ ∈ trace' :=
    hsub (List.mem_append_right _ (List.mem_singleton.2 rfl))
  refine ⟨trace', x₁, x₂, _, r, (tick w₁).2, ?_, h₁, hbegan, hfinish⟩
  have hlookup : (((x.started s).launch? ⟨x.tokens.issued⟩).map (·.batches)).getD [] =
      s.operations.map s.batch := by
    rw [hl]
    rfl
  have hresume : ∀ (y : Testbed) (w : W),
      resumeBatches (answering time f) ⟨x.tokens.issued⟩ [] y w = (((), y), w) := fun _ _ => rfl
  unfold launch
  simp only [bind_apply, get_apply, begin_setup s hs, set_apply, hlookup, ticking, hruns, hresume,
    hfinish]
  rfl

/-! ## Ending from anywhere -/

theorem Undisturbed.reply (h : Undisturbed f token trace x) (hl : x.launch? token = some l)
    (hb : l.batches[i]? = some ⟨p, request :: rest, true, done⟩) :
    Undisturbed f token
      (trace ++ [.moved token i (some (.replied (p.call request) (f (p.call request)) 0))])
      (x.writeBatch token i
        ⟨p, rest, false, done ++ [p.outcome request (f (p.call request)) 0]⟩) := by
  refine h.step (.receive ((batch?_of_launch? hl i).trans hb) rfl rfl) (fun _ _ _ _ he => ?_) rfl
  cases he
  rfl

/-- Every batch can be brought to its end. -/
theorem Undisturbed.settle (h : Undisturbed f token trace x) (hl : x.launch? token = some l)
    {b : Batch} (hb : l.batches[i]? = some b) :
    ∃ b' trace' x', Undisturbed f token trace' x' ∧ trace ⊆ trace' ∧ b'.isDone = true ∧
      x'.launch? token = some { l with batches := l.batches.set i b' } := by
  have hlt := (List.getElem?_eq_some_iff.1 hb).1
  let time (_ : Call) (w : Unit) : UInt64 × Unit := (0, w)
  obtain ⟨p, waiting, calling, done⟩ := b
  cases calling with
  | false =>
    obtain ⟨b', trace', x', -, -, h', hsub, hdone, hl'⟩ :=
      run_seat time ⟨p, waiting, false, done⟩ waiting done () h hl hb
    exact ⟨b', trace', x', h', hsub, hdone, hl'⟩
  | true =>
    -- A batch that calls has a request, so the first case never occurs; it counts as done all the
    -- same.
    cases waiting with
    | nil =>
      refine ⟨⟨p, [], true, done⟩, trace, x, h, fun _ => id, rfl, ?_⟩
      rw [set_eq_self hb]
      exact hl
    | cons request rest =>
      have hl₁ := launch?_writeBatch hl i
        ⟨p, rest, false, done ++ [p.outcome request (f (p.call request)) 0]⟩
      obtain ⟨b', trace', x', -, -, h', hsub, hdone, hl'⟩ :=
        run_seat time ⟨p, rest, false, []⟩ rest _ () (h.reply hl hb) hl₁
          (List.getElem?_set_self hlt)
      refine ⟨b', trace', x', h', fun a ha => hsub (List.mem_append_left _ ha), hdone, ?_⟩
      rw [List.set_set] at hl'
      exact hl'

theorem Undisturbed.settle_all (h : Undisturbed f token trace x) (hl : x.launch? token = some l)
    (hlength : l.recorded.length = l.batches.length) (n : Nat) (hn : n ≤ l.batches.length) :
    ∃ trace' x' l', Undisturbed f token trace' x' ∧ trace ⊆ trace' ∧
      x'.launch? token = some l' ∧ l'.batches.length = l.batches.length ∧
      l'.recorded.length = l.batches.length ∧ ∀ j < n, l'.recorded[j]? = some true := by
  induction n with
  | zero => exact ⟨trace, x, l, h, fun _ => id, hl, rfl, hlength, fun j hj => by cases hj⟩
  | succ n ih =>
    obtain ⟨trace₁, x₁, l₁, h₁, hsub₁, hl₁, hbatches, hrecorded, hall⟩ := ih (Nat.le_of_succ_le hn)
    have hlt : n < l₁.recorded.length := by omega
    have hlt' : n < l₁.batches.length := by omega
    -- A case that is recorded needs no further step, as its batch was done then.
    cases hmark : l₁.recorded[n] with
    | true =>
      refine ⟨trace₁, x₁, l₁, h₁, hsub₁, hl₁, hbatches, hrecorded, fun j hj => ?_⟩
      rcases Nat.lt_succ_iff_lt_or_eq.1 hj with hj | rfl
      · exact hall j hj
      · rw [List.getElem?_eq_getElem hlt, hmark]
    | false =>
      have hi : l₁.recorded[n]? = some false := by rw [List.getElem?_eq_getElem hlt, hmark]
      obtain ⟨b, trace₂, x₂, h₂, hsub₂, hdone, hl₂⟩ :=
        h₁.settle hl₁ (List.getElem?_eq_getElem hlt')
      obtain ⟨x₃, -, h₃, hl₃⟩ := h₂.record hl₂ (List.getElem?_set_self hlt') hdone hi
      refine ⟨_, x₃, _, h₃, fun a ha => List.mem_append_left _ (hsub₂ (hsub₁ ha)), hl₃, ?_, ?_,
        fun j hj => ?_⟩
      · exact (List.length_set ..).trans hbatches
      · exact (List.length_set ..).trans hrecorded
      · show (l₁.recorded.set n true)[j]? = some true
        by_cases hj' : n = j
        · subst hj'
          exact List.getElem?_set_self hlt
        · rw [List.getElem?_set_ne hj']
          exact hall j (by omega)

/-- **A test that nobody disturbs can always be brought to its end**, wherever it stands. -/
theorem Undisturbed.exists_end (h : Undisturbed f token trace x) (hl : x.launch? token = some l)
    (elapsed : UInt64) : ∃ trace' x' r x'', Undisturbed f token trace' x' ∧ trace ⊆ trace' ∧
      x'.finish? token elapsed = some (r, x'') := by
  obtain ⟨s, hs⟩ := (sound_of_run h.run).launches l (launch?_eq_some hl).1
  obtain ⟨trace', x', l', h', hsub, hl', hbatches, hrecorded, hall⟩ :=
    h.settle_all hl hs.length l.batches.length (Nat.le_refl _)
  obtain ⟨r₀, hr₀⟩ := h'.report hl'
  have hmarks : ∀ mark ∈ l'.recorded, mark = true := by
    intro mark hmark
    obtain ⟨j, hj, rfl⟩ := List.getElem_of_mem hmark
    have hj' := hall j (by omega)
    rw [List.getElem?_eq_getElem hj] at hj'
    exact Option.some.inj hj'
  obtain ⟨r, x'', hfinish⟩ := finish?_of_all hl' hr₀ hmarks elapsed
  exact ⟨trace', x', r, x'', h', hsub, hfinish⟩

end ApiDouble.Replay.Testbed
