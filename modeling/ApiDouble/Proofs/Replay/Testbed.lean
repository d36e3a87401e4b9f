import ApiDouble.Proofs.Collection.SortedMap
import ApiDouble.Proofs.Replay.Batch
import ApiDouble.Proofs.Replay.Launch

/-!
# The course of a testbed

A testbed is watched while tests begin, move, end and are cancelled in any order (`Step`, `Run`).
The trace of a run keeps what happened.

**The invariant** (`Sound`). Launches have ids and tokens of their own, and each of them goes on
with what it was begun with (`Follows`): its batches made the steps that the trace shows, and its
report holds the cases of the batches that are recorded. A step concerns one launch at most, so for
all others it is enough that nothing they look at was touched (`Follows.frame`).

Main result: `sound_of_run`.
-/

namespace ApiDouble.Replay.Testbed

/-! ## Steps -/

/-- What happens to a testbed. -/
inductive Action
  | began (catalogue : Catalogue) (t : TestRequest) (token : Token)
  | refused (t : TestRequest) (e : LaunchError)
  | moved (token : Token) (i : Nat) (event : Option Event)
  | recorded (token : Token) (i : Nat)
  | finished (token : Token) (report : TestReport)
  | cancelled (id : String)
  | looked (id : String) (report : Option TestReport)

/-- The token of the launch that an action concerns. -/
def Action.token? : Action → Option Token
  | began _ _ token | moved token _ _ | recorded token _ | finished token _ => some token
  | refused _ _ | cancelled _ | looked _ _ => none

/-- What is seen of a batch. -/
def Action.event? (token : Token) (i : Nat) : Action → Option Event
  | moved token' i' event => if token' = token ∧ i' = i then event else none
  | _ => none

/-- One step of a testbed: a test begins or is refused, a batch moves, a case is recorded, a test
ends, is cancelled, or is looked at. -/
inductive Step : Testbed → Action → Testbed → Prop
  | start {x x' : Testbed} {catalogue : Catalogue} {t : TestRequest} {token : Token}
      (h : x.begin catalogue t = .ok (token, x')) : Step x (.began catalogue t token) x'
  | refuse {x : Testbed} {catalogue : Catalogue} {t : TestRequest} {e : LaunchError}
      (h : x.begin catalogue t = .error e) : Step x (.refused t e) x
  | send {x : Testbed} {token : Token} {i : Nat} {b b' : Batch} {call : Option Call}
      (hb : x.batch? token i = some b)
      (h : b.send? (x.tokens.isCancelled token) = some (call, b')) :
      Step x (.moved token i (call.map .sent)) (x.writeBatch token i b')
  | receive {x : Testbed} {token : Token} {i : Nat} {b b' : Batch} {call : Call} {reply : Reply}
      {elapsed : UInt64} (hb : x.batch? token i = some b) (hcall : b.call? = some call)
      (h : b.receive? reply elapsed = some b') :
      Step x (.moved token i (some (.replied call reply elapsed))) (x.writeBatch token i b')
  | abandon {x : Testbed} {token : Token} {i : Nat} {b b' : Batch}
      (hb : x.batch? token i = some b) (h : b.abandon? (x.tokens.isCancelled token) = some b') :
      Step x (.moved token i none) (x.writeBatch token i b')
  | record {x x' : Testbed} {token : Token} {i : Nat} (h : x.record? token i = some x') :
      Step x (.recorded token i) x'
  | finish {x x' : Testbed} {token : Token} {elapsed : UInt64} {report : TestReport}
      (h : x.finish? token elapsed = some (report, x')) : Step x (.finished token report) x'
  | cancel (x : Testbed) (id : String) : Step x (.cancelled id) (x.cancel id).2
  | look (x : Testbed) (id : String) : Step x (.looked id (x.snapshot id)) x

/-- Any number of steps from an empty testbed. -/
inductive Run : List Action → Testbed → Prop
  | start : Run [] {}
  | step {trace : List Action} {x x' : Testbed} {a : Action} (h : Run trace x)
      (hstep : Step x a x') : Run (trace ++ [a]) x'

/-- What was seen of a batch. -/
def eventsOf (token : Token) (i : Nat) (trace : List Action) : List Event :=
  trace.filterMap (·.event? token i)

theorem eventsOf_append (token : Token) (i : Nat) (trace : List Action) (a : Action) :
    eventsOf token i (trace ++ [a]) = eventsOf token i trace ++ (a.event? token i).toList := by
  unfold eventsOf
  rw [List.filterMap_append]
  cases h : a.event? token i <;> simp [h]

theorem event?_eq_none {a : Action} {token : Token} (h : a.token? ≠ some token) (i : Nat) :
    a.event? token i = none := by
  cases a with
  | moved token' i' event =>
    have hne : ¬(token' = token ∧ i' = i) := fun he => h (congrArg some he.1)
    exact if_neg hne
  | _ => rfl

theorem eventsOf_eq_nil {trace : List Action} {token : Token}
    (h : ∀ a ∈ trace, a.token? ≠ some token) (i : Nat) : eventsOf token i trace = [] := by
  rw [eventsOf, List.filterMap_eq_nil_iff]
  intro a ha
  exact event?_eq_none (h a ha) i

/-! ## Tokens -/

/-- What a trace says of the tokens: all of them were given out, each to one test, those that can be
cancelled belong to tests that began, and those that were cancelled were cancelled by the id of
their test. -/
structure Traced (trace : List Action) (r : Tokens) : Prop where
  issued : ∀ a ∈ trace, ∀ token, a.token? = some token → token.number < r.issued
  once : ∀ catalogue t catalogue' t' token, .began catalogue t token ∈ trace →
    .began catalogue' t' token ∈ trace → catalogue' = catalogue ∧ t' = t
  running : ∀ id token, r.running.get? id = some token →
    ∃ catalogue t, .began catalogue t token ∈ trace ∧ t.id = id
  cancelled : ∀ token, r.isCancelled token = true →
    ∃ catalogue t, .began catalogue t token ∈ trace ∧ .cancelled t.id ∈ trace

variable {trace : List Action} {x x' : Testbed} {a : Action} {l : Launch} {s : Setup}
  {token : Token} {i : Nat} {r : Tokens}

theorem Traced.append (h : Traced trace r)
    (ha : ∀ token, a.token? = some token → token.number < r.issued)
    (hbegan : ∀ catalogue t token, a ≠ .began catalogue t token) : Traced (trace ++ [a]) r where
  issued a' ha' := by
    rcases List.mem_append.1 ha' with ha' | ha'
    · exact h.issued a' ha'
    · rw [List.mem_singleton.1 ha']
      exact ha
  once catalogue t catalogue' t' token hmem hmem' := by
    have hold : ∀ {catalogue t}, .began catalogue t token ∈ trace ++ [a] →
        .began catalogue t token ∈ trace := fun hm =>
      (List.mem_append.1 hm).resolve_right fun he => hbegan _ _ _ (List.mem_singleton.1 he).symm
    exact h.once _ _ _ _ _ (hold hmem) (hold hmem')
  running id token hid := by
    obtain ⟨catalogue, t, hbegan, ht⟩ := h.running id token hid
    exact ⟨catalogue, t, List.mem_append_left _ hbegan, ht⟩
  cancelled token htoken := by
    obtain ⟨catalogue, t, hbegan, ht⟩ := h.cancelled token htoken
    exact ⟨catalogue, t, List.mem_append_left _ hbegan, List.mem_append_left _ ht⟩

theorem Traced.register (h : Traced trace r) (catalogue : Catalogue) (t : TestRequest) :
    Traced (trace ++ [.began catalogue t ⟨r.issued⟩]) (r.register t.id).2 where
  issued a ha token htoken := by
    rcases List.mem_append.1 ha with ha | ha
    · exact Nat.lt_succ_of_lt (h.issued a ha token htoken)
    · rw [List.mem_singleton.1 ha] at htoken
      cases htoken
      exact Nat.lt_succ_self _
  once catalogue₁ t₁ catalogue₂ t₂ token h₁ h₂ := by
    have hnew : ∀ {catalogue t}, .began catalogue t ⟨r.issued⟩ ∉ trace := fun hm =>
      Nat.lt_irrefl _ (h.issued _ hm _ rfl)
    -- h₁ <;> | A token that an older test has is never the next one, which leaves no mixed case.
    rcases List.mem_append.1 h₁ with h₁ | h₁ <;> rcases List.mem_append.1 h₂ with h₂ | h₂
    · exact h.once _ _ _ _ _ h₁ h₂
    · cases List.mem_singleton.1 h₂
      exact absurd h₁ hnew
    · cases List.mem_singleton.1 h₁
      exact absurd h₂ hnew
    · cases List.mem_singleton.1 h₁
      cases List.mem_singleton.1 h₂
      exact ⟨rfl, rfl⟩
  running id token hid := by
    have hid : (r.running.insert t.id ⟨r.issued⟩).get? id = some token := hid
    rw [SortedMap.get?_insert] at hid
    split at hid
    · next heq =>
      cases hid
      exact ⟨catalogue, t, List.mem_append_right _ (List.mem_singleton.2 rfl),
        (Std.LawfulEqOrd.eq_of_compare heq).symm⟩
    · obtain ⟨catalogue, t, hbegan, ht⟩ := h.running id token hid
      exact ⟨catalogue, t, List.mem_append_left _ hbegan, ht⟩
  cancelled token htoken := by
    obtain ⟨catalogue, t, hbegan, ht⟩ := h.cancelled token htoken
    exact ⟨catalogue, t, List.mem_append_left _ hbegan, List.mem_append_left _ ht⟩

theorem Traced.remove (h : Traced trace r) (id : String) : Traced trace (r.remove id) where
  issued := h.issued
  once := h.once
  running id' token hid := h.running id' token (SortedMap.get?_of_get?_erase hid)
  cancelled := h.cancelled

theorem Traced.cancel (h : Traced trace r) (id : String) :
    Traced (trace ++ [.cancelled id]) (r.cancel id).2 := by
  have hsame : Traced (trace ++ [.cancelled id]) r := h.append (fun _ h => by cases h) nofun
  unfold Tokens.cancel
  cases hrunning : r.running.get? id with
  | none => exact hsame
  | some cancelled =>
    refine ⟨hsame.issued, hsame.once, fun id' token hid => ?_, fun token htoken => ?_⟩
    · exact hsame.running id' token (SortedMap.get?_of_get?_erase hid)
    · rcases List.mem_cons.1 (List.contains_iff_mem.1 htoken) with rfl | htoken
      · obtain ⟨catalogue, t, hbegan, rfl⟩ := h.running id token hrunning
        exact ⟨catalogue, t, List.mem_append_left _ hbegan,
          List.mem_append_right _ (List.mem_singleton.2 rfl)⟩
      · exact hsame.cancelled token (List.contains_iff_mem.2 htoken)

theorem Traced.not_cancelled (h : Traced trace r) : r.isCancelled ⟨r.issued⟩ = false := by
  rw [Bool.eq_false_iff]
  intro hc
  obtain ⟨catalogue, t, hbegan, -⟩ := h.cancelled _ hc
  exact Nat.lt_irrefl _ (h.issued _ hbegan _ rfl)

theorem isCancelled_cancel (r : Tokens) (id : String) (h : r.isCancelled token = true) :
    (r.cancel id).2.isCancelled token = true := by
  unfold Tokens.cancel
  cases r.running.get? id with
  | none => exact h
  | some cancelled =>
    exact List.contains_iff_mem.2 (List.mem_cons_of_mem _ (List.contains_iff_mem.1 h))

/-! ## The invariant -/

/-- A launch goes on with what it was begun with. -/
structure Follows (trace : List Action) (x : Testbed) (l : Launch) (s : Setup) : Prop where
  id : l.id = s.request.id
  began : .began s.catalogue s.request l.token ∈ trace
  plans : l.batches.map (·.plan) = s.operations.map s.plan
  length : l.recorded.length = l.batches.length
  recorded : ∀ i : Nat, l.recorded[i]? = some true ↔ .recorded l.token i ∈ trace
  steps : ∀ (i : Nat) (b : Batch), l.batches[i]? = some b →
    Steps ⟨⟨b.plan, recordedRequests b.plan.operation, false, []⟩, false, []⟩
      ⟨b, x.tokens.isCancelled l.token, eventsOf l.token i trace⟩
  done : ∀ (i : Nat) (b : Batch), l.batches[i]? = some b → l.recorded[i]? = some true →
    b.isDone = true
  report : ∃ cases, x.reports.get? l.id = some (s.report cases) ∧
    cases.Perm (l.finished.map caseOf)

/-- What holds after every run. -/
structure Sound (trace : List Action) (x : Testbed) : Prop where
  tokens : Traced trace x.tokens
  apart : x.launches.Pairwise fun l l' => l.id ≠ l'.id ∧ l.token ≠ l'.token
  launches : ∀ l ∈ x.launches, ∃ s, Follows trace x l s

/-- A launch goes on if nothing it looks at was touched, its token apart, which may be cancelled. -/
theorem Follows.frame (h : Follows trace x l s) (ha : a.token? ≠ some l.token)
    (hreport : x'.reports.get? l.id = x.reports.get? l.id)
    (htoken : x.tokens.isCancelled l.token = true → x'.tokens.isCancelled l.token = true) :
    Follows (trace ++ [a]) x' l s where
  id := h.id
  began := List.mem_append_left _ h.began
  plans := h.plans
  length := h.length
  recorded i := by
    rw [h.recorded, List.mem_append, List.mem_singleton]
    refine ⟨.inl, fun h' => h'.resolve_right ?_⟩
    rintro rfl
    exact ha rfl
  steps i b hb := by
    rw [eventsOf_append, event?_eq_none ha, Option.toList_none, List.append_nil]
    refine (h.steps i b hb).trans ?_
    -- All that may have happened to the launch is that it was cancelled, and that is a step of a
    -- batch.
    cases hc : x.tokens.isCancelled l.token with
    | true =>
      rw [htoken hc]
      exact .refl _
    | false =>
      cases x'.tokens.isCancelled l.token with
      | true => exact .tail (.refl _) (.cancel _)
      | false => exact .refl _
  done := h.done
  report := by
    rw [hreport]
    exact h.report

/-! ## What one launch does -/

theorem Follows.start (h : Traced trace x.tokens) (s : Setup) :
    Follows (trace ++ [.began s.catalogue s.request ⟨x.tokens.issued⟩]) (x.started s)
      (s.launch ⟨x.tokens.issued⟩) s := by
  -- The token is the next one, so nothing that was done before is about it.
  have hnew : ∀ a ∈ trace, a.token? ≠ some ⟨x.tokens.issued⟩ := fun a ha h' =>
    Nat.lt_irrefl _ (h.issued a ha _ h')
  refine {
    id := rfl
    began := List.mem_append_right _ (List.mem_singleton.2 rfl)
    plans := ?_
    length := List.length_map _
    recorded := ?_
    steps := ?_
    done := fun i _ _ h => absurd h (s.recorded_launch _ i)
    report := ⟨[], SortedMap.get?_insert_self, ?_⟩ }
  · show (s.operations.map s.batch).map (·.plan) = _
    rw [List.map_map]
    rfl
  · intro i
    constructor
    · intro h'
      exact absurd h' (s.recorded_launch _ i)
    · intro h'
      rcases List.mem_append.1 h' with h' | h'
      · exact absurd rfl (hnew _ h')
      · cases List.mem_singleton.1 h'
  · intro i b hb
    obtain ⟨op, -, rfl⟩ := List.mem_map.1 (List.mem_of_getElem? hb)
    show Steps _ ⟨s.batch op, x.tokens.isCancelled ⟨x.tokens.issued⟩,
      eventsOf ⟨x.tokens.issued⟩ i (trace ++ _)⟩
    rw [h.not_cancelled, eventsOf_append, eventsOf_eq_nil hnew]
    exact .refl _
  · show [].Perm ((marked _ _).map caseOf)
    rw [Setup.launch, marked_map_false]
    exact .nil

theorem set_eq_self {α : Type} {as : List α} {v : α} (h : as[i]? = some v) : as.set i v = as := by
  obtain ⟨hi, rfl⟩ := List.getElem?_eq_some_iff.1 h
  exact List.set_getElem_self hi

theorem Follows.move (h : Follows trace x l s) {b b' : Batch} {event : Option Event}
    (hb : l.batches[i]? = some b) (hmove : b.Move (x.tokens.isCancelled l.token) event b') :
    Follows (trace ++ [.moved l.token i event]) (x.writeBatch l.token i b')
      { l with batches := l.batches.set i b' } s := by
  refine {
    id := h.id
    began := List.mem_append_left _ h.began
    plans := ?_
    length := h.length.trans (List.length_set ..).symm
    recorded := ?_
    steps := ?_
    done := ?_
    report := ?_ }
  · show (l.batches.set i b').map (·.plan) = _
    rw [List.map_set, set_eq_self, h.plans]
    rw [List.getElem?_map, hb, hmove.plan_eq]
    rfl
  · intro j
    rw [h.recorded, List.mem_append, List.mem_singleton]
    exact ⟨.inl, fun h' => h'.resolve_right fun he => by cases he⟩
  · intro j b₁ hb₁
    show Steps _ ⟨b₁, x.tokens.isCancelled l.token, eventsOf l.token j (trace ++ _)⟩
    rw [eventsOf_append]
    -- To the batch that moved the event is one more; the others do not see it.
    by_cases hij : i = j
    · subst hij
      have hlt := (List.getElem?_eq_some_iff.1 hb).1
      obtain rfl : b' = b₁ := Option.some.inj ((List.getElem?_set_self hlt).symm.trans hb₁)
      have hsteps := h.steps i b hb
      rw [hmove.plan_eq, Action.event?, if_pos ⟨rfl, rfl⟩]
      exact hsteps.tail (.move _ hmove)
    · have hevent : Action.event? l.token j (.moved l.token i event) = none :=
        if_neg fun he => hij he.2
      rw [hevent, Option.toList_none, List.append_nil]
      exact h.steps j b₁ ((List.getElem?_set_ne hij).symm.trans hb₁)
  · intro j b₁ hb₁ hj
    by_cases hij : i = j
    · subst hij
      have hdone := h.done i b hb hj
      rw [hmove.isDone_eq_false] at hdone
      cases hdone
    · exact h.done j b₁ ((List.getElem?_set_ne hij).symm.trans hb₁) hj
  · -- A batch that can move is not done, so no case was recorded of it.
    have hfinished : marked (l.batches.set i b') l.recorded = l.finished := by
      apply marked_set
      intro hi
      have hdone := h.done i b hb hi
      rw [hmove.isDone_eq_false] at hdone
      cases hdone
    rw [Launch.finished, hfinished]
    exact h.report

theorem Follows.record (h : Follows trace x l s) {b : Batch} {report : TestReport}
    (hb : l.batches[i]? = some b) (hdone : b.isDone = true) (hi : l.recorded[i]? = some false)
    (hreport : x.reports.get? l.id = some report) :
    Follows (trace ++ [.recorded l.token i]) (x.withCase l i report (caseOf b))
      { l with recorded := l.recorded.set i true } s := by
  have hlt := (List.getElem?_eq_some_iff.1 hi).1
  refine {
    id := h.id
    began := List.mem_append_left _ h.began
    plans := h.plans
    length := (List.length_set ..).trans h.length
    recorded := ?_
    steps := ?_
    done := ?_
    report := ?_ }
  · intro j
    rw [List.mem_append, List.mem_singleton, ← h.recorded]
    by_cases hij : i = j
    · subst hij
      rw [List.getElem?_set_self hlt]
      exact ⟨fun _ => .inr rfl, fun _ => rfl⟩
    · rw [List.getElem?_set_ne hij]
      refine ⟨.inl, fun h' => h'.resolve_right fun he => ?_⟩
      cases he
      exact hij rfl
  · intro j b₁ hb₁
    show Steps _ ⟨b₁, x.tokens.isCancelled l.token, eventsOf l.token j (trace ++ _)⟩
    rw [eventsOf_append]
    show Steps _ ⟨b₁, _, _ ++ []⟩
    rw [List.append_nil]
    exact h.steps j b₁ hb₁
  · intro j b₁ hb₁ hj
    by_cases hij : i = j
    · subst hij
      obtain rfl : b = b₁ := Option.some.inj (hb.symm.trans hb₁)
      exact hdone
    · exact h.done j b₁ hb₁ ((List.getElem?_set_ne hij).symm.trans hj)
  · -- The new case is the last one of the report, wherever its batch stands: the two agree only up
    -- to order.
    obtain ⟨cases, hcases, hperm⟩ := h.report
    obtain rfl : report = s.report cases := Option.some.inj (hreport.symm.trans hcases)
    refine ⟨cases ++ [caseOf b], SortedMap.get?_insert_self, ?_⟩
    have hmarked : (marked l.batches (l.recorded.set i true)).Perm (l.finished ++ [b]) :=
      marked_set_true hb hi
    have hmap := hmarked.map caseOf
    rw [List.map_append] at hmap
    exact (hperm.append_right [caseOf b]).trans hmap.symm

/-! ## What all launches do -/

theorem Sound.eq_or_apart (h : Sound trace x) {l l' : Launch} (hl : l ∈ x.launches)
    (hl' : l' ∈ x.launches) : l = l' ∨ l.id ≠ l'.id ∧ l.token ≠ l'.token := by
  let R (l l' : Launch) : Prop := l = l' ∨ l.id ≠ l'.id ∧ l.token ≠ l'.token
  have hflip : x.launches.Pairwise (flip R) := h.apart.imp fun hne => .inr ⟨hne.1.symm, hne.2.symm⟩
  have hall := List.Pairwise.forall_of_forall_of_flip (R := R) (fun _ _ => .inl rfl)
    (h.apart.imp .inr) hflip
  exact hall hl hl'

theorem same_modified {f : Launch → Launch} (hf : ∀ l, (f l).id = l.id ∧ (f l).token = l.token)
    (token : Token) (l : Launch) :
    (if l.token = token then f l else l).id = l.id ∧
      (if l.token = token then f l else l).token = l.token := by
  split
  · exact hf l
  · exact ⟨rfl, rfl⟩

/-- A step of one launch, which leaves the reports of the others alone. -/
theorem Sound.modify (h : Sound trace x) {f : Launch → Launch} (hl : x.launch? token = some l)
    (ha : a.token? = some token) (hbegan : ∀ catalogue t token, a ≠ .began catalogue t token)
    (hlaunches : x'.launches = (x.modifyLaunch token f).launches)
    (htokens : x'.tokens = x.tokens)
    (hreports : ∀ id, id ≠ l.id → x'.reports.get? id = x.reports.get? id)
    (hf : ∀ l, (f l).id = l.id ∧ (f l).token = l.token)
    (hfollows : ∀ s, Follows trace x l s → Follows (trace ++ [a]) x' (f l) s) :
    Sound (trace ++ [a]) x' := by
  obtain ⟨hmem, rfl⟩ := launch?_eq_some hl
  have hsame := same_modified hf l.token
  refine ⟨?_, ?_, ?_⟩
  · rw [htokens]
    refine h.tokens.append (fun token' htoken => ?_) hbegan
    obtain rfl : l.token = token' := Option.some.inj (ha.symm.trans htoken)
    obtain ⟨s, hs⟩ := h.launches l hmem
    exact h.tokens.issued _ hs.began _ rfl
  · rw [hlaunches]
    show (x.launches.map _).Pairwise _
    rw [List.pairwise_map]
    refine h.apart.imp fun {l₁ l₂} hne => ?_
    rw [(hsame l₁).1, (hsame l₁).2, (hsame l₂).1, (hsame l₂).2]
    exact hne
  · rw [hlaunches]
    intro l₁ hl₁
    obtain ⟨l', hl', rfl⟩ := List.mem_map.1 hl₁
    -- Any other launch differs in its id and in its token, so it is left as it was.
    rcases h.eq_or_apart hl' hmem with rfl | ⟨hid, htoken⟩
    · rw [if_pos rfl]
      obtain ⟨s, hs⟩ := h.launches l' hl'
      exact ⟨s, hfollows s hs⟩
    · rw [if_neg htoken]
      obtain ⟨s, hs⟩ := h.launches l' hl'
      refine ⟨s, hs.frame ?_ (hreports _ hid) ?_⟩
      · rw [ha]
        exact fun he => htoken (Option.some.inj he).symm
      · rw [htokens]
        exact id

theorem Sound.move (h : Sound trace x) {b b' : Batch} {event : Option Event}
    (hb : x.batch? token i = some b) (hmove : b.Move (x.tokens.isCancelled token) event b') :
    Sound (trace ++ [.moved token i event]) (x.writeBatch token i b') := by
  obtain ⟨l, hl, hi⟩ := batch?_eq_some hb
  obtain ⟨-, rfl⟩ := launch?_eq_some hl
  exact h.modify hl rfl nofun rfl rfl (fun _ _ => rfl) (fun _ => ⟨rfl, rfl⟩)
    fun _ hs => hs.move hi hmove

theorem Sound.record (h : Sound trace x) (hx' : x.record? token i = some x') :
    Sound (trace ++ [.recorded token i]) x' := by
  obtain ⟨l, b, report, hl, hb, hdone, hi, hreport, rfl⟩ := record?_eq_some hx'
  obtain ⟨-, rfl⟩ := launch?_eq_some hl
  refine h.modify hl rfl nofun rfl rfl (fun id hid => ?_) (fun _ => ⟨rfl, rfl⟩)
    fun _ hs => hs.record hb hdone hi hreport
  show (x.reports.insert l.id _).get? id = _
  rw [SortedMap.get?_insert, if_neg fun he => hid (Std.LawfulEqOrd.eq_of_compare he)]

/-- A step that concerns no launch. -/
theorem Sound.pass (h : Sound trace x) (ha : a.token? = none) : Sound (trace ++ [a]) x := by
  have hne : ∀ token, a.token? ≠ some token := fun token h' => by rw [ha] at h'; cases h'
  have hbegan : ∀ catalogue t token, a ≠ .began catalogue t token := by
    rintro catalogue t token rfl
    exact hne token rfl
  refine ⟨h.tokens.append (fun token h' => absurd h' (hne token)) hbegan, h.apart,
    fun l hl => ?_⟩
  obtain ⟨s, hs⟩ := h.launches l hl
  exact ⟨s, hs.frame (hne _) rfl id⟩

theorem Sound.cancel (h : Sound trace x) (id : String) :
    Sound (trace ++ [.cancelled id]) (x.cancel id).2 := by
  refine ⟨h.tokens.cancel id, h.apart, fun l hl => ?_⟩
  obtain ⟨s, hs⟩ := h.launches l hl
  exact ⟨s, hs.frame (fun he => by cases he) rfl (isCancelled_cancel x.tokens id)⟩

theorem Sound.isRunning (h : Sound trace x) (hl : l ∈ x.launches) : x.isRunning l.id = true := by
  obtain ⟨s, hs⟩ := h.launches l hl
  obtain ⟨cases, hcases, -⟩ := hs.report
  rw [Testbed.isRunning, hcases]
  rfl

theorem Sound.start (h : Sound trace x) (s : Setup) (hs : x.isRunning s.request.id = false) :
    Sound (trace ++ [.began s.catalogue s.request ⟨x.tokens.issued⟩]) (x.started s) := by
  -- A launch with this id would have its report in progress, and the test would not have begun.
  have hid : ∀ l ∈ x.launches, l.id ≠ s.request.id := by
    intro l hl he
    have hrunning := h.isRunning hl
    rw [he, hs] at hrunning
    cases hrunning
  have htoken : ∀ l ∈ x.launches, l.token ≠ ⟨x.tokens.issued⟩ := by
    intro l hl he
    obtain ⟨s', hs'⟩ := h.launches l hl
    have hlt := h.tokens.issued _ hs'.began _ rfl
    rw [he] at hlt
    exact Nat.lt_irrefl _ hlt
  refine ⟨h.tokens.register s.catalogue s.request, ?_, ?_⟩
  · refine List.pairwise_append.2 ⟨h.apart, List.pairwise_singleton .., fun l hl l' hl' => ?_⟩
    rw [List.mem_singleton.1 hl']
    exact ⟨hid l hl, htoken l hl⟩
  · intro l hl
    rcases List.mem_append.1 hl with hl | hl
    · obtain ⟨s', hs'⟩ := h.launches l hl
      refine ⟨s', hs'.frame (fun he => htoken l hl (Option.some.inj he).symm) ?_ id⟩
      show (x.reports.insert s.request.id _).get? l.id = _
      rw [SortedMap.get?_insert, if_neg fun he => hid l hl (Std.LawfulEqOrd.eq_of_compare he)]
    · rw [List.mem_singleton.1 hl]
      exact ⟨s, .start h.tokens s⟩

theorem Sound.finish (h : Sound trace x) (hl : x.launch? token = some l) (report : TestReport) :
    Sound (trace ++ [.finished token report]) (x.ended l report) := by
  obtain ⟨hmem, rfl⟩ := launch?_eq_some hl
  refine ⟨?_, h.apart.filter _, ?_⟩
  · refine (h.tokens.append (fun token' he => ?_) fun _ _ _ he => by cases he).remove l.id
    obtain ⟨s, hs⟩ := h.launches l hmem
    cases he
    exact h.tokens.issued _ hs.began _ rfl
  · intro l' hl'
    obtain ⟨hl', htoken⟩ := List.mem_filter.1 hl'
    have htoken : l'.token ≠ l.token := of_decide_eq_true htoken
    have hid : l'.id ≠ l.id := by
      rcases h.eq_or_apart hl' hmem with rfl | hne
      · exact absurd rfl htoken
      · exact hne.1
    obtain ⟨s, hs⟩ := h.launches l' hl'
    refine ⟨s, hs.frame (fun he => htoken (Option.some.inj he).symm) ?_ id⟩
    show (x.reports.insert l.id _).get? l'.id = _
    rw [SortedMap.get?_insert, if_neg fun he => hid (Std.LawfulEqOrd.eq_of_compare he)]

/-- One step keeps the invariant. -/
theorem Sound.step (h : Sound trace x) (hstep : Step x a x') : Sound (trace ++ [a]) x' := by
  cases hstep with
  | start hbegin =>
    obtain ⟨s, rfl, rfl, hs, rfl, rfl⟩ := begin_eq_ok hbegin
    exact h.start s hs
  | refuse => exact h.pass rfl
  | send hb hsend => exact h.move hb (Batch.move_of_send? hsend)
  | receive hb hcall hreceive => exact h.move hb (Batch.move_of_receive? hreceive hcall _)
  | abandon hb habandon => exact h.move hb (Batch.move_of_abandon? habandon)
  | record hrecord => exact h.record hrecord
  | finish hfinish =>
    obtain ⟨l, r₀, hl, -, -, -, rfl⟩ := finish?_eq_some hfinish
    exact h.finish hl _
  | cancel id => exact h.cancel id
  | look => exact h.pass rfl

/-- **The invariant holds after every run.** -/
theorem sound_of_run (h : Run trace x) : Sound trace x := by
  induction h with
  | start =>
    refine ⟨⟨?_, ?_, ?_, ?_⟩, .nil, ?_⟩
    · intro a ha
      cases ha
    · intro _ _ _ _ _ hmem
      cases hmem
    · intro id token htoken
      cases htoken
    · intro token htoken
      cases htoken
    · intro l hl
      cases hl
  | step _ hstep ih => exact ih.step hstep

end ApiDouble.Replay.Testbed
