import ApiDouble.Replay.Batch

/-!
# The course of a batch

A batch is watched while its test may be cancelled at any time (`Moment`, `Step`). Whatever the
order of these steps is, the batch is in one of three situations (`Course`):

* **Going.** Every request so far was answered.
* **Calling.** So it was, and the call of the next request is out.
* **Skipping.** The test was cancelled. Some requests were answered, all after them were skipped,
  and only the first of those may have been sent.

So what is left at the end is known (`Concluded`).

Main results: `course_of_steps`, `Course.concluded`.
-/

namespace ApiDouble.Replay

/-! ## Moves -/

/-- What is seen of a batch: a call that goes out, a reply that comes in. -/
inductive Event
  | sent (call : Call)
  | replied (call : Call) (reply : Reply) (elapsed : UInt64)

/-- The call of the first request that waits. -/
def Batch.call? (b : Batch) : Option Call := b.waiting.head?.map b.plan.call

/-- What a batch can do, depending on whether its test is cancelled, and what is seen of it. -/
inductive Batch.Move : Bool → Batch → Option Event → Batch → Prop
  | skip (p : Plan) (request : Message) (rest : List Message) (done : List Outcome) :
      Move true ⟨p, request :: rest, false, done⟩ none ⟨p, rest, false, done ++ [.skipped request]⟩
  | send (p : Plan) (request : Message) (rest : List Message) (done : List Outcome) :
      Move false ⟨p, request :: rest, false, done⟩ (some (.sent (p.call request)))
        ⟨p, request :: rest, true, done⟩
  | receive (c : Bool) (p : Plan) (request : Message) (rest : List Message) (done : List Outcome)
      (reply : Reply) (elapsed : UInt64) :
      Move c ⟨p, request :: rest, true, done⟩ (some (.replied (p.call request) reply elapsed))
        ⟨p, rest, false, done ++ [p.outcome request reply elapsed]⟩
  | abandon (p : Plan) (request : Message) (rest : List Message) (done : List Outcome) :
      Move true ⟨p, request :: rest, true, done⟩ none ⟨p, rest, false, done ++ [.skipped request]⟩

namespace Batch

theorem Move.plan_eq {c : Bool} {b b' : Batch} {event : Option Event} (h : b.Move c event b') :
    b'.plan = b.plan := by
  cases h <;> rfl

theorem Move.isDone_eq_false {c : Bool} {b b' : Batch} {event : Option Event}
    (h : b.Move c event b') : b.isDone = false := by
  cases h <;> rfl

theorem move_of_send? {c : Bool} {b b' : Batch} {call : Option Call}
    (h : b.send? c = some (call, b')) : Move c b (call.map .sent) b' := by
  obtain ⟨p, waiting, calling, done⟩ := b
  unfold send? at h
  cases calling with
  | true => cases h
  | false =>
    cases waiting with
    | nil => cases h
    | cons request rest =>
      cases c with
      | true =>
        cases h
        exact .skip p request rest done
      | false =>
        cases h
        exact .send p request rest done

theorem settle?_eq_some {outcome : Message → Outcome} {b b' : Batch}
    (h : b.settle? outcome = some b') : ∃ p request rest done,
      b = ⟨p, request :: rest, true, done⟩ ∧ b' = ⟨p, rest, false, done ++ [outcome request]⟩ := by
  obtain ⟨p, waiting, calling, done⟩ := b
  unfold settle? at h
  cases calling with
  | false => cases h
  | true =>
    cases waiting with
    | nil => cases h
    | cons request rest =>
      cases h
      exact ⟨p, request, rest, done, rfl, rfl⟩

theorem move_of_receive? {reply : Reply} {elapsed : UInt64} {b b' : Batch} {call : Call}
    (h : b.receive? reply elapsed = some b') (hcall : b.call? = some call) (c : Bool) :
    Move c b (some (.replied call reply elapsed)) b' := by
  obtain ⟨p, request, rest, done, hb, rfl⟩ := settle?_eq_some h
  subst hb
  cases hcall
  exact .receive c p request rest done reply elapsed

theorem move_of_abandon? {c : Bool} {b b' : Batch} (h : b.abandon? c = some b') :
    Move c b none b' := by
  cases c with
  | false => cases h
  | true =>
    obtain ⟨p, request, rest, done, hb, rfl⟩ := settle?_eq_some h
    subst hb
    exact .abandon p request rest done

end Batch

/-! ## Steps -/

/-- A batch, whether its test is cancelled, and what was seen so far. -/
structure Moment where
  batch : Batch
  cancelled : Bool
  seen : List Event := []

/-- The batch moves, or the test is cancelled. -/
inductive Step : Moment → Moment → Prop
  | cancel (s : Moment) : Step s { s with cancelled := true }
  | move {c : Bool} {b b' : Batch} {event : Option Event} (seen : List Event)
      (h : b.Move c event b') : Step ⟨b, c, seen⟩ ⟨b', c, seen ++ event.toList⟩

/-- Any number of steps. -/
inductive Steps : Moment → Moment → Prop
  | refl (s : Moment) : Steps s s
  | tail {s t u : Moment} (h : Steps s t) (hstep : Step t u) : Steps s u

theorem Steps.trans {s t u : Moment} (h : Steps s t) (h' : Steps t u) : Steps s u := by
  induction h' with
  | refl => exact h
  | tail _ hstep ih => exact .tail ih hstep

/-! ## Courses -/

/-- A request that was answered, with what and after how long. -/
structure Answered where
  request : Message
  reply : Reply
  elapsed : UInt64

namespace Answered

def outcome (p : Plan) (a : Answered) : Outcome := p.outcome a.request a.reply a.elapsed

/-- The call and the reply. -/
def events (p : Plan) (a : Answered) : List Event :=
  [.sent (p.call a.request), .replied (p.call a.request) a.reply a.elapsed]

end Answered

/-- The moments that a batch of some requests may come to. -/
inductive Course (p : Plan) : List Message → Moment → Prop
  | going (answered : List Answered) (waiting : List Message) (c : Bool) :
      Course p (answered.map (·.request) ++ waiting)
        ⟨⟨p, waiting, false, answered.map (·.outcome p)⟩, c, answered.flatMap (·.events p)⟩
  | calling (answered : List Answered) (request : Message) (rest : List Message) (c : Bool) :
      Course p (answered.map (·.request) ++ request :: rest)
        ⟨⟨p, request :: rest, true, answered.map (·.outcome p)⟩, c,
          answered.flatMap (·.events p) ++ [.sent (p.call request)]⟩
  | skipping (answered : List Answered) (skipped waiting : List Message) (last : List Event)
      (h : last = [] ∨ ∃ first, skipped.head? = some first ∧ last = [.sent (p.call first)]) :
      Course p (answered.map (·.request) ++ (skipped ++ waiting))
        ⟨⟨p, waiting, false, answered.map (·.outcome p) ++ skipped.map .skipped⟩, true,
          answered.flatMap (·.events p) ++ last⟩

variable {p : Plan} {requests : List Message}

/-- One step keeps a batch on course. -/
theorem Course.step {s t : Moment} (h : Course p requests s) (hstep : Step s t) :
    Course p requests t := by
  cases hstep with
  | cancel =>
    cases h with
    | going answered waiting => exact .going answered waiting true
    | calling answered request rest => exact .calling answered request rest true
    | skipping answered skipped waiting last hlast =>
      exact .skipping answered skipped waiting last hlast
  | @move c _ _ _ seen hmove =>
    cases h with
    | going answered waiting =>
      cases hmove with
      | skip _ request rest _ => exact .skipping answered [request] rest [] (.inl rfl)
      | send _ request rest _ => exact .calling answered request rest false
    | calling answered request rest =>
      cases hmove with
      | receive _ _ _ _ _ reply elapsed =>
        have hgoing := Course.going (p := p) (answered ++ [⟨request, reply, elapsed⟩]) rest c
        rw [List.map_append, List.append_assoc, List.map_append, List.flatMap_append] at hgoing
        rw [List.append_assoc]
        exact hgoing
      | abandon =>
        rw [Option.toList_none, List.append_nil]
        exact .skipping answered [request] rest [.sent (p.call request)] (.inr ⟨request, rfl, rfl⟩)
    | skipping answered skipped waiting last hlast =>
      cases hmove with
      | skip _ request rest _ =>
        -- The call that was given up is that of the first request skipped, and this one stays the
        -- first.
        have hlast' : last = [] ∨
            ∃ first, (skipped ++ [request]).head? = some first ∧ last = [.sent (p.call first)] := by
          rcases hlast with hnil | ⟨first, hfirst, hsent⟩
          · exact .inl hnil
          · refine .inr ⟨first, ?_, hsent⟩
            rw [List.head?_append, hfirst, Option.some_or]
        have hskipping := Course.skipping (p := p) answered (skipped ++ [request]) rest last hlast'
        rw [List.append_assoc, List.map_append, ← List.append_assoc (answered.map (·.outcome p))]
          at hskipping
        rw [Option.toList_none, List.append_nil]
        exact hskipping

/-- **Whatever is done in whatever order, a batch stays on course.** -/
theorem course_of_steps {c : Bool} {s : Moment} (h : Steps ⟨⟨p, requests, false, []⟩, c, []⟩ s) :
    Course p requests s := by
  induction h with
  | refl => exact .going [] requests c
  | tail _ hstep ih => exact ih.step hstep

/-! ## Conclusions -/

/-- What a done batch leaves behind: some requests were answered, the others skipped, and at most
the first of the skipped ones was sent. -/
structure Concluded (p : Plan) (requests : List Message) (s : Moment) (answered : List Answered)
    (skipped : List Message) : Prop where
  requests : requests = answered.map (·.request) ++ skipped
  outcomes : s.batch.outcomes = answered.map (·.outcome p) ++ skipped.map .skipped
  seen : s.seen = answered.flatMap (·.events p) ∨
    ∃ first, skipped.head? = some first ∧
      s.seen = answered.flatMap (·.events p) ++ [.sent (p.call first)]
  uncancelled : s.cancelled = false → skipped = []

theorem Course.concluded {s : Moment} (h : Course p requests s) (hdone : s.batch.isDone = true) :
    ∃ answered skipped, Concluded p requests s answered skipped := by
  cases h with
  | going answered waiting c =>
    obtain rfl : waiting = [] := List.isEmpty_iff.1 hdone
    exact ⟨answered, [], rfl, (List.append_nil _).symm, .inl rfl, fun _ => rfl⟩
  | calling answered request rest c => cases hdone
  | skipping answered skipped waiting last hlast =>
    obtain rfl : waiting = [] := List.isEmpty_iff.1 hdone
    refine ⟨answered, skipped, by rw [List.append_nil], rfl, ?_, fun h => by cases h⟩
    rcases hlast with rfl | ⟨first, hfirst, rfl⟩
    · exact .inl (List.append_nil _)
    · exact .inr ⟨first, hfirst, rfl⟩

end ApiDouble.Replay
