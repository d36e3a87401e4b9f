import ApiDouble.Proofs.Replay.Batch

/-!
# Running a batch

The loop that runs a batch reads the token of its test before every request and waits for every call
that it sends. It is run here in surroundings that decide freely when the test is cancelled and what
becomes of each call (`Surroundings`); only a call without any reply has to see the test cancelled.

Every iteration is made of steps of the batch, so the loop comes to its end on the course that every
batch keeps.

Main results: `run_steps`, `run_concluded`.
-/

namespace ApiDouble.Replay

/-! ## Surroundings -/

/-- What becomes of a call: a reply comes, the test being cancelled meanwhile or not, or the test is
cancelled before any reply came. -/
inductive Fate
  | answered (reply : Reply) (elapsed : UInt64) (cancelled : Bool)
  | hung

/-- What a batch runs in. `raises` says whether the test was cancelled since the last call. -/
structure Surroundings (W : Type) where
  raises : W → Bool × W
  fate : Call → W → Fate × W

/-- The moment after the test was cancelled, or was not. -/
def Moment.raise (s : Moment) (c : Bool) : Moment := { s with cancelled := s.cancelled || c }

/-- The moment after some more was seen. -/
def Moment.see (s : Moment) (events : List Event) : Moment := { s with seen := s.seen ++ events }

namespace Surroundings

variable {W : Type}

/-- Reads and writes the batch of the moment. -/
def seat (e : Surroundings W) : Seat (StateT Moment (StateM W)) where
  isCancelled := fun s w => (((s.raise (e.raises w).1).cancelled, s.raise (e.raises w).1),
    (e.raises w).2)
  read := return (← get).batch
  write b := modify fun s => { s with batch := b }

/-- Sends a call and waits for what becomes of it. -/
def transport (e : Surroundings W) : Transport (StateT Moment (StateM W)) := fun call s w =>
  match e.fate call w with
  | (.answered reply elapsed c, w) =>
    ((.replied reply elapsed, (s.see [.sent call, .replied call reply elapsed]).raise c), w)
  | (.hung, w) => ((.silent, (s.see [.sent call]).raise true), w)

end Surroundings

/-! ## Iterations -/

theorem bind_apply {S W α β : Type} (x : StateT S (StateM W) α) (f : α → StateT S (StateM W) β)
    (s : S) (w : W) : (x >>= f) s w = f (x s w).1.1 (x s w).1.2 (x s w).2 := rfl

theorem get_apply {S W : Type} (s : S) (w : W) :
    (get : StateT S (StateM W) S) s w = ((s, s), w) := rfl

theorem set_apply {S W : Type} (s s' : S) (w : W) :
    (set s' : StateT S (StateM W) PUnit) s w = (((), s'), w) := rfl

section

variable {W : Type} (e : Surroundings W) (s : Moment) (w : W)

theorem read_apply : e.seat.read s w = ((s.batch, s), w) := rfl

theorem write_apply (b : Batch) : e.seat.write b s w = (((), { s with batch := b }), w) := rfl

theorem isCancelled_apply :
    e.seat.isCancelled s w =
      (((s.raise (e.raises w).1).cancelled, s.raise (e.raises w).1), (e.raises w).2) := rfl

end

variable {W : Type} (e : Surroundings W) (n : Nat) {p : Plan} {request : Message}
  {rest : List Message} {done : List Outcome} {cancelled raised : Bool} {seen : List Event}
  {w w₁ w₂ : W}

theorem run_skip (hraises : e.raises w = (raised, w₁)) (hc : (cancelled || raised) = true) :
    e.seat.run e.transport (n + 1) ⟨⟨p, request :: rest, false, done⟩, cancelled, seen⟩ w =
      e.seat.run e.transport n ⟨⟨p, rest, false, done ++ [.skipped request]⟩, true, seen⟩ w₁ := by
  rw [Seat.run]
  simp only [bind_apply, read_apply, isCancelled_apply, hraises, Moment.raise, hc, Batch.send?,
    if_true, write_apply]

theorem run_answered (hraises : e.raises w = (raised, w₁)) (hc : (cancelled || raised) = false)
    {reply : Reply} {elapsed : UInt64} {c : Bool}
    (hfate : e.fate (p.call request) w₁ = (.answered reply elapsed c, w₂)) :
    e.seat.run e.transport (n + 1) ⟨⟨p, request :: rest, false, done⟩, cancelled, seen⟩ w =
      e.seat.run e.transport n ⟨⟨p, rest, false, done ++ [p.outcome request reply elapsed]⟩, c,
        seen ++ [.sent (p.call request), .replied (p.call request) reply elapsed]⟩ w₂ := by
  rw [Seat.run]
  simp only [bind_apply, read_apply, isCancelled_apply, hraises, Moment.raise, hc, Batch.send?]
  simp [bind_apply, read_apply, write_apply, Surroundings.transport, hfate, Moment.raise,
    Moment.see, Batch.receive?, Batch.settle?]

theorem run_hung (hraises : e.raises w = (raised, w₁)) (hc : (cancelled || raised) = false)
    (hfate : e.fate (p.call request) w₁ = (.hung, w₂)) :
    e.seat.run e.transport (n + 1) ⟨⟨p, request :: rest, false, done⟩, cancelled, seen⟩ w =
      e.seat.run e.transport n ⟨⟨p, rest, false, done ++ [.skipped request]⟩, true,
        seen ++ [.sent (p.call request)]⟩ (e.raises w₂).2 := by
  rw [Seat.run]
  simp only [bind_apply, read_apply, isCancelled_apply, hraises, Moment.raise, hc, Batch.send?]
  simp [bind_apply, read_apply, write_apply, isCancelled_apply, Surroundings.transport, hfate,
    Moment.raise, Moment.see, Batch.abandon?, Batch.settle?]

/-! ## The loop as steps -/

theorem steps_raise (b : Batch) (cancelled c : Bool) (seen : List Event) :
    Steps ⟨b, cancelled, seen⟩ ⟨b, cancelled || c, seen⟩ := by
  cases c with
  | true =>
    rw [Bool.or_true]
    exact .tail (.refl _) (.cancel _)
  | false =>
    rw [Bool.or_false]
    exact .refl _

theorem steps_move (seen : List Event) {b b' : Batch} {event : Option Event}
    (h : b.Move cancelled event b') :
    Steps ⟨b, cancelled, seen⟩ ⟨b', cancelled, seen ++ event.toList⟩ :=
  .tail (.refl _) (.move seen h)

theorem steps_skip :
    Steps ⟨⟨p, request :: rest, false, done⟩, true, seen⟩
      ⟨⟨p, rest, false, done ++ [.skipped request]⟩, true, seen⟩ := by
  have h := steps_move seen (.skip p request rest done)
  rwa [Option.toList_none, List.append_nil] at h

/-- The steps of a request that is answered, the test being cancelled or not while it waits. -/
theorem steps_answered (reply : Reply) (elapsed : UInt64) (c : Bool) :
    Steps ⟨⟨p, request :: rest, false, done⟩, false, seen⟩
      ⟨⟨p, rest, false, done ++ [p.outcome request reply elapsed]⟩, c,
        seen ++ [.sent (p.call request), .replied (p.call request) reply elapsed]⟩ := by
  have hsend := steps_move seen (.send p request rest done)
  have hraise := steps_raise ⟨p, request :: rest, true, done⟩ false c
    (seen ++ [.sent (p.call request)])
  have hreceive := steps_move (seen ++ [.sent (p.call request)])
    (.receive c p request rest done reply elapsed)
  rw [Bool.false_or] at hraise
  rw [List.append_assoc] at hreceive
  exact hsend.trans (hraise.trans hreceive)

theorem steps_hung :
    Steps ⟨⟨p, request :: rest, false, done⟩, false, seen⟩
      ⟨⟨p, rest, false, done ++ [.skipped request]⟩, true, seen ++ [.sent (p.call request)]⟩ := by
  have hsend := steps_move seen (.send p request rest done)
  have hraise := steps_raise ⟨p, request :: rest, true, done⟩ false true
    (seen ++ [.sent (p.call request)])
  have habandon := steps_move (seen ++ [.sent (p.call request)])
    (.abandon p request rest done)
  rw [Option.toList_none, List.append_nil] at habandon
  exact hsend.trans (hraise.trans habandon)

/-- **The loop comes to its end, and what it did are steps of the batch.** -/
theorem run_steps (waiting : List Message) (done : List Outcome) (cancelled : Bool)
    (seen : List Event) (w : W) :
    ∃ t w', e.seat.run e.transport waiting.length ⟨⟨p, waiting, false, done⟩, cancelled, seen⟩ w =
        ((true, t), w') ∧
      Steps ⟨⟨p, waiting, false, done⟩, cancelled, seen⟩ t ∧ t.batch.isDone = true := by
  induction waiting generalizing done cancelled seen w with
  | nil => exact ⟨_, w, rfl, .refl _, rfl⟩
  | cons request rest ih =>
    -- Where one iteration leads to, the rest of the loop goes on.
    have hrest : ∀ {c : Bool} {seen' : List Event} {w' : W} {done' : List Outcome},
        Steps ⟨⟨p, request :: rest, false, done⟩, cancelled, seen⟩
          ⟨⟨p, rest, false, done'⟩, c, seen'⟩ →
        e.seat.run e.transport (rest.length + 1)
            ⟨⟨p, request :: rest, false, done⟩, cancelled, seen⟩ w =
          e.seat.run e.transport rest.length ⟨⟨p, rest, false, done'⟩, c, seen'⟩ w' →
        ∃ t w'', e.seat.run e.transport (rest.length + 1)
            ⟨⟨p, request :: rest, false, done⟩, cancelled, seen⟩ w = ((true, t), w'') ∧
          Steps ⟨⟨p, request :: rest, false, done⟩, cancelled, seen⟩ t ∧
          t.batch.isDone = true := by
      intro c seen' w' done' hsteps hrun
      obtain ⟨t, w'', ht, hsteps', hdone⟩ := ih done' c seen' w'
      exact ⟨t, w'', hrun.trans ht, hsteps.trans hsteps', hdone⟩
    cases hraises : e.raises w with
    | mk raised w₁ =>
      have hlook := steps_raise ⟨p, request :: rest, false, done⟩ cancelled raised seen
      cases hc : cancelled || raised with
      | true =>
        rw [hc] at hlook
        exact hrest (hlook.trans steps_skip) (run_skip e _ hraises hc)
      | false =>
        rw [hc] at hlook
        cases hfate : e.fate (p.call request) w₁ with
        | mk fate w₂ =>
          cases fate with
          | answered reply elapsed c =>
            exact hrest (hlook.trans (steps_answered reply elapsed c))
              (run_answered e _ hraises hc hfate)
          | hung =>
            exact hrest (hlook.trans steps_hung) (run_hung e _ hraises hc hfate)

/-! ## Conclusions -/

/-- What an outcome says about a reply: an error is a failure with the text of the error and without
a response, a response is captured and judged by the runner. -/
def Tells (p : Plan) (o : Outcome) : Reply → Prop
  | .error e => o.verdict = .failure ∧ o.message = some e.message ∧ o.response = none
  | .ok c => o.verdict = p.runner.classify c ∧ o.message = some (p.runner.describe c) ∧
      ∃ response, o.response = some response ∧ response.status = some (toString c.status) ∧
        response.content = some c.body ∧ response.mediaType = c.mediaType ∧
        response.headers = c.headers

theorem outcome_tells (p : Plan) (a : Answered) : Tells p (a.outcome p) a.reply := by
  obtain ⟨request, reply, elapsed⟩ := a
  cases reply with
  | error e => exact ⟨rfl, rfl, rfl⟩
  | ok c => exact ⟨rfl, rfl, _, rfl, rfl, rfl, rfl, rfl⟩

theorem verdictOfStatus_ne_skipped (c : Capture) : verdictOfStatus c ≠ .skipped := by
  unfold verdictOfStatus
  split <;> simp

/-- Neither of the two runners skips a request that was answered. -/
theorem classify_ne_skipped {r : Runner} (hr : r = .http ∨ r = .soap) (c : Capture) :
    r.classify c ≠ .skipped := by
  rcases hr with rfl | rfl
  · exact verdictOfStatus_ne_skipped c
  · show Soap.classify c ≠ .skipped
    unfold Soap.classify
    split
    · simp
    · exact verdictOfStatus_ne_skipped c

theorem verdict_outcome_ne_skipped (hp : p.runner = .http ∨ p.runner = .soap) (a : Answered) :
    (a.outcome p).verdict ≠ .skipped := by
  obtain ⟨request, reply, elapsed⟩ := a
  cases reply with
  | error e => exact fun h => by cases h
  | ok c => exact classify_ne_skipped hp c

/-- **A batch always comes to its end.** Each request has its outcome at its place: first those that
were answered, then those that were skipped because the test was cancelled. -/
theorem run_concluded (hp : p.runner = .http ∨ p.runner = .soap) (requests : List Message)
    (cancelled : Bool) (w : W) :
    ∃ s w' answered skipped,
      e.seat.run e.transport requests.length ⟨⟨p, requests, false, []⟩, cancelled, []⟩ w =
        ((true, s), w') ∧
      Concluded p requests s answered skipped ∧
      s.batch.outcomes.length = requests.length ∧
      (∀ a ∈ answered, (a.outcome p).verdict ≠ .skipped ∧ Tells p (a.outcome p) a.reply) ∧
      ∀ request ∈ skipped, (Outcome.skipped request).verdict = .skipped ∧
        (Outcome.skipped request).request = request ∧
        (Outcome.skipped request).response = none := by
  obtain ⟨s, w', hrun, hsteps, hdone⟩ := run_steps e (p := p) requests [] cancelled [] w
  obtain ⟨answered, skipped, h⟩ := (course_of_steps hsteps).concluded hdone
  refine ⟨s, w', answered, skipped, hrun, h, ?_, ?_, fun _ _ => ⟨rfl, rfl, rfl⟩⟩
  · rw [h.outcomes, h.requests]
    simp
  · intro a _
    exact ⟨verdict_outcome_ne_skipped hp a, outcome_tells p a⟩

/-- The first call times out; the test is cancelled while the second one waits. -/
def stopping : Surroundings Nat where
  raises n := (false, n)
  fate
    | _, 0 => (.answered (.error (.timeout "slow")) 30 false, 1)
    | _, n => (.hung, n)

def pingPlan : Plan :=
  ⟨.http, .ofPath "GET" "/ping", .none, "http://localhost", {}⟩

theorem run_stopping :
    ∃ s w', stopping.seat.run stopping.transport 3
        ⟨⟨pingPlan, [default, default, default], false, []⟩, false, []⟩ 0 = ((true, s), w') ∧
      s.batch.outcomes.length = 3 := by
  obtain ⟨s, w', _, _, hrun, -, hlength, -, -⟩ :=
    run_concluded stopping (p := pingPlan) (.inl rfl) [default, default, default] false 0
  exact ⟨s, w', hrun, hlength⟩

end ApiDouble.Replay
