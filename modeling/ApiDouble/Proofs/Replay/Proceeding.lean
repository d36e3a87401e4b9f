import ApiDouble.Proofs.Replay.Sequence

/-!
# Launches in any surroundings

A launch leaves its calls to a transport, and while a call is out the surroundings may do with the
testbed what they like as long as they take steps of it: begin other tests, cancel some, or look at
their reports. Whatever takes steps only (`Proceeds`) may be put one after the other, and so a
launch in such surroundings is a part of a run. So is taking up a test that waits for late replies.

Main results: `proceeds_launch`, `proceeds_takeUp`.
-/

namespace ApiDouble.Replay.Testbed

variable {W α β : Type} {trace : List Action} {x : Testbed} {token : Token} {i : Nat}

/-- Takes steps of the testbed only: every run that led to it goes on. -/
def Proceeds (c : StateT Testbed (StateM W) α) : Prop :=
  ∀ trace x w, Run trace x → ∃ more, Run (trace ++ more) (c x w).1.2

theorem Run.stay (h : Run trace x) : ∃ more, Run (trace ++ more) x :=
  ⟨[], by rwa [List.append_nil]⟩

theorem Run.go {x' : Testbed} {a : Action} (h : Run trace x) (hstep : Step x a x') :
    ∃ more, Run (trace ++ more) x' :=
  ⟨[a], h.step hstep⟩

theorem Run.further {x' : Testbed} (h : ∃ more, Run (trace ++ more) x)
    (h' : ∀ trace', Run trace' x → ∃ more, Run (trace' ++ more) x') :
    ∃ more, Run (trace ++ more) x' := by
  obtain ⟨more, hmore⟩ := h
  obtain ⟨more', hmore'⟩ := h' _ hmore
  refine ⟨more ++ more', ?_⟩
  rwa [← List.append_assoc]

theorem Proceeds.pure (a : α) : Proceeds (W := W) (pure a) := fun _ _ _ h => h.stay

theorem Proceeds.bind {c : StateT Testbed (StateM W) α} {g : α → StateT Testbed (StateM W) β}
    (hc : Proceeds c) (hg : ∀ a, Proceeds (g a)) : Proceeds (c >>= g) := fun trace x w h =>
  Run.further (hc trace x w h) fun trace' h' => hg _ trace' _ _ h'

theorem Proceeds.get_bind {g : Testbed → StateT Testbed (StateM W) α} (hg : ∀ x, Proceeds (g x)) :
    Proceeds (get >>= g) := fun trace x w h => hg x trace x w h

theorem set_bind_apply (g : PUnit → StateT Testbed (StateM W) α) (x x' : Testbed) (w : W) :
    (set x' >>= g) x w = g () x' w := rfl

/-! ## Batches -/

theorem writeBatch_eq_self (h : Run trace x) (hnone : x.batch? token i = none) (b : Batch) :
    x.writeBatch token i b = x := by
  have hsame : ∀ l ∈ x.launches,
      (if l.token = token then { l with batches := l.batches.set i b } else l) = l := by
    intro l hl
    split
    · next htoken =>
      cases hfound : x.launch? token with
      | none => exact absurd (beq_iff_eq.2 htoken) (List.find?_eq_none.1 hfound l hl)
      | some l' =>
        obtain ⟨hl', htoken'⟩ := launch?_eq_some hfound
        have hbatches : l.batches[i]? = none := by
          rcases (sound_of_run h).eq_or_apart hl hl' with rfl | hapart
          · rwa [batch?_of_launch? hfound] at hnone
          · exact absurd (htoken.trans htoken'.symm) hapart.2
        rw [List.set_eq_of_length_le (List.getElem?_eq_none_iff.1 hbatches)]
    · rfl
  show { x with launches := x.launches.map _ } = x
  rw [List.map_congr_left hsame, List.map_id']

/-- A batch that is there makes a step, any other none. -/
theorem Run.write (h : Run trace x) {b : Batch}
    (hstep : ∀ b₀, x.batch? token i = some b₀ → ∃ a, Step x a (x.writeBatch token i b)) :
    ∃ more, Run (trace ++ more) (x.writeBatch token i b) := by
  cases hb : x.batch? token i with
  | none =>
    rw [writeBatch_eq_self h hb]
    exact h.stay
  | some b₀ =>
    obtain ⟨a, ha⟩ := hstep b₀ hb
    exact h.go ha

theorem Run.send (h : Run trace x) {b b' : Batch} {call : Option Call}
    (hsend : ((x.batch? token i).getD b).send? (x.tokens.isCancelled token) = some (call, b')) :
    ∃ more, Run (trace ++ more) (x.writeBatch token i b') := by
  refine h.write fun b₀ hb => ?_
  rw [hb] at hsend
  exact ⟨_, .send hb hsend⟩

theorem Run.receive (h : Run trace x) {b b' : Batch} {reply : Reply} {elapsed : UInt64}
    (hreceive : ((x.batch? token i).getD b).receive? reply elapsed = some b') :
    ∃ more, Run (trace ++ more) (x.writeBatch token i b') := by
  refine h.write fun b₀ hb => ?_
  rw [hb, Option.getD_some] at hreceive
  obtain ⟨p, request, rest, done, rfl, rfl⟩ := Batch.settle?_eq_some hreceive
  exact ⟨_, .receive hb rfl hreceive⟩

theorem Run.abandon (h : Run trace x) {b b' : Batch}
    (habandon : ((x.batch? token i).getD b).abandon? (x.tokens.isCancelled token) = some b') :
    ∃ more, Run (trace ++ more) (x.writeBatch token i b') := by
  refine h.write fun b₀ hb => ?_
  rw [hb] at habandon
  exact ⟨_, .abandon hb habandon⟩

variable {transport late : Transport (StateT Testbed (StateM W))}

theorem pure_apply (a : α) (x : Testbed) (w : W) :
    (pure a : StateT Testbed (StateM W) α) x w = ((a, x), w) := rfl

theorem proceeds_run (htransport : ∀ call, Proceeds (transport call)) (b : Batch) (n : Nat) :
    Proceeds ((seat token i b).run transport n) := by
  induction n with
  | zero => exact fun _ _ _ h => h.stay
  | succ n ih =>
    intro trace x w h
    rw [Seat.run]
    simp only [bind_apply, read_seat, isCancelled_seat]
    cases hsend : ((x.batch? token i).getD b).send? (x.tokens.isCancelled token) with
    | none => exact h.stay
    | some sent =>
      obtain ⟨call, b'⟩ := sent
      have hwritten := h.send hsend
      cases call with
      | none => exact Run.further hwritten fun trace' h' => ih trace' _ w h'
      | some call =>
        -- The testbed may be another one by the time the call has come to an end.
        refine Run.further (Run.further hwritten fun trace' h' => htransport call trace' _ w h')
          fun trace' h' => ?_
        simp only [bind_apply, write_seat]
        generalize (transport call (x.writeBatch token i b') w).1.2 = y at h' ⊢
        cases (transport call (x.writeBatch token i b') w).1.1 with
        | replied reply elapsed =>
          simp only [bind_apply, read_seat, pure_apply]
          cases hreceive : ((y.batch? token i).getD b).receive? reply elapsed with
          | none => exact h'.stay
          | some b' => exact Run.further (h'.receive hreceive) fun trace' h' => ih trace' _ _ h'
        | silent =>
          simp only [bind_apply, read_seat, isCancelled_seat, pure_apply]
          cases habandon : ((y.batch? token i).getD b).abandon? (y.tokens.isCancelled token) with
          | none => exact h'.stay
          | some b' => exact Run.further (h'.abandon habandon) fun trace' h' => ih trace' _ _ h'

theorem proceeds_resume (htransport : ∀ call, Proceeds (transport call)) (b : Batch) :
    Proceeds ((seat token i b).resume transport) := by
  intro trace x w h
  rw [Seat.resume]
  simp only [bind_apply, read_seat, isCancelled_seat]
  cases habandon : ((x.batch? token i).getD b).abandon? (x.tokens.isCancelled token) with
  | none => exact h.stay
  | some b' =>
    exact Run.further (h.abandon habandon) fun trace' h' =>
      proceeds_run htransport _ _ trace' _ w h'

theorem proceeds_poll (htransport : ∀ call, Proceeds (transport call))
    (hlate : ∀ call, Proceeds (late call)) (b : Batch) :
    Proceeds ((seat token i b).poll transport late) := by
  intro trace x w h
  rw [Seat.poll]
  simp only [bind_apply, read_seat]
  generalize (x.batch? token i).getD b = b₀
  obtain ⟨p, waiting, calling, done⟩ := b₀
  match calling, waiting with
  | true, request :: rest =>
    refine Run.further (hlate (p.call request) trace x w h) fun trace' h' => ?_
    simp only [bind_apply]
    generalize (late (p.call request) x w).1.2 = y at h' ⊢
    cases (late (p.call request) x w).1.1 with
    | replied reply elapsed =>
      simp only [bind_apply, read_seat]
      cases hreceive : ((y.batch? token i).getD b).receive? reply elapsed with
      | none => exact h'.stay
      | some b' =>
        exact Run.further (h'.receive hreceive) fun trace' h' =>
          proceeds_run htransport _ _ trace' _ _ h'
    | silent => exact proceeds_resume htransport b trace' y _ h'
  | true, [] | false, _ => exact proceeds_run htransport b _ trace x w h

/-! ## Tests -/

theorem proceeds_record (token : Token) (i : Nat) :
    Proceeds (W := W) (modify fun x => (x.record? token i).getD x) := by
  intro trace x w h
  show ∃ more, Run (trace ++ more) ((x.record? token i).getD x)
  cases hrecord : x.record? token i with
  | none => exact h.stay
  | some x' => exact h.go (.record hrecord)

theorem proceeds_runBatches (htransport : ∀ call, Proceeds (transport call)) (parallel : Bool)
    (token : Token) (i : Nat) (batches : List Batch) :
    Proceeds (runBatches transport parallel token i batches) := by
  induction batches generalizing i with
  | nil => exact .pure []
  | cons b rest ih =>
    rw [runBatches]
    refine (proceeds_run htransport b _).bind fun done => ?_
    split
    · exact (proceeds_record token i).bind fun _ => ih (i + 1)
    · split
      · exact (ih (i + 1)).bind fun _ => .pure _
      · exact .pure _

theorem proceeds_resumeBatches (htransport : ∀ call, Proceeds (transport call)) (token : Token)
    (stuck : List (Nat × Batch)) : Proceeds (resumeBatches transport token stuck) := by
  induction stuck with
  | nil => exact .pure ()
  | cons b rest ih =>
    rw [resumeBatches]
    refine (proceeds_resume htransport b.2).bind fun done => ?_
    split
    · exact (proceeds_record token b.1).bind fun _ => ih
    · exact ih

theorem proceeds_pollBatches (htransport : ∀ call, Proceeds (transport call))
    (hlate : ∀ call, Proceeds (late call)) (parallel : Bool) (token : Token) (i : Nat)
    (batches : List Batch) : Proceeds (pollBatches transport late parallel token i batches) := by
  induction batches generalizing i with
  | nil => exact .pure ()
  | cons b rest ih =>
    rw [pollBatches]
    refine (proceeds_poll htransport hlate b).bind fun done => ?_
    split
    · exact (proceeds_record token i).bind fun _ => ih (i + 1)
    · split
      · exact ih (i + 1)
      · exact .pure ()

/-- Cancelling a test, which may be done while a call of it is out. -/
theorem proceeds_cancel (id : String) : Proceeds (W := W) (modifyGet fun x => x.cancel id) :=
  fun _ x _ h => h.go (.cancel x id)

/-- The end of a launch: a test that can end does so, and any other waits. -/
theorem proceeds_finish (token : Token) (elapsed : UInt64) (k : Option TestReport → α) :
    Proceeds (W := W) do
      match (← get).finish? token elapsed with
      | some (report, x) =>
        set x
        return k (some report)
      | none => return k none := by
  intro trace x w h
  simp only [bind_apply, get_apply]
  cases hfinish : x.finish? token elapsed with
  | none => exact h.stay
  | some ended => exact h.go (.finish hfinish)

/-- **Launching a test takes steps only**, if its clock and its calls do. -/
theorem proceeds_launch {ticks : StateT Testbed (StateM W) UInt64} (hticks : Proceeds ticks)
    (htransport : ∀ call, Proceeds (transport call)) (parallel : Bool) (catalogue : Catalogue)
    (t : TestRequest) : Proceeds (launch ticks transport parallel catalogue t) := by
  intro trace x w h
  rw [launch, bind_apply, get_apply]
  cases hbegin : x.begin catalogue t with
  | error e => exact h.stay
  | ok started =>
    obtain ⟨token, x'⟩ := started
    refine Run.further (h.go (.start hbegin)) fun trace' h' => ?_
    simp only [set_bind_apply]
    refine hticks.bind (fun started => ?_) trace' x' w h'
    refine (proceeds_runBatches htransport parallel token 0 _).bind fun stuck => ?_
    refine (proceeds_resumeBatches htransport token stuck).bind fun _ => ?_
    exact hticks.bind fun ended => proceeds_finish token (ended - started) Except.ok

/-- **Taking up a test takes steps only.** -/
theorem proceeds_takeUp (htransport : ∀ call, Proceeds (transport call))
    (hlate : ∀ call, Proceeds (late call)) (parallel : Bool) (token : Token) (elapsed : UInt64) :
    Proceeds (takeUp transport late parallel token elapsed) := by
  refine Proceeds.get_bind fun x => ?_
  exact (proceeds_pollBatches htransport hlate parallel token 0 _).bind
    fun _ => proceeds_finish token elapsed id

/-! ## Reports in any surroundings -/

/-- What is done last is done where a run has led to. -/
theorem Proceeds.bind_eq {c : StateT Testbed (StateM W) α} {g : α → StateT Testbed (StateM W) β}
    {w : W} {result : (β × Testbed) × W} (hc : Proceeds c) (h : Run trace x)
    (hresult : (c >>= g) x w = result) :
    ∃ trace' a x' w', trace ⊆ trace' ∧ Run trace' x' ∧ g a x' w' = result := by
  obtain ⟨more, hmore⟩ := hc trace x w h
  exact ⟨trace ++ more, (c x w).1.1, _, (c x w).2, List.subset_append_left .., hmore, hresult⟩

/-- The report that a launch gives is the one that is kept, whatever went on meanwhile. -/
theorem launch_ended {ticks : StateT Testbed (StateM W) UInt64} (hticks : Proceeds ticks)
    (htransport : ∀ call, Proceeds (transport call)) {parallel : Bool} {catalogue : Catalogue}
    {t : TestRequest} {w w' : W} {x' : Testbed} {r : TestReport} (h : Run trace x)
    (hlaunch : launch ticks transport parallel catalogue t x w = ((.ok (some r), x'), w')) :
    ∃ trace' l s, s.catalogue = catalogue ∧ s.request = t ∧ Ended trace' x' l s r := by
  rw [launch, bind_apply, get_apply] at hlaunch
  cases hbegin : x.begin catalogue t with
  | error e =>
    rw [hbegin] at hlaunch
    cases hlaunch
  | ok started =>
    obtain ⟨token, x₁⟩ := started
    simp only [hbegin, set_bind_apply] at hlaunch
    have h₁ := h.step (.start hbegin)
    obtain ⟨_, started, x₂, w₂, hsub₂, h₂, hlaunch⟩ := hticks.bind_eq h₁ hlaunch
    obtain ⟨_, stuck, x₃, w₃, hsub₃, h₃, hlaunch⟩ :=
      (proceeds_runBatches htransport parallel token 0 _).bind_eq h₂ hlaunch
    obtain ⟨_, -, x₄, w₄, hsub₄, h₄, hlaunch⟩ :=
      (proceeds_resumeBatches htransport token stuck).bind_eq h₃ hlaunch
    obtain ⟨_, ended, x₅, w₅, hsub₅, h₅, hlaunch⟩ := hticks.bind_eq h₄ hlaunch
    simp only [bind_apply, get_apply] at hlaunch
    cases hfinish : x₅.finish? token (ended - started) with
    | none =>
      rw [hfinish] at hlaunch
      cases hlaunch
    | some finished =>
      rw [hfinish] at hlaunch
      cases hlaunch
      obtain ⟨l, -, rfl, s, hs⟩ := (sound_of_run h₅).ended hfinish
      -- Only one test has the token, so it is the one that began here.
      have hbegan := hsub₅ (hsub₄ (hsub₃ (hsub₂
        (List.mem_append_right trace (List.mem_singleton.2 rfl)))))
      obtain ⟨hcatalogue, hrequest⟩ := (sound_of_run h₅).tokens.once _ _ _ _ _ hbegan hs.began
      exact ⟨_, l, s, hcatalogue, hrequest, hs⟩

end ApiDouble.Replay.Testbed
