import ApiDouble.Import.Warning
import Mathlib.Data.List.Nodup
import Mathlib.Logic.ExistsUnique

/-!
# Where references lead

**Ways** (`Leads`). From a node that holds a pointer a way leads to the node that the pointer names,
and on from there. A node has at most one way on, so a pointer that comes up twice comes up for
ever: a way to a node without a pointer has no pointer twice (`Leads.nodup_of_stops`).

**Endings** (`Ending`). Following references stops at the first node without one, at a pointer that
names nothing, at one that was followed before, or at one more than may be followed. What decides
between them is how long the way there is.

**The loop** (`Loops`). Told without a bound on its turns, the loop ends all the same: each turn
that goes on sees one pointer more, and it does not go on with more than the limit.

Main result: `resolve_ends`.
-/

namespace ApiDouble.Import

/-- A pointer of the form `#/a/b` names a node of a document. -/
def Names (root : Document) (pointer : String) (node : Document) : Prop :=
  ∃ rest, pointer.toList = '#' :: rest ∧ root.at? rest = some node

/-- Following some pointers leads from one node to another. Each of them is held by a node on the
way and names the next one. -/
inductive Leads (root : Document) (key : String) : Document → List String → Document → Prop
  | here {node : Document} : Leads root key node [] node
  | hop {node next last : Document} {p : String} {ps : List String}
      (pointer : pointer? key node = some p) (named : Names root p next)
      (rest : Leads root key next ps last) : Leads root key node (p :: ps) last

/-- What following references from a node comes to, at most `limit` of them. -/
inductive Ending (root : Document) (key : String) (limit : Nat) (node : Document) :
    Except ReferenceError Document → Prop
  /-- The way ends at a node without a pointer. -/
  | found {ps : List String} {last : Document} (way : Leads root key node ps last)
      (stops : pointer? key last = none) (short : ps.length ≤ limit) :
      Ending root key limit node (.ok last)
  /-- A pointer leads out of the document. -/
  | external {ps : List String} {last : Document} {p : String} (way : Leads root key node ps last)
      (pointer : pointer? key last = some p) (foreign : p.toList.head? ≠ some '#')
      (distinct : ps.Nodup) (short : ps.length < limit) :
      Ending root key limit node (.error (.external p))
  /-- A pointer into the document names nothing. -/
  | unresolved {ps : List String} {last : Document} {p : String} {rest : List Char}
      (way : Leads root key node ps last) (pointer : pointer? key last = some p)
      (own : p.toList = '#' :: rest) (missing : root.at? rest = none)
      (distinct : ps.Nodup) (short : ps.length < limit) :
      Ending root key limit node (.error (.unresolved p))
  /-- A pointer comes up for the second time. -/
  | cyclic {ps : List String} {last : Document} {p : String} (way : Leads root key node ps last)
      (pointer : pointer? key last = some p) (distinct : ps.Nodup) (again : p ∈ ps)
      (short : ps.length ≤ limit) : Ending root key limit node (.error (.cyclic p))
  /-- One more new pointer comes up than may be followed. -/
  | tooDeep {ps : List String} {last : Document} {p : String} (way : Leads root key node ps last)
      (pointer : pointer? key last = some p) (distinct : (ps ++ [p]).Nodup)
      (long : ps.length = limit) : Ending root key limit node (.error (.tooDeep limit))

/-! ## Ways -/

section Ways

variable {root node next last last' : Document} {key p : String} {ps qs : List String}

theorem target_eq_ok_iff : target root p = .ok next ↔ Names root p next := by
  unfold target Names
  split
  · next rest h =>
    cases hat : root.at? rest with
    | none => simp [h, hat]
    | some d => simp [h, hat]
  · next h =>
    refine iff_of_false nofun ?_
    rintro ⟨rest, hrest, -⟩
    exact h rest hrest

theorem target_eq_error_cases {e : ReferenceError} (h : target root p = .error e) :
    (p.toList.head? ≠ some '#' ∧ e = .external p) ∨
      ∃ rest, p.toList = '#' :: rest ∧ root.at? rest = none ∧ e = .unresolved p := by
  unfold target at h
  split at h
  · next rest hp =>
    split at h
    · cases h
    · next hat =>
      cases h
      exact .inr ⟨rest, hp, hat, rfl⟩
  · next hp =>
    cases h
    refine .inl ⟨fun hhead => ?_, rfl⟩
    obtain ⟨rest, hrest⟩ := List.head?_eq_some_iff.1 hhead
    exact hp rest hrest

theorem target_of_foreign (h : p.toList.head? ≠ some '#') :
    target root p = .error (.external p) := by
  unfold target
  split
  · next hp => exact absurd (by rw [hp]; rfl) h
  · rfl

theorem target_of_missing {rest : List Char} (hp : p.toList = '#' :: rest)
    (h : root.at? rest = none) : target root p = .error (.unresolved p) := by
  unfold target
  simp only [hp, h]

theorem Leads.append (h : Leads root key node ps last) (h' : Leads root key last qs last') :
    Leads root key node (ps ++ qs) last' := by
  induction h with
  | here => exact h'
  | hop pointer named _ ih => exact .hop pointer named (ih h')

theorem Leads.snoc (h : Leads root key node ps last) (hp : pointer? key last = some p)
    (hn : Names root p next) : Leads root key node (ps ++ [p]) next :=
  h.append (.hop hp hn .here)

/-- Nodes without a pointer end one way only. -/
theorem Leads.eq_of_stops (h : Leads root key node ps last) (hl : pointer? key last = none)
    (h' : Leads root key node qs last') (hl' : pointer? key last' = none) : ps = qs := by
  induction h generalizing qs with
  | here =>
    cases h' with
    | here => rfl
    | hop pointer _ _ =>
      rw [hl] at pointer
      cases pointer
  | hop pointer named _ ih =>
    cases h' with
    | here =>
      rw [hl'] at pointer
      cases pointer
    | hop pointer' named' rest' =>
      obtain rfl := Option.some.inj (pointer.symm.trans pointer')
      obtain rfl := Except.ok.inj
        ((target_eq_ok_iff.2 named).symm.trans (target_eq_ok_iff.2 named'))
      rw [ih hl rest']

/-- What comes after a pointer on a way is a way from the node that it names. -/
theorem Leads.from_mem (h : Leads root key node ps last) (hp : p ∈ ps) :
    ∃ next before after, Names root p next ∧ ps = before ++ p :: after ∧
      Leads root key next after last := by
  induction h with
  | here => exact absurd hp List.not_mem_nil
  | @hop _ next _ q ps _ named rest ih =>
    rcases List.mem_cons.1 hp with rfl | hp
    · exact ⟨next, [], ps, named, rfl, rest⟩
    · obtain ⟨next, before, after, hn, rfl, hrest⟩ := ih hp
      exact ⟨next, q :: before, after, hn, rfl, hrest⟩

/-- A way that ends has no pointer twice. Otherwise two ways of different lengths would lead to its
end from the node that the pointer names. -/
theorem Leads.nodup_of_stops (h : Leads root key node ps last) (hl : pointer? key last = none) :
    ps.Nodup := by
  induction h with
  | here => exact List.nodup_nil
  | @hop _ next _ p ps _ named rest ih =>
    refine List.nodup_cons.2 ⟨fun hp => ?_, ih hl⟩
    -- Met again, the pointer leads to the node it led to before, and from there to the end in fewer
    -- hops.
    obtain ⟨next', before, after, hn, hsplit, hrest⟩ := rest.from_mem hp
    obtain rfl := Except.ok.inj ((target_eq_ok_iff.2 named).symm.trans (target_eq_ok_iff.2 hn))
    have hlength := congrArg List.length (rest.eq_of_stops hl hrest hl)
    rw [hsplit, List.length_append, List.length_cons] at hlength
    omega

end Ways

/-! ## Following -/

section Following

variable {root node next last : Document} {key p : String} {ps seen : List String}
  {limit left : Nat}

theorem follow_of_stops (h : pointer? key node = none) :
    follow root key limit seen node left = .ok node := by
  cases left <;> simp only [follow, h]

theorem follow_of_seen (h : pointer? key node = some p) (hp : p ∈ seen) :
    follow root key limit seen node left = .error (.cyclic p) := by
  cases left <;> simp [follow, h, hp]

theorem follow_of_new (h : pointer? key node = some p) (hp : p ∉ seen) :
    follow root key limit seen node (left + 1) =
      (target root p).bind fun next => follow root key limit (p :: seen) next left := by
  simp [follow, h, hp]

theorem follow_zero (h : pointer? key node = some p) (hp : p ∉ seen) :
    follow root key limit seen node 0 = .error (.tooDeep limit) := by
  simp [follow, h, hp]

/-- A way without repetitions is followed to its end. -/
theorem follow_of_leads (h : Leads root key node ps last) (hnew : (seen.reverse ++ ps).Nodup) :
    follow root key limit seen node (ps.length + left) =
      follow root key limit (ps.reverse ++ seen) last left := by
  induction h generalizing seen with
  | here => rw [List.length_nil, Nat.zero_add]; rfl
  | @hop _ next _ p ps pointer named _ ih =>
    have hp : p ∉ seen := fun hp =>
      (List.nodup_append.1 hnew).2.2 p (List.mem_reverse.2 hp) p List.mem_cons_self rfl
    have hrest : ((p :: seen).reverse ++ ps).Nodup := by
      rwa [List.reverse_cons, List.append_assoc]
    rw [List.length_cons, Nat.succ_add, follow_of_new pointer hp, target_eq_ok_iff.2 named]
    refine (ih hrest).trans ?_
    rw [List.reverse_cons, List.append_assoc]
    rfl

theorem resolve_of_leads (h : Leads root key node ps last) (hps : ps.Nodup)
    (hlength : ps.length ≤ limit) :
    resolve root limit key node =
      follow root key limit ps.reverse last (limit - ps.length) := by
  have hfollow : follow root key limit [] node (ps.length + (limit - ps.length)) =
      follow root key limit (ps.reverse ++ []) last (limit - ps.length) := follow_of_leads h hps
  rwa [Nat.add_sub_cancel' hlength, List.append_nil] at hfollow

theorem resolve_of_error (h : Leads root key node ps last) (hp : pointer? key last = some p)
    (hps : ps.Nodup) (hlength : ps.length < limit) {e : ReferenceError}
    (he : target root p = .error e) : resolve root limit key node = .error e := by
  have hnew : p ∉ ps.reverse := by
    intro hmem
    obtain ⟨_, _, _, hn, -, -⟩ := h.from_mem (List.mem_reverse.1 hmem)
    rw [target_eq_ok_iff.2 hn] at he
    cases he
  obtain ⟨left, rfl⟩ : ∃ left, limit = ps.length + (left + 1) :=
    ⟨limit - ps.length - 1, by omega⟩
  rw [resolve_of_leads h hps (Nat.le_of_lt hlength), Nat.add_sub_cancel_left,
    follow_of_new hp hnew, he]
  rfl

/-- An ending is what following comes to. -/
theorem Ending.resolve_eq {a : Except ReferenceError Document} (h : Ending root key limit node a) :
    resolve root limit key node = a := by
  cases h with
  | found way stops short =>
    rw [resolve_of_leads way (way.nodup_of_stops stops) short, follow_of_stops stops]
  | external way pointer foreign distinct short =>
    exact resolve_of_error way pointer distinct short (target_of_foreign foreign)
  | unresolved way pointer own missing distinct short =>
    exact resolve_of_error way pointer distinct short (target_of_missing own missing)
  | cyclic way pointer distinct again short =>
    rw [resolve_of_leads way distinct short, follow_of_seen pointer (List.mem_reverse.2 again)]
  | @tooDeep ps last p way pointer distinct long =>
    obtain ⟨hps, -, hnew⟩ := List.nodup_append.1 distinct
    have hp : p ∉ ps.reverse := fun hmem =>
      hnew p (List.mem_reverse.1 hmem) p List.mem_cons_self rfl
    rw [resolve_of_leads way hps (Nat.le_of_eq long), long, Nat.sub_self, follow_zero pointer hp]

theorem nodup_snoc (hps : ps.Nodup) (hp : p ∉ ps) : (ps ++ [p]).Nodup := by
  rw [← List.concat_eq_append]
  exact hps.concat hp

/-- What following comes to is an ending, wherever on a way it stands. -/
theorem ending_follow (h : Leads root key node ps last) (hps : ps.Nodup)
    (hlength : ps.length + left = limit) :
    Ending root key limit node (follow root key limit ps.reverse last left) := by
  -- `ps` are the pointers of the way so far, and with those that are left they come up to the
  -- limit.
  induction left generalizing ps last with
  | zero =>
    cases hp : pointer? key last with
    | none =>
      rw [follow_of_stops hp]
      exact .found h hp (Nat.le_of_eq hlength)
    | some p =>
      by_cases hmem : p ∈ ps
      · rw [follow_of_seen hp (List.mem_reverse.2 hmem)]
        exact .cyclic h hp hps hmem (Nat.le_of_eq hlength)
      · rw [follow_zero hp (mt List.mem_reverse.1 hmem)]
        exact .tooDeep h hp (nodup_snoc hps hmem) hlength
  | succ left ih =>
    have hshort : ps.length < limit := by omega
    cases hp : pointer? key last with
    | none =>
      rw [follow_of_stops hp]
      exact .found h hp (Nat.le_of_lt hshort)
    | some p =>
      by_cases hmem : p ∈ ps
      · rw [follow_of_seen hp (List.mem_reverse.2 hmem)]
        exact .cyclic h hp hps hmem (Nat.le_of_lt hshort)
      · rw [follow_of_new hp (mt List.mem_reverse.1 hmem)]
        cases ht : target root p with
        | ok next =>
          have hlength' : (ps ++ [p]).length + left = limit := by
            rw [List.length_append, List.length_singleton]
            omega
          have hnext := ih (h.snoc hp (target_eq_ok_iff.1 ht)) (nodup_snoc hps hmem) hlength'
          rwa [List.reverse_append] at hnext
        | error e =>
          rcases target_eq_error_cases ht with ⟨hforeign, rfl⟩ | ⟨rest, hown, hmissing, rfl⟩
          · exact .external h hp hforeign hps hshort
          · exact .unresolved h hp hown hmissing hps hshort

end Following

/-! ## The loop -/

/-- One turn of the loop, with the pointers seen so far: it ends with an answer, or it goes on from
another node with one pointer more. -/
def turn (root : Document) (key : String) (limit : Nat) (seen : List String) (node : Document) :
    Except ReferenceError Document ⊕ (List String × Document) :=
  match pointer? key node with
  | none => .inl (.ok node)
  | some p =>
    if p ∈ seen then .inl (.error (.cyclic p))
    else if limit < (p :: seen).length then .inl (.error (.tooDeep limit))
    else
      match target root p with
      | .error e => .inl (.error e)
      | .ok next => .inr (p :: seen, next)

/-- The loop ends with an answer after some turns. -/
inductive Loops (root : Document) (key : String) (limit : Nat) :
    Nat → List String → Document → Except ReferenceError Document → Prop
  | stop {seen : List String} {node : Document} {a : Except ReferenceError Document}
      (last : turn root key limit seen node = .inl a) : Loops root key limit 1 seen node a
  | again {turns : Nat} {seen seen' : List String} {node next : Document}
      {a : Except ReferenceError Document} (first : turn root key limit seen node = .inr (seen', next))
      (rest : Loops root key limit turns seen' next a) : Loops root key limit (turns + 1) seen node a

/-- The loop ends with what following comes to, each turn leaving fewer that may follow. -/
theorem loops_follow {root node : Document} {key : String} {limit left : Nat} {seen : List String}
    (hlength : seen.length + left = limit) :
    ∃ turns ≤ left + 1, Loops root key limit turns seen node
      (follow root key limit seen node left) := by
  -- Each turn that goes on moves one from `left` to `seen`; none goes on once `left` is used up.
  induction left generalizing seen node with
  | zero =>
    refine ⟨1, Nat.le_refl 1, .stop ?_⟩
    unfold turn
    cases hp : pointer? key node with
    | none => rw [follow_of_stops hp]
    | some p =>
      by_cases hmem : p ∈ seen
      · rw [follow_of_seen hp hmem]
        exact if_pos hmem
      · rw [follow_zero hp hmem]
        simp only [if_neg hmem, List.length_cons]
        exact if_pos (by omega)
  | succ left ih =>
    have hone : 1 ≤ left + 1 + 1 := by omega
    cases hp : pointer? key node with
    | none =>
      refine ⟨1, hone, .stop ?_⟩
      rw [follow_of_stops hp, turn, hp]
    | some p =>
      by_cases hmem : p ∈ seen
      · refine ⟨1, hone, .stop ?_⟩
        rw [follow_of_seen hp hmem, turn, hp]
        exact if_pos hmem
      · have hshort : ¬limit < (p :: seen).length := by
          rw [List.length_cons]
          omega
        rw [follow_of_new hp hmem]
        cases ht : target root p with
        | error e =>
          refine ⟨1, hone, .stop ?_⟩
          simp only [turn, hp, if_neg hmem, if_neg hshort, ht]
          rfl
        | ok next =>
          have hlength' : (p :: seen).length + left = limit := by
            rw [List.length_cons]
            omega
          obtain ⟨turns, hturns, hloops⟩ := ih hlength'
          refine ⟨turns + 1, Nat.succ_le_succ hturns, .again ?_ hloops⟩
          simp only [turn, hp, if_neg hmem, if_neg hshort, ht]

/-- **Following references ends, and with just one ending.** -/
theorem resolve_ends (root : Document) (limit : Nat) (key : String) (node : Document) :
    (∃ turns ≤ limit + 1, Loops root key limit turns [] node (resolve root limit key node)) ∧
      (∀ a, resolve root limit key node = a ↔ Ending root key limit node a) ∧
      ∃! a, Ending root key limit node a := by
  have hends : Ending root key limit node (resolve root limit key node) :=
    ending_follow .here List.nodup_nil (Nat.zero_add limit)
  refine ⟨loops_follow (Nat.zero_add limit), fun a => ⟨?_, Ending.resolve_eq⟩,
    _, hends, fun a ha => ha.resolve_eq.symm⟩
  rintro rfl
  exact hends

end ApiDouble.Import
