import ApiDouble.Dispatch.Choice

/-!
# Which exchange answers

**The rule** (`Answers`). Given which exchanges fit a request, an operation answers with the first
that does. If none does, the first exchange of the fallback's name stands in, and without one
nothing answers. The rule leaves no choice (`Answers.unique`), and only what it says of the
operation's own exchanges matters (`Answers.congr`).

**Dispatching** follows it, an exchange fitting a request if both have the same criteria
(`SameCriteria`). So to say how an operation answers is to say when the criteria are the same.

Main results: `answers_choose`, `answers_of_sameCriteria_iff`.
-/

namespace ApiDouble.Dispatch

/-- The first member of a list with a property. -/
def IsFirst {α : Type} (p : α → Prop) (xs : List α) (x : α) : Prop :=
  p x ∧ ∃ before after, xs = before ++ x :: after ∧ ∀ y ∈ before, ¬p y

/-- How an operation answers a request that some exchanges fit. -/
inductive Answers (op : Operation) (fits : Exchange → Prop) : Choice → Prop
  | matched {e : Exchange} (first : IsFirst fits op.exchanges e) : Answers op fits (.matched e)
  | fallback {e : Exchange} {name : String} (unfit : ∀ x ∈ op.exchanges, ¬fits x)
      (named : op.fallback = some name) (first : IsFirst (·.name = name) op.exchanges e) :
      Answers op fits (.fallback e)
  | miss (unfit : ∀ x ∈ op.exchanges, ¬fits x)
      (unnamed : ∀ name, op.fallback = some name → ∀ x ∈ op.exchanges, x.name ≠ name) :
      Answers op fits .miss

/-- Whether an exchange and a request have criteria, and the same ones. -/
def SameCriteria (op : Operation) (r : Request) (e : Exchange) : Prop :=
  ∃ c, criteria? op (.ofRequest op.pathPattern r) = some c ∧ criteria? op (.ofExchange e) = some c

/-! ## First members -/

section First

variable {α : Type} {p q : α → Prop} {xs : List α} {x y : α}

theorem IsFirst.mem (h : IsFirst p xs x) : x ∈ xs := by
  obtain ⟨-, before, after, rfl, -⟩ := h
  exact List.mem_append_right _ List.mem_cons_self

theorem IsFirst.unique (hx : IsFirst p xs x) (hy : IsFirst p xs y) : x = y := by
  classical
  have hfind : ∀ z, IsFirst p xs z → xs.find? (fun a => decide (p a)) = some z := by
    rintro z ⟨hz, before, after, hsplit, hbefore⟩
    rw [List.find?_eq_some_iff_append]
    exact ⟨decide_eq_true hz, before, after, hsplit, fun a ha => by simpa using hbefore a ha⟩
  exact Option.some.inj ((hfind x hx).symm.trans (hfind y hy))

theorem IsFirst.congr (h : ∀ a ∈ xs, p a ↔ q a) (hx : IsFirst p xs x) : IsFirst q xs x := by
  have hmem := hx.mem
  obtain ⟨hp, before, after, hsplit, hbefore⟩ := hx
  refine ⟨(h x hmem).1 hp, before, after, hsplit, fun a ha hq => ?_⟩
  have ha' : a ∈ xs := by
    rw [hsplit]
    exact List.mem_append_left _ ha
  exact hbefore a ha ((h a ha').2 hq)

theorem isFirst_of_find? {b : α → Bool} (h : xs.find? b = some x) (hb : ∀ a, b a = true ↔ p a) :
    IsFirst p xs x := by
  obtain ⟨hx, before, after, hsplit, hbefore⟩ := List.find?_eq_some_iff_append.1 h
  refine ⟨(hb x).1 hx, before, after, hsplit, fun a ha hp => ?_⟩
  have hfalse := hbefore a ha
  rw [(hb a).2 hp] at hfalse
  exact Bool.noConfusion hfalse

end First

/-! ## The rule -/

variable {op : Operation} {fits fits' : Exchange → Prop} {c c' : Choice}

/-- The rule leaves no choice. -/
theorem Answers.unique (h : Answers op fits c) (h' : Answers op fits c') : c = c' := by
  cases h with
  | matched first =>
    cases h' with
    | matched first' => rw [first.unique first']
    | fallback unfit' _ _ => exact absurd first.1 (unfit' _ first.mem)
    | miss unfit' _ => exact absurd first.1 (unfit' _ first.mem)
  | fallback unfit named first =>
    cases h' with
    | matched first' => exact absurd first'.1 (unfit _ first'.mem)
    | fallback _ named' first' =>
      obtain rfl := Option.some.inj (named.symm.trans named')
      rw [first.unique first']
    | miss _ unnamed => exact absurd first.1 (unnamed _ named _ first.mem)
  | miss unfit unnamed =>
    cases h' with
    | matched first' => exact absurd first'.1 (unfit _ first'.mem)
    | fallback _ named' first' => exact absurd first'.1 (unnamed _ named' _ first'.mem)
    | miss _ _ => rfl

theorem Answers.congr (h : ∀ e ∈ op.exchanges, fits e ↔ fits' e) (hc : Answers op fits c) :
    Answers op fits' c := by
  have hunfit : (∀ x ∈ op.exchanges, ¬fits x) → ∀ x ∈ op.exchanges, ¬fits' x :=
    fun hno x hx hfit => hno x hx ((h x hx).2 hfit)
  cases hc with
  | matched first => exact .matched (first.congr h)
  | fallback unfit named first => exact .fallback (hunfit unfit) named first
  | miss unfit unnamed => exact .miss (hunfit unfit) unnamed

/-! ## Dispatching -/

variable {r : Request} {e : Exchange}

theorem isFirst_of_matching? (h : matching? op r = some e) :
    IsFirst (SameCriteria op r) op.exchanges e := by
  obtain ⟨wanted, hwanted, hfind⟩ := Option.bind_eq_some_iff.1 h
  refine isFirst_of_find? hfind fun a => ?_
  rw [beq_iff_eq]
  constructor
  · intro ha
    exact ⟨wanted, hwanted, ha⟩
  · rintro ⟨c, hc, ha⟩
    rw [ha, ← hc, hwanted]

theorem not_sameCriteria_of_matching? (h : matching? op r = none) :
    ∀ x ∈ op.exchanges, ¬SameCriteria op r x := by
  rintro x hx ⟨c, hc, hxc⟩
  unfold matching? at h
  rw [hc] at h
  have hne := List.find?_eq_none.1 h x hx
  exact hne (by rw [hxc]; exact beq_self_eq_true _)

/-- **An operation with a dispatcher answers by the criteria.** -/
theorem answers_choose (h : op.dispatcher ≠ .none) (r : Request) :
    Answers op (SameCriteria op r) (choose op r) := by
  rw [choose, if_neg h]
  cases hm : matching? op r with
  | some e => exact .matched (isFirst_of_matching? hm)
  | none =>
    have hunfit := not_sameCriteria_of_matching? hm
    cases hf : fallback? op with
    | some e =>
      obtain ⟨name, hname, he⟩ := Option.bind_eq_some_iff.1 hf
      exact .fallback hunfit hname (isFirst_of_find? he fun a => beq_iff_eq)
    | none =>
      refine .miss hunfit fun name hname x hx hxname => ?_
      have hnone : op.exchange? name = none := by
        rw [fallback?, hname] at hf
        exact hf
      exact List.find?_eq_none.1 hnone x hx (beq_iff_eq.2 hxname)

/-- The exchanges that fit may be told in any way that comes to the same. -/
theorem answers_of_sameCriteria_iff {d : Dispatcher} (h : op.dispatcher = d) (hd : d ≠ .none)
    (hfits : ∀ e ∈ op.exchanges, SameCriteria op r e ↔ fits e) :
    Answers op fits (choose op r) :=
  (answers_choose (h ▸ hd) r).congr hfits

end ApiDouble.Dispatch
