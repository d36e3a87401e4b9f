import ApiDouble.Proofs.Dispatch.Choice
import ApiDouble.Proofs.Dispatch.Values
import Mathlib.Data.List.Forall2

/-!
# Order is of no account

**What may be reordered.** The names of a rule, the parameters that an exchange recorded, and the
arguments of a query. Of two parameters of one name the first one counts, so such lists keep their
order (`Reordered`).

**Why nothing changes.** Criteria are made of sorted names and of maps. A reordered list gives the
same map, and reordered names are sorted into the same list. So each exchange has the same criteria
as before, and so has the request.

**Positions.** An exchange whose parameters are reordered is another value. What stays is its
position among the exchanges, and with it the kind of the choice (`Standing`).

Main result: `choose_reordered`.
-/

namespace ApiDouble.Dispatch

/-! ## Parameters -/

/-- The same parameters in another order, which is the old one if a name stands there twice. -/
def Reordered (ps ps' : List Parameter) : Prop :=
  ps' = ps ∨ ps'.Perm ps ∧ (ps.map (·.name)).Nodup

theorem first?_eq_some_iff_mem {ps : List Parameter} (h : (ps.map (·.name)).Nodup)
    {name value : String} : Parameter.first? ps name = some value ↔ ⟨name, value⟩ ∈ ps := by
  induction ps with
  | nil => simp [Parameter.first?]
  | cons p ps ih =>
    obtain ⟨hp, hps⟩ := List.nodup_cons.1 h
    have hne : ∀ q ∈ ps, q.name ≠ p.name := fun q hq he => hp (List.mem_map.2 ⟨q, hq, he⟩)
    by_cases hname : p.name = name
    · subst hname
      have hrest : ⟨p.name, value⟩ ∉ ps := fun hmem => hne _ hmem rfl
      have hfirst : Parameter.first? (p :: ps) p.name = some p.value := by
        simp [Parameter.first?]
      rw [hfirst, List.mem_cons, or_iff_left hrest, Option.some.injEq]
      constructor
      · rintro rfl
        rfl
      · intro he
        rw [← he]
    · have hfirst : Parameter.first? (p :: ps) name = Parameter.first? ps name := by
        simp [Parameter.first?, hname]
      have hp : (⟨name, value⟩ : Parameter) ≠ p := fun he => hname (by rw [← he])
      rw [hfirst, ih hps, List.mem_cons, or_iff_right hp]

theorem Reordered.first?_eq {ps ps' : List Parameter} (h : Reordered ps ps') (name : String) :
    Parameter.first? ps' name = Parameter.first? ps name := by
  rcases h with rfl | ⟨hperm, hdistinct⟩
  · rfl
  · have hdistinct' : (ps'.map (·.name)).Nodup := (hperm.map _).nodup_iff.2 hdistinct
    apply Option.ext
    intro value
    rw [first?_eq_some_iff_mem hdistinct, first?_eq_some_iff_mem hdistinct', hperm.mem_iff]

theorem firstOfEach_reordered {ps ps' : List Parameter} (h : Reordered ps ps') :
    firstOfEach ps' = firstOfEach ps := by
  apply SortedMap.ext
  intro name
  rw [get?_firstOfEach, get?_firstOfEach, h.first?_eq]

theorem paramsOf_reordered {r : Request} {query : List Parameter} (h : Reordered r.query query)
    (pattern : String) : paramsOf pattern { r with query } = paramsOf pattern r := by
  apply SortedMap.ext
  intro name
  rw [get?_paramsOf, get?_paramsOf, requested?, requested?, h.first?_eq]

/-! ## Names -/

theorem sorted_eq_of_perm {names names' : List String} (h : names'.Perm names) :
    sorted names' = sorted names := by
  have hle : ∀ names : List String, (sorted names).Pairwise (· ≤ ·) := by
    intro names
    refine (List.pairwise_mergeSort ?_ ?_ names).imp of_decide_eq_true
    · intro a b c hab hbc
      exact decide_eq_true (String.le_trans (of_decide_eq_true hab) (of_decide_eq_true hbc))
    · intro a b
      simpa using String.le_total a b
  have hperm : (sorted names').Perm (sorted names) :=
    (List.mergeSort_perm ..).trans (h.trans (List.mergeSort_perm ..).symm)
  exact hperm.eq_of_pairwise (fun _ _ _ _ => String.le_antisymm) (hle names') (hle names)

section Texts

variable {names names' names₁ names₂ names₁' names₂' : List String}
  (params : SortedMap String String)

theorem pathText?_of_perm (h : names'.Perm names) :
    pathText? names' params = pathText? names params := by
  rw [pathText?, pathText?, sorted_eq_of_perm h]

theorem argumentText?_of_perm (h : names'.Perm names) :
    argumentText? names' params = argumentText? names params := by
  rw [argumentText?, argumentText?, sorted_eq_of_perm h]

theorem addressText?_of_perm (h₁ : names₁'.Perm names₁) (h₂ : names₂'.Perm names₂) :
    addressText? names₁' names₂' params = addressText? names₁ names₂ params := by
  rw [addressText?, addressText?, pathText?_of_perm params h₁, argumentText?_of_perm params h₂,
    h₂.isEmpty_eq]

end Texts

/-! ## Criteria -/

/-- The dispatchers that go by named values. -/
def byValues : List Dispatcher := [.uriParts, .queryArgs, .uriParams]

variable {op : Operation} {rule : Option String} {es : List Exchange} {r : Request}

/-- The order of the names in a rule does not change the criteria. -/
theorem criteria?_of_perm (hd : op.dispatcher ∈ byValues)
    (hrule : (ruleNames rule).Perm (ruleNames op.rule)) (i : Input) :
    criteria? { op with rule, exchanges := es } i = criteria? op i := by
  have hempty : (ruleNames rule).isEmpty = (ruleNames op.rule).isEmpty := hrule.isEmpty_eq
  have hnames : ∀ others : List String,
      (if (ruleNames op.rule).isEmpty then others else ruleNames rule).Perm
        (if (ruleNames op.rule).isEmpty then others else ruleNames op.rule) := by
    intro others
    split
    · exact .refl _
    · exact hrule
  unfold criteria?
  simp only [byValues, List.mem_cons, List.not_mem_nil, or_false] at hd
  rcases hd with hd | hd | hd <;> simp only [hd, hempty]
  · rw [pathText?_of_perm _ (hnames _)]
    rfl
  · rw [argumentText?_of_perm _ (hnames _)]
  · split
    · rfl
    · simp only [List.partition_eq_filter_filter]
      rw [addressText?_of_perm _ (hrule.filter _) (hrule.filter _)]
      rfl

/-! ## Exchanges -/

/-- An exchange with other parameters. -/
def withParameters (ps : List Parameter) : Exchange → Exchange
  | .requestResponse request response =>
    .requestResponse { request with parameters := ps } response
  | .event message => .event { message with parameters := ps }

/-- An exchange whose parameters are recorded in another order. -/
def Rerecorded (e e' : Exchange) : Prop :=
  ∃ ps, Reordered e.inbound.parameters ps ∧ e' = withParameters ps e

variable {e e' : Exchange}

theorem Rerecorded.name_eq (h : Rerecorded e e') : e'.name = e.name := by
  obtain ⟨ps, -, rfl⟩ := h
  cases e <;> rfl

theorem Rerecorded.input_eq (h : Rerecorded e e') : Input.ofExchange e' = Input.ofExchange e := by
  obtain ⟨ps, hps, rfl⟩ := h
  have hparams := firstOfEach_reordered hps
  cases e <;> exact congrArg (Input.mk · _ _) hparams

/-! ## Positions -/

/-- How an operation answers, the exchange told by its position. -/
inductive Standing
  | matched (position : Nat)
  | fallback (position : Nat)
  | miss
deriving DecidableEq

/-- Where the exchange that was chosen stands. It is the first one of its value that fits, so its
position is that of the value. -/
def Choice.standing (es : List Exchange) : Choice → Standing
  | matched e => .matched (es.idxOf e)
  | fallback e => .fallback (es.idxOf e)
  | miss => .miss

/-- What is found behind a head that does not fit differs from it. -/
theorem idxOf_find?_cons {p : Exchange → Bool} (h : p e = false) :
    (es.find? p).map (e :: es).idxOf = ((es.find? p).map es.idxOf).map (· + 1) := by
  cases hfound : es.find? p with
  | none => rfl
  | some x =>
    have hx : p x = true := List.find?_some hfound
    have hne : e ≠ x := by
      rintro rfl
      rw [h] at hx
      cases hx
    simp [List.idxOf_cons_ne _ hne]

/-- A search that does not see the difference ends at the same position. -/
theorem idxOf_find? {p p' : Exchange → Bool} {es es' : List Exchange}
    (h : List.Forall₂ Rerecorded es es') (hp : ∀ e e', Rerecorded e e' → p' e' = p e) :
    (es'.find? p').map es'.idxOf = (es.find? p).map es.idxOf := by
  -- The two lists are gone through together: their members fit or do not fit alike.
  induction h with
  | nil => rfl
  | @cons e e' es es' he _ ih =>
    have hsame : p' e' = p e := hp e e' he
    cases hfits : p e with
    | true =>
      rw [List.find?_cons_of_pos hfits, List.find?_cons_of_pos (hsame.trans hfits)]
      simp
    | false =>
      have hfits' : p' e' = false := hsame.trans hfits
      rw [List.find?_cons_of_neg (Bool.eq_false_iff.1 hfits),
        List.find?_cons_of_neg (Bool.eq_false_iff.1 hfits'), idxOf_find?_cons hfits,
        idxOf_find?_cons hfits', ih]

theorem standing_choose (h : op.dispatcher ≠ .none) (r : Request) :
    (choose op r).standing op.exchanges =
      match (matching? op r).map op.exchanges.idxOf, (fallback? op).map op.exchanges.idxOf with
      | some i, _ => .matched i
      | none, some i => .fallback i
      | none, none => .miss := by
  rw [choose, if_neg h]
  cases matching? op r <;> cases fallback? op <;> rfl

/-- An operation that matches a request does so with the first exchange that has its criteria, and
this one stands at the position told. -/
theorem sameCriteria_at_standing {i : Nat} (h : op.dispatcher ≠ .none)
    (hi : (choose op r).standing op.exchanges = .matched i) :
    ∃ e before after, op.exchanges = before ++ e :: after ∧ before.length = i ∧
      SameCriteria op r e ∧ ∀ x ∈ before, ¬SameCriteria op r x := by
  have hanswers := answers_choose h r
  cases hchoice : choose op r with
  | matched e =>
    rw [hchoice] at hanswers hi
    obtain ⟨⟨hfits, before, after, hsplit, hbefore⟩⟩ := hanswers
    have hnew : e ∉ before := fun hmem => hbefore e hmem hfits
    refine ⟨e, before, after, hsplit, ?_, hfits, hbefore⟩
    rw [Choice.standing, hsplit, List.idxOf_append_of_notMem hnew] at hi
    simpa using hi
  | fallback e =>
    rw [hchoice] at hi
    cases hi
  | miss =>
    rw [hchoice] at hi
    cases hi

/-! ## The exchange that answers -/

/-- **Order is of no account.** Whatever the order of the names in the rule, of the parameters
recorded, and of the arguments of the query: an operation answers in the same way and with the
exchange at the same position. -/
theorem choose_reordered {query : List Parameter} (hd : op.dispatcher ∈ byValues)
    (hrule : (ruleNames rule).Perm (ruleNames op.rule))
    (hexchanges : List.Forall₂ Rerecorded op.exchanges es) (hquery : Reordered r.query query) :
    (choose { op with rule, exchanges := es } { r with query }).standing es =
      (choose op r).standing op.exchanges := by
  have hnone : op.dispatcher ≠ .none := by
    intro h
    rw [h] at hd
    exact absurd hd (by decide)
  have hwanted : Input.ofRequest op.pathPattern { r with query } =
      Input.ofRequest op.pathPattern r :=
    congrArg (Input.mk · _ _) (paramsOf_reordered hquery op.pathPattern)
  have hmatching : (matching? { op with rule, exchanges := es } { r with query }).map es.idxOf =
      (matching? op r).map op.exchanges.idxOf := by
    unfold matching?
    show ((criteria? _ (Input.ofRequest op.pathPattern { r with query })).bind _).map _ = _
    rw [criteria?_of_perm hd hrule, hwanted]
    cases criteria? op (.ofRequest op.pathPattern r) with
    | none => rfl
    | some wanted =>
      refine idxOf_find? hexchanges fun e e' he => ?_
      rw [criteria?_of_perm hd hrule, he.input_eq]
  have hfallback : (fallback? { op with rule, exchanges := es }).map es.idxOf =
      (fallback? op).map op.exchanges.idxOf := by
    unfold fallback?
    show (op.fallback.bind _).map _ = _
    cases op.fallback with
    | none => rfl
    | some name =>
      refine idxOf_find? hexchanges fun e e' he => ?_
      rw [he.name_eq]
  -- Which exchange answers depends on the two searches only.
  rw [standing_choose hnone, ← hmatching, ← hfallback]
  exact @standing_choose { op with rule, exchanges := es } hnone _

/-- Orders by their number in the path and an argument. -/
def orders : Operation :=
  { Operation.ofPath "GET" "/orders/{id}" with
    dispatcher := .uriParams
    rule := some "id && expand"
    exchanges := [.ofParameters "short" [⟨"id", "7"⟩, ⟨"expand", "no"⟩, ⟨"page", "2"⟩],
      .ofParameters "full" [⟨"expand", "yes"⟩, ⟨"id", "7"⟩, ⟨"page", "2"⟩]] }

def orderRequest (query : List Parameter) : Request where
  method := "GET"
  path := "/orders/7"
  query := query
  headers := []
  body := none

theorem choose_orders_reordered :
    let es := [.ofParameters "short" [⟨"page", "2"⟩, ⟨"id", "7"⟩, ⟨"expand", "no"⟩],
      .ofParameters "full" [⟨"id", "7"⟩, ⟨"page", "2"⟩, ⟨"expand", "yes"⟩]]
    (choose { orders with rule := some "expand&&id", exchanges := es }
      (orderRequest [⟨"page", "2"⟩, ⟨"expand", "yes"⟩])).standing es = .matched 1 := by
  intro es
  have hexchanges : List.Forall₂ Rerecorded orders.exchanges es := by
    refine .cons ⟨_, .inr ⟨?_, ?_⟩, rfl⟩ (.cons ⟨_, .inr ⟨?_, ?_⟩, rfl⟩ .nil) <;> decide
  have hquery : Reordered (orderRequest [⟨"expand", "yes"⟩, ⟨"page", "2"⟩]).query
      [⟨"page", "2"⟩, ⟨"expand", "yes"⟩] := .inr ⟨by decide, by decide⟩
  have hfull : (choose orders (orderRequest [⟨"expand", "yes"⟩, ⟨"page", "2"⟩])).standing
      orders.exchanges = .matched 1 := by decide +kernel
  have hdispatcher : orders.dispatcher ∈ byValues := by decide
  have hrule : (ruleNames (some "expand&&id")).Perm (ruleNames orders.rule) := by decide +kernel
  exact (choose_reordered hdispatcher hrule hexchanges hquery).trans hfull

end ApiDouble.Dispatch
