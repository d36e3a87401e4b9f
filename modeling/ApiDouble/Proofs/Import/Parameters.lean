import ApiDouble.Proofs.Import.Places
import Mathlib.Data.List.Dedup

/-!
# Parameters of operations

**Declarations.** A list of parameters declares what its items lead to, items that lead nowhere or
to something without a name left out (`declaration?`).

**Overriding.** A path declares parameters, and so does each of its operations. An own declaration
of the operation takes the place of every earlier one of its pair, the name and the location, and
stands last. So what is left are the declarations of the path whose pair no own one has, and then
the last own one of each pair (`effective_eq`).

**Dispatching.** The locations of the parameters that are left decide how the exchanges of the
operation are told apart, and their names are its rule (`dispatch_eq`). Without `x-dispatch` this
stands, whatever examples are added (`operation_without_override`).

Main results: `effective_eq`, `mem_lastOfEach_iff`, `map_pair_lastOfEach`, `build_parameters`.
-/

namespace ApiDouble.Import.OpenApi

open Text Noted

variable {ps : List Declared} {p q : Declared}

/-! ## Declarations -/

/-- The parameter that an item declares: it leads to a node, and the node has a name. -/
def declaration? (resolve : Resolver) (item : Document) : Option Declared :=
  (resolve item).toOption.bind fun node =>
    if (node.get "name").text.isEmpty then none
    else some ⟨(node.get "name").text, (node.get "in").text, node⟩

theorem value_declared? (resolve : Resolver) (unit : String) (item : Document) :
    (declared? resolve unit item).value = declaration? resolve item := by
  unfold declared? declaration?
  cases resolve item with
  | error e => rfl
  | ok node =>
    rw [orDangling_ok, pure_bind]
    show _ = if (node.get "name").text.isEmpty then none else _
    by_cases hempty : (node.get "name").text.isEmpty
    · simp [hempty]
    · simp [hempty]

theorem value_declared (resolve : Resolver) (unit : String) (list : Document) :
    (declared resolve unit list).value = list.items.filterMap (declaration? resolve) := by
  unfold declared
  simp only [value_bind, value_mapM, value_pure, List.filterMap_map, value_declared?]
  rfl

/-! ## Overriding -/

/-- What tells parameters apart. -/
def Declared.pair (p : Declared) : String × String := (p.name, p.location)

theorem sameAs_iff : p.sameAs q = true ↔ p.pair = q.pair := by
  simp [Declared.sameAs, Declared.pair]

/-- The last declaration of each pair. -/
def lastOfEach (ps : List Declared) : List Declared := ps.pwFilter fun p q => p.pair ≠ q.pair

theorem lastOfEach_cons (p : Declared) (ps : List Declared) :
    lastOfEach (p :: ps) =
      if p.pair ∈ ps.map Declared.pair then lastOfEach ps else p :: lastOfEach ps := by
  have hlater : (∀ q ∈ lastOfEach ps, p.pair ≠ q.pair) ↔ p.pair ∉ ps.map Declared.pair := by
    unfold lastOfEach
    rw [List.forall_mem_pwFilter]
    · simp [eq_comm]
    · intro x y z hxz
      by_cases hxy : x.pair = y.pair
      · exact .inr (hxy ▸ hxz)
      · exact .inl hxy
  by_cases hp : p.pair ∈ ps.map Declared.pair
  · rw [if_pos hp]
    exact List.pwFilter_cons_of_neg fun h => hlater.1 h hp
  · rw [if_neg hp]
    exact List.pwFilter_cons_of_pos (hlater.2 hp)

theorem map_pair_lastOfEach (ps : List Declared) :
    (lastOfEach ps).map Declared.pair = (ps.map Declared.pair).dedup := by
  rw [List.dedup, List.pwFilter_map]
  rfl

/-- What is left of a pair is the declaration after which the pair is not declared again. -/
theorem mem_lastOfEach_iff : p ∈ lastOfEach ps ↔
    ∃ before after, ps = before ++ p :: after ∧ p.pair ∉ after.map Declared.pair := by
  induction ps with
  | nil => simp [lastOfEach]
  | cons q ps ih =>
    -- A place in the list is the head or one in the tail, which the recursion treats in turn.
    have hsplit : (∃ before after, q :: ps = before ++ p :: after ∧
          p.pair ∉ after.map Declared.pair) ↔
        (q = p ∧ p.pair ∉ ps.map Declared.pair) ∨ p ∈ lastOfEach ps := by
      rw [ih]
      constructor
      · rintro ⟨before, after, heq, hafter⟩
        rcases List.cons_eq_append_iff.1 heq with ⟨rfl, hnil⟩ | ⟨front, rfl, hrest⟩
        · obtain ⟨rfl, rfl⟩ := List.cons.inj hnil
          exact .inl ⟨rfl, hafter⟩
        · exact .inr ⟨front, after, hrest, hafter⟩
      · rintro (⟨rfl, hafter⟩ | ⟨before, after, rfl, hafter⟩)
        · exact ⟨[], ps, rfl, hafter⟩
        · exact ⟨q :: before, after, rfl, hafter⟩
    rw [hsplit, lastOfEach_cons]
    by_cases hq : q.pair ∈ ps.map Declared.pair
    · rw [if_pos hq]
      refine (or_iff_right ?_).symm
      rintro ⟨rfl, hno⟩
      exact hno hq
    · rw [if_neg hq, List.mem_cons, eq_comm (a := p)]
      refine or_congr_left' fun _ => ?_
      constructor
      · rintro rfl
        exact ⟨rfl, hq⟩
      · exact fun h => h.1

/-- **What is left of the declarations of a path and of an operation.** -/
theorem effective_eq (shared own : List Declared) :
    effective shared own =
      shared.filter (fun p => p.pair ∉ own.map Declared.pair) ++ lastOfEach own := by
  induction own generalizing shared with
  | nil => simp [effective, lastOfEach]
  | cons p own ih =>
    have hstep : effective shared (p :: own) = effective (replaceDeclared shared p) own := rfl
    -- What the head replaces and what the tail replaces together is what the list replaces.
    have hleft : (shared.filter fun q => !q.sameAs p).filter
          (fun q => q.pair ∉ own.map Declared.pair) =
        shared.filter fun q => q.pair ∉ (p :: own).map Declared.pair := by
      rw [List.filter_filter]
      refine List.filter_congr fun q _ => ?_
      rw [Bool.eq_iff_iff]
      simp [← sameAs_iff, and_comm]
    rw [hstep, ih, replaceDeclared, List.filter_append, hleft, lastOfEach_cons]
    by_cases hp : p.pair ∈ own.map Declared.pair
    · rw [if_pos hp, List.filter_singleton, decide_eq_false (not_not_intro hp), cond_false,
        List.append_nil]
    · rw [if_neg hp, List.filter_singleton, decide_eq_true hp, cond_true, List.append_assoc]
      rfl

/-! ## Dispatching -/

/-- Some parameter is at a location. -/
def HasAt (location : String) (ps : List Declared) : Prop := ∃ p ∈ ps, p.location = location

theorem isEmpty_namesAt_eq_false_iff {location : String} :
    (namesAt location ps).isEmpty = false ↔ HasAt location ps := by
  simp [namesAt, HasAt]

instance (location : String) (ps : List Declared) : Decidable (HasAt location ps) :=
  decidable_of_iff _ isEmpty_namesAt_eq_false_iff

/-- The names of the parameters of the path and then of the query, as a rule. -/
def ruleOf (ps : List Declared) : String :=
  " && ".intercalate (namesAt "path" ps ++ namesAt "query" ps)

/-- The locations of the parameters decide on the dispatcher. -/
theorem dispatch_eq (ps : List Declared) :
    dispatch ps =
      if HasAt "path" ps then
        if HasAt "query" ps then (.uriParams, some (ruleOf ps)) else (.uriParts, some (ruleOf ps))
      else if HasAt "query" ps then (.queryArgs, some (ruleOf ps)) else (.none, none) := by
  unfold dispatch
  dsimp only
  simp only [← isEmpty_namesAt_eq_false_iff]
  cases (namesAt "path" ps).isEmpty <;> cases (namesAt "query" ps).isEmpty <;> rfl

/-- Without `x-dispatch` an operation is dispatched by its parameters. -/
theorem operation_without_override {node : Document} (h : node.get? "x-dispatch" = none)
    (resolve : Resolver) (path verb : String) (ps : List Declared) :
    ((operation resolve path verb node ps).value.dispatcher,
      (operation resolve path verb node ps).value.rule) = dispatch ps := by
  have hnull : node.get "x-dispatch" = .null := by simp [Document.get, h]
  have hnothing : (override .null (addressed verb path ps)).value = addressed verb path ps := rfl
  have hbare := bare_operation resolve path verb node ps
  rw [hnull, hnothing] at hbare
  have haddressed : ((addressed verb path ps).dispatcher, (addressed verb path ps).rule) =
      dispatch ps := by
    unfold addressed
    dsimp only
    split <;> rfl
  rw [← haddressed]
  exact congrArg (fun op => (op.dispatcher, op.rule)) hbare

/-- **The parameters of an operation override those of its path**, and what is left decides how the
operation is dispatched. -/
theorem build_parameters (resolve : Resolver) (path verb : String) (item node : Document) :
    let shared := (declared resolve path (item.get "parameters")).value
    let own := (declared resolve path (node.get "parameters")).value
    let ps := effective shared own
    let built := (build resolve path shared verb node).value
    shared = (item.get "parameters").items.filterMap (declaration? resolve) ∧
      own = (node.get "parameters").items.filterMap (declaration? resolve) ∧
      (∃ last,
        ps = shared.filter (fun p => p.pair ∉ own.map Declared.pair) ++ last ∧
          last.map Declared.pair = (own.map Declared.pair).dedup ∧
          ∀ p, p ∈ last ↔
            ∃ before after, own = before ++ p :: after ∧ p.pair ∉ after.map Declared.pair) ∧
      (node.get? "x-dispatch" = none →
        (HasAt "path" ps → ¬HasAt "query" ps →
          built.dispatcher = .uriParts ∧ built.rule = some (ruleOf ps)) ∧
        (¬HasAt "path" ps → HasAt "query" ps →
          built.dispatcher = .queryArgs ∧ built.rule = some (ruleOf ps)) ∧
        (HasAt "path" ps → HasAt "query" ps →
          built.dispatcher = .uriParams ∧ built.rule = some (ruleOf ps)) ∧
        (¬HasAt "path" ps → ¬HasAt "query" ps →
          built.dispatcher = .none ∧ built.rule = none)) := by
  intro shared own ps built
  refine ⟨value_declared .., value_declared .., ⟨lastOfEach own, effective_eq shared own,
    map_pair_lastOfEach own, fun p => mem_lastOfEach_iff⟩, ?_⟩
  intro h
  have hbuilt : (built.dispatcher, built.rule) = dispatch ps :=
    operation_without_override h resolve path verb ps
  rw [dispatch_eq] at hbuilt
  refine ⟨?parts, ?query, ?both, ?neither⟩
  case parts =>
    intro hpath hquery
    rw [if_pos hpath, if_neg hquery] at hbuilt
    exact Prod.mk.inj hbuilt
  case query =>
    intro hpath hquery
    rw [if_neg hpath, if_pos hquery] at hbuilt
    exact Prod.mk.inj hbuilt
  case both =>
    intro hpath hquery
    rw [if_pos hpath, if_pos hquery] at hbuilt
    exact Prod.mk.inj hbuilt
  case neither =>
    intro hpath hquery
    rw [if_neg hpath, if_neg hquery] at hbuilt
    exact Prod.mk.inj hbuilt

/-- A parameter, with a note that tells its declarations apart. -/
def parameter (name location note : String) : Document :=
  .object [("name", .string name), ("in", .string location), ("description", .string note)]

/-- A path that declares an `id` in two places, a page elsewhere, and one that is nowhere. -/
def rooms : Document := .object [("parameters", .array [parameter "id" "path" "of the path",
  .object [("$ref", .string "#/page")], parameter "id" "header" "of the path",
  .object [("$ref", .string "#/nowhere")]]), ("page", parameter "page" "query" "elsewhere")]

/-- An operation that declares its page twice. -/
def listing : Document := .object [("parameters", .array [parameter "page" "query" "first",
  parameter "id" "query" "own", parameter "page" "query" "last"])]

/-- The operation's last page counts. Its `id` of the query leaves the other two alone. -/
theorem build_parameters_listing :
    let follow := Import.resolve rooms 8 "$ref"
    let shared := (declared follow "/rooms/{id}" (rooms.get "parameters")).value
    let own := (declared follow "/rooms/{id}" (listing.get "parameters")).value
    let built := (build follow "/rooms/{id}" shared "get" listing).value
    listing.get? "x-dispatch" = none ∧
      (effective shared own).map (fun p => (p.pair, (p.node.get "description").text)) =
        [(("id", "path"), "of the path"), (("id", "header"), "of the path"),
          (("id", "query"), "own"), (("page", "query"), "last")] ∧
      built.dispatcher = .uriParams ∧ built.rule = some "id && id && page" := by
  intro follow shared own built
  have hnone : listing.get? "x-dispatch" = none := rfl
  obtain ⟨-, -, -, hdispatch⟩ := build_parameters follow "/rooms/{id}" "get" rooms listing
  obtain ⟨-, -, hboth, -⟩ := hdispatch hnone
  have hrule : ruleOf (effective shared own) = "id && id && page" := by decide +kernel
  rw [← hrule]
  refine ⟨hnone, by decide +kernel, ?_⟩
  apply hboth
  · decide +kernel
  · decide +kernel

end ApiDouble.Import.OpenApi
