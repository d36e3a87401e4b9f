import ApiDouble.Dispatch.Choice
import ApiDouble.Proofs.Collection.SortedMap

/-!
# Values under names

**One name.** Of the parameters that an exchange recorded the first one of a name has its value
(`recorded?`). A request takes it from the variables of its path, and if there is no such variable
from the first argument of that name (`requested?`). The maps that criteria are made of give just
these values.

**The names of a rule.** Their values are looked up in order, and there are none if one is missing
(`valuesOf?`). Two maps give the same values for a list of names if they agree on each of them.
Criteria are the written form of these values: of the values in a path (`writtenParts`), or of the
arguments of a query.

Main results: `get?_firstOfEach`, `get?_paramsOf`, `exists_valuesOf?_iff`, `pathText?_eq`,
`argumentText?_eq_some_iff`.
-/

namespace ApiDouble

open Text

/-- The value of the first parameter with a name. -/
def Parameter.first? (ps : List Parameter) (name : String) : Option String :=
  (ps.find? (·.name == name)).map (·.value)

theorem Parameter.findList?_eq_first? (ps : List Parameter) (name : String) :
    SortedMap.findList? name (ps.map fun p => (p.name, p.value)) = first? ps name := by
  induction ps with
  | nil => rfl
  | cons p ps ih =>
    rw [List.map_cons, SortedMap.findList?]
    by_cases h : p.name = name
    · subst h
      rw [if_pos Std.ReflCmp.compare_self, first?, List.find?_cons_of_pos (by simp)]
      rfl
    · have hne : ¬compare name p.name = .eq := fun hc => h (Std.LawfulEqOrd.eq_of_compare hc).symm
      rw [if_neg hne, ih, first?, first?, List.find?_cons_of_neg (by simpa using h)]

/-- An exchange of which only the parameters matter. -/
def Exchange.ofParameters (name : String) (ps : List Parameter) : Exchange :=
  .requestResponse
    { name, content := none, mediaType := none, headers := [], parameters := ps }
    { name, status := none, content := none, mediaType := none, headers := [] }

namespace Dispatch

/-! ## The value of a name -/

/-- What an exchange recorded under a name. -/
def recorded? (e : Exchange) (name : String) : Option String :=
  Parameter.first? e.inbound.parameters name

/-- What a request has under a name, its path read by a pattern. -/
def requested? (pattern : String) (r : Request) (name : String) : Option String :=
  ((Uri.extract? pattern r.path).bind (·.get? name)).or (Parameter.first? r.query name)

theorem get?_firstOfEach (ps : List Parameter) (name : String) :
    (firstOfEach ps).get? name = Parameter.first? ps name := by
  rw [firstOfEach, SortedMap.get?_ofListFirst, Parameter.findList?_eq_first?]

theorem get?_paramsOf (pattern : String) (r : Request) (name : String) :
    (paramsOf pattern r).get? name = requested? pattern r name := by
  unfold paramsOf requested?
  rw [SortedMap.get?_ofListFirst, SortedMap.findList?_append, Parameter.findList?_eq_first?]
  cases Uri.extract? pattern r.path <;> rfl

theorem requested?_of_extract? {pattern : String} {r : Request} {found : SortedMap String String}
    (h : Uri.extract? pattern r.path = some found) {name value : String}
    (hvalue : found.get? name = some value) : requested? pattern r name = some value := by
  rw [requested?, h]
  show (found.get? name).or _ = _
  rw [hvalue]
  rfl

/-! ## The values of several names -/

/-- The values of some names in a map, none if one of them is missing. -/
def valuesOf? (names : List String) (params : SortedMap String String) : Option (List Parameter) :=
  names.mapM fun name => (params.get? name).map (Parameter.mk name)

variable {names : List String} {params params' : SortedMap String String} {ps : List Parameter}

theorem valuesOf?_cons (name : String) :
    valuesOf? (name :: names) params =
      (params.get? name).bind fun value => (valuesOf? names params).map (⟨name, value⟩ :: ·) := by
  unfold valuesOf?
  rw [List.mapM_cons]
  cases params.get? name with
  | none => rfl
  | some value => cases names.mapM fun name => (params.get? name).map (Parameter.mk name) <;> rfl

theorem valuesOf?_eq_some_iff :
    valuesOf? names params = some ps ↔
      ps.map (·.name) = names ∧ ∀ p ∈ ps, params.get? p.name = some p.value := by
  induction names generalizing ps with
  | nil =>
    show some [] = some ps ↔ _
    constructor
    · rintro ⟨⟩
      exact ⟨rfl, fun p hp => absurd hp List.not_mem_nil⟩
    · rintro ⟨hnames, -⟩
      rw [List.map_eq_nil_iff.1 hnames]
  | cons name names ih =>
    rw [valuesOf?_cons]
    constructor
    · intro h
      obtain ⟨value, hvalue, h⟩ := Option.bind_eq_some_iff.1 h
      obtain ⟨qs, hqs, rfl⟩ := Option.map_eq_some_iff.1 h
      obtain ⟨hnames, hall⟩ := ih.1 hqs
      exact ⟨by rw [List.map_cons, hnames], List.forall_mem_cons.2 ⟨hvalue, hall⟩⟩
    · rintro ⟨hnames, hall⟩
      cases ps with
      | nil => cases hnames
      | cons p qs =>
        obtain ⟨rfl, hrest⟩ := List.cons_eq_cons.1 hnames
        obtain ⟨hvalue, hall⟩ := List.forall_mem_cons.1 hall
        rw [hvalue, Option.bind_some, ih.2 ⟨hrest, hall⟩]
        rfl

theorem exists_mapM_iff {α β : Type} {f g : α → Option β} {xs : List α} :
    (∃ ys, xs.mapM f = some ys ∧ xs.mapM g = some ys) ↔
      ∀ x ∈ xs, ∃ y, f x = some y ∧ g x = some y := by
  induction xs with
  | nil => exact iff_of_true ⟨[], rfl, rfl⟩ fun x hx => absurd hx List.not_mem_nil
  | cons x xs ih =>
    rw [List.forall_mem_cons, ← ih]
    simp only [List.mapM_cons, Option.bind_eq_bind, Option.bind_eq_some_iff, Option.pure_def,
      Option.some.injEq]
    constructor
    · rintro ⟨_, ⟨y, hf, ys, hfs, rfl⟩, ⟨z, hg, zs, hgs, hzs⟩⟩
      obtain ⟨rfl, rfl⟩ := List.cons_eq_cons.1 hzs
      exact ⟨⟨z, hf, hg⟩, zs, hfs, hgs⟩
    · rintro ⟨⟨y, hf, hg⟩, ys, hfs, hgs⟩
      exact ⟨y :: ys, ⟨y, hf, ys, hfs, rfl⟩, ⟨y, hg, ys, hgs, rfl⟩⟩

/-- **Two maps give the same values for some names if they agree on each.** -/
theorem exists_valuesOf?_iff :
    (∃ ps, valuesOf? names params = some ps ∧ valuesOf? names params' = some ps) ↔
      ∀ name ∈ names, ∃ value, params.get? name = some value ∧ params'.get? name = some value := by
  unfold valuesOf?
  rw [exists_mapM_iff]
  refine forall₂_congr fun name _ => ?_
  simp only [Option.map_eq_some_iff]
  constructor
  · rintro ⟨_, ⟨value, h, rfl⟩, ⟨_, h', hvalue⟩⟩
    obtain ⟨-, rfl⟩ := Parameter.mk.inj hvalue
    exact ⟨_, h, h'⟩
  · rintro ⟨value, h, h'⟩
    exact ⟨_, ⟨value, h, rfl⟩, ⟨value, h', rfl⟩⟩

theorem mem_sorted {name : String} : name ∈ sorted names ↔ name ∈ names := List.mem_mergeSort

theorem sorted_of_pairwise (h : names.Pairwise (· ≤ ·)) : sorted names = names :=
  List.mergeSort_of_pairwise (h.imp decide_eq_true)

/-! ## Their written forms -/

/-- One value in the written form of values in a path. -/
def writtenPart (p : Parameter) : List Char :=
  '/' :: p.name.toList ++ '=' :: Uri.encodePath p.value.toList

/-- The written form of values in a path. -/
def writtenParts (ps : List Parameter) : List Char := ps.flatMap writtenPart

theorem pathText?_eq (names : List String) (params : SortedMap String String) :
    pathText? names params = (valuesOf? (sorted names) params).map writtenParts := by
  have hparts : ∀ names : List String,
      (names.mapM fun name => do
        let value ← params.get? name
        return '/' :: name.toList ++ '=' :: Uri.encodePath value.toList) =
      (valuesOf? names params).map (List.map writtenPart) := by
    intro names
    induction names with
    | nil => rfl
    | cons name names ih =>
      rw [valuesOf?_cons, List.mapM_cons, ih]
      cases params.get? name with
      | none => rfl
      | some value => cases valuesOf? names params <;> rfl
  unfold pathText?
  rw [hparts]
  cases valuesOf? (sorted names) params <;> rfl

theorem argumentText?_eq_some_iff {text : List Char} :
    argumentText? names params = some text ↔
      ∃ ps, valuesOf? (sorted names) params = some ps ∧ ps ≠ [] ∧
        '?' :: Uri.queryText ps = text := by
  show (valuesOf? (sorted names) params).bind _ = some text ↔ _
  rw [Option.bind_eq_some_iff]
  refine exists_congr fun ps => and_congr_right fun _ => ?_
  cases ps with
  | nil => simp
  | cons p ps => simp

theorem exists_ofList_iff {a b : Option (List Char)} :
    (∃ c, a.map String.ofList = some c ∧ b.map String.ofList = some c) ↔
      ∃ text, a = some text ∧ b = some text := by
  constructor
  · rintro ⟨c, ha, hb⟩
    obtain ⟨text, rfl, rfl⟩ := Option.map_eq_some_iff.1 ha
    obtain ⟨text', rfl, htext⟩ := Option.map_eq_some_iff.1 hb
    exact ⟨text, rfl, congrArg some (String.ofList_injective htext)⟩
  · rintro ⟨text, rfl, rfl⟩
    exact ⟨String.ofList text, rfl, rfl⟩

end Dispatch

end ApiDouble
