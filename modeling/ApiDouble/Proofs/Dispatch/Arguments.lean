import ApiDouble.Proofs.Dispatch.Choice
import ApiDouble.Proofs.Dispatch.Values
import ApiDouble.Proofs.Uri.Query

/-!
# Dispatching by arguments

Names and values of a query are read back from its written form, whatever characters they have, so
two requests have the same written arguments only if they have the same arguments.

**With a rule** both sides write the values of the same names. An exchange fits a request if for
each of these names both have a value, and the same one.

**Without a rule** each side writes all the names that it has. An exchange fits if it recorded just
what was requested, and something was.

Main result: `answers_queryArgs`.
-/

namespace ApiDouble.Dispatch

open Text Uri

/-! ## Equal texts -/

theorem queryText_injective {ps qs : List Parameter} (h : queryText ps = queryText qs) :
    ps = qs := by
  rw [← parseQuery_queryText ps, h, parseQuery_queryText]

variable {names names' : List String} {params params' : SortedMap String String}

theorem exists_argumentText?_iff :
    (∃ text, argumentText? names params = some text ∧ argumentText? names' params' = some text) ↔
      ∃ ps, ps ≠ [] ∧ valuesOf? (sorted names) params = some ps ∧
        valuesOf? (sorted names') params' = some ps := by
  constructor
  · rintro ⟨text, h, h'⟩
    obtain ⟨ps, hps, hne, htext⟩ := argumentText?_eq_some_iff.1 h
    obtain ⟨ps', hps', -, htext'⟩ := argumentText?_eq_some_iff.1 h'
    have hsame : ps' = ps :=
      queryText_injective (List.tail_eq_of_cons_eq (htext'.trans htext.symm))
    exact ⟨ps, hne, hps, hsame ▸ hps'⟩
  · rintro ⟨ps, hne, hps, hps'⟩
    exact ⟨'?' :: queryText ps, argumentText?_eq_some_iff.2 ⟨ps, hps, hne, rfl⟩,
      argumentText?_eq_some_iff.2 ⟨ps, hps', hne, rfl⟩⟩

/-! ## The names of a rule -/

/-- The arguments of a rule have the same text if both sides have the same values for them. -/
theorem exists_argumentText?_rule_iff (hne : names ≠ []) :
    (∃ text, argumentText? names params = some text ∧ argumentText? names params' = some text) ↔
      ∀ name ∈ names, ∃ value, params.get? name = some value ∧ params'.get? name = some value := by
  rw [exists_argumentText?_iff]
  have hsome : ∀ ps, valuesOf? (sorted names) params = some ps → ps ≠ [] := by
    rintro ps hps rfl
    have hnil : sorted names = [] := (valuesOf?_eq_some_iff.1 hps).1.symm
    obtain ⟨name, hname⟩ := List.exists_mem_of_ne_nil names hne
    have hmem : name ∈ sorted names := mem_sorted.2 hname
    rw [hnil] at hmem
    exact List.not_mem_nil hmem
  constructor
  · rintro ⟨ps, -, h⟩ name hname
    exact exists_valuesOf?_iff.1 ⟨ps, h⟩ name (mem_sorted.2 hname)
  · intro h
    obtain ⟨ps, hps⟩ := exists_valuesOf?_iff.2 fun name hname => h name (mem_sorted.1 hname)
    exact ⟨ps, hsome ps hps.1, hps⟩

/-! ## All names -/

theorem get?_eq_some_iff_mem {ps : List Parameter}
    (h : valuesOf? (sorted params.keys) params = some ps) {name value : String} :
    params.get? name = some value ↔ ⟨name, value⟩ ∈ ps := by
  obtain ⟨hnames, hall⟩ := valuesOf?_eq_some_iff.1 h
  constructor
  · intro hvalue
    have hname : name ∈ ps.map (·.name) := by
      rw [hnames]
      exact mem_sorted.2 (SortedMap.mem_keys.2 ⟨value, hvalue⟩)
    obtain ⟨p, hp, rfl⟩ := List.mem_map.1 hname
    obtain rfl : p.value = value := Option.some.inj ((hall p hp).symm.trans hvalue)
    exact hp
  · exact fun hp => hall _ hp

/-- All arguments have the same text if both sides have the same ones, and have any. -/
theorem exists_argumentText?_keys_iff :
    (∃ text, argumentText? params.keys params = some text ∧
        argumentText? params'.keys params' = some text) ↔
      (∀ name, params'.get? name = params.get? name) ∧ ∃ name value,
        params.get? name = some value := by
  rw [exists_argumentText?_iff]
  constructor
  · rintro ⟨ps, hne, h, h'⟩
    refine ⟨fun name => Option.ext fun value => ?_, ?_⟩
    · rw [get?_eq_some_iff_mem h, get?_eq_some_iff_mem h']
    · obtain ⟨p, hp⟩ := List.exists_mem_of_ne_nil ps hne
      exact ⟨p.name, p.value, (get?_eq_some_iff_mem h).2 hp⟩
  · rintro ⟨hsame, name, value, hvalue⟩
    obtain rfl : params' = params := SortedMap.ext hsame
    obtain ⟨ps, h, -⟩ := exists_valuesOf?_iff.2 fun name (hname : name ∈ sorted params'.keys) =>
      let ⟨value, hvalue⟩ := SortedMap.mem_keys.1 (mem_sorted.1 hname)
      ⟨value, hvalue, hvalue⟩
    have hmem : ⟨name, value⟩ ∈ ps := (get?_eq_some_iff_mem h).1 hvalue
    exact ⟨ps, List.ne_nil_of_mem hmem, h, h⟩

/-! ## The exchange that answers -/

variable {op : Operation}

/-- Whether an exchange recorded what a request asks for. -/
def FitsArguments (op : Operation) (r : Request) (e : Exchange) : Prop :=
  if ruleNames op.rule = [] then
    (∀ name, recorded? e name = requested? op.pathPattern r name) ∧
      ∃ name value, requested? op.pathPattern r name = some value
  else
    ∀ name ∈ ruleNames op.rule, ∃ value,
      requested? op.pathPattern r name = some value ∧ recorded? e name = some value

theorem sameCriteria_iff_fitsArguments (h : op.dispatcher = .queryArgs) (r : Request)
    (e : Exchange) : SameCriteria op r e ↔ FitsArguments op r e := by
  unfold SameCriteria FitsArguments criteria?
  simp only [h, exists_ofList_iff]
  by_cases hrule : ruleNames op.rule = []
  · simp only [hrule, List.isEmpty_nil, if_true]
    rw [exists_argumentText?_keys_iff]
    simp only [Input.ofExchange, Input.ofRequest, get?_firstOfEach, get?_paramsOf]
    rfl
  · simp only [List.isEmpty_iff, if_neg hrule]
    rw [exists_argumentText?_rule_iff hrule]
    simp only [Input.ofExchange, Input.ofRequest, get?_firstOfEach, get?_paramsOf]
    rfl

/-- **An operation that dispatches by arguments answers with the first exchange that recorded those
of the request.** -/
theorem answers_queryArgs (h : op.dispatcher = .queryArgs) (r : Request) :
    Answers op (FitsArguments op r) (choose op r) :=
  answers_of_sameCriteria_iff h nofun fun e _ => sameCriteria_iff_fitsArguments h r e

/-- Ales by all arguments, in which what divides a query is part of names and values. -/
def ales : Operation :=
  { Operation.ofPath "GET" "/beer/{kind}" with
    dispatcher := .queryArgs
    exchanges := [.ofParameters "blond" [⟨"kind", "ale"⟩, ⟨"q", "a&b=c"⟩],
      .ofParameters "amber" [⟨"q", "a"⟩, ⟨"b=c", ""⟩, ⟨"kind", "ale"⟩, ⟨"q", "stout"⟩]] }

theorem choose_ales :
    choose ales (.ofTarget "GET" "/beer/ale?q=a&b%3Dc=&q=last&kind=stout") =
      .matched (.ofParameters "amber"
        [⟨"q", "a"⟩, ⟨"b=c", ""⟩, ⟨"kind", "ale"⟩, ⟨"q", "stout"⟩]) := by
  have hrule : ruleNames ales.rule = [] := by decide +kernel
  refine (answers_queryArgs rfl _).unique (.matched ⟨?_, [_], [], rfl, ?_⟩)
  · rw [FitsArguments, if_pos hrule]
    refine ⟨fun name => ?_, "q", "a", by decide +kernel⟩
    rw [recorded?, ← get?_firstOfEach, ← get?_paramsOf]
    congr 1
    decide +kernel
  · intro e he hfits
    obtain rfl := List.mem_singleton.1 he
    rw [FitsArguments, if_pos hrule] at hfits
    exact absurd (hfits.1 "q") (by decide +kernel)

end ApiDouble.Dispatch
