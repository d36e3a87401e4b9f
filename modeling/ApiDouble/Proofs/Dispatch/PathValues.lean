import ApiDouble.Proofs.Dispatch.Choice
import ApiDouble.Proofs.Dispatch.Values
import ApiDouble.Proofs.Text.Labelled
import ApiDouble.Proofs.Uri.Pattern
import ApiDouble.Proofs.Uri.Percent

/-!
# Dispatching by values in the path

The written form of values in a path keeps their slashes and equals signs. Whether it tells the
values apart is therefore a question of where the next `/name=` starts.

**Apart** (`Separable`). If all names are one, the written form repeats one part, whose length says
where it ends. If the values of one side have no slash, the written form has as many slashes as the
names need, so the values of the other side have none either, and each ends at the next slash.

**Confused** (`choose_seats`). A value that goes on like the next part does takes its place: `1` and
`2/b=3` under `a` and `b` are written like `1/b=2` and `3`.

Main result: `answers_uriParts`.
-/

namespace ApiDouble.Dispatch

open Text Uri

/-! ## The written form -/

variable {ps qs : List Parameter}

/-- Values as entries of a text in which a slash is in front of each name. -/
def pathEntries (ps : List Parameter) : List (List Char × List Char) :=
  ps.map fun p => (p.name.toList, encodePath p.value.toList)

theorem writtenParts_eq (ps : List Parameter) :
    writtenParts ps = labelled '/' (pathEntries ps) := by
  induction ps with
  | nil => rfl
  | cons p ps ih =>
    have hcons : writtenParts (p :: ps) = writtenPart p ++ writtenParts ps := List.flatMap_cons
    have hentries : pathEntries (p :: ps) =
        (p.name.toList, encodePath p.value.toList) :: pathEntries ps := List.map_cons
    rw [hcons, hentries, labelled_cons, ih]
    simp [writtenPart, mark]

theorem encodePath_injective {s t : List Char} (h : encodePath s = encodePath t) : s = t := by
  rw [← decode_encodePath s, h, decode_encodePath]

theorem pathEntries_injective (h : pathEntries ps = pathEntries qs) : ps = qs := by
  refine (List.map_inj_right fun p q hpq => ?_).1 h
  obtain ⟨name, value⟩ := p
  obtain ⟨name', value'⟩ := q
  obtain ⟨hname, hvalue⟩ := Prod.mk.inj hpq
  obtain rfl := String.toList_inj.1 hname
  obtain rfl := String.toList_inj.1 (encodePath_injective hvalue)
  rfl

theorem labels_pathEntries (hnames : ps.map (·.name) = qs.map (·.name)) :
    (pathEntries ps).map (·.1) = (pathEntries qs).map (·.1) := by
  have hlabels : ∀ ps : List Parameter,
      (pathEntries ps).map (·.1) = (ps.map (·.name)).map String.toList := by
    intro ps
    rw [pathEntries, List.map_map, List.map_map]
    rfl
  rw [hlabels, hlabels, hnames]

/-- Whether no value has a slash in its written form. -/
def NoSlashes (ps : List Parameter) : Prop := ∀ p ∈ ps, '/' ∉ encodePath p.value.toList

theorem noSlashes_of_values (h : ∀ p ∈ ps, '/' ∉ p.value.toList) : NoSlashes ps :=
  fun p hp hmem => h p hp (slash_mem_of_mem_encodePath hmem)

theorem NoSlashes.isClear (h : NoSlashes ps) : IsClear '/' (pathEntries ps) :=
  List.forall_mem_map.2 h

theorem isUniform_pathEntries (h : ∀ p ∈ ps, ∀ q ∈ ps, p = q) : IsUniform (pathEntries ps) := by
  intro e he f hf
  obtain ⟨p, hp, rfl⟩ := List.mem_map.1 he
  obtain ⟨q, hq, rfl⟩ := List.mem_map.1 hf
  rw [h p hp q hq]

/-! ## Equal texts -/

/-- Whether no value of some names has a slash. -/
def SlashFree (names : List String) (value? : String → Option String) : Prop :=
  ∀ name ∈ names, ∀ value, value? name = some value → '/' ∉ value.toList

instance (names : List String) (value? : String → Option String) :
    Decidable (SlashFree names value?) :=
  inferInstanceAs (Decidable (∀ name ∈ names, ∀ value ∈ value? name, '/' ∉ value.toList))

/-- Whether the written forms of two sides can be told apart if their values differ. -/
def Separable (names : List String) (value? other? : String → Option String) : Prop :=
  (∀ a ∈ names, ∀ b ∈ names, a = b) ∨ SlashFree names value? ∨ SlashFree names other?

variable {names : List String} {params params' : SortedMap String String}

theorem noSlashes_of_valuesOf? (h : SlashFree names params.get?)
    (hps : valuesOf? (sorted names) params = some ps) : NoSlashes ps := by
  obtain ⟨hnames, hall⟩ := valuesOf?_eq_some_iff.1 hps
  refine noSlashes_of_values fun p hp => h p.name ?_ p.value (hall p hp)
  rw [← mem_sorted, ← hnames]
  exact List.mem_map.2 ⟨p, hp, rfl⟩

theorem eq_of_valuesOf? (h : ∀ a ∈ names, ∀ b ∈ names, a = b)
    (hps : valuesOf? (sorted names) params = some ps) : ∀ p ∈ ps, ∀ q ∈ ps, p = q := by
  intro p hp q hq
  obtain ⟨hnames, hall⟩ := valuesOf?_eq_some_iff.1 hps
  have hmem : ∀ x ∈ ps, x.name ∈ names := by
    intro x hx
    rw [← mem_sorted, ← hnames]
    exact List.mem_map.2 ⟨x, hx, rfl⟩
  have hname : p.name = q.name := h _ (hmem p hp) _ (hmem q hq)
  have hvalue : p.value = q.value := by
    apply Option.some.inj
    rw [← hall p hp, hname, hall q hq]
  obtain ⟨name, value⟩ := p
  exact congrArg₂ Parameter.mk hname hvalue

theorem exists_pathText?_of_same (h : ∀ name ∈ names, ∃ value,
    params.get? name = some value ∧ params'.get? name = some value) :
    ∃ text, pathText? names params = some text ∧ pathText? names params' = some text := by
  obtain ⟨ps, hps, hps'⟩ := exists_valuesOf?_iff.2 fun name hname => h name (mem_sorted.1 hname)
  refine ⟨writtenParts ps, ?_, ?_⟩
  · rw [pathText?_eq, hps]
    rfl
  · rw [pathText?_eq, hps']
    rfl

/-- Values that can be told apart have the same text only if they are the same. -/
theorem same_of_pathText? (hsep : Separable names params.get? params'.get?) {text : List Char}
    (h : pathText? names params = some text) (h' : pathText? names params' = some text) :
    ∀ name ∈ names, ∃ value, params.get? name = some value ∧ params'.get? name = some value := by
  rw [pathText?_eq] at h h'
  obtain ⟨ps, hps, rfl⟩ := Option.map_eq_some_iff.1 h
  obtain ⟨qs, hqs, htext⟩ := Option.map_eq_some_iff.1 h'
  have hnames : ps.map (·.name) = qs.map (·.name) :=
    (valuesOf?_eq_some_iff.1 hps).1.trans (valuesOf?_eq_some_iff.1 hqs).1.symm
  -- One name cannot be confused with another; else the values of one side have no slashes.
  have hapart : Apart '/' (pathEntries ps) (pathEntries qs) := by
    rcases hsep with hone | hfree | hfree
    · exact .inl ⟨isUniform_pathEntries (eq_of_valuesOf? hone hps),
        isUniform_pathEntries (eq_of_valuesOf? hone hqs)⟩
    · exact .inr (.inl (noSlashes_of_valuesOf? hfree hps).isClear)
    · exact .inr (.inr (.inl (noSlashes_of_valuesOf? hfree hqs).isClear))
  rw [writtenParts_eq, writtenParts_eq] at htext
  obtain rfl := pathEntries_injective (hapart.eq (labels_pathEntries hnames) htext.symm)
  intro name hname
  exact exists_valuesOf?_iff.1 ⟨ps, hps, hqs⟩ name (mem_sorted.2 hname)

/-! ## The exchange that answers -/

variable {op : Operation} {r : Request} {found : SortedMap String String}

/-- The names by whose values an operation dispatches: those of its rule, or else the variables of
its pattern. -/
def partNames (op : Operation) : List String :=
  if ruleNames op.rule = [] then variableNames op.pathPattern else ruleNames op.rule

/-- Whether an exchange recorded the values that were found in a path. -/
def FitsParts (op : Operation) (found : SortedMap String String) (e : Exchange) : Prop :=
  ∀ name ∈ partNames op, ∃ value, found.get? name = some value ∧ recorded? e name = some value

instance (op : Operation) (found : SortedMap String String) (e : Exchange) :
    Decidable (FitsParts op found e) :=
  inferInstanceAs (Decidable
    (∀ name ∈ partNames op, ∃ value ∈ found.get? name, recorded? e name = some value))

theorem criteria?_uriParts (h : op.dispatcher = .uriParts) (input : Input) :
    criteria? op input = (pathText? (partNames op) input.params).map String.ofList := by
  unfold criteria? partNames
  simp only [h, List.isEmpty_iff]

theorem get?_paramsOf_of_mem (hfound : extract? op.pathPattern r.path = some found)
    (hrule : ∀ name ∈ ruleNames op.rule, name ∈ variableNames op.pathPattern) {name : String}
    (hname : name ∈ partNames op) :
    (paramsOf op.pathPattern r).get? name = found.get? name := by
  have hvariable : name ∈ variableNames op.pathPattern := by
    unfold partNames at hname
    split at hname
    · exact hname
    · exact hrule name hname
  obtain ⟨value, hvalue⟩ := (extract?_some_iff hfound name).2 hvariable
  rw [get?_paramsOf, requested?_of_extract? hfound hvalue, hvalue]

theorem SlashFree.congr {value? other? : String → Option String}
    (h : ∀ name ∈ names, value? name = other? name) (hfree : SlashFree names value?) :
    SlashFree names other? := by
  intro name hname value hvalue
  exact hfree name hname value ((h name hname).trans hvalue)

theorem sameCriteria_iff_fitsParts (h : op.dispatcher = .uriParts)
    (hrule : ∀ name ∈ ruleNames op.rule, name ∈ variableNames op.pathPattern)
    (hfound : extract? op.pathPattern r.path = some found) {e : Exchange}
    (hsep : Separable (partNames op) found.get? (recorded? e)) :
    SameCriteria op r e ↔ FitsParts op found e := by
  -- The names of the rule are variables, which arguments of the query do not override.
  have hget : ∀ name ∈ partNames op, (paramsOf op.pathPattern r).get? name = found.get? name :=
    fun name hname => get?_paramsOf_of_mem hfound hrule hname
  have hrecorded : (firstOfEach e.inbound.parameters).get? = recorded? e :=
    funext (get?_firstOfEach e.inbound.parameters)
  have hsep : Separable (partNames op) (paramsOf op.pathPattern r).get?
      (firstOfEach e.inbound.parameters).get? := by
    rw [hrecorded]
    rcases hsep with hone | hfree | hfree
    · exact .inl hone
    · exact .inr (.inl (hfree.congr fun name hname => (hget name hname).symm))
    · exact .inr (.inr hfree)
  unfold SameCriteria
  rw [criteria?_uriParts h, criteria?_uriParts h, exists_ofList_iff]
  constructor
  · rintro ⟨text, htext, htext'⟩ name hname
    have hsame := same_of_pathText? hsep htext htext' name hname
    rwa [hget name hname, hrecorded] at hsame
  · intro hfits
    apply exists_pathText?_of_same
    intro name hname
    obtain ⟨value, hvalue, hvalue'⟩ := hfits name hname
    exact ⟨value, (hget name hname).trans hvalue, (get?_firstOfEach _ name).trans hvalue'⟩

/-- **An operation that dispatches by values in the path answers with the first exchange that
recorded the values found there**, as long as values can be told apart. -/
theorem answers_uriParts (h : op.dispatcher = .uriParts)
    (hrule : ∀ name ∈ ruleNames op.rule, name ∈ variableNames op.pathPattern)
    (hfound : extract? op.pathPattern r.path = some found)
    (hsep : ∀ e ∈ op.exchanges, Separable (partNames op) found.get? (recorded? e)) :
    Answers op (FitsParts op found) (choose op r) :=
  answers_of_sameCriteria_iff h nofun fun e he =>
    sameCriteria_iff_fitsParts h hrule hfound (hsep e he)

/-- Pictures by year and place, the year found in one place or another. -/
def pictures : Operation :=
  { Operation.ofPath "GET" "/{year}/at/:place" with
    dispatcher := .uriParts
    rule := some "place && year"
    exchanges := [.ofParameters "bridge" [⟨"year", "2020"⟩, ⟨"place", "Köln"⟩],
      .ofParameters "tower" [⟨"place", "Köln=2"⟩, ⟨"year", "2020"⟩, ⟨"place", "Bonn/Beuel"⟩]] }

theorem choose_pictures :
    choose pictures (.ofTarget "GET" "/2020/at/K%C3%B6ln%3D2") =
      .matched (.ofParameters "tower"
        [⟨"place", "Köln=2"⟩, ⟨"year", "2020"⟩, ⟨"place", "Bonn/Beuel"⟩]) := by
  have hfound : extract? pictures.pathPattern
      (Request.ofTarget "GET" "/2020/at/K%C3%B6ln%3D2").path =
        some (.ofList [("year", "2020"), ("place", "Köln=2")]) := by decide +kernel
  refine (answers_uriParts rfl (by decide +kernel) hfound fun e _ => .inr (.inl ?_)).unique
    (.matched ⟨?_, [_], [], rfl, ?_⟩)
  · decide +kernel
  · decide +kernel
  · decide +kernel

/-- Seats by their row and number; the row of the only one has a slash. -/
def seats : Operation :=
  { Operation.ofPath "GET" "/{row}/{seat}" with
    dispatcher := .uriParts
    exchanges := [.ofParameters "window" [⟨"row", "1/seat=2"⟩, ⟨"seat", "3"⟩]] }

/-- **Values with slashes are confused.** The exchange that answers did not record what was found in
the path, where the slash is written in percent code. -/
theorem choose_seats :
    seats.dispatcher = .uriParts ∧ ruleNames seats.rule = [] ∧
      ∃ found, extract? seats.pathPattern (Request.ofTarget "GET" "/1/2%2Fseat=3").path =
          some found ∧
        ¬Answers seats (FitsParts seats found)
          (choose seats (.ofTarget "GET" "/1/2%2Fseat=3")) := by
  have hfound : extract? seats.pathPattern (Request.ofTarget "GET" "/1/2%2Fseat=3").path =
      some (.ofList [("row", "1"), ("seat", "2/seat=3")]) := by decide +kernel
  have hsorted : sorted (partNames seats) = ["row", "seat"] := by
    have hnames : partNames seats = ["row", "seat"] := by decide +kernel
    rw [hnames]
    exact sorted_of_pairwise (by decide)
  have hsame : SameCriteria seats (.ofTarget "GET" "/1/2%2Fseat=3")
      (.ofParameters "window" [⟨"row", "1/seat=2"⟩, ⟨"seat", "3"⟩]) := by
    refine ⟨"/row=1/seat=2/seat=3", ?_, ?_⟩
    · rw [criteria?_uriParts rfl, pathText?_eq, hsorted]
      decide +kernel
    · rw [criteria?_uriParts rfl, pathText?_eq, hsorted]
      decide +kernel
  have hchoose : choose seats (.ofTarget "GET" "/1/2%2Fseat=3") =
      .matched (.ofParameters "window" [⟨"row", "1/seat=2"⟩, ⟨"seat", "3"⟩]) :=
    (answers_choose (by decide) _).unique (.matched ⟨hsame, [], [], rfl, nofun⟩)
  refine ⟨rfl, by decide +kernel, _, hfound, ?_⟩
  rw [hchoose]
  intro h
  cases h with
  | matched first => exact absurd first.1 (by decide +kernel)

end ApiDouble.Dispatch
