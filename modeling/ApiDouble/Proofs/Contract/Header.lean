import ApiDouble.Contract.Exchange
import ApiDouble.Proofs.Collection.Lists
import ApiDouble.Proofs.Text.Blank
import ApiDouble.Proofs.Text.Search
import Mathlib.Data.List.Induction

/-!
# Headers in text and in layers

**Values.** A header that is read from a comma-separated text has the values that the text lists:
what trimming leaves of its parts between commas, unless that is nothing (`Lists`). The values are
trimmed, are not empty and have no comma. Joined by commas and read again they are the same set. So
the joined values are a canonical text for all the texts that list the same values
(`ofCsv_canonical`). In what order these are listed, how often, with which blanks around them and
with how many empty parts between them is of no account.

**Layers.** Of the headers in several layers every name is kept once. It stands where it occurs
first and is spelled as it is there, and it has the values of its last header in the last layer that
has one (`Layered`).

**Induction.** Overriding goes through the headers of all layers one by one, and what it keeps of
those seen so far has two parts: the spellings are the first ones of their names, and the values
are those of the last headers of their names (`Overridden`). A new header either adds a spelling
or changes the values under one.

Main results: `mem_values_ofCsv`, `ofCsv_joined`, `ofCsv_canonical`, `overridden_foldl`,
`layered_merge`.
-/

namespace ApiDouble.Header

open Text

/-! ## Values -/

/-! ### What a text lists -/

/-- A text lists the values that trimming leaves of its parts between commas, but for empty ones. -/
def Lists (csv v : String) : Prop :=
  v ≠ "" ∧ ∃ part, IsPart ',' csv.toList part ∧ Trims part v.toList

theorem mem_csvValues_iff {csv : List Char} {v : String} :
    v ∈ csvValues csv ↔ v ≠ "" ∧ ∃ part ∈ splitOn ',' csv, trim part = v.toList := by
  simp only [csvValues, List.mem_map, List.mem_filter]
  constructor
  · rintro ⟨_, ⟨⟨part, hpart, rfl⟩, hne⟩, rfl⟩
    refine ⟨?_, part, hpart, String.toList_ofList.symm⟩
    intro hv
    rw [String.ofList_eq_empty_iff.1 hv] at hne
    cases hne
  · rintro ⟨hv, part, hpart, htrim⟩
    refine ⟨v.toList, ⟨⟨part, hpart, htrim⟩, ?_⟩, String.ofList_toList⟩
    simpa using hv

/-- **A header that is read from a text has the values that the text lists.** -/
theorem mem_values_ofCsv {name csv v : String} : v ∈ (ofCsv name csv).values ↔ Lists csv v := by
  rw [ofCsv, SortedSet.mem_ofList, mem_csvValues_iff, Lists]
  simp only [mem_splitOn_iff, trim_eq_iff]

/-! ### Values between commas -/

/-- A text that can be one of several values between commas. -/
def IsValue (v : String) : Prop :=
  ',' ∉ v.toList ∧ v.toList ≠ [] ∧ trim v.toList = v.toList

theorem isValue_of_mem_csvValues {csv : List Char} {v : String} (h : v ∈ csvValues csv) :
    IsValue v := by
  obtain ⟨hne, part, hpart, htrim⟩ := mem_csvValues_iff.1 h
  obtain ⟨hcomma, -⟩ := mem_splitOn_iff.1 hpart
  unfold IsValue
  rw [← htrim]
  refine ⟨fun hc => hcomma (mem_of_mem_trim hc), ?_, trim_trim part⟩
  rw [htrim]
  simpa using hne

theorem csvValues_intercalate {vs : List String} (h : ∀ v ∈ vs, IsValue v) :
    csvValues ([','].intercalate (vs.map String.toList)) = vs := by
  cases vs with
  | nil => rfl
  | cons v vs =>
    have hcomma : ∀ t ∈ (v :: vs).map String.toList, ',' ∉ t := by
      intro t ht
      obtain ⟨w, hw, rfl⟩ := List.mem_map.1 ht
      exact (h w hw).1
    have htrim : ((v :: vs).map String.toList).map trim = (v :: vs).map String.toList := by
      rw [List.map_map]
      exact List.map_congr_left fun w hw => (h w hw).2.2
    have hkept : ∀ t ∈ (v :: vs).map String.toList, (!t.isEmpty) = true := by
      intro t ht
      obtain ⟨w, hw, rfl⟩ := List.mem_map.1 ht
      simpa using (h w hw).2.1
    have hsplit := List.splitOn_intercalate ',' hcomma (List.cons_ne_nil _ _)
    rw [csvValues, splitOn, hsplit, htrim, List.filter_eq_self.2 hkept, List.map_map]
    refine (List.map_congr_left fun w _ => ?_).trans (List.map_id _)
    exact String.ofList_toList

/-! ### Reading again -/

/-- **A header that was read from a text is read again from its joined values.** -/
theorem ofCsv_joined (name csv : String) : ofCsv name (ofCsv name csv).joined = ofCsv name csv := by
  have hvalues : ∀ v ∈ (ofCsv name csv).values.toList, IsValue v := by
    intro v hv
    exact isValue_of_mem_csvValues (SortedSet.mem_ofList.1 hv)
  have hread : csvValues (ofCsv name csv).joined.toList = (ofCsv name csv).values.toList := by
    rw [joined, String.toList_intercalate]
    exact csvValues_intercalate hvalues
  show Header.mk name (.ofList (csvValues (ofCsv name csv).joined.toList)) = _
  rw [hread, SortedSet.ofList_toList]
  rfl

/-- **Header values have a canonical text.** The joined values are read as the header that they come
from, and two texts are read as one header just if they list the same values. -/
theorem ofCsv_canonical (name csv : String) :
    ofCsv name (ofCsv name csv).joined = ofCsv name csv ∧
      ∀ csv', ofCsv name csv = ofCsv name csv' ↔ ∀ v, Lists csv v ↔ Lists csv' v := by
  refine ⟨ofCsv_joined name csv, fun csv' => ⟨fun h v => ?_, fun h => ?_⟩⟩
  · rw [← mem_values_ofCsv, h, mem_values_ofCsv]
  · have hvalues : (ofCsv name csv).values = (ofCsv name csv').values := by
      apply SortedSet.ext
      intro v
      rw [mem_values_ofCsv, mem_values_ofCsv, h v]
    exact congrArg (Header.mk name) hvalues

/-- Order, repetitions, blanks and empty parts are of no account. -/
example : ofCsv "Accept" ",b ,a a,\t b,, " = ofCsv "Accept" "a a,b" := by decide +kernel

/-! ## Layers -/

/-- A name in small letters, which is the same for all its spellings. -/
def folded (name : String) : List Char := asciiLower name.toList

theorem sameName_iff_folded {a b : String} : sameName a b ↔ folded a = folded b := sameName_iff

/-- The last header with a name. -/
def last? (hs : List Header) (name : String) : Option Header :=
  hs.reverse.find? (sameName ·.name name)

/-- The header whose values count under a name: the last one of the last layer that has one. -/
def settled? (layers : List (List Header)) (name : String) : Option Header :=
  layers.reverse.findSome? (last? · name)

/-- The header that is kept under a spelling. -/
def kept? (layers : List (List Header)) (spelling : String) : Option Header :=
  (settled? layers spelling).map fun h => ⟨spelling, h.values⟩

/-- The headers kept of some layers: at the first place of each name, in its spelling there and with
the values that count. -/
def Layered (layers : List (List Header)) (hs : List Header) : Prop :=
  ∃ places,
    Firsts (fun h => folded h.name) (fun h => kept? layers h.name) layers.flatten places hs

/-! ### The last header of a name -/

variable {hs xs : List Header} {h x : Header} {name : String} {layers : List (List Header)}

theorem last?_append (hs hs' : List Header) (name : String) :
    last? (hs ++ hs') name = (last? hs' name).or (last? hs name) := by
  unfold last?
  rw [List.reverse_append, List.find?_append]

theorem last?_concat (hs : List Header) (h : Header) (name : String) :
    last? (hs ++ [h]) name = if sameName h.name name then some h else last? hs name := by
  rw [last?_append, last?, List.reverse_singleton, List.find?_singleton]
  split <;> rfl

theorem isSome_last? (hh : h ∈ hs) : (last? hs h.name).isSome := by
  rw [last?, List.find?_isSome]
  exact ⟨h, List.mem_reverse.2 hh, sameName_refl h.name⟩

/-- The last header of all layers is the last one of the last layer that has one. -/
theorem last?_flatten (layers : List (List Header)) (name : String) :
    last? layers.flatten name = settled? layers name := by
  induction layers with
  | nil => rfl
  | cons layer layers ih =>
    rw [List.flatten_cons, last?_append, ih, settled?, settled?, List.reverse_cons,
      List.findSome?_append, List.findSome?_singleton]

/-! ### Overriding -/

theorem map_name_override (hh : ∃ g ∈ hs, sameName g.name h.name) :
    (override hs h).map (·.name) = hs.map (·.name) := by
  induction hs with
  | nil =>
    obtain ⟨g, hg, -⟩ := hh
    cases hg
  | cons g hs ih =>
    rw [override]
    by_cases hsame : sameName g.name h.name
    · rw [if_pos hsame]
      rfl
    · obtain ⟨g', hg', hsame'⟩ := hh
      rcases List.mem_cons.1 hg' with rfl | hg'
      · exact absurd hsame' hsame
      · rw [if_neg hsame, List.map_cons, List.map_cons, ih ⟨g', hg', hsame'⟩]

theorem override_of_forall_ne (hh : ∀ g ∈ hs, ¬sameName g.name h.name) :
    override hs h = hs ++ [h] := by
  induction hs with
  | nil => rfl
  | cons g hs ih =>
    rw [override, if_neg (hh g List.mem_cons_self),
      ih fun g' hg' => hh g' (List.mem_cons_of_mem _ hg')]
    rfl

theorem of_mem_override (hnames : (hs.map fun g => folded g.name).Nodup) {g : Header}
    (hg : g ∈ override hs h) :
    sameName h.name g.name ∧ g.values = h.values ∨ ¬sameName h.name g.name ∧ g ∈ hs := by
  induction hs with
  | nil =>
    obtain rfl := List.mem_singleton.1 hg
    exact .inl ⟨sameName_refl g.name, rfl⟩
  | cons g₀ hs ih =>
    obtain ⟨hfirst, hrest⟩ := List.nodup_cons.1 hnames
    rw [override] at hg
    by_cases hsame : sameName g₀.name h.name
    · rw [if_pos hsame] at hg
      rcases List.mem_cons.1 hg with rfl | hg
      · exact .inl ⟨by rwa [sameName_comm], rfl⟩
      · refine .inr ⟨fun hsame' => hfirst ?_, List.mem_cons_of_mem _ hg⟩
        exact List.mem_map.2 ⟨g, hg, (sameName_iff.1 (sameName_trans hsame hsame')).symm⟩
    · rw [if_neg hsame] at hg
      rcases List.mem_cons.1 hg with rfl | hg
      · exact .inr ⟨by rwa [sameName_comm], List.mem_cons_self⟩
      · exact (ih hrest hg).imp_right fun ⟨hne, hmem⟩ => ⟨hne, List.mem_cons_of_mem _ hmem⟩

/-! ### All headers -/

/-- What is kept of some headers: the first spellings of their names, each with the values of the
last header of the name. -/
structure Overridden (xs hs : List Header) : Prop where
  spellings : ∃ places, Firsts (fun x => folded x.name) (fun x => some x.name) xs places
    (hs.map (·.name))
  values : ∀ h ∈ hs, ∃ x, last? xs h.name = some x ∧ h.values = x.values

theorem Overridden.nodup (hhs : Overridden xs hs) : (hs.map fun h => folded h.name).Nodup := by
  obtain ⟨places, hfirsts⟩ := hhs.spellings
  have hnodup : ((hs.map (·.name)).map folded).Nodup :=
    hfirsts.nodup fun x spelling hx => by cases hx; rfl
  rwa [List.map_map] at hnodup

theorem Overridden.exists_mem_iff (hhs : Overridden xs hs) :
    (∃ g ∈ hs, sameName g.name name) ↔ ∃ x ∈ xs, sameName x.name name := by
  obtain ⟨places, hfirsts⟩ := hhs.spellings
  have hmem : folded name ∈ (hs.map (·.name)).map folded ↔
      ∃ x ∈ xs, (some x.name).isSome ∧ folded x.name = folded name :=
    hfirsts.mem_names_iff fun x spelling hx => by cases hx; rfl
  rw [List.map_map, List.mem_map] at hmem
  simp only [sameName_iff_folded]
  exact hmem.trans (exists_congr fun x => and_congr_right fun _ => and_iff_right rfl)

/-- One more header keeps what holds of those before it. -/
theorem Overridden.concat (hhs : Overridden xs hs) (x : Header) :
    Overridden (xs ++ [x]) (override hs x) where
  spellings := by
    obtain ⟨places, hfirsts⟩ := hhs.spellings
    -- A name that is there keeps its spelling and its place.
    by_cases hold : ∃ g ∈ hs, sameName g.name x.name
    · obtain ⟨y, hy, hsame⟩ := hhs.exists_mem_iff.1 hold
      rw [map_name_override hold]
      exact ⟨places, hfirsts.leave fun _ => ⟨y, hy, rfl, sameName_iff.1 hsame⟩⟩
    · have hnew : ∀ y ∈ xs, ¬sameName y.name x.name := fun y hy hsame =>
        hold (hhs.exists_mem_iff.2 ⟨y, hy, hsame⟩)
      rw [override_of_forall_ne fun g hg hsame => hold ⟨g, hg, hsame⟩, List.map_append]
      exact ⟨_, hfirsts.keep rfl fun y hy _ hsame => hnew y hy (sameName_iff.2 hsame)⟩
  values h hh := by
    rw [last?_concat]
    rcases of_mem_override hhs.nodup hh with ⟨hsame, hvalues⟩ | ⟨hne, hmem⟩
    · rw [if_pos hsame]
      exact ⟨x, rfl, hvalues⟩
    · rw [if_neg hne]
      exact hhs.values h hmem

/-- **What is kept after all headers**, by induction on those seen so far. -/
theorem overridden_foldl (xs : List Header) : Overridden xs (xs.foldl override []) := by
  induction xs using List.reverseRecOn with
  | nil => exact ⟨⟨[], .nil⟩, fun h hh => by cases hh⟩
  | append_singleton xs x ih =>
    rw [List.foldl_append]
    exact ih.concat x

/-! ### Layers -/

theorem isSome_kept? (hh : h ∈ layers.flatten) : (kept? layers h.name).isSome := by
  rw [kept?, Option.isSome_map, ← last?_flatten]
  exact isSome_last? hh

/-- Spellings that are the first ones and values that count make up the headers kept. -/
theorem Overridden.layered (hhs : Overridden layers.flatten hs) : Layered layers hs := by
  obtain ⟨places, hfirsts⟩ := hhs.spellings
  -- The last one of all headers with the name is the last one of the last layer that has it.
  have hresults : hs.map some = (hs.map (·.name)).map (kept? layers) := by
    rw [List.map_map]
    refine List.map_congr_left fun h hh => ?_
    obtain ⟨x, hx, hvalues⟩ := hhs.values h hh
    rw [Function.comp_apply, kept?, ← last?_flatten, hx, Option.map_some, ← hvalues]
  refine ⟨places, hfirsts.ordered, fun i => ?_, ?_⟩
  · rw [hfirsts.mem_iff]
    refine exists_congr fun x => and_congr_right fun hx => ?_
    have hsome := isSome_kept? (List.mem_of_getElem? hx)
    refine and_congr (iff_of_true rfl hsome) (forall_congr' fun j => forall_congr' fun _ =>
      forall_congr' fun z => forall_congr' fun hz => ?_)
    exact imp_congr_left (iff_of_true rfl (isSome_kept? (List.mem_of_getElem? hz)))
  · have hnames := congrArg (List.map (Option.bind · (kept? layers))) hfirsts.results
    rw [List.map_map] at hnames
    rw [hresults]
    refine hnames.trans ?_
    rw [List.map_map]
    refine List.map_congr_left fun i _ => ?_
    rw [Function.comp_apply]
    cases layers.flatten[i]? <;> rfl

/-- **Merging keeps of every name the first spelling, in its place, and the last values.** -/
theorem layered_merge (layers : List (List Header)) : Layered layers (merge layers) :=
  (overridden_foldl layers.flatten).layered

theorem kept?_eq_some {spelling : String} (hh : kept? layers spelling = some h) :
    folded h.name = folded spelling := by
  obtain ⟨g, -, rfl⟩ := Option.map_eq_some_iff.1 hh
  rfl

theorem Layered.nodup (hhs : Layered layers hs) : (hs.map fun h => folded h.name).Nodup := by
  obtain ⟨places, hfirsts⟩ := hhs
  exact hfirsts.nodup fun x h hh => kept?_eq_some hh

theorem Layered.exists_mem_iff (hhs : Layered layers hs) :
    (∃ g ∈ hs, sameName g.name name) ↔ ∃ x ∈ layers.flatten, sameName x.name name := by
  obtain ⟨places, hfirsts⟩ := hhs
  have hmem := hfirsts.mem_names_iff (k := folded name) fun x h hh => kept?_eq_some hh
  rw [List.mem_map] at hmem
  simp only [sameName_iff_folded]
  refine hmem.trans (exists_congr fun x => and_congr_right fun hx => ?_)
  exact and_iff_right (isSome_kept? hx)

/-- The test overrides the media types, and the operation overrides them again. -/
example : merge [[.ofCsv "Accept" "text/html"],
    [.ofCsv "X-Tenant" "acme", .ofCsv "accept" "text/plain"],
    [.ofCsv "ACCEPT" "application/json"]] =
    [.ofCsv "Accept" "application/json", .ofCsv "X-Tenant" "acme"] := by decide +kernel

end ApiDouble.Header
