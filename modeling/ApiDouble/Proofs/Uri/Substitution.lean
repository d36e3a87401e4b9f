import ApiDouble.Proofs.Uri.Instantiate

/-!
# Variables in braces and variables after a colon

A pattern of segments can be written with its variables in braces (`written`) or after a colon
(`coloned`). In either form each value goes in the place of its variable and all other parameters
become the query, except that values are filled in one after the other:

* A coded value keeps slashes and colons, so it can hold what a later parameter takes for its place
  (`TakenFor`).
* Of the places after a colon only the first one is filled, so a variable may stand there once.

**Places** (`HasPlace`). A place begins at a slash, and its name has none, so it never reaches over
the next slash: a text has a place only if a segment has one (`not_hasPlace_written`). Text without
a place is passed over (`fillColon?_of_not_hasPlace`).

Main result: `instantiate_regular`. What it asks for is needed: `instantiate_twice`.
-/

namespace ApiDouble.Uri

open Text

/-! ## Places after a colon -/

/-- A text starts with the place of a variable: its name stands after a slash and a colon, and no
longer name continues it. -/
def Marked (name s : List Char) : Prop :=
  ∃ rest, s = '/' :: ':' :: (name ++ rest) ∧ rest.head?.any isNameChar = false

/-- A text has the place of a variable somewhere. -/
def HasPlace (name s : List Char) : Prop := ∃ t, t <:+ s ∧ Marked name t

variable {name : List Char}

theorem hasPlace_cons_iff {c : Char} {s : List Char} :
    HasPlace name (c :: s) ↔ Marked name (c :: s) ∨ HasPlace name s := by
  unfold HasPlace
  simp only [List.suffix_cons_iff]
  constructor
  · rintro ⟨t, rfl | ht, hmarked⟩
    · exact .inl hmarked
    · exact .inr ⟨t, ht, hmarked⟩
  · rintro (hmarked | ⟨t, ht, hmarked⟩)
    · exact ⟨_, .inl rfl, hmarked⟩
    · exact ⟨t, .inr ht, hmarked⟩

theorem not_hasPlace_nil : ¬HasPlace name [] := by
  rintro ⟨t, ht, rest, rfl, -⟩
  simp at ht

theorem Marked.of_append (hname : '/' ∉ name) {c : Char} {t rest : List Char}
    (hrest : ∀ d ∈ rest.head?, d = '/') (h : Marked name (c :: t ++ rest)) :
    Marked name (c :: t) := by
  obtain ⟨after, hs, hafter⟩ := h
  have hs' : (c :: t) ++ rest = ('/' :: ':' :: name) ++ after := by simpa using hs
  rcases List.append_eq_append_iff.1 hs' with ⟨more, hmore, rfl⟩ | ⟨more, hmore, rfl⟩
  · cases more with
    | nil => exact ⟨[], by simpa using hmore.symm, rfl⟩
    | cons d more =>
      exfalso
      obtain rfl : d = '/' := hrest d (by simp)
      have hmem : '/' ∈ ':' :: name := by
        rw [List.tail_eq_of_cons_eq hmore]
        simp
      simp [hname] at hmem
  · refine ⟨more, hmore, ?_⟩
    cases more with
    | nil => rfl
    | cons d more => simpa using hafter

theorem HasPlace.of_append (hname : '/' ∉ name) {t rest : List Char}
    (hrest : ∀ d ∈ rest.head?, d = '/') (h : HasPlace name (t ++ rest)) :
    HasPlace name t ∨ HasPlace name rest := by
  induction t with
  | nil => exact .inr h
  | cons c t ih =>
    rw [hasPlace_cons_iff]
    rcases hasPlace_cons_iff.1 h with hmarked | hplace
    · exact .inl (.inl (hmarked.of_append hname hrest))
    · exact (ih hplace).imp_left .inr

instance (name s : List Char) : Decidable (Marked name s) :=
  decidable_of_iff
    ((after? ('/' :: ':' :: name) s).any (fun rest => !(rest.head?.any isNameChar)) = true) (by
      rw [Option.any_eq_true]
      simp only [after?_eq_some_iff, Bool.not_eq_true']
      rfl)

instance decidableHasPlace (name : List Char) : (s : List Char) → Decidable (HasPlace name s)
  | [] => .isFalse not_hasPlace_nil
  | c :: s =>
    have := decidableHasPlace name s
    decidable_of_iff (Marked name (c :: s) ∨ HasPlace name s) hasPlace_cons_iff.symm

/-! ## Filling in after a colon -/

theorem after?_marker (name rest : List Char) :
    after? ('/' :: ':' :: name) ('/' :: ':' :: (name ++ rest)) = some rest :=
  after?_append ('/' :: ':' :: name) rest

theorem fillColon?_marked {rest : List Char} (h : rest.head?.any isNameChar = false)
    (value : List Char) :
    fillColon? name value ('/' :: ':' :: (name ++ rest)) = some ('/' :: value ++ rest) := by
  rw [fillColon?]
  simp [after?_marker, h]

theorem fillColon?_nil (name value : List Char) : fillColon? name value [] = none := by
  rw [fillColon?]

theorem fillColon?_of_not_marked (hname : '/' ∉ name) {c : Char} {s : List Char}
    (h : ¬Marked name (c :: s)) (value : List Char) :
    fillColon? name value (c :: s) = (fillColon? name value s).map (c :: ·) := by
  cases hafter : after? ('/' :: ':' :: name) (c :: s) with
  | none => rw [fillColon?]; simp [hafter]
  | some r =>
    -- The name goes on behind this place, so the whole of it is passed over.
    have hs := after?_eq_some_iff.1 hafter
    obtain ⟨rfl, rfl⟩ : c = '/' ∧ s = (':' :: name) ++ r := by simpa using hs
    have hr : r.head?.any isNameChar = true := by
      rw [← Bool.not_eq_false]
      exact fun hr => h ⟨r, rfl, hr⟩
    have hcolon : '/' ∉ ':' :: name := by simp [hname]
    rw [fillColon?_append hcolon, fillColon?]
    simp [after?_marker, hr, Function.comp_def]

/-- Text without a place is passed over. -/
theorem fillColon?_of_not_hasPlace (hname : '/' ∉ name) {t rest : List Char}
    (hrest : ∀ d ∈ rest.head?, d = '/') (h : ¬HasPlace name t) (value : List Char) :
    fillColon? name value (t ++ rest) = (fillColon? name value rest).map (t ++ ·) := by
  induction t with
  | nil => exact Option.map_id'.symm
  | cons c t ih =>
    rw [hasPlace_cons_iff, not_or] at h
    have hmarked : ¬Marked name (c :: (t ++ rest)) := fun hm => h.1 (.of_append hname hrest hm)
    rw [List.cons_append, fillColon?_of_not_marked hname hmarked, ih h.2, Option.map_map]
    rfl

theorem fillColon?_eq_none (hname : '/' ∉ name) {s : List Char} (h : ¬HasPlace name s)
    (value : List Char) : fillColon? name value s = none := by
  have hpass : fillColon? name value (s ++ []) = (fillColon? name value []).map (s ++ ·) :=
    fillColon?_of_not_hasPlace hname (by simp) h value
  rwa [List.append_nil, fillColon?_nil] at hpass

/-! ## Texts without places -/

theorem not_hasPlace_of_not_mem {s : List Char} (h : '/' ∉ s) : ¬HasPlace name s := by
  rintro ⟨t, ht, rest, rfl, -⟩
  exact h (ht.subset List.mem_cons_self)

theorem not_hasPlace_slash {s : List Char} (h : '/' ∉ s) (hhead : s.head? ≠ some ':') :
    ¬HasPlace name ('/' :: s) := by
  rw [hasPlace_cons_iff]
  rintro (⟨rest, hs, -⟩ | hplace)
  · apply hhead
    rw [List.tail_eq_of_cons_eq hs]
    rfl
  · exact not_hasPlace_of_not_mem h hplace

theorem not_mem_of_isNameChar {c : Char} (hc : isNameChar c = false) {other : List Char}
    (h : ∀ d ∈ other, isNameChar d = true) : c ∉ other := by
  intro hmem
  rw [h c hmem] at hc
  cases hc

/-- A place of one variable is not that of another one, also if its name only goes on. -/
theorem not_hasPlace_colon {other : List Char} (h : ∀ c ∈ other, isNameChar c = true)
    (hne : other ≠ name) : ¬HasPlace name ('/' :: ':' :: other) := by
  have hother : '/' ∉ other := not_mem_of_isNameChar (by decide) h
  have hslash : '/' ∉ ':' :: other := by simp [hother]
  rw [hasPlace_cons_iff]
  rintro (⟨rest, hs, hrest⟩ | hplace)
  · obtain rfl : other = name ++ rest := by simpa using hs
    cases rest with
    | nil => simp at hne
    | cons c rest => simp [h c (by simp)] at hrest
  · exact not_hasPlace_of_not_mem hslash hplace

/-! ## Places in a pattern -/

/-- What stands between the segments before a segment and the segment itself. -/
def lead (before : Pattern) : List Char := if before = [] then [] else ['/']

theorem HasPlace.of_lead {before : Pattern} {s : List Char} (h : HasPlace name (lead before ++ s)) :
    HasPlace name ('/' :: s) := by
  unfold lead at h
  split at h
  · exact hasPlace_cons_iff.2 (.inr h)
  · exact h

theorem not_hasPlace_slashed (hname : '/' ∉ name) {segments : Pattern}
    (h : ∀ s ∈ segments, ¬HasPlace name ('/' :: s.written)) :
    ¬HasPlace name (slashed segments) := by
  induction segments with
  | nil => exact not_hasPlace_nil
  | cons s rest ih =>
    rw [slashed_cons, ← List.cons_append]
    intro hplace
    rcases hplace.of_append hname (head?_slashed rest) with hs | hrest
    · exact h s List.mem_cons_self hs
    · exact ih (fun t ht => h t (List.mem_cons_of_mem s ht)) hrest

/-- A pattern has a place only if one of its segments has it. -/
theorem not_hasPlace_written (hname : '/' ∉ name) {segments : Pattern}
    (h : ∀ before s after, segments = before ++ s :: after →
      ¬HasPlace name (lead before ++ s.written)) : ¬HasPlace name (written segments) := by
  cases segments with
  | nil => exact not_hasPlace_nil
  | cons s rest =>
    rw [written_cons]
    intro hplace
    rcases hplace.of_append hname (head?_slashed rest) with hs | hrest
    · exact h [] s rest rfl hs
    · refine not_hasPlace_slashed hname (fun t ht => ?_) hrest
      obtain ⟨before, after, rfl⟩ := List.append_of_mem ht
      exact h (s :: before) t after rfl

theorem written_append {before : Pattern} (h : before ≠ []) (after : Pattern) :
    written (before ++ after) = written before ++ slashed after := by
  cases before with
  | nil => exact absurd rfl h
  | cons s before =>
    rw [List.cons_append, written_cons, written_cons, slashed, slashed, List.flatMap_append,
      List.append_assoc]
    rfl

/-! ## Regular patterns -/

/-- A segment that can be written in both forms. -/
def Segment.IsRegular : Segment → Prop
  | .literal text => ∀ c ∈ structural, c ∉ text
  | .variable name => name ≠ [] ∧ ∀ c ∈ name, isNameChar c = true

/-- A pattern that can be written in both forms. No text starts with a colon after a slash. -/
structure IsRegular (segments : Pattern) : Prop where
  segment : ∀ s ∈ segments, s.IsRegular
  tail : ∀ s ∈ segments.tail, s.written.head? ≠ some ':'

instance : DecidablePred Segment.IsRegular
  | .literal text => List.decidableBAll (· ∉ text) structural
  | .variable name =>
    have := List.decidableBAll (isNameChar · = true) name
    inferInstanceAs (Decidable (name ≠ [] ∧ ∀ c ∈ name, isNameChar c = true))

instance (segments : Pattern) : Decidable (IsRegular segments) :=
  decidable_of_iff ((∀ s ∈ segments, s.IsRegular) ∧
      ∀ s ∈ segments.tail, s.written.head? ≠ some ':')
    ⟨fun h => ⟨h.1, h.2⟩, fun h => ⟨h.segment, h.tail⟩⟩

/-- A segment whose variable stands after a colon, and so is text like any other. -/
def Segment.coloned : Segment → Segment
  | .literal text => .literal text
  | .variable name => .literal (':' :: name)

/-- A pattern whose variables stand after a colon. -/
def coloned (segments : Pattern) : Pattern := segments.map Segment.coloned

/-- A later parameter `q` takes the value of `p` for its own place: the value has one, and the
variable of `q` does not stand before it. -/
def TakenFor (segments : Pattern) (p q : Parameter) : Prop :=
  ∃ before after, segments = before ++ .variable p.name.toList :: after ∧
    .variable q.name.toList ∉ before ∧
    HasPlace q.name.toList (lead before ++ encodePath p.value.toList)

variable {segments : Pattern} {ps before after : List Parameter} {p q : Parameter}

theorem TakenFor.hasPlace (h : TakenFor segments p q) :
    HasPlace q.name.toList ('/' :: encodePath p.value.toList) := by
  obtain ⟨before, after, -, -, hplace⟩ := h
  exact hplace.of_lead

theorem Segment.IsRegular.isUnbraced {s : Segment} (h : s.IsRegular) : s.IsUnbraced := by
  cases s with
  | literal text => exact ⟨h _ (by decide), h _ (by decide)⟩
  | «variable» name =>
    exact ⟨not_mem_of_isNameChar (by decide) h.2, not_mem_of_isNameChar (by decide) h.2⟩

theorem Segment.IsRegular.question_not_mem {s : Segment} (h : s.IsRegular) : '?' ∉ s.written := by
  cases s with
  | literal text => exact h _ (by decide)
  | «variable» name =>
    have hname : '?' ∉ name := not_mem_of_isNameChar (by decide) h.2
    simp [Segment.written, hname]

theorem isUnbraced_placed (h : IsRegular segments) : ∀ s ∈ placed segments ps, s.IsUnbraced :=
  fun _ hs => isUnbraced_of_mem_placed (fun t ht => (h.segment t ht).isUnbraced) hs

theorem question_not_mem_placed (h : IsRegular segments) :
    ∀ s ∈ placed segments ps, '?' ∉ s.written :=
  fun _ hs => question_not_mem_of_mem_placed (fun t ht => (h.segment t ht).question_not_mem) hs

/-- What stands before the variable of a parameter has no place for it, however variables are
written (`form`), if the parameter takes no earlier value for its place. -/
theorem not_hasPlace_placed {form : Segment → Segment} (h : IsRegular segments)
    (hq : ∀ c ∈ q.name.toList, isNameChar c = true) {l r : Pattern} (hsplit : segments = l ++ r)
    (hmem : .variable q.name.toList ∉ l) (hbefore : ∀ p ∈ before, ¬TakenFor segments p q)
    (hliteral : ∀ text, form (.literal text) = .literal text)
    (hvariable : ∀ other, .variable other ∈ l →
      ¬HasPlace q.name.toList ('/' :: (form (.variable other)).written)) :
    ¬HasPlace q.name.toList (written ((placed l before).map form)) := by
  refine not_hasPlace_written (not_mem_of_isNameChar (by decide) hq) fun l₁ s' l₂ hs => ?_
  rw [placed, List.map_map] at hs
  obtain ⟨l₁, rest, rfl, rfl, hrest⟩ := List.map_eq_append_iff.1 hs
  obtain ⟨s, l₂, rfl, rfl, rfl⟩ := List.map_eq_cons_iff.1 hrest
  have hlead : lead (l₁.map (form ∘ Segment.fill (valueOf? before))) = lead l₁ := by simp [lead]
  rw [hlead, Function.comp]
  have hs : s ∈ segments := by simp [hsplit]
  -- A place can only come from a value that was filled in, and `hbefore` is about those.
  cases s with
  | literal text =>
    have hslash : '/' ∉ text := h.segment _ hs _ (by decide)
    rw [Segment.fill, hliteral]
    cases l₁ with
    | nil => exact not_hasPlace_of_not_mem hslash
    | cons t l₁ => exact not_hasPlace_slash hslash (h.tail (.literal text) (by simp [hsplit]))
  | «variable» other =>
    cases hv : valueOf? before other with
    | none =>
      rw [Segment.fill, hv]
      exact fun hplace => hvariable other (by simp) hplace.of_lead
    | some value =>
      obtain ⟨p, hp, rfl⟩ := Option.map_eq_some_iff.1 hv
      obtain rfl : p.name.toList = other := by simpa using List.find?_some hp
      rw [Segment.fill_variable hv, hliteral]
      intro hplace
      refine hbefore p (List.mem_of_find?_eq_some hp) ⟨l₁, l₂ ++ r, ?_, ?_, hplace⟩
      · rw [hsplit, List.append_assoc, List.cons_append]
      · exact fun hl => hmem (List.mem_append_left _ hl)

/-! ## Braces -/

theorem fill?_placed (h : IsRegular segments) (hq : ∀ c ∈ q.name.toList, isNameChar c = true)
    (hdistinct : (ps.map (·.name)).Nodup) (hps : ps = before ++ q :: after)
    (hbefore : .variable q.name.toList ∉ segments → ∀ p ∈ before, ¬TakenFor segments p q) :
    fill? q.name.toList (encodePath q.value.toList) (written (placed segments before)) =
      if .variable q.name.toList ∈ segments then some (written (placed segments (before ++ [q])))
      else none := by
  rw [fill?_of_isUnbraced (not_mem_of_isNameChar (by decide) hq) (isUnbraced_placed h)]
  simp only [variable_mem_placed hdistinct hps, placed_append, placed_singleton]
  by_cases hmem : .variable q.name.toList ∈ segments
  · rw [if_pos hmem, if_pos hmem]
  · have hplace : ¬HasPlace q.name.toList (written ((placed segments before).map id)) := by
      refine not_hasPlace_placed h hq (List.append_nil segments).symm hmem (hbefore hmem)
        (fun _ => rfl) fun other hother => ?_
      have hslash : '/' ∉ other := not_mem_of_isNameChar (by decide) (h.segment _ hother).2
      exact not_hasPlace_slash (by simp [Segment.written, hslash]) (by simp [Segment.written])
    rw [List.map_id] at hplace
    rw [if_neg hmem, if_neg hmem, fillColon?_eq_none (not_mem_of_isNameChar (by decide) hq) hplace]

/-! ## Colons -/

theorem isUnbraced_coloned (h : ∀ s ∈ segments, s.IsUnbraced) :
    ∀ s ∈ coloned segments, s.IsUnbraced := by
  intro s hs
  obtain ⟨t, ht, rfl⟩ := List.mem_map.1 hs
  have hbraces := h t ht
  cases t <;> simpa [Segment.coloned, Segment.IsUnbraced] using hbraces

theorem variable_not_mem_coloned : .variable name ∉ coloned segments := by
  intro hmem
  obtain ⟨t, -, ht⟩ := List.mem_map.1 hmem
  cases t <;> cases ht

/-- A variable after a colon gets its value if nothing before it has a place. -/
theorem fillColon?_coloned (hname : ∀ c ∈ name, isNameChar c = true) {l : Pattern} (hl : l ≠ [])
    (hplace : ¬HasPlace name (written (coloned l))) (value : List Char) (r : Pattern) :
    fillColon? name value (written (coloned (l ++ .variable name :: r))) =
      some (written (coloned (l ++ .literal value :: r))) := by
  have hne : coloned l ≠ [] := by simpa [coloned] using hl
  have happend : ∀ s, coloned (l ++ s :: r) = coloned l ++ s.coloned :: coloned r := by
    simp [coloned]
  have hhead : (slashed (coloned r)).head?.any isNameChar = false := by
    cases coloned r with
    | nil => rfl
    | cons s r => rw [slashed_cons]; rfl
  have hmarked : fillColon? name value ('/' :: ':' :: (name ++ slashed (coloned r))) = _ :=
    fillColon?_marked hhead value
  rw [happend, happend, written_append hne, written_append hne, slashed_cons, slashed_cons,
    fillColon?_of_not_hasPlace (not_mem_of_isNameChar (by decide) hname) (by simp) hplace]
  exact congrArg (Option.map _) hmarked

theorem placed_singleton_append_cons {l r : Pattern} (hl : .variable q.name.toList ∉ l)
    (hr : .variable q.name.toList ∉ r) : placed (l ++ .variable q.name.toList :: r) [q] =
      l ++ .literal (encodePath q.value.toList) :: r := by
  have hl := placed_of_not_mem hl
  have hr := placed_of_not_mem hr
  unfold placed at hl hr ⊢
  rw [List.map_append, List.map_cons, hl, hr, valueOf?_singleton,
    Segment.fill_variable (single_self _ _)]

theorem fill?_coloned_placed (h : IsRegular segments)
    (hfirst : ∀ name, segments.head? ≠ some (.variable name))
    (hq : ∀ c ∈ q.name.toList, isNameChar c = true)
    (honce : segments.count (.variable q.name.toList) ≤ 1)
    (hdistinct : (ps.map (·.name)).Nodup) (hps : ps = before ++ q :: after)
    (hbefore : ∀ p ∈ before, ¬TakenFor segments p q) :
    fill? q.name.toList (encodePath q.value.toList) (written (coloned (placed segments before))) =
      if .variable q.name.toList ∈ segments then
        some (written (coloned (placed segments (before ++ [q]))))
      else none := by
  have hother : ∀ {l r : Pattern}, segments = l ++ r → .variable q.name.toList ∉ l →
      ¬HasPlace q.name.toList (written (coloned (placed l before))) := by
    intro l r hsplit hmem
    refine not_hasPlace_placed h hq hsplit hmem hbefore (fun _ => rfl) fun other hl => ?_
    have hregular : (Segment.variable other).IsRegular := h.segment _ (by simp [hsplit, hl])
    refine not_hasPlace_colon hregular.2 fun heq => hmem ?_
    rwa [← heq]
  rw [fill?_of_isUnbraced (not_mem_of_isNameChar (by decide) hq)
    (isUnbraced_coloned (isUnbraced_placed h)), if_neg variable_not_mem_coloned]
  by_cases hmem : .variable q.name.toList ∈ segments
  · -- Only the first place is filled in, so nothing before the variable may have one.
    obtain ⟨l, r, hsplit, hl⟩ := List.eq_append_cons_of_mem hmem
    have hr : .variable q.name.toList ∉ r := by
      intro hr
      have hpos := List.count_pos_iff.2 hr
      rw [hsplit, List.count_append, List.count_cons_self] at honce
      omega
    have hne : l ≠ [] := by
      rintro rfl
      exact hfirst _ (by rw [hsplit]; rfl)
    have hplaced : placed segments before =
        placed l before ++ .variable q.name.toList :: placed r before := by
      simp [placed, hsplit, Segment.fill, valueOf?_eq_none hdistinct hps]
    have hleft : ∀ {part : Pattern}, .variable q.name.toList ∉ part →
        .variable q.name.toList ∉ placed part before :=
      fun hpart hmem => hpart (variable_mem_fill.1 hmem).1
    have hvalue : placed segments (before ++ [q]) =
        placed l before ++ .literal (encodePath q.value.toList) :: placed r before := by
      rw [placed_append, hplaced, placed_singleton_append_cons (hleft hl) (hleft hr)]
    rw [if_pos hmem, hplaced, hvalue]
    exact fillColon?_coloned hq (by simpa [placed] using hne) (hother hsplit hl) _ _
  · rw [if_neg hmem, fillColon?_eq_none (not_mem_of_isNameChar (by decide) hq)
      (hother (List.append_nil segments).symm hmem)]

/-! ## The address -/

/-- A path and, after a question mark, the parameters that are left for the query. -/
def address (path : List Char) (query : List Parameter) : String :=
  String.ofList (if query = [] then path else path ++ '?' :: queryText query)

theorem instantiate_eq_address {pattern : String} {path : List Char} {query : List Parameter}
    (hfold : ps.foldl Filling.add ⟨pattern.toList, []⟩ = ⟨path, query⟩) (hpath : '?' ∉ path) :
    instantiate pattern ps = address path query := by
  rw [← String.toList_inj, toList_instantiate hfold hpath, address, String.toList_ofList]

theorem coloned_of_forall (h : ∀ name, .variable name ∉ segments) :
    coloned segments = segments := by
  refine (List.map_congr_left fun s hs => ?_).trans (List.map_id _)
  cases s with
  | literal text => rfl
  | «variable» name => exact absurd hs (h name)

theorem question_not_mem_coloned (h : ∀ s ∈ segments, '?' ∉ s.written) :
    ∀ s ∈ coloned segments, '?' ∉ s.written := by
  intro s hs
  obtain ⟨t, ht, rfl⟩ := List.mem_map.1 hs
  have hquestion := h t ht
  cases t with
  | literal text => exact hquestion
  | «variable» name => simp_all [Segment.written, Segment.coloned]

/-- **Every value goes in the places of its variable and all other parameters become the query.**

- In a pattern with braces this is so unless a parameter that names no variable takes an earlier
  value for its place.
- In a pattern with colons it is so if each variable that gets a value stands once, unless a
  parameter takes an earlier value for its place.
- The two forms give the same address then, if each variable gets a value. -/
theorem instantiate_regular (h : IsRegular segments)
    (hnames : ∀ p ∈ ps, ∀ c ∈ p.name.toList, isNameChar c = true)
    (hdistinct : (ps.map (·.name)).Nodup) :
    ((ps.Pairwise fun p q => .variable q.name.toList ∉ segments → ¬TakenFor segments p q) →
      instantiate (String.ofList (written segments)) ps =
        address (written (placed segments ps)) (unplaced segments ps)) ∧
    ((∀ name, segments.head? ≠ some (.variable name)) →
      (∀ p ∈ ps, segments.count (.variable p.name.toList) ≤ 1) →
      (ps.Pairwise fun p q => ¬TakenFor segments p q) →
        instantiate (String.ofList (written (coloned segments))) ps =
          address (written (coloned (placed segments ps))) (unplaced segments ps) ∧
        ((∀ name, .variable name ∈ segments → ∃ p ∈ ps, p.name.toList = name) →
          instantiate (String.ofList (written segments)) ps =
            instantiate (String.ofList (written (coloned segments))) ps)) := by
  have hquestion : ∀ s ∈ placed segments ps, '?' ∉ s.written := question_not_mem_placed h
  have hbraces : (ps.Pairwise fun p q => .variable q.name.toList ∉ segments →
      ¬TakenFor segments p q) → instantiate (String.ofList (written segments)) ps =
        address (written (placed segments ps)) (unplaced segments ps) := by
    intro hapart
    refine instantiate_eq_address ?_ (question_not_mem_written hquestion)
    rw [String.toList_ofList]
    refine foldl_add_of_steps written fun before q after hps => ?_
    -- A parameter can take the places only of those behind it, so each has to do with those before
    -- it.
    rw [hps, List.pairwise_append] at hapart
    exact fill?_placed h (hnames q (by simp [hps])) hdistinct hps fun hmem p hp =>
      hapart.2.2 p hp q List.mem_cons_self hmem
  refine ⟨hbraces, fun hfirst honce hapart => ?_⟩
  have hcolons : instantiate (String.ofList (written (coloned segments))) ps =
      address (written (coloned (placed segments ps))) (unplaced segments ps) := by
    refine instantiate_eq_address ?_
      (question_not_mem_written (question_not_mem_coloned hquestion))
    rw [String.toList_ofList]
    refine foldl_add_of_steps (written <| coloned ·) fun before q after hps => ?_
    rw [hps, List.pairwise_append] at hapart
    exact fill?_coloned_placed h hfirst (hnames q (by simp [hps])) (honce q (by simp [hps]))
      hdistinct hps fun p hp => hapart.2.2 p hp q List.mem_cons_self
  refine ⟨hcolons, fun hall => ?_⟩
  -- If no variable is left, there is none that could be written with a colon.
  have hliteral : coloned (placed segments ps) = placed segments ps := by
    refine coloned_of_forall fun name hmem => ?_
    obtain ⟨hvariable, hnone⟩ := variable_mem_fill.1 hmem
    obtain ⟨p, hp, hname⟩ := hall name hvariable
    exact valueOf?_eq_none_iff.1 hnone p hp hname
  rw [hcolons, hliteral, hbraces]
  refine hapart.imp ?_
  intro p q hnot _
  exact hnot

/-- Of two places after a colon the second one stays, and a value with a colon is taken for a
place by a parameter that names no variable. -/
theorem instantiate_twice :
    (instantiate "/{id}/copy/{id}" [⟨"id", "7"⟩] = "/7/copy/7" ∧
      instantiate "/:id/copy/:id" [⟨"id", "7"⟩] = "/7/copy/:id") ∧
    instantiate "/{row}" [⟨"row", ":page"⟩, ⟨"page", "2"⟩] = "/2" := by
  decide +kernel

/-- A pattern with two variables, and values of which one spells an earlier variable and one the
start of a later one. -/
def seating : Pattern :=
  [.literal [], .variable "row".toList, .literal "seats".toList, .variable "seat".toList]

def seatOfRow : List Parameter := [⟨"row", "1/:sea"⟩, ⟨"seat", ":row"⟩, ⟨"page", "2"⟩]

theorem instantiate_seating :
    (written seating = "/{row}/seats/{seat}".toList ∧
      written (coloned seating) = "/:row/seats/:seat".toList) ∧
    instantiate "/{row}/seats/{seat}" seatOfRow = "/1/:sea/seats/:row?page=2" ∧
    instantiate "/:row/seats/:seat" seatOfRow = "/1/:sea/seats/:row?page=2" := by
  have hplaces : seatOfRow.Pairwise fun p q =>
      ¬HasPlace q.name.toList ('/' :: encodePath p.value.toList) := by decide +kernel
  have hapart : seatOfRow.Pairwise fun p q => ¬TakenFor seating p q :=
    hplaces.imp fun hnot htaken => hnot htaken.hasPlace
  have hregular : IsRegular seating := by decide +kernel
  have hall : (seatOfRow.all fun p => p.name.toList.all isNameChar) = true := by decide +kernel
  have hnames : ∀ p ∈ seatOfRow, ∀ c ∈ p.name.toList, isNameChar c = true := by
    simpa only [List.all_eq_true] using hall
  have honce : ∀ p ∈ seatOfRow, seating.count (.variable p.name.toList) ≤ 1 := by decide +kernel
  have hdistinct : (seatOfRow.map (·.name)).Nodup := by decide +kernel
  obtain ⟨-, hcolons⟩ := instantiate_regular hregular hnames hdistinct
  obtain ⟨hcoloned, hsame⟩ := hcolons (by simp [seating]) honce hapart
  have hbraces := hsame (by simp [seating, seatOfRow])
  rw [hcoloned] at hbraces
  refine ⟨by decide +kernel, ?_, ?_⟩
  · exact hbraces.trans (by decide +kernel)
  · exact hcoloned.trans (by decide +kernel)

end ApiDouble.Uri
