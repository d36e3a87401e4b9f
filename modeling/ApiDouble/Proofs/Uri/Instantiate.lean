import ApiDouble.Proofs.Uri.Pattern
import ApiDouble.Proofs.Uri.Query
import ApiDouble.Uri.Pattern

/-!
# Filling in a pattern

Values are filled in one after the other. If each step puts a value in the places of its variable
and nowhere else, what the steps make together is said at once (`foldl_add_of_steps`): the variables
have the values of their parameters, and all other parameters are left for the query, in their
order.

In a plain pattern each step is of that kind, because it leaves a plain pattern: a coded value has
no braces and no question mark, and of the values that go into the path it is asked that they have
no slash and do not start with a colon (`IsPathValue`). So no value is taken for a variable later
on.

If each variable has a value, the address is the pattern with the values in place. Then a colon at
the head of a value does no harm, and the values are found in the address again
(`extract?_instantiate`).

Main results: `fill?_written`, `foldl_add_of_steps`, `instantiate_written`, `extract?_instantiate`.
-/

namespace ApiDouble.Uri

open Text

/-! ## One value -/

/-- A value for one variable. -/
def single (name value : List Char) (other : List Char) : Option (List Char) :=
  if other = name then some value else none

theorem single_self (name value : List Char) : single name value name = some value := by
  rw [single, if_pos rfl]

theorem single_of_ne {name other : List Char} (h : other ≠ name) (value : List Char) :
    single name value other = none := by
  rw [single, if_neg h]

/-- A variable in braces. -/
def braced (name : List Char) : List Char := '{' :: name ++ ['}']

theorem after?_braced {name other : List Char} (hname : '}' ∉ name) (hother : '}' ∉ other)
    (hne : other ≠ name) (s : List Char) :
    after? (braced name) ('{' :: (other ++ '}' :: s)) = none := by
  cases h : after? (braced name) ('{' :: (other ++ '}' :: s)) with
  | none => rfl
  | some r =>
    exfalso
    have hs : other ++ '}' :: s = name ++ '}' :: r := by
      have := after?_eq_some_iff.1 h
      rw [braced, List.cons_append, List.cons_append, List.append_assoc] at this
      exact List.tail_eq_of_cons_eq this
    have hsplit : some (other, s) = some (name, r) := by
      rw [← splitOnce?_append hother s, hs, splitOnce?_append hname r]
    exact hne (Prod.mk.inj (Option.some.inj hsplit)).1

variable {name : List Char}

theorem not_mem_variable {c : Char} {other : List Char} (hc : c ≠ '}') (h : c ∉ other) :
    c ∉ other ++ ['}'] := by
  intro h'
  rcases List.mem_append.1 h' with h' | h'
  · exact h h'
  · exact hc (List.mem_singleton.1 h')

/-- A segment without braces in its text or its name. -/
def Segment.IsUnbraced : Segment → Prop
  | .literal text => '{' ∉ text ∧ '}' ∉ text
  | .variable name => '{' ∉ name ∧ '}' ∉ name

theorem Segment.IsPlain.isUnbraced {s : Segment} (h : s.IsPlain) : s.IsUnbraced := by
  cases s <;> exact ⟨h.1 _ (by decide), h.1 _ (by decide)⟩

theorem occurs_segment (hname : '}' ∉ name) {s : Segment} (hs : s.IsUnbraced) (rest : List Char) :
    occurs (braced name) (s.written ++ rest) = true ↔
      s = .variable name ∨ occurs (braced name) rest = true := by
  cases s with
  | literal text =>
    rw [Segment.written, braced, List.cons_append, occurs_append_of_not_mem hs.1]
    simp
  | «variable» other =>
    by_cases h : other = name
    · subst h
      exact ⟨fun _ => Or.inl rfl, fun _ => occurs_append (braced other) rest⟩
    · have hbrace : '{' ∉ other ++ ['}'] := not_mem_variable (by decide) hs.1
      have hassoc : other ++ '}' :: rest = (other ++ ['}']) ++ rest := by
        rw [List.append_assoc]
        rfl
      rw [Segment.written_append, occurs_cons (after?_braced hname hs.2 h rest),
        hassoc, braced, List.cons_append, occurs_append_of_not_mem hbrace]
      simp [h]

theorem replaceAll_segment (hname : '}' ∉ name) {s : Segment} (hs : s.IsUnbraced)
    (value rest : List Char) :
    replaceAll (braced name) value (s.written ++ rest) =
      (s.fill (single name value)).written ++ replaceAll (braced name) value rest := by
  cases s with
  | literal text =>
    rw [Segment.written, braced, List.cons_append,
      replaceAll_append_of_not_mem hs.1]
    rfl
  | «variable» other =>
    -- Another variable is no needle, and none starts within its braces.
    by_cases h : other = name
    · subst h
      rw [Segment.fill_variable (single_self other value)]
      exact replaceAll_append (List.cons_ne_nil _ _) value rest
    · have hbrace : '{' ∉ other ++ ['}'] := not_mem_variable (by decide) hs.1
      have hassoc : other ++ '}' :: rest = (other ++ ['}']) ++ rest := by
        rw [List.append_assoc]
        rfl
      rw [Segment.written_append,
        replaceAll_cons (after?_braced hname hs.2 h rest), hassoc, Segment.fill,
        single_of_ne h, braced, List.cons_append, replaceAll_append_of_not_mem hbrace]
      simp [Segment.written]

theorem after?_braced_slash (name s : List Char) : after? (braced name) ('/' :: s) = none :=
  after?_cons_of_ne (by decide) _ _

theorem occurs_slashed (hname : '}' ∉ name) {segments : Pattern}
    (h : ∀ s ∈ segments, s.IsUnbraced) :
    occurs (braced name) (slashed segments) = true ↔ .variable name ∈ segments := by
  induction segments with
  | nil =>
    have hnil : occurs (braced name) [] = false := rfl
    rw [slashed, List.flatMap_nil, hnil]
    simp
  | cons s rest ih =>
    rw [slashed_cons, occurs_cons (after?_braced_slash name _),
      occurs_segment hname (h s List.mem_cons_self),
      ih fun t ht => h t (List.mem_cons_of_mem s ht), List.mem_cons, eq_comm]

theorem occurs_written (hname : '}' ∉ name) {segments : Pattern}
    (h : ∀ s ∈ segments, s.IsUnbraced) :
    occurs (braced name) (written segments) = true ↔ .variable name ∈ segments := by
  cases segments with
  | nil => exact occurs_slashed hname h
  | cons s rest =>
    rw [written_cons, occurs_segment hname (h s List.mem_cons_self),
      occurs_slashed hname fun t ht => h t (List.mem_cons_of_mem s ht), List.mem_cons,
      eq_comm (a := s)]

theorem replaceAll_slashed (hname : '}' ∉ name) {segments : Pattern}
    (h : ∀ s ∈ segments, s.IsUnbraced) (value : List Char) :
    replaceAll (braced name) value (slashed segments) =
      slashed (segments.map (Segment.fill (single name value))) := by
  induction segments with
  | nil => exact replaceAll_nil (List.cons_ne_nil _ _) value
  | cons s rest ih =>
    rw [slashed_cons, replaceAll_cons (after?_braced_slash name _),
      replaceAll_segment hname (h s List.mem_cons_self),
      ih fun t ht => h t (List.mem_cons_of_mem s ht), List.map_cons, slashed_cons]

theorem replaceAll_written (hname : '}' ∉ name) {segments : Pattern}
    (h : ∀ s ∈ segments, s.IsUnbraced) (value : List Char) :
    replaceAll (braced name) value (written segments) =
      written (segments.map (Segment.fill (single name value))) := by
  cases segments with
  | nil => exact replaceAll_nil (List.cons_ne_nil _ _) value
  | cons s rest =>
    rw [written_cons, replaceAll_segment hname (h s List.mem_cons_self),
      replaceAll_slashed hname fun t ht => h t (List.mem_cons_of_mem s ht), List.map_cons,
      written_cons]

/-! ## No variables after a colon -/

theorem fillColon?_cons {c : Char} {rest : List Char} (h : c = '/' → rest.head? ≠ some ':')
    (name value : List Char) :
    fillColon? name value (c :: rest) = (fillColon? name value rest).map (c :: ·) := by
  have hnone : after? ('/' :: ':' :: name) (c :: rest) = none := by
    cases ha : after? ('/' :: ':' :: name) (c :: rest) with
    | none => rfl
    | some r =>
      exfalso
      have hs := after?_eq_some_iff.1 ha
      rw [List.cons_append, List.cons_append] at hs
      apply h (List.head_eq_of_cons_eq hs)
      rw [List.tail_eq_of_cons_eq hs]
      rfl
  rw [fillColon?]
  simp only [hnone]

theorem fillColon?_append {text : List Char} (h : '/' ∉ text) (name value rest : List Char) :
    fillColon? name value (text ++ rest) = (fillColon? name value rest).map (text ++ ·) := by
  induction text with
  | nil => exact Option.map_id'.symm
  | cons c text ih =>
    obtain ⟨hc, htext⟩ := not_or.1 (mt List.mem_cons.2 h)
    rw [List.cons_append, fillColon?_cons (fun h => absurd h.symm hc), ih htext, Option.map_map]
    rfl

theorem fillColon?_slashed {segments : Pattern} (h : ∀ s ∈ segments, s.IsPlain)
    (name value : List Char) : fillColon? name value (slashed segments) = none := by
  induction segments with
  | nil =>
    show fillColon? name value [] = none
    rw [fillColon?]
  | cons s rest ih =>
    have hs : s.IsPlain := h s List.mem_cons_self
    rw [slashed_cons, fillColon?_cons fun _ => s.head?_written hs rest,
      fillColon?_append (s.slash_not_mem_written hs),
      ih fun t ht => h t (List.mem_cons_of_mem s ht)]
    rfl

theorem fillColon?_written {segments : Pattern} (h : ∀ s ∈ segments, s.IsPlain)
    (name value : List Char) : fillColon? name value (written segments) = none := by
  cases segments with
  | nil => exact fillColon?_slashed h name value
  | cons s rest =>
    rw [written_cons, fillColon?_append (s.slash_not_mem_written (h s List.mem_cons_self)),
      fillColon?_slashed fun t ht => h t (List.mem_cons_of_mem s ht)]
    rfl

/-- A value goes where its variable stands in braces, or else where a colon marks it. -/
theorem fill?_of_isUnbraced (hname : '}' ∉ name) {segments : Pattern}
    (h : ∀ s ∈ segments, s.IsUnbraced) (value : List Char) :
    fill? name value (written segments) =
      if .variable name ∈ segments then
        some (written (segments.map (Segment.fill (single name value))))
      else fillColon? name value (written segments) := by
  show (if occurs (braced name) (written segments) then
    some (replaceAll (braced name) value (written segments))
    else fillColon? name value (written segments)) = _
  by_cases hmem : .variable name ∈ segments
  · rw [if_pos hmem, if_pos ((occurs_written hname h).2 hmem), replaceAll_written hname h]
  · rw [if_neg hmem, if_neg (mt (occurs_written hname h).1 hmem)]

/-- **One value is filled in where its variable stands**, and nowhere if it stands nowhere. -/
theorem fill?_written (hname : '}' ∉ name) {segments : Pattern} (h : ∀ s ∈ segments, s.IsPlain)
    (value : List Char) :
    fill? name value (written segments) =
      if .variable name ∈ segments then
        some (written (segments.map (Segment.fill (single name value))))
      else none := by
  rw [fill?_of_isUnbraced hname fun s hs => (h s hs).isUnbraced, fillColon?_written h]

/-! ## All values -/

/-- The value that parameters have for a variable, coded for a path. The first of a name counts. -/
def valueOf? (ps : List Parameter) (name : List Char) : Option (List Char) :=
  (ps.find? (·.name.toList = name)).map fun p => encodePath p.value.toList

/-- A value that stays between two slashes. -/
def IsPathValue (value : String) : Prop :=
  '/' ∉ value.toList ∧ value.toList.head? ≠ some ':'

/-- A name that no other text in braces is taken for. -/
def IsUnbraced (name : String) : Prop := '{' ∉ name.toList ∧ '}' ∉ name.toList

theorem isPlain_encodePath {value : String} (h : IsPathValue value) :
    (Segment.literal (encodePath value.toList)).IsPlain := by
  refine ⟨fun c hc => ?_, fun hhead => h.2 (head?_of_head?_encodePath hhead)⟩
  have hall : ∀ c ∈ structural, c = '/' ∨ c ∈ ['{', '}', '?'] := forall_mem_of_all (by decide)
  rcases hall c hc with rfl | hc
  · exact fun hmem => h.1 (slash_mem_of_mem_encodePath hmem)
  · exact not_mem_encodePath hc _

theorem valueOf?_cons_self (p : Parameter) (ps : List Parameter) :
    valueOf? (p :: ps) p.name.toList = some (encodePath p.value.toList) := by
  rw [valueOf?, List.find?_cons_of_pos (by simp)]
  rfl

theorem valueOf?_cons_of_ne {p : Parameter} {name : List Char} (h : name ≠ p.name.toList)
    (ps : List Parameter) : valueOf? (p :: ps) name = valueOf? ps name := by
  rw [valueOf?, List.find?_cons_of_neg (by simpa using Ne.symm h)]
  rfl

theorem valueOf?_append (ps qs : List Parameter) (name : List Char) :
    valueOf? (ps ++ qs) name = (valueOf? ps name).or (valueOf? qs name) := by
  rw [valueOf?, List.find?_append, Option.map_or]
  rfl

theorem valueOf?_singleton (p : Parameter) :
    valueOf? [p] = single p.name.toList (encodePath p.value.toList) := by
  funext name
  by_cases h : name = p.name.toList
  · subst h
    rw [single_self, valueOf?_cons_self]
  · rw [single_of_ne h, valueOf?_cons_of_ne h]
    rfl

theorem valueOf?_eq_none_iff {ps : List Parameter} {name : List Char} :
    valueOf? ps name = none ↔ ∀ p ∈ ps, p.name.toList ≠ name := by
  simp [valueOf?]

/-- What is filled in stays, and what is left is filled in next. -/
theorem Segment.fill_fill (f g : List Char → Option (List Char)) (s : Segment) :
    (s.fill f).fill g = s.fill fun name => (f name).or (g name) := by
  cases s with
  | literal text => rfl
  | «variable» name =>
    cases h : f name with
    | some value => simp [Segment.fill, h]
    | none => simp [Segment.fill, h]

theorem variable_mem_fill {value? : List Char → Option (List Char)} {name : List Char}
    {segments : Pattern} : .variable name ∈ segments.map (Segment.fill value?) ↔
      .variable name ∈ segments ∧ value? name = none := by
  rw [List.mem_map]
  constructor
  · rintro ⟨s, hs, he⟩
    cases s with
    | literal text => cases he
    | «variable» other =>
      rw [Segment.fill] at he
      split at he
      · cases he
      · next hnone =>
        cases he
        exact ⟨hs, hnone⟩
  · rintro ⟨hs, hnone⟩
    exact ⟨_, hs, by rw [Segment.fill, hnone]⟩

theorem isPlain_fill {value? : List Char → Option (List Char)} {segments : Pattern}
    (h : ∀ s ∈ segments, s.IsPlain)
    (hvalue : ∀ name value, .variable name ∈ segments → value? name = some value →
      (Segment.literal value).IsPlain) :
    ∀ s ∈ segments.map (Segment.fill value?), s.IsPlain := by
  intro s hs
  obtain ⟨t, ht, rfl⟩ := List.mem_map.1 hs
  cases t with
  | literal text => exact h _ ht
  | «variable» name =>
    cases hv : value? name with
    | none =>
      rw [Segment.fill, hv]
      exact h _ ht
    | some value =>
      rw [Segment.fill_variable hv]
      exact hvalue name value ht hv

/-- The segments of a pattern with the values of parameters in their places. -/
def placed (segments : Pattern) (ps : List Parameter) : Pattern :=
  segments.map (Segment.fill (valueOf? ps))

/-- The parameters that have no place in a pattern. -/
def unplaced (segments : Pattern) (ps : List Parameter) : List Parameter :=
  ps.filter fun p => .variable p.name.toList ∉ segments

theorem placed_nil (segments : Pattern) : placed segments [] = segments := by
  refine (List.map_congr_left fun s _ => ?_).trans (List.map_id _)
  cases s <;> rfl

theorem placed_append (segments : Pattern) (ps qs : List Parameter) :
    placed segments (ps ++ qs) = placed (placed segments ps) qs := by
  unfold placed
  rw [List.map_map]
  refine List.map_congr_left fun s _ => ?_
  rw [Function.comp, Segment.fill_fill, funext (valueOf?_append ps qs)]

theorem placed_singleton (segments : Pattern) (p : Parameter) : placed segments [p] =
    segments.map (Segment.fill (single p.name.toList (encodePath p.value.toList))) := by
  rw [placed, valueOf?_singleton]

theorem placed_of_not_mem {segments : Pattern} {p : Parameter}
    (h : .variable p.name.toList ∉ segments) : placed segments [p] = segments := by
  rw [placed_singleton]
  refine (List.map_congr_left fun s hs => ?_).trans (List.map_id _)
  cases s with
  | literal text => rfl
  | «variable» name =>
    have hne : name ≠ p.name.toList := by
      rintro rfl
      exact h hs
    rw [Segment.fill, single_of_ne hne]
    rfl

theorem mem_placed {segments : Pattern} {ps : List Parameter} {s : Segment}
    (h : s ∈ placed segments ps) :
    s ∈ segments ∨ ∃ p ∈ ps, s = .literal (encodePath p.value.toList) := by
  obtain ⟨t, ht, rfl⟩ := List.mem_map.1 h
  cases t with
  | literal text => exact .inl ht
  | «variable» name =>
    cases hv : valueOf? ps name with
    | none =>
      left
      rwa [Segment.fill, hv]
    | some value =>
      obtain ⟨p, hp, rfl⟩ := Option.map_eq_some_iff.1 hv
      exact .inr ⟨p, List.mem_of_find?_eq_some hp, Segment.fill_variable hv⟩

theorem isUnbraced_of_mem_placed {segments : Pattern} (h : ∀ s ∈ segments, s.IsUnbraced)
    {ps : List Parameter} {s : Segment} (hs : s ∈ placed segments ps) : s.IsUnbraced := by
  rcases mem_placed hs with hs | ⟨p, -, rfl⟩
  · exact h s hs
  · exact ⟨not_mem_encodePath (by decide) _, not_mem_encodePath (by decide) _⟩

theorem question_not_mem_of_mem_placed {segments : Pattern} (h : ∀ s ∈ segments, '?' ∉ s.written)
    {ps : List Parameter} {s : Segment} (hs : s ∈ placed segments ps) : '?' ∉ s.written := by
  rcases mem_placed hs with hs | ⟨p, -, rfl⟩
  · exact h s hs
  · exact not_mem_encodePath (by decide) _

theorem valueOf?_eq_none {ps before after : List Parameter} {p : Parameter}
    (hdistinct : (ps.map (·.name)).Nodup) (hps : ps = before ++ p :: after) :
    valueOf? before p.name.toList = none := by
  refine valueOf?_eq_none_iff.2 fun q hq hname => ?_
  rw [hps, List.map_append, List.map_cons, List.nodup_append] at hdistinct
  exact hdistinct.2.2 _ (List.mem_map_of_mem hq) _ List.mem_cons_self (String.toList_inj.1 hname)

theorem valueOf?_of_mem {ps : List Parameter} (hdistinct : (ps.map (·.name)).Nodup)
    {p : Parameter} (hp : p ∈ ps) :
    valueOf? ps p.name.toList = some (encodePath p.value.toList) := by
  obtain ⟨before, after, hps⟩ := List.append_of_mem hp
  have hbefore := valueOf?_eq_none hdistinct hps
  rw [hps, valueOf?_append, hbefore, Option.none_or, valueOf?_cons_self]

theorem variable_mem_placed {ps before after : List Parameter} {p : Parameter}
    {segments : Pattern} (hdistinct : (ps.map (·.name)).Nodup) (hps : ps = before ++ p :: after) :
    .variable p.name.toList ∈ placed segments before ↔ .variable p.name.toList ∈ segments := by
  rw [placed, variable_mem_fill]
  exact ⟨fun h => h.1, fun h => ⟨h, valueOf?_eq_none hdistinct hps⟩⟩

/-- **All values are filled in at once**, however a pattern is written (`text`), if each one goes in
its variable's place after those before it did. -/
theorem foldl_add_of_steps (text : Pattern → List Char) {segments : Pattern}
    {ps : List Parameter}
    (hstep : ∀ before p after, ps = before ++ p :: after →
      fill? p.name.toList (encodePath p.value.toList) (text (placed segments before)) =
        if .variable p.name.toList ∈ segments then some (text (placed segments (before ++ [p])))
        else none) :
    ps.foldl Filling.add ⟨text segments, []⟩ =
      ⟨text (placed segments ps), unplaced segments ps⟩ := by
  -- The induction is on the parameters that are left; those before them are filled in.
  have hrest : ∀ after before query, ps = before ++ after →
      after.foldl Filling.add ⟨text (placed segments before), query⟩ =
        ⟨text (placed segments ps), query ++ unplaced segments after⟩ := by
    intro after
    induction after with
    | nil =>
      intro before query hps
      rw [hps, List.append_nil]
      exact congrArg (Filling.mk _) (List.append_nil query).symm
    | cons p after ih =>
      intro before query hps
      have hps' : ps = (before ++ [p]) ++ after := by rw [hps, List.append_assoc]; rfl
      rw [List.foldl_cons, Filling.add, hstep before p after hps]
      by_cases hmem : .variable p.name.toList ∈ segments
      · have hunplaced : unplaced segments (p :: after) = unplaced segments after :=
          List.filter_cons_of_neg (by simpa using hmem)
        rw [if_pos hmem, hunplaced]
        exact ih (before ++ [p]) query hps'
      · have hunplaced : unplaced segments (p :: after) = p :: unplaced segments after :=
          List.filter_cons_of_pos (by simpa using hmem)
        have hleft : .variable p.name.toList ∉ placed segments before :=
          fun h => hmem (variable_mem_fill.1 h).1
        have hplaced : placed segments (before ++ [p]) = placed segments before := by
          rw [placed_append, placed_of_not_mem hleft]
        have hquery := ih (before ++ [p]) (query ++ [p]) hps'
        rw [hplaced, List.append_assoc] at hquery
        rw [if_neg hmem, hunplaced]
        exact hquery
  have hall := hrest ps [] [] rfl
  rwa [placed_nil, List.nil_append] at hall

theorem isPlain_placed {segments : Pattern} (h : ∀ s ∈ segments, s.IsPlain) {ps : List Parameter}
    (hvalues : ∀ p ∈ ps, .variable p.name.toList ∈ segments → IsPathValue p.value) :
    ∀ s ∈ placed segments ps, s.IsPlain := by
  refine isPlain_fill h fun name value hmem hv => ?_
  obtain ⟨p, hp, rfl⟩ := Option.map_eq_some_iff.1 hv
  have hname : p.name.toList = name := by simpa using List.find?_some hp
  exact isPlain_encodePath (hvalues p (List.mem_of_find?_eq_some hp) (hname ▸ hmem))

/-- The values of a plain pattern are filled in at once. -/
theorem foldl_add {ps : List Parameter} {segments : Pattern} (h : ∀ s ∈ segments, s.IsPlain)
    (hnames : ∀ p ∈ ps, IsUnbraced p.name) (hdistinct : (ps.map (·.name)).Nodup)
    (hvalues : ∀ p ∈ ps, .variable p.name.toList ∈ segments → IsPathValue p.value) :
    ps.foldl Filling.add ⟨written segments, []⟩ =
      ⟨written (placed segments ps), unplaced segments ps⟩ := by
  refine foldl_add_of_steps written fun before p after hps => ?_
  have hp : p ∈ ps := by simp [hps]
  have hplain : ∀ s ∈ placed segments before, s.IsPlain :=
    isPlain_placed h fun q hq => hvalues q (by simp [hps, hq])
  simp only [fill?_written (hnames p hp).2 hplain, variable_mem_placed hdistinct hps,
    placed_append, placed_singleton]

/-! ## The address -/

theorem question_not_mem_segment {s : Segment} (h : s.IsPlain) : '?' ∉ s.written := by
  have hquestion : '?' ∈ structural := by decide
  cases s with
  | literal text => exact h.1 _ hquestion
  | «variable» name =>
    rw [Segment.written, List.cons_append]
    intro hmem
    rcases List.mem_cons.1 hmem with hmem | hmem
    · exact absurd hmem (by decide)
    · exact not_mem_variable (by decide) (h.1 _ hquestion) hmem

theorem question_not_mem_written {segments : Pattern} (h : ∀ s ∈ segments, '?' ∉ s.written) :
    '?' ∉ written segments := by
  have hslashed : ∀ {rest : Pattern}, (∀ s ∈ rest, '?' ∉ s.written) → '?' ∉ slashed rest := by
    intro rest hrest hmem
    obtain ⟨s, hs, hmem⟩ := List.mem_flatMap.1 hmem
    rcases List.mem_cons.1 hmem with hmem | hmem
    · exact absurd hmem (by decide)
    · exact hrest s hs hmem
  cases segments with
  | nil => exact List.not_mem_nil
  | cons s rest =>
    rw [written_cons]
    intro hmem
    rcases List.mem_append.1 hmem with hmem | hmem
    · exact h s List.mem_cons_self hmem
    · exact hslashed (fun t ht => h t (List.mem_cons_of_mem s ht)) hmem

theorem appendQuery_of_not_mem {uri : List Char} (h : '?' ∉ uri) (query : List Char) :
    appendQuery uri query = if query = [] then uri else uri ++ '?' :: query := by
  have hc : (!uri.contains '?') = true := by simpa using h
  unfold appendQuery
  rw [if_pos hc]
  cases query <;> rfl

theorem toList_instantiate {pattern : String} {ps query : List Parameter} {uri : List Char}
    (hfold : ps.foldl Filling.add ⟨pattern.toList, []⟩ = ⟨uri, query⟩) (huri : '?' ∉ uri) :
    (instantiate pattern ps).toList =
      if query = [] then uri else uri ++ '?' :: queryText query := by
  unfold instantiate
  simp only [hfold, String.toList_ofList, appendQuery_of_not_mem huri, queryText_eq_nil_iff]

/-- **The address that a plain pattern and parameters make**: the filled pattern, and after a
question mark the parameters that have no place in it. -/
theorem instantiate_written {pattern : String} {segments : Pattern} {ps : List Parameter}
    (hpattern : pattern.toList = written segments) (h : ∀ s ∈ segments, s.IsPlain)
    (hnames : ∀ p ∈ ps, IsUnbraced p.name) (hdistinct : (ps.map (·.name)).Nodup)
    (hvalues : ∀ p ∈ ps, .variable p.name.toList ∈ segments → IsPathValue p.value) :
    '?' ∉ written (placed segments ps) ∧
    (instantiate pattern ps).toList =
      if unplaced segments ps = [] then written (placed segments ps)
      else written (placed segments ps) ++ '?' :: queryText (unplaced segments ps) := by
  have hquestion : '?' ∉ written (placed segments ps) :=
    question_not_mem_written fun s hs => question_not_mem_segment (isPlain_placed h hvalues s hs)
  refine ⟨hquestion, toList_instantiate ?_ hquestion⟩
  rw [hpattern, foldl_add h hnames hdistinct hvalues]

/-! ## The values of an address -/

/-- Values go into braces whatever they hold, if each parameter has a variable there. -/
theorem toList_instantiate_of_mem {pattern : String} {segments : Pattern} {ps : List Parameter}
    (hpattern : pattern.toList = written segments) (h : ∀ s ∈ segments, s.IsPlain)
    (hdistinct : (ps.map (·.name)).Nodup) (hmem : ∀ p ∈ ps, .variable p.name.toList ∈ segments) :
    (instantiate pattern ps).toList = written (placed segments ps) := by
  have hfold : ps.foldl Filling.add ⟨written segments, []⟩ =
      ⟨written (placed segments ps), unplaced segments ps⟩ := by
    refine foldl_add_of_steps written fun before p after hps => ?_
    have hp : .variable p.name.toList ∈ segments := hmem p (by simp [hps])
    have hunbraced : ∀ s ∈ placed segments before, s.IsUnbraced :=
      fun s hs => isUnbraced_of_mem_placed (fun t ht => (h t ht).isUnbraced) hs
    rw [fill?_of_isUnbraced (h _ hp).isUnbraced.2 hunbraced, if_pos hp,
      if_pos ((variable_mem_placed hdistinct hps).2 hp), placed_append, placed_singleton]
  have hunplaced : unplaced segments ps = [] := by simpa [unplaced] using hmem
  have hquestion : '?' ∉ written (placed segments ps) := question_not_mem_written fun s hs =>
    question_not_mem_of_mem_placed (fun t ht => question_not_mem_segment (h t ht)) hs
  rw [← hpattern] at hfold
  rw [toList_instantiate hfold hquestion, if_pos hunplaced]

/-- **The values that an address was made of are found in it**, if each variable of a plain pattern
has one: values without slashes, whatever else they hold and in whatever order they come. -/
theorem extract?_instantiate {pattern : String} {segments : Pattern} {ps : List Parameter}
    (hpattern : pattern.toList = written segments) (h : ∀ s ∈ segments, s.IsPlain)
    (hdistinct : (Pattern.names segments).Nodup)
    (hnames : (ps.map (·.name.toList)).Perm (Pattern.names segments))
    (hvalues : ∀ p ∈ ps, '/' ∉ p.value.toList) :
    ∃ found, extract? pattern (instantiate pattern ps) = some found ∧
      ∀ name value, found.get? name = some value ↔ ⟨name, value⟩ ∈ ps := by
  have hmem : ∀ name, .variable name ∈ segments ↔ ∃ p ∈ ps, p.name.toList = name := by
    intro name
    rw [← Pattern.mem_names, ← hnames.mem_iff, List.mem_map]
  have hparameters : (ps.map (·.name)).Nodup := by
    have hlists : ((ps.map (·.name)).map String.toList).Nodup := by
      rw [List.map_map]
      exact hnames.nodup_iff.2 hdistinct
    exact List.Pairwise.of_map String.toList (fun _ _ hne he => hne (congrArg _ he)) hlists
  have hpath := toList_instantiate_of_mem hpattern h hparameters fun p hp => (hmem _).2 ⟨p, hp, rfl⟩
  -- The path holds the values in percent code, which does not add slashes.
  have hraw : ∀ name, .variable name ∈ segments →
      ∃ value, valueOf? ps name = some value ∧ '/' ∉ value := by
    intro name hname
    obtain ⟨p, hp, rfl⟩ := (hmem name).1 hname
    exact ⟨_, valueOf?_of_mem hparameters hp, fun hslash =>
      hvalues p hp (slash_mem_of_mem_encodePath hslash)⟩
  obtain ⟨found, hfound, hget⟩ := extract?_written h hpattern hpath hraw
  have hvalue : ∀ p ∈ ps, found.get? p.name = some p.value := by
    intro p hp
    rw [hget, if_pos ((hmem _).2 ⟨p, hp, rfl⟩), valueOf?_of_mem hparameters hp, Option.map_some,
      decode_encodePath, String.ofList_toList]
  refine ⟨found, hfound, fun name value => ⟨fun hsome => ?_, fun hp => hvalue _ hp⟩⟩
  by_cases hvariable : .variable name.toList ∈ segments
  · obtain ⟨p, hp, hname⟩ := (hmem _).1 hvariable
    obtain rfl := String.toList_inj.1 hname
    rw [hvalue p hp] at hsome
    obtain rfl := Option.some.inj hsome
    exact hp
  · rw [hget, if_neg hvariable] at hsome
    cases hsome

/-- Values given in another order, of which one is empty and one starts with a colon. -/
theorem extract?_seat : ∃ found,
    extract? "/{row}/seats/{seat}/{side}" (instantiate "/{row}/seats/{seat}/{side}"
      [⟨"side", ":row %2F"⟩, ⟨"row", ""⟩, ⟨"seat", "?é&{side}"⟩]) = some found ∧
    ∀ name value, found.get? name = some value ↔ ⟨name, value⟩ ∈
      ([⟨"side", ":row %2F"⟩, ⟨"row", ""⟩, ⟨"seat", "?é&{side}"⟩] : List Parameter) := by
  have hpattern : "/{row}/seats/{seat}/{side}".toList = written [.literal [],
      .variable "row".toList, .literal "seats".toList, .variable "seat".toList,
      .variable "side".toList] := by decide +kernel
  exact extract?_instantiate hpattern (by simp [Segment.IsPlain, structural]) (by decide +kernel)
    (by decide +kernel) (by decide +kernel)

end ApiDouble.Uri
