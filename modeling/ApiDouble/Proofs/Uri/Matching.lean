import ApiDouble.Proofs.Uri.Pattern

/-!
# Which paths match a pattern

A path has the shape of a pattern if it is made of the pattern's texts and, in the place of each
variable, a value without slashes (`Spells`).

**What is found.** A variable ends where the text that follows it first stands in its segment, or
else where its segment ends (`EndsFirst`). So a path matches just if it has the pattern's shape with
values that end there (`bind?_eq_some_iff`).

**What is missed.** Nothing is tried again once a variable has ended. A path of the pattern's shape
is missed if the text after a variable begins in its segment and goes on over a slash, if that text
stands once more in the value and no variable behind it takes what is left, and if a variable is
followed by another one and that by a text in the same segment. A pattern without such places is
lenient (`IsLenient`). Lenient patterns match every path of their shape (`IsLenient.isSome_bind?`),
and for every other pattern there is a path that is missed (`isLenient_of_forall`).

Main results: `bind?_eq_some_iff`, `isLenient_iff`, `spells_of_extract?`, `isSome_extract?_iff`.
-/

namespace ApiDouble.Uri

open Text

namespace Pattern

/-! ## Paths of a pattern's shape -/

/-- A path made of the texts of a pattern and a raw value for each of its variables. -/
inductive Spells : Pattern → List (List Char × List Char) → List Char → Prop
  | nil : Spells [] [] []
  | literal {text s : List Char} {rest : Pattern} {values : List (List Char × List Char)}
      (h : Spells rest values s) : Spells (.literal text :: rest) values (text ++ s)
  | variable {name raw s : List Char} {rest : Pattern} {values : List (List Char × List Char)}
      (hraw : '/' ∉ raw) (h : Spells rest values s) :
      Spells (.variable name :: rest) ((name, raw) :: values) (raw ++ s)

/-- A path that has the shape of a pattern. -/
def HasShape (p : Pattern) (s : List Char) : Prop := ∃ values, Spells p values s

/-- Whether a value ends where its variable does, `rest` and `s` being what follows in the pattern
and in the path: the text after the variable starts at the end of its segment, or else it stands
there for the first time. -/
def EndsFirst (raw : List Char) (rest : Pattern) (s : List Char) : Prop :=
  match rest with
  | .literal next :: _ =>
    if '/' ∈ next then next.head? = some '/' else FirstCut next (raw ++ next) raw []
  | _ => ∀ c ∈ s.head?, c = '/'

/-- A path of a pattern's shape in which each value ends where its variable does. -/
inductive Matched : Pattern → List (List Char × List Char) → List Char → Prop
  | nil : Matched [] [] []
  | literal {text s : List Char} {rest : Pattern} {values : List (List Char × List Char)}
      (h : Matched rest values s) : Matched (.literal text :: rest) values (text ++ s)
  | variable {name raw s : List Char} {rest : Pattern} {values : List (List Char × List Char)}
      (hraw : '/' ∉ raw) (hends : EndsFirst raw rest s) (h : Matched rest values s) :
      Matched (.variable name :: rest) ((name, raw) :: values) (raw ++ s)

variable {p rest : Pattern} {values : List (List Char × List Char)} {s : List Char}

theorem Matched.spells (h : Matched p values s) : Spells p values s := by
  induction h with
  | nil => exact .nil
  | literal _ ih => exact .literal ih
  | «variable» hraw _ _ ih => exact .variable hraw ih

theorem hasShape_nil : HasShape [] s ↔ s = [] := by
  constructor
  · rintro ⟨_, ⟨⟩⟩
    rfl
  · rintro rfl
    exact ⟨[], .nil⟩

theorem hasShape_literal {text : List Char} :
    HasShape (.literal text :: rest) s ↔ ∃ t, s = text ++ t ∧ HasShape rest t := by
  constructor
  · rintro ⟨values, _ | h | _⟩
    exact ⟨_, rfl, values, h⟩
  · rintro ⟨t, rfl, values, h⟩
    exact ⟨values, .literal h⟩

theorem hasShape_variable {name : List Char} : HasShape (.variable name :: rest) s ↔
    ∃ raw t, s = raw ++ t ∧ '/' ∉ raw ∧ HasShape rest t := by
  constructor
  · rintro ⟨values, _ | _ | ⟨hraw, h⟩⟩
    exact ⟨_, _, rfl, hraw, _, h⟩
  · rintro ⟨raw, t, rfl, hraw, values, h⟩
    exact ⟨_, .variable hraw h⟩

theorem HasShape.skip (h : HasShape rest s) (name : List Char) :
    HasShape (.variable name :: rest) s :=
  hasShape_variable.2 ⟨[], s, rfl, List.not_mem_nil, h⟩

theorem exists_hasShape (p : Pattern) : ∃ s, HasShape p s := by
  induction p using segmentInduction with
  | nil => exact ⟨[], hasShape_nil.2 rfl⟩
  | literal text rest ih => exact ⟨_, hasShape_literal.2 ⟨_, rfl, ih.choose_spec⟩⟩
  | «variable» name rest ih => exact ⟨_, ih.choose_spec.skip name⟩

/-! ## Where a variable ends -/

theorem reach_of_forall (h : ∀ next tail, rest ≠ .literal next :: tail) (s : List Char) :
    reach rest s = s.takeWhile (· != '/') := by
  unfold reach
  split
  · next next tail => exact absurd rfl (h next tail)
  · rfl

theorem reach_literal (next : List Char) (rest : Pattern) (s : List Char) :
    reach (.literal next :: rest) s =
      ((breakAt? next (s.takeWhile (· != '/'))).map (·.1)).getD (s.takeWhile (· != '/')) := rfl

theorem reach_of_mem {next : List Char} (h : '/' ∈ next) (rest : Pattern) (s : List Char) :
    reach (.literal next :: rest) s = s.takeWhile (· != '/') := by
  rw [reach_literal, breakAt?_eq_none h (not_mem_takeWhile_ne '/' s)]
  rfl

theorem reach_prefix (rest : Pattern) (s : List Char) :
    ∃ t, s = reach rest s ++ t ∧ '/' ∉ reach rest s := by
  have hsegment : ∃ t, s = s.takeWhile (· != '/') ++ t ∧ '/' ∉ s.takeWhile (· != '/') :=
    ⟨_, List.takeWhile_append_dropWhile.symm, not_mem_takeWhile_ne '/' s⟩
  by_cases hrest : ∃ next tail, rest = .literal next :: tail
  · obtain ⟨next, tail, rfl⟩ := hrest
    rw [reach_literal]
    cases hb : breakAt? next (s.takeWhile (· != '/')) with
    | none => exact hsegment
    | some cut =>
      obtain ⟨t, hs, hslash⟩ := hsegment
      have hcut : s.takeWhile (· != '/') = cut.1 ++ next ++ cut.2 := eq_of_breakAt? hb
      rw [hcut] at hs hslash
      simp only [List.mem_append, not_or] at hslash
      exact ⟨next ++ cut.2 ++ t, by simpa using hs, hslash.1.1⟩
  · rw [reach_of_forall fun next tail h => hrest ⟨next, tail, h⟩]
    exact hsegment

/-- Before a text within the segment a variable ends at its first place. -/
theorem reach_eq_iff_firstCut {raw next : List Char} (hraw : '/' ∉ raw) (hnext : '/' ∉ next) :
    reach (.literal next :: rest) (raw ++ (next ++ s)) = raw ↔
      FirstCut next (raw ++ next) raw [] := by
  rw [reach_literal, takeWhile_ne_append hraw, takeWhile_ne_append hnext, ← List.append_assoc,
    ← firstCut_append_iff]
  constructor
  · intro hreach
    cases hb : breakAt? next (raw ++ next ++ s.takeWhile (· != '/')) with
    | none => exact absurd rfl (breakAt?_eq_none_iff.1 hb raw (s.takeWhile (· != '/')))
    | some cut =>
      obtain ⟨a, b⟩ := cut
      rw [hb] at hreach
      obtain rfl : a = raw := hreach
      have hcut := firstCut_of_breakAt? hb
      obtain rfl := List.append_cancel_left hcut.1
      exact hcut
  · intro hcut
    rw [breakAt?_eq_some_iff.2 hcut]
    rfl

/-- A variable reaches just as far as a value that ends first. -/
theorem reach_eq_iff {raw : List Char} (hraw : '/' ∉ raw) (hs : HasShape rest s) :
    reach rest (raw ++ s) = raw ↔ EndsFirst raw rest s := by
  cases rest using segmentInduction with
  | nil =>
    rw [reach_of_forall (by simp), takeWhile_ne_append_eq_iff hraw, EndsFirst]
    simp
  | «variable» name rest =>
    rw [reach_of_forall (by simp), takeWhile_ne_append_eq_iff hraw, EndsFirst]
    simp
  | literal next rest =>
    obtain ⟨t, rfl, -⟩ := hasShape_literal.1 hs
    -- A text with a slash cannot be found within the segment, so the variable takes all of it.
    by_cases hnext : '/' ∈ next
    · rw [reach_of_mem hnext, takeWhile_ne_append_eq_iff hraw, EndsFirst, if_pos hnext]
      cases next with
      | nil => exact absurd hnext List.not_mem_nil
      | cons c next => simp
    · rw [reach_eq_iff_firstCut hraw hnext, EndsFirst, if_neg hnext]

theorem bind?_variable_append {name raw : List Char} (h : reach rest (raw ++ s) = raw) :
    bind? (.variable name :: rest) (raw ++ s) = (bind? rest s).map ((name, raw) :: ·) := by
  rw [bind?, h, List.drop_left]

theorem bind?_variable_skip (h : reach rest s = []) (name : List Char) :
    bind? (.variable name :: rest) s = (bind? rest s).map ((name, []) :: ·) := by
  rw [bind?, h]
  rfl

/-- **What is bound are the values that end first.** -/
theorem bind?_eq_some_iff : p.bind? s = some values ↔ Matched p values s := by
  constructor
  · intro h
    induction p using segmentInduction generalizing s values with
    | nil =>
      cases s with
      | nil =>
        cases h
        exact .nil
      | cons c s => cases h
    | literal text rest ih =>
      obtain ⟨r, hr, hvalues⟩ := Option.bind_eq_some_iff.1 h
      rw [after?_eq_some_iff.1 hr]
      exact .literal (ih hvalues)
    | «variable» name rest ih =>
      -- What the variable takes is cut off first, so that the rest can be matched by itself.
      obtain ⟨t, hs, hslash⟩ := reach_prefix rest s
      generalize hraw : reach rest s = raw at hs hslash
      subst hs
      rw [bind?_variable_append hraw] at h
      obtain ⟨values, hvalues, rfl⟩ := Option.map_eq_some_iff.1 h
      have hrest := ih hvalues
      exact .variable hslash ((reach_eq_iff hslash ⟨_, hrest.spells⟩).1 hraw) hrest
  · intro h
    induction h with
    | nil => rfl
    | literal _ ih =>
      rw [bind?, after?_append]
      exact ih
    | «variable» hraw hends h ih =>
      rw [bind?_variable_append ((reach_eq_iff hraw ⟨_, h.spells⟩).2 hends), ih]
      rfl

/-! ## Lenient patterns -/

/-- Whether nothing but other variables follows in the same segment. -/
def EndsSegment : Pattern → Prop
  | [] => True
  | .literal next :: _ => next.head? = some '/'
  | .variable _ :: rest => EndsSegment rest

/-- Whether a text follows in the same segment behind which another variable takes what is left. -/
def GivesWay : Pattern → Prop
  | .literal next :: .variable _ :: _ => '/' ∉ next
  | _ => False

/-- A pattern in which no variable can end too early: its segment has nothing but other variables
behind it, or a text and then another variable. -/
def IsLenient : Pattern → Prop
  | [] => True
  | .literal _ :: rest => IsLenient rest
  | .variable _ :: rest => (EndsSegment rest ∨ GivesWay rest) ∧ IsLenient rest

instance decidableEndsSegment : (p : Pattern) → Decidable (EndsSegment p)
  | [] => .isTrue trivial
  | .literal next :: _ => inferInstanceAs (Decidable (next.head? = some '/'))
  | .variable _ :: rest => decidableEndsSegment rest

instance : (p : Pattern) → Decidable (GivesWay p)
  | .literal next :: .variable _ :: _ => inferInstanceAs (Decidable ('/' ∉ next))
  | [] | .variable _ :: _ | [.literal _] | .literal _ :: .literal _ :: _ => .isFalse id

instance decidableIsLenient : (p : Pattern) → Decidable (IsLenient p)
  | [] => .isTrue trivial
  | .literal _ :: rest => decidableIsLenient rest
  | .variable _ :: rest =>
    have := decidableIsLenient rest
    inferInstanceAs (Decidable ((EndsSegment rest ∨ GivesWay rest) ∧ IsLenient rest))

theorem reach_of_endsSegment (h : EndsSegment rest) (s : List Char) :
    reach rest s = s.takeWhile (· != '/') := by
  cases rest using segmentInduction with
  | nil => exact reach_of_forall (by simp) s
  | «variable» name rest => exact reach_of_forall (by simp) s
  | literal next rest => exact reach_of_mem (List.mem_of_head? h) rest s

theorem bind?_of_reach (h : reach rest s = s.takeWhile (· != '/')) (name : List Char) :
    bind? (.variable name :: rest) s =
      (bind? rest (s.dropWhile (· != '/'))).map ((name, s.takeWhile (· != '/')) :: ·) := by
  have hreach : reach rest (s.takeWhile (· != '/') ++ s.dropWhile (· != '/')) =
      s.takeWhile (· != '/') := by rw [List.takeWhile_append_dropWhile, h]
  rw [← bind?_variable_append hreach, List.takeWhile_append_dropWhile]

/-! ### They match every path of their shape -/

theorem GivesWay.exists_eq (h : GivesWay p) : ∃ next name tail,
    p = .literal next :: .variable name :: tail ∧ '/' ∉ next := by
  unfold GivesWay at h
  split at h
  · exact ⟨_, _, _, rfl, h⟩
  · cases h

/-- Where only variables follow in a segment, all of it can be left out. -/
theorem HasShape.dropWhile (hp : EndsSegment p) (h : HasShape p s) :
    HasShape p (s.dropWhile (· != '/')) := by
  induction p using segmentInduction generalizing s with
  | nil =>
    obtain rfl := hasShape_nil.1 h
    exact h
  | literal text rest ih =>
    obtain ⟨t, rfl, -⟩ := hasShape_literal.1 h
    rwa [dropWhile_ne_append_of_head? hp]
  | «variable» name rest ih =>
    obtain ⟨raw, t, rfl, hraw, ht⟩ := hasShape_variable.1 h
    rw [dropWhile_ne_append hraw]
    exact (ih hp ht).skip name

theorem HasShape.prepend {name x : List Char} (hx : '/' ∉ x)
    (h : HasShape (.variable name :: rest) s) : HasShape (.variable name :: rest) (x ++ s) := by
  obtain ⟨raw, t, rfl, hraw, ht⟩ := hasShape_variable.1 h
  exact hasShape_variable.2 ⟨x ++ raw, t, by simp, by simp [hx, hraw], ht⟩

/-- A value that goes on too far can be divided: what stands between the first place of a text and
the end of that text stands after it as well. -/
theorem exists_firstCut {next raw : List Char} (hraw : '/' ∉ raw) (hnext : '/' ∉ next)
    (s : List Char) : ∃ first left, FirstCut next (first ++ next) first [] ∧ '/' ∉ first ∧
      '/' ∉ left ∧ raw ++ (next ++ s) = first ++ (next ++ (left ++ s)) := by
  have hoccurs : occurs next (raw ++ next) = true := occurs_iff.2 ⟨raw, [], by simp⟩
  obtain ⟨⟨first, left⟩, hb⟩ := Option.isSome_iff_exists.1 hoccurs
  have hcut := firstCut_of_breakAt? hb
  have hs : raw ++ next = first ++ next ++ left := hcut.1
  have hslash : '/' ∉ first ++ next ++ left := by simp [← hs, hraw, hnext]
  simp only [List.mem_append, not_or] at hslash
  rw [hs, firstCut_append_iff] at hcut
  refine ⟨first, left, hcut, hslash.1.1, hslash.2, ?_⟩
  rw [← List.append_assoc, hs]
  simp

/-- A lenient pattern matches every path of its shape. -/
theorem IsLenient.isSome_bind? (hp : IsLenient p) (h : HasShape p s) : (p.bind? s).isSome := by
  induction p using segmentInduction generalizing s with
  | nil =>
    obtain rfl := hasShape_nil.1 h
    rfl
  | literal text rest ih =>
    obtain ⟨t, rfl, ht⟩ := hasShape_literal.1 h
    rw [bind?, after?_append]
    exact ih hp ht
  | «variable» name rest ih =>
    obtain ⟨raw, t, rfl, hraw, ht⟩ := hasShape_variable.1 h
    obtain ⟨hnext | hnext, hrest⟩ := hp
    · -- The variable takes its whole segment and leaves nothing for those behind it.
      rw [bind?_of_reach (reach_of_endsSegment hnext _), Option.isSome_map,
        dropWhile_ne_append hraw]
      exact ih hrest (ht.dropWhile hnext)
    · -- The variable ends at the first place of the text, and the next one takes what is left.
      obtain ⟨next, other, tail, rfl, hslash⟩ := hnext.exists_eq
      obtain ⟨u, rfl, hu⟩ := hasShape_literal.1 ht
      obtain ⟨first, left, hcut, hfirst, hleft, hs⟩ := exists_firstCut hraw hslash u
      rw [hs, bind?_variable_append ((reach_eq_iff_firstCut hfirst hslash).2 hcut),
        Option.isSome_map]
      exact ih hrest (hasShape_literal.2 ⟨_, rfl, hu.prepend hleft⟩)

/-! ### No others do -/

/-- A pattern as it is read: no text is empty or followed by another one. -/
def IsReduced : Pattern → Prop
  | [] => True
  | .variable _ :: rest => IsReduced rest
  | .literal text :: rest =>
    text ≠ [] ∧ (∀ next, rest.head? ≠ some (.literal next)) ∧ IsReduced rest

theorem isReduced_literals (text : List Char) : IsReduced (literals text) := by
  cases text with
  | nil => trivial
  | cons c text => exact ⟨List.cons_ne_nil c text, nofun, trivial⟩

theorem isReduced_literals_append {name : List Char} (h : IsReduced rest) (text : List Char) :
    IsReduced (literals text ++ .variable name :: rest) := by
  cases text with
  | nil => exact h
  | cons c text => exact ⟨List.cons_ne_nil c text, nofun, h⟩

theorem isReduced_parseAfter (before s : List Char) : IsReduced (parseAfter before s) := by
  fun_induction parseAfter before s with
  | case1 before => exact isReduced_literals before
  | case2 before rest name h => exact isReduced_literals _
  | case3 before rest name c rest' h hname ih => exact ih
  | case4 before rest name c rest' h hname ih => exact isReduced_literals_append ih before
  | case5 before rest name hname ih => exact ih
  | case6 before rest name hname ih => exact ⟨by simp, nofun, ih⟩
  | case7 before c rest hbrace hcolon ih => exact ih

/-- Every pattern is read as a reduced one. -/
theorem isReduced_parse (s : List Char) : IsReduced (parse s) := isReduced_parseAfter [] s

theorem reach_of_slash (hs : ∀ c ∈ s.head?, c = '/') (rest : Pattern) : reach rest s = [] := by
  obtain ⟨t, ht, hslash⟩ := reach_prefix rest s
  cases hr : reach rest s with
  | nil => rfl
  | cons c r =>
    rw [hr] at ht hslash
    obtain rfl : c = '/' := hs c (by rw [ht]; rfl)
    exact absurd List.mem_cons_self hslash

/-- At a slash no variable takes anything, and a text of the segment before it is not found. -/
theorem bind?_eq_none_of_not_endsSegment (hp : IsReduced p) (h : ¬EndsSegment p)
    (hs : ∀ c ∈ s.head?, c = '/') : p.bind? s = none := by
  induction p using segmentInduction with
  | nil => exact absurd trivial h
  | literal next rest ih =>
    rw [bind?, Option.bind_eq_none_iff]
    intro r hr
    rw [after?_eq_some_iff.1 hr] at hs
    cases next with
    | nil => exact absurd rfl hp.1
    | cons c next => exact absurd (congrArg some (hs c rfl)) h
  | «variable» name rest ih =>
    rw [bind?_variable_skip (reach_of_slash hs rest), ih hp h]
    rfl

theorem bind?_variable_literal {next : List Char} (hnext : '/' ∉ next) (name s : List Char) :
    bind? (.variable name :: .literal next :: rest) (next ++ s) =
      (bind? rest s).map ((name, []) :: ·) := by
  have hcut : FirstCut next ([] ++ next) [] [] :=
    ⟨(List.append_nil next).symm, fun _ _ _ => Nat.zero_le _⟩
  have hreach : reach (.literal next :: rest) (next ++ s) = [] :=
    (reach_eq_iff_firstCut List.not_mem_nil hnext).2 hcut
  rw [bind?_variable_skip hreach, bind?, after?_append]
  rfl

theorem endsSegment_or_givesWay {name : List Char} (hp : IsReduced rest)
    (h : ∀ s, HasShape (.variable name :: rest) s → (bind? (.variable name :: rest) s).isSome) :
    EndsSegment rest ∨ GivesWay rest := by
  by_cases hends : EndsSegment rest
  · exact .inl hends
  -- A variable that takes its whole segment leaves nothing for the text behind it.
  have hwhole : ¬∀ s, reach rest s = s.takeWhile (· != '/') := by
    intro hreach
    obtain ⟨s, hs⟩ := exists_hasShape rest
    have hnone : bind? rest (s.dropWhile (· != '/')) = none :=
      bind?_eq_none_of_not_endsSegment hp hends fun c hc => head?_dropWhile_ne hc
    have hsome := h s (hs.skip name)
    rw [bind?_of_reach (hreach s), hnone] at hsome
    cases hsome
  cases rest using segmentInduction with
  | nil => exact absurd trivial hends
  | «variable» other rest => exact absurd (reach_of_forall (by simp)) hwhole
  | literal next rest =>
    have hnext : '/' ∉ next := fun hmem => hwhole (reach_of_mem hmem rest)
    obtain ⟨hne, hapart, -⟩ := hp
    cases rest using segmentInduction with
    | nil =>
      -- The text itself as a value: the variable ends before it, and its second place is left.
      have hshape : HasShape [.variable name, .literal next] (next ++ next) :=
        hasShape_variable.2 ⟨next, next, rfl, hnext, hasShape_literal.2
          ⟨[], (List.append_nil next).symm, hasShape_nil.2 rfl⟩⟩
      have hsome := h _ hshape
      rw [bind?_variable_literal hnext, Option.isSome_map] at hsome
      cases next with
      | nil => exact absurd rfl hne
      | cons c next => cases hsome
    | literal text rest => exact absurd rfl (hapart text)
    | «variable» other rest => exact .inr hnext

theorem isSome_bind?_dropWhile (hp : EndsSegment p) (h : HasShape p s) :
    (p.bind? (s.dropWhile (· != '/'))).isSome = (p.bind? s).isSome := by
  cases p using segmentInduction with
  | nil =>
    obtain rfl := hasShape_nil.1 h
    rfl
  | literal text rest =>
    obtain ⟨t, rfl, -⟩ := hasShape_literal.1 h
    rw [dropWhile_ne_append_of_head? hp]
  | «variable» name rest =>
    have hreach : ∀ s, reach rest s = s.takeWhile (· != '/') := reach_of_endsSegment hp
    have hdrop : (s.dropWhile (· != '/')).dropWhile (· != '/') = s.dropWhile (· != '/') :=
      dropWhile_ne_eq_self fun c hc => head?_dropWhile_ne hc
    rw [bind?_of_reach (hreach _), bind?_of_reach (hreach _), hdrop, Option.isSome_map,
      Option.isSome_map]

/-- A pattern that matches every path of its shape is lenient. -/
theorem isLenient_of_forall (hp : IsReduced p)
    (h : ∀ s, HasShape p s → (p.bind? s).isSome) : IsLenient p := by
  induction p using segmentInduction with
  | nil => trivial
  | literal text rest ih =>
    refine ih hp.2.2 fun s hs => ?_
    have hsome := h (text ++ s) (hasShape_literal.2 ⟨s, rfl, hs⟩)
    rwa [bind?, after?_append] at hsome
  | «variable» name rest ih =>
    have hrest : IsReduced rest := hp
    have hnext := endsSegment_or_givesWay hrest h
    -- A variable without a text leaves the rest of the path to the rest of the pattern.
    refine ⟨hnext, ih hrest fun s hs => ?_⟩
    have hsome := h s (hs.skip name)
    rcases hnext with hends | hways
    · rwa [bind?_of_reach (reach_of_endsSegment hends s), Option.isSome_map,
        isSome_bind?_dropWhile hends hs] at hsome
    · obtain ⟨next, other, tail, rfl, hslash⟩ := hways.exists_eq
      obtain ⟨t, rfl, -⟩ := hasShape_literal.1 hs
      rw [bind?_variable_literal hslash, Option.isSome_map] at hsome
      rwa [bind?, after?_append]

/-- **A pattern matches every path of its shape just if it is lenient.** -/
theorem isLenient_iff (hp : IsReduced p) :
    IsLenient p ↔ ∀ s, HasShape p s → (p.bind? s).isSome :=
  ⟨fun h _ hs => h.isSome_bind? hs, isLenient_of_forall hp⟩

end Pattern

/-! ## Values of a path -/

theorem extract?_eq_some_iff {pattern path : String} {found : SortedMap String String} :
    extract? pattern path = some found ↔
      ∃ values, Pattern.Matched (.parse pattern.toList) values path.toList ∧
        found = .ofList (values.map fun v => (String.ofList v.1, String.ofList (decode v.2))) := by
  simp only [extract?, Pattern.match?, Option.map_eq_some_iff, Pattern.bind?_eq_some_iff,
    eq_comm (a := found)]

/-- **A path in which values are found is made of the pattern's texts and these values.** They are
decoded, and of several values of one variable the last one counts. -/
theorem spells_of_extract? {pattern path : String} {found : SortedMap String String}
    (h : extract? pattern path = some found) :
    ∃ values, Pattern.Spells (.parse pattern.toList) values path.toList ∧
      (∀ name, name ∈ found.keys ↔ name ∈ variableNames pattern) ∧
      ∀ before name raw after, values = before ++ (name, raw) :: after →
        (∀ v ∈ after, v.1 ≠ name) →
        found.get? (String.ofList name) = some (String.ofList (decode raw)) := by
  obtain ⟨values, hmatched, hfound⟩ := extract?_eq_some_iff.1 h
  refine ⟨values, hmatched.spells, fun name => ?_, fun before name raw after hvalues hlast => ?_⟩
  · rw [SortedMap.mem_keys]
    exact extract?_some_iff h name
  · rw [hfound, hvalues, List.map_append, List.map_cons]
    refine SortedMap.get?_ofList_append_cons (fun e he hname => ?_) _
    obtain ⟨v, hv, rfl⟩ := List.mem_map.1 he
    exact hlast v hv (String.ofList_injective hname)

/-- Variables in either form, one of them twice and two without text between them; a brace without
its partner, and a value that is not UTF-8. -/
theorem spells_release :
    ∃ values, Pattern.Spells (.parse "/{id}{kind}/v-{name}/:id/\x7b".toList) values
        "/a.b/v-%C3%A9/%FF/\x7b".toList ∧
      (∀ name, name ∈ (SortedMap.ofList [("id", "%FF"), ("kind", ""), ("name", "é")]).keys ↔
        name ∈ variableNames "/{id}{kind}/v-{name}/:id/\x7b") ∧
      ∀ before name raw after, values = before ++ (name, raw) :: after →
        (∀ v ∈ after, v.1 ≠ name) →
        (SortedMap.ofList [("id", "%FF"), ("kind", ""), ("name", "é")]).get? (String.ofList name) =
          some (String.ofList (decode raw)) :=
  spells_of_extract? (by decide +kernel)

/-- **Which paths have values.**

- They are those of the pattern's shape in which every value ends where its variable does.
- They are all paths of its shape just if the pattern is lenient. -/
theorem isSome_extract?_iff (pattern : String) :
    (∀ path : String, (extract? pattern path).isSome ↔
      ∃ values, Pattern.Matched (.parse pattern.toList) values path.toList) ∧
    (Pattern.IsLenient (.parse pattern.toList) ↔
      ∀ path : String, Pattern.HasShape (.parse pattern.toList) path.toList →
        (extract? pattern path).isSome) := by
  have hbind : ∀ path : String, (extract? pattern path).isSome =
      ((Pattern.parse pattern.toList).bind? path.toList).isSome := by
    intro path
    rw [extract?, Pattern.match?, Option.isSome_map]
  constructor
  · intro path
    simp only [hbind, Option.isSome_iff_exists, Pattern.bind?_eq_some_iff]
  · rw [Pattern.isLenient_iff (Pattern.isReduced_parse pattern.toList)]
    constructor
    · intro h path hpath
      rw [hbind]
      exact h path.toList hpath
    · intro h s hs
      have hsome := h (String.ofList s)
      rw [hbind, String.toList_ofList] at hsome
      exact hsome hs

example : Pattern.IsLenient (.parse "/{from}-{to}/:day/{time}{zone}".toList) := by decide +kernel

/-- **Paths that are missed.** The text after a variable goes on over a slash, or it stands once
more in the value. -/
theorem extract?_report :
    (Pattern.HasShape (.parse "/files/{name}.json/meta".toList) "/files/report.json/meta".toList ∧
      extract? "/files/{name}.json/meta" "/files/report.json/meta" = none) ∧
    (Pattern.HasShape (.parse "/files/{name}.json".toList) "/files/report.json.json".toList ∧
      extract? "/files/{name}.json" "/files/report.json.json" = none) := by
  have hmeta : Pattern.parse "/files/{name}.json/meta".toList =
      [.literal "/files/".toList, .variable "name".toList, .literal ".json/meta".toList] := by
    decide +kernel
  have hjson : Pattern.parse "/files/{name}.json".toList =
      [.literal "/files/".toList, .variable "name".toList, .literal ".json".toList] := by
    decide +kernel
  have hshape : ∀ before name raw after : List Char, '/' ∉ raw → Pattern.HasShape
      [.literal before, .variable name, .literal after] (before ++ (raw ++ (after ++ []))) :=
    fun before name raw after hraw => ⟨_, .literal (.variable hraw (.literal .nil))⟩
  refine ⟨⟨?_, by decide +kernel⟩, ?_, by decide +kernel⟩
  · rw [hmeta]
    exact hshape "/files/".toList _ "report".toList ".json/meta".toList (by decide +kernel)
  · rw [hjson]
    exact hshape "/files/".toList _ "report.json".toList ".json".toList (by decide +kernel)

end ApiDouble.Uri
