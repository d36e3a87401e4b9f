import ApiDouble.Proofs.Uri.Matching

/-!
# Whether a pattern has variables

Two tests tell patterns with variables from those without. The quick one looks for a brace or a
colon where a segment starts (`Opens`). Reading the pattern finds a name between two braces,
wherever they stand (`Braced`), or behind a slash and a colon that no open brace takes for the start
of its name (`Coloned`).

`Braced` and `Coloned` speak of the whole text, reading goes through it from the left. They meet in
one lemma for each step of reading: what the step passes over neither has a variable nor hides one.

The tests differ where a brace stands inside a segment, and where what opens a segment turns out to
be no variable. `Announced` says that neither happens. Plain patterns are announced.

Main results: `hasVariables_iff`, `variableNames_ne_nil_iff`, `announced_iff`, `announced_written`.
-/

namespace ApiDouble.Uri

open Text

/-! ## Variables in the text -/

/-- A variable in braces: a brace, a name, and the brace's partner. -/
def Braced (s : List Char) : Prop :=
  ∃ before name after, s = before ++ '{' :: (name ++ '}' :: after) ∧ name ≠ [] ∧ '}' ∉ name

/-- A brace that has no partner. -/
def LeftOpen (s : List Char) : Prop := ∃ before after, s = before ++ '{' :: after ∧ '}' ∉ after

/-- A variable after a slash and a colon, in front of which no brace is left open. -/
def Coloned (s : List Char) : Prop :=
  ∃ before c after, s = before ++ '/' :: ':' :: c :: after ∧ isNameChar c ∧ ¬LeftOpen before

/-- A text that has a variable, in either form. -/
def IsTemplated (s : List Char) : Prop := Braced s ∨ Coloned s

/-- A segment that starts like a variable: with a brace, or with a colon after a slash. -/
def Opens (s : List Char) : Prop :=
  s.head? = some '{' ∨ ∃ before c after, s = before ++ '/' :: c :: after ∧ (c = '{' ∨ c = ':')

/-- A pattern shows its variables where segments start: if it has one in braces, some segment starts
like a variable, and if some segment does, there is a variable. -/
def Announced (s : List Char) : Prop := (Braced s → Opens s) ∧ (Opens s → IsTemplated s)

theorem Coloned.opens {s : List Char} (h : Coloned s) : Opens s := by
  obtain ⟨before, c, after, rfl, -, -⟩ := h
  exact .inr ⟨before, ':', c :: after, rfl, .inr rfl⟩

/-! ## One step of reading -/

theorem leftOpen_cons {c : Char} (h : c ≠ '{') (s : List Char) :
    LeftOpen (c :: s) ↔ LeftOpen s := by
  constructor
  · rintro ⟨before, after, hs, hclose⟩
    cases before with
    | nil => exact absurd (List.head_eq_of_cons_eq hs) h
    | cons d before => exact ⟨before, after, List.tail_eq_of_cons_eq hs, hclose⟩
  · rintro ⟨before, after, rfl, hclose⟩
    exact ⟨c :: before, after, rfl, hclose⟩

theorem leftOpen_braces (s : List Char) : LeftOpen ('{' :: '}' :: s) ↔ LeftOpen s := by
  rw [← leftOpen_cons (c := '}') (by decide) s]
  constructor
  · rintro ⟨before, after, hs, hclose⟩
    cases before with
    | nil =>
      rw [← List.tail_eq_of_cons_eq hs] at hclose
      exact absurd List.mem_cons_self hclose
    | cons d before => exact ⟨before, after, List.tail_eq_of_cons_eq hs, hclose⟩
  · rintro ⟨before, after, hs, hclose⟩
    exact ⟨'{' :: before, after, congrArg ('{' :: ·) hs, hclose⟩

theorem braced_cons {c : Char} (h : c ≠ '{') (s : List Char) : Braced (c :: s) ↔ Braced s := by
  constructor
  · rintro ⟨before, name, after, hs, hname, hclose⟩
    cases before with
    | nil => exact absurd (List.head_eq_of_cons_eq hs) h
    | cons d before =>
      exact ⟨before, name, after, List.tail_eq_of_cons_eq hs, hname, hclose⟩
  · rintro ⟨before, name, after, rfl, hname, hclose⟩
    exact ⟨c :: before, name, after, rfl, hname, hclose⟩

theorem braced_braces (s : List Char) : Braced ('{' :: '}' :: s) ↔ Braced s := by
  rw [← braced_cons (c := '}') (by decide) s]
  constructor
  · rintro ⟨before, name, after, hs, hname, hclose⟩
    cases before with
    | nil =>
      obtain ⟨d, name, rfl⟩ := List.exists_cons_of_ne_nil hname
      rw [← List.head_eq_of_cons_eq (List.tail_eq_of_cons_eq hs)] at hclose
      exact absurd List.mem_cons_self hclose
    | cons d before =>
      exact ⟨before, name, after, List.tail_eq_of_cons_eq hs, hname, hclose⟩
  · rintro ⟨before, name, after, hs, hname, hclose⟩
    exact ⟨'{' :: before, name, after, congrArg ('{' :: ·) hs, hname, hclose⟩

/-- A colon's variable is what the text starts with, or it is behind the first character. -/
theorem coloned_cons {c : Char} (h : c ≠ '{') (s : List Char) :
    Coloned (c :: s) ↔
      (c = '/' ∧ ∃ d after, s = ':' :: d :: after ∧ isNameChar d) ∨ Coloned s := by
  constructor
  · rintro ⟨before, d, after, hs, hd, hopen⟩
    cases before with
    | nil =>
      obtain ⟨hc, hs⟩ := List.cons_eq_cons.1 hs
      exact .inl ⟨hc, d, after, hs, hd⟩
    | cons e before =>
      obtain rfl := List.head_eq_of_cons_eq hs
      exact .inr ⟨before, d, after, List.tail_eq_of_cons_eq hs, hd,
        mt (leftOpen_cons h before).2 hopen⟩
  · rintro (⟨rfl, d, after, rfl, hd⟩ | ⟨before, d, after, rfl, hd, hopen⟩)
    · refine ⟨[], d, after, rfl, hd, ?_⟩
      rintro ⟨before, after, hs, -⟩
      cases before <;> cases hs
    · exact ⟨c :: before, d, after, rfl, hd, mt (leftOpen_cons h before).1 hopen⟩

theorem coloned_braces (s : List Char) : Coloned ('{' :: '}' :: s) ↔ Coloned s := by
  constructor
  · rintro ⟨before, d, after, hs, hd, hopen⟩
    -- The slash is neither of the braces, so both stand in front of it.
    rcases before with _ | ⟨b, _ | ⟨b', before⟩⟩
    · cases hs
    · cases hs
    · cases hs
      exact ⟨before, d, after, rfl, hd, mt (leftOpen_braces before).2 hopen⟩
  · rintro ⟨before, d, after, rfl, hd, hopen⟩
    exact ⟨'{' :: '}' :: before, d, after, rfl, hd, mt (leftOpen_braces before).1 hopen⟩

/-- Behind a brace without a partner nothing is a variable. -/
theorem not_isTemplated_of_open {s : List Char} (h : '}' ∉ s) : ¬IsTemplated ('{' :: s) := by
  rintro (⟨before, name, after, hs, -, -⟩ | ⟨before, c, after, hs, -, hopen⟩)
  · have hclose : '}' ∈ '{' :: s := by simp [hs]
    rcases List.mem_cons.1 hclose with hclose | hclose
    · exact absurd hclose (by decide)
    · exact h hclose
  · cases before with
    | nil => cases hs
    | cons d before =>
      cases hs
      exact hopen ⟨[], before, rfl, mt (List.mem_append_left _) h⟩

theorem isTemplated_braces (s : List Char) : IsTemplated ('{' :: '}' :: s) ↔ IsTemplated s :=
  or_congr (braced_braces s) (coloned_braces s)

theorem isTemplated_variable {name : List Char} (hname : name ≠ []) (hclose : '}' ∉ name)
    (s : List Char) : IsTemplated ('{' :: (name ++ '}' :: s)) :=
  .inl ⟨[], name, s, rfl, hname, hclose⟩

theorem isTemplated_cons {c : Char} {s : List Char} (hbrace : c ≠ '{')
    (hcolon : c = '/' → ∀ d after, s = ':' :: d :: after → ¬isNameChar d) :
    IsTemplated (c :: s) ↔ IsTemplated s := by
  unfold IsTemplated
  rw [braced_cons hbrace, coloned_cons hbrace, or_iff_right (a := c = '/' ∧ _)]
  rintro ⟨hc, d, after, hs, hd⟩
  exact hcolon hc d after hs hd

/-! ## Reading -/

namespace Pattern

theorem names_literals (text : List Char) : (literals text).names = [] := by
  unfold literals
  split <;> rfl

theorem names_append (p q : Pattern) : names (p ++ q) = names p ++ names q :=
  List.filterMap_append

theorem names_variable (name : List Char) (p : Pattern) :
    names (.variable name :: p) = name :: names p := rfl

/-- Reading finds a variable just if the text has one. -/
theorem names_parseAfter_ne_nil_iff {before s : List Char} :
    (parseAfter before s).names ≠ [] ↔ IsTemplated s := by
  fun_induction parseAfter before s with
  | case1 before =>
    rw [names_literals]
    refine iff_of_false (fun h => h rfl) ?_
    rintro (⟨before, name, after, hs, -⟩ | ⟨before, c, after, hs, -⟩) <;> cases before <;> cases hs
  | case2 before rest name hopen =>
    -- A brace without a partner takes all that is left, colons included.
    have hrest : rest = name := by
      rw [← List.append_nil name, ← hopen]
      exact List.takeWhile_append_dropWhile.symm
    rw [names_literals, hrest]
    exact iff_of_false (fun h => h rfl) (not_isTemplated_of_open (not_mem_takeWhile_ne _ _))
  | case3 before rest name d rest' hrest hname ih =>
    have hempty : rest.takeWhile (· != '}') = [] := List.isEmpty_iff.1 hname
    rw [ih, eq_of_dropWhile_ne hrest, hempty]
    exact (isTemplated_braces rest').symm
  | case4 before rest name d rest' hrest hname ih =>
    rw [names_append, names_literals, names_variable, eq_of_dropWhile_ne hrest]
    exact iff_of_true (List.cons_ne_nil _ _) (isTemplated_variable (mt List.isEmpty_iff.2 hname)
      (not_mem_takeWhile_ne _ _) rest')
  | case5 before rest name hname ih =>
    have hempty : rest.takeWhile isNameChar = [] := List.isEmpty_iff.1 hname
    have hcolon : ∀ d after, rest = d :: after → ¬isNameChar d := by
      rintro d after rfl hd
      rw [List.takeWhile_cons_of_pos hd] at hempty
      cases hempty
    rw [ih, isTemplated_cons (c := '/') (by decide), isTemplated_cons (c := ':') (by decide)]
    · exact fun h => absurd h (by decide)
    · exact fun _ d after hrest => hcolon d after (List.tail_eq_of_cons_eq hrest)
  | case6 before rest name hname ih =>
    have hcolon : ∃ d after, rest = d :: after ∧ isNameChar d := by
      cases rest with
      | nil => exact absurd rfl hname
      | cons d after =>
        by_cases hd : isNameChar d
        · exact ⟨d, after, rfl, hd⟩
        · exact absurd (List.isEmpty_iff.2 (List.takeWhile_cons_of_neg hd)) hname
    obtain ⟨d, after, rfl, hd⟩ := hcolon
    exact iff_of_true (List.cons_ne_nil _ _)
      (.inr ((coloned_cons (by decide) _).2 (.inl ⟨rfl, d, after, rfl, hd⟩)))
  | case7 before c rest hbrace hcolon ih =>
    rw [ih, isTemplated_cons hbrace]
    intro hc d after hrest
    exact absurd hrest (fun h => hcolon _ hc h)

end Pattern

theorem variableNames_ne_nil_iff {pattern : String} :
    variableNames pattern ≠ [] ↔ IsTemplated pattern.toList := by
  unfold variableNames Pattern.parse
  rw [Ne, List.map_eq_nil_iff]
  exact Pattern.names_parseAfter_ne_nil_iff

/-! ## The quick test -/

theorem hasVariables_iff {pattern : String} :
    hasVariables pattern = true ↔ Opens pattern.toList := by
  unfold hasVariables Opens
  simp only [Bool.or_eq_true, decide_eq_true_eq, occurs_iff, List.append_assoc, List.cons_append,
    List.nil_append]
  constructor
  · rintro ((⟨a, b, h⟩ | ⟨a, b, h⟩) | h)
    · exact .inr ⟨a, ':', b, h, .inr rfl⟩
    · exact .inr ⟨a, '{', b, h, .inl rfl⟩
    · exact .inl h
  · rintro (h | ⟨a, c, b, h, rfl | rfl⟩)
    · exact .inr h
    · exact .inl (.inr ⟨a, b, h⟩)
    · exact .inl (.inl ⟨a, b, h⟩)

/-- **The tests agree on a pattern** just if it shows its variables where segments start. -/
theorem announced_iff {pattern : String} :
    Announced pattern.toList ↔ (hasVariables pattern = true ↔ variableNames pattern ≠ []) := by
  rw [hasVariables_iff, variableNames_ne_nil_iff]
  constructor
  · rintro ⟨hbraced, hopens⟩
    exact ⟨hopens, fun h => h.elim hbraced Coloned.opens⟩
  · intro h
    exact ⟨fun hbraced => h.2 (.inl hbraced), h.1⟩

/-! ## Plain patterns -/

theorem occurs_slash {c : Char} {s : List Char} :
    occurs ['/', c] ('/' :: s) = true ↔ s.head? = some c ∨ occurs ['/', c] s = true := by
  by_cases hhead : s.head? = some c
  · obtain ⟨rest, rfl⟩ := List.head?_eq_some_iff.1 hhead
    exact iff_of_true (occurs_append ['/', c] rest) (.inl hhead)
  · have hafter : after? ['/', c] ('/' :: s) = none := by
      cases s with
      | nil => rfl
      | cons d rest => exact after?_cons_of_ne (fun h => hhead (congrArg some h.symm)) [] rest
    rw [occurs_cons hafter, or_iff_right hhead]

theorem occurs_slashed_cons {s : Segment} (h : s.IsPlain) (c : Char) (rest : Pattern) :
    occurs ['/', c] (slashed (s :: rest)) = true ↔
      (s.written ++ slashed rest).head? = some c ∨ occurs ['/', c] (slashed rest) = true := by
  rw [slashed_cons, occurs_slash, occurs_append_of_not_mem (Segment.slash_not_mem_written h)]

theorem head?_written_eq_brace_iff {s : Segment} (h : s.IsPlain) (rest : Pattern) :
    (s.written ++ slashed rest).head? = some '{' ↔ ∃ name, s = .variable name := by
  cases s with
  | «variable» name => exact iff_of_true rfl ⟨name, rfl⟩
  | literal text =>
    refine iff_of_false (fun hhead => ?_) nofun
    cases text with
    | nil => exact absurd (head?_slashed rest _ hhead) (by decide)
    | cons c text =>
      cases hhead
      exact h.1 '{' (by decide) List.mem_cons_self

theorem not_occurs_colon_slashed {segments : Pattern} (h : ∀ s ∈ segments, s.IsPlain) :
    ¬occurs ['/', ':'] (slashed segments) = true := by
  induction segments with
  | nil => decide
  | cons s rest ih =>
    have hs : s.IsPlain := h s List.mem_cons_self
    rw [occurs_slashed_cons hs]
    exact not_or.2 ⟨s.head?_written hs rest, ih fun t ht => h t (List.mem_cons_of_mem s ht)⟩

theorem occurs_brace_slashed_iff {segments : Pattern} (h : ∀ s ∈ segments, s.IsPlain) :
    occurs ['/', '{'] (slashed segments) = true ↔ ∃ name, .variable name ∈ segments := by
  induction segments with
  | nil => exact iff_of_false (by decide) (by simp)
  | cons s rest ih =>
    have hs : s.IsPlain := h s List.mem_cons_self
    rw [occurs_slashed_cons hs, head?_written_eq_brace_iff hs,
      ih fun t ht => h t (List.mem_cons_of_mem s ht), ← exists_or]
    simp only [List.mem_cons, eq_comm]

/-- In a plain pattern the quick test is right. -/
theorem hasVariables_written {pattern : String} {segments : Pattern}
    (h : ∀ s ∈ segments, s.IsPlain) (hpattern : pattern.toList = written segments) :
    hasVariables pattern = true ↔ ∃ name, .variable name ∈ segments := by
  simp only [hasVariables, hpattern, Bool.or_eq_true, decide_eq_true_eq]
  cases segments with
  | nil => exact iff_of_false (by decide) (by simp)
  | cons s rest =>
    have hs : s.IsPlain := h s List.mem_cons_self
    have hrest : ∀ t ∈ rest, t.IsPlain := fun t ht => h t (List.mem_cons_of_mem s ht)
    have hslash : '/' ∉ s.written := Segment.slash_not_mem_written hs
    rw [written_cons, occurs_append_of_not_mem hslash, occurs_append_of_not_mem hslash,
      or_iff_right (not_occurs_colon_slashed hrest), occurs_brace_slashed_iff hrest,
      head?_written_eq_brace_iff hs, or_comm, ← exists_or]
    simp only [List.mem_cons, eq_comm]

theorem announced_written {segments : Pattern} (h : ∀ s ∈ segments, s.IsPlain) :
    Announced (written segments) := by
  have hpattern : (String.ofList (written segments)).toList = written segments :=
    String.toList_ofList
  rw [← hpattern, announced_iff, hasVariables_written h hpattern, variableNames_written h hpattern,
    Ne, List.map_eq_nil_iff, List.eq_nil_iff_forall_not_mem]
  simp [Pattern.mem_names]

end ApiDouble.Uri
