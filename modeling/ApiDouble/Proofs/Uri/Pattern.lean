import ApiDouble.Proofs.Collection.SortedMap
import ApiDouble.Proofs.Text.Search
import ApiDouble.Uri.Pattern

/-!
# Plain patterns

A pattern is plain if slashes divide it into segments of which each is either text or one variable
in braces (`written`, `Segment.IsPlain`).

**Reading** (`parse_written`). Neither a brace nor a colon after a slash stands in the text, so
reading finds exactly the variables. Texts that follow one another run together, slashes included,
which `Pattern.merged` says.

**Values.** A path that has the shape of a pattern, plain or not, has values for just the variables
of the pattern (`extract?_some_iff`).

**Matching** (`bind?_merged`). Every variable is followed by the end or by a literal that holds a
slash. As a value has no slash, a variable reaches exactly as far as the value that was put in its
place.

Main results: `variableNames_written`, `extract?_some_iff`, `extract?_written`.
-/

namespace ApiDouble.Uri

open Text

/-! ## Segments between slashes -/

/-- The text of a segment in a pattern. -/
def Segment.written : Segment → List Char
  | .literal text => text
  | .variable name => '{' :: name ++ ['}']

/-- Segments with a slash before each. -/
def slashed (segments : Pattern) : List Char := segments.flatMap fun s => '/' :: s.written

/-- Segments divided by slashes. -/
def written (segments : Pattern) : List Char := ['/'].intercalate (segments.map Segment.written)

/-- The characters that structure an address. -/
def structural : List Char := ['{', '}', '/', '?']

/-- A segment of a plain pattern. A text does not start with a colon, and a variable has a name. -/
def Segment.IsPlain : Segment → Prop
  | .literal text => (∀ c ∈ structural, c ∉ text) ∧ text.head? ≠ some ':'
  | .variable name => (∀ c ∈ structural, c ∉ name) ∧ name ≠ []

theorem slashed_cons (s : Segment) (rest : Pattern) :
    slashed (s :: rest) = '/' :: (s.written ++ slashed rest) := by
  rw [slashed, List.flatMap_cons, List.cons_append]
  rfl

theorem head?_slashed (segments : Pattern) : ∀ c ∈ (slashed segments).head?, c = '/' := by
  cases segments <;> simp [slashed]

theorem written_cons (s : Segment) (rest : Pattern) :
    written (s :: rest) = s.written ++ slashed rest := by
  unfold written
  induction rest generalizing s with
  | nil =>
    rw [List.map_singleton, List.intercalate_singleton]
    exact (List.append_nil _).symm
  | cons t rest ih =>
    rw [List.map_cons, List.map_cons, List.intercalate_cons_cons, slashed_cons, ← ih t,
      List.map_cons, List.append_assoc]
    rfl

theorem Segment.written_append (name s : List Char) :
    (Segment.variable name).written ++ s = '{' :: (name ++ '}' :: s) := by
  rw [Segment.written, List.cons_append, List.cons_append, List.append_assoc]
  rfl

theorem Segment.slash_not_mem_written {s : Segment} (h : s.IsPlain) : '/' ∉ s.written := by
  have hslash : '/' ∈ structural := by decide
  cases s with
  | literal text => exact h.1 _ hslash
  | «variable» name =>
    have hname := h.1 _ hslash
    simp only [Segment.written, List.mem_cons, List.mem_append, List.cons_append]
    rintro (h' | h' | h' | h')
    · exact absurd h' (by decide)
    · exact hname h'
    · exact absurd h' (by decide)
    · exact List.not_mem_nil h'

theorem Segment.head?_written {s : Segment} (h : s.IsPlain) (rest : Pattern) :
    (s.written ++ slashed rest).head? ≠ some ':' := by
  cases s with
  | literal text =>
    cases text with
    | nil =>
      cases rest with
      | nil => exact nofun
      | cons t rest =>
        rw [slashed_cons]
        show some '/' ≠ some ':'
        decide
    | cons c text => exact h.2
  | «variable» name =>
    show some '{' ≠ some ':'
    decide

/-! ## Reading -/

namespace Pattern

/-- Induction on a pattern, segment by segment. -/
@[elab_as_elim]
theorem segmentInduction {motive : Pattern → Prop} (nil : motive [])
    (literal : ∀ text rest, motive rest → motive (.literal text :: rest))
    («variable» : ∀ name rest, motive rest → motive (.variable name :: rest)) (p : Pattern) :
    motive p := by
  induction p with
  | nil => exact nil
  | cons s rest ih =>
    cases s with
    | literal text => exact literal text rest ih
    | «variable» name => exact «variable» name rest ih

theorem parseAfter_nil (before : List Char) : parseAfter before [] = literals before := by
  rw [parseAfter]

theorem parseAfter_cons {c : Char} {rest : List Char} (hbrace : c ≠ '{')
    (hcolon : c = '/' → rest.head? ≠ some ':') (before : List Char) :
    parseAfter before (c :: rest) = parseAfter (before ++ [c]) rest := by
  rw [parseAfter]
  · exact fun h => hbrace h
  · intro rest' hc hrest
    apply hcolon hc
    rw [hrest]
    rfl

theorem parseAfter_append {text : List Char} (hbrace : '{' ∉ text) (hslash : '/' ∉ text)
    (before rest : List Char) :
    parseAfter before (text ++ rest) = parseAfter (before ++ text) rest := by
  induction text generalizing before with
  | nil => rw [List.append_nil, List.nil_append]
  | cons c text ih =>
    obtain ⟨hb, hbrace⟩ := not_or.1 (mt List.mem_cons.2 hbrace)
    obtain ⟨hs, hslash⟩ := not_or.1 (mt List.mem_cons.2 hslash)
    rw [List.cons_append, parseAfter_cons (Ne.symm hb) (fun h => absurd h.symm hs),
      ih hbrace hslash, List.append_assoc]
    rfl

theorem parseAfter_variable {name : List Char} (hname : name ≠ []) (hbrace : '}' ∉ name)
    (before rest : List Char) :
    parseAfter before ('{' :: (name ++ '}' :: rest)) =
      literals before ++ .variable name :: parseAfter [] rest := by
  have htake : (name ++ '}' :: rest).takeWhile (· != '}') = name :=
    (takeWhile_ne_append_eq_iff hbrace).2 (by simp)
  have hdrop : (name ++ '}' :: rest).dropWhile (· != '}') = '}' :: rest :=
    dropWhile_ne_append hbrace _
  rw [parseAfter]
  simp only [htake]
  split
  · next h => rw [hdrop] at h; cases h
  · next h =>
    rw [hdrop] at h
    cases h
    rw [if_neg (by simpa using hname)]

/-- What is read of segments with a slash before each, after the literal text `before`. -/
def mergedAfter (before : List Char) : Pattern → Pattern
  | [] => literals before
  | .literal text :: rest => mergedAfter (before ++ '/' :: text) rest
  | .variable name :: rest =>
    .literal (before ++ ['/']) :: .variable name :: mergedAfter [] rest

/-- What is read of segments divided by slashes. -/
def merged : Pattern → Pattern
  | [] => []
  | .literal text :: rest => mergedAfter text rest
  | .variable name :: rest => .variable name :: mergedAfter [] rest

theorem parseAfter_slashed {segments : Pattern} (h : ∀ s ∈ segments, s.IsPlain)
    (before : List Char) : parseAfter before (slashed segments) = mergedAfter before segments := by
  induction segments generalizing before with
  | nil => exact parseAfter_nil before
  | cons s rest ih =>
    have hs : s.IsPlain := h s List.mem_cons_self
    have hrest := ih fun t ht => h t (List.mem_cons_of_mem s ht)
    rw [slashed_cons, parseAfter_cons (by decide) fun _ => s.head?_written hs rest]
    cases s with
    | literal text =>
      rw [Segment.written, parseAfter_append (hs.1 _ (by decide)) (hs.1 _ (by decide)), hrest,
        mergedAfter, List.append_assoc]
      rfl
    | «variable» name =>
      have hnil : (before ++ ['/']).isEmpty = false := by simp
      rw [Segment.written_append, parseAfter_variable hs.2 (hs.1 _ (by decide)), hrest, literals,
        hnil, mergedAfter]
      rfl

/-- A plain pattern is read as its segments. -/
theorem parse_written {segments : Pattern} (h : ∀ s ∈ segments, s.IsPlain) :
    parse (written segments) = merged segments := by
  cases segments with
  | nil => exact parseAfter_nil []
  | cons s rest =>
    have hs : s.IsPlain := h s List.mem_cons_self
    have hrest := parseAfter_slashed fun t ht => h t (List.mem_cons_of_mem s ht)
    rw [written_cons, parse]
    cases s with
    | literal text =>
      rw [Segment.written, parseAfter_append (hs.1 _ (by decide)) (hs.1 _ (by decide)), hrest]
      rfl
    | «variable» name =>
      rw [Segment.written_append, parseAfter_variable hs.2 (hs.1 _ (by decide)), hrest]
      rfl

theorem names_mergedAfter (before : List Char) (segments : Pattern) :
    (mergedAfter before segments).names = names segments := by
  induction segments generalizing before with
  | nil =>
    rw [mergedAfter, literals]
    split <;> rfl
  | cons s rest ih =>
    cases s with
    | literal text => exact ih _
    | «variable» name => exact congrArg (name :: ·) (ih [])

theorem names_merged (segments : Pattern) : (merged segments).names = names segments := by
  cases segments with
  | nil => rfl
  | cons s rest =>
    cases s with
    | literal text => exact names_mergedAfter text rest
    | «variable» name => exact congrArg (name :: ·) (names_mergedAfter [] rest)

theorem mem_names {segments : Pattern} {name : List Char} :
    name ∈ names segments ↔ .variable name ∈ segments := by
  unfold names
  rw [List.mem_filterMap]
  constructor
  · rintro ⟨s, hs, hname⟩
    cases s with
    | literal text => cases hname
    | «variable» name' => cases hname; exact hs
  · intro h
    exact ⟨_, h, rfl⟩

end Pattern

/-- **The variables of a plain pattern** are found in their order. -/
theorem variableNames_written {pattern : String} {segments : Pattern}
    (h : ∀ s ∈ segments, s.IsPlain) (hpattern : pattern.toList = written segments) :
    variableNames pattern = segments.names.map String.ofList := by
  rw [variableNames, hpattern, Pattern.parse_written h, Pattern.names_merged]

/-! ## Variables with a value -/

theorem Pattern.names_bind? {p : Pattern} {s : List Char} {bound : List (List Char × List Char)}
    (h : p.bind? s = some bound) : bound.map (·.1) = p.names := by
  induction p generalizing s bound with
  | nil =>
    cases s with
    | nil => cases h; rfl
    | cons c s => cases h
  | cons t rest ih =>
    cases t with
    | literal text =>
      obtain ⟨r, -, hr⟩ := Option.bind_eq_some_iff.1 h
      exact ih hr
    | «variable» name =>
      obtain ⟨tail, htail, rfl⟩ := Option.map_eq_some_iff.1 h
      exact congrArg (name :: ·) (ih htail)

/-- **A path of a pattern's shape has values for its variables** and for no other names. -/
theorem extract?_some_iff {pattern path : String} {found : SortedMap String String}
    (h : extract? pattern path = some found) (name : String) :
    (∃ value, found.get? name = some value) ↔ name ∈ variableNames pattern := by
  obtain ⟨bound, hbound, rfl⟩ := Option.map_eq_some_iff.1 h
  have hnames : variableNames pattern = bound.map fun b => String.ofList b.1 := by
    rw [variableNames, ← Pattern.names_bind? hbound, List.map_map]
    rfl
  rw [SortedMap.get?_ofList, ← Option.isSome_iff_exists, ← Option.ne_none_iff_isSome, Ne,
    SortedMap.findList?_eq_none_iff, hnames, List.mem_map]
  constructor
  · intro hsome
    apply Classical.byContradiction
    intro hno
    refine hsome fun e he hname => ?_
    obtain ⟨b, hb, rfl⟩ := List.mem_map.1 (List.mem_reverse.1 he)
    exact hno ⟨b, hb, hname⟩
  · rintro ⟨b, hb, hname⟩ hnone
    exact hnone _ (List.mem_reverse.2 (List.mem_map.2 ⟨b, hb, rfl⟩)) hname

/-! ## Matching -/

/-- Puts a value in the place of a variable that has one. -/
def Segment.fill (value? : List Char → Option (List Char)) : Segment → Segment
  | .literal text => .literal text
  | .variable name =>
    match value? name with
    | some value => .literal value
    | none => .variable name

theorem Segment.fill_variable {value? : List Char → Option (List Char)} {name value : List Char}
    (h : value? name = some value) : Segment.fill value? (.variable name) = .literal value := by
  rw [Segment.fill, h]

namespace Pattern

/-- What follows a variable is the end or a literal that holds a slash. -/
theorem slash_mem_of_mergedAfter {before : List Char} (hb : before = [] ∨ '/' ∈ before)
    {segments : Pattern} {next : List Char} {rest : Pattern}
    (h : mergedAfter before segments = .literal next :: rest) : '/' ∈ next := by
  -- The text that is being merged is empty or has a slash, from the start of a segment.
  induction segments generalizing before with
  | nil =>
    rw [mergedAfter, literals] at h
    rcases hb with rfl | hb
    · cases h
    · have hne : before.isEmpty = false := by
        cases before with
        | nil => exact absurd hb List.not_mem_nil
        | cons c before => rfl
      rw [hne] at h
      cases h
      exact hb
  | cons s segments ih =>
    cases s with
    | literal text =>
      exact ih (Or.inr (List.mem_append_right _ List.mem_cons_self)) h
    | «variable» name =>
      cases h
      exact List.mem_append_right _ List.mem_cons_self

/-- A variable reaches as far as its value, which has no slash. -/
theorem reach_mergedAfter {value : List Char} (hv : '/' ∉ value) (segments rest : Pattern) :
    reach (mergedAfter [] segments) (value ++ slashed rest) = value := by
  have htake : (value ++ slashed rest).takeWhile (· != '/') = value :=
    (takeWhile_ne_append_eq_iff hv).2 (head?_slashed rest)
  unfold reach
  simp only [htake]
  split
  · next next rest' h =>
    rw [breakAt?_eq_none (slash_mem_of_mergedAfter (Or.inl rfl) h) hv]
    rfl
  · rfl

theorem bind?_literals (text : List Char) (p : Pattern) (s : List Char) :
    bind? (literals text ++ p) (text ++ s) = bind? p s := by
  cases text with
  | nil => rfl
  | cons c text =>
    show (after? (c :: text) (c :: text ++ s)).bind (bind? p) = bind? p s
    rw [after?_append]
    rfl

theorem bind?_variable {name value : List Char} (hv : '/' ∉ value) (segments rest : Pattern) :
    bind? (.variable name :: mergedAfter [] segments) (value ++ slashed rest) =
      (bind? (mergedAfter [] segments) (slashed rest)).map ((name, value) :: ·) := by
  rw [bind?, reach_mergedAfter hv, List.drop_left]

variable {value? : List Char → Option (List Char)}

theorem bind?_mergedAfter {segments : Pattern}
    (h : ∀ name, .variable name ∈ segments → ∃ value, value? name = some value ∧ '/' ∉ value)
    (before : List Char) :
    bind? (mergedAfter before segments) (before ++ slashed (segments.map (Segment.fill value?))) =
      some ((names segments).map fun name => (name, (value? name).getD [])) := by
  -- `before` is the text since the last variable, which `mergedAfter` has not given out yet.
  induction segments generalizing before with
  | nil => exact (congrArg (bind? · _) (List.append_nil _).symm).trans (bind?_literals before [] [])
  | cons s rest ih =>
    have hrest := ih fun name hname => h name (List.mem_cons_of_mem s hname)
    rw [List.map_cons, slashed_cons]
    cases s with
    | literal text =>
      have hassoc : before ++ '/' :: (text ++ slashed (rest.map (Segment.fill value?))) =
          (before ++ '/' :: text) ++ slashed (rest.map (Segment.fill value?)) := by
        rw [List.append_assoc, List.cons_append]
      rw [mergedAfter, Segment.fill, Segment.written, hassoc, hrest]
      rfl
    | «variable» name =>
      obtain ⟨value, hvalue, hslash⟩ := h name List.mem_cons_self
      have hassoc : before ++ '/' :: (value ++ slashed (rest.map (Segment.fill value?))) =
          (before ++ ['/']) ++ (value ++ slashed (rest.map (Segment.fill value?))) := by
        rw [List.append_assoc]
        rfl
      have hnil := hrest []
      rw [List.nil_append] at hnil
      rw [mergedAfter, Segment.fill_variable hvalue, Segment.written, hassoc, bind?, after?_append]
      show bind? (.variable name :: mergedAfter [] rest) _ = _
      rw [bind?_variable hslash, hnil]
      show some ((name, value) :: _) = some ((name, (value? name).getD []) :: _)
      rw [hvalue]
      rfl

theorem bind?_merged {segments : Pattern}
    (h : ∀ name, .variable name ∈ segments → ∃ value, value? name = some value ∧ '/' ∉ value) :
    bind? (merged segments) (written (segments.map (Segment.fill value?))) =
      some ((names segments).map fun name => (name, (value? name).getD [])) := by
  cases segments with
  | nil => rfl
  | cons s rest =>
    have hrest := bind?_mergedAfter fun name hname => h name (List.mem_cons_of_mem s hname)
    rw [List.map_cons, written_cons]
    cases s with
    | literal text => exact hrest text
    | «variable» name =>
      obtain ⟨value, hvalue, hslash⟩ := h name List.mem_cons_self
      have hnil := hrest []
      rw [List.nil_append] at hnil
      rw [merged, Segment.fill_variable hvalue, Segment.written, bind?_variable hslash, hnil]
      show some ((name, value) :: _) = some ((name, (value? name).getD []) :: _)
      rw [hvalue]
      rfl

end Pattern

/-- **Matching undoes filling in.** A path that a plain pattern and a value for each of its
variables make gives these values, decoded, and no others. -/
theorem extract?_written {pattern path : String} {segments : Pattern}
    {value? : List Char → Option (List Char)} (hplain : ∀ s ∈ segments, s.IsPlain)
    (hpattern : pattern.toList = written segments)
    (hpath : path.toList = written (segments.map (Segment.fill value?)))
    (h : ∀ name, .variable name ∈ segments → ∃ value, value? name = some value ∧ '/' ∉ value) :
    ∃ m, extract? pattern path = some m ∧ ∀ name : String, m.get? name =
      if .variable name.toList ∈ segments then
        (value? name.toList).map fun value => String.ofList (decode value)
      else none := by
  unfold extract? Pattern.match?
  rw [hpattern, hpath, Pattern.parse_written hplain, Pattern.bind?_merged h]
  refine ⟨_, rfl, fun name => ?_⟩
  rw [SortedMap.get?_ofList, List.map_map]
  split
  · next hmem =>
    obtain ⟨value, hvalue, -⟩ := h _ hmem
    rw [hvalue]
    -- A variable may occur twice, but then both places have the same value.
    apply SortedMap.findList?_eq_some
    · refine ⟨_, List.mem_reverse.2 (List.mem_map.2 ⟨_, Pattern.mem_names.2 hmem, rfl⟩), ?_⟩
      exact String.ofList_toList
    · intro e he hname
      obtain ⟨name', _, rfl⟩ := List.mem_map.1 (List.mem_reverse.1 he)
      have hname : name' = name.toList := by
        rw [← hname]
        exact String.toList_ofList.symm
      subst hname
      show String.ofList (decode ((value? name.toList).getD [])) = _
      rw [hvalue]
      rfl
  · next hmem =>
    apply SortedMap.findList?_eq_none_iff.2
    intro e he hname
    obtain ⟨name', hname', rfl⟩ := List.mem_map.1 (List.mem_reverse.1 he)
    apply hmem
    rw [← hname]
    show .variable (String.ofList name').toList ∈ segments
    rw [String.toList_ofList]
    exact Pattern.mem_names.1 hname'

end ApiDouble.Uri
