import ApiDouble.Proofs.Template.Expression
import ApiDouble.Proofs.Text.Search

/-!
# References to parameters

**The steps of a reference.** A reference is read from left to right. A key behind a point goes on
to the next point, bracket or slash; a key in brackets goes on to the first closing bracket, and the
blanks and quotes around it are dropped; from a slash on everything is one pointer (`accesses_dot`,
`accesses_bracket`, `accesses_pointer`).

**Quotes do not protect a bracket.** So a parameter is found under its name in quotes whatever is in
the name, except for a closing bracket (`lookup_param`). The key then ends at that bracket, though
its quote is still open, and the rest of the name is read as more steps. These lead nowhere in the
text of a parameter, unless a slash comes first: it makes a pointer of the rest, which may find
something if another parameter has the shorter name and is JSON (`Strays`).

Main results: `value_inBrackets`, `lookup_param`, `lookup_ids`.
-/

namespace ApiDouble.Template

open Text

/-! ## The steps of a reference -/

section Steps

variable {key rest : List Char}

theorem takeWhile_stop (hkey : ∀ c ∈ key, isStop c = false)
    (hrest : ∀ c ∈ rest.head?, isStop c = true) :
    (key ++ rest).takeWhile (!isStop ·) = key ∧ (key ++ rest).dropWhile (!isStop ·) = rest := by
  have hgoes : ∀ c ∈ key, (!isStop c) = true := fun c hc => by rw [hkey c hc]; rfl
  have hstops : ∀ c ∈ rest.head?, (!isStop c) = false := fun c hc => by rw [hrest c hc]; rfl
  exact ⟨takeWhile_run hgoes hstops, dropWhile_run hgoes hstops⟩

theorem accesses_dot (hkey : ∀ c ∈ key, isStop c = false)
    (hrest : ∀ c ∈ rest.head?, isStop c = true) :
    accesses ('.' :: (key ++ rest)) = .child key :: accesses rest := by
  obtain ⟨htake, hdrop⟩ := takeWhile_stop hkey hrest
  rw [accesses, htake, hdrop]

/-- The first closing bracket ends the key, whether or not its quotes are closed. -/
theorem accesses_bracket (hkey : ']' ∉ key) :
    accesses ('[' :: (key ++ ']' :: rest)) = .child (bareKey key) :: accesses rest := by
  have hbreak : breakAt? [']'] (key ++ ']' :: rest) = some (key, rest) :=
    splitOnce?_append hkey rest
  rw [accesses]
  split
  · next hnone => rw [hbreak] at hnone; cases hnone
  · next hsome =>
    rw [hbreak] at hsome
    cases hsome
    rfl

theorem accesses_pointer {c : Char} (hdot : c ≠ '.') (hbracket : c ≠ '[') :
    accesses (c :: rest) = [.pointer (c :: rest)] := by
  rw [accesses]
  · exact fun h => List.cons_ne_nil c rest h
  · exact fun _ h => hdot (List.cons.inj h).1
  · exact fun _ h => hbracket (List.cons.inj h).1

end Steps

/-! ## Keys in quotes -/

theorem dropWhile_isQuote {s : List Char} (h : ∀ c ∈ s, isQuote c = false) :
    s.dropWhile isQuote = s := by
  cases s with
  | nil => rfl
  | cons c s => exact List.dropWhile_cons_of_neg (by simpa using h c List.mem_cons_self)

theorem bareKey_of_trim {s key : List Char} (htrim : (trim s).dropWhile isQuote = key)
    (h : ∀ c ∈ key, isQuote c = false) : bareKey s = key := by
  rw [bareKey, htrim, dropWhile_isQuote fun c hc => h c (List.mem_reverse.1 hc),
    List.reverse_reverse]

section Quotes

variable {q : Char} {key : List Char}

theorem bareKey_inQuotes (hq : isQuote q = true) (h : ∀ c ∈ key, isQuote c = false) :
    bareKey (inQuotes q key) = key := by
  have hopen : (inQuotes q key).dropWhile isQuote = (key ++ [q]).dropWhile isQuote :=
    List.dropWhile_cons_of_pos hq
  rw [bareKey, trim_inQuotes hq, hopen]
  cases key with
  | nil =>
    rw [List.nil_append, List.dropWhile_cons_of_pos hq]
    rfl
  | cons c key =>
    have hc : ¬isQuote c = true := by simp [h c List.mem_cons_self]
    rw [List.cons_append, List.dropWhile_cons_of_neg hc, ← List.cons_append, List.reverse_append,
      List.reverse_singleton, List.singleton_append, List.dropWhile_cons_of_pos hq,
      dropWhile_isQuote fun d hd => h d (List.mem_reverse.1 hd), List.reverse_reverse]

/-- If the quote is never closed, the blanks at the end of the key are lost. -/
theorem bareKey_opened (hq : isQuote q = true) (h : ∀ c ∈ key, isQuote c = false) :
    bareKey (q :: key) = dropEndBlanks key := by
  have hblank := isBlank_of_isQuote hq
  have htrim : trim (q :: key) = q :: dropEndBlanks key := by
    rw [trim, dropBlanks_eq_self (unled_cons hblank key), dropEndBlanks_cons hblank]
  have hkey : ∀ c ∈ dropEndBlanks key, isQuote c = false := fun c hc =>
    h c ((append_dropEndBlanks key).subset hc)
  refine bareKey_of_trim ?_ hkey
  rw [htrim, List.dropWhile_cons_of_pos hq, dropWhile_isQuote hkey]

end Quotes

/-! ## The value of a reference -/

section Value

variable {ctx : Context} {reference : String} {root rest : List Char} {d : Document}

theorem value_of_get? (htext : reference.toList = root ++ rest)
    (hroot : ∀ c ∈ root, isStop c = false) (hrest : ∀ c ∈ rest.head?, isStop c = true)
    (hd : ctx.get? (String.ofList root) = some d) :
    ctx.value reference = walk reference (accesses rest) d := by
  obtain ⟨htake, hdrop⟩ := takeWhile_stop hroot hrest
  rw [Context.value, Context.rootOf, htext, htake, hdrop, hd]

theorem value_inBrackets {v : RequestView} {part key : List Char}
    (htext : reference.toList = "request".toList ++ '.' :: (part ++ '[' :: (key ++ ']' :: rest)))
    (hpart : ∀ c ∈ part, isStop c = false) (hd : child? (String.ofList part) v.document = some d)
    (hkey : ']' ∉ key) :
    (Context.ofRequest v).value reference =
      walk reference (.child (bareKey key) :: accesses rest) d := by
  have hget : (Context.ofRequest v).get? (String.ofList "request".toList) = some v.document := by
    rw [String.ofList_toList]
    exact SortedMap.get?_insert_self
  rw [value_of_get? htext (by simp [isStop]) (by simp [isStop]) hget,
    accesses_dot hpart (by simp [isStop]), accesses_bracket hkey, walk, hd]

theorem lookup_of_ok (h : ctx.value reference = .ok d) :
    ctx.lookup reference = if d.isNull then .error (.unresolved reference) else .ok d.text := by
  rw [Context.lookup, h]
  rfl

theorem lookup_of_error {e : EvalError} (h : ctx.value reference = .error e) :
    ctx.lookup reference = .error e := by
  rw [Context.lookup, h]
  rfl

theorem lookup_eq_ok_iff {text : String} :
    ctx.lookup reference = .ok text ↔
      ∃ d, ctx.value reference = .ok d ∧ d.isNull = false ∧ d.text = text := by
  cases hvalue : ctx.value reference with
  | error e =>
    rw [lookup_of_error hvalue]
    refine iff_of_false (fun h => ?_) fun ⟨d, hd, _⟩ => ?_
    · cases h
    · cases hd
  | ok d =>
    rw [lookup_of_ok hvalue]
    cases hnull : d.isNull with
    | true =>
      refine iff_of_false (fun h => ?_) fun ⟨d', hd, hnull', _⟩ => ?_
      · cases h
      · cases hd
        rw [hnull] at hnull'
        cases hnull'
    | false =>
      refine ⟨fun h => ⟨d, rfl, hnull, Except.ok.inj h⟩, fun ⟨d', hd, _, htext⟩ => ?_⟩
      cases hd
      exact congrArg Except.ok htext

theorem eq_unresolved_of_lookup {e : EvalError}
    (h : ∀ e, ctx.value reference = .error e → e = .unresolved reference)
    (he : ctx.lookup reference = .error e) : e = .unresolved reference := by
  cases hvalue : ctx.value reference with
  | error cause =>
    rw [lookup_of_error hvalue] at he
    rw [← Except.error.inj he]
    exact h cause hvalue
  | ok d =>
    rw [lookup_of_ok hvalue] at he
    split at he
    · cases he
      rfl
    · cases he

end Value

/-! ## Maps of texts -/

theorem valueOf?_texts (es : List (String × String)) (key : String) :
    Document.valueOf? key (es.map fun e => (e.1, Document.string e.2)) =
      (SortedMap.findList? key es).map .string := by
  induction es with
  | nil => rfl
  | cons e es ih =>
    rw [List.map_cons, Document.valueOf?, SortedMap.findList?]
    by_cases he : e.1 = key
    · rw [if_pos he, if_pos (Std.compare_eq_iff_eq.2 he.symm)]
      rfl
    · rw [if_neg he, if_neg fun hc => he (Std.compare_eq_iff_eq.1 hc).symm]
      exact ih

theorem child?_texts (m : SortedMap String String) (key : String) :
    child? key (texts m) =
      ((m.get? key).or ((m.toList.find? fun e => sameName e.1 key).map (·.2))).map .string := by
  rw [texts, child?, valueOf?_texts, List.find?_map, Option.map_map, Option.map_or, Option.map_map]
  rfl

theorem at?_eq_none {c : Char} (h : c ≠ '/') (s : List Char) (d : Document) :
    d.at? (c :: s) = none := by
  have hnone : Document.pointerSteps? (c :: s) = none := by
    rw [Document.pointerSteps?]
    · exact fun hs => List.cons_ne_nil c s hs
    · exact fun _ hs => h (List.cons.inj hs).1
  rw [Document.at?, hnone]
  rfl

theorem pointed?_eq_none {c : Char} (h : c ≠ '/') {s : List Char} {d : Document} :
    pointed? (c :: s) d = none := by
  cases d with
  | string source =>
    rw [pointed?]
    exact Option.bind_eq_none_iff.2 fun d _ => at?_eq_none h s d
  | _ => exact at?_eq_none h s _

/-- A text has no members. All steps in it lead nowhere but a pointer, which reads it as JSON. -/
theorem walk_string {reference source : String} {steps : List Char} (hclosed : ']' ∈ steps) :
    walk reference (accesses steps) (.string source) =
      match pointed? steps (.string source) with
      | some d => .ok d
      | none => .error (.unresolved reference) := by
  cases steps with
  | nil => cases hclosed
  | cons c steps =>
    -- Points and brackets lead to members, and a text has none.
    by_cases hdot : c = '.'
    · subst hdot
      rw [pointed?_eq_none (by decide), accesses]
      rfl
    · by_cases hbracket : c = '['
      · subst hbracket
        have hclosed : ']' ∈ steps := List.mem_of_ne_of_mem (by decide) hclosed
        obtain ⟨key, rest, hsteps, hkey⟩ := List.eq_append_cons_of_mem hclosed
        rw [pointed?_eq_none (by decide), hsteps, accesses_bracket hkey]
        rfl
      · rw [accesses_pointer hdot hbracket, walk]
        rfl

theorem child?_texts_eq_string {m : SortedMap String String} {key : String} {d : Document}
    (h : child? key (texts m) = some d) : ∃ source, d = .string source := by
  rw [child?_texts] at h
  obtain ⟨source, -, hd⟩ := Option.map_eq_some_iff.1 h
  exact ⟨source, hd.symm⟩

/-! ## Parameters -/

/-- The expression for a parameter. -/
def paramReference (name : String) : String := "request.params['" ++ name ++ "']"

/-- The texts that stand for a parameter whose name has a closing bracket: if a slash follows the
bracket, another parameter with the name before it is read as JSON, and what stands behind is a
pointer into it. -/
def Strays (params : SortedMap String String) (name text : String) : Prop :=
  ∃ key pointer place,
    name.toList = key ++ ']' :: '/' :: pointer ∧ ']' ∉ key ∧
      (child? (String.ofList (dropEndBlanks key)) (texts params)).bind
        (pointed? ('/' :: pointer ++ ['\'', ']'])) = some place ∧
      place.isNull = false ∧ place.text = text

theorem toList_paramReference (name : String) :
    (paramReference name).toList = "request".toList ++
      '.' :: ("params".toList ++ '[' :: (inQuotes '\'' name.toList ++ [']'])) := by
  show ("request.params['" ++ name ++ "']").toList = _
  rw [String.toList_append, String.toList_append]
  simp [inQuotes]

theorem parse_paramReference (name : String) :
    Expression.parse (paramReference name).toList = .reference (paramReference name).toList := by
  rw [toList_paramReference]
  refine parse_reference (List.cons_ne_nil _ _) (by simp [isNameChar]) rfl ?_
  simpa using unled_cons (by decide) _

theorem evaluate_paramReference {m : Type → Type} [Monad m] (fs : Functions m) (ctx : Context)
    (name : String) :
    evaluate fs ctx (paramReference name).toList = pure (ctx.lookup (paramReference name)) := by
  rw [evaluate, parse_paramReference, Expression.eval, String.ofList_toList]

section Parameter

variable {v : RequestView} {name : String}

theorem value_paramReference (hquote : ∀ c ∈ name.toList, isQuote c = false)
    (hbracket : ']' ∉ name.toList) :
    (Context.ofRequest v).value (paramReference name) =
      match child? name (texts v.params) with
      | some d => .ok d
      | none => .error (.unresolved (paramReference name)) := by
  have hkey : ']' ∉ inQuotes '\'' name.toList := by simp [inQuotes, hbracket]
  have hchild : child? (String.ofList "params".toList) v.document = some (texts v.params) := rfl
  rw [value_inBrackets (toList_paramReference name) (by simp [isStop]) hchild hkey,
    bareKey_inQuotes rfl hquote, walk, String.ofList_toList, accesses]
  rfl

/-- The first closing bracket in the name of a parameter ends the key. -/
theorem value_paramReference_of_bracket {key rest : List Char}
    (hquote : ∀ c ∈ name.toList, isQuote c = false) (hname : name.toList = key ++ ']' :: rest)
    (hkey : ']' ∉ key) :
    (Context.ofRequest v).value (paramReference name) =
      match (child? (String.ofList (dropEndBlanks key)) (texts v.params)).bind
        (pointed? (rest ++ ['\'', ']'])) with
      | some place => .ok place
      | none => .error (.unresolved (paramReference name)) := by
  have htext : (paramReference name).toList = "request".toList ++
      '.' :: ("params".toList ++ '[' :: ('\'' :: key ++ ']' :: (rest ++ ['\'', ']']))) := by
    rw [toList_paramReference, hname]
    simp [inQuotes]
  have hbracket : ']' ∉ '\'' :: key := List.not_mem_cons_of_ne_of_not_mem (by decide) hkey
  have hfree : ∀ c ∈ key, isQuote c = false := fun c hc =>
    hquote c (hname ▸ List.mem_append_left _ hc)
  have hparams : child? (String.ofList "params".toList) v.document = some (texts v.params) := rfl
  rw [value_inBrackets htext (by simp [isStop]) hparams hbracket, bareKey_opened rfl hfree, walk]
  cases hchild : child? (String.ofList (dropEndBlanks key)) (texts v.params) with
  | none => rfl
  | some d =>
    obtain ⟨source, rfl⟩ := child?_texts_eq_string hchild
    exact walk_string (List.mem_append_right rest (by decide))

theorem Strays.mem {params : SortedMap String String} {text : String}
    (h : Strays params name text) : ']' ∈ name.toList := by
  obtain ⟨key, pointer, -, hname, -⟩ := h
  rw [hname]
  exact List.mem_append_right key List.mem_cons_self

/-- The key and the steps behind it are those at the first bracket of the name. -/
theorem strays_iff {params : SortedMap String String} {key rest : List Char} {text : String}
    (hname : name.toList = key ++ ']' :: rest) (hkey : ']' ∉ key) :
    Strays params name text ↔
      ∃ place, (child? (String.ofList (dropEndBlanks key)) (texts params)).bind
          (pointed? (rest ++ ['\'', ']'])) = some place ∧
        place.isNull = false ∧ place.text = text := by
  constructor
  · rintro ⟨key', pointer, place, hname', hkey', hplace⟩
    have hcut : some (key', '/' :: pointer) = some (key, rest) := by
      rw [← splitOnce?_append hkey, ← hname, hname', splitOnce?_append hkey']
    cases hcut
    exact ⟨place, hplace⟩
  · rintro ⟨place, hplace, htext⟩
    obtain ⟨d, -, hpointed⟩ := Option.bind_eq_some_iff.1 hplace
    -- What follows the bracket is read as a pointer, which leads nowhere unless it starts with a
    -- slash.
    have hslash : ∀ c s, rest ++ ['\'', ']'] = c :: s → c = '/' := by
      intro c s hrest
      by_contra hc
      rw [hrest, pointed?_eq_none hc] at hpointed
      cases hpointed
    cases rest with
    | nil => exact absurd (hslash _ _ rfl) (by decide)
    | cons c pointer =>
      obtain rfl := hslash c _ rfl
      exact ⟨key, pointer, place, hname, hkey, hplace, htext⟩

/-- **A parameter is found under its name in quotes**, unless the name has a closing bracket. -/
theorem lookup_param {m : Type → Type} [Monad m] (fs : Functions m) (v : RequestView)
    {name value : String} (h : (name, value) ∈ v.params.toList)
    (hquote : ∀ c ∈ name.toList, isQuote c = false) :
    ∃ seen, evaluate fs (Context.ofRequest v) (paramReference name).toList = pure seen ∧
      (∀ text, seen = .ok text ↔
        ']' ∉ name.toList ∧ text = value ∨ Strays v.params name text) ∧
      ∀ e, seen = .error e → e = .unresolved (paramReference name) := by
  refine ⟨_, evaluate_paramReference fs _ name, ?_⟩
  -- Only a closing bracket in the name can end the key before its quote.
  by_cases hbracket : ']' ∈ name.toList
  · obtain ⟨key, rest, hname, hkey⟩ := List.eq_append_cons_of_mem hbracket
    have hvalue := value_paramReference_of_bracket (v := v) hquote hname hkey
    refine ⟨fun text => ?_, fun e => eq_unresolved_of_lookup fun e he => ?_⟩
    · have hnot : ¬(']' ∉ name.toList ∧ text = value) := fun hc => hc.1 hbracket
      rw [lookup_eq_ok_iff, or_iff_right hnot, strays_iff hname hkey, hvalue]
      refine exists_congr fun place => and_congr_left fun _ => ?_
      cases (child? (String.ofList (dropEndBlanks key)) (texts v.params)).bind
        (pointed? (rest ++ ['\'', ']'])) <;> simp
    · rw [hvalue] at he
      split at he
      · cases he
      · exact (Except.error.inj he).symm
  · have hchild : child? name (texts v.params) = some (.string value) := by
      rw [child?_texts, SortedMap.get?_eq_some_iff.2 h]
      rfl
    have hvalue := value_paramReference (v := v) hquote hbracket
    rw [hchild] at hvalue
    rw [lookup_of_ok hvalue]
    refine ⟨fun text => ⟨fun heq => .inl ⟨hbracket, (Except.ok.inj heq).symm⟩, ?_⟩, ?_⟩
    · rintro (⟨-, rfl⟩ | hstrays)
      · rfl
      · exact absurd hstrays.mem hbracket
    · intro e he
      cases he

/-- The name of one parameter, and then a place in the text of another. -/
example : Strays (SortedMap.ofList [("a", "\x7b\"b']\":1\x7d"), ("a]/b", "2")]) "a]/b" "1" :=
  ⟨['a'], ['b'], .number (.integer 1), rfl, by decide, by cbv, rfl, by decide +kernel⟩

end Parameter

/-- A request with two parameters whose names have brackets. -/
def queried : RequestView :=
  ⟨none, "/items", "GET", .empty, SortedMap.ofList [("by[a/b.c ", "old"), ("ids[]", "7")]⟩

theorem lookup_by :
    ("by[a/b.c ", "old") ∈ queried.params.toList ∧
      (∀ c ∈ "by[a/b.c ".toList, isQuote c = false) ∧
      evaluate (m := Id) (fun _ => none) (Context.ofRequest queried)
          "request.params['by[a/b.c ']".toList =
        .ok "old" := by
  have hmem : ("by[a/b.c ", "old") ∈ queried.params.toList := by decide +kernel
  have hquote : ∀ c ∈ "by[a/b.c ".toList, isQuote c = false := by simp [isQuote]
  obtain ⟨seen, heval, htext, -⟩ := lookup_param (m := Id) (fun _ => none) queried hmem hquote
  refine ⟨hmem, hquote, heval.trans ?_⟩
  exact (htext "old").2 (.inl ⟨by decide, rfl⟩)

/-- **A name with a closing bracket is cut off at it.** -/
theorem lookup_ids :
    ("ids[]", "7") ∈ queried.params.toList ∧
      (∀ c ∈ "ids[]".toList, isQuote c = false) ∧
      evaluate (m := Id) (fun _ => none) (Context.ofRequest queried)
          "request.params['ids[]']".toList =
        .error (.unresolved "request.params['ids[]']") := by
  have hquote : ∀ c ∈ "ids[]".toList, isQuote c = false := by simp [isQuote]
  have hchild : child? (String.ofList (dropEndBlanks "ids[".toList)) (texts queried.params) =
      none := by
    decide +kernel
  have hname : "ids[]".toList = "ids[".toList ++ ']' :: [] := rfl
  have hvalue := value_paramReference_of_bracket (v := queried) hquote hname (by decide)
  rw [hchild] at hvalue
  refine ⟨by decide +kernel, hquote, (evaluate_paramReference _ _ "ids[]").trans ?_⟩
  exact lookup_of_error hvalue

end ApiDouble.Template
