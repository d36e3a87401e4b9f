import ApiDouble.Proofs.Template.Expression
import ApiDouble.Template.Function
import Mathlib.Data.List.Basic

/-!
# Arguments in quotes

**Quotes keep a text as it is.** An argument can be put in quotes if there is a kind of quote that
it does not contain (`Quoted`). Whatever else it contains, the function that is called gets just
this text: a comma does not end the argument, a bracket or a parenthesis does not open or close
anything, blanks at the ends of the text stay, and the name of a variable is not looked up
(`evaluate_quoted`).

**The scan.** From the quote that opens an argument to the one that closes it, the scan adds every
character to what it has read, and then it stands where it stood before (`passed_inQuotes`). Blanks
around the quotes are added as well. So the scan ends an argument only at the commas that separate
two of them (`splitArguments_intercalate`).

**The call.** The parenthesis behind the name opens the arguments, and the last character of the
expression closes them. What stands between the two is not looked at until it is split.

Main results: `arguments_listing`, `evaluate_quoted`.
-/

namespace ApiDouble.Template

open Text

/-- An argument between quotes of a kind that it does not contain, with blanks around them. -/
structure Quoted where
  text : String
  quote : Char
  quoted : isQuote quote = true
  absent : quote ∉ text.toList
  before : List Char
  after : List Char
  blankBefore : allBlank before = true
  blankAfter : allBlank after = true

/-- An argument as it is written. -/
def Quoted.source (a : Quoted) : List Char := a.before ++ inQuotes a.quote a.text.toList ++ a.after

theorem exists_quoted {texts : List String}
    (h : ∀ text ∈ texts, ∃ q, isQuote q = true ∧ q ∉ text.toList) :
    ∃ args : List Quoted, args.map Quoted.text = texts := by
  induction texts with
  | nil => exact ⟨[], rfl⟩
  | cons text texts ih =>
    obtain ⟨⟨q, hquote, habsent⟩, htexts⟩ := List.forall_mem_cons.1 h
    obtain ⟨args, rfl⟩ := ih htexts
    exact ⟨⟨text, q, hquote, habsent, [], [], rfl, rfl⟩ :: args, rfl⟩

/-! ## Scanning an argument -/

/-- A text that the scan adds to the argument it is reading, without ending it and without staying
inside of quotes or brackets. -/
def Passed (s : List Char) : Prop :=
  ∀ current rest, splitArguments {} current (s ++ rest) = splitArguments {} (current ++ s) rest

theorem Passed.append {s t : List Char} (hs : Passed s) (ht : Passed t) : Passed (s ++ t) := by
  intro current rest
  rw [List.append_assoc, hs, ht, List.append_assoc]

theorem passed_cons {c : Char} (hc : c ≠ ',') (hnext : Nesting.next {} c = {}) {s : List Char}
    (hs : Passed s) : Passed (c :: s) := by
  intro current rest
  rw [List.cons_append, splitArguments, if_neg fun h => hc h.2, hnext, hs, List.append_assoc]
  rfl

theorem passed_of_allBlank {s : List Char} (h : allBlank s = true) : Passed s := by
  induction s with
  | nil =>
    intro current rest
    rw [List.nil_append, List.append_nil]
  | cons c s ih =>
    obtain ⟨hc, hs⟩ := Bool.and_eq_true_iff.1 h
    -- None of the characters that the scan heeds is a blank.
    have hne : ∀ d, isBlank d = false → c ≠ d := by
      rintro d hd rfl
      rw [hc] at hd
      cases hd
    have hquote : isQuote c = false := by
      simp [isQuote, hne '\'' (by decide), hne '"' (by decide)]
    refine passed_cons (hne ',' (by decide)) ?_ (ih hs)
    simp [Nesting.next, hquote, hne '[' (by decide), hne '(' (by decide), hne ']' (by decide),
      hne ')' (by decide)]

/-- Inside quotes every character is added, up to the next quote of the same kind. -/
theorem splitArguments_in {q : Char} {text : List Char} (h : q ∉ text)
    (current rest : List Char) :
    splitArguments { quote := some q } current (text ++ q :: rest) =
      splitArguments {} (current ++ text ++ [q]) rest := by
  induction text generalizing current with
  | nil =>
    rw [List.nil_append, splitArguments, if_neg (by simp [Nesting.isOutside]), List.append_nil]
    simp [Nesting.next]
  | cons c text ih =>
    obtain ⟨hc, htext⟩ := List.ne_and_not_mem_of_not_mem_cons h
    have hnext : Nesting.next { quote := some q } c = { quote := some q } :=
      if_neg (Ne.symm hc)
    rw [List.cons_append, splitArguments, if_neg (by simp [Nesting.isOutside]), hnext,
      ih htext, List.append_assoc current]
    rfl

/-- What stands in quotes is passed, whatever it is. -/
theorem passed_inQuotes {q : Char} (hq : isQuote q = true) {text : List Char} (h : q ∉ text) :
    Passed (inQuotes q text) := by
  intro current rest
  have hcomma : q ≠ ',' := by
    rintro rfl
    cases hq
  have hopen : Nesting.next {} q = { quote := some q } := if_pos hq
  rw [inQuotes, List.append_assoc, List.cons_append, splitArguments,
    if_neg fun hsep => hcomma hsep.2, hopen]
  show splitArguments _ _ (text ++ q :: rest) = _
  rw [splitArguments_in h, List.append_assoc, List.append_assoc]
  rfl

theorem Quoted.passed (a : Quoted) : Passed a.source :=
  ((passed_of_allBlank a.blankBefore).append (passed_inQuotes a.quoted a.absent)).append
    (passed_of_allBlank a.blankAfter)

/-- Splitting undoes joining where every part is passed. -/
theorem splitArguments_intercalate {p : List Char} {ps : List (List Char)}
    (h : ∀ x ∈ p :: ps, Passed x) :
    splitArguments {} [] ([','].intercalate (p :: ps)) = p :: ps := by
  induction ps generalizing p with
  | nil =>
    have hp := h p List.mem_cons_self [] []
    rw [List.append_nil] at hp
    rw [List.intercalate_singleton, hp]
    rfl
  | cons p' ps ih =>
    obtain ⟨hp, hps⟩ := List.forall_mem_cons.1 h
    rw [List.intercalate_cons_cons, List.append_assoc, hp, List.singleton_append, splitArguments,
      if_pos ⟨rfl, rfl⟩, ih hps]
    rfl

/-! ## Reading an argument -/

theorem Quoted.trim_source (a : Quoted) : trim a.source = inQuotes a.quote a.text.toList :=
  trim_surrounded a.blankBefore a.blankAfter (isBlank_of_isQuote a.quoted)
    (isBlank_of_isQuote a.quoted) _

theorem Quoted.argument_trim (ctx : Context) (a : Quoted) :
    argument ctx (trim a.source) = some a.text := by
  rw [a.trim_source, argument, unquoted?_inQuotes a.quoted]
  exact congrArg some String.ofList_toList

/-! ## The arguments of a call -/

/-- What stands between the parentheses of a call: its arguments between commas, or blanks alone if
it has none. -/
def listing (gap : List Char) : List Quoted → List Char
  | [] => gap
  | a :: args => [','].intercalate ((a :: args).map Quoted.source)

theorem exists_listing_cons (gap : List Char) (a : Quoted) (args : List Quoted) :
    ∃ rest, listing gap (a :: args) = a.source ++ rest := by
  cases args with
  | nil =>
    refine ⟨[], ?_⟩
    rw [List.append_nil, listing, List.map_singleton, List.intercalate_singleton]
  | cons b args =>
    refine ⟨[','] ++ [','].intercalate ((b :: args).map Quoted.source), ?_⟩
    rw [listing, List.map_cons, List.map_cons, List.intercalate_cons_cons, List.append_assoc]

theorem listing_not_allBlank (gap : List Char) (a : Quoted) (args : List Quoted) :
    ¬allBlank (listing gap (a :: args)) = true := by
  intro hblank
  obtain ⟨rest, hrest⟩ := exists_listing_cons gap a args
  have hmem : a.quote ∈ listing gap (a :: args) := by
    simp [hrest, Quoted.source, inQuotes]
  have hquote := List.all_eq_true.1 hblank _ hmem
  rw [isBlank_of_isQuote a.quoted] at hquote
  cases hquote

/-- **The arguments are read one by one.** -/
theorem arguments_listing {gap : List Char} (hgap : allBlank gap = true) (args : List Quoted) :
    arguments (listing gap args) = args.map fun a => trim a.source := by
  cases args with
  | nil => exact if_pos hgap
  | cons a args =>
    have hpassed : ∀ x ∈ (a :: args).map Quoted.source, Passed x := by
      intro x hx
      obtain ⟨b, -, rfl⟩ := List.mem_map.1 hx
      exact b.passed
    rw [arguments, if_neg (listing_not_allBlank gap a args), listing, List.map_cons,
      splitArguments_intercalate hpassed, ← List.map_cons, List.map_map]
    rfl

/-! ## The call -/

variable {m : Type → Type} [Monad m]

/-- **A function gets the texts that its call has in quotes**, in their order and unchanged. -/
theorem evaluate_quoted {fs : Functions m} {name : String} {f : Function m}
    (hname : IsIdentifier name) (hf : fs name = some f) (ctx : Context) {texts : List String}
    (htexts : ∀ text ∈ texts, ∃ q, isQuote q = true ∧ q ∉ text.toList) :
    (∃ args : List Quoted, args.map Quoted.text = texts) ∧
      ∀ args : List Quoted, args.map Quoted.text = texts → ∀ gap, allBlank gap = true →
        evaluate fs ctx (callText name (listing gap args)) = f (texts.map some) := by
  refine ⟨exists_quoted htexts, fun args hargs gap hgap => ?_⟩
  have hvalues : (args.map fun a => trim a.source).map (argument ctx) = texts.map some := by
    rw [← hargs, List.map_map, List.map_map]
    exact List.map_congr_left fun a _ => a.argument_trim ctx
  rw [evaluate, hname.parse_callText, arguments_listing hgap, Expression.eval,
    String.ofList_toList, hf]
  exact congrArg f hvalues

/-- Variables one of which has the name that stands in quotes below. -/
def pathOnly : Context :=
  (SortedMap.empty : Context).insert "request" (.object [("path", .string "/pets")])

theorem evaluate_default_quoted :
    IsIdentifier "default" ∧ standardFunctions "default" = some orDefault ∧
      (∀ text ∈ ["", "request.path, \"now("], ∃ q, isQuote q = true ∧ q ∉ text.toList) ∧
      evaluate standardFunctions pathOnly "default( \"\" ,'request.path, \"now(' )".toList =
        pure (.ok "request.path, \"now(") := by
  have hname : IsIdentifier "default" := ⟨'d', "efault".toList, rfl, rfl, by simp [isNameChar]⟩
  have htexts : ∀ text ∈ ["", "request.path, \"now("],
      ∃ q, isQuote q = true ∧ q ∉ text.toList := by
    refine List.forall_mem_cons.2 ⟨⟨'"', rfl, by decide⟩, ?_⟩
    exact List.forall_mem_singleton.2 ⟨'\'', rfl, by decide⟩
  have hf : standardFunctions "default" = some orDefault := rfl
  refine ⟨hname, hf, htexts, ?_⟩
  have hcall := (evaluate_quoted hname hf pathOnly htexts).2
    [⟨"", '"', rfl, by decide, [' '], [' '], rfl, rfl⟩,
      ⟨"request.path, \"now(", '\'', rfl, by decide, [], [' '], rfl, rfl⟩] rfl [] rfl
  exact hcall

end ApiDouble.Template
