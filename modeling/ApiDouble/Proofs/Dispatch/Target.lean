import ApiDouble.Dispatch.Choice
import ApiDouble.Proofs.Uri.Instantiate

/-!
# Targets with a query

The first question mark of a target ends its path; what follows is its query. A pattern without
variables keeps its own query, and all parameters are appended to it.

An `&` is put between the two unless the pattern ends with one or with a question mark. That is
right for the question mark that starts the query (and for a second one, which is not read), but a
question mark can also end the last of the pattern's own arguments. Then the first parameter joins
that argument (`exists_parseQuery_append`).

Main result: `ofTarget_instantiate`.
-/

namespace ApiDouble.Dispatch

open Text Uri

/-! ## Path and query -/

theorem ofTarget_of_not_mem {path : List Char} (h : '?' ∉ path) {target : String} (method : String)
    (ht : target.toList = path) :
    (Request.ofTarget method target).path = String.ofList path ∧
      (Request.ofTarget method target).query = [] := by
  unfold Request.ofTarget
  rw [ht, splitOnce?_of_not_mem h]
  exact ⟨rfl, rfl⟩

theorem ofTarget_append_cons {path : List Char} (h : '?' ∉ path) {target : String}
    (method : String) {query : List Char} (ht : target.toList = path ++ '?' :: query) :
    (Request.ofTarget method target).path = String.ofList path ∧
      (Request.ofTarget method target).query = parseQuery query := by
  unfold Request.ofTarget
  rw [ht, splitOnce?_append h]
  exact ⟨rfl, rfl⟩

theorem ofTarget_append {path : List Char} (h : '?' ∉ path) {target : String} (method : String)
    {ps : List Parameter} (ht : target.toList = path ++ '?' :: queryText ps) :
    (Request.ofTarget method target).path = String.ofList path ∧
      (Request.ofTarget method target).query = ps := by
  rw [← parseQuery_queryText ps]
  exact ofTarget_append_cons h method ht

/-- The text of a target's query, without question marks before it. -/
def ownQuery (target : List Char) : List Char :=
  unmarked (((splitOnce? '?' target).map (·.2)).getD [])

theorem ownQuery_of_not_mem {target : List Char} (h : '?' ∉ target) : ownQuery target = [] := by
  rw [ownQuery, splitOnce?_of_not_mem h]
  rfl

theorem ownQuery_append_cons {path : List Char} (h : '?' ∉ path) (query : List Char) :
    ownQuery (path ++ '?' :: query) = unmarked query := by
  rw [ownQuery, splitOnce?_append h]
  rfl

/-! ## Parameters after a query -/

variable {ps : List Parameter} {s : List Char}

/-- What is put between a query and the parameters after it. -/
def separator (s : List Char) : List Char :=
  if s = [] ∨ s.getLast? = some '?' ∨ s.getLast? = some '&' then [] else ['&']

theorem appendQuery_append_cons (path : List Char) {text : List Char} (h : text ≠ []) :
    appendQuery (path ++ '?' :: s) text = path ++ '?' :: (s ++ (separator s ++ text)) := by
  have hmark : (path ++ '?' :: s).contains '?' = true := by simp
  have hlast : (path ++ '?' :: s).getLast? = if s = [] then some '?' else s.getLast? := by
    cases s <;> simp [List.getLast?_cons]
  unfold appendQuery separator
  rw [if_neg (by simpa using h), hmark, hlast]
  by_cases hs : s = []
  · simp [hs]
  · by_cases hend : s.getLast? = some '?' ∨ s.getLast? = some '&' <;> simp [hs, hend]

/-- After a query that does not end with a question mark the parameters are read as they are. -/
theorem parseQuery_append (h : (unmarked s).getLast? ≠ some '?') (ps : List Parameter) :
    parseQuery (s ++ (separator s ++ queryText ps)) = parseQuery s ++ ps := by
  by_cases hs : s = []
  · rw [hs]
    exact parseQuery_queryText ps
  rw [parseQuery_eq, parseQuery_eq, unmarked_append hs, separator]
  by_cases hnil : unmarked s = []
  · obtain rfl : s = ['?'] := (unmarked_eq_nil_iff.1 hnil).resolve_left hs
    exact arguments_queryText ps
  rw [← getLast?_unmarked hnil]
  -- Whether an `&` is put in between or one is there already, one is what divides the two.
  by_cases hend : (unmarked s).getLast? = some '&'
  · obtain ⟨front, hfront⟩ := List.getLast?_eq_some_iff.1 hend
    rw [if_pos (.inr (.inr hend)), hfront]
    calc arguments (front ++ ['&'] ++ ([] ++ queryText ps))
        = arguments (front ++ '&' :: queryText ps) := by simp
      _ = arguments front ++ ps := by rw [arguments_append, arguments_queryText]
      _ = arguments (front ++ ['&']) ++ ps := by
        rw [arguments_append, arguments_nil, List.append_nil]
  · rw [if_neg (by simp [hs, h, hend]), List.singleton_append, arguments_append,
      arguments_queryText]

/-- After a query that ends with a question mark the first parameter is lost: it is read as more
text of the query's last argument. -/
theorem exists_parseQuery_append (h : (unmarked s).getLast? = some '?') (p : Parameter)
    (ps : List Parameter) : ∃ before last, parseQuery s = before ++ [readArgument last] ∧
      parseQuery (s ++ (separator s ++ queryText (p :: ps))) =
        before ++ readArgument (last ++ argument p) :: ps := by
  have hnil : unmarked s ≠ [] := by
    rintro hnil
    simp [hnil] at h
  have hs : s ≠ [] := fun hs => hnil (unmarked_eq_nil_iff.2 (.inl hs))
  obtain ⟨before, last, hlast, hne, happend⟩ :=
    exists_arguments_append hnil (by simp [h])
  have hsep : separator s = [] := by rw [separator, ← getLast?_unmarked hnil, if_pos (by simp [h])]
  refine ⟨before, last, ?_, ?_⟩
  · have hown := happend []
    rwa [List.append_nil, List.append_nil, arguments_of_not_mem hlast hne] at hown
  · rw [parseQuery_eq, hsep, unmarked_append hs, List.nil_append, happend,
      arguments_append_queryText hlast]

/-! ## Patterns without variables -/

theorem fillColon?_eq_none_of_not_occurs {pattern : List Char}
    (h : occurs ['/', ':'] pattern = false) (name value : List Char) :
    fillColon? name value pattern = none := by
  induction pattern with
  | nil => rw [fillColon?]
  | cons c rest ih =>
    have hcolon : c = '/' → rest.head? ≠ some ':' := by
      rintro rfl hhead
      cases rest with
      | nil => cases hhead
      | cons d rest =>
        cases hhead
        rw [show '/' :: ':' :: rest = ['/', ':'] ++ rest from rfl, occurs_append] at h
        cases h
    have hrest : occurs ['/', ':'] rest = false := by
      rw [← Bool.not_eq_true, occurs_iff] at h ⊢
      rintro ⟨a, b, rfl⟩
      exact h ⟨c :: a, b, rfl⟩
    rw [fillColon?_cons hcolon, ih hrest]
    rfl

theorem foldl_add_of_no_variable {pattern : List Char} (hbrace : '{' ∉ pattern)
    (hcolon : occurs ['/', ':'] pattern = false) (ps query : List Parameter) :
    ps.foldl Filling.add ⟨pattern, query⟩ = ⟨pattern, query ++ ps⟩ := by
  induction ps generalizing query with
  | nil => rw [List.append_nil]; rfl
  | cons p ps ih =>
    have hnone : occurs ('{' :: p.name.toList ++ ['}']) pattern = false := by
      rw [occurs, breakAt?_eq_none (c := '{') (by simp) hbrace]
      rfl
    have hfill : fill? p.name.toList (encodePath p.value.toList) pattern = none := by
      simp only [fill?, hnone]
      exact fillColon?_eq_none_of_not_occurs hcolon _ _
    rw [List.foldl_cons, Filling.add]
    simp only [hfill]
    rw [ih, List.append_assoc]
    rfl

theorem toList_instantiate_of_no_variable {pattern : String} (hbrace : '{' ∉ pattern.toList)
    (hcolon : occurs ['/', ':'] pattern.toList = false) (ps : List Parameter) :
    (instantiate pattern ps).toList = appendQuery pattern.toList (queryText ps) := by
  unfold instantiate
  simp only [foldl_add_of_no_variable hbrace hcolon, List.nil_append, String.toList_ofList]

theorem target_cases (target : List Char) : '?' ∉ target ∨
    ∃ path query, target = path ++ '?' :: query ∧ '?' ∉ path := by
  by_cases h : '?' ∈ target
  · exact .inr (List.eq_append_cons_of_mem h)
  · exact .inl h

/-- **A pattern without variables keeps its path and its query, and the parameters follow them**
unchanged and in order, just if its query does not end with a question mark of its own. -/
theorem ofTarget_instantiate {pattern : String} (hbrace : '{' ∉ pattern.toList)
    (hcolon : occurs ['/', ':'] pattern.toList = false) (method : String) (ps : List Parameter) :
    (Request.ofTarget method (instantiate pattern ps)).path =
      (Request.ofTarget method pattern).path ∧
    ((Request.ofTarget method (instantiate pattern ps)).query =
        (Request.ofTarget method pattern).query ++ ps ↔
      ps = [] ∨ (ownQuery pattern.toList).getLast? ≠ some '?') := by
  have htarget := toList_instantiate_of_no_variable hbrace hcolon ps
  by_cases hps : ps = []
  · subst hps
    have hsame : instantiate pattern [] = pattern := String.toList_inj.1 htarget
    simp [hsame]
  have htext : queryText ps ≠ [] := mt queryText_eq_nil_iff.1 hps
  rcases target_cases pattern.toList with hmark | ⟨path, query, hpattern, hmark⟩
  · rw [appendQuery_of_not_mem hmark, if_neg htext] at htarget
    obtain ⟨hpath, hquery⟩ := ofTarget_of_not_mem hmark method rfl
    obtain ⟨hpath', hquery'⟩ := ofTarget_append hmark method htarget
    simp [hpath, hquery, hpath', hquery', ownQuery_of_not_mem hmark]
  · rw [hpattern, appendQuery_append_cons path htext] at htarget
    obtain ⟨hpath, hquery⟩ := ofTarget_append_cons hmark method hpattern
    obtain ⟨hpath', hquery'⟩ := ofTarget_append_cons hmark method htarget
    refine ⟨hpath'.trans hpath.symm, ?_⟩
    rw [hquery, hquery', hpattern, ownQuery_append_cons hmark, or_iff_right hps]
    -- A query that ends with a question mark has one argument fewer than it should, by counting.
    refine ⟨fun hsame hend => ?_, fun hend => parseQuery_append hend ps⟩
    obtain ⟨p, ps, rfl⟩ := List.exists_cons_of_ne_nil hps
    obtain ⟨before, last, hown, hlost⟩ := exists_parseQuery_append hend p ps
    have hlength := congrArg List.length hsame
    rw [hown, hlost] at hlength
    simp at hlength

/-- Names and values that are empty, repeated or hold what divides a query, behind a query that
starts with two question marks and ends with an `&`. -/
def pages : List Parameter := [⟨"", ""⟩, ⟨"q", "é&a=b ?"⟩, ⟨"q", "100%+"⟩, ⟨"sort", ""⟩]

theorem ofTarget_pages :
    (Request.ofTarget "get" (instantiate "/list??sort=asc&" pages)).path = "/list" ∧
    (Request.ofTarget "get" (instantiate "/list??sort=asc&" pages)).query =
      ⟨"sort", "asc"⟩ :: pages := by
  have hbrace : '{' ∉ "/list??sort=asc&".toList := by decide
  obtain ⟨hpath, hquery⟩ := ofTarget_instantiate hbrace (by decide +kernel) "get" pages
  have hown : (Request.ofTarget "get" "/list??sort=asc&").path = "/list" ∧
      (Request.ofTarget "get" "/list??sort=asc&").query = [⟨"sort", "asc"⟩] := by decide +kernel
  rw [hown.1] at hpath
  rw [hown.2] at hquery
  exact ⟨hpath, hquery.2 (.inr (by decide +kernel))⟩

/-- **A question mark at the end of a query takes the first parameter.** -/
theorem ofTarget_question :
    ('{' ∉ "/list?sort=asc?".toList ∧ occurs ['/', ':'] "/list?sort=asc?".toList = false) ∧
    (Request.ofTarget "GET" (instantiate "/list?sort=asc?" [⟨"page", "1"⟩])).query =
      [⟨"sort", "asc?page=1"⟩] ∧
    (Request.ofTarget "GET" (instantiate "/list?sort=asc?" [⟨"page", "1"⟩])).query ≠
      (Request.ofTarget "GET" "/list?sort=asc?").query ++ [⟨"page", "1"⟩] := by
  decide +kernel

end ApiDouble.Dispatch
