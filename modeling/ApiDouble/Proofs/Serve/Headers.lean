import ApiDouble.Proofs.Dispatch.Choice
import ApiDouble.Proofs.Serve.View
import ApiDouble.Proofs.Template.Reference

/-!
# What templates see of the headers

**Two ways to look up a header.** Dispatching takes the first header of a request that has a name,
whatever its case. Templates see a map that has one text under each spelling, that of the last
header spelled so. They look for the spelling they were given, and if it is missing for the first
one in order that differs only in case (`IsShown`).

**When they agree** (`lookup_header`). Both find something for the same names. They find the same
text if all headers of the name have it, as they do if there is one of them. If the name is
repeated, the exchange may be chosen by one text and rendered with another (`lookup_traces`).

Main results: `mem_headers_view`, `lookup_header`.
-/

namespace ApiDouble.Serve

open Text Template Dispatch

/-- A name that can stand between brackets as it is. -/
structure IsBare (name : String) : Prop where
  unbracketed : ∀ c ∈ name.toList, c ≠ '[' ∧ c ≠ ']'
  unquoted : ∀ c ∈ name.toList, isQuote c = false
  trimmed : trim name.toList = name.toList

/-- The expression for a header. -/
def headerReference (name : String) : String := "request.headers[" ++ name ++ "]"

/-- The header that templates see under a name: the last one of its spelling. The spelling is that
of the name if some header has it, and otherwise the first in order of those that differ in case. -/
structure IsShown (hs : List Header) (name : String) (h : Header) : Prop where
  last : IsFirst (·.name = h.name) hs.reverse h
  named : sameName h.name name = true
  spelled : ∀ g ∈ hs, sameName g.name name = true →
    h.name = name ∨ g.name ≠ name ∧ (compare h.name g.name).isLE = true

section Shown

variable {hs : List Header} {name : String} {h h' : Header}

theorem IsShown.mem (hh : IsShown hs name h) : h ∈ hs := List.mem_reverse.1 hh.last.mem

theorem IsShown.sameSpelling (hh : IsShown hs name h) (hh' : IsShown hs name h') :
    h.name = h'.name := by
  rcases hh.spelled h' hh'.mem hh'.named with hname | ⟨hother, hle⟩
  · rcases hh'.spelled h hh.mem hh.named with hname' | ⟨hother', -⟩
    · rw [hname, hname']
    · exact absurd hname hother'
  · rcases hh'.spelled h hh.mem hh.named with hname' | ⟨-, hle'⟩
    · exact absurd hname' hother
    · exact Std.LawfulEqOrd.eq_of_compare (Std.OrientedCmp.isLE_antisymm hle hle')

/-- At most one header is shown. -/
theorem IsShown.unique (hh : IsShown hs name h) (hh' : IsShown hs name h') : h = h' := by
  have hlast := hh'.last
  rw [← hh.sameSpelling hh'] at hlast
  exact hh.last.unique hlast

end Shown

/-! ## The map of headers -/

variable {r : Request} {found : SortedMap String String} {name : String}

theorem findList?_map_joined (hs : List Header) (spelling : String) :
    SortedMap.findList? spelling (hs.map fun h => (h.name, h.joined)) =
      (hs.find? fun h => h.name == spelling).map Header.joined := by
  induction hs with
  | nil => rfl
  | cons h hs ih =>
    rw [List.map_cons, SortedMap.findList?, List.find?_cons]
    by_cases hs : h.name = spelling
    · rw [if_pos (Std.compare_eq_iff_eq.2 hs.symm), beq_iff_eq.2 hs]
      rfl
    · rw [if_neg fun he => hs (Std.compare_eq_iff_eq.1 he).symm, beq_false_of_ne hs]
      exact ih

/-- **Under each spelling templates see the last header that has it.** -/
theorem mem_headers_view {spelling text : String} :
    (spelling, text) ∈ (view r found).headers.toList ↔
      ∃ h, IsFirst (·.name = spelling) r.headers.reverse h ∧ h.joined = text := by
  rw [← SortedMap.get?_eq_some_iff]
  show (SortedMap.ofList (r.headers.map fun h => (h.name, h.joined))).get? spelling = _ ↔ _
  rw [SortedMap.get?_ofList, ← List.map_reverse, findList?_map_joined, Option.map_eq_some_iff]
  constructor
  · rintro ⟨h, hfind, hjoined⟩
    exact ⟨h, isFirst_of_find? hfind fun g => beq_iff_eq, hjoined⟩
  · rintro ⟨h, hfirst, hjoined⟩
    refine ⟨h, ?_, hjoined⟩
    obtain ⟨hname, before, after, hsplit, hbefore⟩ := hfirst
    rw [List.find?_eq_some_iff_append]
    exact ⟨beq_iff_eq.2 hname, before, after, hsplit, fun g hg => by simpa using hbefore g hg⟩

theorem exists_entry_of_mem (found : SortedMap String String) {h : Header} (hh : h ∈ r.headers) :
    ∃ text, (h.name, text) ∈ (view r found).headers.toList := by
  cases hfind : r.headers.reverse.find? fun g => g.name == h.name with
  | none =>
    have hne := List.find?_eq_none.1 hfind h (List.mem_reverse.2 hh)
    exact absurd (beq_self_eq_true h.name) hne
  | some g =>
    exact ⟨g.joined, mem_headers_view.2 ⟨g, isFirst_of_find? hfind fun _ => beq_iff_eq, rfl⟩⟩

theorem exists_header_of_entry {e : String × String} (he : e ∈ (view r found).headers.toList) :
    ∃ h ∈ r.headers, h.name = e.1 := by
  obtain ⟨h, hfirst, -⟩ := mem_headers_view.1 he
  exact ⟨h, List.mem_reverse.1 hfirst.mem, hfirst.1⟩

/-! ## Looking up a name -/

theorem exists_isShown_of_get? {text : String}
    (hget : (view r found).headers.get? name = some text) :
    ∃ shown, IsShown r.headers name shown ∧ shown.joined = text := by
  obtain ⟨shown, hlast, hjoined⟩ := mem_headers_view.1 (SortedMap.get?_eq_some_iff.1 hget)
  have hname : shown.name = name := hlast.1
  refine ⟨shown, ⟨?_, ?_, fun _ _ _ => .inl hname⟩, hjoined⟩
  · rw [hname]
    exact hlast
  · rw [hname]
    exact sameName_refl name

theorem ne_of_get?_eq_none (hget : (view r found).headers.get? name = none) :
    ∀ g ∈ r.headers, g.name ≠ name := by
  intro g hg hname
  obtain ⟨text, htext⟩ := exists_entry_of_mem found hg
  rw [hname, ← SortedMap.get?_eq_some_iff, hget] at htext
  cases htext

/-- If no header has the spelling, the first one in order counts that differs in case. -/
theorem exists_isShown_of_find? {spelling text : String}
    (hget : (view r found).headers.get? name = none)
    (hfind : (view r found).headers.toList.find? (fun e => sameName e.1 name) =
      some (spelling, text)) :
    ∃ shown, IsShown r.headers name shown ∧ shown.joined = text := by
  obtain ⟨hnamed, before, after, hsplit, hbefore⟩ := List.find?_eq_some_iff_append.1 hfind
  obtain ⟨shown, hlast, hjoined⟩ := mem_headers_view.1 (List.mem_of_find?_eq_some hfind)
  have hname : shown.name = spelling := hlast.1
  subst hname
  refine ⟨shown, ⟨hlast, hnamed, fun g hg hsame => .inr ⟨ne_of_get?_eq_none hget g hg, ?_⟩⟩,
    hjoined⟩
  -- The spelling of another header of the name stands behind the one that was found.
  obtain ⟨text', htext'⟩ := exists_entry_of_mem found hg
  have hincreasing := (view r found).headers.increasing
  rw [hsplit] at htext' hincreasing
  rcases List.mem_append.1 htext' with hmem | hmem
  · have hfalse := hbefore _ hmem
    rw [hsame] at hfalse
    cases hfalse
  · rcases List.mem_cons.1 hmem with he | hmem
    · rw [(Prod.mk.inj he).1]
      exact Std.ReflCmp.isLE_rfl
    · have hlt := List.rel_of_pairwise_cons (List.pairwise_append.1 hincreasing).2.1 hmem
      rw [hlt]
      rfl

/-- The text under a name is that of the header shown. -/
theorem child?_headers_of_some (found : SortedMap String String) {first : Header}
    (h : Header.find? r.headers name = some first) :
    ∃ shown, IsShown r.headers name shown ∧
      child? name (texts (view r found).headers) = some (.string shown.joined) := by
  rw [child?_texts]
  -- A key is looked for as it is spelled first, and in any case only if that fails.
  cases hget : (view r found).headers.get? name with
  | some text =>
    obtain ⟨shown, hshown, rfl⟩ := exists_isShown_of_get? hget
    exact ⟨shown, hshown, rfl⟩
  | none =>
    cases hfind : (view r found).headers.toList.find? fun e => sameName e.1 name with
    | none =>
      obtain ⟨text, htext⟩ := exists_entry_of_mem found (List.mem_of_find?_eq_some h)
      have hnamed : sameName first.name name = true :=
        List.find?_some (p := fun g : Header => sameName g.name name) h
      exact (List.find?_eq_none.1 hfind (first.name, text) htext hnamed).elim
    | some e =>
      obtain ⟨shown, hshown, hjoined⟩ := exists_isShown_of_find? hget hfind
      refine ⟨shown, hshown, ?_⟩
      rw [hjoined]
      rfl

theorem child?_headers_of_none (h : Header.find? r.headers name = none) :
    child? name (texts (view r found).headers) = none := by
  have hnone : ∀ e ∈ (view r found).headers.toList, ¬sameName e.1 name = true := by
    intro e he
    obtain ⟨g, hg, hname⟩ := exists_header_of_entry he
    rw [← hname]
    exact List.find?_eq_none.1 h g hg
  have hget : (view r found).headers.get? name = none := by
    cases hget : (view r found).headers.get? name with
    | none => rfl
    | some text =>
      have hentry := SortedMap.get?_eq_some_iff.1 hget
      exact (hnone (name, text) hentry (sameName_refl name)).elim
  rw [child?_texts, hget, List.find?_eq_none.2 hnone]
  rfl

/-! ## The expression -/

theorem toList_headerReference (name : String) :
    (headerReference name).toList =
      "request".toList ++ '.' :: ("headers".toList ++ '[' :: (name.toList ++ [']'])) := by
  show ("request.headers[" ++ name ++ "]").toList = _
  rw [String.toList_append, String.toList_append]
  simp

theorem parse_headerReference (name : String) :
    Expression.parse (headerReference name).toList = .reference (headerReference name).toList := by
  rw [toList_headerReference]
  refine parse_reference (List.cons_ne_nil _ _) (by simp [isNameChar]) rfl ?_
  simpa using unled_cons (by decide) _

theorem bareKey_of_isBare (h : IsBare name) : bareKey name.toList = name.toList := by
  refine bareKey_of_trim ?_ h.unquoted
  rw [h.trimmed, dropWhile_isQuote h.unquoted]

theorem value_headerReference (h : IsBare name) (v : RequestView) :
    (Context.ofRequest v).value (headerReference name) =
      match child? name (texts v.headers) with
      | some d => .ok d
      | none => .error (.unresolved (headerReference name)) := by
  have hnot : ']' ∉ name.toList := fun hc => (h.unbracketed _ hc).2 rfl
  have hheaders : child? (String.ofList "headers".toList) v.document = some (texts v.headers) := rfl
  rw [value_inBrackets (toList_headerReference name) (by simp [isStop]) hheaders hnot,
    bareKey_of_isBare h, walk, String.ofList_toList, accesses]
  rfl

/-- **Templates find a header for the names for which dispatching does.** The text they see is that
of the header shown, which is the text of the first header if all headers of the name have it. -/
theorem lookup_header {m : Type → Type} [Monad m] (fs : Functions m) (r : Request)
    (found : SortedMap String String) {name : String} (hname : IsBare name) :
    ∃ seen, evaluate fs (Context.ofRequest (view r found)) (headerReference name).toList =
        pure seen ∧
      (seen = .error (.unresolved (headerReference name)) ↔
        Header.find? r.headers name = none) ∧
      ∀ first, Header.find? r.headers name = some first →
        (∃ shown, (∀ h, IsShown r.headers name h ↔ h = shown) ∧ seen = .ok shown.joined) ∧
        ((∀ h ∈ r.headers, sameName h.name name = true → h.joined = first.joined) →
          seen = .ok first.joined) := by
  refine ⟨(Context.ofRequest (view r found)).lookup (headerReference name), ?_, ?_⟩
  · rw [evaluate, parse_headerReference, Expression.eval, String.ofList_toList]
  rw [Context.lookup, value_headerReference hname]
  cases hfirst : Header.find? r.headers name with
  | none =>
    rw [child?_headers_of_none hfirst]
    refine ⟨iff_of_true rfl rfl, fun first h => ?_⟩
    cases h
  | some first =>
    obtain ⟨shown, hshown, hchild⟩ := child?_headers_of_some found hfirst
    rw [hchild]
    refine ⟨iff_of_false ?_ ?_, fun first' h => ⟨⟨shown, fun g => ⟨?_, ?_⟩, rfl⟩, fun hall => ?_⟩⟩
    · intro h
      cases h
    · intro h
      cases h
    · intro hg
      exact hg.unique hshown
    · rintro rfl
      exact hshown
    · obtain rfl := Option.some.inj h
      exact congrArg Except.ok (hall shown hshown.mem hshown.named)

/-- A request that repeats a header. -/
def traced : Request :=
  (((Request.ofTarget "GET" "/items").addHeader "Accept" "text/plain, text/html").addHeader
    "X-Trace" "first").addHeader "X-Trace" "second"

theorem lookup_accept :
    IsBare "accept" ∧
      Header.find? traced.headers "accept" = some (.ofCsv "Accept" "text/html,text/plain") ∧
      evaluate (m := Id) (fun _ => none) (Context.ofRequest (view traced .empty))
          (headerReference "accept").toList =
        .ok "text/html,text/plain" := by
  have hname : IsBare "accept" := ⟨by simp, by simp [isQuote], by decide⟩
  have hfind : Header.find? traced.headers "accept" =
      some (.ofCsv "Accept" "text/html,text/plain") := by decide +kernel
  refine ⟨hname, hfind, ?_⟩
  obtain ⟨seen, heval, -, hseen⟩ := lookup_header (m := Id) (fun _ => none) traced .empty hname
  have hall : ∀ h ∈ traced.headers, sameName h.name "accept" = true →
      h.joined = (Header.ofCsv "Accept" "text/html,text/plain").joined := by decide +kernel
  have htext : (Header.ofCsv "Accept" "text/html,text/plain").joined = "text/html,text/plain" := by
    decide +kernel
  rw [heval, (hseen _ hfind).2 hall, htext]
  rfl

/-- Items that are told apart by a header, which is shown in the answer. -/
def itemsByTrace : Operation :=
  { Operation.ofPath "GET" "/items" with
    dispatcher := .queryHeader
    rule := some "X-Trace"
    resourcePaths := ["/items"]
    exchanges := [.requestResponse ⟨"one", none, none, [.ofCsv "X-Trace" "first"], []⟩
      ⟨"one", none, some "trace {{request.headers[X-Trace]}}", none, []⟩] }

/-- **Of a repeated header dispatching takes the first one, and templates show the last one.** -/
theorem lookup_traces :
    Header.find? traced.headers "X-Trace" = some (.ofCsv "X-Trace" "first") ∧
      evaluate (m := Id) (fun _ => none) (Context.ofRequest (view traced .empty))
          (headerReference "X-Trace").toList ≠
        .ok (Header.ofCsv "X-Trace" "first").joined ∧
      (answerFrom (m := Id) (fun _ => none) ⟨"Items", "1", .rest, [itemsByTrace]⟩
          traced).toOption =
        some ⟨200, [], some "trace second", none, "one", false⟩ := by
  refine ⟨by decide +kernel, fun h => ?_, by decide +kernel⟩
  have htext := congrArg Except.toOption h
  exact absurd htext (by decide +kernel)

end ApiDouble.Serve
