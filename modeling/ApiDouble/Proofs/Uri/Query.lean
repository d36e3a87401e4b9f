import ApiDouble.Proofs.Uri.Percent
import ApiDouble.Uri.Query

/-!
# Queries read back

The written form of a list of named values is read as that list: no coded name or value has one of
the characters that divide a query, so the divisions are found where they were made. Empty names and
values and repeated names are kept.

A query is read part by part (`arguments`), so what stands behind an `&` is read as it would be
alone. Text that follows a part without an `&` joins that part (`exists_arguments_append`).

Main results: `parseQuery_queryText`, `arguments_append`.
-/

namespace ApiDouble.Uri

open Text

theorem readArgument_argument (p : Parameter) : readArgument (argument p) = p := by
  have hname : '=' ∉ encodeQuery p.name.toList := not_mem_encodeQuery (by decide) _
  unfold readArgument argument
  rw [splitOnce?_append hname]
  simp only [decodeQuery_encodeQuery, String.ofList_toList]

theorem argument_ne_nil (p : Parameter) : argument p ≠ [] := by
  unfold argument
  exact List.append_ne_nil_of_right_ne_nil _ (List.cons_ne_nil _ _)

theorem not_mem_argument {c : Char} (hc : c ∈ ['&', '?']) (p : Parameter) : c ∉ argument p := by
  have hall : ∀ c ∈ ['&', '?'], c ∈ ['&', '=', '?'] ∧ c ≠ '=' := forall_mem_of_all (by decide)
  obtain ⟨hmem, hne⟩ := hall c hc
  intro h
  rcases List.mem_append.1 h with h | h
  · exact not_mem_encodeQuery hmem _ h
  rcases List.mem_cons.1 h with h | h
  · exact hne h
  · exact not_mem_encodeQuery hmem _ h

theorem queryText_singleton (p : Parameter) : queryText [p] = argument p :=
  List.intercalate_singleton

theorem queryText_cons {ps : List Parameter} (h : ps ≠ []) (p : Parameter) :
    queryText (p :: ps) = argument p ++ '&' :: queryText ps := by
  cases ps with
  | nil => exact absurd rfl h
  | cons q ps => simp [queryText, List.intercalate_cons_cons]

theorem not_mem_queryText (ps : List Parameter) : '?' ∉ queryText ps := by
  induction ps with
  | nil => exact List.not_mem_nil
  | cons p ps ih =>
    have hp : '?' ∉ argument p := not_mem_argument (by decide) p
    by_cases hps : ps = []
    · rwa [hps, queryText_singleton]
    · simp [queryText_cons hps, hp, ih]

theorem queryText_eq_nil_iff {ps : List Parameter} : queryText ps = [] ↔ ps = [] := by
  constructor
  · intro h
    cases ps with
    | nil => rfl
    | cons p ps =>
      exfalso
      by_cases hps : ps = []
      · rw [hps, queryText_singleton] at h
        exact argument_ne_nil p h
      · simp [queryText_cons hps] at h
  · rintro rfl
    rfl

/-! ## Part by part -/

/-- The text of a query, a question mark before it aside. -/
def unmarked (s : List Char) : List Char := if s.head? = some '?' then s.drop 1 else s

theorem unmarked_append {s : List Char} (h : s ≠ []) (t : List Char) :
    unmarked (s ++ t) = unmarked s ++ t := by
  cases s with
  | nil => exact absurd rfl h
  | cons c s => by_cases hc : c = '?' <;> simp [unmarked, hc]

theorem unmarked_eq_nil_iff {s : List Char} : unmarked s = [] ↔ s = [] ∨ s = ['?'] := by
  cases s with
  | nil => simp [unmarked]
  | cons c s => by_cases hc : c = '?' <;> simp [unmarked, hc]

theorem getLast?_unmarked {s : List Char} (h : unmarked s ≠ []) :
    (unmarked s).getLast? = s.getLast? := by
  cases s with
  | nil => exact absurd rfl h
  | cons c s =>
    by_cases hc : c = '?'
    · subst hc
      cases s with
      | nil => exact absurd rfl h
      | cons d s => rfl
    · simp [unmarked, hc]

/-- The named values of the parts of a text. -/
def arguments (s : List Char) : List Parameter :=
  ((splitOn '&' s).filter (!·.isEmpty)).map readArgument

theorem parseQuery_eq (s : List Char) : parseQuery s = arguments (unmarked s) := rfl

theorem arguments_nil : arguments [] = [] := rfl

/-- **What stands behind an `&` is read by itself.** -/
theorem arguments_append (s t : List Char) :
    arguments (s ++ '&' :: t) = arguments s ++ arguments t := by
  unfold arguments splitOn
  rw [List.splitOn_append_cons_self, List.filter_append, List.map_append]

theorem arguments_of_not_mem {s : List Char} (h : '&' ∉ s) (hne : s ≠ []) :
    arguments s = [readArgument s] := by
  unfold arguments splitOn
  simp [List.splitOn_eq_singleton h, hne]

theorem arguments_argument (p : Parameter) : arguments (argument p) = [p] := by
  rw [arguments_of_not_mem (not_mem_argument (by decide) p) (argument_ne_nil p),
    readArgument_argument]

/-- The written form of named values is read as what was written. -/
theorem arguments_queryText (ps : List Parameter) : arguments (queryText ps) = ps := by
  induction ps with
  | nil => rfl
  | cons p ps ih =>
    by_cases hps : ps = []
    · rw [hps, queryText_singleton, arguments_argument]
    · rw [queryText_cons hps, arguments_append, arguments_argument, ih]
      rfl

theorem unmarked_queryText (ps : List Parameter) : unmarked (queryText ps) = queryText ps :=
  if_neg fun h => not_mem_queryText ps (List.mem_of_head? h)

theorem parseQuery_queryText (ps : List Parameter) : parseQuery (queryText ps) = ps := by
  rw [parseQuery_eq, unmarked_queryText, arguments_queryText]

/-- What follows a text that does not end with an `&` joins its last part. -/
theorem exists_arguments_append {s : List Char} (hne : s ≠ []) (hlast : s.getLast? ≠ some '&') :
    ∃ before last, '&' ∉ last ∧ last ≠ [] ∧
      ∀ t, arguments (s ++ t) = before ++ arguments (last ++ t) := by
  by_cases hmem : '&' ∈ s
  · obtain ⟨back, front, hs, hback⟩ := List.eq_append_cons_of_mem (List.mem_reverse.2 hmem)
    have hs : s = front.reverse ++ '&' :: back.reverse := by
      rw [← List.reverse_reverse s, hs]
      simp
    refine ⟨arguments front.reverse, back.reverse, by simpa using hback, ?_, fun t => ?_⟩
    · intro hnil
      rw [hs, hnil] at hlast
      simp at hlast
    · rw [hs, List.append_assoc, List.cons_append, arguments_append]
  · exact ⟨[], s, hmem, hne, fun t => rfl⟩

theorem arguments_append_queryText {s : List Char} (h : '&' ∉ s) (p : Parameter)
    (ps : List Parameter) :
    arguments (s ++ queryText (p :: ps)) = readArgument (s ++ argument p) :: ps := by
  have hpart : arguments (s ++ argument p) = [readArgument (s ++ argument p)] := by
    refine arguments_of_not_mem ?_ (by simp [argument_ne_nil])
    simp [h, not_mem_argument (show '&' ∈ ['&', '?'] by decide) p]
  by_cases hps : ps = []
  · rw [hps, queryText_singleton, hpart]
  · rw [queryText_cons hps, ← List.append_assoc, arguments_append, hpart, arguments_queryText]
    rfl

end ApiDouble.Uri
