import ApiDouble.Collection.SortedMap

/-!
# What maps built from lists give

A map built from a list of entries gives for a key what the list gives: its last entry for that key
in `ofList`, its first one in `ofListFirst`.

Main results: `get?_ofList`, `get?_ofListFirst`.
-/

namespace ApiDouble.SortedMap

open Std

variable {κ α : Type} [Ord κ]

/-! ## Lists of entries -/

theorem findList?_append (k : κ) (es es' : List (κ × α)) :
    findList? k (es ++ es') = (findList? k es).or (findList? k es') := by
  induction es with
  | nil => rfl
  | cons e es ih =>
    rw [List.cons_append, findList?, findList?]
    split
    · rfl
    · exact ih

variable [LawfulEqOrd κ]

theorem findList?_eq_none_iff {k : κ} {es : List (κ × α)} :
    findList? k es = none ↔ ∀ e ∈ es, e.1 ≠ k := by
  induction es with
  | nil => simp [findList?]
  | cons e es ih =>
    rw [findList?]
    by_cases h : compare k e.1 = .eq
    · have he : k = e.1 := LawfulEqOrd.eq_of_compare h
      rw [if_pos h]
      constructor
      · intro hx
        cases hx
      · intro hx
        exact absurd he.symm (hx e List.mem_cons_self)
    · have he : e.1 ≠ k := fun he => h (by rw [he]; exact ReflCmp.compare_self)
      rw [if_neg h, ih, List.forall_mem_cons]
      exact ⟨fun hx => ⟨he, hx⟩, fun hx => hx.2⟩

theorem findList?_eq_some {k : κ} {x : α} {es : List (κ × α)} (hmem : ∃ e ∈ es, e.1 = k)
    (hall : ∀ e ∈ es, e.1 = k → e.2 = x) : findList? k es = some x := by
  induction es with
  | nil =>
    obtain ⟨e, he, -⟩ := hmem
    exact absurd he List.not_mem_nil
  | cons e es ih =>
    rw [findList?]
    split
    · next h =>
      exact congrArg some (hall e List.mem_cons_self (LawfulEqOrd.eq_of_compare h).symm)
    · next h =>
      obtain ⟨d, hd, hk⟩ := hmem
      rcases List.mem_cons.1 hd with rfl | hd
      · exact absurd (hk ▸ ReflCmp.compare_self) h
      · exact ih ⟨d, hd, hk⟩ fun d hd => hall d (List.mem_cons_of_mem e hd)

/-! ## Maps of lists -/

variable [TransOrd κ]

theorem get?_foldl_insert (es : List (κ × α)) (m : SortedMap κ α) (k : κ) :
    (es.foldl (fun m e => m.insert e.1 e.2) m).get? k = (findList? k es.reverse).or (m.get? k) := by
  induction es generalizing m with
  | nil => rfl
  | cons e es ih =>
    rw [List.foldl_cons, ih, List.reverse_cons, findList?_append, get?_insert, Option.or_assoc]
    congr 1
    rw [findList?]
    split <;> rfl

/-- **Of several entries with one key the last one counts.** -/
theorem get?_ofList (es : List (κ × α)) (k : κ) :
    (ofList es).get? k = findList? k es.reverse := by
  rw [ofList, get?_foldl_insert]
  exact Option.or_none

theorem get?_ofList_append_cons {k : κ} {before after : List (κ × α)}
    (h : ∀ e ∈ after, e.1 ≠ k) (x : α) :
    (ofList (before ++ (k, x) :: after)).get? k = some x := by
  have hafter : findList? k after.reverse = none :=
    findList?_eq_none_iff.2 fun e he => h e (List.mem_reverse.1 he)
  have hself : findList? k ((k, x) :: before.reverse) = some x := if_pos ReflCmp.compare_self
  rw [get?_ofList, List.reverse_append, List.reverse_cons, List.append_assoc, findList?_append,
    hafter, Option.none_or]
  exact hself

theorem get?_foldl_insertNew (es : List (κ × α)) (m : SortedMap κ α) (k : κ) :
    (es.foldl (fun m e => m.insertNew e.1 e.2) m).get? k = (m.get? k).or (findList? k es) := by
  induction es generalizing m with
  | nil => exact Option.or_none.symm
  | cons e es ih =>
    rw [List.foldl_cons, ih, get?_insertNew, findList?]
    split
    · cases m.get? k <;> rfl
    · rfl

/-- **Of several entries with one key the first one counts.** -/
theorem get?_ofListFirst (es : List (κ × α)) (k : κ) :
    (ofListFirst es).get? k = findList? k es := by
  rw [ofListFirst, get?_foldl_insertNew]
  rfl

/-! ## Keys -/

theorem mem_keys {m : SortedMap κ α} {k : κ} : k ∈ m.keys ↔ ∃ v, m.get? k = some v := by
  constructor
  · intro h
    obtain ⟨e, he, rfl⟩ := List.mem_map.1 h
    exact ⟨e.2, get?_eq_some_iff.2 he⟩
  · rintro ⟨v, hv⟩
    exact List.mem_map.2 ⟨(k, v), get?_eq_some_iff.1 hv, rfl⟩

/-! ## Taking entries away -/

theorem get?_erase {m : SortedMap κ α} {k k' : κ} :
    (m.erase k).get? k' = if compare k' k = .eq then none else m.get? k' := by
  refine Option.ext fun v => ?_
  rw [get?_eq_some_iff, erase, List.mem_filter]
  by_cases h : compare k' k = .eq
  · cases LawfulEqOrd.eq_of_compare h
    simp
  · have h' : compare k k' ≠ .eq := fun hk => h (by rw [LawfulEqOrd.eq_of_compare hk]; simp)
    rw [if_neg h, get?_eq_some_iff]
    simp [h']

theorem get?_of_get?_erase {m : SortedMap κ α} {k k' : κ} {v : α}
    (h : (m.erase k).get? k' = some v) : m.get? k' = some v := by
  rw [get?_eq_some_iff] at h ⊢
  exact (List.mem_filter.1 h).1

end ApiDouble.SortedMap
