/-!
# Sorted maps

A finite map kept as the list of its entries in strictly increasing order of their keys. A map is
determined by what its keys give (`SortedMap.ext`), so maps built in different orders are equal.
-/

namespace ApiDouble

open Std

/-- A map as the list of its entries, keys strictly increasing. -/
structure SortedMap (κ α : Type) [Ord κ] where
  toList : List (κ × α)
  increasing : toList.Pairwise fun a b => compare a.1 b.1 = .lt

namespace SortedMap

variable {κ α : Type} [Ord κ]

instance [DecidableEq κ] [DecidableEq α] : DecidableEq (SortedMap κ α) := fun a b =>
  decidable_of_iff (a.toList = b.toList) (by cases a; cases b; simp)

def empty : SortedMap κ α := ⟨[], .nil⟩

instance : Inhabited (SortedMap κ α) := ⟨empty⟩

def isEmpty (m : SortedMap κ α) : Bool := m.toList.isEmpty

def keys (m : SortedMap κ α) : List κ := m.toList.map (·.1)

/-- What a list of entries gives for a key. -/
def findList? (k : κ) : List (κ × α) → Option α
  | [] => none
  | (k', x) :: rest => if compare k k' = .eq then some x else findList? k rest

/-- What the map gives for a key. -/
def get? (m : SortedMap κ α) (k : κ) : Option α := findList? k m.toList

def contains (m : SortedMap κ α) (k : κ) : Bool := (m.get? k).isSome

/-- Puts an entry in its place, in the place of one with the same key. -/
def insertList (k : κ) (x : α) : List (κ × α) → List (κ × α)
  | [] => [(k, x)]
  | e :: rest =>
    match compare k e.1 with
    | .lt => (k, x) :: e :: rest
    | .eq => (k, x) :: rest
    | .gt => e :: insertList k x rest

theorem fst_mem_insertList {k : κ} {x : α} {e : κ × α} {es : List (κ × α)}
    (h : e ∈ insertList k x es) : e.1 = k ∨ e ∈ es := by
  induction es with
  | nil => simp_all [insertList]
  | cons d es ih =>
    rw [insertList] at h
    split at h <;> simp only [List.mem_cons] at h ⊢ <;> grind

theorem increasing_insertList [TransOrd κ] [LawfulEqOrd κ] {k : κ} {x : α} {es : List (κ × α)}
    (h : es.Pairwise fun a b => compare a.1 b.1 = .lt) :
    (insertList k x es).Pairwise fun a b => compare a.1 b.1 = .lt := by
  induction es with
  | nil => simp [insertList]
  | cons d es ih =>
    rw [insertList]
    split
    · next hlt =>
      refine .cons (fun a ha => ?_) h
      rcases List.mem_cons.1 ha with rfl | ha
      · exact hlt
      · exact TransCmp.lt_trans hlt (List.rel_of_pairwise_cons h ha)
    · next heq =>
      refine .cons (fun a ha => ?_) h.of_cons
      rw [LawfulEqOrd.eq_of_compare heq]
      exact List.rel_of_pairwise_cons h ha
    · next hgt =>
      refine .cons (fun a ha => ?_) (ih h.of_cons)
      rcases fst_mem_insertList ha with ha | ha
      · rw [ha]; exact OrientedCmp.lt_of_gt hgt
      · exact List.rel_of_pairwise_cons h ha

theorem findList?_insertList [TransOrd κ] [LawfulEqOrd κ] {k k' : κ} {x : α}
    {es : List (κ × α)} :
    findList? k' (insertList k x es) = if compare k' k = .eq then some x else findList? k' es := by
  induction es with
  | nil => simp [insertList, findList?]
  | cons d es ih =>
    rw [insertList]
    split
    · simp [findList?]
    · next heq =>
      rw [findList?, findList?, ← LawfulEqOrd.eq_of_compare heq]
      split <;> rfl
    · next hgt =>
      rw [findList?, findList?, ih]
      by_cases h1 : compare k' d.1 = .eq
      · have hk : ¬ compare k' k = .eq := by
          intro h2
          rw [← LawfulEqOrd.eq_of_compare h2, h1] at hgt
          cases hgt
        simp [h1, hk]
      · simp [h1]

/-- The map without the entry of a key. -/
def erase (m : SortedMap κ α) (k : κ) : SortedMap κ α :=
  ⟨m.toList.filter fun e => compare k e.1 ≠ .eq, m.increasing.filter _⟩

variable [TransOrd κ] [LawfulEqOrd κ]

/-- The map with an entry added, in the place of an older one with the same key. -/
def insert (m : SortedMap κ α) (k : κ) (x : α) : SortedMap κ α :=
  ⟨insertList k x m.toList, increasing_insertList m.increasing⟩

/-- The map with an entry added, unless the key has one. -/
def insertNew (m : SortedMap κ α) (k : κ) (x : α) : SortedMap κ α :=
  if m.contains k then m else m.insert k x

/-- Of several entries with one key the last one counts. -/
def ofList (es : List (κ × α)) : SortedMap κ α := es.foldl (fun m e => m.insert e.1 e.2) empty

/-- Of several entries with one key the first one counts. -/
def ofListFirst (es : List (κ × α)) : SortedMap κ α :=
  es.foldl (fun m e => m.insertNew e.1 e.2) empty

omit [TransOrd κ] [LawfulEqOrd κ] in
@[simp] theorem get?_empty {k : κ} : (empty : SortedMap κ α).get? k = none := rfl

theorem get?_insert {m : SortedMap κ α} {k k' : κ} {x : α} :
    (m.insert k x).get? k' = if compare k' k = .eq then some x else m.get? k' :=
  findList?_insertList

@[simp] theorem get?_insert_self {m : SortedMap κ α} {k : κ} {x : α} :
    (m.insert k x).get? k = some x := by
  simp [get?_insert]

theorem get?_insertNew {m : SortedMap κ α} {k k' : κ} {x : α} :
    (m.insertNew k x).get? k' =
      if compare k' k = .eq then some ((m.get? k').getD x) else m.get? k' := by
  unfold insertNew contains
  by_cases h : compare k' k = .eq
  · cases LawfulEqOrd.eq_of_compare h
    cases hk : m.get? k <;> simp [hk]
  · split <;> simp [get?_insert, h]

omit [TransOrd κ] in
theorem findList?_eq_some_iff {k : κ} {x : α} {es : List (κ × α)} [OrientedOrd κ]
    (h : es.Pairwise fun a b => compare a.1 b.1 = .lt) :
    findList? k es = some x ↔ (k, x) ∈ es := by
  induction es with
  | nil => simp [findList?]
  | cons d es ih =>
    rw [findList?]
    by_cases hk : compare k d.1 = .eq
    · cases LawfulEqOrd.eq_of_compare hk
      simp only [hk, if_true, Option.some.injEq, List.mem_cons]
      refine ⟨fun e => .inl (by rw [← e]), fun hm => ?_⟩
      rcases hm with hd | hm
      · rw [← hd]
      · have := List.rel_of_pairwise_cons h hm
        simp [ReflCmp.compare_self] at this
    · have : (k, x) ≠ d := fun e => hk (by rw [← e]; exact ReflCmp.compare_self)
      simp [hk, ih h.of_cons, this]

theorem get?_eq_some_iff {m : SortedMap κ α} {k : κ} {x : α} :
    m.get? k = some x ↔ (k, x) ∈ m.toList := findList?_eq_some_iff m.increasing

/-- A map is determined by what its keys give. -/
theorem ext {m n : SortedMap κ α} (h : ∀ k, m.get? k = n.get? k) : m = n := by
  have hmem : ∀ e, e ∈ m.toList ↔ e ∈ n.toList := fun e => by
    rw [← get?_eq_some_iff, ← get?_eq_some_iff, h]
  obtain ⟨xs, hxs⟩ := m
  obtain ⟨ys, hys⟩ := n
  congr
  simp only at hmem
  clear h
  induction xs generalizing ys with
  | nil => exact (List.eq_nil_iff_forall_not_mem.2 fun e he => by simpa using (hmem e).2 he).symm
  | cons x xs ih =>
    cases ys with
    | nil => simpa using (hmem x).1
    | cons y ys =>
      have hxy : x = y := by
        rcases List.mem_cons.1 ((hmem x).1 (by simp)) with h | h
        · exact h
        · rcases List.mem_cons.1 ((hmem y).2 (by simp)) with h' | h'
          · exact h'.symm
          · have h1 := List.rel_of_pairwise_cons hys h
            have h2 := TransCmp.lt_trans h1 (List.rel_of_pairwise_cons hxs h')
            simp [ReflCmp.compare_self] at h2
      subst hxy
      rw [ih hxs.of_cons ys hys.of_cons fun e => ?_]
      have hx : ∀ {zs : List (κ × α)}, (x :: zs).Pairwise (fun a b => compare a.1 b.1 = .lt) →
          ∀ e ∈ zs, e ≠ x := fun h e he hex => by
        have := List.rel_of_pairwise_cons h he
        simp [hex, ReflCmp.compare_self] at this
      have := hmem e
      simp only [List.mem_cons] at this
      constructor
      · exact fun he => (this.1 (.inr he)).resolve_left (hx hxs e he)
      · exact fun he => (this.2 (.inr he)).resolve_left (hx hys e he)

end SortedMap

end ApiDouble
