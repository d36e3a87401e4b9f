/-!
# Sorted sets

A finite set kept as the strictly increasing list of its members. Two sets with the same members are
therefore equal (`SortedSet.ext`), and a set prints in one way.
-/

namespace ApiDouble

open Std

/-- A set as the strictly increasing list of its members. -/
structure SortedSet (α : Type) [Ord α] where
  toList : List α
  increasing : toList.Pairwise fun a b => compare a b = .lt

namespace SortedSet

variable {α : Type} [Ord α]

instance [DecidableEq α] : DecidableEq (SortedSet α) := fun a b =>
  decidable_of_iff (a.toList = b.toList) (by cases a; cases b; simp)

instance : Inhabited (SortedSet α) := ⟨⟨[], .nil⟩⟩

def empty : SortedSet α := ⟨[], .nil⟩

/-- Puts `x` in its place, unless it is there. -/
def insertList (x : α) : List α → List α
  | [] => [x]
  | y :: ys =>
    match compare x y with
    | .lt => x :: y :: ys
    | .eq => y :: ys
    | .gt => y :: insertList x ys

theorem mem_insertList [LawfulEqOrd α] {x a : α} {ys : List α} :
    a ∈ insertList x ys ↔ a = x ∨ a ∈ ys := by
  induction ys with
  | nil => simp [insertList]
  | cons y ys ih =>
    rw [insertList]
    split
    · simp
    · next h => simp [LawfulEqOrd.eq_of_compare h]
    · simp [ih]; grind

theorem increasing_insertList [TransOrd α] [LawfulEqOrd α] {x : α} {ys : List α}
    (h : ys.Pairwise fun a b => compare a b = .lt) :
    (insertList x ys).Pairwise fun a b => compare a b = .lt := by
  induction ys with
  | nil => simp [insertList]
  | cons y ys ih =>
    rw [insertList]
    split
    · next hlt =>
      refine .cons (fun a ha => ?_) h
      rcases List.mem_cons.1 ha with rfl | ha
      · exact hlt
      · exact TransCmp.lt_trans hlt (List.rel_of_pairwise_cons h ha)
    · exact h
    · next hgt =>
      refine .cons (fun a ha => ?_) (ih h.of_cons)
      rcases mem_insertList.1 ha with rfl | ha
      · exact OrientedCmp.lt_of_gt hgt
      · exact List.rel_of_pairwise_cons h ha

variable [TransOrd α] [LawfulEqOrd α]

def insert (s : SortedSet α) (x : α) : SortedSet α :=
  ⟨insertList x s.toList, increasing_insertList s.increasing⟩

/-- The set of the members of a list. -/
def ofList (xs : List α) : SortedSet α := xs.foldl insert empty

instance : Membership α (SortedSet α) := ⟨fun s a => a ∈ s.toList⟩

omit [TransOrd α] [LawfulEqOrd α] in
@[simp] theorem mem_toList {s : SortedSet α} {a : α} : a ∈ s.toList ↔ a ∈ s := Iff.rfl

omit [TransOrd α] [LawfulEqOrd α] in
@[simp] theorem not_mem_empty {a : α} : a ∉ (empty : SortedSet α) := List.not_mem_nil

@[simp] theorem mem_insert {s : SortedSet α} {x a : α} : a ∈ s.insert x ↔ a = x ∨ a ∈ s :=
  mem_insertList

theorem mem_foldl_insert {xs : List α} {s : SortedSet α} {a : α} :
    a ∈ xs.foldl insert s ↔ a ∈ xs ∨ a ∈ s := by
  induction xs generalizing s with
  | nil => simp
  | cons x xs ih => simp [ih]; grind

@[simp] theorem mem_ofList {xs : List α} {a : α} : a ∈ ofList xs ↔ a ∈ xs := by
  simp [ofList, mem_foldl_insert]

omit [LawfulEqOrd α] in
/-- A set is determined by its members. -/
theorem ext {s t : SortedSet α} (h : ∀ a, a ∈ s ↔ a ∈ t) : s = t := by
  obtain ⟨xs, hxs⟩ := s
  obtain ⟨ys, hys⟩ := t
  congr
  change ∀ a, a ∈ xs ↔ a ∈ ys at h
  induction xs generalizing ys with
  | nil => exact (List.eq_nil_iff_forall_not_mem.2 fun e he => by simpa using (h e).2 he).symm
  | cons x xs ih =>
    cases ys with
    | nil => simpa using (h x).1
    | cons y ys =>
      have hxy : x = y := by
        rcases List.mem_cons.1 ((h x).1 (by simp)) with h' | h'
        · exact h'
        · rcases List.mem_cons.1 ((h y).2 (by simp)) with h'' | h''
          · exact h''.symm
          · have h1 := List.rel_of_pairwise_cons hys h'
            have h2 := TransCmp.lt_trans h1 (List.rel_of_pairwise_cons hxs h'')
            simp [ReflCmp.compare_self] at h2
      subst hxy
      have hx : ∀ {zs : List α}, (x :: zs).Pairwise (fun a b => compare a b = .lt) →
          ∀ e ∈ zs, e ≠ x := fun h e he hex => by
        have := List.rel_of_pairwise_cons h he
        simp [hex, ReflCmp.compare_self] at this
      rw [ih hxs.of_cons ys hys.of_cons fun e => ?_]
      have he := h e
      simp only [List.mem_cons] at he
      constructor
      · exact fun hm => (he.1 (.inr hm)).resolve_left (hx hxs e hm)
      · exact fun hm => (he.2 (.inr hm)).resolve_left (hx hys e hm)

theorem ofList_toList (s : SortedSet α) : ofList s.toList = s := by
  apply ext
  intro a
  rw [mem_ofList, mem_toList]

end SortedSet

end ApiDouble
