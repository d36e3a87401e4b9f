/-!
# Places in lists

**Places.** A place in a list is a way to write it as what stands before a member, the member, and
what stands after it. Two places are the same or one comes first; a list with one more member has
one more place. A member that a part of a list does not have has its places outside of that part.
The places of a member divide a list into parts without it, and what is true of all lists can be
shown one part after the other (`partInduction`).

**The first of each key.** A list is gone through from its start. A member may have a result, and of
those that do only the first one with its key is kept. `Firsts` says at which positions they stand
and what results there are, `others` are the members that are left. Going on by one member either
keeps it or leaves it (`Firsts.keep`, `Firsts.leave`), so a loop that does so ends with the first
ones of the whole list. Where a result is named by the key of its member, the names are different,
and they are the keys of the members that have a result.

Main results: `partInduction`, `Firsts.keep`, `Firsts.leave`, `Firsts.earlier`, `Firsts.nodup`,
`Firsts.mem_names_iff`.
-/

namespace ApiDouble

/-! ## Places -/

variable {α : Type} {as bs cs ds : List α} {a b : α}

theorem eq_or_mem_of_append_cons (h : as ++ a :: bs = cs ++ b :: ds) :
    a = b ∨ b ∈ bs ∨ a ∈ ds := by
  rcases List.append_eq_append_iff.1 h with ⟨es, -, hes⟩ | ⟨es, -, hes⟩
  · rcases List.cons_eq_append_iff.1 hes with ⟨-, hb⟩ | ⟨es', -, rfl⟩
    · exact .inl (List.cons.inj hb).1.symm
    · simp
  · rcases List.cons_eq_append_iff.1 hes with ⟨-, hb⟩ | ⟨es', -, rfl⟩
    · exact .inl (List.cons.inj hb).1
    · simp

theorem append_singleton_eq_append_cons (h : as ++ [a] = bs ++ b :: cs) :
    (bs = as ∧ b = a) ∨ ∃ cs', cs = cs' ++ [a] ∧ as = bs ++ b :: cs' := by
  rcases List.eq_nil_or_concat cs with rfl | ⟨cs', c, rfl⟩
  · obtain ⟨rfl, hab⟩ := List.append_inj' h rfl
    exact .inl ⟨rfl, (List.singleton_inj.1 hab).symm⟩
  · have h' : as ++ [a] = (bs ++ b :: cs') ++ [c] := by simpa using h
    obtain ⟨rfl, hac⟩ := List.append_inj' h' rfl
    exact .inr ⟨cs', by rw [List.singleton_inj.1 hac, List.concat_eq_append], rfl⟩

/-- The place of a member that a part does not have is before the part or behind it. -/
theorem before_or_behind_of_not_mem {part : List α} (hpart : a ∉ part)
    (h : as ++ a :: bs = cs ++ part ++ ds) :
    (∃ es, cs = as ++ a :: es ∧ bs = es ++ part ++ ds) ∨
      ∃ es, ds = es ++ a :: bs ∧ as = cs ++ part ++ es := by
  rcases List.append_eq_append_iff.1 h with ⟨es, hes, htail⟩ | ⟨es, has, hds⟩
  · rcases List.cons_eq_append_iff.1 htail with ⟨rfl, hds⟩ | ⟨es, rfl, hbs⟩
    · exact .inr ⟨[], hds, by simpa using hes.symm⟩
    · -- The place is before the end of the part, and not in the part.
      rcases List.append_eq_append_iff.1 hes with ⟨fs, -, hfs⟩ | ⟨fs, hcs, hfs⟩
      · exact absurd (by simp [hfs]) hpart
      · rcases List.cons_eq_append_iff.1 hfs with ⟨-, hwhole⟩ | ⟨fs', rfl, hes'⟩
        · exact absurd (by simp [hwhole]) hpart
        · exact .inl ⟨fs', hcs, by rw [hbs, hes']⟩
  · exact .inr ⟨es, hds, has⟩

/-- A list is made of parts without a member, and of this member between them. -/
theorem partInduction (a : α) {motive : List α → Prop} (last : ∀ part, a ∉ part → motive part)
    (next : ∀ part rest, a ∉ part → motive rest → motive (part ++ a :: rest)) (as : List α) :
    motive as := by
  by_cases h : a ∈ as
  · obtain ⟨part, rest, has, hpart⟩ := List.eq_append_cons_of_mem h
    have hlength : rest.length < as.length := by
      rw [has, List.length_append, List.length_cons]
      omega
    rw [has]
    exact next part rest hpart (partInduction a last next rest)
  · exact last as h
termination_by as.length

/-! ## The first of each key -/

variable {α β κ : Type}

/-- The positions of the members that have a result and are the first of their key, and the results
of these members. -/
structure Firsts (key : α → κ) (f : α → Option β) (xs : List α) (kept : List Nat) (ys : List β) :
    Prop where
  ordered : kept.Pairwise (· < ·)
  mem_iff : ∀ i, i ∈ kept ↔ ∃ x, xs[i]? = some x ∧ (f x).isSome ∧
    ∀ j < i, ∀ z, xs[j]? = some z → (f z).isSome → key z ≠ key x
  results : ys.map some = kept.map fun i => xs[i]?.bind f

/-- The members of a list at other positions than those kept. -/
def others (xs : List α) (kept : List Nat) : List α :=
  (xs.zipIdx.filter fun e => !kept.contains e.2).map (·.1)

namespace Firsts

variable {key : α → κ} {f : α → Option β} {xs : List α} {kept : List Nat} {ys : List β} {x : α}

theorem nil : Firsts key f [] [] [] where
  ordered := .nil
  mem_iff i := by simp
  results := rfl

theorem lt_length (h : Firsts key f xs kept ys) {i : Nat} (hi : i ∈ kept) : i < xs.length := by
  obtain ⟨x, hx, -⟩ := (h.mem_iff i).1 hi
  exact (List.getElem?_eq_some_iff.1 hx).1

theorem length_not_mem (h : Firsts key f xs kept ys) : xs.length ∉ kept :=
  fun hmem => Nat.lt_irrefl _ (h.lt_length hmem)

/-! ### Going on by one member -/

theorem mem_append_iff (h : Firsts key f xs kept ys) (x : α) {i : Nat} (hi : i < xs.length) :
    i ∈ kept ↔ ∃ y, (xs ++ [x])[i]? = some y ∧ (f y).isSome ∧
      ∀ j < i, ∀ z, (xs ++ [x])[j]? = some z → (f z).isSome → key z ≠ key y := by
  rw [h.mem_iff, List.getElem?_append_left hi]
  refine exists_congr fun y => and_congr_right fun _ => and_congr_right fun _ => ?_
  refine forall_congr' fun j => forall_congr' fun hj => ?_
  rw [List.getElem?_append_left (Nat.lt_trans hj hi)]

theorem results_append (h : Firsts key f xs kept ys) (x : α) :
    ys.map some = kept.map fun i => (xs ++ [x])[i]?.bind f := by
  rw [h.results]
  refine List.map_congr_left fun i hi => ?_
  rw [List.getElem?_append_left (h.lt_length hi)]

theorem not_exists_beyond {i : Nat} (hi : xs.length < i) {p : α → Prop} :
    ¬∃ y, (xs ++ [x])[i]? = some y ∧ p y := by
  rintro ⟨y, hy, -⟩
  have hlt := (List.getElem?_eq_some_iff.1 hy).1
  rw [List.length_append, List.length_singleton] at hlt
  omega

/-- **A member that has a result is kept if no earlier one that has one has its key.** -/
theorem keep (h : Firsts key f xs kept ys) {y : β} (hy : f x = some y)
    (hnew : ∀ z ∈ xs, (f z).isSome → key z ≠ key x) :
    Firsts key f (xs ++ [x]) (kept ++ [xs.length]) (ys ++ [y]) where
  ordered := by
    rw [List.pairwise_append]
    refine ⟨h.ordered, List.pairwise_singleton .., fun i hi j hj => ?_⟩
    rw [List.mem_singleton.1 hj]
    exact h.lt_length hi
  mem_iff i := by
    rw [List.mem_append, List.mem_singleton]
    rcases Nat.lt_trichotomy i xs.length with hi | rfl | hi
    · rw [← h.mem_append_iff x hi]
      exact or_iff_left (Nat.ne_of_lt hi)
    · have hsome : (f x).isSome := by
        rw [hy]
        rfl
      refine iff_of_true (.inr rfl) ⟨x, List.getElem?_concat_length, hsome, fun j hj z hz => ?_⟩
      rw [List.getElem?_append_left hj] at hz
      exact hnew z (List.mem_of_getElem? hz)
    · refine iff_of_false ?_ (not_exists_beyond hi)
      rintro (hmem | rfl)
      · exact Nat.lt_asymm hi (h.lt_length hmem)
      · exact Nat.lt_irrefl _ hi
  results := by
    rw [List.map_append, List.map_append, h.results_append x, List.map_singleton,
      List.map_singleton, List.getElem?_concat_length, Option.bind_some, hy]

/-- **A member is left if it has no result or an earlier one that has one has its key.** -/
theorem leave (h : Firsts key f xs kept ys)
    (hold : (f x).isSome → ∃ z ∈ xs, (f z).isSome ∧ key z = key x) :
    Firsts key f (xs ++ [x]) kept ys where
  ordered := h.ordered
  mem_iff i := by
    rcases Nat.lt_trichotomy i xs.length with hi | rfl | hi
    · exact h.mem_append_iff x hi
    · refine iff_of_false h.length_not_mem ?_
      rintro ⟨y, hy, hsome, hfirst⟩
      obtain rfl := Option.some.inj (List.getElem?_concat_length.symm.trans hy)
      obtain ⟨z, hz, hsomez, hkey⟩ := hold hsome
      obtain ⟨j, hj, hget⟩ := List.mem_iff_getElem.1 hz
      have hget : (xs ++ [x])[j]? = some z := by
        rw [List.getElem?_append_left hj, List.getElem?_eq_getElem hj, hget]
      exact hfirst j hj z hget hsomez hkey
    · exact iff_of_false (fun hmem => Nat.lt_asymm hi (h.lt_length hmem)) (not_exists_beyond hi)
  results := h.results_append x

/-! ### What is kept -/

/-- The key of a member that has a result is that of a member kept. -/
theorem exists_kept (h : Firsts key f xs kept ys) {i : Nat} (hi : xs[i]? = some x)
    (hx : (f x).isSome) :
    ∃ j ∈ kept, ∃ z, j ≤ i ∧ xs[j]? = some z ∧ (f z).isSome ∧ key z = key x := by
  induction i using Nat.strongRecOn generalizing x with
  | ind i ih =>
    by_cases hmem : i ∈ kept
    · exact ⟨i, hmem, x, Nat.le_refl i, hi, hx, rfl⟩
    · -- Then an earlier member with a result has the key, and the first such one is kept.
      have hearlier : ∃ j < i, ∃ z, xs[j]? = some z ∧ (f z).isSome ∧ key z = key x := by
        refine Classical.byContradiction fun hno => hmem ((h.mem_iff i).2 ⟨x, hi, hx, ?_⟩)
        intro j hj z hz hsome hkey
        exact hno ⟨j, hj, z, hz, hsome, hkey⟩
      obtain ⟨j, hj, z, hz, hsome, hkey⟩ := hearlier
      obtain ⟨k, hk, t, hkj, ht, hsomet, hkeyt⟩ := ih j hj hz hsome
      exact ⟨k, hk, t, Nat.le_trans hkj (Nat.le_of_lt hj), ht, hsomet, hkeyt.trans hkey⟩

/-- **A member that has a result and is left has the key of an earlier one.** -/
theorem earlier (h : Firsts key f xs kept ys) {i : Nat} (hi : xs[i]? = some x)
    (hx : (f x).isSome) (hmem : i ∉ kept) :
    ∃ j < i, ∃ z, xs[j]? = some z ∧ (f z).isSome ∧ key z = key x := by
  obtain ⟨j, hj, z, hji, hz, hsome, hkey⟩ := h.exists_kept hi hx
  refine ⟨j, Nat.lt_of_le_of_ne hji ?_, z, hz, hsome, hkey⟩
  rintro rfl
  exact hmem hj

section Names

variable {name : β → κ} (hname : ∀ x y, f x = some y → name y = key x)
include hname

theorem names_eq (h : Firsts key f xs kept ys) :
    (ys.map name).map some = kept.map fun i => xs[i]?.map key := by
  have hresults : (ys.map some).map (Option.map name) =
      (kept.map fun i => xs[i]?.bind f).map (Option.map name) := congrArg _ h.results
  rw [List.map_map, List.map_map] at hresults
  rw [List.map_map]
  refine hresults.trans (List.map_congr_left fun i hi => ?_)
  obtain ⟨x, hx, hsome, -⟩ := (h.mem_iff i).1 hi
  obtain ⟨y, hy⟩ := Option.isSome_iff_exists.1 hsome
  rw [Function.comp_apply, hx, Option.bind_some, hy, Option.map_some, Option.map_some,
    hname x y hy]

/-- **The results have different names.** -/
theorem nodup (h : Firsts key f xs kept ys) : (ys.map name).Nodup := by
  have hkept : (kept.map fun i => xs[i]?.map key).Pairwise (· ≠ ·) := by
    rw [List.pairwise_map]
    refine h.ordered.imp_of_mem fun {i j} hi hj hij hkey => ?_
    obtain ⟨x, hx, hsome, -⟩ := (h.mem_iff i).1 hi
    obtain ⟨y, hy, -, hfirst⟩ := (h.mem_iff j).1 hj
    rw [hx, hy] at hkey
    exact hfirst i hij x hx hsome (Option.some.inj hkey)
  rw [← h.names_eq hname, List.pairwise_map] at hkept
  exact hkept.imp fun hne he => hne (congrArg some he)

/-- **The names of the results are the keys of the members that have one.** -/
theorem mem_names_iff (h : Firsts key f xs kept ys) {k : κ} :
    k ∈ ys.map name ↔ ∃ x ∈ xs, (f x).isSome ∧ key x = k := by
  have hmem : k ∈ ys.map name ↔ some k ∈ kept.map fun i => xs[i]?.map key := by
    rw [← h.names_eq hname]
    constructor
    · intro hk
      exact List.mem_map.2 ⟨k, hk, rfl⟩
    · intro hk
      obtain ⟨k', hk', he⟩ := List.mem_map.1 hk
      rwa [← Option.some.inj he]
  rw [hmem, List.mem_map]
  constructor
  · rintro ⟨i, hi, hkey⟩
    obtain ⟨x, hx, hsome, -⟩ := (h.mem_iff i).1 hi
    rw [hx] at hkey
    exact ⟨x, List.mem_of_getElem? hx, hsome, Option.some.inj hkey⟩
  · rintro ⟨x, hx, hsome, hkey⟩
    obtain ⟨i, hi⟩ := List.mem_iff_getElem?.1 hx
    obtain ⟨j, hj, z, -, hz, -, hkeyz⟩ := h.exists_kept hi hsome
    refine ⟨j, hj, ?_⟩
    rw [hz, Option.map_some, hkeyz, hkey]

end Names

/-! ### What is left -/

theorem filter_zipIdx_append (xs : List α) (kept : List Nat) :
    (xs.zipIdx.filter fun e => !(kept ++ [xs.length]).contains e.2) =
      xs.zipIdx.filter fun e => !kept.contains e.2 := by
  refine List.filter_congr fun e he => ?_
  have hlt : e.2 < xs.length := by
    have := List.snd_lt_add_of_mem_zipIdx he
    omega
  rw [Bool.not_inj_iff, Bool.eq_iff_iff, List.contains_iff_mem, List.contains_iff_mem,
    List.mem_append, List.mem_singleton]
  exact or_iff_left (Nat.ne_of_lt hlt)

theorem others_keep (xs : List α) (kept : List Nat) (x : α) :
    others (xs ++ [x]) (kept ++ [xs.length]) = others xs kept := by
  rw [others, List.zipIdx_append, List.filter_append, filter_zipIdx_append, List.zipIdx_singleton,
    List.filter_cons_of_neg (by simp), List.filter_nil, List.append_nil]
  rfl

theorem others_leave (h : Firsts key f xs kept ys) (x : α) :
    others (xs ++ [x]) kept = others xs kept ++ [x] := by
  have hlast : kept.contains xs.length = false := by
    rw [Bool.eq_false_iff, Ne, List.contains_iff_mem]
    exact h.length_not_mem
  rw [others, List.zipIdx_append, List.filter_append, List.zipIdx_singleton,
    List.filter_cons_of_pos (by simpa using hlast), List.filter_nil, List.map_append]
  rfl

theorem mem_others {i : Nat} (h : xs[i]? = some x) (hmem : i ∉ kept) : x ∈ others xs kept := by
  refine List.mem_map.2 ⟨(x, i), List.mem_filter.2 ⟨List.mem_zipIdx_iff_getElem?.2 h, ?_⟩, rfl⟩
  rw [Bool.not_eq_true', Bool.eq_false_iff, Ne, List.contains_iff_mem]
  exact hmem

end Firsts

end ApiDouble
