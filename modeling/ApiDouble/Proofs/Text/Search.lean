import ApiDouble.Proofs.Collection.Lists
import ApiDouble.Text.Search

/-!
# Laws of searching and splitting

How the search meets a text piece by piece: a character at which the needle does not stand is passed
over, and a needle at the head is found there. Replacing and looking for a part follow the same
steps, so a text that is put together from pieces can be searched one piece after the other.

A text is split into the texts between its separators (`IsPart`).

Main results: `occurs_iff`, `breakAt?_eq_some_iff`, `replaceAll_append`, `splitOnce?_append`,
`mem_splitOn_iff`, `takeWhile_run`, `takeWhile_ne_append_eq_iff`.
-/

namespace ApiDouble.Text

/-! ## One step of the search -/

theorem after?_append (needle s : List Char) : after? needle (needle ++ s) = some s :=
  after?_eq_some_iff.2 rfl

theorem after?_cons_of_ne {n c : Char} (h : n ≠ c) (ns cs : List Char) :
    after? (n :: ns) (c :: cs) = none := by
  rw [after?, if_neg h]

theorem breakAt?_append (needle s : List Char) : breakAt? needle (needle ++ s) = some ([], s) := by
  cases h : needle ++ s with
  | nil =>
    obtain ⟨rfl, rfl⟩ := List.append_eq_nil_iff.1 h
    rfl
  | cons c cs => rw [breakAt?, ← h, after?_append]

theorem breakAt?_cons {needle : List Char} {c : Char} {s : List Char}
    (h : after? needle (c :: s) = none) :
    breakAt? needle (c :: s) = (breakAt? needle s).map fun p => (c :: p.1, p.2) := by
  rw [breakAt?, h]

theorem breakAt?_eq_none {c : Char} {needle s : List Char} (hc : c ∈ needle) (hs : c ∉ s) :
    breakAt? needle s = none := by
  cases h : breakAt? needle s with
  | none => rfl
  | some p =>
    exfalso
    apply hs
    rw [eq_of_breakAt? h]
    exact List.mem_append_left _ (List.mem_append_right _ hc)

/-! ## Looking for a part -/

theorem occurs_append (needle s : List Char) : occurs needle (needle ++ s) = true := by
  rw [occurs, breakAt?_append]
  rfl

theorem occurs_cons {needle : List Char} {c : Char} {s : List Char}
    (h : after? needle (c :: s) = none) : occurs needle (c :: s) = occurs needle s := by
  rw [occurs, occurs, breakAt?_cons h, Option.isSome_map]

/-- Characters other than the first one of the needle are passed over. -/
theorem occurs_append_of_not_mem {n : Char} {ns t : List Char} (h : n ∉ t) (s : List Char) :
    occurs (n :: ns) (t ++ s) = occurs (n :: ns) s := by
  induction t with
  | nil => rfl
  | cons c t ih =>
    obtain ⟨hc, ht⟩ := not_or.1 (mt List.mem_cons.2 h)
    rw [List.cons_append, occurs_cons (after?_cons_of_ne hc ns _), ih ht]

/-- **A part occurs in a text if the text can be cut around it.** -/
theorem occurs_iff {needle s : List Char} : occurs needle s ↔ ∃ a b, s = a ++ needle ++ b := by
  constructor
  · intro h
    obtain ⟨⟨a, b⟩, hb⟩ := Option.isSome_iff_exists.1 h
    exact ⟨a, b, eq_of_breakAt? hb⟩
  · rintro ⟨a, b, rfl⟩
    rw [List.append_assoc]
    induction a with
    | nil => exact occurs_append needle b
    | cons c a ih =>
      cases hc : after? needle (c :: a ++ (needle ++ b)) with
      | some r =>
        rw [after?_eq_some_iff.1 hc]
        exact occurs_append needle r
      | none =>
        rw [List.cons_append] at hc ⊢
        rw [occurs_cons hc, ih]

/-! ## The first place -/

/-- A text cut around the first place where a needle stands. -/
def FirstCut (needle s before after : List Char) : Prop :=
  s = before ++ needle ++ after ∧ ∀ a b, s = a ++ needle ++ b → before.length ≤ a.length

theorem FirstCut.unique {needle s a b a' b' : List Char} (h : FirstCut needle s a b)
    (h' : FirstCut needle s a' b') : a = a' ∧ b = b' := by
  have hlength : a.length = a'.length := Nat.le_antisymm (h.2 a' b' h'.1) (h'.2 a b h.1)
  have hsame : a ++ (needle ++ b) = a' ++ (needle ++ b') := by
    rw [← List.append_assoc, ← List.append_assoc, ← h.1, ← h'.1]
  obtain ⟨ha, hrest⟩ := List.append_inj hsame hlength
  exact ⟨ha, List.append_cancel_left hrest⟩

theorem firstCut_of_breakAt? {needle s a b : List Char} (h : breakAt? needle s = some (a, b)) :
    FirstCut needle s a b := by
  refine ⟨eq_of_breakAt? h, fun a' b' hs => ?_⟩
  induction s generalizing a a' with
  | nil =>
    obtain ⟨r, -, he⟩ := Option.map_eq_some_iff.1 h
    cases he
    exact Nat.zero_le _
  | cons c s ih =>
    rw [breakAt?] at h
    split at h
    · cases h
      exact Nat.zero_le _
    · next hnone =>
      obtain ⟨⟨d, e⟩, hd, he⟩ := Option.map_eq_some_iff.1 h
      cases he
      cases a' with
      | nil =>
        have hs : c :: s = needle ++ b' := hs
        rw [after?_eq_some_iff.2 hs] at hnone
        cases hnone
      | cons c' a' => exact Nat.succ_le_succ (ih hd a' (List.tail_eq_of_cons_eq hs))

theorem firstCut_append_iff {needle before after : List Char} :
    FirstCut needle (before ++ needle ++ after) before after ↔
      FirstCut needle (before ++ needle) before [] := by
  constructor
  · intro h
    refine ⟨(List.append_nil _).symm, fun a b hs => h.2 a (b ++ after) ?_⟩
    rw [hs, List.append_assoc]
  · intro h
    -- An earlier place would end within the shorter text and be an earlier one there too.
    refine ⟨rfl, fun a b hs => Nat.le_of_not_lt fun hlt => ?_⟩
    have hlength : (a ++ needle).length ≤ (before ++ needle).length := by
      simp only [List.length_append]
      omega
    obtain ⟨b', hb'⟩ : a ++ needle <+: before ++ needle :=
      List.prefix_of_prefix_length_le ⟨b, hs.symm⟩ ⟨after, rfl⟩ hlength
    exact absurd (h.2 a b' hb'.symm) (Nat.not_le.2 hlt)

theorem breakAt?_eq_none_iff {needle s : List Char} :
    breakAt? needle s = none ↔ ∀ a b, s ≠ a ++ needle ++ b := by
  constructor
  · intro h a b hs
    have hoccurs : occurs needle s = true := occurs_iff.2 ⟨a, b, hs⟩
    rw [occurs, h] at hoccurs
    cases hoccurs
  · intro h
    cases hb : breakAt? needle s with
    | none => rfl
    | some p => exact absurd (eq_of_breakAt? hb) (h p.1 p.2)

/-- **The search finds the first place.** -/
theorem breakAt?_eq_some_iff {needle s a b : List Char} :
    breakAt? needle s = some (a, b) ↔ FirstCut needle s a b := by
  constructor
  · exact firstCut_of_breakAt?
  · intro h
    cases hb : breakAt? needle s with
    | none => exact absurd h.1 (breakAt?_eq_none_iff.1 hb a b)
    | some p =>
      obtain ⟨rfl, rfl⟩ := (firstCut_of_breakAt? hb).unique h
      rfl

/-! ## Replacing -/

theorem splitAt_ne_nil (needle s : List Char) : splitAt needle s ≠ [] := by
  rw [splitAt]
  split
  · exact List.cons_ne_nil _ _
  · split
    · exact List.cons_ne_nil _ _
    · exact List.cons_ne_nil _ _

theorem splitAt_of_none {needle s : List Char} (h : breakAt? needle s = none) :
    splitAt needle s = [s] := by
  rw [splitAt]
  split
  · rfl
  · split
    · rfl
    · next hb => rw [h] at hb; cases hb

theorem splitAt_of_some {needle s a b : List Char} (hn : needle ≠ [])
    (h : breakAt? needle s = some (a, b)) : splitAt needle s = a :: splitAt needle b := by
  rw [splitAt, dif_neg hn]
  split
  · next hb => rw [h] at hb; cases hb
  · next hb =>
    rw [h] at hb
    cases hb
    rfl

theorem replaceAll_nil {needle : List Char} (hn : needle ≠ []) (replacement : List Char) :
    replaceAll needle replacement [] = [] := by
  have h : breakAt? needle [] = none := by
    cases needle with
    | nil => exact absurd rfl hn
    | cons n ns => rfl
  rw [replaceAll, splitAt_of_none h, List.intercalate_singleton]

/-- **A needle at the head of a text is replaced.** -/
theorem replaceAll_append {needle : List Char} (hn : needle ≠ []) (replacement s : List Char) :
    replaceAll needle replacement (needle ++ s) =
      replacement ++ replaceAll needle replacement s := by
  rw [replaceAll, splitAt_of_some hn (breakAt?_append needle s),
    List.intercalate_cons_of_ne_nil (splitAt_ne_nil needle s)]
  rfl

theorem replaceAll_cons {needle : List Char} {c : Char} {s : List Char}
    (h : after? needle (c :: s) = none) (replacement : List Char) :
    replaceAll needle replacement (c :: s) = c :: replaceAll needle replacement s := by
  have hn : needle ≠ [] := by
    rintro rfl
    cases h
  unfold replaceAll
  cases hb : breakAt? needle s with
  | none =>
    have hb' : breakAt? needle (c :: s) = none := by rw [breakAt?_cons h, hb]; rfl
    rw [splitAt_of_none hb', splitAt_of_none hb, List.intercalate_singleton,
      List.intercalate_singleton]
  | some p =>
    have hb' : breakAt? needle (c :: s) = some (c :: p.1, p.2) := by
      rw [breakAt?_cons h, hb]; rfl
    rw [splitAt_of_some hn hb', splitAt_of_some hn hb, List.intercalate_cons_cons_left]

theorem replaceAll_append_of_not_mem {n : Char} {ns t : List Char} (h : n ∉ t)
    (replacement s : List Char) :
    replaceAll (n :: ns) replacement (t ++ s) = t ++ replaceAll (n :: ns) replacement s := by
  induction t with
  | nil => rfl
  | cons c t ih =>
    obtain ⟨hc, ht⟩ := not_or.1 (mt List.mem_cons.2 h)
    rw [List.cons_append, replaceAll_cons (after?_cons_of_ne hc ns _), ih ht, List.cons_append]

/-! ## Splitting once -/

/-- **The first separator divides a text.** -/
theorem splitOnce?_append {c : Char} {a : List Char} (h : c ∉ a) (b : List Char) :
    splitOnce? c (a ++ c :: b) = some (a, b) := by
  unfold splitOnce?
  induction a with
  | nil => exact breakAt?_append [c] b
  | cons d a ih =>
    obtain ⟨hd, ha⟩ := not_or.1 (mt List.mem_cons.2 h)
    rw [List.cons_append, breakAt?_cons (after?_cons_of_ne hd [] _), ih ha]
    rfl

theorem splitOnce?_of_not_mem {c : Char} {s : List Char} (h : c ∉ s) : splitOnce? c s = none := by
  unfold splitOnce?
  induction s with
  | nil => rfl
  | cons d s ih =>
    obtain ⟨hd, hs⟩ := not_or.1 (mt List.mem_cons.2 h)
    rw [breakAt?_cons (after?_cons_of_ne hd [] s), ih hs]
    rfl

theorem firstCut_singleton_iff {c : Char} {s before after : List Char} :
    FirstCut [c] s before after ↔ s = before ++ c :: after ∧ c ∉ before := by
  constructor
  · intro h
    refine ⟨by simpa using h.1, fun hmem => ?_⟩
    obtain ⟨a, b, rfl⟩ := List.append_of_mem hmem
    have hlength := h.2 a (b ++ c :: after) (by simp [h.1])
    simp only [List.length_append, List.length_cons] at hlength
    omega
  · rintro ⟨rfl, hmem⟩
    exact breakAt?_eq_some_iff.1 (splitOnce?_append hmem after)

/-! ## Splitting at every separator -/

/-- A part of a text has no separator, and what stands before it and behind it is nothing or a text
with a separator next to the part. -/
def IsPart (separator : Char) (s part : List Char) : Prop :=
  separator ∉ part ∧ ∃ before after, s = before ++ part ++ after ∧
    (∀ c ∈ before.getLast?, c = separator) ∧ ∀ c ∈ after.head?, c = separator

section Parts

variable {c : Char} {s t part : List Char}

theorem isPart_iff_of_not_mem (h : c ∉ s) : IsPart c s part ↔ part = s := by
  constructor
  · rintro ⟨-, before, after, rfl, hbefore, hafter⟩
    have hnone : before = [] := by
      rcases List.eq_nil_or_concat before with hnil | ⟨front, d, rfl⟩
      · exact hnil
      · obtain rfl : d = c := hbefore d (by simp)
        simp at h
    have hnone' : after = [] := by
      cases after with
      | nil => rfl
      | cons d after =>
        obtain rfl : d = c := hafter d rfl
        simp at h
    rw [hnone, hnone', List.append_nil, List.nil_append]
  · rintro rfl
    exact ⟨h, [], [], by simp, by simp, by simp⟩

/-- The parts of two texts with a separator between them are the parts of either. -/
theorem isPart_append_cons_iff :
    IsPart c (s ++ c :: t) part ↔ IsPart c s part ∨ IsPart c t part := by
  constructor
  · rintro ⟨hpart, before, after, hs, hbefore, hafter⟩
    -- The separator between the texts is none of the characters of the part.
    rcases before_or_behind_of_not_mem hpart hs with ⟨front, rfl, ht⟩ | ⟨back, rfl, hs'⟩
    · refine .inr ⟨hpart, front, after, ht, fun d hd => hbefore d ?_, hafter⟩
      simp [List.getLast?_append, List.getLast?_cons, Option.mem_def.1 hd]
    · refine .inl ⟨hpart, before, back, hs', hbefore, fun d hd => hafter d ?_⟩
      simp [List.head?_append, Option.mem_def.1 hd]
  · rintro (h | h)
    · obtain ⟨hpart, before, after, rfl, hbefore, hafter⟩ := h
      refine ⟨hpart, before, after ++ c :: t, by simp, hbefore, fun d hd => ?_⟩
      cases after with
      | nil => exact (Option.some.inj hd).symm
      | cons e after => exact hafter d hd
    · obtain ⟨hpart, before, after, rfl, hbefore, hafter⟩ := h
      refine ⟨hpart, s ++ c :: before, after, by simp, fun d hd => ?_, hafter⟩
      rcases List.eq_nil_or_concat before with rfl | ⟨front, e, rfl⟩
      · simpa [eq_comm] using hd
      · exact hbefore d (by simpa [List.getLast?_append, List.getLast?_cons] using hd)

/-- **A text is split into its parts.** -/
theorem mem_splitOn_iff : part ∈ splitOn c s ↔ IsPart c s part := by
  unfold splitOn
  induction s using partInduction c with
  | last s h => rw [List.splitOn_eq_singleton h, List.mem_singleton, isPart_iff_of_not_mem h]
  | next s t h ih =>
    rw [List.splitOn_append_cons_self_of_not_mem h, List.mem_cons, ih, isPart_append_cons_iff,
      isPart_iff_of_not_mem h]

end Parts

/-! ## Joining -/

/-- Texts joined by a character, which also stands in front, are texts each behind the character. -/
theorem cons_intercalate_eq_flatMap (c : Char) {ts : List (List Char)} (h : ts ≠ []) :
    c :: [c].intercalate ts = ts.flatMap (c :: ·) := by
  induction ts with
  | nil => exact absurd rfl h
  | cons t ts ih =>
    by_cases hts : ts = []
    · simp [hts]
    · rw [List.intercalate_cons_of_ne_nil hts, List.flatMap_cons, ← ih hts]
      simp

/-! ## Runs of a class of characters -/

section Run

variable {p : Char → Bool} {run rest : List Char}

theorem takeWhile_run (hrun : ∀ c ∈ run, p c = true) (hrest : ∀ c ∈ rest.head?, p c = false) :
    (run ++ rest).takeWhile p = run := by
  rw [List.takeWhile_append_of_pos hrun]
  cases rest with
  | nil => exact List.append_nil run
  | cons c rest => rw [List.takeWhile_cons_of_neg (by simp [hrest c rfl]), List.append_nil]

theorem dropWhile_run (hrun : ∀ c ∈ run, p c = true) (hrest : ∀ c ∈ rest.head?, p c = false) :
    (run ++ rest).dropWhile p = rest := by
  rw [List.dropWhile_append_of_pos hrun]
  cases rest with
  | nil => rfl
  | cons c rest => rw [List.dropWhile_cons_of_neg (by simp [hrest c rfl])]

end Run

/-! ## Text up to a character -/

theorem takeWhile_ne_append {c : Char} {s : List Char} (h : c ∉ s) (t : List Char) :
    (s ++ t).takeWhile (· != c) = s ++ t.takeWhile (· != c) := by
  refine List.takeWhile_append_of_pos fun d hd => ?_
  rw [bne_iff_ne]
  rintro rfl
  exact h hd

theorem dropWhile_ne_append {c : Char} {s : List Char} (h : c ∉ s) (t : List Char) :
    (s ++ t).dropWhile (· != c) = t.dropWhile (· != c) := by
  refine List.dropWhile_append_of_pos fun d hd => ?_
  rw [bne_iff_ne]
  rintro rfl
  exact h hd

theorem takeWhile_ne_append_eq_iff {c : Char} {s t : List Char} (h : c ∉ s) :
    (s ++ t).takeWhile (· != c) = s ↔ ∀ d ∈ t.head?, d = c := by
  rw [takeWhile_ne_append h]
  cases t with
  | nil => simp
  | cons d t => simp [List.takeWhile_cons]

theorem dropWhile_ne_eq_self {c : Char} {s : List Char} (h : ∀ d ∈ s.head?, d = c) :
    s.dropWhile (· != c) = s := by
  cases s with
  | nil => rfl
  | cons d s =>
    obtain rfl : d = c := h d rfl
    rw [List.dropWhile_cons_of_neg (by simp)]

theorem dropWhile_ne_append_of_head? {c : Char} {s : List Char} (h : s.head? = some c)
    (t : List Char) : (s ++ t).dropWhile (· != c) = s ++ t := by
  apply dropWhile_ne_eq_self
  cases s with
  | nil => cases h
  | cons d s => simpa using h

theorem not_mem_takeWhile_ne (c : Char) (s : List Char) : c ∉ s.takeWhile (· != c) := by
  intro h
  have hne := List.all_eq_true.1 List.all_takeWhile c h
  simp at hne

theorem head?_dropWhile_ne {c d : Char} {s : List Char}
    (h : (s.dropWhile (· != c)).head? = some d) : d = c := by
  have hd := List.head?_dropWhile_not (· != c) s
  rw [h] at hd
  simpa using hd

theorem eq_of_dropWhile_ne {c d : Char} {s rest : List Char}
    (h : s.dropWhile (· != c) = d :: rest) : s = s.takeWhile (· != c) ++ c :: rest := by
  obtain rfl : d = c := head?_dropWhile_ne (by rw [h]; rfl)
  rw [← h]
  exact List.takeWhile_append_dropWhile.symm

end ApiDouble.Text
