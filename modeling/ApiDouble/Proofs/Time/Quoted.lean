import ApiDouble.Proofs.Time.Format

/-!
# Texts in quotes

**Quoting a text.** A text is put between quotes, and the quotes in it are written twice (`quoted`).

**Two quotes are one only outside of a quoted text.** Inside of it, the first of two quotes closes
it and the second one opens the next. So a quoted text falls apart into its parts between the
quotes, each of them between two quotes of its own (`quoted_append`). A part that is not empty is a
quoted text, and the quote between it and the next one is lost; an empty part is two quotes, which
are one (`kept`).

**What comes back** (`read_quoted`). As many quotes come back as there are empty parts, and there is
one part more than there are quotes. So the text comes back just if all its parts but one are empty:
its quotes stand at its ends, around something else.

Main results: `means_quoted`, `kept_eq_self_iff`, `read_quoted`.
-/

namespace ApiDouble.Time

open Text

/-! ## Quoting -/

/-- A text with one of its characters written twice. -/
def doubled (c : Char) (s : List Char) : List Char :=
  s.flatMap fun d => if d = c then [c, c] else [d]

/-- A text between quotes, the quotes in it written twice. -/
def quoted (s : List Char) : List Char := '\'' :: (doubled '\'' s ++ ['\''])

/-- What comes back of a part without quotes. -/
def keptPart (part : List Char) : List Char := if part.isEmpty then ['\''] else part

/-- What comes back of a text in quotes. -/
def kept (s : List Char) : List Char := (splitOn '\'' s).flatMap keptPart

/-- A text has quotes at its ends only, around something else. -/
def QuotesAtEnds (s : List Char) : Prop :=
  ∃ a text b, s = List.replicate a '\'' ++ text ++ List.replicate b '\'' ∧
    text ≠ [] ∧ '\'' ∉ text

section Parts

variable {part rest : List Char}

theorem doubled_append (c : Char) (s t : List Char) :
    doubled c (s ++ t) = doubled c s ++ doubled c t := List.flatMap_append

theorem doubled_of_not_mem {c : Char} {s : List Char} (h : c ∉ s) : doubled c s = s := by
  induction s with
  | nil => rfl
  | cons d s ih =>
    obtain ⟨hd, hs⟩ := List.ne_and_not_mem_of_not_mem_cons h
    rw [doubled, List.flatMap_cons, if_neg (Ne.symm hd)]
    exact congrArg (d :: ·) (ih hs)

theorem quoted_of_not_mem (h : '\'' ∉ part) : quoted part = '\'' :: (part ++ ['\'']) := by
  rw [quoted, doubled_of_not_mem h]

/-- A quote in a text closes the part before it and opens the part behind it. -/
theorem quoted_append (h : '\'' ∉ part) (rest : List Char) :
    quoted (part ++ '\'' :: rest) = '\'' :: (part ++ '\'' :: quoted rest) := by
  rw [quoted, doubled_append, doubled_of_not_mem h, List.append_assoc]
  rfl

theorem kept_of_not_mem (h : '\'' ∉ part) : kept part = keptPart part := by
  rw [kept, splitOn, List.splitOn_eq_singleton h, List.flatMap_singleton]

theorem kept_append (h : '\'' ∉ part) (rest : List Char) :
    kept (part ++ '\'' :: rest) = keptPart part ++ kept rest := by
  rw [kept, splitOn, List.splitOn_append_cons_self, List.flatMap_append,
    List.splitOn_eq_singleton h, List.flatMap_singleton]
  rfl

theorem means_part {items : List Item} (h : '\'' ∉ part) (hrest : Means rest items) :
    Means ('\'' :: (part ++ '\'' :: rest)) ((keptPart part).map .literal ++ items) := by
  cases part with
  | nil => exact .quote hrest
  | cons c part => exact .quoted (List.cons_ne_nil c part) h hrest

end Parts

/-- **What a text in quotes means.** -/
theorem means_quoted (s : List Char) : Means (quoted s) ((kept s).map .literal) := by
  induction s using partInduction '\'' with
  | last part h =>
    rw [quoted_of_not_mem h, kept_of_not_mem h]
    have hpart := means_part h .done
    rwa [List.append_nil] at hpart
  | next part rest h ih =>
    rw [quoted_append h, kept_append h, List.map_append]
    exact means_part h ih

/-! ## When the text comes back -/

section Ends

variable {c : Char} {part rest : List Char}

theorem exists_replicate_cons_iff :
    (∃ n, '\'' :: rest = List.replicate n '\'') ↔ ∃ n, rest = List.replicate n '\'' := by
  constructor
  · rintro ⟨n, hn⟩
    cases n with
    | zero => cases hn
    | succ n => exact ⟨n, List.tail_eq_of_cons_eq hn⟩
  · rintro ⟨n, rfl⟩
    exact ⟨n + 1, rfl⟩

theorem ne_replicate (hc : c ≠ '\'') : ¬∃ n, c :: rest = List.replicate n '\'' := by
  rintro ⟨n, hn⟩
  exact hc (List.eq_of_mem_replicate (hn ▸ List.mem_cons_self))

theorem quotesAtEnds_cons_iff : QuotesAtEnds ('\'' :: rest) ↔ QuotesAtEnds rest := by
  constructor
  · rintro ⟨a, text, b, hs, hne, htext⟩
    cases a with
    | zero =>
      obtain ⟨c, text, rfl⟩ := List.exists_cons_of_ne_nil hne
      obtain ⟨rfl, -⟩ := List.cons.inj hs
      exact absurd List.mem_cons_self htext
    | succ a => exact ⟨a, text, b, List.tail_eq_of_cons_eq hs, hne, htext⟩
  · rintro ⟨a, text, b, rfl, hne, htext⟩
    exact ⟨a + 1, text, b, rfl, hne, htext⟩

theorem quotesAtEnds_append_iff (hne : part ≠ []) (h : '\'' ∉ part) :
    QuotesAtEnds (part ++ '\'' :: rest) ↔ ∃ n, rest = List.replicate n '\'' := by
  constructor
  · rintro ⟨a, text, b, hs, -, htext⟩
    cases a with
    | zero =>
      cases b with
      | zero =>
        rw [List.replicate_zero, List.nil_append, List.append_nil] at hs
        exact absurd (hs ▸ List.mem_append_right part List.mem_cons_self) htext
      | succ b =>
        -- Both sides are cut at their first quote.
        have hcut : some (part, rest) = some (text, List.replicate b '\'') := by
          rw [← splitOnce?_append h, hs]
          exact splitOnce?_append htext _
        exact ⟨b, congrArg Prod.snd (Option.some.inj hcut)⟩
    | succ a =>
      obtain ⟨c, part, rfl⟩ := List.exists_cons_of_ne_nil hne
      obtain ⟨rfl, -⟩ := List.cons.inj hs
      exact absurd List.mem_cons_self h
  · rintro ⟨n, rfl⟩
    exact ⟨0, part, n + 1, rfl, hne, h⟩

end Ends

/-- A text comes back with a quote in front of it just if it has nothing but quotes. -/
theorem kept_eq_cons_iff (s : List Char) :
    kept s = '\'' :: s ↔ ∃ n, s = List.replicate n '\'' := by
  induction s using partInduction '\'' with
  | last part h =>
    rw [kept_of_not_mem h]
    cases part with
    | nil => exact iff_of_true rfl ⟨0, rfl⟩
    | cons c part =>
      have hc := (List.ne_and_not_mem_of_not_mem_cons h).1.symm
      exact iff_of_false (fun heq => hc (List.cons.inj heq).1) (ne_replicate hc)
  | next part rest h ih =>
    rw [kept_append h]
    cases part with
    | nil => exact (List.cons_inj_right '\'').trans (ih.trans exists_replicate_cons_iff.symm)
    | cons c part =>
      have hc := (List.ne_and_not_mem_of_not_mem_cons h).1.symm
      exact iff_of_false (fun heq => hc (List.cons.inj heq).1) (ne_replicate hc)

/-- **A text comes back just if its quotes stand at its ends**, around something else. -/
theorem kept_eq_self_iff (s : List Char) : kept s = s ↔ QuotesAtEnds s := by
  induction s using partInduction '\'' with
  | last part h =>
    rw [kept_of_not_mem h]
    cases part with
    | nil =>
      refine iff_of_false (by decide) ?_
      rintro ⟨a, text, b, hs, hne, -⟩
      have htext := (List.append_eq_nil_iff.1 (List.append_eq_nil_iff.1 hs.symm).1).2
      exact hne htext
    | cons c part =>
      refine iff_of_true rfl ⟨0, c :: part, 0, ?_, List.cons_ne_nil c part, h⟩
      rw [List.replicate_zero, List.nil_append, List.append_nil]
  | next part rest h ih =>
    rw [kept_append h]
    cases part with
    | nil =>
      rw [List.nil_append, quotesAtEnds_cons_iff, ← ih]
      exact List.cons_inj_right '\''
    | cons c part =>
      rw [quotesAtEnds_append_iff (List.cons_ne_nil c part) h, ← kept_eq_cons_iff]
      exact List.append_right_inj (c :: part)

/-! ## Reading a text in quotes -/

theorem percentFormat_literals (s : List Char) :
    percentFormat (s.map .literal) = String.ofList (doubled '%' s) := by
  rw [percentFormat, List.flatMap_map]
  rfl

theorem doubled_percent_inj {s t : List Char} (h : doubled '%' s = doubled '%' t) : s = t := by
  have hitems : s.map Item.literal = t.map Item.literal := by
    rw [← Option.some.injEq, ← percentItems?_percentFormat, ← percentItems?_percentFormat,
      percentFormat_literals, percentFormat_literals, h]
  exact (List.map_inj_right fun c d hcd => Item.literal.inj hcd).1 hitems

theorem map_read_quoted (s : List Char) :
    (read (String.ofList (quoted s))).map percentFormat =
      .ok (String.ofList (doubled '%' (kept s))) := by
  refine map_eq_ok_iff.2 ⟨(kept s).map .literal, ?_, percentFormat_literals _⟩
  rw [String.toList_ofList]
  exact means_quoted s

/-- **The percent format of a text in quotes** is what is kept of the text, and it is the text
itself just if its quotes stand at its ends. -/
theorem read_quoted (s : List Char) :
    (read (String.ofList (quoted s))).map percentFormat =
        .ok (String.ofList (doubled '%' (kept s))) ∧
      ((read (String.ofList (quoted s))).map percentFormat =
          .ok (String.ofList (doubled '%' s)) ↔ QuotesAtEnds s) := by
  refine ⟨map_read_quoted s, ?_⟩
  rw [map_read_quoted, ← kept_eq_self_iff]
  refine ⟨fun h => ?_, fun h => by rw [h]⟩
  exact doubled_percent_inj (String.ofList_injective (Except.ok.inj h))

/-- **A quote between two words is lost.** -/
theorem read_its :
    quoted "it's".toList = "'it''s'".toList ∧
      (read "'it''s'").map percentFormat = .ok "its" ∧
      (read "'it''s'").map percentFormat ≠ .ok (String.ofList (doubled '%' "it's".toList)) := by
  have hread : (read "'it''s'").map percentFormat = .ok "its" := map_read_quoted "it's".toList
  refine ⟨by decide, hread, fun h => ?_⟩
  rw [hread] at h
  exact absurd (Except.ok.inj h) (by decide)

end ApiDouble.Time
