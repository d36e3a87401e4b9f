import ApiDouble.Proofs.Text.Search
import ApiDouble.Time.Pattern

/-!
# What a date pattern means

**The rules** (`Means`). A pattern is divided from left to right. A run of one letter is a field,
and it goes on as far as the letter is repeated. Two quotes are a quote; one quote opens a text that
goes on to the next quote, and everything in it stands for itself. Any other character stands for
itself.

**Where they stop** (`Stops`). None of the rules goes on at a quote that has no partner, nor at a
letter that stands for no field. A pattern that the rules do not divide to its end has a first part
that they do divide, and one of these two behind it (`exists_means`).

**Reading follows the rules.** What a first part means is read off it, whatever follows, as long as
its last run of letters cannot go on (`Means.readPart_append`). So the items that are read are what
the pattern means, and the error is the place where the rules stop.

Main results: `read_eq_ok_iff`, `read_eq_error_iff`.
-/

namespace ApiDouble.Time

open Text

/-! ## The letters of fields -/

/-- The letters that stand for fields. -/
def fieldLetters : List Char :=
  ['y', 'M', 'd', 'H', 'h', 'm', 's', 'S', 'a', 'E', 'D', 'Z', 'X', 'z']

theorem isAlpha_of_mem_fieldLetters : ∀ c ∈ fieldLetters, c.isAlpha = true :=
  List.all_eq_true.1 (by decide)

theorem isSome_ofRun? (n : Nat) : ∀ c ∈ fieldLetters, (Field.ofRun? c n).isSome = true := by
  simp [fieldLetters, Field.ofRun?]

theorem ofRun?_eq_none_iff {c : Char} {n : Nat} : Field.ofRun? c n = none ↔ c ∉ fieldLetters := by
  constructor
  · intro hnone hc
    have hsome := isSome_ofRun? n c hc
    rw [hnone] at hsome
    cases hsome
  · intro hc
    rw [Field.ofRun?] <;> exact fun h => hc (h ▸ by decide)

theorem mem_fieldLetters_of_ofRun? {c : Char} {n : Nat} {f : Field}
    (h : Field.ofRun? c n = some f) : c ∈ fieldLetters := by
  refine Decidable.byContradiction fun hc => ?_
  rw [ofRun?_eq_none_iff.2 hc] at h
  cases h

/-! ## The rules -/

/-- What a pattern means. -/
inductive Means : List Char → List Item → Prop
  | done : Means [] []
  | quote {rest : List Char} {items : List Item} :
      Means rest items → Means ('\'' :: '\'' :: rest) (.literal '\'' :: items)
  | quoted {text rest : List Char} {items : List Item} : text ≠ [] → '\'' ∉ text →
      Means rest items → Means ('\'' :: (text ++ '\'' :: rest)) (text.map .literal ++ items)
  | run {c : Char} {n : Nat} {f : Field} {rest : List Char} {items : List Item} :
      Field.ofRun? c (n + 1) = some f → rest.head? ≠ some c →
      Means rest items → Means (List.replicate (n + 1) c ++ rest) (.field f :: items)
  | plain {c : Char} {rest : List Char} {items : List Item} : c ≠ '\'' → c.isAlpha = false →
      Means rest items → Means (c :: rest) (.literal c :: items)

/-- Where no rule goes on, and why. -/
inductive Stops (pattern : String) : List Char → PatternError → Prop
  | quote {text : List Char} : '\'' ∉ text → Stops pattern ('\'' :: text) (.unterminated pattern)
  | letter {c : Char} {rest : List Char} : c.isAlpha = true → c ∉ fieldLetters →
      Stops pattern (c :: rest) (.illegal c)

/-- The rules stop behind a first part of a pattern. -/
def Fails (pattern : String) (e : PatternError) : Prop :=
  ∃ front rest items, pattern.toList = front ++ rest ∧ Means front items ∧ Stops pattern rest e

/-! ## Reading a rule at a time -/

section Reading

variable {pattern : String} {text rest : List Char} {c : Char}

theorem readPart_quote :
    readPart pattern ('\'' :: '\'' :: rest) =
      (readPart pattern rest).map (.literal '\'' :: ·) := by
  rw [readPart]
  rfl

theorem readPart_quoted (hne : text ≠ []) (hquote : '\'' ∉ text) :
    readPart pattern ('\'' :: (text ++ '\'' :: rest)) =
      (readPart pattern rest).map (text.map Item.literal ++ ·) := by
  have hbreak : breakAt? ['\''] (text ++ '\'' :: rest) = some (text, rest) :=
    splitOnce?_append hquote rest
  rw [readPart]
  · split
    · next hnone => rw [hbreak] at hnone; cases hnone
    · next hsome =>
      rw [hbreak] at hsome
      cases hsome
      rfl
  · intro rest' htext
    obtain ⟨d, text, rfl⟩ := List.exists_cons_of_ne_nil hne
    obtain ⟨rfl, -⟩ := List.cons.inj htext
    exact hquote List.mem_cons_self

theorem readPart_open (hquote : '\'' ∉ rest) :
    readPart pattern ('\'' :: rest) = .error (.unterminated pattern) := by
  have hbreak : breakAt? ['\''] rest = none := splitOnce?_of_not_mem hquote
  rw [readPart]
  · split
    · rfl
    · next hsome => rw [hbreak] at hsome; cases hsome
  · rintro rest' rfl
    exact hquote List.mem_cons_self

theorem readPart_letter (hletter : c.isAlpha = true) :
    readPart pattern (c :: rest) =
      match Field.ofRun? c ((rest.takeWhile (· == c)).length + 1) with
      | none => .error (.illegal c)
      | some f => (readPart pattern (rest.dropWhile (· == c))).map (.field f :: ·) := by
  have hne : c ≠ '\'' := by
    rintro rfl
    cases hletter
  rw [readPart, if_pos hletter]
  · rfl
  · exact fun _ h _ => hne h
  · exact hne

/-- A run goes on as far as its letter is repeated. -/
theorem readPart_run {n : Nat} {f : Field} (hf : Field.ofRun? c (n + 1) = some f)
    (hrest : rest.head? ≠ some c) :
    readPart pattern (List.replicate (n + 1) c ++ rest) =
      (readPart pattern rest).map (.field f :: ·) := by
  have hletter := isAlpha_of_mem_fieldLetters c (mem_fieldLetters_of_ofRun? hf)
  have hall : ∀ d ∈ List.replicate n c, (d == c) = true := fun d hd =>
    beq_iff_eq.2 (List.eq_of_mem_replicate hd)
  have hstop : ∀ d ∈ rest.head?, (d == c) = false := by
    intro d hd
    rw [beq_eq_false_iff_ne]
    rintro rfl
    exact hrest hd
  rw [List.replicate_succ, List.cons_append, readPart_letter hletter, takeWhile_run hall hstop,
    dropWhile_run hall hstop, List.length_replicate, hf]

theorem readPart_plain (hquote : c ≠ '\'') (hletter : c.isAlpha = false) :
    readPart pattern (c :: rest) = (readPart pattern rest).map (.literal c :: ·) := by
  rw [readPart, if_neg (by simp [hletter])]
  · rfl
  · exact fun _ h _ => hquote h
  · exact hquote

end Reading

/-! ## Reading follows the rules -/

section Rules

variable {pattern : String} {s rest : List Char} {items : List Item} {e : PatternError}

theorem Stops.readPart (h : Stops pattern rest e) : readPart pattern rest = .error e := by
  cases h with
  | quote hquote => exact readPart_open hquote
  | letter hletter hc => rw [readPart_letter hletter, ofRun?_eq_none_iff.2 hc]

/-- A run of letters does not go on where the rules stop. -/
theorem Stops.head?_not_mem (h : Stops pattern rest e) :
    ∀ c, rest.head? = some c → c ∉ fieldLetters := by
  rintro c hc
  cases h with
  | quote _ =>
    obtain rfl := Option.some.inj hc
    decide
  | letter _ hnot =>
    obtain rfl := Option.some.inj hc
    exact hnot

/-- What a first part means is read off it. -/
theorem Means.readPart_append (h : Means s items)
    (hrest : ∀ c, rest.head? = some c → c ∉ fieldLetters) :
    readPart pattern (s ++ rest) = (readPart pattern rest).map (items ++ ·) := by
  have hmap : ∀ (front more : List Item),
      ((readPart pattern rest).map (more ++ ·)).map (front ++ ·) =
        (readPart pattern rest).map (front ++ more ++ ·) := by
    intro front more
    cases readPart pattern rest with
    | error e => rfl
    | ok items => exact congrArg Except.ok (List.append_assoc front more items).symm
  induction h with
  | done =>
    rw [List.nil_append]
    cases readPart pattern rest <;> rfl
  | quote _ ih =>
    rw [List.cons_append, List.cons_append, readPart_quote, ih]
    exact hmap [.literal '\''] _
  | quoted hne hquote _ ih =>
    rw [List.cons_append, List.append_assoc, List.cons_append, readPart_quoted hne hquote, ih]
    exact hmap _ _
  | @run c n f s items hf hs _ ih =>
    -- The run ends within the first part, or at its end, and then no letter of a field follows.
    have hend : (s ++ rest).head? ≠ some c := by
      cases s with
      | nil => exact fun hc => hrest c hc (mem_fieldLetters_of_ofRun? hf)
      | cons d s => exact hs
    rw [List.append_assoc, readPart_run hf hend, ih]
    exact hmap [.field f] _
  | @plain c s items hquote hletter _ ih =>
    rw [List.cons_append, readPart_plain hquote hletter, ih]
    exact hmap [.literal c] _

theorem Means.readPart (h : Means s items) : readPart pattern s = .ok items := by
  have hread : Time.readPart pattern (s ++ []) = (Time.readPart pattern []).map (items ++ ·) :=
    h.readPart_append fun c hc => by cases hc
  rw [List.append_nil, Time.readPart] at hread
  rw [hread]
  exact congrArg Except.ok (List.append_nil items)

/-- A pattern has one meaning. -/
theorem Means.unique {items' : List Item} (h : Means s items) (h' : Means s items') :
    items = items' := by
  have hread : Time.readPart "" s = .ok items := h.readPart
  exact Except.ok.inj (hread.symm.trans h'.readPart)

/-- The rules divide a pattern up to its end, or to a place where they stop. -/
theorem exists_means (pattern : String) (s : List Char) :
    ∃ front rest items, s = front ++ rest ∧ Means front items ∧
      (rest = [] ∨ ∃ e, Stops pattern rest e) := by
  -- The cases are those of the reader: where it fails, the rules stop.
  induction s using Time.readPart.induct with
  | case1 => exact ⟨[], [], [], rfl, .done, .inl rfl⟩
  | case2 s ih =>
    obtain ⟨front, rest, items, rfl, hmeans, hend⟩ := ih
    exact ⟨_, rest, _, rfl, .quote hmeans, hend⟩
  | case3 s _ hbreak =>
    have hquote : '\'' ∉ s := by
      intro hmem
      obtain ⟨text, s, rfl, htext⟩ := List.eq_append_cons_of_mem hmem
      cases (splitOnce?_append htext s).symm.trans hbreak
    exact ⟨[], _, [], rfl, .done, .inr ⟨_, .quote hquote⟩⟩
  | case4 s hne text s' hbreak _ ih =>
    obtain ⟨front, rest, items, rfl, hmeans, hend⟩ := ih
    have hmem : '\'' ∈ s := by
      rw [eq_of_breakAt? hbreak]
      simp
    obtain ⟨text', s', rfl, htext⟩ := List.eq_append_cons_of_mem hmem
    cases (splitOnce?_append htext s').symm.trans hbreak
    have hne : text ≠ [] := by
      rintro rfl
      exact hne _ rfl
    refine ⟨_, rest, _, ?_, .quoted hne htext hmeans, hend⟩
    rw [List.cons_append, List.append_assoc, List.cons_append]
  | case5 c s _ _ hletter hf =>
    exact ⟨[], _, [], rfl, .done, .inr ⟨_, .letter hletter (ofRun?_eq_none_iff.1 hf)⟩⟩
  | case6 c s _ _ hletter f hf ih =>
    obtain ⟨front, rest, items, hs, hmeans, hend⟩ := ih
    have hrun : s.takeWhile (· == c) = List.replicate (s.takeWhile (· == c)).length c := by
      refine List.eq_replicate_iff.2 ⟨rfl, fun d hd => ?_⟩
      exact beq_iff_eq.1 (List.all_eq_true.1 List.all_takeWhile d hd)
    -- The reader takes all of a run, so the letter does not go on behind it.
    have hfront : front.head? ≠ some c := by
      intro hc
      have hstop := List.head?_dropWhile_not (· == c) s
      rw [hs, List.head?_append, hc] at hstop
      simp at hstop
    refine ⟨_, rest, _, ?_, .run hf hfront hmeans, hend⟩
    rw [List.replicate_succ, ← hrun, List.append_assoc, ← hs, List.cons_append,
      List.takeWhile_append_dropWhile]
  | case7 c s _ hquote hletter ih =>
    obtain ⟨front, rest, items, rfl, hmeans, hend⟩ := ih
    exact ⟨_, rest, _, rfl, .plain hquote (Bool.eq_false_iff.2 hletter) hmeans, hend⟩

end Rules

/-! ## The pattern as a whole -/

section Pattern

variable {pattern : String}

theorem Fails.read {e : PatternError} (h : Fails pattern e) : read pattern = .error e := by
  obtain ⟨front, rest, items, hpattern, hmeans, hstops⟩ := h
  rw [Time.read, hpattern, hmeans.readPart_append hstops.head?_not_mem, hstops.readPart]
  rfl

theorem means_or_fails (pattern : String) :
    (∃ items, Means pattern.toList items) ∨ ∃ e, Fails pattern e := by
  obtain ⟨front, rest, items, hpattern, hmeans, rfl | ⟨e, hstops⟩⟩ :=
    exists_means pattern pattern.toList
  · rw [List.append_nil] at hpattern
    exact .inl ⟨items, hpattern ▸ hmeans⟩
  · exact .inr ⟨e, front, rest, items, hpattern, hmeans, hstops⟩

/-- **What is read is what the pattern means.** -/
theorem read_eq_ok_iff {items : List Item} :
    read pattern = .ok items ↔ Means pattern.toList items := by
  refine ⟨fun hread => ?_, fun h => h.readPart⟩
  obtain ⟨items', hmeans⟩ | ⟨e, hfails⟩ := means_or_fails pattern
  · obtain rfl : items' = items := Except.ok.inj (hmeans.readPart.symm.trans hread)
    exact hmeans
  · cases hfails.read.symm.trans hread

/-- **Reading fails just where the rules stop**, and says why they do. -/
theorem read_eq_error_iff {e : PatternError} : read pattern = .error e ↔ Fails pattern e := by
  refine ⟨fun hread => ?_, Fails.read⟩
  obtain ⟨items, hmeans⟩ | ⟨e', hfails⟩ := means_or_fails pattern
  · cases (read_eq_ok_iff.2 hmeans).symm.trans hread
  · obtain rfl : e' = e := Except.error.inj (hfails.read.symm.trans hread)
    exact hfails

end Pattern

end ApiDouble.Time
