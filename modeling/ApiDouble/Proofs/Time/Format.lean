import ApiDouble.Proofs.Time.Pattern
import ApiDouble.Template.Function

/-!
# Percent formats say what patterns mean

**Percent formats.** A percent sign opens a conversion: a letter that stands for a field, and in
front of it a flag that drops the padding, a width or a colon, if there is one
(`Field.ofConversion?`). Two percent signs are one, and any other character stands for itself. A
format with a percent sign that opens no conversion cannot be read (`percentItems?`), and then no
moment can be written in it.

**Each item can be cut off again.** Its conversion ends with its letter, so what follows does not
change how it is read, and a literal percent sign is written twice (`percentItems?_conversion`). So
a format is read as the items that it was written for, and nothing that stands for itself becomes a
part of a conversion, even if the text goes on with letters, digits or another percent sign.

**A time in a pattern.** It is therefore the same whether the items of the pattern are filled in at
once, or the pattern is put into a percent format and the format is read again. This cannot fail.

Main results: `percentItems?_percentFormat`, `percentFormat_read`.
-/

namespace ApiDouble.Time

open Template

/-! ## Reading a percent format -/

/-- The field of a letter without anything in front of it. -/
def Field.ofLetter? : Char → Option Field
  | 'Y' => some year
  | 'y' => some yearOfCentury
  | 'm' => some paddedMonth
  | 'b' => some monthName
  | 'B' => some fullMonthName
  | 'd' => some paddedDay
  | 'H' => some paddedHour
  | 'I' => some paddedHalfHour
  | 'M' => some paddedMinute
  | 'S' => some paddedSecond
  | 'p' => some half
  | 'a' => some weekday
  | 'A' => some fullWeekday
  | 'j' => some dayOfYear
  | 'z' => some offset
  | 'Z' => some zone
  | _ => none

/-- The field without its padding. -/
def Field.unpadded? : Field → Option Field
  | paddedMonth => some month
  | paddedDay => some day
  | paddedHour => some hour
  | paddedHalfHour => some halfHour
  | paddedMinute => some minute
  | paddedSecond => some second
  | _ => none

/-- The field of a conversion: a letter and what may stand in front of it. -/
def Field.ofConversion? : Option Char → Char → Option Field
  | none, letter => ofLetter? letter
  | some '-', letter => (ofLetter? letter).bind unpadded?
  | some '3', 'f' => some millis
  | some '6', 'f' => some micros
  | some '9', 'f' => some nanos
  | some ':', 'z' => some colonOffset
  | _, _ => none

/-- The flags, widths and colons that stand between a percent sign and a letter. -/
def isModifier (c : Char) : Bool := c == '-' || c == ':' || c.isDigit

/-- The field of the letter behind a flag, a width or a colon, and the text behind it. -/
def modified? (c : Char) : List Char → Option (Item × List Char)
  | [] => none
  | letter :: rest => (Field.ofConversion? (some c) letter).map fun f => (.field f, rest)

/-- What a percent sign opens, and the text behind it. -/
def opened? : List Char → Option (Item × List Char)
  | [] => none
  | c :: rest =>
    if c = '%' then some (.literal '%', rest)
    else if isModifier c then modified? c rest
    else (Field.ofConversion? none c).map fun f => (.field f, rest)

/-- The first item of a percent format, and the text behind it. -/
def firstItem? : List Char → Option (Item × List Char)
  | [] => none
  | c :: rest => if c = '%' then opened? rest else some (.literal c, rest)

theorem length_of_modified? {c : Char} {s rest : List Char} {item : Item}
    (h : modified? c s = some (item, rest)) : rest.length < s.length := by
  cases s with
  | nil => cases h
  | cons letter s =>
    obtain ⟨f, -, he⟩ := Option.map_eq_some_iff.1 h
    cases he
    exact Nat.lt_succ_self _

theorem length_of_opened? {s rest : List Char} {item : Item}
    (h : opened? s = some (item, rest)) : rest.length < s.length := by
  cases s with
  | nil => cases h
  | cons c s =>
    rw [opened?] at h
    split at h
    · cases h
      exact Nat.lt_succ_self _
    · split at h
      · exact Nat.lt_succ_of_lt (length_of_modified? h)
      · obtain ⟨f, -, he⟩ := Option.map_eq_some_iff.1 h
        cases he
        exact Nat.lt_succ_self _

theorem length_of_firstItem? {s rest : List Char} {item : Item}
    (h : firstItem? s = some (item, rest)) : rest.length < s.length := by
  cases s with
  | nil => cases h
  | cons c s =>
    rw [firstItem?] at h
    split at h
    · exact Nat.lt_succ_of_lt (length_of_opened? h)
    · cases h
      exact Nat.lt_succ_self _

/-- The items of a percent format, none if it has a conversion that does not exist. -/
def percentItems? (s : List Char) : Option (List Item) :=
  if s.isEmpty then some []
  else
    match h : firstItem? s with
    | none => none
    | some (item, rest) =>
      have := length_of_firstItem? h
      (percentItems? rest).map (item :: ·)
termination_by s.length

/-- The text of a moment in a percent format, none if the format cannot be read. -/
def percentText? (f : String) (m : Moment) : Option String :=
  (percentItems? f.toList).map (format · m)

/-! ## What was written is read again -/

/-- The conversion of a field is read as the field. -/
theorem exists_conversion (f : Field) :
    (∃ letter, f.conversion.toList = ['%', letter] ∧ letter ≠ '%' ∧ isModifier letter = false ∧
        Field.ofConversion? none letter = some f) ∨
      ∃ c letter, f.conversion.toList = ['%', c, letter] ∧ c ≠ '%' ∧ isModifier c = true ∧
        Field.ofConversion? (some c) letter = some f := by
  cases f
  all_goals first
    | exact .inl ⟨_, rfl, by decide, by decide, rfl⟩
    | exact .inr ⟨_, _, rfl, by decide, by decide, rfl⟩

/-- An item can be cut off a percent format, whatever follows. -/
theorem firstItem?_conversion (item : Item) (rest : List Char) :
    firstItem? (item.conversion ++ rest) = some (item, rest) := by
  cases item with
  | literal c =>
    by_cases hc : c = '%'
    · subst hc
      rfl
    · rw [Item.conversion, if_neg hc, List.singleton_append, firstItem?, if_neg hc]
  | field f =>
    rw [Item.conversion]
    obtain ⟨letter, htext, hne, hletter, hf⟩ | ⟨c, letter, htext, hne, hc, hf⟩ :=
      exists_conversion f
    · rw [htext, List.cons_append, List.singleton_append, firstItem?, if_pos rfl, opened?,
        if_neg hne, if_neg (Bool.eq_false_iff.1 hletter), hf]
      rfl
    · rw [htext, List.cons_append, List.cons_append, List.singleton_append, firstItem?, if_pos rfl,
        opened?, if_neg hne, if_pos hc, modified?, hf]
      rfl

theorem percentItems?_conversion (item : Item) (rest : List Char) :
    percentItems? (item.conversion ++ rest) = (percentItems? rest).map (item :: ·) := by
  have hfirst := firstItem?_conversion item rest
  have hne : ¬(item.conversion ++ rest).isEmpty = true := by
    intro hempty
    rw [List.isEmpty_iff.1 hempty] at hfirst
    cases hfirst
  rw [percentItems?, if_neg hne]
  split
  · next hnone => rw [hfirst] at hnone; cases hnone
  · next hsome =>
    rw [hfirst] at hsome
    cases hsome
    rfl

theorem percentItems?_flatMap (items : List Item) :
    percentItems? (items.flatMap Item.conversion) = some items := by
  induction items with
  | nil =>
    rw [List.flatMap_nil, percentItems?]
    rfl
  | cons item items ih =>
    rw [List.flatMap_cons, percentItems?_conversion, ih]
    rfl

/-- **A percent format is read as the items that it was written for.** -/
theorem percentItems?_percentFormat (items : List Item) :
    percentItems? (percentFormat items).toList = some items := by
  rw [percentFormat, String.toList_ofList, percentItems?_flatMap]

theorem percentText?_percentFormat (items : List Item) (m : Moment) :
    percentText? (percentFormat items) m = some (format items m) := by
  rw [percentText?, percentItems?_percentFormat]
  rfl

/-! ## From patterns to percent formats -/

theorem map_eq_ok_iff {f : String} {pattern : String} :
    (read pattern).map percentFormat = .ok f ↔
      ∃ items, Means pattern.toList items ∧ percentFormat items = f := by
  cases hread : read pattern with
  | error e =>
    refine iff_of_false (fun h => by cases h) fun ⟨items, hmeans, _⟩ => ?_
    cases (read_eq_ok_iff.2 hmeans).symm.trans hread
  | ok items =>
    have hmeans := read_eq_ok_iff.1 hread
    refine ⟨fun h => ⟨items, hmeans, Except.ok.inj h⟩, fun ⟨items', hmeans', hf⟩ => ?_⟩
    rw [hmeans.unique hmeans']
    exact congrArg Except.ok hf

theorem map_eq_error_iff {e : PatternError} {pattern : String} :
    (read pattern).map percentFormat = .error e ↔ Fails pattern e := by
  rw [← read_eq_error_iff]
  cases read pattern with
  | error e' =>
    refine ⟨fun h => ?_, fun h => ?_⟩
    · cases h
      rfl
    · cases h
      rfl
  | ok items => exact iff_of_false (fun h => by cases h) fun h => by cases h

theorem now_of_means {pattern : String} {items : List Item} (h : Means pattern.toList items)
    (args : List (Option String)) (chance : Chance) :
    now (some pattern :: args) chance = (.ok (format items chance.moment), chance) := by
  simp only [now, List.getElem?_cons_zero, read_eq_ok_iff.2 h]
  rfl

/-- **The percent format of a pattern says what the pattern means.** There is one just if the rules
of patterns do not stop before the end, and the time can always be written in it. -/
theorem percentFormat_read (pattern : String) :
    (∀ e, (read pattern).map percentFormat = .error e ↔ Fails pattern e) ∧
      ∀ f, (read pattern).map percentFormat = .ok f →
        ∃ items, (∀ xs, Means pattern.toList xs ↔ xs = items) ∧
          percentItems? f.toList = some items ∧
          ∀ args chance, ∃ text, percentText? f chance.moment = some text ∧
            now (some pattern :: args) chance = (.ok text, chance) := by
  refine ⟨fun e => map_eq_error_iff, fun f hf => ?_⟩
  obtain ⟨items, hmeans, rfl⟩ := map_eq_ok_iff.1 hf
  refine ⟨items, fun xs => ⟨fun h => h.unique hmeans, fun h => h ▸ hmeans⟩,
    percentItems?_percentFormat items, fun args chance => ?_⟩
  exact ⟨_, percentText?_percentFormat items _, now_of_means hmeans args chance⟩

/-- Percent signs in front of a field and in a quoted text. -/
theorem percentFormat_read_percents :
    (read "%d ''SS'%H'").map percentFormat = .ok "%%%-d '%3f%%H" ∧
      ∀ xs, Means "%d ''SS'%H'".toList xs ↔
        xs = [.literal '%', .field .day, .literal ' ', .literal '\'', .field .millis,
          .literal '%', .literal 'H'] := by
  have hsigns : Means "'%H'".toList [.literal '%', .literal 'H'] :=
    @Means.quoted ['%', 'H'] [] [] (by decide) (by decide) .done
  have hmillis : Means "SS'%H'".toList [.field .millis, .literal '%', .literal 'H'] :=
    .run (n := 1) rfl (by decide) hsigns
  have hmeans : Means "%d ''SS'%H'".toList
      [.literal '%', .field .day, .literal ' ', .literal '\'', .field .millis,
        .literal '%', .literal 'H'] :=
    .plain (by decide) rfl (.run (n := 0) rfl (by decide)
      (.plain (by decide) rfl (.quote hmillis)))
  have hf : (read "%d ''SS'%H'").map percentFormat = .ok "%%%-d '%3f%%H" :=
    map_eq_ok_iff.2 ⟨_, hmeans, by decide⟩
  obtain ⟨items, hitems, -⟩ := (percentFormat_read "%d ''SS'%H'").2 _ hf
  rw [(hitems _).1 hmeans]
  exact ⟨hf, hitems⟩

end ApiDouble.Time
