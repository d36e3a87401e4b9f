import ApiDouble.Text.Characters
import ApiDouble.Text.Word
import Mathlib.Data.List.TakeWhile

/-!
# Trimming once

Trimming leaves a text that neither starts nor ends with a blank, and takes nothing but blanks from
the two ends. There is one such text (`trim_eq_iff`), so trimming it again changes nothing. All
characters that stay are characters of the text.

There are finitely many blanks, and none of them is a character of a word.

Main results: `isBlank_of_isWord`, `mem_of_mem_trim`, `trim_eq_nil_iff`, `trim_eq_iff`, `trim_trim`.
-/

namespace ApiDouble.Text

/-! ## The blanks -/

/-- The code points of the blanks. -/
def blankCodes : List Nat :=
  [9, 10, 11, 12, 13, 0x20, 0x85, 0xA0, 0x1680, 0x2000, 0x2001, 0x2002, 0x2003, 0x2004, 0x2005,
    0x2006, 0x2007, 0x2008, 0x2009, 0x200A, 0x2028, 0x2029, 0x202F, 0x205F, 0x3000]

theorem mem_blankCodes {c : Char} (h : isBlank c = true) : c.toNat ∈ blankCodes := by
  simp only [isBlank, Bool.or_eq_true, Bool.and_eq_true, decide_eq_true_eq, beq_iff_eq] at h
  simp only [blankCodes, List.mem_cons, List.not_mem_nil, or_false]
  omega

theorem isBlank_of_isWord {c : Char} (h : isWord c = true) : isBlank c = false := by
  have hblanks : ∀ n ∈ blankCodes, isWord (Char.ofNat n) = false := by decide +kernel
  by_contra hblank
  have hc := hblanks c.toNat (mem_blankCodes (Bool.not_eq_false _ ▸ hblank))
  rw [Char.ofNat_toNat, h] at hc
  cases hc

/-! ## Trimming -/

/-- A text whose first character is no blank, or that has none. -/
def Unled (s : List Char) : Prop := ∀ c, s.head? = some c → isBlank c = false

theorem unled_dropBlanks (s : List Char) : Unled (dropBlanks s) := by
  intro c hc
  have := List.head?_dropWhile_not isBlank s
  rw [dropBlanks] at hc
  rwa [hc] at this

theorem dropBlanks_eq_self {s : List Char} (h : Unled s) : dropBlanks s = s := by
  cases s with
  | nil => rfl
  | cons c s =>
    have hc : ¬isBlank c = true := by
      rw [h c rfl]
      exact Bool.noConfusion
    rw [dropBlanks, List.dropWhile_cons_of_neg hc]

theorem dropEndBlanks_eq (s : List Char) : dropEndBlanks s = (dropBlanks s.reverse).reverse := rfl

theorem append_dropEndBlanks (s : List Char) : dropEndBlanks s <+: s := by
  rw [dropEndBlanks_eq, ← List.reverse_suffix, List.reverse_reverse]
  exact List.dropWhile_suffix isBlank

theorem Unled.dropEndBlanks {s : List Char} (h : Unled s) : Unled (dropEndBlanks s) := by
  intro c hc
  obtain ⟨t, ht⟩ := append_dropEndBlanks s
  apply h
  rw [← ht, List.head?_append, hc]
  rfl

theorem dropEndBlanks_cons {c : Char} (h : isBlank c = false) (s : List Char) :
    dropEndBlanks (c :: s) = c :: dropEndBlanks s := by
  have hc : ¬isBlank c = true := by simp [h]
  rw [dropEndBlanks, List.reverse_cons, List.dropWhile_append]
  split
  · next hempty =>
    rw [List.dropWhile_cons_of_neg hc, dropEndBlanks, List.isEmpty_iff.1 hempty]
    rfl
  · rw [List.reverse_append]
    rfl

/-- The blanks at the end of a text are those of its last part. -/
theorem dropEndBlanks_append {s : List Char} (h : ∀ c ∈ s, isBlank c = false) (t : List Char) :
    dropEndBlanks (s ++ t) = s ++ dropEndBlanks t := by
  induction s with
  | nil => rfl
  | cons c s ih =>
    obtain ⟨hc, hs⟩ := List.forall_mem_cons.1 h
    rw [List.cons_append, dropEndBlanks_cons hc, ih hs, List.cons_append]

theorem unled_reverse_dropEndBlanks (s : List Char) : Unled (dropEndBlanks s).reverse := by
  rw [dropEndBlanks_eq, List.reverse_reverse]
  exact unled_dropBlanks s.reverse

theorem mem_of_mem_trim {c : Char} {s : List Char} (h : c ∈ trim s) : c ∈ s :=
  (List.dropWhile_suffix isBlank).subset ((append_dropEndBlanks (dropBlanks s)).subset h)

theorem trim_eq_self {s : List Char} (h : Unled s) (h' : Unled s.reverse) : trim s = s := by
  rw [trim, dropBlanks_eq_self h, dropEndBlanks_eq, dropBlanks_eq_self h', List.reverse_reverse]

theorem trim_of_forall {s : List Char} (h : ∀ c ∈ s, isBlank c = false) : trim s = s := by
  apply trim_eq_self
  · intro c hc
    exact h c (List.mem_of_mem_head? hc)
  · intro c hc
    exact h c (List.mem_reverse.1 (List.mem_of_mem_head? hc))

theorem dropBlanks_append {before : List Char} (h : allBlank before = true) (s : List Char) :
    dropBlanks (before ++ s) = dropBlanks s :=
  List.dropWhile_append_of_pos (List.all_eq_true.1 h)

theorem unled_cons {c : Char} (h : isBlank c = false) (s : List Char) : Unled (c :: s) := by
  intro d hd
  obtain rfl := Option.some.inj hd
  exact h

/-- **Trimming leaves nothing just of a text that is all blank.** -/
theorem trim_eq_nil_iff {s : List Char} : trim s = [] ↔ allBlank s = true := by
  have hdrop : dropBlanks s = [] ↔ allBlank s = true := by
    rw [dropBlanks, List.dropWhile_eq_nil_iff, allBlank, List.all_eq_true]
  rw [← hdrop]
  refine ⟨fun h => ?_, fun h => by rw [trim, h]; rfl⟩
  rw [trim, dropEndBlanks, List.reverse_eq_nil_iff, List.dropWhile_eq_nil_iff] at h
  -- The first character that is left is no blank, and all of them are blanks.
  cases hs : dropBlanks s with
  | nil => rfl
  | cons c cs =>
    have hblank : isBlank c = true := h c (by simp [hs])
    have hled := unled_dropBlanks s c (by rw [hs]; rfl)
    rw [hblank] at hled
    cases hled

/-- What is left of a text without the blanks around it. -/
def Trims (s t : List Char) : Prop :=
  Unled t ∧ Unled t.reverse ∧ ∃ before after, s = before ++ t ++ after ∧
    allBlank before = true ∧ allBlank after = true

theorem trims_trim (s : List Char) : Trims s (trim s) := by
  refine ⟨(unled_dropBlanks s).dropEndBlanks, unled_reverse_dropEndBlanks _, s.takeWhile isBlank,
    ((dropBlanks s).reverse.takeWhile isBlank).reverse, ?_, List.all_takeWhile, ?_⟩
  · have hend : trim s ++ ((dropBlanks s).reverse.takeWhile isBlank).reverse = dropBlanks s := by
      rw [trim, dropEndBlanks, ← List.reverse_append, List.takeWhile_append_dropWhile,
        List.reverse_reverse]
    rw [List.append_assoc, hend]
    exact List.takeWhile_append_dropWhile.symm
  · rw [allBlank, List.all_reverse]
    exact List.all_takeWhile

/-- **Trimming takes the blanks from both ends and nothing else.** -/
theorem trim_eq_iff {s t : List Char} : trim s = t ↔ Trims s t := by
  constructor
  · rintro rfl
    exact trims_trim s
  · rintro ⟨hled, htrailed, before, after, rfl, hbefore, hafter⟩
    have hend : dropEndBlanks (t ++ after) = t := by
      have hafter' : allBlank after.reverse = true := by
        rw [allBlank, List.all_reverse]
        exact hafter
      rw [dropEndBlanks_eq, List.reverse_append, dropBlanks_append hafter',
        dropBlanks_eq_self htrailed, List.reverse_reverse]
    cases t with
    | nil => exact trim_eq_nil_iff.2 (by simp_all [allBlank])
    | cons c t =>
      rw [trim, List.append_assoc, dropBlanks_append hbefore, List.cons_append,
        dropBlanks_eq_self (unled_cons (hled c rfl) _)]
      exact hend

theorem trim_surrounded {before after : List Char} (hbefore : allBlank before = true)
    (hafter : allBlank after = true) {c d : Char} (hc : isBlank c = false)
    (hd : isBlank d = false) (s : List Char) :
    trim (before ++ (c :: s ++ [d]) ++ after) = c :: s ++ [d] := by
  refine trim_eq_iff.2 ⟨unled_cons hc _, ?_, before, after, rfl, hbefore, hafter⟩
  rw [List.reverse_append]
  exact unled_cons hd _

/-- **Trimming a trimmed text changes nothing.** -/
@[simp] theorem trim_trim (s : List Char) : trim (trim s) = trim s := by
  obtain ⟨hled, htrailed, -⟩ := trims_trim s
  exact trim_eq_self hled htrailed

end ApiDouble.Text
