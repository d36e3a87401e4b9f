import ApiDouble.Proofs.Text.Search
import Mathlib.Data.List.Chain

/-!
# Values behind their labels

Several values are put into one text, each behind a mark: a separator, the label of the value and an
equals sign (`labelled`). Values are not escaped, so the text alone does not say where they end.

**Apart.** Two lists of entries with the same labels have different texts, unless they are the same,

* if the entries within each list are all the same, so that one length says where they end,
* if the values of one list have no separator: then those of the other have none either, because the
  texts have as many, and a value ends at the next separator,
* if no value of either list has the mark of the next value in front of that mark.

Main result: `Apart.eq`.
-/

namespace ApiDouble.Text

/-- What stands before a value. -/
def mark (separator : Char) (label : List Char) : List Char := separator :: label ++ ['=']

/-- Values behind the marks of their labels. -/
def labelled (separator : Char) (es : List (List Char × List Char)) : List Char :=
  es.flatMap fun e => mark separator e.1 ++ e.2

/-- Whether no value has the separator. -/
def IsClear (separator : Char) (es : List (List Char × List Char)) : Prop :=
  ∀ e ∈ es, separator ∉ e.2

/-- Whether all entries are the same. -/
def IsUniform (es : List (List Char × List Char)) : Prop := ∀ e ∈ es, ∀ f ∈ es, e = f

/-- Whether every value ends at the first mark of the next value. -/
def EndsAtMarks (separator : Char) (es : List (List Char × List Char)) : Prop :=
  es.IsChain fun e f => FirstCut (mark separator f.1) (e.2 ++ mark separator f.1) e.2 []

/-- Whether the texts of two lists of entries differ if the lists do. -/
def Apart (separator : Char) (es fs : List (List Char × List Char)) : Prop :=
  (IsUniform es ∧ IsUniform fs) ∨ IsClear separator es ∨ IsClear separator fs ∨
    (EndsAtMarks separator es ∧ EndsAtMarks separator fs)

instance (needle s a b : List Char) : Decidable (FirstCut needle s a b) :=
  decidable_of_iff (breakAt? needle s = some (a, b)) breakAt?_eq_some_iff

instance (es : List (List Char × List Char)) : Decidable (IsUniform es) :=
  inferInstanceAs (Decidable (∀ e ∈ es, ∀ f ∈ es, e = f))

instance (c : Char) (es : List (List Char × List Char)) : Decidable (IsClear c es) :=
  inferInstanceAs (Decidable (∀ e ∈ es, c ∉ e.2))

instance (c : Char) (es : List (List Char × List Char)) : Decidable (EndsAtMarks c es) :=
  inferInstanceAs (Decidable
    (es.IsChain fun e f => FirstCut (mark c f.1) (e.2 ++ mark c f.1) e.2 []))

instance (c : Char) (es fs : List (List Char × List Char)) : Decidable (Apart c es fs) :=
  inferInstanceAs (Decidable ((IsUniform es ∧ IsUniform fs) ∨ IsClear c es ∨ IsClear c fs ∨
    (EndsAtMarks c es ∧ EndsAtMarks c fs)))

variable {c : Char} {es fs : List (List Char × List Char)}

theorem labelled_cons (c : Char) (e : List Char × List Char) (es : List (List Char × List Char)) :
    labelled c (e :: es) = mark c e.1 ++ (e.2 ++ labelled c es) := by
  rw [labelled, List.flatMap_cons, List.append_assoc]
  rfl

theorem labelled_cons_inj {e f : List Char × List Char} (hlabel : e.1 = f.1)
    (h : labelled c (e :: es) = labelled c (f :: fs)) :
    e.2 ++ labelled c es = f.2 ++ labelled c fs := by
  rw [labelled_cons, labelled_cons, hlabel] at h
  exact List.append_cancel_left h

theorem cons_intercalate (c : Char) {es : List (List Char × List Char)} (hes : es ≠ []) :
    c :: [c].intercalate (es.map fun e => e.1 ++ '=' :: e.2) = labelled c es := by
  rw [cons_intercalate_eq_flatMap c (by simpa using hes), List.flatMap_map]
  simp [labelled, mark]

/-! ## Values that end at marks -/

/-- A text without the first character of a needle ends where the needle that follows it starts. -/
theorem firstCut_of_not_mem {n : Char} {ns s : List Char} (h : n ∉ s) :
    FirstCut (n :: ns) (s ++ n :: ns) s [] := by
  refine ⟨(List.append_nil _).symm, fun a b hs => Nat.le_of_not_lt fun hlt => ?_⟩
  -- The needle would start within the text.
  have hn : (s ++ n :: ns)[a.length]? = some n := by
    rw [hs, List.append_assoc, List.getElem?_append_right (Nat.le_refl _), Nat.sub_self]
    rfl
  rw [List.getElem?_append_left hlt] at hn
  exact h (List.mem_of_getElem? hn)

theorem IsClear.endsAtMarks (h : IsClear c es) : EndsAtMarks c es := by
  induction es with
  | nil => exact List.IsChain.nil
  | cons e es ih =>
    obtain ⟨he, hes⟩ := List.forall_mem_cons.1 h
    cases es with
    | nil => exact List.IsChain.singleton e
    | cons f es => exact List.IsChain.cons_cons (firstCut_of_not_mem he) (ih hes)

/-- **Values that end at marks are told apart.** -/
theorem EndsAtMarks.eq (hes : EndsAtMarks c es) (hfs : EndsAtMarks c fs)
    (hlabels : es.map (·.1) = fs.map (·.1)) (h : labelled c es = labelled c fs) : es = fs := by
  induction es generalizing fs with
  | nil => exact (List.map_eq_nil_iff.1 hlabels.symm).symm
  | cons e es ih =>
    cases fs with
    | nil => cases hlabels
    | cons f fs =>
      obtain ⟨hlabel, hrest⟩ := List.cons_eq_cons.1 hlabels
      have h := labelled_cons_inj hlabel h
      suffices hvalue : e.2 = f.2 ∧ labelled c es = labelled c fs by
        have hhead : e = f := Prod.ext hlabel hvalue.1
        have htail : es = fs := ih hes.tail hfs.tail hrest hvalue.2
        rw [hhead, htail]
      cases es with
      | nil =>
        obtain rfl := List.map_eq_nil_iff.1 hrest.symm
        exact ⟨by simpa [labelled] using h, rfl⟩
      | cons e' es =>
        cases fs with
        | nil => cases hrest
        | cons f' fs =>
          have hlabel' : e'.1 = f'.1 := (List.cons_eq_cons.1 hrest).1
          -- Both values end where the next mark is first met, and the texts are the same.
          have hcut : FirstCut (mark c e'.1) (e.2 ++ mark c e'.1 ++ (e'.2 ++ labelled c es)) e.2
              (e'.2 ++ labelled c es) := firstCut_append_iff.2 hes.rel
          have hcut' : FirstCut (mark c f'.1) (f.2 ++ mark c f'.1 ++ (f'.2 ++ labelled c fs)) f.2
              (f'.2 ++ labelled c fs) := firstCut_append_iff.2 hfs.rel
          have hsame : e.2 ++ mark c e'.1 ++ (e'.2 ++ labelled c es) =
              f.2 ++ mark c f'.1 ++ (f'.2 ++ labelled c fs) := by
            simpa only [labelled_cons, List.append_assoc] using h
          rw [hsame, hlabel'] at hcut
          obtain ⟨hvalue, hafter⟩ := hcut.unique hcut'
          exact ⟨hvalue, by rw [labelled_cons, labelled_cons, hlabel', hafter]⟩

/-! ## Values without separators -/

/-- The separators are those of the marks and those of the values. -/
theorem count_labelled (c : Char) (es : List (List Char × List Char)) :
    (labelled c es).count c =
      ((es.map (·.1)).flatMap (mark c)).count c + (es.flatMap (·.2)).count c := by
  induction es with
  | nil => rfl
  | cons e es ih =>
    simp only [labelled_cons, List.map_cons, List.flatMap_cons, List.count_append, ih]
    omega

theorem isClear_iff_count : IsClear c es ↔ (es.flatMap (·.2)).count c = 0 := by
  rw [List.count_eq_zero, List.mem_flatMap]
  constructor
  · rintro h ⟨e, he, hmem⟩
    exact h e he hmem
  · intro h e he hmem
    exact h ⟨e, he, hmem⟩

/-- Separators are counted: if the values of one list have none, those of the other have none. -/
theorem IsClear.of_eq (hes : IsClear c es) (hlabels : es.map (·.1) = fs.map (·.1))
    (h : labelled c es = labelled c fs) : IsClear c fs := by
  have hcount := congrArg (List.count c) h
  rw [count_labelled, count_labelled, hlabels, isClear_iff_count.1 hes] at hcount
  rw [isClear_iff_count]
  omega

theorem IsClear.eq (hes : IsClear c es) (hlabels : es.map (·.1) = fs.map (·.1))
    (h : labelled c es = labelled c fs) : es = fs :=
  hes.endsAtMarks.eq (hes.of_eq hlabels h).endsAtMarks hlabels h

/-! ## Equal entries -/

theorem length_labelled_replicate (c : Char) (n : Nat) (e : List Char × List Char) :
    (labelled c (List.replicate n e)).length = n * (mark c e.1 ++ e.2).length := by
  simp [labelled]

/-- **Repetitions of one entry are told apart**, whatever characters it has. -/
theorem IsUniform.eq (hes : IsUniform es) (hfs : IsUniform fs)
    (hlabels : es.map (·.1) = fs.map (·.1)) (h : labelled c es = labelled c fs) : es = fs := by
  have hlength : es.length = fs.length := by
    rw [← List.length_map (·.1), hlabels, List.length_map]
  cases es with
  | nil => exact (List.length_eq_zero_iff.1 hlength.symm).symm
  | cons e es =>
    cases fs with
    | nil => cases hlength
    | cons f fs =>
      have he := List.eq_replicate_of_mem fun x hx => hes x hx e List.mem_cons_self
      have hf := List.eq_replicate_of_mem fun x hx => hfs x hx f List.mem_cons_self
      have hlabel : e.1 = f.1 := (List.cons_eq_cons.1 hlabels).1
      -- Equal parts make up texts of one length, so the parts have one length.
      have hpart : (mark c e.1 ++ e.2).length = (mark c f.1 ++ f.2).length := by
        have hsame := congrArg List.length h
        rw [he, hf, hlength, length_labelled_replicate, length_labelled_replicate] at hsame
        exact Nat.eq_of_mul_eq_mul_left (Nat.succ_pos _) hsame
      have hvalue : e.2.length = f.2.length := by
        rw [hlabel] at hpart
        simpa using hpart
      have hsame := (List.append_inj (labelled_cons_inj hlabel h) hvalue).1
      rw [he, hf, hlength, Prod.ext hlabel hsame]

/-- **Entries that are apart have the same text only if they are the same.** -/
theorem Apart.eq (h : Apart c es fs) (hlabels : es.map (·.1) = fs.map (·.1))
    (htext : labelled c es = labelled c fs) : es = fs := by
  rcases h with ⟨hes, hfs⟩ | hes | hfs | ⟨hes, hfs⟩
  · exact hes.eq hfs hlabels htext
  · exact hes.eq hlabels htext
  · exact (hfs.eq hlabels.symm htext.symm).symm
  · exact hes.eq hfs hlabels htext

end ApiDouble.Text
