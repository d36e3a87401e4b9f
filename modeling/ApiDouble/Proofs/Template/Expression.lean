import ApiDouble.Proofs.Text.Blank
import ApiDouble.Proofs.Text.Search
import ApiDouble.Template.Expression

/-!
# Calls and references

**Told apart by one character.** An expression that starts with characters of a name is a call if a
parenthesis follows them and another one is its last character (`IsIdentifier.parse_callText`). If a
point, a bracket or a slash follows, it is a reference, whatever stands behind (`parse_reference`).
In neither case does it start with a quote or a blank, as no character of a name is one.

**Quotes.** A text in quotes is not trimmed, and without its quotes it is the text again, whatever
quotes it contains.

Main results: `IsIdentifier.parse_callText`, `parse_reference`.
-/

namespace ApiDouble.Template

open Text

/-! ## The characters of names -/

theorem toNat_of_isNameChar {c : Char} (h : isNameChar c = true) :
    0x30 ≤ c.toNat ∧ c.toNat ≤ 0x7A := by
  have hbetween : ∀ {low high : UInt32}, 0x30 ≤ low.toNat → high.toNat ≤ 0x7A →
      low ≤ c.val → c.val ≤ high → 0x30 ≤ c.toNat ∧ c.toNat ≤ 0x7A := fun hl hh hlow hhigh =>
    ⟨hl.trans (UInt32.le_iff_toNat_le.1 hlow), (UInt32.le_iff_toNat_le.1 hhigh).trans hh⟩
  rcases Bool.or_eq_true_iff.1 h with halnum | hlow
  · rcases Bool.or_eq_true_iff.1 halnum with halpha | hdigit
    · rcases Bool.or_eq_true_iff.1 halpha with hupper | hlower
      · obtain ⟨hlow, hhigh⟩ := of_decide_eq_true hupper
        exact hbetween (by decide) (by decide) hlow hhigh
      · obtain ⟨hlow, hhigh⟩ := Bool.and_eq_true_iff.1 hlower
        exact hbetween (by decide) (by decide) (of_decide_eq_true hlow) (of_decide_eq_true hhigh)
    · obtain ⟨hlow, hhigh⟩ := Bool.and_eq_true_iff.1 hdigit
      exact hbetween (by decide) (by decide) (of_decide_eq_true hlow) (of_decide_eq_true hhigh)
  · obtain rfl := beq_iff_eq.1 hlow
    decide

theorem isQuote_of_isNameChar {c : Char} (h : isNameChar c = true) : isQuote c = false := by
  have hbounds := toNat_of_isNameChar h
  have hne : ∀ q : Char, q.toNat < 0x30 → c ≠ q := by
    rintro q hq rfl
    omega
  simp [isQuote, hne '\'' (by decide), hne '"' (by decide)]

theorem isBlank_of_isNameChar {c : Char} (h : isNameChar c = true) : isBlank c = false := by
  have hbounds := toNat_of_isNameChar h
  by_contra hblank
  simp only [isBlank, Bool.not_eq_false, Bool.or_eq_true, Bool.and_eq_true, decide_eq_true_eq,
    beq_iff_eq] at hblank
  omega

theorem isNameChar_of_startsName {c : Char} (h : startsName c = true) : isNameChar c = true := by
  rcases Bool.or_eq_true_iff.1 h with halpha | hlow
  · have halnum : c.isAlphanum = true := Bool.or_eq_true_iff.2 (.inl halpha)
    exact Bool.or_eq_true_iff.2 (.inl halnum)
  · exact Bool.or_eq_true_iff.2 (.inr hlow)

/-! ## Texts in quotes -/

/-- A text between two quotes. -/
def inQuotes (q : Char) (text : List Char) : List Char := q :: text ++ [q]

theorem isBlank_of_isQuote {q : Char} (h : isQuote q = true) : isBlank q = false := by
  rcases Bool.or_eq_true_iff.1 h with hq | hq <;> rw [beq_iff_eq] at hq <;> subst hq <;> decide

theorem trim_inQuotes {q : Char} (hq : isQuote q = true) (text : List Char) :
    trim (inQuotes q text) = inQuotes q text := by
  have hblank := isBlank_of_isQuote hq
  refine trim_eq_self (unled_cons hblank _) ?_
  rw [inQuotes, List.reverse_append]
  exact unled_cons hblank _

theorem unquoted?_inQuotes {q : Char} (hq : isQuote q = true) (text : List Char) :
    unquoted? (inQuotes q text) = some text := by
  show (if isQuote q ∧ (text ++ [q]).getLast? = some q then some (text ++ [q]).dropLast
    else none) = _
  rw [if_pos ⟨hq, List.getLast?_concat⟩, List.dropLast_concat]

/-! ## Expressions that start like a name -/

theorem unquoted?_of_isNameChar {c : Char} (h : isNameChar c = true) (s : List Char) :
    unquoted? (c :: s) = none :=
  if_neg fun hquoted => by simp [isQuote_of_isNameChar h] at hquoted

/-- An expression that starts like a name and does not end with a blank is a call or a reference. -/
theorem parse_of_isNameChar {c : Char} (h : isNameChar c = true) {s : List Char}
    (hend : Unled (c :: s).reverse) :
    Expression.parse (c :: s) =
      match call? (c :: s) with
      | some (name, arguments) => .call name arguments
      | none => .reference (c :: s) := by
  have htrim := trim_eq_self (unled_cons (isBlank_of_isNameChar h) s) hend
  rw [Expression.parse, htrim, unquoted?_of_isNameChar h]
  cases call? (c :: s) <;> rfl

section Name

variable {name rest : List Char} {c : Char}

theorem takeWhile_isNameChar (hname : ∀ d ∈ name, isNameChar d = true)
    (hc : ¬isNameChar c = true) : (name ++ c :: rest).takeWhile isNameChar = name :=
  takeWhile_run hname (by simpa using hc)

theorem dropBlanks_dropWhile_isNameChar (hname : ∀ d ∈ name, isNameChar d = true)
    (hc : ¬isNameChar c = true) (hblank : isBlank c = false) :
    dropBlanks ((name ++ c :: rest).dropWhile isNameChar) = c :: rest := by
  rw [dropWhile_run hname (by simpa using hc), dropBlanks_eq_self (unled_cons hblank rest)]

end Name

/-! ## Calls -/

/-- A name that a call can have: a letter or a low line, and then these and digits. -/
def IsIdentifier (name : String) : Prop :=
  ∃ c cs, name.toList = c :: cs ∧ startsName c = true ∧ ∀ d ∈ cs, isNameChar d = true

/-- A call as it is written. -/
def callText (name : String) (inside : List Char) : List Char :=
  name.toList ++ '(' :: (inside ++ [')'])

section Call

variable {name : String}

/-- The outermost parentheses are those of the call, whatever stands between them. -/
theorem IsIdentifier.call?_callText (h : IsIdentifier name) (inside : List Char) :
    call? (callText name inside) = some (name.toList, arguments inside) := by
  obtain ⟨c, cs, hname, hstarts, hchars⟩ := h
  have hall : ∀ d ∈ name.toList, isNameChar d = true := by
    rw [hname]
    exact List.forall_mem_cons.2 ⟨isNameChar_of_startsName hstarts, hchars⟩
  have hhead : (callText name inside).head?.any startsName = true := by
    rw [callText, hname]
    exact hstarts
  rw [call?, if_pos hhead, callText, takeWhile_isNameChar hall (by decide),
    dropBlanks_dropWhile_isNameChar hall (by decide) (by decide)]
  show (if (inside ++ [')']).getLast? = some ')'
    then some (name.toList, arguments (inside ++ [')']).dropLast) else none) = _
  rw [if_pos List.getLast?_concat, List.dropLast_concat]

theorem IsIdentifier.parse_callText (h : IsIdentifier name) (inside : List Char) :
    Expression.parse (callText name inside) = .call name.toList (arguments inside) := by
  have hcall := h.call?_callText inside
  obtain ⟨c, cs, hname, hstarts, -⟩ := h
  have htext : callText name inside = c :: (cs ++ '(' :: (inside ++ [')'])) := by
    rw [callText, hname, List.cons_append]
  have hend : Unled (c :: (cs ++ '(' :: (inside ++ [')']))).reverse := by
    simpa using unled_cons (by decide) _
  rw [htext] at hcall ⊢
  rw [parse_of_isNameChar (isNameChar_of_startsName hstarts) hend, hcall]

end Call

/-! ## References -/

theorem isStop_ends_name {c : Char} (h : isStop c = true) :
    ¬isNameChar c = true ∧ isBlank c = false ∧ c ≠ '(' := by
  rcases Bool.or_eq_true_iff.1 h with hstop | hslash
  · rcases Bool.or_eq_true_iff.1 hstop with hdot | hbracket
    · obtain rfl := beq_iff_eq.1 hdot
      decide
    · obtain rfl := beq_iff_eq.1 hbracket
      decide
  · obtain rfl := beq_iff_eq.1 hslash
    decide

section Reference

variable {name rest : List Char} {c : Char}

theorem call?_eq_none (hname : ∀ d ∈ name, isNameChar d = true) (hstop : isStop c = true) :
    call? (name ++ c :: rest) = none := by
  obtain ⟨hchar, hblank, hparen⟩ := isStop_ends_name hstop
  rw [call?, dropBlanks_dropWhile_isNameChar hname hchar hblank]
  split
  · split
    · next heq =>
      cases heq
      exact absurd rfl hparen
    · rfl
  · rfl

theorem parse_reference (hne : name ≠ []) (hname : ∀ d ∈ name, isNameChar d = true)
    (hstop : isStop c = true) (hend : Unled (name ++ c :: rest).reverse) :
    Expression.parse (name ++ c :: rest) = .reference (name ++ c :: rest) := by
  have hcall : call? (name ++ c :: rest) = none := call?_eq_none hname hstop
  obtain ⟨d, ds, rfl⟩ := List.exists_cons_of_ne_nil hne
  have hd := hname d List.mem_cons_self
  rw [List.cons_append] at hcall hend ⊢
  rw [parse_of_isNameChar hd hend, hcall]

end Reference

end ApiDouble.Template
