import ApiDouble.Document.Json.Printer
import ApiDouble.Document.Json.Reader
import ApiDouble.Proofs.Text.Search

/-!
# JSON text read back

**Readers** (`Takes`). A reader takes a value off a text and leaves the rest. The text of a value
that was printed is taken whatever follows it, as long as it does not go on with a number (`Ends`).

**Strings** are taken character by character, each in its escaped form. **Integers** are taken as
such if they fit into 64 bits. **Objects** are taken member by member if their values are, and their
members stay as they are if no name stands twice.

Every object starts with a brace, blanks before it aside (`skipSpace_of_parse?`).

Main results: `skipSpace_of_parse?`, `Readable.object`, `parse?_compact`.
-/

namespace ApiDouble

/-! ## Objects of distinct members -/

namespace Document

theorem put_of_not_mem {key : String} {ms : List (String × Document)} (h : key ∉ ms.map (·.1))
    (value : Document) : put key value ms = ms ++ [(key, value)] := by
  induction ms with
  | nil => rfl
  | cons m ms ih =>
    obtain ⟨hm, hms⟩ := not_or.1 (mt List.mem_cons.2 h)
    rw [put, if_neg (Ne.symm hm), ih hms, List.cons_append]

theorem ofMembers_of_nodup {ms : List (String × Document)} (h : (ms.map (·.1)).Nodup) :
    ofMembers ms = .object ms := by
  have hfold : ∀ acc : List (String × Document), ((acc ++ ms).map (·.1)).Nodup →
      ms.foldl (fun acc m => put m.1 m.2 acc) acc = acc ++ ms := by
    clear h
    induction ms with
    | nil => exact fun acc _ => (List.append_nil acc).symm
    | cons m ms ih =>
      intro acc hacc
      have hnew : m.1 ∉ acc.map (·.1) := by
        rw [List.map_append, List.map_cons, List.nodup_append] at hacc
        exact fun hmem => hacc.2.2 _ hmem _ List.mem_cons_self rfl
      rw [List.foldl_cons, put_of_not_mem hnew, ih _ (by rwa [← List.append_cons]),
        ← List.append_cons]
  rw [ofMembers, hfold [] h, List.nil_append]

end Document

namespace Json

open Text

variable {s r rest : List Char} {d : Document} {depth : Nat}

/-! ## How objects start -/

theorem isObject_of_scalar? {rest : Rest s} (h : scalar? s = some (d, rest)) :
    d.isObject = false := by
  unfold scalar? at h
  split at h
  · cases h; rfl
  · cases h; rfl
  · cases h; rfl
  · obtain ⟨p, -, hp⟩ := Option.map_eq_some_iff.1 h
    cases hp; rfl
  · obtain ⟨p, -, hp⟩ := Option.map_eq_some_iff.1 h
    cases hp; rfl

/-- An object starts with a brace, blanks before it aside. -/
theorem skipSpace_of_isObject {rest : Rest s} (h : value? depth s = some (d, rest))
    (hd : d.isObject = true) : ∃ r, skipSpace s = '\x7b' :: r := by
  rw [value?] at h
  split at h
  · cases h
  · obtain ⟨⟨cs, rest⟩, -, he⟩ := Option.bind_eq_some_iff.1 h
    cases he
    cases hd
  · split at h
    · cases h
    · split at h
      · cases h
        cases hd
      · obtain ⟨⟨xs, rest⟩, -, he⟩ := Option.bind_eq_some_iff.1 h
        cases he
        cases hd
  · next hr => exact ⟨_, hr⟩
  · obtain ⟨⟨d', rest⟩, hscalar, he⟩ := Option.bind_eq_some_iff.1 h
    cases he
    rw [isObject_of_scalar? hscalar] at hd
    cases hd

/-- A reader takes a value off a text and leaves the rest of it. -/
def Takes {α : Type} (read? : (s : List Char) → Option (α × Rest s)) (s : List Char) (x : α)
    (rest : List Char) : Prop := ∃ h, read? s = some (x, ⟨rest, h⟩)

/-! ## Strings -/

theorem takes_quote (rest : List Char) : Takes chars? ('"' :: rest) [] rest :=
  ⟨length_lt_cons, by rw [chars?]; rfl⟩

theorem takes_plain {c : Char} {cs : List Char} (hquote : c ≠ '"') (hback : c ≠ '\\')
    (hcode : ¬c.toNat < 0x20) (hs : Takes chars? s cs rest) :
    Takes chars? (c :: s) (c :: cs) rest := by
  obtain ⟨h, hs⟩ := hs
  refine ⟨Nat.lt_succ_of_lt h, ?_⟩
  rw [chars?.eq_4 _ _ (by simpa using hquote) (by simp [hback]) (by simp [hback]),
    if_neg (by simp [hback, hcode]), hs]
  rfl

theorem takes_escape {c e : Char} {cs : List Char} (he : simpleEscape? e = some c)
    (hs : Takes chars? s cs rest) : Takes chars? ('\\' :: e :: s) (c :: cs) rest := by
  obtain ⟨h, hs⟩ := hs
  have hu : e ≠ 'u' := by rintro rfl; cases he
  refine ⟨Nat.lt_succ_of_lt (Nat.lt_succ_of_lt h), ?_⟩
  rw [chars?.eq_3 _ _ (by simpa using hu), he]
  simp only [Option.bind_eq_bind, Option.bind_some, hs]
  rfl

theorem hexDigit?_digitChar : ∀ n < 16, hexDigit? (Nat.digitChar n) = some n := by decide

theorem takes_control {c : Char} {cs : List Char} (hc : c.toNat < 0x20)
    (hs : Takes chars? s cs rest) :
    Takes chars? ('\\' :: 'u' :: '0' :: '0' :: Nat.digitChar (c.toNat / 16) ::
      Nat.digitChar (c.toNat % 16) :: s) (c :: cs) rest := by
  obtain ⟨h, hs⟩ := hs
  have hunit : hexUnit? '0' '0' (Nat.digitChar (c.toNat / 16)) (Nat.digitChar (c.toNat % 16)) =
      some c.toNat := by
    have hzero : hexDigit? '0' = some 0 := rfl
    rw [hexUnit?, hzero, hexDigit?_digitChar _ (by omega), hexDigit?_digitChar _ (by omega)]
    simp only [Option.bind_eq_bind, Option.bind_some]
    refine congrArg some ?_
    omega
  have hsurrogate : isSurrogate c.toNat = false := by
    simp only [isSurrogate, Bool.and_eq_false_imp, decide_eq_true_eq]
    omega
  refine ⟨by simp only [List.length_cons]; omega, ?_⟩
  rw [chars?.eq_2, unit?, hunit]
  simp only [Option.bind_eq_bind, Option.bind_some, Option.map_some, hsurrogate]
  rw [if_neg Bool.false_ne_true, Char.ofNat_toNat]
  show (chars? s).bind _ = _
  rw [hs]
  rfl

/-- A character is taken in its escaped form. -/
theorem takes_escaped (c : Char) {cs : List Char} (hs : Takes chars? s cs rest) :
    Takes chars? (escaped c ++ s) (c :: cs) rest := by
  unfold escaped
  split
  · exact takes_escape rfl hs
  · exact takes_escape rfl hs
  · exact takes_escape rfl hs
  · exact takes_escape rfl hs
  · exact takes_escape rfl hs
  · exact takes_escape rfl hs
  · exact takes_escape rfl hs
  · next hquote hback _ _ _ _ _ =>
    split
    · next hcode => exact takes_control hcode hs
    · next hcode => exact takes_plain hquote hback hcode hs

/-- A string is taken in its quoted form. -/
theorem takes_chars (cs rest : List Char) :
    Takes chars? (cs.flatMap escaped ++ '"' :: rest) cs rest := by
  induction cs with
  | nil => exact takes_quote rest
  | cons c cs ih =>
    rw [List.flatMap_cons, List.append_assoc]
    exact takes_escaped c ih

/-! ## Integers -/

/-- What may follow a value: the text is at its end, or goes on with a comma or a bracket. -/
def Ends (rest : List Char) : Prop := ∀ c, rest.head? = some c → c = ',' ∨ c = '}' ∨ c = ']'

theorem natOfDigits_toDigits (n : Nat) : natOfDigits (Nat.toDigits 10 n) = n := by
  have h := Nat.ofDigitChars_ten_toDigits (n := n)
  rw [Nat.ofDigitChars_eq_foldl] at h
  simpa only [natOfDigits, Nat.mul_comm] using h

theorem head?_toDigits {n : Nat} (h : (Nat.toDigits 10 n).head? = some '0') : n = 0 := by
  induction n using Nat.strongRecOn with
  | ind n ih =>
    rw [Nat.toDigits_eq_if (by decide)] at h
    split at h
    · simpa using h
    · next hn =>
      have hfirst : (Nat.toDigits 10 (n / 10)).head? = some '0' := by
        cases hd : Nat.toDigits 10 (n / 10) with
        | nil => exact absurd hd Nat.toDigits_ne_nil
        | cons c cs =>
          rw [hd] at h
          exact h
      have := ih (n / 10) (by omega) hfirst
      omega

theorem Ends.isDigit_eq_false (hrest : Ends rest) : ∀ c ∈ rest.head?, c.isDigit = false := by
  intro c hc
  rcases hrest c hc with rfl | rfl | rfl <;> rfl

theorem Ends.splitFraction (hrest : Ends rest) : splitFraction rest = (none, rest) := by
  unfold Json.splitFraction
  split
  · rcases hrest '.' rfl with h | h | h <;> cases h
  · rfl

theorem Ends.splitExponent (hrest : Ends rest) : splitExponent rest = (none, rest) := by
  cases rest with
  | nil => rfl
  | cons c rest =>
    rw [Json.splitExponent, if_neg]
    rcases hrest c rfl with rfl | rfl | rfl <;> decide

/-- Whether an integer with a sign or without one fits into 64 bits. -/
def Fits (negative : Bool) (n : Nat) : Prop :=
  if negative then 0 < n ∧ (n : Int) ≤ -least64 else (n : Int) ≤ UInt64.size - 1

theorem takes_unsigned {negative : Bool} {n : Nat} (hn : Fits negative n) (hrest : Ends rest) :
    Takes (unsigned? negative) (Nat.toDigits 10 n ++ rest)
      (.integer (if negative then -n else n)) rest := by
  have hdigits : ∀ c ∈ Nat.toDigits 10 n, c.isDigit = true := fun c hc =>
    Nat.isDigit_of_mem_toDigits (by decide) (by decide) hc
  have hne : (Nat.toDigits 10 n).isEmpty = false := by simp
  let l : Literal := ⟨negative, Nat.toDigits 10 n, none, none⟩
  -- Zero is the one number whose digits start with a zero.
  have hwell : l.wellFormed = true := by
    by_cases hzero : n = 0
    · subst hzero
      rfl
    · have hhead : (Nat.toDigits 10 n).head? ≠ some '0' := fun h => hzero (head?_toDigits h)
      simp [l, Literal.wellFormed, hhead]
  have hnumber : l.number? = some (.integer (if negative then -n else n)) := by
    unfold Literal.number?
    simp only [l, natOfDigits_toDigits]
    rw [if_pos]
    cases negative <;> simp [Fits] at hn ⊢ <;> omega
  have hlength : rest.length < (Nat.toDigits 10 n ++ rest).length := by
    have := Nat.length_toDigits_pos (b := 10) (n := n)
    rw [List.length_append]
    omega
  have hliteral : literal? negative (Nat.toDigits 10 n ++ rest) = some (l, ⟨rest, hlength⟩) := by
    unfold literal?
    simp only [takeWhile_run hdigits hrest.isDigit_eq_false,
      dropWhile_run hdigits hrest.isDigit_eq_false, hrest.splitFraction, hrest.splitExponent]
    exact dif_pos ⟨hne, hwell⟩
  refine ⟨hlength, ?_⟩
  rw [unsigned?, hliteral]
  simp only [Option.bind_eq_bind, Option.bind_some, hnumber]
  rfl

/-! ## Values -/

theorem skipSpace_of_not {c : Char} (hc : isSpace c = false) (r : List Char) :
    skipSpace (c :: r) = c :: r := List.dropWhile_cons_of_neg (by simp [hc])

theorem takes_string {cs : List Char} (h : skipSpace s = '"' :: r) (hr : Takes chars? r cs rest) :
    Takes (value? depth) s (.string (String.ofList cs)) rest := by
  obtain ⟨hlt, hr⟩ := hr
  refine ⟨Nat.lt_trans hlt (length_lt_of_skipSpace h), ?_⟩
  rw [value?]
  split <;> rename_i h' <;> rw [h] at h' <;> cases h'
  · show (chars? r).bind _ = _
    rw [hr]
    rfl
  · contradiction

/-- What is no string and no container is read as a keyword or a number. -/
theorem takes_scalar {c : Char} (h : skipSpace s = c :: r) (hc : c ≠ '"' ∧ c ≠ '[' ∧ c ≠ '\x7b')
    (hr : Takes scalar? (c :: r) d rest) : Takes (value? depth) s d rest := by
  obtain ⟨hlt, hr⟩ := hr
  refine ⟨Nat.lt_of_lt_of_le hlt (length_lt_of_skipSpace h), ?_⟩
  rw [value?]
  split <;> rename_i h' <;> rw [h] at h' <;> cases h'
  · exact absurd rfl hc.1
  · exact absurd rfl hc.2.1
  · exact absurd rfl hc.2.2
  · show (scalar? (c :: r)).bind _ = _
    rw [hr]
    rfl

/-- A value whose compact text is taken whatever follows it. -/
def Readable (depth : Nat) (d : Document) : Prop :=
  ∀ rest, Ends rest → Takes (value? depth) (compact d ++ rest) d rest

theorem readable_string (depth : Nat) (x : String) : Readable depth (.string x) := by
  intro rest _
  have hvalue : Takes (value? depth) ('"' :: (x.toList.flatMap escaped ++ '"' :: rest))
      (.string (String.ofList x.toList)) rest :=
    takes_string (skipSpace_of_not rfl _) (takes_chars x.toList rest)
  rw [String.ofList_toList] at hvalue
  simpa [compact, quoted] using hvalue

theorem readable_bool (depth : Nat) (b : Bool) : Readable depth (.bool b) := by
  intro rest _
  cases b with
  | true =>
    have hlt : rest.length < ('t' :: 'r' :: 'u' :: 'e' :: rest).length := by simp; omega
    exact takes_scalar (skipSpace_of_not rfl _) (by decide) ⟨hlt, rfl⟩
  | false =>
    have hlt : rest.length < ('f' :: 'a' :: 'l' :: 's' :: 'e' :: rest).length := by simp; omega
    exact takes_scalar (skipSpace_of_not rfl _) (by decide) ⟨hlt, rfl⟩

/-- Integers as documents hold them: of 64 bits, with a sign or without one. -/
def IsStored (z : Int) : Prop := least64 ≤ z ∧ z ≤ UInt64.size - 1

theorem takes_negative {x : Number} (hr : Takes (unsigned? true) r x rest) :
    Takes scalar? ('-' :: r) (.number x) rest := by
  obtain ⟨hlt, hr⟩ := hr
  refine ⟨Nat.lt_succ_of_lt hlt, ?_⟩
  rw [scalar?, hr]
  rfl

theorem takes_natural {x : Number} {c : Char} (hc : c.isDigit = true)
    (hr : Takes (unsigned? false) (c :: r) x rest) :
    Takes scalar? (c :: r) (.number x) rest := by
  obtain ⟨hlt, hr⟩ := hr
  have hne : ∀ {d : Char} {s s' : List Char}, d.isDigit = false → c :: s = d :: s' → False := by
    intro d s s' hd he
    rw [(List.cons.inj he).1, hd] at hc
    cases hc
  refine ⟨hlt, ?_⟩
  rw [scalar?.eq_5 _ (fun _ => hne rfl) (fun _ => hne rfl) (fun _ => hne rfl) (fun _ => hne rfl),
    hr]
  rfl

theorem readable_integer (depth : Nat) {z : Int} (hz : IsStored z) :
    Readable depth (.number (.integer z)) := by
  intro rest hrest
  obtain ⟨hlow, hhigh⟩ := hz
  show Takes _ (integerText z ++ rest) _ _
  unfold integerText
  split
  · next hneg =>
    have hfits : Fits true z.natAbs := ⟨by omega, by omega⟩
    have hvalue : -(z.natAbs : Int) = z := by omega
    have htaken := takes_negative (takes_unsigned hfits hrest)
    rw [if_pos rfl, hvalue] at htaken
    exact takes_scalar (skipSpace_of_not rfl _) (by decide) htaken
  · next hneg =>
    have hfits : Fits false z.natAbs := show (z.natAbs : Int) ≤ _ by omega
    have hvalue : (z.natAbs : Int) = z := by omega
    have htaken := takes_unsigned hfits hrest
    rw [if_neg Bool.false_ne_true, hvalue] at htaken
    -- The first digit is neither a blank nor the start of another value.
    cases hdigits : Nat.toDigits 10 z.natAbs with
    | nil => exact absurd hdigits Nat.toDigits_ne_nil
    | cons c cs =>
      have hc : c.isDigit = true :=
        Nat.isDigit_of_mem_toDigits (by decide) (by decide) (hdigits ▸ List.mem_cons_self)
      rw [hdigits] at htaken
      have hother : ∀ {d : Char}, d.isDigit = false → c ≠ d := by
        rintro d hd rfl
        rw [hd] at hc
        cases hc
      have hspace : isSpace c = false := by
        simp [isSpace, hother (d := ' ') rfl, hother (d := '\t') rfl, hother (d := '\n') rfl,
          hother (d := '\r') rfl]
      exact takes_scalar (skipSpace_of_not hspace _) ⟨hother rfl, hother rfl, hother rfl⟩
        (takes_natural hc htaken)

/-! ## Objects -/

theorem takes_key (k : String) (rest : List Char) :
    Takes key? (quoted k ++ ':' :: rest) k rest := by
  obtain ⟨hlt, hk⟩ := takes_chars k.toList (':' :: rest)
  have hquoted : quoted k ++ ':' :: rest =
      '"' :: (k.toList.flatMap escaped ++ '"' :: ':' :: rest) := by simp [quoted]
  rw [hquoted]
  refine ⟨Nat.lt_trans length_lt_cons (Nat.lt_succ_of_lt hlt), ?_⟩
  rw [key?]
  split
  · next h' =>
    rw [skipSpace_of_not rfl] at h'
    cases h'
    show (chars? _).bind _ = _
    rw [hk, Option.bind_some]
    split
    · next h' =>
      cases h'
      rw [String.ofList_toList]
      rfl
  · next h' => exact absurd (skipSpace_of_not rfl _) (h' _)

section Members

variable {k : String} {x : Document} {ms : List (String × Document)}

theorem takes_last (hk : Takes key? s k r) {r' : List Char}
    (hx : Takes (value? depth) r x ('\x7d' :: r')) :
    Takes (members? depth) s [(k, x)] r' := by
  obtain ⟨hlt, hk⟩ := hk
  obtain ⟨hlt', hx⟩ := hx
  refine ⟨Nat.lt_trans length_lt_cons (Nat.lt_trans hlt' hlt), ?_⟩
  rw [members?, hk]
  simp only [Option.bind_eq_bind, Option.bind_some, hx]
  split
  · next h' => cases h'
  · next h' =>
    cases h'
    rfl
  · next h' => exact absurd (skipSpace_of_not rfl _) (h' _)

theorem takes_more (hk : Takes key? s k r) {r' : List Char}
    (hx : Takes (value? depth) r x (',' :: r')) (hms : Takes (members? depth) r' ms rest) :
    Takes (members? depth) s ((k, x) :: ms) rest := by
  obtain ⟨hlt, hk⟩ := hk
  obtain ⟨hlt', hx⟩ := hx
  obtain ⟨hlt'', hms⟩ := hms
  refine ⟨Nat.lt_trans hlt'' (Nat.lt_trans length_lt_cons (Nat.lt_trans hlt' hlt)), ?_⟩
  rw [members?, hk]
  simp only [Option.bind_eq_bind, Option.bind_some, hx]
  split
  · next h' =>
    cases h'
    show (members? depth r').bind _ = _
    rw [hms]
    rfl
  · next h' => cases h'
  · next h' _ => exact absurd (skipSpace_of_not rfl _) (h' _)

/-- Members are taken one by one. -/
theorem takes_members (hne : ms ≠ []) (h : ∀ m ∈ ms, Readable depth m.2) (rest : List Char) :
    Takes (members? depth) (compactMembers ms ++ '\x7d' :: rest) ms rest := by
  induction ms with
  | nil => exact absurd rfl hne
  | cons m ms ih =>
    obtain ⟨hm, hms⟩ := List.forall_mem_cons.1 h
    cases ms with
    | nil =>
      have hx := hm ('\x7d' :: rest) (by rintro c ⟨⟩; exact .inr (.inl rfl))
      have hk := takes_key m.1 (compact m.2 ++ '\x7d' :: rest)
      simpa [compactMembers] using takes_last hk hx
    | cons m' ms =>
      have hrest := ih (List.cons_ne_nil _ _) hms
      have hx := hm (',' :: (compactMembers (m' :: ms) ++ '\x7d' :: rest))
        (by rintro c ⟨⟩; exact .inl rfl)
      have hk := takes_key m.1 (compact m.2 ++ ',' :: (compactMembers (m' :: ms) ++ '\x7d' :: rest))
      simpa [compactMembers] using takes_more hk hx hrest

theorem head?_compactMembers (hne : ms ≠ []) : ∃ r, compactMembers ms = '"' :: r := by
  cases ms with
  | nil => exact absurd rfl hne
  | cons m ms => cases ms <;> exact ⟨_, rfl⟩

theorem takes_empty (h : skipSpace s = '\x7b' :: r) (h' : skipSpace r = '\x7d' :: rest) :
    Takes (value? (depth + 1)) s (.object []) rest := by
  refine ⟨Nat.lt_trans (length_lt_of_skipSpace h') (length_lt_of_skipSpace h), ?_⟩
  rw [value?]
  split <;> rename_i hs <;> rw [h] at hs <;> cases hs
  · dsimp only
    split
    · next hr =>
      rw [h'] at hr
      cases hr
      rfl
    · next hr => exact absurd h' (hr _)
  · contradiction

theorem takes_object {r' : List Char} (h : skipSpace s = '\x7b' :: r)
    (hquote : skipSpace r = '"' :: r') (hr : Takes (members? depth) r ms rest) :
    Takes (value? (depth + 1)) s (.ofMembers ms) rest := by
  obtain ⟨hlt, hr⟩ := hr
  refine ⟨Nat.lt_trans hlt (length_lt_of_skipSpace h), ?_⟩
  rw [value?]
  split <;> rename_i hs <;> rw [h] at hs <;> cases hs
  · dsimp only
    split
    · next hbrace =>
      rw [hquote] at hbrace
      cases hbrace
    · show (members? depth r).bind _ = _
      rw [hr]
      rfl
  · contradiction

end Members

/-- **An object is taken if its values are.** -/
theorem Readable.object {ms : List (String × Document)} (hdistinct : (ms.map (·.1)).Nodup)
    (h : ∀ m ∈ ms, Readable depth m.2) : Readable (depth + 1) (.object ms) := by
  intro rest _
  have htext : compact (.object ms) ++ rest = '\x7b' :: (compactMembers ms ++ '\x7d' :: rest) := by
    simp [compact]
  rw [htext]
  by_cases hne : ms = []
  · subst hne
    exact takes_empty (skipSpace_of_not rfl _) (skipSpace_of_not rfl _)
  · obtain ⟨r, hr⟩ := head?_compactMembers hne
    have hquote : skipSpace (compactMembers ms ++ '\x7d' :: rest) =
        '"' :: (r ++ '\x7d' :: rest) := by
      rw [hr]
      exact skipSpace_of_not rfl _
    have hms := takes_object (skipSpace_of_not rfl _) hquote (takes_members hne h rest)
    rwa [Document.ofMembers_of_nodup hdistinct] at hms

/-! ## Texts -/

theorem parse?_of_takes (h : Takes (value? depthLimit) s d rest) (hrest : skipSpace rest = []) :
    parse? s = some d := by
  obtain ⟨hlt, h⟩ := h
  rw [parse?, h]
  show (if (skipSpace rest).isEmpty then some d else none) = some d
  rw [hrest]
  rfl

/-- **What is printed is read again.** -/
theorem parse?_compact (h : Readable depthLimit d) : parse? (compact d) = some d := by
  have hd := h [] (by intro c hc; cases hc)
  rw [List.append_nil] at hd
  exact parse?_of_takes hd rfl

theorem skipSpace_of_parse? (h : parse? s = some d) (hd : d.isObject = true) :
    ∃ r, skipSpace s = '\x7b' :: r := by
  obtain ⟨⟨d', rest⟩, hvalue, hend⟩ := Option.bind_eq_some_iff.1 h
  dsimp only at hend
  split at hend
  · obtain rfl := Option.some.inj hend
    exact skipSpace_of_isObject hvalue hd
  · cases hend

end Json

end ApiDouble
