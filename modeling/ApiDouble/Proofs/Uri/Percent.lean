import ApiDouble.Proofs.Text.Search
import ApiDouble.Proofs.Text.Utf8
import ApiDouble.Uri.Query

/-!
# Percent coding reads back

A text that was percent-coded decodes to itself, whatever bytes stay as they are, as long as these
are ASCII and the percent sign is not among them (`Codes`).

**Paths.** `encodePath` is such a coding.

**Queries.** `encodeQuery` writes a blank as a plus sign. Reading turns the plus sign into a blank
before it decodes, so what is decoded is the coding that keeps blanks too (`blanked_encodeQuery`).
No escape other than that of the blank is touched, because a percent sign starts a new escape.

Main results: `decode_encode`, `decode_encodePath`, `decodeQuery_encodeQuery`.
-/

namespace ApiDouble.Uri

open Text

/-! ## Characters of coded texts -/

theorem forall_mem_of_all {α : Type} {P : α → Prop} [DecidablePred P] {as : List α}
    (h : as.all (fun a => decide (P a)) = true) : ∀ a ∈ as, P a := fun a ha =>
  of_decide_eq_true (List.all_eq_true.1 h a ha)

theorem toNat_ofNat_of_lt {n : Nat} (h : n < 128) : (Char.ofNat n).toNat = n := by
  have hv : n.isValidChar := Or.inl (by omega)
  unfold Char.ofNat
  rw [dif_pos hv]
  rfl

/-- The bytes that stay as they are can be told from escapes. -/
def Codes (keep : UInt8 → Bool) : Prop := ∀ b, keep b = true → b.toNat < 128 ∧ b ≠ 37

/-- A law of single bytes, tried on all of them. -/
theorem forall_byte {P : UInt8 → Prop} (h : ∀ n < 256, P (UInt8.ofNat n)) (b : UInt8) : P b := by
  have := h b.toNat b.toNat_lt_size
  rwa [UInt8.ofNat_toNat] at this

/-- The characters of an escape. -/
def escapeChars : List Char := "%0123456789ABCDEF".toList

theorem hexDigit_mem : ∀ n < 16, hexDigit n ∈ escapeChars.tail := by decide

theorem hexValue?_hexDigit :
    ∀ n < 16, hexValue? (UInt8.ofNat (hexDigit n).toNat) = some (UInt8.ofNat n) := by decide

theorem encodeByte_cases (keep : UInt8 → Bool) (b : UInt8) :
    (keep b = true ∧ encodeByte keep b = [Char.ofNat b.toNat]) ∨
      ∃ h ∈ escapeChars.tail, ∃ l ∈ escapeChars.tail, encodeByte keep b = ['%', h, l] := by
  have hb : b.toNat < 256 := b.toNat_lt_size
  unfold encodeByte
  split
  · next hk => exact Or.inl ⟨hk, rfl⟩
  · exact Or.inr ⟨_, hexDigit_mem _ (by omega), _, hexDigit_mem _ (by omega), rfl⟩

theorem byte_of_mem_encodeByte {keep : UInt8 → Bool} (hk : Codes keep) {b : UInt8} {c : Char}
    (hc : c ∉ escapeChars) (h : c ∈ encodeByte keep b) :
    keep b = true ∧ b = UInt8.ofNat c.toNat := by
  rcases encodeByte_cases keep b with ⟨hkb, he⟩ | ⟨x, hx, y, hy, he⟩
  · rw [he] at h
    rw [List.mem_singleton.1 h, toNat_ofNat_of_lt (hk b hkb).1, UInt8.ofNat_toNat]
    exact ⟨hkb, rfl⟩
  · exfalso
    rw [he] at h
    simp only [List.mem_cons, List.not_mem_nil, or_false] at h
    rcases h with rfl | rfl | rfl
    · exact hc (by decide)
    · exact hc (List.mem_of_mem_tail hx)
    · exact hc (List.mem_of_mem_tail hy)

theorem toNat_lt_of_mem_encodeByte {keep : UInt8 → Bool} (hk : Codes keep) {b : UInt8} {c : Char}
    (h : c ∈ encodeByte keep b) : c.toNat < 128 := by
  have hall : ∀ c ∈ escapeChars, c.toNat < 128 := forall_mem_of_all (by decide)
  rcases encodeByte_cases keep b with ⟨hkb, he⟩ | ⟨x, hx, y, hy, he⟩
  · rw [he] at h
    rw [List.mem_singleton.1 h, toNat_ofNat_of_lt (hk b hkb).1]
    exact (hk b hkb).1
  · rw [he] at h
    simp only [List.mem_cons, List.not_mem_nil, or_false] at h
    rcases h with rfl | rfl | rfl
    · decide
    · exact hall _ (List.mem_of_mem_tail hx)
    · exact hall _ (List.mem_of_mem_tail hy)

theorem utf8_encode_of_lt {s : List Char} (h : ∀ c ∈ s, c.toNat < 128) :
    Utf8.encode s = s.map fun c => UInt8.ofNat c.toNat := by
  induction s with
  | nil => rfl
  | cons c s ih =>
    have hc : c.val.toNat ≤ 0x7F := Nat.le_of_lt_succ (h c List.mem_cons_self)
    have hb : String.utf8EncodeChar c = [UInt8.ofNat c.toNat] := by
      unfold String.utf8EncodeChar
      simp only
      rw [if_pos hc]
      rfl
    rw [Utf8.encode, List.flatMap_cons, hb, List.map_cons,
      ← ih fun d hd => h d (List.mem_cons_of_mem c hd)]
    rfl

/-! ## Decoding -/

theorem decodeBytes_cons {b : UInt8} (h : b ≠ 37) (bs : List UInt8) :
    decodeBytes (b :: bs) = b :: decodeBytes bs := by
  rw [decodeBytes]
  intro _ _ _ hb _
  exact h hb

/-- A coded byte is decoded to that byte. -/
theorem decodeBytes_encodeByte {keep : UInt8 → Bool} (hk : Codes keep) (b : UInt8)
    (bs : List UInt8) :
    decodeBytes ((encodeByte keep b).map (fun c => UInt8.ofNat c.toNat) ++ bs) =
      b :: decodeBytes bs := by
  have hb : b.toNat < 256 := b.toNat_lt_size
  unfold encodeByte
  split
  · next hkb =>
    obtain ⟨hlt, hne⟩ := hk b hkb
    rw [List.map_singleton, toNat_ofNat_of_lt hlt, UInt8.ofNat_toNat, List.singleton_append,
      decodeBytes_cons hne]
  · have hhi := hexValue?_hexDigit (b.toNat / 16) (by omega)
    have hlo := hexValue?_hexDigit (b.toNat % 16) (by omega)
    have hsum : 16 * UInt8.ofNat (b.toNat / 16) + UInt8.ofNat (b.toNat % 16) = b := by
      apply UInt8.toNat_inj.1
      simp only [UInt8.toNat_add, UInt8.toNat_mul, UInt8.toNat_ofNat', UInt8.reduceToNat]
      omega
    show decodeBytes (37 :: _ :: _ :: bs) = _
    rw [decodeBytes]
    simp only [hhi, hlo, hsum]

theorem decodeBytes_encode {keep : UInt8 → Bool} (hk : Codes keep) (bs : List UInt8) :
    decodeBytes ((bs.flatMap (encodeByte keep)).map fun c => UInt8.ofNat c.toNat) = bs := by
  induction bs with
  | nil => rfl
  | cons b bs ih =>
    rw [List.flatMap_cons, List.map_append, decodeBytes_encodeByte hk, ih]

/-- **Coded text decodes to itself.** -/
theorem decode_encode {keep : UInt8 → Bool} (hk : Codes keep) (s : List Char) :
    decode (encode keep s) = s := by
  have hascii : ∀ c ∈ encode keep s, c.toNat < 128 := by
    intro c hc
    obtain ⟨b, _, hb⟩ := List.mem_flatMap.1 hc
    exact toNat_lt_of_mem_encodeByte hk hb
  unfold decode
  rw [utf8_encode_of_lt hascii]
  unfold encode
  rw [decodeBytes_encode hk, Utf8.decode?_encode]
  rfl

/-! ## Values in a path -/

theorem codes_isPathByte : Codes isPathByte :=
  forall_byte (by decide +kernel)

@[simp] theorem decode_encodePath (s : List Char) : decode (encodePath s) = s :=
  decode_encode codes_isPathByte s

theorem mem_of_mem_encodePath {c : Char} (hc : c ∉ escapeChars) {s : List Char}
    (h : c ∈ encodePath s) : isPathByte (UInt8.ofNat c.toNat) = true ∧ c ∈ s := by
  obtain ⟨b, hb, hcb⟩ := List.mem_flatMap.1 h
  have hlt : c.toNat < 128 := toNat_lt_of_mem_encodeByte codes_isPathByte hcb
  have hn : (UInt8.ofNat c.toNat).toNat = c.toNat := Utf8.toNat_ofNat_lt (by omega)
  obtain ⟨hk, rfl⟩ := byte_of_mem_encodeByte codes_isPathByte hc hcb
  have hs := Utf8.mem_of_mem_encode hb (by omega)
  rw [hn, Char.ofNat_toNat] at hs
  exact ⟨hk, hs⟩

theorem not_mem_encodePath {c : Char} (hc : c ∈ ['{', '}', '?']) (s : List Char) :
    c ∉ encodePath s := by
  have hall : ∀ c ∈ ['{', '}', '?'],
      c ∉ escapeChars ∧ isPathByte (UInt8.ofNat c.toNat) = false := forall_mem_of_all (by decide)
  obtain ⟨hesc, hkeep⟩ := hall c hc
  intro h
  have hk := (mem_of_mem_encodePath hesc h).1
  rw [hkeep] at hk
  exact Bool.noConfusion hk

theorem slash_mem_of_mem_encodePath {s : List Char} (h : '/' ∈ encodePath s) : '/' ∈ s :=
  (mem_of_mem_encodePath (by decide) h).2

theorem head?_of_head?_encodePath {s : List Char} (h : (encodePath s).head? = some ':') :
    s.head? = some ':' := by
  cases s with
  | nil => cases h
  | cons c s =>
    obtain ⟨b, bs, he, -⟩ := Utf8.nextChar_utf8EncodeChar c []
    have hs : encodePath (c :: s) =
        encodeByte isPathByte b ++ (bs ++ Utf8.encode s).flatMap (encodeByte isPathByte) := by
      rw [encodePath, encode, Utf8.encode, List.flatMap_cons, he, List.cons_append,
        List.flatMap_cons]
      rfl
    have hcolon : ':' ∈ encodeByte isPathByte b := by
      rw [hs] at h
      rcases encodeByte_cases isPathByte b with ⟨-, he⟩ | ⟨x, -, y, -, he⟩
      · rw [he] at h ⊢
        exact List.mem_singleton.2 (Option.some.inj h).symm
      · rw [he] at h
        exact absurd (Option.some.inj h) (by decide)
    obtain ⟨-, rfl⟩ := byte_of_mem_encodeByte codes_isPathByte (by decide) hcolon
    have hc : UInt8.ofNat ':'.toNat ∈ String.utf8EncodeChar c := by
      rw [he]
      exact List.mem_cons_self
    rw [Utf8.eq_of_mem_utf8EncodeChar hc (by decide)]
    rfl

/-! ## Names and values in a query -/

/-- One byte in a query. -/
def queryByte (b : UInt8) : List Char := if b = 32 then ['+'] else encodeByte isUnreserved b

/-- The bytes of a query that are read as they stand, plus signs being blanks by then. -/
def isQueryByte (b : UInt8) : Bool := isUnreserved b || b == 32

theorem codes_isQueryByte : Codes isQueryByte :=
  forall_byte (by decide +kernel)

theorem codes_isUnreserved : Codes isUnreserved := fun b hb =>
  codes_isQueryByte b (by rw [isQueryByte, hb, Bool.true_or])

theorem replaceAll_escape {h l : Char} (hh : h ≠ '%') (hl : l ≠ '%') (hne : ¬(h = '2' ∧ l = '0'))
    (s : List Char) :
    replaceAll ['%', '2', '0'] ['+'] ('%' :: h :: l :: s) =
      '%' :: h :: l :: replaceAll ['%', '2', '0'] ['+'] s := by
  have h1 : after? ['%', '2', '0'] ('%' :: h :: l :: s) = none := by
    by_cases h2 : '2' = h
    · have h0 : '0' ≠ l := fun h0 => hne ⟨h2.symm, h0.symm⟩
      simp [after?, h0]
    · simp [after?, h2]
  rw [replaceAll_cons h1, replaceAll_cons (after?_cons_of_ne hh.symm _ _),
    replaceAll_cons (after?_cons_of_ne hl.symm _ _)]

/-- Replacing the escape of the blank acts on one byte after the other. -/
theorem replaceAll_encodeByte (b : UInt8) (s : List Char) :
    replaceAll ['%', '2', '0'] ['+'] (encodeByte isUnreserved b ++ s) =
      queryByte b ++ replaceAll ['%', '2', '0'] ['+'] s := by
  by_cases hb : b = 32
  · subst hb
    exact replaceAll_append (List.cons_ne_nil _ _) ['+'] s
  · have hdigit : ∀ n < 16, hexDigit n ≠ '%' := by decide
    have htwo : ∀ n < 16, hexDigit n = '2' → n = 2 := by decide
    have hzero : ∀ n < 16, hexDigit n = '0' → n = 0 := by decide
    have hlt : b.toNat < 256 := b.toNat_lt_size
    rw [queryByte, if_neg hb]
    unfold encodeByte
    split
    · next hk =>
      obtain ⟨hlt, hne⟩ := codes_isUnreserved b hk
      have hp : '%' ≠ Char.ofNat b.toNat := by
        intro hp
        apply hne
        rw [← UInt8.toNat_inj, ← toNat_ofNat_of_lt hlt, ← hp]
        rfl
      exact replaceAll_cons (after?_cons_of_ne hp _ _) ['+']
    · -- The escape of a byte other than the blank has other digits than 2 and 0.
      refine replaceAll_escape (hdigit _ (by omega)) (hdigit _ (by omega)) ?_ s
      rintro ⟨h2, h0⟩
      have h2 := htwo _ (by omega) h2
      have h0 := hzero _ (by omega) h0
      apply hb
      rw [← UInt8.toNat_inj]
      show b.toNat = 32
      omega

theorem encodeQuery_eq (s : List Char) : encodeQuery s = (Utf8.encode s).flatMap queryByte := by
  unfold encodeQuery encode
  induction Utf8.encode s with
  | nil => exact replaceAll_nil (List.cons_ne_nil _ _) ['+']
  | cons b bs ih => rw [List.flatMap_cons, replaceAll_encodeByte, ih, List.flatMap_cons]

/-- With its plus sign turned into a blank, a byte of a query is coded as one that keeps blanks. -/
theorem blanked_queryByte (b : UInt8) :
    (queryByte b).map (fun c => if c = '+' then ' ' else c) = encodeByte isQueryByte b := by
  by_cases hb : b = 32
  · subst hb
    rfl
  · have hplus : '+' ∉ encodeByte isUnreserved b := by
      intro h
      obtain ⟨hk, rfl⟩ := byte_of_mem_encodeByte codes_isUnreserved (by decide) h
      exact absurd hk (by decide)
    have hsame : encodeByte isQueryByte b = encodeByte isUnreserved b := by
      have hk : isQueryByte b = isUnreserved b := by
        rw [isQueryByte, beq_false_of_ne hb, Bool.or_false]
      unfold encodeByte
      rw [hk]
    rw [queryByte, if_neg hb, hsame]
    refine (List.map_congr_left fun c hc => ?_).trans (List.map_id _)
    have hne : c ≠ '+' := by
      rintro rfl
      exact hplus hc
    rw [if_neg hne]
    rfl

theorem blanked_encodeQuery (s : List Char) :
    (encodeQuery s).map (fun c => if c = '+' then ' ' else c) = encode isQueryByte s := by
  rw [encodeQuery_eq, encode, List.map_flatMap]
  congr 1
  funext b
  exact blanked_queryByte b

/-- **Names and values of a query are read back.** -/
@[simp] theorem decodeQuery_encodeQuery (s : List Char) : decodeQuery (encodeQuery s) = s := by
  rw [decodeQuery, blanked_encodeQuery, decode_encode codes_isQueryByte]

theorem not_mem_encodeQuery {c : Char} (hc : c ∈ ['&', '=', '?']) (s : List Char) :
    c ∉ encodeQuery s := by
  have hall : ∀ c ∈ ['&', '=', '?'],
      c ≠ '+' ∧ c ∉ escapeChars ∧ isUnreserved (UInt8.ofNat c.toNat) = false :=
    forall_mem_of_all (by decide)
  obtain ⟨hplus, hesc, hkeep⟩ := hall c hc
  rw [encodeQuery_eq]
  intro h
  obtain ⟨b, _, hb⟩ := List.mem_flatMap.1 h
  unfold queryByte at hb
  split at hb
  · exact hplus (List.mem_singleton.1 hb)
  · obtain ⟨hk, rfl⟩ := byte_of_mem_encodeByte codes_isUnreserved hesc hb
    rw [hkeep] at hk
    exact Bool.noConfusion hk

end ApiDouble.Uri
