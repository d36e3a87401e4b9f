import ApiDouble.Proofs.Collection.Lists
import ApiDouble.Proofs.Text.Utf8
import Mathlib.Tactic.SplitIfs

/-!
# Lines of bytes

Bytes are read leniently as text. A line feed is one byte, and no character of more bytes has that
byte: the bytes that go with a first byte lie above 0x7F, and so does the number of what they make.
So a line feed ends what was broken off before it (`scan_append_lineFeed`), and it does not matter
whether the text or its bytes are divided into lines.

Main results: `decodeLenient_of_decode?`, `splitOn_decodeLenient`.
-/

namespace ApiDouble.Text.Utf8

variable {b : UInt8} {l : Lead} {bs rest : List UInt8} {n low high : Nat}

/-- The byte of a line feed. -/
def lineFeed : UInt8 := 10

/-! ## Strict and lenient decoding -/

theorem scan_of_decode? {s : List Char} (h : decode? bs = some s) : scan bs = s.map some := by
  unfold decode? at h
  generalize scan bs = found at h
  induction found generalizing s with
  | nil =>
    cases h
    rfl
  | cons x found ih =>
    cases x with
    | none => cases h
    | some c =>
      rw [List.mapM_cons] at h
      obtain ⟨c', hc, h⟩ := Option.bind_eq_some_iff.1 h
      obtain ⟨cs, hcs, hs⟩ := Option.bind_eq_some_iff.1 h
      cases hc
      cases hs
      rw [ih hcs]
      rfl

/-- **Well-formed bytes are read leniently as they are read strictly.** -/
theorem decodeLenient_of_decode? {s : List Char} (h : decode? bs = some s) :
    decodeLenient bs = s := by
  rw [decodeLenient, scan_of_decode? h, List.map_map]
  exact List.map_id s

/-! ## What goes with a first byte -/

theorem low_of_lead? {k : Nat} (h : lead? k = some l) : 0x80 ≤ l.low := by
  unfold lead? at h
  split_ifs at h <;> cases h <;> decide

/-- Either the first byte has payload bits, or the second byte has and is not the last. -/
theorem payload_of_lead? {k : Nat} (h : lead? k = some l) :
    (1 ≤ l.tail ∧ 1 ≤ leadBits l.tail k) ∨ (2 ≤ l.tail ∧ 0x90 ≤ l.low ∧ l.high ≤ 0xBF) := by
  unfold lead? at h
  split_ifs at h <;> cases h <;> simp only [leadBits] <;> omega

theorem tailBits_append_lineFeed (h : 0x80 ≤ low) (bs rest : List UInt8) :
    tailBits n low high (bs ++ lineFeed :: rest) = tailBits n low high bs := by
  induction n generalizing bs low high with
  | zero => rfl
  | succ n ih =>
    cases bs with
    | nil =>
      have hlow : ¬(low ≤ lineFeed.toNat ∧ lineFeed.toNat ≤ high) := by
        intro hbounds
        have : lineFeed.toNat = 10 := rfl
        omega
      exact if_neg hlow
    | cons b bs => rw [List.cons_append, tailBits, tailBits, ih (by decide)]

theorem length_tailBits_le (n low high : Nat) (bs : List UInt8) :
    (tailBits n low high bs).length ≤ bs.length := by
  induction n generalizing bs low high with
  | zero => exact Nat.zero_le _
  | succ n ih =>
    cases bs with
    | nil => exact Nat.zero_le _
    | cons b bs =>
      rw [tailBits]
      split
      · exact Nat.succ_le_succ (ih _ _ bs)
      · exact Nat.zero_le _

/-- A step does not look beyond a line feed. -/
theorem nextChar_append_lineFeed (b : UInt8) (bs rest : List UInt8) :
    nextChar b (bs ++ lineFeed :: rest) = nextChar b bs := by
  unfold nextChar
  split
  · rfl
  · cases hl : lead? b.toNat with
    | none => rfl
    | some l => simp only [tailBits_append_lineFeed (low_of_lead? hl)]

theorem snd_nextChar_le (b : UInt8) (bs : List UInt8) : (nextChar b bs).2 ≤ bs.length := by
  unfold nextChar
  split
  · exact Nat.zero_le _
  · cases lead? b.toNat with
    | none => exact Nat.zero_le _
    | some l =>
      have hle := length_tailBits_le l.tail l.low l.high bs
      dsimp only
      split
      · next hlen => omega
      · exact hle

/-- A line feed ends what was broken off before it. -/
theorem scan_append_lineFeed (bs rest : List UInt8) :
    scan (bs ++ lineFeed :: rest) = scan bs ++ some '\n' :: scan rest := by
  induction bs using scan.induct with
  | case1 =>
    rw [List.nil_append, scan, scan]
    rfl
  | case2 b bs step ih =>
    rw [List.cons_append, scan, scan, nextChar_append_lineFeed,
      List.drop_append_of_le_length (snd_nextChar_le b bs), ih]
    rfl

/-! ## Which bytes make a line feed -/

theorem le_foldl_bits {a : Nat} {bits : List Nat} (ha : 1 ≤ a) (hbits : bits ≠ []) :
    64 ≤ bits.foldl (fun acc x => acc * 64 + x) a := by
  induction bits generalizing a with
  | nil => exact absurd rfl hbits
  | cons x bits ih =>
    rw [List.foldl_cons]
    by_cases hlast : bits = []
    · subst hlast
      rw [List.foldl_nil]
      omega
    · exact ih (by omega) hlast

theorem eq_of_ofNat_eq {k : Nat} (h : Char.ofNat k = '\n') : k = 10 := by
  have hcode : (Char.ofNat k).toNat = 10 := by rw [h]; rfl
  by_cases hk : k.isValidChar
  · rw [Char.ofNat, dif_pos hk] at hcode
    exact hcode
  · rw [Char.ofNat, dif_neg hk] at hcode
    cases hcode

theorem le_code (hl : lead? b.toNat = some l)
    (hlen : (tailBits l.tail l.low l.high bs).length = l.tail) :
    64 ≤ (tailBits l.tail l.low l.high bs).foldl (fun acc x => acc * 64 + x)
      (leadBits l.tail b.toNat) := by
  rcases payload_of_lead? hl with ⟨htail, hbits⟩ | ⟨htail, hlow, hhigh⟩
  · refine le_foldl_bits hbits fun hnil => ?_
    rw [hnil, List.length_nil] at hlen
    omega
  · -- The second byte has payload bits, and there is a third one.
    obtain ⟨n, hn⟩ : ∃ n, l.tail = n + 2 := ⟨l.tail - 2, by omega⟩
    rw [hn] at hlen ⊢
    cases bs with
    | nil => simp [tailBits] at hlen
    | cons c bs =>
      rw [tailBits] at hlen ⊢
      split at hlen
      · next hc =>
        rw [if_pos hc, List.foldl_cons]
        refine le_foldl_bits (by omega) fun hnil => ?_
        rw [hnil] at hlen
        simp at hlen
      · simp at hlen

/-- Only the byte of a line feed is read as one. -/
theorem fst_nextChar_ne (hb : b ≠ lineFeed) (bs : List UInt8) :
    (nextChar b bs).1 ≠ some '\n' := by
  intro h
  unfold nextChar at h
  split at h
  · have hcode : b.toNat = 10 := eq_of_ofNat_eq (Option.some.inj h)
    exact hb (UInt8.toNat_inj.1 hcode)
  · cases hl : lead? b.toNat with
    | none =>
      rw [hl] at h
      cases h
    | some l =>
      rw [hl] at h
      dsimp only at h
      split at h
      · next hlen =>
        have hcode := eq_of_ofNat_eq (Option.some.inj h)
        have hle := le_code hl hlen
        omega
      · cases h

theorem not_mem_decodeLenient (h : lineFeed ∉ bs) : '\n' ∉ decodeLenient bs := by
  unfold decodeLenient
  -- The scan goes on behind a whole character, so the bytes in it are not looked at again.
  induction bs using scan.induct with
  | case1 =>
    rw [scan]
    exact List.not_mem_nil
  | case2 b bs step ih =>
    obtain ⟨hb, hbs⟩ := not_or.1 (mt List.mem_cons.2 h)
    rw [scan, List.map_cons, List.mem_cons, not_or]
    refine ⟨fun hc => ?_, ih fun hmem => hbs (List.mem_of_mem_drop hmem)⟩
    cases hstep : (nextChar b bs).1 with
    | none =>
      rw [hstep] at hc
      revert hc
      decide
    | some c =>
      rw [hstep] at hc
      apply fst_nextChar_ne (Ne.symm hb) bs
      rw [hstep, hc]
      rfl

/-! ## Lines -/

theorem decodeLenient_append_lineFeed (bs rest : List UInt8) :
    decodeLenient (bs ++ lineFeed :: rest) = decodeLenient bs ++ '\n' :: decodeLenient rest := by
  rw [decodeLenient, scan_append_lineFeed, List.map_append]
  rfl

/-- **The lines of what bytes are read as are what the lines of the bytes are read as.** -/
theorem splitOn_decodeLenient (bs : List UInt8) :
    (decodeLenient bs).splitOn '\n' = (bs.splitOn lineFeed).map decodeLenient := by
  induction bs using partInduction lineFeed with
  | last bs h =>
    rw [List.splitOn_eq_singleton h, List.splitOn_eq_singleton (not_mem_decodeLenient h)]
    rfl
  | next first rest hfirst ih =>
    rw [decodeLenient_append_lineFeed, List.splitOn_append_cons_self_of_not_mem hfirst,
      List.splitOn_append_cons_self_of_not_mem (not_mem_decodeLenient hfirst), ih, List.map_cons]

end ApiDouble.Text.Utf8
