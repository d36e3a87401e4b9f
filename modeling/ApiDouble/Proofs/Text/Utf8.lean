import ApiDouble.Text.Bytes

/-!
# Reading back UTF-8

The bytes of a text are read back as that text: the reader takes exactly the bytes of one character
in each of its steps.

**One step** (`nextChar_utf8EncodeChar`). A character has one to four bytes. In each of these cases
the first byte says how many follow and within which bounds the second one lies, and the payload
bits add up to the character's number.

Main result: `decode?_encode`.
-/

namespace ApiDouble.Text.Utf8

/-! ## Payload bits -/

theorem toNat_ofNat_lt {n : Nat} (h : n < 256) : (UInt8.ofNat n).toNat = n := by
  rw [UInt8.toNat_ofNat']
  exact Nat.mod_eq_of_lt h

theorem tailBits_cons {n low high x : Nat} (hx : x < 64) (hl : low ≤ x + 0x80)
    (hh : x + 0x80 ≤ high) (bs : List UInt8) :
    tailBits (n + 1) low high (UInt8.ofNat (x + 0x80) :: bs) = x :: tailBits n 0x80 0xBF bs := by
  have hb : (UInt8.ofNat (x + 0x80)).toNat = x + 0x80 := toNat_ofNat_lt (by omega)
  rw [tailBits, hb, if_pos ⟨hl, hh⟩]
  congr 1
  omega

theorem nextChar_of_lead {b : UInt8} {bs : List UInt8} {l : Lead} {bits : List Nat}
    (hb : 0x80 ≤ b.toNat) (hl : lead? b.toNat = some l)
    (ht : tailBits l.tail l.low l.high bs = bits) (hlen : bits.length = l.tail) :
    nextChar b bs = (some (Char.ofNat
      (bits.foldl (fun acc x => acc * 64 + x) (leadBits l.tail b.toNat))), l.tail) := by
  unfold nextChar
  rw [if_neg (by omega), hl]
  simp only [ht]
  rw [if_pos hlen]

/-! ## First bytes -/

theorem lead?_two {k : Nat} (h2 : 2 ≤ k) (h32 : k < 32) :
    lead? (k + 0xC0) = some ⟨1, 0x80, 0xBF⟩ := by
  unfold lead?
  rw [if_pos (by omega)]

/-- The first of three bytes leaves room for a second one that makes neither an overlong form nor
a surrogate. -/
theorem lead?_three {k x : Nat} (hk : k < 16) (hx : x < 64) (hlow : 0x800 ≤ k * 0x1000 + x * 64)
    (hsur : k * 64 + x < 0x360 ∨ 0x380 ≤ k * 64 + x) :
    ∃ low high, lead? (k + 0xE0) = some ⟨2, low, high⟩ ∧ low ≤ x + 0x80 ∧ x + 0x80 ≤ high := by
  by_cases h0 : k = 0
  · subst h0
    exact ⟨0xA0, 0xBF, rfl, by omega, by omega⟩
  by_cases hd : k = 13
  · subst hd
    exact ⟨0x80, 0x9F, rfl, by omega, by omega⟩
  refine ⟨0x80, 0xBF, ?_, by omega, by omega⟩
  unfold lead?
  rw [if_neg (by omega), if_neg (by omega), if_neg (by omega), if_pos (by omega)]

/-- The first of four bytes leaves room for a second one that makes neither an overlong form nor
a number that is too large. -/
theorem lead?_four {k x : Nat} (hx : x < 64) (hlow : 0x10 ≤ k * 64 + x)
    (hhigh : k * 64 + x < 0x110) :
    ∃ low high, lead? (k + 0xF0) = some ⟨3, low, high⟩ ∧ low ≤ x + 0x80 ∧ x + 0x80 ≤ high := by
  by_cases h0 : k = 0
  · subst h0
    exact ⟨0x90, 0xBF, rfl, by omega, by omega⟩
  by_cases h4 : k = 4
  · subst h4
    exact ⟨0x80, 0x8F, rfl, by omega, by omega⟩
  refine ⟨0x80, 0xBF, ?_, by omega, by omega⟩
  unfold lead?
  rw [if_neg (by omega), if_neg (by omega), if_neg (by omega), if_neg (by omega),
    if_neg (by omega), if_pos (by omega)]

/-! ## One step -/

theorem toNat_bounds (c : Char) :
    c.val.toNat < 0xD800 ∨ (0xE000 ≤ c.val.toNat ∧ c.val.toNat < 0x110000) := by
  rcases c.valid with h | ⟨hl, hr⟩
  · exact Or.inl h
  · exact Or.inr ⟨hl, hr⟩

/-- A step reads one character: exactly its bytes are taken. -/
theorem nextChar_utf8EncodeChar (c : Char) (rest : List UInt8) :
    ∃ b bs, String.utf8EncodeChar c = b :: bs ∧
      nextChar b (bs ++ rest) = (some c, bs.length) := by
  have hv := toNat_bounds c
  have hc : Char.ofNat c.val.toNat = c := Char.ofNat_toNat c
  unfold String.utf8EncodeChar
  simp only
  generalize c.val.toNat = v at *
  split
  · -- One byte, which is the character's number.
    refine ⟨_, _, rfl, ?_⟩
    have hb : (UInt8.ofNat v).toNat = v := toNat_ofNat_lt (by omega)
    unfold nextChar
    rw [hb, if_pos (by omega), hc]
    rfl
  split
  · refine ⟨_, _, rfl, ?_⟩
    have hb : (UInt8.ofNat (v / 64 % 32 + 0xC0)).toNat = v / 64 % 32 + 0xC0 :=
      toNat_ofNat_lt (by omega)
    have hl : lead? (v / 64 % 32 + 0xC0) = some ⟨1, 0x80, 0xBF⟩ := lead?_two (by omega) (by omega)
    have ht : tailBits 1 0x80 0xBF (UInt8.ofNat (v % 64 + 0x80) :: rest) = [v % 64] :=
      tailBits_cons (by omega) (by omega) (by omega) rest
    rw [← hb] at hl
    show nextChar _ (_ :: rest) = (some c, 1)
    rw [nextChar_of_lead (by omega) hl ht rfl, hb]
    simp only [leadBits, List.foldl_cons, List.foldl_nil]
    rw [show (v / 64 % 32 + 0xC0) % 32 * 64 + v % 64 = v by omega, hc]
  split
  · refine ⟨_, _, rfl, ?_⟩
    have hb : (UInt8.ofNat (v / 4096 % 16 + 0xE0)).toNat = v / 4096 % 16 + 0xE0 :=
      toNat_ofNat_lt (by omega)
    obtain ⟨low, high, hl, hlow, hhigh⟩ :=
      lead?_three (k := v / 4096 % 16) (x := v / 64 % 64)
        (by omega) (by omega) (by omega) (by omega)
    have ht : tailBits 2 low high
        (UInt8.ofNat (v / 64 % 64 + 0x80) :: UInt8.ofNat (v % 64 + 0x80) :: rest) =
          [v / 64 % 64, v % 64] := by
      rw [tailBits_cons (by omega) hlow hhigh, tailBits_cons (by omega) (by omega) (by omega)]
      rfl
    rw [← hb] at hl
    show nextChar _ (_ :: _ :: rest) = (some c, 2)
    rw [nextChar_of_lead (by omega) hl ht rfl, hb]
    simp only [leadBits, List.foldl_cons, List.foldl_nil]
    rw [show ((v / 4096 % 16 + 0xE0) % 16 * 64 + v / 64 % 64) * 64 + v % 64 = v by omega, hc]
  · refine ⟨_, _, rfl, ?_⟩
    have hb : (UInt8.ofNat (v / 262144 % 8 + 0xF0)).toNat = v / 262144 % 8 + 0xF0 :=
      toNat_ofNat_lt (by omega)
    obtain ⟨low, high, hl, hlow, hhigh⟩ :=
      lead?_four (k := v / 262144 % 8) (x := v / 4096 % 64) (by omega) (by omega) (by omega)
    have ht : tailBits 3 low high (UInt8.ofNat (v / 4096 % 64 + 0x80) ::
        UInt8.ofNat (v / 64 % 64 + 0x80) :: UInt8.ofNat (v % 64 + 0x80) :: rest) =
          [v / 4096 % 64, v / 64 % 64, v % 64] := by
      rw [tailBits_cons (by omega) hlow hhigh, tailBits_cons (by omega) (by omega) (by omega),
        tailBits_cons (by omega) (by omega) (by omega)]
      rfl
    rw [← hb] at hl
    show nextChar _ (_ :: _ :: _ :: rest) = (some c, 3)
    rw [nextChar_of_lead (by omega) hl ht rfl, hb]
    simp only [leadBits, List.foldl_cons, List.foldl_nil]
    rw [show (((v / 262144 % 8 + 0xF0) % 8 * 64 + v / 4096 % 64) * 64 + v / 64 % 64) * 64 +
      v % 64 = v by omega, hc]

theorem eq_of_mem_utf8EncodeChar {b : UInt8} {c : Char} (h : b ∈ String.utf8EncodeChar c)
    (hb : b.toNat < 0x80) : c = Char.ofNat b.toNat := by
  have hc : Char.ofNat c.val.toNat = c := Char.ofNat_toNat c
  unfold String.utf8EncodeChar at h
  simp only at h
  generalize c.val.toNat = v at *
  split at h
  · rw [List.mem_singleton.1 h, toNat_ofNat_lt (by omega), hc]
  -- In the other three cases every byte has its highest bit set.
  exfalso
  have high : ∀ n, 0x80 ≤ n → n < 256 → b ≠ UInt8.ofNat n := by
    intro n hn hlt he
    rw [he, toNat_ofNat_lt hlt] at hb
    omega
  split at h
  · simp only [List.mem_cons, List.not_mem_nil, or_false] at h
    rcases h with h | h
    · exact high _ (by omega) (by omega) h
    · exact high _ (by omega) (by omega) h
  split at h
  · simp only [List.mem_cons, List.not_mem_nil, or_false] at h
    rcases h with h | h | h
    · exact high _ (by omega) (by omega) h
    · exact high _ (by omega) (by omega) h
    · exact high _ (by omega) (by omega) h
  · simp only [List.mem_cons, List.not_mem_nil, or_false] at h
    rcases h with h | h | h | h
    · exact high _ (by omega) (by omega) h
    · exact high _ (by omega) (by omega) h
    · exact high _ (by omega) (by omega) h
    · exact high _ (by omega) (by omega) h

/-! ## Whole texts -/

theorem scan_encode (s : List Char) : scan (encode s) = s.map some := by
  induction s with
  | nil => rw [encode, List.flatMap_nil, scan, List.map_nil]
  | cons c s ih =>
    obtain ⟨b, bs, he, hn⟩ := nextChar_utf8EncodeChar c (encode s)
    have hs : encode (c :: s) = b :: (bs ++ encode s) := by
      rw [encode, List.flatMap_cons, he, List.cons_append]
      rfl
    rw [hs, scan, hn]
    simp only
    rw [List.drop_left, ih, List.map_cons]

/-- **The bytes of a text are read back as that text.** -/
@[simp] theorem decode?_encode (s : List Char) : decode? (encode s) = some s := by
  unfold decode?
  rw [scan_encode]
  induction s with
  | nil => rfl
  | cons c s ih => rw [List.map_cons, List.mapM_cons, ih]; rfl

theorem mem_of_mem_encode {b : UInt8} {s : List Char} (h : b ∈ encode s) (hb : b.toNat < 0x80) :
    Char.ofNat b.toNat ∈ s := by
  obtain ⟨c, hc, hbc⟩ := List.mem_flatMap.1 h
  rw [← eq_of_mem_utf8EncodeChar hbc hb]
  exact hc

end ApiDouble.Text.Utf8
