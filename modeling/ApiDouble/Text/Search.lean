/-!
# Searching and splitting

Everything rests on one search, `breakAt?`: the text before the first place where a needle stands,
and the text after it. Splitting, replacing and looking for a part repeat it. What is found first
wins, and places do not overlap.
-/

namespace ApiDouble.Text

/-- The rest of `s` after `needle`, if `s` starts with it. -/
def after? : (needle s : List Char) → Option (List Char)
  | [], s => some s
  | _ :: _, [] => none
  | n :: ns, c :: cs => if n = c then after? ns cs else none

theorem after?_eq_some_iff {needle s r : List Char} :
    after? needle s = some r ↔ s = needle ++ r := by
  induction needle generalizing s with
  | nil => simp [after?, eq_comm]
  | cons n ns ih =>
    cases s with
    | nil => simp [after?]
    | cons c cs =>
      by_cases h : n = c <;> simp [after?, h, ih]
      exact fun h' => (h h'.symm).elim

/-- What stands before and after the first occurrence of `needle` in `s`. -/
def breakAt? (needle : List Char) : (s : List Char) → Option (List Char × List Char)
  | [] => (after? needle []).map fun r => ([], r)
  | c :: cs =>
    match after? needle (c :: cs) with
    | some r => some ([], r)
    | none => (breakAt? needle cs).map fun p => (c :: p.1, p.2)

theorem eq_of_breakAt? {needle s a b : List Char} (h : breakAt? needle s = some (a, b)) :
    s = a ++ needle ++ b := by
  induction s generalizing a with
  | nil =>
    obtain ⟨r, hr, he⟩ := Option.map_eq_some_iff.1 h
    cases he
    simpa using after?_eq_some_iff.1 hr
  | cons c cs ih =>
    rw [breakAt?] at h
    split at h
    · next r hr =>
      cases h
      simpa using after?_eq_some_iff.1 hr
    · obtain ⟨⟨a', b'⟩, hp, he⟩ := Option.map_eq_some_iff.1 h
      cases he
      simp [ih hp]

theorem length_of_breakAt? {needle s a b : List Char} (h : breakAt? needle s = some (a, b)) :
    s.length = a.length + needle.length + b.length := by
  simp [eq_of_breakAt? h, Nat.add_assoc]

/-- Whether `needle` stands somewhere in `s`. -/
def occurs (needle s : List Char) : Bool := (breakAt? needle s).isSome

/-- The pieces of `s` between the occurrences of `needle`. An empty needle splits nothing. -/
def splitAt (needle s : List Char) : List (List Char) :=
  if hn : needle = [] then [s]
  else
    match h : breakAt? needle s with
    | none => [s]
    | some (a, b) =>
      have := length_of_breakAt? h
      have := List.length_pos_iff.2 hn
      a :: splitAt needle b
termination_by s.length

/-- `s` with every occurrence of `needle` replaced. -/
def replaceAll (needle replacement s : List Char) : List Char :=
  replacement.intercalate (splitAt needle s)

/-- The parts of `s` between separators. -/
def splitOn (separator : Char) (s : List Char) : List (List Char) := s.splitOn separator

/-- The parts of a string before and after the first `separator`. -/
def splitOnce? (separator : Char) (s : List Char) : Option (List Char × List Char) :=
  breakAt? [separator] s

end ApiDouble.Text
