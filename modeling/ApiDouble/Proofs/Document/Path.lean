import ApiDouble.Document.Basic
import ApiDouble.Document.Path.Reader
import ApiDouble.Proofs.Text.Search
import ApiDouble.Text.Characters

/-!
# Pointers and paths to members

**Pointers.** A pointer can be written for every list of keys in which no key has a slash or a
tilde: each key behind a slash (`pointerTo`). Reading it splits it at just these slashes, and there
is nothing in the keys that would be read as something else. In nested objects its steps are the
members with these keys.

**Paths.** A path of plain keys is written with each key behind a point (`memberText`). A key of
ASCII letters ends where its letters end, and nothing in the rest of such a path can be read as
anything else: no bracket, no star, no second point, and no parenthesis that would make a call of
it. So reading it gives one step for each key (`steps?_memberText`).

Each step keeps at most one part, so what the path finds is what the members with these keys lead
to, one after the other, or nothing at all (`find_memberPath`). A pointer to the same keys finds the
same (`at?_pointerTo_eq`), as no key of letters is the index of an item.

Main results: `pointerSteps?_pointerTo`, `at?_pointerTo`, `parse?_memberText`, `find_memberPath`,
`at?_pointerTo_eq`.
-/

namespace ApiDouble.Document

open Text

/-! ## Pointers -/

/-- A pointer that has keys for its steps. -/
def pointerTo (keys : List String) : List Char := keys.flatMap fun key => '/' :: key.toList

theorem pointerTo_cons (key : String) (keys : List String) :
    pointerTo (key :: keys) = '/' :: (key.toList ++ pointerTo keys) := rfl

theorem unescaped_eq_self {step : List Char} (h : '~' ∉ step) : unescaped step = step := by
  have hkept : ∀ c r, replaceAll ['~', c] r step = step := by
    intro c r
    have happend : replaceAll ['~', c] r (step ++ []) = step ++ replaceAll ['~', c] r [] :=
      replaceAll_append_of_not_mem h r []
    rwa [replaceAll_nil (List.cons_ne_nil _ _), List.append_nil] at happend
  rw [unescaped, hkept, hkept]

theorem splitOn_pointerTo {key : String} {keys : List String}
    (h : ∀ k ∈ key :: keys, '/' ∉ k.toList) :
    splitOn '/' (key.toList ++ pointerTo keys) = (key :: keys).map String.toList := by
  induction keys generalizing key with
  | nil =>
    rw [pointerTo, List.flatMap_nil, List.append_nil]
    exact List.splitOn_eq_singleton (h key List.mem_cons_self)
  | cons next keys ih =>
    obtain ⟨hkey, hkeys⟩ := List.forall_mem_cons.1 h
    rw [pointerTo_cons, splitOn, List.splitOn_append_cons_self, List.splitOn_eq_singleton hkey]
    exact congrArg (key.toList :: ·) (ih hkeys)

/-- **A pointer to keys has the keys for its steps.** -/
theorem pointerSteps?_pointerTo {keys : List String}
    (h : ∀ key ∈ keys, '/' ∉ key.toList ∧ '~' ∉ key.toList) :
    pointerSteps? (pointerTo keys) = some (keys.map String.toList) := by
  cases keys with
  | nil => rfl
  | cons key keys =>
    have hkept : ((key :: keys).map String.toList).map unescaped =
        (key :: keys).map String.toList := by
      rw [List.map_map]
      exact List.map_congr_left fun k hk => unescaped_eq_self (h k hk).2
    rw [pointerTo_cons, pointerSteps?, splitOn_pointerTo fun k hk => (h k hk).1, hkept]

theorem step?_of_get? {d x : Document} {key : String} (h : d.get? key = some x) :
    d.step? key.toList = some x := by
  cases d with
  | object ms => rwa [step?, String.ofList_toList]
  | _ => cases h

theorem steps?_of_foldlM {d x : Document} {keys : List String}
    (h : keys.foldlM Document.get? d = some x) : steps? (keys.map String.toList) d = some x := by
  induction keys generalizing d with
  | nil => exact h
  | cons key keys ih =>
    rw [List.foldlM_cons] at h
    obtain ⟨child, hchild, hrest⟩ := Option.bind_eq_some_iff.1 h
    rw [List.map_cons, steps?, step?_of_get? hchild]
    exact ih hrest

/-- **A pointer to keys leads where the keys lead**, one member after the other. -/
theorem at?_pointerTo {d x : Document} {keys : List String}
    (hkeys : ∀ key ∈ keys, '/' ∉ key.toList ∧ '~' ∉ key.toList)
    (h : keys.foldlM Document.get? d = some x) : d.at? (pointerTo keys) = some x := by
  rw [at?, pointerSteps?_pointerTo hkeys]
  exact steps?_of_foldlM h

/-! ## Paths -/

open Text Json

/-- A text of one or more ASCII letters. -/
def IsLetters (key : String) : Prop := key ≠ "" ∧ ∀ c ∈ key.toList, c.isAlpha = true

instance (key : String) : Decidable (IsLetters key) :=
  decidable_of_iff (key ≠ "" ∧ key.toList.all Char.isAlpha = true) (by simp [IsLetters])

/-- Keys, each behind a point. -/
def memberText (keys : List String) : List Char := keys.flatMap fun key => '.' :: key.toList

/-- The path from the root through the members with some keys. -/
def memberPath (keys : List String) : Path := .root :: keys.map .field

/-! ### Letters -/

section Letters

variable {c d : Char} {key : String} {keys : List String}

theorem ne_of_isAlpha (h : c.isAlpha = true) (hd : d.isAlpha = false) : c ≠ d := by
  rintro rfl
  rw [h] at hd
  cases hd

theorem toNat_of_isAlpha (h : c.isAlpha = true) :
    65 ≤ c.toNat ∧ c.toNat ≤ 90 ∨ 97 ≤ c.toNat ∧ c.toNat ≤ 122 := by
  rcases Bool.or_eq_true_iff.1 h with hupper | hlower
  · exact .inl (of_decide_eq_true hupper)
  · obtain ⟨hlow, hhigh⟩ := Bool.and_eq_true_iff.1 hlower
    exact .inr ⟨of_decide_eq_true hlow, of_decide_eq_true hhigh⟩

theorem isDigit_of_isAlpha (h : c.isAlpha = true) : c.isDigit = false := by
  have hcode := toNat_of_isAlpha h
  rw [Bool.eq_false_iff]
  intro hdigit
  have hbounds : 48 ≤ c.toNat ∧ c.toNat ≤ 57 := by
    simpa [Char.isDigit, UInt32.le_iff_toNat_le] using hdigit
  omega

theorem isBlank_of_isAlpha (h : c.isAlpha = true) : isBlank c = false := by
  have hcode := toNat_of_isAlpha h
  simp [isBlank]
  omega

theorem isSpace_of_isAlpha (h : c.isAlpha = true) : isSpace c = false := by
  simp [isSpace, ne_of_isAlpha h (d := ' ') (by decide), ne_of_isAlpha h (d := '\t') (by decide),
    ne_of_isAlpha h (d := '\n') (by decide), ne_of_isAlpha h (d := '\r') (by decide)]

theorem IsLetters.exists_cons (h : IsLetters key) :
    ∃ c cs, key.toList = c :: cs ∧ c.isAlpha = true := by
  obtain ⟨hne, hletters⟩ := h
  cases hkey : key.toList with
  | nil => exact absurd (String.toList_eq_nil_iff.1 hkey) hne
  | cons c cs =>
    rw [hkey] at hletters
    exact ⟨c, cs, rfl, hletters c List.mem_cons_self⟩

theorem IsLetters.not_mem (h : IsLetters key) (hd : d.isAlpha = false) : d ∉ key.toList :=
  fun hmem => ne_of_isAlpha (h.2 d hmem) hd rfl

theorem eq_or_isAlpha {separator : Char} (h : ∀ key ∈ keys, IsLetters key)
    (hc : c ∈ keys.flatMap fun key => separator :: key.toList) :
    c = separator ∨ c.isAlpha = true := by
  obtain ⟨key, hkey, hc⟩ := List.mem_flatMap.1 hc
  rcases List.mem_cons.1 hc with hseparator | hc
  · exact .inl hseparator
  · exact .inr ((h key hkey).2 c hc)

end Letters

/-! ### Reading -/

namespace Path

variable {key : String} {keys : List String}

theorem after?_call {s : List Char} (h : '(' ∉ s) : after? "length()".toList s = none := by
  rw [Option.eq_none_iff_forall_ne_some]
  intro rest hrest
  apply h
  rw [after?_eq_some_iff.1 hrest]
  exact List.mem_append_left _ (by decide)

theorem key?_memberText (hkey : IsLetters key) (hkeys : ∀ k ∈ keys, IsLetters k) :
    key? (key.toList ++ memberText keys) = some key.toList := by
  have hchars : ∀ c ∈ key.toList, isKeyChar c = true := by
    intro c hc
    simp [isKeyChar, Char.isAlphanum, hkey.2 c hc]
  have hstops : ∀ c ∈ (memberText keys).head?, isKeyChar c = false := by
    cases keys with
    | nil => exact nofun
    | cons next keys =>
      rintro c ⟨⟩
      decide
  have htake := takeWhile_run hchars hstops
  have hcall : '(' ∉ key.toList ++ memberText keys := by
    intro hmem
    rcases List.mem_append.1 hmem with hmem | hmem
    · exact hkey.not_mem (by decide) hmem
    · rcases eq_or_isAlpha hkeys hmem with h | h <;> cases h
  have hkept : key.toList ≠ [] := fun h => hkey.1 (String.toList_eq_nil_iff.1 h)
  unfold key?
  rw [htake, after?_call hcall]
  exact if_neg (by simp [hkept])

theorem sign?_of_isAlpha {c d : Char} (hc : c.isAlpha = true) (hd : d.isAlpha = false)
    (s : List Char) : sign? d (c :: s) = none := by
  have hskip : skipSpace (c :: s) = c :: s :=
    List.dropWhile_cons_of_neg (by simp [isSpace_of_isAlpha hc])
  unfold sign?
  split
  · next e r h =>
    rw [hskip] at h
    obtain ⟨rfl, -⟩ := List.cons.inj h
    exact if_neg (ne_of_isAlpha hc hd)
  · rfl

theorem named?_of_key? {c : Char} {s k : List Char} (hc : c ≠ '[') (hk : k ≠ [])
    (h : key? (c :: s) = some k) :
    ∃ h, named? (c :: s) = some (String.ofList k, ⟨(c :: s).drop k.length, h⟩) := by
  have hlength : ¬(k.length = 0 ∨ (c :: s).length = 0) := by simp [hk]
  have hshorter : ((c :: s).drop k.length).length < (c :: s).length := by
    rw [List.length_drop]
    omega
  have hopen : ∀ r, c :: s = '[' :: r → False := by
    intro r hr
    exact hc (List.cons.inj hr).1
  refine ⟨hshorter, ?_⟩
  rw [named?.eq_2 (c :: s) hopen, h]
  exact dif_neg hlength

theorem named?_memberText (hkey : IsLetters key) (hkeys : ∀ k ∈ keys, IsLetters k) :
    ∃ h, named? (key.toList ++ memberText keys) = some (key, ⟨memberText keys, h⟩) := by
  have hname := key?_memberText hkey hkeys
  obtain ⟨c, cs, hcons, hc⟩ := hkey.exists_cons
  have htext : key.toList ++ memberText keys = c :: (cs ++ memberText keys) := by rw [hcons]; rfl
  have hdrop : (key.toList ++ memberText keys).drop key.toList.length = memberText keys :=
    List.drop_left
  rw [htext] at hname hdrop ⊢
  obtain ⟨h, hnamed⟩ := named?_of_key? (ne_of_isAlpha hc (by decide)) (by simp [hcons]) hname
  simp only [hdrop, String.ofList_toList] at h hnamed
  exact ⟨h, hnamed⟩

theorem step?_memberText (hkey : IsLetters key) (hkeys : ∀ k ∈ keys, IsLetters k) :
    ∃ h, step? (memberText (key :: keys)) = some (.field key, ⟨memberText keys, h⟩) := by
  obtain ⟨h, hnamed⟩ := named?_memberText hkey hkeys
  obtain ⟨c, cs, hcons, hc⟩ := hkey.exists_cons
  have hstar : sign? '*' (key.toList ++ memberText keys) = none := by
    rw [hcons]
    exact sign?_of_isAlpha hc (by decide) _
  have hdescent : descent? (key.toList ++ memberText keys) = none := by
    have hpoint : sign? '.' (key.toList ++ memberText keys) = none := by
      rw [hcons]
      exact sign?_of_isAlpha hc (by decide) _
    simp [descent?, hpoint]
  have hpointed : pointed? (key.toList ++ memberText keys) =
      some (.field key, ⟨memberText keys, h⟩) := by
    simp [pointed?, hdescent, hstar, hnamed]
  refine ⟨Nat.lt_succ_of_lt h, ?_⟩
  show step? ('.' :: (key.toList ++ memberText keys)) = _
  rw [step?.eq_3 _ (by simp) (by simp), simple?, hpointed]
  rfl

section Steps

variable {s r rest : List Char} {x : Step} {xs : List Step} {h : r.length < (skipSpace s).length}

theorem steps?_last (hstep : step? (skipSpace s) = some (x, ⟨r, h⟩)) (hrest : steps? r = none) :
    ∃ h, steps? s = some ([x], ⟨r, h⟩) := by
  refine ⟨Nat.lt_of_lt_of_le h (length_dropWhile_le _ _), ?_⟩
  rw [steps?, hstep]
  simp only [Option.bind_eq_bind, Option.bind_some, hrest]
  rfl

theorem steps?_cons (hstep : step? (skipSpace s) = some (x, ⟨r, h⟩))
    {h' : rest.length < r.length} (hrest : steps? r = some (xs, ⟨rest, h'⟩)) :
    ∃ h, steps? s = some (x :: xs, ⟨rest, h⟩) := by
  refine ⟨Nat.lt_trans h' (Nat.lt_of_lt_of_le h (length_dropWhile_le _ _)), ?_⟩
  rw [steps?, hstep]
  simp only [Option.bind_eq_bind, Option.bind_some, hrest]
  rfl

end Steps

theorem steps?_nil : steps? [] = none := by
  have hstep : step? (skipSpace []) = none := by
    show step? [] = none
    rw [step?.eq_3 _ (by simp) (by simp)]
    rfl
  rw [steps?, hstep]
  rfl

/-- Keys behind points are read one by one. -/
theorem steps?_memberText (hne : keys ≠ []) (h : ∀ key ∈ keys, IsLetters key) :
    ∃ h, steps? (memberText keys) = some (keys.map .field, ⟨[], h⟩) := by
  induction keys with
  | nil => exact absurd rfl hne
  | cons key keys ih =>
    obtain ⟨hkey, hkeys⟩ := List.forall_mem_cons.1 h
    obtain ⟨hlt, hstep⟩ := step?_memberText hkey hkeys
    by_cases hlast : keys = []
    · subst hlast
      exact steps?_last hstep steps?_nil
    · obtain ⟨hlt', hrest⟩ := ih hlast hkeys
      exact steps?_cons hstep hrest

/-- **A path of plain keys has one step for each key**, from the root on. -/
theorem parse?_memberText (hne : keys ≠ []) (h : ∀ key ∈ keys, IsLetters key) :
    parse? ('$' :: memberText keys) = some (memberPath keys) := by
  obtain ⟨hlt, hrest⟩ := steps?_memberText hne h
  have hroot : step? (skipSpace ('$' :: memberText keys)) = some (.root, Rest.tail) := by
    show step? ('$' :: memberText keys) = _
    rw [step?]
  obtain ⟨hlt', hsteps⟩ := steps?_cons hroot hrest
  have hsettled : settled (memberPath keys) = memberPath keys := by
    obtain ⟨last, hlast⟩ : ∃ key, keys.getLast? = some key :=
      Option.isSome_iff_exists.1 (by simpa using hne)
    have hend : (memberPath keys).getLast? = some (.field last) := by
      simp [memberPath, List.getLast?_cons, List.getLast?_map, hlast]
    rw [settled, hend]
  show (steps? ('$' :: memberText keys)).bind _ = _
  rw [hsteps]
  show some (settled (memberPath keys)) = _
  rw [hsettled]

end Path

/-! ### Finding -/

theorem select_fields (root : Document) (keys : List String) (found : Option Document) :
    select root (keys.map .field) found.toList =
      (found.bind fun d => keys.foldlM Document.get? d).toList := by
  induction keys generalizing found with
  | nil => cases found <;> rfl
  | cons key keys ih =>
    have hstep : (Step.field key).select root found.toList = (found.bind (·.get? key)).toList := by
      cases found with
      | none => rfl
      | some d =>
        show [d].filterMap (·.get? key) = (d.get? key).toList
        rw [List.filterMap_cons, List.filterMap_nil]
        cases d.get? key <;> rfl
    rw [List.map_cons, select, hstep, ih, Option.bind_assoc]
    rfl

/-- **A path of plain keys finds what the keys lead to**, one member after the other. -/
theorem find_memberPath (keys : List String) (d : Document) :
    (memberPath keys).find d = (keys.foldlM Document.get? d).toList :=
  select_fields d keys (some d)

/-! ### Pointers -/

/-- A key of letters leads to no item of an array. -/
theorem step?_eq_get? {key : String} (h : IsLetters key) (d : Document) :
    d.step? key.toList = d.get? key := by
  cases d with
  | object ms => rw [step?, String.ofList_toList, get?_object]
  | array xs =>
    have hdigits : natural? key.toList = none := by
      obtain ⟨c, cs, hcons, hc⟩ := h.exists_cons
      rw [hcons, natural?, if_pos (.inr (by simp [isDigit_of_isAlpha hc]))]
    have hindex : index? key.toList = none := by
      rw [index?, hdigits, ite_self]
    rw [step?, hindex]
    rfl
  | _ => rfl

/-- **A pointer of such keys finds the same as the path.** -/
theorem at?_pointerTo_eq {keys : List String} (h : ∀ key ∈ keys, IsLetters key) (d : Document) :
    d.at? (pointerTo keys) = keys.foldlM Document.get? d := by
  have hsteps : steps? (keys.map String.toList) d = keys.foldlM Document.get? d := by
    induction keys generalizing d with
    | nil => rfl
    | cons key keys ih =>
      obtain ⟨hkey, hkeys⟩ := List.forall_mem_cons.1 h
      rw [List.map_cons, steps?, step?_eq_get? hkey, List.foldlM_cons]
      cases d.get? key with
      | none => rfl
      | some x => exact ih hkeys x
  have hplain : ∀ key ∈ keys, '/' ∉ key.toList ∧ '~' ∉ key.toList := by
    intro key hkey
    exact ⟨(h key hkey).not_mem (by decide), (h key hkey).not_mem (by decide)⟩
  rw [at?, pointerSteps?_pointerTo hplain]
  exact hsteps

end ApiDouble.Document
