import ApiDouble.Proofs.Text.Blank
import ApiDouble.Proofs.Text.Search
import ApiDouble.Replay.Runner

/-!
# The reason of a fault

**Tags in a text** (`Opens`). A tag starts with a bracket, a prefix or none, and a name. If a blank,
a slash or a bracket ends the name `Fault` somewhere, the text carries a fault (`CarriesFault`), and
the response is a failure whatever its status.

**Two rules for the tag of a reason.** A start tag has exactly one of the names, behind any prefix
or none, its attributes are behind a blank, and it does not close itself (`StartTag`). What is
looked for has a prefix of fewer characters, but is looser: anything up to the closing bracket may
follow the name (`LooseTag`), so longer names and tags that close themselves are taken as well. By
either rule the reason is the trimmed text from the first such tag to the next closing tag, and
nothing if there is none (`IsReason`).

**Where they agree.** The message has the reason of the loose rule. It is the reason of the start
tags unless a tag by one of the rules only comes before all tags by the other (`IsMisleading`).

Main result: `describe_fault`.
-/

namespace ApiDouble.Replay.Soap

open Text

variable {p : Char → Bool} {names : List String} {s rest content body : List Char}

/-! ## Names behind a bracket -/

/-- Nothing, or a prefix of some class of characters and a colon. -/
inductive IsPrefix (p : Char → Bool) : List Char → Prop
  | absent : IsPrefix p []
  | present {w : List Char} (hw : w ≠ []) (h : ∀ c ∈ w, p c = true) : IsPrefix p (w ++ [':'])

/-- A bracket, a prefix or none and one of some names stand at the head of a text, and the rest
behind them. -/
def Opens (p : Char → Bool) (names : List String) (s rest : List Char) : Prop :=
  ∃ before, IsPrefix p before ∧ ∃ name ∈ names, s = '<' :: (before ++ (name.toList ++ rest))

theorem Opens.mono {q : Char → Bool} (hpq : ∀ c, p c = true → q c = true)
    (h : Opens p names s rest) : Opens q names s rest := by
  obtain ⟨before, hbefore, name, hname, hs⟩ := h
  refine ⟨before, ?_, name, hname, hs⟩
  cases hbefore with
  | absent => exact .absent
  | present hw h => exact .present hw fun c hc => hpq c (h c hc)

theorem isPrefix_of_mem_afterPrefix {t : List Char} (h : t ∈ afterPrefix s) :
    ∃ before, IsPrefix isPrefixChar before ∧ s = before ++ t := by
  have hs : s = s.takeWhile isPrefixChar ++ s.dropWhile isPrefixChar :=
    List.takeWhile_append_dropWhile.symm
  unfold afterPrefix at h
  split at h
  · next c w rest hw hrest =>
    rw [List.mem_cons, List.mem_singleton] at h
    rcases h with rfl | rfl
    · refine ⟨c :: w ++ [':'], .present (List.cons_ne_nil c w) ?_, ?_⟩
      · rw [← hw]
        exact fun d hd => List.mem_takeWhile_imp hd
      · rw [hw, hrest] at hs
        rw [hs, List.append_assoc]
        rfl
    · exact ⟨[], .absent, rfl⟩
  · exact ⟨[], .absent, (List.mem_singleton.1 h).symm⟩

theorem afterPrefix_append {w : List Char} (hw : ∀ d ∈ w, isPrefixChar d = true) {c : Char}
    (hc : isPrefixChar c = false) (t : List Char) : afterPrefix (w ++ c :: t) =
      if w ≠ [] ∧ c = ':' then [t, w ++ c :: t] else [w ++ c :: t] := by
  have hstops : ∀ d ∈ (c :: t).head?, isPrefixChar d = false := by
    rintro d ⟨⟩
    exact hc
  rw [afterPrefix, takeWhile_run hw hstops, dropWhile_run hw hstops]
  cases w with
  | nil => rfl
  | cons d w =>
    by_cases hcolon : c = ':'
    · subst hcolon
      rfl
    · simp [hcolon]

theorem isPrefixChar_colon : isPrefixChar ':' = false := by decide +kernel

theorem mem_afterPrefix {before : List Char} (h : IsPrefix isPrefixChar before) (t : List Char) :
    t ∈ afterPrefix (before ++ t) := by
  cases h with
  | absent =>
    unfold afterPrefix
    split
    · exact List.mem_cons_of_mem _ (List.mem_singleton_self t)
    · exact List.mem_singleton_self t
  | present hw h =>
    rw [List.append_assoc, List.singleton_append, afterPrefix_append h isPrefixChar_colon,
      if_pos ⟨hw, rfl⟩]
    exact List.mem_cons_self

/-- A name is looked for behind the prefix and at once. -/
theorem opens_iff : Opens isPrefixChar names s rest ↔
    ∃ t, s = '<' :: t ∧ ∃ u ∈ afterPrefix t, ∃ name ∈ names, after? name.toList u = some rest := by
  constructor
  · rintro ⟨before, hbefore, name, hname, rfl⟩
    exact ⟨_, rfl, _, mem_afterPrefix hbefore _, name, hname, after?_append _ _⟩
  · rintro ⟨t, rfl, u, hu, name, hname, hafter⟩
    obtain ⟨before, hbefore, rfl⟩ := isPrefix_of_mem_afterPrefix hu
    exact ⟨before, hbefore, name, hname, by rw [after?_eq_some_iff.1 hafter]⟩

theorem opens_of_afterName? (h : afterName? names s = some rest) :
    Opens isPrefixChar names s rest := by
  unfold afterName? at h
  split at h
  · next t =>
    obtain ⟨u, hu, h⟩ := List.exists_of_findSome?_eq_some h
    obtain ⟨name, hname, hafter⟩ := List.exists_of_findSome?_eq_some h
    exact opens_iff.2 ⟨t, rfl, u, hu, name, hname, hafter⟩
  · cases h

theorem Opens.exists_afterName? (h : Opens isPrefixChar names s rest) :
    ∃ rest', afterName? names s = some rest' := by
  obtain ⟨t, rfl, u, hu, name, hname, hafter⟩ := opens_iff.1 h
  rw [← Option.isSome_iff_exists]
  refine List.findSome?_isSome_iff.2 ⟨u, hu, List.findSome?_isSome_iff.2 ⟨name, hname, ?_⟩⟩
  rw [hafter]
  rfl

/-! ## The first place of something in a text -/

section FirstIn

variable {α : Type} {f : List Char → Option α}

theorem firstIn?_eq_some_iff {x : α} : firstIn? f s = some x ↔
    ∃ n, f (s.drop n) = some x ∧ ∀ m < n, f (s.drop m) = none := by
  -- The text is tried before what is behind its head, where a place further on is one less.
  induction s with
  | nil =>
    constructor
    · exact fun h => ⟨0, h, fun m hm => absurd hm (Nat.not_lt_zero m)⟩
    · rintro ⟨n, hn, -⟩
      rwa [List.drop_nil] at hn
  | cons c rest ih =>
    rw [firstIn?]
    cases hc : f (c :: rest) with
    | some y =>
      constructor
      · exact fun h => ⟨0, hc.trans h, fun m hm => absurd hm (Nat.not_lt_zero m)⟩
      · rintro ⟨n, hn, hbefore⟩
        cases n with
        | zero => exact hc.symm.trans hn
        | succ n =>
          have hzero := hbefore 0 n.succ_pos
          rw [List.drop_zero, hc] at hzero
          cases hzero
    | none =>
      refine ih.trans ⟨?_, ?_⟩
      · rintro ⟨n, hn, hbefore⟩
        refine ⟨n + 1, hn, fun m hm => ?_⟩
        cases m with
        | zero => exact hc
        | succ m => exact hbefore m (Nat.lt_of_succ_lt_succ hm)
      · rintro ⟨n, hn, hbefore⟩
        cases n with
        | zero =>
          rw [List.drop_zero, hc] at hn
          cases hn
        | succ n => exact ⟨n, hn, fun m hm => hbefore (m + 1) (Nat.succ_lt_succ hm)⟩

theorem firstIn?_eq_none_iff : firstIn? f s = none ↔ ∀ n, f (s.drop n) = none := by
  induction s with
  | nil => simp [firstIn?]
  | cons c rest ih =>
    rw [firstIn?]
    cases hc : f (c :: rest) with
    | some y =>
      refine ⟨fun h => (by cases h), fun h => ?_⟩
      have hzero := h 0
      rw [List.drop_zero, hc] at hzero
      cases hzero
    | none =>
      refine ih.trans ⟨fun h n => ?_, fun h n => h (n + 1)⟩
      cases n with
      | zero => exact hc
      | succ n => exact h n

end FirstIn

/-! ## Fault elements -/

/-- A `Fault` element starts somewhere in a text: its name is there, and ends there. -/
def CarriesFault (body : List Char) : Prop :=
  ∃ n c rest, Opens isPrefixChar ["Fault"] (body.drop n) (c :: rest) ∧
    (isBlank c = true ∨ c = '/' ∨ c = '>')

theorem isBlank_of_isPrefixChar {c : Char} (h : isPrefixChar c = true) : isBlank c = false := by
  simp only [isPrefixChar, Bool.or_eq_true, beq_iff_eq] at h
  rcases h with (h | rfl) | rfl
  · exact isBlank_of_isWord h
  · rfl
  · rfl

theorem isPrefixChar_eq_false {c : Char} (h : isBlank c = true ∨ c = '/' ∨ c = '>') :
    isPrefixChar c = false := by
  rcases h with h | rfl | rfl
  · by_contra hc
    rw [isBlank_of_isPrefixChar (Bool.not_eq_false _ ▸ hc)] at h
    cases h
  · decide +kernel
  · decide +kernel

theorem ne_colon {c : Char} (h : isBlank c = true ∨ c = '/' ∨ c = '>') : c ≠ ':' := by
  rintro rfl
  rcases h with h | h | h <;> cases h

theorem afterName?_of_end {name : String} (hname : ∀ d ∈ name.toList, isPrefixChar d = true)
    {c : Char} (h : Opens isPrefixChar [name] s (c :: rest))
    (hend : isBlank c = true ∨ c = '/' ∨ c = '>') :
    afterName? [name] s = some (c :: rest) := by
  obtain ⟨before, hbefore, other, hmem, rfl⟩ := h
  rw [List.mem_singleton.1 hmem]
  have hafter := after?_append name.toList (c :: rest)
  cases hbefore with
  | absent =>
    rw [List.nil_append, afterName?, afterPrefix_append hname (isPrefixChar_eq_false hend),
      if_neg fun h => ne_colon hend h.2]
    simp [hafter]
  | present hw hchars =>
    rw [List.append_assoc, List.singleton_append, afterName?,
      afterPrefix_append hchars isPrefixChar_colon, if_pos ⟨hw, rfl⟩]
    simp [hafter]

theorem startsFault_iff : startsFault s = true ↔
    ∃ c rest, Opens isPrefixChar ["Fault"] s (c :: rest) ∧
      (isBlank c = true ∨ c = '/' ∨ c = '>') := by
  constructor
  · intro h
    cases hname : afterName? ["Fault"] s with
    | none => simp [startsFault, hname] at h
    | some tag =>
      cases tag with
      | nil => simp [startsFault, hname] at h
      | cons c rest =>
        refine ⟨c, rest, opens_of_afterName? hname, ?_⟩
        simpa [startsFault, hname, or_assoc] using h
  · rintro ⟨c, rest, hopens, hend⟩
    have hword : "Fault".toList.all isPrefixChar = true := by decide +kernel
    rw [startsFault, afterName?_of_end (List.all_eq_true.1 hword) hopens hend]
    simpa [or_assoc] using hend

theorem hasFault_iff : hasFault body = true ↔ CarriesFault body := by
  constructor
  · intro h
    obtain ⟨u, hu⟩ := Option.isSome_iff_exists.1 h
    obtain ⟨n, hn, -⟩ := firstIn?_eq_some_iff.1 hu
    split at hn
    · next hstarts =>
      obtain ⟨c, rest, h⟩ := startsFault_iff.1 hstarts
      exact ⟨n, c, rest, h⟩
    · cases hn
  · rintro ⟨n, c, rest, h⟩
    have hstarts := startsFault_iff.2 ⟨c, rest, h⟩
    rw [hasFault, Option.isSome_iff_ne_none]
    intro hnone
    have hn := firstIn?_eq_none_iff.1 hnone n
    rw [if_pos hstarts] at hn
    cases hn

/-! ## Tags of a reason -/

/-- The names of the elements that hold a reason. -/
def reasonNames : List String := ["faultstring", "Text"]

/-- The characters of the names in a tag. -/
def isTagChar (c : Char) : Bool := !(isBlank c || c == '<' || c == '>' || c == '/' || c == ':')

/-- A bracket, a prefix or none and such a name stand at the head of a text, and a closing bracket
between what follows them and some content. -/
def HasTag (p : Char → Bool) (s attrs content : List Char) : Prop :=
  Opens p reasonNames s (attrs ++ '>' :: content) ∧ '>' ∉ attrs

/-- A start tag: the name ends, and the tag does not close itself. -/
def StartTag (s content : List Char) : Prop :=
  ∃ attrs, HasTag isTagChar s attrs content ∧ attrs.head?.all isBlank = true ∧
    attrs.getLast? ≠ some '/'

/-- A tag as it is looked for, whatever follows the name. -/
def LooseTag (s content : List Char) : Prop := ∃ attrs, HasTag isPrefixChar s attrs content

theorem isTagChar_of_isPrefixChar {c : Char} (h : isPrefixChar c = true) : isTagChar c = true := by
  have hother : ∀ {d : Char}, isPrefixChar d = false → (c == d) = false := by
    intro d hd
    rw [beq_eq_false_iff_ne]
    rintro rfl
    rw [hd] at h
    cases h
  rw [isTagChar, isBlank_of_isPrefixChar h, hother (d := '<') (by decide +kernel),
    hother (d := '>') (by decide +kernel), hother (d := '/') (by decide +kernel),
    hother isPrefixChar_colon]
  rfl

theorem IsPrefix.not_mem {before : List Char} (h : IsPrefix p before) {c : Char}
    (hp : p c = false) (hc : c ≠ ':') : c ∉ before := by
  cases h with
  | absent => exact List.not_mem_nil
  | @present w hw h =>
    intro hmem
    rcases List.mem_append.1 hmem with hmem | hmem
    · rw [h c hmem] at hp
      cases hp
    · exact hc (List.mem_singleton.1 hmem)

/-- No bracket closes the tag before its name ends. -/
theorem Opens.exists_append (hp : p '>' = false) (h : Opens p reasonNames s rest) :
    ∃ opening, s = opening ++ rest ∧ '>' ∉ opening := by
  obtain ⟨before, hbefore, name, hname, rfl⟩ := h
  refine ⟨'<' :: (before ++ name.toList), by simp, ?_⟩
  have hname' : ∀ name ∈ reasonNames, '>' ∉ name.toList := by decide
  simp [hbefore.not_mem hp (by decide), hname' name hname]

theorem isPrefixChar_bracket : isPrefixChar '>' = false := by decide +kernel

theorem HasTag.firstCut {attrs : List Char} (hp : p '>' = false) (h : HasTag p s attrs content) :
    ∃ tag, FirstCut ['>'] s tag content := by
  obtain ⟨hopens, hattrs⟩ := h
  obtain ⟨opening, rfl, hopening⟩ := hopens.exists_append hp
  refine ⟨opening ++ attrs, firstCut_singleton_iff.2 ⟨by rw [List.append_assoc], ?_⟩⟩
  simp [hattrs, hopening]

theorem LooseTag.firstCut (h : LooseTag s content) : ∃ tag, FirstCut ['>'] s tag content := by
  obtain ⟨attrs, htag⟩ := h
  exact htag.firstCut isPrefixChar_bracket

theorem StartTag.firstCut (h : StartTag s content) : ∃ tag, FirstCut ['>'] s tag content := by
  obtain ⟨attrs, htag, -⟩ := h
  exact htag.firstCut rfl

theorem LooseTag.unique {content' : List Char} (h : LooseTag s content)
    (h' : LooseTag s content') : content = content' := by
  obtain ⟨tag, hcut⟩ := h.firstCut
  obtain ⟨tag', hcut'⟩ := h'.firstCut
  exact (hcut.unique hcut').2

theorem LooseTag.eq_of_startTag {content' : List Char} (h : LooseTag s content)
    (h' : StartTag s content') : content = content' := by
  obtain ⟨tag, hcut⟩ := h.firstCut
  obtain ⟨tag', hcut'⟩ := h'.firstCut
  exact (hcut.unique hcut').2

theorem LooseTag.exists_afterName? (h : LooseTag s content) :
    ∃ attrs, afterName? reasonNames s = some (attrs ++ '>' :: content) ∧ '>' ∉ attrs := by
  obtain ⟨tag, hcut⟩ := h.firstCut
  obtain ⟨attrs, hopens, hattrs⟩ := id h
  obtain ⟨rest, hrest⟩ := hopens.exists_afterName?
  have hopens' := opens_of_afterName? hrest
  obtain ⟨opening, hs, hopening⟩ := hopens'.exists_append isPrefixChar_bracket
  have hmem : '>' ∈ rest := by
    have hmem : '>' ∈ opening ++ rest := by
      rw [← hs, (firstCut_singleton_iff.1 hcut).1]
      simp
    exact (List.mem_append.1 hmem).resolve_left hopening
  obtain ⟨attrs', content', rfl, hattrs'⟩ := List.eq_append_cons_of_mem hmem
  obtain rfl := h.unique ⟨attrs', hopens', hattrs'⟩
  exact ⟨attrs', hrest, hattrs'⟩

theorem not_looseTag (h : afterName? reasonNames s = none) : ¬LooseTag s content := by
  rintro ⟨attrs, hopens, -⟩
  obtain ⟨rest, hrest⟩ := hopens.exists_afterName?
  rw [h] at hrest
  cases hrest

/-- The name in a tag goes on to the first character that no name has. -/
def tagName (s : List Char) : List Char := s.tail.takeWhile fun c => isTagChar c || c == ':'

theorem StartTag.suffix_tagName (h : StartTag s content) :
    s.head? = some '<' ∧ ∃ name ∈ reasonNames, name.toList <:+ tagName s := by
  obtain ⟨attrs, ⟨⟨before, hbefore, name, hname, rfl⟩, -⟩, hblank, -⟩ := h
  have hword : ∀ name ∈ reasonNames, name.toList.all (fun c => isTagChar c || c == ':') = true := by
    decide +kernel
  have hchars : ∀ c ∈ before, (isTagChar c || c == ':') = true := by
    intro c hc
    cases hbefore with
    | absent => cases hc
    | present hw h =>
      rcases List.mem_append.1 hc with hc | hc
      · rw [h c hc]
        rfl
      · rw [List.mem_singleton.1 hc]
        rfl
  have hrun : ∀ c ∈ before ++ name.toList, (isTagChar c || c == ':') = true :=
    List.forall_mem_append.2 ⟨hchars, List.all_eq_true.1 (hword name hname)⟩
  -- The blank or bracket behind the name is no character that a name goes on with.
  have hstops : ∀ c ∈ (attrs ++ '>' :: content).head?, (isTagChar c || c == ':') = false := by
    cases attrs with
    | nil =>
      rintro c ⟨⟩
      rfl
    | cons d attrs =>
      rintro c ⟨⟩
      have hd : isBlank d = true := hblank
      have hcolon : (d == ':') = false := by
        rw [beq_eq_false_iff_ne]
        rintro rfl
        cases hd
      simp [isTagChar, hd, hcolon]
  refine ⟨rfl, name, hname, before, ?_⟩
  rw [tagName, List.tail_cons, ← List.append_assoc, takeWhile_run hrun hstops]

theorem not_startTag
    (h : s.head? = some '<' → ∀ name ∈ reasonNames, ¬name.toList <:+ tagName s) :
    ¬StartTag s content := by
  intro htag
  obtain ⟨hhead, name, hname, hsuffix⟩ := htag.suffix_tagName
  exact h hhead name hname hsuffix

/-- What comes behind a later tag is the end of what comes behind an earlier one. -/
theorem LooseTag.suffix {s' content' : List Char} (hs : s <:+ s') (h : LooseTag s content)
    (h' : LooseTag s' content') : content <:+ content' := by
  obtain ⟨before, rfl⟩ := hs
  obtain ⟨tag, rfl, htag⟩ := h.firstCut
  obtain ⟨tag', hs', htag'⟩ := h'.firstCut
  have hlength : tag'.length ≤ (before ++ tag).length :=
    htag' (before ++ tag) content (by simp only [List.append_assoc])
  have hsame := congrArg List.length hs'
  simp only [List.length_append, List.length_singleton] at hlength hsame
  have hsuffix : content <:+ before ++ (tag ++ ['>'] ++ content) :=
    ⟨before ++ (tag ++ ['>']), by simp only [List.append_assoc]⟩
  exact List.suffix_of_suffix_length_le hsuffix ⟨tag' ++ ['>'], hs'.symm⟩ (by omega)

/-! ## Reasons -/

/-- The first tag of a text by some rule is before this content. -/
def FirstTag (Tag : List Char → List Char → Prop) (body content : List Char) : Prop :=
  ∃ n, Tag (body.drop n) content ∧ ∀ m < n, ∀ content', ¬Tag (body.drop m) content'

/-- The reason that a text gives by some rule for tags. -/
inductive IsReason (Tag : List Char → List Char → Prop) (body : List Char) : List Char → Prop
  | given {content text after : List Char} (htag : FirstTag Tag body content)
      (hcut : FirstCut ['<', '/'] content text after) : IsReason Tag body (trim text)
  | absent (h : ∀ content text after, FirstTag Tag body content →
      ¬FirstCut ['<', '/'] content text after) : IsReason Tag body []

theorem reasonAt?_eq_some_iff {text : List Char} : reasonAt? s = some text ↔
    ∃ content after, LooseTag s content ∧ FirstCut ['<', '/'] content text after := by
  have hread : reasonAt? s = (afterName? reasonNames s).bind fun tag =>
      (breakAt? ['>'] tag).bind fun p => (breakAt? ['<', '/'] p.2).bind fun q => some q.1 := rfl
  rw [hread]
  constructor
  · intro h
    obtain ⟨tag, htag, h⟩ := Option.bind_eq_some_iff.1 h
    obtain ⟨⟨attrs, content⟩, hattrs, h⟩ := Option.bind_eq_some_iff.1 h
    obtain ⟨⟨t, after⟩, hcut, h⟩ := Option.bind_eq_some_iff.1 h
    obtain rfl := Option.some.inj h
    obtain ⟨rfl, hmem⟩ := firstCut_singleton_iff.1 (breakAt?_eq_some_iff.1 hattrs)
    exact ⟨content, after, ⟨attrs, opens_of_afterName? htag, hmem⟩, breakAt?_eq_some_iff.1 hcut⟩
  · rintro ⟨content, after, htag, hcut⟩
    obtain ⟨attrs, hname, hattrs⟩ := htag.exists_afterName?
    have hbreak : breakAt? ['>'] (attrs ++ '>' :: content) = some (attrs, content) :=
      splitOnce?_append hattrs content
    rw [hname, Option.bind_some, hbreak, Option.bind_some, breakAt?_eq_some_iff.2 hcut]
    rfl

section Reason

variable {Tag Tag' : List Char → List Char → Prop} {r r' : List Char}

theorem FirstTag.unique {content' : List Char}
    (hTag : ∀ s c c', Tag s c → Tag s c' → c = c') (h : FirstTag Tag body content)
    (h' : FirstTag Tag body content') : content = content' := by
  obtain ⟨n, hn, hbefore⟩ := h
  obtain ⟨m, hm, hbefore'⟩ := h'
  rcases Nat.lt_trichotomy n m with hlt | rfl | hlt
  · exact absurd hn (hbefore' n hlt content)
  · exact hTag _ _ _ hn hm
  · exact absurd hm (hbefore m hlt content')

theorem IsReason.unique (hTag : ∀ s c c', Tag s c → Tag s c' → c = c') (h : IsReason Tag body r)
    (h' : IsReason Tag body r') : r = r' := by
  cases h with
  | given htag hcut =>
    cases h' with
    | given htag' hcut' =>
      obtain rfl := htag.unique hTag htag'
      rw [(hcut.unique hcut').1]
    | absent h => exact absurd hcut (h _ _ _ htag)
  | absent h =>
    cases h' with
    | given htag hcut => exact absurd hcut (h _ _ _ htag)
    | absent => rfl

theorem IsReason.congr (hTag : ∀ content, FirstTag Tag body content ↔ FirstTag Tag' body content) :
    IsReason Tag body r ↔ IsReason Tag' body r := by
  constructor
  · rintro (⟨htag, hcut⟩ | h)
    · exact .given ((hTag _).1 htag) hcut
    · exact .absent fun content text after htag => h content text after ((hTag _).2 htag)
  · rintro (⟨htag, hcut⟩ | h)
    · exact .given ((hTag _).2 htag) hcut
    · exact .absent fun content text after htag => h content text after ((hTag _).1 htag)

end Reason

/-- The reason found is that of the first loose tag. If nothing closes what is behind it, then
nothing closes what is behind a later one. -/
theorem isReason_reason (body : List Char) : IsReason LooseTag body (reason body) := by
  unfold reason
  cases hfirst : firstIn? reasonAt? body with
  | some text =>
    obtain ⟨n, hn, hbefore⟩ := firstIn?_eq_some_iff.1 hfirst
    obtain ⟨content, after, htag, hcut⟩ := reasonAt?_eq_some_iff.1 hn
    refine .given ⟨n, htag, fun m hm content' htag' => ?_⟩ hcut
    obtain ⟨before, rfl⟩ := htag.suffix (List.drop_suffix_drop_left body hm.le) htag'
    -- What closes the text of the later tag would close that of the earlier one as well.
    cases hcut' : breakAt? ['<', '/'] (before ++ content) with
    | none =>
      refine breakAt?_eq_none_iff.1 hcut' (before ++ text) after ?_
      rw [hcut.1]
      simp only [List.append_assoc]
    | some p =>
      have hm' := reasonAt?_eq_some_iff.2 ⟨_, _, htag', breakAt?_eq_some_iff.1 hcut'⟩
      rw [hbefore m hm] at hm'
      cases hm'
  | none =>
    refine .absent fun content text after ⟨n, htag, _⟩ hcut => ?_
    have hn := reasonAt?_eq_some_iff.2 ⟨content, after, htag, hcut⟩
    rw [firstIn?_eq_none_iff.1 hfirst n] at hn
    cases hn

/-- A tag by one rule only comes before all tags by another rule. -/
def Precedes (Tag Tag' : List Char → List Char → Prop) (body : List Char) : Prop :=
  ∃ n content, Tag (body.drop n) content ∧ ¬Tag' (body.drop n) content ∧
    ∀ m < n, ∀ content', ¬Tag' (body.drop m) content'

/-- A tag by one of the two rules only comes before all tags by the other one. -/
def IsMisleading (body : List Char) : Prop :=
  Precedes LooseTag StartTag body ∨ Precedes StartTag LooseTag body

section Precedes

variable {Tag Tag' : List Char → List Char → Prop}

/-- If neither rule comes before the other, they have the same first tag. -/
theorem FirstTag.of_not_precedes (h : ¬Precedes Tag Tag' body) (h' : ¬Precedes Tag' Tag body)
    (hfirst : FirstTag Tag body content) : FirstTag Tag' body content := by
  obtain ⟨n, hn, hbefore⟩ := hfirst
  have hbefore' : ∀ m < n, ∀ c, ¬Tag' (body.drop m) c := fun m hm c hc =>
    h' ⟨m, c, hc, hbefore m hm c, fun k hk => hbefore k (hk.trans hm)⟩
  refine ⟨n, ?_, hbefore'⟩
  by_contra hno
  exact h ⟨n, content, hn, hno, hbefore'⟩

theorem not_precedes {n : Nat} (hbefore : ∀ m < n, ∀ c, ¬Tag (body.drop m) c)
    (hn : ∀ c, Tag (body.drop n) c → Tag' (body.drop n) c) (htag : Tag' (body.drop n) content) :
    ¬Precedes Tag Tag' body := by
  rintro ⟨k, c, hk, hno, hbefore'⟩
  rcases Nat.lt_trichotomy k n with hlt | rfl | hlt
  · exact hbefore k hlt c hk
  · exact hno (hn c hk)
  · exact hbefore' n hlt content htag

end Precedes

theorem firstTag_start_iff (h : ¬IsMisleading body) :
    FirstTag StartTag body content ↔ FirstTag LooseTag body content := by
  obtain ⟨hloose, hstart⟩ := not_or.1 h
  exact ⟨.of_not_precedes hstart hloose, .of_not_precedes hloose hstart⟩

/-- **A response that carries a fault is a failure, and its message has the reason of the first
loose tag.** That is the reason of the first start tag unless the text is misleading. -/
theorem describe_fault (c : Capture) (h : CarriesFault c.body.toList) :
    classify c = .failure ∧ ∃ r,
      describe c = "SOAP Fault (" ++ toString c.status ++ "): " ++ String.ofList r ∧
      (∀ r', IsReason LooseTag c.body.toList r' ↔ r' = r) ∧
      (¬IsMisleading c.body.toList → ∀ r', IsReason StartTag c.body.toList r' ↔ r' = r) := by
  have hfault := hasFault_iff.2 h
  have hreason : ∀ r', IsReason LooseTag c.body.toList r' ↔ r' = reason c.body.toList := by
    intro r'
    constructor
    · -- The text behind a tag is determined by where the tag stands, and so the reason by the first
      -- tag.
      have hunique : ∀ s c c', LooseTag s c → LooseTag s c' → c = c' :=
        fun _ _ _ h h' => h.unique h'
      exact fun hr' => hr'.unique hunique (isReason_reason _)
    · rintro rfl
      exact isReason_reason _
  refine ⟨?_, reason c.body.toList, ?_, hreason, fun hclear r' => ?_⟩
  · rw [classify, if_pos hfault]
  · rw [describe, if_pos hfault]
  · rw [← hreason r']
    exact IsReason.congr fun content => firstTag_start_iff hclear

/-- A fault whose elements have prefixes, and the one of its reason an attribute. -/
def downBody : String := "<s:Fault><s:Text lang=\"en\"> Down </s:Text></s:Fault>"

theorem describe_down :
    let c : Capture := { status := 500, headers := [], mediaType := none, body := downBody }
    CarriesFault c.body.toList ∧ ¬IsMisleading c.body.toList ∧ classify c = .failure ∧
      describe c = "SOAP Fault (500): Down" ∧ IsReason StartTag c.body.toList "Down".toList := by
  intro c
  have hfault : CarriesFault c.body.toList := hasFault_iff.1 (by decide +kernel)
  have hopens : Opens isPrefixChar reasonNames (c.body.toList.drop 9)
      (" lang=\"en\"".toList ++ '>' :: " Down </s:Text></s:Fault>".toList) :=
    opens_of_afterName? (by decide +kernel)
  have hloose : LooseTag (c.body.toList.drop 9) " Down </s:Text></s:Fault>".toList :=
    ⟨_, hopens, by decide⟩
  have hstart : StartTag (c.body.toList.drop 9) " Down </s:Text></s:Fault>".toList :=
    ⟨_, ⟨hopens.mono fun _ => isTagChar_of_isPrefixChar, by decide⟩, by decide⟩
  have hnoLoose : ∀ m < 9, ∀ content, ¬LooseTag (c.body.toList.drop m) content := by
    have hnone : ∀ m < 9, afterName? reasonNames (c.body.toList.drop m) = none := by
      decide +kernel
    exact fun m hm content => not_looseTag (hnone m hm)
  have hnoStart : ∀ m < 9, ∀ content, ¬StartTag (c.body.toList.drop m) content := by
    have hnone : ∀ m < 9, (c.body.toList.drop m).head? = some '<' →
        ∀ name ∈ reasonNames, ¬name.toList <:+ tagName (c.body.toList.drop m) := by
      decide +kernel
    exact fun m hm content => not_startTag (hnone m hm)
  have hclear : ¬IsMisleading c.body.toList :=
    not_or.2 ⟨not_precedes hnoLoose (fun _ h => h.eq_of_startTag hstart ▸ hstart) hstart,
      not_precedes hnoStart (fun _ h => hloose.eq_of_startTag h ▸ hloose) hloose⟩
  have hcut : FirstCut ['<', '/'] " Down </s:Text></s:Fault>".toList " Down ".toList
      "s:Text></s:Fault>".toList := breakAt?_eq_some_iff.1 (by decide +kernel)
  have htrim : trim " Down ".toList = "Down".toList := by decide +kernel
  have hreason : IsReason StartTag c.body.toList "Down".toList :=
    htrim ▸ .given ⟨9, hstart, hnoStart⟩ hcut
  obtain ⟨hclassify, r, hdescribe, -, hr⟩ := describe_fault c hfault
  obtain rfl := (hr hclear _).1 hreason
  exact ⟨hfault, hclear, hclassify, hdescribe.trans (by decide +kernel), hreason⟩

/-- A longer name before the reason. -/
def blockBody : String := "<Fault><TextBlock>late</TextBlock><Text>down</Text></Fault>"

/-- **A name that only begins like that of a reason is taken for it.** -/
theorem describe_block :
    let c : Capture := { status := 200, headers := [], mediaType := none, body := blockBody }
    CarriesFault c.body.toList ∧ IsReason StartTag c.body.toList "down".toList ∧
      describe c = "SOAP Fault (200): late" := by
  intro c
  have hfault : CarriesFault c.body.toList := hasFault_iff.1 (by decide +kernel)
  have hopens : Opens isPrefixChar reasonNames (c.body.toList.drop 34)
      ([] ++ '>' :: "down</Text></Fault>".toList) := opens_of_afterName? (by decide +kernel)
  have hstart : StartTag (c.body.toList.drop 34) "down</Text></Fault>".toList :=
    ⟨[], ⟨hopens.mono fun _ => isTagChar_of_isPrefixChar, by decide⟩, by decide⟩
  have hnone : ∀ m < 34, (c.body.toList.drop m).head? = some '<' →
      ∀ name ∈ reasonNames, ¬name.toList <:+ tagName (c.body.toList.drop m) := by
    decide +kernel
  have hfirst : FirstTag StartTag c.body.toList "down</Text></Fault>".toList :=
    ⟨34, hstart, fun m hm content => not_startTag (hnone m hm)⟩
  have hcut : FirstCut ['<', '/'] "down</Text></Fault>".toList "down".toList
      "Text></Fault>".toList := breakAt?_eq_some_iff.1 (by decide +kernel)
  have htrim : trim "down".toList = "down".toList := by decide +kernel
  exact ⟨hfault, htrim ▸ .given hfirst hcut, by decide +kernel⟩

end ApiDouble.Replay.Soap
