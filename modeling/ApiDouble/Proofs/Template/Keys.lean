import ApiDouble.Proofs.Document.Path
import ApiDouble.Proofs.Template.Reference
import ApiDouble.Text.Word

/-!
# Keys behind a variable

**Three ways to write a key.** It can stand behind a point, or in brackets with or without quotes,
or it is a step of a pointer, which then goes on to the end of the reference. The ways can be mixed,
up to the pointer (`KeysText`).

**They lead to the same place.** Points and brackets take one key after the other, and look for it
in any case if it is not there as it is spelled; a pointer takes all keys at once, and only as they
are spelled. So if all keys are there as they are spelled, each way of writing them leads through
the same members (`walk_accesses`), and the reference has the text of what is found at their end, or
none if that is `null` (`evaluate_keys`).

**Keys of words.** In names and keys of letters, digits and low lines, and of hyphens in keys,
nothing is read as anything else: there is no blank or quote to be dropped, nothing that ends a key,
opens a call or stands for another character in a pointer (`ne_of_isKeyChar`).

Main results: `walk_accesses`, `evaluate_keys`.
-/

namespace ApiDouble.Template

open Text

/-! ## The characters of keys -/

/-- The characters of words, and the hyphen. -/
def isKeyChar (c : Char) : Bool := isWord c || c == '-'

/-- A text of such characters. -/
def IsKey (s : String) : Prop := ∀ c ∈ s.toList, isKeyChar c = true

theorem ne_of_isKeyChar {c : Char} (h : isKeyChar c = true) {d : Char}
    (hd : isKeyChar d = false) : c ≠ d := by
  rintro rfl
  rw [h] at hd
  cases hd

theorem isBlank_of_isKeyChar {c : Char} (h : isKeyChar c = true) : isBlank c = false := by
  rcases Bool.or_eq_true_iff.1 h with hword | hhyphen
  · exact isBlank_of_isWord hword
  · obtain rfl := beq_iff_eq.1 hhyphen
    rfl

theorem isQuote_of_isKeyChar {c : Char} (h : isKeyChar c = true) : isQuote c = false := by
  simp [isQuote, ne_of_isKeyChar h (d := '\'') (by decide),
    ne_of_isKeyChar h (d := '"') (by decide)]

theorem isStop_of_isKeyChar {c : Char} (h : isKeyChar c = true) : isStop c = false := by
  simp [isStop, ne_of_isKeyChar h (d := '.') (by decide), ne_of_isKeyChar h (d := '[') (by decide),
    ne_of_isKeyChar h (d := '/') (by decide)]

theorem IsKey.not_mem {key : String} (h : IsKey key) {d : Char} (hd : isKeyChar d = false) :
    d ∉ key.toList := fun hmem => ne_of_isKeyChar (h d hmem) hd rfl

theorem IsKey.unheeded {key : String} (h : IsKey key) :
    ∀ c ∈ key.toList, isBlank c = false ∧ c ≠ '(' := fun c hc =>
  ⟨isBlank_of_isKeyChar (h c hc), ne_of_isKeyChar (h c hc) (by decide)⟩

theorem IsKey.bareKey {key : String} (h : IsKey key) : bareKey key.toList = key.toList := by
  have hquote : ∀ c ∈ key.toList, isQuote c = false := fun c hc => isQuote_of_isKeyChar (h c hc)
  refine bareKey_of_trim ?_ hquote
  have hled : ∀ s : List Char, (∀ c ∈ s, isKeyChar c = true) → Unled s := fun s hs c hc =>
    isBlank_of_isKeyChar (hs c (List.mem_of_mem_head? hc))
  rw [trim_eq_self (hled _ h) (hled _ fun c hc => h c (List.mem_reverse.1 hc)),
    dropWhile_isQuote hquote]

theorem isQuote_of_isStop {c : Char} (h : isStop c = true) : isQuote c = false := by
  by_contra hquote
  rcases Bool.or_eq_true_iff.1 (Bool.not_eq_false _ ▸ hquote) with hq | hq
  · obtain rfl := beq_iff_eq.1 hq
    cases h
  · obtain rfl := beq_iff_eq.1 hq
    cases h

/-! ## Writing keys -/

/-- The ways of writing keys behind a value. From some key on they may be a pointer. -/
inductive KeysText : List String → List Char → Prop
  | pointer (keys : List String) : KeysText keys (Document.pointerTo keys)
  | dot {key : String} {keys : List String} {text : List Char} :
      KeysText keys text → KeysText (key :: keys) ('.' :: (key.toList ++ text))
  | bare {key : String} {keys : List String} {text : List Char} :
      KeysText keys text → KeysText (key :: keys) ('[' :: (key.toList ++ ']' :: text))
  | quoted {q : Char} {key : String} {keys : List String} {text : List Char} : isQuote q = true →
      KeysText keys text → KeysText (key :: keys) ('[' :: (inQuotes q key.toList ++ ']' :: text))

section Walk

variable {keys : List String} {text : List Char}

theorem KeysText.exists_cons (h : KeysText keys text) (hne : keys ≠ []) :
    ∃ c rest, text = c :: rest ∧ isStop c = true := by
  cases h with
  | pointer keys =>
    obtain ⟨key, keys, rfl⟩ := List.exists_cons_of_ne_nil hne
    exact ⟨'/', _, Document.pointerTo_cons key keys, rfl⟩
  | dot _ => exact ⟨'.', _, rfl, rfl⟩
  | bare _ => exact ⟨'[', _, rfl, rfl⟩
  | quoted _ _ => exact ⟨'[', _, rfl, rfl⟩

theorem KeysText.head? (h : KeysText keys text) : ∀ c ∈ text.head?, isStop c = true := by
  intro c hc
  cases hkeys : keys with
  | nil =>
    rw [hkeys] at h
    cases h
    cases hc
  | cons key rest =>
    obtain ⟨d, rest, rfl, hd⟩ := h.exists_cons (hkeys ▸ List.cons_ne_nil key rest)
    obtain rfl := Option.some.inj hc
    exact hd

theorem KeysText.unheeded (h : KeysText keys text) (hkeys : ∀ key ∈ keys, IsKey key) :
    ∀ c ∈ text, isBlank c = false ∧ c ≠ '(' := by
  induction h with
  | pointer keys =>
    intro c hc
    obtain ⟨key, hmem, hc⟩ := List.mem_flatMap.1 hc
    rcases List.mem_cons.1 hc with rfl | hc
    · decide
    · exact (hkeys key hmem).unheeded c hc
  | dot _ ih =>
    obtain ⟨h, hkeys⟩ := List.forall_mem_cons.1 hkeys
    exact List.forall_mem_cons.2 ⟨by decide, List.forall_mem_append.2 ⟨h.unheeded, ih hkeys⟩⟩
  | bare _ ih =>
    obtain ⟨h, hkeys⟩ := List.forall_mem_cons.1 hkeys
    refine List.forall_mem_cons.2 ⟨by decide, List.forall_mem_append.2 ⟨h.unheeded, ?_⟩⟩
    exact List.forall_mem_cons.2 ⟨by decide, ih hkeys⟩
  | @quoted q key keys text hq _ ih =>
    obtain ⟨h, hkeys⟩ := List.forall_mem_cons.1 hkeys
    have hquote : isBlank q = false ∧ q ≠ '(' := by
      refine ⟨isBlank_of_isQuote hq, ?_⟩
      rintro rfl
      cases hq
    have hquoted : ∀ c ∈ inQuotes q key.toList, isBlank c = false ∧ c ≠ '(' :=
      List.forall_mem_cons.2 ⟨hquote,
        List.forall_mem_append.2 ⟨h.unheeded, List.forall_mem_singleton.2 hquote⟩⟩
    refine List.forall_mem_cons.2 ⟨by decide, List.forall_mem_append.2 ⟨hquoted, ?_⟩⟩
    exact List.forall_mem_cons.2 ⟨by decide, ih hkeys⟩

theorem child?_of_get? {d x : Document} {key : String} (h : d.get? key = some x) :
    child? (String.ofList key.toList) d = some x := by
  cases d with
  | object ms =>
    rw [Document.get?_object] at h
    rw [child?, String.ofList_toList, h]
    rfl
  | _ => cases h

/-- A pointer leads to the members with its keys, in anything that has some. -/
theorem pointed?_pointerTo {key : String} (hkeys : ∀ k ∈ key :: keys, IsKey k) {d x : Document}
    (hx : (key :: keys).foldlM Document.get? d = some x) :
    pointed? (Document.pointerTo (key :: keys)) d = some x := by
  have hchars : ∀ k ∈ key :: keys, '/' ∉ k.toList ∧ '~' ∉ k.toList := fun k hk =>
    ⟨(hkeys k hk).not_mem (by decide), (hkeys k hk).not_mem (by decide)⟩
  have hat := Document.at?_pointerTo hchars hx
  cases d with
  | string s => cases hx
  | _ => exact hat

theorem walk_child {key : String} {d x : Document} {reference : String} {steps : List Access}
    (hx : (key :: keys).foldlM Document.get? d = some x)
    (hsteps : ∀ d, keys.foldlM Document.get? d = some x → walk reference steps d = .ok x) :
    walk reference (.child key.toList :: steps) d = .ok x := by
  rw [List.foldlM_cons] at hx
  obtain ⟨child, hchild, hrest⟩ := Option.bind_eq_some_iff.1 hx
  rw [walk, child?_of_get? hchild]
  exact hsteps child hrest

/-- **All ways of writing keys lead through the same members.** -/
theorem walk_accesses (h : KeysText keys text) (hkeys : ∀ key ∈ keys, IsKey key) {d x : Document}
    (hx : keys.foldlM Document.get? d = some x) (reference : String) :
    walk reference (accesses text) d = .ok x := by
  induction h generalizing d with
  | pointer keys =>
    cases keys with
    | nil =>
      rw [Document.pointerTo, List.flatMap_nil, accesses]
      exact congrArg Except.ok (Option.some.inj hx)
    | cons key keys =>
      rw [Document.pointerTo_cons, accesses_pointer (by decide) (by decide), walk,
        ← Document.pointerTo_cons, pointed?_pointerTo hkeys hx]
      rfl
  | @dot key keys text htext ih =>
    obtain ⟨hkey, hkeys⟩ := List.forall_mem_cons.1 hkeys
    rw [accesses_dot (fun c hc => isStop_of_isKeyChar (hkey c hc)) htext.head?]
    exact walk_child hx fun d hd => ih hkeys hd
  | @bare key keys text _ ih =>
    obtain ⟨hkey, hkeys⟩ := List.forall_mem_cons.1 hkeys
    rw [accesses_bracket (hkey.not_mem (by decide)), hkey.bareKey]
    exact walk_child hx fun d hd => ih hkeys hd
  | @quoted q key keys text hq _ ih =>
    obtain ⟨hkey, hkeys⟩ := List.forall_mem_cons.1 hkeys
    have hclosed : ']' ∉ inQuotes q key.toList := by
      have hne : ']' ≠ q := by
        rintro rfl
        cases hq
      simp [inQuotes, hne, hkey.not_mem (d := ']') (by decide)]
    rw [accesses_bracket hclosed,
      bareKey_inQuotes hq fun c hc => isQuote_of_isKeyChar (hkey c hc)]
    exact walk_child hx fun d hd => ih hkeys hd

end Walk

/-! ## The expression -/

/-- A text without blanks and opening parentheses is a reference if it does not start with a
quote. -/
theorem parse_of_unheeded {c : Char} {s : List Char} (hquote : isQuote c = false)
    (hs : ∀ d ∈ c :: s, isBlank d = false ∧ d ≠ '(') :
    Expression.parse (c :: s) = .reference (c :: s) := by
  have hled : ∀ t : List Char, (∀ d ∈ t, d ∈ c :: s) → Unled t := fun t ht d hd =>
    (hs d (ht d (List.mem_of_mem_head? hd))).1
  have htrim : trim (c :: s) = c :: s :=
    trim_eq_self (hled _ fun _ h => h) (hled _ fun _ h => List.mem_reverse.1 h)
  have hunquoted : unquoted? (c :: s) = none := if_neg fun h => by simp [hquote] at h
  have hcall : call? (c :: s) = none := by
    rw [call?]
    split
    · split
      · next heq =>
        have hopen : '(' ∈ dropBlanks ((c :: s).dropWhile isNameChar) := by
          rw [heq]
          exact List.mem_cons_self
        have hmem := (List.dropWhile_suffix isNameChar).subset
          ((List.dropWhile_suffix isBlank).subset hopen)
        exact absurd rfl (hs '(' hmem).2
      · rfl
    · rfl
  rw [Expression.parse, htrim, hunquoted, hcall]
  rfl

/-- **References that write the same keys in different ways have the same text**, or none of them
has one. -/
theorem evaluate_keys {m : Type → Type} [Monad m] (fs : Functions m) {ctx : Context}
    {name : String} {keys : List String} {d x : Document}
    (hname : ∀ c ∈ name.toList, isWord c = true) (hd : ctx.get? name = some d) (hne : keys ≠ [])
    (hkeys : ∀ key ∈ keys, IsKey key) (hx : keys.foldlM Document.get? d = some x) :
    ∀ text, KeysText keys text →
      evaluate fs ctx (name.toList ++ text) =
        pure (if x.isNull then .error (.unresolved (String.ofList (name.toList ++ text)))
          else .ok x.text) := by
  intro text htext
  have hroot : IsKey name := fun c hc => Bool.or_eq_true_iff.2 (.inl (hname c hc))
  obtain ⟨c, rest, hstart, hquote⟩ : ∃ c rest, name.toList ++ text = c :: rest ∧
      isQuote c = false := by
    cases hchars : name.toList with
    | nil =>
      obtain ⟨c, rest, hstart, hstop⟩ := htext.exists_cons hne
      exact ⟨c, rest, hstart, isQuote_of_isStop hstop⟩
    | cons c cs =>
      refine ⟨c, cs ++ text, rfl, isQuote_of_isKeyChar (hroot c ?_)⟩
      rw [hchars]
      exact List.mem_cons_self
  -- Nothing in the text is a blank or opens a call, so it is not taken for anything but a
  -- reference.
  have hparse : Expression.parse (name.toList ++ text) = .reference (name.toList ++ text) := by
    rw [hstart]
    refine parse_of_unheeded hquote ?_
    rw [← hstart]
    exact List.forall_mem_append.2 ⟨hroot.unheeded, htext.unheeded hkeys⟩
  have hvalue : ctx.value (String.ofList (name.toList ++ text)) = .ok x := by
    rw [← String.ofList_toList (s := name)] at hd
    rw [value_of_get? String.toList_ofList (fun c hc => isStop_of_isKeyChar (hroot c hc))
      htext.head? hd]
    exact walk_accesses htext hkeys hx _
  rw [evaluate, hparse, Expression.eval, lookup_of_ok hvalue]

/-- An order with one line, which has an article. -/
def orderDocument : Document := .object [("line-1", .object [("sku", .string "A7")])]

def orders : Context := (SortedMap.empty : Context).insert "order" orderDocument

theorem evaluate_keys_order :
    (∀ c ∈ "order".toList, isWord c = true) ∧ orders.get? "order" = some orderDocument ∧
      (∀ key ∈ ["line-1", "sku"], IsKey key) ∧
      ["line-1", "sku"].foldlM Document.get? orderDocument = some (.string "A7") ∧
      evaluate (m := Id) (fun _ => none) orders "order.line-1['sku']".toList = .ok "A7" ∧
      evaluate (m := Id) (fun _ => none) orders "order[line-1]/sku".toList = .ok "A7" := by
  have hname : ∀ c ∈ "order".toList, isWord c = true := List.all_eq_true.1 (by decide)
  have hd : orders.get? "order" = some orderDocument := SortedMap.get?_insert_self
  have hkeys : ∀ key ∈ ["line-1", "sku"], IsKey key := by
    refine List.forall_mem_cons.2 ⟨?_, List.forall_mem_singleton.2 ?_⟩
    · show ∀ c ∈ "line-1".toList, isKeyChar c = true
      exact List.all_eq_true.1 (by decide)
    · show ∀ c ∈ "sku".toList, isKeyChar c = true
      exact List.all_eq_true.1 (by decide)
  have hx : ["line-1", "sku"].foldlM Document.get? orderDocument = some (.string "A7") := rfl
  have hall := evaluate_keys (m := Id) (fun _ => none) hname hd (List.cons_ne_nil _ _) hkeys hx
  refine ⟨hname, hd, hkeys, hx, ?_, ?_⟩
  · exact hall _ (.dot (.quoted (q := '\'') rfl (.pointer [])))
  · exact hall _ (.bare (.pointer ["sku"]))

end ApiDouble.Template
