import ApiDouble.Proofs.Text.Search
import ApiDouble.Template.Expression

/-!
# The pieces of a template

**Pieces.** Where the expressions of a template stand is a matter of its text alone. The first one
opens at the first opening braces, provided that closing ones stand anywhere behind them, and ends
at the first of those; what follows is divided in the same way (`Divides`). Every text is divided in
exactly one way, and the pieces put one after the other are the text again.

**Rendering.** The template is rendered piece by piece (`Divides.renderText_eq`): a literal stays as
it is, and an expression gives its value, or itself if it has none. So a value is never looked at
again, whatever braces are in it, and an expression that fails takes no other one with it. If all of
them fail, the template is its own rendering.

Main results: `Divides.unique`, `Divides.source`, `render_pieces`.
-/

namespace ApiDouble.Template

open Text

/-! ## Dividing a text -/

/-- A piece of a template. -/
inductive Piece
  | literal (text : List Char)
  | expression (text : List Char)
deriving DecidableEq, Repr

/-- A piece as it is written. -/
def Piece.source : Piece → List Char
  | literal text => text
  | expression text => inBraces text

/-- Texts in which no braces are opened and closed. -/
def Plain (s : List Char) : Prop := ∀ before text after, s ≠ before ++ inBraces text ++ after

/-- The ways in which a text is divided into literal pieces and expressions. -/
inductive Divides : List Char → List Piece → Prop
  | plain {s} (h : Plain s) : Divides s [.literal s]
  | expression {s before rest text rest' ps} (opens : FirstCut ['{', '{'] s before rest)
      (closes : FirstCut ['}', '}'] rest text rest') (h : Divides rest' ps) :
      Divides s (.literal before :: .expression text :: ps)

variable {s before rest text rest' : List Char} {ps : List Piece}

theorem append_inBraces (before text after : List Char) :
    before ++ inBraces text ++ after =
      before ++ ['{', '{'] ++ (text ++ ['}', '}'] ++ after) := by
  simp only [inBraces, List.append_assoc]

theorem eq_of_cuts (opens : FirstCut ['{', '{'] s before rest)
    (closes : FirstCut ['}', '}'] rest text rest') : s = before ++ inBraces text ++ rest' := by
  rw [append_inBraces, ← closes.1, ← opens.1]

/-- Closing braces of any expression stand behind the first opening braces. -/
theorem plain_of_open (opens : FirstCut ['{', '{'] s before rest)
    (hclose : breakAt? ['}', '}'] rest = none) : Plain s := by
  intro before' text after hs
  have hcut := hs.trans (append_inBraces before' text after)
  have hshort : (text ++ ['}', '}'] ++ after).length ≤ rest.length := by
    have hlength := congrArg List.length (opens.1.symm.trans hcut)
    have hfirst := opens.2 _ _ hcut
    simp only [List.length_append, List.length_cons] at hlength ⊢
    omega
  obtain ⟨skipped, hrest⟩ : text ++ ['}', '}'] ++ after <:+ rest :=
    List.suffix_of_suffix_length_le ⟨_, hcut.symm⟩ ⟨_, opens.1.symm⟩ hshort
  refine breakAt?_eq_none_iff.1 hclose (skipped ++ text) after ?_
  rw [← hrest]
  simp only [List.append_assoc]

theorem plain_of_breakAt?_eq_none (h : breakAt? ['{', '{'] s = none) : Plain s := by
  intro before text after hs
  exact breakAt?_eq_none_iff.1 h _ _ (hs.trans (append_inBraces before text after))

theorem exists_divides (s : List Char) : ∃ ps, Divides s ps := by
  -- Each expression takes away at least its braces.
  induction h : s.length using Nat.strongRecOn generalizing s with
  | _ n ih =>
    cases hopen : breakAt? ['{', '{'] s with
    | none => exact ⟨_, .plain (plain_of_breakAt?_eq_none hopen)⟩
    | some p =>
      have opens := breakAt?_eq_some_iff.1 hopen
      cases hclose : breakAt? ['}', '}'] p.2 with
      | none => exact ⟨_, .plain (plain_of_open opens hclose)⟩
      | some q =>
        have hp := length_of_breakAt? hopen
        have hq := length_of_breakAt? hclose
        simp only [List.length_cons] at hp hq
        obtain ⟨ps, hps⟩ := ih q.2.length (by omega) q.2 rfl
        exact ⟨_, .expression opens (breakAt?_eq_some_iff.1 hclose) hps⟩

theorem Divides.unique (h : Divides s ps) {qs : List Piece} (h' : Divides s qs) : ps = qs := by
  induction h generalizing qs with
  | plain hplain =>
    cases h' with
    | plain => rfl
    | expression opens closes => exact absurd (eq_of_cuts opens closes) (hplain _ _ _)
  | expression opens closes _ ih =>
    cases h' with
    | plain hplain => exact absurd (eq_of_cuts opens closes) (hplain _ _ _)
    | expression opens' closes' hrest =>
      obtain ⟨rfl, rfl⟩ := opens.unique opens'
      obtain ⟨rfl, rfl⟩ := closes.unique closes'
      rw [ih hrest]

/-- **The pieces one after the other are the text.** -/
theorem Divides.source (h : Divides s ps) : ps.flatMap Piece.source = s := by
  induction h with
  | plain => exact List.append_nil _
  | expression opens closes _ ih =>
    rw [List.flatMap_cons, List.flatMap_cons, ih, eq_of_cuts opens closes, List.append_assoc]
    rfl

/-! ## Rendering piece by piece -/

/-- What a piece shows if every expression comes out as given. -/
def Piece.shown (outcome : List Char → Except EvalError String) : Piece → List Char
  | literal text => text
  | expression text => Template.shown text (outcome text)

variable {m : Type → Type} [Monad m]

/-- A computation gives one value, whatever else it does. -/
def AlwaysGives {α : Type} (x : m α) (a : α) : Prop :=
  ∃ effects : m Unit, x = (fun _ => a) <$> effects

/-- What a piece is rendered to. -/
def Piece.render (fs : Functions m) (ctx : Context) : Piece → m (List Char)
  | literal text => return text
  | expression text => Template.shown text <$> evaluate fs ctx text

theorem renderText_of_plain {fs : Functions m} {ctx : Context} (h : Plain s) :
    renderText fs ctx s = pure s := by
  rw [renderText]
  split
  · rfl
  · split
    · rfl
    · next hopen _ _ hclose =>
      exact absurd (eq_of_cuts (breakAt?_eq_some_iff.1 hopen) (breakAt?_eq_some_iff.1 hclose))
        (h _ _ _)

theorem renderText_of_expression {fs : Functions m} {ctx : Context}
    (opens : FirstCut ['{', '{'] s before rest) (closes : FirstCut ['}', '}'] rest text rest') :
    renderText fs ctx s = do
      let value ← evaluate fs ctx text
      return before ++ shown text value ++ (← renderText fs ctx rest') := by
  have hopen := breakAt?_eq_some_iff.2 opens
  have hclose := breakAt?_eq_some_iff.2 closes
  rw [renderText]
  split
  · next hnone => rw [hopen] at hnone; cases hnone
  · next hsome =>
    rw [hopen] at hsome
    cases hsome
    split
    · next hnone => rw [hclose] at hnone; cases hnone
    · next hsome =>
      rw [hclose] at hsome
      cases hsome
      rfl

variable [LawfulMonad m]

/-- A template is rendered piece by piece. -/
theorem Divides.renderText_eq (h : Divides s ps) (fs : Functions m) (ctx : Context) :
    renderText fs ctx s = List.flatten <$> ps.mapM (Piece.render fs ctx) := by
  induction h with
  | plain hplain =>
    rw [renderText_of_plain hplain]
    simp [Piece.render]
  | expression opens closes _ ih =>
    rw [renderText_of_expression opens closes, ih]
    simp [Piece.render]

theorem alwaysGives_pure {α : Type} (a : α) : AlwaysGives (pure a : m α) a :=
  ⟨pure (), (map_pure (fun _ => a) ()).symm⟩

theorem AlwaysGives.map {α β : Type} {x : m α} {a : α} (h : AlwaysGives x a) (f : α → β) :
    AlwaysGives (f <$> x) (f a) := by
  obtain ⟨effects, rfl⟩ := h
  exact ⟨effects, (comp_map _ _ _).symm⟩

theorem AlwaysGives.mapM {α β : Type} {f : α → m β} {g : α → β} {xs : List α}
    (h : ∀ x ∈ xs, AlwaysGives (f x) (g x)) : AlwaysGives (xs.mapM f) (xs.map g) := by
  induction xs with
  | nil => exact alwaysGives_pure []
  | cons x xs ih =>
    obtain ⟨hx, hxs⟩ := List.forall_mem_cons.1 h
    obtain ⟨first, hfirst⟩ := hx
    obtain ⟨others, hothers⟩ := ih hxs
    refine ⟨do first; others, ?_⟩
    rw [List.mapM_cons, hfirst, hothers]
    simp

variable {fs : Functions m} {ctx : Context} {template : String}

theorem Divides.render_eq (h : Divides template.toList ps) (fs : Functions m) (ctx : Context) :
    render fs ctx template =
      (fun texts => String.ofList texts.flatten) <$> ps.mapM (Piece.render fs ctx) := by
  unfold render
  rw [h.renderText_eq fs ctx]
  simp

theorem Divides.alwaysGives_render (h : Divides template.toList ps) {g : Piece → List Char}
    (hg : ∀ p ∈ ps, AlwaysGives (p.render fs ctx) (g p)) :
    AlwaysGives (render fs ctx template) (String.ofList (ps.flatMap g)) := by
  rw [h.render_eq fs ctx, List.flatMap_def]
  exact (AlwaysGives.mapM hg).map _

/-- An expression that fails stays as it is written. -/
theorem alwaysGives_of_fails {text : List Char} {cause : m EvalError}
    (h : evaluate fs ctx text = Except.error <$> cause) :
    AlwaysGives (Piece.render fs ctx (.expression text)) (inBraces text) := by
  refine ⟨(fun _ => ()) <$> cause, ?_⟩
  show shown text <$> evaluate fs ctx text = _
  rw [h, ← comp_map, ← comp_map]
  rfl

/-- **Rendering reads the template once.** Its pieces depend neither on the variables nor on the
functions that expressions can use. -/
theorem render_pieces (template : String) :
    ∃ ps : List Piece,
      (∀ qs, Divides template.toList qs ↔ qs = ps) ∧
      String.ofList (ps.flatMap Piece.source) = template ∧
      ∀ {m : Type → Type} [Monad m] [LawfulMonad m] (fs : Functions m) (ctx : Context),
        render fs ctx template =
          (fun texts => String.ofList texts.flatten) <$> ps.mapM (Piece.render fs ctx) ∧
        (∀ outcome,
          (∀ text, .expression text ∈ ps → AlwaysGives (evaluate fs ctx text) (outcome text)) →
          AlwaysGives (render fs ctx template)
            (String.ofList (ps.flatMap (Piece.shown outcome)))) ∧
        ((∀ text, .expression text ∈ ps →
            ∃ cause : m EvalError, evaluate fs ctx text = Except.error <$> cause) →
          AlwaysGives (render fs ctx template) template) := by
  obtain ⟨ps, hps⟩ := exists_divides template.toList
  have hsource : String.ofList (ps.flatMap Piece.source) = template := by
    rw [hps.source, String.ofList_toList]
  refine ⟨ps, fun qs => ⟨fun h => h.unique hps, fun h => h ▸ hps⟩, hsource, ?_⟩
  intro m _ _ fs ctx
  refine ⟨hps.render_eq fs ctx, fun outcome houtcome => ?_, fun hfail => ?_⟩
  · refine hps.alwaysGives_render fun p hp => ?_
    cases p with
    | literal text => exact alwaysGives_pure text
    | expression text => exact (houtcome text hp).map _
  · -- An expression that fails is shown as it stands in the source, so all pieces are.
    have hself : AlwaysGives (render fs ctx template)
        (String.ofList (ps.flatMap Piece.source)) := by
      refine hps.alwaysGives_render fun p hp => ?_
      cases p with
      | literal text => exact alwaysGives_pure text
      | expression text =>
        obtain ⟨cause, hcause⟩ := hfail text hp
        exact alwaysGives_of_fails hcause
    rwa [hsource] at hself

/-- A function whose value asks for it again. -/
def echo : Functions Id := fun _ => some fun _ => .ok "{{ echo() }}!"

theorem render_echo :
    AlwaysGives (render echo .empty "<{{ echo() }}>") "<{{ echo() }}!>" := by
  obtain ⟨ps, hps, -, hrender⟩ := render_pieces "<{{ echo() }}>"
  have hdivides : Divides "<{{ echo() }}>".toList
      [.literal ['<'], .expression " echo() ".toList, .literal ['>']] := by
    have opens : FirstCut ['{', '{'] "<{{ echo() }}>".toList ['<']
        (" echo() ".toList ++ ['}', '}', '>']) := breakAt?_eq_some_iff.1 (by decide)
    have closes : FirstCut ['}', '}'] (" echo() ".toList ++ ['}', '}', '>'])
        " echo() ".toList ['>'] := breakAt?_eq_some_iff.1 (by decide)
    exact .expression opens closes (.plain (plain_of_breakAt?_eq_none rfl))
  obtain rfl := (hps _).1 hdivides
  refine (hrender echo .empty).2.1 (fun _ => .ok "{{ echo() }}!") fun text htext => ?_
  have htext : text = " echo() ".toList := by simpa using htext
  have hcall : Expression.parse text = .call "echo".toList [] := by
    rw [htext]
    decide +kernel
  rw [evaluate, hcall]
  exact alwaysGives_pure _

end ApiDouble.Template
