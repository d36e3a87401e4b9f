import ApiDouble.Import.Warning

/-!
# Values with warnings

What a computation that notes warnings gives, and what it notes. A list gone through with `mapM`
gives the values of its members and notes their warnings in order; with `foldlM` it gives what a
fold gives, and what every step keeps holds of the whole run.

Main results: `value_mapM`, `warnings_mapM`, `value_foldlM`, `foldlM_induction`.
-/

namespace ApiDouble.Import.Noted

variable {α β : Type}

theorem ext {x y : Noted α} (hv : x.value = y.value) (hw : x.warnings = y.warnings) : x = y := by
  cases x
  cases y
  cases hv
  cases hw
  rfl

instance : LawfulMonad Noted :=
  .mk' Noted (fun x => ext rfl (List.append_nil x.warnings))
    (fun x f => ext rfl (List.nil_append (f x).warnings))
    fun _ _ _ => ext rfl (List.append_assoc ..)

theorem bind_of_eq {x : Noted α} {f : α → Noted β} {b : β} {ws : List Warning}
    (h : f x.value = ⟨b, ws⟩) : (x >>= f) = ⟨b, x.warnings ++ ws⟩ := by
  apply ext
  · rw [value_bind, h]
  · rw [warnings_bind, h]

@[simp] theorem value_map (f : α → β) (x : Noted α) : (f <$> x).value = f x.value := rfl

@[simp] theorem warnings_map (f : α → β) (x : Noted α) : (f <$> x).warnings = x.warnings :=
  List.append_nil x.warnings

/-! ## Lists -/

@[simp] theorem value_mapM (f : α → Noted β) (xs : List α) :
    (xs.mapM f).value = xs.map fun x => (f x).value := by
  induction xs with
  | nil => rfl
  | cons x xs ih =>
    rw [List.mapM_cons, List.map_cons, ← ih]
    rfl

@[simp] theorem warnings_mapM (f : α → Noted β) (xs : List α) :
    (xs.mapM f).warnings = xs.flatMap fun x => (f x).warnings := by
  induction xs with
  | nil => rfl
  | cons x xs ih =>
    rw [List.mapM_cons, List.flatMap_cons, ← ih]
    show (f x).warnings ++ ((xs.mapM f).warnings ++ []) = _
    rw [List.append_nil]

@[simp] theorem warnings_forM (f : α → Noted PUnit) (xs : List α) :
    (xs.forM f).warnings = xs.flatMap fun x => (f x).warnings := by
  induction xs with
  | nil => rfl
  | cons x xs ih =>
    rw [List.flatMap_cons, ← ih]
    rfl

theorem value_foldlM (f : β → α → Noted β) (b : β) (xs : List α) :
    (xs.foldlM f b).value = xs.foldl (fun b x => (f b x).value) b := by
  induction xs generalizing b with
  | nil => rfl
  | cons x xs ih =>
    rw [List.foldlM_cons, List.foldl_cons, ← ih]
    rfl

/-- What every step keeps of a value holds of the last one. -/
theorem foldlM_preserves {P : β → Prop} {f : β → α → Noted β}
    (h : ∀ b x, P b → P (f b x).value) {b : β} (hb : P b) (xs : List α) :
    P (xs.foldlM f b).value := by
  rw [value_foldlM]
  induction xs generalizing b with
  | nil => exact hb
  | cons x xs ih => exact ih (h b x hb)

theorem foldlM_keeps {γ : Type} {f : β → α → Noted β} {g : β → γ}
    (h : ∀ b x, g (f b x).value = g b) (b : β) (xs : List α) :
    g (xs.foldlM f b).value = g b :=
  foldlM_preserves (P := fun b' => g b' = g b) (fun b' x hb' => (h b' x).trans hb') rfl xs

/-- **What every step keeps holds of the whole run.** `I` speaks of the members of `g` gone through
so far, of the state and of the warnings up to there. -/
theorem foldlM_induction {γ : Type} {I : List γ → Noted β → Prop} {g : α → List γ}
    {f : β → α → Noted β} (step : ∀ zs o x, I zs o → I (zs ++ g x) (o >>= fun b => f b x))
    {zs : List γ} {o : Noted β} (h : I zs o) (xs : List α) :
    I (zs ++ xs.flatMap g) (o >>= fun b => xs.foldlM f b) := by
  induction xs generalizing zs o with
  | nil =>
    rw [List.flatMap_nil, List.append_nil]
    show I zs (o >>= pure)
    rwa [bind_pure]
  | cons x xs ih =>
    have hrest := ih (step zs o x h)
    rw [bind_assoc, List.append_assoc] at hrest
    exact hrest

/-! ## Units -/

/-- Each of some units, in order, has a warning of its own. -/
def Reported (units : List String) (ws : List Warning) : Prop :=
  ∃ reports : List Warning, reports.Sublist ws ∧ reports.map (·.unit) = units

section Reported

variable {units units' : List String} {ws ws' : List Warning}

theorem reported_nil (ws : List Warning) : Reported [] ws := ⟨[], List.nil_sublist ws, rfl⟩

theorem reported_singleton (w : Warning) : Reported [w.unit] [w] := ⟨[w], List.Sublist.refl _, rfl⟩

theorem Reported.append (h : Reported units ws) (h' : Reported units' ws') :
    Reported (units ++ units') (ws ++ ws') := by
  obtain ⟨reports, hsub, rfl⟩ := h
  obtain ⟨reports', hsub', rfl⟩ := h'
  exact ⟨reports ++ reports', hsub.append hsub', List.map_append⟩

theorem Reported.sublist (h : Reported units ws) (hsub : ws.Sublist ws') : Reported units ws' := by
  obtain ⟨reports, hreports, hunits⟩ := h
  exact ⟨reports, hreports.trans hsub, hunits⟩

end Reported

/-! ## References -/

@[simp] theorem value_orDangling (unit : String) (x : Except ReferenceError α) :
    (orDangling unit x).value = x.toOption := by
  cases x <;> rfl

theorem orDangling_ok (unit : String) (x : α) :
    orDangling unit (.ok x : Except ReferenceError α) = pure (some x) := rfl

end ApiDouble.Import.Noted
