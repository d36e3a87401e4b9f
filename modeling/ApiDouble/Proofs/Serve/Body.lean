import ApiDouble.Proofs.Dispatch.BodyPlaces
import ApiDouble.Proofs.Template.Reference
import ApiDouble.Serve.Session

/-!
# Pointers into the body of a request

**Two readers of one pointer.** Dispatching reads the body of a request as JSON and follows a rule
that starts with a slash as a pointer into it (`criteria?_pointer`). An expression comes to the same
pointer on its way: it goes from the variable `request` to the member `body`, which is a text, and
the slash makes a pointer into what the text says of everything that follows
(`value_bodyReference`).

**They agree** (`criteria?_iff_evaluate`). Both drop the blanks at the end, and nothing else in the
pointer matters to either of them, as no point, bracket or parenthesis is heeded behind a slash.
Where there is no body, no JSON in it, no such place or `null` at it, neither of them finds a text.

Main results: `value_bodyReference`, `criteria?_iff_evaluate`.
-/

namespace ApiDouble.Serve

open Text Template Dispatch

/-- The place in a JSON body that a pointer leads to. -/
def bodyPlace? (body : Option String) (pointer : List Char) : Option Document :=
  body.bind fun s => (Json.parse? s.toList).bind (·.at? pointer)

/-- The text of a place that has one. -/
def placeText? (place : Option Document) : Option String :=
  place.bind fun d => if d.isNull then none else some d.text

section Outcome

variable {α : Type} {x : Except EvalError α}

theorem toOption_eq_some_iff {a : α} : x.toOption = some a ↔ x = .ok a := by
  cases x <;> simp [Except.toOption]

theorem toOption_eq_none_iff : x.toOption = none ↔ ∃ e, x = .error e := by
  cases x <;> simp [Except.toOption]

end Outcome

section Pointer

variable {pointer : String} {rest : List Char} {ctx : Context} {v : RequestView}

theorem trim_pointer (h : pointer.toList = '/' :: rest) :
    trim pointer.toList = '/' :: dropEndBlanks rest := by
  have hslash : isBlank '/' = false := by decide
  rw [h, trim, dropBlanks_eq_self (unled_cons hslash rest), dropEndBlanks_cons hslash]

theorem toList_trimmed_pointer (h : pointer.toList = '/' :: rest) :
    (trimmed pointer).toList = '/' :: dropEndBlanks rest := by
  rw [trimmed, String.toList_ofList, trim_pointer h]

/-! ## Dispatching -/

/-- A rule that starts with a slash is a pointer into the body. -/
theorem criteria?_pointer {op : Operation} (hkind : op.dispatcher = .jsonBody)
    (hrule : op.rule = some pointer) (h : pointer.toList = '/' :: rest) (input : Input) :
    criteria? op input = placeText? (bodyPlace? input.body (trim pointer.toList)) := by
  have hplace : ∀ d, place? (trim pointer.toList) d = d.at? (trim pointer.toList) := by
    intro d
    rw [place?, trim_pointer h]
    rfl
  rw [criteria?_of_place? hkind hrule hplace]
  cases input.body with
  | none => rfl
  | some s => exact (Option.bind_assoc ..).symm

/-! ## The expression -/

/-- The expression for a place in the body. -/
def bodyReference (pointer : String) : String := "request.body" ++ pointer

theorem toList_bodyReference (h : pointer.toList = '/' :: rest) :
    (bodyReference pointer).toList = "request".toList ++ '.' :: ("body".toList ++ '/' :: rest) := by
  rw [bodyReference, String.toList_append, h]
  rfl

/-- A slash leads nowhere in `null`. -/
theorem at?_null (rest : List Char) : Document.null.at? ('/' :: rest) = none := by
  obtain ⟨step, steps, hsteps⟩ := List.exists_cons_of_ne_nil (List.splitOn_ne_nil '/' rest)
  rw [Document.at?, Document.pointerSteps?, splitOn, hsteps]
  rfl

/-- **From the body on, everything is the pointer.** -/
theorem value_bodyReference (hbound : ctx.get? "request" = some v.document)
    (h : pointer.toList = '/' :: rest) :
    ctx.value (bodyReference pointer) =
      match bodyPlace? v.body pointer.toList with
      | some d => .ok d
      | none => .error (.unresolved (bodyReference pointer)) := by
  have hget : ctx.get? (String.ofList "request".toList) = some v.document := by
    rw [String.ofList_toList]
    exact hbound
  have hbody : child? (String.ofList "body".toList) v.document =
      some (.ofOption .string v.body) := rfl
  -- A request without a body has `null` for it, in which no pointer leads anywhere.
  have hpointed : pointed? ('/' :: rest) (.ofOption .string v.body) =
      bodyPlace? v.body pointer.toList := by
    rw [h]
    cases v.body with
    | none => exact at?_null rest
    | some s => rfl
  rw [value_of_get? (toList_bodyReference h) (by simp [isStop]) (by simp [isStop]) hget,
    accesses_dot (by simp [isStop]) (by simp [isStop]), accesses_pointer (by decide) (by decide),
    walk, hbody]
  show (match pointed? ('/' :: rest) (.ofOption .string v.body) with
    | some x => walk _ [] x
    | none => _) = _
  rw [hpointed]
  rfl

theorem lookup_bodyReference (hbound : ctx.get? "request" = some v.document)
    (h : pointer.toList = '/' :: rest) :
    (ctx.lookup (bodyReference pointer)).toOption =
      placeText? (bodyPlace? v.body pointer.toList) := by
  have hvalue := value_bodyReference hbound h
  cases hplace : bodyPlace? v.body pointer.toList with
  | none =>
    rw [hplace] at hvalue
    rw [lookup_of_error hvalue]
    rfl
  | some d =>
    rw [hplace] at hvalue
    rw [lookup_of_ok hvalue, placeText?, Option.bind_some]
    cases d.isNull <;> rfl

/-- The blanks at the end of the expression are those of the pointer. -/
theorem parse_bodyReference (h : pointer.toList = '/' :: rest) :
    Expression.parse (bodyReference pointer).toList =
      .reference (bodyReference (trimmed pointer)).toList := by
  have htrimmed := toList_trimmed_pointer h
  have hstart : ∀ c ∈ "request.body".toList, isBlank c = false := by simp [isBlank]
  have htext : trim (bodyReference pointer).toList = (bodyReference (trimmed pointer)).toList := by
    have hled : Unled ("request.body".toList ++ pointer.toList) :=
      unled_cons (by decide) _
    rw [bodyReference, bodyReference, String.toList_append, String.toList_append, trim,
      dropBlanks_eq_self hled, dropEndBlanks_append hstart, htrimmed, h,
      dropEndBlanks_cons (by decide)]
  have hparse : Expression.parse (bodyReference pointer).toList =
      Expression.parse (trim (bodyReference pointer).toList) := by
    rw [Expression.parse, Expression.parse, trim_trim]
  have hend : Unled (bodyReference (trimmed pointer)).toList.reverse := by
    rw [← htext]
    exact unled_reverse_dropEndBlanks _
  rw [hparse, htext]
  rw [toList_bodyReference htrimmed] at hend ⊢
  exact parse_reference (by decide) (by simp [isNameChar]) (by decide) hend

end Pointer

/-- **Dispatching and expressions read the same text out of a body**, whatever other variables are
bound. -/
theorem criteria?_iff_evaluate {m : Type → Type} [Monad m] (fs : Functions m) {op : Operation}
    {rule : String} (hkind : op.dispatcher = .jsonBody) (hrule : op.rule = some rule)
    (hslash : rule.toList.head? = some '/') {input : Input} {ctx : Context} {v : RequestView}
    (hbound : ctx.get? "request" = some v.document) (hbody : v.body = input.body) :
    ∃ seen, evaluate fs ctx (bodyReference rule).toList = pure seen ∧
      (∀ text, criteria? op input = some text ↔ seen = .ok text) ∧
      (criteria? op input = none ↔ ∃ e, seen = .error e) := by
  obtain ⟨rest, h⟩ : ∃ rest, rule.toList = '/' :: rest := List.head?_eq_some_iff.1 hslash
  have htrimmed := toList_trimmed_pointer h
  have hcriteria : criteria? op input = (ctx.lookup (bodyReference (trimmed rule))).toOption := by
    rw [lookup_bodyReference hbound htrimmed, criteria?_pointer hkind hrule h, hbody, htrimmed,
      trim_pointer h]
  refine ⟨ctx.lookup (bodyReference (trimmed rule)), ?_, ?_, ?_⟩
  · rw [evaluate, parse_bodyReference h, Expression.eval, String.ofList_toList]
  · intro text
    rw [hcriteria]
    exact toOption_eq_some_iff
  · rw [hcriteria]
    exact toOption_eq_none_iff

/-- Orders are lists of lines, and are told apart by what stands first in the second one. -/
def ordersBySecondLine : Operation :=
  { Operation.ofPath "POST" "/orders" with dispatcher := .jsonBody, rule := some "/1/0 " }

def twoLines : String := "[[\"tea\", \"3\"], [\"sugar\", \"2\"]]"

def ordered : Request := { Request.ofTarget "POST" "/orders" with body := some twoLines }

theorem criteria?_ordered :
    criteria? ordersBySecondLine (.ofRequest ordersBySecondLine.pathPattern ordered) =
        some "sugar" ∧
      evaluate (m := Id) (fun _ => none) (Context.ofRequest (view ordered .empty))
          "request.body/1/0 ".toList =
        .ok "sugar" := by
  have hbound : (Context.ofRequest (view ordered .empty)).get? "request" =
      some (view ordered .empty).document := SortedMap.get?_insert_self
  have hkind : ordersBySecondLine.dispatcher = .jsonBody := rfl
  have hbody : (view ordered .empty).body =
      (Input.ofRequest ordersBySecondLine.pathPattern ordered).body := rfl
  obtain ⟨seen, heval, htext, -⟩ :=
    criteria?_iff_evaluate (m := Id) (fun _ => none) hkind rfl (by decide) hbound hbody
  have hparse : Json.parse? twoLines.toList =
      some (.array [.array [.string "tea", .string "3"],
        .array [.string "sugar", .string "2"]]) := by cbv
  have hcriteria :
      criteria? ordersBySecondLine (.ofRequest ordersBySecondLine.pathPattern ordered) =
        some "sugar" := by
    rw [criteria?_pointer hkind rfl rfl]
    show placeText? ((Json.parse? twoLines.toList).bind _) = _
    rw [hparse]
    decide +kernel
  exact ⟨hcriteria, heval.trans ((htext "sugar").1 hcriteria)⟩

end ApiDouble.Serve
