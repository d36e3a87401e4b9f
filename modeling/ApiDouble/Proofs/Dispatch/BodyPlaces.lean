import ApiDouble.Proofs.Dispatch.Choice
import ApiDouble.Proofs.Document.Path
import ApiDouble.Proofs.Text.Blank
import Mathlib.Data.List.Permutation

/-!
# Two rules for one place in a body

A rule for bodies is a pointer or a path. Both ways to write down a list of keys lead to the same
place: the member of the member, and so on (`place?_pointerRule`, `place?_pathRule`). What a pointer
leads to is one part or none. A path has a list of all parts that it finds, but one of plain keys
has no more than one part in it, whatever that part is: an array, an empty one or `null` stands in
the list as itself.

So with either rule the criteria are the text of that member (`criteria?_of_place?`), for recorded
exchanges and for requests, and an operation answers in the same way.

Main result: `choose_pathRule`.
-/

namespace ApiDouble.Dispatch

open Text Document

/-! ## Places -/

/-- The text of what a way through documents leads to in a JSON body, if that is not `null`. -/
def bodyTextAt? (way : Document → Option Document) (body : Option String) : Option String := do
  let found ← way (← Json.parse? (← body).toList)
  if found.isNull then none else some found.text

/-- What keys lead to, one member after the other. -/
def memberAt? (keys : List String) (d : Document) : Option Document := keys.foldlM Document.get? d

/-- The pointer of some keys. -/
def pointerRule (keys : List String) : String := "/" ++ "/".intercalate keys

/-- The path of some keys. -/
def pathRule (keys : List String) : String := "$." ++ ".".intercalate keys

variable {op : Operation} {keys : List String}

/-- The criteria are the text of the place that the rule leads to. -/
theorem criteria?_of_place? {rule : String} {way : Document → Option Document}
    (hkind : op.dispatcher = .jsonBody) (hrule : op.rule = some rule)
    (hplace : ∀ d, place? (trim rule.toList) d = way d) (input : Input) :
    criteria? op input = bodyTextAt? way input.body := by
  rw [criteria?, hkind, hrule]
  show (input.body.bind fun body => bodyText? rule body) = _
  unfold bodyTextAt?
  cases input.body with
  | none => rfl
  | some body =>
    show bodyText? rule body = (Json.parse? body.toList).bind fun d => (way d).bind _
    unfold bodyText?
    simp only [hplace]
    rfl

theorem answers_of_place? {rule : String} {way : Document → Option Document}
    (hkind : op.dispatcher = .jsonBody) (hrule : op.rule = some rule)
    (hplace : ∀ d, place? (trim rule.toList) d = way d) (r : Request) :
    Answers op (fun e => ∃ text, bodyTextAt? way r.body = some text ∧
      bodyTextAt? way e.inbound.content = some text) (choose op r) := by
  refine answers_of_sameCriteria_iff hkind (by decide) ?_
  intro e _
  unfold SameCriteria
  rw [criteria?_of_place? hkind hrule hplace, criteria?_of_place? hkind hrule hplace]
  rfl

/-! ## The two rules -/

theorem toList_pointerRule (hne : keys ≠ []) : (pointerRule keys).toList = pointerTo keys := by
  rw [pointerRule, String.toList_append, String.toList_intercalate]
  show '/' :: ['/'].intercalate (keys.map String.toList) = _
  rw [cons_intercalate_eq_flatMap '/' (by simpa using hne), List.flatMap_map]
  rfl

theorem toList_pathRule (hne : keys ≠ []) : (pathRule keys).toList = '$' :: memberText keys := by
  rw [pathRule, String.toList_append, String.toList_intercalate]
  show '$' :: '.' :: ['.'].intercalate (keys.map String.toList) = _
  rw [cons_intercalate_eq_flatMap '.' (by simpa using hne), List.flatMap_map]
  rfl

/-- There is nothing to trim in keys behind separators. -/
theorem isBlank_of_mem {separator c : Char} (hseparator : isBlank separator = false)
    (h : ∀ key ∈ keys, IsLetters key)
    (hc : c ∈ keys.flatMap fun key => separator :: key.toList) : isBlank c = false := by
  rcases eq_or_isAlpha h hc with rfl | halpha
  · exact hseparator
  · exact isBlank_of_isAlpha halpha

/-- A pointer leads to the member. -/
theorem place?_pointerRule (hne : keys ≠ []) (h : ∀ key ∈ keys, IsLetters key) (d : Document) :
    place? (trim (pointerRule keys).toList) d = memberAt? keys d := by
  have htrim : trim (pointerTo keys) = pointerTo keys :=
    trim_of_forall fun c hc => isBlank_of_mem (by decide) h hc
  have hsign : (pointerTo keys).head? ≠ some '$' := by
    cases keys with
    | nil => exact absurd rfl hne
    | cons key keys => simp [pointerTo_cons]
  rw [toList_pointerRule hne, htrim, place?, if_neg hsign]
  exact at?_pointerTo_eq h d

/-- A path leads to the member. -/
theorem place?_pathRule (hne : keys ≠ []) (h : ∀ key ∈ keys, IsLetters key) (d : Document) :
    place? (trim (pathRule keys).toList) d = memberAt? keys d := by
  have htrim : trim ('$' :: memberText keys) = '$' :: memberText keys := by
    apply trim_of_forall
    intro c hc
    rcases List.mem_cons.1 hc with rfl | hc
    · decide
    · exact isBlank_of_mem (by decide) h hc
  have hsign : ('$' :: memberText keys).head? = some '$' := rfl
  rw [toList_pathRule hne, htrim, place?, if_pos hsign, Path.parse?_memberText hne h,
    Option.bind_some, find_memberPath, Option.head?_toList]
  rfl

/-! ## Choosing -/

/-- **A pointer and a path of the same keys choose the same exchange**: the first one that recorded
the text of the member that the request has. -/
theorem choose_pathRule (hkind : op.dispatcher = .jsonBody) (hne : keys ≠ [])
    (h : ∀ key ∈ keys, IsLetters key) (r : Request) :
    choose { op with rule := some (pathRule keys) } r =
        choose { op with rule := some (pointerRule keys) } r ∧
      Answers { op with rule := some (pointerRule keys) }
        (fun e => ∃ text, bodyTextAt? (memberAt? keys) r.body = some text ∧
          bodyTextAt? (memberAt? keys) e.inbound.content = some text)
        (choose { op with rule := some (pointerRule keys) } r) := by
  have hpath : ∀ input, criteria? { op with rule := some (pathRule keys) } input =
      bodyTextAt? (memberAt? keys) input.body :=
    criteria?_of_place? hkind rfl (place?_pathRule hne h)
  have hpointer : ∀ input, criteria? { op with rule := some (pointerRule keys) } input =
      bodyTextAt? (memberAt? keys) input.body :=
    criteria?_of_place? hkind rfl (place?_pointerRule hne h)
  constructor
  · unfold choose matching?
    simp only [hpath, hpointer]
    rfl
  · let ruled : Operation := { op with rule := some (pointerRule keys) }
    have hruled : ruled.dispatcher = .jsonBody := hkind
    exact answers_of_place? hruled rfl (place?_pointerRule hne h) r

/-- An order with the kinds of its drink. -/
def order (name kinds : String) : Exchange :=
  .event { (default : Message) with
    name
    content := some ("\x7b\"drink\": \x7b\"kinds\": " ++ kinds ++ "\x7d\x7d") }

def orderByKinds : Operation :=
  { Operation.ofPath "POST" "/orders" with
    dispatcher := .jsonBody
    exchanges := [order "unknown" "null", order "none" "[]", order "none" "[ ]"] }

/-- An empty list is found as itself, and `null` is not. -/
theorem choose_order :
    let r := { Request.ofTarget "POST" "/orders" with
      body := some "\x7b\"drink\": \x7b\"name\": \"tea\", \"kinds\": []\x7d\x7d" }
    choose { orderByKinds with rule := some "$.drink.kinds" } r = .matched (order "none" "[]") ∧
      choose { orderByKinds with rule := some "/drink/kinds" } r =
        .matched (order "none" "[]") := by
  intro r
  have hletters : ∀ key ∈ ["drink", "kinds"], IsLetters key := by decide
  have hkind : orderByKinds.dispatcher = .jsonBody := rfl
  obtain ⟨hsame, hanswers⟩ := choose_pathRule hkind (by decide) hletters r
  have hrequest : bodyTextAt? (memberAt? ["drink", "kinds"]) r.body = some "[]" := by cbv
  have hunknown : bodyTextAt? (memberAt? ["drink", "kinds"])
      (order "unknown" "null").inbound.content = none := by cbv
  have hnone : bodyTextAt? (memberAt? ["drink", "kinds"])
      (order "none" "[]").inbound.content = some "[]" := by cbv
  have hpointer : choose { orderByKinds with rule := some "/drink/kinds" } r =
      .matched (order "none" "[]") := by
    apply hanswers.unique
    refine .matched ⟨⟨"[]", hrequest, hnone⟩, [order "unknown" "null"], _, rfl, ?_⟩
    simp [hunknown]
  exact ⟨hsame.trans hpointer, hpointer⟩

end ApiDouble.Dispatch
