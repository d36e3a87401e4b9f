import ApiDouble.Proofs.Dispatch.Values
import ApiDouble.Proofs.Uri.Pattern
import ApiDouble.Serve.Session

/-!
# What templates see of a request

**Two maps of parameters.** An operation is chosen by the parameters of a request, and the answer is
rendered with those that are bound to `request.params`. Dispatching reads the path by the pattern of
the operation. Rendering takes the variables that were found along with the operation
(`operationFor?_cases`), and where a literal path led to it there are none.

**When they agree** (`params_view_iff`). They do if the pattern led to the operation. Behind a
literal path they do only if the query repeats every variable of the path with its value, as it
does if there are none. Otherwise templates miss something that the exchange was chosen by
(`params_view_firstPet`).

Main results: `operationFor?_cases`, `params_view_iff`.
-/

namespace ApiDouble.Serve

open Template Dispatch Uri

variable {s : Service} {r : Request} {op : Operation} {found : SortedMap String String}

/-- **How an operation is found**: by a literal path or, if no operation has it, by a pattern. -/
theorem operationFor?_cases (h : operationFor? s r = some (op, found)) :
    op ∈ operationsFor s r.method ∧
      (hasPath op r.path = true ∧ found = .empty ∨
        (∀ o ∈ operationsFor s r.method, hasPath o r.path = false) ∧
          extract? op.pathPattern r.path = some found) := by
  unfold operationFor? at h
  split at h
  · next hfind =>
    cases h
    have hpath := List.find?_some hfind
    exact ⟨List.mem_of_find?_eq_some hfind, .inl ⟨hpath, rfl⟩⟩
  · next hfind =>
    obtain ⟨o, ho, hmap⟩ := List.exists_of_findSome?_eq_some h
    obtain ⟨vars, hvars, he⟩ := Option.map_eq_some_iff.1 hmap
    cases he
    refine ⟨ho, .inr ⟨fun o' ho' => ?_, hvars⟩⟩
    exact Bool.eq_false_iff.2 (List.find?_eq_none.1 hfind o' ho')

/-- A variable that was found goes before an argument of its name. -/
theorem get?_params_view (r : Request) (found : SortedMap String String) (name : String) :
    (view r found).params.get? name = (found.get? name).or (Parameter.first? r.query name) := by
  have hfold : (view r found).params =
      (r.query.map fun p => (p.name, p.value)).foldl (fun m e => m.insertNew e.1 e.2) found := by
    rw [List.foldl_map]
    rfl
  rw [hfold, SortedMap.get?_foldl_insertNew, Parameter.findList?_eq_first?]

theorem value_params (v : RequestView) :
    (Context.ofRequest v).value "request.params" = .ok (texts v.params) := by
  have hroot : Context.rootOf "request.params".toList = "request" := by decide +kernel
  have hrest : accesses ("request.params".toList.dropWhile (!isStop ·)) =
      [.child "params".toList] := by decide +kernel
  rw [Context.value, hroot, hrest, Context.ofRequest, SortedMap.get?_insert_self]
  rfl

theorem texts_injective {m n : SortedMap String String} (h : texts m = texts n) : m = n := by
  have hentry : ∀ a b : String × String,
      (a.1, Document.string a.2) = (b.1, Document.string b.2) → a = b := by
    intro a b hab
    obtain ⟨hkey, hvalue⟩ := Prod.mk.inj hab
    exact Prod.ext hkey (Document.string.inj hvalue)
  have hlists := (List.map_inj_right hentry).1 (Document.object.inj h)
  cases m
  cases n
  congr

/-- Templates see what an exchange is chosen by if every name gives what it gives to dispatching. -/
theorem value_params_view_iff {pattern : String} :
    (Context.ofRequest (view r found)).value "request.params" =
        .ok (texts (Input.ofRequest pattern r).params) ↔
      ∀ name, (found.get? name).or (Parameter.first? r.query name) = requested? pattern r name := by
  rw [value_params]
  constructor
  · intro h name
    rw [← get?_params_view, texts_injective (Except.ok.inj h)]
    exact get?_paramsOf pattern r name
  · intro h
    congr 2
    refine SortedMap.ext fun name => ?_
    rw [get?_params_view, h]
    exact (get?_paramsOf pattern r name).symm

theorem eq_or_iff {a b : Option String} :
    b = a.or b ↔ ∀ value, a = some value → b = some value := by
  cases a with
  | none => simp
  | some x => simp

/-- **Templates see the parameters by which an exchange is chosen just if no variable is hidden** by
a literal path that leads to the operation. -/
theorem params_view_iff (h : operationFor? s r = some (op, found)) :
    (Context.ofRequest (view r found)).value "request.params" =
        .ok (texts (Input.ofRequest op.pathPattern r).params) ↔
      (hasPath op r.path = true → ∀ vars, extract? op.pathPattern r.path = some vars →
        ∀ name value, vars.get? name = some value →
          Parameter.first? r.query name = some value) := by
  rw [value_params_view_iff]
  obtain ⟨hop, ⟨hpath, rfl⟩ | ⟨hnone, hfound⟩⟩ := operationFor?_cases h
  · -- Behind a literal path nothing was found, so the query has to say all that the path says.
    cases hextract : extract? op.pathPattern r.path with
    | none =>
      constructor
      · intro _ _ vars hvars
        cases hvars
      · intro _ name
        rw [requested?, hextract]
        rfl
    | some vars =>
      constructor
      · intro hall _ vars' hvars name
        cases hvars
        have hname := hall name
        rw [requested?, hextract] at hname
        exact eq_or_iff.1 hname
      · intro hall name
        rw [requested?, hextract]
        exact eq_or_iff.2 (hall hpath vars rfl name)
  · -- A pattern led here: what was found is what dispatching reads, and no literal path is there.
    constructor
    · intro _ hpath
      rw [hnone op hop] at hpath
      cases hpath
    · intro _ name
      rw [requested?, hfound]
      rfl

/-- Pets by their number. The first one has a path of its own. -/
def petById : Operation :=
  { Operation.ofPath "GET" "/pets/{id}" with
    dispatcher := .uriParts
    rule := some "id"
    resourcePaths := ["/pets/1"]
    exchanges := [.ofParameters "rex" [⟨"id", "1"⟩]] }

def pets : Service := ⟨"Pets", "1", .rest, [petById]⟩

theorem params_view_secondPet :
    operationFor? pets (.ofTarget "GET" "/pets/2?id=7") =
        some (petById, .ofList [("id", "2")]) ∧
      (Context.ofRequest (view (.ofTarget "GET" "/pets/2?id=7") (.ofList [("id", "2")]))).value
          "request.params" =
        .ok (texts (Input.ofRequest petById.pathPattern
          (.ofTarget "GET" "/pets/2?id=7")).params) := by
  have hfound : operationFor? pets (.ofTarget "GET" "/pets/2?id=7") =
      some (petById, .ofList [("id", "2")]) := by decide +kernel
  have hpath : hasPath petById (Request.ofTarget "GET" "/pets/2?id=7").path = false := by
    decide +kernel
  refine ⟨hfound, (params_view_iff hfound).2 fun h => ?_⟩
  rw [hpath] at h
  cases h

/-- **A literal path hides a variable.** The first pet is chosen by its number, which templates do
not see. -/
theorem params_view_firstPet :
    ∃ found, operationFor? pets (.ofTarget "GET" "/pets/1") = some (petById, found) ∧
      choose petById (.ofTarget "GET" "/pets/1") =
        .matched (.ofParameters "rex" [⟨"id", "1"⟩]) ∧
      (Context.ofRequest (view (.ofTarget "GET" "/pets/1") found)).value "request.params" ≠
        .ok (texts (Input.ofRequest petById.pathPattern (.ofTarget "GET" "/pets/1")).params) := by
  refine ⟨.empty, by decide +kernel, by decide +kernel, ?_⟩
  rw [value_params]
  intro h
  have hparams := texts_injective (Except.ok.inj h)
  exact absurd hparams (by decide +kernel)

end ApiDouble.Serve
