import ApiDouble.Proofs.Dispatch.Choice
import ApiDouble.Serve.Session
import Mathlib.Logic.ExistsUnique

/-!
# Literal paths before patterns

**Two ways to an operation.** A request may have the path of an operation as it stands, or a path
that the operation's pattern reads (`IsLiteral`, `Reads`). In both cases it has its method.

**The rule** (`Finds`). The first operation that has the path literally is found, without variables.
Only if no operation has it, the first one whose pattern reads the path is found, with what it
reads. The lookup follows this rule, and the rule leaves it no choice (`finds_iff`).

**Order.** Which of the two ways leads to an operation, and whether one does, is a matter of which
operations there are, and not of their order. What the order decides is which of several operations
that are found in the same way is the first one (`operationFor?_reordered`).

Main results: `finds_iff`, `operationFor?_reordered`.
-/

namespace ApiDouble.Serve

open Text Dispatch

/-! ## The rule -/

/-- A request has the path of an operation as it stands: as one of its literal paths, or as its
pattern if that has no variables. -/
structure IsLiteral (r : Request) (op : Operation) : Prop where
  method : sameName op.method r.method = true
  path : r.path ∈ op.resourcePaths ∨
    Uri.hasVariables op.pathPattern = false ∧ op.pathPattern = r.path

/-- The pattern of an operation reads the path of a request. -/
structure Reads (r : Request) (op : Operation) (found : SortedMap String String) : Prop where
  method : sameName op.method r.method = true
  path : Uri.extract? op.pathPattern r.path = some found

/-- Which operation is found, and with which variables. -/
inductive Finds (ops : List Operation) (r : Request) :
    Option (Operation × SortedMap String String) → Prop
  | literal {op : Operation} (first : IsFirst (IsLiteral r) ops op) :
      Finds ops r (some (op, .empty))
  | pattern {op : Operation} {found : SortedMap String String}
      (unnamed : ∀ o ∈ ops, ¬IsLiteral r o) (first : IsFirst (fun o => ∃ f, Reads r o f) ops op)
      (reads : Reads r op found) : Finds ops r (some (op, found))
  | none (unnamed : ∀ o ∈ ops, ¬IsLiteral r o) (unread : ∀ o ∈ ops, ∀ f, ¬Reads r o f) :
      Finds ops r none

variable {s : Service} {r : Request} {op : Operation} {ops : List Operation}
  {found : SortedMap String String} {x y : Option (Operation × SortedMap String String)}

theorem isLiteral_iff :
    IsLiteral r op ↔ sameName op.method r.method = true ∧ hasPath op r.path = true := by
  unfold hasPath
  constructor
  · rintro ⟨hmethod, hpath⟩
    refine ⟨hmethod, ?_⟩
    rcases hpath with hmem | ⟨hplain, heq⟩
    · simp [hmem]
    · rw [heq] at hplain
      simp [heq, hplain]
  · rintro ⟨hmethod, hpath⟩
    refine ⟨hmethod, ?_⟩
    simpa using hpath

instance (r : Request) (op : Operation) : Decidable (IsLiteral r op) :=
  decidable_of_iff _ isLiteral_iff.symm

theorem exists_reads_iff :
    (∃ f, Reads r op f) ↔
      sameName op.method r.method = true ∧ (Uri.extract? op.pathPattern r.path).isSome = true := by
  rw [Option.isSome_iff_exists]
  constructor
  · rintro ⟨f, hmethod, hpath⟩
    exact ⟨hmethod, f, hpath⟩
  · rintro ⟨hmethod, f, hpath⟩
    exact ⟨f, hmethod, hpath⟩

theorem Reads.unique {f g : SortedMap String String} (hf : Reads r op f) (hg : Reads r op g) :
    f = g := Option.some.inj (hf.path.symm.trans hg.path)

/-- The rule leaves no choice. -/
theorem Finds.unique (hx : Finds ops r x) (hy : Finds ops r y) : x = y := by
  cases hx with
  | literal first =>
    cases hy with
    | literal first' => rw [first.unique first']
    | pattern unnamed _ _ => exact absurd first.1 (unnamed _ first.mem)
    | none unnamed _ => exact absurd first.1 (unnamed _ first.mem)
  | pattern unnamed first reads =>
    cases hy with
    | literal first' => exact absurd first'.1 (unnamed _ first'.mem)
    | pattern _ first' reads' =>
      obtain rfl := first.unique first'
      rw [reads.unique reads']
    | none _ unread => exact absurd reads (unread _ first.mem _)
  | none unnamed unread =>
    cases hy with
    | literal first' => exact absurd first'.1 (unnamed _ first'.mem)
    | pattern _ first' reads' => exact absurd reads' (unread _ first'.mem _)
    | none _ _ => rfl

/-! ## The lookup -/

/-- The first member of a part of a list is the first one in the list that is of that part. -/
theorem isFirst_of_filter {α : Type} {p : α → Prop} {b : α → Bool} {xs : List α} {x : α}
    (h : IsFirst p (xs.filter b) x) : IsFirst (fun a => b a = true ∧ p a) xs x := by
  obtain ⟨hx, before, after, hsplit, hbefore⟩ := h
  obtain ⟨front, rest, rfl, hfront, hrest⟩ := List.filter_eq_append_iff.1 hsplit
  obtain ⟨skipped, after', rfl, hskipped, hb, -⟩ := List.filter_eq_cons_iff.1 hrest
  refine ⟨⟨hb, hx⟩, front ++ skipped, after', by simp, ?_⟩
  intro a ha hpa
  rcases List.mem_append.1 ha with ha | ha
  · apply hbefore a _ hpa.2
    rw [← hfront]
    exact List.mem_filter.2 ⟨ha, hpa.1⟩
  · exact hskipped a ha hpa.1

/-- The lookup follows the rule. -/
theorem finds_operationFor? (s : Service) (r : Request) :
    Finds s.operations r (operationFor? s r) := by
  unfold operationFor?
  split
  · next op hfind =>
    have hfirst : IsFirst (fun o => hasPath o r.path = true) (operationsFor s r.method) op :=
      isFirst_of_find? hfind fun _ => Iff.rfl
    exact .literal ((isFirst_of_filter hfirst).congr fun o _ => isLiteral_iff.symm)
  · next hfind =>
    -- The first search failed, so no operation has the path literally; the second one is for
    -- patterns.
    have hunnamed : ∀ o ∈ s.operations, ¬IsLiteral r o := by
      intro o ho hlit
      obtain ⟨hmethod, hpath⟩ := isLiteral_iff.1 hlit
      exact List.find?_eq_none.1 hfind o (List.mem_filter.2 ⟨ho, hmethod⟩) hpath
    generalize hsome : List.findSome? _ (operationsFor s r.method) = x
    cases x with
    | some found =>
      obtain ⟨before, o, after, hsplit, ho, hbefore⟩ := List.findSome?_eq_some_iff.1 hsome
      obtain ⟨vars, hvars, rfl⟩ := Option.map_eq_some_iff.1 ho
      have hfirst : IsFirst (fun o => (Uri.extract? o.pathPattern r.path).isSome = true)
          (operationsFor s r.method) o := by
        refine ⟨by simp [hvars], before, after, hsplit, ?_⟩
        intro a ha
        simpa using hbefore a ha
      have hfirst := isFirst_of_filter hfirst
      exact .pattern hunnamed (hfirst.congr fun o _ => exists_reads_iff.symm) ⟨hfirst.1.1, hvars⟩
    | none =>
      apply Finds.none hunnamed
      intro o ho f hreads
      have hnone := List.findSome?_eq_none_iff.1 hsome o (List.mem_filter.2 ⟨ho, hreads.method⟩)
      simp [hreads.path] at hnone

theorem finds_iff : Finds s.operations r x ↔ operationFor? s r = x :=
  ⟨(finds_operationFor? s r).unique, fun h => h ▸ finds_operationFor? s r⟩

/-! ## Order -/

theorem exists_literal (s : Service) (h : ∃ op ∈ s.operations, IsLiteral r op) :
    ∃ op ∈ s.operations, IsLiteral r op ∧ operationFor? s r = some (op, .empty) := by
  obtain ⟨o, ho, hlit⟩ := h
  have hfinds := finds_operationFor? s r
  generalize hx : operationFor? s r = x at hfinds
  cases hfinds with
  | literal first => exact ⟨_, first.mem, first.1, rfl⟩
  | pattern unnamed _ _ => exact absurd hlit (unnamed o ho)
  | none unnamed _ => exact absurd hlit (unnamed o ho)

theorem operationFor?_eq_none_iff :
    operationFor? s r = none ↔ ∀ op ∈ s.operations, ¬IsLiteral r op ∧ ∀ f, ¬Reads r op f := by
  rw [← finds_iff]
  constructor
  · rintro (_ | _ | ⟨unnamed, unread⟩) op hop
    exact ⟨unnamed op hop, unread op hop⟩
  · intro h
    exact .none (fun o ho => (h o ho).1) fun o ho => (h o ho).2

/-- Where no operation has the path literally, the first one whose pattern reads it is found. -/
theorem operationFor?_eq_some_iff (h : ∀ op ∈ s.operations, ¬IsLiteral r op) :
    operationFor? s r = some (op, found) ↔
      IsFirst (fun o => ∃ f, Reads r o f) s.operations op ∧ Reads r op found := by
  rw [← finds_iff]
  constructor
  · rintro (first | ⟨_, first, reads⟩ | _)
    · exact absurd first.1 (h op first.mem)
    · exact ⟨first, reads⟩
  · rintro ⟨first, reads⟩
    exact .pattern h first reads

/-- **The order of the operations decides only between those that are found in the same way.** -/
theorem operationFor?_reordered (h : ops.Perm s.operations) (r : Request) :
    let s' := { s with operations := ops }
    (operationFor? s' r = none ↔ operationFor? s r = none) ∧
      ((∃ op ∈ s.operations, IsLiteral r op) →
        (∃ op ∈ s.operations, IsLiteral r op ∧ operationFor? s r = some (op, .empty)) ∧
          (∃ op ∈ ops, IsLiteral r op ∧ operationFor? s' r = some (op, .empty)) ∧
          ((∃! op, op ∈ s.operations ∧ IsLiteral r op) →
            operationFor? s' r = operationFor? s r)) ∧
      ((∀ op ∈ s.operations, ¬IsLiteral r op) → ∀ t ∈ [s, s'], ∀ op found,
        operationFor? t r = some (op, found) ↔
          IsFirst (fun o => ∃ f, Reads r o f) t.operations op ∧ Reads r op found) := by
  intro s'
  have hmem : ∀ {o}, o ∈ s'.operations ↔ o ∈ s.operations := h.mem_iff
  refine ⟨?none, ?literal, ?pattern⟩
  case none =>
    rw [operationFor?_eq_none_iff, operationFor?_eq_none_iff]
    simp only [hmem]
  case literal =>
    rintro ⟨o, ho, hlit⟩
    obtain ⟨op, hop, hliteral, hfound⟩ := exists_literal s ⟨o, ho, hlit⟩
    obtain ⟨op', hop', hliteral', hfound'⟩ := exists_literal s' ⟨o, hmem.2 ho, hlit⟩
    refine ⟨⟨op, hop, hliteral, hfound⟩, ⟨op', hop', hliteral', hfound'⟩, ?_⟩
    intro hunique
    have heq : op' = op := hunique.unique ⟨hmem.1 hop', hliteral'⟩ ⟨hop, hliteral⟩
    rw [hfound, hfound', heq]
  case pattern =>
    intro hunnamed t ht op found
    apply operationFor?_eq_some_iff
    intro o ho
    simp only [List.mem_cons, List.not_mem_nil, or_false] at ht
    rcases ht with rfl | rfl
    · exact hunnamed o ho
    · exact hunnamed o (hmem.1 ho)

/-- Pages by their name, and one that has a path of its own. -/
def pageByName : Operation := Operation.ofPath "GET" "/pages/{name}"

def pageByNumber : Operation := Operation.ofPath "get" "/pages/{number}"

def frontPage : Operation := (Operation.ofPath "GET" "/pages/{slug}").addResourcePath "/pages/front"

def pages : Service := ⟨"Pages", "1", .rest, [pageByName, frontPage, pageByNumber]⟩

/-- The front page is found wherever it is declared. Of the others the first one is. -/
theorem operationFor?_pages :
    let pages' := { pages with operations := [pageByNumber, pageByName, frontPage] }
    pages'.operations.Perm pages.operations ∧
      operationFor? pages' (.ofTarget "get" "/pages/front") =
        operationFor? pages (.ofTarget "get" "/pages/front") ∧
      operationFor? pages (.ofTarget "get" "/pages/2") =
        some (pageByName, .ofList [("name", "2")]) ∧
      operationFor? pages' (.ofTarget "get" "/pages/2") =
        some (pageByNumber, .ofList [("number", "2")]) := by
  intro pages'
  have hperm : pages'.operations.Perm pages.operations := by decide +kernel
  have hfront : IsLiteral (.ofTarget "get" "/pages/front") frontPage := by decide +kernel
  have hunique : ∀ op ∈ pages.operations,
      IsLiteral (.ofTarget "get" "/pages/front") op → op = frontPage := by decide +kernel
  have hunnamed : ∀ op ∈ pages.operations, ¬IsLiteral (.ofTarget "get" "/pages/2") op := by
    decide +kernel
  obtain ⟨-, hliteral, -⟩ := operationFor?_reordered hperm (.ofTarget "get" "/pages/front")
  obtain ⟨-, -, hpattern⟩ := operationFor?_reordered hperm (.ofTarget "get" "/pages/2")
  refine ⟨hperm, ?_, ?_, ?_⟩
  · obtain ⟨-, -, hsame⟩ := hliteral ⟨frontPage, by simp [pages], hfront⟩
    exact hsame ⟨frontPage, ⟨by simp [pages], hfront⟩, fun op h => hunique op h.1 h.2⟩
  · have hreads : Reads (.ofTarget "get" "/pages/2") pageByName (.ofList [("name", "2")]) :=
      ⟨by decide +kernel, by decide +kernel⟩
    exact (hpattern hunnamed pages (by simp) pageByName _).2
      ⟨⟨⟨_, hreads⟩, [], _, rfl, by simp⟩, hreads⟩
  · have hreads : Reads (.ofTarget "get" "/pages/2") pageByNumber (.ofList [("number", "2")]) :=
      ⟨by decide +kernel, by decide +kernel⟩
    exact (hpattern hunnamed pages' (by simp [pages']) pageByNumber _).2
      ⟨⟨⟨_, hreads⟩, [], _, rfl, by simp⟩, hreads⟩

end ApiDouble.Serve
