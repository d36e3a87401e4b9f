import ApiDouble.Import.Specification
import ApiDouble.Proofs.Contract.Service
import ApiDouble.Proofs.Import.MessageExamples
import ApiDouble.Proofs.Import.ResponseExamples
import ApiDouble.Proofs.Text.Blank

/-!
# Places of operations

**Branches.** A document has its operations in branches, one for each channel or path. A branch is
left out with a warning, or it holds places, one for each verb. In both dialects an import adds one
branch after the other (`AsyncApi.addChannel_eq`, `OpenApi.addPath_eq`, `Dialect.service_eq`), and
so it builds its service (`built_service`).

**Accounting.** What is built at a place is added to the service if it is the first of its name, and
else a warning names it. Going on by a place or by a branch keeps this (`Accounts.add`,
`Accounts.addBranch`), so it holds of every document that has a title, whatever else is in it
(`service_accounts`).

Main results: `Place.add_cases`, `Dialect.mem_places_asyncApi`, `Dialect.mem_places_openApi`,
`Dialect.service_eq`, `built_service`, `Accounts.add`, `Accounts.addBranch`, `service_accounts`.
-/

namespace ApiDouble.Import

open Text Noted

/-! ## Places -/

/-- A place where a document has an operation: a verb of a path, and what is built there. -/
structure Place where
  path : String
  verb : String
  built : Noted Operation
  named : built.value.name = Operation.nameOf verb path

namespace Place

def name (p : Place) : String := Operation.nameOf p.verb p.path

/-- The warning that the name of the operation is taken. -/
def duplicate (p : Place) : Warning := ⟨.partialImport, p.name, "duplicate operation name"⟩

theorem name_built (p : Place) (op : Operation) (h : some p.built.value = some op) :
    op.name = p.name := by
  cases h
  exact p.named

/-- Adds the operation to a service. -/
def add (s : Service) (p : Place) : Noted Service := do
  declare s (← p.built)

/-- **An operation is added if its name is free**, and else it is left out with a warning. -/
theorem add_cases (s : Service) (p : Place) :
    (p.name ∉ s.operations.map (·.name) ∧
        p.add s = ⟨{ s with operations := s.operations ++ [p.built.value] }, p.built.warnings⟩) ∨
      (p.name ∈ s.operations.map (·.name) ∧ p.add s = ⟨s, p.built.warnings ++ [p.duplicate]⟩) := by
  have hname : p.built.value.name = p.name := p.named
  have hadd : p.add s = ⟨(declare s p.built.value).value,
    p.built.warnings ++ (declare s p.built.value).warnings⟩ := rfl
  by_cases htaken : p.name ∈ s.operations.map (·.name)
  · refine .inr ⟨htaken, ?_⟩
    have hnone : s.addOperation? p.built.value = none := by
      rw [Service.addOperation?, hname, if_pos (Service.isSome_operation?_iff.2 htaken)]
    have hdeclare : declare s p.built.value = ⟨s, [p.duplicate]⟩ := by
      rw [declare, hnone, hname]
      rfl
    rw [hadd, hdeclare]
  · refine .inl ⟨htaken, ?_⟩
    have hsome : s.addOperation? p.built.value =
        some { s with operations := s.operations ++ [p.built.value] } := by
      rw [Service.addOperation?, hname, if_neg fun h => htaken (Service.isSome_operation?_iff.1 h)]
    have hdeclare : declare s p.built.value =
        pure { s with operations := s.operations ++ [p.built.value] } := by
      rw [declare, hsome]
    rw [hadd, hdeclare, value_pure, warnings_pure, List.append_nil]

end Place

/-! ## Branches -/

/-- A branch of a document: it is left out with a warning, or it holds places, and notes on what
they have in common. -/
inductive Branch
  | leftOut (w : Warning)
  | held (notes : List Warning) (places : List Place)

namespace Branch

def places : Branch → List Place
  | leftOut _ => []
  | held _ ps => ps

/-- The warning about a branch that is left out. -/
def skipped : Branch → List Warning
  | leftOut w => [w]
  | held _ _ => []

/-- Adds the operations of a branch to a service. -/
def add (s : Service) : Branch → Noted Service
  | leftOut w => ⟨s, [w]⟩
  | held notes ps => (⟨s, notes⟩ : Noted Service) >>= fun s => ps.foldlM Place.add s

theorem add_held_map {α : Type} (notes : List Warning) (f : α → Place) (xs : List α) (s : Service) :
    (held notes (xs.map f)).add s =
      (⟨s, notes⟩ : Noted Service) >>= fun s => xs.foldlM (fun s x => (f x).add s) s := by
  rw [add]
  simp only [List.foldlM_map]

end Branch

namespace AsyncApi

/-- What the operations of a document have in common. -/
def sourceOf (settings : ImportSettings) (root : Document) : Source where
  resolve := resolve root settings.maxReferenceDepth
  contentType := (root.get "defaultContentType").string?.getD settings.defaultContentType

/-- A verb of a channel. -/
def place (source : Source) (name : String) (channel : Document) (m : String × Document) :
    Place where
  path := name
  verb := m.1
  built := operation source name channel m.1 m.2
  named := name_operation source name channel m.1 m.2

/-- A channel is left out if it is no object. -/
def branch (source : Source) (c : String × Document) : Branch :=
  if c.2.isObject then
    .held [] ((c.2.members.filter fun m => verbs.contains m.1).map (place source c.1 c.2))
  else .leftOut ⟨.partialImport, c.1, "channel is not an object"⟩

theorem addChannel_eq (source : Source) (s : Service) (c : String × Document) :
    addChannel source s c.1 c.2 = (branch source c).add s := by
  unfold addChannel branch
  split
  · rw [Branch.add_held_map]
    show _ = (pure s : Noted Service) >>= _
    rw [pure_bind]
    rfl
  · rfl

end AsyncApi

namespace OpenApi

/-- What is built of a verb of a path, `shared` being the parameters of the path. -/
def build (resolve : Resolver) (path : String) (shared : List Declared) (verb : String)
    (node : Document) : Noted Operation := do
  let own ← declared resolve path (node.get "parameters")
  operation resolve path verb node (effective shared own)

/-- A verb of a path. -/
def place (resolve : Resolver) (path : String) (shared : List Declared) (m : String × Document) :
    Place where
  path := path
  verb := m.1
  built := build resolve path shared m.1 m.2
  named := name_operation resolve path m.1 m.2 _

/-- A path is left out if it refers to nothing. -/
def branch (resolve : Resolver) (p : String × Document) : Branch :=
  match resolve p.2 with
  | .error e => .leftOut ⟨.referenceResolution, p.1, e.message⟩
  | .ok item =>
    let shared := declared resolve p.1 (item.get "parameters")
    .held shared.warnings
      ((item.members.filter fun m => verbs.contains m.1).map (place resolve p.1 shared.value))

theorem add_place (resolve : Resolver) (path : String) (shared : List Declared) (s : Service)
    (m : String × Document) :
    (place resolve path shared m).add s = (do
      let own ← declared resolve path (m.2.get "parameters")
      declare s (← operation resolve path m.1 m.2 (effective shared own))) :=
  bind_assoc (declared resolve path (m.2.get "parameters")) _ _

theorem addPath_eq (resolve : Resolver) (s : Service) (p : String × Document) :
    addPath resolve s p.1 p.2 = (branch resolve p).add s := by
  unfold addPath branch
  cases resolve p.2 with
  | error e => rfl
  | ok item =>
    rw [orDangling_ok, pure_bind]
    simp only [Branch.add_held_map, add_place]
    rfl

end OpenApi

/-- The title of a document. -/
def titleOf (root : Document) : String := ((root.get "info").get "title").text

namespace Dialect

/-- The branches of a document, in its order. -/
def branches (settings : ImportSettings) (root : Document) : Dialect → List Branch
  | asyncApi => (root.get "channels").members.map
      (AsyncApi.branch (AsyncApi.sourceOf settings root))
  | openApi => (root.get "paths").members.map
      (OpenApi.branch (resolve root settings.maxReferenceDepth "$ref"))

/-- The places of a document, in its order. -/
def places (settings : ImportSettings) (root : Document) (d : Dialect) : List Place :=
  (d.branches settings root).flatMap Branch.places

/-- **The places of an AsyncAPI document** are the two verbs of its channels that are objects. -/
theorem mem_places_asyncApi {settings : ImportSettings} {root : Document} {p : Place} :
    p ∈ asyncApi.places settings root ↔
      ∃ c ∈ (root.get "channels").members, c.2.isObject = true ∧
        ∃ m ∈ c.2.members, (m.1 = "subscribe" ∨ m.1 = "publish") ∧
          p = AsyncApi.place (AsyncApi.sourceOf settings root) c.1 c.2 m := by
  simp only [places, branches, List.mem_flatMap, List.mem_map, exists_exists_and_eq_and]
  refine exists_congr fun c => and_congr_right fun _ => ?_
  rw [AsyncApi.branch]
  by_cases hobject : c.2.isObject = true
  · simp only [hobject, if_true, Branch.places, List.mem_map, List.mem_filter, true_and,
      AsyncApi.verbs, List.contains_eq_mem, decide_eq_true_eq, List.mem_cons, List.not_mem_nil,
      or_false, and_assoc, @eq_comm _ p]
  · simp only [hobject, Branch.places, List.not_mem_nil, Bool.false_eq_true, if_false, false_and]

/-- **The places of an OpenAPI document** are the eight verbs of its paths, as far as these lead
anywhere. -/
theorem mem_places_openApi {settings : ImportSettings} {root : Document} {p : Place} :
    p ∈ openApi.places settings root ↔
      ∃ c ∈ (root.get "paths").members, ∃ item,
        resolve root settings.maxReferenceDepth "$ref" c.2 = .ok item ∧
        ∃ m ∈ item.members,
          m.1 ∈ ["get", "put", "post", "delete", "patch", "head", "options", "trace"] ∧
          p = OpenApi.place (resolve root settings.maxReferenceDepth "$ref") c.1
            (OpenApi.declared (resolve root settings.maxReferenceDepth "$ref") c.1
              (item.get "parameters")).value m := by
  simp only [places, branches, List.mem_flatMap, List.mem_map, exists_exists_and_eq_and]
  refine exists_congr fun c => and_congr_right fun _ => ?_
  rw [OpenApi.branch]
  cases resolve root settings.maxReferenceDepth "$ref" c.2 with
  | error e => simp only [Branch.places, List.not_mem_nil, reduceCtorEq, false_and, exists_false]
  | ok item =>
    simp only [Branch.places, List.mem_map, List.mem_filter, Except.ok.injEq, exists_eq_left',
      OpenApi.verbs, List.contains_eq_mem, decide_eq_true_eq, and_assoc, @eq_comm _ p]

/-- The warnings about the branches that are left out. -/
def skipped (settings : ImportSettings) (root : Document) (d : Dialect) : List Warning :=
  (d.branches settings root).flatMap Branch.skipped

def kind : Dialect → ServiceKind
  | asyncApi => .event
  | openApi => .rest

/-- The service of a document before anything is added to it. -/
def start (root : Document) (d : Dialect) : Service where
  name := trimmed (titleOf root)
  version := trimmed ((root.get "info").get "version").text
  kind := d.kind
  operations := []

/-- **The branches of a document are added one after the other**, if it has a title. -/
theorem service_eq (d : Dialect) (settings : ImportSettings) (root : Document) :
    d.service settings root =
      if allBlank (titleOf root).toList then .error (.untitled d)
      else .ok ((d.branches settings root).foldlM Branch.add (d.start root)) := by
  have htitle : (trimmed (titleOf root)).isEmpty = allBlank (titleOf root).toList := by
    rw [Bool.eq_iff_iff, String.isEmpty_iff, ← trim_eq_nil_iff, trimmed, String.ofList_eq_empty_iff]
  rw [← htitle]
  cases d with
  | asyncApi =>
    unfold service AsyncApi.service branches
    simp only [List.foldlM_map, ← AsyncApi.addChannel_eq]
    rfl
  | openApi =>
    unfold service OpenApi.service branches
    simp only [List.foldlM_map, ← OpenApi.addPath_eq]
    rfl

end Dialect

/-! ## Building -/

theorem Place.built_add {s : Service} (h : s.Built) (p : Place) : (p.add s).value.Built := by
  show (declare s p.built.value).value.Built
  unfold declare
  cases hadd : s.addOperation? p.built.value with
  | none => exact h
  | some s' => exact h.add hadd

theorem Branch.built_add {s : Service} (h : s.Built) (b : Branch) : (b.add s).value.Built := by
  cases b with
  | leftOut w => exact h
  | held notes ps =>
    exact foldlM_preserves (fun _ p hs => p.built_add hs) h ps

/-- **An import builds its service**, adding one operation after the other. -/
theorem built_service {d : Dialect} {settings : ImportSettings} {root : Document}
    {outcome : Noted Service} (h : d.service settings root = .ok outcome) :
    outcome.value.Built := by
  rw [Dialect.service_eq] at h
  split at h
  · cases h
  · cases h
    exact foldlM_preserves (fun _ b hs => b.built_add hs) (.start rfl) (d.branches settings root)

/-! ## Accounting -/

/-- What becomes of places and of branches left out, `kept` being the positions of the places whose
operations are added. -/
structure Accounts (places : List Place) (skipped : List Warning) (kept : List Nat)
    (o : Noted Service) : Prop where
  firsts : Firsts Place.name (fun p => some p.built.value) places kept o.value.operations
  duplicates : ((others places kept).map Place.duplicate).Sublist o.warnings
  skipped : skipped.Sublist o.warnings
  built : ∀ p ∈ places, p.built.warnings.Sublist o.warnings

namespace Accounts

variable {places : List Place} {skipped : List Warning} {kept : List Nat} {o : Noted Service}

theorem note (h : Accounts places skipped kept o) {ws vs : List Warning} (hws : ws.Sublist vs) :
    Accounts places (skipped ++ ws) kept ⟨o.value, o.warnings ++ vs⟩ where
  firsts := h.firsts
  duplicates := h.duplicates.trans (List.sublist_append_left ..)
  skipped := h.skipped.append hws
  built p hp := (h.built p hp).trans (List.sublist_append_left ..)

theorem built_append (h : Accounts places skipped kept o) {p : Place} {ws : List Warning}
    (hp : p.built.warnings.Sublist ws) :
    ∀ q ∈ places ++ [p], q.built.warnings.Sublist (o.warnings ++ ws) := by
  intro q hq
  rcases List.mem_append.1 hq with hq | hq
  · exact (h.built q hq).trans (List.sublist_append_left ..)
  · rw [List.mem_singleton.1 hq]
    exact hp.trans (List.sublist_append_right ..)

/-- **Going on by a place.** -/
theorem add (h : Accounts places skipped kept o) (p : Place) :
    ∃ kept', Accounts (places ++ [p]) skipped kept' (o >>= fun s => p.add s) := by
  have hnames : p.name ∈ o.value.operations.map (·.name) ↔ ∃ q ∈ places, q.name = p.name := by
    rw [h.firsts.mem_names_iff Place.name_built]
    simp only [Option.isSome_some, true_and]
  obtain ⟨hfree, hadd⟩ | ⟨htaken, hadd⟩ := p.add_cases o.value
  · refine ⟨kept ++ [places.length], ?_⟩
    rw [bind_of_eq hadd]
    have hnew : ∀ q ∈ places, (some q.built.value).isSome = true → q.name ≠ p.name :=
      fun q hq _ hname => hfree (hnames.2 ⟨q, hq, hname⟩)
    exact {
      firsts := h.firsts.keep rfl hnew
      duplicates := by
        rw [Firsts.others_keep]
        exact h.duplicates.trans (List.sublist_append_left ..)
      skipped := h.skipped.trans (List.sublist_append_left ..)
      built := h.built_append (List.Sublist.refl _) }
  · refine ⟨kept, ?_⟩
    rw [bind_of_eq hadd]
    obtain ⟨q, hq, hname⟩ := hnames.1 htaken
    exact {
      firsts := h.firsts.leave fun _ => ⟨q, hq, rfl, hname⟩
      duplicates := by
        rw [h.firsts.others_leave, List.map_append]
        exact h.duplicates.append (List.sublist_append_right ..)
      skipped := h.skipped.trans (List.sublist_append_left ..)
      built := h.built_append (List.sublist_append_left ..) }

/-- **Going on by a branch.** -/
theorem addBranch (h : Accounts places skipped kept o) (b : Branch) :
    ∃ kept', Accounts (places ++ b.places) (skipped ++ b.skipped) kept'
      (o >>= fun s => b.add s) := by
  cases b with
  | leftOut w =>
    refine ⟨kept, ?_⟩
    rw [Branch.places, List.append_nil]
    exact h.note (List.Sublist.refl [w])
  | held notes ps =>
    have hnoted : Accounts places (skipped ++ []) kept (o >>= fun s => ⟨s, notes⟩) :=
      h.note (List.nil_sublist notes)
    obtain ⟨kept', hrun⟩ := foldlM_induction
      (I := fun ps o => ∃ kept, Accounts ps (skipped ++ []) kept o) (g := fun p : Place => [p])
      (fun _ _ p ⟨_, hz⟩ => hz.add p) ⟨kept, hnoted⟩ ps
    rw [List.flatMap_singleton', bind_assoc] at hrun
    exact ⟨kept', hrun⟩

end Accounts

/-- What becomes of the branches of a document. -/
theorem exists_accounts (s : Service) (hs : s.operations = []) (bs : List Branch) :
    ∃ kept, Accounts (bs.flatMap Branch.places) (bs.flatMap Branch.skipped) kept
      (bs.foldlM Branch.add s) := by
  have hstart : ∃ kept, Accounts (([] : List Branch).flatMap Branch.places)
      (([] : List Branch).flatMap Branch.skipped) kept (pure s) := by
    refine ⟨[], ?firsts, List.Sublist.refl _, List.Sublist.refl _, ?built⟩
    case firsts =>
      rw [value_pure, hs]
      exact .nil
    case built =>
      intro p hp
      exact absurd hp List.not_mem_nil
  obtain ⟨kept, hrun⟩ := foldlM_induction
    (I := fun bs o => ∃ kept,
      Accounts (bs.flatMap Branch.places) (bs.flatMap Branch.skipped) kept o)
    (g := fun b : Branch => [b])
    (fun zs _ b ⟨_, hz⟩ => by
      rw [List.flatMap_append, List.flatMap_append, List.flatMap_singleton, List.flatMap_singleton]
      exact hz.addBranch b)
    hstart bs
  rw [List.flatMap_singleton', pure_bind] at hrun
  exact ⟨kept, hrun⟩

/-- **No operation is lost in silence.** A document has no service just if its title is blank. The
operations of its service have different names, and they are those of the first place of each name,
in the order of the document. Every other place has a warning of its own and an earlier place of its
name, and every branch that is left out has a warning. -/
theorem service_accounts (d : Dialect) (settings : ImportSettings) (root : Document) :
    match d.service settings root with
    | .error e => allBlank (titleOf root).toList = true ∧ e = .untitled d
    | .ok outcome =>
      allBlank (titleOf root).toList = false ∧
        (outcome.value.operations.map (·.name)).Nodup ∧
        (∃ kept,
          Firsts Place.name (fun p => some p.built.value) (d.places settings root) kept
            outcome.value.operations ∧
          ((others (d.places settings root) kept).map Place.duplicate).Sublist outcome.warnings ∧
          ∀ i p, (d.places settings root)[i]? = some p →
            (i ∉ kept ↔ p.duplicate ∈ outcome.warnings ∧
              ∃ j < i, ∃ q, (d.places settings root)[j]? = some q ∧ q.name = p.name)) ∧
        (∀ p ∈ d.places settings root,
          p.built.value.name = upper p.verb ++ " " ++ trimmed p.path ∧
            p.built.warnings.Sublist outcome.warnings) ∧
        (d.skipped settings root).Sublist outcome.warnings := by
  rw [Dialect.service_eq]
  cases hblank : allBlank (titleOf root).toList with
  | true => exact ⟨rfl, rfl⟩
  | false =>
    obtain ⟨kept, haccounts⟩ := exists_accounts (d.start root) rfl (d.branches settings root)
    refine ⟨rfl, haccounts.firsts.nodup Place.name_built,
      ⟨kept, haccounts.firsts, haccounts.duplicates, fun i p hp => ⟨fun hi => ?left, ?kept⟩⟩,
      fun p hp => ⟨p.named, haccounts.built p hp⟩, haccounts.skipped⟩
    case left =>
      obtain ⟨j, hj, q, hq, -, hname⟩ := haccounts.firsts.earlier hp rfl hi
      have hdup : p.duplicate ∈ (others (d.places settings root) kept).map Place.duplicate :=
        List.mem_map_of_mem (Firsts.mem_others hp hi)
      exact ⟨haccounts.duplicates.mem hdup, j, hj, q, hq, hname⟩
    case kept =>
      -- A place that is kept is the first of its name.
      rintro ⟨-, j, hj, q, hq, hname⟩ hi
      obtain ⟨p', hp', -, hfirst⟩ := (haccounts.firsts.mem_iff i).1 hi
      obtain rfl := Option.some.inj (hp.symm.trans hp')
      exact hfirst j hj q hq rfl hname

/-- Names that differ in blanks at their ends are taken for one. -/
example :
    ((Dialect.service .asyncApi {} (.object [("info", .object [("title", .string "Seats")]),
        ("channels", .object [("seats", .object [("publish", .null)]), ("rows", .null),
          (" seats", .object [("publish", .null)])])])).toOption.map fun outcome =>
      (outcome.value.operations.map (·.name), outcome.warnings.map Warning.text)) =
    some (["PUBLISH seats"], ["rows: channel is not an object",
      "PUBLISH seats: duplicate operation name"]) := by
  decide +kernel

end ApiDouble.Import
