import ApiDouble.Import.AsyncApi
import ApiDouble.Proofs.Contract.Service
import ApiDouble.Proofs.Import.Noted
import Mathlib.Data.List.Basic

/-!
# Additions to an operation

**Additions.** The bindings of a verb, of its channel and of its messages, and the examples of the
messages, are put into an operation one after the other. Each of them adds exchanges at the end,
merges attributes into the bindings, and notes warnings; nothing else of the operation changes
(`Addition.onto`).

**Sums.** To add one after the other is to add both at once (`onto_append`). So what comes of some
messages is the sum of what comes of each (`foldlM_addMessage_eq`).

Main results: `mergeBindings_eq`, `addMessage_eq`, `foldlM_addMessage_eq`.
-/

namespace ApiDouble.Import.AsyncApi

open Text Noted

/-- What is added to an operation. -/
structure Addition where
  exchanges : List Exchange
  merges : List MergeStep
  warnings : List Warning

namespace Addition

instance : Append Addition where
  append a b := ⟨a.exchanges ++ b.exchanges, a.merges ++ b.merges, a.warnings ++ b.warnings⟩

/-- Nothing but some warnings. -/
def note (ws : List Warning) : Addition := ⟨[], [], ws⟩

/-- Additions one after the other. -/
def sum (as : List Addition) : Addition where
  exchanges := as.flatMap (·.exchanges)
  merges := as.flatMap (·.merges)
  warnings := as.flatMap (·.warnings)

/-- An operation with what is added to it. -/
def onto (a : Addition) (op : Operation) : Noted Operation where
  value := { op with
    exchanges := op.exchanges ++ a.exchanges
    bindings := op.bindings.mergeAll a.merges }
  warnings := a.warnings

variable {a b : Addition} {op : Operation}

@[simp] theorem exchanges_append (a b : Addition) :
    (a ++ b).exchanges = a.exchanges ++ b.exchanges := rfl

@[simp] theorem merges_append (a b : Addition) : (a ++ b).merges = a.merges ++ b.merges := rfl

@[simp] theorem warnings_append (a b : Addition) :
    (a ++ b).warnings = a.warnings ++ b.warnings := rfl

@[simp] theorem name_onto (a : Addition) (op : Operation) : (a.onto op).value.name = op.name := rfl

section Sum

variable {α : Type} (f : α → Addition) (xs : List α)

@[simp] theorem exchanges_sum_map :
    (sum (xs.map f)).exchanges = xs.flatMap fun x => (f x).exchanges := List.flatMap_map ..

@[simp] theorem merges_sum_map :
    (sum (xs.map f)).merges = xs.flatMap fun x => (f x).merges := List.flatMap_map ..

@[simp] theorem warnings_sum_map :
    (sum (xs.map f)).warnings = xs.flatMap fun x => (f x).warnings := List.flatMap_map ..

end Sum

theorem sum_cons (a : Addition) (as : List Addition) : sum (a :: as) = a ++ sum as := rfl

theorem onto_sum_nil (op : Operation) : (sum []).onto op = pure op := by
  apply Noted.ext
  · simp [onto, sum, Bindings.mergeAll]
  · rfl

/-- To add one after the other is to add both. -/
theorem onto_append {f : Operation → Noted Operation}
    (h : f (a.onto op).value = b.onto (a.onto op).value) :
    (a.onto op >>= f) = (a ++ b).onto op := by
  apply Noted.ext
  · rw [value_bind, h]
    simp [onto, Bindings.mergeAll]
  · rw [warnings_bind, h]
    rfl

theorem onto_note {α : Type} {x : α} {ws : List Warning} {f : α → Noted Operation}
    (h : f x = a.onto op) : ((⟨x, ws⟩ : Noted α) >>= f) = (note ws ++ a).onto op := by
  apply Noted.ext
  · rw [value_bind, h]
    rfl
  · rw [warnings_bind, h]
    rfl

end Addition

/-! ## Bindings -/

/-- The merges that some bindings ask for at a scope. -/
def mergesOf (scope : Scope) (bindings : Document) : List MergeStep :=
  bindings.members.filterMap fun m =>
    (Protocol.ofKey? m.1).map fun p => ⟨p, scope, flatten m.2⟩

/-- The warnings about bindings of an unknown type. -/
def unsupported (opName : String) (bindings : Document) : List Warning :=
  bindings.members.filterMap fun m =>
    if (Protocol.ofKey? m.1).isSome then none
    else some ⟨.partialImport, opName ++ "#bindings." ++ m.1, "unsupported binding type"⟩

/-- What some bindings add at a scope. -/
def Addition.ofBindings (scope : Scope) (opName : String) (bindings : Document) : Addition :=
  ⟨[], mergesOf scope bindings, unsupported opName bindings⟩

theorem mergeBindings_eq (scope : Scope) (bindings : Document) (op : Operation) :
    mergeBindings scope bindings op = (Addition.ofBindings scope op.name bindings).onto op := by
  unfold mergeBindings Addition.ofBindings mergesOf unsupported
  -- Going on with a member changes the operation, but not the name that its warnings have.
  induction bindings.members generalizing op with
  | nil => exact (Addition.onto_sum_nil op).symm
  | cons m ms ih =>
    rw [List.foldlM_cons]
    cases hp : Protocol.ofKey? m.1 with
    | none =>
      apply Noted.ext
      · rw [value_bind, ih]
        simp [hp, Addition.onto]
      · rw [warnings_bind, ih]
        simp [hp, Addition.onto, incomplete]
    | some p =>
      apply Noted.ext
      · rw [value_bind, ih]
        simp [hp, Addition.onto, Bindings.mergeAll]
      · rw [warnings_bind, ih]
        simp [hp, Addition.onto]

/-! ## Messages -/

/-- What a message adds: what its examples record, and its bindings. -/
def Addition.ofMessage (source : Source) (opName : String) (message : Document) : Addition where
  exchanges := (AsyncApi.exchanges source opName message).value
  merges := mergesOf .message (message.get "bindings")
  warnings := (AsyncApi.exchanges source opName message).warnings ++
    unsupported opName (message.get "bindings")

theorem addMessage_eq (source : Source) (op : Operation) (message : Document) :
    addMessage source op message = (Addition.ofMessage source op.name message).onto op := by
  unfold addMessage
  apply Noted.ext
  · rw [value_bind, mergeBindings_eq]
    simp [Addition.onto, Addition.ofBindings, Addition.ofMessage]
  · rw [warnings_bind, mergeBindings_eq]
    rfl

/-- **Messages add the sum of what each adds.** -/
theorem foldlM_addMessage_eq (source : Source) (op : Operation) (ms : List Document) :
    ms.foldlM (addMessage source) op =
      (Addition.sum (ms.map (Addition.ofMessage source op.name))).onto op := by
  induction ms generalizing op with
  | nil => exact (Addition.onto_sum_nil op).symm
  | cons m ms ih =>
    rw [List.foldlM_cons, addMessage_eq, List.map_cons, Addition.sum_cons]
    apply Addition.onto_append
    rw [ih, Addition.name_onto]

/-- The messages that the node of an operation leads to. -/
def messagesOf (source : Source) (node : Document) : List Document :=
  match source.resolve "$ref" (node.get "message") with
  | .error _ => []
  | .ok message =>
    if message.has "oneOf" then
      (message.get "oneOf").items.filterMap fun c => (source.resolve "$ref" c).toOption
    else [message]

/-- The warning about a member of a `oneOf` that leads nowhere. -/
def lostCandidate? (source : Source) (opName : String) (candidate : Document) : Option Warning :=
  match source.resolve "$ref" candidate with
  | .error e => some ⟨.referenceResolution, opName ++ "#oneOf", e.message⟩
  | .ok _ => none

/-- The warnings about messages that are nowhere. -/
def lostMessages (source : Source) (opName : String) (node : Document) : List Warning :=
  match source.resolve "$ref" (node.get "message") with
  | .error e => [⟨.referenceResolution, opName ++ "#message", e.message⟩]
  | .ok message =>
    if message.has "oneOf" then
      (message.get "oneOf").items.filterMap (lostCandidate? source opName)
    else []

theorem alternatives_eq {message : Document} (h : message.has "oneOf" = true) (source : Source)
    (opName : String) :
    alternatives source opName message =
      ⟨(message.get "oneOf").items.filterMap fun c => (source.resolve "$ref" c).toOption,
        (message.get "oneOf").items.filterMap (lostCandidate? source opName)⟩ := by
  rw [alternatives, if_pos h]
  apply Noted.ext
  · rw [value_bind, value_mapM, value_pure, List.filterMap_map]
    congr 1
    funext c
    exact value_orDangling _ _
  · rw [warnings_bind, warnings_mapM, warnings_pure, List.append_nil]
    dsimp only
    rw [List.filterMap_eq_flatMap_toList]
    congr 1
    funext c
    unfold lostCandidate?
    cases source.resolve "$ref" c <;> rfl

/-! ## Operations -/

/-- What is added to an operation that its channel addresses. -/
def Addition.ofOperation (source : Source) (opName : String) (channel node : Document) : Addition :=
  ofBindings .operation opName (node.get "bindings") ++
    (ofBindings .operation opName (channel.get "bindings") ++
      (note (lostMessages source opName node) ++
        sum ((messagesOf source node).map (ofMessage source opName))))

/-- The channel decides on nothing but the dispatcher, the rule and the paths. -/
theorem addressed_eq (verb name : String) (channel : Document) :
    ∃ dispatcher rule paths, addressed verb name channel =
      { Operation.ofPath verb name with
        dispatcher := dispatcher, rule := rule, resourcePaths := paths } := by
  unfold addressed
  split
  · exact ⟨_, _, _, rfl⟩
  · exact ⟨_, _, _, rfl⟩

theorem name_addressed (verb name : String) (channel : Document) :
    (addressed verb name channel).name = Operation.nameOf verb name := by
  obtain ⟨dispatcher, rule, paths, h⟩ := addressed_eq verb name channel
  rw [h]
  rfl

/-- An operation is what its channel addresses, and one addition. -/
theorem operation_eq (source : Source) (name : String) (channel : Document) (verb : String)
    (node : Document) :
    operation source name channel verb node =
      (Addition.ofOperation source (Operation.nameOf verb name) channel node).onto
        (addressed verb name channel) := by
  unfold operation Addition.ofOperation
  rw [← name_addressed verb name channel, mergeBindings_eq]
  apply Addition.onto_append
  rw [mergeBindings_eq, Addition.name_onto]
  apply Addition.onto_append
  simp only [Addition.name_onto]
  -- What was merged before the messages does not matter to them, but for the name.
  generalize hop :
    (Addition.onto _ (Addition.onto _ (addressed verb name channel)).value).value = op
  have hname : (addressed verb name channel).name = op.name := by
    rw [← hop]
    rfl
  rw [hname]
  unfold lostMessages messagesOf
  cases source.resolve "$ref" (node.get "message") with
  | error e =>
    apply Addition.onto_note
    exact (Addition.onto_sum_nil op).symm
  | ok message =>
    rw [orDangling_ok, pure_bind]
    dsimp only
    by_cases h : message.has "oneOf" = true
    · rw [alternatives_eq h, if_pos h, if_pos h]
      apply Addition.onto_note
      exact foldlM_addMessage_eq source op _
    · rw [alternatives, if_neg h, if_neg h, if_neg h]
      apply Addition.onto_note
      exact foldlM_addMessage_eq source op _

theorem exchanges_messages (source : Source) (name : String) (channel : Document) (verb : String)
    (node : Document) :
    (operation source name channel verb node).value.exchanges =
      (messagesOf source node).flatMap fun m =>
        (exchanges source (Operation.nameOf verb name) m).value := by
  obtain ⟨dispatcher, rule, paths, haddressed⟩ := addressed_eq verb name channel
  rw [operation_eq, haddressed]
  simp [Addition.onto, Addition.ofOperation, Addition.ofBindings, Addition.note,
    Addition.ofMessage, Operation.ofPath]

/-- An operation has the bindings of its verb and its channel, refined by those of its messages. -/
theorem bindings_operation (source : Source) (name : String) (channel : Document) (verb : String)
    (node : Document) :
    (operation source name channel verb node).value.bindings =
      .ofSteps (mergesOf .operation (node.get "bindings") ++
        (mergesOf .operation (channel.get "bindings") ++
          (messagesOf source node).flatMap fun m => mergesOf .message (m.get "bindings"))) := by
  obtain ⟨dispatcher, rule, paths, haddressed⟩ := addressed_eq verb name channel
  rw [operation_eq, haddressed]
  simp [Addition.onto, Addition.ofOperation, Addition.ofBindings, Addition.note,
    Addition.ofMessage, Operation.ofPath, Bindings.ofSteps]

end ApiDouble.Import.AsyncApi
