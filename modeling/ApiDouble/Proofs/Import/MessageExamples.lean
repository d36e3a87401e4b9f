import ApiDouble.Proofs.Import.Additions
import Mathlib.Data.List.Flatten

/-!
# Examples of messages

**Entries.** An operation of a channel takes its exchanges from the examples of its messages, which
are those of a `oneOf` that can be followed, or else the one message (`messagesOf`). Each entry of
such a list is one example, or it has one under each of its keys.

**What becomes of an entry** (`Entry.recorded`). Every example in it is recorded as an exchange, or
a warning says why not. The operation has the exchanges of all entries in order, and no warning is
lost (`exchanges_operation`, `warnings_operation`). So an entry that has a key leaves a trace, but
one that has none vanishes: there is no example in it that a warning could name
(`examples_accounted`, `examples_orders`).

Main results: `name_operation`, `exchanges_operation`, `warnings_operation`, `examples_accounted`.
-/

namespace ApiDouble.Import.AsyncApi

open Text Noted

variable {source : Source} {opName : String}

/-! ## Entries -/

/-- An entry in the list of examples of a message. -/
structure Entry where
  message : Document
  index : Nat
  node : Document

namespace Entry

def ofMessage (message : Document) : List Entry :=
  (message.get "examples").items.zipIdx.map fun e => ⟨message, e.2, e.1⟩

def contentType (source : Source) (e : Entry) : String :=
  (e.message.get "contentType").string?.getD source.contentType

/-- The examples in an entry, with their names. -/
def examples (e : Entry) : List (String × Document) := namedExamples e.message e.index e.node

/-- What becomes of an entry: the exchanges that it records, and the warnings about it. -/
def recorded (source : Source) (opName : String) (e : Entry) : Noted (List Exchange) := do
  return (← e.examples.mapM (exchange? source opName (e.contentType source))).filterMap id

end Entry

/-- The entries of all messages of an operation. -/
def entriesOf (source : Source) (node : Document) : List Entry :=
  (messagesOf source node).flatMap Entry.ofMessage

/-! ## One example -/

theorem startsWith_unit (opName rest : String) :
    opName.toList <+: (opName ++ "#" ++ rest).toList := by
  rw [String.toList_append, String.toList_append, List.append_assoc]
  exact List.prefix_append _ _

theorem unit_of_mem_headers {unit : String} {entry : Document} {w : Warning}
    (hw : w ∈ (headers unit entry).warnings) : w.unit = unit ++ "#headers" := by
  unfold headers at hw
  split at hw
  · exact absurd hw List.not_mem_nil
  · exact absurd hw List.not_mem_nil
  · split at hw
    · exact absurd hw List.not_mem_nil
    · rw [List.mem_singleton.1 hw]
  · rw [List.mem_singleton.1 hw]

/-- An example is recorded, or a warning names it. -/
theorem exchange?_reported (source : Source) (opName contentType : String)
    (named : String × Document) :
    (∃ e, (exchange? source opName contentType named).value = some e ∧ e.name = named.1) ∨
      ∃ w ∈ (exchange? source opName contentType named).warnings,
        w.unit = opName ++ "#" ++ named.1 := by
  unfold exchange?
  cases payload? source named.2 with
  | error e => exact .inr ⟨_, List.mem_singleton.2 rfl, rfl⟩
  | ok p =>
    cases p with
    | none => exact .inr ⟨_, List.mem_singleton.2 rfl, rfl⟩
    | some p => exact .inl ⟨_, rfl, rfl⟩

theorem startsWith_of_mem_exchange? {contentType : String} {named : String × Document} {w : Warning}
    (hw : w ∈ (exchange? source opName contentType named).warnings) :
    opName.toList <+: w.unit.toList := by
  unfold exchange? at hw
  cases hp : payload? source named.2 with
  | error e =>
    rw [hp] at hw
    rw [List.mem_singleton.1 hw]
    exact startsWith_unit opName named.1
  | ok p =>
    rw [hp] at hw
    cases p with
    | none =>
      rw [List.mem_singleton.1 hw]
      exact startsWith_unit opName named.1
    | some p =>
      have hw : w ∈ (headers (opName ++ "#" ++ named.1) named.2).warnings := by simpa using hw
      rw [unit_of_mem_headers hw, String.toList_append]
      exact (startsWith_unit opName named.1).trans (List.prefix_append _ _)

/-! ## One entry -/

theorem examples_eq_nil_iff {e : Entry} : e.examples = [] ↔ e.node.members = [] := by
  unfold Entry.examples namedExamples
  split
  · next hany =>
    refine iff_of_false (List.cons_ne_nil _ _) fun hnil => ?_
    rw [hnil] at hany
    cases hany
  · exact Iff.rfl

theorem value_recorded (source : Source) (opName : String) (e : Entry) :
    (e.recorded source opName).value =
      e.examples.filterMap fun n => (exchange? source opName (e.contentType source) n).value := by
  rw [Entry.recorded, value_bind, value_mapM, value_pure, List.filterMap_map]
  rfl

theorem warnings_recorded (source : Source) (opName : String) (e : Entry) :
    (e.recorded source opName).warnings =
      e.examples.flatMap fun n => (exchange? source opName (e.contentType source) n).warnings := by
  rw [Entry.recorded, warnings_bind, warnings_mapM, warnings_pure, List.append_nil]

/-- An entry leaves no trace just if it has no members. -/
theorem recorded_eq_nil_iff (source : Source) (opName : String) (e : Entry) :
    (e.recorded source opName).value = [] ∧ (e.recorded source opName).warnings = [] ↔
      e.node.members = [] := by
  rw [← examples_eq_nil_iff, value_recorded, warnings_recorded]
  cases e.examples with
  | nil => exact iff_of_true ⟨rfl, rfl⟩ rfl
  | cons named rest =>
    refine iff_of_false ?_ (List.cons_ne_nil _ _)
    rintro ⟨hvalue, hwarnings⟩
    obtain ⟨e', he', -⟩ | ⟨w, hw, -⟩ :=
      exchange?_reported source opName (e.contentType source) named
    · rw [List.filterMap_cons, he'] at hvalue
      cases hvalue
    · rw [List.flatMap_cons, List.append_eq_nil_iff] at hwarnings
      rw [hwarnings.1] at hw
      cases hw

theorem startsWith_of_mem_recorded {e : Entry} {w : Warning}
    (hw : w ∈ (e.recorded source opName).warnings) : opName.toList <+: w.unit.toList := by
  rw [warnings_recorded] at hw
  obtain ⟨named, -, hw⟩ := List.mem_flatMap.1 hw
  exact startsWith_of_mem_exchange? hw

/-! ## Messages -/

theorem value_exchanges (source : Source) (opName : String) (message : Document) :
    (exchanges source opName message).value =
      (Entry.ofMessage message).flatMap fun e => (e.recorded source opName).value := by
  simp only [value_recorded]
  rw [Entry.ofMessage, List.flatMap_map]
  unfold exchanges
  rw [value_bind, value_mapM, value_pure, List.filterMap_map, ← List.flatMap_def,
    List.filterMap_flatMap]
  rfl

theorem warnings_exchanges (source : Source) (opName : String) (message : Document) :
    (exchanges source opName message).warnings =
      (Entry.ofMessage message).flatMap fun e => (e.recorded source opName).warnings := by
  simp only [warnings_recorded]
  rw [Entry.ofMessage, List.flatMap_map]
  unfold exchanges
  rw [warnings_bind, warnings_mapM, warnings_pure, List.append_nil, ← List.flatMap_def,
    List.flatMap_assoc]
  rfl

/-! ## Operations -/

/-- **An operation is named by its verb and its channel.** -/
theorem name_operation (source : Source) (name : String) (channel : Document) (verb : String)
    (node : Document) :
    (operation source name channel verb node).value.name = Operation.nameOf verb name := by
  rw [operation_eq, Addition.name_onto, name_addressed]

/-- **An operation has what its entries record, in order.** -/
theorem exchanges_operation (source : Source) (name : String) (channel : Document) (verb : String)
    (node : Document) :
    (operation source name channel verb node).value.exchanges =
      (entriesOf source node).flatMap fun e =>
        (e.recorded source (Operation.nameOf verb name)).value := by
  rw [exchanges_messages, entriesOf, List.flatMap_assoc]
  simp only [value_exchanges]

/-- **No warning about an entry is lost.** -/
theorem warnings_operation (source : Source) (name : String) (channel : Document) (verb : String)
    (node : Document) :
    ((entriesOf source node).flatMap fun e =>
        (e.recorded source (Operation.nameOf verb name)).warnings).Sublist
      (operation source name channel verb node).warnings := by
  rw [operation_eq, entriesOf, List.flatMap_assoc]
  simp only [← warnings_exchanges]
  have hmessages : ((messagesOf source node).flatMap fun m =>
        (exchanges source (Operation.nameOf verb name) m).warnings).Sublist
      (Addition.sum ((messagesOf source node).map
        (Addition.ofMessage source (Operation.nameOf verb name)))).warnings := by
    rw [Addition.warnings_sum_map]
    exact List.Sublist.flatMap_right _ fun m _ => List.sublist_append_left _ _
  apply hmessages.trans
  apply (List.sublist_append_right _ _).trans
  apply (List.sublist_append_right _ _).trans
  exact List.sublist_append_right _ _

/-- **Every entry with a member is accounted for**: by an exchange of the operation, or by a warning
that starts with the operation's name. One without members is dropped in silence. -/
theorem examples_accounted (source : Source) (name : String) (channel : Document) (verb : String)
    (node : Document) :
    let built := operation source name channel verb node
    built.value.exchanges =
        (entriesOf source node).flatMap (fun e => (e.recorded source built.value.name).value) ∧
      ((entriesOf source node).flatMap fun e =>
        (e.recorded source built.value.name).warnings).Sublist built.warnings ∧
      ∀ e ∈ entriesOf source node,
        ((e.recorded source built.value.name).value = [] ∧
            (e.recorded source built.value.name).warnings = [] ↔
          e.node.members = []) ∧
        ∀ w ∈ (e.recorded source built.value.name).warnings,
          built.value.name.toList <+: w.unit.toList := by
  intro built
  have hname : built.value.name = Operation.nameOf verb name :=
    name_operation source name channel verb node
  rw [hname]
  refine ⟨exchanges_operation source name channel verb node,
    warnings_operation source name channel verb node, fun e _ => ⟨?_, fun w hw => ?_⟩⟩
  · exact recorded_eq_nil_iff source _ e
  · exact startsWith_of_mem_recorded hw

/-- A document whose only example is a text, without the payload's key. -/
def orders : Document := .object [("info", .object [("title", .string "Orders")]),
  ("channels", .object [("orders", .object [("publish", .object [("message",
    .object [("examples", .array [.string "an order"])])])])])]

/-- **An example that is no object vanishes without a warning.** -/
theorem examples_orders :
    (service {} orders).toOption.map (fun outcome =>
        (outcome.value.operations.map fun op => (op.name, op.exchanges), outcome.warnings)) =
      some ([("PUBLISH orders", [])], []) := by
  decide +kernel

end ApiDouble.Import.AsyncApi
