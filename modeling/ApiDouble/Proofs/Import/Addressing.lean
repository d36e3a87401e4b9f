import ApiDouble.Proofs.Import.MessageExamples
import ApiDouble.Proofs.Import.ResponseExamples
import ApiDouble.Proofs.Uri.Variables

/-!
# Templates and literal paths

An importer puts the path of an operation down as it stands, unless the quick test says that it has
variables. What comes later, bindings, overrides and examples, does not change that
(`resourcePaths_operation` for both kinds of documents). Calls are read with the variables that
reading the path finds. So the two go together just for the paths that show their variables where
segments start.

Main result: `templated_iff_announced`.
-/

namespace ApiDouble.Import

open Noted Text

/-! ## Channels -/

namespace AsyncApi

/-- How an operation is found: by its variables, or by paths as they stand. -/
def address (op : Operation) : Dispatcher × List String := (op.dispatcher, op.resourcePaths)

/-- Messages and bindings leave the address of an operation alone. -/
theorem address_operation (source : Source) (name : String) (channel : Document) (verb : String)
    (node : Document) :
    address (operation source name channel verb node).value =
      if Uri.hasVariables name then (.uriParts, []) else (.none, [trimmed name]) := by
  have haddressed : address (operation source name channel verb node).value =
      address (addressed verb name channel) := by
    rw [operation_eq]
    rfl
  rw [haddressed]
  unfold addressed
  split <;> rfl

theorem dispatcher_operation_iff (source : Source) (name : String) (channel : Document)
    (verb : String) (node : Document) :
    (operation source name channel verb node).value.dispatcher = .uriParts ↔
      Uri.hasVariables name = true := by
  have h := congrArg Prod.fst (address_operation source name channel verb node)
  rw [show (operation source name channel verb node).value.dispatcher = _ from h]
  split
  · next hyes => exact iff_of_true rfl hyes
  · next hno => exact iff_of_false nofun hno

end AsyncApi

/-! ## Paths -/

namespace OpenApi

theorem resourcePaths_override (extension : Document) (op : Operation) :
    (override extension op).value.resourcePaths = op.resourcePaths := by
  unfold override
  dsimp only
  split
  · rfl
  · split <;> rfl

/-- Overrides and examples put down no paths. -/
theorem resourcePaths_operation (resolve : Resolver) (path verb : String) (node : Document)
    (ps : List Declared) :
    (operation resolve path verb node ps).value.resourcePaths =
      if Uri.hasVariables path then [] else [trimmed path] := by
  have hbare : (operation resolve path verb node ps).value.resourcePaths =
      (override (node.get "x-dispatch") (addressed verb path ps)).value.resourcePaths :=
    (congrArg Operation.resourcePaths (bare_operation resolve path verb node ps) :)
  rw [hbare, resourcePaths_override]
  unfold addressed
  split <;> rfl

theorem resourcePaths_operation_eq_nil_iff (resolve : Resolver) (path verb : String)
    (node : Document) (ps : List Declared) :
    (operation resolve path verb node ps).value.resourcePaths = [] ↔
      Uri.hasVariables path = true := by
  rw [resourcePaths_operation]
  split
  · next hyes => exact iff_of_true rfl hyes
  · next hno => exact iff_of_false nofun hno

end OpenApi

/-! ## Both -/

/-- **A pattern is treated as a template just if it has variables**, whether it is a channel or a
path, if it shows its variables where segments start; else never. -/
theorem templated_iff_announced (pattern : String) :
    ((Uri.hasVariables pattern = true ↔ Uri.variableNames pattern ≠ []) ↔
        Uri.Announced pattern.toList) ∧
      (∀ source channel verb node,
        ((AsyncApi.operation source pattern channel verb node).value.dispatcher = .uriParts ↔
            Uri.variableNames pattern ≠ []) ↔
          Uri.Announced pattern.toList) ∧
      ∀ resolve verb node ps,
        ((OpenApi.operation resolve pattern verb node ps).value.resourcePaths = [] ↔
            Uri.variableNames pattern ≠ []) ↔
          Uri.Announced pattern.toList := by
  refine ⟨Uri.announced_iff.symm, fun source channel verb node => ?_,
    fun resolve verb node ps => ?_⟩
  · rw [AsyncApi.dispatcher_operation_iff, Uri.announced_iff]
  · rw [OpenApi.resourcePaths_operation_eq_nil_iff, Uri.announced_iff]

/-- A brace inside a segment escapes the quick test, and braces without a name deceive it. -/
theorem hasVariables_report :
    ¬(Uri.hasVariables "/files/report-{id}.pdf" = true ↔
        Uri.variableNames "/files/report-{id}.pdf" ≠ []) ∧
      ¬(Uri.hasVariables "/files/{}" = true ↔ Uri.variableNames "/files/{}" ≠ []) := by
  decide +kernel

end ApiDouble.Import
