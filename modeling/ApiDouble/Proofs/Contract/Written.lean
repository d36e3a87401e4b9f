import ApiDouble.Contract.Service
import ApiDouble.Proofs.Document.Record
import ApiDouble.Replay.Report

/-!
# Records read back

Every record is read as it was written: headers and parameters, both kinds of exchanges, bindings by
protocol, operations and services, outcomes, steps, cases and whole reports. Each reader takes the
fields in their order, and each step says which field it is about.

Main result: `records_read_back`, from the instances of `LawfulWritten`.
-/

namespace ApiDouble

open Fields

/-! ## Services -/

/-! ### Words -/

instance : LawfulWritten Protocol := ⟨fun p => by cases p <;> rfl⟩

instance : LawfulWritten ServiceKind := ⟨fun k => by cases k <;> rfl⟩

instance : LawfulWritten Dispatcher := ⟨fun d => by cases d <;> rfl⟩

/-! ### Exchanges -/

instance : LawfulWritten Header where
  read?_write h := by
    refine bind_of_eq_some rfl ?_
    refine bind_of_eq_some (required_write h.name rfl) ?_
    refine bind_of_eq_some (required_write h.values rfl) ?_
    rfl

instance : LawfulWritten Parameter where
  read?_write p := by
    refine bind_of_eq_some rfl ?_
    refine bind_of_eq_some (required_write p.name rfl) ?_
    refine bind_of_eq_some (required_write p.value rfl) ?_
    rfl

instance : LawfulWritten Message where
  read?_write m := by
    refine bind_of_eq_some rfl ?_
    refine bind_of_eq_some (required_write m.name rfl) ?_
    refine bind_of_eq_some (optional_write m.content (by simp) nofun) ?_
    refine bind_of_eq_some (optional_write m.mediaType (by simp) nofun) ?_
    refine bind_of_eq_some (orDefault_write m.headers (by simp) []) ?_
    refine bind_of_eq_some (orDefault_write m.parameters (by simp) []) ?_
    rfl

instance : LawfulWritten Response where
  read?_write r := by
    refine bind_of_eq_some rfl ?_
    refine bind_of_eq_some (required_write r.name rfl) ?_
    refine bind_of_eq_some (optional_write r.status (by simp) nofun) ?_
    refine bind_of_eq_some (optional_write r.content (by simp) nofun) ?_
    refine bind_of_eq_some (optional_write r.mediaType (by simp) nofun) ?_
    refine bind_of_eq_some (orDefault_write r.headers (by simp) []) ?_
    rfl

theorem tagged?_object (kind : String) {ms : List (String × Document)}
    (h : ∀ m ∈ ms, m.1 ≠ "kind") :
    Exchange.tagged? (.object (("kind", .string kind) :: ms)) = some (kind, .object ms) := by
  have hrest : ms.filter (·.1 ≠ "kind") = ms :=
    List.filter_eq_self.2 fun m hm => decide_eq_true (h m hm)
  show some (kind, Document.object ((("kind", .string kind) :: ms).filter (·.1 ≠ "kind"))) = _
  rw [List.filter_cons_of_neg (by simp), hrest]

instance : LawfulWritten Exchange where
  read?_write e := by
    cases e with
    | requestResponse request response =>
      refine bind_of_eq_some (tagged?_object "request_response" (by simp)) ?_
      refine bind_of_eq_some rfl ?_
      refine bind_of_eq_some (required_write request rfl) ?_
      refine bind_of_eq_some (required_write response rfl) ?_
      rfl
    | event message =>
      refine bind_of_eq_some (tagged?_object "event" (by simp)) ?_
      refine bind_of_eq_some rfl ?_
      refine bind_of_eq_some (required_write message rfl) ?_
      rfl

/-! ### Bindings -/

instance : LawfulWritten Binding where
  read?_write b := by
    refine bind_of_eq_some rfl ?_
    refine bind_of_eq_some (required_write b.protocol rfl) ?_
    refine bind_of_eq_some (orDefault_write b.attributes rfl .empty) ?_
    rfl

theorem Protocol.find?_word (p : Protocol) : all.find? (·.word == p.word) = some p := by
  cases p <;> rfl

instance : LawfulWritten Bindings where
  read?_write bs := by
    have hmembers := Written.mapM_members Protocol.word
      (fun word => Protocol.all.find? (·.word == word)) Protocol.find?_word bs.toList
    refine bind_of_eq_some hmembers ?_
    rw [bs.ofList_toList]
    rfl

/-! ### Operations and services -/

instance : LawfulWritten Operation where
  read?_write op := by
    refine bind_of_eq_some rfl ?_
    refine bind_of_eq_some (required_write op.name rfl) ?_
    refine bind_of_eq_some (required_write op.method rfl) ?_
    refine bind_of_eq_some (orDefault_write op.dispatcher rfl .none) ?_
    refine bind_of_eq_some (optional_write op.rule (by simp) nofun) ?_
    refine bind_of_eq_some (orDefault_write op.resourcePaths (by simp) []) ?_
    refine bind_of_eq_some (orDefault_write op.bindings (by simp) .empty) ?_
    refine bind_of_eq_some (optional_write op.fallback (by simp) nofun) ?_
    refine bind_of_eq_some (orDefault_write op.exchanges (by simp) []) ?_
    rfl

instance : LawfulWritten ServiceKey where
  read?_write k := by
    refine bind_of_eq_some rfl ?_
    refine bind_of_eq_some (required_write k.name rfl) ?_
    refine bind_of_eq_some (required_write k.version rfl) ?_
    rfl

instance : LawfulWritten Service where
  read?_write s := by
    refine bind_of_eq_some rfl ?_
    refine bind_of_eq_some (required_write s.name rfl) ?_
    refine bind_of_eq_some (required_write s.version rfl) ?_
    refine bind_of_eq_some (required_write s.kind rfl) ?_
    refine bind_of_eq_some (orDefault_write s.operations rfl []) ?_
    rfl

/-! ## Reports -/

instance : LawfulWritten RunnerKind := ⟨fun k => by cases k <;> rfl⟩

instance : LawfulWritten Verdict := ⟨fun v => by cases v <;> rfl⟩

instance : LawfulWritten Outcome where
  read?_write o := by
    refine bind_of_eq_some rfl ?_
    refine bind_of_eq_some (required_write o.verdict rfl) ?_
    refine bind_of_eq_some (required_write o.elapsed rfl) ?_
    refine bind_of_eq_some (optional_write o.message (by simp) nofun) ?_
    refine bind_of_eq_some (required_write o.request (by simp)) ?_
    refine bind_of_eq_some (optional_write o.response (by simp) nofun) ?_
    rfl

instance : LawfulWritten StepReport where
  read?_write s := by
    refine bind_of_eq_some rfl ?_
    refine bind_of_eq_some (required_write s.requestName rfl) ?_
    refine bind_of_eq_some (required_write s.success rfl) ?_
    refine bind_of_eq_some (orDefault_write s.skipped rfl false) ?_
    refine bind_of_eq_some (required_write s.elapsed rfl) ?_
    refine bind_of_eq_some (optional_write s.message (by simp) nofun) ?_
    rfl

instance : LawfulWritten CaseReport where
  read?_write c := by
    refine bind_of_eq_some rfl ?_
    refine bind_of_eq_some (required_write c.operation rfl) ?_
    refine bind_of_eq_some (required_write c.success rfl) ?_
    refine bind_of_eq_some (required_write c.elapsed rfl) ?_
    refine bind_of_eq_some (orDefault_write c.steps rfl []) ?_
    rfl

instance : LawfulWritten HeaderOverrides where
  read?_write h := by
    refine bind_of_eq_some rfl ?_
    refine bind_of_eq_some (orDefault_write h.globals rfl []) ?_
    refine bind_of_eq_some (orDefault_write h.operations rfl .empty) ?_
    rfl

instance : LawfulWritten TestReport where
  read?_write r := by
    refine bind_of_eq_some rfl ?_
    refine bind_of_eq_some (required_write r.id rfl) ?_
    refine bind_of_eq_some (required_write r.service rfl) ?_
    refine bind_of_eq_some (required_write r.endpoint rfl) ?_
    refine bind_of_eq_some (required_write r.runner rfl) ?_
    refine bind_of_eq_some (required_write r.success rfl) ?_
    refine bind_of_eq_some (required_write r.inProgress rfl) ?_
    refine bind_of_eq_some (required_write r.elapsed rfl) ?_
    refine bind_of_eq_some (orDefault_write r.overrides rfl .none) ?_
    refine bind_of_eq_some (orDefault_write r.cases rfl []) ?_
    rfl

/-- **Services, outcomes and reports are read as they were written**, whatever they hold. -/
theorem records_read_back :
    (∀ s : Service, Written.read? (Written.write s) = some s) ∧
    (∀ o : Outcome, Written.read? (Written.write o) = some o) ∧
    (∀ r : TestReport, Written.read? (Written.write r) = some r) :=
  ⟨LawfulWritten.read?_write, LawfulWritten.read?_write, LawfulWritten.read?_write⟩

end ApiDouble
