import ApiDouble.Contract.Service
import ApiDouble.Proofs.Collection.SortedMap

/-!
# Names and bindings of operations

**Names.** A service that is built by adding operations (`Service.Built`) has no two of them with a
name in common, as one whose name is taken is not added.

**Histories.** The bindings of an operation come about step by step, each step merging attributes
into the binding of one protocol at one scope (`Bindings.ofSteps`). What concerns a protocol is the
list of its writes (`writesOf`).

**Two precedences.** At the scope of the operation only what is missing is written, so the first
write of a key counts. At the scope of a message the last one counts, and it counts more than any of
the operation, before or after it (`settled?`). The induction on a history starts from any binding:
what it has under a key stands between the writes of messages and those of the operation.

Main results: `Service.Built.nodup`, `Bindings.settled_ofSteps`.
-/

namespace ApiDouble.Service

/-! ## Names -/

theorem operation?_eq_none {s : Service} {name : String} (h : s.operation? name = none) :
    ∀ op ∈ s.operations, op.name ≠ name := by
  intro op hop hname
  have hne := List.find?_eq_none.1 h op hop
  exact hne (beq_iff_eq.2 hname)

theorem isSome_operation?_iff {s : Service} {name : String} :
    (s.operation? name).isSome = true ↔ name ∈ s.operations.map (·.name) := by
  rw [operation?, List.find?_isSome, List.mem_map]
  simp only [beq_iff_eq]

/-- Adding an operation keeps the names different. -/
theorem nodup_addOperation? {s s' : Service} {op : Operation}
    (h : (s.operations.map (·.name)).Nodup) (hs : s.addOperation? op = some s') :
    (s'.operations.map (·.name)).Nodup := by
  unfold addOperation? at hs
  split at hs
  · cases hs
  · next hnew =>
    have hnone : s.operation? op.name = none := by simpa using hnew
    cases hs
    show ((s.operations ++ [op]).map (·.name)).Nodup
    rw [List.map_append, List.nodup_append]
    refine ⟨h, List.pairwise_singleton .., fun name hname name' hname' he => ?_⟩
    obtain ⟨op', hop', rfl⟩ := List.mem_map.1 hname
    obtain rfl := List.mem_singleton.1 hname'
    exact operation?_eq_none hnone op' hop' he

/-- A service whose operations were added one after the other. -/
inductive Built : Service → Prop
  | start {s : Service} (h : s.operations = []) : Built s
  | add {s s' : Service} {op : Operation} (h : Built s) (hs : s.addOperation? op = some s') :
      Built s'

/-- **A service that was built has no two operations of one name.** -/
theorem Built.nodup {s : Service} (h : s.Built) : (s.operations.map (·.name)).Nodup := by
  induction h with
  | start h =>
    rw [h]
    exact .nil
  | add _ hs ih => exact nodup_addOperation? ih hs

end ApiDouble.Service

/-! ## Bindings -/

namespace ApiDouble

/-- One merge into the bindings of an operation. -/
structure MergeStep where
  protocol : Protocol
  scope : Scope
  attributes : List (String × String)

/-- One attribute that is written. -/
structure AttributeWrite where
  scope : Scope
  key : String
  value : String

/-- Bindings after some merges. -/
def Bindings.mergeAll (bs : Bindings) (steps : List MergeStep) : Bindings :=
  steps.foldl (fun bs s => Bindings.merge bs s.protocol s.scope s.attributes) bs

/-- The bindings that an operation gets by some merges. -/
def Bindings.ofSteps (steps : List MergeStep) : Bindings := Bindings.mergeAll .empty steps

namespace MergeStep

/-- What a step writes. -/
def writes (s : MergeStep) : List AttributeWrite :=
  s.attributes.map fun a => ⟨s.scope, a.1, a.2⟩

/-- What some steps write for a protocol, in their order. -/
def writesOf (p : Protocol) (steps : List MergeStep) : List AttributeWrite :=
  (steps.filter fun s => s.protocol = p).flatMap writes

end MergeStep

namespace AttributeWrite

/-- Whether a key is written at a scope. -/
def isAt (scope : Scope) (key : String) (w : AttributeWrite) : Bool :=
  decide (w.scope = scope ∧ w.key = key)

/-- The value that counts after some writes: that of the last write of a message, or else of the
first write of the operation. -/
def settled? (ws : List AttributeWrite) (key : String) : Option String :=
  ((ws.reverse.find? (isAt .message key)).or (ws.find? (isAt .operation key))).map (·.value)

theorem exists_settled?_iff {ws : List AttributeWrite} {key : String} :
    (∃ value, settled? ws key = some value) ↔ ∃ w ∈ ws, w.key = key := by
  unfold settled?
  constructor
  · rintro ⟨value, hvalue⟩
    obtain ⟨w, hw, -⟩ := Option.map_eq_some_iff.1 hvalue
    rcases Option.or_eq_some_iff.1 hw with hlast | ⟨-, hfirst⟩
    · have hat : isAt .message key w = true := List.find?_some hlast
      exact ⟨w, List.mem_reverse.1 (List.mem_of_find?_eq_some hlast), (of_decide_eq_true hat).2⟩
    · have hat : isAt .operation key w = true := List.find?_some hfirst
      exact ⟨w, List.mem_of_find?_eq_some hfirst, (of_decide_eq_true hat).2⟩
  · rintro ⟨w, hw, rfl⟩
    rw [← Option.isSome_iff_exists, Option.isSome_map, Option.isSome_or, Bool.or_eq_true,
      List.find?_isSome, List.find?_isSome]
    cases hscope : w.scope with
    | operation => exact .inr ⟨w, hw, decide_eq_true ⟨hscope, rfl⟩⟩
    | message => exact .inl ⟨w, List.mem_reverse.2 hw, decide_eq_true ⟨hscope, rfl⟩⟩

end AttributeWrite

/-! ### One binding -/

namespace Binding

open AttributeWrite

/-- A binding after some writes. -/
def writeAll (b : Binding) (ws : List AttributeWrite) : Binding :=
  ws.foldl (fun b w => b.write w.scope w.key w.value) b

theorem merge_eq_writeAll (b : Binding) (s : MergeStep) :
    b.merge s.scope s.attributes = b.writeAll s.writes := by
  rw [writeAll, MergeStep.writes, List.foldl_map]
  rfl

@[simp] theorem writeAll_append (b : Binding) (ws vs : List AttributeWrite) :
    b.writeAll (ws ++ vs) = (b.writeAll ws).writeAll vs := List.foldl_append

@[simp] theorem protocol_writeAll (b : Binding) (ws : List AttributeWrite) :
    (b.writeAll ws).protocol = b.protocol := by
  induction ws generalizing b with
  | nil => rfl
  | cons w ws ih => exact ih (b.write w.scope w.key w.value)

theorem get?_write (b : Binding) (w : AttributeWrite) (key : String) :
    (b.write w.scope w.key w.value).attributes.get? key =
      if w.key = key then
        match w.scope with
        | .operation => (b.attributes.get? key).or (some w.value)
        | .message => some w.value
      else b.attributes.get? key := by
  have hkey : compare key w.key = .eq ↔ w.key = key := by
    rw [Std.compare_eq_iff_eq]
    exact eq_comm
  unfold write
  by_cases h : w.key = key
  · cases w.scope with
    | operation =>
      simp only [SortedMap.get?_insertNew, hkey, if_pos h]
      cases b.attributes.get? key <;> rfl
    | message => simp only [SortedMap.get?_insert, hkey, if_pos h]
  · cases w.scope with
    | operation => simp only [SortedMap.get?_insertNew, hkey, if_neg h]
    | message => simp only [SortedMap.get?_insert, hkey, if_neg h]

/-- The value of a key after some writes. -/
theorem get?_writeAll (b : Binding) (ws : List AttributeWrite) (key : String) :
    (b.writeAll ws).attributes.get? key =
      ((ws.reverse.find? (isAt .message key)).map (·.value)).or
        ((b.attributes.get? key).or ((ws.find? (isAt .operation key)).map (·.value))) := by
  induction ws generalizing b with
  | nil => exact Option.or_none.symm
  | cons w ws ih =>
    have hlast : (w :: ws).reverse.find? (isAt .message key) =
        (ws.reverse.find? (isAt .message key)).or
          (if isAt .message key w then some w else none) := by
      rw [List.reverse_cons, List.find?_append, List.find?_singleton]
    show ((b.write w.scope w.key w.value).writeAll ws).attributes.get? key = _
    rw [ih, get?_write, hlast, List.find?_cons, Option.map_or, Option.or_assoc]
    obtain ⟨scope, key', value⟩ := w
    congr 1
    by_cases h : key' = key
    · subst h
      cases scope <;> simp [isAt]
    · simp [isAt, h]

end Binding

/-! ### All bindings -/

namespace Bindings

open MergeStep AttributeWrite

theorem get?_merge (bs : Bindings) (s : MergeStep) (p : Protocol) :
    SortedMap.get? (bs.merge s.protocol s.scope s.attributes) p =
      if s.protocol = p then some (((bs.get? p).getD ⟨p, .empty⟩).writeAll s.writes)
      else bs.get? p := by
  have hcompare : compare p s.protocol = .eq ↔ s.protocol = p := by
    rw [Std.compare_eq_iff_eq]
    exact eq_comm
  rw [merge, SortedMap.get?_insert, Binding.merge_eq_writeAll]
  by_cases h : s.protocol = p
  · rw [if_pos (hcompare.2 h), if_pos h, h]
  · rw [if_neg (mt hcompare.1 h), if_neg h]

/-- The binding of a protocol after some merges has been written to by those of the protocol. -/
theorem get?_mergeAll (bs : Bindings) (steps : List MergeStep) (p : Protocol) :
    SortedMap.get? (bs.mergeAll steps) p =
      if ∃ s ∈ steps, s.protocol = p then
        some (((bs.get? p).getD ⟨p, .empty⟩).writeAll (writesOf p steps))
      else bs.get? p := by
  induction steps generalizing bs with
  | nil => simp [mergeAll]
  | cons s steps ih =>
    show SortedMap.get? (Bindings.mergeAll _ steps) p = _
    rw [ih, get?_merge]
    by_cases hs : s.protocol = p
    · have hoccurs : ∃ t ∈ s :: steps, t.protocol = p := ⟨s, List.mem_cons_self, hs⟩
      have hwrites : writesOf p (s :: steps) = s.writes ++ writesOf p steps := by
        simp [writesOf, hs]
      -- Merges for other protocols write nothing to this one.
      have hnone : (¬∃ t ∈ steps, t.protocol = p) → writesOf p steps = [] := by
        intro hno
        simpa [writesOf] using fun t ht hp => absurd ⟨t, ht, hp⟩ hno
      rw [if_pos hs, if_pos hoccurs, hwrites, Binding.writeAll_append]
      split
      · rfl
      · next hno =>
        rw [hnone hno]
        rfl
    · have hwrites : writesOf p (s :: steps) = writesOf p steps := by simp [writesOf, hs]
      simp only [List.mem_cons, exists_eq_or_imp, hs, if_false, false_or, hwrites]

/-- **The law of merging.** After any merges there are bindings for just the protocols that
occurred. Each is that of its protocol and has just the keys written for it, with the values that
count. Merges for other protocols do not change it. -/
theorem settled_ofSteps (steps : List MergeStep) (p : Protocol) :
    ((∃ b, (ofSteps steps).get? p = some b) ↔ ∃ s ∈ steps, s.protocol = p) ∧
      (∀ b, (ofSteps steps).get? p = some b →
        b.protocol = p ∧
          (∀ key, key ∈ b.attributes.keys ↔ ∃ w ∈ writesOf p steps, w.key = key) ∧
          ∀ key, b.attributes.get? key = settled? (writesOf p steps) key) ∧
      ∀ others : List MergeStep, (∀ s ∈ others, s.protocol ≠ p) →
        (ofSteps (steps ++ others)).get? p = (ofSteps steps).get? p := by
  have hget : (ofSteps steps).get? p = _ := get?_mergeAll .empty steps p
  refine ⟨?_, fun b hb => ?_, fun others hothers => ?_⟩
  · rw [hget]
    split <;> simp_all
  · rw [hget] at hb
    split at hb
    · cases hb
      -- An operation's write counts only if no message has written, which is what `settled?` says.
      have hvalue : ∀ key,
          (Binding.writeAll ⟨p, .empty⟩ (writesOf p steps)).attributes.get? key =
            settled? (writesOf p steps) key := by
        intro key
        rw [Binding.get?_writeAll, settled?, Option.map_or]
        rfl
      refine ⟨Binding.protocol_writeAll _ _, fun key => ?_, hvalue⟩
      rw [SortedMap.mem_keys, ← exists_settled?_iff]
      simp only [← hvalue]
      rfl
    · cases hb
  · have hno : ¬∃ s ∈ others, s.protocol = p := by
      rintro ⟨s, hs, hp⟩
      exact hothers s hs hp
    have happend : ofSteps (steps ++ others) = (ofSteps steps).mergeAll others := List.foldl_append
    rw [happend, get?_mergeAll, if_neg hno]

/-- A message takes an attribute over from the operation, before or after which it is written. -/
example : (ofSteps [⟨.kafka, .operation, [("topic", "orders"), ("clientId", "a"), ("topic", "x")]⟩,
    ⟨.kafka, .message, [("clientId", "b")]⟩, ⟨.amqp, .message, [("topic", "none")]⟩,
    ⟨.kafka, .operation, [("clientId", "c")]⟩]).get? .kafka =
    some ⟨.kafka, .ofList [("topic", "orders"), ("clientId", "b")]⟩ := by decide

end Bindings

end ApiDouble
