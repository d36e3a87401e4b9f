import ApiDouble.Proofs.Collection.Lists
import ApiDouble.Proofs.Collection.SortedMap
import ApiDouble.Replay.Testbed
import Mathlib.Data.List.Induction

/-!
# The law of cancellation

Tokens are asked to register, to cancel and to remove ids, in any order and for any ids (`Order`,
`run`). An id may be registered again while runs that were registered under it before go on with
their older tokens.

**Who holds a token** is told by the orders alone: an id holds the token of its last registration
until it is registered, cancelled or removed again (`Holds`). A token is hit by a cancellation of
the id that holds it (`IsHit`).

**The invariant** (`Sound`). What runs under an id is the token that it holds, and the tokens that
are cancelled are those that were hit. Every registration gives out a token of its own
(`eq_of_given_eq`), so nobody else's token is ever reached.

Main result: `cancellation_of_run`.
-/

namespace ApiDouble.Replay.Tokens

/-! ## Orders -/

/-- What can be asked of the tokens. -/
inductive Order
  | register (id : String)
  | cancel (id : String)
  | remove (id : String)
deriving DecidableEq

def Order.id : Order → String
  | register id | cancel id | remove id => id

def perform (r : Tokens) : Order → Tokens
  | .register id => (r.register id).2
  | .cancel id => (r.cancel id).2
  | .remove id => r.remove id

/-- The tokens after some orders. -/
def run (orders : List Order) : Tokens := orders.foldl perform {}

/-- The token that a registration gives out after some orders. -/
def given (before : List Order) (id : String) : Token := ((run before).register id).1

variable {orders before after : List Order} {o : Order} {id id' : String} {t t' : Token}
  {r : Tokens}

theorem run_append (orders orders' : List Order) :
    run (orders ++ orders') = orders'.foldl perform (run orders) := List.foldl_append

theorem run_concat (orders : List Order) (o : Order) :
    run (orders ++ [o]) = (run orders).perform o := run_append orders [o]

/-! ## Tokens given out -/

theorem number_given (before : List Order) (id : String) :
    (given before id).number = (run before).issued := rfl

theorem issued_cancel (r : Tokens) (id : String) : (r.cancel id).2.issued = r.issued := by
  unfold cancel
  cases r.running.get? id <;> rfl

theorem issued_le_perform (r : Tokens) (o : Order) : r.issued ≤ (r.perform o).issued := by
  cases o with
  | register id => exact Nat.le_succ _
  | cancel id => exact Nat.le_of_eq (issued_cancel r id).symm
  | remove id => exact Nat.le_refl _

theorem issued_le_run (orders orders' : List Order) :
    (run orders).issued ≤ (run (orders ++ orders')).issued := by
  induction orders' generalizing orders with
  | nil => exact Nat.le_of_eq (congrArg (fun os => (run os).issued) (List.append_nil orders).symm)
  | cons o orders' ih =>
    have hstep : (run orders).issued ≤ (run (orders ++ [o])).issued := by
      rw [run_concat]
      exact issued_le_perform _ o
    rw [List.append_cons]
    exact Nat.le_trans hstep (ih (orders ++ [o]))

theorem number_given_lt (before after : List Order) (id : String) :
    (given before id).number < (run (before ++ .register id :: after)).issued := by
  have hnext : (run (before ++ [.register id])).issued = (run before).issued + 1 := by
    rw [run_concat]
    rfl
  have hle := issued_le_run (before ++ [.register id]) after
  rw [hnext, ← List.append_cons] at hle
  exact hle

/-- Every registration gives out a token of its own. -/
theorem eq_of_given_eq {before' after' : List Order}
    (h : before ++ .register id :: after = before' ++ .register id' :: after')
    (hgiven : given before id = given before' id') : before = before' := by
  have hnumber : (run before).issued = (run before').issued := congrArg Token.number hgiven
  rcases List.append_eq_append_iff.1 h with ⟨rest, rfl, hrest⟩ | ⟨rest, rfl, hrest⟩
  · cases rest with
    | nil => exact (List.append_nil _).symm
    | cons o rest =>
      obtain ⟨rfl, -⟩ := List.cons.inj hrest
      have hlt := number_given_lt before rest id
      rw [number_given] at hlt
      omega
  · cases rest with
    | nil => exact List.append_nil _
    | cons o rest =>
      obtain ⟨rfl, -⟩ := List.cons.inj hrest
      have hlt := number_given_lt before' rest id'
      rw [number_given] at hlt
      omega

/-! ## Who holds a token -/

/-- The last order about an id is the registration that gave out the token. -/
def Holds (orders : List Order) (id : String) (t : Token) : Prop :=
  ∃ before after, orders = before ++ .register id :: after ∧ t = given before id ∧
    ∀ o ∈ after, o.id ≠ id

/-- An id was cancelled that held the token. -/
def IsHit (orders : List Order) (t : Token) : Prop :=
  ∃ before id after, orders = before ++ .cancel id :: after ∧ Holds before id t

/-- An id was registered, and not cancelled or removed since. -/
def IsPending (orders : List Order) (id : String) : Prop :=
  ∃ before after, orders = before ++ .register id :: after ∧ .cancel id ∉ after ∧
    .remove id ∉ after

theorem not_holds_nil : ¬Holds [] id t := by
  rintro ⟨before, after, h, -⟩
  simp at h

/-- One more order: it registers the id, or it is about another one. -/
theorem holds_concat_iff : Holds (orders ++ [o]) id t ↔
    (o = .register id ∧ t = given orders id) ∨ (o.id ≠ id ∧ Holds orders id t) := by
  constructor
  · rintro ⟨before, after, h, rfl, hafter⟩
    rcases append_singleton_eq_append_cons h with ⟨rfl, ho⟩ | ⟨after', rfl, rfl⟩
    · exact .inl ⟨ho.symm, rfl⟩
    · rw [List.forall_mem_append, List.forall_mem_singleton] at hafter
      exact .inr ⟨hafter.2, before, after', rfl, rfl, hafter.1⟩
  · rintro (⟨rfl, rfl⟩ | ⟨ho, before, after, rfl, rfl, hafter⟩)
    · exact ⟨orders, [], rfl, rfl, by simp⟩
    · refine ⟨before, after ++ [o], by simp, rfl, ?_⟩
      rw [List.forall_mem_append, List.forall_mem_singleton]
      exact ⟨hafter, ho⟩

/-- One more order: it cancels the id that holds the token, or the token was hit before. -/
theorem isHit_concat_iff : IsHit (orders ++ [o]) t ↔
    IsHit orders t ∨ ∃ id, o = .cancel id ∧ Holds orders id t := by
  constructor
  · rintro ⟨before, id, after, h, hholds⟩
    rcases append_singleton_eq_append_cons h with ⟨rfl, ho⟩ | ⟨after', rfl, rfl⟩
    · exact .inr ⟨id, ho.symm, hholds⟩
    · exact .inl ⟨before, id, after', rfl, hholds⟩
  · rintro (⟨before, id, after, rfl, hholds⟩ | ⟨id, rfl, hholds⟩)
    · exact ⟨before, id, after ++ [o], by simp, hholds⟩
    · exact ⟨orders, id, [], rfl, hholds⟩

theorem isPending_concat_iff : IsPending (orders ++ [o]) id ↔
    o = .register id ∨ (o ≠ .cancel id ∧ o ≠ .remove id ∧ IsPending orders id) := by
  constructor
  · rintro ⟨before, after, h, hcancel, hremove⟩
    rcases append_singleton_eq_append_cons h with ⟨rfl, ho⟩ | ⟨after', rfl, rfl⟩
    · exact .inl ho.symm
    · simp only [List.mem_append, List.mem_singleton, not_or] at hcancel hremove
      exact .inr ⟨Ne.symm hcancel.2, Ne.symm hremove.2, before, after', rfl, hcancel.1, hremove.1⟩
  · rintro (rfl | ⟨hcancel, hremove, before, after, rfl, hcancel', hremove'⟩)
    · exact ⟨orders, [], rfl, List.not_mem_nil, List.not_mem_nil⟩
    · refine ⟨before, after ++ [o], by simp, ?_, ?_⟩
      · simp [hcancel', Ne.symm hcancel]
      · simp [hremove', Ne.symm hremove]

/-- An id holds a token just if it is pending: an older registration counts as long as nothing but
registrations came after it, and then the latest of these is the one. -/
theorem exists_holds_iff : (∃ t, Holds orders id t) ↔ IsPending orders id := by
  -- From the end, as an order decides on what the orders before it have left.
  induction orders using List.reverseRecOn with
  | nil =>
    refine iff_of_false (fun h => not_holds_nil h.choose_spec) ?_
    rintro ⟨before, after, h, -⟩
    simp at h
  | append_singleton orders o ih =>
    simp only [holds_concat_iff, exists_or, exists_and_left, exists_eq, and_true]
    rw [ih, isPending_concat_iff]
    refine or_congr_right' fun hregister => ?_
    rw [← and_assoc]
    refine and_congr_left fun _ => ?_
    cases o <;> simp_all [Order.id]

/-! ## One order -/

/-- What an order leaves under its id: a registration a new token, and the others nothing. -/
def Order.leaves? (r : Tokens) : Order → Option Token
  | register _ => some ⟨r.issued⟩
  | cancel _ | remove _ => none

theorem get?_cancel (r : Tokens) (id id' : String) :
    (r.cancel id).2.running.get? id' = if id' = id then none else r.running.get? id' := by
  unfold cancel
  cases hid : r.running.get? id with
  | some t =>
    show (r.running.erase id).get? id' = _
    rw [SortedMap.get?_erase]
    simp only [Std.compare_eq_iff_eq]
  | none =>
    show r.running.get? id' = _
    split
    · next h => rw [h, hid]
    · rfl

/-- An order changes what is under its own id only. -/
theorem get?_perform (r : Tokens) (o : Order) (id : String) :
    (r.perform o).running.get? id =
      if id = o.id then o.leaves? r else r.running.get? id := by
  cases o with
  | register id' =>
    show (r.running.insert id' ⟨r.issued⟩).get? id = _
    rw [SortedMap.get?_insert]
    simp only [Std.compare_eq_iff_eq]
    rfl
  | cancel id' => exact get?_cancel r id' id
  | remove id' =>
    show (r.running.erase id').get? id = _
    rw [SortedMap.get?_erase]
    simp only [Std.compare_eq_iff_eq]
    rfl

/-- An order cancels at most the token under its id, and only if it is a cancellation. -/
theorem isCancelled_perform_iff : (r.perform o).isCancelled t = true ↔
    r.isCancelled t = true ∨ ∃ id, o = .cancel id ∧ r.running.get? id = some t := by
  cases o with
  | register id => simp [perform, register, issue, isCancelled]
  | remove id => simp [perform, remove, isCancelled]
  | cancel id =>
    simp only [perform, cancel, Order.cancel.injEq, exists_eq_left']
    cases r.running.get? id with
    | none => simp
    | some t' =>
      show (t' :: r.cancelled).contains t = true ↔ r.cancelled.contains t = true ∨ some t' = some t
      rw [List.contains_iff_mem, List.contains_iff_mem, List.mem_cons, Option.some_inj, or_comm,
        eq_comm]

theorem fst_cancel_iff : (r.cancel id).1 = true ↔ ∃ t, r.running.get? id = some t := by
  unfold cancel
  cases r.running.get? id <;> simp

/-! ## The invariant -/

/-- What the orders so far say of the tokens. -/
structure Sound (orders : List Order) (r : Tokens) : Prop where
  running : ∀ id t, r.running.get? id = some t ↔ Holds orders id t
  cancelled : ∀ t, r.isCancelled t = true ↔ IsHit orders t

theorem sound_nil : Sound [] {} where
  running id t := iff_of_false nofun not_holds_nil
  cancelled t := by
    refine iff_of_false (by simp [isCancelled]) ?_
    rintro ⟨before, id, after, h, -⟩
    simp at h

/-- One order keeps the invariant. -/
theorem Sound.concat (h : Sound orders (run orders)) (o : Order) :
    Sound (orders ++ [o]) (run (orders ++ [o])) where
  running id t := by
    rw [run_concat, get?_perform, holds_concat_iff]
    split
    · next hid =>
      subst hid
      cases o <;> simp [Order.leaves?, Order.id, given, register, issue, eq_comm]
    · next hid =>
      rw [h.running, and_iff_right (Ne.symm hid), or_iff_right]
      rintro ⟨rfl, -⟩
      exact hid rfl
  cancelled t := by
    rw [run_concat, isCancelled_perform_iff, isHit_concat_iff, h.cancelled]
    simp only [h.running]

/-- The invariant holds after all orders. -/
theorem sound_run (orders : List Order) : Sound orders (run orders) := by
  induction orders using List.reverseRecOn with
  | nil => exact sound_nil
  | append_singleton orders o ih => exact ih.concat o

theorem Holds.unique (h : Holds orders id t) (h' : Holds orders id t') : t = t' := by
  rw [← (sound_run orders).running] at h h'
  exact Option.some.inj (h.symm.trans h')

theorem IsHit.append (h : IsHit orders t) (orders' : List Order) : IsHit (orders ++ orders') t := by
  obtain ⟨before, id, after, rfl, hholds⟩ := h
  exact ⟨before, id, after ++ orders', by simp, hholds⟩

/-! ## Main result -/

/-- **The law of cancellation.** After any orders, an id can be cancelled just if it was registered
and not cancelled or removed since. That cancels the one token that the id holds, the one of its
last registration, and no other. The tokens that are cancelled are those that were hit in this way;
they stay cancelled, and no two registrations gave out the same one. -/
theorem cancellation_of_run (orders : List Order) :
    (∀ id, ((run orders).cancel id).1 = true ↔ IsPending orders id) ∧
    (∀ id, IsPending orders id → ∃! t, Holds orders id t) ∧
    (∀ o t, (run (orders ++ [o])).isCancelled t = true ↔
      (run orders).isCancelled t = true ∨ ∃ id, o = .cancel id ∧ Holds orders id t) ∧
    (∀ t, (run orders).isCancelled t = true ↔ IsHit orders t) ∧
    (∀ orders' t, (run orders).isCancelled t = true →
      (run (orders ++ orders')).isCancelled t = true) ∧
    ∀ before id after before' id' after', orders = before ++ .register id :: after →
      orders = before' ++ .register id' :: after' → given before id = given before' id' →
        before = before' := by
  have hsound := sound_run orders
  refine ⟨fun id => ?_, fun id hpending => ?_, fun o t => ?_, hsound.cancelled,
    fun orders' t ht => ?_, fun before id after before' id' after' h h' hgiven => ?_⟩
  · rw [fst_cancel_iff, ← exists_holds_iff]
    simp only [hsound.running]
  · obtain ⟨t, ht⟩ := exists_holds_iff.2 hpending
    exact ⟨t, ht, fun t' ht' => ht'.unique ht⟩
  · rw [run_concat, isCancelled_perform_iff]
    simp only [hsound.running]
  · rw [hsound.cancelled] at ht
    rw [(sound_run (orders ++ orders')).cancelled]
    exact ht.append orders'
  · exact eq_of_given_eq (h.symm.trans h') hgiven

/-- A test is launched again under its id while its older run goes on, and is cancelled: the newer
run is reached and the older one is not. -/
theorem cancellation_of_ping :
    let orders : List Order := [.register "ping", .register "ping"]
    IsPending orders "ping" ∧ (∃! t, Holds orders "ping" t) ∧
      (run (orders ++ [.cancel "ping"])).isCancelled ⟨1⟩ = true ∧
      (run (orders ++ [.cancel "ping"])).isCancelled ⟨0⟩ = false ∧
      (run (orders ++ [.cancel "ping"] ++ [.register "ping", .remove "ping"])).isCancelled ⟨1⟩ =
        true := by
  intro orders
  have hpending : IsPending orders "ping" := ⟨[.register "ping"], [], rfl, by simp, by simp⟩
  obtain ⟨hanswer, hholds, -⟩ := cancellation_of_run orders
  obtain ⟨-, -, -, -, hstays, -⟩ := cancellation_of_run (orders ++ [.cancel "ping"])
  exact ⟨hpending, hholds "ping" hpending, by decide, by decide, hstays _ _ (by decide)⟩

end ApiDouble.Replay.Tokens
