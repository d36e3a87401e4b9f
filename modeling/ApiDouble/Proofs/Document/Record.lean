import ApiDouble.Document.Record
import ApiDouble.Proofs.Collection.SortedMap

/-!
# Written forms read back

What was written is read as the value that it was written for, if that holds of the parts.

**Collections.** A set and a map are written in their order, so reading them puts nothing in another
place and drops nothing.

**Records.** A reader goes through the fields one by one. What it looks up under a name is what was
written under it, a member that was left out included (`valueOf?_optionalMember`). An optional value
must not be written as `null`, which reads as no value.

Main results: the instances of `LawfulWritten`, `Fields.required_write`, `Fields.orDefault_write`,
`Fields.optional_write`.
-/

namespace ApiDouble

/-! ## Members -/

namespace Document

@[simp] theorem valueOf?_nil (key : String) : valueOf? key [] = none := rfl

@[simp] theorem valueOf?_cons (key name : String) (d : Document) (ms : List (String × Document)) :
    valueOf? key ((name, d) :: ms) = if name = key then some d else valueOf? key ms := rfl

@[simp] theorem valueOf?_append (key : String) (ms ns : List (String × Document)) :
    valueOf? key (ms ++ ns) = (valueOf? key ms).or (valueOf? key ns) := by
  induction ms with
  | nil => rfl
  | cons m ms ih => by_cases h : m.1 = key <;> simp [valueOf?, h, ih]

@[simp] theorem valueOf?_optionalMember {α : Type} [Written α] (key name : String)
    (x : Option α) :
    valueOf? key (optionalMember name x) = if name = key then x.map Written.write else none := by
  cases x <;> simp [optionalMember]

end Document

/-! ## Fields -/

namespace Fields

variable {α : Type} [Written α] [LawfulWritten α] {f : Fields} {name : String}

theorem required_write (x : α) (h : f name = some (Written.write x)) :
    f.required name = some x := by
  simp [required, h, LawfulWritten.read?_write]

theorem orDefault_write (x : α) (h : f name = some (Written.write x)) (value : α) :
    f.orDefault name value = some x := by
  simp [orDefault, h, LawfulWritten.read?_write]

theorem optional_write (x : Option α) (h : f name = x.map Written.write)
    (hnull : ∀ y : α, Written.write y ≠ .null) : f.optional name = some x := by
  unfold optional
  cases x with
  | none => simp [h]
  | some y => simp [h, LawfulWritten.read?_write, hnull]

end Fields

theorem bind_of_eq_some {α β : Type} {x : Option α} {next : α → Option β} {a : α} {r : Option β}
    (h : x = some a) (hnext : next a = r) : x >>= next = r := by
  rw [h]
  exact hnext

/-! ## Collections -/

/-- A map is built again from its own entries. -/
theorem SortedMap.ofList_toList {κ α : Type} [Ord κ] [Std.TransOrd κ] [Std.LawfulEqOrd κ]
    (m : SortedMap κ α) : ofList m.toList = m := by
  apply ext
  intro k
  rw [get?_ofList]
  cases h : m.get? k with
  | none =>
    have hno : ∀ e ∈ m.toList, e.1 ≠ k := findList?_eq_none_iff.1 h
    exact findList?_eq_none_iff.2 fun e he => hno e (List.mem_reverse.1 he)
  | some x =>
    have hmem : (k, x) ∈ m.toList := get?_eq_some_iff.1 h
    refine findList?_eq_some ⟨_, List.mem_reverse.2 hmem, rfl⟩ fun e he hk => ?_
    have he : m.get? e.1 = some e.2 := get?_eq_some_iff.2 (List.mem_reverse.1 he)
    rw [hk, h] at he
    exact (Option.some.inj he).symm

namespace Written

variable {α : Type} [Written α] [LawfulWritten α]

instance : LawfulWritten UInt64 where
  read?_write n := by
    have hlt : (n.toNat : Int) < UInt64.size := Int.ofNat_lt.2 n.toNat_lt_size
    have h : natural? UInt64.size (.ofNat n.toNat) = some n.toNat := by
      rw [Document.ofNat, natural?, if_pos ⟨Int.natCast_nonneg _, hlt⟩, Int.toNat_natCast]
    show (natural? UInt64.size (.ofNat n.toNat)).map UInt64.ofNat = some n
    rw [h, Option.map_some, UInt64.ofNat_toNat]

theorem mapM_read? (xs : List α) : (xs.map write).mapM (read? (α := α)) = some xs := by
  induction xs with
  | nil => rfl
  | cons x xs ih => simp [LawfulWritten.read?_write, ih]

instance : LawfulWritten (List α) := ⟨mapM_read?⟩

instance {β : Type} [Written β] [LawfulWritten β] [Ord β] [Std.TransOrd β] [Std.LawfulEqOrd β] :
    LawfulWritten (SortedSet β) where
  read?_write s := by
    show ((s.toList.map write).mapM read?).map SortedSet.ofList = some s
    rw [mapM_read?, Option.map_some, s.ofList_toList]

theorem mapM_members {κ : Type} (word : κ → String) (key? : String → Option κ)
    (hkey : ∀ k, key? (word k) = some k) (es : List (κ × α)) :
    (es.map fun e => (word e.1, write e.2)).mapM
      (fun m => do return (← key? m.1, ← read? (α := α) m.2)) = some es := by
  induction es with
  | nil => rfl
  | cons e es ih =>
    rw [List.map_cons, List.mapM_cons, ih]
    simp [hkey, LawfulWritten.read?_write]

instance : LawfulWritten (SortedMap String α) where
  read?_write m := by
    refine bind_of_eq_some (mapM_members id some (fun _ => rfl) m.toList) ?_
    rw [m.ofList_toList]
    rfl

end Written

end ApiDouble
