import SiblingStore.Proofs.Clock.Order

/-!
# Clocks as a join semilattice

Merging is the join of clocks. Merged in any order and any grouping they give one and the
same clock, down to its entries of zero, and that clock is the least of those that dominate
or equal each of them. Comparing looks only at writers with an entry and yet tells how the
counters of all writers stand.
-/

namespace SiblingStore

/-- How two clocks stand to each other when they are taken the other way round. -/
def Causality.converse : Causality → Causality
  | .equal => .equal
  | .dominates => .dominatedBy
  | .dominatedBy => .dominates
  | .concurrent => .concurrent

namespace Clock

/-! ## Dominating or being equal -/

/-- Whether a clock dominates another or is equal to it. -/
def Descends (a b : Clock) : Prop := a.compare b = .dominates ∨ a.compare b = .equal

instance (a b : Clock) : Decidable (a.Descends b) := inferInstanceAs (Decidable (_ ∨ _))

variable {a b c : Clock}

theorem descends_iff : a.Descends b ↔ b ≤ a := by
  rw [Descends, compare_eq_dominates_iff, compare_eq_equal_iff, lt_iff_le_not_ge]
  tauto

theorem Descends.refl (a : Clock) : a.Descends a := descends_iff.2 le_rfl

theorem Descends.trans (hab : a.Descends b) (hbc : b.Descends c) : a.Descends c :=
  descends_iff.2 ((descends_iff.1 hbc).trans (descends_iff.1 hab))

theorem compare_swap (a b : Clock) : b.compare a = (a.compare b).converse := by
  rw [compare, compare]
  cases a.covers b <;> cases b.covers a <;> rfl

/-! ## Merging -/

instance : Std.Commutative (max : UInt64 → UInt64 → UInt64) where
  comm a b := by
    rw [← UInt64.toNat_inj, toNat_max, toNat_max]
    exact Nat.max_comm ..

instance : Std.Associative (max : UInt64 → UInt64 → UInt64) where
  assoc a b c := by
    rw [← UInt64.toNat_inj, toNat_max, toNat_max, toNat_max, toNat_max]
    exact Nat.max_assoc ..

instance : Std.IdempotentOp (max : UInt64 → UInt64 → UInt64) where
  idempotent a := by
    rw [← UInt64.toNat_inj, toNat_max]
    exact Nat.max_self _

theorem merge_comm (a b : Clock) : a.merge b = b.merge a :=
  congrArg mk (Ordered.Map.mergeWith_comm max a.entries b.entries)

theorem merge_assoc (a b c : Clock) : (a.merge b).merge c = a.merge (b.merge c) :=
  congrArg mk (Ordered.Map.mergeWith_assoc max a.entries b.entries c.entries)

theorem merge_self (a : Clock) : a.merge a = a :=
  congrArg mk (Ordered.Map.mergeWith_self max a.entries)

theorem descends_merge_left (a b : Clock) : (a.merge b).Descends a :=
  descends_iff.2 (le_merge_left a b)

theorem descends_merge_right (a b : Clock) : (a.merge b).Descends b :=
  descends_iff.2 (le_merge_right a b)

theorem Descends.merge (ha : c.Descends a) (hb : c.Descends b) : c.Descends (a.merge b) :=
  descends_iff.2 (merge_le (descends_iff.1 ha) (descends_iff.1 hb))

/-! ## The result -/

/-- Two clocks compare as their counters do for every writer. Dominating or being equal is
reflexive and transitive, and taken the other way round a comparison gives the converse.
Merging is commutative, associative and idempotent and gives the least clock that dominates
or equals both. A counter with room goes up by one, for its writer alone, and the clock
dominates what it was. -/
theorem compare_semilattice (a b c : Clock) :
    (a.compare b = .equal ↔
      (∀ actor, b.get actor ≤ a.get actor) ∧ ∀ actor, a.get actor ≤ b.get actor) ∧
    (a.compare b = .dominates ↔
      (∀ actor, b.get actor ≤ a.get actor) ∧ ¬∀ actor, a.get actor ≤ b.get actor) ∧
    (a.compare b = .dominatedBy ↔
      (¬∀ actor, b.get actor ≤ a.get actor) ∧ ∀ actor, a.get actor ≤ b.get actor) ∧
    (a.compare b = .concurrent ↔
      (¬∀ actor, b.get actor ≤ a.get actor) ∧ ¬∀ actor, a.get actor ≤ b.get actor) ∧
    a.Descends a ∧ (a.Descends b → b.Descends c → a.Descends c) ∧
    b.compare a = (a.compare b).converse ∧
    a.merge b = b.merge a ∧ (a.merge b).merge c = a.merge (b.merge c) ∧ a.merge a = a ∧
    (a.merge b).Descends a ∧ (a.merge b).Descends b ∧
    (c.Descends a → c.Descends b → c.Descends (a.merge b)) ∧
    ∀ actor, a.Room actor → (a.increment actor).compare a = .dominates ∧
      ((a.increment actor).get actor).toNat = (a.get actor).toNat + 1 ∧
      ∀ other, other ≠ actor → (a.increment actor).get other = a.get other := by
  refine ⟨?equal, ?dominates, ?dominatedBy, ?concurrent, .refl a, .trans, compare_swap a b,
    merge_comm a b, merge_assoc a b c, merge_self a, descends_merge_left a b,
    descends_merge_right a b, .merge, ?increment⟩
  case equal => rw [compare_eq_equal_iff, and_comm, le_def, le_def]
  case dominates => rw [compare_eq_dominates_iff, lt_iff_le_not_ge, le_def, le_def]
  case dominatedBy => rw [compare_eq_dominatedBy_iff, lt_iff_le_not_ge, and_comm, le_def, le_def]
  case concurrent => rw [compare_eq_concurrent_iff, and_comm, le_def, le_def]
  case increment =>
    intro actor hroom
    exact ⟨compare_eq_dominates_iff.2 (lt_increment hroom), toNat_get_increment hroom,
      fun _ hother => get_increment_of_ne a hother⟩

/-- Three clocks that count the same, each with other entries of zero. -/
theorem compare_semilattice_zeroEntries :
    let a := ofList [("x", 2), ("y", 0)]
    let b := ofList [("x", 2)]
    let c := ofList [("x", 2), ("z", 0)]
    (a.Descends b ∧ b.Descends c ∧ a.Descends c) ∧
      (c.Descends a ∧ c.Descends b ∧ c.Descends (a.merge b)) ∧
      a.Room "x" ∧ (a.increment "x").compare a = .dominates := by
  intro a b c
  obtain ⟨-, -, -, -, -, htrans, -, -, -, -, -, -, hleast, hincrement⟩ :=
    compare_semilattice a b c
  have hab : a.Descends b := by decide +kernel
  have hbc : b.Descends c := by decide +kernel
  have hca : c.Descends a := by decide +kernel
  have hcb : c.Descends b := by decide +kernel
  have hroom : a.Room "x" := by
    unfold Room
    decide +kernel
  exact ⟨⟨hab, hbc, htrans hab hbc⟩, ⟨hca, hcb, hleast hca hcb⟩, hroom,
    (hincrement "x" hroom).1⟩

end Clock

end SiblingStore
