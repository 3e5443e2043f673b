import SiblingStore.Clock.Basic
import SiblingStore.Proofs.Ordered.Map
import Mathlib.Order.Basic

/-!
# The order of clocks

One clock is below another if none of its counters is above the other's. Clocks
that are below each other count the same, yet need not be the same clock: a
writer may have an entry of zero or none.
-/

namespace SiblingStore.Clock

/-! ## Counters -/

theorem toNat_max (a b : UInt64) : (max a b).toNat = max a.toNat b.toNat := by
  change (if a ≤ b then b else a).toNat = _
  split_ifs with h
  · exact (Nat.max_eq_right (UInt64.le_iff_toNat_le.1 h)).symm
  · exact (Nat.max_eq_left (Nat.le_of_not_le fun hle => h (UInt64.le_iff_toNat_le.2 hle))).symm

theorem le_max_left (a b : UInt64) : a ≤ max a b := by
  rw [UInt64.le_iff_toNat_le, toNat_max]
  exact Nat.le_max_left ..

theorem le_max_right (a b : UInt64) : b ≤ max a b := by
  rw [UInt64.le_iff_toNat_le, toNat_max]
  exact Nat.le_max_right ..

theorem max_le {a b c : UInt64} (ha : a ≤ c) (hb : b ≤ c) : max a b ≤ c := by
  rw [UInt64.le_iff_toNat_le] at ha hb ⊢
  rw [toNat_max]
  omega

theorem zero_le (a : UInt64) : 0 ≤ a := UInt64.le_iff_toNat_le.2 (Nat.zero_le _)

theorem zero_max (a : UInt64) : max 0 a = a := by
  rw [← UInt64.toNat_inj, toNat_max]
  exact Nat.zero_max _

theorem max_zero (a : UInt64) : max a 0 = a := by
  rw [← UInt64.toNat_inj, toNat_max]
  exact Nat.max_zero _

/-! ## What clocks count -/

theorem get_merge (a b : Clock) (actor : String) :
    (a.merge b).get actor = max (a.get actor) (b.get actor) := by
  rw [get, merge, Ordered.Map.find?_mergeWith]
  unfold get
  cases a.entries.find? actor <;> cases b.entries.find? actor <;>
    simp [Option.merge, zero_max, max_zero]

theorem get_increment_self (c : Clock) (actor : String) :
    (c.increment actor).get actor = c.get actor + 1 := by
  rw [get, increment, Ordered.Map.find?_alter_self]
  rfl

theorem get_increment_of_ne (c : Clock) {actor other : String} (h : other ≠ actor) :
    (c.increment actor).get other = c.get other := by
  have hne : Ord.compare other actor ≠ .eq :=
    fun heq => h (Std.LawfulEqOrd.eq_of_compare heq)
  rw [get, increment, Ordered.Map.find?_alter_of_ne _ hne]
  rfl

theorem get_single_self (actor : String) (n : UInt64) :
    (ofList [(actor, n)]).get actor = n := by
  have hfind := Ordered.Map.find?_alter_self
    (Ordered.Map.empty : Ordered.Map String UInt64) actor fun _ => n
  rw [get, show (ofList [(actor, n)]).entries.find? actor = some n from hfind]
  rfl

theorem get_single_of_ne {actor other : String} (h : other ≠ actor) (n : UInt64) :
    (ofList [(actor, n)]).get other = 0 := by
  have hne : Ord.compare other actor ≠ .eq :=
    fun heq => h (Std.LawfulEqOrd.eq_of_compare heq)
  have hfind := Ordered.Map.find?_alter_of_ne
    (Ordered.Map.empty : Ordered.Map String UInt64) hne fun _ => n
  rw [get, show (ofList [(actor, n)]).entries.find? other = none from hfind]
  rfl

theorem get_eq_zero_of_notMem {c : Clock} {actor : String} (h : actor ∉ c.actors) :
    c.get actor = 0 := by
  rw [get, Ordered.Map.find?_eq_none_iff.2 h]
  rfl

/-! ## The order -/

instance : LE Clock := ⟨fun a b => ∀ actor, a.get actor ≤ b.get actor⟩

theorem le_def {a b : Clock} : a ≤ b ↔ ∀ actor, a.get actor ≤ b.get actor := Iff.rfl

instance : Preorder Clock where
  le_refl c actor := UInt64.le_iff_toNat_le.2 (Nat.le_refl _)
  le_trans a b c hab hbc actor :=
    UInt64.le_iff_toNat_le.2 (Nat.le_trans (UInt64.le_iff_toNat_le.1 (hab actor))
      (UInt64.le_iff_toNat_le.1 (hbc actor)))

theorem toNat_get_le {a b : Clock} (h : a ≤ b) (actor : String) :
    (a.get actor).toNat ≤ (b.get actor).toNat :=
  UInt64.le_iff_toNat_le.1 (h actor)

theorem covers_iff {a b : Clock} : a.covers b = true ↔ b ≤ a := by
  rw [covers, List.all_eq_true, le_def]
  refine ⟨fun h actor => ?_, fun h actor _ => decide_eq_true (h actor)⟩
  by_cases hactor : actor ∈ a.actors ++ b.actors
  · exact of_decide_eq_true (h actor hactor)
  · rw [List.mem_append, not_or] at hactor
    rw [get_eq_zero_of_notMem hactor.2]
    exact zero_le _

theorem compare_eq_equal_iff {a b : Clock} : a.compare b = .equal ↔ a ≤ b ∧ b ≤ a := by
  rw [← covers_iff, ← covers_iff, compare]
  cases a.covers b <;> cases b.covers a <;> simp

theorem compare_self (c : Clock) : c.compare c = .equal :=
  compare_eq_equal_iff.2 ⟨le_rfl, le_rfl⟩

theorem compare_equal_symm {a b : Clock} (h : a.compare b = .equal) : b.compare a = .equal :=
  compare_eq_equal_iff.2 (compare_eq_equal_iff.1 h).symm

theorem compare_eq_dominates_iff {a b : Clock} : a.compare b = .dominates ↔ b < a := by
  rw [lt_iff_le_not_ge, ← covers_iff, ← covers_iff, compare]
  cases a.covers b <;> cases b.covers a <;> simp

theorem compare_eq_dominatedBy_iff {a b : Clock} : a.compare b = .dominatedBy ↔ a < b := by
  rw [lt_iff_le_not_ge, ← covers_iff, ← covers_iff, compare]
  cases a.covers b <;> cases b.covers a <;> simp

theorem compare_eq_concurrent_iff {a b : Clock} :
    a.compare b = .concurrent ↔ ¬a ≤ b ∧ ¬b ≤ a := by
  rw [← covers_iff, ← covers_iff, compare]
  cases a.covers b <;> cases b.covers a <;> simp

/-! ## Operations -/

theorem empty_le (c : Clock) : empty ≤ c := fun _ => zero_le _

theorem le_merge_left (a b : Clock) : a ≤ a.merge b := by
  intro actor
  rw [get_merge]
  exact le_max_left ..

theorem le_merge_right (a b : Clock) : b ≤ a.merge b := by
  intro actor
  rw [get_merge]
  exact le_max_right ..

theorem merge_le {a b c : Clock} (ha : a ≤ c) (hb : b ≤ c) : a.merge b ≤ c := by
  intro actor
  rw [get_merge]
  exact max_le (ha actor) (hb actor)

def Room (c : Clock) (actor : String) : Prop := (c.get actor).toNat + 1 < UInt64.size

theorem toNat_get_increment {c : Clock} {actor : String} (h : c.Room actor) :
    ((c.increment actor).get actor).toNat = (c.get actor).toNat + 1 := by
  rw [get_increment_self, UInt64.toNat_add]
  exact Nat.mod_eq_of_lt h

theorem lt_increment {c : Clock} {actor : String} (h : c.Room actor) :
    c < c.increment actor := by
  have hself := toNat_get_increment h
  refine lt_iff_le_not_ge.2 ⟨fun other => ?_, fun hle => ?_⟩
  · by_cases hother : other = actor
    · subst hother
      rw [UInt64.le_iff_toNat_le, hself]
      omega
    · rw [get_increment_of_ne c hother]
      exact UInt64.le_iff_toNat_le.2 (Nat.le_refl _)
  · have hcount := toNat_get_le hle actor
    omega

end SiblingStore.Clock
