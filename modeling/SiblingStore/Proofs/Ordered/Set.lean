import SiblingStore.Ordered.Set
import Mathlib.Data.List.Nodup

/-!
# Members of sets

A set that is put together from a list has the members of the list, and sets with
the same members are the same.
-/

namespace SiblingStore.Ordered.Set

variable {α : Type} [Ord α] [Std.TransOrd α]

theorem nodup_toList (s : Set α) : s.toList.Nodup := by
  refine s.sorted.imp fun {a b} hlt heq => ?_
  have hself : compare b b = .eq := Std.ReflCmp.compare_self
  rw [heq, hself] at hlt
  cases hlt

theorem ext_toList {s t : Set α} (h : ∀ x, x ∈ s.toList ↔ x ∈ t.toList) : s = t := by
  have hperm : s.toList.Perm t.toList :=
    (List.perm_ext_iff_of_nodup s.nodup_toList t.nodup_toList).2 h
  have hlist : s.toList = t.toList := by
    apply hperm.eq_of_pairwise _ s.sorted t.sorted
    intro a b _ _ hab hba
    have hswap : compare b a = (compare a b).swap := Std.OrientedCmp.eq_swap
    rw [hab, hba] at hswap
    cases hswap
  cases s
  cases t
  cases hlist
  rfl

variable [Std.LawfulEqOrd α]

theorem mem_foldl_insert {l : List α} {s : Set α} {x : α} :
    x ∈ l.foldl insert s ↔ x ∈ s ∨ x ∈ l := by
  induction l generalizing s with
  | nil => simp
  | cons a l ih =>
      rw [List.foldl_cons, ih, mem_insert, List.mem_cons]
      constructor
      · rintro ((h | h) | h)
        · exact .inr (.inl h)
        · exact .inl h
        · exact .inr (.inr h)
      · rintro (h | h | h)
        · exact .inl (.inr h)
        · exact .inl (.inl h)
        · exact .inr h

theorem mem_toList_ofList {l : List α} {x : α} : x ∈ (ofList l).toList ↔ x ∈ l := by
  have h := mem_foldl_insert (l := l) (s := (empty : Set α)) (x := x)
  exact h.trans (or_iff_right (not_mem_empty x))

/-- The order in which members are named does not matter, nor how often. -/
theorem ofList_congr {l l' : List α} (h : ∀ x, x ∈ l ↔ x ∈ l') : ofList l = ofList l' := by
  apply ext_toList
  intro x
  calc x ∈ (ofList l).toList ↔ x ∈ l := mem_toList_ofList
    _ ↔ x ∈ l' := h x
    _ ↔ x ∈ (ofList l').toList := mem_toList_ofList.symm

theorem ofList_toList (s : Set α) : ofList s.toList = s :=
  ext_toList fun _ => mem_toList_ofList

end SiblingStore.Ordered.Set
