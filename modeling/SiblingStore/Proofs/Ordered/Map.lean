import SiblingStore.Ordered.Map
import Mathlib.Tactic.Common

/-!
# Look-ups after building and merging

What is found in a map that was put together from a list or from two maps.
-/

namespace SiblingStore.Ordered.Map

variable {κ ν : Type} [Ord κ]

theorem place_of_gt {k : κ} {f : Option ν → ν} {l : List (κ × ν)}
    (h : ∀ q ∈ l, compare k q.1 = .gt) : place k f l = l ++ [(k, f none)] := by
  induction l with
  | nil => rfl
  | cons q l ih =>
      have hq : compare k q.1 = .gt := h q (by simp)
      obtain ⟨k', v⟩ := q
      rw [place, hq]
      dsimp only
      rw [ih fun q' hq' => h q' (by simp [hq'])]
      rfl

theorem lookup_cons_of_ne {k k' : κ} (h : compare k k' ≠ .eq) (v : ν) (l : List (κ × ν)) :
    lookup k ((k', v) :: l) = lookup k l := by
  rw [lookup, if_neg h]

theorem lookup_cons_self [Std.LawfulEqOrd κ] (k : κ) (v : ν) (l : List (κ × ν)) :
    lookup k ((k, v) :: l) = some v := by
  rw [lookup, if_pos Std.ReflCmp.compare_self]

theorem lookup_eq_none_iff [Std.LawfulEqOrd κ] {k : κ} {l : List (κ × ν)} :
    lookup k l = none ↔ k ∉ l.map (·.1) := by
  induction l with
  | nil => simp
  | cons p l ih =>
      obtain ⟨k', v⟩ := p
      by_cases hk : compare k k' = .eq
      · cases Std.LawfulEqOrd.eq_of_compare hk
        simp [lookup_cons_self]
      · have hne : k ≠ k' := fun h => hk (h ▸ Std.ReflCmp.compare_self)
        rw [lookup_cons_of_ne hk, ih]
        simp [hne]

theorem find?_eq_none_iff [Std.LawfulEqOrd κ] {m : Map κ ν} {k : κ} :
    m.find? k = none ↔ k ∉ m.keys :=
  lookup_eq_none_iff

variable [Std.TransOrd κ]

theorem toList_foldl_insert {l : List (κ × ν)} {m : Map κ ν}
    (h : (m.toList ++ l).Pairwise (fun a b => compare a.1 b.1 = .lt)) :
    (l.foldl (fun m p => m.insert p.1 p.2) m).toList = m.toList ++ l := by
  induction l generalizing m with
  | nil => simp
  | cons p l ih =>
      have hbelow : ∀ q ∈ m.toList, compare p.1 q.1 = .gt := by
        intro q hq
        exact Std.OrientedCmp.gt_of_lt ((List.pairwise_append.1 h).2.2 q hq p (by simp))
      have hinsert : (m.insert p.1 p.2).toList = m.toList ++ [p] := place_of_gt hbelow
      have hassoc : (m.insert p.1 p.2).toList ++ l = m.toList ++ p :: l := by
        rw [hinsert, List.append_assoc]
        rfl
      rw [List.foldl_cons, ih (by rw [hassoc]; exact h), hassoc]

@[simp] theorem ofList_toList (m : Map κ ν) : ofList m.toList = m := by
  have h := toList_foldl_insert (l := m.toList) (m := (empty : Map κ ν)) m.sorted
  rw [← ofList] at h
  cases hm : ofList m.toList with
  | mk l sorted =>
      rw [hm] at h
      cases m
      congr

theorem find?_foldl_alter [Std.LawfulEqOrd κ] (f : ν → ν → ν) {l : List (κ × ν)}
    (h : l.Pairwise (fun a b => compare a.1 b.1 = .lt)) (m : Map κ ν) (k : κ) :
    (l.foldl (fun m p => m.alter p.1 fun
        | none => p.2
        | some v => f v p.2) m).find? k = Option.merge f (m.find? k) (lookup k l) := by
  induction l generalizing m with
  | nil => cases hm : m.find? k <;> rw [List.foldl_nil, hm] <;> rfl
  | cons p l ih =>
      obtain ⟨k', v⟩ := p
      have hrest := List.pairwise_cons.1 h
      rw [List.foldl_cons, ih hrest.2]
      by_cases hk : compare k k' = .eq
      · cases Std.LawfulEqOrd.eq_of_compare hk
        rw [find?_alter_self, lookup_cons_self, lookup_eq_none_of_lt hrest.1]
        cases m.find? k <;> rfl
      · rw [find?_alter_of_ne m hk, lookup_cons_of_ne hk]

theorem find?_mergeWith [Std.LawfulEqOrd κ] (f : ν → ν → ν) (a b : Map κ ν) (k : κ) :
    (mergeWith f a b).find? k = Option.merge f (a.find? k) (b.find? k) :=
  find?_foldl_alter f b.sorted a k

section Laws

variable [Std.LawfulEqOrd κ] (f : ν → ν → ν)

theorem mergeWith_comm [Std.Commutative f] (a b : Map κ ν) :
    mergeWith f a b = mergeWith f b a := by
  refine ext_find? fun k => ?_
  rw [find?_mergeWith, find?_mergeWith]
  exact (Option.commutative_merge f).comm _ _

theorem mergeWith_assoc [Std.Associative f] (a b c : Map κ ν) :
    mergeWith f (mergeWith f a b) c = mergeWith f a (mergeWith f b c) := by
  refine ext_find? fun k => ?_
  simp only [find?_mergeWith]
  exact (Option.associative_merge f).assoc _ _ _

theorem mergeWith_self [Std.IdempotentOp f] (a : Map κ ν) : mergeWith f a a = a := by
  refine ext_find? fun k => ?_
  rw [find?_mergeWith]
  exact (Option.idempotentOp_merge f).idempotent _

end Laws

end SiblingStore.Ordered.Map
