import Mathlib.Data.List.Basic
import Mathlib.Data.List.Induction
import Mathlib.Data.List.Nodup
import Mathlib.Data.Set.Insert

/-!
# Orders of turns

Writers take turns: each reads once and later writes once. Which writes a writer saw
is a matter of the order alone, and so is which writes nobody saw who wrote
afterwards.
-/

namespace SiblingStore

def Before {α : Type} (ts : List α) (s t : α) : Prop := [s, t].Sublist ts

section

variable {α : Type} {ts : List α} {s t u : α}

instance [DecidableEq α] : Decidable (Before ts s t) :=
  inferInstanceAs (Decidable (List.Sublist ..))

theorem Before.left_mem (h : Before ts s t) : s ∈ ts := h.subset (by simp)

theorem before_append_singleton :
    Before (ts ++ [u]) s t ↔ Before ts s t ∨ s ∈ ts ∧ t = u := by
  have hreverse : ∀ us : List α, Before us s t ↔ [t, s].Sublist us.reverse := fun us => by
    rw [Before, ← List.reverse_sublist]
    rfl
  rw [hreverse, hreverse, List.reverse_append, List.reverse_singleton, List.singleton_append,
    List.cons_sublist_cons', List.singleton_sublist, List.mem_reverse, and_comm (a := t = u)]

theorem Before.trans (hts : ts.Nodup) (h : Before ts s t) (h' : Before ts t u) :
    Before ts s u := by
  unfold Before at *
  induction ts with
  | nil => simp at h
  | cons x ts ih =>
      obtain ⟨hx, hts⟩ := List.nodup_cons.1 hts
      have ht : t ∈ ts := by
        rcases List.cons_sublist_cons'.1 h with h | ⟨-, h⟩
        · exact h.subset (by simp)
        · exact List.singleton_sublist.1 h
      have hrest : [t, u].Sublist ts := by
        rcases List.cons_sublist_cons'.1 h' with h' | ⟨rfl, -⟩
        · exact h'
        · exact absurd ht hx
      rcases List.cons_sublist_cons'.1 h with h | ⟨rfl, -⟩
      · exact (ih hts h hrest).cons x
      · exact List.cons_sublist_cons.2 (List.singleton_sublist.2 (hrest.subset (by simp)))

end

inductive Turn (n : Nat) where
  | get (i : Fin n)
  | put (i : Fin n)
  deriving DecidableEq

namespace Turn

variable {n : Nat} {ts : List (Turn n)} {t : Turn n}

def Saw (ts : List (Turn n)) (j i : Fin n) : Prop := Before ts (.put i) (.get j)

instance (j i : Fin n) : Decidable (Saw ts j i) := inferInstanceAs (Decidable (Before ..))

/-- The writers whose writes the write of `j` builds on, and `j` itself. -/
def past (ts : List (Turn n)) (j : Fin n) : Set (Fin n) := insert j {i | Saw ts j i}

/-- Whether no turn is taken twice and every writer reads before it writes. -/
structure InOrder (ts : List (Turn n)) : Prop where
  once : ts.Nodup
  read : ∀ i, .put i ∈ ts → Before ts (.get i) (.put i)

def writers : List (Turn n) → List (Fin n) :=
  List.filterMap fun
    | .get _ => none
    | .put i => some i

/-- The writers whose writes nobody saw who wrote afterwards, in order. -/
def survivors (ts : List (Turn n)) : List (Fin n) :=
  (writers ts).filter fun j => ∀ i ∈ writers ts, ¬Saw ts i j

/-! ## One turn more -/

theorem mem_writers {i : Fin n} : i ∈ writers ts ↔ .put i ∈ ts := by
  rw [writers, List.mem_filterMap]
  constructor
  · rintro ⟨t, ht, hi⟩
    cases t with
    | get j => exact absurd hi (by simp)
    | put j => rwa [← Option.some_inj.1 hi]
  · exact fun h => ⟨_, h, rfl⟩

theorem writers_get (i : Fin n) : writers (ts ++ [.get i]) = writers ts := by
  simp [writers]

theorem writers_put (j : Fin n) : writers (ts ++ [.put j]) = writers ts ++ [j] := by
  simp [writers]

theorem saw_get {i j k : Fin n} :
    Saw (ts ++ [.get i]) j k ↔ Saw ts j k ∨ k ∈ writers ts ∧ j = i := by
  rw [Saw, before_append_singleton, mem_writers, Turn.get.injEq]
  rfl

theorem saw_put {i j k : Fin n} : Saw (ts ++ [.put i]) j k ↔ Saw ts j k := by
  rw [Saw, before_append_singleton]
  simp [Saw]

theorem past_put (ts : List (Turn n)) (i j : Fin n) : past (ts ++ [.put i]) j = past ts j := by
  simp only [past, saw_put]

theorem past_get {i j : Fin n} (h : j ≠ i) : past (ts ++ [.get i]) j = past ts j := by
  simp only [past, saw_get, h, and_false, or_false]

theorem Saw.mem_writers {j k : Fin n} (h : Saw ts j k) : k ∈ writers ts :=
  Turn.mem_writers.2 h.left_mem

namespace InOrder

theorem get_mem {i : Fin n} (h : InOrder ts) (hi : i ∈ writers ts) : .get i ∈ ts :=
  (h.read i (mem_writers.1 hi)).left_mem

theorem nodup_writers (h : InOrder ts) : (writers ts).Nodup := by
  refine h.once.filterMap fun s t i hs ht => ?_
  cases s <;> cases t <;> simp_all

theorem saw_trans {i j k : Fin n} (h : InOrder ts) (hij : Saw ts i j) (hjk : Saw ts j k) :
    Saw ts i k :=
  (hjk.trans h.once (h.read j hij.left_mem)).trans h.once hij

/-- A write builds on another exactly if it builds on all that the other does. -/
theorem past_subset_iff {j k : Fin n} (h : InOrder ts) :
    past ts k ⊆ past ts j ↔ k ∈ past ts j := by
  constructor
  · exact fun hsub => hsub (Set.mem_insert k _)
  · rintro (rfl | hjk)
    · exact subset_rfl
    · rintro i (rfl | hki)
      · exact .inr hjk
      · exact .inr (h.saw_trans hjk hki)

theorem notMem {us : List (Turn n)} (h : InOrder (ts ++ t :: us)) : t ∉ ts := by
  intro ht
  have hdisjoint := List.disjoint_of_nodup_append h.once
  exact hdisjoint ht (by simp)

theorem init (h : InOrder (ts ++ [t])) : InOrder ts := by
  refine ⟨(List.nodup_append.1 h.once).1, fun i hi => ?_⟩
  rcases before_append_singleton.1 (h.read i (by simp [hi])) with hbefore | ⟨-, heq⟩
  · exact hbefore
  · rw [← heq] at h
    exact absurd hi h.notMem

theorem ne_of_get {i j : Fin n} (h : InOrder (ts ++ [.get i])) (hj : j ∈ writers ts) :
    j ≠ i := by
  rintro rfl
  exact h.notMem (h.init.get_mem hj)

theorem notMem_writers_of_put {j : Fin n} (h : InOrder (ts ++ [.put j])) : j ∉ writers ts :=
  fun hj => h.notMem (mem_writers.1 hj)

theorem get_mem_of_put {j : Fin n} (h : InOrder (ts ++ [.put j])) : .get j ∈ ts := by
  have hget : .get j ∈ ts ++ [.put j] := h.get_mem (mem_writers.2 (by simp))
  simpa using hget

end InOrder

/-! ## Survivors -/

theorem mem_writers_of_mem_survivors {j : Fin n} (h : j ∈ survivors ts) : j ∈ writers ts :=
  (List.mem_filter.1 h).1

theorem not_saw_of_mem_survivors {i j : Fin n} (hj : j ∈ survivors ts) (hi : i ∈ writers ts) :
    ¬Saw ts i j :=
  of_decide_eq_true (List.mem_filter.1 hj).2 i hi

theorem InOrder.survivors_get {i : Fin n} (h : InOrder (ts ++ [.get i])) :
    survivors (ts ++ [.get i]) = survivors ts := by
  rw [survivors, writers_get]
  refine List.filter_congr fun j _ => decide_eq_decide.2 (forall₂_congr fun k hk => ?_)
  have hne := h.ne_of_get hk
  simp [saw_get, hne]

theorem InOrder.survivors_put {j : Fin n} (h : InOrder (ts ++ [.put j])) :
    survivors (ts ++ [.put j]) = (survivors ts).filter (fun k => ¬Saw ts j k) ++ [j] := by
  have hnew : ∀ i, ¬Saw ts i j := fun i hi => h.notMem_writers_of_put hi.mem_writers
  rw [survivors, writers_put, List.filter_append]
  congr 1
  · rw [survivors, List.filter_filter]
    refine List.filter_congr fun k _ => ?_
    rw [← Bool.decide_and, decide_eq_decide]
    simp [saw_put, or_imp, forall_and, and_comm]
  · simp [saw_put, hnew]

/-- Some write that survives builds on whatever was written. -/
theorem InOrder.exists_survivor (h : InOrder ts) {k : Fin n} (hk : k ∈ writers ts) :
    ∃ j ∈ survivors ts, k ∈ past ts j := by
  induction ts using List.reverseRecOn with
  | nil => exact absurd hk List.not_mem_nil
  | append_singleton ts t ih =>
      cases t with
      | get i =>
          rw [writers_get] at hk
          obtain ⟨j, hj, hjk⟩ := ih h.init hk
          rw [h.survivors_get]
          have hne := h.ne_of_get (mem_writers_of_mem_survivors hj)
          exact ⟨j, hj, by rwa [past_get hne]⟩
      | put m =>
          rw [writers_put, List.mem_append, List.mem_singleton] at hk
          rw [h.survivors_put]
          simp only [past_put]
          -- What `m` saw survives no longer, but `m` builds on all that it built on.
          rcases hk with hk | rfl
          · obtain ⟨j, hj, hjk⟩ := ih h.init hk
            by_cases hm : Saw ts m j
            · exact ⟨m, by simp, h.init.past_subset_iff.2 (.inr hm) hjk⟩
            · exact ⟨j, by simp [hj, hm], hjk⟩
          · exact ⟨k, by simp, Set.mem_insert k _⟩

theorem InOrder.nodup_survivors (h : InOrder ts) : (survivors ts).Nodup :=
  h.nodup_writers.filter _

end Turn

end SiblingStore
