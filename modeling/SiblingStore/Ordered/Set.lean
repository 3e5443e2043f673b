/-!
# Sets in order

A set is the list of its members in strictly increasing order, so two sets with
the same members are the same list.
-/

namespace SiblingStore.Ordered

structure Set (α : Type) [Ord α] where
  toList : List α
  sorted : toList.Pairwise (fun a b => compare a b = .lt)
  deriving DecidableEq

namespace Set

variable {α : Type} [Ord α]

def empty : Set α := ⟨[], .nil⟩

instance : Inhabited (Set α) := ⟨empty⟩

instance : Membership α (Set α) := ⟨fun s a => a ∈ s.toList⟩

/-- Members in order with `a` among them once; an equal member is kept as it is. -/
def place (a : α) : List α → List α
  | [] => [a]
  | b :: rest =>
    match compare a b with
    | .lt => a :: b :: rest
    | .eq => b :: rest
    | .gt => b :: place a rest

theorem eq_or_mem_of_mem_place {a x : α} {l : List α} (h : x ∈ place a l) :
    x = a ∨ x ∈ l := by
  induction l with
  | nil => simpa [place] using h
  | cons b rest ih =>
    unfold place at h
    split at h
    · simpa using h
    · exact .inr h
    · rcases List.mem_cons.1 h with h | h
      · exact .inr (by simp [h])
      · exact (ih h).imp_right (List.mem_cons_of_mem _)

@[simp] theorem not_mem_empty (x : α) : x ∉ (empty : Set α) := by
  intro h; cases h

theorem mem_place [Std.LawfulEqOrd α] {a x : α} {l : List α} :
    x ∈ place a l ↔ x = a ∨ x ∈ l := by
  refine ⟨eq_or_mem_of_mem_place, fun h => ?_⟩
  induction l with
  | nil => simpa [place] using h
  | cons b rest ih =>
    unfold place
    split
    · simpa using h
    · rename_i heq
      cases Std.LawfulEqOrd.eq_of_compare heq
      rcases h with rfl | h
      · simp
      · exact h
    · rcases h with h | h
      · exact List.mem_cons_of_mem _ (ih (.inl h))
      · rcases List.mem_cons.1 h with rfl | h
        · simp
        · exact List.mem_cons_of_mem _ (ih (.inr h))

variable [Std.TransOrd α]

theorem sorted_place (a : α) {l : List α} (h : l.Pairwise (fun x y => compare x y = .lt)) :
    (place a l).Pairwise (fun x y => compare x y = .lt) := by
  induction l with
  | nil => simp [place]
  | cons b rest ih =>
    have hrest := List.pairwise_cons.1 h
    unfold place
    split
    · rename_i hlt
      refine List.pairwise_cons.2 ⟨fun x hx => ?_, h⟩
      rcases List.mem_cons.1 hx with rfl | hx
      · exact hlt
      · exact Std.TransCmp.lt_trans hlt (hrest.1 x hx)
    · exact h
    · rename_i hgt
      refine List.pairwise_cons.2 ⟨fun x hx => ?_, ih hrest.2⟩
      rcases eq_or_mem_of_mem_place hx with rfl | hx
      · exact Std.OrientedCmp.lt_of_gt hgt
      · exact hrest.1 x hx

def insert (s : Set α) (a : α) : Set α := ⟨place a s.toList, sorted_place a s.sorted⟩

def ofList (l : List α) : Set α := l.foldl insert empty

def union (a b : Set α) : Set α := b.toList.foldl insert a

@[simp] theorem mem_insert [Std.LawfulEqOrd α] {s : Set α} {a x : α} :
    x ∈ s.insert a ↔ x = a ∨ x ∈ s := mem_place

end Set

end SiblingStore.Ordered
