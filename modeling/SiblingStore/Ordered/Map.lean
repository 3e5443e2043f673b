/-!
# Maps in key order

A map is the list of its bindings in strictly increasing key order, so two maps
with the same bindings are the same list. The main statements say what a
look-up finds after an update and that look-ups determine the map.
-/

namespace SiblingStore.Ordered

structure Map (κ : Type) (ν : Type) [Ord κ] where
  toList : List (κ × ν)
  sorted : toList.Pairwise (fun a b => compare a.1 b.1 = .lt)
  deriving DecidableEq

namespace Map

variable {κ ν : Type} [Ord κ]

def empty : Map κ ν := ⟨[], .nil⟩

instance : Inhabited (Map κ ν) := ⟨empty⟩

def isEmpty (m : Map κ ν) : Bool := m.toList.isEmpty

def size (m : Map κ ν) : Nat := m.toList.length

def keys (m : Map κ ν) : List κ := m.toList.map (·.1)

def lookup (k : κ) : List (κ × ν) → Option ν
  | [] => none
  | (k', v) :: rest => if compare k k' = .eq then some v else lookup k rest

def find? (m : Map κ ν) (k : κ) : Option ν := lookup k m.toList

/-- Bindings in order, with the one of `k` replaced by what `f` makes of it. -/
def place (k : κ) (f : Option ν → ν) : List (κ × ν) → List (κ × ν)
  | [] => [(k, f none)]
  | (k', v) :: rest =>
    match compare k k' with
    | .lt => (k, f none) :: (k', v) :: rest
    | .eq => (k', f (some v)) :: rest
    | .gt => (k', v) :: place k f rest

theorem mem_place {k : κ} {f : Option ν → ν} {l : List (κ × ν)} {p : κ × ν}
    (h : p ∈ place k f l) : p.1 = k ∨ ∃ q ∈ l, p.1 = q.1 := by
  induction l with
  | nil => simp only [place, List.mem_singleton] at h; exact .inl (by rw [h])
  | cons q rest ih =>
    obtain ⟨k', v⟩ := q
    unfold place at h
    split at h
    · rcases List.mem_cons.1 h with h | h
      · exact .inl (by rw [h])
      · exact .inr ⟨p, h, rfl⟩
    · rcases List.mem_cons.1 h with h | h
      · exact .inr ⟨(k', v), by simp, by rw [h]⟩
      · exact .inr ⟨p, List.mem_cons_of_mem _ h, rfl⟩
    · rcases List.mem_cons.1 h with h | h
      · exact .inr ⟨(k', v), by simp, by rw [h]⟩
      · rcases ih h with h | ⟨q, hq, h⟩
        · exact .inl h
        · exact .inr ⟨q, List.mem_cons_of_mem _ hq, h⟩

@[simp] theorem lookup_nil (k : κ) : lookup k ([] : List (κ × ν)) = none := rfl

theorem lookup_eq_none_of_lt {k : κ} {l : List (κ × ν)}
    (h : ∀ p ∈ l, compare k p.1 = .lt) : lookup k l = none := by
  induction l with
  | nil => rfl
  | cons q rest ih =>
    simp [lookup, h q (by simp), ih fun p hp => h p (List.mem_cons_of_mem _ hp)]

@[simp] theorem find?_empty (k : κ) : (empty : Map κ ν).find? k = none := rfl

variable [Std.TransOrd κ]

theorem sorted_place (k : κ) (f : Option ν → ν) {l : List (κ × ν)}
    (h : l.Pairwise (fun a b => compare a.1 b.1 = .lt)) :
    (place k f l).Pairwise (fun a b => compare a.1 b.1 = .lt) := by
  induction l with
  | nil => simp [place]
  | cons q rest ih =>
    obtain ⟨k', v⟩ := q
    have hrest := List.pairwise_cons.1 h
    unfold place
    split
    · rename_i hlt
      refine List.pairwise_cons.2 ⟨fun p hp => ?_, h⟩
      rcases List.mem_cons.1 hp with rfl | hp
      · exact hlt
      · exact Std.TransCmp.lt_trans hlt (hrest.1 p hp)
    · exact List.pairwise_cons.2 ⟨hrest.1, hrest.2⟩
    · rename_i hgt
      refine List.pairwise_cons.2 ⟨fun p hp => ?_, ih hrest.2⟩
      rcases mem_place hp with hp | ⟨q, hq, hp⟩
      · rw [hp]; exact Std.OrientedCmp.lt_of_gt hgt
      · rw [hp]; exact hrest.1 q hq

def alter (m : Map κ ν) (k : κ) (f : Option ν → ν) : Map κ ν :=
  ⟨place k f m.toList, sorted_place k f m.sorted⟩

def insert (m : Map κ ν) (k : κ) (v : ν) : Map κ ν := m.alter k fun _ => v

/-- Bindings read from left to right; of two for one key the later holds. -/
def ofList (l : List (κ × ν)) : Map κ ν :=
  l.foldl (fun m p => m.insert p.1 p.2) empty

def mergeWith (f : ν → ν → ν) (a b : Map κ ν) : Map κ ν :=
  b.toList.foldl (fun m p => m.alter p.1 fun
    | none => p.2
    | some v => f v p.2) a

theorem lookup_place_self (k : κ) (f : Option ν → ν) {l : List (κ × ν)}
    (h : l.Pairwise (fun a b => compare a.1 b.1 = .lt)) :
    lookup k (place k f l) = some (f (lookup k l)) := by
  induction l with
  | nil => simp [place, lookup]
  | cons q rest ih =>
    obtain ⟨k', v⟩ := q
    have hrest := List.pairwise_cons.1 h
    unfold place
    split
    · rename_i hlt
      have : lookup k ((k', v) :: rest) = none :=
        lookup_eq_none_of_lt fun p hp => by
          rcases List.mem_cons.1 hp with rfl | hp
          · exact hlt
          · exact Std.TransCmp.lt_trans hlt (hrest.1 p hp)
      rw [this]; simp [lookup]
    · rename_i heq; simp [lookup, heq]
    · rename_i hgt; simp [lookup, hgt, ih hrest.2]

theorem lookup_place_of_ne {k k' : κ} (hk : compare k' k ≠ .eq) (f : Option ν → ν)
    (l : List (κ × ν)) : lookup k' (place k f l) = lookup k' l := by
  induction l with
  | nil => simp [place, lookup, hk]
  | cons q rest ih =>
    obtain ⟨k'', v⟩ := q
    unfold place
    split
    · simp [lookup, hk]
    · rename_i heq
      have : compare k' k'' ≠ .eq := fun h =>
        hk (Std.TransCmp.eq_trans h (Std.OrientedCmp.eq_symm heq))
      simp [lookup, this]
    · simp [lookup, ih]

theorem find?_alter_self (m : Map κ ν) (k : κ) (f : Option ν → ν) :
    (m.alter k f).find? k = some (f (m.find? k)) :=
  lookup_place_self k f m.sorted

theorem find?_alter_of_ne (m : Map κ ν) {k k' : κ} (hk : compare k' k ≠ .eq)
    (f : Option ν → ν) : (m.alter k f).find? k' = m.find? k' :=
  lookup_place_of_ne hk f m.toList

theorem ext_find? [Std.LawfulEqOrd κ] {a b : Map κ ν} (h : ∀ k, a.find? k = b.find? k) :
    a = b := by
  obtain ⟨la, ha⟩ := a
  obtain ⟨lb, hb⟩ := b
  suffices la = lb by subst this; rfl
  replace h : ∀ k, lookup k la = lookup k lb := h
  induction la generalizing lb with
  | nil =>
    cases lb with
    | nil => rfl
    | cons q rest => have := h q.1; simp [lookup] at this
  | cons p la ih =>
    cases lb with
    | nil => have := h p.1; simp [lookup] at this
    | cons q lb =>
      obtain ⟨pa, va⟩ := p
      obtain ⟨qb, vb⟩ := q
      have hpa := List.pairwise_cons.1 ha
      have hqb := List.pairwise_cons.1 hb
      have below : ∀ {k : κ} {v : ν} {l : List (κ × ν)} (k' : κ),
          (∀ r ∈ l, compare k r.1 = .lt) → compare k' k = .lt →
            lookup k' ((k, v) :: l) = none := fun k' hl hk =>
        lookup_eq_none_of_lt fun r hr => by
          rcases List.mem_cons.1 hr with rfl | hr
          · exact hk
          · exact Std.TransCmp.lt_trans hk (hl r hr)
      have hkey : pa = qb := by
        cases hc : compare pa qb with
        | eq => exact Std.LawfulEqOrd.eq_of_compare hc
        | lt =>
          have := h pa
          rw [below pa hqb.1 hc] at this
          simp [lookup] at this
        | gt =>
          have := h qb
          rw [below qb hpa.1 (Std.OrientedCmp.lt_of_gt hc)] at this
          simp [lookup] at this
      subst hkey
      have hval : va = vb := by simpa [lookup] using h pa
      subst hval
      congr 1
      refine ih hpa.2 lb hqb.2 fun k => ?_
      have hk := h k
      cases hc : compare k pa with
      | eq =>
        cases Std.LawfulEqOrd.eq_of_compare hc
        rw [lookup_eq_none_of_lt hpa.1, lookup_eq_none_of_lt hqb.1]
      | lt => simpa [lookup, hc] using hk
      | gt => simpa [lookup, hc] using hk

end Map

end SiblingStore.Ordered
