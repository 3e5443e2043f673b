import SiblingStore.Document.Cart
import SiblingStore.Proofs.Ordered.Set
import Mathlib.Data.String.Basic
import Mathlib.Data.List.Nodup
import Mathlib.Data.List.Perm.Basic

/-!
# Siblings in another order

The order in which siblings stand has no meaning, so a resolver should come to the same
outcome whatever it is. All do, with one exception: where siblings are of three identities
or more, which two of them a union names depends on which it meets first.
-/

namespace SiblingStore

variable {α μ : Type}

structure SiblingSet.Reorders (s s' : SiblingSet α) : Prop where
  location_eq : s'.location = s.location
  perm : s'.members.Perm s.members

namespace SiblingSet.Reorders

variable {s s' : SiblingSet α}

theorem size_eq (h : s.Reorders s') : s'.size = s.size := h.perm.length_eq

theorem isConflict_eq (h : s.Reorders s') : s'.isConflict = s.isConflict := by
  unfold isConflict
  rw [h.size_eq]

theorem values_perm (h : s.Reorders s') : s'.values.Perm s.values := h.perm.map _

theorem first_eq (h : s.Reorders s') (hsingle : s.isConflict = false) : s'.first = s.first := by
  have hlength : s.members.length = 1 := by
    have hpos := List.length_pos_of_ne_nil s.nonempty
    have hle : ¬ 1 < s.members.length := of_decide_eq_false hsingle
    omega
  obtain ⟨a, ha⟩ := List.length_eq_one_iff.1 hlength
  have ha' : s'.members = [a] := by
    apply List.perm_singleton.1
    rw [← ha]
    exact h.perm
  have hfirst : s.first ∈ [a] := ha ▸ List.head_mem s.nonempty
  have hfirst' : s'.first ∈ [a] := ha' ▸ List.head_mem s'.nonempty
  rw [List.mem_singleton.1 hfirst, List.mem_singleton.1 hfirst']

end SiblingSet.Reorders

/-- Any two siblings may come first. -/
theorem SiblingSet.exists_reorders_first {s : SiblingSet α} {a b : Sibling α}
    (ha : a ∈ s.members) (hb : b ∈ s.members) (hne : a ≠ b) :
    ∃ s', s.Reorders s' ∧ ∃ rest, s'.members = a :: b :: rest := by
  obtain ⟨l₁, l₂, hl⟩ := List.append_of_mem ha
  have hperm : s.members.Perm (a :: (l₁ ++ l₂)) := hl ▸ List.perm_middle
  have hb' : b ∈ l₁ ++ l₂ := by
    rcases List.mem_cons.1 (hperm.subset hb) with rfl | hb'
    · exact absurd rfl hne
    · exact hb'
  obtain ⟨l₃, l₄, hl'⟩ := List.append_of_mem hb'
  have hperm' : s.members.Perm (a :: b :: (l₃ ++ l₄)) := by
    rw [hl'] at hperm
    exact hperm.trans (List.perm_middle.cons a)
  exact ⟨⟨s.location, s.context, _, List.cons_ne_nil _ _⟩, ⟨rfl, hperm'.symm⟩, _, rfl⟩

namespace Resolver

variable {s s' : SiblingSet α}

theorem unlessConflict_of_reorders (h : s.Reorders s') (reason : Unresolved.Reason) :
    unlessConflict reason s' = unlessConflict reason s := by
  unfold unlessConflict
  rw [h.isConflict_eq, h.size_eq, h.location_eq]
  cases hconflict : s.isConflict with
  | true => rfl
  | false => rw [h.first_eq hconflict]

/-! ## The sibling written last -/

theorem age_eq_compareLex :
    (age : Sibling α → Sibling α → Ordering) =
      compareLex (compareOn (·.time)) (compareOn (·.tag)) :=
  rfl

instance : Std.TransCmp (age : Sibling α → Sibling α → Ordering) := by
  rw [age_eq_compareLex]
  infer_instance

theorem eq_of_age_eq {a b : Sibling α} (h : age a b = .eq) : (a.time, a.tag) = (b.time, b.tag) := by
  obtain ⟨htime, htag⟩ := Ordering.then_eq_eq.1 h
  rw [Std.LawfulEqOrd.eq_of_compare htime, Std.LawfulEqOrd.eq_of_compare htag]

theorem later_mem (a b : Sibling α) : later a b = a ∨ later a b = b := by
  unfold later
  split
  · exact .inl rfl
  · exact .inr rfl

theorem isLE_later_left (a b : Sibling α) : (age a (later a b)).isLE := by
  unfold later
  split
  · exact Std.ReflCmp.isLE_rfl
  · rename_i h
    exact Ordering.isLE_iff_ne_gt.2 h

theorem isLE_later_right (a b : Sibling α) : (age b (later a b)).isLE := by
  unfold later
  split
  · rename_i h
    exact Std.OrientedCmp.isLE_of_isGE (by rw [h]; rfl)
  · exact Std.ReflCmp.isLE_rfl

theorem foldl_later_mem (l : List (Sibling α)) (a : Sibling α) : l.foldl later a ∈ a :: l := by
  induction l generalizing a with
  | nil => exact List.mem_singleton_self a
  | cons b l ih =>
      rcases later_mem a b with h | h
      · rw [List.foldl_cons, h]
        exact List.cons_subset_cons a (List.subset_cons_self b l) (ih a)
      · rw [List.foldl_cons, h]
        exact List.mem_cons_of_mem a (ih b)

theorem isLE_foldl_later {l : List (Sibling α)} {a b : Sibling α} (h : b ∈ a :: l) :
    (age b (l.foldl later a)).isLE := by
  induction l generalizing a b with
  | nil =>
      rw [List.mem_singleton.1 h]
      exact Std.ReflCmp.isLE_rfl
  | cons c l ih =>
      rw [List.foldl_cons]
      -- what the next comparison keeps is no older than either of the two
      have hkept : (age (later a c) (l.foldl later (later a c))).isLE := ih List.mem_cons_self
      rcases List.mem_cons.1 h with rfl | h
      · exact Std.TransCmp.isLE_trans (isLE_later_left b c) hkept
      · rcases List.mem_cons.1 h with rfl | h
        · exact Std.TransCmp.isLE_trans (isLE_later_right a b) hkept
        · exact ih (List.mem_cons_of_mem _ h)

def newest (s : SiblingSet α) : Sibling α := s.members.tail.foldl later s.first

theorem first_cons_tail (s : SiblingSet α) : s.first :: s.members.tail = s.members :=
  List.cons_head_tail s.nonempty

theorem newest_mem (s : SiblingSet α) : newest s ∈ s.members := by
  have h := foldl_later_mem s.members.tail s.first
  rwa [first_cons_tail] at h

theorem isLE_newest {b : Sibling α} (h : b ∈ s.members) : (age b (newest s)).isLE := by
  rw [← first_cons_tail] at h
  exact isLE_foldl_later h

theorem newest_of_reorders (h : s.Reorders s')
    (hdistinct : (s.members.map fun m => (m.time, m.tag)).Nodup) : newest s' = newest s := by
  have hmem : newest s' ∈ s.members := h.perm.subset (newest_mem s')
  have hmem' : newest s ∈ s'.members := h.perm.symm.subset (newest_mem s)
  have hage : age (newest s') (newest s) = .eq :=
    Std.OrientedCmp.isLE_antisymm (isLE_newest hmem) (isLE_newest hmem')
  exact List.inj_on_of_nodup_map hdistinct hmem (newest_mem s) (eq_of_age_eq hage)

end Resolver

/-! ## The union of siblings -/

def SetLike.identities [Ord μ] (kind : SetLike α μ) (s : SiblingSet α) : List String :=
  s.values.filterMap kind.identity

def SetLike.Disagrees [Ord μ] (kind : SetLike α μ) (s : SiblingSet α)
    (outcome : Except Unresolved α) : Prop :=
  ∃ a b, a < b ∧ a ∈ kind.identities s ∧ b ∈ kind.identities s ∧
    outcome = .error ⟨s.location, s.size, .identities a b⟩

namespace Resolver

section

variable {identity : α → Option String} {seen found : Option String} {l l' : List α}

theorem filterMap_cons_eq (v : α) (l : List α) :
    (v :: l).filterMap identity = (identity v).toList ++ l.filterMap identity := by
  cases h : identity v with
  | none => exact List.filterMap_cons_none h
  | some i => exact List.filterMap_cons_some h

theorem mem_of_commonIdentity_ok (h : commonIdentity identity seen l = .ok found) (i : String) :
    i ∈ seen.toList ++ l.filterMap identity ↔ found = some i := by
  fun_induction commonIdentity identity seen l with
  | case1 seen =>
      cases h
      simp
  | case2 v l ih =>
      rw [filterMap_cons_eq]
      exact ih h
  | case3 l seen v hv ih =>
      rw [filterMap_cons_eq, hv]
      exact ih h
  | case4 l v i' hv ih =>
      rw [filterMap_cons_eq, hv, ← ih h]
      simp
  | case5 | case6 => cases h

/-- Two identities that are told of both occur, and the smaller one comes first. -/
theorem mem_of_commonIdentity_error {a b : String}
    (h : commonIdentity identity seen l = .error (a, b)) :
    a < b ∧ a ∈ seen.toList ++ l.filterMap identity ∧ b ∈ seen.toList ++ l.filterMap identity := by
  fun_induction commonIdentity identity seen l with
  | case1 => cases h
  | case2 v l ih =>
      rw [filterMap_cons_eq]
      exact ih h
  | case3 l seen v hv ih =>
      rw [filterMap_cons_eq, hv]
      exact ih h
  | case4 l v i hv ih =>
      rw [filterMap_cons_eq, hv]
      exact (ih h).imp_right (And.imp (List.mem_cons_of_mem i) (List.mem_cons_of_mem i))
  | case5 l seen v i hv hne hlt =>
      cases h
      rw [filterMap_cons_eq, hv]
      exact ⟨hlt, by simp, by simp⟩
  | case6 l seen v i hv hne hnlt =>
      cases h
      rw [filterMap_cons_eq, hv]
      exact ⟨lt_of_le_of_ne (not_lt.1 hnlt) (Ne.symm hne), by simp, by simp⟩

end

section

variable [Ord μ] {kind : SetLike α μ} {s s' : SiblingSet α}

theorem identities_perm (h : s.Reorders s') : (kind.identities s').Perm (kind.identities s) :=
  h.values_perm.filterMap kind.identity

theorem exists_of_mem_identities {i : String} (h : i ∈ kind.identities s) :
    ∃ a ∈ s.members, kind.identity a.value = some i := by
  obtain ⟨v, hv, hi⟩ := List.mem_filterMap.1 h
  obtain ⟨a, ha, rfl⟩ := List.mem_map.1 hv
  exact ⟨a, ha, hi⟩

theorem disagrees_of_reorders (h : s.Reorders s') {outcome : Except Unresolved α}
    (hdisagrees : kind.Disagrees s' outcome) : kind.Disagrees s outcome := by
  obtain ⟨a, b, hlt, ha, hb, houtcome⟩ := hdisagrees
  rw [h.location_eq, h.size_eq] at houtcome
  have hsubset : kind.identities s' ⊆ kind.identities s := (identities_perm h).subset
  exact ⟨a, b, hlt, hsubset ha, hsubset hb, houtcome⟩

theorem not_disagrees {found : Option String} (h : ∀ i, i ∈ kind.identities s ↔ found = some i)
    (outcome : Except Unresolved α) : ¬ kind.Disagrees s outcome := by
  rintro ⟨a, b, hlt, ha, hb, -⟩
  have hab : some a = some b := ((h a).1 ha).symm.trans ((h b).1 hb)
  exact hlt.ne (Option.some.inj hab)

theorem eq_min_max {a b x y : String} (hlt : a < b) (ha : a = x ∨ a = y) (hb : b = x ∨ b = y) :
    a = min x y ∧ b = max x y := by
  rcases ha with rfl | rfl
  · rcases hb with rfl | rfl
    · exact absurd hlt (lt_irrefl b)
    · exact ⟨(min_eq_left hlt.le).symm, (max_eq_right hlt.le).symm⟩
  · rcases hb with rfl | rfl
    · exact ⟨(min_eq_right hlt.le).symm, (max_eq_left hlt.le).symm⟩
    · exact absurd hlt (lt_irrefl b)

/-- Of two identities only one pair can be told. -/
theorem eq_of_disagrees {x y : String} (htwo : ∀ i ∈ kind.identities s, i = x ∨ i = y)
    {outcome outcome' : Except Unresolved α} (h : kind.Disagrees s outcome)
    (h' : kind.Disagrees s outcome') : outcome' = outcome := by
  obtain ⟨a, b, hlt, ha, hb, rfl⟩ := h
  obtain ⟨a', b', hlt', ha', hb', rfl⟩ := h'
  obtain ⟨rfl, rfl⟩ := eq_min_max hlt (htwo a ha) (htwo b hb)
  obtain ⟨rfl, rfl⟩ := eq_min_max hlt' (htwo a' ha') (htwo b' hb')
  rfl

variable [Std.TransOrd μ]

theorem union_of_commonIdentity_ok (hconflict : s.isConflict = true) {found : Option String}
    (h : commonIdentity kind.identity none s.values = .ok found) :
    union kind s = .ok (kind.assemble found (.ofList (s.values.flatMap kind.members))) := by
  unfold union
  rw [hconflict, h]
  rfl

theorem union_of_commonIdentity_error (hconflict : s.isConflict = true) {a b : String}
    (h : commonIdentity kind.identity none s.values = .error (a, b)) :
    union kind s = .error ⟨s.location, s.size, .identities a b⟩ := by
  unfold union
  rw [hconflict, h]
  rfl

theorem union_of_not_isConflict (hsingle : s.isConflict = false) :
    union kind s = .ok s.first.value := by
  unfold union
  rw [hsingle]
  rfl

/-- A conflict is made one value of the only identity that occurs, or else two disagree. -/
theorem union_cases (kind : SetLike α μ) (hconflict : s.isConflict = true) :
    (∃ found, (∀ i, i ∈ kind.identities s ↔ found = some i) ∧
      union kind s = .ok (kind.assemble found (.ofList (s.values.flatMap kind.members)))) ∨
    kind.Disagrees s (union kind s) := by
  cases h : commonIdentity kind.identity none s.values with
  | ok found =>
      left
      exact ⟨found, mem_of_commonIdentity_ok h, union_of_commonIdentity_ok hconflict h⟩
  | error pair =>
      right
      obtain ⟨a, b⟩ := pair
      obtain ⟨hlt, ha, hb⟩ := mem_of_commonIdentity_error h
      exact ⟨a, b, hlt, ha, hb, union_of_commonIdentity_error hconflict h⟩

/-- In another order a union comes to the same, unless identities disagree in both. -/
theorem union_of_reorders [Std.LawfulEqOrd μ] (kind : SetLike α μ) (h : s.Reorders s') :
    union kind s' = union kind s ∨
      kind.Disagrees s (union kind s) ∧ kind.Disagrees s (union kind s') := by
  cases hconflict : s.isConflict with
  | false =>
      left
      have hconflict' : s'.isConflict = false := h.isConflict_eq.trans hconflict
      rw [union_of_not_isConflict hconflict, union_of_not_isConflict hconflict',
        h.first_eq hconflict]
  | true =>
      have hids (i : String) : i ∈ kind.identities s' ↔ i ∈ kind.identities s :=
        (identities_perm h).mem_iff
      rcases union_cases kind hconflict with ⟨found, hfound, hunion⟩ | hdisagrees
      · rcases union_cases kind (h.isConflict_eq.trans hconflict) with
          ⟨found', hfound', hunion'⟩ | hdisagrees'
        · left
          have hsame : found' = found := by
            ext i
            exact ((hfound' i).symm.trans (hids i)).trans (hfound i)
          rw [hunion, hunion', hsame,
            Ordered.Set.ofList_congr fun x => (h.values_perm.flatMap_right kind.members).mem_iff]
        · exact absurd (disagrees_of_reorders h hdisagrees') (not_disagrees hfound _)
      · rcases union_cases kind (h.isConflict_eq.trans hconflict) with
          ⟨found', hfound', hunion'⟩ | hdisagrees'
        · have hfound : ∀ i, i ∈ kind.identities s ↔ found' = some i :=
            fun i => (hids i).symm.trans (hfound' i)
          exact absurd hdisagrees (not_disagrees hfound _)
        · exact .inr ⟨hdisagrees, disagrees_of_reorders h hdisagrees'⟩

/-! ## Three identities -/

/-- The first two siblings are those that are told of, if they disagree. -/
theorem union_of_first {a b : Sibling α} {rest : List (Sibling α)}
    (hmembers : s.members = a :: b :: rest) {x y : String}
    (hx : kind.identity a.value = some x) (hy : kind.identity b.value = some y) (hne : x ≠ y) :
    ∃ p q, union kind s = .error ⟨s.location, s.size, .identities p q⟩ ∧
      (p = x ∧ q = y ∨ p = y ∧ q = x) := by
  have hconflict : s.isConflict = true := by
    unfold SiblingSet.isConflict SiblingSet.size
    rw [hmembers]
    exact decide_eq_true (by simp)
  have hcommon : commonIdentity kind.identity none s.values =
      if x < y then .error (x, y) else .error (y, x) := by
    unfold SiblingSet.values
    rw [hmembers]
    simp only [List.map_cons, commonIdentity, hx, hy, if_neg hne]
  by_cases hlt : x < y
  · rw [if_pos hlt] at hcommon
    exact ⟨x, y, union_of_commonIdentity_error hconflict hcommon, .inl ⟨rfl, rfl⟩⟩
  · rw [if_neg hlt] at hcommon
    exact ⟨y, x, union_of_commonIdentity_error hconflict hcommon, .inr ⟨rfl, rfl⟩⟩

theorem exists_union_eq {x y : String} (hx : x ∈ kind.identities s) (hy : y ∈ kind.identities s)
    (hne : x ≠ y) :
    ∃ s', s.Reorders s' ∧ ∃ p q,
      union kind s' = .error ⟨s.location, s.size, .identities p q⟩ ∧
      (p = x ∧ q = y ∨ p = y ∧ q = x) := by
  obtain ⟨a, ha, hax⟩ := exists_of_mem_identities hx
  obtain ⟨b, hb, hby⟩ := exists_of_mem_identities hy
  have hab : a ≠ b := by
    rintro rfl
    exact hne (Option.some.inj (hax.symm.trans hby))
  obtain ⟨s', h, rest, hmembers⟩ := SiblingSet.exists_reorders_first ha hb hab
  have hunion := union_of_first hmembers hax hby hne
  rw [h.location_eq, h.size_eq] at hunion
  exact ⟨s', h, hunion⟩

/-- Of three identities no pair is told in every order. -/
theorem exists_union_ne {x y z : String} (hx : x ∈ kind.identities s) (hy : y ∈ kind.identities s)
    (hz : z ∈ kind.identities s) (hxy : x ≠ y) (hxz : x ≠ z) (hyz : y ≠ z) :
    ∃ s', s.Reorders s' ∧ union kind s' ≠ union kind s := by
  obtain ⟨s₁, h₁, p₁, q₁, hunion₁, hpair₁⟩ := exists_union_eq hx hy hxy
  obtain ⟨s₂, h₂, p₂, q₂, hunion₂, hpair₂⟩ := exists_union_eq hx hz hxz
  by_cases hsame : union kind s₁ = union kind s
  · refine ⟨s₂, h₂, fun hsame' => ?_⟩
    rw [← hsame, hunion₁, hunion₂] at hsame'
    injection hsame' with hsame'
    injection hsame' with _ _ hreason
    injection hreason with hp hq
    -- the second of the three is told of in one order and not in the other
    have htold : y = p₁ ∨ y = q₁ := by
      rcases hpair₁ with ⟨-, hy₁⟩ | ⟨hy₁, -⟩
      · exact .inr hy₁.symm
      · exact .inl hy₁.symm
    have hnot : y ≠ p₂ ∧ y ≠ q₂ := by
      rcases hpair₂ with ⟨rfl, rfl⟩ | ⟨rfl, rfl⟩
      · exact ⟨hxy.symm, hyz⟩
      · exact ⟨hyz, hxy.symm⟩
    rw [← hp, ← hq] at htold
    rcases htold with htold | htold
    · exact hnot.1 htold
    · exact hnot.2 htold
  · exact ⟨s₁, h₁, hsame⟩

theorem forall_mem_or_exists_three (l : List String) :
    (∃ x y, ∀ i ∈ l, i = x ∨ i = y) ∨
      ∃ x ∈ l, ∃ y ∈ l, ∃ z ∈ l, x ≠ y ∧ x ≠ z ∧ y ≠ z := by
  by_cases htwo : ∃ x y, ∀ i ∈ l, i = x ∨ i = y
  · exact .inl htwo
  · right
    push Not at htwo
    obtain ⟨x, hx, -⟩ := htwo "" ""
    obtain ⟨y, hy, hyx, -⟩ := htwo x x
    obtain ⟨z, hz, hzx, hzy⟩ := htwo x y
    exact ⟨x, hx, y, hy, z, hz, hyx.symm, hzx.symm, hzy.symm⟩

end

end Resolver

/-- Whatever the order of the siblings, every resolver comes to the same outcome, except that
a union may tell of another two of the identities that disagree. It tells of the same two in
every order exactly if no more than two identities occur. -/
theorem Resolver.outcome_unordered [Ord μ] [Std.TransOrd μ] [Std.LawfulEqOrd μ]
    (kind : SetLike α μ) {s : SiblingSet α}
    (hdistinct : (s.members.map fun m => (m.time, m.tag)).Nodup) :
    (∀ s', s.Reorders s' →
      Resolver.manual s' = Resolver.manual s ∧
      Resolver.lastWriterWins s' = Resolver.lastWriterWins s ∧
      (∀ strategy : Strategy, strategy.resolver s' = strategy.resolver s) ∧
      (∀ strategy : Strategy, strategy ≠ .union →
        strategy.setResolver kind s' = strategy.setResolver kind s) ∧
      Strategy.union.setResolver kind s' = Resolver.union kind s' ∧
      (Resolver.union kind s' = Resolver.union kind s ∨
        kind.Disagrees s (Resolver.union kind s) ∧
          kind.Disagrees s (Resolver.union kind s'))) ∧
    ((∀ s', s.Reorders s' → Resolver.union kind s' = Resolver.union kind s) ↔
      ∃ x y, ∀ i ∈ kind.identities s, i = x ∨ i = y) := by
  have hlast : ∀ s', s.Reorders s' → Resolver.lastWriterWins s' = Resolver.lastWriterWins s := by
    intro s' h
    show Except.ok (newest s').value = Except.ok (newest s).value
    rw [newest_of_reorders h hdistinct]
  have hstrategy : ∀ s', s.Reorders s' → ∀ strategy : Strategy,
      strategy.resolver s' = strategy.resolver s := by
    intro s' h strategy
    cases strategy with
    | manual => exact unlessConflict_of_reorders h .manual
    | lastWriterWins => exact hlast s' h
    | union => exact unlessConflict_of_reorders h .notSetLike
  refine ⟨fun s' h => ⟨unlessConflict_of_reorders h .manual, hlast s' h, hstrategy s' h,
    fun strategy hne => ?_, rfl, union_of_reorders kind h⟩, fun h => ?_, ?_⟩
  · cases strategy with
    | manual => exact hstrategy s' h .manual
    | lastWriterWins => exact hstrategy s' h .lastWriterWins
    | union => exact absurd rfl hne
  · rcases forall_mem_or_exists_three (kind.identities s) with
      htwo | ⟨x, hx, y, hy, z, hz, hxy, hxz, hyz⟩
    · exact htwo
    · obtain ⟨s', hreorders, hne⟩ := exists_union_ne hx hy hz hxy hxz hyz
      exact absurd (h s' hreorders) hne
  · rintro ⟨x, y, htwo⟩ s' h
    rcases union_of_reorders kind h with hsame | ⟨hdisagrees, hdisagrees'⟩
    · exact hsame
    · exact eq_of_disagrees htwo hdisagrees hdisagrees'

def Cart.ofThreeOwners : SiblingSet Cart where
  location := ⟨"carts", "ann"⟩
  context := []
  members := [⟨⟨"ann", .empty⟩, 1, "t"⟩, ⟨⟨"bob", .empty⟩, 2, "t"⟩, ⟨⟨"cy", .empty⟩, 3, "t"⟩]
  nonempty := List.cons_ne_nil _ _

theorem Resolver.outcome_ordered_threeOwners :
    (¬ ∀ s', Cart.ofThreeOwners.Reorders s' →
      Resolver.union Cart.setLike s' = Resolver.union Cart.setLike Cart.ofThreeOwners) ∧
    (Unresolved.Reason.identities "ann" "bob").message ≠
      (Unresolved.Reason.identities "ann" "cy").message := by
  refine ⟨fun h => ?_, by decide +kernel⟩
  obtain ⟨x, y, htwo⟩ := (Resolver.outcome_unordered Cart.setLike (by decide)).2.1 h
  have hann := htwo "ann" (by decide)
  have hbob := htwo "bob" (by decide)
  have hcy := htwo "cy" (by decide)
  grind

end SiblingStore
