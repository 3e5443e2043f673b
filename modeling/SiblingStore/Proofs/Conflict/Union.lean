import SiblingStore.Proofs.Conflict.Order

/-!
# Siblings resolved in groups

A union asks of its siblings only which identities and which members occur among them. So it
does not matter how often a value occurs, nor whether some siblings are made one first and
what comes of them is put in their place: the outcome is that of resolving all at once.
-/

namespace SiblingStore

variable {α μ : Type} [Ord μ]

namespace SetLike

/-- Whether a value can be made of an identity: of none, or of one that some value has. -/
def Known (kind : SetLike α μ) (identity : Option String) : Prop :=
  identity = none ∨ ∃ v, kind.identity v = identity

/-- Whether a value is its identity and its members and no more. -/
structure Lawful [Std.TransOrd μ] (kind : SetLike α μ) : Prop where
  assemble_parts (v : α) : kind.assemble (kind.identity v) (.ofList (kind.members v)) = v
  identity_assemble {i : Option String} (h : kind.Known i) (m : Ordered.Set μ) :
    kind.identity (kind.assemble i m) = i
  members_assemble {i : Option String} (h : kind.Known i) (m : Ordered.Set μ) :
    .ofList (kind.members (kind.assemble i m)) = m

theorem lawful_plain [Std.TransOrd μ] [Std.LawfulEqOrd μ] : (SetLike.plain μ).Lawful where
  assemble_parts s := Ordered.Set.ofList_toList s
  identity_assemble := by
    rintro i (rfl | ⟨v, rfl⟩) m
    · rfl
    · rfl
  members_assemble _ m := Ordered.Set.ofList_toList m

def owned (μ : Type) [Ord μ] : SetLike (Option String × Ordered.Set μ) μ where
  identity := Prod.fst
  members := fun v => v.2.toList
  assemble := Prod.mk

theorem lawful_owned [Std.TransOrd μ] [Std.LawfulEqOrd μ] : (SetLike.owned μ).Lawful where
  assemble_parts v := congrArg (Prod.mk v.1) (Ordered.Set.ofList_toList v.2)
  identity_assemble _ _ := rfl
  members_assemble _ m := Ordered.Set.ofList_toList m

end SetLike

theorem Cart.getD_ownerName? (c : Cart) : c.ownerName?.getD "" = c.owner := by
  unfold ownerName?
  split
  · rename_i hempty
    exact (String.isEmpty_iff.1 hempty).symm
  · rfl

theorem Cart.lawful_setLike : Cart.setLike.Lawful where
  assemble_parts c := by
    show Cart.mk (c.ownerName?.getD "") (.ofList c.items.toList) = c
    rw [Cart.getD_ownerName?, Ordered.Set.ofList_toList]
  identity_assemble := by
    rintro i (rfl | ⟨c, rfl⟩) m
    · rfl
    · show Cart.ownerName? ⟨c.ownerName?.getD "", m⟩ = c.ownerName?
      rw [Cart.getD_ownerName?]
      rfl
  members_assemble _ m := Ordered.Set.ofList_toList m

namespace SetLike

/-! ## What occurs among values -/

/-- Whether the same identities and the same members occur in two lists of values. -/
structure SameParts (kind : SetLike α μ) (vs ws : List α) : Prop where
  identity_iff (i : String) : i ∈ vs.filterMap kind.identity ↔ i ∈ ws.filterMap kind.identity
  member_iff (x : μ) : x ∈ vs.flatMap kind.members ↔ x ∈ ws.flatMap kind.members

def Agree (kind : SetLike α μ) (vs : List α) : Prop :=
  ∀ i ∈ vs.filterMap kind.identity, ∀ j ∈ vs.filterMap kind.identity, i = j

variable {kind : SetLike α μ} {us us' vs vs' ws : List α} {v w : α}

namespace SameParts

theorem refl : kind.SameParts vs vs := ⟨fun _ => .rfl, fun _ => .rfl⟩

theorem symm (h : kind.SameParts vs ws) : kind.SameParts ws vs :=
  ⟨fun i => (h.identity_iff i).symm, fun x => (h.member_iff x).symm⟩

theorem trans (h : kind.SameParts us vs) (h' : kind.SameParts vs ws) : kind.SameParts us ws :=
  ⟨fun i => (h.identity_iff i).trans (h'.identity_iff i),
    fun x => (h.member_iff x).trans (h'.member_iff x)⟩

theorem append (h : kind.SameParts us us') (h' : kind.SameParts vs vs') :
    kind.SameParts (us ++ vs) (us' ++ vs') where
  identity_iff i := by
    rw [List.filterMap_append, List.filterMap_append, List.mem_append, List.mem_append,
      h.identity_iff, h'.identity_iff]
  member_iff x := by
    rw [List.flatMap_append, List.flatMap_append, List.mem_append, List.mem_append,
      h.member_iff, h'.member_iff]

theorem of_mem_iff (h : ∀ v, v ∈ vs ↔ v ∈ ws) : kind.SameParts vs ws where
  identity_iff i := by simp only [List.mem_filterMap, h]
  member_iff x := by simp only [List.mem_flatMap, h]

theorem agree (h : kind.SameParts vs ws) (hws : kind.Agree ws) : kind.Agree vs :=
  fun i hi j hj => hws i ((h.identity_iff i).1 hi) j ((h.identity_iff j).1 hj)

end SameParts

theorem mem_identity_singleton {i : String} :
    i ∈ [w].filterMap kind.identity ↔ kind.identity w = some i := by
  rw [Resolver.filterMap_cons_eq]
  simp

theorem mem_members_singleton {x : μ} : x ∈ [w].flatMap kind.members ↔ x ∈ kind.members w := by
  rw [List.flatMap_singleton]

theorem sameParts_singleton_iff :
    kind.SameParts vs [w] ↔
      (∀ i, kind.identity w = some i ↔ i ∈ vs.filterMap kind.identity) ∧
        ∀ x, x ∈ kind.members w ↔ ∃ v ∈ vs, x ∈ kind.members v := by
  constructor
  · intro h
    refine ⟨fun i => ?_, fun x => ?_⟩
    · rw [← mem_identity_singleton, ← h.identity_iff]
    · rw [← mem_members_singleton, ← h.member_iff, List.mem_flatMap]
  · rintro ⟨hidentity, hmembers⟩
    refine ⟨fun i => ?_, fun x => ?_⟩
    · rw [mem_identity_singleton, hidentity]
    · rw [mem_members_singleton, hmembers, List.mem_flatMap]

theorem agree_singleton : kind.Agree [w] := by
  intro i hi j hj
  have hij : some i = some j :=
    (mem_identity_singleton.1 hi).symm.trans (mem_identity_singleton.1 hj)
  exact Option.some.inj hij

theorem Agree.mono (h : kind.Agree ws) (hsub : vs ⊆ ws) : kind.Agree vs :=
  fun i hi j hj => h i (List.filterMap_subset _ hsub hi) j (List.filterMap_subset _ hsub hj)

theorem known_of_mem_iff {found : Option String}
    (h : ∀ i, i ∈ vs.filterMap kind.identity ↔ found = some i) : kind.Known found := by
  cases found with
  | none => exact .inl rfl
  | some i =>
      obtain ⟨v, -, hv⟩ := List.mem_filterMap.1 ((h i).2 rfl)
      exact .inr ⟨v, hv⟩

variable [Std.TransOrd μ]

/-- A value is determined by what occurs in it. -/
theorem Lawful.eq_of_sameParts [Std.LawfulEqOrd μ] (hkind : kind.Lawful)
    (h : kind.SameParts [v] [w]) : v = w := by
  have hidentity : kind.identity v = kind.identity w := by
    ext i
    rw [← mem_identity_singleton, ← mem_identity_singleton]
    exact h.identity_iff i
  have hmembers : Ordered.Set.ofList (kind.members v) = .ofList (kind.members w) := by
    apply Ordered.Set.ofList_congr
    intro x
    rw [← mem_members_singleton, ← mem_members_singleton]
    exact h.member_iff x
  rw [← hkind.assemble_parts v, hidentity, hmembers, hkind.assemble_parts]

end SetLike

namespace Resolver

variable [Std.TransOrd μ] {kind : SetLike α μ} {s : SiblingSet α} {w : α}

theorem values_of_not_isConflict (hsingle : s.isConflict = false) :
    s.values = [s.first.value] := by
  have hlength : s.members.tail = [] := by
    have hle : ¬ 1 < s.members.length := of_decide_eq_false hsingle
    apply List.eq_nil_of_length_eq_zero
    rw [List.length_tail]
    omega
  unfold SiblingSet.values
  rw [← first_cons_tail, hlength]
  rfl

theorem exists_union_iff (kind : SetLike α μ) (s : SiblingSet α) :
    (∃ w, union kind s = .ok w) ↔ kind.Agree s.values := by
  cases hconflict : s.isConflict with
  | false =>
      rw [union_of_not_isConflict hconflict, values_of_not_isConflict hconflict]
      exact ⟨fun _ => SetLike.agree_singleton, fun _ => ⟨_, rfl⟩⟩
  | true =>
      rcases union_cases kind hconflict with ⟨found, hfound, hunion⟩ | hdisagrees
      · refine ⟨fun _ i hi j hj => ?_, fun _ => ⟨_, hunion⟩⟩
        have hij : some i = some j := ((hfound i).1 hi).symm.trans ((hfound j).1 hj)
        exact Option.some.inj hij
      · obtain ⟨a, b, hlt, ha, hb, hunion⟩ := hdisagrees
        constructor
        · rintro ⟨w, hw⟩
          rw [hunion] at hw
          cases hw
        · intro hagree
          exact absurd (hagree a ha b hb) hlt.ne

theorem sameParts_of_union [Std.LawfulEqOrd μ] (hkind : kind.Lawful) (h : union kind s = .ok w) :
    kind.SameParts s.values [w] := by
  cases hconflict : s.isConflict with
  | false =>
      rw [union_of_not_isConflict hconflict] at h
      cases h
      rw [values_of_not_isConflict hconflict]
      exact SetLike.SameParts.refl
  | true =>
      rcases union_cases kind hconflict with ⟨found, hfound, hunion⟩ | ⟨a, b, -, -, -, hunion⟩
      · rw [hunion] at h
        cases h
        have hknown : kind.Known found := SetLike.known_of_mem_iff hfound
        refine SetLike.sameParts_singleton_iff.2 ⟨fun i => ?_, fun x => ?_⟩
        · rw [hkind.identity_assemble hknown]
          exact (hfound i).symm
        · rw [← Ordered.Set.mem_toList_ofList (l := kind.members _),
            hkind.members_assemble hknown, Ordered.Set.mem_toList_ofList, List.mem_flatMap]
      · rw [hunion] at h
        cases h

theorem union_eq_ok_iff [Std.LawfulEqOrd μ] (hkind : kind.Lawful) :
    union kind s = .ok w ↔ kind.SameParts s.values [w] := by
  refine ⟨sameParts_of_union hkind, fun h => ?_⟩
  obtain ⟨v, hv⟩ := (exists_union_iff kind s).2 (h.agree SetLike.agree_singleton)
  have hvw : v = w := hkind.eq_of_sameParts ((sameParts_of_union hkind hv).symm.trans h)
  rw [hv, hvw]

end Resolver

/-! ## Siblings in groups -/

/-- Siblings of which some are to be made one before the rest are, in groups within groups.
What comes of a group stands where the group stood, with a time and a tag of its own. -/
inductive Grouping (α : Type) where
  | one (member : Sibling α)
  | group (location : Location) (context : Bytes) (time : UInt64) (tag : String)
      (first : Grouping α) (rest : List (Grouping α))

namespace Grouping

mutual

def values : Grouping α → List α
  | one member => [member.value]
  | group _ _ _ _ first rest => first.values ++ valuesOf rest

def valuesOf : List (Grouping α) → List α
  | [] => []
  | g :: gs => g.values ++ valuesOf gs

end

mutual

/-- Makes one of each group what a resolver makes of it, the groups within it first. -/
def resolve (resolver : Resolver α) : Grouping α → Except Unresolved (Sibling α)
  | one member => .ok member
  | group location context time tag first rest => do
    let member ← first.resolve resolver
    let members ← resolveEach resolver rest
    let value ← resolver ⟨location, context, member :: members, List.cons_ne_nil _ _⟩
    return ⟨value, time, tag⟩

def resolveEach (resolver : Resolver α) : List (Grouping α) → Except Unresolved (List (Sibling α))
  | [] => .ok []
  | g :: gs => do
    let member ← g.resolve resolver
    let members ← resolveEach resolver gs
    return member :: members

end

theorem bind_eq_ok_iff {ε β γ : Type} {x : Except ε β} {f : β → Except ε γ} {c : γ} :
    x >>= f = .ok c ↔ ∃ b, x = .ok b ∧ f b = .ok c := by
  cases x with
  | error e => simp [bind, Except.bind]
  | ok b => simp [bind, Except.bind]

section

variable {resolver : Resolver α} {location : Location} {context : Bytes} {time : UInt64}
  {tag : String} {first g : Grouping α} {rest gs : List (Grouping α)}

theorem resolve_group_eq_ok_iff {m : Sibling α} :
    (group location context time tag first rest).resolve resolver = .ok m ↔
      ∃ a, first.resolve resolver = .ok a ∧ ∃ as, resolveEach resolver rest = .ok as ∧
        ∃ w, resolver ⟨location, context, a :: as, List.cons_ne_nil _ _⟩ = .ok w ∧
          ⟨w, time, tag⟩ = m := by
  simp only [resolve, bind_eq_ok_iff, pure, Except.pure, Except.ok.injEq]

theorem resolveEach_cons_eq_ok_iff {ms : List (Sibling α)} :
    resolveEach resolver (g :: gs) = .ok ms ↔
      ∃ a, g.resolve resolver = .ok a ∧ ∃ as, resolveEach resolver gs = .ok as ∧
        a :: as = ms := by
  simp only [resolveEach, bind_eq_ok_iff, pure, Except.pure, Except.ok.injEq]

end

variable [Std.TransOrd μ] {kind : SetLike α μ}

mutual

/-- In what comes of a group occurs what occurs in it. -/
theorem sameParts_resolve [Std.LawfulEqOrd μ] (hkind : kind.Lawful) {g : Grouping α}
    {m : Sibling α} (h : g.resolve (Resolver.union kind) = .ok m) :
    kind.SameParts g.values [m.value] := by
  cases g with
  | one member =>
      rw [resolve] at h
      cases h
      exact SetLike.SameParts.refl
  | group location context time tag first rest =>
      obtain ⟨a, ha, as, has, w, hw, rfl⟩ := resolve_group_eq_ok_iff.1 h
      have hparts := (sameParts_resolve hkind ha).append (sameParts_resolveEach hkind has)
      rw [values]
      exact hparts.trans (Resolver.sameParts_of_union hkind hw)

theorem sameParts_resolveEach [Std.LawfulEqOrd μ] (hkind : kind.Lawful) {gs : List (Grouping α)}
    {ms : List (Sibling α)} (h : resolveEach (Resolver.union kind) gs = .ok ms) :
    kind.SameParts (valuesOf gs) (ms.map (·.value)) := by
  cases gs with
  | nil =>
      rw [resolveEach] at h
      cases h
      exact SetLike.SameParts.refl
  | cons g gs =>
      obtain ⟨a, ha, as, has, rfl⟩ := resolveEach_cons_eq_ok_iff.1 h
      rw [valuesOf]
      exact (sameParts_resolve hkind ha).append (sameParts_resolveEach hkind has)

end

mutual

/-- No group fails whose siblings agree, wherever they stand in it. -/
theorem exists_resolve [Std.LawfulEqOrd μ] (hkind : kind.Lawful) {g : Grouping α}
    (hagree : kind.Agree g.values) : ∃ m, g.resolve (Resolver.union kind) = .ok m := by
  cases g with
  | one member => exact ⟨member, by rw [resolve]⟩
  | group location context time tag first rest =>
      rw [values] at hagree
      obtain ⟨a, ha⟩ := exists_resolve hkind (hagree.mono (List.subset_append_left _ _))
      obtain ⟨as, has⟩ := exists_resolveEach hkind (hagree.mono (List.subset_append_right _ _))
      -- what was made of the parts agrees as the parts do, so nothing fails at the last step
      have hparts := (sameParts_resolve hkind ha).append (sameParts_resolveEach hkind has)
      obtain ⟨w, hw⟩ := (Resolver.exists_union_iff kind
        ⟨location, context, a :: as, List.cons_ne_nil _ _⟩).2 (hparts.symm.agree hagree)
      exact ⟨_, resolve_group_eq_ok_iff.2 ⟨a, ha, as, has, w, hw, rfl⟩⟩

theorem exists_resolveEach [Std.LawfulEqOrd μ] (hkind : kind.Lawful) {gs : List (Grouping α)}
    (hagree : kind.Agree (valuesOf gs)) : ∃ ms, resolveEach (Resolver.union kind) gs = .ok ms := by
  cases gs with
  | nil => exact ⟨[], by rw [resolveEach]⟩
  | cons g gs =>
      rw [valuesOf] at hagree
      obtain ⟨a, ha⟩ := exists_resolve hkind (hagree.mono (List.subset_append_left _ _))
      obtain ⟨as, has⟩ := exists_resolveEach hkind (hagree.mono (List.subset_append_right _ _))
      exact ⟨_, resolveEach_cons_eq_ok_iff.2 ⟨a, ha, as, has, rfl⟩⟩

end

theorem exists_resolve_iff [Std.LawfulEqOrd μ] (hkind : kind.Lawful) {g : Grouping α} {w : α} :
    (∃ m, g.resolve (Resolver.union kind) = .ok m ∧ m.value = w) ↔
      kind.SameParts g.values [w] := by
  constructor
  · rintro ⟨m, hm, rfl⟩
    exact sameParts_resolve hkind hm
  · intro h
    obtain ⟨m, hm⟩ := exists_resolve hkind (h.agree SetLike.agree_singleton)
    have hmw := hkind.eq_of_sameParts ((sameParts_resolve hkind hm).symm.trans h)
    exact ⟨m, hm, hmw⟩

end Grouping

theorem toOption_eq_some_iff {ε : Type} {outcome : Except ε α} {w : α} :
    outcome.toOption = some w ↔ outcome = .ok w := by
  cases outcome with
  | error e => simp [Except.toOption]
  | ok v => simp [Except.toOption]

/-- A union is made exactly of siblings among which one identity at most occurs, and it has that
identity and all their members. It is the same for all siblings with the same values, in any
order and however often they occur, and for all ways to make some of them one before the rest:
none of these fails unless all do. -/
theorem Resolver.union_regrouped [Std.TransOrd μ] [Std.LawfulEqOrd μ] {kind : SetLike α μ}
    (hkind : kind.Lawful) (s : SiblingSet α) :
    ((∃ w, Resolver.union kind s = .ok w) ↔
      ∀ i ∈ kind.identities s, ∀ j ∈ kind.identities s, i = j) ∧
    (∀ w, Resolver.union kind s = .ok w ↔
      (∀ i, kind.identity w = some i ↔ i ∈ kind.identities s) ∧
        ∀ x, x ∈ kind.members w ↔ ∃ v ∈ s.values, x ∈ kind.members v) ∧
    (∀ s' : SiblingSet α, (∀ v, v ∈ s'.values ↔ v ∈ s.values) →
      (Resolver.union kind s').toOption = (Resolver.union kind s).toOption) ∧
    (∀ g : Grouping α, (∀ v, v ∈ g.values ↔ v ∈ s.values) →
      (g.resolve (Resolver.union kind)).toOption.map (·.value) =
        (Resolver.union kind s).toOption) := by
  refine ⟨Resolver.exists_union_iff kind s, fun w => ?_, fun s' h => ?_, fun g h => ?_⟩
  · exact (Resolver.union_eq_ok_iff hkind).trans SetLike.sameParts_singleton_iff
  · have hparts : kind.SameParts s'.values s.values := SetLike.SameParts.of_mem_iff h
    ext w
    rw [toOption_eq_some_iff, toOption_eq_some_iff, Resolver.union_eq_ok_iff hkind,
      Resolver.union_eq_ok_iff hkind]
    exact ⟨hparts.symm.trans, hparts.trans⟩
  · have hparts : kind.SameParts g.values s.values := SetLike.SameParts.of_mem_iff h
    ext w
    simp only [Option.map_eq_some_iff, toOption_eq_some_iff]
    rw [Grouping.exists_resolve_iff hkind, Resolver.union_eq_ok_iff hkind]
    exact ⟨hparts.symm.trans, hparts.trans⟩

def Cart.ofOneOwner : SiblingSet Cart where
  location := ⟨"carts", "ann"⟩
  context := []
  members := [⟨⟨"ann", .ofList ["pear"]⟩, 1, "t"⟩, ⟨⟨"", .ofList ["fig"]⟩, 2, "t"⟩,
    ⟨⟨"ann", .ofList ["fig", "apple"]⟩, 3, "t"⟩]
  nonempty := List.cons_ne_nil _ _

/-- The same carts, two of them made one before the rest, and one of these named twice. -/
def Cart.ofOneOwnerInGroups : Grouping Cart :=
  .group ⟨"carts", "ann"⟩ [] 5 "t"
    (.group ⟨"carts", "ann"⟩ [] 4 "t"
      (.one ⟨⟨"ann", .ofList ["fig", "apple"]⟩, 3, "t"⟩)
      [.one ⟨⟨"", .ofList ["fig"]⟩, 2, "t"⟩])
    [.one ⟨⟨"", .ofList ["fig"]⟩, 2, "t"⟩, .one ⟨⟨"ann", .ofList ["pear"]⟩, 1, "t"⟩]

theorem Resolver.union_regrouped_oneOwner :
    (SetLike.plain String).Lawful ∧ (SetLike.owned String).Lawful ∧ Cart.setLike.Lawful ∧
    (∀ v, v ∈ Cart.ofOneOwnerInGroups.values ↔ v ∈ Cart.ofOneOwner.values) ∧
    (Cart.ofOneOwnerInGroups.resolve (Resolver.union Cart.setLike)).toOption.map (·.value) =
      some ⟨"ann", .ofList ["apple", "fig", "pear"]⟩ := by
  have hvalues : ∀ v, v ∈ Cart.ofOneOwnerInGroups.values ↔ v ∈ Cart.ofOneOwner.values := by
    intro v
    simp only [Cart.ofOneOwnerInGroups, Cart.ofOneOwner, Grouping.values, Grouping.valuesOf,
      SiblingSet.values, List.map_cons, List.map_nil, List.mem_append, List.mem_cons,
      List.not_mem_nil, or_false]
    tauto
  refine ⟨SetLike.lawful_plain, SetLike.lawful_owned, Cart.lawful_setLike, hvalues, ?_⟩
  rw [(Resolver.union_regrouped Cart.lawful_setLike Cart.ofOneOwner).2.2.2 _ hvalues]
  decide +kernel

end SiblingStore
