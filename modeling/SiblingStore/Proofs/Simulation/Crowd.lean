import SiblingStore.Simulation.World
import Mathlib.Logic.Relation
import Mathlib.Tactic.Common

/-!
# Many at once

Many share a world and take turns in any order. Anyone may join at any time, and in between
the world may change by itself. What every turn keeps is kept from the beginning to the end;
in particular, a level of the world that rises and falls with those who are counted stays
level with their number.
-/

namespace SiblingStore

/-- A world and those who share it, in the order in which they joined. -/
structure Crowd (τ : Type) where
  world : World
  members : List τ

/-- Who may join, what a turn can be, and what can befall the world in between. -/
structure Crowd.Rules (τ : Type) where
  joins : τ → Prop
  turn : World → τ → World → τ → Prop
  befalls : World → World → Prop

namespace Crowd

variable {τ : Type}

inductive Next (rules : Rules τ) : Crowd τ → Crowd τ → Prop where
  | join {w : World} {ts : List τ} {t : τ} : rules.joins t →
      Next rules ⟨w, ts⟩ ⟨w, ts ++ [t]⟩
  | turn {w w' : World} {before after : List τ} {t t' : τ} : rules.turn w t w' t' →
      Next rules ⟨w, before ++ t :: after⟩ ⟨w', before ++ t' :: after⟩
  | befall {w w' : World} {ts : List τ} : rules.befalls w w' → Next rules ⟨w, ts⟩ ⟨w', ts⟩

def Reaches (rules : Rules τ) : Crowd τ → Crowd τ → Prop := Relation.ReflTransGen (Next rules)

structure Rules.Keep (rules : Rules τ) (W : World → Prop) (M : τ → Prop) : Prop where
  join {t : τ} : rules.joins t → M t
  turn {w w' : World} {t t' : τ} : W w → M t → rules.turn w t w' t' → W w' ∧ M t'
  befall {w w' : World} : W w → rules.befalls w w' → W w'

/-- Whether, where the one property holds of the world and the other of the members, a level
of the world changes only with the number of those who are counted. -/
structure Rules.Balance (rules : Rules τ) (W : World → Prop) (M : τ → Prop) (level : World → Int)
    (counted : τ → Bool) : Prop where
  join {t : τ} : rules.joins t → counted t = false
  turn {w w' : World} {t t' : τ} : W w → M t → rules.turn w t w' t' →
    level w' - (counted t').toNat = level w - (counted t).toNat
  befall {w w' : World} : W w → rules.befalls w w' → level w' = level w

variable {rules : Rules τ} {W : World → Prop} {M : τ → Prop} {k k' : Crowd τ}

theorem Rules.Keep.next (hkeep : rules.Keep W M) (hworld : W k.world)
    (hmembers : ∀ t ∈ k.members, M t) (h : Next rules k k') :
    W k'.world ∧ ∀ t ∈ k'.members, M t := by
  cases h with
  | join hjoins =>
      refine ⟨hworld, fun t ht => ?_⟩
      rcases List.mem_append.1 ht with ht | ht
      · exact hmembers t ht
      · rw [List.mem_singleton.1 ht]
        exact hkeep.join hjoins
  | @turn w w' before after t t' hturn =>
      obtain ⟨hworld', ht'⟩ := hkeep.turn hworld (hmembers t (by simp)) hturn
      refine ⟨hworld', fun u hu => ?_⟩
      rcases List.mem_append.1 hu with hu | hu
      · exact hmembers u (List.mem_append_left _ hu)
      · rcases List.mem_cons.1 hu with rfl | hu
        · exact ht'
        · exact hmembers u (List.mem_append_right _ (List.mem_cons_of_mem _ hu))
  | befall hbefalls => exact ⟨hkeep.befall hworld hbefalls, hmembers⟩

theorem Rules.Keep.reaches (hkeep : rules.Keep W M) (hworld : W k.world)
    (hmembers : ∀ t ∈ k.members, M t) (h : Reaches rules k k') :
    W k'.world ∧ ∀ t ∈ k'.members, M t := by
  induction h with
  | refl => exact ⟨hworld, hmembers⟩
  | tail _ hnext ih => exact hkeep.next ih.1 ih.2 hnext

theorem Rules.Balance.next {level : World → Int} {counted : τ → Bool}
    (hbalance : rules.Balance W M level counted) (hworld : W k.world)
    (hmembers : ∀ t ∈ k.members, M t) (h : Next rules k k') :
    level k'.world - k'.members.countP counted = level k.world - k.members.countP counted := by
  cases h with
  | @join w ts t hjoins =>
      have hcount : (ts ++ [t]).countP counted = ts.countP counted := by
        rw [List.countP_append, List.countP_singleton, hbalance.join hjoins]
        rfl
      rw [hcount]
  | @turn w w' before after t t' hturn =>
      have hlevel : level w' - (counted t').toNat = level w - (counted t).toNat :=
        hbalance.turn hworld (hmembers t (by simp)) hturn
      have hcount (u : τ) : (before ++ u :: after).countP counted =
          before.countP counted + after.countP counted + (counted u).toNat := by
        rw [List.countP_append, List.countP_cons]
        cases counted u with
        | false => simp
        | true => simp; omega
      show level w' - ((before ++ t' :: after).countP counted : Int) =
        level w - ((before ++ t :: after).countP counted : Int)
      rw [hcount, hcount]
      push_cast
      omega
  | befall hbefalls => rw [hbalance.befall hworld hbefalls]

/-- From when nobody had joined, the level has risen by the number of those who are counted. -/
theorem Rules.Balance.reaches {level : World → Int} {counted : τ → Bool} {w₀ : World}
    (hbalance : rules.Balance W M level counted) (hkeep : rules.Keep W M) (hworld : W w₀)
    (h : Reaches rules ⟨w₀, []⟩ k) :
    level k.world = level w₀ + k.members.countP counted := by
  have hkept {k : Crowd τ} (h : Reaches rules ⟨w₀, []⟩ k) :=
    hkeep.reaches hworld (by simp) h
  induction h with
  | refl => simp
  | tail h hnext ih =>
      have hlevel := hbalance.next (hkept h).1 (hkept h).2 hnext
      omega

end Crowd

end SiblingStore
