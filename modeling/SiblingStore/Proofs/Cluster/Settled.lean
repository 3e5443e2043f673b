import SiblingStore.Proofs.Cluster.Majority
import Mathlib.Data.List.Nodup

/-!
# Locations with one version on top

As long as every write builds on what a majority holds, one version of a location
is above all others, wherever these are left, and most replicas hold it. Reads
find that version alone.
-/

namespace SiblingStore

open Version (Apart Reach)

namespace Cluster

/-- Whether `top` is above all other versions of a location and held by most replicas;
without it there are no versions. -/
def Settled (c : Cluster) (l : Location) : Option Version → Prop
  | none => ∀ v, c.Holds v → v.location ≠ l
  | some top => top.location = l ∧
      (∀ v, c.Holds v → v.location = l → v = top ∨ v.clock < top.clock) ∧
      c.Most fun r => top ∈ r.store.versions l

theorem settled_empty (settings : ClusterSettings) (node : ClientId) (l : Location) :
    (empty settings node).Settled l none := by
  rintro v ⟨r, hr, hv⟩ -
  rw [(List.mem_replicate.1 hr).2] at hv
  exact List.not_mem_nil hv

/-! ## Reading -/

theorem eq_top_of_le {top v : Version} (h : v = top ∨ v.clock < top.clock)
    (hle : top.clock ≤ v.clock) : top = v := by
  rcases h with rfl | hlt
  · rfl
  · exact absurd hle hlt.not_ge

theorem reconcile_eq_singleton {vs : List Version} {top : Version} (htop : top ∈ vs)
    (h : ∀ v ∈ vs, v = top ∨ v.clock < top.clock) : reconcile vs = [top] := by
  have hmem : top ∈ reconcile vs :=
    mem_reconcile htop fun w hw hle => (eq_top_of_le (h w hw) hle).symm
  have hall : ∀ w ∈ reconcile vs, w = top := by
    intro w hw
    have hle : w.clock ≤ top.clock := by
      rcases h w (mem_of_mem_reconcile hw) with rfl | hlt
      · exact le_rfl
      · exact hlt.le
    exact eq_of_le_of_mem (pairwise_reconcile vs) hw hmem hle
  have hnodup : (reconcile vs).Nodup :=
    List.Nodup.of_map (·.clock) (nodup_clocks (pairwise_reconcile vs))
  match hlist : reconcile vs with
  | [] => simp [hlist] at hmem
  | [w] => rw [hall w (by simp [hlist])]
  | w :: w' :: ws =>
      rw [hlist] at hnodup
      have hsame : w = w' :=
        (hall w (by simp [hlist])).trans (hall w' (by simp [hlist])).symm
      simp [hsame] at hnodup

theorem Settled.reconcile_held {c : Cluster} {l : Location} {top : Option Version}
    (h : c.Settled l top) (hup : c.Most (·.up = true)) :
    reconcile (c.held l) = top.toList := by
  cases top with
  | none =>
      have hnil : c.held l = [] := by
        refine List.eq_nil_iff_forall_not_mem.2 fun v hv => ?_
        exact h v (holds_of_mem_held hv) (location_of_mem_held hv)
      rw [hnil]
      rfl
  | some top =>
      obtain ⟨-, hbelow, hmost⟩ := h
      obtain ⟨r, hr, hmem, hrup⟩ := hmost.exists_both hup
      refine reconcile_eq_singleton (mem_held_iff.2 ⟨r, hr, hrup, hmem⟩) fun v hv => ?_
      exact hbelow v (holds_of_mem_held hv) (location_of_mem_held hv)

/-! ## Steps -/

/-- Nothing changes for a location of which no fresh version comes. -/
theorem Settled.grows {c c' : Cluster} {l : Location} {top fresh : Option Version}
    (h : c.Settled l top) (hgrows : c.Grows fresh c')
    (hfresh : ∀ v, fresh = some v → v.location ≠ l) : c'.Settled l top := by
  have hheld : ∀ v, c'.Holds v → v.location = l → c.Holds v := by
    intro v hv hl
    rcases hgrows.holds hv with hv | hv
    · exact hv
    · exact absurd hl (hfresh v hv)
  cases top with
  | none => exact fun v hv hl => h v (hheld v hv hl) hl
  | some top =>
      obtain ⟨htop, hbelow, hmost⟩ := h
      refine ⟨htop, fun v hv hl => hbelow v (hheld v hv hl) hl, ?_⟩
      refine hmost.grows hgrows fun r r' htakes hr => ?_
      refine htakes.versions (P := fun vs => top ∈ vs) (fun vs v hv hl hvs => ?_) hr
      refine Version.mem_settle_of_mem hvs fun hle => ?_
      rcases hv with hv | hv
      · exact eq_top_of_le (hbelow v hv hl) hle
      · exact absurd hl (hfresh v hv)

/-- A version above all others is on top once a majority has it. -/
theorem settled_write {c : Cluster} {v : Version} (hup : c.Most (·.up = true))
    (h : ∀ e, c.Holds e → e.location = v.location → e.clock < v.clock) :
    (c.write v).Settled v.location (some v) := by
  refine ⟨rfl, fun e he hl => ?_, most_mem_write hup fun e he hl => (h e he hl).not_gt⟩
  rcases (grows_write c v).holds he with he | he
  · exact .inr (h e he hl)
  · exact .inl (Option.some_inj.1 he).symm

theorem settled_write_of_ne {c : Cluster} {v : Version} {l : Location} {top : Option Version}
    (h : c.Settled l top) (hne : v.location ≠ l) : (c.write v).Settled l top :=
  h.grows (grows_write c v) fun w hw => by rwa [← Option.some_inj.1 hw]

/-! ## Clusters as maps -/

def valueOf (top : Option Version) : Option Bytes :=
  (top.filter fun v => !v.tombstone).map (·.value)

def Reflects (c : Cluster) (m : Location → Option Bytes) : Prop :=
  ∀ l, ∃ top, c.Settled l top ∧ m l = valueOf top

theorem reflects_empty (settings : ClusterSettings) (node : ClientId) :
    (empty settings node).Reflects fun _ => none :=
  fun l => ⟨none, settled_empty settings node l, rfl⟩

theorem Reflects.grows {c c' : Cluster} {m : Location → Option Bytes} (h : c.Reflects m)
    (hgrows : c.Grows none c') : c'.Reflects m := by
  intro l
  obtain ⟨top, htop, hm⟩ := h l
  exact ⟨top, htop.grows hgrows fun v hv => absurd hv (by simp), hm⟩

def update {α : Type} (m : Location → Option α) (l : Location) (value : Option α) :
    Location → Option α :=
  fun l' => if l' = l then value else m l'

theorem Reflects.write {c : Cluster} {m : Location → Option Bytes} (h : c.Reflects m)
    {v : Version} (hup : c.Most (·.up = true))
    (hv : ∀ e, c.Holds e → e.location = v.location → e.clock < v.clock) :
    (c.write v).Reflects (update m v.location (valueOf (some v))) := by
  intro l
  by_cases hl : l = v.location
  · subst hl
    exact ⟨some v, settled_write hup hv, by rw [update, if_pos rfl]⟩
  · obtain ⟨top, htop, hm⟩ := h l
    refine ⟨top, settled_write_of_ne htop (Ne.symm hl), ?_⟩
    rw [update, if_neg hl, hm]

/-- A read tells the value of a location, in one version or none. -/
theorem Reflects.replyOf {c : Cluster} {m : Location → Option Bytes} (h : c.Reflects m)
    (hup : c.Most (·.up = true)) (l : Location) :
    (Cluster.replyOf (reconcile (c.held l))).versions.map (·.value) = (m l).toList := by
  obtain ⟨top, htop, hm⟩ := h l
  rw [htop.reconcile_held hup, hm]
  cases top with
  | none => rfl
  | some top =>
      cases htomb : top.tombstone <;> simp [Cluster.replyOf, valueOf, Option.filter, htomb]

/-- What a majority holds of a location covers all that is held of it. -/
theorem Reflects.clock_le_coverOf {c : Cluster} {m : Location → Option Bytes} (h : c.Reflects m)
    (hup : c.Most (·.up = true)) {l : Location} {v : Version} (hv : c.Holds v)
    (hl : v.location = l) : v.clock ≤ coverOf (reconcile (c.held l)) := by
  obtain ⟨top, htop, -⟩ := h l
  rw [htop.reconcile_held hup]
  cases top with
  | none => exact absurd hl (htop v hv)
  | some top =>
      have hcover : top.clock ≤ coverOf (some top).toList := le_coverOf (by simp)
      rcases htop.2.1 v hv hl with rfl | hlt
      · exact hcover
      · exact hlt.le.trans hcover

/-! ## Requests of a sequential client -/

def Unspent (c : Cluster) : Prop := ∀ v, c.Holds v → ∀ actor, v.clock.Room actor

theorem unspent_iff {c : Cluster} :
    c.Unspent ↔ ∀ r ∈ c.replicas, ∀ v ∈ r.store.table.records, ∀ actor ∈ v.clock.actors,
      (v.clock.get actor).toNat + 1 < UInt64.size := by
  constructor
  · intro h r hr v hv actor _
    exact h v ⟨r, hr, List.mem_filter.2 ⟨hv, by simp⟩⟩ actor
  · rintro h v ⟨r, hr, hv⟩ actor
    by_cases hactor : actor ∈ v.clock.actors
    · exact h r hr v (List.mem_filter.1 hv).1 actor hactor
    · unfold Clock.Room
      rw [Clock.get_eq_zero_of_notMem hactor]
      decide

instance (c : Cluster) : Decidable c.Unspent := decidable_of_iff _ unspent_iff.symm

theorem Unspent.grows {c c' : Cluster} (h : c.Unspent) (hgrows : c.Grows none c') :
    c'.Unspent := by
  intro v hv
  rcases hgrows.holds hv with hv | hv
  · exact h v hv
  · exact absurd hv (by simp)

theorem room_of_get_eq {c d : Clock} {actor : String} (h : c.Room actor)
    (heq : d.get actor = c.get actor) : d.Room actor := by
  unfold Clock.Room at h ⊢
  rwa [heq]

theorem room_of_get_eq_zero {c : Clock} {actor : String} (h : c.get actor = 0) :
    c.Room actor := by
  unfold Clock.Room
  rw [h]
  decide

theorem Unspent.room_coverOf {c : Cluster} (h : c.Unspent) {vs : List Version}
    (hvs : ∀ v ∈ vs, c.Holds v) (actor : String) : (coverOf vs).Room actor := by
  rcases get_coverOf vs actor with hzero | ⟨v, hv, heq⟩
  · exact room_of_get_eq_zero hzero
  · exact room_of_get_eq (h v (hvs v hv) actor) heq

theorem Unspent.room_writeBase {c : Cluster} (h : c.Unspent) {l : Location} {context : Clock}
    {actor : String} (hcontext : context.Room actor) :
    (writeBase actor context (c.held l)).Room actor := by
  have hhighest : (highest actor (c.held l)).toNat + 1 < UInt64.size := by
    have hle : highest actor (c.held l) ≤ UInt64.ofNat (UInt64.size - 2) := by
      refine highest_le fun v hv => UInt64.le_iff_toNat_le.2 ?_
      have hroom : (v.clock.get actor).toNat + 1 < UInt64.size := h v (holds_of_mem_held hv) actor
      have hlast : (UInt64.ofNat (UInt64.size - 2)).toNat = UInt64.size - 2 := by decide
      omega
    have hlast : (UInt64.ofNat (UInt64.size - 2)).toNat + 1 < UInt64.size := by decide
    have hcount := UInt64.le_iff_toNat_le.1 hle
    omega
  unfold Clock.Room at hcontext ⊢
  rw [get_writeBase_self, Clock.toNat_max]
  omega

end Cluster

end SiblingStore
