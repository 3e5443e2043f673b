import SiblingStore.Proofs.Client.Moves

/-!
# Clients that take turns

Clients store, fetch, delete and list one after another, each with a majority, while
replicas come and go. All that they are told of success, a plain map tells as well;
siblings never show, and what fails changes nothing.
-/

namespace SiblingStore

variable {α : Type}

def World.AdmitsAll (codec : Codec α) : World → List (Move α) → Prop
  | _, [] => True
  | w, move :: moves => w.Admits codec move ∧ (w.perform move).2.AdmitsAll codec moves

/-- Whether a map tells all that is told while moves are made one after another: what
succeeds is answered from the map and changes it, what fails does not, and no fetch meets
siblings or asks its resolver. -/
def World.Follows (m : Location → Option α) : World → List (Move α) → Prop
  | _, [] => True
  | w, move :: moves =>
    (w.perform move).2.metrics.siblingsObserved = w.metrics.siblingsObserved ∧
    (∀ resolver, w.perform (move.under resolver) = w.perform move) ∧
    match (w.perform move).1 with
    | some (.ok answer) => move.Answers m answer ∧ (w.perform move).2.Follows (move.after m) moves
    | some (.error _) | none => (w.perform move).2.Follows m moves

theorem World.Tells.follows {codec : Codec α} (hfaithful : codec.Faithful)
    {m : Location → Option α} {met : Nat} {w : World} (h : w.Tells codec m met)
    {moves : List (Move α)} (hmoves : w.AdmitsAll codec moves) : w.Follows m moves := by
  induction moves generalizing w m with
  | nil => trivial
  | cons move moves ih =>
      obtain ⟨hadmits, hmoves⟩ := hmoves
      have hmet : ∀ {m : Location → Option α} {w : World}, w.Tells codec m met →
          w.metrics.siblingsObserved = met := fun htells => htells.choose_spec.1.met
      obtain ⟨hresolver, hobeys⟩ := h.obeys hfaithful hadmits
      rcases hobeys with
        ⟨answer, w', hperform, hanswers, htells⟩ | ⟨error, w', hperform, htells⟩
      · rw [hperform] at hmoves
        unfold Follows
        rw [hperform]
        exact ⟨(hmet htells).trans (hmet h).symm, hperform ▸ hresolver, hanswers, ih htells hmoves⟩
      · rw [hperform] at hmoves
        unfold Follows
        rw [hperform]
        refine ⟨(hmet htells).trans (hmet h).symm, hperform ▸ hresolver, ?_⟩
        cases error with
        | none => exact ih htells hmoves
        | some e => exact ih htells hmoves

/-- From an empty cluster of any size on, clients that take turns and ask majorities see
a plain map, whatever replicas are down meanwhile. -/
theorem World.follows_map {codec : Codec α} (hfaithful : codec.Faithful) {w : World}
    {settings : ClusterSettings} {node : ClientId}
    (hempty : w.backend = .cluster (.empty settings node)) (hquiet : w.chaos.Quiet)
    {moves : List (Move α)} (hmoves : w.AdmitsAll codec moves) :
    w.Follows (fun _ => none) moves := by
  have htells : w.Tells codec (fun _ => none) w.metrics.siblingsObserved :=
    ⟨fun _ => none, ⟨hquiet, ⟨_, hempty, Cluster.reflects_empty settings node⟩, rfl⟩,
      fun _ => .none⟩
  exact htells.follows hfaithful hmoves

/-- A value is stored, and deleted while a replica is down that comes back for the fetch. -/
def deleteBehindBack : List (Move Bytes) :=
  let b : Bucket Bytes := ⟨"b", .bytes, .manual⟩
  [.store default b "k" [1] default, .connect 0 false, .delete default b "k" default,
    .connect 0 true, .connect 1 false, .fetch default b "k" default]

theorem World.follows_deleteBehindBack :
    (ofBackend (.cluster (.empty {} default)) .none).Follows (fun _ => none) deleteBehindBack := by
  have hadmits : ∀ {w : World} {move : Move Bytes},
      (∀ c : Cluster, c.ReadsMost .standard → c.WritesMost .standard → move.Allowed .bytes c) →
      (w.cluster?.any fun c =>
        decide (c.Unspent ∧ c.ReadsMost .standard ∧ c.WritesMost .standard)) = true →
      w.Admits .bytes move := by
    intro w move hallowed hcluster
    unfold cluster? at hcluster
    cases hbackend : w.backend with
    | script s => exact absurd hcluster (by simp [hbackend])
    | cluster c =>
        rw [hbackend] at hcluster
        obtain ⟨hunspent, hread, hwrite⟩ := of_decide_eq_true hcluster
        exact ⟨c, hbackend, hunspent, hallowed c hread hwrite⟩
  have hmoves : (ofBackend (.cluster (.empty {} default)) .none).AdmitsAll .bytes
      deleteBehindBack :=
    ⟨hadmits (fun _ hread hwrite => ⟨rfl, rfl, hread, hwrite⟩) (by decide +kernel),
      hadmits (fun _ _ _ => trivial) (by decide +kernel),
      hadmits (fun _ _ hwrite => hwrite) (by decide +kernel),
      hadmits (fun _ _ _ => trivial) (by decide +kernel),
      hadmits (fun _ _ _ => trivial) (by decide +kernel),
      hadmits (fun _ hread _ => ⟨rfl, hread⟩) (by decide +kernel), trivial⟩
  have hfaithful : Codec.bytes.Faithful := fun value bs hencode => by
    injection hencode with hencode
    rw [hencode]
    rfl
  exact follows_map hfaithful rfl ⟨rfl, rfl, fun kind => by cases kind <;> rfl⟩ hmoves

end SiblingStore
