import SiblingStore.Settings.Basic
import SiblingStore.Proofs.Text.Digits
import Mathlib.Tactic.SplitIfs

/-!
# Settings that make sense

Validation accepts the texts that name a client, and no others. In settings that it accepts
every quorum that a request can ask for lies between one and the number of replicas.
-/

namespace SiblingStore

namespace Settings

/-! ## The client's name -/

theorem isClientId_iff (text : String) :
    isClientId text = true ↔ ∃ id, ClientId.ofHex text = .ok id := by
  unfold isClientId
  rw [Bool.and_eq_true, decide_eq_true_iff]
  constructor
  · rintro ⟨hsize, hdecode⟩
    cases hout : Text.Hex.decode text with
    | error fault =>
        rw [hout] at hdecode
        cases hdecode
    | ok out =>
        obtain ⟨hdigits, -, -⟩ := Text.Hex.decode_ok hout
        rw [Text.Hex.size_of_forall_isDigit hdigits] at hsize
        exact (ClientId.exists_ofHex_iff text).2 ⟨hsize, hdigits⟩
  · intro h
    obtain ⟨hlength, hdigits⟩ := (ClientId.exists_ofHex_iff text).1 h
    obtain ⟨id, hid⟩ := h
    rw [Text.Hex.size_of_forall_isDigit hdigits, ClientId.decode_of_ofHex hid]
    exact ⟨hlength, rfl⟩

theorem validate_clientId (s : Settings) (text : String) :
    { s with clientId := some text }.validate = .ok () ↔
      { s with clientId := none }.validate = .ok () ∧ ∃ id, ClientId.ofHex text = .ok id := by
  rw [← isClientId_iff]
  have hfilter : (some text).filter (fun t => !isClientId t) =
      if isClientId text = true then none else some text := by
    rw [Option.filter_some]
    cases isClientId text <;> rfl
  unfold validate
  dsimp only
  rw [hfilter]
  cases isClientId text with
  | true => simp
  | false =>
      apply iff_of_false
      · intro h
        split at h
        · cases h
        · cases h
      · exact fun h => Bool.false_ne_true h.2

/-! ## Quorums -/

/-- Whether the quorums of settings lie between one and the number of replicas. -/
structure Sound (s : Settings) : Prop where
  readQuorum : 0 < s.cluster.readQuorum ∧ s.cluster.readQuorum ≤ s.cluster.replicas
  writeQuorum : 0 < s.cluster.writeQuorum ∧ s.cluster.writeQuorum ≤ s.cluster.replicas
  quorum : ∀ n ∈ s.operation.quorum, 0 < n ∧ n ≤ s.cluster.replicas

theorem badQuorum_eq_false_iff {n replicas : Nat} :
    badQuorum n replicas = false ↔ 0 < n ∧ n ≤ replicas := by
  unfold badQuorum
  rw [Bool.or_eq_false_iff, decide_eq_false_iff_not, decide_eq_false_iff_not]
  omega

theorem sound_of_validate {s : Settings} (h : s.validate = .ok ()) : s.Sound := by
  unfold validate at h
  -- the first five checks are about other things
  iterate 5
    split at h
    · cases h
  split at h
  · cases h
  rename_i hread
  split at h
  · cases h
  rename_i hwrite
  split at h
  · cases h
  rename_i hquorum
  rw [Bool.not_eq_true, badQuorum_eq_false_iff] at hread hwrite
  refine ⟨hread, hwrite, ?_⟩
  intro n hn
  rw [← badQuorum_eq_false_iff, ← Bool.not_eq_true]
  intro hbad
  apply hquorum n
  rw [Option.mem_def.1 hn, Option.filter_some, if_pos hbad]

end Settings

end SiblingStore
