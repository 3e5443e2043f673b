import SiblingStore.Log
import SiblingStore.Proofs.Version.Codec

/-!
# What replaying reads

A log is read entry by entry. What is appended to it is read after what was read
before, from the first byte on that was left unread. Entries that were written
are read back as the versions they hold.
-/

namespace SiblingStore.Log

/-- The bytes that replaying leaves unread: all from the entry on at which it ends. -/
def unread (log : Bytes) : Bytes :=
  match h : next log with
  | .ending _ => log
  | .payload _ rest =>
    have := length_lt_of_next h
    unread rest
termination_by log.length

/-! ## One entry -/

theorem next_short {log : Bytes} (h : log.length < 8) : next log = .ending .complete := by
  rw [next, if_pos h]

theorem next_header {check size : Bytes} (hcheck : check.length = 4) (hsize : size.length = 4)
    (body : Bytes) :
    next (check ++ (size ++ body)) =
      if body.length < Bytes.toNat size + 1 then .ending .truncated
      else if Digest.Crc32.ofBytes (body.take (Bytes.toNat size)) ≠
          UInt32.ofNat (Bytes.toNat check) then
        .ending (.mismatch (UInt32.ofNat (Bytes.toNat check))
          (Digest.Crc32.ofBytes (body.take (Bytes.toNat size))))
      else .payload (body.take (Bytes.toNat size)) (body.drop (Bytes.toNat size + 1)) := by
  have hlong : ¬(check ++ (size ++ body)).length < 8 := by
    simp only [List.length_append]
    omega
  have htake : (check ++ (size ++ body)).take 4 = check := List.take_left' hcheck
  have hdrop : (check ++ (size ++ body)).drop 4 = size ++ body := List.drop_left' hcheck
  have htake' : (size ++ body).take 4 = size := List.take_left' hsize
  have hdrop' : (check ++ (size ++ body)).drop 8 = body := by
    rw [show (8 : Nat) = 4 + 4 from rfl, ← List.drop_drop, hdrop, List.drop_left' hsize]
  rw [next, if_neg hlong]
  simp only [htake, hdrop, htake', hdrop']

theorem exists_header {log : Bytes} (h : 8 ≤ log.length) :
    ∃ check size body : Bytes, check.length = 4 ∧ size.length = 4 ∧
      log = check ++ (size ++ body) := by
  refine ⟨log.take 4, (log.drop 4).take 4, (log.drop 4).drop 4, ?_, ?_, ?_⟩
  · rw [List.length_take]
    omega
  · rw [List.length_take, List.length_drop]
    omega
  · rw [List.take_append_drop, List.take_append_drop]

/-- An entry is read whatever follows it. -/
theorem next_append {log octets rest : Bytes} (h : next log = .payload octets rest)
    (more : Bytes) : next (log ++ more) = .payload octets (rest ++ more) := by
  rcases Nat.lt_or_ge log.length 8 with hshort | hlong
  · rw [next_short hshort] at h
    exact Next.noConfusion h
  · obtain ⟨check, size, body, hcheck, hsize, rfl⟩ := exists_header hlong
    rw [next_header hcheck hsize] at h
    rw [List.append_assoc, List.append_assoc, next_header hcheck hsize]
    split_ifs at h with hbody hsum
    injection h with hoctets hrest
    have hle : Bytes.toNat size + 1 ≤ body.length := by omega
    have htake : (body ++ more).take (Bytes.toNat size) = body.take (Bytes.toNat size) :=
      List.take_append_of_le_length (by omega)
    have hdrop : (body ++ more).drop (Bytes.toNat size + 1) =
        body.drop (Bytes.toNat size + 1) ++ more := List.drop_append_of_le_length hle
    rw [if_neg (by rw [List.length_append]; omega), htake, if_neg hsum, hdrop, hoctets, hrest]

theorem toNat_littleEndian_four {n : Nat} (h : n < UInt32.size) :
    Bytes.toNat (Bytes.littleEndian 4 n) = n := by
  rw [Bytes.toNat_littleEndian]
  exact Nat.mod_eq_of_lt h

theorem next_frame {payload : Bytes} (h : payload.length < UInt32.size) (rest : Bytes) :
    next (frame payload ++ rest) = .payload payload rest := by
  have hsum : (Digest.Crc32.ofBytes payload).toNat < UInt32.size := UInt32.toNat_lt _
  have hform : frame payload ++ rest =
      Bytes.littleEndian 4 (Digest.Crc32.ofBytes payload).toNat ++
        (Bytes.littleEndian 4 payload.length ++ (payload ++ terminator :: rest)) := by
    simp [frame]
  have htake : (payload ++ terminator :: rest).take payload.length = payload :=
    List.take_left
  have hdrop : (payload ++ terminator :: rest).drop (payload.length + 1) = rest := by
    rw [← List.drop_drop, List.drop_left]
    rfl
  rw [hform, next_header (Bytes.length_littleEndian ..) (Bytes.length_littleEndian ..),
    toNat_littleEndian_four h, toNat_littleEndian_four hsum, htake, hdrop,
    UInt32.ofNat_toNat, if_neg (by simp), if_neg (by simp)]

/-! ## Whole logs -/

theorem replay_ending {log : Bytes} {e : Ending} (h : next log = .ending e) :
    replay log = .ok ⟨[], e⟩ := by
  rw [replay]
  split
  · rename_i e' h'
    rw [h] at h'
    injection h' with h'
    rw [h']
  · rename_i octets rest h'
    rw [h] at h'
    exact Next.noConfusion h'

theorem replay_payload {log octets rest : Bytes} (h : next log = .payload octets rest) :
    replay log =
      match Json.Reader.run Version.reader octets with
      | .error fault => .error ⟨fault, octets⟩
      | .ok v => (replay rest).map fun r => { r with versions := v :: r.versions } := by
  rw [replay]
  split
  · rename_i e h'
    rw [h] at h'
    exact Next.noConfusion h'
  · rename_i octets' rest' h'
    rw [h] at h'
    injection h' with hoctets hrest
    subst hoctets hrest
    rfl

theorem unread_ending {log : Bytes} {e : Ending} (h : next log = .ending e) :
    unread log = log := by
  rw [unread]
  split
  · rfl
  · rename_i octets rest h'
    rw [h] at h'
    exact Next.noConfusion h'

theorem unread_payload {log octets rest : Bytes} (h : next log = .payload octets rest) :
    unread log = unread rest := by
  rw [unread]
  split
  · rename_i e h'
    rw [h] at h'
    exact Next.noConfusion h'
  · rename_i octets' rest' h'
    rw [h] at h'
    injection h' with _ hrest
    rw [hrest]

theorem next_unread (log : Bytes) : ∃ e, next (unread log) = .ending e := by
  induction log using unread.induct with
  | case1 log e h => exact ⟨e, by rw [unread_ending h, h]⟩
  | case2 log octets rest h _ ih => rwa [unread_payload h]

/-- What is appended to a log is read from its first unread byte on. -/
theorem replay_append {log : Bytes} {r : Replay} (h : replay log = .ok r) (more : Bytes) :
    replay (log ++ more) =
      (replay (unread log ++ more)).map fun r' =>
        { r' with versions := r.versions ++ r'.versions } := by
  induction log using unread.induct generalizing r with
  | case1 log e hnext =>
      rw [replay_ending hnext] at h
      injection h with h
      rw [unread_ending hnext, ← h]
      cases replay (log ++ more) <;> rfl
  | case2 log octets rest hnext _ ih =>
      rw [replay_payload hnext] at h
      rw [replay_payload (next_append hnext more), unread_payload hnext]
      cases hv : Json.Reader.run Version.reader octets with
      | error fault => simp [hv] at h
      | ok v =>
          rw [hv] at h
          dsimp only at h ⊢
          cases hrest : replay rest with
          | error cause => rw [hrest] at h; exact absurd h (by simp [Except.map])
          | ok r' =>
              rw [hrest] at h
              injection h with h
              rw [ih hrest, ← h]
              cases replay (unread rest ++ more) <;> rfl

/-- Entries are read as the versions they were written for, and then what follows them. -/
theorem replay_entries_append {vs : List Version} (h : ∀ v ∈ vs, v.json.length < UInt32.size)
    (tail : Bytes) :
    replay (vs.flatMap entry ++ tail) =
      (replay tail).map fun r => { r with versions := vs ++ r.versions } := by
  induction vs with
  | nil =>
      rw [List.flatMap_nil, List.nil_append]
      cases replay tail <;> rfl
  | cons v vs ih =>
      have hrest := ih fun v' hv' => h v' (by simp [hv'])
      rw [List.flatMap_cons, List.append_assoc, entry,
        replay_payload (next_frame (h v (by simp)) _), hrest]
      simp only [Version.run_json]
      cases replay tail <;> rfl

theorem replay_entries {vs : List Version} (h : ∀ v ∈ vs, v.json.length < UInt32.size) :
    replay (vs.flatMap entry) = .ok ⟨vs, .complete⟩ := by
  have hempty : replay [] = .ok ⟨[], .complete⟩ := replay_ending (next_short (by decide))
  have htail := replay_entries_append h []
  rw [List.append_nil, hempty] at htail
  rw [htail]
  simp [Except.map]

end SiblingStore.Log
