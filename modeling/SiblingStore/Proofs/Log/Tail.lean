import SiblingStore.Proofs.Log.Entry

/-!
# What stands behind the entries of a log

A log of written entries may be cut short, or go on with bytes that nobody wrote.
Of a log that is cut short the entries that are still whole are read. Bytes behind
the entries leave these readable unless they have an intact entry that holds no
version.
-/

namespace SiblingStore.Log

/-! ## Logs that are cut short -/

/-- How many of the entries of versions lie wholly within the first bytes of their log. -/
def wholeEntries (vs : List Version) (bytes : Nat) : Nat :=
  (List.range vs.length).countP fun i => ((vs.take (i + 1)).flatMap entry).length ≤ bytes

theorem wholeEntries_nil (bytes : Nat) : wholeEntries [] bytes = 0 := rfl

theorem wholeEntries_cons (v : Version) (vs : List Version) (bytes : Nat) :
    wholeEntries (v :: vs) bytes =
      if (entry v).length ≤ bytes then wholeEntries vs (bytes - (entry v).length) + 1 else 0 := by
  have hlength : ∀ i, (((v :: vs).take (i + 1)).flatMap entry).length =
      (entry v).length + ((vs.take i).flatMap entry).length := by
    intro i
    rw [List.take_succ_cons, List.flatMap_cons, List.length_append]
  unfold wholeEntries
  simp only [hlength, List.length_cons]
  -- Every later entry begins where the first one ends.
  split_ifs with hfirst
  · have hzero : (entry v).length + ((vs.take 0).flatMap entry).length ≤ bytes := by
      rw [List.take_zero, List.flatMap_nil, List.length_nil]
      omega
    rw [List.range_succ_eq_map, List.countP_cons, List.countP_map, if_pos (by simpa using hzero)]
    congr 1
    refine List.countP_congr fun i _ => ?_
    simp only [Function.comp_apply, decide_eq_true_eq, Nat.succ_eq_add_one]
    omega
  · rw [List.countP_eq_zero]
    intro i _
    have hmore : ¬(entry v).length + ((vs.take i).flatMap entry).length ≤ bytes := by omega
    simpa using hmore

theorem next_take_entry {v : Version} (hsmall : v.json.length < UInt32.size) {n : Nat}
    (hn : n < (entry v).length) : ∃ e, next ((entry v).take n) = .ending e := by
  rcases Nat.lt_or_ge n 8 with hshort | hlong
  · have hheader : ((entry v).take n).length < 8 := by
      rw [List.length_take]
      omega
    exact ⟨.complete, next_short hheader⟩
  · have hpart : (entry v).take n =
        Bytes.littleEndian 4 (Digest.Crc32.ofBytes v.json).toNat ++
          (Bytes.littleEndian 4 v.json.length ++ (v.json ++ [terminator]).take (n - 8)) := by
      rw [entry_eq, List.take_append, List.take_append,
        List.take_of_length_le (by rw [Bytes.length_littleEndian]; omega),
        List.take_of_length_le (by simp only [Bytes.length_littleEndian]; omega)]
      simp only [Bytes.length_littleEndian, Nat.sub_sub]
    have hbody : ((v.json ++ [terminator]).take (n - 8)).length < v.json.length + 1 := by
      rw [length_entry] at hn
      rw [List.length_take, List.length_append, List.length_singleton]
      omega
    refine ⟨.truncated, ?_⟩
    rw [hpart, next_header (Bytes.length_littleEndian ..) (Bytes.length_littleEndian ..),
      toNat_littleEndian_four hsmall, if_pos hbody]

/-- What is left of a log is read up to its last whole entry. -/
theorem replay_take_entries {vs : List Version} (h : ∀ v ∈ vs, v.json.length < UInt32.size)
    (n : Nat) :
    ∃ e, replay ((vs.flatMap entry).take n) = .ok ⟨vs.take (wholeEntries vs n), e⟩ := by
  induction vs generalizing n with
  | nil =>
      rw [List.flatMap_nil, List.take_nil, wholeEntries_nil]
      exact ⟨.complete, replay_entries h⟩
  | cons v vs ih =>
      have hv : v.json.length < UInt32.size := h v (by simp)
      rw [List.flatMap_cons, wholeEntries_cons]
      split_ifs with hfirst
      · obtain ⟨e, he⟩ := ih (fun w hw => h w (by simp [hw])) (n - (entry v).length)
        refine ⟨e, ?_⟩
        rw [List.take_append, List.take_of_length_le hfirst, entry,
          replay_payload (next_frame hv _)]
        simp only [Version.run_json]
        rw [← entry, he]
        rfl
      · obtain ⟨e, he⟩ := next_take_entry hv (Nat.lt_of_not_le hfirst)
        refine ⟨e, ?_⟩
        rw [List.take_append_of_le_length (by omega), replay_ending he]
        rfl

/-! ## Logs that go on -/

def sealed (payload : Bytes) : Bytes :=
  Bytes.littleEndian 4 (Digest.Crc32.ofBytes payload).toNat ++
    (Bytes.littleEndian 4 payload.length ++ payload)

/-- An entry is read whatever stands in place of its terminator. -/
theorem next_sealed {payload : Bytes} (h : payload.length < UInt32.size) (b : UInt8)
    (rest : Bytes) : next (sealed payload ++ b :: rest) = .payload payload rest := by
  have hform : sealed payload ++ b :: rest =
      Bytes.littleEndian 4 (Digest.Crc32.ofBytes payload).toNat ++
        (Bytes.littleEndian 4 payload.length ++ (payload ++ b :: rest)) := by
    simp [sealed]
  have hdrop : (payload ++ b :: rest).drop (payload.length + 1) = rest := by
    rw [← List.drop_drop, List.drop_left]
    rfl
  have hbody : ¬(payload ++ b :: rest).length < payload.length + 1 := by
    rw [List.length_append, List.length_cons]
    omega
  rw [hform, next_header (Bytes.length_littleEndian ..) (Bytes.length_littleEndian ..),
    toNat_littleEndian_four h, toNat_littleEndian_four (UInt32.toNat_lt _), List.take_left,
    hdrop, UInt32.ofNat_toNat, if_neg hbody, if_neg (by simp)]

theorem exists_sealed {log payload rest : Bytes} (h : next log = .payload payload rest) :
    payload.length < UInt32.size ∧ ∃ b, log = sealed payload ++ b :: rest := by
  rcases Nat.lt_or_ge log.length 8 with hshort | hlong
  · rw [next_short hshort] at h
    exact Next.noConfusion h
  · obtain ⟨check, size, body, hcheck, hsize, rfl⟩ := exists_header hlong
    rw [next_header hcheck hsize] at h
    split_ifs at h with hbody hsum
    injection h with hpayload hrest
    rw [hpayload, not_not] at hsum
    have hword : Bytes.toNat size < UInt32.size := by
      have h := Bytes.toNat_lt size
      rwa [hsize] at h
    have hword' : Bytes.toNat check < UInt32.size := by
      have h := Bytes.toNat_lt check
      rwa [hcheck] at h
    have hlength : payload.length = Bytes.toNat size := by
      rw [← hpayload, List.length_take]
      omega
    have hsize' : Bytes.littleEndian 4 payload.length = size := by
      rw [hlength, ← hsize]
      exact Bytes.littleEndian_toNat size
    have hcheck' : Bytes.littleEndian 4 (Digest.Crc32.ofBytes payload).toNat = check := by
      rw [hsum, UInt32.toNat_ofNat_of_lt' hword', ← hcheck]
      exact Bytes.littleEndian_toNat check
    obtain ⟨b, hb⟩ : ∃ b, body = payload ++ b :: rest := by
      have hlt : Bytes.toNat size < body.length := by omega
      refine ⟨body[Bytes.toNat size], ?_⟩
      rw [← hpayload, ← hrest, ← List.drop_eq_getElem_cons hlt, List.take_append_drop]
    refine ⟨hlength ▸ hword, b, ?_⟩
    rw [hb, sealed, hsize', hcheck']
    simp

/-- Whether a log has an intact entry that holds no version behind entries that do. -/
inductive Spoilt : Bytes → Prop where
  | here {payload : Bytes} (b : UInt8) (rest : Bytes) (hlength : payload.length < UInt32.size)
      (hread : (Json.Reader.run Version.reader payload).isOk = false) :
      Spoilt (sealed payload ++ b :: rest)
  | behind {payload : Bytes} (b : UInt8) {rest : Bytes} {v : Version}
      (hlength : payload.length < UInt32.size)
      (hread : Json.Reader.run Version.reader payload = .ok v) (hrest : Spoilt rest) :
      Spoilt (sealed payload ++ b :: rest)

theorem Spoilt.exists_cause {log : Bytes} (h : Spoilt log) :
    ∃ cause, replay log = .error cause := by
  induction h with
  | @here payload b rest hlength hread =>
      rw [replay_payload (next_sealed hlength b rest)]
      cases hrun : Json.Reader.run Version.reader payload with
      | error fault => exact ⟨_, rfl⟩
      | ok v =>
          rw [hrun] at hread
          exact absurd hread (by simp [Except.isOk, Except.toBool])
  | @behind payload b rest v hlength hread _ ih =>
      obtain ⟨cause, hcause⟩ := ih
      rw [replay_payload (next_sealed hlength b rest), hread, hcause]
      exact ⟨cause, rfl⟩

theorem spoilt_of_replay_error {log : Bytes} {cause : Unreadable}
    (h : replay log = .error cause) : Spoilt log := by
  -- The reader goes on behind every entry whose checksum is right.
  induction log using unread.induct generalizing cause with
  | case1 log e hnext =>
      rw [replay_ending hnext] at h
      exact absurd h (by simp)
  | case2 log payload rest hnext _ ih =>
      rw [replay_payload hnext] at h
      obtain ⟨hlength, b, rfl⟩ := exists_sealed hnext
      cases hrun : Json.Reader.run Version.reader payload with
      | error fault => exact .here b rest hlength (by rw [hrun]; rfl)
      | ok v =>
          rw [hrun] at h
          cases hrest : replay rest with
          | error cause' => exact .behind b hlength hrun (ih hrest)
          | ok r =>
              rw [hrest] at h
              exact absurd h (by simp [Except.map])

theorem exists_cause_iff_spoilt {log : Bytes} :
    (∃ cause, replay log = .error cause) ↔ Spoilt log :=
  ⟨fun ⟨_, h⟩ => spoilt_of_replay_error h, Spoilt.exists_cause⟩

theorem spoilt_zeros : Spoilt (List.replicate 9 0) := by
  have hzeros : List.replicate 9 0 = sealed [] ++ 0 :: [] := by decide +kernel
  rw [hzeros]
  exact .here 0 [] (by decide) (by decide +kernel)

end SiblingStore.Log
