import SiblingStore.Proofs.Log.Replay

/-!
# Written entries

The text of a version holds no zero octet. A length that is taken from the middle of
an entry is therefore too large for it, and no entry starts within another.
-/

namespace SiblingStore.Log

/-! ## No zero octets in what is written -/

theorem zero_notMem_escape (b : UInt8) : 0 ∉ Json.Writer.escape b := by
  have hdigit : ∀ n < 16, Bytes.ofChar (Text.Hex.digit n) ≠ 0 := by decide
  unfold Json.Writer.escape
  split_ifs with h1 h2 h3 h4 h5 h6 h7 h8
  · decide
  · decide
  · decide
  · decide
  · decide
  · decide
  · decide
  · have hb : b.toNat < 256 := b.toNat_lt
    have hhigh := hdigit (b.toNat / 16) (by omega)
    have hlow := hdigit (b.toNat % 16) (by omega)
    simp [hhigh.symm, hlow.symm]
  · have hne : b ≠ 0 := fun h => h8 (h ▸ by decide)
    simp [hne.symm]

theorem zero_notMem_text (s : String) : 0 ∉ Json.Writer.text s := by
  simp only [Json.Writer.text, List.cons_append, List.mem_cons, List.mem_append,
    List.mem_flatMap, List.not_mem_nil, or_false, not_or, not_exists, not_and]
  exact ⟨by decide, fun b _ => zero_notMem_escape b, by decide⟩

theorem zero_notMem_natural (n : Nat) : 0 ∉ Json.Writer.natural n := by
  obtain ⟨d, ds, heq, hd, hds, -⟩ := Json.Reader.natural_eq_cons n
  intro hmem
  rw [heq] at hmem
  rcases List.mem_cons.1 hmem with h | h
  · exact Json.Reader.ne_of_isDigit hd rfl h.symm
  · exact Json.Reader.ne_of_isDigit (hds 0 h) rfl rfl

theorem zero_notMem_separated {items : List Bytes} (h : ∀ bs ∈ items, 0 ∉ bs) :
    0 ∉ Json.Writer.separated items := by
  cases items with
  | nil => exact List.not_mem_nil
  | cons a items =>
      rw [Json.Reader.separated_cons, Json.Reader.continued, List.mem_append, List.mem_flatMap]
      rintro (ha | ⟨bs, hbs, hmem⟩)
      · exact h a (by simp) ha
      · rcases List.mem_cons.1 hmem with hcomma | hmem
        · exact absurd hcomma (by decide)
        · exact h bs (by simp [hbs]) hmem

theorem zero_notMem_list {items : List Bytes} (h : ∀ bs ∈ items, 0 ∉ bs) :
    0 ∉ Json.Writer.list items := by
  have hitems := zero_notMem_separated h
  simp [Json.Writer.list, hitems]

theorem zero_notMem_object {ws : List (String × Bytes)} (h : ∀ w ∈ ws, 0 ∉ w.2) :
    0 ∉ Json.Writer.object ws := by
  have hentries : ∀ bs ∈ ws.map Json.Writer.entry, 0 ∉ bs := by
    intro bs hbs
    obtain ⟨w, hw, rfl⟩ := List.mem_map.1 hbs
    have hkey := zero_notMem_text w.1
    have hvalue := h w hw
    simp [Json.Writer.entry, hkey, hvalue]
  have hitems := zero_notMem_separated hentries
  simp [Json.Writer.object, hitems]

theorem zero_notMem_json (v : Version) : 0 ∉ v.json := by
  have hclock : 0 ∉ v.clock.json := by
    refine zero_notMem_object fun w hw => ?_
    rw [List.mem_singleton.1 hw]
    refine zero_notMem_object fun p hp => ?_
    obtain ⟨q, -, rfl⟩ := List.mem_map.1 hp
    exact zero_notMem_natural _
  have hvalue : 0 ∉ Json.Writer.list (v.value.map fun b => Json.Writer.natural b.toNat) := by
    refine zero_notMem_list fun bs hbs => ?_
    obtain ⟨b, -, rfl⟩ := List.mem_map.1 hbs
    exact zero_notMem_natural _
  have hflag : 0 ∉ Json.Writer.boolean v.tombstone := by
    cases v.tombstone <;> decide
  refine zero_notMem_object fun w hw => ?_
  simp only [List.mem_cons, List.not_mem_nil, or_false] at hw
  rcases hw with rfl | rfl | rfl | rfl | rfl | rfl | rfl
  · exact zero_notMem_text _
  · exact zero_notMem_text _
  · exact hclock
  · exact hvalue
  · exact hflag
  · exact zero_notMem_text _
  · exact zero_notMem_natural _

/-! ## Lengths out of place -/

/-- The most bytes that a length with an empty highest octet stands for. -/
def shortLimit : Nat := 16777216

theorem shortLimit_le_toNat {bs : Bytes} {b : UInt8} (hlength : bs.length = 4)
    (hb : bs[3]? = some b) (hne : b ≠ 0) : shortLimit ≤ Bytes.toNat bs := by
  have hpos : 0 < b.toNat := Nat.pos_of_ne_zero fun h => hne (UInt8.toNat_inj.1 h)
  match bs, hlength with
  | [b₀, b₁, b₂, b₃], _ =>
    have heq : b₃ = b := by simpa using hb
    simp only [Bytes.toNat, heq, shortLimit]
    omega

/-- A length whose highest octet is set is too large for a log that is short. -/
theorem next_of_top {log : Bytes} (hlength : log.length ≤ shortLimit)
    (htop : log[7]? ≠ some 0) : ∃ e, next log = .ending e := by
  rcases Nat.lt_or_ge log.length 8 with hshort | hlong
  · exact ⟨.complete, next_short hshort⟩
  · obtain ⟨check, size, body, hcheck, hsize, rfl⟩ := exists_header hlong
    have hthree : (check ++ (size ++ body))[7]? = size[3]? := by
      rw [List.getElem?_append_right (by omega), hcheck,
        List.getElem?_append_left (by omega)]
    obtain ⟨b, hb⟩ : ∃ b, size[3]? = some b := ⟨_, List.getElem?_eq_getElem (by omega)⟩
    have hne : b ≠ 0 := by
      rintro rfl
      exact htop (hthree.trans hb)
    have hlarge := shortLimit_le_toNat hsize hb hne
    refine ⟨.truncated, ?_⟩
    rw [next_header hcheck hsize, if_pos]
    simp only [List.length_append] at hlength
    omega

theorem entry_eq (v : Version) :
    entry v = Bytes.littleEndian 4 (Digest.Crc32.ofBytes v.json).toNat ++
      (Bytes.littleEndian 4 v.json.length ++ (v.json ++ [terminator])) := by
  simp [entry, frame]

theorem length_entry (v : Version) : (entry v).length = v.json.length + 9 := by
  rw [entry_eq]
  simp only [List.length_append, Bytes.length_littleEndian, List.length_singleton]
  omega

/-- No entry starts within an entry. -/
theorem replay_drop_entry {v : Version} (hsmall : (entry v).length ≤ shortLimit) {k : Nat}
    (hk : 0 < k) : ∃ e, replay ((entry v).drop k) = .ok ⟨[], e⟩ := by
  have htop : ((entry v).drop k)[7]? ≠ some 0 := by
    intro hzero
    rw [List.getElem?_drop, entry_eq, List.getElem?_append_right (by simp),
      List.getElem?_append_right (by simp; omega)] at hzero
    have hmem := List.mem_of_getElem? hzero
    rcases List.mem_append.1 hmem with hjson | hend
    · exact zero_notMem_json v hjson
    · exact absurd (List.mem_singleton.1 hend) (by decide)
  have hlength : ((entry v).drop k).length ≤ shortLimit := by
    rw [List.length_drop]
    omega
  obtain ⟨e, he⟩ := next_of_top hlength htop
  exact ⟨e, replay_ending he⟩

end SiblingStore.Log
