import SiblingStore.Proofs.Text.Utf8

/-!
# The order of texts

Texts are in the order of their UTF-8 forms: longer forms are of later characters
and start with larger octets.
-/

namespace SiblingStore.Text.Utf8

theorem cons_lt_cons_of {x y : Nat} (hx : x < 256) (hy : y < 256) {bs bs' : Bytes}
    (h : x < y ∨ x = y ∧ bs < bs') : UInt8.ofNat x :: bs < UInt8.ofNat y :: bs' := by
  rw [List.cons_lt_cons_iff, ofNat_lt_iff hx hy]
  rcases h with h | ⟨rfl, h⟩
  · exact .inl h
  · exact .inr ⟨rfl, h⟩

theorem append_lt_append_left {bs bs' : Bytes} (h : bs < bs') (front : Bytes) :
    front ++ bs < front ++ bs' := by
  induction front with
  | nil => exact h
  | cons b front ih => exact List.cons_lt_cons_iff.2 (.inr ⟨rfl, ih⟩)

/-- What starts with a smaller character is smaller. -/
theorem encodeChar_append_lt {c d : Char} (h : c < d) (bs bs' : Bytes) :
    encodeChar c ++ bs < encodeChar d ++ bs' := by
  have hlt : c.toNat < d.toNat := h
  have hmax : d.toNat < 0x110000 := by
    have hvalid := d.valid
    rcases hvalid with hvalid | ⟨-, hvalid⟩
    · exact Nat.lt_trans hvalid (by decide)
    · exact hvalid
  generalize hn : c.toNat = n at hlt
  generalize hm : d.toNat = m at hlt hmax
  unfold encodeChar
  rw [hn, hm]
  dsimp only
  split_ifs with hn₁ hm₁ hm₂ hm₃ hn₂ hm₁ hm₂ hm₃ hn₃ hm₁ hm₂ hm₃ hm₁ hm₂ hm₃
  · exact cons_lt_cons_of (by omega) (by omega) (.inl hlt)
  · exact cons_lt_cons_of (by omega) (by omega) (.inl (by omega))
  · exact cons_lt_cons_of (by omega) (by omega) (.inl (by omega))
  · exact cons_lt_cons_of (by omega) (by omega) (.inl (by omega))
  · omega
  · refine cons_lt_cons_of (by omega) (by omega) ?_
    by_cases hhigh : n / 64 < m / 64
    · exact .inl (by omega)
    · exact .inr ⟨by omega, cons_lt_cons_of (by omega) (by omega) (.inl (by omega))⟩
  · exact cons_lt_cons_of (by omega) (by omega) (.inl (by omega))
  · exact cons_lt_cons_of (by omega) (by omega) (.inl (by omega))
  · omega
  · omega
  · refine cons_lt_cons_of (by omega) (by omega) ?_
    by_cases hhigh : n / 4096 < m / 4096
    · exact .inl (by omega)
    · refine .inr ⟨by omega, cons_lt_cons_of (by omega) (by omega) ?_⟩
      by_cases hmid : n / 64 % 64 < m / 64 % 64
      · exact .inl (by omega)
      · exact .inr ⟨by omega, cons_lt_cons_of (by omega) (by omega) (.inl (by omega))⟩
  · exact cons_lt_cons_of (by omega) (by omega) (.inl (by omega))
  · omega
  · omega
  · omega
  · refine cons_lt_cons_of (by omega) (by omega) ?_
    by_cases htop : n / 262144 < m / 262144
    · exact .inl (by omega)
    · refine .inr ⟨by omega, cons_lt_cons_of (by omega) (by omega) ?_⟩
      by_cases hhigh : n / 4096 % 64 < m / 4096 % 64
      · exact .inl (by omega)
      · refine .inr ⟨by omega, cons_lt_cons_of (by omega) (by omega) ?_⟩
        by_cases hmid : n / 64 % 64 < m / 64 % 64
        · exact .inl (by omega)
        · exact .inr ⟨by omega, cons_lt_cons_of (by omega) (by omega) (.inl (by omega))⟩

theorem encodeChar_ne_nil (c : Char) : encodeChar c ≠ [] := by
  unfold encodeChar
  dsimp only
  split_ifs <;> simp

theorem flatMap_encodeChar_lt {cs ds : List Char} (h : cs < ds) :
    cs.flatMap encodeChar < ds.flatMap encodeChar := by
  induction cs generalizing ds with
  | nil =>
      cases ds with
      | nil => exact absurd h (List.not_lt_nil _)
      | cons d ds =>
          obtain ⟨x, xs, hcons⟩ := List.exists_cons_of_ne_nil (encodeChar_ne_nil d)
          rw [List.flatMap_cons, hcons]
          exact List.nil_lt_cons ..
  | cons c cs ih =>
      cases ds with
      | nil => exact absurd h (List.not_lt_nil _)
      | cons d ds =>
          rw [List.flatMap_cons, List.flatMap_cons]
          rcases List.cons_lt_cons_iff.1 h with hlt | ⟨rfl, hrest⟩
          · exact encodeChar_append_lt hlt ..
          · exact append_lt_append_left (ih hrest) _

theorem encode_lt_encode {a b : String} (h : a < b) : encode a < encode b :=
  flatMap_encodeChar_lt h

/-- The order of texts is that of their octets. -/
theorem encode_lt_of_compare {a b : String} (h : compare a b = .lt) : encode a < encode b := by
  have hlt : a < b := by
    have hcompare : compareOfLessAndEq a b = .lt := h
    unfold compareOfLessAndEq at hcompare
    split_ifs at hcompare with hab
    exact hab
  exact encode_lt_encode hlt

end SiblingStore.Text.Utf8
