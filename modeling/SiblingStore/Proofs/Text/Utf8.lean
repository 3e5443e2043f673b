import SiblingStore.Text.Utf8
import Mathlib.Tactic.Common
import Mathlib.Tactic.NormNum

/-!
# Decoding what was encoded

Every text comes back from its UTF-8 form. A character is written in one to four
octets; the step lemmas say what a decoder does with each of these forms.
-/

namespace SiblingStore.Text.Utf8

theorem toNat_ofNat_of_lt {n : Nat} (h : n < 256) : (UInt8.ofNat n).toNat = n := by
  rw [UInt8.toNat_ofNat']
  exact Nat.mod_eq_of_lt h

theorem ofNat_lt_iff {n m : Nat} (hn : n < 256) (hm : m < 256) :
    UInt8.ofNat n < UInt8.ofNat m ↔ n < m := by
  rw [UInt8.lt_iff_toNat_lt, toNat_ofNat_of_lt hn, toNat_ofNat_of_lt hm]

theorem ofNat_le_iff {n m : Nat} (hn : n < 256) (hm : m < 256) :
    UInt8.ofNat n ≤ UInt8.ofNat m ↔ n ≤ m := by
  rw [UInt8.le_iff_toNat_le, toNat_ofNat_of_lt hn, toNat_ofNat_of_lt hm]

theorem continues_ofNat {n : Nat} (h : n < 256) :
    continues (UInt8.ofNat n) = true ↔ 0x80 ≤ n ∧ n < 0xC0 := by
  have hlow := ofNat_le_iff (n := 0x80) (m := n) (by omega) h
  have hhigh := ofNat_lt_iff (n := n) (m := 0xC0) h (by omega)
  rw [continues, Bool.and_eq_true, decide_eq_true_iff, decide_eq_true_iff]
  exact and_congr hlow hhigh

theorem payload_ofNat {n : Nat} (h : n < 64) : payload (UInt8.ofNat (0x80 + n)) = n := by
  rw [payload, toNat_ofNat_of_lt (by omega)]
  omega

/-! ## The four forms -/

section Forms

variable {a b c d : UInt8} (good : Nat) (rest : Bytes)

theorem decodeFrom_one (h : a < 0x80) :
    decodeFrom good (a :: rest) =
      (decodeFrom (good + 1) rest).map (Char.ofNat a.toNat :: ·) := by
  rw [decodeFrom.eq_def]
  simp only [h, if_true]

theorem decodeFrom_two (hlow : ¬a < 0xC2) (hhigh : a < 0xE0) (hb : continues b) :
    decodeFrom good (a :: b :: rest) =
      (decodeFrom (good + 2) rest).map
        (Char.ofNat (a.toNat % 32 * 64 + payload b) :: ·) := by
  have hone : ¬a < 0x80 := fun h => hlow (UInt8.lt_trans h (by decide))
  rw [decodeFrom.eq_def]
  simp only [hone, hlow, hhigh, hb, if_true, if_false]

theorem decodeFrom_three (hlow : ¬a < 0xE0) (hhigh : a < 0xF0)
    (hb : secondOfThree a b) (hc : continues c) :
    decodeFrom good (a :: b :: c :: rest) =
      (decodeFrom (good + 3) rest).map
        (Char.ofNat (a.toNat % 16 * 4096 + payload b * 64 + payload c) :: ·) := by
  have hone : ¬a < 0x80 := fun h => hlow (UInt8.lt_trans h (by decide))
  have htwo : ¬a < 0xC2 := fun h => hlow (UInt8.lt_trans h (by decide))
  rw [decodeFrom.eq_def]
  simp only [hone, htwo, hlow, hhigh, hb, hc, if_true, if_false]

theorem decodeFrom_four (hlow : ¬a < 0xF0) (hhigh : a < 0xF5)
    (hb : secondOfFour a b) (hc : continues c) (hd : continues d) :
    decodeFrom good (a :: b :: c :: d :: rest) =
      (decodeFrom (good + 4) rest).map
        (Char.ofNat (a.toNat % 8 * 262144 + payload b * 4096 + payload c * 64
          + payload d) :: ·) := by
  have hone : ¬a < 0x80 := fun h => hlow (UInt8.lt_trans h (by decide))
  have htwo : ¬a < 0xC2 := fun h => hlow (UInt8.lt_trans h (by decide))
  have hthree : ¬a < 0xE0 := fun h => hlow (UInt8.lt_trans h (by decide))
  rw [decodeFrom.eq_def]
  simp only [hone, htwo, hthree, hlow, hhigh, hb, hc, hd, if_true, if_false]

end Forms

/-! ## Characters and texts -/

theorem secondOfThree_ofNat {n m : Nat} (hn : n < 256) (hm : m < 64)
    (hlow : n = 0xE0 → 0x20 ≤ m) (hhigh : n = 0xED → m < 0x20) :
    secondOfThree (UInt8.ofNat n) (UInt8.ofNat (0x80 + m)) = true := by
  have hcont : continues (UInt8.ofNat (0x80 + m)) = true :=
    (continues_ofNat (by omega)).2 (by omega)
  have hE0 : UInt8.ofNat n = 0xE0 → 0xA0 ≤ UInt8.ofNat (0x80 + m) := by
    intro h
    have hn' := congrArg UInt8.toNat h
    rw [toNat_ofNat_of_lt hn] at hn'
    have hm' := hlow hn'
    exact (ofNat_le_iff (n := 0xA0) (by omega) (by omega)).2 (by omega)
  have hED : UInt8.ofNat n = 0xED → UInt8.ofNat (0x80 + m) < 0xA0 := by
    intro h
    have hn' := congrArg UInt8.toNat h
    rw [toNat_ofNat_of_lt hn] at hn'
    have hm' := hhigh hn'
    exact (ofNat_lt_iff (m := 0xA0) (by omega) (by omega)).2 (by omega)
  simp only [secondOfThree, hcont, Bool.true_and, Bool.and_eq_true, Bool.or_eq_true, bne_iff_ne,
    ne_eq, decide_eq_true_eq]
  exact ⟨not_or_of_imp hE0, not_or_of_imp hED⟩

theorem secondOfFour_ofNat {n m : Nat} (hn : n < 256) (hm : m < 64)
    (hlow : n = 0xF0 → 0x10 ≤ m) (hhigh : n = 0xF4 → m < 0x10) :
    secondOfFour (UInt8.ofNat n) (UInt8.ofNat (0x80 + m)) = true := by
  have hcont : continues (UInt8.ofNat (0x80 + m)) = true :=
    (continues_ofNat (by omega)).2 (by omega)
  have hF0 : UInt8.ofNat n = 0xF0 → 0x90 ≤ UInt8.ofNat (0x80 + m) := by
    intro h
    have hn' := congrArg UInt8.toNat h
    rw [toNat_ofNat_of_lt hn] at hn'
    have hm' := hlow hn'
    exact (ofNat_le_iff (n := 0x90) (by omega) (by omega)).2 (by omega)
  have hF4 : UInt8.ofNat n = 0xF4 → UInt8.ofNat (0x80 + m) < 0x90 := by
    intro h
    have hn' := congrArg UInt8.toNat h
    rw [toNat_ofNat_of_lt hn] at hn'
    have hm' := hhigh hn'
    exact (ofNat_lt_iff (m := 0x90) (by omega) (by omega)).2 (by omega)
  simp only [secondOfFour, hcont, Bool.true_and, Bool.and_eq_true, Bool.or_eq_true, bne_iff_ne,
    ne_eq, decide_eq_true_eq]
  exact ⟨not_or_of_imp hF0, not_or_of_imp hF4⟩

theorem toNat_valid (c : Char) : c.toNat < 0xD800 ∨ 0xDFFF < c.toNat ∧ c.toNat < 0x110000 :=
  c.valid

theorem decodeFrom_encodeChar (good : Nat) (c : Char) (rest : Bytes) :
    decodeFrom good (encodeChar c ++ rest) =
      (decodeFrom (good + (encodeChar c).length) rest).map (c :: ·) := by
  have hvalid := toNat_valid c
  have hself : Char.ofNat c.toNat = c := Char.ofNat_toNat c
  unfold encodeChar
  dsimp only
  split_ifs with h1 h2 h3
  · have hsmall := (ofNat_lt_iff (n := c.toNat) (m := 0x80) (by omega) (by omega)).2 h1
    rw [List.cons_append, List.nil_append, decodeFrom_one good rest hsmall,
      toNat_ofNat_of_lt (by omega), hself]
    rfl
  · have hlow := (ofNat_lt_iff (n := 0xC0 + c.toNat / 64) (m := 0xC2)
      (by omega) (by omega)).not.2 (by omega)
    have hhigh := (ofNat_lt_iff (n := 0xC0 + c.toNat / 64) (m := 0xE0)
      (by omega) (by omega)).2 (by omega)
    have hcode : (0xC0 + c.toNat / 64) % 32 * 64 + c.toNat % 64 = c.toNat := by omega
    rw [List.cons_append, List.cons_append, List.nil_append,
      decodeFrom_two good rest hlow hhigh ((continues_ofNat (by omega)).2 (by omega)),
      toNat_ofNat_of_lt (by omega), payload_ofNat (by omega), hcode, hself]
    rfl
  · have hlow := (ofNat_lt_iff (n := 0xE0 + c.toNat / 4096) (m := 0xE0)
      (by omega) (by omega)).not.2 (by omega)
    have hhigh := (ofNat_lt_iff (n := 0xE0 + c.toNat / 4096) (m := 0xF0)
      (by omega) (by omega)).2 (by omega)
    have hsecond := secondOfThree_ofNat (n := 0xE0 + c.toNat / 4096) (m := c.toNat / 64 % 64)
      (by omega) (by omega) (by omega) (by omega)
    have hcode : (0xE0 + c.toNat / 4096) % 16 * 4096 + c.toNat / 64 % 64 * 64
        + c.toNat % 64 = c.toNat := by omega
    rw [List.cons_append, List.cons_append, List.cons_append, List.nil_append,
      decodeFrom_three good rest hlow hhigh hsecond
        ((continues_ofNat (by omega)).2 (by omega)),
      toNat_ofNat_of_lt (by omega), payload_ofNat (by omega), payload_ofNat (by omega),
      hcode, hself]
    rfl
  · have hlow := (ofNat_lt_iff (n := 0xF0 + c.toNat / 262144) (m := 0xF0)
      (by omega) (by omega)).not.2 (by omega)
    have hhigh := (ofNat_lt_iff (n := 0xF0 + c.toNat / 262144) (m := 0xF5)
      (by omega) (by omega)).2 (by omega)
    have hsecond := secondOfFour_ofNat (n := 0xF0 + c.toNat / 262144)
      (m := c.toNat / 4096 % 64) (by omega) (by omega) (by omega) (by omega)
    have hcode : (0xF0 + c.toNat / 262144) % 8 * 262144 + c.toNat / 4096 % 64 * 4096
        + c.toNat / 64 % 64 * 64 + c.toNat % 64 = c.toNat := by omega
    rw [List.cons_append, List.cons_append, List.cons_append, List.cons_append,
      List.nil_append, decodeFrom_four good rest hlow hhigh hsecond
        ((continues_ofNat (by omega)).2 (by omega))
        ((continues_ofNat (by omega)).2 (by omega)),
      toNat_ofNat_of_lt (by omega), payload_ofNat (by omega), payload_ofNat (by omega),
      payload_ofNat (by omega), hcode, hself]
    rfl

theorem decodeFrom_encode (good : Nat) (cs : List Char) :
    decodeFrom good (cs.flatMap encodeChar) = .ok cs := by
  induction cs generalizing good with
  | nil => rfl
  | cons c cs ih =>
      rw [List.flatMap_cons, decodeFrom_encodeChar, ih]
      rfl

@[simp] theorem decode_encode (s : String) : decode (encode s) = .ok s := by
  rw [decode, encode, decodeFrom_encode]
  exact congrArg Except.ok (String.ofList_toList)

end SiblingStore.Text.Utf8
