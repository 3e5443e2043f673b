import SiblingStore.ClientId
import Mathlib.Tactic.Common

/-!
# Hexadecimal names

Different writers have different names.
-/

namespace SiblingStore

namespace Text.Hex

theorem digit_injective {m n : Nat} (hm : m < 16) (hn : n < 16) (h : digit m = digit n) :
    m = n := by
  have hall : ∀ a < 16, ∀ b < 16, digit a = digit b → a = b := by decide
  exact hall m hm n hn h

theorem encodeChars_injective : Function.Injective encodeChars := by
  intro bs
  induction bs with
  | nil =>
      intro bs' h
      cases bs' with
      | nil => rfl
      | cons b bs' => simp [encodeChars] at h
  | cons b bs ih =>
      intro bs' h
      cases bs' with
      | nil => simp [encodeChars] at h
      | cons b' bs' =>
          have hb := b.toNat_lt
          have hb' := b'.toNat_lt
          simp only [encodeChars, List.flatMap_cons, List.cons_append, List.nil_append,
            List.cons.injEq] at h
          obtain ⟨hhigh, hlow, hrest⟩ := h
          have hdiv := digit_injective (by omega) (by omega) hhigh
          have hmod := digit_injective (by omega) (by omega) hlow
          have hoctet : b = b' := UInt8.toNat_inj.1 (by omega)
          rw [hoctet, ih hrest]

end Text.Hex

theorem ClientId.toHex_injective : Function.Injective ClientId.toHex := by
  intro a b h
  have hoctets := Text.Hex.encodeChars_injective (String.ofList_injective h)
  cases a
  cases b
  cases hoctets
  rfl

end SiblingStore
