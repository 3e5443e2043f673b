import SiblingStore.Digest.Crc32
import Mathlib.Data.Nat.Bitwise

/-!
# Checks of texts that differ

A division step respects exclusive or, so how the checks of two texts differ
depends only on where the texts differ.
-/

namespace SiblingStore.Digest.Crc32

theorem and_one_eq_one_iff (c : UInt32) : c &&& 1 = 1 ↔ c.toNat % 2 = 1 := by
  rw [← UInt32.toNat_inj, UInt32.toNat_and]
  exact iff_of_eq (congrArg (· = 1) (Nat.and_one_is_mod c.toNat))

theorem shift_xor (a b : UInt32) : shift (a ^^^ b) = shift a ^^^ shift b := by
  have hparity : (a ^^^ b).toNat % 2 = (a.toNat + b.toNat) % 2 := by
    rw [UInt32.toNat_xor, Nat.xor_mod_two_eq]
  unfold shift
  simp only [and_one_eq_one_iff, hparity, UInt32.shiftRight_xor]
  by_cases ha : a.toNat % 2 = 1 <;> by_cases hb : b.toNat % 2 = 1
  · -- the generator is subtracted twice, which changes nothing
    rw [if_neg (by omega), if_pos ha, if_pos hb]
    have hself : polynomial ^^^ polynomial = 0 := UInt32.xor_self
    calc a >>> 1 ^^^ b >>> 1 = a >>> 1 ^^^ b >>> 1 ^^^ (polynomial ^^^ polynomial) := by
          rw [hself, UInt32.xor_zero]
      _ = a >>> 1 ^^^ polynomial ^^^ (b >>> 1 ^^^ polynomial) := by ac_rfl
  · rw [if_pos (by omega), if_pos ha, if_neg hb]
    ac_rfl
  · rw [if_pos (by omega), if_neg ha, if_pos hb]
    ac_rfl
  · rw [if_neg (by omega), if_neg ha, if_neg hb]

theorem shiftOctet_xor (a b : UInt32) : shiftOctet (a ^^^ b) = shiftOctet a ^^^ shiftOctet b := by
  simp only [shiftOctet, shift_xor]

theorem xor_xor_xor_cancel (a b c : UInt32) : (a ^^^ c) ^^^ (b ^^^ c) = a ^^^ b := by
  calc (a ^^^ c) ^^^ (b ^^^ c) = a ^^^ b ^^^ (c ^^^ c) := by ac_rfl
    _ = a ^^^ b := by rw [UInt32.xor_self, UInt32.xor_zero]

theorem step_xor_step (c₁ c₂ : UInt32) (b : UInt8) :
    step c₁ b ^^^ step c₂ b = shiftOctet (c₁ ^^^ c₂) := by
  rw [step, step, ← shiftOctet_xor, xor_xor_xor_cancel]

theorem step_xor_octet (c : UInt32) (a b : UInt8) :
    step c a ^^^ step c b = shiftOctet (a ^^^ b).toUInt32 := by
  rw [step, step, ← shiftOctet_xor, UInt32.xor_comm c, UInt32.xor_comm c,
    xor_xor_xor_cancel, UInt8.toUInt32_xor]

theorem run_append (c : UInt32) (xs ys : Bytes) : run c (xs ++ ys) = run (run c xs) ys :=
  List.foldl_append

/-- How the checks of two texts differ that are alike but for the last octet but one. -/
theorem ofBytes_xor_ofBytes (xs : Bytes) (a b last : UInt8) :
    ofBytes (xs ++ [a, last]) ^^^ ofBytes (xs ++ [b, last]) =
      shiftOctet (shiftOctet (a ^^^ b).toUInt32) := by
  rw [ofBytes, ofBytes, xor_xor_xor_cancel, run_append, run_append]
  simp only [run, List.foldl_cons, List.foldl_nil]
  rw [step_xor_step, step_xor_octet]

/-! ## One octet that differs -/

end SiblingStore.Digest.Crc32
