import SiblingStore.Operation.Backoff
import Mathlib.Algebra.Order.Ring.Nat

/-!
# Rests between retries

The rest before a retry is the base, doubled from retry to retry and cut off at the limit. The
doubling goes no further than the seventeenth retry: where sixteen doublings do not reach the
limit, all later rests are as long as that one.
-/

namespace SiblingStore.Backoff

variable (base limit : Duration)

/-- A multiple too long for a duration is cut off at the limit all the same. -/
theorem nanos_min_scale (k : Nat) :
    ((base.scale k).min limit).nanos = min (base.nanos * k) limit.nanos := by
  have hbounded : limit.nanos ≤ Duration.max.nanos := Nat.le_of_lt_succ limit.bounded
  have hscale : (base.scale k).nanos = min (base.nanos * k) Duration.max.nanos := by
    unfold Duration.scale Duration.ofNanos
    split_ifs with hfits
    · exact (min_eq_left (Nat.le_of_lt_succ hfits)).symm
    · exact (min_eq_right (Nat.le_of_succ_le (Nat.le_of_not_lt hfits))).symm
  have hmin : ((base.scale k).min limit).nanos = min (base.scale k).nanos limit.nanos := by
    unfold Duration.min
    split_ifs with hle
    · exact (min_eq_left hle).symm
    · exact (min_eq_right (Nat.le_of_not_le hle)).symm
  rw [hmin, hscale, min_assoc, min_eq_right hbounded]

theorem nanos_delay_exponential (retry : Nat) :
    ((exponential base limit).delay retry).nanos =
      min (base.nanos * 2 ^ min (retry - 1) 16) limit.nanos :=
  nanos_min_scale base limit _

theorem nanos_delay_of_le {retry : Nat} (h : retry ≤ 17) :
    ((exponential base limit).delay retry).nanos =
      min (base.nanos * 2 ^ (retry - 1)) limit.nanos := by
  have hsteps : min (retry - 1) 16 = retry - 1 := min_eq_left (by omega)
  rw [nanos_delay_exponential, hsteps]

/-- The rest no longer grows from the seventeenth retry on. -/
theorem delay_of_ge {retry : Nat} (h : 17 ≤ retry) :
    (exponential base limit).delay retry = (exponential base limit).delay 17 := by
  have hsteps : Nat.min (retry - 1) 16 = Nat.min (17 - 1) 16 := Nat.min_eq_right (by omega)
  unfold delay
  rw [hsteps]

variable {base} in
theorem doubled_lt_doubled (hpos : 0 < base.nanos) {m n : Nat} (h : m < n) :
    base.nanos * 2 ^ m < base.nanos * 2 ^ n :=
  Nat.mul_lt_mul_of_pos_left (Nat.pow_lt_pow_right (by omega) h) hpos

/-- No rest is longer than the base doubled for every retry after the first and cut off at the
limit. It is as long exactly up to the seventeenth retry, or if the base is zero, or if sixteen
doublings reach the limit; from the seventeenth retry on all rests are equal. -/
theorem delay_eq_doubled_iff (retry : Nat) :
    let rest := ((exponential base limit).delay retry).nanos
    let doubled := min (base.nanos * 2 ^ (retry - 1)) limit.nanos
    rest ≤ doubled ∧
      (rest = doubled ↔
        retry ≤ 17 ∨ base.nanos = 0 ∨ limit.nanos ≤ base.nanos * 2 ^ 16) ∧
      (17 ≤ retry →
        (exponential base limit).delay retry = (exponential base limit).delay 17) := by
  intro rest doubled
  have hlevel : 17 ≤ retry →
      (exponential base limit).delay retry = (exponential base limit).delay 17 :=
    delay_of_ge base limit
  rcases Nat.lt_or_ge 17 retry with hlate | hearly
  · have hrest : rest = min (base.nanos * 2 ^ 16) limit.nanos := by
      simp only [rest, delay_of_ge base limit hlate.le]
      exact nanos_delay_of_le base limit le_rfl
    rcases Nat.eq_zero_or_pos base.nanos with hzero | hpos
    · have hsame : rest = doubled := by
        rw [hrest]
        simp only [doubled, hzero, Nat.zero_mul]
      exact ⟨hsame.le, iff_of_true hsame (.inr (.inl hzero)), hlevel⟩
    · -- the doubling has not come to an end, but the rests have
      have hmore : base.nanos * 2 ^ 16 < base.nanos * 2 ^ (retry - 1) :=
        doubled_lt_doubled hpos (by omega)
      exact ⟨by omega, by omega, hlevel⟩
  · have hsame : rest = doubled := nanos_delay_of_le base limit hearly
    exact ⟨hsame.le, iff_of_true hsame (.inl hearly), hlevel⟩

/-- Where the base is a millisecond and the limit a thousand seconds, the rest before the
eighteenth retry should be twice the one before it. -/
theorem delay_ne_doubled_thousandSeconds :
    ((exponential (.ofMillis 1) (.ofMillis 1000000)).delay 18).nanos ≠
      min ((Duration.ofMillis 1).nanos * 2 ^ (18 - 1)) (Duration.ofMillis 1000000).nanos := by
  intro hsame
  have hcases := (delay_eq_doubled_iff (.ofMillis 1) (.ofMillis 1000000) 18).2.1.1 hsame
  revert hcases
  decide

end SiblingStore.Backoff
