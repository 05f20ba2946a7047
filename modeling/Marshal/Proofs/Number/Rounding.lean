import Marshal.Number.Double
import Mathlib.Tactic

/-!
# Rounding gives back what lies near enough

A finite magnitude packs a significand and an exponent. Every quotient in the interval around the
number that it stands for, half a unit of the last place to both sides, rounds to that magnitude.
Quotients are compared as rational numbers; the interval's lower side is shorter at the least
number of a binade, as it has the finer grid below it.
-/

namespace Marshal.Number

theorem reaches_power_iff (base numerator denominator : Nat) (power : Int) (positive : 0 < base)
    (nonzero : 0 < denominator) :
    reachesPower base numerator denominator power = true ↔
      (base : ℚ) ^ power ≤ (numerator : ℚ) / denominator := by
  have below : (0 : ℚ) < denominator := by exact_mod_cast nonzero
  have powers : (0 : ℚ) < base := by exact_mod_cast positive
  rw [le_div_iff₀ below]
  unfold reachesPower
  by_cases sign : 0 ≤ power
  · obtain ⟨exponent, rfl⟩ := Int.eq_ofNat_of_zero_le sign
    simp only [sign, if_true, decide_eq_true_eq, Int.toNat_natCast, zpow_natCast]
    rw [Nat.mul_comm]
    exact_mod_cast Iff.rfl
  · obtain ⟨exponent, same⟩ := Int.eq_ofNat_of_zero_le (show 0 ≤ -power by omega)
    have negative : power = -(exponent : Int) := by omega
    simp only [sign, if_false, decide_eq_true_eq]
    rw [negative, neg_neg, Int.toNat_natCast, zpow_neg, zpow_natCast, inv_mul_le_iff₀ (by positivity),
      mul_comm]
    exact_mod_cast Iff.rfl

theorem log2_bounds {number : Nat} (positive : 0 < number) :
    2 ^ number.log2 ≤ number ∧ number < 2 ^ (number.log2 + 1) :=
  ⟨Nat.log2_self_le (by omega), Nat.lt_log2_self⟩

theorem floor_log2_bounds {numerator denominator : Nat} (positive : 0 < numerator)
    (nonzero : 0 < denominator) :
    (2 : ℚ) ^ floorLog2 numerator denominator ≤ (numerator : ℚ) / denominator ∧
      (numerator : ℚ) / denominator < (2 : ℚ) ^ (floorLog2 numerator denominator + 1) := by
  have below : (0 : ℚ) < denominator := by exact_mod_cast nonzero
  obtain ⟨aboveLow, aboveHigh⟩ := log2_bounds positive
  obtain ⟨belowLow, belowHigh⟩ := log2_bounds nonzero
  have aboveLow : (2 : ℚ) ^ numerator.log2 ≤ numerator := by exact_mod_cast aboveLow
  have aboveHigh : (numerator : ℚ) < 2 ^ (numerator.log2 + 1) := by exact_mod_cast aboveHigh
  have belowLow : (2 : ℚ) ^ denominator.log2 ≤ denominator := by exact_mod_cast belowLow
  have belowHigh : (denominator : ℚ) < 2 ^ (denominator.log2 + 1) := by exact_mod_cast belowHigh
  obtain ⟨estimate, same⟩ : ∃ estimate : Int, estimate = numerator.log2 - denominator.log2 :=
    ⟨_, rfl⟩
  have upper : (numerator : ℚ) / denominator < (2 : ℚ) ^ (estimate + 1) := by
    rw [div_lt_iff₀ below]
    calc (numerator : ℚ) < 2 ^ (numerator.log2 + 1) := aboveHigh
      _ = (2 : ℚ) ^ (estimate + 1) * 2 ^ denominator.log2 := by
        rw [← zpow_natCast, ← zpow_natCast, ← zpow_add₀ (by norm_num)]
        congr 1
        push_cast
        omega
      _ ≤ (2 : ℚ) ^ (estimate + 1) * denominator := by gcongr
  have lower : (2 : ℚ) ^ (estimate - 1) ≤ (numerator : ℚ) / denominator := by
    rw [le_div_iff₀ below]
    calc (2 : ℚ) ^ (estimate - 1) * denominator
        ≤ (2 : ℚ) ^ (estimate - 1) * 2 ^ (denominator.log2 + 1) := by gcongr
      _ = 2 ^ numerator.log2 := by
        rw [← zpow_natCast, ← zpow_natCast, ← zpow_add₀ (by norm_num)]
        congr 1
        push_cast
        omega
      _ ≤ numerator := aboveLow
  have reaches := reaches_power_iff 2 numerator denominator estimate (by norm_num) nonzero
  unfold floorLog2
  dsimp only
  rw [← same]
  by_cases hit : reachesPower 2 numerator denominator estimate = true
  · rw [if_pos hit]
    exact ⟨by exact_mod_cast reaches.mp hit, upper⟩
  · rw [if_neg hit]
    have missed : (numerator : ℚ) / denominator < (2 : ℚ) ^ estimate := by
      rw [reaches] at hit
      exact_mod_cast not_le.mp hit
    exact ⟨lower, by simpa using missed⟩

theorem floor_log2_unique {numerator denominator : Nat} (positive : 0 < numerator)
    (nonzero : 0 < denominator) {power : Int}
    (low : (2 : ℚ) ^ power ≤ (numerator : ℚ) / denominator)
    (high : (numerator : ℚ) / denominator < (2 : ℚ) ^ (power + 1)) :
    floorLog2 numerator denominator = power := by
  obtain ⟨lower, upper⟩ := floor_log2_bounds positive nonzero
  have left := (zpow_lt_zpow_iff_right₀ (by norm_num : (1 : ℚ) < 2)).mp (lower.trans_lt high)
  have right := (zpow_lt_zpow_iff_right₀ (by norm_num : (1 : ℚ) < 2)).mp (low.trans_lt upper)
  omega

/-- A natural is the rounded quotient if the quotient is no further from it than a half, and no
tie is lost to the other neighbour. -/
theorem round_half_even_eq {numerator denominator nearest : Nat} (nonzero : 0 < denominator)
    (low : 2 * nearest * denominator ≤ 2 * numerator + denominator)
    (high : 2 * numerator ≤ 2 * nearest * denominator + denominator)
    (tie : nearest % 2 = 0 ∨ 2 * nearest * denominator < 2 * numerator + denominator ∧
      2 * numerator < 2 * nearest * denominator + denominator) :
    roundHalfEven numerator denominator = nearest := by
  have split := Nat.div_add_mod numerator denominator
  have small := Nat.mod_lt numerator nonzero
  unfold roundHalfEven
  dsimp only
  generalize numerator / denominator = quotient at *
  generalize numerator % denominator = remainder at *
  subst split
  have notAbove : quotient ≤ nearest := by
    by_contra above
    have : denominator * (nearest + 1) ≤ denominator * quotient := Nat.mul_le_mul_left _ (by omega)
    nlinarith
  have notBelow : nearest ≤ quotient + 1 := by
    by_contra below
    have : denominator * (quotient + 2) ≤ denominator * nearest := Nat.mul_le_mul_left _ (by omega)
    nlinarith
  obtain rfl | rfl : nearest = quotient ∨ nearest = quotient + 1 := by omega
  · have excess : 2 * remainder ≤ denominator := by nlinarith
    split_ifs with less more
    · rfl
    · omega
    · have even : nearest % 2 = 0 := by
        rcases tie with even | ⟨_, strict⟩
        · exact even
        · have : 2 * remainder < denominator := by nlinarith
          omega
      omega
  · have excess : denominator ≤ 2 * remainder := by nlinarith
    split_ifs with less more
    · omega
    · rfl
    · have odd : quotient % 2 = 1 := by
        rcases tie with even | ⟨strict, _⟩
        · omega
        · have : denominator < 2 * remainder := by nlinarith
          omega
      omega

namespace BinaryFormat

/-- The significand and the exponent that a magnitude is made of. Below the least exponent there
is no room, so there the significand may be short. -/
structure Packs (format : BinaryFormat) (magnitude significand : Nat) (exponent : Int) : Prop where
  packed : magnitude = (exponent - format.leastExponent).toNat * 2 ^ format.fractionBits + significand
  least : format.leastExponent ≤ exponent
  small : significand < 2 ^ (format.fractionBits + 1)
  normal : exponent = format.leastExponent ∨ 2 ^ format.fractionBits ≤ significand

namespace Packs

variable {format : BinaryFormat} {magnitude significand : Nat} {exponent : Int}

/-- What a magnitude is decoded to packs it again. -/
theorem of_decode {word : Nat} {negative : Bool}
    (decoded : format.decode word = .finite negative significand exponent) :
    format.Packs (format.magnitude word) significand exponent ∧
      format.magnitude word < format.infinity ∧ negative = format.negative word := by
  unfold decode at decoded
  dsimp only [Nat.pow_eq] at decoded
  have split := Nat.div_add_mod (format.magnitude word) (2 ^ format.fractionBits)
  have room : format.magnitude word % 2 ^ format.fractionBits < 2 ^ format.fractionBits :=
    Nat.mod_lt _ (by positivity)
  have double : 2 ^ (format.fractionBits + 1) = 2 * 2 ^ format.fractionBits := by ring
  split_ifs at decoded with nan infinite subnormal
  · simp only [BinaryValue.finite.injEq] at decoded
    obtain ⟨rfl, rfl, rfl⟩ := decoded
    rw [subnormal, Nat.mul_zero, Nat.zero_add] at split
    refine ⟨⟨by simp [split], le_rfl, by rw [double]; linarith, .inl rfl⟩, by omega, rfl⟩
  · simp only [BinaryValue.finite.injEq] at decoded
    obtain ⟨rfl, rfl, rfl⟩ := decoded
    generalize format.magnitude word / 2 ^ format.fractionBits = biased at *
    generalize format.magnitude word % 2 ^ format.fractionBits = fraction at *
    refine ⟨⟨?_, by omega, by rw [double]; linarith, .inr (Nat.le_add_left _ _)⟩, by omega, rfl⟩
    obtain ⟨above, rfl⟩ : ∃ above, biased = above + 1 := ⟨biased - 1, by omega⟩
    have shift : (format.leastExponent + ((above + 1 : Nat) : Int) - 1 -
        format.leastExponent).toNat = above := by omega
    rw [shift, ← split]
    ring

theorem decode_word (packs : format.Packs magnitude significand exponent)
    (finite : magnitude < format.infinity) (negative : Bool)
    (fits : format.magnitude (format.word negative magnitude) = magnitude)
    (sign : format.negative (format.word negative magnitude) = negative) :
    format.decode (format.word negative magnitude) = .finite negative significand exponent := by
  obtain ⟨packed, least, small, normal⟩ := packs
  have positive : 0 < 2 ^ format.fractionBits := by positivity
  have double : 2 ^ (format.fractionBits + 1) = 2 * 2 ^ format.fractionBits := by ring
  unfold decode
  dsimp only [Nat.pow_eq]
  rw [fits, sign, if_neg (by omega), if_neg (by omega)]
  generalize 2 ^ format.fractionBits = unit at *
  generalize 2 ^ (format.fractionBits + 1) = doubled at *
  obtain ⟨above, raised⟩ := Int.eq_ofNat_of_zero_le (show 0 ≤ exponent - format.leastExponent by omega)
  rw [raised, Int.toNat_natCast] at packed
  by_cases short : significand < unit
  · have lowest : above = 0 := by omega
    subst lowest
    have same : magnitude = significand := by simpa using packed
    rw [same, Nat.div_eq_of_lt short, if_pos rfl, Nat.mod_eq_of_lt short]
    congr 1
    omega
  · obtain ⟨fraction, rfl⟩ : ∃ fraction, significand = unit + fraction :=
      ⟨significand - unit, by omega⟩
    have room : fraction < unit := by omega
    have whole : magnitude = fraction + unit * (above + 1) := by
      rw [packed]
      ring
    rw [whole, Nat.add_mul_div_left _ _ positive, Nat.add_mul_mod_self_left,
      Nat.div_eq_of_lt room, Nat.mod_eq_of_lt room, if_neg (by omega)]
    congr 1
    · omega
    · push_cast
      omega

end Packs

/-- The side below a significand from which quotients round up to it, as a part of its unit. At
the least significand of a binade the grid below is finer. -/
def sideBelow (format : BinaryFormat) (significand : Nat) (exponent : Int) : ℚ :=
  if significand = 2 ^ format.fractionBits ∧ format.leastExponent < exponent then 1 / 4 else 1 / 2

theorem side_below_le (format : BinaryFormat) (significand : Nat) (exponent : Int) :
    format.sideBelow significand exponent ≤ 1 / 2 := by
  unfold sideBelow
  split_ifs <;> norm_num

/-- The quotients that round to a number. Both ends belong to them if the significand is even. -/
structure Near (format : BinaryFormat) (significand : Nat) (exponent : Int) (quotient : ℚ) :
    Prop where
  low : (significand - format.sideBelow significand exponent) * 2 ^ exponent ≤ quotient
  high : quotient ≤ (significand + 1 / 2) * 2 ^ exponent
  tie : significand % 2 = 0 ∨
    (significand - format.sideBelow significand exponent) * 2 ^ exponent < quotient ∧
      quotient < (significand + 1 / 2) * 2 ^ exponent

theorem near_self (format : BinaryFormat) (significand : Nat) (exponent : Int) :
    format.Near significand exponent (significand * 2 ^ exponent) := by
  have unit : (0 : ℚ) < 2 ^ exponent := by positivity
  have side : 0 < format.sideBelow significand exponent := by
    unfold sideBelow
    split_ifs <;> norm_num
  have low : (significand - format.sideBelow significand exponent) * (2 : ℚ) ^ exponent <
      significand * 2 ^ exponent := by
    have : 0 < format.sideBelow significand exponent * (2 : ℚ) ^ exponent := mul_pos side unit
    linarith
  have high : (significand : ℚ) * 2 ^ exponent < (significand + 1 / 2) * 2 ^ exponent := by
    linarith
  exact ⟨low.le, high.le, .inr ⟨low, high⟩⟩

/-- The significand that a quotient rounds to at an exponent. -/
def significandAt (numerator denominator : Nat) (exponent : Int) : Nat :=
  if 0 ≤ exponent then roundHalfEven numerator (denominator * 2 ^ exponent.toNat)
  else roundHalfEven (numerator * 2 ^ (-exponent).toNat) denominator

theorem significand_at_eq {numerator denominator nearest : Nat} {exponent : Int}
    (nonzero : 0 < denominator)
    (low : (nearest - 1 / 2) * (2 : ℚ) ^ exponent ≤ numerator / denominator)
    (high : numerator / denominator ≤ (nearest + 1 / 2) * (2 : ℚ) ^ exponent)
    (tie : nearest % 2 = 0 ∨ (nearest - 1 / 2) * (2 : ℚ) ^ exponent < numerator / denominator ∧
      numerator / denominator < (nearest + 1 / 2) * (2 : ℚ) ^ exponent) :
    significandAt numerator denominator exponent = nearest := by
  have below : (0 : ℚ) < denominator := by exact_mod_cast nonzero
  rw [le_div_iff₀ below, div_le_iff₀ below, lt_div_iff₀ below, div_lt_iff₀ below] at *
  unfold significandAt
  by_cases sign : 0 ≤ exponent
  · obtain ⟨power, rfl⟩ := Int.eq_ofNat_of_zero_le sign
    rw [if_pos sign, Int.toNat_natCast]
    simp only [zpow_natCast] at low high tie
    apply round_half_even_eq (by positivity)
    · qify
      linarith
    · qify
      linarith
    · refine tie.imp_right fun strict => ⟨?_, ?_⟩
      · qify
        linarith [strict.1]
      · qify
        linarith [strict.2]
  · obtain ⟨power, same⟩ := Int.eq_ofNat_of_zero_le (show 0 ≤ -exponent by omega)
    obtain rfl : exponent = -(power : Int) := by omega
    have unit : (0 : ℚ) < 2 ^ power := by positivity
    rw [if_neg sign, neg_neg, Int.toNat_natCast]
    simp only [zpow_neg, zpow_natCast, mul_right_comm _ (((2 : ℚ) ^ power)⁻¹),
      mul_inv_le_iff₀ unit, le_mul_inv_iff₀ unit, mul_inv_lt_iff₀ unit,
      lt_mul_inv_iff₀ unit] at low high tie
    apply round_half_even_eq nonzero
    · qify
      linarith
    · qify
      linarith
    · refine tie.imp_right fun strict => ⟨?_, ?_⟩
      · qify
        linarith [strict.1]
      · qify
        linarith [strict.2]

theorem round_magnitude_eq (format : BinaryFormat) {numerator denominator : Nat}
    (positive : 0 < numerator) :
    format.roundMagnitude numerator denominator =
      let exponent := max format.leastExponent
        (floorLog2 numerator denominator - format.fractionBits)
      min format.infinity ((exponent - format.leastExponent).toNat * 2 ^ format.fractionBits +
        significandAt numerator denominator exponent) := by
  rw [roundMagnitude, if_neg (by omega)]
  rfl

/-- A quotient near enough to a number rounds to it. The binade of the quotient is the number's
own, except on the lower side of the least significand of a binade, where rounding happens on
the finer grid and carries back up. -/
theorem round_magnitude_near (format : BinaryFormat) {magnitude significand : Nat}
    {exponent : Int} (packs : format.Packs magnitude significand exponent)
    (finite : magnitude < format.infinity) {numerator denominator : Nat}
    (positive : 0 < numerator) (nonzero : 0 < denominator)
    (near : format.Near significand exponent ((numerator : ℚ) / denominator)) :
    format.roundMagnitude numerator denominator = magnitude := by
  obtain ⟨packed, least, small, normal⟩ := packs
  obtain ⟨low, high, tie⟩ := near
  obtain ⟨logLow, logHigh⟩ := floor_log2_bounds positive nonzero
  have unit : (0 : ℚ) < 2 ^ exponent := by positivity
  have bits : ∀ shift : Nat, (2 : ℚ) ^ (exponent + (shift : Int)) = 2 ^ shift * 2 ^ exponent := by
    intro shift
    rw [zpow_add₀ (by norm_num), zpow_natCast, mul_comm]
  have below : (numerator : ℚ) / denominator < 2 ^ (exponent + (format.fractionBits + 1 : Nat)) := by
    rw [bits]
    refine high.trans_lt (mul_lt_mul_of_pos_right ?_ unit)
    have : significand + 1 ≤ 2 ^ (format.fractionBits + 1) := small
    have : ((significand + 1 : Nat) : ℚ) ≤ 2 ^ (format.fractionBits + 1) := by exact_mod_cast this
    push_cast at this
    linarith
  have notAbove : floorLog2 numerator denominator < exponent + (format.fractionBits + 1 : Nat) :=
    (zpow_lt_zpow_iff_right₀ (by norm_num : (1 : ℚ) < 2)).mp (logLow.trans_lt below)
  rw [round_magnitude_eq format positive]
  dsimp only
  by_cases own : exponent = format.leastExponent ∨
      (2 : ℚ) ^ (exponent + (format.fractionBits : Int)) ≤ numerator / denominator
  · have same : max format.leastExponent
        (floorLog2 numerator denominator - format.fractionBits) = exponent := by
      rcases own with lowest | inside
      · omega
      · have := (zpow_lt_zpow_iff_right₀ (by norm_num : (1 : ℚ) < 2)).mp
          (inside.trans_lt logHigh)
        omega
    have side := format.side_below_le significand exponent
    have wider : ((significand : ℚ) - 1 / 2) * 2 ^ exponent ≤
        (significand - format.sideBelow significand exponent) * 2 ^ exponent := by gcongr
    rw [same, significand_at_eq nonzero (wider.trans low) high
      (tie.imp_right fun strict => ⟨wider.trans_lt strict.1, strict.2⟩), ← packed]
    omega
  · push Not at own
    obtain ⟨raised, under⟩ := own
    rw [bits] at under
    have side := format.side_below_le significand exponent
    have filled : 2 ^ format.fractionBits ≤ significand := normal.resolve_left raised
    have short : (significand : ℚ) - format.sideBelow significand exponent <
        2 ^ format.fractionBits := lt_of_mul_lt_mul_right (low.trans_lt under) unit.le
    have least_filled : significand = 2 ^ format.fractionBits := by
      have : (significand : ℚ) < 2 ^ format.fractionBits + 1 := by linarith
      have : significand < 2 ^ format.fractionBits + 1 := by exact_mod_cast this
      omega
    have quarter : format.sideBelow significand exponent = 1 / 4 :=
      if_pos ⟨least_filled, by omega⟩
    rw [quarter, least_filled] at low
    push_cast at low
    have half : (2 : ℚ) ^ (exponent - 1) = 2 ^ exponent / 2 := by
      rw [zpow_sub₀ (by norm_num), zpow_one]
    have one : (1 : ℚ) ≤ 2 ^ format.fractionBits := one_le_pow₀ (by norm_num)
    have log : floorLog2 numerator denominator = exponent - 1 + (format.fractionBits : Int) := by
      apply floor_log2_unique positive nonzero
      · rw [zpow_add₀ (by norm_num), half, zpow_natCast]
        nlinarith
      · rw [show exponent - 1 + (format.fractionBits : Int) + 1 =
          exponent + (format.fractionBits : Int) by ring, bits]
        exact under
    have finer : max format.leastExponent
        (floorLog2 numerator denominator - format.fractionBits) = exponent - 1 := by omega
    have carried : significandAt numerator denominator (exponent - 1) =
        2 ^ (format.fractionBits + 1) := by
      apply significand_at_eq nonzero
      · rw [half]
        push_cast
        rw [pow_succ]
        linarith
      · rw [half]
        push_cast
        rw [pow_succ]
        linarith
      · exact .inl (by simp [pow_succ])
    obtain ⟨above, same⟩ := Int.eq_ofNat_of_zero_le
      (show 0 ≤ exponent - 1 - format.leastExponent by omega)
    have shift : (exponent - format.leastExponent).toNat = above + 1 := by omega
    have together : above * 2 ^ format.fractionBits + 2 ^ (format.fractionBits + 1) =
        magnitude := by
      rw [packed, shift, least_filled]
      ring
    rw [finer, carried, same, Int.toNat_natCast, together]
    omega

end BinaryFormat

end Marshal.Number
