import Marshal.Number.Shortest
import Marshal.Proofs.Number.Conversion

/-!
# The shortest decimal reads back

A neighbour that the search takes lies in the rounding interval of the number, so rounding finds
the number again. At seventeen digits the grid is finer than the narrowest interval of a double,
so there the search ends at the latest.
-/

namespace Marshal.Number

/-- A quotient of two powers, one of them without exponent, is a power of either sign. -/
theorem power_quotient (base : Nat) (power : Int) (positive : 0 < base) :
    ((base ^ power.toNat : Nat) : ℚ) / ((base ^ (-power).toNat : Nat) : ℚ) = (base : ℚ) ^ power := by
  have nonzero : (base : ℚ) ≠ 0 := by exact_mod_cast positive.ne'
  push_cast
  rw [div_eq_iff (by positivity), ← zpow_natCast, ← zpow_natCast, ← zpow_add₀ nonzero]
  congr 1
  omega

theorem estimate_below {power : Int} (low : -1074 ≤ power) (high : power < 1024) :
    (10 : ℚ) ^ (power * 30103 / 100000 - 1) ≤ 2 ^ power := by
  have above : ∀ size < 1024, 10 ^ (size * 30103 / 100000) ≤ 10 * 2 ^ size := by decide +kernel
  have below : ∀ size < 1075, 2 ^ size ≤ 10 ^ ((size * 30103 + 99999) / 100000 + 1) := by
    decide +kernel
  by_cases sign : 0 ≤ power
  · obtain ⟨size, rfl⟩ := Int.eq_ofNat_of_zero_le sign
    have bound : ((10 ^ (size * 30103 / 100000) : Nat) : ℚ) ≤ ((10 * 2 ^ size : Nat) : ℚ) := by
      exact_mod_cast above size (by omega)
    push_cast at bound
    rw [show (size : Int) * 30103 / 100000 = ((size * 30103 / 100000 : Nat) : Int) by omega,
      zpow_sub₀ (by norm_num), zpow_natCast, zpow_natCast, zpow_one]
    linarith
  · obtain ⟨size, negated⟩ := Int.eq_ofNat_of_zero_le (show 0 ≤ -power by omega)
    obtain rfl : power = -(size : Int) := by omega
    have bound : ((2 ^ size : Nat) : ℚ) ≤
        ((10 ^ ((size * 30103 + 99999) / 100000 + 1) : Nat) : ℚ) := by
      exact_mod_cast below size (by omega)
    push_cast at bound
    rw [show -(size : Int) * 30103 / 100000 - 1 =
      -(((size * 30103 + 99999) / 100000 + 1 : Nat) : Int) by omega,
      zpow_neg, zpow_neg, zpow_natCast, zpow_natCast]
    exact inv_anti₀ (by positivity) bound

/-- The power of ten from which digits are counted does not exceed the number. -/
theorem floor_log10_below {numerator denominator : Nat} (positive : 0 < numerator)
    (nonzero : 0 < denominator) (low : (2 : ℚ) ^ (-1074 : Int) ≤ numerator / denominator)
    (high : (numerator : ℚ) / denominator < 2 ^ (1024 : Int)) :
    (10 : ℚ) ^ floorLog10 numerator denominator ≤ numerator / denominator := by
  obtain ⟨logLow, logHigh⟩ := floor_log2_bounds positive nonzero
  have least := (zpow_lt_zpow_iff_right₀ (by norm_num : (1 : ℚ) < 2)).mp (low.trans_lt logHigh)
  have most := (zpow_lt_zpow_iff_right₀ (by norm_num : (1 : ℚ) < 2)).mp (logLow.trans_lt high)
  unfold floorLog10
  dsimp only
  split_ifs with next hit
  · exact_mod_cast (reaches_power_iff 10 _ _ _ (by norm_num) nonzero).mp next
  · exact_mod_cast (reaches_power_iff 10 _ _ _ (by norm_num) nonzero).mp hit
  · exact (estimate_below (by omega) most).trans logLow

namespace RoundingInterval

/-- The size of a quarter of the last binary place. -/
def quarter (interval : RoundingInterval) : ℚ := interval.numerator / interval.denominator

/-- Whether a real is in the interval on its lower side. -/
def Above (interval : RoundingInterval) (value : ℚ) : Prop :=
  if interval.closed then interval.low * interval.quarter ≤ value
  else interval.low * interval.quarter < value

def Below (interval : RoundingInterval) (value : ℚ) : Prop :=
  if interval.closed then value ≤ interval.high * interval.quarter
  else value < interval.high * interval.quarter

variable {interval : RoundingInterval}

/-- Multiplied out, quarters and grid points are compared as the numbers that they stand for. -/
theorem grid_scale (nonzero : 0 < interval.denominator) (place : Int) :
    ∃ factor : ℚ, 0 < factor ∧
      (∀ quarters : Nat, ((quarters * (interval.numerator * 10 ^ (-place).toNat) : Nat) : ℚ) =
        quarters * interval.quarter * factor) ∧
      ∀ digits : Nat, ((digits * (10 ^ place.toNat * interval.denominator) : Nat) : ℚ) =
        digits * 10 ^ place * factor := by
  have below : (0 : ℚ) < interval.denominator := by exact_mod_cast nonzero
  have tens : (0 : ℚ) < 10 ^ (-place).toNat := by positivity
  have powers := power_quotient 10 place (by norm_num)
  push_cast at powers
  rw [div_eq_iff tens.ne'] at powers
  refine ⟨interval.denominator * 10 ^ (-place).toNat, mul_pos below tens, fun quarters => ?_, ?_⟩
  · unfold quarter
    push_cast
    field_simp
  · intro digits
    push_cast
    rw [powers]
    ring

theorem quarters_le_iff (nonzero : 0 < interval.denominator) (place : Int)
    (quarters digits : Nat) :
    quarters * (interval.numerator * 10 ^ (-place).toNat) ≤
        digits * (10 ^ place.toNat * interval.denominator) ↔
      (quarters : ℚ) * interval.quarter ≤ digits * 10 ^ place := by
  obtain ⟨factor, positive, left, right⟩ := grid_scale nonzero place
  rw [← Nat.cast_le (α := ℚ), left, right, mul_le_mul_iff_of_pos_right positive]

theorem digits_le_iff (nonzero : 0 < interval.denominator) (place : Int)
    (quarters digits : Nat) :
    digits * (10 ^ place.toNat * interval.denominator) ≤
        quarters * (interval.numerator * 10 ^ (-place).toNat) ↔
      (digits : ℚ) * 10 ^ place ≤ quarters * interval.quarter := by
  obtain ⟨factor, positive, left, right⟩ := grid_scale nonzero place
  rw [← Nat.cast_le (α := ℚ), left, right, mul_le_mul_iff_of_pos_right positive]

/-- The grid point next to the center from below. -/
def pointBelow (interval : RoundingInterval) (place : Int) : Nat :=
  interval.center * (interval.numerator * 10 ^ (-place).toNat) /
    (10 ^ place.toNat * interval.denominator)

theorem point_below_bounds (nonzero : 0 < interval.denominator) (place : Int) :
    (interval.pointBelow place : ℚ) * 10 ^ place ≤ interval.center * interval.quarter ∧
      interval.center * interval.quarter <
        ((interval.pointBelow place + 1 : Nat) : ℚ) * 10 ^ place := by
  have unit : 0 < 10 ^ place.toNat * interval.denominator := by positivity
  constructor
  · rw [← digits_le_iff nonzero]
    exact Nat.div_mul_le_self _ _
  · rw [← not_le, ← digits_le_iff nonzero, not_le, Nat.mul_comm (interval.pointBelow place + 1)]
    exact Nat.lt_mul_div_succ _ unit

theorem above_iff (nonzero : 0 < interval.denominator) (place : Int) (digits : Nat) :
    (if interval.closed then interval.low * (interval.numerator * 10 ^ (-place).toNat) ≤
        digits * (10 ^ place.toNat * interval.denominator)
      else interval.low * (interval.numerator * 10 ^ (-place).toNat) <
        digits * (10 ^ place.toNat * interval.denominator)) ↔
      interval.Above (digits * 10 ^ place) := by
  unfold Above
  split_ifs
  · exact quarters_le_iff nonzero place _ _
  · rw [← not_le, digits_le_iff nonzero, not_le]

theorem below_iff (nonzero : 0 < interval.denominator) (place : Int) (digits : Nat) :
    (if interval.closed then digits * (10 ^ place.toNat * interval.denominator) ≤
        interval.high * (interval.numerator * 10 ^ (-place).toNat)
      else digits * (10 ^ place.toNat * interval.denominator) <
        interval.high * (interval.numerator * 10 ^ (-place).toNat)) ↔
      interval.Below (digits * 10 ^ place) := by
  unfold Below
  split_ifs
  · exact digits_le_iff nonzero place _ _
  · rw [← not_le, quarters_le_iff nonzero, not_le]

/-- How a grid's search decides, from the two tests and the two distances. -/
def pick (tie : Tie) (below toBelow toAbove : Nat) (lower upper : Prop) [Decidable lower]
    [Decidable upper] : Option Nat :=
  if lower ∧ upper then
    if toBelow < toAbove then some below
    else if toAbove < toBelow then some (below + 1)
    else match tie with
      | .up => some (below + 1)
      | .even => some (below + below % 2)
  else if lower then some below
  else if upper then some (below + 1)
  else none

theorem pick_some {tie : Tie} {below toBelow toAbove digits : Nat} {lower upper : Prop}
    [Decidable lower] [Decidable upper]
    (hit : pick tie below toBelow toAbove lower upper = some digits) :
    digits = below ∧ lower ∨ digits = below + 1 ∧ upper := by
  unfold pick at hit
  split_ifs at hit with both less more belowHits aboveHits
  · exact .inl ⟨(Option.some.inj hit).symm, both.1⟩
  · exact .inr ⟨(Option.some.inj hit).symm, both.2⟩
  · cases tie with
    | up => exact .inr ⟨(Option.some.inj hit).symm, both.2⟩
    | even =>
        have parity := Option.some.inj hit
        rcases Nat.mod_two_eq_zero_or_one below with even | odd
        · exact .inl ⟨by omega, both.1⟩
        · exact .inr ⟨by omega, both.2⟩
  · exact .inl ⟨(Option.some.inj hit).symm, belowHits⟩
  · exact .inr ⟨(Option.some.inj hit).symm, aboveHits⟩

theorem pick_none {tie : Tie} {below toBelow toAbove : Nat} {lower upper : Prop}
    [Decidable lower] [Decidable upper]
    (missed : pick tie below toBelow toAbove lower upper = none) : ¬ lower ∧ ¬ upper := by
  unfold pick at missed
  split_ifs at missed with both less more belowHits aboveHits
  · cases tie <;> simp at missed
  · exact ⟨belowHits, aboveHits⟩

/-- The search on a grid takes one of the two neighbours of the center, one that it tested. -/
theorem on_grid_cases (nonzero : 0 < interval.denominator) {tie : Tie} {place : Int} {digits : Nat}
    (hit : interval.onGrid? tie place = some digits) :
    digits = interval.pointBelow place ∧ interval.Above (digits * 10 ^ place) ∨
      digits = interval.pointBelow place + 1 ∧ interval.Below (digits * 10 ^ place) := by
  rcases pick_some hit with ⟨same, tested⟩ | ⟨same, tested⟩
  · exact .inl ⟨same, by rw [same]; exact (above_iff nonzero place _).mp tested⟩
  · exact .inr ⟨same, by rw [same]; exact (below_iff nonzero place _).mp tested⟩

theorem on_grid_none (nonzero : 0 < interval.denominator) {tie : Tie} {place : Int}
    (missed : interval.onGrid? tie place = none) :
    ¬ interval.Above (interval.pointBelow place * 10 ^ place) ∧
      ¬ interval.Below ((interval.pointBelow place + 1 : Nat) * 10 ^ place) := by
  have tested := pick_none missed
  exact ⟨fun above => tested.1 ((above_iff nonzero place _).mpr above),
    fun below => tested.2 ((below_iff nonzero place _).mpr below)⟩

section Interval

variable (format : BinaryFormat) {significand : Nat} (exponent : Int)

theorem quarter_of : (RoundingInterval.of format significand exponent).quarter = 2 ^ exponent / 4 := by
  have powers := power_quotient 2 (exponent - 2) (by norm_num)
  rw [neg_sub, zpow_sub₀ (by norm_num)] at powers
  norm_num at powers
  simpa [quarter, RoundingInterval.of] using powers

theorem denominator_of (significand : Nat) :
    0 < (RoundingInterval.of format significand exponent).denominator :=
  Nat.pow_pos two_pos

theorem low_of (positive : 0 < significand) :
    (RoundingInterval.of format significand exponent).low * (2 ^ exponent / 4 : ℚ) =
      (significand - format.sideBelow significand exponent) * 2 ^ exponent := by
  unfold BinaryFormat.sideBelow RoundingInterval.of
  dsimp only [Nat.pow_eq]
  split_ifs
  · rw [Nat.cast_sub (by omega)]
    push_cast
    ring
  · rw [Nat.cast_sub (by omega)]
    push_cast
    ring

theorem high_of :
    (RoundingInterval.of format significand exponent).high * (2 ^ exponent / 4 : ℚ) =
      (significand + 1 / 2) * 2 ^ exponent := by
  unfold RoundingInterval.of
  push_cast
  ring

theorem center_of :
    (RoundingInterval.of format significand exponent).center * (2 ^ exponent / 4 : ℚ) =
      significand * 2 ^ exponent := by
  unfold RoundingInterval.of
  push_cast
  ring

theorem near_iff (positive : 0 < significand) (value : ℚ) :
    format.Near significand exponent value ↔
      (RoundingInterval.of format significand exponent).Above value ∧
        (RoundingInterval.of format significand exponent).Below value := by
  unfold Above Below
  rw [quarter_of, low_of format exponent positive, high_of]
  have parity : (RoundingInterval.of format significand exponent).closed = true ↔
      significand % 2 = 0 := by simp [RoundingInterval.of]
  constructor
  · rintro ⟨low, high, tie⟩
    split_ifs with closed
    · exact ⟨low, high⟩
    · exact tie.resolve_left (parity.not.mp closed)
  · split_ifs with closed
    · exact fun ⟨low, high⟩ => ⟨low, high, .inl (parity.mp closed)⟩
    · exact fun ⟨low, high⟩ => ⟨low.le, high.le, .inr ⟨low, high⟩⟩

/-- What a grid's search takes rounds to the number. The test that was made bounds one side, the
center the other. -/
theorem on_grid_near (positive : 0 < significand) {tie : Tie} {place : Int} {digits : Nat}
    (hit : (RoundingInterval.of format significand exponent).onGrid? tie place = some digits) :
    format.Near significand exponent (digits * 10 ^ place) := by
  have nonzero := denominator_of format exponent significand
  obtain ⟨belowCenter, aboveCenter⟩ := point_below_bounds nonzero place
  have center := format.near_self significand exponent
  rw [quarter_of, center_of] at belowCenter aboveCenter
  rw [near_iff format exponent positive] at center ⊢
  rcases on_grid_cases nonzero hit with ⟨rfl, above⟩ | ⟨rfl, below⟩
  · refine ⟨above, ?_⟩
    have inside := center.2
    unfold Below at inside ⊢
    split_ifs at inside ⊢ <;> linarith
  · refine ⟨?_, below⟩
    have inside := center.1
    unfold Above at inside ⊢
    split_ifs at inside ⊢ <;> linarith

/-- A grid that is finer than the interval is wide has a point in it. -/
theorem on_grid_some (positive : 0 < significand) (tie : Tie) {place : Int}
    (fine : (10 : ℚ) ^ place < (1 / 2 + format.sideBelow significand exponent) * 2 ^ exponent) :
    (RoundingInterval.of format significand exponent).onGrid? tie place ≠ none := by
  intro missed
  have nonzero := denominator_of format exponent significand
  obtain ⟨above, below⟩ := on_grid_none nonzero missed
  unfold Above at above
  unfold Below at below
  rw [quarter_of, low_of format exponent positive] at above
  rw [quarter_of, high_of] at below
  push_cast at below
  split_ifs at above below <;> linarith

end Interval

end RoundingInterval

open RoundingInterval

/-- What a finite double's significand and exponent are bounded by. -/
theorem double_bounds {magnitude significand : Nat} {exponent : Int}
    (packs : BinaryFormat.double.Packs magnitude significand exponent)
    (finite : magnitude < BinaryFormat.double.infinity) :
    -1074 ≤ exponent ∧ exponent ≤ 971 ∧ significand < 2 ^ 53 := by
  obtain ⟨packed, least, small, normal⟩ := packs
  have lowest : BinaryFormat.double.leastExponent = -1074 := by decide
  have bound : BinaryFormat.double.infinity = 2047 * 2 ^ 52 := by decide
  have bits : BinaryFormat.double.fractionBits = 52 := rfl
  rw [lowest] at packed least normal
  rw [bits] at packed small normal
  rw [bound] at finite
  refine ⟨least, ?_, small⟩
  rcases normal with low | full
  · omega
  · obtain ⟨raised, rfl⟩ : ∃ raised : Nat, exponent = raised - 1074 :=
      ⟨(exponent + 1074).toNat, by omega⟩
    omega

section Double

variable {magnitude significand : Nat} {exponent : Int}
  (packs : BinaryFormat.double.Packs magnitude significand exponent)
  (finite : magnitude < BinaryFormat.double.infinity)

include packs finite

/-- Seventeen digits suffice: the last grid of the search is finer than the interval, also where
the interval's lower side is the short one. -/
theorem last_grid_fine {leading : Int}
    (below : (10 : ℚ) ^ leading ≤ significand * 2 ^ exponent) :
    (10 : ℚ) ^ (leading - 16) <
      (1 / 2 + BinaryFormat.double.sideBelow significand exponent) * 2 ^ exponent := by
  obtain ⟨-, -, small⟩ := double_bounds packs finite
  have unit : (0 : ℚ) < 2 ^ exponent := by positivity
  have scaled : (10 : ℚ) ^ (leading - 16) ≤ significand / 10 ^ 16 * 2 ^ exponent := by
    rw [zpow_sub₀ (by norm_num), div_mul_eq_mul_div]
    exact div_le_div_of_nonneg_right below (by positivity)
  refine scaled.trans_lt (mul_lt_mul_of_pos_right ?_ unit)
  unfold BinaryFormat.sideBelow
  split_ifs with lowest
  · rw [lowest.1]
    norm_num [BinaryFormat.double]
  · have room : (significand : ℚ) < 9007199254740992 := by exact_mod_cast small
    norm_num
    linarith

theorem shortest_near (positive : 0 < significand) (tie : Tie) :
    BinaryFormat.double.Near significand exponent
      ((shortest .double tie significand exponent).digits *
        10 ^ (shortest .double tie significand exponent).exponent) := by
  obtain ⟨lowest, highest, small⟩ := double_bounds packs finite
  have unit : (0 : ℚ) < 2 ^ exponent := by positivity
  have one : (1 : ℚ) ≤ significand := by exact_mod_cast positive
  have room : (significand : ℚ) < 2 ^ 53 := by exact_mod_cast small
  unfold shortest
  rw [if_neg (by omega)]
  dsimp only
  generalize shape : RoundingInterval.of .double significand exponent = interval
  have value : ((interval.center * interval.numerator : Nat) : ℚ) / interval.denominator =
      significand * 2 ^ exponent := by
    rw [← center_of .double exponent, ← quarter_of .double exponent, shape]
    push_cast
    exact mul_div_assoc _ _ _
  have below : (10 : ℚ) ^ floorLog10 (interval.center * interval.numerator)
      interval.denominator ≤ significand * 2 ^ exponent := by
    have least : (2 : ℚ) ^ (-1074 : Int) ≤ significand * 2 ^ exponent :=
      calc (2 : ℚ) ^ (-1074 : Int) ≤ 2 ^ exponent := zpow_le_zpow_right₀ (by norm_num) lowest
        _ ≤ significand * 2 ^ exponent := le_mul_of_one_le_left unit.le one
    have most : (significand : ℚ) * 2 ^ exponent < 2 ^ (1024 : Int) :=
      calc (significand : ℚ) * 2 ^ exponent < 2 ^ 53 * 2 ^ exponent :=
            mul_lt_mul_of_pos_right room unit
        _ = 2 ^ (53 + exponent) := by rw [zpow_add₀ (by norm_num)]; norm_num
        _ ≤ 2 ^ (1024 : Int) := zpow_le_zpow_right₀ (by norm_num) (by omega)
    rw [← value] at least most ⊢
    refine floor_log10_below ?_ ?_ least most <;> rw [← shape] <;>
      simp only [RoundingInterval.of, Nat.pow_eq] <;> positivity
  generalize floorLog10 (interval.center * interval.numerator) interval.denominator = leading
    at below
  have last := on_grid_some .double exponent positive tie (last_grid_fine packs finite below)
  rw [shape] at last
  cases found : (List.range 17).findSome? fun (count : Nat) =>
      (interval.onGrid? tie (leading - count)).map fun digits =>
        if digits = 10 ^ (count + 1) then Decimal.mk 1 (leading + 1)
        else ⟨digits, leading - count⟩ with
  | none =>
      have missed := List.findSome?_eq_none_iff.mp found 16 (by simp)
      exact absurd (Option.map_eq_none_iff.mp missed) last
  | some decimal =>
      obtain ⟨count, -, hit⟩ := List.exists_of_findSome?_eq_some found
      obtain ⟨digits, taken, rfl⟩ := Option.map_eq_some_iff.mp hit
      have near := on_grid_near .double exponent positive (shape ▸ taken)
      rw [Option.getD_some]
      split_ifs with carried
      · rw [carried] at near
        convert near using 1
        push_cast
        rw [one_mul, ← zpow_natCast, ← zpow_add₀ (by norm_num)]
        congr 1
        push_cast
        omega
      · exact near

/-- The digits that are found are not zero, as zero is near to no positive number. -/
theorem shortest_positive (positive : 0 < significand) (tie : Tie) :
    0 < (shortest .double tie significand exponent).digits := by
  have near := (shortest_near packs finite positive tie).low
  have one : (1 : ℚ) ≤ significand := by exact_mod_cast positive
  have side : BinaryFormat.double.sideBelow significand exponent ≤ 1 / 2 :=
    BinaryFormat.side_below_le _ _ _
  have unit : (0 : ℚ) < 2 ^ exponent := by positivity
  have reached : 0 < (significand - BinaryFormat.double.sideBelow significand exponent) *
      2 ^ exponent := mul_pos (by linarith) unit
  have value := reached.trans_le near
  by_contra zero
  rw [Nat.eq_zero_of_not_pos zero, Nat.cast_zero, zero_mul] at value
  exact absurd value (lt_irrefl _)

end Double

namespace Double

/-- The number of digits places a number between two powers of ten. -/
theorem digits_bounds {digits : Nat} (positive : 0 < digits) :
    10 ^ ((Nat.toDigits 10 digits).length - 1) ≤ digits ∧
      digits < 10 ^ (Nat.toDigits 10 digits).length ∧ 0 < (Nat.toDigits 10 digits).length := by
  have some_digit : 0 < (Nat.toDigits 10 digits).length := Nat.length_toDigits_pos
  refine ⟨?_, (Nat.length_toDigits_le_iff (by norm_num) some_digit).mp le_rfl, some_digit⟩
  rcases Nat.eq_or_lt_of_le (Nat.succ_le_of_lt some_digit) with single | more
  · rw [← single]
    exact positive
  · by_contra small
    have := (Nat.length_toDigits_le_iff (by norm_num) (by omega)).mpr (not_le.mp small)
    omega

theorem power_le_power (base low other high : Nat) (smaller : base ^ low ≤ other ^ high) :
    (base : ℚ) ^ (low : Int) ≤ (other : ℚ) ^ (high : Int) := by
  rw [zpow_natCast, zpow_natCast]
  exact_mod_cast smaller

theorem doubles_below : (2 : ℚ) ^ (1024 : Int) ≤ 10 ^ (310 : Int) :=
  power_le_power 2 1024 10 310 (Nat.le_of_ble_eq_true (by decide +kernel))

theorem doubles_above : (10 : ℚ) ^ (-330 : Int) ≤ 2 ^ (-1075 : Int) := by
  rw [zpow_neg, zpow_neg]
  exact inv_anti₀ (by positivity)
    (power_le_power 2 1075 10 330 (Nat.le_of_ble_eq_true (by decide +kernel)))

/-- A decimal that is near enough to a finite double is read as that double. The early answers
are for decimals that are near to none. -/
theorem of_decimal_near (negative : Bool) {magnitude significand digits : Nat}
    {exponent power : Int} (packs : BinaryFormat.double.Packs magnitude significand exponent)
    (finite : magnitude < BinaryFormat.double.infinity) (positive : 0 < significand)
    (near : BinaryFormat.double.Near significand exponent (digits * 10 ^ power)) :
    ofDecimal negative digits power = ofWord (BinaryFormat.double.word negative magnitude) := by
  obtain ⟨lowest, highest, small⟩ := double_bounds packs finite
  have unit : (0 : ℚ) < 2 ^ exponent := by positivity
  have one : (1 : ℚ) ≤ significand := by exact_mod_cast positive
  have room : (significand : ℚ) ≤ 9007199254740991 := by exact_mod_cast Nat.le_of_lt_succ small
  have side : BinaryFormat.double.sideBelow significand exponent ≤ 1 / 2 :=
    BinaryFormat.side_below_le _ _ _
  have least : (2 : ℚ) ^ (-1075 : Int) ≤ digits * 10 ^ power :=
    calc (2 : ℚ) ^ (-1075 : Int) ≤ 2 ^ (exponent - 1) :=
          zpow_le_zpow_right₀ (by norm_num) (by omega)
      _ = 1 / 2 * 2 ^ exponent := by rw [zpow_sub₀ (by norm_num)]; ring
      _ ≤ (significand - BinaryFormat.double.sideBelow significand exponent) * 2 ^ exponent :=
          mul_le_mul_of_nonneg_right (by linarith) unit.le
      _ ≤ digits * 10 ^ power := near.low
  have most : (digits : ℚ) * 10 ^ power < 2 ^ (1024 : Int) :=
    calc (digits : ℚ) * 10 ^ power ≤ (significand + 1 / 2) * 2 ^ exponent := near.high
      _ < 2 ^ 53 * 2 ^ exponent := mul_lt_mul_of_pos_right (by linarith) unit
      _ = 2 ^ (53 + exponent) := by rw [zpow_add₀ (by norm_num)]; norm_num
      _ ≤ 2 ^ (1024 : Int) := zpow_le_zpow_right₀ (by norm_num) (by omega)
  have nonzero : 0 < digits := by
    by_contra zero
    obtain rfl : digits = 0 := by omega
    rw [Nat.cast_zero, zero_mul] at least
    exact absurd least (not_le.mpr (by positivity))
  obtain ⟨digitsLow, digitsHigh, some_digit⟩ := digits_bounds nonzero
  unfold ofDecimal
  dsimp only
  generalize (Nat.toDigits 10 digits).length = places at digitsLow digitsHigh some_digit
  have notLarge : ¬ 310 < power + places := by
    intro large
    have reached : (10 : ℚ) ^ (310 : Int) ≤ digits * 10 ^ power :=
      calc (10 : ℚ) ^ (310 : Int) ≤ 10 ^ (((places - 1 : Nat) : Int) + power) :=
            zpow_le_zpow_right₀ (by norm_num) (by omega)
        _ = ((10 ^ (places - 1) : Nat) : ℚ) * 10 ^ power := by
            rw [zpow_add₀ (by norm_num), zpow_natCast]
            norm_num
        _ ≤ digits * 10 ^ power :=
            mul_le_mul_of_nonneg_right (by exact_mod_cast digitsLow) (by positivity)
    exact absurd (reached.trans_lt most) (not_lt.mpr doubles_below)
  have notSmall : ¬ power + places < -330 := by
    intro tiny
    have under : (digits : ℚ) * 10 ^ power < 10 ^ (-330 : Int) :=
      calc (digits : ℚ) * 10 ^ power < ((10 ^ places : Nat) : ℚ) * 10 ^ power :=
            mul_lt_mul_of_pos_right (by exact_mod_cast digitsHigh) (by positivity)
        _ = 10 ^ ((places : Int) + power) := by
            rw [zpow_add₀ (by norm_num), zpow_natCast]
            norm_num
        _ ≤ 10 ^ (-330 : Int) := zpow_le_zpow_right₀ (by norm_num) (by omega)
    exact absurd (least.trans_lt under) (not_lt.mpr doubles_above)
  rw [if_neg (by omega), if_neg notLarge, if_neg notSmall]
  congr 2
  split_ifs with sign
  · obtain ⟨size, rfl⟩ := Int.eq_ofNat_of_zero_le sign
    rw [Int.toNat_natCast]
    apply BinaryFormat.round_magnitude_near _ packs finite (Nat.mul_pos nonzero (Nat.pow_pos (by omega)))
      one_pos
    simpa using near
  · obtain ⟨size, negated⟩ := Int.eq_ofNat_of_zero_le (show 0 ≤ -power by omega)
    obtain rfl : power = -(size : Int) := by omega
    rw [neg_neg, Int.toNat_natCast]
    apply BinaryFormat.round_magnitude_near _ packs finite nonzero (Nat.pow_pos (by omega))
    simpa [div_eq_mul_inv] using near

/-- The digits that a finite double is written with are read as the same double, wherever the
point stands among them. -/
theorem of_decimal_shortest {number : Double} {negative : Bool} {significand : Nat}
    {exponent : Int} (value : number.value = .finite negative significand exponent) (tie : Tie)
    {digits : Nat} {power : Int}
    (same : (digits : ℚ) * 10 ^ power = (shortest .double tie significand exponent).digits *
      10 ^ (shortest .double tie significand exponent).exponent) :
    ofDecimal negative digits power = number := by
  obtain ⟨packs, finite, sign⟩ := BinaryFormat.Packs.of_decode value
  conv_rhs => rw [← number.of_word_split]
  rw [← sign]
  rcases Nat.eq_zero_or_pos significand with zero | positive
  · have empty : digits = 0 := by
      simp only [shortest, if_pos zero, Nat.cast_zero, zero_mul] at same
      rcases mul_eq_zero.mp same with zero | zero
      · exact_mod_cast zero
      · exact absurd zero (by positivity)
    have lowest : exponent = BinaryFormat.double.leastExponent := by
      apply packs.normal.resolve_right
      rw [zero]
      exact not_le.mpr (by positivity)
    have whole : number.magnitude = 0 := by
      unfold Double.magnitude
      rw [packs.packed, zero, lowest]
      simp
    simp [ofDecimal, empty, whole]
  · exact of_decimal_near negative packs finite positive
      (same ▸ shortest_near packs finite positive tie)

end Double

end Marshal.Number
