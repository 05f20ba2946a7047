import Marshal.Proofs.Number.Rounding

/-!
# Singles survive the way through doubles

Every finite single is a double, with a longer significand; rounding it back finds the same word.
Infinities keep their sign, and a NaN stays a NaN, though not always of the same word.
-/

namespace Marshal.Number

namespace BinaryFormat

variable (format : BinaryFormat) (negative : Bool) {magnitude : Nat}

theorem infinity_lt_sign : format.infinity < format.signWeight := by
  unfold infinity signWeight
  rw [Nat.pow_eq, Nat.pow_eq, Nat.pow_eq, pow_add, mul_comm (2 ^ format.fractionBits)]
  exact Nat.mul_lt_mul_of_pos_right (Nat.sub_lt (by positivity) one_pos) (by positivity)

theorem sign_weight_positive : 0 < format.signWeight := Nat.pow_pos two_pos

theorem magnitude_word (room : magnitude < format.signWeight) :
    format.magnitude (format.word negative magnitude) = magnitude := by
  cases negative <;> simp [BinaryFormat.magnitude, word, Nat.mod_eq_of_lt room]

theorem negative_word (room : magnitude < format.signWeight) :
    format.negative (format.word negative magnitude) = negative := by
  cases negative <;>
    simp [BinaryFormat.negative, word, Nat.div_eq_of_lt room,
      Nat.add_div_left _ format.sign_weight_positive]

/-- A word of the format's width is made of its sign and its magnitude. -/
theorem word_split {word : Nat} (width : word < 2 * format.signWeight) :
    format.word (format.negative word) (format.magnitude word) = word := by
  have split := Nat.div_add_mod word format.signWeight
  have small : word / format.signWeight < 2 := Nat.div_lt_of_lt_mul (by omega)
  unfold BinaryFormat.word BinaryFormat.negative BinaryFormat.magnitude
  obtain sign | sign := Nat.le_one_iff_eq_zero_or_eq_one.mp (Nat.le_of_lt_succ small)
  · rw [sign, Nat.mul_zero, Nat.zero_add] at split
    simp [sign, split]
  · rw [sign, Nat.mul_one] at split
    simp [sign, split]

/-- Rounding a number of the format, however its significand is spelled, gives its word. -/
theorem round_eq {format : BinaryFormat} {significand other : Nat} {exponent power : Int}
    (packs : format.Packs magnitude significand exponent) (finite : magnitude < format.infinity)
    (same : (other : ℚ) * 2 ^ power = significand * 2 ^ exponent) :
    format.round negative other power = format.word negative magnitude := by
  have rounded : ∀ numerator denominator : Nat, 0 < denominator →
      (numerator : ℚ) / denominator = other * 2 ^ power →
      format.roundMagnitude numerator denominator = magnitude := by
    intro numerator denominator nonzero quotient
    rw [same] at quotient
    rcases Nat.eq_zero_or_pos numerator with zero | positive
    · subst zero
      have empty : significand = 0 := by
        have : (significand : ℚ) * 2 ^ exponent = 0 := by simpa using quotient.symm
        rcases mul_eq_zero.mp this with zero | zero
        · exact_mod_cast zero
        · exact absurd zero (by positivity)
      have lowest : exponent = format.leastExponent := by
        apply packs.normal.resolve_right
        have : 0 < 2 ^ format.fractionBits := by positivity
        omega
      simp [roundMagnitude, packs.packed, empty, lowest]
    · apply round_magnitude_near format packs finite positive nonzero
      rw [quotient]
      exact near_self format significand exponent
  unfold round
  congr 1
  by_cases sign : 0 ≤ power
  · obtain ⟨shift, rfl⟩ := Int.eq_ofNat_of_zero_le sign
    rw [if_pos sign]
    apply rounded _ _ one_pos
    simp
  · obtain ⟨shift, negated⟩ := Int.eq_ofNat_of_zero_le (show 0 ≤ -power by omega)
    obtain rfl : power = -(shift : Int) := by omega
    rw [if_neg sign]
    apply rounded _ _ (Nat.pow_pos two_pos)
    simp [div_eq_mul_inv]

end BinaryFormat

namespace Double

theorem bits_word {word : Nat} (width : word < 2 ^ 64) : (ofWord word).bits.toNat = word := by
  simpa [ofWord] using Nat.mod_eq_of_lt width

theorem word_width (number : Double) :
    number.bits.toNat < 2 * BinaryFormat.double.signWeight :=
  number.bits.toNat_lt

theorem of_word_split (number : Double) :
    ofWord (BinaryFormat.double.word (BinaryFormat.double.negative number.bits.toNat)
      number.magnitude) = number := by
  unfold Double.magnitude ofWord
  rw [BinaryFormat.word_split _ number.word_width]
  simp

end Double

namespace Single

theorem word_width (number : Single) :
    number.bits.toNat < 2 * BinaryFormat.single.signWeight :=
  number.bits.toNat_lt

theorem of_word_split (number : Single) :
    ofWord (BinaryFormat.single.word (BinaryFormat.single.negative number.bits.toNat)
      number.magnitude) = number := by
  unfold Single.magnitude ofWord
  rw [BinaryFormat.word_split _ number.word_width]
  simp

/-- The double that a finite single becomes: its significand is shifted to full length. -/
theorem double_of_packs {magnitude significand : Nat} {exponent : Int}
    (packs : BinaryFormat.single.Packs magnitude significand exponent)
    (finite : magnitude < BinaryFormat.single.infinity) :
    ∃ wide longer power, BinaryFormat.double.Packs wide longer power ∧
      wide ≤ 0x47efffffe0000000 ∧
      (longer : ℚ) * 2 ^ power = significand * 2 ^ exponent := by
  obtain ⟨packed, least, small, normal⟩ := packs
  have leastSingle : BinaryFormat.single.leastExponent = -149 := by decide
  have leastDouble : BinaryFormat.double.leastExponent = -1074 := by decide
  have bound : BinaryFormat.single.infinity = 255 * 2 ^ 23 := by decide
  rw [leastSingle] at packed least normal
  rw [bound] at finite
  have bits : BinaryFormat.single.fractionBits = 23 := rfl
  rw [bits] at packed small normal
  obtain ⟨raised, rfl⟩ : ∃ raised : Nat, exponent = raised - 149 :=
    ⟨(exponent + 149).toNat, by omega⟩
  have lift : ((raised : Int) - 149 - -149).toNat = raised := by omega
  rw [lift] at packed
  rcases Nat.eq_zero_or_pos significand with zero | positive
  · refine ⟨0, 0, -1074, ⟨by simp [leastDouble], leastDouble.le, by positivity,
      .inl leastDouble.symm⟩, by norm_num, by simp [zero]⟩
  · obtain ⟨logLow, logHigh⟩ := log2_bounds positive
    have short : significand.log2 ≤ 23 := by
      have := (Nat.pow_lt_pow_iff_right (by norm_num : 1 < 2)).mp (logLow.trans_lt small)
      omega
    obtain ⟨shift, length⟩ : ∃ shift, significand.log2 + shift = 52 :=
      ⟨52 - significand.log2, by omega⟩
    have longLow : 2 ^ 52 ≤ significand * 2 ^ shift := by
      rw [← length, pow_add]
      exact Nat.mul_le_mul_right _ logLow
    have longHigh : significand * 2 ^ shift < 2 ^ 53 := by
      rw [show 53 = significand.log2 + 1 + shift by omega, pow_add]
      exact Nat.mul_lt_mul_of_pos_right logHigh (by positivity)
    refine ⟨(raised + 925 - shift) * 2 ^ 52 + significand * 2 ^ shift, significand * 2 ^ shift,
      raised - 149 - shift, ⟨?_, ?_, longHigh, .inr longLow⟩, ?_, ?_⟩
    · rw [leastDouble, show ((raised : Int) - 149 - shift - -1074).toNat = raised + 925 - shift by
        omega]
      rfl
    · rw [leastDouble]
      omega
    · have top : raised ≤ 253 := by omega
      rcases Nat.lt_or_ge shift 30 with full | lower
      · obtain rfl : shift = 29 := by omega
        omega
      · generalize significand * 2 ^ shift = longer at longHigh ⊢
        omega
    · push_cast
      rw [mul_assoc, zpow_sub₀ (by norm_num : (2 : ℚ) ≠ 0) _ (shift : Int), zpow_natCast]
      field_simp

theorem value_finite {number : Single} {negative : Bool} {significand : Nat} {exponent : Int}
    (value : number.value = .finite negative significand exponent) :
    BinaryFormat.single.Packs number.magnitude significand exponent ∧
      number.magnitude < BinaryFormat.single.infinity ∧
        negative = BinaryFormat.single.negative number.bits.toNat :=
  BinaryFormat.Packs.of_decode value

theorem is_nan_of_value {number : Single} (value : number.value = .nan) : number.isNaN = true := by
  unfold Single.value BinaryFormat.decode at value
  dsimp only at value
  split_ifs at value with nan
  exact decide_eq_true nan

theorem infinite_of_value {number : Single} {negative : Bool}
    (value : number.value = .infinite negative) :
    number = ofWord (BinaryFormat.single.word negative BinaryFormat.single.infinity) := by
  unfold Single.value BinaryFormat.decode at value
  dsimp only at value
  split_ifs at value with nan infinite
  cases value
  conv_lhs => rw [← number.of_word_split]
  unfold Single.magnitude
  rw [infinite]

end Single

namespace Double

theorem largest_single : Single.largest.toDouble.magnitude = 0x47efffffe0000000 := by
  decide +kernel

theorem bits_of_word (negative : Bool) {magnitude : Nat}
    (finite : magnitude < BinaryFormat.double.infinity) :
    (ofWord (BinaryFormat.double.word negative magnitude)).bits.toNat =
      BinaryFormat.double.word negative magnitude := by
  apply bits_word
  have top : BinaryFormat.double.infinity < 2 ^ 63 := by decide
  have weight : BinaryFormat.double.signWeight = 2 ^ 63 := by decide
  unfold BinaryFormat.word
  rw [weight]
  split_ifs <;> omega

theorem magnitude_of_word (negative : Bool) {magnitude : Nat}
    (finite : magnitude < BinaryFormat.double.infinity) :
    (ofWord (BinaryFormat.double.word negative magnitude)).magnitude = magnitude := by
  unfold Double.magnitude
  rw [bits_of_word negative finite]
  exact BinaryFormat.magnitude_word _ negative
    (finite.trans (BinaryFormat.infinity_lt_sign _))

theorem value_of_word (negative : Bool) {magnitude significand : Nat} {exponent : Int}
    (packs : BinaryFormat.double.Packs magnitude significand exponent)
    (finite : magnitude < BinaryFormat.double.infinity) :
    (ofWord (BinaryFormat.double.word negative magnitude)).value =
      .finite negative significand exponent := by
  have room := finite.trans (BinaryFormat.infinity_lt_sign _)
  unfold Double.value
  rw [bits_of_word negative finite]
  exact packs.decode_word finite negative (BinaryFormat.magnitude_word _ negative room)
    (BinaryFormat.negative_word _ negative room)

theorem value_of_finite (number : Double) (finite : number.isFinite = true) :
    ∃ negative significand exponent, number.value = .finite negative significand exponent := by
  have small : BinaryFormat.double.magnitude number.bits.toNat < BinaryFormat.double.infinity :=
    of_decide_eq_true finite
  unfold Double.value BinaryFormat.decode
  dsimp only
  rw [if_neg (by omega), if_neg (by omega)]
  split_ifs <;> exact ⟨_, _, _, rfl⟩

/-- A single that went through a double comes back, as a number of the same word or as a NaN. -/
theorem to_single_to_double (number : Single) :
    number.toDouble.exceedsSingle = false ∧
      (number.toDouble.toSingle = number ∨
        number.isNaN = true ∧ number.toDouble.toSingle.isNaN = true) := by
  cases value : number.value with
  | nan =>
      have same : number.toDouble = .nan := by simp [Single.toDouble, value]
      rw [same]
      exact ⟨by decide, .inr ⟨Single.is_nan_of_value value, by decide⟩⟩
  | infinite negative =>
      rw [Single.infinite_of_value value]
      cases negative <;> exact ⟨by decide, .inl (by decide)⟩
  | finite negative significand exponent =>
      obtain ⟨packs, finite, sign⟩ := Single.value_finite value
      obtain ⟨wide, longer, power, widePacks, bounded, same⟩ :=
        Single.double_of_packs packs finite
      have wideFinite : wide < BinaryFormat.double.infinity := bounded.trans_lt (by decide)
      have widened : number.toDouble = ofWord (BinaryFormat.double.word negative wide) := by
        simp only [Single.toDouble, value]
        rw [BinaryFormat.round_eq negative widePacks wideFinite same.symm]
      constructor
      · unfold Double.exceedsSingle
        rw [widened, magnitude_of_word negative wideFinite, largest_single]
        simp [Nat.not_lt.mpr bounded]
      · left
        rw [widened]
        simp only [Double.toSingle, value_of_word negative widePacks wideFinite]
        rw [BinaryFormat.round_eq negative packs finite same, sign, number.of_word_split]

end Double

end Marshal.Number
