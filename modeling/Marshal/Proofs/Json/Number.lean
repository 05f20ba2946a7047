import Marshal.Json.Printer
import Marshal.Json.Token
import Marshal.Proofs.Number.Shortest

/-!
# Numbers are scanned as they are spelled

A number's text is a run of digits, perhaps a fraction and perhaps an exponent. Scanning takes
such a spelling apart again wherever nothing follows that a number could go on with. Integers
are spelled by their digits; each of the ways in which a double is laid out is a spelling with a
fraction or an exponent of the same decimal. What such a spelling is read as is up to the reader of
numbers; the exact one finds the double again.
-/

namespace Marshal.Json

open Number

/-- Whether a number that stands before a text ends there. -/
def endsNumber : List Char → Bool
  | [] => true
  | next :: _ => !next.isDigit && next ≠ '.' && next ≠ 'e' && next ≠ 'E'

/-- A run of digits that is not empty. -/
structure Digits (characters : List Char) : Prop where
  nonempty : characters ≠ []
  all : ∀ character ∈ characters, character.isDigit = true

namespace Digits

theorem of_number (number : Nat) : Digits (digitChars number) where
  nonempty := Nat.toDigits_ne_nil
  all _ member := Nat.isDigit_of_mem_toDigits (by norm_num) (by norm_num) member

theorem append {left right : List Char} (digits : Digits left)
    (all : ∀ character ∈ right, character.isDigit = true) : Digits (left ++ right) where
  nonempty := by simp [digits.nonempty]
  all character member := (List.mem_append.mp member).elim (digits.all character) (all character)

theorem of_subset {characters part : List Char} (digits : Digits characters)
    (nonempty : part ≠ []) (inside : part ⊆ characters) : Digits part :=
  ⟨nonempty, fun character member => digits.all character (inside member)⟩

end Digits

/-- That a text begins with a digit. -/
def StartsDigit (characters : List Char) : Prop :=
  ∃ digit more, characters = digit :: more ∧ digit.isDigit = true

theorem StartsDigit.of_digits {characters : List Char} (run : Digits characters) :
    StartsDigit characters := by
  obtain ⟨digit, more, rfl⟩ := List.exists_cons_of_ne_nil run.nonempty
  exact ⟨digit, more, rfl, run.all digit List.mem_cons_self⟩

theorem StartsDigit.append {characters : List Char} (starts : StartsDigit characters)
    (rest : List Char) : StartsDigit (characters ++ rest) := by
  obtain ⟨digit, more, rfl, leads⟩ := starts
  exact ⟨digit, more ++ rest, rfl, leads⟩

theorem zero_digits {count : Nat} : ∀ character ∈ List.replicate count '0',
    character.isDigit = true := by
  intro character member
  rw [List.eq_of_mem_replicate member]
  decide

theorem digits_value_append (left right : List Char) :
    digitsValue (left ++ right) = digitsValue left * 10 ^ right.length + digitsValue right := by
  have shifted : ∀ start, right.foldl
      (fun value digit => value * 10 + (digit.toNat - '0'.toNat)) start =
        start * 10 ^ right.length + digitsValue right := by
    induction right with
    | nil => simp [digitsValue]
    | cons digit rest induction =>
        intro start
        rw [digitsValue, List.foldl_cons, List.foldl_cons, induction, induction, List.length_cons]
        ring
  rw [digitsValue, List.foldl_append, shifted]
  rfl

theorem digits_value_zeros (count : Nat) : digitsValue (List.replicate count '0') = 0 := by
  induction count with
  | zero => rfl
  | succ count induction =>
      rw [List.replicate_succ', digits_value_append, induction]
      rfl

theorem digits_value_number (number : Nat) : digitsValue (digitChars number) = number := by
  have round := Nat.ofDigitChars_ten_toDigits (n := number)
  rw [Nat.ofDigitChars_eq_foldl] at round
  simpa only [digitsValue, digitChars, Nat.mul_comm] using round

/-- Only zero begins with a zero. -/
theorem leading_digit {number : Nat} (positive : 0 < number) :
    (digitChars number).head? ≠ some '0' := by
  induction number using Nat.strong_induction_on with
  | _ number induction =>
      unfold digitChars
      rw [Nat.toDigits_eq_if (by norm_num)]
      split_ifs with single
      · simp only [List.head?_cons, ne_eq, Option.some.injEq, Nat.digitChar_eq_zero]
        omega
      · have earlier := induction (number / 10) (by omega) (by omega)
        rw [List.head?_append]
        cases first : (Nat.toDigits 10 (number / 10)).head? with
        | none => exact absurd (List.head?_eq_none_iff.mp first) Nat.toDigits_ne_nil
        | some digit => rwa [digitChars, first] at earlier

theorem scan_digits {digits rest : List Char} (run : Digits digits)
    (stops : ∀ next, rest.head? = some next → next.isDigit = false) :
    scanDigits (digits ++ rest) = .ok (digits, rest) := by
  have taken : (digits ++ rest).takeWhile Char.isDigit = digits := by
    rw [List.takeWhile_append_of_pos run.all]
    cases rest with
    | nil => simp
    | cons next more => simp [stops next rfl]
  have dropped : (digits ++ rest).dropWhile Char.isDigit = rest := by
    rw [List.dropWhile_append_of_pos run.all]
    cases rest with
    | nil => simp
    | cons next more => simp [stops next rfl]
  unfold scanDigits
  rw [taken, dropped]
  cases digits with
  | nil => exact absurd rfl run.nonempty
  | cons digit more => rfl

/-- The parts that a number's text is made of, the sign apart. -/
structure Spelling where
  whole : List Char
  fraction : Option (List Char)
  exponent : Option Exponent

namespace Spelling

def fractionText : Option (List Char) → List Char
  | none => []
  | some places => '.' :: places

def exponentText : Option Exponent → List Char
  | none => []
  | some exponent => 'e' :: (if exponent.negative then '-' else '+') :: exponent.digits

def text (spelling : Spelling) : List Char :=
  spelling.whole ++ (fractionText spelling.fraction ++ exponentText spelling.exponent)

structure Valid (spelling : Spelling) : Prop where
  whole : Digits spelling.whole
  leading : spelling.whole.head? = some '0' → spelling.whole.length = 1
  fraction : ∀ places, spelling.fraction = some places → Digits places
  exponent : ∀ exponent, spelling.exponent = some exponent → Digits exponent.digits

variable {spelling : Spelling} {rest : List Char}

theorem ends_number_head (ends : endsNumber rest = true) {next : Char}
    (first : rest.head? = some next) :
    next.isDigit = false ∧ next ≠ '.' ∧ next ≠ 'e' ∧ next ≠ 'E' := by
  cases rest with
  | nil => simp at first
  | cons head tail =>
      obtain rfl : head = next := by simpa using first
      simpa [endsNumber, and_assoc] using ends

theorem scan_exponent (valid : spelling.Valid) (ends : endsNumber rest = true) :
    scanExponent (exponentText spelling.exponent ++ rest) = .ok (spelling.exponent, rest) := by
  cases shape : spelling.exponent with
  | none =>
      cases rest with
      | nil => rfl
      | cons next more =>
          obtain ⟨-, -, lower, upper⟩ := ends_number_head ends rfl
          simp [exponentText, scanExponent, lower, upper]
  | some exponent =>
      have digits := scan_digits (valid.exponent exponent shape)
        fun next first => (ends_number_head ends first).1
      obtain ⟨negative, places⟩ := exponent
      cases negative <;>
        simp [exponentText, scanExponent, scanExponentDigits, digits, Except.map]

theorem exponent_stops (exponent : Option Exponent) (ends : endsNumber rest = true) {next : Char}
    (first : (exponentText exponent ++ rest).head? = some next) :
    next.isDigit = false ∧ next ≠ '.' := by
  cases exponent with
  | none =>
      obtain ⟨digit, point, -⟩ := ends_number_head ends first
      exact ⟨digit, point⟩
  | some exponent =>
      obtain rfl : 'e' = next := by simpa [exponentText] using first
      decide

theorem scan_fraction (valid : spelling.Valid) (ends : endsNumber rest = true) :
    scanFraction (fractionText spelling.fraction ++ (exponentText spelling.exponent ++ rest)) =
      .ok (spelling.fraction, exponentText spelling.exponent ++ rest) := by
  cases shape : spelling.fraction with
  | none =>
      cases follow : exponentText spelling.exponent ++ rest with
      | nil => rfl
      | cons next more =>
          have point : next ≠ '.' := (exponent_stops _ ends (by rw [follow]; rfl)).2
          simp [fractionText, scanFraction, point]
  | some places =>
      have digits := scan_digits (valid.fraction places shape)
        fun next first => (exponent_stops spelling.exponent ends first).1
      simp [fractionText, scanFraction, digits, Except.map]

/-- Scanning a spelling finds its parts again. -/
theorem scan_parts [NumberReader] (valid : spelling.Valid) (ends : endsNumber rest = true)
    (negative : Bool) :
    ∃ flaw, scanNumber negative (spelling.text ++ rest) =
      match numberToken negative spelling.whole spelling.fraction spelling.exponent with
      | some token => .ok (token, rest)
      | none => .error flaw := by
  have stops : ∀ next, (fractionText spelling.fraction ++
      (exponentText spelling.exponent ++ rest)).head? = some next → next.isDigit = false := by
    intro next first
    cases shape : spelling.fraction with
    | none =>
        rw [shape] at first
        exact (exponent_stops _ ends first).1
    | some places =>
        rw [shape] at first
        obtain rfl : '.' = next := by simpa [fractionText] using first
        decide
  have whole : scanWhole (spelling.text ++ rest) = .ok (spelling.whole,
      fractionText spelling.fraction ++ (exponentText spelling.exponent ++ rest)) := by
    unfold scanWhole
    rw [text, List.append_assoc, List.append_assoc, scan_digits valid.whole stops]
    simp only [bind, Except.bind]
    rw [if_neg fun zero => zero.2 (valid.leading zero.1)]
  unfold scanNumber
  simp only [whole, scan_fraction valid ends, scan_exponent valid ends, bind, Except.bind]
  exact ⟨_, rfl⟩

theorem scan_number [NumberReader] (valid : spelling.Valid) (ends : endsNumber rest = true)
    {negative : Bool} {token : Token}
    (meaning : numberToken negative spelling.whole spelling.fraction spelling.exponent =
      some token) :
    scanNumber negative (spelling.text ++ rest) = .ok (token, rest) := by
  obtain ⟨flaw, scanned⟩ := scan_parts valid ends negative
  rw [scanned, meaning]

end Spelling

theorem natural_valid (number : Nat) : Spelling.Valid ⟨digitChars number, none, none⟩ where
  whole := Digits.of_number number
  leading zero := by
    rcases Nat.eq_zero_or_pos number with rfl | positive
    · decide
    · exact absurd zero (leading_digit positive)
  fraction _ absent := absurd absent (by simp)
  exponent _ absent := absurd absent (by simp)

theorem natural_text (number : Nat) :
    Spelling.text ⟨digitChars number, none, none⟩ = digitChars number := by
  simp [Spelling.text, Spelling.fractionText, Spelling.exponentText]

theorem scan_whole_number [NumberReader] {negative : Bool} {number : Nat} {token : Token}
    {rest : List Char} (meaning : wholeToken negative (digitChars number) = some token)
    (ends : endsNumber rest = true) :
    scanNumber negative (digitChars number ++ rest) = .ok (token, rest) := by
  rw [← natural_text]
  exact Spelling.scan_number (natural_valid number) ends meaning

theorem scan_natural [NumberReader] {number : Nat} (small : number < 2 ^ 64) {rest : List Char}
    (ends : endsNumber rest = true) :
    scanNumber false (digitChars number ++ rest) = .ok (.uint (.ofNat number), rest) := by
  apply scan_whole_number _ ends
  rw [wholeToken, digits_value_number, if_neg (by decide), Nat.pow_eq, if_pos small]

theorem scan_negative [NumberReader] {value : Int64} (negative : value.toInt < 0) {rest : List Char}
    (ends : endsNumber rest = true) :
    scanNumber true (digitChars value.toInt.natAbs ++ rest) = .ok (.int value, rest) := by
  apply scan_whole_number _ ends
  have low := value.le_toInt
  have restored : -((value.toInt.natAbs : Nat) : Int) = value.toInt := by omega
  rw [wholeToken, digits_value_number, if_pos rfl, Nat.pow_eq, if_neg (by omega), restored,
    Int64.ofInt_toInt]

namespace Spelling

/-- The digits of a number without the point, and where the point stands. -/
def digits (spelling : Spelling) : List Char := spelling.whole ++ spelling.fraction.getD []

def power (spelling : Spelling) : Int :=
  (spelling.exponent.map Exponent.value).getD 0 - (spelling.fraction.getD []).length

/-- That a spelling is one of a decimal, and not the one of an integer. -/
structure Spells (spelling : Spelling) (decimal : Decimal) : Prop where
  valid : spelling.Valid
  pointed : spelling.fraction ≠ none ∨ spelling.exponent ≠ none
  value : (digitsValue spelling.digits : ℚ) * 10 ^ spelling.power =
    decimal.digits * 10 ^ decimal.exponent

/-- Read exactly, a spelling is the double nearest to its decimal. -/
theorem number_token {spelling : Spelling} {decimal : Decimal} (spells : spelling.Spells decimal)
    (negative : Bool) :
    numberToken negative spelling.whole spelling.fraction spelling.exponent =
      finiteToken (.ofDecimal negative (digitsValue spelling.digits) spelling.power) := by
  obtain ⟨whole, fraction, exponent⟩ := spelling
  cases fraction with
  | some places => rfl
  | none =>
      cases exponent with
      | some exponent => rfl
      | none => exact absurd spells.pointed (by simp)

end Spelling

theorem leading_zero {decimal : Decimal} (shape : 0 < decimal.digits ∨ decimal = ⟨0, 0⟩)
    (zero : (digitChars decimal.digits).head? = some '0') : decimal = ⟨0, 0⟩ :=
  shape.resolve_left fun positive => leading_digit positive zero

/-- Plain notation splits the digits at the point, with zeros before or after them where the
point stands beyond them. -/
theorem plain_spells {decimal : Decimal} (shape : 0 < decimal.digits ∨ decimal = ⟨0, 0⟩) :
    ∃ spelling : Spelling, spelling.text = doubleLayout.plainText decimal ∧
      spelling.Spells decimal := by
  have run := Digits.of_number decimal.digits
  have count : 0 < (digitChars decimal.digits).length := List.length_pos_of_ne_nil run.nonempty
  have value := digits_value_number decimal.digits
  unfold Layout.plainText
  dsimp only
  by_cases whole : 0 ≤ decimal.exponent
  · rw [if_pos whole]
    obtain ⟨zeros, same⟩ := Int.eq_ofNat_of_zero_le whole
    refine ⟨⟨digitChars decimal.digits ++ List.replicate zeros '0', some ['0'], none⟩, ?_,
      ⟨run.append zero_digits, fun zero => ?_, ?_, by simp⟩, by simp, ?_⟩
    · simp [Spelling.text, Spelling.fractionText, Spelling.exponentText, doubleLayout, same]
    · rw [List.head?_append_of_ne_nil _ run.nonempty] at zero
      obtain rfl := leading_zero shape zero
      obtain rfl : zeros = 0 := by simpa using same.symm
      decide
    · rintro places ⟨⟩
      exact ⟨by simp, by simp [Char.isDigit]⟩
    · simp only [Spelling.digits, Spelling.power, Option.getD_some, Option.map_none,
        Option.getD_none, digits_value_append, digits_value_zeros, value, same, List.length_replicate,
        List.length_cons, List.length_nil]
      rw [show digitsValue ['0'] = 0 from rfl, zpow_natCast]
      norm_num
      ring
  · rw [if_neg whole]
    have positive : 0 < decimal.digits := by
      apply shape.resolve_right
      intro zero
      apply whole
      rw [zero]
    have leading : (digitChars decimal.digits).head? ≠ some '0' := leading_digit positive
    by_cases inside : 0 ≤ decimal.exponent + (digitChars decimal.digits).length - 1
    · rw [if_pos inside]
      obtain ⟨front, same⟩ := Int.eq_ofNat_of_zero_le inside
      rw [same, Int.toNat_natCast]
      have behind : front + 1 < (digitChars decimal.digits).length := by omega
      refine ⟨⟨(digitChars decimal.digits).take (front + 1),
        some ((digitChars decimal.digits).drop (front + 1)), none⟩, ?_,
        ⟨run.of_subset (by simp [run.nonempty]) (List.take_subset _ _), fun zero => ?_, ?_, by simp⟩,
        by simp, ?_⟩
      · simp [Spelling.text, Spelling.fractionText, Spelling.exponentText]
      · exact absurd (by simpa [List.head?_take] using zero) leading
      · rintro places ⟨⟩
        exact run.of_subset (by simpa using behind) (List.drop_subset _ _)
      · have power : (0 : Int) - ((digitChars decimal.digits).length - (front + 1) : Nat) =
            decimal.exponent := by omega
        simp only [Spelling.digits, Spelling.power, Option.getD_some, Option.map_none,
          Option.getD_none, List.take_append_drop, List.length_drop, value, power]
    · rw [if_neg inside]
      obtain ⟨zeros, same⟩ := Int.eq_ofNat_of_zero_le
        (show 0 ≤ -(decimal.exponent + (digitChars decimal.digits).length - 1) - 1 by omega)
      rw [same, Int.toNat_natCast]
      refine ⟨⟨['0'], some (List.replicate zeros '0' ++ digitChars decimal.digits), none⟩, ?_,
        ⟨⟨by simp, by simp [Char.isDigit]⟩, fun _ => rfl, ?_, by simp⟩, by simp, ?_⟩
      · simp [Spelling.text, Spelling.fractionText, Spelling.exponentText]
      · rintro places ⟨⟩
        exact ⟨by simp [run.nonempty], fun character member =>
          (List.mem_append.mp member).elim (zero_digits character) (run.all character)⟩
      · have power : (0 : Int) - (zeros + (digitChars decimal.digits).length : Nat) =
            decimal.exponent := by omega
        simp only [Spelling.digits, Spelling.power, Option.getD_some, Option.map_none,
          Option.getD_none, digits_value_append, digits_value_zeros, value, List.length_append,
          List.length_replicate, power]
        rw [show digitsValue ['0'] = 0 from rfl]
        simp

/-- Scientific notation puts the point after the first digit. -/
theorem exponent_spells {decimal : Decimal} (positive : 0 < decimal.digits) :
    ∃ spelling : Spelling, spelling.text = doubleLayout.exponentText decimal ∧
      spelling.Spells decimal := by
  have run := Digits.of_number decimal.digits
  have value := digits_value_number decimal.digits
  have leading : (digitChars decimal.digits).head? ≠ some '0' := leading_digit positive
  have scaled : ∀ power : Int, ∀ negative : Bool, negative = decide (power < 0) →
      Exponent.value ⟨negative, digitChars power.natAbs⟩ = power := by
    rintro power negative rfl
    unfold Exponent.value
    rw [digits_value_number]
    split_ifs with sign <;> simp only [decide_eq_true_eq] at sign <;> omega
  unfold Layout.exponentText
  dsimp only
  generalize digitChars decimal.digits = digits at run value leading ⊢
  generalize same : decimal.exponent + digits.length - 1 = first
  obtain ⟨digit, more, rfl⟩ := List.exists_cons_of_ne_nil run.nonempty
  have sign : (if first < 0 then ['-'] else if doubleLayout.signedExponent then ['+'] else []) =
      [if decide (first < 0) then '-' else '+'] := by
    simp only [doubleLayout, if_true, decide_eq_true_eq]
    split_ifs <;> rfl
  rw [sign]
  cases more with
  | nil =>
      refine ⟨⟨[digit], none, some ⟨decide (first < 0), digitChars first.natAbs⟩⟩, ?_,
        ⟨run, fun _ => rfl, by simp, ?_⟩, by simp, ?_⟩
      · simp [Spelling.text, Spelling.fractionText, Spelling.exponentText]
      · rintro exponent ⟨⟩
        exact Digits.of_number _
      · have power : first - ((0 : Nat) : Int) = decimal.exponent := by
          simp only [List.length_cons, List.length_nil] at same
          omega
        simp only [Spelling.digits, Spelling.power, Option.getD_none, Option.map_some,
          Option.getD_some, List.append_nil, List.length_nil, scaled first _ rfl, value, power]
  | cons next rest =>
      refine ⟨⟨[digit], some (next :: rest), some ⟨decide (first < 0), digitChars first.natAbs⟩⟩,
        ?_, ⟨run.of_subset (by simp) (by simp), fun zero => ?_, ?_, ?_⟩, by simp, ?_⟩
      · simp [Spelling.text, Spelling.fractionText, Spelling.exponentText]
      · rfl
      · rintro places ⟨⟩
        exact run.of_subset (by simp) (by simp)
      · rintro exponent ⟨⟩
        exact Digits.of_number _
      · have power : first - ((next :: rest).length : Int) = decimal.exponent := by
          simp only [List.length_cons] at same ⊢
          omega
        simp only [Spelling.digits, Spelling.power, Option.map_some, Option.getD_some,
          List.singleton_append, scaled first _ rfl, value, power]

/-- Every way of laying out a double is a spelling of its decimal. -/
theorem decimal_spells {decimal : Decimal} (shape : 0 < decimal.digits ∨ decimal = ⟨0, 0⟩) :
    ∃ spelling : Spelling, spelling.text = doubleLayout.decimalText decimal ∧
      spelling.Spells decimal := by
  unfold Layout.decimalText
  dsimp only [doubleLayout]
  split_ifs with plain
  · exact plain_spells shape
  · refine exponent_spells (shape.resolve_right fun zero => plain ?_)
    rw [zero]
    decide

/-- The text of a finite double after the sign spells the decimal that the double is written with. -/
theorem double_spells {number : Double} {negative : Bool} {significand : Nat} {exponent : Int}
    (value : number.value = .finite negative significand exponent)
    (finite : number.isFinite = true) :
    ∃ spelling : Spelling, doubleText number = (if negative then ['-'] else []) ++ spelling.text ∧
      spelling.Spells (shortest .double doubleLayout.tie significand exponent) := by
  obtain ⟨packs, small, -⟩ := BinaryFormat.Packs.of_decode value
  have shape : 0 < (shortest .double doubleLayout.tie significand exponent).digits ∨
      shortest .double doubleLayout.tie significand exponent = ⟨0, 0⟩ := by
    rcases Nat.eq_zero_or_pos significand with zero | positive
    · exact .inr (if_pos zero)
    · exact .inl (shortest_positive packs small positive _)
  obtain ⟨spelling, text, spells⟩ := decimal_spells shape
  refine ⟨spelling, ?_, spells⟩
  rw [doubleText, if_pos finite, Layout.double, value, text]
  rfl

/-- Read exactly, that decimal is the double itself. -/
theorem exact_token {number : Double} {negative : Bool} {significand : Nat} {exponent : Int}
    (value : number.value = .finite negative significand exponent) (finite : number.isFinite = true)
    {spelling : Spelling}
    (spells : spelling.Spells (shortest .double doubleLayout.tie significand exponent)) :
    numberToken negative spelling.whole spelling.fraction spelling.exponent =
      some (.double number) := by
  rw [Spelling.number_token spells, Double.of_decimal_shortest value _ spells.value, finiteToken,
    if_pos finite]

end Marshal.Json
