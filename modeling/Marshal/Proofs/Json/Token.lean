import Marshal.Proofs.Json.Number

/-!
# The tokens of what is printed

An escaped text is scanned as the text, blanks between the tokens are skipped, and every scalar
is one token of its own value. Of a double this is so where the reader of numbers finds the double
again in its text; the exact one does for all that are finite.
-/

namespace Marshal.Json

open Number

/-- Scanning an escaped character gives the character. The control characters are few enough to
be gone through; every other character stands for itself or has an escape of its own. -/
theorem scan_escape (character : Char) (rest : List Char) :
    scanText (escapeChar character ++ rest) =
      (scanText rest).map fun scanned => (character :: scanned.1, scanned.2) := by
  unfold escapeChar
  split_ifs with quote backslash newline return_ tab backspace feed control
  · subst quote
    simp [scanText, simpleEscape?]
  · subst backslash
    simp [scanText, simpleEscape?]
  · subst newline
    simp [scanText, simpleEscape?]
  · subst return_
    simp [scanText, simpleEscape?]
  · subst tab
    simp [scanText, simpleEscape?]
  · subst backspace
    simp [scanText, simpleEscape?]
  · subst feed
    simp [scanText, simpleEscape?]
  · have unit : ∀ code < 32, codeUnit? '0' '0' (hexDigit (code / 16)) (hexDigit (code % 16)) =
        some code := by decide
    have low : isLowSurrogate character.toNat = false := by
      simp only [isLowSurrogate, decide_eq_false_iff_not]
      omega
    have high : isHighSurrogate character.toNat = false := by
      simp only [isHighSurrogate, decide_eq_false_iff_not]
      omega
    simp [scanText, unit _ control, low, high]
  · rw [List.singleton_append, scanText.eq_def]
    split <;> simp_all

theorem scan_quoted (text : List Char) (rest : List Char) :
    scanText (text.flatMap escapeChar ++ '"' :: rest) = .ok (text, rest) := by
  induction text with
  | nil => rfl
  | cons character more induction =>
      rw [List.flatMap_cons, List.append_assoc, scan_escape, induction]
      rfl

theorem digit_dark {character : Char} (digit : character.isDigit = true) :
    isBlank character = false := by
  by_contra blank
  simp only [isBlank, Bool.or_eq_true, decide_eq_true_eq, Bool.not_eq_false] at blank
  rcases blank with ((rfl | rfl) | rfl) | rfl <;> exact absurd digit (by decide)

section Reader

variable [NumberReader]

theorem tokens_blank {blanks : List Char} (blank : ∀ character ∈ blanks, isBlank character = true)
    (rest : List Char) : tokens (blanks ++ rest) = tokens rest := by
  induction blanks with
  | nil => rfl
  | cons character more induction =>
      rw [List.cons_append, tokens, if_pos (blank character List.mem_cons_self)]
      exact induction fun other member => blank other (List.mem_cons_of_mem _ member)

theorem tokens_scanned {first : Char} {rest tail : List Char} {token : Token}
    (dark : isBlank first = false) (scanned : scanToken first rest = .ok (token, tail)) :
    tokens (first :: rest) = ⟨token, first :: rest⟩ :: tokens tail := by
  rw [tokens, if_neg (by simp [dark])]
  split
  · rename_i found same
    rw [scanned] at same
    cases same
    rfl
  · rename_i found same
    rw [scanned] at same
    cases same

theorem tokens_flawed {first : Char} {rest : List Char} {flaw : FoundFlaw}
    (dark : isBlank first = false) (flawed : scanToken first rest = .error flaw) :
    tokens (first :: rest) = [⟨.invalid flaw, first :: rest⟩] := by
  rw [tokens, if_neg (by simp [dark])]
  split
  · rename_i found same
    rw [flawed] at same
    cases same
  · rename_i found same
    rw [flawed] at same
    cases same
    rfl

theorem tokens_quoted (text : String) (rest : List Char) :
    ∃ start, tokens (quoted text ++ rest) = ⟨.text text, start⟩ :: tokens rest := by
  refine ⟨quoted text ++ rest, ?_⟩
  have scanned : scanToken '"' (text.toList.flatMap escapeChar ++ '"' :: rest) =
      .ok (.text text, rest) := by
    simp only [scanToken, scan_quoted, Except.map, String.ofList_toList]
  have shape : quoted text ++ rest =
      '"' :: (text.toList.flatMap escapeChar ++ '"' :: rest) := by simp [quoted]
  rw [shape]
  exact tokens_scanned (by decide) scanned

theorem scan_token_digit {first : Char} (digit : first.isDigit = true) (rest : List Char) :
    scanToken first rest = scanNumber false (first :: rest) := by
  unfold scanToken
  split <;> first | (exact absurd digit (by decide)) | exact if_pos digit

/-- A number's text is one token, with the sign or without. -/
theorem tokens_number {negative : Bool} {digits rest : List Char} {token : Token}
    (starts : StartsDigit digits) (scanned : scanNumber negative (digits ++ rest) = .ok (token, rest)) :
    ∃ start, tokens ((if negative then ['-'] else []) ++ digits ++ rest) =
      ⟨token, start⟩ :: tokens rest := by
  cases negative with
  | true => exact ⟨_, tokens_scanned (by decide) scanned⟩
  | false =>
      obtain ⟨digit, more, rfl, leads⟩ := starts
      exact ⟨_, tokens_scanned (digit_dark leads) ((scan_token_digit leads _).trans scanned)⟩

theorem tokens_number_flawed {negative : Bool} {digits rest : List Char} {flaw : FoundFlaw}
    (starts : StartsDigit digits) (flawed : scanNumber negative (digits ++ rest) = .error flaw) :
    ∃ start, tokens ((if negative then ['-'] else []) ++ digits ++ rest) =
      [⟨.invalid flaw, start⟩] := by
  cases negative with
  | true => exact ⟨_, tokens_flawed (by decide) flawed⟩
  | false =>
      obtain ⟨digit, more, rfl, leads⟩ := starts
      exact ⟨_, tokens_flawed (digit_dark leads) ((scan_token_digit leads _).trans flawed)⟩

theorem tokens_int (value : Int64) {rest : List Char} (ends : endsNumber rest = true) :
    ∃ start, tokens (intText value.toInt ++ rest) =
      ⟨if value.toInt < 0 then .int value else .uint (.ofNat value.toInt.toNat), start⟩ ::
        tokens rest := by
  have starts := StartsDigit.of_digits (Digits.of_number value.toInt.natAbs)
  unfold intText
  split_ifs with sign
  · exact tokens_number starts (scan_negative sign ends)
  · have small := value.toInt_lt
    have same : value.toInt.natAbs = value.toInt.toNat := by omega
    rw [same] at starts ⊢
    exact tokens_number starts (scan_natural (by omega) ends)

theorem tokens_uint (value : UInt64) {rest : List Char} (ends : endsNumber rest = true) :
    ∃ start, tokens (digitChars value.toNat ++ rest) = ⟨.uint value, start⟩ :: tokens rest := by
  have scanned := scan_natural value.toNat_lt ends
  rw [UInt64.ofNat_toNat] at scanned
  exact tokens_number (StartsDigit.of_digits (Digits.of_number _)) scanned

/-- That a double is read back: its text is one token, which is the double. -/
def ReadsBack (number : Double) : Prop :=
  (tokens (doubleText number)).map Located.token = [.double number]

variable {number : Double}

/-- What is not finite is printed as null. -/
theorem ReadsBack.finite (back : ReadsBack number) : number.isFinite = true := by
  by_contra special
  have scanned : tokens ['n', 'u', 'l', 'l'] = ⟨.null, ['n', 'u', 'l', 'l']⟩ :: tokens [] :=
    tokens_scanned (by decide) rfl
  rw [ReadsBack, doubleText, if_neg special, scanned] at back
  cases (List.cons.inj back).1

/-- It is enough to look at what the spelling of a double is read as. -/
theorem reads_back_iff {negative : Bool} {spelling : Spelling}
    (text : doubleText number = (if negative then ['-'] else []) ++ spelling.text)
    (valid : spelling.Valid) :
    ReadsBack number ↔
      numberToken negative spelling.whole spelling.fraction spelling.exponent =
        some (.double number) := by
  have starts : StartsDigit spelling.text := (StartsDigit.of_digits valid.whole).append _
  obtain ⟨flaw, scanned⟩ := Spelling.scan_parts valid (rfl : endsNumber [] = true) negative
  rw [ReadsBack, text, ← List.append_nil (_ ++ spelling.text)]
  cases meaning : numberToken negative spelling.whole spelling.fraction spelling.exponent with
  | some token =>
      rw [meaning] at scanned
      obtain ⟨start, read⟩ := tokens_number starts scanned
      have none : tokens [] = [] := by rw [tokens]
      rw [read, none]
      simp
  | none =>
      rw [meaning] at scanned
      obtain ⟨start, read⟩ := tokens_number_flawed starts scanned
      rw [read]
      simp

/-- A double that is read back by itself is read back wherever its text stands. -/
theorem tokens_double (back : ReadsBack number) {rest : List Char} (ends : endsNumber rest = true) :
    ∃ start, tokens (doubleText number ++ rest) = ⟨.double number, start⟩ :: tokens rest := by
  obtain ⟨negative, significand, exponent, value⟩ := number.value_of_finite back.finite
  obtain ⟨spelling, text, spells⟩ := double_spells value back.finite
  have meaning := (reads_back_iff text spells.valid).mp back
  rw [text]
  exact tokens_number ((StartsDigit.of_digits spells.valid.whole).append _)
    (Spelling.scan_number spells.valid ends meaning)

end Reader

/-- Read exactly, every finite double is read back. -/
theorem exact_reads_back {number : Double} (finite : number.isFinite = true) : ReadsBack number := by
  obtain ⟨negative, significand, exponent, value⟩ := number.value_of_finite finite
  obtain ⟨spelling, text, spells⟩ := double_spells value finite
  exact (reads_back_iff text spells.valid).mpr (exact_token value finite spells)

end Marshal.Json
