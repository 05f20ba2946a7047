import Marshal.Proofs.Json.RoundTrip

/-!
# How documents are spelled

A document is spelled by one sequence of tokens. Printing it gives a text of just these tokens, however
deep the document is, so every double that is read back is printed as a number of the same word and
only a null as a null.
-/

namespace Marshal

open Json (Token Located Spacing tokens)

mutual

/-- The tokens of a document. Where an array is being read they do not tell. -/
def Node.spelled : Node → List Token
  | .null => [.null]
  | .bool value => [.bool value]
  | .int value => [.int value]
  | .uint value => [.uint value]
  | .double value => [.double value]
  | .text value => [.text value]
  | .struct fields => .openStruct :: (Node.spelledFields fields ++ [.closeStruct])
  | .array items _ => .openArray :: (Node.spelledItems items ++ [.closeArray])

def Node.spelledFields : List (String × Node) → List Token
  | [] => []
  | (name, node) :: rest =>
      .text name :: .colon ::
        (Node.spelled node ++ if rest.isEmpty then [] else .comma :: Node.spelledFields rest)

def Node.spelledItems : List Node → List Token
  | [] => []
  | node :: rest =>
      Node.spelled node ++ if rest.isEmpty then [] else .comma :: Node.spelledItems rest

end

namespace Json

variable [NumberReader]

/-- The tokens of a text without the places where they stand. -/
def tokenized (characters : List Char) : List Token := (tokens characters).map Located.token

/-- That a text begins with some tokens and goes on with the rest. -/
def Spells (printed : List Char) (spelled : List Token) (rest : List Char) : Prop :=
  tokenized (printed ++ rest) = spelled ++ tokenized rest

variable {spacing : Spacing} {printed rest : List Char}

theorem Spells.of_tokens {token : Token} {start : List Char}
    (scanned : tokens (printed ++ rest) = ⟨token, start⟩ :: tokens rest) :
    Spells printed [token] rest := by
  rw [Spells, tokenized, scanned]
  rfl

theorem Spells.append {more : List Char} {spelled others : List Token}
    (first : Spells printed spelled (more ++ rest)) (second : Spells more others rest) :
    Spells (printed ++ more) (spelled ++ others) rest := by
  rw [Spells] at first second ⊢
  rw [List.append_assoc, first, second, List.append_assoc]

theorem spells_blank {blanks : List Char} (blank : ∀ character ∈ blanks, isBlank character = true)
    (rest : List Char) : Spells blanks [] rest := by
  rw [Spells, tokenized, tokens_blank blank]
  rfl

theorem spells_mark (mark : Char) (token : Token) (rest : List Char)
    (dark : isBlank mark = false) (scanned : scanToken mark rest = .ok (token, rest)) :
    Spells [mark] [token] rest := by
  obtain ⟨start, read⟩ := tokens_mark mark token rest dark scanned
  exact .of_tokens read

theorem spells_quoted (text : String) (rest : List Char) : Spells (quoted text) [.text text] rest := by
  obtain ⟨start, read⟩ := tokens_quoted text rest
  exact .of_tokens read

theorem spells_colon (blank : spacing.Blank) (rest : List Char) :
    Spells spacing.colon [.colon] rest := by
  obtain ⟨blanks, colon, afterColon⟩ := blank.colon
  rw [colon, ← List.singleton_append]
  exact (spells_mark ':' .colon _ rfl rfl).append (spells_blank afterColon rest)

mutual

/-- Every printed document is spelled as it is read, if its doubles are read back. -/
theorem node_spells (blank : spacing.Blank) (node : Node) (level : Nat) (rest : List Char)
    (back : node.DoublesReadBack) (ends : endsNumber rest = true) :
    Spells (render spacing level node) node.asRead.spelled rest := by
  cases node with
  | null => exact .of_tokens (tokens_scanned (by decide) (by rfl))
  | bool value => cases value <;> exact .of_tokens (tokens_scanned (by decide) (by rfl))
  | int value =>
      obtain ⟨start, scanned⟩ := tokens_int value ends
      rw [Node.asRead]
      split_ifs at scanned ⊢ <;> exact .of_tokens scanned
  | uint value =>
      obtain ⟨start, scanned⟩ := tokens_uint value ends
      exact .of_tokens scanned
  | double number =>
      obtain ⟨start, scanned⟩ := tokens_double back ends
      exact .of_tokens scanned
  | text value => exact spells_quoted value rest
  | struct fields =>
      have closes := spells_mark '\x7d' .closeStruct rest rfl rfl
      cases fields with
      | nil => exact (spells_mark '\x7b' .openStruct _ rfl rfl).append closes
      | cons field more =>
          have parts := fields_spell blank (field :: more) (level + 1)
            (spacing.line level ++ '\x7d' :: rest) back
            (ends_number_blank rest (blank.line level) rfl)
          have opened := (spells_mark '\x7b' .openStruct _ rfl rfl).append parts
          have closed := (opened.append (spells_blank (blank.line level) _)).append closes
          simpa [render, Node.asRead, Node.spelled] using closed
  | array items cursor =>
      have closes := spells_mark ']' .closeArray rest rfl rfl
      cases items with
      | nil => exact (spells_mark '[' .openArray _ rfl rfl).append closes
      | cons item more =>
          have parts := items_spell blank (item :: more) (level + 1)
            (spacing.line level ++ ']' :: rest) back (ends_number_blank rest (blank.line level) rfl)
          have opened := (spells_mark '[' .openArray _ rfl rfl).append parts
          have closed := (opened.append (spells_blank (blank.line level) _)).append closes
          simpa [render, Node.asRead, Node.spelled] using closed

theorem fields_spell (blank : spacing.Blank) (fields : List (String × Node)) (level : Nat)
    (rest : List Char) (back : Node.DoublesReadBackFields fields)
    (ends : endsNumber rest = true) :
    Spells (renderFields spacing level fields) (Node.spelledFields (Node.asReadFields fields))
      rest := by
  cases fields with
  | nil => rfl
  | cons field more =>
      obtain ⟨name, node⟩ := field
      have begun (after : List Char) :
          Spells (spacing.line level ++ quoted name ++ spacing.colon) [.text name, .colon] after :=
        ((spells_blank (blank.line level) _).append (spells_quoted name _)).append
          (spells_colon blank after)
      cases more with
      | nil =>
          have whole := (begun _).append (node_spells blank node level rest back.1 ends)
          simpa [renderFields, Node.asReadFields, Node.spelledFields] using whole
      | cons other more =>
          have further := (spells_mark ',' .comma _ rfl rfl).append
            (fields_spell blank (other :: more) level rest back.2 ends)
          have whole := (begun _).append
            ((node_spells blank node level _ back.1 rfl).append further)
          simpa [renderFields, Node.asReadFields, Node.spelledFields] using whole

theorem items_spell (blank : spacing.Blank) (items : List Node) (level : Nat) (rest : List Char)
    (back : Node.DoublesReadBackItems items) (ends : endsNumber rest = true) :
    Spells (renderItems spacing level items) (Node.spelledItems (Node.asReadItems items)) rest := by
  cases items with
  | nil => rfl
  | cons node more =>
      have begun := spells_blank (blank.line level)
      cases more with
      | nil =>
          have whole := (begun _).append (node_spells blank node level rest back.1 ends)
          simpa [renderItems, Node.asReadItems, Node.spelledItems] using whole
      | cons other more =>
          have further := (spells_mark ',' .comma _ rfl rfl).append
            (items_spell blank (other :: more) level rest back.2 ends)
          have whole := (begun _).append
            ((node_spells blank node level _ back.1 rfl).append further)
          simpa [renderItems, Node.asReadItems, Node.spelledItems] using whole

end

/-- The text of a document is spelled as the document is, however deep it is. -/
theorem pretty_text_tokenized (node : Node) (back : node.DoublesReadBack) :
    tokenized (prettyText node).toList = node.asRead.spelled := by
  have spelled := node_spells Spacing.pretty_blank node 0 [] back rfl
  have none : tokenized [] = [] := by rw [tokenized, tokens, List.map_nil]
  rw [Spells, List.append_nil, none, List.append_nil] at spelled
  rw [prettyText, String.toList_ofList, spelled]

end Json

end Marshal
