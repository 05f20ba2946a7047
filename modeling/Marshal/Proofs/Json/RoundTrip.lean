import Marshal.Json.Parser
import Marshal.Proofs.Json.Token
import Marshal.Proofs.Tree.Fields
import Marshal.Tree.Text

/-!
# Documents survive their text

A document whose names are distinct at every level, whose doubles are finite and that is not
nested too deeply is read from its text as it was, in the same order and with the same words, if the
reader of numbers reads its doubles back. Two things are not told by a text: which integer family a
natural belonged to, and where an array was being read.
-/

namespace Marshal

namespace Node

mutual

/-- The names of every struct in a document are distinct. -/
def namesDistinct : Node → Bool
  | .struct fields => decide (Fields.names fields).Nodup && namesDistinctFields fields
  | .array items _ => namesDistinctItems items
  | _ => true

def namesDistinctFields : List (String × Node) → Bool
  | [] => true
  | (_, node) :: rest => namesDistinct node && namesDistinctFields rest

def namesDistinctItems : List Node → Bool
  | [] => true
  | node :: rest => namesDistinct node && namesDistinctItems rest

end

mutual

/-- Every double in a document is finite. -/
def doublesFinite : Node → Bool
  | .double number => number.isFinite
  | .struct fields => doublesFiniteFields fields
  | .array items _ => doublesFiniteItems items
  | _ => true

def doublesFiniteFields : List (String × Node) → Bool
  | [] => true
  | (_, node) :: rest => doublesFinite node && doublesFiniteFields rest

def doublesFiniteItems : List Node → Bool
  | [] => true
  | node :: rest => doublesFinite node && doublesFiniteItems rest

end

section Reader

variable [Json.NumberReader]

mutual

/-- Every double in a document is read back from its own text. -/
def DoublesReadBack : Node → Prop
  | .double number => Json.ReadsBack number
  | .struct fields => DoublesReadBackFields fields
  | .array items _ => DoublesReadBackItems items
  | _ => True

def DoublesReadBackFields : List (String × Node) → Prop
  | [] => True
  | (_, node) :: rest => DoublesReadBack node ∧ DoublesReadBackFields rest

def DoublesReadBackItems : List Node → Prop
  | [] => True
  | node :: rest => DoublesReadBack node ∧ DoublesReadBackItems rest

end

end Reader

mutual

/-- Read exactly, all doubles are read back as long as they are finite. -/
theorem exact_doubles_read_back (node : Node) (finite : node.doublesFinite = true) :
    node.DoublesReadBack := by
  cases node with
  | double number => exact Json.exact_reads_back finite
  | struct fields => exact exact_fields_read_back fields finite
  | array items cursor => exact exact_items_read_back items finite
  | _ => trivial

theorem exact_fields_read_back (fields : List (String × Node))
    (finite : doublesFiniteFields fields = true) : DoublesReadBackFields fields := by
  cases fields with
  | nil => trivial
  | cons field rest =>
      rw [doublesFiniteFields, Bool.and_eq_true] at finite
      exact ⟨exact_doubles_read_back field.2 finite.1, exact_fields_read_back rest finite.2⟩

theorem exact_items_read_back (items : List Node) (finite : doublesFiniteItems items = true) :
    DoublesReadBackItems items := by
  cases items with
  | nil => trivial
  | cons node rest =>
      rw [doublesFiniteItems, Bool.and_eq_true] at finite
      exact ⟨exact_doubles_read_back node finite.1, exact_items_read_back rest finite.2⟩

end

mutual

/-- What a text tells of a document: naturals have become unsigned, arrays stand at their start. -/
def asRead : Node → Node
  | .int value => if value.toInt < 0 then .int value else .uint (.ofNat value.toInt.toNat)
  | .struct fields => .struct (asReadFields fields)
  | .array items _ => .array (asReadItems items) 0
  | node => node

def asReadFields : List (String × Node) → List (String × Node)
  | [] => []
  | (name, node) :: rest => (name, asRead node) :: asReadFields rest

def asReadItems : List Node → List Node
  | [] => []
  | node :: rest => asRead node :: asReadItems rest

end

mutual

theorem first_non_finite_none (node : Node) :
    node.firstNonFinite = none ↔ node.doublesFinite = true := by
  cases node with
  | double number => simp [firstNonFinite, doublesFinite]
  | struct fields => exact first_non_finite_field_none fields
  | array items cursor => exact first_non_finite_item_none items 0
  | _ => simp [firstNonFinite, doublesFinite]

theorem first_non_finite_field_none (fields : List (String × Node)) :
    firstNonFiniteField fields = none ↔ doublesFiniteFields fields = true := by
  cases fields with
  | nil => simp [firstNonFiniteField, doublesFiniteFields]
  | cons field rest =>
      rw [firstNonFiniteField, doublesFiniteFields, Bool.and_eq_true,
        ← first_non_finite_none field.2, ← first_non_finite_field_none rest]
      cases firstNonFinite field.2 <;> simp

theorem first_non_finite_item_none (items : List Node) (position : Nat) :
    firstNonFiniteItem position items = none ↔ doublesFiniteItems items = true := by
  cases items with
  | nil => simp [firstNonFiniteItem, doublesFiniteItems]
  | cons node rest =>
      rw [firstNonFiniteItem, doublesFiniteItems, Bool.and_eq_true,
        ← first_non_finite_none node, ← first_non_finite_item_none rest (position + 1)]
      cases firstNonFinite node <;> simp

end

end Node

namespace Json

/-- Only blanks stand between the tokens, and the colon is one. -/
structure Spacing.Blank (spacing : Spacing) : Prop where
  line : ∀ level, ∀ character ∈ spacing.line level, isBlank character = true
  colon : ∃ blanks, spacing.colon = ':' :: blanks ∧ ∀ character ∈ blanks, isBlank character = true

theorem Spacing.pretty_blank : pretty.Blank where
  line level character member := by
    rcases List.mem_cons.mp member with rfl | member
    · rfl
    · rw [List.eq_of_mem_replicate member]
      rfl
  colon := ⟨[' '], rfl, by simp [isBlank]⟩

/-- What a step leads to on the tokens that remain. -/
def resume : Step → List Located → Except FoundFlaw (Node × List Located)
  | .running state, rest => run state rest
  | .finished node, rest => .ok (node, rest)
  | .refused found, _ => .error found

theorem run_cons (state : State) (located : Located) (rest : List Located) :
    run state (located :: rest) = resume (step state located) rest := by
  rw [run]
  cases step state located <;> rfl

theorem value_taken (located : Located) (frames : List Frame) (rest : List Located) :
    run ⟨.value, frames⟩ (located :: rest) = resume (takeValue located frames) rest := by
  rw [run_cons, step]

theorem begin_inside {located : Located} {expect : Expect} {frames : List Frame} {depth : Nat}
    (room : frames.length + (depth + 1) ≤ nestingLimit) :
    begin located expect frames = .running ⟨expect, frames⟩ :=
  if_pos (by omega)

theorem ends_number_blank {blanks : List Char} {mark : Char} (rest : List Char)
    (blank : ∀ character ∈ blanks, isBlank character = true)
    (ends : endsNumber (mark :: rest) = true) : endsNumber (blanks ++ mark :: rest) = true := by
  cases blanks with
  | nil => exact ends
  | cons first more =>
      have dark := blank first List.mem_cons_self
      simp only [isBlank, Bool.or_eq_true, decide_eq_true_eq] at dark
      rcases dark with ((rfl | rfl) | rfl) | rfl <;> rfl

section Remainders

variable (spacing : Spacing) (level outer : Nat)

/-- What follows an entry of a struct in its text: the entries after it and the end of the struct. -/
def fieldsLeft (more : List (String × Node)) (rest : List Char) : List Char :=
  (if more.isEmpty then [] else ',' :: renderFields spacing level more) ++
    (spacing.line outer ++ '\x7d' :: rest)

def itemsLeft (more : List Node) (rest : List Char) : List Char :=
  (if more.isEmpty then [] else ',' :: renderItems spacing level more) ++
    (spacing.line outer ++ ']' :: rest)

variable {spacing} (rest : List Char)

theorem fields_left_ends (blank : spacing.Blank) (more : List (String × Node)) :
    endsNumber (fieldsLeft spacing level outer more rest) = true := by
  cases more with
  | nil => exact ends_number_blank rest (blank.line outer) rfl
  | cons => rfl

theorem items_left_ends (blank : spacing.Blank) (more : List Node) :
    endsNumber (itemsLeft spacing level outer more rest) = true := by
  cases more with
  | nil => exact ends_number_blank rest (blank.line outer) rfl
  | cons => rfl

end Remainders

section Reader

variable [NumberReader]

/-- A printed value is read as a node wherever a value is taken, under as many containers as
leave room for its own. It does not begin like the end of an array. -/
def ReadsAs (printed : List Char) (node : Node) (depth : Nat) (rest : List Char) : Prop :=
  ∃ first others, tokens (printed ++ rest) = first :: others ∧ first.token ≠ .closeArray ∧
    ∀ frames : List Frame, frames.length + depth ≤ nestingLimit →
      resume (takeValue first frames) others = resume (deliver node frames) (tokens rest)

theorem reads_scalar {printed rest : List Char} {token : Token} {node : Node} {start : List Char}
    (scanned : tokens (printed ++ rest) = ⟨token, start⟩ :: tokens rest)
    (value : token ≠ .closeArray)
    (taken : ∀ frames, takeValue ⟨token, start⟩ frames = deliver node frames) :
    ReadsAs printed node 0 rest :=
  ⟨_, _, scanned, value, fun frames _ => by rw [taken]⟩

variable {spacing : Spacing}

theorem tokens_mark (mark : Char) (token : Token) (rest : List Char)
    (dark : isBlank mark = false) (scanned : scanToken mark rest = .ok (token, rest)) :
    ∃ start, tokens (mark :: rest) = ⟨token, start⟩ :: tokens rest :=
  ⟨_, tokens_scanned dark scanned⟩

section Containers

variable (level outer : Nat) (rest : List Char) {frames : List Frame}

theorem struct_begins (field : String × Node) (more : List (String × Node)) :
    ∃ start, tokens (render spacing level (.struct (field :: more)) ++ rest) =
      ⟨.openStruct, start⟩ :: tokens (renderFields spacing (level + 1) (field :: more) ++
        (spacing.line level ++ '\x7d' :: rest)) := by
  obtain ⟨start, opened⟩ := tokens_mark '\x7b' .openStruct
    (renderFields spacing (level + 1) (field :: more) ++ (spacing.line level ++ '\x7d' :: rest))
    rfl rfl
  exact ⟨start, by simpa [render] using opened⟩

theorem array_begins (item : Node) (more : List Node) (cursor : Nat) :
    ∃ start, tokens (render spacing level (.array (item :: more) cursor) ++ rest) =
      ⟨.openArray, start⟩ :: tokens (renderItems spacing (level + 1) (item :: more) ++
        (spacing.line level ++ ']' :: rest)) := by
  obtain ⟨start, opened⟩ := tokens_mark '[' .openArray
    (renderItems spacing (level + 1) (item :: more) ++ (spacing.line level ++ ']' :: rest)) rfl rfl
  exact ⟨start, by simpa [render] using opened⟩

/-- The name of an entry and the colon lead to its value, for which the struct waits. -/
theorem field_begins (blank : spacing.Blank) {name : String} {node : Node}
    {more : List (String × Node)} {done : Fields} {expect : Expect}
    (expected : expect = .nextName done ∨ expect = .firstName ∧ done = []) {first : Located}
    {others : List Located}
    (scanned : tokens (render spacing level node ++ fieldsLeft spacing level outer more rest) =
      first :: others) :
    run ⟨expect, frames⟩ (tokens (renderFields spacing level ((name, node) :: more) ++
        (spacing.line outer ++ '\x7d' :: rest))) =
      resume (takeValue first (.entry done name :: frames)) others := by
  obtain ⟨blanks, colon, afterColon⟩ := blank.colon
  obtain ⟨nameStart, named⟩ := tokens_quoted name
    (':' :: (blanks ++ (render spacing level node ++ fieldsLeft spacing level outer more rest)))
  obtain ⟨colonStart, divided⟩ := tokens_mark ':' .colon
    (blanks ++ (render spacing level node ++ fieldsLeft spacing level outer more rest)) rfl rfl
  have shape : renderFields spacing level ((name, node) :: more) ++
      (spacing.line outer ++ '\x7d' :: rest) = spacing.line level ++ (quoted name ++ (':' :: (blanks ++
        (render spacing level node ++ fieldsLeft spacing level outer more rest)))) := by
    rw [renderFields, fieldsLeft, colon]
    simp only [List.append_assoc, List.cons_append]
  have begun : step ⟨expect, frames⟩ ⟨.text name, nameStart⟩ =
      .running ⟨.colon done name, frames⟩ := by
    rcases expected with rfl | ⟨rfl, rfl⟩ <;> rfl
  have divides : step ⟨.colon done name, frames⟩ ⟨.colon, colonStart⟩ =
      .running ⟨.value, .entry done name :: frames⟩ := rfl
  rw [shape, tokens_blank (blank.line level), named, run_cons, begun, resume, divided, run_cons,
    divides, resume, tokens_blank afterColon, scanned, value_taken]

theorem fields_go_on (done : Fields) (other : String × Node) (more : List (String × Node)) :
    run ⟨.afterEntry done, frames⟩ (tokens (fieldsLeft spacing level outer (other :: more) rest)) =
      run ⟨.nextName done, frames⟩ (tokens (renderFields spacing level (other :: more) ++
        (spacing.line outer ++ '\x7d' :: rest))) := by
  obtain ⟨start, comma⟩ := tokens_mark ',' .comma
    (renderFields spacing level (other :: more) ++ (spacing.line outer ++ '\x7d' :: rest)) rfl rfl
  have separated : fieldsLeft spacing level outer (other :: more) rest =
    ',' :: (renderFields spacing level (other :: more) ++
      (spacing.line outer ++ '\x7d' :: rest)) := rfl
  rw [separated, comma, run_cons]
  rfl

theorem fields_end (blank : spacing.Blank) (done : Fields) :
    run ⟨.afterEntry done, frames⟩ (tokens (fieldsLeft spacing level outer [] rest)) =
      resume (deliver (.struct done) frames) (tokens rest) := by
  obtain ⟨start, closed⟩ := tokens_mark '\x7d' .closeStruct rest rfl rfl
  have last : fieldsLeft spacing level outer [] rest = spacing.line outer ++ '\x7d' :: rest := rfl
  rw [last, tokens_blank (blank.line outer), closed, run_cons]
  rfl

/-- An element begins with its first token, which does not close the array. -/
theorem item_begins (blank : spacing.Blank) {node : Node} {more reversed : List Node}
    {expect : Expect} (expected : expect = .nextItem reversed ∨ expect = .firstItem ∧ reversed = [])
    {first : Located} {others : List Located}
    (scanned : tokens (render spacing level node ++ itemsLeft spacing level outer more rest) =
      first :: others) (value : first.token ≠ .closeArray) :
    run ⟨expect, frames⟩ (tokens (renderItems spacing level (node :: more) ++
        (spacing.line outer ++ ']' :: rest))) =
      resume (takeValue first (.items reversed :: frames)) others := by
  have shape : renderItems spacing level (node :: more) ++ (spacing.line outer ++ ']' :: rest) =
      spacing.line level ++ (render spacing level node ++
        itemsLeft spacing level outer more rest) := by
    rw [renderItems, itemsLeft]
    simp only [List.append_assoc]
  have begun : step ⟨expect, frames⟩ first = takeValue first (.items reversed :: frames) := by
    obtain ⟨token, start⟩ := first
    rcases expected with rfl | ⟨rfl, rfl⟩ <;> unfold step <;> split <;> simp_all
  rw [shape, tokens_blank (blank.line level), scanned, run_cons, begun]

theorem items_go_on (reversed : List Node) (other : Node) (more : List Node) :
    run ⟨.afterItem reversed, frames⟩ (tokens (itemsLeft spacing level outer (other :: more) rest)) =
      run ⟨.nextItem reversed, frames⟩ (tokens (renderItems spacing level (other :: more) ++
        (spacing.line outer ++ ']' :: rest))) := by
  obtain ⟨start, comma⟩ := tokens_mark ',' .comma
    (renderItems spacing level (other :: more) ++ (spacing.line outer ++ ']' :: rest)) rfl rfl
  have separated : itemsLeft spacing level outer (other :: more) rest =
    ',' :: (renderItems spacing level (other :: more) ++ (spacing.line outer ++ ']' :: rest)) := rfl
  rw [separated, comma, run_cons]
  rfl

theorem items_end (blank : spacing.Blank) (reversed : List Node) :
    run ⟨.afterItem reversed, frames⟩ (tokens (itemsLeft spacing level outer [] rest)) =
      resume (deliver (.array reversed.reverse 0) frames) (tokens rest) := by
  obtain ⟨start, closed⟩ := tokens_mark ']' .closeArray rest rfl rfl
  have last : itemsLeft spacing level outer [] rest = spacing.line outer ++ ']' :: rest := rfl
  rw [last, tokens_blank (blank.line outer), closed, run_cons]
  rfl

end Containers

mutual

/-- Every printed document is read as itself. Inside of a container the induction goes on with
one frame more. -/
theorem node_reads (blank : spacing.Blank) (node : Node) (level : Nat) (rest : List Char)
    (distinct : node.namesDistinct = true) (back : node.DoublesReadBack)
    (ends : endsNumber rest = true) :
    ReadsAs (render spacing level node) node.asRead node.depth rest := by
  cases node with
  | null => exact reads_scalar (tokens_scanned (by decide) (by rfl)) (by simp) fun _ => rfl
  | bool value =>
      cases value <;>
        exact reads_scalar (tokens_scanned (by decide) (by rfl)) (by simp) fun _ => rfl
  | int value =>
      obtain ⟨start, scanned⟩ := tokens_int value ends
      rw [Node.asRead]
      split_ifs at scanned ⊢ <;> exact reads_scalar scanned (by simp) fun _ => rfl
  | uint value =>
      obtain ⟨start, scanned⟩ := tokens_uint value ends
      exact reads_scalar scanned (by simp) fun _ => rfl
  | double value =>
      obtain ⟨start, scanned⟩ := tokens_double back ends
      exact reads_scalar scanned (by simp) fun _ => rfl
  | text value =>
      obtain ⟨start, scanned⟩ := tokens_quoted value rest
      exact reads_scalar scanned (by simp) fun _ => rfl
  | struct fields =>
      cases fields with
      | nil =>
          obtain ⟨start, opened⟩ := tokens_mark '\x7b' .openStruct ('\x7d' :: rest) rfl rfl
          obtain ⟨closing, closed⟩ := tokens_mark '\x7d' .closeStruct rest rfl rfl
          refine ⟨_, _, opened, by simp, ?_⟩
          intro frames room
          have opens : takeValue ⟨.openStruct, start⟩ frames = .running ⟨.firstName, frames⟩ :=
            begin_inside room
          rw [opens, resume, closed, run_cons]
          rfl
      | cons field more =>
          obtain ⟨start, opened⟩ := struct_begins level rest field more
          simp only [Node.namesDistinct, Bool.and_eq_true, decide_eq_true_eq] at distinct
          refine ⟨_, _, opened, by simp, ?_⟩
          intro frames room
          have opens : takeValue ⟨.openStruct, start⟩ frames = .running ⟨.firstName, frames⟩ :=
            begin_inside room
          rw [opens, resume]
          exact fields_read blank (field :: more) (by simp) (level + 1) level rest distinct.2 back
            [] distinct.1 .firstName (.inr ⟨rfl, rfl⟩) frames room
  | array items cursor =>
      cases items with
      | nil =>
          obtain ⟨start, opened⟩ := tokens_mark '[' .openArray (']' :: rest) rfl rfl
          obtain ⟨closing, closed⟩ := tokens_mark ']' .closeArray rest rfl rfl
          refine ⟨_, _, opened, by simp, ?_⟩
          intro frames room
          have opens : takeValue ⟨.openArray, start⟩ frames = .running ⟨.firstItem, frames⟩ :=
            begin_inside room
          rw [opens, resume, closed, run_cons]
          rfl
      | cons item more =>
          obtain ⟨start, opened⟩ := array_begins level rest item more cursor
          refine ⟨_, _, opened, by simp, ?_⟩
          intro frames room
          have opens : takeValue ⟨.openArray, start⟩ frames = .running ⟨.firstItem, frames⟩ :=
            begin_inside room
          rw [opens, resume]
          exact items_read blank (item :: more) (by simp) (level + 1) level rest distinct back
            [] .firstItem (.inr ⟨rfl, rfl⟩) frames room

theorem fields_read (blank : spacing.Blank) (fields : List (String × Node)) (nonempty : fields ≠ [])
    (level outer : Nat) (rest : List Char) (distinct : Node.namesDistinctFields fields = true)
    (back : Node.DoublesReadBackFields fields) (done : Fields)
    (fresh : (done.names ++ Fields.names fields).Nodup) (expect : Expect)
    (expected : expect = .nextName done ∨ expect = .firstName ∧ done = []) (frames : List Frame)
    (room : frames.length + (Node.depthFields fields + 1) ≤ nestingLimit) :
    run ⟨expect, frames⟩
        (tokens (renderFields spacing level fields ++ (spacing.line outer ++ '\x7d' :: rest))) =
      resume (deliver (.struct (done ++ Node.asReadFields fields)) frames) (tokens rest) := by
  cases fields with
  | nil => exact absurd rfl nonempty
  | cons field more =>
      obtain ⟨name, node⟩ := field
      simp only [Node.namesDistinctFields, Bool.and_eq_true] at distinct
      rw [Node.depthFields] at room
      obtain ⟨first, others, scanned, -, taken⟩ := node_reads blank node level
        (fieldsLeft spacing level outer more rest) distinct.1 back.1
        (fields_left_ends level outer rest blank more)
      have inside : (Frame.entry done name :: frames).length + node.depth ≤ nestingLimit := by
        rw [List.length_cons]
        omega
      have absent : name ∉ done.names := by
        intro present
        exact (List.nodup_append.mp fresh).2.2 _ present _ List.mem_cons_self rfl
      rw [field_begins level outer rest blank expected scanned, taken _ inside, deliver, resume,
        Fields.put_absent absent, Node.asReadFields]
      cases more with
      | nil => exact fields_end level outer rest blank _
      | cons other more =>
          have room : frames.length + (Node.depthFields (other :: more) + 1) ≤ nestingLimit := by
            omega
          rw [fields_go_on, fields_read blank (other :: more) (by simp) level outer rest distinct.2
            back.2 (done ++ [(name, node.asRead)]) (by simpa [Fields.names] using fresh) _ (.inl rfl)
            frames room, List.append_assoc, List.singleton_append]

theorem items_read (blank : spacing.Blank) (items : List Node) (nonempty : items ≠ [])
    (level outer : Nat) (rest : List Char) (distinct : Node.namesDistinctItems items = true)
    (back : Node.DoublesReadBackItems items) (reversed : List Node) (expect : Expect)
    (expected : expect = .nextItem reversed ∨ expect = .firstItem ∧ reversed = [])
    (frames : List Frame)
    (room : frames.length + (Node.depthItems items + 1) ≤ nestingLimit) :
    run ⟨expect, frames⟩
        (tokens (renderItems spacing level items ++ (spacing.line outer ++ ']' :: rest))) =
      resume (deliver (.array (reversed.reverse ++ Node.asReadItems items) 0) frames)
        (tokens rest) := by
  cases items with
  | nil => exact absurd rfl nonempty
  | cons node more =>
      simp only [Node.namesDistinctItems, Bool.and_eq_true] at distinct
      rw [Node.depthItems] at room
      obtain ⟨first, others, scanned, value, taken⟩ := node_reads blank node level
        (itemsLeft spacing level outer more rest) distinct.1 back.1
        (items_left_ends level outer rest blank more)
      have inside : (Frame.items reversed :: frames).length + node.depth ≤ nestingLimit := by
        rw [List.length_cons]
        omega
      rw [item_begins level outer rest blank expected scanned value, taken _ inside, deliver, resume,
        Node.asReadItems]
      cases more with
      | nil =>
          rw [items_end level outer rest blank, List.reverse_cons]
          rfl
      | cons other more =>
          have room : frames.length + (Node.depthItems (other :: more) + 1) ≤ nestingLimit := by
            omega
          rw [items_go_on, items_read blank (other :: more) (by simp) level outer rest distinct.2
            back.2 (node.asRead :: reversed) _ (.inl rfl) frames room, List.reverse_cons,
            List.append_assoc, List.singleton_append]

end

/-- The text of a struct is read as that struct, to its end. -/
theorem read_struct_pretty (fields : Fields) (distinct : (Node.struct fields).namesDistinct = true)
    (back : (Node.struct fields).DoublesReadBack)
    (shallow : (Node.struct fields).depth ≤ nestingLimit) :
    readStruct (prettyText (.struct fields)) = .ok (Node.asReadFields fields) := by
  obtain ⟨first, others, scanned, -, taken⟩ :=
    node_reads Spacing.pretty_blank (.struct fields) 0 [] distinct back rfl
  have leading : leadingValue (prettyText (.struct fields)) =
      .ok (.struct (Node.asReadFields fields), []) := by
    have begun : step ⟨.value, []⟩ first = takeValue first [] := by rw [step]
    have ended := taken [] (by simpa using shallow)
    rw [List.append_nil] at scanned
    rw [leadingValue, prettyText, String.toList_ofList, scanned, run_cons, begun, ended,
      Node.asRead, deliver, resume, tokens]
  unfold readStruct
  rw [leading]
  rfl

end Reader

end Json

/-- A document with distinct names and finite doubles, of no more than the containers that a text
may nest, has a text, and reading that text replaces any document by it, whichever way numbers are
read, if that way reads its doubles back. -/
theorem Fields.dump_then_set_text [Json.NumberReader] (fields : Fields)
    (distinct : (Node.struct fields).namesDistinct = true)
    (finite : (Node.struct fields).doublesFinite = true)
    (back : (Node.struct fields).DoublesReadBack)
    (shallow : (Node.struct fields).depth ≤ Json.nestingLimit) (document : Fields) :
    ∃ text, fields.dump = .ok text ∧
      document.setText text = (.ok (), Node.asReadFields fields) := by
  refine ⟨Json.prettyText (.struct fields), ?_, ?_⟩
  · rw [Fields.dump, (Node.first_non_finite_field_none fields).mpr finite]
  · rw [Fields.setText, Json.read_struct_pretty fields distinct back shallow]

/-- Escapes, empty names and containers, a negative zero, a whole double next to an integer and a
cursor in the middle of an array. Numbers are read exactly here. -/
theorem Fields.dump_then_set_text_mixed :
    let fields : Fields := [("a\"\\\n\x01é", .double ⟨0x8000000000000000⟩), ("", .struct []),
      ("z", .array [.int 3, .int (-3), .double ⟨0x4008000000000000⟩, .array [] 1, .null] 2),
      ("b", .struct [("z", .text "\t/😀"), ("a", .double ⟨1⟩)])]
    (Node.struct fields).DoublesReadBack ∧
      ∃ text, fields.dump = .ok text ∧ Fields.setText [("b", .bool true)] text =
        (.ok (), [("a\"\\\n\x01é", .double ⟨0x8000000000000000⟩), ("", .struct []),
          ("z", .array [.uint 3, .int (-3), .double ⟨0x4008000000000000⟩, .array [] 0, .null] 0),
          ("b", .struct [("z", .text "\t/😀"), ("a", .double ⟨1⟩)])]) := by
  intro fields
  have finite : (Node.struct fields).doublesFinite = true := by decide
  have back := Node.exact_doubles_read_back (.struct fields) finite
  exact ⟨back, Fields.dump_then_set_text fields (by decide) finite back (by decide) _⟩

end Marshal
