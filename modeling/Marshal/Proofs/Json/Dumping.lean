import Marshal.Proofs.Json.Nesting
import Marshal.Proofs.Number.Conversion
import Marshal.Proofs.Tree.Requests

/-!
# Which documents have a text

The only documents without a text are those that hold a double with no digits, a NaN or an infinity,
at any depth. The fault leads to the first of these in document order. In a text that there is, every
double stands as a number.
-/

namespace Marshal

open Number

/-- That a double is none of the numbers that digits can tell of. -/
def Number.Double.IsSpecial (number : Double) : Prop :=
  number.value = .nan ∨ ∃ negative, number.value = .infinite negative

theorem Number.Double.special_iff (number : Double) :
    number.IsSpecial ↔ number.isFinite = false := by
  constructor
  · intro special
    rw [← Bool.not_eq_true]
    intro finite
    obtain ⟨negative, significand, exponent, value⟩ := number.value_of_finite finite
    rw [IsSpecial, value] at special
    simp at special
  · intro unbounded
    have large : ¬BinaryFormat.double.magnitude number.bits.toNat < BinaryFormat.double.infinity :=
      of_decide_eq_false unbounded
    rcases (Nat.le_of_not_lt large).lt_or_eq with beyond | same
    · exact .inl (if_pos beyond)
    · exact .inr ⟨_, (if_neg same.symm.not_gt).trans (if_pos same.symm)⟩

namespace Node

/-- That one trail comes before another one in document order: fields in their order, elements in
theirs, and what is inside of one before the next. -/
inductive Precedes : Node → Trail → Trail → Prop
  | fields {fields : Fields} {first second : String}
      (earlier : fields.names.idxOf first < fields.names.idxOf second) (one other : Trail) :
      Precedes (.struct fields) (.field first :: one) (.field second :: other)
  | inField {fields : Fields} {name : String} {inner : Node} {one other : Trail}
      (found : Fields.get? fields name = some inner) (inside : Precedes inner one other) :
      Precedes (.struct fields) (.field name :: one) (.field name :: other)
  | items {first second : Nat} (earlier : first < second) (items : List Node) (cursor : Nat)
      (one other : Trail) :
      Precedes (.array items cursor) (.index first :: one) (.index second :: other)
  | inItem {items : List Node} {position : Nat} {inner : Node} {one other : Trail}
      (found : items[position]? = some inner) (inside : Precedes inner one other) (cursor : Nat) :
      Precedes (.array items cursor) (.index position :: one) (.index position :: other)

/-- That a trail leads to a special double, and every other trail to one comes later. -/
structure FirstSpecial (node : Node) (trail : Trail) (number : Double) : Prop where
  leads : node.get? trail = some (.double number)
  special : number.IsSpecial
  first : ∀ other double, node.get? other = some (.double double) → double.IsSpecial →
    other = trail ∨ node.Precedes trail other

theorem doubles_finite_fields_iff {fields : Fields} :
    doublesFiniteFields fields = true ↔ ∀ field ∈ fields, field.2.doublesFinite = true := by
  induction fields with
  | nil => simp [doublesFiniteFields]
  | cons field rest induction => simp [doublesFiniteFields, induction]

theorem doubles_finite_items_iff {items : List Node} :
    doublesFiniteItems items = true ↔ ∀ item ∈ items, item.doublesFinite = true := by
  induction items with
  | nil => simp [doublesFiniteItems]
  | cons item rest induction => simp [doublesFiniteItems, induction]

variable {node : Node} {trail : Trail} {number : Double}

theorem doubles_finite_get (finite : node.doublesFinite = true)
    (found : node.get? trail = some (.double number)) : ¬number.IsSpecial := by
  rw [Double.special_iff, Bool.not_eq_false]
  induction trail generalizing node with
  | nil =>
      cases found
      exact finite
  | cons segment rest induction =>
      cases node with
      | struct fields =>
          cases segment with
          | index position => cases found
          | field name =>
              obtain ⟨inner, stands, leads⟩ := Option.bind_eq_some_iff.mp found
              obtain ⟨before, after, rfl, -⟩ := Fields.get_splits stands
              have inside := doubles_finite_fields_iff.mp finite (name, inner) (by simp)
              exact induction inside leads
      | array items cursor =>
          cases segment with
          | field name => cases found
          | index position =>
              obtain ⟨inner, stands, leads⟩ := Option.bind_eq_some_iff.mp found
              have inside := doubles_finite_items_iff.mp finite inner (List.mem_of_getElem? stands)
              exact induction inside leads
      | _ => cases segment <;> cases found

/-- Before the field with the first special double there are only finite ones. -/
theorem first_non_finite_field_some {fields : Fields}
    (found : firstNonFiniteField fields = some (trail, number)) :
    ∃ before name inner after rest, fields = before ++ (name, inner) :: after ∧
      trail = .field name :: rest ∧ inner.firstNonFinite = some (rest, number) ∧
      doublesFiniteFields before = true := by
  induction fields with
  | nil => cases found
  | cons field others induction =>
      obtain ⟨name, inner⟩ := field
      rw [firstNonFiniteField] at found
      split at found
      · rename_i rest own here
        cases found
        exact ⟨[], name, inner, others, rest, rfl, rfl, here, rfl⟩
      · rename_i finite
        obtain ⟨before, later, part, after, rest, rfl, same, inside, earlier⟩ := induction found
        refine ⟨(name, inner) :: before, later, part, after, rest, rfl, same, inside, ?_⟩
        rw [doublesFiniteFields, (first_non_finite_none inner).mp finite, earlier, Bool.and_self]

theorem first_non_finite_item_some {items : List Node} {position : Nat}
    (found : firstNonFiniteItem position items = some (trail, number)) :
    ∃ before inner after rest, items = before ++ inner :: after ∧
      trail = .index (position + before.length) :: rest ∧
      inner.firstNonFinite = some (rest, number) ∧ doublesFiniteItems before = true := by
  induction items generalizing position with
  | nil => cases found
  | cons inner others induction =>
      rw [firstNonFiniteItem] at found
      split at found
      · rename_i rest own here
        cases found
        exact ⟨[], inner, others, rest, rfl, rfl, here, rfl⟩
      · rename_i finite
        obtain ⟨before, part, after, rest, rfl, same, inside, earlier⟩ := induction found
        refine ⟨inner :: before, part, after, rest, rfl, ?_, inside, ?_⟩
        · rw [same, List.length_cons, Nat.add_right_comm, Nat.add_assoc]
        · rw [doublesFiniteItems, (first_non_finite_none inner).mp finite, earlier, Bool.and_self]

theorem name_earlier {before : Fields} {first second : String} (known : first ∉ before.names)
    (fresh : second ∉ before.names) (different : second ≠ first) (inner : Node) (after : Fields) :
    (Fields.names (before ++ (first, inner) :: after)).idxOf first <
      (Fields.names (before ++ (first, inner) :: after)).idxOf second := by
  have names : Fields.names (before ++ (first, inner) :: after) =
    before.names ++ first :: Fields.names after := List.map_append
  rw [names, List.idxOf_append_of_notMem known, List.idxOf_append_of_notMem fresh,
    List.idxOf_cons_self, List.idxOf_cons_ne _ (Ne.symm different)]
  omega

theorem FirstSpecial.in_field {before after : Fields} {name : String} {inner : Node}
    (distinct : (Fields.names (before ++ (name, inner) :: after)).Nodup)
    (earlier : doublesFiniteFields before = true) (inside : inner.FirstSpecial trail number) :
    FirstSpecial (.struct (before ++ (name, inner) :: after)) (.field name :: trail) number := by
  have stands : Fields.get? (before ++ (name, inner) :: after) name = some inner :=
    Fields.get_of_mem distinct (List.mem_append_right before List.mem_cons_self)
  refine ⟨(congrArg (·.bind fun part => part.get? trail) stands).trans inside.leads, inside.special, ?_⟩
  intro other double leads special
  rcases other with _ | ⟨second | position, more⟩
  · cases leads
  · obtain ⟨part, found, further⟩ := Option.bind_eq_some_iff.mp leads
    by_cases same : second = name
    · subst same
      rw [stands] at found
      cases found
      rcases inside.first more double further special with own | later
      · exact .inl (congrArg _ own)
      · exact .inr (.inField stands later)
    · -- Under a name that stands before there are finite doubles only.
      have fresh : second ∉ before.names := by
        intro known
        obtain ⟨field, held, rfl⟩ := List.mem_map.mp known
        rw [Fields.get_of_mem distinct (List.mem_append_left _ held)] at found
        cases found
        exact doubles_finite_get (doubles_finite_fields_iff.mp earlier field held) further special
      have first : name ∉ before.names := by
        rw [Fields.names, List.map_append] at distinct
        exact fun known => (List.nodup_append.mp distinct).2.2 name known name List.mem_cons_self rfl
      exact .inr (.fields (name_earlier first fresh same inner after) trail more)
  · cases leads

theorem FirstSpecial.in_item {before after : List Node} {inner : Node} (cursor : Nat)
    (earlier : doublesFiniteItems before = true) (inside : inner.FirstSpecial trail number) :
    FirstSpecial (.array (before ++ inner :: after) cursor) (.index before.length :: trail)
      number := by
  have stands : (before ++ inner :: after)[before.length]? = some inner := by
    rw [List.getElem?_append_right (Nat.le_refl _), Nat.sub_self, List.getElem?_cons_zero]
  refine ⟨(congrArg (·.bind fun part => part.get? trail) stands).trans inside.leads, inside.special, ?_⟩
  intro other double leads special
  rcases other with _ | ⟨name | position, more⟩
  · cases leads
  · cases leads
  · obtain ⟨part, found, further⟩ := Option.bind_eq_some_iff.mp leads
    rcases Nat.lt_trichotomy position before.length with below | rfl | above
    · rw [List.getElem?_append_left below] at found
      have finite := doubles_finite_items_iff.mp earlier part (List.mem_of_getElem? found)
      exact absurd special (doubles_finite_get finite further)
    · rw [stands] at found
      cases found
      rcases inside.first more double further special with own | later
      · exact .inl (congrArg _ own)
      · exact .inr (.inItem stands later cursor)
    · exact .inr (.items above _ _ _ _)

/-- The trail of the fault leads to the first special double. -/
theorem first_non_finite_first (distinct : node.namesDistinct = true)
    (found : node.firstNonFinite = some (trail, number)) : node.FirstSpecial trail number := by
  -- Each segment of the trail opens one container, so the containers need no induction of their own.
  induction trail generalizing node with
  | nil =>
      cases node with
      | double own =>
          rw [firstNonFinite] at found
          split at found
          · cases found
          · rename_i unbounded
            cases found
            refine ⟨rfl, (Double.special_iff number).mpr (Bool.not_eq_true _ ▸ unbounded), ?_⟩
            intro other double leads special
            cases other with
            | nil => exact .inl rfl
            | cons segment rest => cases segment <;> cases leads
      | struct fields =>
          obtain ⟨_, _, _, _, _, -, nothing, -⟩ := first_non_finite_field_some found
          cases nothing
      | array items cursor =>
          obtain ⟨_, _, _, _, -, nothing, -⟩ := first_non_finite_item_some found
          cases nothing
      | _ => cases found
  | cons segment rest induction =>
      cases node with
      | double own =>
          rw [firstNonFinite] at found
          split at found <;> cases found
      | struct fields =>
          obtain ⟨before, name, inner, after, own, rfl, same, inside, earlier⟩ :=
            first_non_finite_field_some found
          cases same
          obtain ⟨nodup, parts⟩ := names_distinct_struct.mp distinct
          exact .in_field nodup earlier (induction (parts (name, inner) (by simp)) inside)
      | array items cursor =>
          obtain ⟨before, inner, after, own, rfl, same, inside, earlier⟩ :=
            first_non_finite_item_some found
          rw [Nat.zero_add] at same
          cases same
          have part := names_distinct_array.mp distinct inner (by simp)
          exact .in_item cursor earlier (induction part inside)
      | _ => cases found

theorem as_read_fields_get (fields : Fields) (name : String) :
    Fields.get? (asReadFields fields) name = (fields.get? name).map asRead := by
  induction fields with
  | nil => rfl
  | cons field rest induction =>
      obtain ⟨present, inner⟩ := field
      rw [asReadFields, Fields.get?, Fields.get?]
      split_ifs
      · rfl
      · exact induction

theorem as_read_items_map (items : List Node) : asReadItems items = items.map asRead := by
  induction items with
  | nil => rfl
  | cons item rest induction => rw [asReadItems, induction, List.map_cons]

/-- A text tells of the same nodes in the same places. -/
theorem as_read_get (node : Node) (trail : Trail) :
    node.asRead.get? trail = (node.get? trail).map asRead := by
  induction trail generalizing node with
  | nil => rfl
  | cons segment rest induction =>
      cases node with
      | struct fields =>
          cases segment with
          | index position => rfl
          | field name =>
              rw [asRead, get?, get?, as_read_fields_get]
              cases Fields.get? fields name with
              | none => rfl
              | some inner => exact induction inner
      | array items cursor =>
          cases segment with
          | field name => rfl
          | index position =>
              rw [asRead, get?, get?, as_read_items_map, List.getElem?_map]
              cases items[position]? with
              | none => rfl
              | some inner => exact induction inner
      | int value =>
          rw [asRead]
          split_ifs <;> cases segment <;> rfl
      | _ => cases segment <;> rfl

theorem null_of_as_read (null : node.asRead = .null) : node = .null := by
  cases node with
  | int value =>
      rw [asRead] at null
      split_ifs at null
  | _ => first | rfl | cases null

end Node

namespace Fields

variable {fields : Fields}

theorem dump_error {fault : Fault} (failed : fields.dump = .error fault) :
    ∃ number, Node.firstNonFinite (.struct fields) = some (fault.trail, number) ∧
      fault.cause = .notRepresentable number := by
  rw [dump] at failed
  split at failed
  · rename_i trail number found
    cases failed
    exact ⟨number, found, rfl⟩
  · cases failed

theorem dump_failed (distinct : fields.Distinct) {fault : Fault}
    (failed : fields.dump = .error fault) :
    ∃ number, fault.cause = .notRepresentable number ∧
      (Node.struct fields).FirstSpecial fault.trail number := by
  obtain ⟨number, found, cause⟩ := dump_error failed
  exact ⟨number, cause, Node.first_non_finite_first distinct found⟩

/-- What has been read from a dumped text is what was dumped, as a text tells of it. -/
theorem dump_read_back (distinct : fields.Distinct) {text : String}
    (dumped : fields.dump = .ok text) {document read : Fields}
    (ok : document.setText text = (.ok (), read)) : read = Node.asReadFields fields := by
  have back := Node.exact_doubles_read_back (.struct fields) (dump_ok dumped).1
  obtain ⟨shallow, deep⟩ := dumped_text_read distinct dumped back document
  rcases Nat.lt_or_ge Json.nestingLimit (Node.struct fields).depth with beyond | within
  · obtain ⟨place, refused⟩ := deep beyond
    rw [refused] at ok
    cases ok
  · rw [shallow within] at ok
    cases ok
    rfl

/-- A document, whose names are distinct like those of all that is built, has no text exactly if it
holds a NaN or an infinity. The fault leads to the first one in document order, and the document is not
altered. Else the text is spelled as the document is: where it is read again doubles stay what they are,
and only a null has become a null. -/
theorem dump_fails_exactly_on_special (distinct : fields.Distinct) :
    ((∃ fault, fields.dump = .error fault) ↔
        ∃ trail number, (Node.struct fields).get? trail = some (.double number) ∧
          number.IsSpecial) ∧
      (∀ fault, fields.dump = .error fault → fault.kind = .format ∧
        ∃ number, fault.cause = .notRepresentable number ∧
          (Node.struct fields).FirstSpecial fault.trail number) ∧
      (∀ whole trail, Node.get? whole trail = some (.struct fields) →
        whole.atStruct trail .dump = whole) ∧
      ∀ text, fields.dump = .ok text →
        Json.tokenized text.toList = (Node.struct fields).asRead.spelled ∧
          ∀ document read, setText document text = (.ok (), read) → ∀ trail,
            (∀ number, (Node.struct fields).get? trail = some (.double number) →
              (Node.struct read).get? trail = some (.double number)) ∧
            ((Node.struct read).get? trail = some .null →
              (Node.struct fields).get? trail = some .null) := by
  refine ⟨⟨?fails, ?special⟩, ?fault, ?unaltered, ?text⟩
  case fails =>
    rintro ⟨fault, failed⟩
    obtain ⟨number, -, first⟩ := dump_failed distinct failed
    exact ⟨fault.trail, number, first.leads, first.special⟩
  case special =>
    rintro ⟨trail, number, leads, special⟩
    cases dumped : fields.dump with
    | error fault => exact ⟨fault, rfl⟩
    | ok text => exact absurd special (Node.doubles_finite_get (dump_ok dumped).1 leads)
  case fault =>
    intro fault failed
    obtain ⟨number, cause, first⟩ := dump_failed distinct failed
    exact ⟨congrArg Cause.kind cause, number, cause, first⟩
  case unaltered =>
    intro whole trail found
    exact (Node.at_struct_differs found rfl).whole_eq rfl
  case text =>
    intro text dumped
    obtain ⟨finite, rfl⟩ := dump_ok dumped
    refine ⟨Json.pretty_text_tokenized _ (Node.exact_doubles_read_back _ finite), ?_⟩
    intro document read ok trail
    have same : Node.struct read = (Node.struct fields).asRead :=
      congrArg Node.struct (dump_read_back distinct dumped ok)
    rw [same, Node.as_read_get]
    constructor
    · intro number leads
      rw [leads]
      rfl
    · intro null
      obtain ⟨inner, leads, becomes⟩ := Option.map_eq_some_iff.mp null
      rw [leads, Node.null_of_as_read becomes]

/-- An infinity inside of an array comes before a NaN that lies less deep, but in a later field. -/
theorem dump_fails_exactly_on_special_zones :
    let infinite : Double := ⟨0x7ff0000000000000⟩
    let fields : Fields := [("zones", .array [.null, .struct [("fare", .double infinite)]] 1),
      ("surcharge", .double .nan)]
    let trail : Trail := [.field "zones", .index 1, .field "fare"]
    fields.Distinct ∧ fields.dump = .error ⟨.notRepresentable infinite, trail⟩ ∧
      (Node.struct fields).FirstSpecial trail infinite := by
  intro infinite fields trail
  have distinct : fields.Distinct := rfl
  have failed : fields.dump = .error ⟨.notRepresentable infinite, trail⟩ := rfl
  obtain ⟨-, fault, -⟩ := dump_fails_exactly_on_special distinct
  obtain ⟨-, number, cause, first⟩ := fault _ failed
  cases cause
  exact ⟨distinct, failed, first⟩

end Fields

end Marshal
