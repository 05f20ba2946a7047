import Marshal.Proofs.Number.Conversion
import Marshal.Proofs.Structure.Tables
import Marshal.Proofs.Tree.Place
import Marshal.Proofs.Value.Exact
import Marshal.Read.Value
import Marshal.Write.Value

/-!
# What carries a value through a tree document

A value is carried by a node, or by an empty place, if writing it leaves that node wherever it is
written and reading from a place that shows the node restores the value. Scalars, texts and
enumerators are carried by the scalar they are written as, an absent optional by an empty place.
-/

namespace Marshal

/-- That a reading succeeds, what it makes of its target and what holds of the source it leaves. -/
structure Reading.Yields {Target State : Type} (reading : Reading Target State) (target : Target)
    (left : State → Prop) : Prop where
  outcome : reading.outcome = .ok ()
  target : reading.target = target
  source : left reading.source

namespace Schema

variable (schema : Schema)

/-- That structures are read on enough levels for documents up to a depth. -/
def Deep (bound : Nat) (deeper : String → Val → Fields → Reading Val Fields) : Prop :=
  ∀ fields, Node.depth (.struct fields) ≤ bound → ∀ name target,
    ∃ levels, Node.depth (.struct fields) ≤ levels ∧
      deeper name target fields = schema.readStructure levels name target fields

/-- That reading from any place that shows a node makes a target a result. -/
def Reread (type : Ty) (node? : Option Node) (target result : Val) : Prop :=
  ∀ deeper, schema.Deep (node?.elim 0 Node.depth) deeper →
    ∀ {State : Type} (place : TreePlace State) (state : State), place.Shows state node? →
      (schema.readAt deeper type target place.inlet state).Yields result (place.Keeps state)

/-- That writing a value leaves the same node wherever it is written. -/
def Written (type : Ty) (value : Val) (node? : Option Node) : Prop :=
  ∀ levels, value.depth ≤ levels →
    ∀ {State : Type} (place : TreePlace State) (state : State),
      schema.writeAt treeSink (schema.writeStructure treeSink levels) type value place.outlet state =
        (.ok (), place.leave node? state)

structure Carries (type : Ty) (value : Val) (node? : Option Node) : Prop where
  written : ∀ levels, value.depth ≤ levels →
    ∀ {State : Type} (place : TreePlace State) (state : State),
      schema.writeAt treeSink (schema.writeStructure treeSink levels) type value place.outlet state =
        (.ok (), place.leave node? state)
  solid : node? ≠ some .null
  filled : type.isOptional = false → node? ≠ none
  read : ∀ target, schema.HasType type target →
    ∃ result, schema.Restores type value target result ∧ schema.Reread type node? target result

/-- The conditions on a type under which its values can be restored. -/
structure Restorable (type : Ty) : Prop where
  declared : ∀ name, schema.Part type (.record name) →
    ∃ members, (schema.structureInfo name).members = .ok members
  optional : ∀ inner, schema.Part type (.option inner) → inner.isOptional = false
  named : ∀ kind key value naming, schema.Part type (.map kind key value) →
    schema.keyNaming? key = some naming → value.isOptional = false ∧
      ∀ text, ∃ name, naming.toName? text = some name ∧ naming.ofName? name = some text
  keys : ∀ kind key value, schema.Part type (.map kind key value) → schema.NothingSkipped key

/-- The values that a value is written in parts of, each with its type. -/
inductive Inside : Ty × Val → Ty × Val → Prop
  | content {inner : Ty} {value : Val} : Inside (.option inner, .present value) (inner, value)
  | item {kind : SequenceKind} {item : Ty} {items : List Val} {value : Val} (inside : value ∈ items) :
      Inside (.sequence kind item, .list items) (item, value)
  | key {kind : MapKind} {key value : Ty} {entries : List (Val × Val)} {entry : Val × Val}
      (inside : entry ∈ entries) : Inside (.map kind key value, .map entries) (key, entry.1)
  | value {kind : MapKind} {key value : Ty} {entries : List (Val × Val)} {entry : Val × Val}
      (inside : entry ∈ entries) : Inside (.map kind key value, .map entries) (value, entry.2)
  | slot {types : List Ty} {slots : List Val} {slot : Ty × Val} (inside : slot ∈ types.zip slots) :
      Inside (.tuple types, .tuple slots) slot
  | boxed {inner : Ty} {value : Val} : Inside (.boxed inner, value) (inner, value)
  | member {name : String} {value inner : Val} {leaf : Leaf} (inside : leaf ∈ schema.leaves name)
      (found : value.get? leaf.path = some inner) : Inside (.record name, value) (leaf.type, inner)

/-- Every enumerator that is written as a part of a value has a name. -/
def Mapped (type : Ty) (value : Val) : Prop :=
  ∀ name code, Relation.ReflTransGen schema.Inside (type, value) (.enumeration name, .enumerator code) →
    ∃ text, (schema.enumerationInfo name).nameOf code = .ok text

variable {schema}

theorem Carries.always_written {type : Ty} {value : Val} {node? : Option Node}
    (carries : schema.Carries type value node?) : schema.Written type value node? := carries.written

theorem Restorable.direct {type part : Ty} (restorable : schema.Restorable type)
    (direct : schema.Direct type part) : schema.Restorable part where
  declared name inside := restorable.declared name (.head direct inside)
  optional inner inside := restorable.optional inner (.head direct inside)
  named kind key value naming inside :=
    restorable.named kind key value naming (.head direct inside)
  keys kind key value inside := restorable.keys kind key value (.head direct inside)

theorem Mapped.inside {type part : Ty} {value inner : Val} (mapped : schema.Mapped type value)
    (inside : schema.Inside (type, value) (part, inner)) : schema.Mapped part inner :=
  fun name code further => mapped name code (.head inside further)

theorem Inside.direct {whole part : Ty × Val} (inside : schema.Inside whole part) :
    schema.Direct whole.1 part.1 := by
  cases inside with
  | content => exact .content
  | item _ => exact .item
  | key _ => exact .key
  | value _ => exact .value
  | slot inside => exact .slot (List.of_mem_zip inside).1
  | boxed => exact .boxed
  | member inside _ => exact .member inside

/-- Where no enumeration is written, there is no enumerator to be named. -/
theorem mapped_of_parts {type : Ty} (none : ∀ name, ¬ schema.Part type (.enumeration name))
    (value : Val) : schema.Mapped type value :=
  fun name _ inside => absurd (inside.lift Prod.fst fun _ _ inside => inside.direct) (none name)

theorem Deep.mono {bound smaller : Nat} {deeper : String → Val → Fields → Reading Val Fields}
    (deep : schema.Deep bound deeper) (less : smaller ≤ bound) : schema.Deep smaller deeper :=
  fun fields shallow => deep fields (shallow.trans less)

theorem deep_structure (levels : Nat) : schema.Deep levels (schema.readStructure levels) :=
  fun _ shallow _ _ => ⟨levels, shallow, rfl⟩

theorem deep_object (bound : Nat) : schema.Deep bound schema.readObject :=
  fun _ _ _ _ => ⟨_, le_rfl, rfl⟩

/-- Whatever is written as a scalar and decoded from it again is carried by that scalar. -/
theorem scalar_carries {type : Ty} {value : Val} (scalar : Scalar)
    {decode : AnyValue → Except Fault Val} {result : Val}
    (written : ∀ deeper {State : Type} (outlet : Outlet Fields Slots State),
      schema.writeAt treeSink deeper type value outlet = outlet.put scalar)
    (read : ∀ deeper target {State : Type} (inlet : Inlet State) (state : State),
      schema.readAt deeper type target inlet state = readScalar inlet decode target state)
    (decoded : decode scalar.held = .ok result)
    (restores : ∀ target, schema.Restores type value target result) :
    schema.Carries type value (some scalar.toNode) where
  written levels _ State place state := by rw [written, place.put_eq]
  solid := by cases scalar <;> simp [Scalar.toNode]
  filled _ := by simp
  read target _ := by
    refine ⟨result, restores target, ?_⟩
    intro deeper _ State place state shows
    have held : scalar.toNode.scalarValue = .ok scalar.held := by cases scalar <;> rfl
    have yields : readScalar place.inlet decode target state =
        ⟨.ok (), result, place.next state, []⟩ := by
      unfold readScalar
      rw [place.value_eq shows, held]
      dsimp only
      rw [decoded]
    rw [read, yields]
    exact ⟨rfl, rfl, place.next_keeps shows⟩

theorem int_kind_bounds {kind : IntKind} {number : Int} (fits : kind.holds number = true) :
    kind.least ≤ number ∧ number ≤ kind.greatest := of_decide_eq_true fits

theorem narrow_signed {kind : IntKind} (signed : kind.isSigned = true) {number : Int}
    (fits : kind.holds number = true) :
    (Primitive.int kind).narrow (Scalar.held (.int (.ofInt number))) = .ok (.int number) := by
  have kept : (Int64.ofInt number).toInt = number := by
    obtain ⟨low, high⟩ := int_kind_bounds fits
    apply Int64.toInt_ofInt_of_le <;>
      cases kind <;> simp [IntKind.least, IntKind.greatest, IntKind.isSigned, IntKind.width] at * <;>
      omega
  have found : Primitive.integer? (Scalar.held (.int (.ofInt number))) = some number := by
    rw [Scalar.held, kept]
    rfl
  rw [Primitive.narrow, Primitive.narrowInt, found]
  exact if_pos fits

theorem narrow_unsigned {kind : IntKind} (unsigned : kind.isSigned = false) {number : Int}
    (fits : kind.holds number = true) :
    (Primitive.int kind).narrow (Scalar.held (.uint (.ofNat number.toNat))) = .ok (.int number) := by
  have kept : ((UInt64.ofNat number.toNat).toNat : Int) = number := by
    obtain ⟨low, high⟩ := int_kind_bounds fits
    rw [UInt64.toNat_ofNat_of_lt'] <;>
      cases kind <;> simp [IntKind.least, IntKind.greatest, IntKind.isSigned, IntKind.width] at * <;>
      omega
  have found : Primitive.integer? (Scalar.held (.uint (.ofNat number.toNat))) = some number := by
    rw [Scalar.held, kept]
    rfl
  rw [Primitive.narrow, Primitive.narrowInt, found]
  exact if_pos fits

theorem bool_carries (value : Bool) :
    ∃ node?, schema.Carries (.primitive .bool) (.bool value) node? :=
  ⟨_, scalar_carries (.bool value) (fun _ _ _ => by rw [writeAt, Primitive.widen, Val.asBool])
    (fun _ _ _ _ _ => by rw [readAt]) rfl fun _ => .plain rfl⟩

theorem int_carries {kind : IntKind} {number : Int} (fits : kind.holds number = true) :
    ∃ node?, schema.Carries (.primitive (.int kind)) (.int number) node? := by
  cases signed : kind.isSigned with
  | true =>
      refine ⟨_, scalar_carries (.int (.ofInt number)) (fun _ _ _ => ?_)
        (fun _ _ _ _ _ => by rw [readAt]) (narrow_signed signed fits) fun _ => .plain rfl⟩
      rw [writeAt, Primitive.widen, if_pos signed, Val.asInt]
  | false =>
      refine ⟨_, scalar_carries (.uint (.ofNat number.toNat)) (fun _ _ _ => ?_)
        (fun _ _ _ _ _ => by rw [readAt]) (narrow_unsigned signed fits) fun _ => .plain rfl⟩
      rw [writeAt, Primitive.widen, if_neg (by simp [signed]), Val.asInt]

theorem double_carries (value : Number.Double) :
    ∃ node?, schema.Carries (.primitive .double) (.double value) node? :=
  ⟨_, scalar_carries (.double value) (fun _ _ _ => by rw [writeAt, Primitive.widen, Val.asDouble])
    (fun _ _ _ _ _ => by rw [readAt]) rfl fun _ => .plain rfl⟩

theorem single_carries (value : Number.Single) :
    ∃ node?, schema.Carries (.primitive .single) (.single value) node? := by
  obtain ⟨inRange, same⟩ := Number.Double.to_single_to_double value
  refine ⟨_, scalar_carries (.double value.toDouble)
    (fun _ _ _ => by rw [writeAt, Primitive.widen, Val.asSingle])
    (fun _ _ _ _ _ => by rw [readAt]) ?_ fun _ => .single same⟩
  have found : Primitive.number? (Scalar.held (.double value.toDouble)) = some value.toDouble := rfl
  rw [Primitive.narrow, found]
  exact if_neg (by simp [inRange])

theorem string_carries (text : String) : ∃ node?, schema.Carries .string (.text text) node? :=
  ⟨_, scalar_carries (.text text) (fun _ _ _ => by rw [writeAt, Val.asText])
    (fun _ _ _ _ _ => by rw [readAt]) rfl fun _ => .plain rfl⟩

theorem textual_carries (name text : String) :
    ∃ node?, schema.Carries (.textual name) (.text text) node? :=
  ⟨_, scalar_carries (.text text) (fun _ _ _ => by rw [writeAt, Val.asText])
    (fun _ _ _ _ _ => by rw [readAt]) rfl fun _ => .plain rfl⟩

/-- A mapped enumerator is written by its name, which its table leads back to it. -/
theorem enumeration_carries (sound : schema.Sound) {name : String} {code : Int}
    (mapped : schema.Mapped (.enumeration name) (.enumerator code)) :
    ∃ node?, schema.Carries (.enumeration name) (.enumerator code) node? := by
  obtain ⟨text, named⟩ := mapped name code .refl
  obtain ⟨owner, entries, declared⟩ := sound.tables name
  have back : (schema.enumerationInfo name).codeOf text = .ok code := by
    unfold EnumerationInfo.nameOf at named
    unfold EnumerationInfo.codeOf
    split at named
    · cases named
    · rename_i table found
      rw [found] at declared
      split at named
      · rename_i known given
        cases named
        simp only [EnumTable.value_of_name declared.symm given]
      · cases named
  refine ⟨_, scalar_carries (.text text) (fun _ _ _ => ?_)
    (fun _ _ _ _ _ => by rw [readAt]) ?_ fun _ => .plain rfl⟩
  · rw [writeAt, Val.asCode, named]
  · have held : (Scalar.held (.text text)).getOrFault .string = .ok (.text text) := rfl
    rw [held]
    dsimp only
    rw [Val.asText, back]
    rfl

theorem absent_reread (inner : Ty) (target : Val) :
    schema.Reread (.option inner) none target .absent := by
  intro deeper _ State place state shows
  rw [readAt, place.not_exhausted shows, place.holds_none shows, place.skip_eq shows]
  exact ⟨rfl, rfl, place.next_keeps shows⟩

/-- What is there and not null is read as the content of an optional. -/
theorem present_reread {inner : Ty} {node : Node} {result : Val} (solid : some node ≠ some .null)
    (reread : schema.Reread inner (some node) (schema.default inner) result) (target : Val) :
    schema.Reread (.option inner) (some node) target (.present result) := by
  intro deeper deep State place state shows
  have holds : place.inlet.holdsValue state = true := by
    rw [place.holds_node shows]
    cases node with
    | null => exact absurd rfl solid
    | _ => rfl
  obtain ⟨outcome, target, source⟩ := reread deeper deep place state shows
  rw [readAt, place.not_exhausted shows, holds]
  simp only [Bool.false_eq_true, if_false, if_true, settleOptional, outcome, target]
  exact ⟨rfl, rfl, source⟩

theorem Reread.boxed {inner : Ty} {node? : Option Node} {target result : Val}
    (reread : schema.Reread inner node? target result) :
    schema.Reread (.boxed inner) node? target result := by
  intro deeper deep State place state shows
  rw [readAt]
  exact reread deeper deep place state shows

theorem absent_written (inner : Ty) : schema.Written (.option inner) .absent none := by
  intro levels _ State place state
  rw [writeAt]
  exact place.empty_eq state

theorem Written.present {inner : Ty} {value : Val} {node? : Option Node}
    (written : schema.Written inner value node?) :
    schema.Written (.option inner) (.present value) node? := by
  intro levels enough State place state
  rw [Val.depth] at enough
  rw [writeAt]
  exact written levels (by omega) place state

theorem Written.boxed {inner : Ty} {value : Val} {node? : Option Node}
    (written : schema.Written inner value node?) : schema.Written (.boxed inner) value node? := by
  intro levels enough State place state
  rw [writeAt]
  exact written levels enough place state

theorem absent_carries (inner : Ty) :
    ∃ node?, schema.Carries (.option inner) .absent node? :=
  ⟨none, absent_written inner, by simp, by simp [Ty.isOptional, Ty.unboxed], fun target _ =>
    ⟨.absent, .absent, absent_reread inner target⟩⟩

/-- An optional's content is not optional itself, so its node shows that it is there. -/
theorem present_carries (sound : schema.Sound) {inner : Ty} {value : Val}
    (required : inner.isOptional = false) (content : ∃ node?, schema.Carries inner value node?) :
    ∃ node?, schema.Carries (.option inner) (.present value) node? := by
  obtain ⟨node?, carries⟩ := content
  obtain ⟨node, rfl⟩ := Option.ne_none_iff_exists'.mp (carries.filled required)
  refine ⟨some node, carries.always_written.present, carries.solid, by simp, ?_⟩
  intro target _
  obtain ⟨result, restores, reread⟩ := carries.read _ (default_typed sound inner)
  exact ⟨.present result, .present restores, present_reread carries.solid reread target⟩

theorem boxed_carries {inner : Ty} {value : Val} (content : ∃ node?, schema.Carries inner value node?) :
    ∃ node?, schema.Carries (.boxed inner) value node? := by
  obtain ⟨node?, carries⟩ := content
  refine ⟨node?, carries.always_written.boxed, carries.solid, carries.filled, ?_⟩
  intro target typed
  cases typed with
  | boxed typed =>
      obtain ⟨result, restores, reread⟩ := carries.read target typed
      exact ⟨result, .boxed restores, reread.boxed⟩

end Schema

end Marshal
