import Marshal.Proofs.Reading.Leniency

/-!
# What nodes are read as

A node is read as a value of a type, or as a record of a key and a value, and what it is read as says
what its fields and elements are read as. Fields that are not declared where they stand are not read
at all, and in what order the fields stand is not seen.
-/

namespace Marshal

/-- What a node is read as: a value of a type, a record of a key and a value, or nothing. -/
inductive View
  | value (type : Ty)
  | entry (key value : Ty)
  | unread

namespace Schema

section Views

variable (schema : Schema)

/-- What a field of a node is read as if the node is read as a type. There is no answer for the fields
that a structure does not declare. -/
def typeField : Ty → String → Option View
  | .boxed inner, name => typeField inner name
  | .option inner, name => typeField inner name
  | .record owner, name =>
      ((schema.leaves owner).find? fun leaf => leaf.name = name).map fun leaf => .value leaf.type
  | .map _ key value, _ =>
      match schema.keyNaming? key with
      | some _ => some (.value value)
      | none => some .unread
  | _, _ => some .unread

def fieldView : View → String → Option View
  | .value type, name => schema.typeField type name
  | .entry key value, name =>
      if name = keyField then some (.value key)
      else if name = valueField then some (.value value)
      else none
  | .unread, _ => some .unread

/-- What an element of a node is read as if the node is read as a type. -/
def typeElement : Ty → Nat → View
  | .boxed inner, position => typeElement inner position
  | .option inner, position => typeElement inner position
  | .sequence _ item, _ => .value item
  | .map _ key value, _ =>
      match schema.keyNaming? key with
      | some _ => .unread
      | none => .entry key value
  | .tuple types, position =>
      match types[position]? with
      | some type => .value type
      | none => .unread
  | _, _ => .unread

def elementView : View → Nat → View
  | .value type, position => schema.typeElement type position
  | _, _ => .unread

/-- That two nodes differ only in the order of fields, at any depth, and in fields that are there in
one of them only and that the structure or the record which they stand in does not declare. Names are
distinct, as fields that are put into a struct keep them. -/
inductive Rearranged : View → Node → Node → Prop
  | refl (view : View) (node : Node) : Rearranged view node node
  | symm {view : View} {left right : Node} (related : Rearranged view left right) :
      Rearranged view right left
  | trans {view : View} {left middle right : Node} (first : Rearranged view left middle)
      (second : Rearranged view middle right) : Rearranged view left right
  | permuted {view : View} {left right : Fields} (distinct : left.names.Nodup)
      (order : left.Perm right) : Rearranged view (.struct left) (.struct right)
  | unknown {view : View} {fields : Fields} {name : String} (node : Node)
      (undeclared : schema.fieldView view name = none) (fresh : fields.get? name = none) :
      Rearranged view (.struct fields) (.struct (fields.put name node))
  | field {view inner : View} {fields : Fields} {name : String} {left right : Node}
      (read : schema.fieldView view name = some inner) (found : fields.get? name = some left)
      (related : Rearranged inner left right) :
      Rearranged view (.struct fields) (.struct (fields.put name right))
  | element {view : View} {items : List Node} {cursor position : Nat} {left right : Node}
      (found : items[position]? = some left)
      (related : Rearranged (schema.elementView view position) left right) :
      Rearranged view (.array items cursor) (.array (items.set position right) cursor)

/-- That the maps among the parts of a type whose keys are field names have texts as keys. -/
def TextKeyed (type : Ty) : Prop :=
  ∀ kind key value, schema.Part type (.map kind key value) → schema.keyNaming? key ≠ none →
    key.unboxed = .string

/-- That whatever is read of a type has been declared, and has texts where keys are field names. -/
structure SupportsType (type : Ty) : Prop where
  declared : schema.DeclaredThrough type
  keyed : schema.TextKeyed type

def Supports : View → Prop
  | .value type => schema.SupportsType type
  | .entry key value => schema.SupportsType key ∧ schema.SupportsType value
  | .unread => True

end Views

variable {schema : Schema} {type part : Ty} {view inner : View}

section Support

theorem TextKeyed.direct (keyed : schema.TextKeyed type) (direct : schema.Direct type part) :
    schema.TextKeyed part := fun kind key value inside => keyed kind key value (.head direct inside)

theorem SupportsType.direct (supports : schema.SupportsType type) (direct : schema.Direct type part) :
    schema.SupportsType part := ⟨supports.declared.direct direct, supports.keyed.direct direct⟩

theorem supports_type_field (type : Ty) (supports : schema.SupportsType type) {name : String}
    (read : schema.typeField type name = some inner) : schema.Supports inner := by
  cases type with
  | boxed content => exact supports_type_field content (supports.direct .boxed) read
  | option content => exact supports_type_field content (supports.direct .content) read
  | record owner =>
      obtain ⟨leaf, found, rfl⟩ := Option.map_eq_some_iff.mp read
      exact supports.direct (.member (List.mem_of_find?_eq_some found))
  | map kind key value =>
      rw [typeField] at read
      split at read <;> cases read
      · exact supports.direct .value
      · trivial
  | _ =>
      cases read
      trivial

theorem supports_field (supports : schema.Supports view) {name : String}
    (read : schema.fieldView view name = some inner) : schema.Supports inner := by
  cases view with
  | value type => exact supports_type_field type supports read
  | entry key value =>
      rw [fieldView] at read
      split_ifs at read <;> cases read
      · exact supports.1
      · exact supports.2
  | unread =>
      cases read
      trivial

theorem supports_type_element (type : Ty) (supports : schema.SupportsType type) (position : Nat) :
    schema.Supports (schema.typeElement type position) := by
  cases type with
  | boxed content => exact supports_type_element content (supports.direct .boxed) position
  | option content => exact supports_type_element content (supports.direct .content) position
  | sequence kind item => exact supports.direct .item
  | map kind key value =>
      rw [typeElement]
      split
      · trivial
      · exact ⟨supports.direct .key, supports.direct .value⟩
  | tuple types =>
      rw [typeElement]
      split
      · exact supports.direct (.slot (List.mem_of_getElem? ‹_›))
      · trivial
  | _ => trivial

theorem supports_element (supports : schema.Supports view) (position : Nat) :
    schema.Supports (schema.elementView view position) := by
  cases view with
  | value type => exact supports_type_element type supports position
  | _ => trivial

theorem supports_type_of (record : ∀ name, type ≠ .record name)
    (enumeration : ∀ name, type ≠ .enumeration name)
    (keyed : ∀ kind key value, type = .map kind key value → schema.keyNaming? key ≠ none →
      key.unboxed = .string)
    (parts : ∀ part, schema.Direct type part → schema.SupportsType part) :
    schema.SupportsType type where
  declared := by
    constructor
    · intro name inside
      rcases inside.cases_head with same | ⟨part, direct, further⟩
      · exact absurd same (record name)
      · exact (parts part direct).declared.members name further
    · intro name inside
      rcases inside.cases_head with same | ⟨part, direct, further⟩
      · exact absurd same (enumeration name)
      · exact (parts part direct).declared.table name further
  keyed kind key value inside := by
    rcases inside.cases_head with same | ⟨part, direct, further⟩
    · exact keyed kind key value same
    · exact (parts part direct).keyed kind key value further

end Support

end Schema

namespace Route

theorem stop_supported : schema.SupportsType (.record "Stop") where
  declared := Schema.route_declared_through
  keyed kind key value inside _ := by
    obtain ⟨-, rfl, -⟩ : kind = .ordered ∧ key = .string ∧ value = .primitive (.int .i32) := by
      simpa [fares, next] using parts inside
    rfl

/-- A stop, in a box, and notes by their numbers. -/
def timetable : Ty := .tuple [.boxed (.record "Stop"), .map .ordered (.primitive (.int .u8)) .string]

theorem timetable_supported : schema.SupportsType timetable := by
  refine Schema.supports_type_of nofun nofun nofun fun part direct => ?_
  cases direct with
  | slot inside =>
      rcases List.mem_pair.mp inside with rfl | rfl
      · refine Schema.supports_type_of nofun nofun nofun fun part direct => ?_
        cases direct
        exact stop_supported
      · refine Schema.supports_type_of nofun nofun ?_ fun part direct => ?_
        · intro kind key value same named
          cases same
          exact absurd rfl named
        · cases direct <;> exact Schema.supports_type_of nofun nofun nofun nofun

theorem timetable_typed (name : String) :
    schema.HasType timetable (.tuple [stop name [] .absent 3, .map []]) :=
  .tuple (.cons (.boxed (stop_typed no_fares .absent (by decide)))
    (.cons (.map (by simp) (by simp) (by simp) .nil) .nil))

end Route

end Marshal
