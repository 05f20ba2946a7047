import Marshal.Ty

/-!
Short texts of types. Types of a library stand under their usual names; every other name belongs
to the owner, which says which of its names are enumerations and texts. A name with an argument is
an instance of a generic structure and has the argument's full name in its own.
-/

namespace Marshal.Exact

structure TypeScope where
  owner : String
  enumerations : List String
  textuals : List String

def TypeScope.fullName (scope : TypeScope) (name : String) : String := scope.owner ++ "::" ++ name

/-- A generic structure applied to a type. -/
structure Instance where
  generic : String
  argument : Ty

def Instance.name (scope : TypeScope) (applied : Instance) : String :=
  scope.fullName applied.generic ++ "<" ++ applied.argument.name ++ ">"

def intKinds : List IntKind := [.i8, .i16, .i32, .i64, .isize, .u8, .u16, .u32, .u64, .usize]

def plainType (scope : TypeScope) (name : String) : Ty :=
  match intKinds.find? fun kind => kind.name = name with
  | some kind => .int kind
  | none =>
      if name = "bool" then .bool
      else if name = "f32" then .primitive .single
      else if name = "f64" then .double
      else if name = "String" then .string
      else if scope.textuals.contains name then .textual (scope.fullName name)
      else if scope.enumerations.contains name then .enumeration (scope.fullName name)
      else .record (scope.fullName name)

def appliedType? (scope : TypeScope) (name : String) (arguments : List Ty) :
    Option (Ty × List Instance) :=
  match name, arguments with
  | "Option", [inner] => some (.option inner, [])
  | "Vec", [item] => some (.sequence .vector item, [])
  | "VecDeque", [item] => some (.sequence .deque item, [])
  | "Box", [inner] => some (.boxed inner, [])
  | "BTreeMap", [key, value] => some (.map .ordered key value, [])
  | "StdMap", [key, value] => some (.map .hashed key value, [])
  | "FastMap", [key, value] => some (.map .quick key value, [])
  | generic, [argument] =>
      some (.record (Instance.name scope ⟨generic, argument⟩), [⟨generic, argument⟩])
  | _, _ => none

def isNameCharacter (character : Char) : Bool := character.isAlphanum || character = '_'

mutual

/-- The type in front of a text, with the instances in it and the rest of the text. -/
def leadingType? (scope : TypeScope) :
    Nat → List Char → Option (Ty × List Instance × List Char)
  | 0, _ => none
  | bound + 1, '(' :: rest =>
      match leadingTypes? scope bound ')' rest with
      | some (slots, instances, after) => some (.tuple slots, instances, after)
      | none => none
  | bound + 1, text =>
      let name := String.ofList (text.takeWhile isNameCharacter)
      match text.dropWhile isNameCharacter with
      | '<' :: rest =>
          match leadingTypes? scope bound '>' rest with
          | none => none
          | some (arguments, inner, after) =>
              match appliedType? scope name arguments with
              | some (type, outer) => some (type, inner ++ outer, after)
              | none => none
      | after => if name.isEmpty then none else some (plainType scope name, [], after)

/-- The types up to a closing mark, separated by commas. -/
def leadingTypes? (scope : TypeScope) :
    Nat → Char → List Char → Option (List Ty × List Instance × List Char)
  | 0, _, _ => none
  | _, _, [] => none
  | bound + 1, close, character :: rest =>
      if character = close then some ([], [], rest)
      else if character = ',' then leadingTypes? scope bound close rest
      else
        match leadingType? scope bound (character :: rest) with
        | none => none
        | some (type, instances, after) =>
            match leadingTypes? scope bound close after with
            | some (types, others, final) => some (type :: types, instances ++ others, final)
            | none => none

end

/-- A type and the instances in it, inner ones first. Every step of the reading uses up a
character or goes from a type to its name. -/
def typeWithInstances? (scope : TypeScope) (text : String) : Option (Ty × List Instance) :=
  match leadingType? scope (2 * text.length + 2) text.toList with
  | some (type, instances, []) => some (type, instances)
  | _ => none

def type? (scope : TypeScope) (text : String) : Option Ty :=
  (typeWithInstances? scope text).map Prod.fst

end Marshal.Exact
