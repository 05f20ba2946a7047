import Marshal.Derivation.Enumeration
import Marshal.Derivation.Structure
import Marshal.Package.Manifest
import Marshal.Tree.View

/-!
Derivations as documents: the label, the cell that keeps the declaration, the declarations in
order, and for each implementation what it asks for. Types and paths are shown without spaces, also
where a literal in them holds some.
-/

namespace Marshal.Report

open Marshal.Derivation Marshal.Package
open Marshal.Phrase (PathText TypeText)

def unspaced (text : String) : String :=
  String.ofList (text.toList.filter fun character => character ≠ ' ')

def selfType (name : String) (parameters : List Parameter) : String :=
  if parameters.isEmpty then name
  else name ++ "<" ++ String.intercalate "," (parameters.map Parameter.name) ++ ">"

def contractName : Contract → String
  | .members => "Structure"
  | .enumerators => "Enumeration"
  | .value => "Assembler"
  | .mapKey => "MapKey"

/-- What a type is asked for is asked under its binder, which is not shown. -/
def requirement (self : String) : Requirement TypeText → String
  | .parameterIsStatic name => name ++ ": 'static"
  | .fieldIsStructure type => unspaced type.text ++ ": Structure"
  | .fieldIsAssembler type => unspaced type.text ++ ": Assembler + 'static"
  | .itemIsStructure => self ++ ": Structure"

def implementation (self : String) (implementation : Implementation TypeText) : Node :=
  .struct [("trait", .text (contractName implementation.contract)), ("for", .text self),
    ("where", .texts (implementation.requirements.map (requirement self)))]

def declaredField (field : DeclaredField TypeText) : Node :=
  .texts [if field.isExtension then "extend" else "field", field.name, field.field]

def derivedStructure (derived : DerivedStructure TypeText) : Fields :=
  let self := selfType derived.name derived.parameters
  let cell := if derived.isGeneric then "GenericDescriptorCell" else "DescriptorCell"
  [("label", .ofOption (derived.declared.map fun _ => .text derived.name)),
    ("cell", .ofOption (derived.declared.map fun _ => .text cell)),
    ("declarations", .list ((derived.declared.getD []).map declaredField)),
    ("impls", .list (derived.implementations.map (implementation self)))]

def derivedEnumeration (derived : DerivedEnumeration) : Fields :=
  [("label", .text derived.name), ("cell", .text "DescriptorCell"),
    ("declarations", .list (derived.enumerators.map fun enumerator =>
      .texts ["value", enumerator.name, enumerator.variant])),
    ("impls", .list ((DerivedEnumeration.implementations TypeText).map
      (implementation derived.name)))]

def derivationFault (fault : DerivationFault) : Fields :=
  [("error", .text "derive"), ("message", .text fault.message)]

def packagePath : Except ManifestFault PathText → Node
  | .ok path => .text (unspaced path.text)
  | .error fault => .struct [("error", .text "panic"), ("message", .text fault.message)]

end Marshal.Report
