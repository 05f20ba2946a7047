import Marshal.Json.Parser
import Marshal.Number.Layout
import Marshal.Trail
import Marshal.Tree.Kind

/-!
Faults: why something could not be declared, written, read or found, and where. A fault grows
its trail outwards while it travels up, so a trail reads from the place the operation started.
-/

namespace Marshal

open Number

/-- The families of faults. Only a declaration fault is the program's own and never absorbed. -/
inductive FaultKind
  | declaration
  | structural
  | typeMismatch
  | range
  | lookup
  | format
deriving DecidableEq, Repr

inductive Cause
  | memberNameRepeated (member owner : String)
  | fieldRepeated (first second owner : String)
  | outputRepeated (first second owner output : String)
  | enumeratorNameRepeated (name owner : String)
  | enumeratorValueRepeated (first second owner : String)
  | noEnumerators (owner : String)
  | cellHoldsOther
  | missingField (name : String)
  | structExpected (found : NodeKind)
  | arrayExpected (found : NodeKind)
  | scalarExpected (found : NodeKind)
  | slotMissing (size position : Nat)
  | tupleEnded (arity found : Nat)
  | tupleContinues (arity : Nat)
  | keyNotWritable (key : String)
  | keyNotReadable (name key : String)
  | unknownEnumerator (name owner : String)
  | unmappedEnumerator (owner : String)
  | undeclaredField (owner : String) (offset : Nat)
  | typeMismatch (expected found : String)
  | outOfRange (value target : String)
  | notRepresentable (number : Double)
  | unreadableText (problem : Json.Problem)
  /-- Raised outside the library, with its own words. -/
  | stated (kind : FaultKind) (text : String)
deriving DecidableEq, Repr

namespace Cause

def kind : Cause → FaultKind
  | memberNameRepeated .. | fieldRepeated .. | outputRepeated .. | enumeratorNameRepeated ..
  | enumeratorValueRepeated .. | noEnumerators .. | cellHoldsOther => .declaration
  | missingField .. | structExpected .. | arrayExpected .. | scalarExpected .. | slotMissing ..
  | tupleEnded .. | tupleContinues .. | keyNotWritable .. | keyNotReadable ..
  | unknownEnumerator .. => .structural
  | typeMismatch .. => .typeMismatch
  | outOfRange .. => .range
  | unmappedEnumerator .. | undeclaredField .. => .lookup
  | notRepresentable .. | unreadableText .. => .format
  | stated kind _ => kind

/-- The words of a cause without the mark of its family. -/
def text : Cause → String
  | memberNameRepeated member owner => s!"member `{member}` of `{owner}` is declared twice"
  | fieldRepeated first second owner =>
      s!"members `{first}` and `{second}` of `{owner}` refer to the same field"
  | outputRepeated first second owner output =>
      s!"members `{first}` and `{second}` of `{owner}` both write `{output}`"
  | enumeratorNameRepeated name owner =>
      s!"enumerator name `{name}` of `{owner}` is declared twice"
  | enumeratorValueRepeated first second owner =>
      s!"enumerator names `{first}` and `{second}` of `{owner}` map the same value"
  | noEnumerators owner => s!"enum `{owner}` declares no enumerators"
  | cellHoldsOther => "declaration cell holds a value of another type"
  | missingField name => s!"missing field `{name}`"
  | structExpected found => "expected a struct, found " ++ found.name
  | arrayExpected found => "expected an array, found " ++ found.name
  | scalarExpected found => "expected a value, found " ++ found.name
  | slotMissing size position => s!"array has {size} elements, no element at index {position}"
  | tupleEnded arity found => s!"expected a tuple of {arity} elements, found {found}"
  | tupleContinues arity => s!"expected a tuple of {arity} elements, found more"
  | keyNotWritable key => s!"map key of type `{key}` cannot be written as a field name"
  | keyNotReadable name key => s!"`{name}` is not a valid `{key}` map key"
  | unknownEnumerator name owner => s!"unknown enumerator `{name}` for `{owner}`"
  | unmappedEnumerator owner => s!"value of `{owner}` has no mapped name"
  | undeclaredField owner offset =>
      s!"no member of `{owner}` is declared for the field at offset {offset}"
  | typeMismatch expected found => s!"expected `{expected}` but found `{found}`"
  | outOfRange value target => s!"value `{value}` is out of range for `{target}`"
  | notRepresentable number =>
      String.ofList (Layout.digitsOnly.double number) ++ " has no JSON representation"
  | unreadableText problem => problem.message
  | stated _ text => text

/-- Declaration and format faults name their family first. -/
def message (cause : Cause) : String :=
  match cause.kind with
  | .declaration => "invalid declaration: " ++ cause.text
  | .format => "format error: " ++ cause.text
  | _ => cause.text

end Cause

structure Fault where
  cause : Cause
  trail : Trail
deriving DecidableEq, Repr

namespace Fault

def of (cause : Cause) : Fault := ⟨cause, []⟩

def kind (fault : Fault) : FaultKind := fault.cause.kind

def inField (name : String) (fault : Fault) : Fault := ⟨fault.cause, .field name :: fault.trail⟩

def atIndex (position : Nat) (fault : Fault) : Fault :=
  ⟨fault.cause, .index position :: fault.trail⟩

/-- Everything but a broken declaration can be made up for by leaving a value out. -/
def isAbsorbable (fault : Fault) : Bool := fault.kind ≠ .declaration

def message (fault : Fault) : String :=
  if fault.trail.isEmpty then fault.cause.message
  else s!"at `{fault.trail.text}`: {fault.cause.message}"

end Fault

end Marshal
