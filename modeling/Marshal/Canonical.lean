import Marshal.AnyValue
import Marshal.Number.Layout

/-!
The four shapes in which numbers cross into and out of documents. Every primitive type widens to
one of them without loss. Narrowing takes either integer family for an integer, checks the range,
and takes integers for floating-point targets as well.
-/

namespace Marshal

open Number

inductive WideKind
  | bool
  | int64
  | uint64
  | double
deriving DecidableEq, Repr

namespace WideKind

def name : WideKind → String
  | bool => "bool"
  | int64 => "int64"
  | uint64 => "uint64"
  | double => "double"

def type : WideKind → Ty
  | bool => .bool
  | int64 => .int .i64
  | uint64 => .int .u64
  | double => .double

end WideKind

/-- What a document can hold at a place that holds no container. -/
inductive Scalar
  | bool (value : Bool)
  | int (value : Int64)
  | uint (value : UInt64)
  | double (value : Double)
  | text (value : String)
deriving DecidableEq, Repr

namespace Primitive

def wideKind : Primitive → WideKind
  | .bool => .bool
  | .int kind => if kind.isSigned then .int64 else .uint64
  | .single | .double => .double

def widen (primitive : Primitive) (value : Val) : Scalar :=
  match primitive with
  | .bool => .bool value.asBool
  | .int kind =>
      if kind.isSigned then .int (.ofInt value.asInt) else .uint (.ofNat value.asInt.toNat)
  | .single => .double value.asSingle.toDouble
  | .double => .double value.asDouble

def mismatch (primitive : Primitive) (source : AnyValue) : Fault :=
  .of (.typeMismatch primitive.name source.typeName)

/-- The integer that a source holds in either family. -/
def integer? (source : AnyValue) : Option Int :=
  match source.downcast? (.int .i64) with
  | some value => some value.asInt
  | none => (source.downcast? (.int .u64)).map Val.asInt

def narrowInt (kind : IntKind) (source : AnyValue) : Except Fault Val :=
  match integer? source with
  | some number =>
      if kind.holds number then .ok (.int number)
      else .error (.of (.outOfRange (toString number) kind.name))
  | none => .error (mismatch (.int kind) source)

/-- The number that a source holds, an integer being taken as the nearest double. -/
def number? (source : AnyValue) : Option Double :=
  match source.downcast? .double with
  | some value => some value.asDouble
  | none => (integer? source).map Double.ofInt

def narrow (primitive : Primitive) (source : AnyValue) : Except Fault Val :=
  match primitive with
  | .bool =>
      match source.downcast? .bool with
      | some value => .ok value
      | none => .error (mismatch .bool source)
  | .int kind => narrowInt kind source
  | .double =>
      match number? source with
      | some number => .ok (.double number)
      | none => .error (mismatch .double source)
  | .single =>
      match number? source with
      | some number =>
          if number.exceedsSingle then
            .error (.of (.outOfRange (String.ofList (Layout.digitsOnly.double number)) "f32"))
          else .ok (.single number.toSingle)
      | none => .error (mismatch .single source)

end Primitive

namespace Scalar

def held : Scalar → AnyValue
  | .bool value => .of .bool (.bool value)
  | .int value => .of (.int .i64) (.int value.toInt)
  | .uint value => .of (.int .u64) (.int value.toNat)
  | .double value => .of .double (.double value)
  | .text value => .of .string (.text value)

end Scalar

end Marshal
