import Marshal.Fault
import Marshal.Json.Printer

/-!
Documents to text and back. A document with a double that is not finite has no text; the fault
leads to the first such double in document order. A text that cannot be read changes nothing.
-/

namespace Marshal

open Number

mutual

/-- The first double that is not finite, depth first, and the trail to it. -/
def Node.firstNonFinite : Node → Option (Trail × Double)
  | .double number => if number.isFinite then none else some ([], number)
  | .struct fields => firstNonFiniteField fields
  | .array items _ => firstNonFiniteItem 0 items
  | _ => none

def Node.firstNonFiniteField : List (String × Node) → Option (Trail × Double)
  | [] => none
  | (name, node) :: rest =>
      match Node.firstNonFinite node with
      | some (trail, number) => some (.field name :: trail, number)
      | none => firstNonFiniteField rest

def Node.firstNonFiniteItem (position : Nat) : List Node → Option (Trail × Double)
  | [] => none
  | node :: rest =>
      match Node.firstNonFinite node with
      | some (trail, number) => some (.index position :: trail, number)
      | none => firstNonFiniteItem (position + 1) rest

end

namespace Fields

def dump (fields : Fields) : Except Fault String :=
  match Node.firstNonFiniteField fields with
  | some (trail, number) => .error ⟨.notRepresentable number, trail⟩
  | none => .ok (Json.prettyText (.struct fields))

def setText [Json.NumberReader] (fields : Fields) (text : String) : Except Fault Unit × Fields :=
  match Json.readStruct text with
  | .ok read => (.ok (), read)
  | .error problem => (.error (.of (.unreadableText problem)), fields)

end Fields

end Marshal
