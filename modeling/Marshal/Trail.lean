/-!
Trails: where in a value or a document something lies, outermost segment first.
-/

namespace Marshal

inductive Segment
  | field (name : String)
  | index (position : Nat)
deriving DecidableEq, Repr

abbrev Trail := List Segment

namespace Trail

/-- The part of a trail's text after its first segment. -/
def tailText : Trail → String
  | [] => ""
  | .field name :: rest => "." ++ name ++ tailText rest
  | .index position :: rest => "[" ++ toString position ++ "]" ++ tailText rest

/-- A leading field name stands bare; a later one follows a dot. -/
def text : Trail → String
  | .field name :: rest => name ++ tailText rest
  | trail => tailText trail

end Trail

end Marshal
