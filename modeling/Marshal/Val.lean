import Marshal.Number.Double

/-!
Values. A value does not carry its type; each operation is told at which type it is to be taken,
and a value of another shape then counts as the empty one. Map entries are kept in key order with
distinct keys, so equal maps are equal lists. A box is its content.
-/

namespace Marshal

open Number

inductive Val
  | bool (value : Bool)
  | int (value : Int)
  | single (value : Single)
  | double (value : Double)
  | text (value : String)
  | enumerator (code : Int)
  | absent
  | present (value : Val)
  | list (items : List Val)
  | map (entries : List (Val × Val))
  | tuple (slots : List Val)
  | record (fields : List (String × Val))

namespace Val

def asBool : Val → Bool
  | .bool value => value
  | _ => false

def asInt : Val → Int
  | .int value => value
  | _ => 0

def asSingle : Val → Single
  | .single value => value
  | _ => .zero

def asDouble : Val → Double
  | .double value => value
  | _ => .zero

def asText : Val → String
  | .text value => value
  | _ => ""

def asCode : Val → Int
  | .enumerator code => code
  | _ => 0

def content? : Val → Option Val
  | .present value => some value
  | _ => none

def items : Val → List Val
  | .list items => items
  | _ => []

def entries : Val → List (Val × Val)
  | .map entries => entries
  | _ => []

def slots : Val → List Val
  | .tuple slots => slots
  | _ => []

def fields : Val → List (String × Val)
  | .record fields => fields
  | _ => []

/-- The way from a record to something inside it, one field name a level. -/
abbrev Path := List String

def lookup (fields : List (String × Val)) (name : String) : Option Val :=
  (fields.find? fun field => field.1 = name).map Prod.snd

/-- The value of a present field is replaced where it stands; no field is added. -/
def update : List (String × Val) → String → Val → List (String × Val)
  | [], _, _ => []
  | (known, old) :: rest, name, value =>
      if known = name then (known, value) :: rest else (known, old) :: update rest name value

def get? : Val → Path → Option Val
  | value, [] => some value
  | .record fields, name :: rest => (lookup fields name).bind fun inner => get? inner rest
  | _, _ :: _ => none

def set : Val → Path → Val → Val
  | _, [], replacement => replacement
  | .record fields, name :: rest, replacement =>
      match lookup fields name with
      | some inner => .record (update fields name (set inner rest replacement))
      | none => .record fields
  | value, _ :: _, _ => value

mutual

/-- How many values lie inside each other at the deepest place, this one included. -/
def depth : Val → Nat
  | .present value => depth value + 1
  | .list items => depthItems items + 1
  | .map entries => depthEntries entries + 1
  | .tuple slots => depthItems slots + 1
  | .record fields => depthFields fields + 1
  | _ => 1

def depthItems : List Val → Nat
  | [] => 0
  | value :: rest => max (depth value) (depthItems rest)

def depthEntries : List (Val × Val) → Nat
  | [] => 0
  | (key, value) :: rest => max (max (depth key) (depth value)) (depthEntries rest)

def depthFields : List (String × Val) → Nat
  | [] => 0
  | (_, value) :: rest => max (depth value) (depthFields rest)

end

def rank : Val → Nat
  | .bool _ => 0
  | .int _ => 1
  | .single _ => 2
  | .double _ => 3
  | .text _ => 4
  | .enumerator _ => 5
  | .absent => 6
  | .present _ => 7
  | .list _ => 8
  | .map _ => 9
  | .tuple _ => 10
  | .record _ => 11

mutual

/-- The order of map keys. Within a type it is the natural one: texts go by code points,
enumerators by declaration, containers and records by their parts from the first on, and an
absent optional comes before a present one. -/
def order : Val → Val → Ordering
  | .bool left, .bool right => compare left right
  | .int left, .int right => compare left right
  | .single left, .single right => compare left.bits right.bits
  | .double left, .double right => compare left.bits right.bits
  | .text left, .text right => compare left right
  | .enumerator left, .enumerator right => compare left right
  | .absent, .absent => .eq
  | .present left, .present right => order left right
  | .list left, .list right => orderItems left right
  | .map left, .map right => orderEntries left right
  | .tuple left, .tuple right => orderItems left right
  | .record left, .record right => orderFields left right
  | left, right => compare left.rank right.rank

def orderItems : List Val → List Val → Ordering
  | [], [] => .eq
  | [], _ :: _ => .lt
  | _ :: _, [] => .gt
  | left :: leftRest, right :: rightRest =>
      (order left right).then (orderItems leftRest rightRest)

def orderEntries : List (Val × Val) → List (Val × Val) → Ordering
  | [], [] => .eq
  | [], _ :: _ => .lt
  | _ :: _, [] => .gt
  | (leftKey, left) :: leftRest, (rightKey, right) :: rightRest =>
      ((order leftKey rightKey).then (order left right)).then (orderEntries leftRest rightRest)

def orderFields : List (String × Val) → List (String × Val) → Ordering
  | [], [] => .eq
  | [], _ :: _ => .lt
  | _ :: _, [] => .gt
  | (leftName, left) :: leftRest, (rightName, right) :: rightRest =>
      ((compare leftName rightName).then (order left right)).then (orderFields leftRest rightRest)

end

/-- Adds an entry at its place in key order; a present key gets the new value. -/
def insertEntry : List (Val × Val) → Val → Val → List (Val × Val)
  | [], key, value => [(key, value)]
  | (known, old) :: rest, key, value =>
      match order key known with
      | .lt => (key, value) :: (known, old) :: rest
      | .eq => (known, value) :: rest
      | .gt => (known, old) :: insertEntry rest key value

mutual

/-- Equality as a program sees it: numbers compare as numbers, so a NaN differs from itself. -/
def equal : Val → Val → Bool
  | .bool left, .bool right => left == right
  | .int left, .int right => left == right
  | .single left, .single right => left.equal right
  | .double left, .double right => left.equal right
  | .text left, .text right => left == right
  | .enumerator left, .enumerator right => left == right
  | .absent, .absent => true
  | .present left, .present right => equal left right
  | .list left, .list right => equalItems left right
  | .map left, .map right => equalEntries left right
  | .tuple left, .tuple right => equalItems left right
  | .record left, .record right => equalFields left right
  | _, _ => false

def equalItems : List Val → List Val → Bool
  | [], [] => true
  | left :: leftRest, right :: rightRest => equal left right && equalItems leftRest rightRest
  | _, _ => false

def equalEntries : List (Val × Val) → List (Val × Val) → Bool
  | [], [] => true
  | (leftKey, left) :: leftRest, (rightKey, right) :: rightRest =>
      equal leftKey rightKey && equal left right && equalEntries leftRest rightRest
  | _, _ => false

def equalFields : List (String × Val) → List (String × Val) → Bool
  | [], [] => true
  | (leftName, left) :: leftRest, (rightName, right) :: rightRest =>
      leftName == rightName && equal left right && equalFields leftRest rightRest
  | _, _ => false

end

end Val

end Marshal
