import Marshal.Derivation.Item
import Marshal.Phrase.Grammar
import Marshal.Tree.View

/-!
Items described by documents. What a description leaves out is empty; attributes are told apart by
whether they hold options, are assigned a text or stand alone.
-/

namespace Marshal.Derivation

open Phrase (TypeText respelled)

def literal? (node : Node) : Option Literal :=
  match node.textField? "str", (node.field? "bool").bind Node.bool?, node.field? "int" with
  | some value, _, _ => some (.text value)
  | none, some value, _ => some (.bool value)
  | none, none, some _ => some .number
  | none, none, none => none

def option? (node : Node) : Option AttributeOption :=
  (node.textField? "key").map fun key => ⟨respelled key, literal? node⟩

def attribute? (node : Node) : Option Attribute := do
  let path := respelled (← node.textField? "path")
  match node.field? "items", node.member? "eq" with
  | some items, _ => some ⟨path, .options (← (← items.items?).mapM option?)⟩
  | none, some _ => some ⟨path, .assigned⟩
  | none, none => some ⟨path, .alone⟩

def attributes? (node : Node) : Option (List Attribute) := do
  (← node.itemsField? "attrs").mapM attribute?

def parameter? (node : Node) : Option Parameter :=
  match node.textField? "type", node.textField? "lifetime", node.textField? "const" with
  | some name, _, _ => some (.type name)
  | none, some name, _ => some (.lifetime name)
  | none, none, some name => some (.const name)
  | none, none, none => none

def itemField? (node : Node) : Option (ItemField TypeText) := do
  let type := TypeText.ofText (← node.textField? "type")
  some ⟨← node.textField? "name", type, ← attributes? node⟩

def itemVariant? (node : Node) : Option ItemVariant := do
  some ⟨← node.textField? "name", ← attributes? node,
    (node.field? "tuple").isSome || (node.field? "fields").isSome⟩

def itemBody? (node : Node) : Option (ItemBody TypeText) := do
  match ← node.textField? "kind" with
  | "struct" => some (.named (← (← node.itemsField? "fields").mapM itemField?))
  | "tuple_struct" | "unit_struct" => some .unnamed
  | "union" => some .union
  | "enum" => some (.variants (← (← node.itemsField? "variants").mapM itemVariant?))
  | _ => none

def item? (node : Node) : Option (Item TypeText) := do
  some ⟨← node.textField? "name", ← attributes? node,
    ← (← node.itemsField? "generics").mapM parameter?, ← itemBody? node⟩

end Marshal.Derivation
