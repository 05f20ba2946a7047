import Marshal.Package.Manifest
import Marshal.Tree.View

/-!
Manifest files described by documents: that there is none, that it cannot be read, or the names
in its sections and how these are written.
-/

namespace Marshal.Package

def section? (node : Node) (form : SectionForm) (key name : String) :
    Option (List ManifestSection) := do
  let names ← (← node.itemsField? key).mapM Node.text?
  some (if names.isEmpty then [] else [⟨name, form, names⟩])

def manifest? (node : Node) : Option ManifestFile := do
  match node with
  | .text "missing" => some .missing
  | _ =>
      if node.isSet "broken" then some .malformed
      else
        let form := if node.textField? "style" = some "inline" then SectionForm.line else .table
        some (.sections ((← section? node form "dependencies" "dependencies") ++
          (← section? node form "dev" "dev-dependencies") ++
          (← section? node form "build" "build-dependencies")))

end Marshal.Package
