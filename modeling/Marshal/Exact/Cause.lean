import Marshal.Exact.Word
import Marshal.Fault

/-!
Causes described by their family and the texts in them. A double that is out of range is given by
its word.
-/

namespace Marshal.Exact

open Number

def cause? (family : String) (texts : List String) : Option Cause :=
  match family, texts with
  | "Declaration", [text] => some (.stated .declaration text)
  | "Structural", [text] | "Kind", [text] => some (.stated .structural text)
  | "Lookup", [text] => some (.stated .lookup text)
  | "Format", [text] => some (.stated .format text)
  | "TypeMismatch", [expected, found] => some (.typeMismatch expected found)
  | "Range", [value, target] | "RangeInt", [value, target] => some (.outOfRange value target)
  | "RangeDouble", [word, target] =>
      (double? word).map fun number =>
        .outOfRange (String.ofList (Layout.digitsOnly.double number)) target
  | _, _ => none

end Marshal.Exact
