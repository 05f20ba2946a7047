import Marshal.Text.Shown

/-!
Texts in quotes, as listings show them: every character that does not stand for itself is escaped,
by a letter where there is one for it and else by its code point.
-/

namespace Marshal.Text

def listedChar (character : Char) : List Char :=
  if character = '"' then ['\\', '"']
  else if character = '\\' then ['\\', '\\']
  else if character = '\n' then ['\\', 'n']
  else if character = '\r' then ['\\', 'r']
  else if character = '\t' then ['\\', 't']
  else if character.toNat = 0 then ['\\', '0']
  else if isShown character then [character]
  else '\\' :: 'u' :: '\x7b' :: Nat.toDigits 16 character.toNat ++ ['\x7d']

def listed (text : String) : String :=
  String.ofList ('"' :: text.toList.flatMap listedChar ++ ['"'])

end Marshal.Text
