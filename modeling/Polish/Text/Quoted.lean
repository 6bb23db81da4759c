import Polish.Text.Printable

/-!
# Quoted text

A text between double quotes, on one line: quotes, backslashes and the usual control characters are written with a
backslash, and every other character that cannot be shown on its own by its code point.
-/

namespace Polish.Text

/-- A character as it is written between double quotes. -/
def quotedChar : Char → List Char
  | '"' => ['\\', '"']
  | '\\' => ['\\', '\\']
  | '\n' => ['\\', 'n']
  | '\r' => ['\\', 'r']
  | '\t' => ['\\', 't']
  | '\x00' => ['\\', '0']
  | c => if isShown c then [c] else '\\' :: 'u' :: '\x7b' :: Nat.toDigits 16 c.toNat ++ ['\x7d']

/-- The text between double quotes. -/
def quoted (text : String) : String := .ofList ('"' :: text.toList.flatMap quotedChar ++ ['"'])

end Polish.Text
