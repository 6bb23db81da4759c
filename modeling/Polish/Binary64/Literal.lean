import Polish.Binary64.Basic
import Polish.Binary64.Shortest

/-!
# Doubles as text

`text` writes a double as its shortest decimal in positional notation. `ofText?` reads every usual spelling of a
double. A literal is accepted by `ofLiteral?` only if it denotes a finite double and is the very text that
`text` writes for it, so that an accepted number is shown exactly as it was typed.
-/

namespace Polish.Binary64

/-- The characters of the shortest positional decimal, with a minus for a negative number. -/
def chars : Binary64 → List Char
  | nan => ['N', 'a', 'N']
  | infinity false => ['i', 'n', 'f']
  | infinity true => ['-', 'i', 'n', 'f']
  | finite false m => m.shortest.positional
  | finite true m => '-' :: m.shortest.positional

/-- The number as text. -/
def text (x : Binary64) : String := .ofList x.chars

/-- A double whose spelling is a word in any mixture of cases. -/
def ofWord? (negative : Bool) (word : List Char) : Option Binary64 :=
  match String.ofList (word.map Char.toLower) with
  | "inf" | "infinity" => some (.infinity negative)
  | "nan" => some .nan
  | _ => none

/-- The double nearest to a decimal, an infinity if it overflows. -/
def ofDecimal (negative : Bool) (d : Decimal) : Binary64 :=
  match d.toMagnitude? with
  | some m => .finite negative m
  | none => .infinity negative

/-- Reads a signed decimal or word. -/
def ofText? (text : List Char) : Option Binary64 :=
  let (negative, body) := Decimal.splitSign text
  match Decimal.ofChars? body with
  | some d => some (ofDecimal negative d)
  | none => ofWord? negative body

/-- Accepts a literal that denotes a finite double and is written as that double is. -/
def ofLiteral? (literal : String) : Option Binary64 :=
  (ofText? literal.toList).filter fun x => x.isFinite && x.text == literal

end Polish.Binary64
