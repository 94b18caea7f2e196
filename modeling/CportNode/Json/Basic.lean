import CportNode.Text.Numeral

namespace CportNode

inductive Json
  | null
  | bool (value : Bool)
  | number (lexeme : List Char)
  | text (value : String)
  | array (items : List Json)
  | object (members : List (String × Json))
  /-- Where a text goes wrong: nothing after this point was read. -/
  | broken

namespace Json

def natural (n : Nat) : Json :=
  .number (Nat.toDigits 10 n)

/-- The value of a number below `bound` written with digits alone: no sign, fraction or
exponent. -/
def naturalBelow? (bound : Nat) : Json → Option Nat
  | .number lexeme => if lexeme.all Char.isDigit then Numeral.read? 10 bound lexeme else none
  | _ => none

end Json

end CportNode
