import CportNode.Json.Basic
import CportNode.Text.Hex

namespace CportNode.Json

def escapeChar (c : Char) : List Char :=
  match c with
  | '"' => ['\\', '"']
  | '\\' => ['\\', '\\']
  | '\x08' => ['\\', 'b']
  | '\t' => ['\\', 't']
  | '\n' => ['\\', 'n']
  | '\x0c' => ['\\', 'f']
  | '\r' => ['\\', 'r']
  | c =>
    if c.toNat < 0x20 then
      ['\\', 'u', '0', '0', Hex.digit (c.toNat / 16), Hex.digit (c.toNat % 16)]
    else [c]

def quoted (s : String) : List Char :=
  '"' :: (s.toList.flatMap escapeChar ++ ['"'])

def boolText (b : Bool) : List Char :=
  if b then ['t', 'r', 'u', 'e'] else ['f', 'a', 'l', 's', 'e']

def nullText : List Char := ['n', 'u', 'l', 'l']

mutual

def compact : Json → List Char
  | .null => nullText
  | .bool b => boolText b
  | .number lexeme => lexeme
  | .text s => quoted s
  | .array items => '[' :: (compactItems items ++ [']'])
  | .object members => '\x7b' :: (compactMembers members ++ ['\x7d'])
  | .broken => []

def compactItems : List Json → List Char
  | [] => []
  | [item] => compact item
  | item :: items => compact item ++ ',' :: compactItems items

def compactMembers : List (String × Json) → List Char
  | [] => []
  | [(key, value)] => quoted key ++ ':' :: compact value
  | (key, value) :: members =>
    quoted key ++ ':' :: (compact value ++ ',' :: compactMembers members)

end

def newline (depth : Nat) : List Char :=
  '\n' :: List.replicate (2 * depth) ' '

mutual

def indented (depth : Nat) : Json → List Char
  | .null => nullText
  | .bool b => boolText b
  | .number lexeme => lexeme
  | .text s => quoted s
  | .array [] => ['[', ']']
  | .array (item :: items) =>
    '[' :: (newline (depth + 1) ++ indented (depth + 1) item ++
      indentedItems (depth + 1) items ++ newline depth ++ [']'])
  | .object [] => ['\x7b', '\x7d']
  | .object ((key, value) :: members) =>
    '\x7b' :: (newline (depth + 1) ++ quoted key ++ [':', ' '] ++ indented (depth + 1) value ++
      indentedMembers (depth + 1) members ++ newline depth ++ ['\x7d'])
  | .broken => []

def indentedItems (depth : Nat) : List Json → List Char
  | [] => []
  | item :: items =>
    ',' :: (newline depth ++ indented depth item ++ indentedItems depth items)

def indentedMembers (depth : Nat) : List (String × Json) → List Char
  | [] => []
  | (key, value) :: members =>
    ',' :: (newline depth ++ quoted key ++ [':', ' '] ++ indented depth value ++
      indentedMembers depth members)

end

end CportNode.Json
