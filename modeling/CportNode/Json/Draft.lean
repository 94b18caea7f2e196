import CportNode.Json.Basic
import CportNode.Json.Token

/-!
From tokens to a tree.  A `Draft` is the tree read so far: the containers still open, innermost
first, and what may come next.  Taking a token extends it.  A fault, or the end of the tokens,
closes every open container at a `broken` value; what was read before stays in place, in order.
-/

namespace CportNode.Json

/-- A container still open, its contents in reverse; an object remembers the key whose value is
awaited. -/
inductive Frame
  | array (items : List Json)
  | object (members : List (String × Json)) (key : String)

inductive Place
  | value
  | item
  | key
  | member
  | colon
  | more
  deriving DecidableEq

inductive Draft
  | growing (place : Place) (stack : List Frame)
  | whole (root : Json)
  | faulty (root : Json)

namespace Draft

def start : Draft := .growing .value []

def complete (value : Json) : List Frame → Draft
  | [] => .whole value
  | .array items :: stack => .growing .more (.array (value :: items) :: stack)
  | .object members key :: stack => .growing .more (.object ((key, value) :: members) "" :: stack)

def collapse (value : Json) : List Frame → Json
  | [] => value
  | .array items :: stack => collapse (.array (value :: items).reverse) stack
  | .object members key :: stack => collapse (.object ((key, value) :: members).reverse) stack

def fault (stack : List Frame) : Draft :=
  .faulty (collapse .broken stack)

def beginValue (stack : List Frame) : Token → Draft
  | .openArray => .growing .item (.array [] :: stack)
  | .openObject => .growing .member (.object [] "" :: stack)
  | .null => complete .null stack
  | .bool b => complete (.bool b) stack
  | .number lexeme => complete (.number lexeme) stack
  | .text s => complete (.text s) stack
  | _ => fault stack

def beginMember (key : String) : List Frame → Draft
  | .object members _ :: stack => .growing .colon (.object members key :: stack)
  | stack => fault stack

def endContainer : Token → List Frame → Draft
  | .closeArray, .array items :: stack => complete (.array items.reverse) stack
  | .closeObject, .object members _ :: stack => complete (.object members.reverse) stack
  | _, stack => fault stack

def take : Draft → Token → Draft
  | .whole root, _ => .faulty root
  | .faulty root, _ => .faulty root
  | .growing .value stack, t => beginValue stack t
  | .growing .item stack, .closeArray => endContainer .closeArray stack
  | .growing .item stack, t => beginValue stack t
  | .growing .member stack, .closeObject => endContainer .closeObject stack
  | .growing .member stack, .text key => beginMember key stack
  | .growing .key stack, .text key => beginMember key stack
  | .growing .colon stack, .colon => .growing .value stack
  | .growing .more (.array items :: stack), .comma => .growing .value (.array items :: stack)
  | .growing .more (.object members key :: stack), .comma =>
    .growing .key (.object members key :: stack)
  | .growing .more stack, t => endContainer t stack
  | .growing _ stack, _ => fault stack

def finish : Draft → Json × Bool
  | .growing _ stack => (collapse .broken stack, false)
  | .whole root => (root, true)
  | .faulty root => (root, false)

end Draft

def ofTokens (tokens : List Token) : Json × Bool :=
  (tokens.foldl Draft.take Draft.start).finish

/-- The tree that a text spells, as far as it can be read, and whether it is one whole value. -/
def read (text : String) : Json × Bool :=
  ofTokens (Token.scan text.toList)

end CportNode.Json
