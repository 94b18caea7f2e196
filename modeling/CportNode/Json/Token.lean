import CportNode.Text.Hex

/-!
The lexical grammar of JSON.  Scanning never fails as a whole: where the text stops being JSON the
tokens end with `broken`, so that what stands before the fault can still be acted on.
-/

namespace CportNode.Json

inductive Token
  | openArray
  | closeArray
  | openObject
  | closeObject
  | comma
  | colon
  | null
  | bool (value : Bool)
  | number (lexeme : List Char)
  | text (value : String)
  | broken
  deriving DecidableEq

namespace Token

def isSpace (c : Char) : Bool :=
  c == ' ' || c == '\t' || c == '\n' || c == '\r'

def isNumberChar (c : Char) : Bool :=
  c.isDigit || c == '-' || c == '+' || c == '.' || c == 'e' || c == 'E'

def allDigits (cs : List Char) : Bool :=
  !cs.isEmpty && cs.all Char.isDigit

def exponentDigits : List Char → Bool
  | '+' :: cs => allDigits cs
  | '-' :: cs => allDigits cs
  | cs => allDigits cs

def exponentPart : List Char → Bool
  | [] => true
  | c :: cs => (c == 'e' || c == 'E') && exponentDigits cs

def fractionPart : List Char → Bool
  | '.' :: cs =>
    !(cs.takeWhile Char.isDigit).isEmpty && exponentPart (cs.dropWhile Char.isDigit)
  | cs => exponentPart cs

def unsignedNumber : List Char → Bool
  | '0' :: cs => fractionPart cs
  | c :: cs => c.isDigit && fractionPart (cs.dropWhile Char.isDigit)
  | [] => false

/-- Whether these characters are a number: no plus sign, no leading zero, and a digit on both sides
of a point. -/
def isNumber : List Char → Bool
  | '-' :: cs => unsignedNumber cs
  | cs => unsignedNumber cs

def hex4 (a b c d : Char) : Option Nat := do
  let a ← Hex.value? a
  let b ← Hex.value? b
  let c ← Hex.value? c
  let d ← Hex.value? d
  return ((a * 16 + b) * 16 + c) * 16 + d

def shortEscape : Char → Option Char
  | '"' => some '"'
  | '\\' => some '\\'
  | '/' => some '/'
  | 'b' => some '\x08'
  | 'f' => some '\x0c'
  | 'n' => some '\n'
  | 'r' => some '\r'
  | 't' => some '\t'
  | _ => none

def isHighSurrogate (n : Nat) : Bool := 0xd800 ≤ n && n < 0xdc00

def isLowSurrogate (n : Nat) : Bool := 0xdc00 ≤ n && n < 0xe000

def joinSurrogates (high low : Nat) : Nat :=
  0x10000 + (high - 0xd800) * 0x400 + (low - 0xdc00)

/-- What stands between the quotes of a string, unescaped, and what follows it.  The input begins
after the opening quote.  A surrogate must be escaped together with its other half. -/
def stringBody : List Char → Option (List Char × List Char)
  | '"' :: rest => some ([], rest)
  | '\\' :: 'u' :: a :: b :: c :: d :: rest =>
    match hex4 a b c d with
    | none => none
    | some n =>
      if isLowSurrogate n then none
      else if isHighSurrogate n then
        match rest with
        | '\\' :: 'u' :: a :: b :: c :: d :: rest =>
          match hex4 a b c d with
          | none => none
          | some m =>
            if isLowSurrogate m then
              (stringBody rest).map fun (cs, rest) => (Char.ofNat (joinSurrogates n m) :: cs, rest)
            else none
        | _ => none
      else (stringBody rest).map fun (cs, rest) => (Char.ofNat n :: cs, rest)
  | '\\' :: c :: rest =>
    match shortEscape c with
    | none => none
    | some c => (stringBody rest).map fun (cs, rest) => (c :: cs, rest)
  | c :: rest =>
    if c = '\\' ∨ c.toNat < 0x20 then none
    else (stringBody rest).map fun (cs, rest) => (c :: cs, rest)
  | [] => none

theorem length_of_stringBody {cs body rest : List Char} (h : stringBody cs = some (body, rest)) :
    rest.length < cs.length := by
  fun_induction stringBody cs generalizing body rest
  all_goals first
    | cases h; done
    | (cases h; simp only [List.length_cons]; omega)
    | (simp only [Option.map_eq_some_iff, Prod.mk.injEq] at h
       obtain ⟨⟨body', rest'⟩, hb, hbody, rfl⟩ := h
       rename_i ih
       have := ih hb
       simp only [List.length_cons] at *
       omega)

def next : List Char → Token × List Char
  | '[' :: rest => (.openArray, rest)
  | ']' :: rest => (.closeArray, rest)
  | '\x7b' :: rest => (.openObject, rest)
  | '\x7d' :: rest => (.closeObject, rest)
  | ',' :: rest => (.comma, rest)
  | ':' :: rest => (.colon, rest)
  | 'n' :: 'u' :: 'l' :: 'l' :: rest => (.null, rest)
  | 't' :: 'r' :: 'u' :: 'e' :: rest => (.bool true, rest)
  | 'f' :: 'a' :: 'l' :: 's' :: 'e' :: rest => (.bool false, rest)
  | '"' :: rest =>
    match stringBody rest with
    | some (cs, rest) => (.text (String.ofList cs), rest)
    | none => (.broken, [])
  | c :: rest =>
    if isNumberChar c then
      let lexeme := c :: rest.takeWhile isNumberChar
      if isNumber lexeme then (.number lexeme, rest.dropWhile isNumberChar) else (.broken, [])
    else (.broken, [])
  | [] => (.broken, [])

theorem length_dropWhile_le {α : Type} (p : α → Bool) (l : List α) :
    (l.dropWhile p).length ≤ l.length :=
  (List.dropWhile_suffix p).length_le

theorem length_next (c : Char) (cs : List Char) : (next (c :: cs)).2.length < (c :: cs).length := by
  unfold next
  split
  case h_10 rest heq =>
    cases heq
    split
    · rename_i hb
      have := length_of_stringBody hb
      simp only [List.length_cons]
      omega
    · simp
  case h_11 heq =>
    cases heq
    split
    · dsimp only
      split
      · have := length_dropWhile_le isNumberChar cs
        simp only [List.length_cons]
        omega
      · simp
    · simp
  case h_12 heq => cases heq
  all_goals
    rename_i heq
    cases heq
    simp only [List.length_cons]
    omega

def scan (cs : List Char) : List Token :=
  match h : cs.dropWhile isSpace with
  | [] => []
  | c :: rest =>
    have : (next (c :: rest)).2.length < cs.length := by
      have h₁ := length_next c rest
      have h₂ := length_dropWhile_le isSpace cs
      rw [h] at h₂
      omega
    (next (c :: rest)).1 :: scan (next (c :: rest)).2
termination_by cs.length

end Token

end CportNode.Json
