import CportNode.Bytes

namespace CportNode.Hex

def digit (n : Nat) : Char :=
  if n < 10 then Char.ofNat (48 + n) else Char.ofNat (87 + n)

def value? (c : Char) : Option Nat :=
  if '0' ≤ c ∧ c ≤ '9' then some (c.toNat - 48)
  else if 'a' ≤ c ∧ c ≤ 'f' then some (c.toNat - 87)
  else if 'A' ≤ c ∧ c ≤ 'F' then some (c.toNat - 55)
  else none

def ofByte (b : UInt8) : List Char :=
  [digit (b.toNat / 16), digit (b.toNat % 16)]

def ofBytes (bytes : Bytes) : String :=
  String.ofList (bytes.flatMap ofByte)

def byteText (b : UInt8) : String :=
  "0x" ++ String.ofList (ofByte b)

@[simp] theorem value?_digit : ∀ n, n < 16 → value? (digit n) = some n := by
  decide

end CportNode.Hex
