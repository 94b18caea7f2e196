import CportNode.Text.Hex

namespace CportNode.Numeral

def digit? (radix : Nat) (c : Char) : Option Nat :=
  (Hex.value? c).filter (· < radix)

def valueFrom (radix n : Nat) (digits : List Nat) : Nat :=
  digits.foldl (fun n d => radix * n + d) n

/-- The number that `digits` write after what is worth `n`, if it is below `bound`.  Nothing is read
past the digit that takes it there, since more digits never make it smaller. -/
def valueBelow? (radix bound : Nat) : Nat → List Nat → Option Nat
  | n, [] => if n < bound then some n else none
  | n, d :: digits =>
    if n < bound then valueBelow? radix bound (radix * n + d) digits else none

theorem le_valueFrom {radix : Nat} (positive : 0 < radix) (n : Nat) (digits : List Nat) :
    n ≤ valueFrom radix n digits := by
  induction digits generalizing n with
  | nil => exact Nat.le_refl n
  | cons d digits ih =>
    exact Nat.le_trans (Nat.le_trans (Nat.le_mul_of_pos_left n positive) (Nat.le_add_right _ d))
      (ih _)

theorem valueBelow?_eq {radix : Nat} (positive : 0 < radix) (bound n : Nat) (digits : List Nat) :
    valueBelow? radix bound n digits =
      if valueFrom radix n digits < bound then some (valueFrom radix n digits) else none := by
  induction digits generalizing n with
  | nil => rfl
  | cons d digits ih =>
    rw [valueBelow?]
    split
    · exact ih _
    · next large =>
      have := le_valueFrom positive n (d :: digits)
      rw [if_neg (by omega)]

def unsigned (cs : List Char) : List Char :=
  match cs with
  | '+' :: rest => rest
  | _ => cs

def read? (radix bound : Nat) (cs : List Char) : Option Nat :=
  match (unsigned cs).mapM (digit? radix) with
  | none => none
  | some [] => none
  | some (d :: digits) => valueBelow? radix bound 0 (d :: digits)

theorem read?_eq_some_iff {radix : Nat} (positive : 0 < radix) (bound n : Nat) (cs : List Char) :
    read? radix bound cs = some n ↔
      ∃ digits, digits ≠ [] ∧ (unsigned cs).mapM (digit? radix) = some digits ∧
        valueFrom radix 0 digits = n ∧ n < bound := by
  unfold read?
  split <;> simp_all [valueBelow?_eq positive]
  grind

end CportNode.Numeral
