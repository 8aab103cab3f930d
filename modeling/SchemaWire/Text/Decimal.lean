/-!
# Decimal numbers
-/

namespace SchemaWire
namespace Decimal

/-- The number that a digit stands for. -/
def digit? (char : Char) : Option Nat :=
  if '0' ≤ char ∧ char ≤ '9' then some (char.toNat - 48) else none

/-- Continue the number `value` with further digits. -/
def continue? (value : Nat) : List Char → Option Nat
  | [] => some value
  | char :: rest => do
      let digit ← digit? char
      continue? (value * 10 + digit) rest

/-- The number up to `bound` that a text spells: one digit or more, of which the first ones may be
zeros, after a plus sign that may be left out. -/
def read? (bound : Nat) (text : List Char) : Option Nat :=
  let digits :=
    match text with
    | '+' :: rest => rest
    | text => text
  match digits with
  | [] => none
  | digits => do
      let value ← continue? 0 digits
      if value ≤ bound then some value else none

end Decimal
end SchemaWire
