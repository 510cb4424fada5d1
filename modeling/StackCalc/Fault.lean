import StackCalc.Operator
import StackCalc.Text.Quoted

/-!
# Reasons for refusing a text

A fault says why a text has no value, with the offset of the token that is to blame and what is
needed to name it. `Fault.message` is what a user reads. The text of a number is shown as it stands,
a foreign character between quotes; which characters such a quotation gives by code point is a
parameter of `Fault.messageWith`.
-/

namespace StackCalc

/-- Why a text has no value. -/
inductive Fault where
  /-- A character that is neither a blank nor part of a number nor an operator. -/
  | foreignChar (position : Nat) (c : Char)
  /-- An operator with fewer than two values to work on. -/
  | missingOperands (position : Nat) (op : Operator)
  /-- A text that denotes no number, or one outside the range. -/
  | outOfRange (position : Nat) (text : String)
  | divisionByZero (position : Nat)
  /-- An operator whose exact result is outside the range. -/
  | overflow (position : Nat) (op : Operator)
  /-- A text without tokens. -/
  | noValue
  /-- More than one value at the end. -/
  | leftover (count : Nat)
  deriving DecidableEq, Repr

namespace Fault

/-- The offset of the token to blame, for the faults of a single token. -/
def position? : Fault → Option Nat
  | foreignChar position _ => some position
  | missingOperands position _ => some position
  | outOfRange position _ => some position
  | divisionByZero position => some position
  | overflow position _ => some position
  | noValue => none
  | leftover _ => none

/-- The fault in words, where `hidden` characters are given by code point. -/
def messageWith (hidden : Char → Bool) : Fault → String
  | foreignChar position c =>
    "Unexpected character " ++ String.ofList (Text.quoted hidden '\'' [c]) ++
      " at position " ++ Nat.repr position
  | missingOperands position op =>
    "Not enough operands for operator " ++ String.singleton op.symbol ++
      " at position " ++ Nat.repr position
  | outOfRange position text =>
    "Number " ++ text ++ " at position " ++ Nat.repr position ++ " is out of range"
  | divisionByZero position => "Division by zero at position " ++ Nat.repr position
  | overflow position op =>
    "Operator " ++ String.singleton op.symbol ++ " at position " ++ Nat.repr position ++
      " overflows"
  | noValue => "There were no numbers in the input"
  | leftover count =>
    "Too many operands, " ++ Nat.repr count ++ " left on the stack (should be one)"

/-- The fault in words. -/
def message (f : Fault) : String := f.messageWith Text.isHidden

end Fault

end StackCalc
