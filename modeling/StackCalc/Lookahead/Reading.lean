import StackCalc.Lookahead.Match
import StackCalc.Operator

/-!
# Reading what is in front

What a reader may find in front of its cursor: a run of blanks, a number or an operator. A reading
that finds something hands out everything up to its end, characters that the cursor had passed
before included. A minus sign belongs to a number if a digit follows it directly; otherwise it is
given back, as are all characters of a reading that finds nothing.
-/

namespace StackCalc

/-- The characters that only separate: the space and the tab. -/
def isBlank (c : Char) : Bool := c == ' ' || c == '\t'

namespace Lookahead

/-- Drops everything up to the end of the blanks in front and tells whether there were any. What the
    cursor had passed before is dropped even if there were none. -/
def skipBlanks (s : Lookahead) : Bool × Lookahead :=
  let (skipped, passed) := s.skipWhile isBlank
  (skipped, passed.consume.2)

/-- Hands out the digits in front, together with a minus sign before them, if there is a digit. -/
def readNumber (s : Lookahead) : Option String × Lookahead :=
  match (s.accept '-').2.skipWhile Char.isDigit with
  | (true, passed) => (some passed.consumeString.1, passed.consumeString.2)
  | (false, passed) => (none, (passed.setPosition s.position).2)

/-- Takes out the operator in front, if there is one. -/
def readOperator (s : Lookahead) : Option Operator × Lookahead :=
  match s.acceptIf fun c => (Operator.ofSymbol? c).isSome with
  | (some c, moved) => (Operator.ofSymbol? c, moved.consume.2)
  | (none, back) => (none, back)

@[simp] theorem remaining_accept (s : Lookahead) (c : Char) :
    (s.accept c).2.remaining = s.remaining := remaining_acceptIf s _

@[simp] theorem offset_accept (s : Lookahead) (c : Char) : (s.accept c).2.offset = s.offset :=
  offset_acceptIf s _

/-- A reader that finds no number is left with the text that it had. -/
theorem remaining_readNumber_of_none {s : Lookahead} (h : s.readNumber.1 = none) :
    s.readNumber.2.remaining = s.remaining := by
  have hskip := (s.accept '-').2.remaining_skipWhile Char.isDigit
  unfold readNumber at h ⊢
  split at h <;> simp_all

/-- A reader that finds no operator is left with the text that it had. -/
theorem remaining_readOperator_of_none {s : Lookahead} (h : s.readOperator.1 = none) :
    s.readOperator.2.remaining = s.remaining := by
  have haccept := s.remaining_acceptIf fun c => (Operator.ofSymbol? c).isSome
  unfold readOperator at h ⊢
  split at h
  next c moved hmoved =>
    have hwanted := (acceptIf_eq_some hmoved).2
    simp_all
  next => simp_all

end Lookahead

end StackCalc
