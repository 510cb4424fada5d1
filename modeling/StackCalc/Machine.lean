import StackCalc.Numeral
import StackCalc.Program
import StackCalc.Width

/-!
# The stack machine

A program is executed token by token on a stack of values. An operand pushes the number that its
text denotes; an operator takes the two values on top, the upper one as its right operand, and
pushes the result. Every value on the stack is in the range of the machine's width: what is not is
refused where it would be pushed. The first token that cannot be executed decides the outcome; if
all can, exactly one value must be left.
-/

namespace StackCalc

namespace Machine

/-- The number that an operand's text denotes. A range that is no part of the source counts as the
    empty text, and a text that denotes no number is refused like a number out of range. -/
def operandValue (w : Width) (source : String) (start length : Nat) : Except Fault Int :=
  let text := (Text.slice? source start length).getD ""
  match Numeral.value? text.toList with
  | some n => if n ∈ w then .ok n else .error (.outOfRange start text)
  | none => .error (.outOfRange start text)

/-- The result of an operator, refused if there is none or if it is out of range. -/
def operatorValue (w : Width) (start : Nat) (op : Operator) (left right : Int) :
    Except Fault Int :=
  match op.result? left right with
  | some n => if n ∈ w then .ok n else .error (.overflow start op)
  | none => .error (.divisionByZero start)

/-- Executes one token. The head of the list is the top of the stack. -/
def step (w : Width) (source : String) (stack : List Int) : Token → Except Fault (List Int)
  | .operand start length =>
    match operandValue w source start length with
    | .ok n => .ok (n :: stack)
    | .error fault => .error fault
  | .operator start op =>
    match stack with
    | right :: left :: rest =>
      match operatorValue w start op left right with
      | .ok n => .ok (n :: rest)
      | .error fault => .error fault
    | _ => .error (.missingOperands start op)
  | .foreign start c => .error (.foreignChar start c)

/-- Executes tokens one after the other, up to the first that is refused. -/
def run (w : Width) (source : String) (stack : List Int) : List Token → Except Fault (List Int)
  | [] => .ok stack
  | token :: rest =>
    match step w source stack token with
    | .ok stack' => run w source stack' rest
    | .error fault => .error fault

/-- The value that a run leaves. -/
def outcome : List Int → Except Fault Int
  | [] => .error .noValue
  | [n] => .ok n
  | stack => .error (.leftover stack.length)

/-- Running two sequences of tokens is running the second on what the first leaves. -/
theorem run_append (w : Width) (source : String) (stack : List Int) (xs ys : List Token) :
    run w source stack (xs ++ ys) =
      match run w source stack xs with
      | .ok stack' => run w source stack' ys
      | .error fault => .error fault := by
  induction xs generalizing stack with
  | nil => rfl
  | cons token xs ih =>
    simp only [List.cons_append, run]
    cases step w source stack token with
    | ok stack' => exact ih stack'
    | error fault => rfl

variable {w : Width} {source : String} {stack stack' : List Int} {token : Token}
  {xs : List Token} {fault : Fault}

theorem run_append_of_ok (h : run w source stack xs = .ok stack') (ys : List Token) :
    run w source stack (xs ++ ys) = run w source stack' ys := by
  rw [run_append, h]

theorem run_append_of_error (h : run w source stack xs = .error fault) (ys : List Token) :
    run w source stack (xs ++ ys) = .error fault := by
  rw [run_append, h]

theorem run_cons_of_ok (h : step w source stack token = .ok stack') (tokens : List Token) :
    run w source stack (token :: tokens) = run w source stack' tokens := by
  rw [run, h]

theorem run_cons_of_error (h : step w source stack token = .error fault) (tokens : List Token) :
    run w source stack (token :: tokens) = .error fault := by
  rw [run, h]

end Machine

/-- The value of a program. -/
def Program.value (w : Width) (p : Program) : Except Fault Int :=
  match Machine.run w p.source [] p.tokens with
  | .ok stack => Machine.outcome stack
  | .error fault => .error fault

end StackCalc
