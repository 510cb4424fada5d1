/-!
# Operators

The four operations of the calculator, with the symbol that a text writes for each and the exact
result on integers. Division drops the fraction, so it rounds toward zero; it has no result where
the divisor is zero, and that is the only case without one. Which result is the right one is said
apart from the function that finds it (`Gives`, `result?_eq_some_iff`).
-/

namespace StackCalc

/-- A binary operation on integers. -/
inductive Operator where
  | add
  | sub
  | mul
  | div
  deriving DecidableEq, Repr

namespace Operator

/-- The character that a text writes for the operation. -/
def symbol : Operator → Char
  | add => '+'
  | sub => '-'
  | mul => '*'
  | div => '/'

/-- The operation that a character stands for. -/
def ofSymbol? : Char → Option Operator
  | '+' => some add
  | '-' => some sub
  | '*' => some mul
  | '/' => some div
  | _ => none

/-- The name that a journal gives the operation. -/
def name : Operator → String
  | add => "Add"
  | sub => "Sub"
  | mul => "Mul"
  | div => "Div"

/-- The exact result of the operation; a division by zero has none. -/
def result? (op : Operator) (left right : Int) : Option Int :=
  match op with
  | add => some (left + right)
  | sub => some (left - right)
  | mul => some (left * right)
  | div => if right = 0 then none else some (left.tdiv right)

/-- The exact arithmetic of the operations: which result two operands give, the left one first. -/
inductive Gives : Operator → Int → Int → Int → Prop
  | add (left right : Int) : Gives .add left right (left + right)
  | sub (left right : Int) : Gives .sub left right (left - right)
  | mul (left right : Int) : Gives .mul left right (left * right)
  | div (left : Int) {right : Int} (nonzero : right ≠ 0) : Gives .div left right (left.tdiv right)

@[simp] theorem ofSymbol?_symbol (op : Operator) : ofSymbol? op.symbol = some op := by
  cases op <;> rfl

/-- A character stands for an operation exactly when it is that operation's symbol. -/
theorem ofSymbol?_eq_some_iff {c : Char} {op : Operator} :
    ofSymbol? c = some op ↔ c = op.symbol := by
  constructor
  · intro h
    unfold ofSymbol? at h
    split at h <;> simp_all [symbol] <;> cases h <;> rfl
  · rintro rfl
    exact ofSymbol?_symbol op

theorem result?_eq_none_iff {op : Operator} {left right : Int} :
    op.result? left right = none ↔ op = div ∧ right = 0 := by
  cases op <;> simp [result?]

/-- The function finds the result that the operands give, and no other. -/
theorem result?_eq_some_iff {op : Operator} {left right n : Int} :
    op.result? left right = some n ↔ op.Gives left right n := by
  constructor
  · intro h
    cases op with
    | add =>
      obtain rfl := Option.some.inj h
      exact .add left right
    | sub =>
      obtain rfl := Option.some.inj h
      exact .sub left right
    | mul =>
      obtain rfl := Option.some.inj h
      exact .mul left right
    | div =>
      by_cases hzero : right = 0
      · simp [result?, hzero] at h
      · simp only [result?, if_neg hzero, Option.some.injEq] at h
        exact h ▸ .div left hzero
  · intro h
    cases h with
    | add => rfl
    | sub => rfl
    | mul => rfl
    | div _ hzero => rw [result?, if_neg hzero]

theorem Gives.unique {op : Operator} {left right n m : Int} (hn : op.Gives left right n)
    (hm : op.Gives left right m) : n = m := by
  cases hn <;> cases hm <;> rfl

end Operator

end StackCalc
