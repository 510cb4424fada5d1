import StackCalc.Machine

/-!
# The calculator

`calculate` is the whole way from a text to its value or to the reason for having none;
`calculate?` keeps only the value.
-/

namespace StackCalc

/-- The value of a text in postfix form. -/
def calculate (w : Width) (text : String) : Except Fault Int :=
  match Program.ofString text with
  | .ok program => program.value w
  | .error fault => .error fault

/-- The value of a text in postfix form, if it has one. -/
def calculate? (w : Width) (text : String) : Option Int := (calculate w text).toOption

theorem calculate?_eq_some_iff {w : Width} {text : String} {n : Int} :
    calculate? w text = some n ↔ calculate w text = .ok n := by
  unfold calculate?
  cases calculate w text <;> simp [Except.toOption]

end StackCalc
