import StackCalc.Proofs.Machine.Depth
import StackCalc.Proofs.Numeral.Value
import StackCalc.Proofs.Text.Ranges

/-!
# Steps in exact numbers

What a token makes of a stack does not depend on a width: an operand puts there the number that its
text denotes, and an operator what its operation gives for the two values on top (`ExactStep`). The
width only refuses a step whose new value is out of its range (`step_eq_ok_iff`). So two machines of
different widths do the same for as long as neither refuses a number.
-/

namespace StackCalc

/-- Whether the fault is a number that cannot be held: an operand's or that of a result. -/
def Fault.isRange : Fault → Bool
  | .outOfRange _ _ => true
  | .overflow _ _ => true
  | _ => false

namespace Machine

open Token

/-- What a token makes of a stack if numbers can have any size. The right operand of an operator is on
    top of the left one. -/
inductive ExactStep (source : String) : List Int → Token → List Int → Prop
  | operand {start length : Nat} {before text after : String} {n : Int} (stack : List Int)
      (hrange : Text.IsRange source start length before text after)
      (hdenotes : Numeral.Denotes text.toList n) :
      ExactStep source stack (.operand start length) (n :: stack)
  | operator (start : Nat) {op : Operator} {left right n : Int} (rest : List Int)
      (hresult : op.Gives left right n) :
      ExactStep source (right :: left :: rest) (.operator start op) (n :: rest)

variable {w w' : Width} {source text : String} {stack stack' stack'' : List Int}
  {token : Token} {fault : Fault} {start length : Nat} {op : Operator} {left right n : Int}

theorem operandValue_eq_ok_iff (h : (Text.slice? source start length).getD "" = text) :
    operandValue w source start length = .ok n ↔ Numeral.Denotes text.toList n ∧ n ∈ w := by
  constructor
  · intro hok
    obtain ⟨taken, hslice, hvalue, hn⟩ := operandValue_eq_ok hok
    rw [hslice, Option.getD_some] at h
    exact ⟨h ▸ Numeral.value?_eq_some_iff.1 hvalue, hn⟩
  · rintro ⟨hdenotes, hn⟩
    rw [operandValue, h]
    simp only [Numeral.value?_eq_some_iff.2 hdenotes, if_pos hn]

theorem operandValue_of_denotes (hslice : Text.slice? source start length = some text)
    (hdenotes : Numeral.Denotes text.toList n) (hn : n ∈ w) :
    operandValue w source start length = .ok n :=
  (operandValue_eq_ok_iff (by rw [hslice, Option.getD_some])).2 ⟨hdenotes, hn⟩

/-- What has no value is refused, and always for the same reason. -/
theorem operandValue_eq_error_iff (h : (Text.slice? source start length).getD "" = text) :
    operandValue w source start length = .error (.outOfRange start text) ↔
      ¬∃ n, Numeral.Denotes text.toList n ∧ n ∈ w := by
  simp only [← operandValue_eq_ok_iff h]
  cases hvalue : operandValue w source start length with
  | ok m => simp
  | error fault => simp [operandValue_eq_error hvalue, h]

theorem operatorValue_eq_ok_iff :
    operatorValue w start op left right = .ok n ↔ op.Gives left right n ∧ n ∈ w := by
  rw [← Operator.result?_eq_some_iff]
  constructor
  · exact operatorValue_eq_ok
  · rintro ⟨hresult, hn⟩
    rw [operatorValue]
    simp only [hresult, if_pos hn]

/-- An operator is refused for a divisor of zero, and for a result that is out of the range. -/
theorem operatorValue_eq_error_iff :
    operatorValue w start op left right = .error fault ↔
      (op = .div ∧ right = 0 ∧ fault = .divisionByZero start) ∨
        ∃ n, op.Gives left right n ∧ n ∉ w ∧ fault = .overflow start op := by
  simp only [← Operator.result?_eq_some_iff]
  rw [operatorValue]
  cases hresult : op.result? left right with
  | none =>
    obtain ⟨rfl, rfl⟩ := Operator.result?_eq_none_iff.1 hresult
    simp [eq_comm]
  | some m =>
    have hnonzero : ¬(op = .div ∧ right = 0) := by
      rw [← Operator.result?_eq_none_iff, hresult]
      exact Option.some_ne_none m
    by_cases hm : m ∈ w
    · simp [hm, ← and_assoc, hnonzero]
    · simp [hm, ← and_assoc, hnonzero, eq_comm]

/-- An exact step puts one value on what it leaves of the stack. -/
theorem ExactStep.exists_cons (h : ExactStep source stack token stack') :
    ∃ n rest, stack' = n :: rest ∧ rest <:+ stack := by
  cases h with
  | operand => exact ⟨_, _, rfl, List.suffix_refl stack⟩
  | @operator start op left right n rest _ =>
    exact ⟨n, rest, rfl, List.suffix_append [right, left] rest⟩

/-- A token makes one stack of another at most. -/
theorem ExactStep.unique (h : ExactStep source stack token stack')
    (h' : ExactStep source stack token stack'') : stack' = stack'' := by
  cases h with
  | operand _ hrange hdenotes =>
    cases h' with
    | operand _ hrange' hdenotes' =>
      obtain ⟨-, rfl, -⟩ := hrange.unique hrange'
      rw [hdenotes.unique hdenotes']
  | operator _ _ hresult =>
    cases h' with
    | operator _ _ hresult' => rw [hresult.unique hresult']

/-- A step is an exact step whose new value is in the range. -/
theorem step_eq_ok_iff :
    step w source stack token = .ok stack' ↔
      ExactStep source stack token stack' ∧ ∀ n ∈ stack'.head?, n ∈ w := by
  constructor
  · intro h
    rcases step_eq_ok h with
      ⟨start, length, n, rfl, hvalue, rfl⟩ | ⟨start, op, right, left, rest, n, rfl, rfl, hvalue, rfl⟩
    · obtain ⟨text, hslice, hnumber, hn⟩ := operandValue_eq_ok hvalue
      obtain ⟨before, after, hrange⟩ := Text.slice?_eq_some_iff_isRange.1 hslice
      exact ⟨.operand stack hrange (Numeral.value?_eq_some_iff.1 hnumber), by simpa using hn⟩
    · obtain ⟨hresult, hn⟩ := operatorValue_eq_ok_iff.1 hvalue
      exact ⟨.operator start rest hresult, by simpa using hn⟩
  · rintro ⟨h, hmem⟩
    cases h with
    | operand _ hrange hdenotes =>
      have hslice := Text.slice?_eq_some_iff_isRange.2 ⟨_, _, hrange⟩
      rw [step, operandValue_of_denotes hslice hdenotes (hmem _ rfl)]
    | operator start rest hresult =>
      simp only [step, operatorValue_eq_ok_iff.2 ⟨hresult, hmem _ rfl⟩]

theorem exactStep_of_step (h : step w source stack token = .ok stack') :
    ExactStep source stack token stack' :=
  (step_eq_ok_iff.1 h).1

/-- What overflows is the exact result of an operation on the two values on top. -/
theorem exists_result_of_step_eq_overflow
    (h : step w source stack token = .error (.overflow start op)) :
    ∃ right left rest n, stack = right :: left :: rest ∧ op.Gives left right n ∧ n ∉ w := by
  cases token with
  | operand here length => nomatch step_eq_error h
  | foreign here c => nomatch step_eq_error h
  | operator here op' =>
    rw [step.eq_def] at h
    rcases stack with - | ⟨right, - | ⟨left, rest⟩⟩
    · simp at h
    · simp at h
    · cases hvalue : operatorValue w here op' left right with
      | ok n => simp [hvalue] at h
      | error found =>
        simp only [hvalue, Except.error.injEq] at h
        rcases operatorValue_eq_error_iff.1 hvalue with
          ⟨-, -, hfound⟩ | ⟨n, hresult, hn, hfound⟩
        · simp [hfound] at h
        · obtain ⟨-, rfl⟩ := Fault.overflow.inj (hfound.symm.trans h)
          exact ⟨right, left, rest, n, rfl, hresult, hn⟩

/-- Only a number out of its range is refused by one width and not by another. -/
theorem step_eq_error_of_not_isRange (h : step w source stack token = .error fault)
    (hfault : fault.isRange = false) : step w' source stack token = .error fault := by
  cases token with
  | operand start length =>
    cases step_eq_error h with
    | outOfRange => simp [Fault.isRange] at hfault
  | operator start op =>
    rw [step.eq_def] at h
    rcases stack with - | ⟨right, - | ⟨left, rest⟩⟩
    · exact h
    · exact h
    · cases hvalue : operatorValue w start op left right with
      | ok n => simp [hvalue] at h
      | error found =>
        simp only [hvalue, Except.error.injEq] at h
        obtain rfl := h
        rcases operatorValue_eq_error_iff.1 hvalue with
          ⟨hdiv, hzero, hfound⟩ | ⟨_, _, _, rfl⟩
        · have hvalue' : operatorValue w' start op left right = .error found :=
            operatorValue_eq_error_iff.2 (.inl ⟨hdiv, hzero, hfound⟩)
          simp only [step, hvalue']
        · simp [Fault.isRange] at hfault
  | foreign start c => exact h

end Machine

end StackCalc
