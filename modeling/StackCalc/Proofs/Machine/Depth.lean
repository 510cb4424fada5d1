import StackCalc.Proofs.Program.Acceptance

/-!
# How a run ends

The number of values on the stack is the number of operands minus the number of operators that were
executed (`depth_of_run_eq_ok`). So the tokens alone decide which operators lack values, when nothing
is left at the end and when too much is; only the numbers decide the rest. The first token that
cannot be executed settles the outcome (`run_eq_error_iff`).
-/

namespace StackCalc

namespace Token

def isOperand : Token → Bool
  | operand _ _ => true
  | _ => false

def isOperator : Token → Bool
  | operator _ _ => true
  | _ => false

/-- How many operands there are more than operators. -/
def depth (tokens : List Token) : Int :=
  (tokens.countP isOperand : Int) - (tokens.countP isOperator : Int)

theorem depth_nil : depth [] = 0 := rfl

theorem depth_append (xs ys : List Token) : depth (xs ++ ys) = depth xs + depth ys := by
  simp only [depth, List.countP_append, Int.natCast_add]
  omega

theorem depth_cons (token : Token) (tokens : List Token) :
    depth (token :: tokens) = depth [token] + depth tokens :=
  depth_append [token] tokens

end Token

namespace Machine

open Token

/-- The faults that a token can end a run with where `d` values are on the stack. -/
inductive CanFail (source : String) (d : Int) : Token → Fault → Prop
  | foreignChar (start : Nat) (c : Char) : CanFail source d (.foreign start c) (.foreignChar start c)
  | outOfRange (start length : Nat) :
      CanFail source d (.operand start length)
        (.outOfRange start ((Text.slice? source start length).getD ""))
  | missingOperands (start : Nat) (op : Operator) (lacking : d < 2) :
      CanFail source d (.operator start op) (.missingOperands start op)
  | divisionByZero (start : Nat) (enough : 2 ≤ d) :
      CanFail source d (.operator start .div) (.divisionByZero start)
  | overflow (start : Nat) (op : Operator) (enough : 2 ≤ d) :
      CanFail source d (.operator start op) (.overflow start op)

variable {w : Width} {source : String} {stack stack' : List Int} {token : Token}
  {tokens : List Token} {fault : Fault}

/-- A fault of a token is at the offset of the token. -/
theorem CanFail.position?_eq {d : Int} (h : CanFail source d token fault) :
    fault.position? = some token.start := by
  cases h <;> rfl

theorem operandValue_eq_error {start length : Nat}
    (h : operandValue w source start length = .error fault) :
    fault = .outOfRange start ((Text.slice? source start length).getD "") := by
  unfold operandValue at h
  cases hvalue : Numeral.value? ((Text.slice? source start length).getD "").toList with
  | none =>
    simp only [hvalue, Except.error.injEq] at h
    exact h.symm
  | some n =>
    simp only [hvalue] at h
    split at h
    next => simp at h
    next => exact (Except.error.inj h).symm

theorem operatorValue_eq_error {start : Nat} {op : Operator} {left right : Int}
    (h : operatorValue w start op left right = .error fault) :
    (op = .div ∧ fault = .divisionByZero start) ∨ fault = .overflow start op := by
  unfold operatorValue at h
  cases hresult : op.result? left right with
  | none =>
    simp only [hresult, Except.error.injEq] at h
    exact .inl ⟨(Operator.result?_eq_none_iff.1 hresult).1, h.symm⟩
  | some n =>
    simp only [hresult] at h
    split at h
    next => simp at h
    next => exact .inr (Except.error.inj h).symm

theorem operandValue_eq_ok {start length : Nat} {n : Int}
    (h : operandValue w source start length = .ok n) :
    ∃ text, Text.slice? source start length = some text ∧
      Numeral.value? text.toList = some n ∧ n ∈ w := by
  unfold operandValue at h
  cases hslice : Text.slice? source start length with
  | none =>
    rw [hslice, Option.getD_none] at h
    exact absurd h (by simp [Numeral.value?, Numeral.magnitude?, Numeral.IsDigits])
  | some text =>
    rw [hslice, Option.getD_some] at h
    cases hvalue : Numeral.value? text.toList with
    | none => simp [hvalue] at h
    | some m =>
      simp only [hvalue] at h
      split at h
      next hm =>
        obtain rfl := Except.ok.inj h
        exact ⟨text, rfl, hvalue, hm⟩
      next => simp at h

theorem operatorValue_eq_ok {start : Nat} {op : Operator} {left right n : Int}
    (h : operatorValue w start op left right = .ok n) :
    op.result? left right = some n ∧ n ∈ w := by
  unfold operatorValue at h
  cases hresult : op.result? left right with
  | none => simp [hresult] at h
  | some m =>
    simp only [hresult] at h
    split at h
    next hm =>
      obtain rfl := Except.ok.inj h
      exact ⟨rfl, hm⟩
    next => simp at h

/-- All that a token can do when it is executed. -/
theorem step_eq_ok (h : step w source stack token = .ok stack') :
    (∃ start length n, token = .operand start length ∧
      operandValue w source start length = .ok n ∧ stack' = n :: stack) ∨
    ∃ start op right left rest n, token = .operator start op ∧ stack = right :: left :: rest ∧
      operatorValue w start op left right = .ok n ∧ stack' = n :: rest := by
  cases token with
  | operand start length =>
    rw [step] at h
    cases hvalue : operandValue w source start length with
    | error fault => simp [hvalue] at h
    | ok n =>
      simp only [hvalue, Except.ok.injEq] at h
      exact .inl ⟨start, length, n, rfl, hvalue, h.symm⟩
  | operator start op =>
    rw [step.eq_def] at h
    rcases stack with - | ⟨right, - | ⟨left, rest⟩⟩
    · simp at h
    · simp at h
    · cases hvalue : operatorValue w start op left right with
      | error fault => simp [hvalue] at h
      | ok n =>
        simp only [hvalue, Except.ok.injEq] at h
        exact .inr ⟨start, op, right, left, rest, n, rfl, rfl, hvalue, h.symm⟩
  | foreign start c => simp [step] at h

theorem step_eq_error (h : step w source stack token = .error fault) :
    CanFail source stack.length token fault := by
  cases token with
  | operand start length =>
    rw [step] at h
    cases hvalue : operandValue w source start length with
    | ok n => simp [hvalue] at h
    | error fault' =>
      simp only [hvalue, Except.error.injEq] at h
      rw [← h, operandValue_eq_error hvalue]
      exact .outOfRange start length
  | operator start op =>
    rw [step.eq_def] at h
    rcases stack with - | ⟨right, - | ⟨left, rest⟩⟩
    · obtain rfl := Except.error.inj h
      exact .missingOperands start op (by simp)
    · obtain rfl := Except.error.inj h
      exact .missingOperands start op (by simp)
    · have enough : (2 : Int) ≤ (right :: left :: rest).length := by
        simp only [List.length_cons]
        omega
      cases hvalue : operatorValue w start op left right with
      | ok n => simp [hvalue] at h
      | error fault' =>
        simp only [hvalue, Except.error.injEq] at h
        subst h
        rcases operatorValue_eq_error hvalue with ⟨rfl, rfl⟩ | rfl
        · exact .divisionByZero start enough
        · exact .overflow start op enough
  | foreign start c =>
    obtain rfl := Except.error.inj h
    exact .foreignChar start c

theorem depth_of_step_eq_ok (h : step w source stack token = .ok stack') :
    (stack'.length : Int) = stack.length + depth [token] ∧ stack' ≠ [] := by
  rcases step_eq_ok h with
    ⟨start, length, n, rfl, -, rfl⟩ | ⟨start, op, right, left, rest, n, rfl, rfl, -, rfl⟩
  · have hdepth : depth [.operand start length] = 1 := rfl
    refine ⟨?_, List.cons_ne_nil _ _⟩
    rw [hdepth, List.length_cons, Int.natCast_add]
    rfl
  · have hdepth : depth [.operator start op] = -1 := rfl
    refine ⟨?_, List.cons_ne_nil _ _⟩
    simp only [hdepth, List.length_cons]
    omega

/-- The stack counts the operands and operators that were executed. -/
theorem depth_of_run_eq_ok (h : run w source stack tokens = .ok stack') :
    (stack'.length : Int) = stack.length + depth tokens := by
  induction tokens generalizing stack with
  | nil =>
    obtain rfl := Except.ok.inj h
    rw [depth_nil, Int.add_zero]
  | cons token tokens ih =>
    cases hstep : step w source stack token with
    | error fault => simp [run_cons_of_error hstep] at h
    | ok next =>
      rw [run_cons_of_ok hstep] at h
      have hnext := (depth_of_step_eq_ok hstep).1
      have hrest := ih h
      rw [depth_cons]
      omega

theorem run_ne_nil (htokens : tokens ≠ []) (h : run w source stack tokens = .ok stack') :
    stack' ≠ [] := by
  induction tokens generalizing stack with
  | nil => exact absurd rfl htokens
  | cons token tokens ih =>
    cases hstep : step w source stack token with
    | error fault => simp [run_cons_of_error hstep] at h
    | ok next =>
      rw [run_cons_of_ok hstep] at h
      cases tokens with
      | nil =>
        obtain rfl := Except.ok.inj h
        exact (depth_of_step_eq_ok hstep).2
      | cons token' tokens => exact ih (List.cons_ne_nil _ _) h

/-- A run fails exactly with the fault of the first token that cannot be executed. -/
theorem run_eq_error_iff :
    run w source stack tokens = .error fault ↔
      ∃ before token after reached, tokens = before ++ token :: after ∧
        run w source stack before = .ok reached ∧
        step w source reached token = .error fault := by
  constructor
  · intro h
    induction tokens generalizing stack with
    | nil => simp [run] at h
    | cons token tokens ih =>
      cases hstep : step w source stack token with
      | error fault' =>
        rw [run_cons_of_error hstep] at h
        exact ⟨[], token, tokens, stack, rfl, rfl, hstep.trans h⟩
      | ok next =>
        rw [run_cons_of_ok hstep] at h
        obtain ⟨before, failing, after, reached, rfl, hbefore, hfailing⟩ := ih h
        exact ⟨token :: before, failing, after, reached, rfl,
          (run_cons_of_ok hstep before).trans hbefore, hfailing⟩
  · rintro ⟨before, token, after, reached, rfl, hbefore, hfailing⟩
    rw [run_append_of_ok hbefore]
    exact run_cons_of_error hfailing after

/-- What runs to its end has run through each of its beginnings. -/
theorem exists_run_prefix {before after : List Token}
    (h : run w source stack (before ++ after) = .ok stack') :
    ∃ reached, run w source stack before = .ok reached := by
  rw [run_append] at h
  cases hbefore : run w source stack before with
  | ok reached => exact ⟨reached, rfl⟩
  | error fault => simp [hbefore] at h

theorem outcome_eq_noValue_iff : outcome stack = .error .noValue ↔ stack = [] := by
  rcases stack with - | ⟨n, - | ⟨m, rest⟩⟩ <;> simp [outcome]

theorem outcome_eq_ok_iff {n : Int} : outcome stack = .ok n ↔ stack = [n] := by
  rcases stack with - | ⟨m, - | ⟨m', rest⟩⟩ <;> simp [outcome]

theorem outcome_isOk_iff : (∃ n, outcome stack = .ok n) ↔ stack.length = 1 := by
  rcases stack with - | ⟨n, - | ⟨m, rest⟩⟩ <;> simp [outcome]

theorem outcome_of_two_le (h : 2 ≤ stack.length) :
    outcome stack = .error (.leftover stack.length) := by
  rcases stack with - | ⟨n, - | ⟨m, rest⟩⟩
  · simp at h
  · simp at h
  · rfl

end Machine

end StackCalc
