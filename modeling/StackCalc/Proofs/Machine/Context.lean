import Mathlib.Data.List.Forall2
import StackCalc.Proofs.Machine.Depth

/-!
# Runs in a context

What tokens do to a stack depends neither on the values below those that they use
(`run_append_below`), nor on where they stand: tokens that stand elsewhere, in the same text or in
another one, and stand for the same there, leave the same stack or fail with the same fault at their
own place (`run_relocated`).
-/

namespace StackCalc

/-- The same fault, at a related place. -/
inductive Fault.Relocated (R : Nat → Nat → Prop) : Fault → Fault → Prop
  | foreignChar {i j : Nat} (place : R i j) (c : Char) :
      Fault.Relocated R (.foreignChar i c) (.foreignChar j c)
  | missingOperands {i j : Nat} (place : R i j) (op : Operator) :
      Fault.Relocated R (.missingOperands i op) (.missingOperands j op)
  | outOfRange {i j : Nat} (place : R i j) (text : String) :
      Fault.Relocated R (.outOfRange i text) (.outOfRange j text)
  | divisionByZero {i j : Nat} (place : R i j) :
      Fault.Relocated R (.divisionByZero i) (.divisionByZero j)
  | overflow {i j : Nat} (place : R i j) (op : Operator) :
      Fault.Relocated R (.overflow i op) (.overflow j op)
  | noValue : Fault.Relocated R .noValue .noValue
  | leftover (count : Nat) : Fault.Relocated R (.leftover count) (.leftover count)

/-- The same token, at a related place of another text. -/
inductive Token.Relocated (R : Nat → Nat → Prop) (source source' : String) : Token → Token → Prop
  | operand {i j length length' : Nat} (place : R i j)
      (text_eq : Text.slice? source i length = Text.slice? source' j length') :
      Token.Relocated R source source' (.operand i length) (.operand j length')
  | operator {i j : Nat} (place : R i j) (op : Operator) :
      Token.Relocated R source source' (.operator i op) (.operator j op)
  | foreign {i j : Nat} (place : R i j) (c : Char) :
      Token.Relocated R source source' (.foreign i c) (.foreign j c)

/-- The same result, or the same fault at a related place. -/
def Relocated {α : Type} (R : Nat → Nat → Prop) (x y : Except Fault α) : Prop :=
  (∃ a, x = .ok a ∧ y = .ok a) ∨
    ∃ fault fault', x = .error fault ∧ y = .error fault' ∧ fault.Relocated R fault'

variable {R : Nat → Nat → Prop}

theorem relocated_ok {α : Type} (a : α) : Relocated R (.ok a) (.ok a) := .inl ⟨a, rfl, rfl⟩

theorem Fault.Relocated.error {α : Type} {fault fault' : Fault} (h : fault.Relocated R fault') :
    StackCalc.Relocated (α := α) R (.error fault) (.error fault') :=
  .inr ⟨fault, fault', rfl, rfl, h⟩

namespace Machine

variable {w : Width} {source source' : String} {stack stack' : List Int} {token token' : Token}
  {tokens tokens' : List Token} {i j : Nat}

theorem step_append_below (h : step w source stack token = .ok stack') (below : List Int) :
    step w source (stack ++ below) token = .ok (stack' ++ below) := by
  rcases step_eq_ok h with
    ⟨start, length, n, rfl, hvalue, rfl⟩ | ⟨start, op, right, left, rest, n, rfl, rfl, hvalue, rfl⟩
  · rw [step, hvalue]
    rfl
  · simp only [List.cons_append, step, hvalue]

/-- What is below the values of a run stays where it is. -/
theorem run_append_below (h : run w source stack tokens = .ok stack') (below : List Int) :
    run w source (stack ++ below) tokens = .ok (stack' ++ below) := by
  induction tokens generalizing stack with
  | nil =>
    rw [run, Except.ok.injEq] at h
    rw [run, h]
  | cons token tokens ih =>
    cases hstep : step w source stack token with
    | error fault => simp [run_cons_of_error hstep] at h
    | ok next =>
      rw [run_cons_of_ok hstep] at h
      rw [run_cons_of_ok (step_append_below hstep below)]
      exact ih h

theorem operandValue_relocated (place : R i j) {length length' : Nat}
    (h : Text.slice? source i length = Text.slice? source' j length') :
    Relocated R (operandValue w source i length) (operandValue w source' j length') := by
  rw [operandValue, operandValue, h]
  cases Numeral.value? ((Text.slice? source' j length').getD "").toList with
  | none => exact (Fault.Relocated.outOfRange place _).error
  | some n =>
    by_cases hn : n ∈ w
    · simp only [if_pos hn]
      exact relocated_ok n
    · simp only [if_neg hn]
      exact (Fault.Relocated.outOfRange place _).error

theorem operatorValue_relocated (place : R i j) (op : Operator) (left right : Int) :
    Relocated R (operatorValue w i op left right) (operatorValue w j op left right) := by
  rw [operatorValue, operatorValue]
  cases op.result? left right with
  | none => exact (Fault.Relocated.divisionByZero place).error
  | some n =>
    by_cases hn : n ∈ w
    · simp only [if_pos hn]
      exact relocated_ok n
    · simp only [if_neg hn]
      exact (Fault.Relocated.overflow place op).error

theorem step_relocated (h : token.Relocated R source source' token') (stack : List Int) :
    Relocated R (step w source stack token) (step w source' stack token') := by
  cases h with
  | operand place text_eq =>
    rw [step, step]
    rcases operandValue_relocated (w := w) place text_eq with
      ⟨n, hvalue, hvalue'⟩ | ⟨fault, fault', hvalue, hvalue', hfault⟩
    · rw [hvalue, hvalue']
      exact relocated_ok (n :: stack)
    · rw [hvalue, hvalue']
      exact hfault.error
  | operator place op =>
    rcases stack with - | ⟨right, - | ⟨left, rest⟩⟩
    · exact (Fault.Relocated.missingOperands place op).error
    · exact (Fault.Relocated.missingOperands place op).error
    · simp only [step]
      rcases operatorValue_relocated (w := w) place op left right with
        ⟨n, hvalue, hvalue'⟩ | ⟨fault, fault', hvalue, hvalue', hfault⟩
      · rw [hvalue, hvalue']
        exact relocated_ok (n :: rest)
      · rw [hvalue, hvalue']
        exact hfault.error
  | foreign place c => exact (Fault.Relocated.foreignChar place c).error

/-- The induction is on the tokens: for as long as the machines go on, they have the same stack. -/
theorem run_relocated (h : List.Forall₂ (Token.Relocated R source source') tokens tokens')
    (stack : List Int) :
    Relocated R (run w source stack tokens) (run w source' stack tokens') := by
  induction h generalizing stack with
  | nil => exact relocated_ok stack
  | cons htoken _ ih =>
    rcases step_relocated (w := w) htoken stack with
      ⟨next, hstep, hstep'⟩ | ⟨fault, fault', hstep, hstep', hfault⟩
    · rw [run_cons_of_ok hstep, run_cons_of_ok hstep']
      exact ih next
    · rw [run_cons_of_error hstep, run_cons_of_error hstep']
      exact hfault.error

theorem outcome_relocated (stack : List Int) : Relocated R (outcome stack) (outcome stack) := by
  rcases stack with - | ⟨n, - | ⟨m, rest⟩⟩
  · exact Fault.Relocated.noValue.error
  · exact relocated_ok n
  · exact (Fault.Relocated.leftover _).error

end Machine

end StackCalc
