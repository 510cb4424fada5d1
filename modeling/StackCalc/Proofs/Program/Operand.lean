import StackCalc.Proofs.Machine.Exact
import StackCalc.Proofs.Program.Substitution

/-!
# What an operand stands for

An operand is executed by reading the text of its range, or the empty text if the range is no part of
the source. It has a value exactly if this text denotes a number in the range of the calculator, and
is refused with this text otherwise (`operandValue_eq_ok_iff`, `operandValue_eq_error_iff`). The
operands that are found in a text always denote a number, so only its size can be a reason to refuse
one (`exists_denotes_of_operand_mem`).
-/

namespace StackCalc

variable {w : Width} {source text : String} {start length : Nat} {n : Int} {p : Program}

namespace Machine

/-- An operand whose text denotes a number is executed unless the number is out of range. -/
theorem step_operand_of_denotes (hslice : Text.slice? source start length = some text)
    (hdenotes : Numeral.Denotes text.toList n) (stack : List Int) :
    step w source stack (.operand start length) =
      if n ∈ w then .ok (n :: stack) else .error (.outOfRange start text) := by
  rw [step, operandValue, hslice, Option.getD_some]
  simp only [Numeral.value?_eq_some_iff.2 hdenotes]
  by_cases hn : n ∈ w
  · simp only [if_pos hn]
  · simp only [if_neg hn]

end Machine

namespace Program

/-- The value of a program that is a single operand. -/
theorem value_of_tokens_eq_operand (h : p.tokens = [.operand start length]) :
    p.value w = Machine.operandValue w p.source start length := by
  rw [value, h, Machine.run, Machine.step]
  cases Machine.operandValue w p.source start length <;> rfl

theorem exists_denotes_of_operand_mem (hp : ofString source = .ok p)
    (h : .operand start length ∈ p.tokens) :
    ∃ text n, p.textAt? start length = some text ∧ Numeral.IsLiteral text.toList ∧
      Numeral.Denotes text.toList n := by
  obtain ⟨rfl, -⟩ := ofString_eq_ok_iff.1 hp
  obtain ⟨cs, hliteral, hslice⟩ := exists_literal_of_operand_mem h
  obtain ⟨n, hdenotes⟩ := hliteral.exists_denotes
  rw [← String.toList_ofList (l := cs)] at hliteral hdenotes
  exact ⟨String.ofList cs, n, hslice, hliteral, hdenotes⟩

/-- A single operand has as its value the number that its text denotes, whatever the length of the
    text, and none if the text denotes no number or one outside the range; it is then refused with its
    text as it stands. The operands of a text that is read as a program are literals, which are refused
    for their size alone. The decimal form of a number in the range has the number as its value. -/
theorem operands_read_exactly (w : Width) :
    (∀ (p : Program) start length text, p.tokens = [.operand start length] →
      (p.textAt? start length).getD "" = text →
      (∀ n, p.value w = .ok n ↔ Numeral.Denotes text.toList n ∧ n ∈ w) ∧
      (p.value w = .error (.outOfRange start text) ↔
        ¬∃ n, Numeral.Denotes text.toList n ∧ n ∈ w)) ∧
    (∀ source p start length, ofString source = .ok p → .operand start length ∈ p.tokens →
      ∃ text n, p.textAt? start length = some text ∧ Numeral.IsLiteral text.toList ∧
        Numeral.Denotes text.toList n ∧ ∀ stack,
          Machine.step w p.source stack (.operand start length) =
            if n ∈ w then .ok (n :: stack) else .error (.outOfRange start text)) ∧
    (∀ n ∈ w, calculate w (String.ofList (Numeral.decimal n)) = .ok n) := by
  refine ⟨?_, ?_, ?_⟩
  · intro p start length text htokens htext
    rw [value_of_tokens_eq_operand htokens]
    exact ⟨fun n => Machine.operandValue_eq_ok_iff htext, Machine.operandValue_eq_error_iff htext⟩
  · intro source p start length hp hmem
    obtain ⟨text, n, htext, hliteral, hdenotes⟩ := exists_denotes_of_operand_mem hp hmem
    exact ⟨text, n, htext, hliteral, hdenotes, Machine.step_operand_of_denotes htext hdenotes⟩
  · intro n hn
    exact calculate_literal (Numeral.isLiteral_decimal n) (Numeral.value?_decimal n) hn

/-- Operands that are not taken from a text: a plus sign and zeros in front are read, and a range that
    cuts a character in two counts as the empty text. -/
example :
    (Program.mk "+007" [.operand 0 4]).value .bits32 = .ok 7 ∧
    (Program.mk "é" [.operand 1 1]).value .bits32 = .error (.outOfRange 1 "") := by decide +kernel

end Program

end StackCalc
