import StackCalc.Fault
import StackCalc.Text.Bytes
import StackCalc.Token.Stream

/-!
# Programs

A program is a text together with its tokens, in the order of the text. A text is a program if it
contains no foreign character; the first one refuses it, before anything is executed and whatever
else is wrong with the text.
-/

namespace StackCalc

/-- The fault that a token is by itself: that of a foreign character. -/
def Token.fault? : Token → Option Fault
  | .foreign start c => some (.foreignChar start c)
  | _ => none

/-- A text with the tokens that refer to it. -/
structure Program where
  source : String
  tokens : List Token
  deriving DecidableEq, Repr

namespace Program

/-- The tokens themselves, if none of them is a foreign character; otherwise the first fault. -/
def checkTokens (tokens : List Token) : Except Fault (List Token) :=
  match tokens.findSome? Token.fault? with
  | none => .ok tokens
  | some fault => .error fault

/-- The program that a text contains. -/
def ofString (source : String) : Except Fault Program :=
  match checkTokens (tokenize source.toList) with
  | .ok tokens => .ok ⟨source, tokens⟩
  | .error fault => .error fault

/-- The text at a byte range of the source. -/
def textAt? (p : Program) (start length : Nat) : Option String :=
  Text.slice? p.source start length

/-- The text that an operand token stands for; other tokens have none. -/
def operandText? (p : Program) : Token → Option String
  | .operand start length => p.textAt? start length
  | _ => none

theorem checkTokens_eq_ok_iff {tokens checked : List Token} :
    checkTokens tokens = .ok checked ↔ checked = tokens ∧ ∀ t ∈ tokens, t.fault? = none := by
  unfold checkTokens
  split
  next h =>
    rw [List.findSome?_eq_none_iff] at h
    exact ⟨fun heq => ⟨(Except.ok.inj heq).symm, h⟩, fun heq => by rw [heq.1]⟩
  next fault h =>
    refine ⟨fun heq => by simp at heq, fun heq => ?_⟩
    rw [List.findSome?_eq_none_iff.2 heq.2] at h
    simp at h

end Program

end StackCalc
