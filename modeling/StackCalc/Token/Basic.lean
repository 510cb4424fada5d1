import StackCalc.Operator
import StackCalc.Text.Quoted

/-!
# Tokens

A token says what stands at a place of a text: an operand by its extent alone, so that its digits
are read only when it is executed; an operator; or a character that is neither. A journal names a
token by `Token.describeWith`.
-/

namespace StackCalc

/-- An item of a program's text, with the offset where it starts. -/
inductive Token where
  | operand (start length : Nat)
  | operator (start : Nat) (op : Operator)
  | foreign (start : Nat) (c : Char)
  deriving DecidableEq, Repr

namespace Token

/-- The offset where the token starts. -/
def start : Token → Nat
  | operand start _ => start
  | operator start _ => start
  | foreign start _ => start

/-- The number of bytes that the token extends over. -/
def length : Token → Nat
  | operand _ length => length
  | operator _ _ => 1
  | foreign _ c => c.utf8Size

/-- Whether the token is a character that no program may contain. -/
def isForeign : Token → Bool
  | foreign _ _ => true
  | _ => false

/-- The parts of a token between braces. -/
def braced (parts : String) : String :=
  String.singleton '{' ++ " " ++ parts ++ " " ++ String.singleton '}'

/-- A token as a journal shows it, where `hidden` characters are given by code point. -/
def describeWith (hidden : Char → Bool) : Token → String
  | operand start length =>
    "Operand " ++ braced ("from: " ++ Nat.repr start ++ ", len: " ++ Nat.repr length)
  | operator start op =>
    "Operator " ++ braced ("at: " ++ Nat.repr start ++ ", op: " ++ op.name)
  | foreign start c =>
    "Unknown " ++ braced ("at: " ++ Nat.repr start ++ ", lexeme: " ++
      String.ofList (Text.quoted hidden '\'' [c]))

end Token

end StackCalc
