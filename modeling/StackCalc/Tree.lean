import StackCalc.Layout

/-!
# Expression trees

The expression that a text in postfix form denotes, as a tree of literals and operators, each with
its offset in the text. Written in postorder, operands before their operator and the left one first,
the tree gives back the lexemes of the text.
-/

namespace StackCalc

/-- An expression, with the offsets of its lexemes. -/
inductive Tree where
  | literal (start : Nat) (text : List Char)
  | node (start : Nat) (op : Operator) (left right : Tree)
  deriving DecidableEq, Repr

namespace Tree

/-- The lexemes in postorder, with their offsets. -/
def postorder : Tree → List (Nat × Lexeme)
  | literal start text => [(start, .number text)]
  | node start op left right => left.postorder ++ right.postorder ++ [(start, .operator op)]

/-- The tokens in postorder. -/
def tokens (t : Tree) : List Token := t.postorder.map fun (start, x) => x.token start

/-- The tree and all trees in it, in postorder. -/
def subtrees : Tree → List Tree
  | literal start text => [literal start text]
  | node start op left right => left.subtrees ++ right.subtrees ++ [node start op left right]

end Tree

end StackCalc
