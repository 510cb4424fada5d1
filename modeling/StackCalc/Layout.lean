import StackCalc.Lookahead.Reading
import StackCalc.Numeral
import StackCalc.Text.Bytes
import StackCalc.Token.Basic

/-!
# Layouts

A layout says how a program is written down: its lexemes in order, the blanks before each of them
and those after the last. It has a text and, independently of how texts are read, the offset of each
lexeme in it. In a well-formed layout the lexemes do not run into each other: two of them need a
blank between them where the second starts with a digit that would otherwise belong to the first, as
a digit of the same number or as one that turns a minus into a sign.
-/

namespace StackCalc

/-- A number as a program writes it, or an operator. -/
inductive Lexeme where
  | number (text : List Char)
  | operator (op : Operator)
  deriving DecidableEq, Repr

namespace Lexeme

/-- The characters that are written. -/
def chars : Lexeme → List Char
  | number text => text
  | operator op => [op.symbol]

/-- Whether a number is written in the way of a program. -/
def IsWritten : Lexeme → Prop
  | number text => Numeral.IsLiteral text
  | operator _ => True

instance : (x : Lexeme) → Decidable x.IsWritten
  | number text => inferInstanceAs (Decidable (Numeral.IsLiteral text))
  | operator _ => isTrue trivial

/-- Whether a digit directly behind would become a part of the number, or the minus its sign. -/
def takesDigit : Lexeme → Bool
  | number _ => true
  | operator op => op == .sub

/-- Whether the first character is a digit. -/
def startsWithDigit (x : Lexeme) : Bool := x.chars.head?.any Char.isDigit

/-- The token of a lexeme that is at a given offset. -/
def token (start : Nat) : Lexeme → Token
  | number text => .operand start (Text.byteLength text)
  | operator op => .operator start op

end Lexeme

/-- Lexemes with blanks around them. -/
structure Layout where
  /-- Each lexeme with the blanks before it. -/
  items : List (List Char × Lexeme)
  /-- The blanks after the last lexeme. -/
  trailing : List Char
  deriving DecidableEq, Repr

namespace Layout

/-- The characters that are written. -/
def chars (l : Layout) : List Char :=
  l.items.flatMap (fun (gap, x) => gap ++ x.chars) ++ l.trailing

/-- The text of a layout. -/
def text (l : Layout) : String := String.ofList l.chars

/-- The lexemes with their offsets, where the first gap starts at `start`. -/
def placeFrom (start : Nat) : List (List Char × Lexeme) → List (Nat × Lexeme)
  | [] => []
  | (gap, x) :: rest =>
    let here := start + Text.byteLength gap
    (here, x) :: placeFrom (here + Text.byteLength x.chars) rest

/-- The lexemes with their offsets in the text. -/
def placed (l : Layout) : List (Nat × Lexeme) := placeFrom 0 l.items

/-- The tokens of the lexemes. -/
def tokens (l : Layout) : List Token := l.placed.map fun (start, x) => x.token start

/-- Whether no lexeme runs into the next one. -/
def IsSeparated : List (List Char × Lexeme) → Prop
  | [] => True
  | (_, x) :: rest =>
    (∀ gap y, rest.head? = some (gap, y) → gap = [] →
      ¬(x.takesDigit = true ∧ y.startsWithDigit = true)) ∧ IsSeparated rest

/-- Whether the layout is a way to write down a program. -/
structure WellFormed (l : Layout) : Prop where
  gaps_blank : ∀ item ∈ l.items, ∀ c ∈ item.1, isBlank c = true
  trailing_blank : ∀ c ∈ l.trailing, isBlank c = true
  written : ∀ item ∈ l.items, item.2.IsWritten
  separated : IsSeparated l.items

theorem isSeparated_cons_iff {gap : List Char} {x : Lexeme} {rest : List (List Char × Lexeme)} :
    IsSeparated ((gap, x) :: rest) ↔
      (∀ item ∈ rest.head?, item.1 = [] → ¬(x.takesDigit = true ∧ item.2.startsWithDigit = true)) ∧
        IsSeparated rest := by
  rw [IsSeparated]
  constructor
  · rintro ⟨hnext, hrest⟩
    exact ⟨fun item hitem => hnext item.1 item.2 hitem, hrest⟩
  · rintro ⟨hnext, hrest⟩
    exact ⟨fun gap y hitem => hnext (gap, y) hitem, hrest⟩

instance decidableIsSeparated :
    (items : List (List Char × Lexeme)) → Decidable (IsSeparated items)
  | [] => isTrue trivial
  | (_, _) :: rest =>
    have := decidableIsSeparated rest
    decidable_of_iff _ isSeparated_cons_iff.symm

instance (l : Layout) : Decidable l.WellFormed :=
  decidable_of_iff
    ((∀ item ∈ l.items, item.1.all isBlank = true) ∧ l.trailing.all isBlank = true ∧
      (∀ item ∈ l.items, item.2.IsWritten) ∧ IsSeparated l.items)
    ⟨fun ⟨gaps, trailing, written, separated⟩ =>
        ⟨fun item hitem => List.all_eq_true.1 (gaps item hitem), List.all_eq_true.1 trailing,
          written, separated⟩,
      fun h => ⟨fun item hitem => List.all_eq_true.2 (h.gaps_blank item hitem),
        List.all_eq_true.2 h.trailing_blank, h.written, h.separated⟩⟩

end Layout

end StackCalc
