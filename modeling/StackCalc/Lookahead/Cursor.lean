import StackCalc.Lookahead.Command
import StackCalc.Numeral

/-!
# A cursor without a buffer

What a reader does, said without reading ahead: all of the remaining text is at hand, a position in
it is a number, and the longest run in front is what `List.takeWhile` takes. There is nothing to
fill and nothing to give back.
-/

namespace StackCalc

/-- The digits in front, together with a minus sign before them, if there is a digit. -/
def Numeral.literalInFront : List Char → List Char
  | '-' :: rest =>
    match rest.takeWhile Char.isDigit with
    | [] => []
    | digits => '-' :: digits
  | cs => cs.takeWhile Char.isDigit

/-- A place in a text. -/
structure Cursor where
  /-- The text that is still to be handed out. -/
  rest : List Char
  /-- How many characters of it the cursor has passed; one more than there are means that it is past
      the end. -/
  passed : Nat
  /-- How many characters were handed out. -/
  offset : Nat
  deriving DecidableEq, Repr

namespace Cursor

/-- The cursor at the start of a text. -/
def ofList (text : List Char) : Cursor := ⟨text, 0, 0⟩

/-- Index of the character that the cursor is on: -1 before the first one, the length of the text
    past the last one. -/
def position (s : Cursor) : Int := (s.passed : Int) - 1

/-- The characters after the one that the cursor is on. -/
def ahead (s : Cursor) : List Char := s.rest.drop s.passed

/-- The character that the cursor is on, if it is on one. -/
def current (s : Cursor) : Option Char :=
  match s.passed with
  | 0 => none
  | n + 1 => s.rest[n]?

/-- Moves `n` characters on, at most to the place past the end. -/
def advance (s : Cursor) (n : Nat) : Cursor :=
  { s with passed := min (s.passed + n) (s.rest.length + 1) }

/-- Moves to a position of the text. -/
def setPosition (s : Cursor) (p : Int) : Bool × Cursor :=
  if -1 ≤ p ∧ p ≤ s.rest.length then (true, { s with passed := (p + 1).toNat }) else (false, s)

/-- Hands out the characters that the cursor has passed. -/
def consume (s : Cursor) : List Char × Cursor :=
  (s.rest.take s.passed,
    ⟨s.rest.drop s.passed, 0, s.offset + min s.passed s.rest.length⟩)

/-- Steps onto the character in front if it is a wanted one. -/
def acceptIf (s : Cursor) (wanted : Char → Bool) : Option Char × Cursor :=
  match s.ahead with
  | c :: _ => if wanted c then (some c, s.advance 1) else (none, s)
  | [] => (none, s)

/-- Steps over the longest run of wanted characters and tells whether it has any. -/
def skipWhile (s : Cursor) (wanted : Char → Bool) : Bool × Cursor :=
  let run := s.ahead.takeWhile wanted
  (!run.isEmpty, s.advance run.length)

/-- Drops everything up to the end of the blanks in front and tells whether there were any. -/
def skipBlanks (s : Cursor) : Bool × Cursor :=
  ((s.skipWhile isBlank).1, (s.skipWhile isBlank).2.consume.2)

/-- Hands out everything up to the end of the number in front, if there is one. -/
def readNumber (s : Cursor) : Option String × Cursor :=
  match Numeral.literalInFront s.ahead with
  | [] => (none, s)
  | literal =>
    let (taken, after) := (s.advance literal.length).consume
    (some (String.ofList taken), after)

/-- Takes out the operator in front, if there is one. -/
def readOperator (s : Cursor) : Option Operator × Cursor :=
  match s.ahead.head?.bind Operator.ofSymbol? with
  | some op => (some op, (s.advance 1).consume.2)
  | none => (none, s)

open Lookahead in
/-- Carries out a reader's command. -/
def run (s : Cursor) : Command → Reply × Cursor
  | .next => (.char (s.advance 1).current, s.advance 1)
  | .current => (.char s.current, s)
  | .offset => (.offset s.offset, s)
  | .position => (.position s.position, s)
  | .setPosition p => (.truth (s.setPosition p).1, (s.setPosition p).2)
  | .consume => (.chars s.consume.1, s.consume.2)
  | .consumeString => (.text (String.ofList s.consume.1), s.consume.2)
  | .skipBlanks => (.truth s.skipBlanks.1, s.skipBlanks.2)
  | .readNumber => (.number s.readNumber.1, s.readNumber.2)
  | .readOperator => (.operator s.readOperator.1, s.readOperator.2)
  | .accept c => (.char (s.acceptIf (· == c)).1, (s.acceptIf (· == c)).2)
  | .acceptOneOf set => (.char (s.acceptIf set.contains).1, (s.acceptIf set.contains).2)
  | .skipManyOf set => (.truth (s.skipWhile set.contains).1, (s.skipWhile set.contains).2)

open Lookahead in
/-- The reply to each command of a sequence, with the state after it. -/
def runAll (s : Cursor) : List Command → List (Reply × Cursor)
  | [] => []
  | command :: rest => s.run command :: runAll (s.run command).2 rest

end Cursor

/-- The place of a reader, whatever it has looked at. -/
def Lookahead.toCursor (s : Lookahead) : Cursor := ⟨s.remaining, s.cursor, s.offset⟩

end StackCalc
