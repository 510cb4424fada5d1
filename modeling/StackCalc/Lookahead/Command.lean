import StackCalc.Lookahead.Reading

/-!
# Reading by commands

Everything that can be asked of a reader, as data, so that a sequence of requests is a list. Each
command gives a reply and leaves the reader in a new state; `Command.taken` is the part of the text
that the command takes out for good, also where its reply does not show it. `offset_run` and
`taken_append_remaining_run` say that the commands take the text out in order, without loss, and
count it.
-/

namespace StackCalc.Lookahead

/-- A request to a reader. -/
inductive Command where
  | next
  | current
  | offset
  | position
  | setPosition (p : Int)
  | consume
  | consumeString
  | skipBlanks
  | readNumber
  | readOperator
  | accept (c : Char)
  | acceptOneOf (set : List Char)
  | skipManyOf (set : List Char)
  deriving DecidableEq, Repr

/-- What a reader answers. -/
inductive Reply where
  | char (c : Option Char)
  | operator (op : Option Operator)
  | number (text : Option String)
  | chars (cs : List Char)
  | text (text : String)
  | truth (b : Bool)
  | offset (n : Nat)
  | position (p : Int)
  deriving DecidableEq, Repr

namespace Command

/-- Carries out one command. -/
def run (s : Lookahead) : Command → Reply × Lookahead
  | next => (.char s.next.1, s.next.2)
  | current => (.char s.current, s)
  | offset => (.offset s.offset, s)
  | position => (.position s.position, s)
  | setPosition p => (.truth (s.setPosition p).1, (s.setPosition p).2)
  | consume => (.chars s.consume.1, s.consume.2)
  | consumeString => (.text s.consumeString.1, s.consumeString.2)
  | skipBlanks => (.truth s.skipBlanks.1, s.skipBlanks.2)
  | readNumber => (.number s.readNumber.1, s.readNumber.2)
  | readOperator => (.operator s.readOperator.1, s.readOperator.2)
  | accept c => (.char (s.accept c).1, (s.accept c).2)
  | acceptOneOf set => (.char (s.acceptOneOf set).1, (s.acceptOneOf set).2)
  | skipManyOf set => (.truth (s.skipManyOf set).1, (s.skipManyOf set).2)

/-- The characters that a command takes out of the text. -/
def taken (s : Lookahead) : Command → List Char
  | consume | consumeString => s.consume.1
  | skipBlanks => (s.skipWhile isBlank).2.consume.1
  | readNumber => (s.readNumber.1.getD "").toList
  | readOperator =>
    match s.acceptIf fun c => (Operator.ofSymbol? c).isSome with
    | (some _, moved) => moved.consume.1
    | (none, _) => []
  | _ => []

/-- The reply to each command of a sequence, with the state after it. -/
def runAll (s : Lookahead) : List Command → List (Reply × Lookahead)
  | [] => []
  | command :: rest => command.run s :: runAll (command.run s).2 rest

/-- What a command takes out is the front of what remained, and the rest remains. -/
theorem taken_append_remaining_run (s : Lookahead) (command : Command) :
    command.taken s ++ (command.run s).2.remaining = s.remaining := by
  cases command with
  | consume => exact s.consume_append_remaining
  | consumeString => exact s.consume_append_remaining
  | skipBlanks =>
    exact ((s.skipWhile isBlank).2.consume_append_remaining).trans (s.remaining_skipWhile _)
  | readNumber =>
    have hpassed := (s.accept '-').2.remaining_skipWhile Char.isDigit
    simp only [taken, run, Lookahead.readNumber]
    split
    next passed hskip =>
      have hconsume := passed.consume_append_remaining
      simp_all [Lookahead.consumeString]
    next passed hskip => simp_all
  | readOperator =>
    have hmoved := s.remaining_acceptIf fun c => (Operator.ofSymbol? c).isSome
    simp only [taken, run, Lookahead.readOperator]
    split
    next c moved haccept =>
      have hconsume := moved.consume_append_remaining
      simp_all
    next back haccept => simp_all
  | acceptOneOf set => exact s.remaining_acceptIf _
  | accept c => exact s.remaining_acceptIf _
  | skipManyOf set => exact s.remaining_skipWhile _
  | setPosition p => exact s.remaining_setPosition p
  | next => exact s.remaining_next
  | current => rfl
  | offset => rfl
  | position => rfl

/-- The offset counts the characters that were taken out. -/
theorem offset_run (s : Lookahead) (command : Command) :
    (command.run s).2.offset = s.offset + (command.taken s).length := by
  cases command with
  | consume => rfl
  | consumeString => rfl
  | skipBlanks => exact congrArg (· + _) (s.offset_skipWhile _)
  | readNumber =>
    have hpassed := (s.accept '-').2.offset_skipWhile Char.isDigit
    simp only [taken, run, Lookahead.readNumber]
    split
    next passed hskip =>
      have hconsume := passed.offset_consume
      simp_all [Lookahead.consumeString]
    next passed hskip => simp_all
  | readOperator =>
    have hmoved := s.offset_acceptIf fun c => (Operator.ofSymbol? c).isSome
    simp only [taken, run, Lookahead.readOperator]
    split
    next c moved haccept =>
      have hconsume := moved.offset_consume
      simp_all
    next back haccept => simp_all
  | acceptOneOf set => exact s.offset_acceptIf _
  | accept c => exact s.offset_acceptIf _
  | skipManyOf set => exact s.offset_skipWhile _
  | setPosition p => exact s.offset_setPosition p
  | next => rfl
  | current => rfl
  | offset => rfl
  | position => rfl

end Command

end StackCalc.Lookahead
