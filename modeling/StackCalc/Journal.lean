import StackCalc.Calculator

/-!
# Journals

A journal shows how a text was calculated: how many tokens it has, each executed token with the
stack before it, and at the end the reason if there is no value. A text that is no program has only
that last record. The token that is refused still has a record, and it is the last token that has
one.
-/

namespace StackCalc

/-- How much a record matters to a reader. -/
inductive Level where
  | trace
  | debug
  deriving DecidableEq, Repr

def Level.name : Level → String
  | .trace => "TRACE"
  | .debug => "DEBUG"

/-- The tokens that a run gets to, each with the stack before it. -/
def Machine.visits (w : Width) (source : String) (stack : List Int) :
    List Token → List (Token × List Int)
  | [] => []
  | token :: rest =>
    (token, stack) ::
      match step w source stack token with
      | .ok stack' => visits w source stack' rest
      | .error _ => []

/-- An entry of a journal. -/
inductive Record where
  | tokenized (count : Nat)
  | executing (token : Token) (stack : List Int)
  | refused (text : String) (fault : Fault)
  deriving DecidableEq, Repr

namespace Record

def level : Record → Level
  | tokenized _ => .trace
  | executing _ _ => .trace
  | refused _ _ => .debug

/-- A stack as a journal shows it: the values from the bottom to the top. -/
def describeStack (stack : List Int) : String :=
  "[" ++ String.intercalate ", " (stack.reverse.map fun n => String.ofList (Numeral.decimal n)) ++
    "]"

/-- The text of a record, where `hidden` characters are given by code point. -/
def messageWith (hidden : Char → Bool) : Record → String
  | tokenized count => "tokenized " ++ Nat.repr count ++ " lexemes"
  | executing token stack => token.describeWith hidden ++ " stack=" ++ describeStack stack
  | refused text fault =>
    "rejecting " ++ String.ofList (Text.quoted hidden '"' text.toList) ++ ": " ++
      fault.messageWith hidden

/-- The text of a record. -/
def message (r : Record) : String := r.messageWith Text.isHidden

end Record

/-- The records of a calculation, in order. -/
def journal (w : Width) (text : String) : List Record :=
  match Program.ofString text with
  | .error fault => [.refused text fault]
  | .ok program =>
    .tokenized program.tokens.length ::
      (Machine.visits w text [] program.tokens).map (fun (token, stack) => .executing token stack) ++
      match program.value w with
      | .ok _ => []
      | .error fault => [.refused text fault]

end StackCalc
