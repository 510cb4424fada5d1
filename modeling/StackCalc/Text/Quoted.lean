import StackCalc.Text.Hidden

/-!
# Quoted text

A quoted text shows a sequence of characters between two quotes so that it stays on one line, shows
all that is in it, and ends at the first quote that no backslash precedes. A backslash starts each
escape: a letter for the common control characters and for the backslash itself, the quote in use,
or the code point of a hidden character in hexadecimal. Which characters are hidden is a parameter:
`isHidden` is the choice that messages make.
-/

namespace StackCalc.Text

/-- What stands after the backslash for a character with an escape of its own. -/
def escapeLetter? : Char → Option Char
  | '\x00' => some '0'
  | '\t' => some 't'
  | '\n' => some 'n'
  | '\r' => some 'r'
  | '\\' => some '\\'
  | _ => none

/-- The escape by code point: lower-case hexadecimal digits without leading zeros, in braces. -/
def escapeCodePoint (c : Char) : List Char :=
  ['\\', 'u', '{'] ++ Nat.toDigits 16 c.toNat ++ ['}']

/-- A character as a quoted text shows it. -/
def escape (hidden : Char → Bool) (quote c : Char) : List Char :=
  match escapeLetter? c with
  | some letter => ['\\', letter]
  | none =>
    if c = quote then ['\\', c]
    else if hidden c then escapeCodePoint c
    else [c]

/-- The characters between two quotes. -/
def quoted (hidden : Char → Bool) (quote : Char) (cs : List Char) : List Char :=
  quote :: cs.flatMap (escape hidden quote) ++ [quote]

end StackCalc.Text
