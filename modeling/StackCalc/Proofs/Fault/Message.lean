import Mathlib.Data.List.DropRight
import StackCalc.Fault
import StackCalc.Numeral
import StackCalc.Text.Unquoted

/-!
# Messages name their faults

`ofMessage?` reads a fault back from its message (`ofMessage?_messageWith`). The first letters tell
the kind of fault, and the rest has a fixed form, except for the text of a number: it stands in its
message as it is and may look like a message itself. So a message about a token is read from its end.
The digits there are the position, since they cannot run into the words before them, and what the
message is about is all that those words leave (`splitPosition?_append`).
-/

namespace StackCalc.Fault

/-- What stands between a fixed opening and a fixed closing. -/
def between? (opening closing : String) (cs : List Char) : Option (List Char) :=
  (cs.dropPrefix? opening.toList).bind fun rest => rest.dropSuffix? closing.toList

/-- The position that a text ends in, with what stands before it. -/
def splitPosition? (cs : List Char) : Option (List Char × Nat) :=
  match (cs.rdropWhile Char.isDigit).dropSuffix? " at position ".toList,
      Numeral.magnitude? (cs.rtakeWhile Char.isDigit) with
  | some subject, some position => some (subject, position)
  | _, _ => none

/-- What the message about a token is about, with the position of the token. -/
def subject? (opening closing : String) (cs : List Char) : Option (List Char × Nat) :=
  (between? opening closing cs).bind splitPosition?

/-- The fault that a message names. -/
def ofMessage? (message : String) : Option Fault :=
  let cs := message.toList
  match cs.take 2 with
  | ['U', 'n'] =>
    (subject? "Unexpected character " "" cs).bind fun (subject, position) =>
      match Text.unquote? '\'' subject with
      | some ([c], []) => some (.foreignChar position c)
      | _ => none
  | ['N', 'o'] =>
    (subject? "Not enough operands for operator " "" cs).bind fun (subject, position) =>
      (subject.head?.bind Operator.ofSymbol?).map (.missingOperands position)
  | ['N', 'u'] =>
    (subject? "Number " " is out of range" cs).map fun (subject, position) =>
      .outOfRange position (String.ofList subject)
  | ['D', 'i'] =>
    (subject? "Division by zero" "" cs).map fun (_, position) => .divisionByZero position
  | ['O', 'p'] =>
    (subject? "Operator " " overflows" cs).bind fun (subject, position) =>
      (subject.head?.bind Operator.ofSymbol?).map (.overflow position)
  | ['T', 'h'] => some .noValue
  | ['T', 'o'] =>
    ((between? "Too many operands, " " left on the stack (should be one)" cs).bind
      Numeral.magnitude?).map .leftover
  | _ => none

variable {opening closing : String} {cs subject : List Char}

theorem between?_append (h : cs = opening.toList ++ (subject ++ closing.toList)) :
    between? opening closing cs = some subject := by
  have hopening : cs.dropPrefix? opening.toList = some (subject ++ closing.toList) := by
    rw [h]
    exact List.dropPrefix?_append_of_beq _ BEq.rfl
  rw [between?, hopening]
  exact List.dropSuffix?_eq_some_iff.2 ⟨closing.toList, rfl, BEq.rfl⟩

/-- A number behind a character that is no digit is all of the digits at the end. -/
theorem rtakeWhile_isDigit_append (cs : List Char) {c : Char} (hc : c.isDigit = false) (n : Nat) :
    (cs ++ [c] ++ Nat.toDigits 10 n).rtakeWhile Char.isDigit = Nat.toDigits 10 n ∧
      (cs ++ [c] ++ Nat.toDigits 10 n).rdropWhile Char.isDigit = cs ++ [c] := by
  have hdigits : ∀ d ∈ (Nat.toDigits 10 n).reverse, d.isDigit = true :=
    fun d hd => (Numeral.isDigits_toDigits n).2 d (List.mem_reverse.1 hd)
  have hstop : ¬c.isDigit = true := by simp [hc]
  constructor
  · rw [List.rtakeWhile, List.reverse_append, List.takeWhile_append_of_pos hdigits,
      List.reverse_concat, List.takeWhile_cons_of_neg hstop, List.append_nil, List.reverse_reverse]
  · rw [List.rdropWhile, List.reverse_append, List.dropWhile_append_of_pos hdigits,
      List.reverse_concat, List.dropWhile_cons_of_neg hstop, ← List.reverse_concat,
      List.reverse_reverse]

/-- A position is found behind any text, whatever digits and words that text has itself. -/
theorem splitPosition?_append (subject : List Char) (position : Nat) :
    splitPosition? (subject ++ (" at position ".toList ++ Nat.toDigits 10 position)) =
      some (subject, position) := by
  have hwords : " at position ".toList = " at position".toList ++ [' '] := rfl
  obtain ⟨htake, hdrop⟩ :=
    rtakeWhile_isDigit_append (subject ++ " at position".toList) (c := ' ') rfl position
  rw [List.append_assoc subject, ← hwords, List.append_assoc] at htake hdrop
  have hsubject : (subject ++ " at position ".toList).dropSuffix? " at position ".toList =
      some subject := List.dropSuffix?_eq_some_iff.2 ⟨_, rfl, BEq.rfl⟩
  rw [splitPosition?, htake, hdrop, hsubject, Numeral.magnitude?_toDigits]

/-- The first letters of a message about a token, and what is read from it. -/
theorem subject?_message (opening : String) {a b : Char} {rest : List Char}
    (hopening : opening.toList = a :: b :: rest) (subject closing : String) (position : Nat) :
    let cs := (opening ++ subject ++ " at position " ++ Nat.repr position ++ closing).toList
    cs.take 2 = [a, b] ∧ subject? opening closing cs = some (subject.toList, position) := by
  intro cs
  have hcs : cs = opening.toList ++ ((subject.toList ++
      (" at position ".toList ++ Nat.toDigits 10 position)) ++ closing.toList) := by
    simp only [cs, String.toList_append, Nat.toList_repr, List.append_assoc]
  constructor
  · rw [hcs, hopening]
    rfl
  · rw [subject?, between?_append hcs, Option.bind_some, splitPosition?_append]

/-- A fault is read back from its message, whichever characters the message gives by code point. -/
theorem ofMessage?_messageWith (hidden : Char → Bool) (fault : Fault) :
    ofMessage? (fault.messageWith hidden) = some fault := by
  -- `messageWith` is opened by `show`: the equations of a function with so many texts are slow.
  cases fault with
  | foreignChar position c =>
    have hquoted : Text.unquote? '\'' (Text.quoted hidden '\'' [c] ++ []) = some ([c], []) :=
      Text.unquote?_quoted (.inr rfl) [c] []
    obtain ⟨hkind, hsubject⟩ := subject?_message "Unexpected character " (a := 'U') (b := 'n') rfl
      (String.ofList (Text.quoted hidden '\'' [c])) "" position
    rw [String.append_empty] at hkind hsubject
    rw [List.append_nil] at hquoted
    show ofMessage? ("Unexpected character " ++ _ ++ " at position " ++ _) = _
    rw [ofMessage?, hkind]
    simp only [hsubject, Option.bind_some, String.toList_ofList, hquoted]
  | missingOperands position op =>
    obtain ⟨hkind, hsubject⟩ := subject?_message "Not enough operands for operator " (a := 'N')
      (b := 'o') rfl (String.singleton op.symbol) "" position
    rw [String.append_empty] at hkind hsubject
    show ofMessage? ("Not enough operands for operator " ++ _ ++ " at position " ++ _) = _
    rw [ofMessage?, hkind]
    simp only [hsubject, Option.bind_some, String.toList_singleton, List.head?_cons,
      Operator.ofSymbol?_symbol, Option.map_some]
  | outOfRange position text =>
    obtain ⟨hkind, hsubject⟩ := subject?_message "Number " (a := 'N') (b := 'u') rfl text
      " is out of range" position
    show ofMessage? ("Number " ++ _ ++ " at position " ++ _ ++ " is out of range") = _
    rw [ofMessage?, hkind]
    simp only [hsubject, Option.map_some, String.ofList_toList]
  | divisionByZero position =>
    obtain ⟨hkind, hsubject⟩ := subject?_message "Division by zero" (a := 'D') (b := 'i') rfl "" ""
      position
    rw [String.append_empty, String.append_empty] at hkind hsubject
    show ofMessage? ("Division by zero" ++ " at position " ++ _) = _
    rw [ofMessage?, hkind]
    simp only [hsubject, Option.map_some]
  | overflow position op =>
    obtain ⟨hkind, hsubject⟩ := subject?_message "Operator " (a := 'O') (b := 'p') rfl
      (String.singleton op.symbol) " overflows" position
    show ofMessage? ("Operator " ++ _ ++ " at position " ++ _ ++ " overflows") = _
    rw [ofMessage?, hkind]
    simp only [hsubject, Option.bind_some, String.toList_singleton, List.head?_cons,
      Operator.ofSymbol?_symbol, Option.map_some]
  | noValue =>
    show ofMessage? "There were no numbers in the input" = _
    rw [ofMessage?]
    rfl
  | leftover count =>
    have hcs : ("Too many operands, " ++ Nat.repr count ++
        " left on the stack (should be one)").toList = "Too many operands, ".toList ++
          (Nat.toDigits 10 count ++ " left on the stack (should be one)".toList) := by
      simp only [String.toList_append, Nat.toList_repr, List.append_assoc]
    have hkind : ("Too many operands, " ++ Nat.repr count ++
        " left on the stack (should be one)").toList.take 2 = ['T', 'o'] := by
      rw [hcs]
      rfl
    show ofMessage? ("Too many operands, " ++ _ ++ " left on the stack (should be one)") = _
    rw [ofMessage?, hkind]
    simp only [between?_append hcs, Option.bind_some, Numeral.magnitude?_toDigits, Option.map_some]

/-- Different faults have different messages, whichever characters the messages give by code point
    and whatever the text of a number looks like. -/
theorem messageWith_eq_iff (hidden : Char → Bool) (f g : Fault) :
    f.messageWith hidden = g.messageWith hidden ↔ f = g := by
  constructor
  · intro h
    have hread := congrArg ofMessage? h
    rw [ofMessage?_messageWith, ofMessage?_messageWith] at hread
    exact Option.some.inj hread
  · rintro rfl
    rfl

/-- A message may start with another one, so it cannot be read from its start. -/
example : (outOfRange 0 "1 at position 2 is out of range").message =
    (outOfRange 2 "1").message ++ " at position 0 is out of range" := by decide

end StackCalc.Fault
