import StackCalc.Journal
import StackCalc.Proofs.Fault.Message
import StackCalc.Proofs.Layout.Slices
import StackCalc.Proofs.Program.Outcome
import StackCalc.Proofs.Text.Quotation

/-!
# What a text can write into its journal

A journal shows a text between quotes, and besides that only numbers, tokens and the message of a
fault. Such a message has the text of a number as it stands, but a number that is refused in a text
is a literal of that text (`isLiteral_of_calculate_eq_outOfRange`). So no text brings a line break or
another hidden character into its journal, and it cannot end its quotation there either: a refusal is
read back from its message (`refused_eq_of_message_eq`).
-/

namespace StackCalc

open Text

variable {w w' : Width} {text text' : String} {fault fault' : Fault} {r : Record}

section Visibility

theorem isVisible_of_isDigits {cs : List Char} (h : Numeral.IsDigits cs) : IsVisible cs := by
  have hdigits : IsVisible ['0', '1', '2', '3', '4', '5', '6', '7', '8', '9'] := by decide
  exact fun c hc => hdigits c (isDigit_iff_mem.1 (h.2 c hc))

theorem isVisible_of_isLiteral {cs : List Char} (h : Numeral.IsLiteral cs) : IsVisible cs := by
  unfold Numeral.IsLiteral at h
  split at h
  next digits => exact List.forall_mem_cons.2 ⟨by decide, isVisible_of_isDigits h⟩
  next => exact isVisible_of_isDigits h

theorem isVisible_repr (n : Nat) : IsVisible (Nat.repr n).toList := by
  rw [Nat.toList_repr]
  exact isVisible_of_isDigits (Numeral.isDigits_toDigits n)

theorem isVisible_intercalate {between : List Char} {parts : List (List Char)}
    (hbetween : IsVisible between) (hparts : ∀ part ∈ parts, IsVisible part) :
    IsVisible (between.intercalate parts) := by
  induction parts with
  | nil => exact fun c hc => absurd hc List.not_mem_nil
  | cons part parts ih =>
    obtain ⟨hpart, hrest⟩ := List.forall_mem_cons.1 hparts
    cases parts with
    | nil => exact List.intercalate_singleton ▸ hpart
    | cons next parts =>
      rw [List.intercalate_cons_cons, isVisible_append, isVisible_append]
      exact ⟨⟨hpart, hbetween⟩, ih hrest⟩

theorem Operator.isVisible_symbol (op : Operator) : IsVisible (String.singleton op.symbol).toList := by
  cases op <;> decide

theorem Operator.isVisible_name (op : Operator) : IsVisible op.name.toList := by
  cases op <;> decide

theorem Token.isVisible_braced_iff {parts : String} :
    IsVisible (braced parts).toList ↔ IsVisible parts.toList := by
  have hopening : IsVisible (String.singleton '{' ++ " ").toList := by decide
  have hclosing : IsVisible (" " ++ String.singleton '}').toList := by decide
  rw [braced, String.append_assoc, String.toList_append, String.toList_append, isVisible_append,
    isVisible_append]
  exact ⟨fun h => h.1.2, fun h => ⟨⟨hopening, h⟩, hclosing⟩⟩

theorem Token.isVisible_describeWith (token : Token) :
    IsVisible (token.describeWith isHidden).toList := by
  cases token with
  | operand start length =>
    show IsVisible ("Operand " ++ braced ("from: " ++ _ ++ ", len: " ++ _)).toList
    simp only [String.toList_append, isVisible_append, isVisible_braced_iff, isVisible_repr, and_true]
    decide
  | operator start op =>
    show IsVisible ("Operator " ++ braced ("at: " ++ _ ++ ", op: " ++ _)).toList
    simp only [String.toList_append, isVisible_append, isVisible_braced_iff, isVisible_repr,
      op.isVisible_name, and_true]
    decide
  | foreign start c =>
    have hc : IsVisible (quoted isHidden '\'' [c]) := isVisible_quoted (by decide) [c]
    show IsVisible ("Unknown " ++ braced ("at: " ++ _ ++ ", lexeme: " ++ _)).toList
    simp only [String.toList_append, String.toList_ofList, isVisible_append, isVisible_braced_iff,
      isVisible_repr, hc, and_true]
    decide

theorem Record.isVisible_describeStack (stack : List Int) :
    IsVisible (Record.describeStack stack).toList := by
  have hvalues : IsVisible (String.intercalate ", "
      (stack.reverse.map fun n => String.ofList (Numeral.decimal n))).toList := by
    rw [String.toList_intercalate, List.map_map]
    refine isVisible_intercalate (by decide) ?_
    intro part hpart
    obtain ⟨n, -, rfl⟩ := List.mem_map.1 hpart
    rw [Function.comp_apply, String.toList_ofList]
    exact isVisible_of_isLiteral (Numeral.isLiteral_decimal n)
  rw [Record.describeStack]
  simp only [String.toList_append, isVisible_append, hvalues, and_true]
  decide

/-- The text of a number is all that a message does not quote. -/
theorem Fault.isVisible_message
    (h : ∀ position text, fault = .outOfRange position text → IsVisible text.toList) :
    IsVisible fault.message.toList := by
  cases fault with
  | foreignChar position c =>
    have hc : IsVisible (quoted isHidden '\'' [c]) := isVisible_quoted (by decide) [c]
    show IsVisible ("Unexpected character " ++ _ ++ " at position " ++ _).toList
    simp only [String.toList_append, String.toList_ofList, isVisible_append, isVisible_repr, hc,
      and_true]
    decide
  | missingOperands position op =>
    show IsVisible ("Not enough operands for operator " ++ _ ++ " at position " ++ _).toList
    simp only [String.toList_append, isVisible_append, isVisible_repr, op.isVisible_symbol,
      and_true]
    decide
  | outOfRange position text =>
    show IsVisible ("Number " ++ _ ++ " at position " ++ _ ++ " is out of range").toList
    simp only [String.toList_append, isVisible_append, isVisible_repr, h position text rfl,
      and_true]
    decide
  | divisionByZero position =>
    show IsVisible ("Division by zero at position " ++ _).toList
    simp only [String.toList_append, isVisible_append, isVisible_repr, and_true]
    decide
  | overflow position op =>
    show IsVisible ("Operator " ++ _ ++ " at position " ++ _ ++ " overflows").toList
    simp only [String.toList_append, isVisible_append, isVisible_repr, op.isVisible_symbol,
      and_true]
    decide
  | noValue =>
    show IsVisible "There were no numbers in the input".toList
    decide
  | leftover count =>
    show IsVisible ("Too many operands, " ++ _ ++ " left on the stack (should be one)").toList
    simp only [String.toList_append, isVisible_append, isVisible_repr, and_true]
    decide

end Visibility

/-- A number that is refused in a text is written there, as digits behind at most a minus sign. -/
theorem isLiteral_of_calculate_eq_outOfRange {start : Nat} {number : String}
    (h : calculate w text = .error (.outOfRange start number)) :
    Numeral.IsLiteral number.toList := by
  unfold calculate at h
  cases hprogram : Program.ofString text with
  | error fault =>
    obtain ⟨_, c, rfl⟩ := Program.exists_foreignChar_of_ofString hprogram
    simp [hprogram] at h
  | ok p =>
    simp only [hprogram] at h
    obtain ⟨rfl, -⟩ := Program.ofString_eq_ok_iff.1 hprogram
    rcases Program.exists_run_or_failsAt w ⟨text, tokenize text.toList⟩ with
      ⟨stack, hrun⟩ | ⟨before, token, fault, hfails⟩
    · rw [Program.value_of_run_eq_ok hrun] at h
      rcases stack with - | ⟨n, - | ⟨m, rest⟩⟩ <;> simp [Machine.outcome] at h
    · rw [Program.value_of_failsAt hfails] at h
      obtain rfl := Except.error.inj h
      cases Program.canFail_of_failsAt hfails with
      | outOfRange start length =>
        obtain ⟨after, reached, htokens, -, -⟩ := hfails
        have hmem : .operand start length ∈ tokenize text.toList := by
          rw [show tokenize text.toList = _ from htokens]
          exact List.mem_append_right before List.mem_cons_self
        obtain ⟨cs, hliteral, hslice⟩ := exists_literal_of_operand_mem hmem
        rw [hslice, Option.getD_some, String.toList_ofList]
        exact hliteral

theorem refused_mem_journal_iff :
    .refused text' fault ∈ journal w text ↔ text' = text ∧ calculate w text = .error fault := by
  unfold journal calculate
  cases Program.ofString text with
  | error found => simp [eq_comm]
  | ok p => cases hvalue : p.value w <;> simp [hvalue, eq_comm]

theorem filter_debug_journal (h : calculate w text = .error fault) :
    (journal w text).filter (fun r => r.level = .debug) = [.refused text fault] := by
  unfold calculate at h
  unfold journal
  cases hprogram : Program.ofString text with
  | error found =>
    simp only [hprogram, Except.error.injEq] at h
    rw [h]
    rfl
  | ok p =>
    simp only [hprogram] at h
    simp only [h]
    rw [List.filter_append, List.filter_eq_nil_iff.2 ?_, List.nil_append]
    · rfl
    · intro r hr
      rcases List.mem_cons.1 hr with rfl | hr
      · simp [Record.level]
      · obtain ⟨visit, -, rfl⟩ := List.mem_map.1 hr
        simp [Record.level]

theorem Record.exists_refused_of_level (h : r.level = .debug) :
    ∃ text fault, r = .refused text fault := by
  cases r with
  | refused text fault => exact ⟨text, fault, rfl⟩
  | tokenized count => nomatch h
  | executing token stack => nomatch h

theorem toList_message_refused (text : String) (fault : Fault) :
    (Record.refused text fault).message.toList =
      "rejecting ".toList ++ '"' :: shown isHidden '"' text.toList ++
        '"' :: (": ".toList ++ fault.message.toList) := by
  show ("rejecting " ++ String.ofList (quoted isHidden '"' text.toList) ++ ": " ++
    fault.message).toList = _
  simp only [String.toList_append, String.toList_ofList, quoted_eq, List.append_assoc,
    List.cons_append, List.nil_append]

/-- A refusal is read back from its message: the text from its quotation, and the fault from what is
    behind that. -/
theorem refused_eq_of_message_eq
    (h : (Record.refused text fault).message = (Record.refused text' fault').message) :
    text = text' ∧ fault = fault' := by
  have hchars := congrArg String.toList h
  rw [toList_message_refused, toList_message_refused, List.append_assoc, List.append_assoc] at hchars
  have hquoted := congrArg (unquote? '"') (List.append_cancel_left hchars)
  rw [(isContained isHidden (.inl rfl) text.toList).reads_back,
    (isContained isHidden (.inl rfl) text'.toList).reads_back] at hquoted
  obtain ⟨htext, hrest⟩ := Prod.mk.inj (Option.some.inj hquoted)
  have hmessage := congrArg Fault.ofMessage? (String.toList_inj.1 (List.append_cancel_left hrest))
  unfold Fault.message at hmessage
  rw [Fault.ofMessage?_messageWith, Fault.ofMessage?_messageWith] at hmessage
  exact ⟨String.toList_inj.1 htext, Option.some.inj hmessage⟩

theorem isVisible_message_of_mem_journal (h : r ∈ journal w text) :
    IsVisible r.message.toList := by
  cases r with
  | tokenized count =>
    show IsVisible ("tokenized " ++ _ ++ " lexemes").toList
    simp only [String.toList_append, isVisible_append, isVisible_repr, and_true]
    decide
  | executing token stack =>
    show IsVisible (_ ++ " stack=" ++ _).toList
    simp only [String.toList_append, isVisible_append, token.isVisible_describeWith,
      Record.isVisible_describeStack, true_and, and_true]
    decide
  | refused text' fault =>
    obtain ⟨-, hfault⟩ := refused_mem_journal_iff.1 h
    have hmessage : IsVisible fault.message.toList := by
      apply Fault.isVisible_message
      rintro position number rfl
      exact isVisible_of_isLiteral (isLiteral_of_calculate_eq_outOfRange hfault)
    have hquoted : IsVisible (quoted isHidden '"' text'.toList) := isVisible_quoted (by decide) _
    show IsVisible ("rejecting " ++ _ ++ ": " ++ fault.message).toList
    simp only [String.toList_append, String.toList_ofList, isVisible_append, hquoted, hmessage,
      and_true]
    decide

/-- No record of a journal has a hidden character, such as a control or a line break, whatever the
    text. A text without a value has one record for a reader who is not tracing: in it the text stands
    between two quotes, the second of which is the first that is not escaped. No other text has a
    record with the same message. -/
theorem journal_contains_text (w : Width) (text : String) :
    (∀ r ∈ journal w text, ∀ c ∈ r.message.toList, isHidden c = false ∧ ¬IsControl c) ∧
    (calculate? w text = none → ∃ fault, calculate w text = .error fault ∧
      (journal w text).filter (fun r => r.level = .debug) = [.refused text fault] ∧
      (Record.refused text fault).message.toList =
        "rejecting ".toList ++ '"' :: shown isHidden '"' text.toList ++
          '"' :: (": ".toList ++ fault.message.toList) ∧
      IsContained isHidden '"' text.toList) ∧
    ∀ w' text', ∀ r ∈ journal w text, ∀ r' ∈ journal w' text', r.level = .debug →
      r'.level = .debug → r.message = r'.message → text = text' ∧ r = r' := by
  refine ⟨?_, ?_, ?_⟩
  · intro r hr c hc
    have hvisible := isVisible_message_of_mem_journal hr
    exact ⟨hvisible c hc, hvisible.not_isControl hc⟩
  · intro hnone
    cases hfault : calculate w text with
    | ok n => simp [calculate?_eq_some_iff.2 hfault] at hnone
    | error fault =>
      exact ⟨fault, rfl, filter_debug_journal hfault, toList_message_refused text fault,
        isContained isHidden (.inl rfl) text.toList⟩
  · intro w' text' r hr r' hr' hlevel hlevel' hmessage
    obtain ⟨shownText, fault, rfl⟩ := Record.exists_refused_of_level hlevel
    obtain ⟨shownText', fault', rfl⟩ := Record.exists_refused_of_level hlevel'
    obtain ⟨rfl, rfl⟩ := refused_eq_of_message_eq hmessage
    exact ⟨(refused_mem_journal_iff.1 hr).1.symm.trans (refused_mem_journal_iff.1 hr').1, rfl⟩

/-- A text that imitates the end of a record and the start of another one. -/
example : (Record.refused "\": no\n" (.foreignChar 0 '"')).message =
    "rejecting \"\\\": no\\n\": Unexpected character '\"' at position 0" := by decide +kernel

end StackCalc
