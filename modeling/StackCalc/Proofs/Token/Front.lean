import StackCalc.Proofs.Lookahead.Literal
import StackCalc.Proofs.Lookahead.Simulation
import StackCalc.Proofs.Token.Alphabet
import StackCalc.Token.Stream

/-!
# The token in front

What a token stream takes from a text, told by the characters in front of it: the blanks there are
dropped, and then a lexeme that nothing behind it would continue is taken whole, a character outside
the alphabet ends the stream, and at the end of the text there is nothing to take, now or later.
-/

namespace StackCalc

/-- Whether a lexeme is not continued by what stands behind it. -/
def Lexeme.EndsBefore (x : Lexeme) (behind : List Char) : Prop :=
  x.takesDigit = true → behind.head?.any Char.isDigit = false

namespace Cursor

theorem advance_start (text behind : List Char) (start : Nat) :
    (Cursor.mk (text ++ behind) 0 start).advance text.length =
      ⟨text ++ behind, text.length, start⟩ := by
  simp only [advance, Nat.zero_add, Cursor.mk.injEq, true_and, and_true, List.length_append]
  omega

theorem consume_start (text behind : List Char) (start : Nat) :
    (Cursor.mk (text ++ behind) text.length start).consume =
      (text, ⟨behind, 0, start + text.length⟩) := by
  simp only [consume, List.take_left, List.drop_left, List.length_append,
    Nat.min_eq_left (Nat.le_add_right _ _)]

theorem skipBlanks_start {gap text : List Char} (hgap : ∀ c ∈ gap, isBlank c = true)
    (htext : ∀ c ∈ text.head?, isBlank c = false) (start : Nat) :
    (Cursor.skipBlanks ⟨gap ++ text, 0, start⟩).2 = ⟨text, 0, start + gap.length⟩ := by
  have hrun : (gap ++ text).takeWhile isBlank = gap := by
    cases text with
    | nil => rw [List.takeWhile_append_of_pos hgap, List.takeWhile_nil, List.append_nil]
    | cons c tail =>
      rw [List.takeWhile_append_of_pos hgap, List.takeWhile_cons_of_neg (by simp [htext c rfl]),
        List.append_nil]
  simp only [skipBlanks, skipWhile, ahead, List.drop_zero, hrun, advance_start, consume_start]

theorem readNumber_start_of_literal {text behind : List Char} (h : Numeral.IsLiteral text)
    (hbehind : behind.head?.any Char.isDigit = false) (start : Nat) :
    (Cursor.mk (text ++ behind) 0 start).readNumber =
      (some (String.ofList text), ⟨behind, 0, start + text.length⟩) := by
  have hfront := Numeral.literalInFront_append h hbehind
  obtain ⟨c, tail, rfl⟩ := List.exists_cons_of_ne_nil (Lexeme.chars_ne_nil (x := .number text) h)
  simp only [readNumber, ahead, List.drop_zero, hfront, advance_start, consume_start]

theorem readNumber_start_of_nil {text : List Char} (h : Numeral.literalInFront text = [])
    (start : Nat) : (Cursor.mk text 0 start).readNumber = (none, ⟨text, 0, start⟩) := by
  simp only [readNumber, ahead, List.drop_zero, h]

theorem readOperator_start_of_symbol (op : Operator) (behind : List Char) (start : Nat) :
    (Cursor.mk (op.symbol :: behind) 0 start).readOperator =
      (some op, ⟨behind, 0, start + 1⟩) := by
  have hadvance := advance_start [op.symbol] behind start
  have hconsume := consume_start [op.symbol] behind start
  simp only [List.singleton_append, List.length_singleton] at hadvance hconsume
  simp only [readOperator, ahead, List.drop_zero, List.head?_cons, Option.bind_some,
    Operator.ofSymbol?_symbol, hadvance, hconsume]

theorem readOperator_start_of_none {text : List Char}
    (h : ∀ c ∈ text.head?, Operator.ofSymbol? c = none) (start : Nat) :
    (Cursor.mk text 0 start).readOperator = (none, ⟨text, 0, start⟩) := by
  have hnone : text.head?.bind Operator.ofSymbol? = none := by
    rw [Option.bind_eq_none_iff]
    exact fun c hc => h c hc
  simp only [readOperator, ahead, List.drop_zero, hnone]

end Cursor

namespace TokenStream

open Lookahead

/-- The stream has still to take its tokens from `text`, which starts at offset `start`. At the end of
    the text the reader may have stepped beyond it. -/
structure Reads (s : TokenStream) (start : Nat) (text : List Char) : Prop where
  not_ended : s.ended = false
  atCursor : AtCursor s.reader ⟨text, 0, start⟩ ∨ text = [] ∧ AtCursor s.reader ⟨[], 1, start⟩

variable {s : TokenStream} {reader : Lookahead} {start : Nat} {gap text behind : List Char}
  {x : Lexeme} {c : Char}

theorem reads_ofList (text : List Char) : (ofList text).Reads 0 text :=
  ⟨rfl, .inl ⟨rfl, Nat.zero_le _, Nat.zero_min _ ▸ Nat.zero_le _⟩⟩

theorem Reads.skipBlanks (h : s.Reads start (gap ++ text)) (hgap : ∀ c ∈ gap, isBlank c = true)
    (htext : ∀ c ∈ text.head?, isBlank c = false) :
    AtCursor s.reader.skipBlanks.2 ⟨text, 0, start + gap.length⟩ := by
  rcases h.atCursor with hplace | ⟨hnil, hplace⟩
  · have hskip := (skipBlanks_agrees hplace.inBuffer).2
    rw [hplace.place_eq, Cursor.skipBlanks_start hgap htext] at hskip
    exact hskip
  · obtain ⟨rfl, rfl⟩ := List.append_eq_nil_iff.1 hnil
    have hskip := (skipBlanks_agrees hplace.inBuffer).2
    rw [hplace.place_eq] at hskip
    exact hskip

theorem read_of_number {after : Lookahead} {number : String}
    (h : reader.readNumber = (some number, after)) :
    read reader = (some (.operand reader.offset number.utf8ByteSize), ⟨after, false⟩) := by
  rw [read, h]

theorem read_of_operator {after₁ after₂ : Lookahead} {op : Operator}
    (hnumber : reader.readNumber = (none, after₁))
    (hoperator : after₁.readOperator = (some op, after₂)) :
    read reader = (some (.operator reader.offset op), ⟨after₂, false⟩) := by
  rw [read, hnumber]
  simp only [hoperator]

theorem read_of_char {after₁ after₂ after₃ : Lookahead}
    (hnumber : reader.readNumber = (none, after₁))
    (hoperator : after₁.readOperator = (none, after₂)) (hnext : after₂.next = (some c, after₃)) :
    read reader = (some (.foreign reader.offset c), ⟨after₃.consume.2, true⟩) := by
  rw [read, hnumber]
  simp only [hoperator, hnext]

theorem read_of_end {after₁ after₂ after₃ : Lookahead}
    (hnumber : reader.readNumber = (none, after₁))
    (hoperator : after₁.readOperator = (none, after₂)) (hnext : after₂.next = (none, after₃)) :
    read reader = (none, ⟨after₃, false⟩) := by
  rw [read, hnumber]
  simp only [hoperator, hnext]

theorem read_lexeme (h : AtCursor reader ⟨x.chars ++ behind, 0, start⟩) (hx : x.IsWritten)
    (hends : x.EndsBefore behind) :
    ∃ after, read reader = (some (x.token start), after) ∧
      after.Reads (start + x.chars.length) behind := by
  have hnumber := readNumber_agrees h.inBuffer
  rw [h.place_eq] at hnumber
  cases x with
  | number text =>
    rw [Lexeme.chars, Cursor.readNumber_start_of_literal hx (hends rfl)] at hnumber
    refine ⟨⟨reader.readNumber.2, false⟩, ?_, rfl, .inl hnumber.2⟩
    rw [read_of_number hnumber.eq_reply, Text.utf8ByteSize_ofList, h.offset_eq]
    rfl
  | operator op =>
    have hnil : Numeral.literalInFront (op.symbol :: behind) = [] := by
      rw [Numeral.literalInFront_cons_eq_nil_iff]
      refine ⟨op.not_isDigit_symbol, ?_⟩
      intro hminus
      apply hends
      cases op with
      | sub => rfl
      | add => exact absurd hminus (by decide)
      | mul => exact absurd hminus (by decide)
      | div => exact absurd hminus (by decide)
    rw [Lexeme.chars, List.singleton_append, Cursor.readNumber_start_of_nil hnil] at hnumber
    have hoperator := readOperator_agrees hnumber.2.inBuffer
    rw [hnumber.2.place_eq, Cursor.readOperator_start_of_symbol] at hoperator
    refine ⟨⟨reader.readNumber.2.readOperator.2, false⟩, ?_, rfl, .inl hoperator.2⟩
    rw [read_of_operator hnumber.eq_reply hoperator.eq_reply, h.offset_eq]
    rfl

/-- Where there is neither a number nor an operator in front, the next character decides. -/
theorem read_of_none (h : AtCursor reader ⟨text, 0, start⟩)
    (hnumber : Numeral.literalInFront text = [])
    (hoperator : ∀ c ∈ text.head?, Operator.ofSymbol? c = none) :
    ∃ reader', AtCursor reader' ⟨text, 0, start⟩ ∧
      (∀ c moved, reader'.next = (some c, moved) →
        read reader = (some (.foreign start c), ⟨moved.consume.2, true⟩)) ∧
      (∀ moved, reader'.next = (none, moved) → read reader = (none, ⟨moved, false⟩)) := by
  have hfirst := readNumber_agrees h.inBuffer
  rw [h.place_eq, Cursor.readNumber_start_of_nil hnumber] at hfirst
  have hsecond := readOperator_agrees hfirst.2.inBuffer
  rw [hfirst.2.place_eq, Cursor.readOperator_start_of_none hoperator] at hsecond
  refine ⟨reader.readNumber.2.readOperator.2, hsecond.2, ?_, ?_⟩
  · intro c moved hnext
    rw [read_of_char hfirst.eq_reply hsecond.eq_reply hnext, h.offset_eq]
  · intro moved hnext
    exact read_of_end hfirst.eq_reply hsecond.eq_reply hnext

theorem read_foreign (h : AtCursor reader ⟨c :: behind, 0, start⟩) (hc : c ∉ alphabet) :
    ∃ after, read reader = (some (.foreign start c), after) ∧ after.ended = true ∧
      AtCursor after.reader ⟨behind, 0, start + 1⟩ := by
  have hnumber : Numeral.literalInFront (c :: behind) = [] := by
    rw [Numeral.literalInFront_cons_eq_nil_iff]
    refine ⟨not_isDigit_of_notMem hc, ?_⟩
    rintro rfl
    exact absurd (by decide) hc
  have hoperator : ∀ d ∈ (c :: behind).head?, Operator.ofSymbol? d = none := by
    intro d hd
    obtain rfl : c = d := Option.some.inj hd
    exact ofSymbol?_of_notMem hc
  obtain ⟨reader', hplace, hread, -⟩ := read_of_none h hnumber hoperator
  have hnext := next_agrees reader'
  rw [hplace.place_eq, Cursor.current_advance_one] at hnext
  have hadvance := Cursor.advance_start [c] behind start
  have hconsume := Cursor.consume_start [c] behind start
  have hafter := hnext.2.consume_agrees.2
  simp only [List.singleton_append, List.length_singleton] at hadvance hconsume
  rw [hadvance, hconsume] at hafter
  exact ⟨_, hread c reader'.next.2 hnext.eq_reply, rfl, hafter⟩

theorem read_nil (h : AtCursor reader ⟨[], 0, start⟩) :
    ∃ after, read reader = (none, after) ∧ after.Reads start [] := by
  obtain ⟨reader', hplace, -, hread⟩ := read_of_none h rfl (by simp)
  have hnext := next_agrees reader'
  rw [hplace.place_eq] at hnext
  exact ⟨_, hread reader'.next.2 hnext.eq_reply, rfl, .inr ⟨rfl, hnext.2⟩⟩

theorem Reads.next_eq (h : s.Reads start text) : s.next = read s.reader.skipBlanks.2 := by
  rw [next, h.not_ended]
  rfl

/-- The token of a lexeme that stands behind blanks. -/
theorem Reads.next_lexeme (h : s.Reads start (gap ++ (x.chars ++ behind)))
    (hgap : ∀ c ∈ gap, isBlank c = true) (hx : x.IsWritten) (hends : x.EndsBefore behind) :
    ∃ after, s.next = (some (x.token (start + gap.length)), after) ∧
      after.Reads (start + gap.length + x.chars.length) behind := by
  rw [h.next_eq]
  refine read_lexeme (h.skipBlanks hgap ?_) hx hends
  obtain ⟨c, tail, hcons⟩ := List.exists_cons_of_ne_nil (Lexeme.chars_ne_nil hx)
  have hhead := Lexeme.not_isBlank_head hx
  rw [hcons] at hhead ⊢
  exact hhead

/-- A character outside the alphabet is taken, and it is the last that is. -/
theorem Reads.next_foreign (h : s.Reads start (gap ++ c :: behind))
    (hgap : ∀ c ∈ gap, isBlank c = true) (hc : c ∉ alphabet) :
    ∃ after, s.next = (some (.foreign (start + gap.length) c), after) ∧ after.ended = true ∧
      AtCursor after.reader ⟨behind, 0, start + gap.length + 1⟩ := by
  rw [h.next_eq]
  refine read_foreign (h.skipBlanks hgap ?_) hc
  intro d hd
  obtain rfl : c = d := Option.some.inj hd
  exact not_isBlank_of_notMem hc

/-- Only blanks are left, and after them nothing, however often it is asked for. -/
theorem Reads.next_blanks (h : s.Reads start gap) (hgap : ∀ c ∈ gap, isBlank c = true) :
    ∃ after, s.next = (none, after) ∧ after.Reads (start + gap.length) [] := by
  rw [h.next_eq]
  exact read_nil ((gap.append_nil.symm ▸ h).skipBlanks hgap (by simp))

theorem next_of_ended (h : s.ended = true) : s.next = (none, s) := by
  rw [next, if_pos h]

end TokenStream

end StackCalc
