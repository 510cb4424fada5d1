import StackCalc.Proofs.Layout.Tokens
import StackCalc.Proofs.Lookahead.Reach

/-!
# How far a token stream reads

Each token is taken out of the text up to its last character, and one more character is looked at to
find that it is the last. So a reader rests directly behind the last token, with at most one
character in its buffer (`next_rests`). What a stream asks of its reader is a sequence of commands
(`exists_commands_next`), and what is known of those holds of the stream too: nothing of the text is
lost.
-/

namespace StackCalc

open Lookahead

/-- The offset behind a token, where each character counts for one. -/
def Token.behind : Token → Nat
  | operand start length => start + length
  | operator start _ => start + 1
  | foreign start _ => start + 1

theorem Lexeme.behind_token {x : Lexeme} (hx : x.IsWritten) (start : Nat) :
    (x.token start).behind = start + x.chars.length := by
  cases x with
  | number text =>
    exact congrArg (start + ·)
      (byteLength_of_subset_alphabet (Lexeme.chars_subset_alphabet (x := .number text) hx))
  | operator op => rfl

namespace TokenStream

variable {s after : TokenStream} {reader : Lookahead} {token : Token} {start : Nat}
  {text : List Char}

theorem Reads.offset_eq (h : s.Reads start text) : s.reader.offset = start := by
  rcases h.atCursor with hplace | ⟨-, hplace⟩
  · exact hplace.offset_eq
  · exact hplace.offset_eq

theorem Reads.buffer_eq_nil (h : s.Reads start []) : s.reader.buffer = [] := by
  have hremaining : s.reader.remaining = [] := by
    rcases h.atCursor with hplace | ⟨-, hplace⟩
    · exact hplace.remaining_eq
    · exact hplace.remaining_eq
  exact (List.append_eq_nil_iff.1 hremaining).1

/-- All that a stream can do: it takes a token and is directly behind it, for good if the token is a
    foreign character, or else it comes to the end of the text. -/
theorem Reads.next_cases (h : s.Reads start text) :
    (∃ token after, s.next = (some token, after) ∧ after.reader.offset = token.behind ∧
      (token.isForeign = true ∧ after.ended = true ∨
        ∃ rest, after.Reads token.behind rest ∧ token.behind + rest.length = start + text.length)) ∨
    ∃ after, s.next = (none, after) ∧ after.Reads (start + text.length) [] := by
  obtain ⟨⟨items, trailing⟩, tail, rfl, hl, htail⟩ := Layout.exists_layout_append text
  cases items with
  | cons item items =>
    obtain ⟨gap, x⟩ := item
    have hx := hl.written (gap, x) List.mem_cons_self
    rw [Layout.chars_cons, List.append_assoc, List.append_assoc] at h ⊢
    obtain ⟨after, hnext, hafter⟩ :=
      h.next_lexeme (hl.gaps_blank (gap, x) List.mem_cons_self) hx (hl.endsBefore htail)
    rw [← Lexeme.behind_token hx] at hafter
    refine .inl ⟨_, after, hnext, hafter.offset_eq, .inr ⟨_, hafter, ?_⟩⟩
    rw [Lexeme.behind_token hx]
    simp only [List.length_append]
    omega
  | nil =>
    rw [Layout.chars_nil] at h ⊢
    cases tail with
    | nil =>
      rw [List.append_nil] at h ⊢
      exact .inr (h.next_blanks hl.trailing_blank)
    | cons c rest =>
      obtain ⟨after, hnext, hended, hafter⟩ := h.next_foreign hl.trailing_blank (htail c rfl)
      exact .inl ⟨_, after, hnext, hafter.offset_eq, .inl ⟨rfl, hended⟩⟩

theorem Reads.offset_next_of_some (h : s.Reads start text) (hnext : s.next = (some token, after)) :
    after.reader.offset = token.behind := by
  rcases h.next_cases with ⟨token', after', hnext', hoffset, -⟩ | ⟨after', hnext', -⟩
  · rw [hnext, Prod.mk.injEq, Option.some.injEq] at hnext'
    rw [hnext'.1, hnext'.2, hoffset]
  · rw [hnext] at hnext'
    simp at hnext'

theorem Reads.reads_next_of_none (h : s.Reads start text) (hnext : s.next = (none, after)) :
    after.Reads (start + text.length) [] := by
  rcases h.next_cases with ⟨token', after', hnext', -⟩ | ⟨after', hnext', hafter⟩
  · rw [hnext] at hnext'
    simp at hnext'
  · rw [hnext, Prod.mk.injEq] at hnext'
    exact hnext'.2 ▸ hafter

/-- An attempt to read a number may have looked beyond a minus sign, which is then in front. -/
theorem length_buffer_of_no_number {reader₁ : Lookahead} (h : reader.buffer.length ≤ 1)
    (hs : reader.cursor = 0) (hnumber : reader.readNumber = (none, reader₁)) :
    reader₁.cursor = 0 ∧ (reader₁.buffer.length ≤ 1 ∨
      reader₁.buffer.length ≤ 2 ∧ reader₁.remaining.head? = some '-') := by
  have hlength := length_buffer_readNumber_of_none h hs (congrArg Prod.fst hnumber)
  have hstays := staysAt_readNumber (by omega) (congrArg Prod.fst hnumber)
  simp only [hnumber] at hlength hstays
  rw [hstays.remaining_eq]
  exact ⟨hstays.cursor_eq.trans hs, hlength⟩

/-- Where there is no operator either, no minus sign is in front. -/
theorem length_buffer_of_no_lexeme {reader₁ reader₂ : Lookahead} (h : reader.buffer.length ≤ 1)
    (hs : reader.cursor = 0) (hnumber : reader.readNumber = (none, reader₁))
    (hoperator : reader₁.readOperator = (none, reader₂)) :
    reader₂.cursor = 0 ∧ reader₂.buffer.length ≤ 1 := by
  obtain ⟨hcursor, hlength⟩ := length_buffer_of_no_number h hs hnumber
  obtain ⟨hlength₂, hminus⟩ :=
    length_buffer_readOperator_of_none hcursor (congrArg Prod.fst hoperator)
  have hstays := staysAt_readOperator (by omega) (congrArg Prod.fst hoperator)
  simp only [hoperator] at hlength₂ hstays
  have hone : reader₁.buffer.length ≤ 1 := by
    rcases hlength with hone | ⟨-, hhead⟩
    · exact hone
    · exact absurd hhead hminus
  exact ⟨hstays.cursor_eq.trans hcursor, by omega⟩

/-- A reader that was directly before its buffer is so again behind the token. -/
theorem read_rests (h : reader.buffer.length ≤ 1) (hs : reader.cursor = 0) :
    (read reader).2.reader.buffer.length ≤ 1 ∧
      ((read reader).1.isSome = true → (read reader).2.reader.cursor = 0) := by
  rcases hnumber : reader.readNumber with ⟨_ | number, reader₁⟩
  case some =>
    have hrests := length_buffer_readNumber_of_some (Nat.le_add_left_of_le h) (by omega)
      (by rw [hnumber]; rfl)
    rw [hnumber] at hrests
    rw [read_of_number hnumber]
    exact ⟨hrests.1, fun _ => hrests.2⟩
  case none =>
    rcases hoperator : reader₁.readOperator with ⟨_ | op, reader₂⟩
    case some =>
      obtain ⟨hcursor, hlength⟩ := length_buffer_of_no_number h hs hnumber
      have hrests := length_buffer_readOperator_of_some (by omega) hcursor
        (by rw [hoperator]; rfl)
      rw [hoperator] at hrests
      rw [read_of_operator hnumber hoperator]
      exact ⟨hrests.1, fun _ => hrests.2⟩
    case none =>
      obtain ⟨hcursor, hlength⟩ := length_buffer_of_no_lexeme h hs hnumber hoperator
      have hmoved := length_buffer_next reader₂
      rcases hnext : reader₂.next with ⟨_ | c, moved⟩
      case some =>
        simp only [hnext] at hmoved
        rw [read_of_char hnumber hoperator hnext]
        refine ⟨?_, fun _ => rfl⟩
        show (moved.buffer.drop moved.cursor).length ≤ 1
        rw [List.length_drop]
        omega
      case none =>
        simp only [hnext] at hmoved
        rw [read_of_end hnumber hoperator hnext]
        refine ⟨?_, fun hsome => absurd hsome Bool.false_ne_true⟩
        show moved.buffer.length ≤ 1
        omega

/-- The reader may have stepped beyond the end of the text when a token is asked for. -/
theorem next_rests (h : s.reader.buffer.length ≤ 1)
    (hs : s.reader.cursor ≤ s.reader.buffer.length + 1) :
    s.next.2.reader.buffer.length ≤ 1 ∧
      (s.next.1.isSome = true → s.next.2.reader.cursor = 0) := by
  unfold next
  split
  · exact ⟨h, fun hsome => absurd hsome Bool.false_ne_true⟩
  · exact read_rests (length_buffer_skipBlanks (Nat.le_add_left_of_le h) hs) rfl

/-- What a stream asks of its reader to find a token. -/
theorem exists_commands_read (reader : Lookahead) :
    ∃ commands, (read reader).2.reader = Command.after reader commands := by
  unfold read
  split
  next number after hnumber =>
    refine ⟨[.readNumber], ?_⟩
    simp [Command.after, Command.run, hnumber]
  next reader₁ hnumber =>
    split
    next op after hoperator =>
      refine ⟨[.readNumber, .readOperator], ?_⟩
      simp [Command.after, Command.run, hnumber, hoperator]
    next reader₂ hoperator =>
      split
      next c moved hnext =>
        refine ⟨[.readNumber, .readOperator, .next, .consume], ?_⟩
        simp [Command.after, Command.run, hnumber, hoperator, hnext]
      next moved hnext =>
        refine ⟨[.readNumber, .readOperator, .next], ?_⟩
        simp [Command.after, Command.run, hnumber, hoperator, hnext]

theorem exists_commands_next (s : TokenStream) :
    ∃ commands, s.next.2.reader = Command.after s.reader commands := by
  unfold next
  split
  · exact ⟨[], rfl⟩
  · obtain ⟨commands, hread⟩ := exists_commands_read s.reader.skipBlanks.2
    exact ⟨.skipBlanks :: commands, hread⟩

/-- The stream that is left when a text was asked for a token `n` times. -/
def asked (text : List Char) (n : Nat) : TokenStream := advance^[n] (ofList text)

theorem asked_succ (text : List Char) (n : Nat) : asked text (n + 1) = (asked text n).next.2 :=
  Function.iterate_succ_apply' advance n (ofList text)

theorem exists_commands_asked (text : List Char) (n : Nat) :
    ∃ commands, (asked text n).reader = Command.after (Lookahead.ofList text) commands := by
  induction n with
  | zero => exact ⟨[], rfl⟩
  | succ n ih =>
    obtain ⟨commands, hbefore⟩ := ih
    obtain ⟨commands', hnext⟩ := exists_commands_next (asked text n)
    refine ⟨commands ++ commands', ?_⟩
    rw [asked_succ, hnext, hbefore, Command.after_append]

theorem cursor_asked_le (text : List Char) (n : Nat) :
    (asked text n).reader.cursor ≤ (asked text n).reader.buffer.length + 1 := by
  obtain ⟨commands, hcommands⟩ := exists_commands_asked text n
  rw [hcommands]
  exact cursor_after_ofList_le text commands

theorem length_buffer_asked_le (text : List Char) (n : Nat) :
    (asked text n).reader.buffer.length ≤ 1 := by
  induction n with
  | zero => exact Nat.zero_le 1
  | succ n ih =>
    rw [asked_succ]
    exact (next_rests ih (cursor_asked_le text n)).1

/-- Until it ends at a foreign character, a stream has the rest of its text to read. -/
theorem reads_asked_or_foreign (text : List Char) (n : Nat) :
    (∃ start rest, (asked text n).Reads start rest ∧ start + rest.length = text.length) ∨
      (asked text n).ended = true ∧
        ∃ k < n, ∃ token ∈ (asked text k).next.1, token.isForeign = true := by
  induction n with
  | zero => exact .inl ⟨0, text, reads_ofList text, Nat.zero_add _⟩
  | succ n ih =>
    rw [asked_succ]
    rcases ih with ⟨start, rest, hreads, hlength⟩ | ⟨hended, k, hk, hforeign⟩
    · rcases hreads.next_cases with ⟨token, after, hnext, -, hafter⟩ | ⟨after, hnext, hafter⟩
      · rw [hnext]
        rcases hafter with ⟨hforeign, hended⟩ | ⟨rest', hrest', hlength'⟩
        · refine .inr ⟨hended, n, Nat.lt_succ_self n, token, ?_, hforeign⟩
          rw [hnext]
          rfl
        · exact .inl ⟨_, rest', hrest', hlength'.trans hlength⟩
      · rw [hnext]
        exact .inl ⟨_, [], hafter, hlength⟩
    · rw [next_of_ended hended]
      exact .inr ⟨hended, k, Nat.lt_succ_of_lt hk, hforeign⟩

/-- However often a text was asked for a token, the reader has looked at no more than one character
    that it did not take out. With the next token it is directly behind that token, before all that
    is in its buffer; and when there is no next token, and it was no foreign character that ended the
    stream, it has taken out the whole text. -/
theorem asked_reads_one_ahead (text : List Char) (n : Nat) :
    let s := asked text n
    s.reader.buffer.length ≤ 1 ∧
    (∃ looked, text = looked ++ s.reader.pending ∧ looked.length ≤ s.reader.offset + 1) ∧
    (∀ token after, s.next = (some token, after) →
      after.reader.position = -1 ∧ after.reader.offset = token.behind) ∧
    ∀ after, s.next = (none, after) →
      (∀ k < n, ∀ token ∈ (asked text k).next.1, token.isForeign = false) →
      after.reader.buffer = [] ∧ after.reader.offset = text.length := by
  intro s
  have hlength := length_buffer_asked_le text n
  have hrests := next_rests hlength (cursor_asked_le text n)
  have hreads := reads_asked_or_foreign text n
  refine ⟨hlength, ?_, ?_, ?_⟩
  · obtain ⟨commands, hcommands⟩ := exists_commands_asked text n
    have haccounts := (Accounts.ofList text).after commands
    rw [← hcommands, List.nil_append] at haccounts
    refine ⟨Command.takenAll (Lookahead.ofList text) commands ++ s.reader.buffer, ?_, ?_⟩
    · rw [List.append_assoc]
      exact haccounts.text_eq.symm
    · rw [List.length_append, ← haccounts.offset_eq]
      exact Nat.add_le_add_left hlength _
  · intro token after hnext
    have hcursor : s.next.2.reader.cursor = 0 := hrests.2 (by rw [hnext]; rfl)
    rw [hnext] at hcursor
    refine ⟨?_, ?_⟩
    · rw [position, show after.reader.cursor = 0 from hcursor]
      rfl
    · rcases hreads with ⟨start, rest, hreads, -⟩ | ⟨hended, -⟩
      · exact hreads.offset_next_of_some hnext
      · rw [next_of_ended hended] at hnext
        simp at hnext
  · intro after hnext hnone
    rcases hreads with ⟨start, rest, hreads, hrest⟩ | ⟨-, k, hk, token, htoken, hforeign⟩
    · have hafter := hreads.reads_next_of_none hnext
      exact ⟨hafter.buffer_eq_nil, hafter.offset_eq.trans hrest⟩
    · rw [hnone k hk token htoken] at hforeign
      exact absurd hforeign Bool.false_ne_true

end TokenStream

end StackCalc
