import StackCalc.Lookahead.Reading
import StackCalc.Token.Basic

/-!
# The tokens of a text

A token stream skips blanks and takes the longest number in front of it, or else an operator, or
else whatever character comes next. That last kind ends the stream: nothing after a foreign
character is looked at. `drain` takes tokens until there are none and `tokenize` is what it takes; it
ends because each token is taken out of the text that remains (`length_remaining_next_lt`).
-/

namespace StackCalc

/-- A text from which tokens are taken. -/
structure TokenStream where
  reader : Lookahead
  /-- Whether a foreign character was found, after which there are no tokens. -/
  ended : Bool
  deriving DecidableEq, Repr

namespace TokenStream

/-- The stream at the start of a text. -/
def ofList (text : List Char) : TokenStream := ⟨Lookahead.ofList text, false⟩

/-- Takes the token that starts where the reader is. -/
def read (reader : Lookahead) : Option Token × TokenStream :=
  match reader.readNumber with
  | (some text, after) => (some (.operand reader.offset text.utf8ByteSize), ⟨after, false⟩)
  | (none, reader₁) =>
    match reader₁.readOperator with
    | (some op, after) => (some (.operator reader.offset op), ⟨after, false⟩)
    | (none, reader₂) =>
      match reader₂.next with
      | (some c, moved) => (some (.foreign reader.offset c), ⟨moved.consume.2, true⟩)
      | (none, moved) => (none, ⟨moved, false⟩)

/-- Takes the next token, if there is one. -/
def next (s : TokenStream) : Option Token × TokenStream :=
  if s.ended then (none, s) else read s.reader.skipBlanks.2

/-- A token is taken out of the text that remains. -/
theorem length_remaining_read_lt {reader : Lookahead} {token : Token} {after : TokenStream}
    (h : read reader = (some token, after)) :
    after.reader.remaining.length < reader.remaining.length := by
  unfold read at h
  split at h
  next text after hnumber =>
    obtain ⟨-, rfl⟩ := Prod.mk.inj h
    have hremaining := (reader.accept '-').2.remaining_skipWhile Char.isDigit
    unfold Lookahead.readNumber at hnumber
    split at hnumber
    next passed hskip =>
      obtain ⟨-, rfl⟩ := Prod.mk.inj hnumber
      obtain ⟨hpos, hbuffer⟩ := Lookahead.cursor_skipWhile_of_true hskip
      have hlt := Lookahead.length_remaining_consume_lt (by omega) hbuffer
      simp only [hskip, Lookahead.remaining_accept] at hremaining
      exact hremaining ▸ hlt
    next => simp at hnumber
  next reader₁ hnumber =>
    have hreader₁ : reader₁.remaining = reader.remaining := by
      simpa [hnumber] using Lookahead.remaining_readNumber_of_none (s := reader) (by rw [hnumber])
    split at h
    next op after hoperator =>
      obtain ⟨-, rfl⟩ := Prod.mk.inj h
      have hremaining := reader₁.remaining_acceptIf fun c => (Operator.ofSymbol? c).isSome
      unfold Lookahead.readOperator at hoperator
      split at hoperator
      next c moved haccept =>
        obtain ⟨-, rfl⟩ := Prod.mk.inj hoperator
        obtain ⟨hcursor, hbuffer⟩ := Lookahead.cursor_acceptIf_of_some haccept
        have hlt := Lookahead.length_remaining_consume_lt (by omega) hbuffer
        simp only [haccept] at hremaining
        exact hreader₁ ▸ hremaining ▸ hlt
      next => simp at hoperator
    next reader₂ hoperator =>
      have hreader₂ : reader₂.remaining = reader₁.remaining := by
        simpa [hoperator] using
          Lookahead.remaining_readOperator_of_none (s := reader₁) (by rw [hoperator])
      split at h
      next c moved hnext =>
        obtain ⟨-, rfl⟩ := Prod.mk.inj h
        have hremaining := reader₂.remaining_next
        obtain ⟨hmoved, hbuffer⟩ := Lookahead.next_of_some hnext
        have hlt := Lookahead.length_remaining_consume_lt (s := moved) (by simp [hmoved]) hbuffer
        simp only [hnext] at hremaining
        exact hreader₁ ▸ hreader₂ ▸ hremaining ▸ hlt
      next => simp at h

/-- Skipping blanks leaves no more than there was. -/
theorem length_remaining_skipBlanks_le (reader : Lookahead) :
    reader.skipBlanks.2.remaining.length ≤ reader.remaining.length := by
  have hconsume := (reader.skipWhile isBlank).2.consume_append_remaining
  rw [reader.remaining_skipWhile] at hconsume
  rw [← hconsume, List.length_append]
  exact Nat.le_add_left _ _

theorem length_remaining_next_lt {s after : TokenStream} {token : Token}
    (h : s.next = (some token, after)) :
    after.reader.remaining.length < s.reader.remaining.length := by
  unfold next at h
  split at h
  next => simp at h
  next => exact Nat.lt_of_lt_of_le (length_remaining_read_lt h) (length_remaining_skipBlanks_le _)

/-- Takes all tokens; the stream that is left has none. -/
def drain (s : TokenStream) : List Token × TokenStream :=
  match _h : s.next with
  | (some token, after) =>
    let rest := after.drain
    (token :: rest.1, rest.2)
  | (none, after) => ([], after)
termination_by s.reader.remaining.length
decreasing_by exact length_remaining_next_lt _h

end TokenStream

/-- The tokens of a text, in the order of the text. -/
def tokenize (text : List Char) : List Token := (TokenStream.ofList text).drain.1

end StackCalc
