import StackCalc.Proofs.Lookahead.Attempts

/-!
# How far a reader looks ahead

A step looks at the character that it goes to and at none behind it. So a reader that stepped over
characters for as long as they were wanted has looked at one more than its cursor has passed
(`LooksOneAhead`), namely at the one that stopped it, and this one alone is left in the buffer when
the others are taken out. Only a number can leave two: a minus sign is passed, the character behind it
turns out to be no digit, and the cursor goes back before the sign
(`length_buffer_readNumber_of_none`).
-/

namespace StackCalc.Lookahead

/-- At most one character behind those that the cursor has passed was looked at. -/
def LooksOneAhead (s : Lookahead) : Prop := s.buffer.length ≤ s.cursor + 1

variable {s : Lookahead}

theorem length_buffer_next (s : Lookahead) :
    s.next.2.buffer.length = max s.buffer.length (min (s.cursor + 1) s.remaining.length) :=
  length_buffer_fill s (s.cursor + 1)

theorem StaysAt.cursor_eq {t : Lookahead} (h : StaysAt s t) : t.cursor = s.cursor := by
  have hposition := h.position_eq
  simp only [position] at hposition
  omega

theorem buffer_setPosition (s : Lookahead) (p : Int) : (s.setPosition p).2.buffer = s.buffer := by
  unfold setPosition
  split <;> rfl

/-- A step is tried by taking it. -/
theorem buffer_acceptIf (s : Lookahead) (wanted : Char → Bool) :
    (s.acceptIf wanted).2.buffer = s.next.2.buffer := by
  unfold acceptIf
  split
  next c moved hnext =>
    split
    · rw [hnext]
    · rw [buffer_setPosition, hnext]
  next moved hnext => rw [buffer_setPosition, hnext]

theorem head?_remaining_of_next (hs : s.cursor = 0) : s.next.1 = s.remaining.head? := by
  rw [(next_agrees s).1, Cursor.current_advance_one]
  show (s.remaining.drop s.cursor).head? = _
  rw [hs, List.drop_zero]

theorem cursor_acceptIf_of_none (hs : s.cursor ≤ s.buffer.length + 1) {wanted : Char → Bool}
    {back : Lookahead} (h : s.acceptIf wanted = (none, back)) : back.cursor = s.cursor := by
  rw [acceptIf_eq_none hs h, cursor_fill]

namespace LooksOneAhead

theorem acceptIf (h : s.LooksOneAhead) (hs : s.cursor ≤ s.buffer.length + 1)
    (wanted : Char → Bool) : (s.acceptIf wanted).2.LooksOneAhead := by
  unfold LooksOneAhead at h ⊢
  rw [buffer_acceptIf, length_buffer_next]
  cases haccept : s.acceptIf wanted with
  | mk reply after =>
    cases reply with
    | some c =>
      have hcursor := (cursor_acceptIf_of_some haccept).1
      show _ ≤ after.cursor + 1
      omega
    | none =>
      have hcursor := cursor_acceptIf_of_none hs haccept
      show _ ≤ after.cursor + 1
      omega

/-- The induction is on the steps: each of them keeps what was looked at one ahead. -/
theorem passWhile (h : s.LooksOneAhead) (hs : s.cursor ≤ s.buffer.length + 1)
    (wanted : Char → Bool) : (s.passWhile wanted).LooksOneAhead := by
  have hstep := h.acceptIf hs wanted
  fun_induction Lookahead.passWhile s wanted with
  | case1 s c moved haccept ih =>
    rw [haccept] at hstep
    have hmoved : moved.cursor ≤ moved.buffer.length + 1 :=
      Nat.le_succ_of_le (cursor_acceptIf_of_some haccept).2
    exact ih hstep hmoved (hstep.acceptIf hmoved wanted)
  | case2 s back haccept =>
    rw [haccept] at hstep
    exact hstep

theorem skipWhile (h : s.LooksOneAhead) (hs : s.cursor ≤ s.buffer.length + 1)
    (wanted : Char → Bool) : (s.skipWhile wanted).2.LooksOneAhead := by
  rw [skipWhile_eq]
  exact h.passWhile hs wanted

theorem length_buffer_consume (h : s.LooksOneAhead) : s.consume.2.buffer.length ≤ 1 := by
  unfold LooksOneAhead at h
  show (s.buffer.drop s.cursor).length ≤ 1
  rw [List.length_drop]
  omega

end LooksOneAhead

theorem length_buffer_skipBlanks (h : s.LooksOneAhead) (hs : s.cursor ≤ s.buffer.length + 1) :
    s.skipBlanks.2.buffer.length ≤ 1 :=
  (h.skipWhile hs isBlank).length_buffer_consume

/-- What an attempt to read a number has looked at, before it is decided. -/
theorem looksOneAhead_digits (h : s.LooksOneAhead) (hs : s.cursor ≤ s.buffer.length + 1) :
    ((s.accept '-').2.skipWhile Char.isDigit).2.LooksOneAhead :=
  (h.acceptIf hs (· == '-')).skipWhile (acceptIf_agrees hs (· == '-')).2.inBuffer Char.isDigit

theorem length_buffer_readNumber_of_some (h : s.LooksOneAhead)
    (hs : s.cursor ≤ s.buffer.length + 1) (hsome : s.readNumber.1.isSome = true) :
    s.readNumber.2.buffer.length ≤ 1 ∧ s.readNumber.2.cursor = 0 := by
  have hdigits := looksOneAhead_digits h hs
  unfold readNumber at hsome ⊢
  split at hsome
  next passed hskip =>
    rw [hskip] at hdigits
    exact ⟨hdigits.length_buffer_consume, rfl⟩
  next => simp at hsome

/-- Where there is no number, the character behind the minus sign, if there is one, is the last that
    was looked at. -/
theorem length_buffer_readNumber_le (h : s.LooksOneAhead) (hs : s.cursor ≤ s.buffer.length + 1)
    (hnone : s.readNumber.1 = none) :
    s.readNumber.2.buffer.length ≤ (s.acceptIf (· == '-')).2.cursor + 1 := by
  have hdigits := looksOneAhead_digits h hs
  have haccepted := (acceptIf_agrees hs (· == '-')).2.inBuffer
  unfold readNumber at hnone ⊢
  split at hnone
  next => simp at hnone
  next passed hskip =>
    rw [hskip] at hdigits
    rw [buffer_setPosition]
    unfold skipWhile at hskip
    split at hskip
    next => simp at hskip
    next back hback =>
      obtain ⟨-, rfl⟩ := Prod.mk.inj hskip
      have hcursor := cursor_acceptIf_of_none haccepted hback
      exact hcursor ▸ hdigits

/-- A number that is not there leaves a second character in the buffer only behind a minus sign. -/
theorem length_buffer_readNumber_of_none (h : s.buffer.length ≤ 1) (hs : s.cursor = 0)
    (hnone : s.readNumber.1 = none) :
    s.readNumber.2.buffer.length ≤ 1 ∨
      s.readNumber.2.buffer.length ≤ 2 ∧ s.remaining.head? = some '-' := by
  have hbound : s.cursor ≤ s.buffer.length + 1 := by omega
  have hlength := length_buffer_readNumber_le (Nat.le_add_left_of_le h) hbound hnone
  cases hminus : s.acceptIf (· == '-') with
  | mk reply after =>
    rw [hminus] at hlength
    change _ ≤ after.cursor + 1 at hlength
    cases reply with
    | some c =>
      obtain ⟨hnext, hc⟩ := acceptIf_eq_some hminus
      have hhead := head?_remaining_of_next hs
      rw [hnext, eq_of_beq hc] at hhead
      have hcursor : after.cursor = s.cursor + 1 := (cursor_acceptIf_of_some hminus).1
      exact .inr ⟨by omega, hhead.symm⟩
    | none =>
      have hcursor : after.cursor = s.cursor := cursor_acceptIf_of_none hbound hminus
      exact .inl (by omega)

theorem length_buffer_readOperator_of_some (h : s.buffer.length ≤ 2) (hs : s.cursor = 0)
    (hsome : s.readOperator.1.isSome = true) :
    s.readOperator.2.buffer.length ≤ 1 ∧ s.readOperator.2.cursor = 0 := by
  have hbuffer := s.buffer_acceptIf fun c => (Operator.ofSymbol? c).isSome
  have hlength := length_buffer_next s
  unfold readOperator at hsome ⊢
  split at hsome
  next c moved haccept =>
    rw [haccept] at hbuffer
    have hcursor := (cursor_acceptIf_of_some haccept).1
    have hmoved : moved.LooksOneAhead := by
      unfold LooksOneAhead
      rw [hbuffer]
      omega
    exact ⟨hmoved.length_buffer_consume, rfl⟩
  next => simp at hsome

/-- Where there is no operator, there is no minus sign, and only the character in front was looked
    at. -/
theorem length_buffer_readOperator_of_none (hs : s.cursor = 0) (hnone : s.readOperator.1 = none) :
    s.readOperator.2.buffer.length ≤ max s.buffer.length 1 ∧ s.remaining.head? ≠ some '-' := by
  have hbound : s.cursor ≤ s.buffer.length + 1 := by omega
  have hlength := length_buffer_next s
  have hagrees := (readOperator_agrees hbound).1
  constructor
  · unfold readOperator at hnone ⊢
    split at hnone
    next c moved haccept =>
      have hwanted : (Operator.ofSymbol? c).isSome = true := (acceptIf_eq_some haccept).2
      simp [show Operator.ofSymbol? c = none from hnone] at hwanted
    next back haccept =>
      have hbuffer := s.buffer_acceptIf fun c => (Operator.ofSymbol? c).isSome
      rw [haccept] at hbuffer
      show back.buffer.length ≤ _
      rw [hbuffer]
      omega
  · intro hminus
    have hahead : s.toCursor.ahead.head? = some '-' := by
      show (s.remaining.drop s.cursor).head? = _
      rw [hs, List.drop_zero, hminus]
    rw [hnone, Cursor.readOperator, hahead] at hagrees
    simp [Operator.ofSymbol?] at hagrees

end StackCalc.Lookahead
