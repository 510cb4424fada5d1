import StackCalc.Proofs.Lookahead.Conservation

/-!
# Attempts that fail

An attempt takes what is in front of the cursor only if it is what was asked for. It has to look at
the text to find out, so an attempt that fails may leave the buffer longer than it was (`LooksOn`);
all else is as before (`StaysAt`). What carries this is that nothing but handing out shortens the
buffer: a position that was once in the buffer can be set again (`LooksOn.setPosition_back`), and so
every attempt finds its way back.
-/

namespace StackCalc.Lookahead

/-- Nothing was handed out from one reader to the other. What was looked at meanwhile has moved, in
    order, from the text to the end of the buffer. -/
structure LooksOn (s t : Lookahead) : Prop where
  offset_eq : t.offset = s.offset
  exists_moved : ∃ moved, t.buffer = s.buffer ++ moved ∧ s.pending = moved ++ t.pending

/-- The second reader is where the first one was, but may have looked at more of the text. -/
structure StaysAt (s t : Lookahead) : Prop extends LooksOn s t where
  position_eq : t.position = s.position
  remaining_eq : t.remaining = s.remaining

/-- Whether a reply says that nothing was found. -/
def Reply.isNothing : Reply → Bool
  | .char c => c.isNone
  | .number digits => digits.isNone
  | .operator op => op.isNone
  | _ => false

/-- Whether a command takes what is in front only if it is what was asked for. -/
def Command.isAttempt : Command → Bool
  | accept _ => true
  | acceptOneOf _ => true
  | readNumber => true
  | readOperator => true
  | _ => false

variable {s t u : Lookahead} {wanted : Char → Bool}

namespace LooksOn

theorem refl (s : Lookahead) : LooksOn s s := ⟨rfl, [], by simp⟩

theorem trans (h : LooksOn s t) (h' : LooksOn t u) : LooksOn s u := by
  obtain ⟨moved, hbuffer, hpending⟩ := h.exists_moved
  obtain ⟨moved', hbuffer', hpending'⟩ := h'.exists_moved
  refine ⟨h'.offset_eq.trans h.offset_eq, moved ++ moved', ?_, ?_⟩
  · rw [hbuffer', hbuffer, List.append_assoc]
  · rw [hpending, hpending', List.append_assoc]

theorem remaining_eq (h : LooksOn s t) : t.remaining = s.remaining := by
  obtain ⟨moved, hbuffer, hpending⟩ := h.exists_moved
  rw [remaining, remaining, hbuffer, hpending, List.append_assoc]

theorem length_buffer_le (h : LooksOn s t) : s.buffer.length ≤ t.buffer.length := by
  obtain ⟨moved, hbuffer, -⟩ := h.exists_moved
  rw [hbuffer, List.length_append]
  exact Nat.le_add_right _ _

theorem fill (s : Lookahead) (n : Nat) : LooksOn s (s.fill n) :=
  ⟨rfl, s.pending.take (n - s.buffer.length), rfl, (List.take_append_drop _ _).symm⟩

/-- Where the cursor is does not matter. -/
theorem moveCursor (h : LooksOn s t) (n : Nat) : LooksOn s { t with cursor := n } :=
  ⟨h.offset_eq, h.exists_moved⟩

theorem next (s : Lookahead) : LooksOn s s.next.2 := (fill s (s.cursor + 1)).moveCursor _

theorem setPosition (s : Lookahead) (p : Int) : LooksOn s (s.setPosition p).2 := by
  unfold Lookahead.setPosition
  split
  · exact (refl s).moveCursor _
  · exact refl s

theorem acceptIf (s : Lookahead) (wanted : Char → Bool) : LooksOn s (s.acceptIf wanted).2 := by
  have hback := (next s).trans (setPosition s.next.2 s.position)
  have hnext := next s
  unfold Lookahead.acceptIf
  split
  next c moved h =>
    rw [h] at hback hnext
    split
    · exact hnext
    · exact hback
  next moved h =>
    rw [h] at hback
    exact hback

theorem passWhile (s : Lookahead) (wanted : Char → Bool) : LooksOn s (s.passWhile wanted) := by
  have haccept := acceptIf s wanted
  fun_induction Lookahead.passWhile s wanted with
  | case1 s c moved h ih =>
    rw [h] at haccept
    exact haccept.trans (ih (acceptIf moved wanted))
  | case2 s back h =>
    rw [h] at haccept
    exact haccept

theorem skipWhile (s : Lookahead) (wanted : Char → Bool) : LooksOn s (s.skipWhile wanted).2 := by
  rw [skipWhile_eq]
  exact passWhile s wanted

/-- Handing out nothing leaves the buffer as it is. -/
theorem consume_of_nil (h : s.consume.1 = []) : LooksOn s s.consume.2 := by
  have hbuffer := List.take_append_drop s.cursor s.buffer
  rw [show s.buffer.take s.cursor = [] from h, List.nil_append] at hbuffer
  refine ⟨?_, [], ?_, rfl⟩
  · rw [offset_consume, h]
    rfl
  · rw [List.append_nil]
    exact hbuffer

/-- As long as nothing is handed out, a reader can go back to where it was. -/
theorem setPosition_back (h : LooksOn s t) (hs : s.cursor ≤ s.buffer.length + 1) :
    t.setPosition s.position = (true, { t with cursor := s.cursor }) := by
  have hbuffer := h.length_buffer_le
  have hbounds : -1 ≤ s.position ∧ s.position ≤ (t.buffer.length : Int) := by
    simp only [position]
    omega
  have hcursor : (s.position + 1).toNat = s.cursor := by
    simp only [position]
    omega
  rw [Lookahead.setPosition, if_pos hbounds, hcursor]

theorem staysAt (h : LooksOn s t) : StaysAt s { t with cursor := s.cursor } :=
  ⟨h.moveCursor _, rfl, h.remaining_eq⟩

end LooksOn

theorem staysAt_acceptIf (hs : s.cursor ≤ s.buffer.length + 1)
    (h : (s.acceptIf wanted).1 = none) : StaysAt s (s.acceptIf wanted).2 := by
  have hback : (s.acceptIf wanted).2 = s.fill (s.cursor + 1) :=
    acceptIf_eq_none hs (Prod.ext h rfl)
  rw [hback]
  exact (LooksOn.fill s (s.cursor + 1)).staysAt

theorem looksOn_digits (s : Lookahead) : LooksOn s ((s.accept '-').2.skipWhile Char.isDigit).2 :=
  (LooksOn.acceptIf s (· == '-')).trans (LooksOn.skipWhile _ Char.isDigit)

theorem staysAt_readNumber (hs : s.cursor ≤ s.buffer.length + 1) (h : s.readNumber.1 = none) :
    StaysAt s s.readNumber.2 := by
  have hdigits := looksOn_digits s
  unfold readNumber at h ⊢
  split at h
  next => simp at h
  next passed hskip =>
    rw [hskip] at hdigits
    rw [hdigits.setPosition_back hs]
    exact hdigits.staysAt

theorem staysAt_readOperator (hs : s.cursor ≤ s.buffer.length + 1) (h : s.readOperator.1 = none) :
    StaysAt s s.readOperator.2 := by
  unfold readOperator at h ⊢
  split at h
  next c moved haccept =>
    have hwanted : (Operator.ofSymbol? c).isSome = true := (acceptIf_eq_some haccept).2
    simp [show Operator.ofSymbol? c = none from h] at hwanted
  next back haccept =>
    have hstays := staysAt_acceptIf hs (congrArg Prod.fst haccept)
    rw [haccept] at hstays
    exact hstays

/-- Each kind of attempt, where it fails, leaves the reader where it was. -/
theorem staysAt_run (hs : s.cursor ≤ s.buffer.length + 1) {command : Command}
    (hattempt : command.isAttempt = true) (h : (command.run s).1.isNothing = true) :
    StaysAt s (command.run s).2 := by
  cases command with
  | accept c => exact staysAt_acceptIf hs (Option.isNone_iff_eq_none.1 h)
  | acceptOneOf set => exact staysAt_acceptIf hs (Option.isNone_iff_eq_none.1 h)
  | readNumber => exact staysAt_readNumber hs (Option.isNone_iff_eq_none.1 h)
  | readOperator => exact staysAt_readOperator hs (Option.isNone_iff_eq_none.1 h)
  | _ => exact absurd hattempt Bool.false_ne_true

theorem setPosition_eq_true_iff {p : Int} :
    (s.setPosition p).1 = true ↔ -1 ≤ p ∧ p ≤ s.buffer.length := by
  unfold setPosition
  split
  next hbounds => simp [hbounds]
  next hbounds => simp [hbounds]

/-- Where a position is set, only the cursor moves. -/
theorem setPosition_of_eq_true {p : Int} (h : (s.setPosition p).1 = true) :
    (s.setPosition p).2.position = p ∧
      (s.setPosition p).2 = { s with cursor := (s.setPosition p).2.cursor } := by
  have hbounds := setPosition_eq_true_iff.1 h
  rw [setPosition, if_pos hbounds]
  refine ⟨?_, rfl⟩
  simp only [position]
  omega

theorem setPosition_of_eq_false {p : Int} (h : (s.setPosition p).1 = false) :
    (s.setPosition p).2 = s := by
  have hbounds : ¬(-1 ≤ p ∧ p ≤ s.buffer.length) := by
    rw [← setPosition_eq_true_iff, h]
    exact Bool.false_ne_true
  rw [setPosition, if_neg hbounds]

/-- Whatever was asked of a reader before: an attempt that fails leaves it where it was, with the
    same text still to be handed out, and at most more of that text in the buffer, because going
    back succeeds wherever a step or the digits of a number are given back; and a position is set
    exactly if it is in the buffer or directly behind it, which moves the cursor there and changes
    nothing else, while any other position changes nothing at all. -/
theorem after_ofList_attempts (text : List Char) (commands : List Command) :
    let s := Command.after (ofList text) commands
    (∀ command : Command, command.isAttempt = true → (command.run s).1.isNothing = true →
      StaysAt s (command.run s).2) ∧
    (s.next.2.setPosition s.position).1 = true ∧
    (((s.accept '-').2.skipWhile Char.isDigit).2.setPosition s.position).1 = true ∧
    ∀ p, ((s.setPosition p).1 = true ↔ -1 ≤ p ∧ p ≤ s.buffer.length) ∧
      ((s.setPosition p).1 = true → (s.setPosition p).2.position = p ∧
        (s.setPosition p).2 = { s with cursor := (s.setPosition p).2.cursor }) ∧
      ((s.setPosition p).1 = false → (s.setPosition p).2 = s) := by
  intro s
  have hs : s.cursor ≤ s.buffer.length + 1 := cursor_after_ofList_le text commands
  refine ⟨?_, ?_, ?_, ?_⟩
  · exact fun command hattempt h => staysAt_run hs hattempt h
  · rw [(LooksOn.next s).setPosition_back hs]
  · rw [(looksOn_digits s).setPosition_back hs]
  · exact fun p => ⟨setPosition_eq_true_iff, setPosition_of_eq_true, setPosition_of_eq_false⟩

end StackCalc.Lookahead
