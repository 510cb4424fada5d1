import StackCalc.Lookahead.Cursor

/-!
# The buffer is not observable

A reader answers like the cursor without a buffer that stands at the same place of the text
(`AtCursor`). One lemma per operation says so (`Agrees`), for every reader whose cursor is not
beyond its buffer. Handing out is the one operation that asks for more: the characters that the
cursor has passed must have been looked at, which is what every step and every skip leaves behind.
-/

namespace StackCalc

namespace Cursor

theorem advance_zero {s : Cursor} (h : s.passed ≤ s.rest.length + 1) : s.advance 0 = s := by
  simp only [advance, Nat.add_zero, Nat.min_eq_left h]

theorem advance_advance (s : Cursor) (m n : Nat) : (s.advance m).advance n = s.advance (m + n) := by
  have hpassed : min (min (s.passed + m) (s.rest.length + 1) + n) (s.rest.length + 1) =
      min (s.passed + (m + n)) (s.rest.length + 1) := by omega
  simp only [advance, hpassed]

theorem ahead_advance (s : Cursor) (n : Nat) : (s.advance n).ahead = s.ahead.drop n := by
  simp only [ahead, advance, List.drop_drop]
  by_cases h : s.passed + n ≤ s.rest.length + 1
  · rw [Nat.min_eq_left h]
  · rw [List.drop_eq_nil_of_le (by omega), List.drop_eq_nil_of_le (by omega)]

theorem current_advance_one (s : Cursor) : (s.advance 1).current = s.ahead.head? := by
  have hpassed : min (s.passed + 1) (s.rest.length + 1) = min s.passed s.rest.length + 1 := by omega
  simp only [current, advance, ahead, List.head?_drop, hpassed]
  by_cases h : s.passed ≤ s.rest.length
  · rw [Nat.min_eq_left h]
  · rw [List.getElem?_eq_none (by omega), List.getElem?_eq_none (by omega)]

theorem acceptIf_of_ahead_eq_cons {s : Cursor} {c : Char} {tail : List Char}
    (h : s.ahead = c :: tail) (wanted : Char → Bool) :
    s.acceptIf wanted = if wanted c then (some c, s.advance 1) else (none, s) := by
  rw [acceptIf, h]

theorem acceptIf_of_ahead_eq_nil {s : Cursor} (h : s.ahead = []) (wanted : Char → Bool) :
    s.acceptIf wanted = (none, s) := by
  rw [acceptIf, h]

end Cursor

namespace Lookahead

/-- The reader is at the place of a cursor, not beyond its buffer, and has looked at all that the
    cursor has passed. -/
structure AtCursor (s : Lookahead) (place : Cursor) : Prop where
  place_eq : s.toCursor = place
  inBuffer : s.cursor ≤ s.buffer.length + 1
  settled : min s.cursor s.remaining.length ≤ s.buffer.length

/-- The same answer, and the same place after it. -/
def Agrees {α : Type} (x : α × Lookahead) (y : α × Cursor) : Prop :=
  x.1 = y.1 ∧ AtCursor x.2 y.2

theorem Agrees.eq_reply {α : Type} {x : α × Lookahead} {y : α × Cursor} (h : Agrees x y) :
    x = (y.1, x.2) :=
  Prod.ext h.1 rfl

variable {s t : Lookahead} {place : Cursor}

namespace AtCursor

theorem remaining_eq (h : AtCursor s place) : s.remaining = place.rest :=
  congrArg Cursor.rest h.place_eq

theorem cursor_eq (h : AtCursor s place) : s.cursor = place.passed :=
  congrArg Cursor.passed h.place_eq

theorem offset_eq (h : AtCursor s place) : s.offset = place.offset :=
  congrArg Cursor.offset h.place_eq

theorem take_buffer (h : AtCursor s place) :
    s.buffer.take s.cursor = place.rest.take place.passed := by
  have hsettled := h.settled
  rw [← h.remaining_eq, ← h.cursor_eq]
  by_cases hle : s.cursor ≤ s.buffer.length
  · rw [remaining, List.take_append_of_le_length hle]
  · have hpending : s.pending = [] := by
      apply List.eq_nil_of_length_eq_zero
      simp only [remaining, List.length_append] at hsettled
      omega
    rw [remaining, hpending, List.append_nil]

theorem current_eq (h : AtCursor s place) : s.current = place.current := by
  have htake := h.take_buffer
  have hcursor := h.cursor_eq
  unfold current Cursor.current
  rw [hcursor] at htake ⊢
  cases hpassed : place.passed with
  | zero => rfl
  | succ n =>
    rw [hpassed] at htake
    have hget := congrArg (fun cs => cs[n]?) htake
    simpa only [List.getElem?_take_of_lt (Nat.lt_succ_self n)] using hget

/-- Going back from a later place to an earlier one is always possible. -/
theorem setPosition_back (hs : s.cursor ≤ s.buffer.length + 1) {n : Nat}
    (h : AtCursor t (s.toCursor.advance n)) : AtCursor (t.setPosition s.position).2 s.toCursor := by
  have hcursor : t.cursor = min (s.cursor + n) (s.remaining.length + 1) := h.cursor_eq
  have hremaining : t.remaining = s.remaining := h.remaining_eq
  have hoffset : t.offset = s.offset := h.offset_eq
  have hsettled := h.settled
  have hinBuffer := h.inBuffer
  have hlength := s.length_buffer_le
  rw [hremaining] at hsettled
  have hposition : -1 ≤ s.position ∧ s.position ≤ (t.buffer.length : Int) := by
    simp only [position]
    omega
  have hback : (s.position + 1).toNat = s.cursor := by
    simp only [position]
    omega
  rw [setPosition, if_pos hposition, hback]
  refine ⟨?_, ?_, ?_⟩
  · simp only [toCursor, Cursor.mk.injEq]
    exact ⟨hremaining, trivial, hoffset⟩
  · show s.cursor ≤ t.buffer.length + 1
    omega
  · show min s.cursor t.remaining.length ≤ t.buffer.length
    rw [hremaining]
    omega

end AtCursor

theorem atCursor_next (s : Lookahead) : AtCursor s.next.2 (s.toCursor.advance 1) := by
  have hcursor := s.cursor_next
  have hbuffer := length_buffer_fill s (s.cursor + 1)
  have hlength := s.length_buffer_le
  have hmoved : s.next.2.buffer = (s.fill (s.cursor + 1)).buffer := rfl
  refine ⟨?_, ?_, ?_⟩
  · simp only [toCursor, Cursor.advance, Cursor.mk.injEq, remaining_next, offset_next, true_and,
      and_true]
    omega
  · rw [hmoved]
    omega
  · rw [hmoved, remaining_next]
    omega

theorem next_agrees (s : Lookahead) :
    Agrees s.next ((s.toCursor.advance 1).current, s.toCursor.advance 1) :=
  ⟨(atCursor_next s).current_eq, atCursor_next s⟩

theorem acceptIf_agrees (hs : s.cursor ≤ s.buffer.length + 1) (wanted : Char → Bool) :
    Agrees (s.acceptIf wanted) (s.toCursor.acceptIf wanted) := by
  have hnext := atCursor_next s
  have hreply : s.next.1 = s.toCursor.ahead.head? :=
    (next_agrees s).1.trans (Cursor.current_advance_one _)
  have hback := hnext.setPosition_back hs
  rw [acceptIf]
  cases hahead : s.toCursor.ahead with
  | nil =>
    rw [hahead, List.head?_nil] at hreply
    rw [Cursor.acceptIf_of_ahead_eq_nil hahead]
    rw [show s.next = (none, s.next.2) from Prod.ext hreply rfl]
    exact ⟨rfl, hback⟩
  | cons c tail =>
    rw [hahead, List.head?_cons] at hreply
    rw [Cursor.acceptIf_of_ahead_eq_cons hahead]
    rw [show s.next = (some c, s.next.2) from Prod.ext hreply rfl]
    cases hwanted : wanted c with
    | true =>
      simp only [hwanted, if_true]
      exact ⟨rfl, hnext⟩
    | false =>
      simp only [hwanted]
      exact ⟨rfl, hback⟩

theorem passWhile_atCursor (hs : s.cursor ≤ s.buffer.length + 1) (wanted : Char → Bool) :
    AtCursor (s.passWhile wanted)
      (s.toCursor.advance (s.toCursor.ahead.takeWhile wanted).length) := by
  fun_induction passWhile s wanted with
  | case1 s c moved haccept ih =>
    obtain ⟨hreply, hmoved⟩ := acceptIf_agrees hs wanted
    rw [haccept] at hreply hmoved
    cases hahead : s.toCursor.ahead with
    | nil =>
      rw [Cursor.acceptIf_of_ahead_eq_nil hahead] at hreply
      simp at hreply
    | cons d tail =>
      rw [Cursor.acceptIf_of_ahead_eq_cons hahead] at hreply hmoved
      cases hwanted : wanted d with
      | false => simp [hwanted] at hreply
      | true =>
        simp only [hwanted, if_true] at hmoved
        have hpass := ih hmoved.inBuffer
        rw [hmoved.place_eq, Cursor.ahead_advance, hahead, Cursor.advance_advance] at hpass
        rw [List.takeWhile_cons_of_pos hwanted, List.length_cons, Nat.add_comm]
        exact hpass
  | case2 s back haccept =>
    obtain ⟨hreply, hback⟩ := acceptIf_agrees hs wanted
    rw [haccept] at hreply hback
    have hplace : s.toCursor.advance 0 = s.toCursor := by
      apply Cursor.advance_zero
      have hlength := s.length_buffer_le
      show s.cursor ≤ s.remaining.length + 1
      omega
    cases hahead : s.toCursor.ahead with
    | nil =>
      rw [Cursor.acceptIf_of_ahead_eq_nil hahead] at hback
      rw [List.takeWhile_nil, List.length_nil, hplace]
      exact hback
    | cons d tail =>
      rw [Cursor.acceptIf_of_ahead_eq_cons hahead] at hreply hback
      cases hwanted : wanted d with
      | true => simp [hwanted] at hreply
      | false =>
        simp only [hwanted] at hback
        rw [List.takeWhile_cons_of_neg (by simp [hwanted]), List.length_nil, hplace]
        exact hback

theorem skipWhile_eq (s : Lookahead) (wanted : Char → Bool) :
    s.skipWhile wanted = ((s.acceptIf wanted).1.isSome, s.passWhile wanted) := by
  rw [skipWhile, passWhile]
  split
  next c moved haccept => rw [haccept, Option.isSome_some]
  next back haccept => rw [haccept, Option.isSome_none]

theorem skipWhile_agrees (hs : s.cursor ≤ s.buffer.length + 1) (wanted : Char → Bool) :
    Agrees (s.skipWhile wanted) (s.toCursor.skipWhile wanted) := by
  rw [skipWhile_eq]
  refine ⟨?_, passWhile_atCursor hs wanted⟩
  show (s.acceptIf wanted).1.isSome = !(s.toCursor.ahead.takeWhile wanted).isEmpty
  rw [(acceptIf_agrees hs wanted).1]
  cases hahead : s.toCursor.ahead with
  | nil => rw [Cursor.acceptIf_of_ahead_eq_nil hahead]; rfl
  | cons c tail =>
    rw [Cursor.acceptIf_of_ahead_eq_cons hahead]
    cases hwanted : wanted c <;> simp [hwanted]

theorem AtCursor.consume_agrees (h : AtCursor s place) : Agrees s.consume place.consume := by
  have htake := h.take_buffer
  have hremaining := s.consume_append_remaining
  have hrest : s.consume.2.remaining = place.rest.drop place.passed := by
    rw [h.remaining_eq, consume, htake] at hremaining
    exact List.append_cancel_left (hremaining.trans (List.take_append_drop _ _).symm)
  refine ⟨htake, ?_, Nat.zero_le _, ?_⟩
  · simp only [toCursor, Cursor.consume, Cursor.mk.injEq, hrest, offset_consume, h.offset_eq]
    refine ⟨trivial, rfl, ?_⟩
    simp only [consume, htake, List.length_take]
  · show min 0 _ ≤ _
    omega

theorem skipBlanks_agrees (hs : s.cursor ≤ s.buffer.length + 1) :
    Agrees s.skipBlanks s.toCursor.skipBlanks := by
  obtain ⟨hreply, hpassed⟩ := skipWhile_agrees hs isBlank
  exact ⟨hreply, hpassed.consume_agrees.2⟩

theorem readOperator_agrees (hs : s.cursor ≤ s.buffer.length + 1) :
    Agrees s.readOperator s.toCursor.readOperator := by
  obtain ⟨hreply, hplace⟩ := acceptIf_agrees hs fun c => (Operator.ofSymbol? c).isSome
  rw [readOperator, Cursor.readOperator]
  generalize s.acceptIf (fun c => (Operator.ofSymbol? c).isSome) = accepted at hreply hplace ⊢
  obtain ⟨reply, after⟩ := accepted
  cases hahead : s.toCursor.ahead with
  | nil =>
    rw [Cursor.acceptIf_of_ahead_eq_nil hahead] at hreply hplace
    obtain rfl : reply = none := hreply
    exact ⟨rfl, hplace⟩
  | cons c tail =>
    rw [Cursor.acceptIf_of_ahead_eq_cons hahead] at hreply hplace
    rw [List.head?_cons, Option.bind_some]
    cases hop : Operator.ofSymbol? c with
    | some op =>
      simp only [hop, Option.isSome_some, if_true] at hreply hplace
      subst hreply
      exact ⟨hop, hplace.consume_agrees.2⟩
    | none =>
      simp only [hop, Option.isSome_none] at hreply hplace
      obtain rfl : reply = none := hreply
      exact ⟨rfl, hplace⟩

/-- The place behind the minus sign, if there is one, and what the digits there make of the literal
    in front. -/
theorem exists_sign_advance (hplace : place.passed ≤ place.rest.length + 1) :
    ∃ n, (place.acceptIf (· == '-')).2 = place.advance n ∧
      Numeral.literalInFront place.ahead =
        match (place.ahead.drop n).takeWhile Char.isDigit with
        | [] => []
        | digits => place.ahead.take n ++ digits := by
  have hzero := Cursor.advance_zero hplace
  cases hahead : place.ahead with
  | nil => exact ⟨0, by rw [Cursor.acceptIf_of_ahead_eq_nil hahead, hzero], rfl⟩
  | cons c tail =>
    rw [Cursor.acceptIf_of_ahead_eq_cons hahead]
    by_cases hminus : c = '-'
    · subst hminus
      refine ⟨1, rfl, ?_⟩
      rw [Numeral.literalInFront, List.drop_one, List.tail_cons]
      cases tail.takeWhile Char.isDigit <;> rfl
    · refine ⟨0, by simp only [beq_iff_eq, hminus, if_false, hzero], ?_⟩
      rw [Numeral.literalInFront.eq_2 _ (by simp [hminus]), List.drop_zero]
      cases (c :: tail).takeWhile Char.isDigit <;> rfl

theorem readNumber_agrees (hs : s.cursor ≤ s.buffer.length + 1) :
    Agrees s.readNumber s.toCursor.readNumber := by
  have hplace : s.toCursor.passed ≤ s.toCursor.rest.length + 1 := by
    have hlength := s.length_buffer_le
    show s.cursor ≤ s.remaining.length + 1
    omega
  obtain ⟨n, hsign, hliteral⟩ := exists_sign_advance hplace
  have haccept : AtCursor (s.accept '-').2 (s.toCursor.advance n) :=
    hsign ▸ (acceptIf_agrees hs (· == '-')).2
  obtain ⟨hreply, hpassed⟩ := skipWhile_agrees haccept.inBuffer Char.isDigit
  rw [haccept.place_eq, Cursor.skipWhile, Cursor.ahead_advance] at hreply hpassed
  rw [readNumber, Cursor.readNumber]
  generalize (s.accept '-').2.skipWhile Char.isDigit = skipped at hreply hpassed ⊢
  obtain ⟨found, passed⟩ := skipped
  cases hdigits : (s.toCursor.ahead.drop n).takeWhile Char.isDigit with
  | nil =>
    simp only [hdigits, List.isEmpty_nil, Bool.not_true, List.length_nil] at hreply hpassed
    rw [Cursor.advance_advance] at hpassed
    simp only [hdigits] at hliteral
    subst hreply
    rw [hliteral]
    exact ⟨rfl, hpassed.setPosition_back hs⟩
  | cons d digits =>
    simp only [hdigits, List.isEmpty_cons, Bool.not_false] at hreply hpassed
    simp only [hdigits] at hliteral
    subst hreply
    have htake : (s.toCursor.ahead.take n).length = n := by
      apply List.length_take_of_le
      by_cases hle : n ≤ s.toCursor.ahead.length
      · exact hle
      · rw [List.drop_eq_nil_of_le (by omega)] at hdigits
        simp at hdigits
    have hlength : (Numeral.literalInFront s.toCursor.ahead).length = n + (d :: digits).length := by
      rw [hliteral, List.length_append, htake]
    have hne : Numeral.literalInFront s.toCursor.ahead ≠ [] := by simp [hliteral]
    obtain ⟨c, tail, hcons⟩ := List.exists_cons_of_ne_nil hne
    rw [Cursor.advance_advance, ← hlength] at hpassed
    rw [hcons] at hpassed ⊢
    obtain ⟨htaken, hafter⟩ := hpassed.consume_agrees
    exact ⟨congrArg (fun cs => some (String.ofList cs)) htaken, hafter⟩

end Lookahead

end StackCalc
