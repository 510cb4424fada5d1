import StackCalc.Proofs.Lookahead.Conservation
import StackCalc.Proofs.Lookahead.Literal

/-!
# The longest match

What a reader finds depends on the text behind its cursor alone (`ahead`), wherever the cursor is:
in the middle of the buffer, behind it or behind the text. A skip passes the longest run in front,
the blanks and the number that are taken out are the longest there are, and what the cursor had
passed before is taken out with them. The reader is compared with a cursor without a buffer, for
which finding the longest front is looking at it.
-/

namespace StackCalc

/-- The longest front of a text with a property. -/
structure IsLongestFront (P : List Char → Prop) (cs front : List Char) : Prop where
  isPrefix : front <+: cs
  holds : P front
  longest : ∀ other, other <+: cs → P other → other.length ≤ front.length

theorem isLongestFront_takeWhile {P : Char → Prop} {p : Char → Bool} (hp : ∀ c, p c = true ↔ P c)
    (cs : List Char) : IsLongestFront (fun front => ∀ c ∈ front, P c) cs (cs.takeWhile p) where
  isPrefix := List.takeWhile_prefix p
  holds := fun c hc => (hp c).1 (List.all_eq_true.1 List.all_takeWhile c hc)
  longest := fun _ hfront h => Numeral.length_le_takeWhile hfront fun c hc => (hp c).2 (h c hc)

theorem isLongestFront_literalInFront {cs : List Char} (h : Numeral.literalInFront cs ≠ []) :
    IsLongestFront Numeral.IsLiteral cs (Numeral.literalInFront cs) where
  isPrefix := by
    obtain ⟨behind, hcs, -⟩ := (Numeral.exists_literalInFront_append h).2
    exact ⟨behind, hcs.symm⟩
  holds := (Numeral.exists_literalInFront_append h).1
  longest := fun _ hfront hliteral => Numeral.length_le_literalInFront hfront hliteral

theorem Operator.mem_symbols_iff {c : Char} :
    c ∈ ['+', '-', '*', '/'] ↔ ∃ op : Operator, op.symbol = c := by
  constructor
  · intro h
    simp only [List.mem_cons, List.not_mem_nil, or_false] at h
    rcases h with rfl | rfl | rfl | rfl
    · exact ⟨.add, rfl⟩
    · exact ⟨.sub, rfl⟩
    · exact ⟨.mul, rfl⟩
    · exact ⟨.div, rfl⟩
  · rintro ⟨op, rfl⟩
    cases op <;> simp [symbol]

namespace Cursor

theorem readNumber_of_nil (s : Cursor) (h : Numeral.literalInFront s.ahead = []) :
    s.readNumber = (none, s) := by
  rw [readNumber, h]

theorem readNumber_of_ne_nil (s : Cursor) (h : Numeral.literalInFront s.ahead ≠ []) :
    s.readNumber =
      (some (String.ofList (s.advance (Numeral.literalInFront s.ahead).length).consume.1),
        (s.advance (Numeral.literalInFront s.ahead).length).consume.2) := by
  obtain ⟨c, tail, hcons⟩ := List.exists_cons_of_ne_nil h
  rw [readNumber, hcons]

end Cursor

namespace Lookahead

/-- The text behind the character that the cursor is on. -/
def ahead (s : Lookahead) : List Char := s.remaining.drop s.cursor

/-- The first `n` characters that were still to be handed out are taken out, and reading goes on
    behind them. -/
structure Removes (s t : Lookahead) (n : Nat) : Prop where
  remaining_eq : t.remaining = s.remaining.drop n
  offset_eq : t.offset = s.offset + n
  position_eq : t.position = -1

/-- Whatever a reader looks for, it finds the longest front of this kind of the text ahead. -/
structure FindsLongest (s : Lookahead) : Prop where
  /-- A skip passes the members of the set that are in front, tells whether there were any and takes
      nothing out. -/
  skipManyOf : ∀ set : List Char, ∃ run,
    IsLongestFront (fun cs => ∀ c ∈ cs, c ∈ set) s.ahead run ∧
    (s.skipManyOf set).1 = decide (0 < run.length) ∧
    (s.skipManyOf set).2.position = s.position + run.length ∧
    (s.skipManyOf set).2.offset = s.offset
  /-- Blanks are taken out together with what the cursor had passed. -/
  skipBlanks : ∃ run,
    IsLongestFront (fun cs => ∀ c ∈ cs, c = ' ' ∨ c = '\t') s.ahead run ∧
    (s.skipBlanks.1 = true ↔ s.ahead.head? = some ' ' ∨ s.ahead.head? = some '\t') ∧
    Removes s s.skipBlanks.2 (min (s.cursor + run.length) s.remaining.length)
  /-- There is a number exactly where a literal is in front. -/
  readNumber_isSome : s.readNumber.1.isSome = true ↔
    ∃ literal, literal <+: s.ahead ∧ Numeral.IsLiteral literal
  /-- A number is handed out together with what the cursor had passed. -/
  readNumber : ∀ number, s.readNumber.1 = some number → ∃ literal,
    IsLongestFront Numeral.IsLiteral s.ahead literal ∧
    number.toList = s.remaining.take s.cursor ++ literal ∧
    Removes s s.readNumber.2 number.toList.length
  /-- An operator is a single character. -/
  readOperator : ∀ c, (s.readOperator.1.map Operator.symbol = some c ↔
      s.ahead.head? = some c ∧ c ∈ ['+', '-', '*', '/']) ∧
    (s.readOperator.1.map Operator.symbol = some c → Removes s s.readOperator.2 (s.cursor + 1))

variable {s t : Lookahead} {front : List Char}

/-- The cursor of a reader is at most directly behind the text, and a front of the text ahead of it
    ends in the text. -/
theorem cursor_add_length_le (hs : s.cursor ≤ s.buffer.length + 1) (hfront : front <+: s.ahead) :
    s.cursor + front.length ≤ s.remaining.length + 1 ∧
      (front ≠ [] → s.cursor + front.length ≤ s.remaining.length) := by
  have hbuffer := s.length_buffer_le
  have hlength := hfront.length_le
  rw [ahead, List.length_drop] at hlength
  refine ⟨by omega, ?_⟩
  intro hne
  have hpos := List.length_pos_iff.2 hne
  omega

theorem removes_of_consume {n : Nat} (h : AtCursor t (s.toCursor.advance n).consume.2)
    (hn : s.cursor + n ≤ s.remaining.length + 1) :
    Removes s t (min (s.cursor + n) s.remaining.length) := by
  have hpassed : (s.toCursor.advance n).passed = s.cursor + n := Nat.min_eq_left hn
  have hrest : s.remaining.drop (s.cursor + n) =
      s.remaining.drop (min (s.cursor + n) s.remaining.length) := by
    by_cases hle : s.cursor + n ≤ s.remaining.length
    · rw [Nat.min_eq_left hle]
    · rw [List.drop_eq_nil_of_le (by omega), List.drop_eq_nil_of_le (by omega)]
  refine ⟨?_, ?_, ?_⟩
  · rw [h.remaining_eq, Cursor.consume, hpassed]
    exact hrest
  · rw [h.offset_eq, Cursor.consume, hpassed]
    rfl
  · rw [position, h.cursor_eq]
    rfl

/-- A skip tells whether the run that it passes has any characters. -/
theorem skipWhile_eq_decide (hs : s.cursor ≤ s.buffer.length + 1) (wanted : Char → Bool) :
    (s.skipWhile wanted).1 = decide (0 < (s.ahead.takeWhile wanted).length) := by
  refine (skipWhile_agrees hs wanted).1.trans ?_
  show (!(s.ahead.takeWhile wanted).isEmpty) = _
  cases s.ahead.takeWhile wanted <;> simp

theorem skipManyOf_finds_longest (hs : s.cursor ≤ s.buffer.length + 1) (set : List Char) :
    ∃ run, IsLongestFront (fun cs => ∀ c ∈ cs, c ∈ set) s.ahead run ∧
      (s.skipManyOf set).1 = decide (0 < run.length) ∧
      (s.skipManyOf set).2.position = s.position + run.length ∧
      (s.skipManyOf set).2.offset = s.offset := by
  have hrun : IsLongestFront (fun cs => ∀ c ∈ cs, c ∈ set) s.ahead
      (s.ahead.takeWhile set.contains) :=
    isLongestFront_takeWhile (fun _ => List.contains_iff_mem) _
  have hcursor : (s.skipManyOf set).2.cursor =
      s.cursor + (s.ahead.takeWhile set.contains).length :=
    (skipWhile_agrees hs set.contains).2.cursor_eq.trans
      (Nat.min_eq_left (cursor_add_length_le hs hrun.isPrefix).1)
  refine ⟨_, hrun, skipWhile_eq_decide hs set.contains, ?_, s.offset_skipWhile _⟩
  simp only [position]
  omega

theorem skipBlanks_finds_longest (hs : s.cursor ≤ s.buffer.length + 1) :
    ∃ run, IsLongestFront (fun cs => ∀ c ∈ cs, c = ' ' ∨ c = '\t') s.ahead run ∧
      (s.skipBlanks.1 = true ↔ s.ahead.head? = some ' ' ∨ s.ahead.head? = some '\t') ∧
      Removes s s.skipBlanks.2 (min (s.cursor + run.length) s.remaining.length) := by
  have hblank : ∀ c, isBlank c = true ↔ c = ' ' ∨ c = '\t' := by
    intro c
    simp [isBlank]
  have hrun : IsLongestFront (fun cs => ∀ c ∈ cs, c = ' ' ∨ c = '\t') s.ahead
      (s.ahead.takeWhile isBlank) := isLongestFront_takeWhile hblank _
  refine ⟨_, hrun, ?_, ?_⟩
  · rw [show s.skipBlanks.1 = _ from skipWhile_eq_decide hs isBlank, decide_eq_true_eq]
    cases hahead : s.ahead with
    | nil => simp
    | cons c tail =>
      by_cases hc : isBlank c = true
      · simp [hc, (hblank c).1 hc]
      · simpa [hc] using mt (hblank c).2 hc
  · exact removes_of_consume (skipBlanks_agrees hs).2 (cursor_add_length_le hs hrun.isPrefix).1

theorem isSome_readNumber_iff (hs : s.cursor ≤ s.buffer.length + 1) :
    s.readNumber.1.isSome = true ↔
      ∃ literal, literal <+: s.ahead ∧ Numeral.IsLiteral literal := by
  rw [(readNumber_agrees hs).1]
  by_cases hnil : Numeral.literalInFront s.ahead = []
  · rw [Cursor.readNumber_of_nil s.toCursor hnil]
    refine ⟨by simp, ?_⟩
    rintro ⟨literal, hfront, hliteral⟩
    have hlength := Numeral.length_le_literalInFront hfront hliteral
    rw [hnil, List.length_nil, Nat.le_zero_eq, List.length_eq_zero_iff] at hlength
    subst hlength
    exact absurd rfl hliteral.1
  · rw [Cursor.readNumber_of_ne_nil s.toCursor hnil, Option.isSome_some]
    have hlongest := isLongestFront_literalInFront hnil
    exact ⟨fun _ => ⟨_, hlongest.isPrefix, hlongest.holds⟩, fun _ => rfl⟩

theorem readNumber_finds_longest (hs : s.cursor ≤ s.buffer.length + 1) {number : String}
    (h : s.readNumber.1 = some number) :
    ∃ literal, IsLongestFront Numeral.IsLiteral s.ahead literal ∧
      number.toList = s.remaining.take s.cursor ++ literal ∧
      Removes s s.readNumber.2 number.toList.length := by
  obtain ⟨hreply, hplace⟩ := readNumber_agrees hs
  rw [hreply] at h
  by_cases hnil : Numeral.literalInFront s.ahead = []
  · rw [Cursor.readNumber_of_nil s.toCursor hnil] at h
    simp at h
  · have hlongest := isLongestFront_literalInFront hnil
    have hbound := (cursor_add_length_le hs hlongest.isPrefix).1
    rw [Cursor.readNumber_of_ne_nil s.toCursor hnil] at h hplace
    have htaken : number.toList =
        s.remaining.take (s.cursor + (Numeral.literalInFront s.ahead).length) := by
      rw [← Option.some.inj h, String.toList_ofList]
      exact congrArg (s.remaining.take ·) (Nat.min_eq_left hbound)
    refine ⟨_, hlongest, ?_, ?_⟩
    · rw [htaken, List.take_add]
      exact congrArg _ (List.prefix_iff_eq_take.1 hlongest.isPrefix).symm
    · rw [htaken, List.length_take]
      exact removes_of_consume hplace hbound

theorem readOperator_finds_longest (hs : s.cursor ≤ s.buffer.length + 1) (c : Char) :
    (s.readOperator.1.map Operator.symbol = some c ↔
        s.ahead.head? = some c ∧ c ∈ ['+', '-', '*', '/']) ∧
      (s.readOperator.1.map Operator.symbol = some c →
        Removes s s.readOperator.2 (s.cursor + 1)) := by
  obtain ⟨hreply, hplace⟩ := readOperator_agrees hs
  rw [hreply, Operator.mem_symbols_iff]
  cases hop : s.ahead.head?.bind Operator.ofSymbol? with
  | none =>
    have hnone : s.toCursor.readOperator = (none, s.toCursor) := by
      have hcursor : s.toCursor.ahead.head?.bind Operator.ofSymbol? = none := hop
      rw [Cursor.readOperator, hcursor]
    rw [hnone]
    refine ⟨⟨by simp, ?_⟩, by simp⟩
    rintro ⟨hhead, op, rfl⟩
    simp [hhead] at hop
  | some op =>
    have hsome : s.toCursor.readOperator = (some op, (s.toCursor.advance 1).consume.2) := by
      have hcursor : s.toCursor.ahead.head?.bind Operator.ofSymbol? = some op := hop
      rw [Cursor.readOperator, hcursor]
    rw [hsome] at hplace ⊢
    obtain ⟨d, hhead, hd⟩ := Option.bind_eq_some_iff.1 hop
    obtain rfl := Operator.ofSymbol?_eq_some_iff.1 hd
    rw [hhead]
    refine ⟨⟨fun h => ⟨h, op, Option.some.inj h⟩, fun h => h.1⟩, ?_⟩
    rintro -
    have hfront : [op.symbol] <+: s.ahead := by
      obtain ⟨tail, htail⟩ := List.head?_eq_some_iff.1 hhead
      exact ⟨tail, htail.symm⟩
    have hbound : s.cursor + 1 ≤ s.remaining.length :=
      (cursor_add_length_le hs hfront).2 (List.cons_ne_nil _ _)
    have hremoves := removes_of_consume hplace (Nat.le_succ_of_le hbound)
    rwa [Nat.min_eq_left hbound] at hremoves

/-- Wherever commands have left a reader, it takes the longest match: a skip passes all of the set
    that is in front, and blanks, numbers and operators are taken out as far as they go. -/
theorem after_ofList_findsLongest (text : List Char) (commands : List Command) :
    FindsLongest (Command.after (ofList text) commands) :=
  have hs := cursor_after_ofList_le text commands
  { skipManyOf := skipManyOf_finds_longest hs
    skipBlanks := skipBlanks_finds_longest hs
    readNumber_isSome := isSome_readNumber_iff hs
    readNumber := fun _ h => readNumber_finds_longest hs h
    readOperator := readOperator_finds_longest hs }

end Lookahead

end StackCalc
