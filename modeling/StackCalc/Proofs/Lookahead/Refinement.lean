import StackCalc.Proofs.Lookahead.Attempts

/-!
# Reading ahead does not show

A reader that is sent back only to where it has been answers like a cursor that has the whole text
at hand, though how long its buffer is depends on all steps, failed attempts and extractions of the
past. What carries this is that the reader has looked at everything up to the places where it has
been since it last took characters out (`HasLookedAt`): as long as it takes nothing out, the buffer
only grows. One command keeps that (`Follows.run`), and so does a sequence of them.
-/

namespace StackCalc.Lookahead

/-- The character at an index of a text, if there is one. -/
def charAt? (cs : List Char) : Int → Option Char
  | .ofNat n => cs[n]?
  | .negSucc _ => none

/-- The answers of a reader, told from its position and from the text `rest` that is still to be
    handed out. -/
structure ActsOn (s : Lookahead) (rest : List Char) : Prop where
  current_eq : s.current = charAt? rest s.position
  next_eq : s.next.1 = charAt? rest (s.position + 1)
  position_next : s.next.2.position = min (s.position + 1) rest.length
  consume_eq : s.consume.1 = rest.take (min (s.position + 1) rest.length).toNat
  offset_consume : (s.consume.2.offset : Int) = s.offset + min (s.position + 1) rest.length
  position_consume : s.consume.2.position = -1

/-- A position that can be set, with everything up to it in the buffer. -/
structure HasLookedAt (s : Lookahead) (p : Int) : Prop where
  least : -1 ≤ p
  inBuffer : p ≤ s.buffer.length
  settled : min (p + 1) s.remaining.length ≤ s.buffer.length

namespace Command

/-- Whether the command sets no position but -1 and those given. -/
def GoesBackTo (seen : List Int) : Command → Prop
  | setPosition p => p = -1 ∨ p ∈ seen
  | _ => True

instance (seen : List Int) : (command : Command) → Decidable (command.GoesBackTo seen)
  | setPosition p => inferInstanceAs (Decidable (p = -1 ∨ p ∈ seen))
  | next | current | offset | position | consume | consumeString | skipBlanks | readNumber
  | readOperator | accept _ | acceptOneOf _ | skipManyOf _ => isTrue trivial

/-- Whether commands set no positions but -1 and those where the reader has been since it last took
    characters out. At the start these are `seen`. -/
def OnlyGoBack (seen : List Int) (s : Lookahead) : List Command → Prop
  | [] => True
  | command :: rest =>
    command.GoesBackTo seen ∧
      OnlyGoBack (if command.taken s = [] then (command.run s).2.position :: seen else [])
        (command.run s).2 rest

instance decidableOnlyGoBack (seen : List Int) (s : Lookahead) :
    (commands : List Command) → Decidable (OnlyGoBack seen s commands)
  | [] => isTrue trivial
  | command :: rest =>
    have := decidableOnlyGoBack
      (if command.taken s = [] then (command.run s).2.position :: seen else [])
      (command.run s).2 rest
    inferInstanceAs (Decidable (_ ∧ _))

/-- A command that takes nothing out leaves at least as much in the buffer. -/
theorem looksOn_run {s : Lookahead} {command : Command} (h : command.taken s = []) :
    LooksOn s (command.run s).2 := by
  cases command with
  | next => exact LooksOn.next s
  | setPosition p => exact LooksOn.setPosition s p
  | accept c => exact LooksOn.acceptIf s _
  | acceptOneOf set => exact LooksOn.acceptIf s _
  | skipManyOf set => exact LooksOn.skipWhile s _
  | current => exact LooksOn.refl s
  | offset => exact LooksOn.refl s
  | position => exact LooksOn.refl s
  | consume => exact LooksOn.consume_of_nil h
  | consumeString => exact LooksOn.consume_of_nil h
  | skipBlanks => exact (LooksOn.skipWhile s isBlank).trans (LooksOn.consume_of_nil h)
  | readNumber =>
    have hdigits := looksOn_digits s
    simp only [taken, run, Lookahead.readNumber] at h ⊢
    split
    next passed hskip =>
      rw [hskip] at h hdigits
      have hnothing : (String.ofList passed.consume.1).toList = [] := h
      rw [String.toList_ofList] at hnothing
      exact hdigits.trans (LooksOn.consume_of_nil hnothing)
    next passed hskip =>
      rw [hskip] at hdigits
      exact hdigits.trans (LooksOn.setPosition passed s.position)
  | readOperator =>
    have haccept := LooksOn.acceptIf s fun c => (Operator.ofSymbol? c).isSome
    simp only [taken, run, Lookahead.readOperator] at h ⊢
    split
    next c moved hmoved =>
      rw [hmoved] at h haccept
      exact haccept.trans (LooksOn.consume_of_nil h)
    next back hback =>
      rw [hback] at haccept
      exact haccept

end Command

variable {s t : Lookahead} {place : Cursor} {p : Int} {seen : List Int}

theorem current_toCursor (s : Lookahead) :
    s.toCursor.current = charAt? s.remaining s.position := by
  unfold Cursor.current position toCursor
  cases s.cursor with
  | zero => rfl
  | succ n =>
    rw [show ((n + 1 : Nat) : Int) - 1 = n by omega]
    rfl

theorem hasLookedAt_neg_one (s : Lookahead) : s.HasLookedAt (-1) :=
  ⟨by omega, by omega, by omega⟩

theorem LooksOn.hasLookedAt (h : LooksOn s t) (hp : s.HasLookedAt p) : t.HasLookedAt p := by
  have hlength := h.length_buffer_le
  have hsettled := hp.settled
  rw [← h.remaining_eq] at hsettled
  exact ⟨hp.least, by have := hp.inBuffer; omega, by omega⟩

namespace AtCursor

theorem hasLookedAt (h : AtCursor s place) : s.HasLookedAt s.position := by
  have hinBuffer := h.inBuffer
  have hsettled := h.settled
  refine ⟨?_, ?_, ?_⟩
  all_goals
    simp only [position]
    omega

theorem setPosition_eq (h : AtCursor s place) (hp : s.HasLookedAt p) :
    (s.setPosition p).1 = true ∧ Agrees (s.setPosition p) (place.setPosition p) := by
  obtain ⟨hleast, hinBuffer, hsettled⟩ := hp
  have hlength := s.length_buffer_le
  have hrest : p ≤ place.rest.length := by
    rw [← h.remaining_eq]
    omega
  rw [setPosition, if_pos ⟨hleast, hinBuffer⟩, Cursor.setPosition, if_pos ⟨hleast, hrest⟩]
  refine ⟨rfl, rfl, ?_, ?_, ?_⟩
  · rw [← h.place_eq]
    rfl
  · show (p + 1).toNat ≤ s.buffer.length + 1
    omega
  · show min (p + 1).toNat s.remaining.length ≤ s.buffer.length
    omega

/-- A command is answered like by a cursor without a buffer, if a position that it sets was looked
    at. -/
theorem run_agrees (h : AtCursor s place) (command : Command)
    (hset : ∀ p, command = .setPosition p → s.HasLookedAt p) :
    Agrees (command.run s) (place.run command) := by
  obtain rfl := h.place_eq
  cases command with
  | next =>
    obtain ⟨hreply, hafter⟩ := next_agrees s
    exact ⟨congrArg Reply.char hreply, hafter⟩
  | current => exact ⟨congrArg Reply.char h.current_eq, h⟩
  | offset => exact ⟨rfl, h⟩
  | position => exact ⟨rfl, h⟩
  | setPosition p =>
    obtain ⟨hreply, hafter⟩ := (h.setPosition_eq (hset p rfl)).2
    exact ⟨congrArg Reply.truth hreply, hafter⟩
  | consume =>
    obtain ⟨hreply, hafter⟩ := h.consume_agrees
    exact ⟨congrArg Reply.chars hreply, hafter⟩
  | consumeString =>
    obtain ⟨hreply, hafter⟩ := h.consume_agrees
    exact ⟨congrArg (fun cs => Reply.text (String.ofList cs)) hreply, hafter⟩
  | skipBlanks =>
    obtain ⟨hreply, hafter⟩ := skipBlanks_agrees h.inBuffer
    exact ⟨congrArg Reply.truth hreply, hafter⟩
  | readNumber =>
    obtain ⟨hreply, hafter⟩ := readNumber_agrees h.inBuffer
    exact ⟨congrArg Reply.number hreply, hafter⟩
  | readOperator =>
    obtain ⟨hreply, hafter⟩ := readOperator_agrees h.inBuffer
    exact ⟨congrArg Reply.operator hreply, hafter⟩
  | accept c =>
    obtain ⟨hreply, hafter⟩ := acceptIf_agrees h.inBuffer (· == c)
    exact ⟨congrArg Reply.char hreply, hafter⟩
  | acceptOneOf set =>
    obtain ⟨hreply, hafter⟩ := acceptIf_agrees h.inBuffer set.contains
    exact ⟨congrArg Reply.char hreply, hafter⟩
  | skipManyOf set =>
    obtain ⟨hreply, hafter⟩ := skipWhile_agrees h.inBuffer set.contains
    exact ⟨congrArg Reply.truth hreply, hafter⟩

theorem actsOn (h : AtCursor s place) : s.ActsOn s.remaining := by
  obtain rfl := h.place_eq
  have hposition : s.position + 1 = s.cursor := by
    simp only [position]
    omega
  obtain ⟨htaken, hafter⟩ := h.consume_agrees
  constructor
  · rw [h.current_eq, current_toCursor]
  · rw [(next_agrees s).1, Cursor.current_advance_one, hposition]
    exact List.head?_drop
  · have hcursor : s.next.2.cursor = min (s.cursor + 1) (s.remaining.length + 1) :=
      (atCursor_next s).cursor_eq
    simp only [position]
    omega
  · have hcount : (min (s.cursor : Int) s.remaining.length).toNat =
        min s.cursor s.remaining.length := by omega
    rw [htaken, hposition, hcount]
    exact List.take_eq_take_min
  · have hoffset : s.consume.2.offset = s.offset + min s.cursor s.remaining.length :=
      hafter.offset_eq
    omega
  · rfl

end AtCursor

/-- The reader is at the place of a cursor, and has looked at everything up to the positions that it
    may be sent back to. -/
structure Follows (seen : List Int) (s : Lookahead) (place : Cursor) : Prop where
  atCursor : AtCursor s place
  looked : ∀ p ∈ seen, s.HasLookedAt p

namespace Follows

variable {command : Command} {commands : List Command}

theorem ofList (text : List Char) : Follows [] (ofList text) (Cursor.ofList text) :=
  ⟨⟨rfl, Nat.zero_le _, Nat.zero_min _ ▸ Nat.zero_le _⟩, by simp⟩

theorem hasLookedAt (h : Follows seen s place) (hback : (Command.setPosition p).GoesBackTo seen) :
    s.HasLookedAt p := by
  rcases hback with rfl | hp
  · exact s.hasLookedAt_neg_one
  · exact h.looked p hp

/-- One command keeps the reader with the cursor. What it had looked at it still has, unless the
    command takes characters out; then there is no position yet to go back to. -/
theorem run (h : Follows seen s place) (hback : command.GoesBackTo seen) :
    Agrees (command.run s) (place.run command) ∧
      Follows (if command.taken s = [] then (command.run s).2.position :: seen else [])
        (command.run s).2 (place.run command).2 := by
  have hagrees := h.atCursor.run_agrees command fun p hp => h.hasLookedAt (hp ▸ hback)
  refine ⟨hagrees, hagrees.2, ?_⟩
  by_cases htaken : command.taken s = []
  · rw [if_pos htaken]
    intro p hp
    rcases List.mem_cons.1 hp with rfl | hp
    · exact hagrees.2.hasLookedAt
    · exact (Command.looksOn_run htaken).hasLookedAt (h.looked p hp)
  · simp [htaken]

/-- The replies and the places of a sequence of commands, by induction on the sequence. -/
theorem runAll_eq (h : Follows seen s place) (hback : Command.OnlyGoBack seen s commands) :
    (Command.runAll s commands).map (fun (reply, s) => (reply, s.current, s.toCursor)) =
      (place.runAll commands).map fun (reply, place) => (reply, place.current, place) := by
  induction commands generalizing seen s place with
  | nil => rfl
  | cons command commands ih =>
    obtain ⟨hcommand, hcommands⟩ := hback
    obtain ⟨⟨hreply, hplace⟩, hfollows⟩ := h.run hcommand
    rw [Command.runAll, Cursor.runAll, List.map_cons, List.map_cons, ih hfollows hcommands]
    simp only [hreply, hplace.current_eq, hplace.place_eq]

/-- Before each command the reader has looked at all that it needs, by induction on the sequence. -/
theorem take (h : Follows seen s place) (hback : Command.OnlyGoBack seen s commands) (i : Nat) :
    ∃ seen' place', Follows seen' (Command.after s (commands.take i)) place' ∧
      ∀ command ∈ commands[i]?, command.GoesBackTo seen' := by
  induction commands generalizing seen s place i with
  | nil => exact ⟨seen, place, by simpa [Command.after] using h, by simp⟩
  | cons command commands ih =>
    obtain ⟨hcommand, hcommands⟩ := hback
    cases i with
    | zero =>
      refine ⟨seen, place, h, ?_⟩
      intro c hc
      obtain rfl := Option.some.inj hc
      exact hcommand
    | succ i => exact ih (h.run hcommand).2 hcommands i

end Follows

/-- A reader of a text is told from a cursor without a buffer by none of its answers to a sequence
    of commands. -/
structure RefinesCursor (text : List Char) (commands : List Command) : Prop where
  /-- After each command the reply, the current character and the place are those of the cursor. -/
  runAll_eq :
    (Command.runAll (ofList text) commands).map (fun (reply, s) => (reply, s.current, s.toCursor)) =
      ((Cursor.ofList text).runAll commands).map
        fun (reply, place) => (reply, place.current, place)
  /-- Every position that is set is accepted. -/
  setPosition_eq_true : ∀ i p, commands[i]? = some (.setPosition p) →
    ((Command.after (ofList text) (commands.take i)).setPosition p).1 = true
  /-- Between any two commands the text from the offset on and the position decide. -/
  actsOn : ∀ i, (Command.after (ofList text) (commands.take i)).ActsOn
    (text.drop (Command.after (ofList text) (commands.take i)).offset)

/-- Where commands only go back to places where the reader has been since it last took characters
    out, it does not show how much of the text was looked at. -/
theorem refinesCursor_of_onlyGoBack (text : List Char) (commands : List Command)
    (hback : Command.OnlyGoBack [] (ofList text) commands) : RefinesCursor text commands where
  runAll_eq := (Follows.ofList text).runAll_eq hback
  setPosition_eq_true := by
    intro i p hp
    obtain ⟨seen, place, hfollows, hnext⟩ := (Follows.ofList text).take hback i
    exact (hfollows.atCursor.setPosition_eq (hfollows.hasLookedAt (hnext _ hp))).1
  actsOn := by
    intro i
    obtain ⟨seen, place, hfollows, -⟩ := (Follows.ofList text).take hback i
    rw [← remaining_after_ofList]
    exact hfollows.atCursor.actsOn

/-- The first two attempts fail and leave more in the buffer than the cursor has passed; the last
    position but one is directly behind the text. -/
theorem refinesCursor_of_onlyGoBack_failed_attempts :
    let commands : List Command :=
      [.accept 'b', .next, .accept 'x', .position, .next, .next, .setPosition 0, .consume, .next,
        .next, .setPosition 1, .setPosition (-1)]
    Command.OnlyGoBack [] (ofList ['a', 'b']) commands ∧ RefinesCursor ['a', 'b'] commands := by
  intro commands
  have hback : Command.OnlyGoBack [] (ofList ['a', 'b']) commands := by decide
  exact ⟨hback, refinesCursor_of_onlyGoBack ['a', 'b'] commands hback⟩

end StackCalc.Lookahead
