/-!
# Reading ahead

A reader that decides what it has in front of it must look further than it can yet accept. A
`Lookahead` holds the characters that it has looked at in a buffer, with a cursor that moves over
the buffer in both directions, until `consume` hands out everything up to the cursor. What lies
beyond the buffer is pulled from the text only when the cursor gets there.

The text is a finite sequence of characters, and all of it is there from the start. A text without an
end, or one that is still being written while it is read, is not modelled.

The characters that are still to be handed out are `remaining`; only `consume` changes them
(`remaining_next`, `remaining_setPosition`, `consume_append_remaining`).
-/

namespace StackCalc

/-- A text that is being read, with the part that was looked at but not yet handed out. -/
structure Lookahead where
  /-- The characters that no one has looked at. -/
  pending : List Char
  /-- The characters that were looked at and are still to be handed out. -/
  buffer : List Char
  /-- How many characters of the buffer the cursor has passed. The character that the cursor is on
      is the last of these; one more than the buffer holds means that the cursor is past its end. -/
  cursor : Nat
  /-- How many characters were handed out. -/
  offset : Nat
  deriving DecidableEq, Repr

namespace Lookahead

/-- A reader at the start of a sequence of characters. -/
def ofList (text : List Char) : Lookahead := ⟨text, [], 0, 0⟩

/-- The characters that are still to be handed out, whether looked at or not. -/
def remaining (s : Lookahead) : List Char := s.buffer ++ s.pending

/-- Index in the buffer of the character that the cursor is on: -1 before the first one, the length
    of the buffer past the last one. -/
def position (s : Lookahead) : Int := (s.cursor : Int) - 1

/-- The character that the cursor is on, if it is on one. -/
def current (s : Lookahead) : Option Char :=
  match s.cursor with
  | 0 => none
  | n + 1 => s.buffer[n]?

/-- Pulls characters until the buffer holds `n` of them or the text ends. -/
def fill (s : Lookahead) (n : Nat) : Lookahead :=
  let lacking := n - s.buffer.length
  { s with
    pending := s.pending.drop lacking
    buffer := s.buffer ++ s.pending.take lacking }

/-- Moves the cursor one character on, at most to the place past the end of the buffer, and gives
    the character that it is on then. -/
def next (s : Lookahead) : Option Char × Lookahead :=
  let filled := s.fill (s.cursor + 1)
  let moved := { filled with cursor := min (s.cursor + 1) (filled.buffer.length + 1) }
  (moved.current, moved)

/-- Moves the cursor to a position of the buffer. A position outside it is refused and moves
    nothing. -/
def setPosition (s : Lookahead) (p : Int) : Bool × Lookahead :=
  if -1 ≤ p ∧ p ≤ s.buffer.length then (true, { s with cursor := (p + 1).toNat })
  else (false, s)

/-- Hands out the characters that the cursor has passed; reading goes on behind them. -/
def consume (s : Lookahead) : List Char × Lookahead :=
  let taken := s.buffer.take s.cursor
  (taken,
    { s with
      buffer := s.buffer.drop s.cursor
      cursor := 0
      offset := s.offset + taken.length })

/-- `consume` with the characters as one text. -/
def consumeString (s : Lookahead) : String × Lookahead :=
  (String.ofList s.consume.1, s.consume.2)

@[simp] theorem remaining_ofList (text : List Char) : (ofList text).remaining = text := rfl

@[simp] theorem remaining_fill (s : Lookahead) (n : Nat) : (s.fill n).remaining = s.remaining := by
  simp [fill, remaining]

@[simp] theorem cursor_fill (s : Lookahead) (n : Nat) : (s.fill n).cursor = s.cursor := rfl

@[simp] theorem offset_fill (s : Lookahead) (n : Nat) : (s.fill n).offset = s.offset := rfl

theorem length_buffer_fill (s : Lookahead) (n : Nat) :
    (s.fill n).buffer.length = max s.buffer.length (min n s.remaining.length) := by
  simp only [fill, remaining, List.length_append, List.length_take]
  omega

@[simp] theorem remaining_next (s : Lookahead) : s.next.2.remaining = s.remaining :=
  remaining_fill s _

@[simp] theorem offset_next (s : Lookahead) : s.next.2.offset = s.offset := rfl

theorem cursor_next (s : Lookahead) :
    s.next.2.cursor =
      min (s.cursor + 1) (max s.buffer.length (min (s.cursor + 1) s.remaining.length) + 1) := by
  simp only [next, length_buffer_fill]

/-- A step that finds a character passes one more character, which is then in the buffer. -/
theorem next_of_some {s moved : Lookahead} {c : Char} (h : s.next = (some c, moved)) :
    moved = { s.fill (s.cursor + 1) with cursor := s.cursor + 1 } ∧
      moved.cursor ≤ moved.buffer.length := by
  simp only [next, Prod.mk.injEq] at h
  obtain ⟨hcurrent, rfl⟩ := h
  unfold current at hcurrent
  split at hcurrent
  next => simp at hcurrent
  next n hn =>
    have hlt : n < (s.fill (s.cursor + 1)).buffer.length := (List.getElem?_eq_some_iff.1 hcurrent).1
    have hn : min (s.cursor + 1) ((s.fill (s.cursor + 1)).buffer.length + 1) = n + 1 := hn
    have hmin : min (s.cursor + 1) ((s.fill (s.cursor + 1)).buffer.length + 1) = s.cursor + 1 := by
      omega
    rw [hmin] at hn ⊢
    exact ⟨rfl, show s.cursor + 1 ≤ (s.fill (s.cursor + 1)).buffer.length by omega⟩

theorem length_buffer_le (s : Lookahead) : s.buffer.length ≤ s.remaining.length := by
  simp [remaining]

@[simp] theorem remaining_setPosition (s : Lookahead) (p : Int) :
    (s.setPosition p).2.remaining = s.remaining := by
  unfold setPosition
  split <;> rfl

@[simp] theorem offset_setPosition (s : Lookahead) (p : Int) :
    (s.setPosition p).2.offset = s.offset := by
  unfold setPosition
  split <;> rfl

/-- What is handed out is the front of what remained, and the rest remains. -/
theorem consume_append_remaining (s : Lookahead) :
    s.consume.1 ++ s.consume.2.remaining = s.remaining := by
  simp [consume, remaining, ← List.append_assoc]

/-- Handing out at least one character leaves fewer. -/
theorem length_remaining_consume_lt {s : Lookahead} (hpos : 0 < s.cursor)
    (hbuffer : s.cursor ≤ s.buffer.length) :
    s.consume.2.remaining.length < s.remaining.length := by
  simp only [consume, remaining, List.length_append, List.length_drop]
  omega

theorem offset_consume (s : Lookahead) :
    s.consume.2.offset = s.offset + s.consume.1.length := rfl

end Lookahead

end StackCalc
