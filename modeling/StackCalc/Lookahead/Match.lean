import StackCalc.Lookahead.Basic

/-!
# Steps with a condition

A reader that tries a character steps onto it only if it is a wanted one, and otherwise goes back
to where it was; what it looked at meanwhile stays in the buffer. `skipWhile` repeats such steps and
ends, because each of them passes one more of the remaining characters.
-/

namespace StackCalc.Lookahead

/-- Steps onto the next character if it is a wanted one. -/
def acceptIf (s : Lookahead) (wanted : Char → Bool) : Option Char × Lookahead :=
  match s.next with
  | (some c, moved) => if wanted c then (some c, moved) else (none, (moved.setPosition s.position).2)
  | (none, moved) => (none, (moved.setPosition s.position).2)

/-- Steps onto the next character if it is `c`. -/
def accept (s : Lookahead) (c : Char) : Option Char × Lookahead := s.acceptIf (· == c)

/-- Steps onto the next character if it is one of a set. -/
def acceptOneOf (s : Lookahead) (set : List Char) : Option Char × Lookahead :=
  s.acceptIf set.contains

@[simp] theorem remaining_acceptIf (s : Lookahead) (wanted : Char → Bool) :
    (s.acceptIf wanted).2.remaining = s.remaining := by
  have hnext := s.remaining_next
  unfold acceptIf
  split
  next c moved h => split <;> simp_all
  next moved h => simp_all

@[simp] theorem offset_acceptIf (s : Lookahead) (wanted : Char → Bool) :
    (s.acceptIf wanted).2.offset = s.offset := by
  have hnext := s.offset_next
  unfold acceptIf
  split
  next c moved h => split <;> simp_all
  next moved h => simp_all

/-- A step that was taken is a step onto the next character, and that character is wanted. -/
theorem acceptIf_eq_some {s moved : Lookahead} {wanted : Char → Bool} {c : Char}
    (h : s.acceptIf wanted = (some c, moved)) : s.next = (some c, moved) ∧ wanted c = true := by
  unfold acceptIf at h
  split at h
  next d after hnext =>
    split at h
    next hwanted =>
      obtain ⟨hc, rfl⟩ := Prod.mk.inj h
      obtain rfl := Option.some.inj hc
      exact ⟨hnext, hwanted⟩
    next => simp at h
  next => simp at h

/-- A step that was taken passes one more of the remaining characters. -/
theorem cursor_acceptIf_of_some {s moved : Lookahead} {wanted : Char → Bool} {c : Char}
    (h : s.acceptIf wanted = (some c, moved)) :
    moved.cursor = s.cursor + 1 ∧ moved.cursor ≤ moved.buffer.length := by
  obtain ⟨hmoved, hbuffer⟩ := next_of_some (acceptIf_eq_some h).1
  exact ⟨by rw [hmoved], hbuffer⟩

/-- A step that was not taken leaves the reader as it was, but for a character that it may have
    looked at. -/
theorem acceptIf_eq_none {s back : Lookahead} {wanted : Char → Bool}
    (hplace : s.cursor ≤ s.buffer.length + 1) (h : s.acceptIf wanted = (none, back)) :
    back = s.fill (s.cursor + 1) := by
  have hback : (s.next.2.setPosition s.position).2 = s.fill (s.cursor + 1) := by
    have hlen := length_buffer_fill s (s.cursor + 1)
    have hposition : -1 ≤ s.position ∧ s.position ≤ (s.next.2.buffer.length : Int) := by
      simp only [position, next]
      omega
    have hcursor : (s.position + 1).toNat = s.cursor := by
      simp only [position]
      omega
    rw [setPosition, if_pos hposition, hcursor]
    rfl
  unfold acceptIf at h
  split at h
  next c moved hnext =>
    split at h
    next => simp at h
    next => rw [← hback, hnext, ← (Prod.mk.inj h).2]
  next moved hnext => rw [← hback, hnext, ← (Prod.mk.inj h).2]

/-- Steps over characters for as long as they are wanted ones. -/
def passWhile (s : Lookahead) (wanted : Char → Bool) : Lookahead :=
  match _h : s.acceptIf wanted with
  | (some _, moved) => moved.passWhile wanted
  | (none, back) => back
termination_by s.remaining.length - s.cursor
decreasing_by
  have hremaining := s.remaining_acceptIf wanted
  obtain ⟨hcursor, hbuffer⟩ := cursor_acceptIf_of_some _h
  have hlength := moved.length_buffer_le
  simp only [_h] at hremaining
  rw [hremaining] at hlength ⊢
  omega

/-- Steps over wanted characters and tells whether there was one. -/
def skipWhile (s : Lookahead) (wanted : Char → Bool) : Bool × Lookahead :=
  match s.acceptIf wanted with
  | (some _, moved) => (true, moved.passWhile wanted)
  | (none, back) => (false, back)

/-- Steps over characters of a set and tells whether there was one. -/
def skipManyOf (s : Lookahead) (set : List Char) : Bool × Lookahead := s.skipWhile set.contains

@[simp] theorem remaining_passWhile (s : Lookahead) (wanted : Char → Bool) :
    (s.passWhile wanted).remaining = s.remaining := by
  fun_induction passWhile s wanted with
  | case1 s c moved h ih => exact ih.trans (by simpa [h] using s.remaining_acceptIf wanted)
  | case2 s back h => simpa [h] using s.remaining_acceptIf wanted

@[simp] theorem offset_passWhile (s : Lookahead) (wanted : Char → Bool) :
    (s.passWhile wanted).offset = s.offset := by
  fun_induction passWhile s wanted with
  | case1 s c moved h ih => exact ih.trans (by simpa [h] using s.offset_acceptIf wanted)
  | case2 s back h => simpa [h] using s.offset_acceptIf wanted

@[simp] theorem remaining_skipWhile (s : Lookahead) (wanted : Char → Bool) :
    (s.skipWhile wanted).2.remaining = s.remaining := by
  have haccept := s.remaining_acceptIf wanted
  unfold skipWhile
  split <;> simp_all

@[simp] theorem offset_skipWhile (s : Lookahead) (wanted : Char → Bool) :
    (s.skipWhile wanted).2.offset = s.offset := by
  have haccept := s.offset_acceptIf wanted
  unfold skipWhile
  split <;> simp_all

/-- Passing characters moves the cursor forward, and not past the end of the buffer. -/
theorem cursor_passWhile {s : Lookahead} (wanted : Char → Bool) (h : s.cursor ≤ s.buffer.length) :
    s.cursor ≤ (s.passWhile wanted).cursor ∧
      (s.passWhile wanted).cursor ≤ (s.passWhile wanted).buffer.length := by
  fun_induction passWhile s wanted with
  | case1 s c moved haccept ih =>
    obtain ⟨hcursor, hbuffer⟩ := cursor_acceptIf_of_some haccept
    have hpass := ih hbuffer
    omega
  | case2 s back haccept =>
    have hlen := length_buffer_fill s (s.cursor + 1)
    rw [acceptIf_eq_none (by omega) haccept, cursor_fill]
    omega

/-- Where a character was skipped, the cursor is on a character of the buffer. -/
theorem cursor_skipWhile_of_true {s passed : Lookahead} {wanted : Char → Bool}
    (h : s.skipWhile wanted = (true, passed)) :
    s.cursor < passed.cursor ∧ passed.cursor ≤ passed.buffer.length := by
  unfold skipWhile at h
  split at h
  next c moved haccept =>
    obtain ⟨hcursor, hbuffer⟩ := cursor_acceptIf_of_some haccept
    have hpass := cursor_passWhile wanted hbuffer
    obtain ⟨-, rfl⟩ := Prod.mk.inj h
    omega
  next => simp at h

end StackCalc.Lookahead
