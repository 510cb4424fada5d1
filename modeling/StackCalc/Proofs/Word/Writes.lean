import StackCalc.Proofs.Word.Window
import StackCalc.Word.Register

/-!
# The last write to a bit

To set or to clear a window of a register is to write one value to all bits of the window. What a
write does to a word is said bit by bit (`getLsbD_writeAll_singleton`): it reaches the bits of its
window if the word has that window, and none otherwise. So a bit of the register is what the last
write that reaches it wrote, however the windows of the writes lie to each other.
-/

namespace StackCalc.Word

/-- A request to set or to clear a window of a register. -/
structure Write where
  /-- What the bits of the window become. -/
  value : Bool
  window : Window
  deriving DecidableEq, Repr

/-- The instruction that makes the write. -/
def Write.instruction (x : Write) : Instruction :=
  if x.value then .setWindow x.window else .clearWindow x.window

/-- Whether a bit of a word of `w` bits is written: it is in the window, and the word has the
    window. -/
def Write.Reaches (x : Write) (w i : Nat) : Prop := x.window.Fits w ∧ x.window.Covers i

instance (x : Write) (w i : Nat) : Decidable (x.Reaches w i) :=
  inferInstanceAs (Decidable (_ ∧ _))

variable {w : Nat}

/-- The register's word after writes that are made one after the other. -/
def writeAll (v : BitVec w) (writes : List Write) : BitVec w :=
  register v (writes.map Write.instruction)

theorem Write.execute_of_not_fits {x : Write} (h : ¬x.window.Fits w) (v : BitVec w) :
    x.instruction.execute v = .refused ⟨x.window, w⟩ := by
  unfold Write.instruction
  split
  · rw [Instruction.execute, setWindow_of_not_fits h]
    rfl
  · rw [Instruction.execute, clearWindow_of_not_fits h]
    rfl

theorem Write.execute_of_fits {x : Write} (h : x.window.Fits w) (v : BitVec w) :
    ∃ v', x.instruction.execute v = .word v' ∧
      ∀ i, v'.getLsbD i = if x.window.Covers i then x.value else v.getLsbD i := by
  unfold Write.instruction
  cases hvalue : x.value with
  | true =>
    obtain ⟨v', hset, hbits⟩ := exists_setWindow_of_fits h v
    refine ⟨v', by rw [if_pos rfl, Instruction.execute, hset]; rfl, ?_⟩
    intro i
    rw [hbits]
    by_cases hcovers : x.window.Covers i <;> simp [hcovers]
  | false =>
    obtain ⟨v', hclear, hbits⟩ := exists_clearWindow_of_fits h v
    refine ⟨v', by rw [if_neg (by simp), Instruction.execute, hclear]; rfl, ?_⟩
    intro i
    rw [hbits]
    by_cases hcovers : x.window.Covers i <;> simp [hcovers]

theorem writeAll_append (v : BitVec w) (xs ys : List Write) :
    writeAll v (xs ++ ys) = writeAll (writeAll v xs) ys := by
  rw [writeAll, List.map_append, register, List.foldl_append]
  rfl

theorem writeAll_cons (v : BitVec w) (x : Write) (xs : List Write) :
    writeAll v (x :: xs) = writeAll (writeAll v [x]) xs :=
  writeAll_append v [x] xs

theorem writeAll_singleton_of_not_fits {x : Write} (h : ¬x.window.Fits w) (v : BitVec w) :
    writeAll v [x] = v := by
  show (x.instruction.execute v).store v = v
  rw [Write.execute_of_not_fits h, Result.store]

/-- One write changes the bits that it reaches and no others. -/
theorem getLsbD_writeAll_singleton (v : BitVec w) (x : Write) (i : Nat) :
    (writeAll v [x]).getLsbD i = if x.Reaches w i then x.value else v.getLsbD i := by
  by_cases hfits : x.window.Fits w
  · obtain ⟨v', hexecute, hbits⟩ := Write.execute_of_fits hfits v
    have hword : writeAll v [x] = v' := by
      show (x.instruction.execute v).store v = v'
      rw [hexecute, Result.store]
    rw [hword, hbits]
    simp only [Write.Reaches, hfits, true_and]
  · rw [writeAll_singleton_of_not_fits hfits, if_neg fun hreaches => hfits hreaches.1]

/-- Writes that do not reach a bit leave it as it is, by induction on the writes. -/
theorem getLsbD_writeAll_of_not_reaches {writes : List Write} {i : Nat}
    (h : ∀ x ∈ writes, ¬x.Reaches w i) (v : BitVec w) :
    (writeAll v writes).getLsbD i = v.getLsbD i := by
  induction writes generalizing v with
  | nil => rfl
  | cons x writes ih =>
    rw [writeAll_cons, ih fun y hy => h y (List.mem_cons_of_mem x hy),
      getLsbD_writeAll_singleton, if_neg (h x List.mem_cons_self)]

/-- A write that no later one undoes is what the register shows. -/
theorem getLsbD_writeAll_of_reaches {before after : List Write} {x : Write} {i : Nat}
    (hx : x.Reaches w i) (hafter : ∀ y ∈ after, ¬y.Reaches w i) (v : BitVec w) :
    (writeAll v (before ++ x :: after)).getLsbD i = x.value := by
  rw [writeAll_append, writeAll_cons, getLsbD_writeAll_of_not_reaches hafter,
    getLsbD_writeAll_singleton, if_pos hx]

theorem writeAll_repeated (v : BitVec w) (x : Write) : writeAll v [x, x] = writeAll v [x] := by
  apply BitVec.eq_of_getLsbD_eq
  intro i _
  rw [writeAll_cons, getLsbD_writeAll_singleton, getLsbD_writeAll_singleton]
  split <;> rfl

theorem writeAll_swap {x y : Write} (h : ∀ i, ¬(x.window.Covers i ∧ y.window.Covers i))
    (v : BitVec w) : writeAll v [x, y] = writeAll v [y, x] := by
  apply BitVec.eq_of_getLsbD_eq
  intro i _
  rw [writeAll_cons, writeAll_cons v y, getLsbD_writeAll_singleton, getLsbD_writeAll_singleton,
    getLsbD_writeAll_singleton, getLsbD_writeAll_singleton]
  by_cases hx : x.Reaches w i
  · have hy : ¬y.Reaches w i := fun hy => h i ⟨hx.2, hy.2⟩
    rw [if_pos hx, if_neg hy, if_pos hx]
  · rw [if_neg hx, if_neg hx]

/-- A write is refused exactly if its window ends beyond the word, and then it changes nothing.
    After any writes, a bit is what the last write that was not refused and covers it wrote; where
    there is no such write, it is the bit that was there at the start. So it changes nothing to
    repeat a write, nor to exchange two writes whose windows have no bit in common. -/
theorem writeAll_last_write (v : BitVec w) (writes : List Write) :
    (∀ (x : Write) (u : BitVec w),
      (w < x.window.bits + x.window.shift →
        x.instruction.execute u = .refused ⟨x.window, w⟩ ∧ writeAll u [x] = u) ∧
      (x.window.bits + x.window.shift ≤ w → ∃ u', x.instruction.execute u = .word u')) ∧
    (∀ before x after i, writes = before ++ x :: after → x.Reaches w i →
      (∀ y ∈ after, ¬y.Reaches w i) → (writeAll v writes).getLsbD i = x.value) ∧
    (∀ i, (∀ x ∈ writes, ¬x.Reaches w i) → (writeAll v writes).getLsbD i = v.getLsbD i) ∧
    (∀ x, writeAll v (writes ++ [x, x]) = writeAll v (writes ++ [x])) ∧
    (∀ x y, (∀ i, ¬(x.window.Covers i ∧ y.window.Covers i)) →
      writeAll v (writes ++ [x, y]) = writeAll v (writes ++ [y, x])) := by
  refine ⟨?_, ?_, ?_, ?_, ?_⟩
  · intro x u
    constructor
    · intro hlong
      have hfits : ¬x.window.Fits w := Nat.not_le_of_lt hlong
      exact ⟨Write.execute_of_not_fits hfits u, writeAll_singleton_of_not_fits hfits u⟩
    · intro hfits
      obtain ⟨u', hexecute, -⟩ := Write.execute_of_fits hfits u
      exact ⟨u', hexecute⟩
  · rintro before x after i rfl hx hafter
    exact getLsbD_writeAll_of_reaches hx hafter v
  · exact fun i hnone => getLsbD_writeAll_of_not_reaches hnone v
  · intro x
    rw [writeAll_append, writeAll_append, writeAll_repeated]
  · intro x y hdisjoint
    rw [writeAll_append, writeAll_append, writeAll_swap hdisjoint]

end StackCalc.Word
