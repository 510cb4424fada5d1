import StackCalc.Proofs.Word.Count
import StackCalc.Proofs.Word.Window

/-!
# Counting inside and outside a window

A window cuts a word in two: the part outside it is what clearing the window leaves, and the part
inside it is what the word has in common with the mask. Each set bit of the word is in one of the two
(`popCount_outside_add_inside`). A mask has one set bit for each bit of its window
(`popCount_of_mask_eq_ok`), so setting the window brings the inner part up to the full window.
-/

namespace StackCalc.Word

variable {w : Nat} {window : Window} {m : BitVec w}

theorem countP_or_add_countP_and {α : Type} (p q : α → Bool) (xs : List α) :
    (xs.countP fun x => p x || q x) + (xs.countP fun x => p x && q x) =
      xs.countP p + xs.countP q := by
  induction xs with
  | nil => rfl
  | cons x xs ih =>
    simp only [List.countP_cons]
    cases p x <;> cases q x <;> simp <;> omega

/-- What two words have in common counts once in the word that is set where either of them is. -/
theorem popCount_or_add_popCount_and (x y : BitVec w) :
    popCount (x ||| y) + popCount (x &&& y) = popCount x + popCount y := by
  simp only [popCount_eq_length, length_setPlaces, BitVec.getLsbD_or, BitVec.getLsbD_and]
  exact countP_or_add_countP_and _ _ _

/-- The part of a word outside a mask and the part inside it make up the word. -/
theorem popCount_outside_add_inside (v m : BitVec w) :
    popCount (v &&& ~~~m) + popCount (v &&& m) = popCount v := by
  have hor : (v &&& ~~~m) ||| (v &&& m) = v := by
    rw [← BitVec.and_or_distrib_left, BitVec.not_or_self, BitVec.and_allOnes]
  have hand : (v &&& ~~~m) &&& (v &&& m) = 0 := by
    rw [BitVec.and_comm v m, BitVec.and_assoc, ← BitVec.and_assoc (~~~m), BitVec.not_and_self,
      BitVec.ofNat_eq_ofNat, BitVec.zero_and, BitVec.and_zero]
  rw [← popCount_or_add_popCount_and, hor, hand, popCount_zero, Nat.add_zero]

/-- The set bits of a mask are the bits of its window. -/
theorem setPlaces_of_mask_eq_ok (h : mask w window = .ok m) :
    setPlaces m = List.range' window.shift window.bits := by
  refine setPlaces_eq_of_mem_iff List.pairwise_lt_range' ?_
  intro i
  rw [getLsbD_of_mask_eq_ok h, decide_eq_true_iff, List.mem_range'_1]
  exact Iff.rfl

theorem popCount_of_mask_eq_ok (h : mask w window = .ok m) : popCount m = window.bits := by
  rw [popCount_eq_length, setPlaces_of_mask_eq_ok h, List.length_range']

/-- Whatever a window holds, it counts all of its bits when it is set and none when it is cleared;
    what a word counts beyond the cleared one is what it has in the window. -/
theorem counts_through_window (v : BitVec w) (window : Window)
    (h : window.bits + window.shift ≤ w) :
    ∃ m set cleared, mask w window = .ok m ∧ setWindow v window = .ok set ∧
      clearWindow v window = .ok cleared ∧
      popCount set = popCount cleared + window.bits ∧
      popCount v = popCount cleared + popCount (v &&& m) := by
  have hfits : window.Fits w := h
  obtain ⟨m, hmask⟩ := exists_mask_of_fits hfits
  have hset := setWindow_of_mask_eq_ok hmask v
  have hcleared := clearWindow_of_mask_eq_ok hmask v
  have hcount := popCount_of_mask_eq_ok hmask
  have hsplit := popCount_outside_add_inside v m
  have hunion := popCount_or_add_popCount_and v m
  exact ⟨m, v ||| m, v &&& ~~~m, hmask, hset, hcleared, by omega, by omega⟩

/-- Three of the four set bits of `10110100` are in the window, which has one bit that is clear. -/
theorem counts_through_window_partly_set :
    let v := 0b10110100#8
    let window : Window := ⟨4, 2⟩
    window.bits + window.shift ≤ 8 ∧
      ∃ m set cleared, mask 8 window = .ok m ∧ setWindow v window = .ok set ∧
        clearWindow v window = .ok cleared ∧
        popCount set = popCount cleared + window.bits ∧
        popCount v = popCount cleared + popCount (v &&& m) := by
  intro v window
  have hfits : window.bits + window.shift ≤ 8 := by decide
  exact ⟨hfits, counts_through_window v window hfits⟩

end StackCalc.Word
