import StackCalc.Word.Window

/-!
# The bits of a window

A word has a mask for every window that fits in it, and the mask is told by its bits: those that the
window covers are set and no others (`getLsbD_of_mask_eq_ok`). Setting and clearing a window act on
the bits that it covers and leave the rest of the word as it was. A window that does not fit is
refused by all three.
-/

namespace StackCalc.Word

variable {w : Nat} {window : Window} {m : BitVec w}

theorem mask_of_not_fits (h : ¬window.Fits w) : mask w window = .error ⟨window, w⟩ :=
  mask_eq_error_iff.2 ⟨rfl, h⟩

theorem exists_mask_of_fits (h : window.Fits w) : ∃ m, mask w window = .ok m := by
  cases hmask : mask w window with
  | ok m => exact ⟨m, rfl⟩
  | error fault => exact absurd h (mask_eq_error_iff.1 hmask).2

/-- The set bits of a mask are those that the window covers. -/
theorem getLsbD_of_mask_eq_ok (h : mask w window = .ok m) (i : Nat) :
    m.getLsbD i = decide (window.Covers i) := by
  unfold mask at h
  split at h
  next hfits =>
    unfold Window.Fits at hfits
    split at h
    next hempty =>
      obtain rfl := Except.ok.inj h
      have hcovers : ¬window.Covers i := by
        unfold Window.Covers
        omega
      rw [BitVec.ofNat_eq_ofNat, BitVec.getLsbD_zero, decide_eq_false hcovers]
    next hne =>
      obtain rfl := Except.ok.inj h
      rw [BitVec.getLsbD_shiftLeft, BitVec.getLsbD_ushiftRight, BitVec.getLsbD_allOnes,
        ← decide_not, ← Bool.decide_and, ← Bool.decide_and, decide_eq_decide]
      unfold Window.Covers
      omega
  next => simp at h

/-- A mask is the only word with the bits of its window. -/
theorem mask_eq_ok_iff :
    mask w window = .ok m ↔ window.Fits w ∧ ∀ i, m.getLsbD i = decide (window.Covers i) := by
  by_cases hfits : window.Fits w
  · obtain ⟨m', hmask⟩ := exists_mask_of_fits hfits
    rw [and_iff_right hfits]
    constructor
    · exact getLsbD_of_mask_eq_ok
    · intro hbits
      have heq : m' = m := by
        apply BitVec.eq_of_getLsbD_eq
        intro i _
        rw [getLsbD_of_mask_eq_ok hmask, hbits]
      rw [hmask, heq]
  · rw [mask_of_not_fits hfits]
    simp [hfits]

theorem setWindow_of_mask_eq_ok (h : mask w window = .ok m) (v : BitVec w) :
    setWindow v window = .ok (v ||| m) := by
  rw [setWindow, h]
  rfl

theorem clearWindow_of_mask_eq_ok (h : mask w window = .ok m) (v : BitVec w) :
    clearWindow v window = .ok (v &&& ~~~m) := by
  rw [clearWindow, h]
  rfl

/-- Setting a window sets the bits that it covers and no others. -/
theorem exists_setWindow_of_fits (h : window.Fits w) (v : BitVec w) :
    ∃ v', setWindow v window = .ok v' ∧
      ∀ i, v'.getLsbD i = (v.getLsbD i || decide (window.Covers i)) := by
  obtain ⟨m, hmask⟩ := exists_mask_of_fits h
  refine ⟨v ||| m, setWindow_of_mask_eq_ok hmask v, ?_⟩
  intro i
  rw [BitVec.getLsbD_or, getLsbD_of_mask_eq_ok hmask]

/-- Clearing a window clears the bits that it covers and no others. -/
theorem exists_clearWindow_of_fits (h : window.Fits w) (v : BitVec w) :
    ∃ v', clearWindow v window = .ok v' ∧
      ∀ i, v'.getLsbD i = (v.getLsbD i && !decide (window.Covers i)) := by
  obtain ⟨m, hmask⟩ := exists_mask_of_fits h
  refine ⟨v &&& ~~~m, clearWindow_of_mask_eq_ok hmask v, ?_⟩
  intro i
  rw [BitVec.getLsbD_and, BitVec.getLsbD_not, getLsbD_of_mask_eq_ok hmask]
  by_cases hi : i < w
  · rw [decide_eq_true hi, Bool.true_and]
  · rw [BitVec.getLsbD_of_ge v i (Nat.le_of_not_lt hi), Bool.false_and, Bool.false_and]

theorem setWindow_of_not_fits (h : ¬window.Fits w) (v : BitVec w) :
    setWindow v window = .error ⟨window, w⟩ := by
  rw [setWindow, mask_of_not_fits h]
  rfl

theorem clearWindow_of_not_fits (h : ¬window.Fits w) (v : BitVec w) :
    clearWindow v window = .error ⟨window, w⟩ := by
  rw [clearWindow, mask_of_not_fits h]
  rfl

end StackCalc.Word
