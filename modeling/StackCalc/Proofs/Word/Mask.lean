import Mathlib.Algebra.Group.Nat.Defs
import StackCalc.Proofs.Word.Window

/-!
# Masks are exact

A word has the mask of a window if and only if the window ends inside the word, and as a number the
mask is `(2 ^ bits - 1) * 2 ^ shift`, of which nothing is cut off. `mask` counts with numbers of any
size and its shifts take any amount. Both are more than it needs: with numbers of 32 bits, where a
sum or a difference may wrap around, and with shifts that have no result from the width on, the mask
is the same (`mask32_eq`).
-/

namespace StackCalc.Word

variable {w : Nat} {window : Window} {m : BitVec w}

/-- A mask is a run of ones, moved up to the place of the window. -/
theorem toNat_of_mask_eq_ok (h : mask w window = .ok m) :
    m.toNat = (2 ^ window.bits - 1) * 2 ^ window.shift := by
  apply Nat.eq_of_testBit_eq
  intro i
  rw [BitVec.testBit_toNat, getLsbD_of_mask_eq_ok h, Nat.testBit_mul_two_pow,
    Nat.testBit_two_pow_sub_one, ← Bool.decide_and, decide_eq_decide]
  unfold Window.Covers
  omega

/-- Moves a word up; there is no result if the amount is not below the width. -/
def shiftUp? (v : BitVec w) (n : Nat) : Option (BitVec w) := if n < w then some (v <<< n) else none

/-- Moves a word down; there is no result if the amount is not below the width. -/
def shiftDown? (v : BitVec w) (n : Nat) : Option (BitVec w) :=
  if n < w then some (v >>> n) else none

/-- Both shifts stay below the width if the window fits and has a bit; the first would reach it for
    an empty window. -/
theorem shifts_of_mask_eq_ok (h : mask w window = .ok m) (hbits : window.bits ≠ 0) :
    ((shiftDown? (BitVec.allOnes w) (w - window.bits)).bind fun ones =>
      shiftUp? ones window.shift) = some m := by
  unfold mask at h
  split at h
  next hfits =>
    unfold Window.Fits at hfits
    have hdown : w - window.bits < w := by omega
    have hup : window.shift < w := by omega
    rw [shiftDown?, if_pos hdown, Option.bind_some, shiftUp?, if_pos hup, Except.ok.inj h]
  next => simp at h

/-- The mask of a window whose numbers have 32 bits. The difference is the one of such numbers, which
    wraps around below zero. Where the window fits and a shift has no result, there is none here. -/
def mask32 (width bits shift : UInt32) : Except WindowFault (Option (BitVec width.toNat)) :=
  if bits ≤ width ∧ shift ≤ width - bits then
    if bits = 0 then .ok (some 0)
    else
      .ok ((shiftDown? (BitVec.allOnes width.toNat) (width - bits).toNat).bind fun ones =>
        shiftUp? ones shift.toNat)
  else .error ⟨⟨bits.toNat, shift.toNat⟩, width.toNat⟩

/-- The two comparisons decide the exact sum: the difference is compared only where it does not
    wrap. -/
theorem guard32_iff (width bits shift : UInt32) :
    (bits ≤ width ∧ shift ≤ width - bits) ↔
      Window.Fits ⟨bits.toNat, shift.toNat⟩ width.toNat := by
  unfold Window.Fits
  constructor
  · rintro ⟨hbits, hshift⟩
    rw [UInt32.le_iff_toNat_le, UInt32.toNat_sub_of_le _ _ hbits] at hshift
    rw [UInt32.le_iff_toNat_le] at hbits
    exact Nat.add_le_of_le_sub' hbits hshift
  · intro hsum
    have hbits : bits ≤ width := UInt32.le_iff_toNat_le.2 (Nat.le_of_add_right_le hsum)
    refine ⟨hbits, ?_⟩
    rw [UInt32.le_iff_toNat_le, UInt32.toNat_sub_of_le _ _ hbits]
    exact Nat.le_sub_of_add_le' hsum

theorem mask32_eq (width bits shift : UInt32) :
    mask32 width bits shift = (mask width.toNat ⟨bits.toNat, shift.toNat⟩).map some := by
  by_cases hfits : Window.Fits ⟨bits.toNat, shift.toNat⟩ width.toNat
  · obtain ⟨m, hmask⟩ := exists_mask_of_fits hfits
    have hguard := (guard32_iff width bits shift).2 hfits
    rw [mask32, if_pos hguard, hmask]
    by_cases hempty : bits = 0
    · subst hempty
      rw [mask, if_pos hfits, if_pos UInt32.toNat_zero] at hmask
      rw [if_pos rfl, Except.ok.inj hmask]
      rfl
    · have hbits : bits.toNat ≠ 0 := fun hzero => hempty (UInt32.toNat_inj.1 hzero)
      rw [if_neg hempty, UInt32.toNat_sub_of_le _ _ hguard.1, shifts_of_mask_eq_ok hmask hbits]
      rfl
  · rw [mask32, if_neg (mt (guard32_iff width bits shift).1 hfits), mask_of_not_fits hfits]
    rfl

/-- A mask is refused exactly if its window ends beyond the word. Otherwise its set bits are those
    from the window's lowest up to its highest, so that it is the number of as many ones moved up
    without losing any, and the two shifts that make it are by less than the width. Numbers of 32
    bits are enough to decide whether the window fits and to make the mask. -/
theorem mask_sets_exactly_window (w : Nat) (window : Window) :
    (mask w window = .error ⟨window, w⟩ ↔ w < window.bits + window.shift) ∧
    (window.bits + window.shift ≤ w → ∃ m, mask w window = .ok m ∧
      (∀ i, m.getLsbD i = true ↔ window.shift ≤ i ∧ i < window.shift + window.bits) ∧
      m.toNat = (2 ^ window.bits - 1) * 2 ^ window.shift ∧
      (window.bits ≠ 0 →
        w - window.bits < w ∧ window.shift < w ∧
        ((shiftDown? (BitVec.allOnes w) (w - window.bits)).bind fun ones =>
          shiftUp? ones window.shift) = some m)) ∧
    (∀ width bits shift : UInt32, mask32 width bits shift =
      (mask width.toNat ⟨bits.toNat, shift.toNat⟩).map some) := by
  refine ⟨?_, ?_, mask32_eq⟩
  · rw [mask_eq_error_iff, and_iff_right rfl, Window.Fits, Nat.not_le]
  · intro hlong
    have hfits : window.Fits w := hlong
    obtain ⟨m, hmask⟩ := exists_mask_of_fits hfits
    refine ⟨m, hmask, ?_, toNat_of_mask_eq_ok hmask, ?_⟩
    · intro i
      rw [getLsbD_of_mask_eq_ok hmask, decide_eq_true_iff]
      exact Iff.rfl
    · intro hbits
      exact ⟨by omega, by omega, shifts_of_mask_eq_ok hmask hbits⟩

end StackCalc.Word
