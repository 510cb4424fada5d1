import StackCalc.Word.LowestBit

/-!
# Counting bits

The number of set bits of a word, and the numbers of zeros above its highest and below its lowest
set bit. Set bits are counted by clearing the lowest one until none is left, which takes one step
for each of them. `lowestBits` takes a word apart in the same steps.
-/

namespace StackCalc.Word

variable {w : Nat}

/-- The number of set bits. -/
def popCount (v : BitVec w) : Nat :=
  if _h : v = 0 then 0 else popCount (clearLowestSet v) + 1
termination_by v.toNat
decreasing_by exact toNat_clearLowestSet_lt _h

/-- The set bits of a word, each as a word of its own, from the lowest to the highest. -/
def lowestBits (v : BitVec w) : List (BitVec w) :=
  if _h : v = 0 then [] else isolateLowestSet v :: lowestBits (clearLowestSet v)
termination_by v.toNat
decreasing_by exact toNat_clearLowestSet_lt _h

/-- The number of zeros above the highest set bit; the width for zero. -/
def leadingZeros (v : BitVec w) : Nat := v.clz.toNat

/-- The number of zeros below the lowest set bit; the width for zero. -/
def trailingZeros (v : BitVec w) : Nat := v.ctz.toNat

@[simp] theorem popCount_zero : popCount (0 : BitVec w) = 0 := by
  rw [popCount, dif_pos rfl]

theorem popCount_of_ne_zero {v : BitVec w} (h : v ≠ 0) :
    popCount v = popCount (clearLowestSet v) + 1 := by
  rw [popCount, dif_neg h]

@[simp] theorem lowestBits_zero : lowestBits (0 : BitVec w) = [] := by
  rw [lowestBits, dif_pos rfl]

theorem lowestBits_of_ne_zero {v : BitVec w} (h : v ≠ 0) :
    lowestBits v = isolateLowestSet v :: lowestBits (clearLowestSet v) := by
  rw [lowestBits, dif_neg h]

end StackCalc.Word
