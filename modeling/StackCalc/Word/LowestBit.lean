/-!
# Words and their lowest bits

A word is a row of `w` bits, numbered from the lowest. Adding one to a word carries through the set
bits at its bottom, and taking one away borrows through the clear bits there. Combining a word with
its neighbour therefore changes the word around its lowest clear or its lowest set bit and nowhere
else. The six primitives here are these combinations. A word of only zeros has no lowest set bit,
and a word of only ones no lowest clear bit; there the sum or difference wraps around.
-/

namespace StackCalc.Word

variable {w : Nat}

/-- All bits but the lowest clear one. -/
def isolateLowestClear (v : BitVec w) : BitVec w := v ||| ~~~(v + 1)

/-- The lowest set bit alone. -/
def isolateLowestSet (v : BitVec w) : BitVec w := v &&& -v

/-- Clears the set bits below the lowest clear bit; a word of only ones stays as it is. -/
def fillFromLowestClear (v : BitVec w) : BitVec w :=
  if v = BitVec.allOnes w then v else v &&& (v + 1)

/-- Sets the clear bits below the lowest set bit; zero stays as it is. -/
def fillFromLowestSet (v : BitVec w) : BitVec w :=
  if v = 0 then v else v ||| (v - 1)

/-- Clears the lowest set bit. -/
def clearLowestSet (v : BitVec w) : BitVec w := v &&& (v - 1)

/-- Sets the lowest clear bit. -/
def setLowestClear (v : BitVec w) : BitVec w := v ||| (v + 1)

/-- Clearing a set bit makes a word smaller. -/
theorem toNat_clearLowestSet_lt {v : BitVec w} (h : v ≠ 0) :
    (clearLowestSet v).toNat < v.toNat := by
  have hpos : v.toNat ≠ 0 := fun hzero => h (BitVec.eq_of_toNat_eq (by simpa using hzero))
  have hone : (1 : BitVec w).toNat ≤ v.toNat := by
    have hlt := v.isLt
    rw [BitVec.ofNat_eq_ofNat, BitVec.toNat_ofNat]
    exact Nat.le_trans (Nat.mod_le 1 _) (by omega)
  have hw : 0 < w := by
    cases w with
    | zero => exact absurd (BitVec.eq_nil v) (by simpa using h)
    | succ w => exact Nat.succ_pos w
  have hsub : (v - 1).toNat = v.toNat - 1 := by
    rw [BitVec.toNat_sub_of_le (BitVec.le_def.2 hone), BitVec.ofNat_eq_ofNat, BitVec.toNat_ofNat,
      Nat.mod_eq_of_lt (Nat.one_lt_two_pow (by omega))]
  have hand : (v &&& (v - 1)).toNat ≤ (v - 1).toNat := by
    rw [BitVec.toNat_and]
    exact Nat.and_le_right
  unfold clearLowestSet
  omega

end StackCalc.Word
