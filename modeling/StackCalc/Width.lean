/-!
# Integer widths

A calculator works in a signed range of 32 or 64 bits. Numbers are mathematical integers
throughout, and a width is the set of those that it can hold: `n ∈ w`. Nothing wraps around; a
number outside the range is refused where it arises.
-/

namespace StackCalc

/-- The number of bits of a value, its sign included. -/
inductive Width where
  | bits32
  | bits64
  deriving DecidableEq, Repr

namespace Width

def bits : Width → Nat
  | bits32 => 32
  | bits64 => 64

/-- The least number of the range. -/
def least (w : Width) : Int := -(Nat.pow 2 (w.bits - 1) : Int)

/-- The greatest number of the range. -/
def greatest (w : Width) : Int := (Nat.pow 2 (w.bits - 1) : Int) - 1

instance : Membership Int Width where
  mem w n := w.least ≤ n ∧ n ≤ w.greatest

theorem mem_iff {w : Width} {n : Int} : n ∈ w ↔ w.least ≤ n ∧ n ≤ w.greatest := Iff.rfl

instance (w : Width) (n : Int) : Decidable (n ∈ w) := decidable_of_iff _ mem_iff.symm

theorem mem_bits32_iff {n : Int} : n ∈ bits32 ↔ -2147483648 ≤ n ∧ n ≤ 2147483647 := mem_iff

theorem mem_bits64_iff {n : Int} :
    n ∈ bits64 ↔ -9223372036854775808 ≤ n ∧ n ≤ 9223372036854775807 := mem_iff

/-- The wider range contains the narrower one. -/
theorem mem_bits64_of_mem_bits32 {n : Int} (h : n ∈ bits32) : n ∈ bits64 := by
  rw [mem_bits32_iff] at h
  rw [mem_bits64_iff]
  omega

end Width

end StackCalc
