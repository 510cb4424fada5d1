import Mathlib.Algebra.Group.Nat.Defs
import StackCalc.Word.Count

/-!
# What the primitives do around the lowest bit

Taking one away from a word borrows through the clear bits at its bottom and stops at its lowest
set bit (`getLsbD_sub_one`). This settles the three primitives of the lowest set bit, first bit by
bit and then as exact arithmetic: a word that is not zero is the sum of the power of two at its
lowest set bit and of what is left when that bit is cleared. The primitives of the lowest clear bit
are these three read on the complement (`setLowestClear_eq_not` and its companions).
-/

namespace StackCalc.Word

variable {w : Nat} {v : BitVec w}

theorem getLsbD_trailingZeros (h : v ≠ 0) : v.getLsbD (trailingZeros v) = true :=
  BitVec.getLsbD_true_ctz_of_ne_zero h

theorem getLsbD_of_lt_trailingZeros {i : Nat} (h : i < trailingZeros v) : v.getLsbD i = false :=
  BitVec.getLsbD_false_of_lt_ctz h

theorem trailingZeros_le {i : Nat} (h : v.getLsbD i = true) : trailingZeros v ≤ i := by
  apply Nat.le_of_not_lt
  intro hlt
  rw [getLsbD_of_lt_trailingZeros hlt] at h
  exact Bool.false_ne_true h

theorem trailingZeros_lt (h : v ≠ 0) : trailingZeros v < w :=
  BitVec.lt_of_getLsbD (getLsbD_trailingZeros h)

theorem exists_set_below_iff (h : v ≠ 0) {i : Nat} :
    (∃ j < i, v.getLsbD j = true) ↔ trailingZeros v < i := by
  constructor
  · rintro ⟨j, hj, hset⟩
    exact Nat.lt_of_le_of_lt (trailingZeros_le hset) hj
  · intro hlt
    exact ⟨trailingZeros v, hlt, getLsbD_trailingZeros h⟩

/-- Up to its lowest set bit a word agrees with its negative; above that bit the negative is the
    complement. -/
theorem getLsbD_neg_of_ne_zero (h : v ≠ 0) (i : Nat) :
    (-v).getLsbD i = (v.getLsbD i ^^ (decide (i < w) && decide (trailingZeros v < i))) := by
  rw [BitVec.getLsbD_neg, decide_eq_decide.2 (exists_set_below_iff h)]

theorem sub_one_eq_not_neg (v : BitVec w) : v - 1 = ~~~(-v) := (BitVec.not_neg v).symm

/-- Taking one away sets the clear bits at the bottom, clears the lowest set bit and leaves the rest
    as it is. -/
theorem getLsbD_sub_one (h : v ≠ 0) (i : Nat) :
    (v - 1).getLsbD i =
      (decide (i < trailingZeros v) || (v.getLsbD i && decide (i ≠ trailingZeros v))) := by
  rw [sub_one_eq_not_neg, BitVec.getLsbD_not, getLsbD_neg_of_ne_zero h]
  have hw := trailingZeros_lt h
  rcases Nat.lt_trichotomy i (trailingZeros v) with hlt | rfl | hgt
  · rw [getLsbD_of_lt_trailingZeros hlt]
    simp [hlt, Nat.lt_trans hlt hw, Nat.lt_asymm hlt]
  · simp [getLsbD_trailingZeros h]
  · by_cases hi : i < w
    · simp [hgt, hi, Nat.lt_asymm hgt, Nat.ne_of_gt hgt]
    · simp [hi, Nat.lt_asymm hgt, BitVec.getLsbD_of_ge v i (Nat.le_of_not_lt hi)]

/-! ### The lowest set bit -/

theorem getLsbD_isolateLowestSet (h : v ≠ 0) (i : Nat) :
    (isolateLowestSet v).getLsbD i = decide (i = trailingZeros v) := by
  rw [isolateLowestSet, BitVec.getLsbD_and, getLsbD_neg_of_ne_zero h]
  rcases Nat.lt_trichotomy i (trailingZeros v) with hlt | rfl | hgt
  · simp [getLsbD_of_lt_trailingZeros hlt, Nat.ne_of_lt hlt]
  · simp [getLsbD_trailingZeros h]
  · cases hi : v.getLsbD i with
    | true => simp [hgt, BitVec.lt_of_getLsbD hi, Nat.ne_of_gt hgt]
    | false => simp [Nat.ne_of_gt hgt]

theorem getLsbD_clearLowestSet (h : v ≠ 0) (i : Nat) :
    (clearLowestSet v).getLsbD i = (v.getLsbD i && decide (i ≠ trailingZeros v)) := by
  rw [clearLowestSet, BitVec.getLsbD_and, getLsbD_sub_one h]
  by_cases hlt : i < trailingZeros v
  · rw [getLsbD_of_lt_trailingZeros hlt, Bool.false_and, Bool.false_and]
  · rw [decide_eq_false hlt, Bool.false_or, ← Bool.and_assoc, Bool.and_self]

theorem getLsbD_fillFromLowestSet (h : v ≠ 0) (i : Nat) :
    (fillFromLowestSet v).getLsbD i = (v.getLsbD i || decide (i < trailingZeros v)) := by
  rw [fillFromLowestSet, if_neg h, BitVec.getLsbD_or, getLsbD_sub_one h]
  cases v.getLsbD i with
  | true => rfl
  | false => simp

theorem isolateLowestSet_zero : isolateLowestSet (0 : BitVec w) = 0 := by
  simp [isolateLowestSet]

theorem clearLowestSet_zero : clearLowestSet (0 : BitVec w) = 0 := by
  simp [clearLowestSet]

theorem fillFromLowestSet_zero : fillFromLowestSet (0 : BitVec w) = 0 := if_pos rfl

/-- Words without a common bit are put together by adding them. -/
theorem toNat_or_of_disjoint {x y : BitVec w}
    (h : ∀ i, ¬(x.getLsbD i = true ∧ y.getLsbD i = true)) :
    (x ||| y).toNat = x.toNat + y.toNat := by
  have hand : x &&& y = 0#w := by
    apply BitVec.eq_of_getLsbD_eq
    intro i _
    rw [BitVec.getLsbD_and, BitVec.getLsbD_zero, Bool.eq_false_iff]
    exact fun hi => h i (Bool.and_eq_true_iff.1 hi)
  rw [← BitVec.add_eq_or_of_and_eq_zero x y hand, BitVec.toNat_add_of_and_eq_zero hand]

theorem isolateLowestSet_eq_twoPow (h : v ≠ 0) :
    isolateLowestSet v = BitVec.twoPow w (trailingZeros v) := by
  apply BitVec.eq_of_getLsbD_eq
  intro i _
  rw [getLsbD_isolateLowestSet h, BitVec.getLsbD_twoPow, decide_eq_true (trailingZeros_lt h),
    Bool.true_and, decide_eq_decide]
  exact eq_comm

theorem toNat_isolateLowestSet (h : v ≠ 0) : (isolateLowestSet v).toNat = 2 ^ trailingZeros v := by
  rw [isolateLowestSet_eq_twoPow h, BitVec.toNat_twoPow_of_lt (trailingZeros_lt h)]

theorem clearLowestSet_or_isolateLowestSet (h : v ≠ 0) :
    clearLowestSet v ||| isolateLowestSet v = v := by
  apply BitVec.eq_of_getLsbD_eq
  intro i _
  rw [BitVec.getLsbD_or, getLsbD_clearLowestSet h, getLsbD_isolateLowestSet h]
  by_cases hi : i = trailingZeros v
  · subst hi
    simp [getLsbD_trailingZeros h]
  · simp [hi]

/-- Clearing the lowest set bit takes its power of two away. -/
theorem toNat_clearLowestSet (h : v ≠ 0) :
    (clearLowestSet v).toNat + 2 ^ trailingZeros v = v.toNat := by
  have hdisjoint : ∀ i, ¬((clearLowestSet v).getLsbD i = true ∧
      (isolateLowestSet v).getLsbD i = true) := by
    intro i
    rw [getLsbD_clearLowestSet h, getLsbD_isolateLowestSet h]
    by_cases hi : i = trailingZeros v <;> simp [hi]
  rw [← toNat_isolateLowestSet h, ← toNat_or_of_disjoint hdisjoint,
    clearLowestSet_or_isolateLowestSet h]

/-- Filling adds the powers of two below the lowest set bit. -/
theorem toNat_fillFromLowestSet (h : v ≠ 0) :
    (fillFromLowestSet v).toNat = v.toNat + (2 ^ trailingZeros v - 1) := by
  have hlt : 2 ^ trailingZeros v - 1 < 2 ^ w :=
    Nat.lt_of_le_of_lt (Nat.sub_le _ 1) (Nat.pow_lt_pow_right (by decide) (trailingZeros_lt h))
  have hones : ∀ i, (BitVec.ofNat w (2 ^ trailingZeros v - 1)).getLsbD i =
      decide (i < trailingZeros v) := by
    intro i
    rw [← BitVec.testBit_toNat, BitVec.toNat_ofNat, Nat.mod_eq_of_lt hlt,
      Nat.testBit_two_pow_sub_one]
  have hfill : fillFromLowestSet v = v ||| BitVec.ofNat w (2 ^ trailingZeros v - 1) := by
    apply BitVec.eq_of_getLsbD_eq
    intro i _
    rw [getLsbD_fillFromLowestSet h, BitVec.getLsbD_or, hones]
  have hdisjoint : ∀ i, ¬(v.getLsbD i = true ∧
      (BitVec.ofNat w (2 ^ trailingZeros v - 1)).getLsbD i = true) := by
    rintro i ⟨hset, hone⟩
    rw [hones, decide_eq_true_iff] at hone
    exact Nat.not_lt_of_le (trailingZeros_le hset) hone
  rw [hfill, toNat_or_of_disjoint hdisjoint, BitVec.toNat_ofNat, Nat.mod_eq_of_lt hlt]

/-! ### The lowest clear bit -/

theorem neg_not (v : BitVec w) : -(~~~v) = v + 1 := by
  rw [BitVec.neg_eq_not_add, BitVec.not_not]
  rfl

theorem not_eq_zero_iff : ~~~v = 0 ↔ v = BitVec.allOnes w := by
  rw [BitVec.not_eq_comm, BitVec.ofNat_eq_ofNat, BitVec.not_zero]

theorem isolateLowestClear_eq_not (v : BitVec w) :
    isolateLowestClear v = ~~~isolateLowestSet (~~~v) := by
  rw [isolateLowestClear, isolateLowestSet, neg_not, BitVec.not_and, BitVec.not_not]

theorem setLowestClear_eq_not (v : BitVec w) :
    setLowestClear v = ~~~clearLowestSet (~~~v) := by
  rw [setLowestClear, clearLowestSet, sub_one_eq_not_neg, neg_not, BitVec.not_and, BitVec.not_not,
    BitVec.not_not]

theorem fillFromLowestClear_eq_not (v : BitVec w) :
    fillFromLowestClear v = ~~~fillFromLowestSet (~~~v) := by
  unfold fillFromLowestClear fillFromLowestSet
  by_cases hones : v = BitVec.allOnes w
  · rw [if_pos hones, if_pos (not_eq_zero_iff.2 hones), BitVec.not_not]
  · rw [if_neg hones, if_neg (mt not_eq_zero_iff.1 hones), sub_one_eq_not_neg, neg_not,
      BitVec.not_or, BitVec.not_not, BitVec.not_not]

/-- A word and its complement add up to the word of only ones. -/
theorem toNat_not_add (v : BitVec w) : (~~~v).toNat + v.toNat = 2 ^ w - 1 := by
  have hlt := v.isLt
  rw [BitVec.toNat_not]
  omega

theorem not_ne_zero (h : v ≠ BitVec.allOnes w) : ~~~v ≠ 0 := mt not_eq_zero_iff.1 h

theorem toNat_isolateLowestClear (h : v ≠ BitVec.allOnes w) :
    (isolateLowestClear v).toNat + 2 ^ trailingZeros (~~~v) = 2 ^ w - 1 := by
  rw [isolateLowestClear_eq_not, ← toNat_isolateLowestSet (not_ne_zero h), toNat_not_add]

theorem toNat_setLowestClear (h : v ≠ BitVec.allOnes w) :
    (setLowestClear v).toNat = v.toNat + 2 ^ trailingZeros (~~~v) := by
  have hclear := toNat_clearLowestSet (not_ne_zero h)
  have hset := toNat_not_add (clearLowestSet (~~~v))
  have hv := toNat_not_add v
  rw [setLowestClear_eq_not]
  omega

theorem toNat_fillFromLowestClear (h : v ≠ BitVec.allOnes w) :
    (fillFromLowestClear v).toNat + (2 ^ trailingZeros (~~~v) - 1) = v.toNat := by
  have hfillSet := toNat_fillFromLowestSet (not_ne_zero h)
  have hfill := toNat_not_add (fillFromLowestSet (~~~v))
  have hv := toNat_not_add v
  rw [fillFromLowestClear_eq_not]
  omega

theorem getLsbD_isolateLowestClear (h : v ≠ BitVec.allOnes w) (i : Nat) :
    (isolateLowestClear v).getLsbD i = (decide (i < w) && decide (i ≠ trailingZeros (~~~v))) := by
  rw [isolateLowestClear_eq_not, BitVec.getLsbD_not, getLsbD_isolateLowestSet (not_ne_zero h),
    decide_not]

/-- To clear a bit of the complement is to set it in the word. -/
theorem getLsbD_not_of_clears {u : BitVec w} {i : Nat} {p : Prop} [Decidable p] (hp : p → i < w)
    (hu : u.getLsbD i = ((~~~v).getLsbD i && decide (¬p))) :
    (~~~u).getLsbD i = (v.getLsbD i || decide p) := by
  rw [BitVec.getLsbD_not, hu, BitVec.getLsbD_not]
  by_cases hi : i < w
  · simp [hi]
  · simp [hi, mt hp hi, BitVec.getLsbD_of_ge v i (Nat.le_of_not_lt hi)]

theorem getLsbD_setLowestClear (h : v ≠ BitVec.allOnes w) (i : Nat) :
    (setLowestClear v).getLsbD i = (v.getLsbD i || decide (i = trailingZeros (~~~v))) := by
  rw [setLowestClear_eq_not]
  refine getLsbD_not_of_clears ?_ (getLsbD_clearLowestSet (not_ne_zero h) i)
  rintro rfl
  exact trailingZeros_lt (not_ne_zero h)

theorem getLsbD_fillFromLowestClear (h : v ≠ BitVec.allOnes w) (i : Nat) :
    (fillFromLowestClear v).getLsbD i = (v.getLsbD i && decide (trailingZeros (~~~v) ≤ i)) := by
  rw [fillFromLowestClear_eq_not, BitVec.getLsbD_not, getLsbD_fillFromLowestSet (not_ne_zero h),
    BitVec.getLsbD_not, ← decide_eq_decide.2 Nat.not_lt, decide_not]
  by_cases hi : i < w
  · simp [hi]
  · simp [hi, BitVec.getLsbD_of_ge v i (Nat.le_of_not_lt hi)]

theorem isolateLowestClear_allOnes :
    isolateLowestClear (BitVec.allOnes w) = BitVec.allOnes w := by
  rw [isolateLowestClear_eq_not, not_eq_zero_iff.2 rfl, isolateLowestSet_zero]
  exact BitVec.not_zero

theorem setLowestClear_allOnes : setLowestClear (BitVec.allOnes w) = BitVec.allOnes w := by
  rw [setLowestClear_eq_not, not_eq_zero_iff.2 rfl, clearLowestSet_zero]
  exact BitVec.not_zero

theorem fillFromLowestClear_allOnes :
    fillFromLowestClear (BitVec.allOnes w) = BitVec.allOnes w := if_pos rfl

theorem getLsbD_trailingZeros_not (h : v ≠ BitVec.allOnes w) :
    v.getLsbD (trailingZeros (~~~v)) = false := by
  have hset := getLsbD_trailingZeros (not_ne_zero h)
  rwa [BitVec.getLsbD_not, decide_eq_true (trailingZeros_lt (not_ne_zero h)), Bool.true_and,
    Bool.not_eq_true'] at hset

theorem getLsbD_of_lt_trailingZeros_not {i : Nat} (h : i < trailingZeros (~~~v)) (hi : i < w) :
    v.getLsbD i = true := by
  have hclear := getLsbD_of_lt_trailingZeros h
  rwa [BitVec.getLsbD_not, decide_eq_true hi, Bool.true_and, Bool.not_eq_false'] at hclear

/-- What the primitives of the lowest set bit make of a word that has this bit at `k`. -/
structure ActsAtLowestSet (v : BitVec w) (k : Nat) : Prop where
  isSet : v.getLsbD k = true
  clear_below : ∀ i < k, v.getLsbD i = false
  toNat_isolate : (isolateLowestSet v).toNat = 2 ^ k
  toNat_clear : (clearLowestSet v).toNat + 2 ^ k = v.toNat
  toNat_fill : (fillFromLowestSet v).toNat = v.toNat + (2 ^ k - 1)
  getLsbD_isolate : ∀ i, (isolateLowestSet v).getLsbD i = decide (i = k)
  getLsbD_clear : ∀ i, (clearLowestSet v).getLsbD i = (v.getLsbD i && decide (i ≠ k))
  getLsbD_fill : ∀ i, (fillFromLowestSet v).getLsbD i = (v.getLsbD i || decide (i < k))

/-- What the primitives of the lowest clear bit make of a word that has this bit at `k`. -/
structure ActsAtLowestClear (v : BitVec w) (k : Nat) : Prop where
  lt_width : k < w
  isClear : v.getLsbD k = false
  set_below : ∀ i < k, v.getLsbD i = true
  toNat_isolate : (isolateLowestClear v).toNat + 2 ^ k = 2 ^ w - 1
  toNat_set : (setLowestClear v).toNat = v.toNat + 2 ^ k
  toNat_fill : (fillFromLowestClear v).toNat + (2 ^ k - 1) = v.toNat
  getLsbD_isolate : ∀ i,
    (isolateLowestClear v).getLsbD i = (decide (i < w) && decide (i ≠ k))
  getLsbD_set : ∀ i, (setLowestClear v).getLsbD i = (v.getLsbD i || decide (i = k))
  getLsbD_fill : ∀ i, (fillFromLowestClear v).getLsbD i = (v.getLsbD i && decide (k ≤ i))

theorem actsAtLowestSet (h : v ≠ 0) : ActsAtLowestSet v (trailingZeros v) where
  isSet := getLsbD_trailingZeros h
  clear_below := fun _ => getLsbD_of_lt_trailingZeros
  toNat_isolate := toNat_isolateLowestSet h
  toNat_clear := toNat_clearLowestSet h
  toNat_fill := toNat_fillFromLowestSet h
  getLsbD_isolate := getLsbD_isolateLowestSet h
  getLsbD_clear := getLsbD_clearLowestSet h
  getLsbD_fill := getLsbD_fillFromLowestSet h

theorem actsAtLowestClear (h : v ≠ BitVec.allOnes w) :
    ActsAtLowestClear v (trailingZeros (~~~v)) where
  lt_width := trailingZeros_lt (not_ne_zero h)
  isClear := getLsbD_trailingZeros_not h
  set_below := fun _ hi =>
    getLsbD_of_lt_trailingZeros_not hi (Nat.lt_trans hi (trailingZeros_lt (not_ne_zero h)))
  toNat_isolate := toNat_isolateLowestClear h
  toNat_set := toNat_setLowestClear h
  toNat_fill := toNat_fillFromLowestClear h
  getLsbD_isolate := getLsbD_isolateLowestClear h
  getLsbD_set := getLsbD_setLowestClear h
  getLsbD_fill := getLsbD_fillFromLowestClear h

/-- The primitives change a word by powers of two at its lowest set or lowest clear bit, in exact
    arithmetic without a wrap, and touch just the bits that they are named for: that bit alone, or
    the bits below it. A word without such a bit stays as it is. -/
theorem primitives_around_lowest_bit (v : BitVec w) :
    (v ≠ 0 → ActsAtLowestSet v (trailingZeros v)) ∧
    (v ≠ BitVec.allOnes w → ActsAtLowestClear v (trailingZeros (~~~v))) ∧
    (v = 0 → isolateLowestSet v = 0 ∧ clearLowestSet v = 0 ∧ fillFromLowestSet v = 0) ∧
    (v = BitVec.allOnes w →
      isolateLowestClear v = BitVec.allOnes w ∧ setLowestClear v = BitVec.allOnes w ∧
      fillFromLowestClear v = BitVec.allOnes w) := by
  refine ⟨actsAtLowestSet, actsAtLowestClear, ?_, ?_⟩
  · rintro rfl
    exact ⟨isolateLowestSet_zero, clearLowestSet_zero, fillFromLowestSet_zero⟩
  · rintro rfl
    exact ⟨isolateLowestClear_allOnes, setLowestClear_allOnes, fillFromLowestClear_allOnes⟩

/-- The lowest clear bit of `11100011` is the one at 2, and filling takes the two below it away. -/
example : trailingZeros (~~~0b11100011#8) = 2 ∧ isolateLowestClear 0b11100011#8 = 0b11111011#8 ∧
    setLowestClear 0b11100011#8 = 0b11100111#8 ∧
    fillFromLowestClear 0b11100011#8 = 0b11100000#8 := by decide

end StackCalc.Word
