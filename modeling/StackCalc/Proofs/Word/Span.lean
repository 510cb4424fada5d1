import StackCalc.Proofs.Word.WindowCount

/-!
# The span of a word

The zeros above the highest set bit of a word and those below its lowest leave a window between them,
the span. All set bits are in the span, and the bits at its two ends are set. So a window that is
cleared leaves zero only if it reaches over the whole span (`clearWindow_eq_ok_zero_iff`), and the set
bits are as many as the span has bits only if there is no clear bit between them.
-/

namespace StackCalc.Word

variable {w : Nat} {v : BitVec w} {window : Window}

/-- The window from the lowest set bit of a word up to its highest; zero has an empty one. -/
def span (v : BitVec w) : Window := ⟨w - leadingZeros v - trailingZeros v, trailingZeros v⟩

theorem leadingZeros_zero : leadingZeros (0 : BitVec w) = w := by
  have hclz : (0 : BitVec w).clz = BitVec.ofNat w w := BitVec.clz_eq_iff_eq_zero.2 rfl
  rw [leadingZeros, hclz, BitVec.toNat_ofNat, Nat.mod_eq_of_lt Nat.lt_two_pow_self]

theorem trailingZeros_zero : trailingZeros (0 : BitVec w) = w := by
  have hreverse : (0 : BitVec w).reverse = 0 := BitVec.reverse_eq_zero_iff.2 rfl
  rw [trailingZeros, BitVec.ctz_eq_reverse_clz, hreverse]
  exact leadingZeros_zero

/-! ### The two ends -/

theorem getLsbD_leadingZeros (h : v ≠ 0) : v.getLsbD (w - 1 - leadingZeros v) = true :=
  BitVec.getLsbD_true_clz_of_ne_zero (Nat.zero_lt_of_lt (trailingZeros_lt h)) h

theorem lt_sub_leadingZeros {i : Nat} (h : v.getLsbD i = true) : i < w - leadingZeros v := by
  have hle : 2 ^ i ≤ v.toNat := Nat.ge_two_pow_of_testBit h
  have hlt : v.toNat < 2 ^ (w - leadingZeros v) := BitVec.toNat_lt_two_pow_sub_clz
  exact (Nat.pow_lt_pow_iff_right (by decide)).1 (Nat.lt_of_le_of_lt hle hlt)

theorem trailingZeros_add_leadingZeros_lt (h : v ≠ 0) : trailingZeros v + leadingZeros v < w := by
  have hlt := lt_sub_leadingZeros (getLsbD_trailingZeros h)
  omega

theorem covers_span {i : Nat} (h : v.getLsbD i = true) : (span v).Covers i := by
  have hle := trailingZeros_le h
  have hlt := lt_sub_leadingZeros h
  show trailingZeros v ≤ i ∧ i < trailingZeros v + (w - leadingZeros v - trailingZeros v)
  omega

theorem fits_span (v : BitVec w) : (span v).Fits w := by
  show w - leadingZeros v - trailingZeros v + trailingZeros v ≤ w
  by_cases hv : v = 0
  · rw [hv, leadingZeros_zero, trailingZeros_zero]
    omega
  · have hlt := trailingZeros_add_leadingZeros_lt hv
    omega

/-- A power of two divides a word if the bits below it are clear. -/
theorem two_pow_dvd_toNat_iff {k : Nat} : 2 ^ k ∣ v.toNat ↔ ∀ i < k, v.getLsbD i = false := by
  rw [Nat.dvd_iff_mod_eq_zero]
  constructor
  · intro hmod i hi
    have hbit := Nat.testBit_mod_two_pow v.toNat k i
    rw [hmod, Nat.zero_testBit, decide_eq_true hi, Bool.true_and] at hbit
    exact hbit.symm
  · intro hclear
    apply Nat.eq_of_testBit_eq
    intro i
    rw [Nat.testBit_mod_two_pow, Nat.zero_testBit]
    by_cases hi : i < k
    · rw [BitVec.testBit_toNat, hclear i hi, Bool.and_false]
    · rw [decide_eq_false hi, Bool.false_and]

theorem two_pow_dvd_toNat_iff_le (h : v ≠ 0) {k : Nat} : 2 ^ k ∣ v.toNat ↔ k ≤ trailingZeros v := by
  rw [two_pow_dvd_toNat_iff]
  constructor
  · intro hclear
    apply Nat.le_of_not_lt
    intro hlt
    exact Bool.false_ne_true ((hclear _ hlt).symm.trans (getLsbD_trailingZeros h))
  · intro hle i hi
    exact getLsbD_of_lt_trailingZeros (Nat.lt_of_lt_of_le hi hle)

/-! ### Windows that are cleared to zero -/

/-- Clearing a window leaves zero if and only if all set bits are in the window. -/
theorem clearWindow_eq_ok_zero_iff :
    clearWindow v window = .ok 0 ↔
      window.Fits w ∧ ∀ i, v.getLsbD i = true → window.Covers i := by
  by_cases hfits : window.Fits w
  · obtain ⟨v', hclear, hbits⟩ := exists_clearWindow_of_fits hfits v
    rw [hclear, and_iff_right hfits, Except.ok.injEq]
    constructor
    · rintro rfl i hi
      have hbit := hbits i
      rw [BitVec.ofNat_eq_ofNat, BitVec.getLsbD_zero, hi, Bool.true_and] at hbit
      simpa using hbit
    · intro hcovers
      apply BitVec.eq_of_getLsbD_eq
      intro i _
      rw [hbits, BitVec.ofNat_eq_ofNat, BitVec.getLsbD_zero]
      cases hi : v.getLsbD i with
      | false => rfl
      | true => rw [decide_eq_true (hcovers i hi)]; rfl
  · rw [clearWindow_of_not_fits hfits]
    simp [hfits]

theorem clearWindow_span (v : BitVec w) : clearWindow v (span v) = .ok 0 :=
  clearWindow_eq_ok_zero_iff.2 ⟨fits_span v, fun _ => covers_span⟩

/-- A window that is cleared to zero has the two ends of the span in it. -/
theorem bits_span_le (h : v ≠ 0) (hclear : clearWindow v window = .ok 0) :
    (span v).bits ≤ window.bits := by
  obtain ⟨-, hcovers⟩ := clearWindow_eq_ok_zero_iff.1 hclear
  have hlow := hcovers _ (getLsbD_trailingZeros h)
  have hhigh := hcovers _ (getLsbD_leadingZeros h)
  unfold Window.Covers at hlow hhigh
  show w - leadingZeros v - trailingZeros v ≤ window.bits
  omega

/-! ### The count and the span -/

theorem setPlaces_eq_filter_span (v : BitVec w) :
    setPlaces v =
      (List.range' (span v).shift (span v).bits).filter fun i => v.getLsbD i := by
  refine setPlaces_eq_of_mem_iff (List.Pairwise.filter _ List.pairwise_lt_range') ?_
  intro i
  rw [List.mem_filter, List.mem_range'_1, iff_and_self]
  exact covers_span

theorem popCount_le_bits_span (v : BitVec w) : popCount v ≤ (span v).bits := by
  have hle := List.length_filter_le (fun i => v.getLsbD i)
    (List.range' (span v).shift (span v).bits)
  rwa [← setPlaces_eq_filter_span, ← popCount_eq_length, List.length_range'] at hle

/-- The count reaches the length of the span if and only if every bit of the span is set. -/
theorem popCount_eq_bits_span_iff :
    popCount v = (span v).bits ↔ ∀ i, (span v).Covers i → v.getLsbD i = true := by
  have hfull := List.length_filter_eq_length_iff (p := fun i => v.getLsbD i)
    (l := List.range' (span v).shift (span v).bits)
  rw [← setPlaces_eq_filter_span, ← popCount_eq_length, List.length_range'] at hfull
  simp only [hfull, List.mem_range'_1, Window.Covers]

/-- Whether there is no clear bit between two set bits. -/
def IsContiguous (v : BitVec w) : Prop :=
  ∀ i j k, i ≤ j → j ≤ k → v.getLsbD i = true → v.getLsbD k = true → v.getLsbD j = true

theorem isContiguous_iff (h : v ≠ 0) :
    IsContiguous v ↔ ∀ i, (span v).Covers i → v.getLsbD i = true := by
  constructor
  · intro hv i hi
    have hlow : trailingZeros v ≤ i := hi.1
    have hhigh : i < trailingZeros v + (w - leadingZeros v - trailingZeros v) := hi.2
    exact hv _ i _ hlow (by omega) (getLsbD_trailingZeros h) (getLsbD_leadingZeros h)
  · intro hfull i j k hij hjk hi hk
    exact hfull j ⟨Nat.le_trans (covers_span hi).1 hij, Nat.lt_of_le_of_lt hjk (covers_span hk).2⟩

theorem mask_popCount_eq_ok_iff (h : v ≠ 0) :
    mask w ⟨popCount v, trailingZeros v⟩ = .ok v ↔ popCount v = (span v).bits := by
  constructor
  · intro hmask
    have hhigh := getLsbD_leadingZeros h
    rw [getLsbD_of_mask_eq_ok hmask, decide_eq_true_iff] at hhigh
    have hlt : w - 1 - leadingZeros v < trailingZeros v + popCount v := hhigh.2
    have hle : popCount v ≤ w - leadingZeros v - trailingZeros v := popCount_le_bits_span v
    show popCount v = w - leadingZeros v - trailingZeros v
    omega
  · intro hcount
    have hspan : (⟨popCount v, trailingZeros v⟩ : Window) = span v := by rw [hcount, span]
    rw [hspan, mask_eq_ok_iff, and_iff_right (fits_span v)]
    intro i
    rw [Bool.eq_iff_iff, decide_eq_true_iff]
    exact ⟨covers_span, popCount_eq_bits_span_iff.1 hcount i⟩

/-- What the numbers of zeros above and below the set bits of a word and the number of set bits say
    about it. -/
structure SpannedBy (v : BitVec w) (leading trailing count : Nat) : Prop where
  two_pow_le : 2 ^ (w - 1 - leading) ≤ v.toNat
  lt_two_pow : v.toNat < 2 ^ (w - leading)
  two_pow_dvd : 2 ^ trailing ∣ v.toNat
  not_two_pow_dvd : ¬2 ^ (trailing + 1) ∣ v.toNat
  sum_le : leading + trailing + count ≤ w
  clears : clearWindow v ⟨w - leading - trailing, trailing⟩ = .ok 0
  shortest : ∀ window, clearWindow v window = .ok 0 → w - leading - trailing ≤ window.bits
  sum_eq_iff_mask : leading + trailing + count = w ↔ mask w ⟨count, trailing⟩ = .ok v
  sum_eq_iff_contiguous : leading + trailing + count = w ↔ IsContiguous v

theorem sum_counts_eq_iff (h : v ≠ 0) :
    leadingZeros v + trailingZeros v + popCount v = w ↔ popCount v = (span v).bits := by
  have hlt := trailingZeros_add_leadingZeros_lt h
  show _ ↔ popCount v = w - leadingZeros v - trailingZeros v
  omega

theorem spannedBy (h : v ≠ 0) :
    SpannedBy v (leadingZeros v) (trailingZeros v) (popCount v) where
  two_pow_le :=
    BitVec.two_pow_sub_clz_le_toNat_of_ne_zero (Nat.zero_lt_of_lt (trailingZeros_lt h)) h
  lt_two_pow := BitVec.toNat_lt_two_pow_sub_clz
  two_pow_dvd := (two_pow_dvd_toNat_iff_le h).2 (Nat.le_refl _)
  not_two_pow_dvd := fun hdvd => Nat.not_succ_le_self _ ((two_pow_dvd_toNat_iff_le h).1 hdvd)
  sum_le := by
    have hlt := trailingZeros_add_leadingZeros_lt h
    have hle : popCount v ≤ w - leadingZeros v - trailingZeros v := popCount_le_bits_span v
    omega
  clears := clearWindow_span v
  shortest := fun _ => bits_span_le h
  sum_eq_iff_mask := (sum_counts_eq_iff h).trans (mask_popCount_eq_ok_iff h).symm
  sum_eq_iff_contiguous := by
    rw [sum_counts_eq_iff h, popCount_eq_bits_span_iff, isContiguous_iff h]

/-- The zeros above the highest set bit and those below the lowest bound a word from both sides and
    tell the greatest power of two that divides it. Between them is the shortest window that leaves
    zero when it is cleared; the three numbers add up to the width exactly for a word whose set bits
    are contiguous, and then it is the mask of that window. Zero has only zeros on either side. -/
theorem counts_describe_span (v : BitVec w) :
    (v ≠ 0 → SpannedBy v (leadingZeros v) (trailingZeros v) (popCount v)) ∧
    (v = 0 → leadingZeros v = w ∧ trailingZeros v = w ∧ popCount v = 0) := by
  refine ⟨spannedBy, ?_⟩
  rintro rfl
  exact ⟨leadingZeros_zero, trailingZeros_zero, popCount_zero⟩

/-- In `00101100` there is a clear bit in the span, so three set bits do not fill it. -/
example : span 0b00101100#8 = ⟨4, 2⟩ ∧ popCount 0b00101100#8 = 3 := by cbv

end StackCalc.Word
