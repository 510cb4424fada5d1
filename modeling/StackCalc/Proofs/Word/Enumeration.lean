import Mathlib.Algebra.Ring.Nat
import StackCalc.Proofs.Word.Count

/-!
# Bits in order

Clearing the lowest set bit over and over takes the set bits of a word one by one from the lowest
up, and setting the lowest clear bit does the same to the clear bits. `lowestBits` keeps each set bit
on its way out: these are powers of two, in increasing order, that add up to the word.
-/

namespace StackCalc.Word

variable {w : Nat} {v : BitVec w}

/-- The places of the clear bits, from the lowest up. -/
def clearPlaces (v : BitVec w) : List Nat := (List.range w).filter fun i => !v.getLsbD i

theorem setPlaces_not (v : BitVec w) : setPlaces (~~~v) = clearPlaces v := by
  unfold setPlaces clearPlaces
  apply List.filter_congr
  intro i hi
  rw [BitVec.getLsbD_not, decide_eq_true (List.mem_range.1 hi), Bool.true_and]

theorem length_clearPlaces (v : BitVec w) : (clearPlaces v).length = w - popCount v := by
  have hsum := popCount_add_popCount_not v
  rw [← setPlaces_not, ← popCount_eq_length]
  omega

/-- What is behind the first places of an increasing list is not among them. -/
theorem mem_drop_setPlaces {n i : Nat} :
    i ∈ (setPlaces v).drop n ↔ v.getLsbD i = true ∧ i ∉ (setPlaces v).take n := by
  have hnodup : (setPlaces v).Nodup := (pairwise_setPlaces v).imp Nat.ne_of_lt
  have hmem : i ∈ setPlaces v ↔ i ∈ (setPlaces v).take n ∨ i ∈ (setPlaces v).drop n := by
    rw [← List.mem_append, List.take_append_drop]
  rw [← mem_setPlaces, hmem]
  constructor
  · intro hdrop
    exact ⟨.inr hdrop, fun htake => List.disjoint_take_drop hnodup (Nat.le_refl n) htake hdrop⟩
  · rintro ⟨hor, htake⟩
    exact hor.resolve_left htake

/-- After `n` steps the bits at the first `n` places are clear and the others as they were. -/
theorem getLsbD_iterate_clearLowestSet (v : BitVec w) (n i : Nat) :
    (clearLowestSet^[n] v).getLsbD i = (v.getLsbD i && decide (i ∉ (setPlaces v).take n)) := by
  rw [Bool.eq_iff_iff, ← mem_setPlaces, setPlaces_iterate, mem_drop_setPlaces,
    Bool.and_eq_true_iff, decide_eq_true_iff]

theorem iterate_setLowestClear (v : BitVec w) (n : Nat) :
    setLowestClear^[n] v = ~~~(clearLowestSet^[n] (~~~v)) := by
  induction n with
  | zero => exact BitVec.not_not.symm
  | succ n ih =>
    rw [Function.iterate_succ_apply', Function.iterate_succ_apply', ih, setLowestClear_eq_not,
      BitVec.not_not]

theorem getLsbD_iterate_setLowestClear (v : BitVec w) (n i : Nat) :
    (setLowestClear^[n] v).getLsbD i = (v.getLsbD i || decide (i ∈ (clearPlaces v).take n)) := by
  rw [iterate_setLowestClear, ← setPlaces_not]
  refine getLsbD_not_of_clears ?_ (getLsbD_iterate_clearLowestSet (~~~v) n i)
  intro htake
  exact BitVec.lt_of_getLsbD (mem_setPlaces.1 (List.mem_of_mem_take htake))

/-- The bits that are taken out are those at the places of the set bits, in their order. -/
theorem map_toNat_lowestBits (v : BitVec w) :
    (lowestBits v).map BitVec.toNat = (setPlaces v).map (2 ^ ·) := by
  fun_induction lowestBits v with
  | case1 => rw [setPlaces_zero, List.map_nil, List.map_nil]
  | case2 v hv ih =>
    rw [setPlaces_of_ne_zero hv, List.map_cons, List.map_cons, toNat_isolateLowestSet hv, ih]

theorem length_lowestBits (v : BitVec w) : (lowestBits v).length = popCount v := by
  rw [popCount_eq_length, ← List.length_map (f := BitVec.toNat), map_toNat_lowestBits,
    List.length_map]

theorem pairwise_lowestBits (v : BitVec w) : (lowestBits v).Pairwise (· < ·) := by
  have hmap : ((lowestBits v).map BitVec.toNat).Pairwise (· < ·) := by
    rw [map_toNat_lowestBits, List.pairwise_map]
    exact (pairwise_setPlaces v).imp (Nat.pow_lt_pow_right (by decide))
  exact (List.pairwise_map.1 hmap).imp BitVec.lt_def.2

/-- No step loses anything: the bit that is taken out and the word that is left add up to the word
    before. -/
theorem sum_lowestBits (v : BitVec w) : ((lowestBits v).map BitVec.toNat).sum = v.toNat := by
  fun_induction lowestBits v with
  | case1 => rfl
  | case2 v hv ih =>
    rw [List.map_cons, List.sum_cons, ih, toNat_isolateLowestSet hv, Nat.add_comm,
      toNat_clearLowestSet hv]

/-- After any number of steps, clearing has cleared as many of the lowest set bits as there were
    steps, or all if there are fewer, and no other bit; and setting has done so to the lowest clear
    bits. The bits that clearing takes out are one for each set bit, each a power of two and above
    the one before, and they add up to the word. -/
theorem bits_in_order (v : BitVec w) (n : Nat) :
    (((setPlaces v).take n).length = min n (popCount v) ∧
      ∀ i, (clearLowestSet^[n] v).getLsbD i =
        (v.getLsbD i && decide (i ∉ (setPlaces v).take n))) ∧
    (((clearPlaces v).take n).length = min n (w - popCount v) ∧
      ∀ i, (setLowestClear^[n] v).getLsbD i =
        (v.getLsbD i || decide (i ∈ (clearPlaces v).take n))) ∧
    (lowestBits v).length = popCount v ∧
    (∀ b ∈ lowestBits v, ∃ i < w, b.toNat = 2 ^ i) ∧
    (lowestBits v).Pairwise (· < ·) ∧
    ((lowestBits v).map BitVec.toNat).sum = v.toNat := by
  refine ⟨⟨?_, getLsbD_iterate_clearLowestSet v n⟩, ⟨?_, getLsbD_iterate_setLowestClear v n⟩,
    length_lowestBits v, ?_, pairwise_lowestBits v, sum_lowestBits v⟩
  · rw [List.length_take, popCount_eq_length]
  · rw [List.length_take, length_clearPlaces]
  · intro b hb
    have hmap : b.toNat ∈ (setPlaces v).map (2 ^ ·) := by
      rw [← map_toNat_lowestBits]
      exact List.mem_map_of_mem hb
    obtain ⟨i, hi, hpow⟩ := List.mem_map.1 hmap
    exact ⟨i, BitVec.lt_of_getLsbD (mem_setPlaces.1 hi), hpow.symm⟩

example : lowestBits 0b01100100#8 = [0b00000100#8, 0b00100000#8, 0b01000000#8] := by cbv

end StackCalc.Word
