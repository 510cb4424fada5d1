import Mathlib.Data.List.Sort
import Mathlib.Logic.Function.Iterate
import StackCalc.Proofs.Word.LowestBit

/-!
# The places of the set bits

A word is told by the places of its set bits, listed from the lowest up (`setPlaces`). To clear the
lowest set bit is to drop the first place of the list (`setPlaces_clearLowestSet`). Counting by
clearing therefore takes one step for each place, and the number of steps is the number of set bits
(`popCount_eq_length`).
-/

namespace StackCalc.Word

variable {w : Nat} {v : BitVec w}

/-- The places of the set bits, from the lowest up. -/
def setPlaces (v : BitVec w) : List Nat := (List.range w).filter fun i => v.getLsbD i

theorem mem_setPlaces {i : Nat} : i ∈ setPlaces v ↔ v.getLsbD i = true := by
  rw [setPlaces, List.mem_filter, List.mem_range, and_iff_right_iff_imp]
  exact BitVec.lt_of_getLsbD

theorem pairwise_setPlaces (v : BitVec w) : (setPlaces v).Pairwise (· < ·) :=
  List.pairwise_lt_range.filter _

/-- An increasing list of the places of the set bits is the list of them. -/
theorem setPlaces_eq_of_mem_iff {places : List Nat} (hplaces : places.Pairwise (· < ·))
    (h : ∀ i, v.getLsbD i = true ↔ i ∈ places) : setPlaces v = places :=
  (pairwise_setPlaces v).eq_of_mem_iff hplaces fun i => mem_setPlaces.trans (h i)

theorem length_setPlaces (v : BitVec w) :
    (setPlaces v).length = (List.range w).countP fun i => v.getLsbD i :=
  List.countP_eq_length_filter.symm

theorem setPlaces_zero : setPlaces (0 : BitVec w) = [] := by
  apply List.eq_nil_iff_forall_not_mem.2
  intro i
  rw [mem_setPlaces, BitVec.ofNat_eq_ofNat, BitVec.getLsbD_zero]
  exact Bool.false_ne_true

/-- The lowest set bit comes first, and then those that are left when it is cleared. -/
theorem setPlaces_of_ne_zero (h : v ≠ 0) :
    setPlaces v = trailingZeros v :: setPlaces (clearLowestSet v) := by
  refine setPlaces_eq_of_mem_iff (List.pairwise_cons.2 ⟨?_, pairwise_setPlaces _⟩) ?_
  · intro i hi
    rw [mem_setPlaces, getLsbD_clearLowestSet h, Bool.and_eq_true_iff, decide_eq_true_iff] at hi
    exact Nat.lt_of_le_of_ne (trailingZeros_le hi.1) (Ne.symm hi.2)
  · intro i
    rw [List.mem_cons, mem_setPlaces, getLsbD_clearLowestSet h, Bool.and_eq_true_iff,
      decide_eq_true_iff]
    by_cases hi : i = trailingZeros v
    · subst hi
      exact ⟨fun _ => .inl rfl, fun _ => getLsbD_trailingZeros h⟩
    · exact ⟨fun hset => .inr ⟨hset, hi⟩, fun hor => (hor.resolve_left hi).1⟩

theorem setPlaces_eq_nil_iff : setPlaces v = [] ↔ v = 0 := by
  constructor
  · intro hnil
    by_contra hv
    rw [setPlaces_of_ne_zero hv] at hnil
    exact List.cons_ne_nil _ _ hnil
  · rintro rfl
    exact setPlaces_zero

theorem setPlaces_clearLowestSet (v : BitVec w) :
    setPlaces (clearLowestSet v) = (setPlaces v).tail := by
  by_cases hv : v = 0
  · rw [hv, clearLowestSet_zero, setPlaces_zero, List.tail_nil]
  · rw [setPlaces_of_ne_zero hv, List.tail_cons]

/-- Clearing the lowest set bit again and again drops the places from the front of the list. -/
theorem setPlaces_iterate (v : BitVec w) (n : Nat) :
    setPlaces (clearLowestSet^[n] v) = (setPlaces v).drop n := by
  induction n with
  | zero => rfl
  | succ n ih =>
    rw [Function.iterate_succ_apply', setPlaces_clearLowestSet, ih, List.tail_drop]

theorem popCount_eq_length (v : BitVec w) : popCount v = (setPlaces v).length := by
  fun_induction popCount v with
  | case1 => rw [setPlaces_zero, List.length_nil]
  | case2 v hv ih => rw [setPlaces_of_ne_zero hv, List.length_cons, ih]

theorem popCount_iterate (v : BitVec w) (n : Nat) :
    popCount (clearLowestSet^[n] v) = popCount v - n := by
  rw [popCount_eq_length, popCount_eq_length, setPlaces_iterate, List.length_drop]

theorem popCount_eq_zero_iff : popCount v = 0 ↔ v = 0 := by
  rw [popCount_eq_length, List.length_eq_zero_iff, setPlaces_eq_nil_iff]

theorem cpopNatRec_eq_countP (v : BitVec w) (n : Nat) :
    v.cpopNatRec n 0 = (List.range n).countP fun i => v.getLsbD i := by
  induction n with
  | zero => rfl
  | succ n ih =>
    rw [BitVec.cpopNatRec_succ, BitVec.cpopNatRec_add, ih, List.range_succ, List.countP_append,
      List.countP_singleton]
    cases v.getLsbD n <;> rfl

/-- Counting by clearing agrees with the count of the library. -/
theorem popCount_eq_cpop (v : BitVec w) : popCount v = v.cpop.toNat := by
  rw [popCount_eq_length, length_setPlaces, BitVec.toNat_cpop, cpopNatRec_eq_countP]

theorem popCount_add_popCount_not (v : BitVec w) : popCount v + popCount (~~~v) = w := by
  have hle := BitVec.toNat_cpop_le v
  rw [popCount_eq_cpop, popCount_eq_cpop, BitVec.toNat_cpop_not]
  omega

theorem popCount_allOnes (w : Nat) : popCount (BitVec.allOnes w) = w := by
  have hsum := popCount_add_popCount_not (BitVec.allOnes w)
  rwa [not_eq_zero_iff.2 rfl, popCount_zero, Nat.add_zero] at hsum

/-- The count is the number of places where the word has a set bit. Each step of the loop that finds
    it clears one set bit, so the loop reaches zero after as many steps as there are set bits and not
    before. The bits that are not set in a word are those of its complement. -/
theorem popCount_counts_set_bits (v : BitVec w) :
    popCount v = (List.range w).countP (fun i => v.getLsbD i) ∧
    (∀ n, popCount (clearLowestSet^[n] v) = popCount v - n) ∧
    (∀ n, clearLowestSet^[n] v = 0 ↔ popCount v ≤ n) ∧
    popCount v = v.cpop.toNat ∧
    popCount (BitVec.allOnes w) = w ∧
    popCount v + popCount (~~~v) = w := by
  refine ⟨?_, popCount_iterate v, ?_, popCount_eq_cpop v, popCount_allOnes w,
    popCount_add_popCount_not v⟩
  · rw [popCount_eq_length, length_setPlaces]
  · intro n
    rw [← popCount_eq_zero_iff, popCount_iterate, Nat.sub_eq_zero_iff_le]

end StackCalc.Word
