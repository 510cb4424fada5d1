import StackCalc.Proofs.Machine.Narrow
import StackCalc.Proofs.Program.Cover
import StackCalc.Proofs.Program.Outcome

/-!
# Calculators of two widths

The 32-bit calculator gives the value or the fault of the 64-bit one, or else it refuses a number.
It never gets further: where the 64-bit calculator refuses a number, the 32-bit one has refused that
number or an earlier one, and earlier than any 64-bit result that overflows.
-/

namespace StackCalc

namespace Program

variable {w w' : Width} {p : Program} {before : List Token} {token : Token} {fault : Fault}

/-- Only a token refuses a number. -/
theorem exists_failsAt_of_isRange (h : p.value w = .error fault) (hfault : fault.isRange = true) :
    ∃ before token, p.FailsAt w before token fault := by
  rcases exists_run_or_failsAt w p with ⟨stack, hrun⟩ | ⟨before, token, fault', hfails⟩
  · rw [value_of_run_eq_ok hrun] at h
    rcases stack with - | ⟨n, - | ⟨m, rest⟩⟩
    · obtain rfl := Except.error.inj h
      simp [Fault.isRange] at hfault
    · simp [Machine.outcome] at h
    · obtain rfl := Except.error.inj h
      simp [Fault.isRange] at hfault
  · rw [value_of_failsAt hfails] at h
    obtain rfl := Except.error.inj h
    exact ⟨before, token, hfails⟩

theorem narrows_value (hsub : ∀ n ∈ w, n ∈ w') (p : Program) :
    Narrows (p.value w) (p.value w') := by
  rcases Machine.narrows_run hsub p.source [] p.tokens with hrun | ⟨fault, hrun, hfault⟩
  · left
    rw [value, value, hrun]
  · right
    refine ⟨fault, ?_, hfault⟩
    rw [value, hrun]

/-- Where 64 bits do not hold a number, 32 bits have not held that one or one before; and they have
    not held one of the operands of what overflows 64 bits. -/
theorem FailsAt.narrow (h : p.FailsAt .bits64 before token fault) (hfault : fault.isRange = true) :
    ∃ before' token' fault', p.FailsAt .bits32 before' token' fault' ∧ fault'.isRange = true ∧
      before'.length ≤ before.length ∧
      ((∃ start op, fault = .overflow start op) → before'.length < before.length) := by
  obtain ⟨after, reached, htokens, hwide, hfailing⟩ := h
  rcases Machine.narrows_run Width.bits32_subset_bits64 p.source [] before with
    hbefore | ⟨fault', hbefore, hfault'⟩
  -- Both machines get to the token, with the same stack.
  · have hnarrow := hbefore.trans hwide
    have hreached : ∀ n ∈ reached, n ∈ Width.bits32 :=
      Machine.forall_mem_of_run (List.forall_mem_nil _) hnarrow
    have hnarrows := Machine.narrows_step Width.bits32_subset_bits64 p.source reached token
    obtain ⟨fault', hstep, hfault'⟩ := hnarrows.exists_of_isRange hfailing hfault
    refine ⟨before, token, fault', ⟨after, reached, htokens, hnarrow, hstep⟩, hfault',
      Nat.le_refl _, ?_⟩
    rintro ⟨start, op, rfl⟩
    exact absurd hfailing (Machine.step_bits64_ne_overflow hreached start op)
  -- The narrower machine has stopped before the token.
  · obtain ⟨before', token', after', reached', hsplit, hrun', hstep'⟩ :=
      Machine.run_eq_error_iff.1 hbefore
    have htokens' : p.tokens = before' ++ token' :: (after' ++ token :: after) := by
      rw [htokens, hsplit, List.append_assoc, List.cons_append]
    have hshorter : before'.length < before.length := by
      rw [hsplit, List.length_append, List.length_cons]
      omega
    exact ⟨before', token', fault', ⟨_, reached', htokens', hrun', hstep'⟩, hfault',
      Nat.le_of_lt hshorter, fun _ => hshorter⟩

/-- Only a number outside 32 bits is refused there: the wider machine gets to the token too, and if it
    takes the number, then not as a 32-bit one. -/
theorem FailsAt.notMem_bits32 (h : p.FailsAt .bits32 before token fault) :
    ∃ reached, Machine.run .bits64 p.source [] before = .ok reached ∧
      ∀ n rest, Machine.step .bits64 p.source reached token = .ok (n :: rest) → n ∉ Width.bits32 := by
  obtain ⟨after, reached, -, hbefore, hfailing⟩ := h
  refine ⟨reached, ?_, ?_⟩
  · rcases Machine.narrows_run Width.bits32_subset_bits64 p.source [] before with
      hsame | ⟨fault', hrefused, -⟩
    · exact hsame.symm.trans hbefore
    · simp [hbefore] at hrefused
  · intro n rest hwide hn
    have hnarrow : Machine.step .bits32 p.source reached token = .ok (n :: rest) := by
      apply Machine.step_eq_ok_iff.2
      refine ⟨Machine.exactStep_of_step hwide, ?_⟩
      intro m hm
      rwa [← Option.some.inj hm]
    simp [hnarrow] at hfailing

end Program

theorem narrows_calculate {w w' : Width} (hsub : ∀ n ∈ w, n ∈ w') (text : String) :
    Narrows (calculate w text) (calculate w' text) := by
  cases h : Program.ofString text with
  | error fault =>
    left
    rw [calculate, calculate, h]
  | ok p =>
    rw [calculate, calculate, h]
    exact p.narrows_value hsub

/-- The 32-bit outcome is the 64-bit outcome, or else it is that a number does not fit into 32 bits. If
    in 64 bits some token has a number that does not fit, in 32 bits the same one or one before has
    such a number, and one before if it is an operator whose result overflows 64 bits. No number that
    fits into 32 bits is refused there. -/
theorem bits64_refines_bits32 :
    (∀ p : Program, Narrows (p.value .bits32) (p.value .bits64)) ∧
    (∀ (p : Program) fault, p.value .bits64 = .error fault → fault.isRange = true →
      ∃ before token before' token' fault', p.FailsAt .bits64 before token fault ∧
        p.FailsAt .bits32 before' token' fault' ∧ p.value .bits32 = .error fault' ∧
        fault'.isRange = true ∧ before'.length ≤ before.length ∧
        ((∃ start op, fault = .overflow start op) → before'.length < before.length)) ∧
    (∀ (p : Program) before token fault, p.FailsAt .bits32 before token fault →
      ∃ reached, Machine.run .bits64 p.source [] before = .ok reached ∧
        ∀ n rest, Machine.step .bits64 p.source reached token = .ok (n :: rest) →
          n ∉ Width.bits32) ∧
    (∀ text, Narrows (calculate .bits32 text) (calculate .bits64 text)) ∧
    ∀ text fault, calculate .bits64 text = .error fault → fault.isRange = true →
      ∃ fault' position position', calculate .bits32 text = .error fault' ∧
        fault'.isRange = true ∧ fault.position? = some position ∧
        fault'.position? = some position' ∧ position' ≤ position ∧
        ((∃ start op, fault = .overflow start op) → position' < position) := by
  refine ⟨Program.narrows_value Width.bits32_subset_bits64, ?_, ?_,
    narrows_calculate Width.bits32_subset_bits64, ?_⟩
  · intro p fault hvalue hfault
    obtain ⟨before, token, hfails⟩ := Program.exists_failsAt_of_isRange hvalue hfault
    obtain ⟨before', token', fault', hfails', hfault', hearlier⟩ := hfails.narrow hfault
    exact ⟨before, token, before', token', fault', hfails, hfails',
      Program.value_of_failsAt hfails', hfault', hearlier⟩
  · intro p before token fault hfails
    exact hfails.notMem_bits32
  · intro text fault hvalue hfault
    cases hread : Program.ofString text with
    | error fault' =>
      rw [calculate, hread] at hvalue
      obtain rfl := Except.error.inj hvalue
      obtain ⟨position, c, rfl⟩ := Program.exists_foreignChar_of_ofString hread
      simp [Fault.isRange] at hfault
    | ok p =>
      rw [calculate, hread] at hvalue
      have hcovers := Program.coversSource_of_ofString hread
      obtain ⟨before, token, hfails⟩ := Program.exists_failsAt_of_isRange hvalue hfault
      obtain ⟨before', token', fault', hfails', hfault', hle, hlt⟩ := hfails.narrow hfault
      have hposition := (Program.canFail_of_failsAt hfails).position?_eq
      have hposition' := (Program.canFail_of_failsAt hfails').position?_eq
      have hvalue' : calculate .bits32 text = .error fault' := by
        rw [calculate, hread]
        exact Program.value_of_failsAt hfails'
      obtain ⟨after, -, htokens, -, -⟩ := hfails
      obtain ⟨after', -, htokens', -, -⟩ := hfails'
      refine ⟨fault', token.start, token'.start, hvalue', hfault', hposition, hposition', ?_, ?_⟩
      · exact hcovers.start_le htokens htokens' hle
      · intro hoverflow
        exact hcovers.start_lt htokens htokens' (hlt hoverflow)

end StackCalc
