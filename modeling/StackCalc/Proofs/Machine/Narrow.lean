import StackCalc.Proofs.Machine.Exact

/-!
# Machines of two widths

A machine of a narrower range does what one of a wider range does, until it refuses a number
(`narrows_run`). It refuses at the latest where the other one does, and it has nothing on its stack
then but numbers of its own range (`forall_mem_of_run`). From 32-bit numbers no operation gets out of
64 bits, so the wider machine never overflows on the stacks of the narrower one
(`step_bits64_ne_overflow`).
-/

namespace StackCalc

theorem Width.bits32_subset_bits64 : ∀ n ∈ bits32, n ∈ bits64 :=
  fun _ => mem_bits64_of_mem_bits32

theorem Width.natAbs_le_of_mem_bits32 {n : Int} (h : n ∈ bits32) : n.natAbs ≤ 2147483648 := by
  rw [mem_bits32_iff] at h
  omega

/-- The exact result of an operation on 32-bit numbers fits into 64 bits. -/
theorem Operator.Gives.mem_bits64 {op : Operator} {left right n : Int}
    (h : op.Gives left right n) (hleft : left ∈ Width.bits32) (hright : right ∈ Width.bits32) :
    n ∈ Width.bits64 := by
  have hl := Width.natAbs_le_of_mem_bits32 hleft
  have hr := Width.natAbs_le_of_mem_bits32 hright
  rw [Width.mem_bits64_iff]
  cases h with
  | add => omega
  | sub => omega
  | mul =>
    have habs : (left * right).natAbs ≤ 2147483648 * 2147483648 := by
      rw [Int.natAbs_mul]
      exact Nat.mul_le_mul hl hr
    omega
  | div =>
    have habs := Int.natAbs_tdiv_le_natAbs left right
    omega

/-- The narrower of two results: the same one, unless a number was refused. -/
def Narrows {α : Type} (narrow wide : Except Fault α) : Prop :=
  narrow = wide ∨ ∃ fault, narrow = .error fault ∧ fault.isRange = true

/-- What the wider machine refuses as a number, the narrower one does not take either. -/
theorem Narrows.exists_of_isRange {α : Type} {narrow wide : Except Fault α} {fault : Fault}
    (h : Narrows narrow wide) (hwide : wide = .error fault) (hfault : fault.isRange = true) :
    ∃ fault', narrow = .error fault' ∧ fault'.isRange = true := by
  rcases h with heq | hrefused
  · exact ⟨fault, heq.trans hwide, hfault⟩
  · exact hrefused

namespace Machine

variable {w w' : Width} {source : String} {stack stack' : List Int} {token : Token}
  {tokens : List Token} {fault : Fault}

theorem narrows_step (hsub : ∀ n ∈ w, n ∈ w') (source : String) (stack : List Int) (token : Token) :
    Narrows (step w source stack token) (step w' source stack token) := by
  cases hstep : step w source stack token with
  | ok stack' =>
    obtain ⟨hexact, hrange⟩ := step_eq_ok_iff.1 hstep
    left
    exact (step_eq_ok_iff.2 ⟨hexact, fun n hn => hsub n (hrange n hn)⟩).symm
  | error fault =>
    by_cases hfault : fault.isRange = true
    · exact .inr ⟨fault, rfl, hfault⟩
    · left
      exact (step_eq_error_of_not_isRange hstep (Bool.eq_false_iff.2 hfault)).symm

/-- The induction is on the tokens: the two machines go on with the same stack or not at all. -/
theorem narrows_run (hsub : ∀ n ∈ w, n ∈ w') (source : String) (stack : List Int)
    (tokens : List Token) : Narrows (run w source stack tokens) (run w' source stack tokens) := by
  induction tokens generalizing stack with
  | nil => exact .inl rfl
  | cons token tokens ih =>
    rcases narrows_step hsub source stack token with hstep | ⟨fault, hstep, hfault⟩
    · cases hwide : step w' source stack token with
      | ok next =>
        rw [run_cons_of_ok (hstep.trans hwide), run_cons_of_ok hwide]
        exact ih next
      | error fault =>
        left
        rw [run_cons_of_error (hstep.trans hwide), run_cons_of_error hwide]
    · exact .inr ⟨fault, run_cons_of_error hstep tokens, hfault⟩

theorem forall_mem_of_step (hstack : ∀ n ∈ stack, n ∈ w)
    (h : step w source stack token = .ok stack') : ∀ n ∈ stack', n ∈ w := by
  obtain ⟨hexact, hrange⟩ := step_eq_ok_iff.1 h
  obtain ⟨n, rest, rfl, hrest⟩ := hexact.exists_cons
  rw [List.forall_mem_cons]
  refine ⟨hrange n rfl, ?_⟩
  intro m hm
  exact hstack m (hrest.subset hm)

/-- A machine has only numbers of its range on the stack. -/
theorem forall_mem_of_run (hstack : ∀ n ∈ stack, n ∈ w)
    (h : run w source stack tokens = .ok stack') : ∀ n ∈ stack', n ∈ w := by
  induction tokens generalizing stack with
  | nil =>
    obtain rfl := Except.ok.inj h
    exact hstack
  | cons token tokens ih =>
    cases hstep : step w source stack token with
    | error fault => simp [run_cons_of_error hstep] at h
    | ok next =>
      rw [run_cons_of_ok hstep] at h
      exact ih (forall_mem_of_step hstack hstep) h

/-- No operation overflows 64 bits on a stack of 32-bit numbers. -/
theorem step_bits64_ne_overflow (hstack : ∀ n ∈ stack, n ∈ Width.bits32) (start : Nat)
    (op : Operator) : step .bits64 source stack token ≠ .error (.overflow start op) := by
  intro h
  obtain ⟨right, left, rest, n, rfl, hresult, hn⟩ := exists_result_of_step_eq_overflow h
  have hright := hstack right List.mem_cons_self
  have hleft := hstack left (List.mem_cons_of_mem right List.mem_cons_self)
  exact hn (hresult.mem_bits64 hleft hright)

end Machine

end StackCalc
