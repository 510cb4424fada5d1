import StackCalc.Proofs.Machine.Depth

/-!
# The outcomes of a program

A program has the fault of its first token that cannot be executed; what follows that token does not
count. If every token can be executed, the number of operands less that of operators is what is left
on the stack, and it alone tells a value from its absence. A text without a value at the end is a
text of blanks.
-/

namespace StackCalc

open Token

namespace Program

/-- `token` is the first of the program that cannot be executed, and those of `before` were. -/
def FailsAt (w : Width) (p : Program) (before : List Token) (token : Token) (fault : Fault) : Prop :=
  ∃ after reached, p.tokens = before ++ token :: after ∧
    Machine.run w p.source [] before = .ok reached ∧
    Machine.step w p.source reached token = .error fault

variable {w : Width} {p : Program} {before after : List Token} {token : Token} {fault : Fault}
  {reached stack : List Int}

theorem length_eq_depth (h : Machine.run w p.source [] before = .ok reached) :
    (reached.length : Int) = depth before := by
  have hdepth := Machine.depth_of_run_eq_ok h
  rw [List.length_nil] at hdepth
  omega

theorem value_of_run_eq_ok (h : Machine.run w p.source [] p.tokens = .ok stack) :
    p.value w = Machine.outcome stack := by
  rw [value, h]

theorem value_of_failsAt (h : p.FailsAt w before token fault) : p.value w = .error fault := by
  obtain ⟨after, reached, htokens, hbefore, hfailing⟩ := h
  rw [value, Machine.run_eq_error_iff.2 ⟨before, token, after, reached, htokens, hbefore, hfailing⟩]

theorem canFail_of_failsAt (h : p.FailsAt w before token fault) :
    Machine.CanFail p.source (depth before) token fault := by
  obtain ⟨after, reached, -, hbefore, hfailing⟩ := h
  rw [← length_eq_depth hbefore]
  exact Machine.step_eq_error hfailing

theorem failsAt_foreign {start : Nat} {c : Char}
    (htokens : p.tokens = before ++ .foreign start c :: after)
    (hbefore : Machine.run w p.source [] before = .ok reached) :
    p.FailsAt w before (.foreign start c) (.foreignChar start c) :=
  ⟨after, reached, htokens, hbefore, rfl⟩

theorem failsAt_missingOperands_iff {start : Nat} {op : Operator}
    (htokens : p.tokens = before ++ .operator start op :: after)
    (hbefore : Machine.run w p.source [] before = .ok reached) :
    p.FailsAt w before (.operator start op) (.missingOperands start op) ↔ depth before < 2 := by
  constructor
  · intro h
    cases canFail_of_failsAt h with
    | missingOperands _ _ lacking => exact lacking
  · intro lacking
    refine ⟨after, reached, htokens, hbefore, ?_⟩
    rw [← length_eq_depth hbefore] at lacking
    rcases reached with - | ⟨right, - | ⟨left, rest⟩⟩
    · rfl
    · rfl
    · simp only [List.length_cons] at lacking
      omega

/-- A program runs to its end, unless there is a first token that cannot be executed. -/
theorem exists_run_or_failsAt (w : Width) (p : Program) :
    (∃ stack, Machine.run w p.source [] p.tokens = .ok stack) ∨
      ∃ before token fault, p.FailsAt w before token fault := by
  cases hrun : Machine.run w p.source [] p.tokens with
  | ok stack => exact .inl ⟨stack, rfl⟩
  | error fault =>
    obtain ⟨before, token, after, reached, hfails⟩ := Machine.run_eq_error_iff.1 hrun
    exact .inr ⟨before, token, fault, after, reached, hfails⟩

theorem exists_run_of_not_failsAt (h : ∀ before token fault, ¬p.FailsAt w before token fault) :
    ∃ stack, Machine.run w p.source [] p.tokens = .ok stack := by
  rcases exists_run_or_failsAt w p with hrun | ⟨before, token, fault, hfails⟩
  · exact hrun
  · exact absurd hfails (h before token fault)

theorem run_of_value_eq_ok {n : Int} (h : p.value w = .ok n) :
    Machine.run w p.source [] p.tokens = .ok [n] := by
  rcases exists_run_or_failsAt w p with ⟨stack, hrun⟩ | ⟨before, token, fault, hfails⟩
  · rw [value_of_run_eq_ok hrun] at h
    rw [hrun, Machine.outcome_eq_ok_iff.1 h]
  · simp [value_of_failsAt hfails] at h

theorem one_le_depth_of_run (hne : before ≠ [])
    (h : Machine.run w p.source [] before = .ok reached) : 1 ≤ depth before := by
  have hpos := List.length_pos_iff.2 (Machine.run_ne_nil hne h)
  rw [← length_eq_depth h]
  omega

theorem isOk_iff_depth_eq_one (h : Machine.run w p.source [] p.tokens = .ok stack) :
    (∃ n, p.value w = .ok n) ↔ depth p.tokens = 1 := by
  rw [value_of_run_eq_ok h, Machine.outcome_isOk_iff, ← length_eq_depth h]
  omega

theorem value_eq_leftover (h : Machine.run w p.source [] p.tokens = .ok stack)
    (hdepth : 2 ≤ depth p.tokens) :
    p.value w = .error (.leftover (depth p.tokens).toNat) := by
  rw [← length_eq_depth h] at hdepth ⊢
  rw [value_of_run_eq_ok h, Machine.outcome_of_two_le (by omega), Int.toNat_natCast]

/-- No token is to blame for the lack of a value, and an executed token leaves one. -/
theorem value_eq_noValue_iff : p.value w = .error .noValue ↔ p.tokens = [] := by
  constructor
  · intro h
    rcases exists_run_or_failsAt w p with ⟨stack, hrun⟩ | ⟨before, token, fault, hfails⟩
    · rw [value_of_run_eq_ok hrun, Machine.outcome_eq_noValue_iff] at h
      by_cases hne : p.tokens = []
      · exact hne
      · exact absurd h (Machine.run_ne_nil hne hrun)
    · rw [value_of_failsAt hfails] at h
      obtain rfl := Except.error.inj h
      nomatch canFail_of_failsAt hfails
  · intro h
    rw [value, h]
    rfl

end Program

theorem Layout.tokens_eq_nil_iff {l : Layout} : l.tokens = [] ↔ l.items = [] := by
  obtain ⟨items, trailing⟩ := l
  cases items with
  | nil => exact ⟨fun _ => rfl, fun _ => rfl⟩
  | cons item items =>
    constructor
    · intro h
      simp [tokens, placed, placeFrom] at h
    · intro h
      simp at h

theorem isBlank_iff {c : Char} : isBlank c = true ↔ c = ' ' ∨ c = '\t' := by
  simp only [isBlank, Bool.or_eq_true, beq_iff_eq]

theorem calculate_eq_noValue_iff {w : Width} {text : String} :
    calculate w text = .error .noValue ↔ ∀ c ∈ text.toList, isBlank c = true := by
  constructor
  · intro h
    obtain ⟨l, tail, htext, hl, htail⟩ := Layout.exists_layout_append text.toList
    cases tail with
    | nil =>
      rw [List.append_nil] at htext
      rw [calculate, Program.ofString_layout hl htext] at h
      have hitems := Layout.tokens_eq_nil_iff.1 (Program.value_eq_noValue_iff.1 h)
      obtain ⟨items, trailing⟩ := l
      obtain rfl : items = [] := hitems
      rw [htext]
      exact hl.trailing_blank
    | cons c after =>
      rw [calculate, Program.ofString_foreign hl (htail c rfl) htext] at h
      simp at h
  · intro h
    have hl := Layout.wellFormed_nil h
    rw [calculate, Program.ofString_layout hl rfl]
    rfl

/-- The outcome of a program told by its tokens. An operator lacks values exactly where fewer than two
    more operands than operators stand before it; with enough of them only its result can fail. -/
theorem outcome_by_depth (w : Width) :
    (∀ (p : Program) before token fault, p.FailsAt w before token fault →
      p.value w = .error fault ∧ Machine.CanFail p.source (depth before) token fault) ∧
    (∀ (p : Program) before token after reached, p.tokens = before ++ token :: after →
      Machine.run w p.source [] before = .ok reached →
      (∀ start c, token = .foreign start c → p.FailsAt w before token (.foreignChar start c)) ∧
      (∀ start op, token = .operator start op →
        (p.FailsAt w before token (.missingOperands start op) ↔ depth before < 2))) ∧
    (∀ p : Program, (∀ before token fault, ¬p.FailsAt w before token fault) →
      (∀ before, before <+: p.tokens → before ≠ [] →
        ∃ reached, Machine.run w p.source [] before = .ok reached ∧
          (reached.length : Int) = depth before ∧ 1 ≤ depth before) ∧
      (p.value w = .error .noValue ↔ p.tokens = []) ∧
      ((∃ n, p.value w = .ok n) ↔ depth p.tokens = 1) ∧
      (2 ≤ depth p.tokens → p.value w = .error (.leftover (depth p.tokens).toNat))) ∧
    (∀ text, calculate w text = .error .noValue ↔ ∀ c ∈ text.toList, c = ' ' ∨ c = '\t') := by
  refine ⟨?_, ?_, ?_, ?_⟩
  · intro p before token fault h
    exact ⟨Program.value_of_failsAt h, Program.canFail_of_failsAt h⟩
  · intro p before token after reached htokens hbefore
    refine ⟨?_, ?_⟩
    · rintro start c rfl
      exact Program.failsAt_foreign htokens hbefore
    · rintro start op rfl
      exact Program.failsAt_missingOperands_iff htokens hbefore
  · intro p hnone
    obtain ⟨stack, hrun⟩ := Program.exists_run_of_not_failsAt hnone
    refine ⟨?_, Program.value_eq_noValue_iff, Program.isOk_iff_depth_eq_one hrun,
      Program.value_eq_leftover hrun⟩
    rintro before ⟨after, htokens⟩ hne
    rw [← htokens] at hrun
    obtain ⟨reached, hreached⟩ := Machine.exists_run_prefix hrun
    exact ⟨reached, hreached, Program.length_eq_depth hreached,
      Program.one_le_depth_of_run hne hreached⟩
  · intro text
    simp only [calculate_eq_noValue_iff, isBlank_iff]

end StackCalc
