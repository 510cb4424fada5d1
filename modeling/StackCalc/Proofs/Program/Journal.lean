import StackCalc.Proofs.Machine.Visits
import StackCalc.Proofs.Program.Line
import StackCalc.Proofs.Program.Outcome

/-!
# What a journal shows

A journal is the record of a run of the stack machine: it has the tokens that were executed up to the
one that was refused, each with the stack that the tokens before it have made in exact numbers, and
it ends with a refusal exactly if the text has no value.
-/

namespace StackCalc

namespace Program

/-- Tokens with the stacks before them are those of a run of the program. -/
structure IsTrace (w : Width) (p : Program) (shown : List (Token × List Int)) : Prop where
  /-- They are the first tokens of the program. -/
  tokens_eq : shown.map Prod.fst = p.tokens.take shown.length
  /-- They are all of its tokens, if none is refused. -/
  complete : (∀ before token fault, ¬p.FailsAt w before token fault) →
    shown.length = p.tokens.length
  /-- The first token that is refused is the last of them. -/
  stops : ∀ before token fault, p.FailsAt w before token fault → shown.length = before.length + 1
  /-- There is nothing on the stack before the first token. -/
  starts : ∀ first ∈ shown.head?, first.2 = []
  /-- Each stack is what the token before makes of the stack before, in exact numbers. -/
  steps : shown.IsChain fun a b => Machine.ExactStep p.source a.2 a.1 b.2
  /-- The last token leaves the value and nothing else. -/
  leaves : ∀ n, p.value w = .ok n → ∃ last ∈ shown.getLast?,
    ∀ stack, Machine.ExactStep p.source last.2 last.1 stack ↔ stack = [n]

theorem isTrace_visits (w : Width) (p : Program) :
    p.IsTrace w (Machine.visits w p.source [] p.tokens) where
  tokens_eq := Machine.map_fst_visits w p.source [] p.tokens
  complete := by
    intro hnone
    obtain ⟨stack, hrun⟩ := exists_run_of_not_failsAt hnone
    exact Machine.length_visits_of_ok hrun
  stops := by
    rintro before token fault ⟨after, reached, htokens, hbefore, hfailing⟩
    rw [htokens]
    exact Machine.length_visits_of_error hbefore hfailing after
  starts := Machine.head?_visits w p.source [] p.tokens
  steps := Machine.isChain_visits w p.source [] p.tokens
  leaves := by
    intro n h
    have htokens : p.tokens ≠ [] := by
      intro hnil
      rw [value_eq_noValue_iff.2 hnil] at h
      simp at h
    obtain ⟨last, hlast, hstep⟩ := Machine.exists_last_visit htokens (run_of_value_eq_ok h)
    refine ⟨last, hlast, fun stack => ⟨fun h' => h'.unique hstep, ?_⟩⟩
    rintro rfl
    exact hstep

end Program

/-- The lines of a text that is a program. -/
theorem map_line_journal {w : Width} {text : String} {p : Program}
    (h : Program.ofString text = .ok p) :
    (journal w text).map Record.line =
      (.trace, "tokenized " ++ Nat.repr p.tokens.length ++ " lexemes") ::
        (Machine.visits w p.source [] p.tokens).map
          (fun visit => (Record.executing visit.1 visit.2).line) ++
          match calculate w text with
          | .ok _ => []
          | .error fault => [(Record.refused text fault).line] := by
  have hcalculate : calculate w text = p.value w := by rw [calculate, h]
  obtain ⟨rfl, -⟩ := Program.ofString_eq_ok_iff.1 h
  rw [journal, h, hcalculate]
  simp only [List.map_append, List.map_cons, List.map_map]
  cases Program.value w ⟨text, tokenize text.toList⟩ <;> rfl

theorem forall₂_showsVisit_map_line (shown : List (Token × List Int)) :
    List.Forall₂ ShowsVisit (shown.map fun visit => (Record.executing visit.1 visit.2).line)
      shown := by
  rw [List.forall₂_map_left_iff, List.forall₂_same]
  exact fun visit _ => showsVisit_line visit.1 visit.2

/-- A text that is no program has nothing in its journal but the refusal. The journal of a program
    tells how many tokens there are, and its next lines show a run of the program and nothing else. It
    has a refusal at its end exactly if there is no value; a refused token is shown as the last one,
    and the fault is at its offset. -/
theorem journal_shows_run (w : Width) (text : String) :
    (∀ fault, Program.ofString text = .error fault →
      calculate w text = .error fault ∧
      ∃ line, (journal w text).map Record.line = [line] ∧ ShowsRefusal line text fault) ∧
    (∀ p, Program.ofString text = .ok p → ∃ lines shown ending,
      (journal w text).map Record.line =
        (.trace, "tokenized " ++ Nat.repr p.tokens.length ++ " lexemes") :: lines ++ ending ∧
      (∀ shown', List.Forall₂ ShowsVisit lines shown' ↔ shown' = shown) ∧
      p.source = text ∧ calculate w text = p.value w ∧ p.IsTrace w shown ∧
      (∀ before token fault, p.FailsAt w before token fault →
        calculate w text = .error fault ∧ fault.position? = some token.start) ∧
      (∀ n, calculate? w text = some n → ending = []) ∧
      (calculate? w text = none → ∃ fault line, calculate w text = .error fault ∧
        ending = [line] ∧ ShowsRefusal line text fault)) ∧
    ∀ n, calculate? w text = some n ↔ calculate w text = .ok n := by
  refine ⟨?_, ?_, fun n => calculate?_eq_some_iff⟩
  · intro fault h
    constructor
    · rw [calculate, h]
    · refine ⟨(Record.refused text fault).line, ?_, showsRefusal_line text fault⟩
      rw [journal, h]
      rfl
  · intro p h
    have hcalculate : calculate w text = p.value w := by rw [calculate, h]
    have hsource : p.source = text := by rw [(Program.ofString_eq_ok_iff.1 h).1]
    refine ⟨_, _, _, map_line_journal h, forall₂_showsVisit_iff (forall₂_showsVisit_map_line _),
      hsource, hcalculate, p.isTrace_visits w, ?_, ?_, ?_⟩
    · intro before token fault hfails
      refine ⟨?_, (Program.canFail_of_failsAt hfails).position?_eq⟩
      rw [hcalculate, Program.value_of_failsAt hfails]
    · intro n hn
      rw [calculate?_eq_some_iff.1 hn]
    · intro hnone
      cases hvalue : calculate w text with
      | ok n => simp [calculate?_eq_some_iff.2 hvalue] at hnone
      | error fault => exact ⟨fault, _, rfl, rfl, showsRefusal_line text fault⟩

end StackCalc
