import Mathlib.Data.List.Chain
import StackCalc.Journal
import StackCalc.Proofs.Machine.Exact

/-!
# The tokens that a run gets to

A run visits its tokens in order, each with the stack that those before it have left. The first visit
has the stack at the start, and each next one has what the token of the visit before it makes of its
stack in exact numbers (`isChain_visits`). The last visit is that of the token that was refused
(`length_visits_of_error`), or else it leads to the stack at the end (`exists_last_visit`).
-/

namespace StackCalc.Machine

variable {w : Width} {source : String} {stack stack' : List Int} {token : Token}
  {tokens before after : List Token} {fault : Fault}

theorem visits_cons_of_ok (h : step w source stack token = .ok stack') (tokens : List Token) :
    visits w source stack (token :: tokens) = (token, stack) :: visits w source stack' tokens := by
  rw [visits, h]

theorem visits_cons_of_error (h : step w source stack token = .error fault) (tokens : List Token) :
    visits w source stack (token :: tokens) = [(token, stack)] := by
  rw [visits, h]

theorem head?_visits (w : Width) (source : String) (stack : List Int) (tokens : List Token) :
    ∀ first ∈ (visits w source stack tokens).head?, first.2 = stack := by
  intro first hfirst
  cases tokens with
  | nil => simp [visits] at hfirst
  | cons token tokens =>
    rw [visits, List.head?_cons] at hfirst
    rw [← Option.some.inj hfirst]

theorem map_fst_visits (w : Width) (source : String) (stack : List Int) (tokens : List Token) :
    (visits w source stack tokens).map Prod.fst =
      tokens.take (visits w source stack tokens).length := by
  induction tokens generalizing stack with
  | nil => rfl
  | cons token tokens ih =>
    cases hstep : step w source stack token with
    | ok stack' =>
      rw [visits_cons_of_ok hstep, List.map_cons, ih, List.length_cons, List.take_succ_cons]
    | error fault => rw [visits_cons_of_error hstep]; rfl

/-- The induction is on the tokens: each visit is followed by one of the stack that it leads to. -/
theorem isChain_visits (w : Width) (source : String) (stack : List Int) (tokens : List Token) :
    (visits w source stack tokens).IsChain fun a b => ExactStep source a.2 a.1 b.2 := by
  induction tokens generalizing stack with
  | nil => exact .nil
  | cons token tokens ih =>
    cases hstep : step w source stack token with
    | ok stack' =>
      rw [visits_cons_of_ok hstep, List.isChain_cons]
      refine ⟨?_, ih stack'⟩
      intro next hnext
      rw [head?_visits w source stack' tokens next hnext]
      exact exactStep_of_step hstep
    | error fault =>
      rw [visits_cons_of_error hstep]
      exact .singleton _

/-- A part of a run that succeeds visits all of its tokens. -/
theorem length_visits_append (h : run w source stack before = .ok stack') (after : List Token) :
    (visits w source stack (before ++ after)).length =
      before.length + (visits w source stack' after).length := by
  induction before generalizing stack with
  | nil =>
    obtain rfl := Except.ok.inj h
    rw [List.nil_append, List.length_nil, Nat.zero_add]
  | cons token before ih =>
    cases hstep : step w source stack token with
    | error fault => simp [run_cons_of_error hstep] at h
    | ok next =>
      rw [run_cons_of_ok hstep] at h
      rw [List.cons_append, visits_cons_of_ok hstep, List.length_cons, ih h, List.length_cons]
      omega

theorem length_visits_of_ok (h : run w source stack tokens = .ok stack') :
    (visits w source stack tokens).length = tokens.length := by
  have hlength := length_visits_append h []
  rw [List.append_nil] at hlength
  exact hlength

theorem length_visits_of_error (hbefore : run w source stack before = .ok stack')
    (htoken : step w source stack' token = .error fault) (after : List Token) :
    (visits w source stack (before ++ token :: after)).length = before.length + 1 := by
  rw [length_visits_append hbefore, visits_cons_of_error htoken, List.length_singleton]

/-- The last visit of a run that succeeds leads to the stack at its end. -/
theorem exists_last_visit (htokens : tokens ≠ []) (h : run w source stack tokens = .ok stack') :
    ∃ last ∈ (visits w source stack tokens).getLast?,
      ExactStep source last.2 last.1 stack' := by
  induction tokens generalizing stack with
  | nil => exact absurd rfl htokens
  | cons token tokens ih =>
    cases hstep : step w source stack token with
    | error fault => simp [run_cons_of_error hstep] at h
    | ok next =>
      rw [run_cons_of_ok hstep] at h
      rw [visits_cons_of_ok hstep]
      cases tokens with
      | nil =>
        obtain rfl := Except.ok.inj h
        exact ⟨(token, stack), rfl, exactStep_of_step hstep⟩
      | cons token' tokens =>
        obtain ⟨last, hlast, hresult⟩ := ih (List.cons_ne_nil _ _) h
        refine ⟨last, ?_, hresult⟩
        rw [visits] at hlast ⊢
        rw [List.getLast?_cons_cons]
        exact hlast

end StackCalc.Machine
