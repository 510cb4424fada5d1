import Mathlib.Data.List.Forall2
import StackCalc.Proofs.Machine.Depth
import StackCalc.Proofs.Tree.Evaluation

/-!
# Reading a text as a tree

The stack machine can be run on trees instead of numbers: an operand pushes a leaf and an operator
joins the two trees on top (`assemble`). It takes the tokens of a tree back to the tree, so that a
tree is known by its tokens, and it follows every run on numbers that succeeds. A text has a value
exactly if it is the postorder of a tree all of whose leaves and nodes denote numbers in the range.
-/

namespace StackCalc

namespace Tree

/-- Executes a token on a stack of trees. -/
def push (source : String) (stack : List Tree) : Token → Option (List Tree)
  | .operand start length =>
    (Text.slice? source start length).map fun text => literal start text.toList :: stack
  | .operator start op =>
    match stack with
    | right :: left :: rest => some (node start op left right :: rest)
    | _ => none
  | .foreign _ _ => none

/-- Executes tokens one after the other on a stack of trees. -/
def assemble (source : String) (stack : List Tree) : List Token → Option (List Tree)
  | [] => some stack
  | token :: rest => (push source stack token).bind fun stack' => assemble source stack' rest

/-- The tokens that the trees on a stack stand for, those at the bottom first. -/
def stackTokens (trees : List Tree) : List Token := trees.reverse.flatMap tokens

/-- A tree of the source denotes a number, and nothing in it is objected to. -/
structure Yields (w : Width) (source : String) (t : Tree) (n : Int) : Prop where
  spelledIn : t.SpelledIn source
  inRange : t.InRange w
  denotes : t.Denotes n

variable {w : Width} {source : String} {token : Token} {tokens : List Token}
  {trees trees' : List Tree} {stack stack' : List Int} {t : Tree}

theorem assemble_append (source : String) (stack : List Tree) (xs ys : List Token) :
    assemble source stack (xs ++ ys) =
      (assemble source stack xs).bind fun stack' => assemble source stack' ys := by
  induction xs generalizing stack with
  | nil => rfl
  | cons token xs ih =>
    rw [List.cons_append, assemble, assemble, Option.bind_assoc]
    exact congrArg _ (funext ih)

/-- A tree is read back from its tokens, whatever trees are on the stack. -/
theorem assemble_tokens (h : t.SpelledIn source) (stack : List Tree) :
    assemble source stack t.tokens = some (t :: stack) := by
  induction t generalizing stack with
  | literal start text =>
    have hslice := spelledIn_iff.1 h start text (List.mem_singleton.2 rfl)
    simp only [tokens, postorder, List.map_cons, List.map_nil, Lexeme.token, assemble, push, hslice,
      Option.map_some, String.toList_ofList, Option.bind_some]
  | node start op left right ihleft ihright =>
    rw [tokens_node, assemble_append, ihleft h.of_left, Option.bind_some, assemble_append,
      ihright h.of_right, Option.bind_some]
    rfl

/-- Two trees with the same tokens in the same source are the same. -/
theorem eq_of_tokens_eq {t' : Tree} (h : t.SpelledIn source) (h' : t'.SpelledIn source)
    (htokens : t.tokens = t'.tokens) : t = t' := by
  have hread := assemble_tokens h []
  rw [htokens, assemble_tokens h' []] at hread
  exact (List.cons.inj (Option.some.inj hread)).1.symm

theorem stackTokens_cons (t : Tree) (trees : List Tree) :
    stackTokens (t :: trees) = stackTokens trees ++ t.tokens := by
  simp only [stackTokens, List.reverse_cons, List.flatMap_append, List.flatMap_singleton]

theorem stackTokens_of_push (h : push source trees token = some trees') :
    stackTokens trees' = stackTokens trees ++ [token] := by
  cases token with
  | operand start length =>
    obtain ⟨text, hslice, rfl⟩ := Option.map_eq_some_iff.1 h
    rw [stackTokens_cons, ← Text.byteLength_of_slice? hslice]
    rfl
  | operator start op =>
    rw [push.eq_def] at h
    rcases trees with - | ⟨right, - | ⟨left, rest⟩⟩
    · simp at h
    · simp at h
    · obtain rfl := Option.some.inj h
      simp only [stackTokens_cons, tokens_node, List.append_assoc]
  | foreign start c => simp [push] at h

/-- The trees that were read have the tokens that were executed. -/
theorem stackTokens_of_assemble (h : assemble source trees tokens = some trees') :
    stackTokens trees' = stackTokens trees ++ tokens := by
  induction tokens generalizing trees with
  | nil =>
    obtain rfl := Option.some.inj h
    rw [List.append_nil]
  | cons token tokens ih =>
    obtain ⟨next, hpush, hrest⟩ := Option.bind_eq_some_iff.1 h
    rw [ih hrest, stackTokens_of_push hpush, List.append_assoc, List.singleton_append]

theorem spelledIn_literal {start length : Nat} {text : String}
    (h : Text.slice? source start length = some text) :
    (literal start text.toList).SpelledIn source := by
  rw [spelledIn_iff]
  intro here cs hmem
  obtain ⟨rfl, hcs⟩ := Prod.mk.inj (List.mem_singleton.1 hmem)
  obtain rfl := Lexeme.number.inj hcs
  rw [Text.byteLength_of_slice? h, h, String.ofList_toList]

theorem spelledIn_node {start : Nat} {op : Operator} {left right : Tree}
    (hleft : left.SpelledIn source) (hright : right.SpelledIn source) :
    (node start op left right).SpelledIn source := by
  intro here cs hmem
  simp only [postorder, List.mem_append, List.mem_singleton, Prod.mk.injEq, reduceCtorEq, and_false,
    or_false] at hmem
  rcases hmem with hmem | hmem
  · exact hleft here cs hmem
  · exact hright here cs hmem

/-- A step on numbers is a step on the trees that denote these numbers. -/
theorem push_of_step (htrees : List.Forall₂ (Yields w source) trees stack)
    (hstep : Machine.step w source stack token = .ok stack') :
    ∃ trees', push source trees token = some trees' ∧
      List.Forall₂ (Yields w source) trees' stack' := by
  obtain ⟨hexact, hrange⟩ := Machine.step_eq_ok_iff.1 hstep
  cases hexact with
  | @operand start length _ text _ n stack hpart hnumber =>
    have hslice := Text.slice?_eq_some_iff_isRange.2 ⟨_, _, hpart⟩
    refine ⟨literal start text.toList :: trees, ?_, .cons ?_ htrees⟩
    · rw [push, hslice, Option.map_some]
    · exact ⟨spelledIn_literal hslice, inRange_literal_iff.2 ⟨n, hrange n rfl, hnumber⟩,
        .literal start hnumber⟩
  | @operator start op a b n rest hresult =>
    cases htrees with
    | @cons right _ _ _ hright hbelow =>
      cases hbelow with
      | @cons left _ below _ hleft hbelow =>
        have hnode : (node start op left right).Denotes n :=
          .node start hleft.denotes hright.denotes hresult
        refine ⟨node start op left right :: below, rfl, .cons ?_ hbelow⟩
        exact ⟨spelledIn_node hleft.spelledIn hright.spelledIn,
          inRange_node_iff.2 ⟨hleft.inRange, hright.inRange, n, hrange n rfl, hnode⟩, hnode⟩

/-- A run on numbers that succeeds is a run on trees, and the trees at its end denote the numbers
    there. -/
theorem assemble_of_run (htrees : List.Forall₂ (Yields w source) trees stack)
    (hrun : Machine.run w source stack tokens = .ok stack') :
    ∃ trees', assemble source trees tokens = some trees' ∧
      List.Forall₂ (Yields w source) trees' stack' := by
  induction tokens generalizing trees stack with
  | nil =>
    obtain rfl := Except.ok.inj hrun
    exact ⟨trees, rfl, htrees⟩
  | cons token tokens ih =>
    cases hstep : Machine.step w source stack token with
    | error fault => simp [Machine.run_cons_of_error hstep] at hrun
    | ok next =>
      rw [Machine.run_cons_of_ok hstep] at hrun
      obtain ⟨nextTrees, hpush, hnext⟩ := push_of_step htrees hstep
      obtain ⟨trees', hassemble, htrees'⟩ := ih hnext hrun
      exact ⟨trees', by rw [assemble, hpush, Option.bind_some, hassemble], htrees'⟩

/-- A program with a value is the postorder of a tree that denotes it. -/
theorem exists_tree_of_value {p : Program} {n : Int} (h : p.value w = .ok n) :
    ∃ t : Tree, t.tokens = p.tokens ∧ Yields w p.source t n := by
  cases hrun : Machine.run w p.source [] p.tokens with
  | error fault =>
    rw [Program.value, hrun] at h
    simp at h
  | ok stack =>
    rw [Program.value, hrun] at h
    obtain rfl := Machine.outcome_eq_ok_iff.1 h
    obtain ⟨trees, hassemble, htrees⟩ := assemble_of_run .nil hrun
    cases htrees with
    | @cons t _ _ _ ht hrest =>
      cases hrest
      have htokens := stackTokens_of_assemble hassemble
      rw [stackTokens_cons] at htokens
      exact ⟨t, htokens, ht⟩

theorem value_of_yields {n : Int} (h : Yields w source t n) :
    Program.value w ⟨source, t.tokens⟩ = .ok n := by
  rcases value_of_tokens w h.spelledIn with ⟨m, -, hm, hvalue⟩ | ⟨fault, hfirst, -⟩
  · rw [hvalue, hm.unique h.denotes]
  · exact absurd h.inRange hfirst.not_inRange

theorem isForeign_tokens (t : Tree) : ∀ x ∈ t.tokens, x.isForeign = false := by
  intro x hx
  obtain ⟨⟨start, lexeme⟩, -, rfl⟩ := List.mem_map.1 hx
  exact lexeme.isForeign_token start

theorem operand_mem_tokens {start : Nat} {cs : List Char}
    (h : (start, Lexeme.number cs) ∈ t.postorder) :
    Token.operand start (Text.byteLength cs) ∈ t.tokens :=
  List.mem_map_of_mem (f := fun item : Nat × Lexeme => item.2.token item.1) h

/-- The leaves of a tree that is read from a text are literals. -/
theorem isLiteral_of_mem_postorder {text : String} (htokens : t.tokens = tokenize text.toList)
    (h : t.SpelledIn text) {start : Nat} {cs : List Char}
    (hleaf : (start, Lexeme.number cs) ∈ t.postorder) : Numeral.IsLiteral cs := by
  have hoperand := operand_mem_tokens hleaf
  rw [htokens] at hoperand
  obtain ⟨cs', hliteral, hslice⟩ := exists_literal_of_operand_mem hoperand
  rw [spelledIn_iff.1 h start cs hleaf] at hslice
  rwa [String.ofList_injective (Option.some.inj hslice)]

/-- A text has a value exactly if its tokens are the postorder of a tree of literals in which every
    literal and every node denotes a number in the range, and the tree is the only one with these
    tokens. The value is what the tree denotes. -/
theorem calculate_eq_ok_iff_exists_tree (w : Width) (text : String) (n : Int) :
    calculate w text = .ok n ↔
      ∃ t : Tree, t.tokens = tokenize text.toList ∧ t.SpelledIn text ∧
        (∀ t' : Tree, t'.tokens = tokenize text.toList → t'.SpelledIn text → t' = t) ∧
        (∀ start cs, (start, Lexeme.number cs) ∈ t.postorder → Numeral.IsLiteral cs) ∧
        (∀ start left right, node start .div left right ∈ t.subtrees → ¬right.Denotes 0) ∧
        t.InRange w ∧ t.Denotes n := by
  constructor
  · intro h
    rw [calculate] at h
    cases hprogram : Program.ofString text with
    | error fault => simp [hprogram] at h
    | ok p =>
      rw [hprogram] at h
      obtain ⟨rfl, -⟩ := Program.ofString_eq_ok_iff.1 hprogram
      obtain ⟨t, htokens, ht⟩ := exists_tree_of_value h
      refine ⟨t, htokens, ht.spelledIn, ?_, ?_, ?_, ht.inRange, ht.denotes⟩
      · intro t' htokens' ht'
        exact eq_of_tokens_eq ht' ht.spelledIn (htokens'.trans htokens.symm)
      · intro start cs hleaf
        exact isLiteral_of_mem_postorder htokens ht.spelledIn hleaf
      · intro start left right hnode
        obtain ⟨m, -, hquotient⟩ := ht.inRange _ hnode
        exact hquotient.right_ne_zero
  · rintro ⟨t, htokens, hspelled, -, -, -, hrange, hdenotes⟩
    have hprogram : Program.ofString text = .ok ⟨text, t.tokens⟩ := by
      rw [Program.ofString_eq_ok_iff, ← htokens]
      exact ⟨rfl, t.isForeign_tokens⟩
    rw [calculate, hprogram]
    exact value_of_yields ⟨hspelled, hrange, hdenotes⟩

end Tree

end StackCalc
