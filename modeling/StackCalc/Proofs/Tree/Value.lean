import StackCalc.Fault
import StackCalc.Proofs.Numeral.Value
import StackCalc.Tree
import StackCalc.Width

/-!
# What a tree denotes

A tree denotes a number by the places of the digits in its leaves and by the exact arithmetic of its
nodes; no machine is involved, and no tree denotes two numbers (`Denotes.unique`). What a calculator
of a given width objects to is said node by node. The first objection in postorder is the one that
counts: there is at most one (`FirstFault.unique`), and there is none if every leaf and every node
denotes a number in the range (`FirstFault.not_inRange`).
-/

namespace StackCalc

namespace Tree

/-- Which integer a tree denotes: a leaf the number of its text, and a node the result of its
    operation on what its operands denote. A node without a result denotes none. -/
inductive Denotes : Tree → Int → Prop
  | literal (start : Nat) {text : List Char} {n : Int} (h : Numeral.Denotes text n) :
      Denotes (.literal start text) n
  | node (start : Nat) {op : Operator} {left right : Tree} {a b n : Int} (hleft : Denotes left a)
      (hright : Denotes right b) (h : op.Gives a b n) : Denotes (.node start op left right) n

/-- What a calculator of width `w` objects to at the root alone. -/
inductive Objects (w : Width) : Tree → Fault → Prop
  | outOfRange (start : Nat) {text : List Char} (h : ∀ n ∈ w, ¬Numeral.Denotes text n) :
      Objects w (.literal start text) (.outOfRange start (String.ofList text))
  | divisionByZero (start : Nat) (left : Tree) {right : Tree} (h : right.Denotes 0) :
      Objects w (.node start .div left right) (.divisionByZero start)
  | overflow {start : Nat} {op : Operator} {left right : Tree} {n : Int}
      (h : (Tree.node start op left right).Denotes n) (hn : n ∉ w) :
      Objects w (.node start op left right) (.overflow start op)

/-- Whether every leaf and every node denotes a number in the range. -/
def InRange (w : Width) (t : Tree) : Prop := ∀ s ∈ t.subtrees, ∃ n ∈ w, s.Denotes n

/-- Whether a fault is the first objection in postorder: all leaves and nodes before the one that is
    objected to denote numbers in the range. -/
def FirstFault (w : Width) (t : Tree) (fault : Fault) : Prop :=
  ∃ before s after, t.subtrees = before ++ s :: after ∧ (∀ b ∈ before, ∃ n ∈ w, b.Denotes n) ∧
    s.Objects w fault

variable {w : Width} {start : Nat} {op : Operator} {text : List Char} {left right t : Tree}
  {n m : Int} {fault fault' : Fault}

theorem denotes_literal_iff : (literal start text).Denotes n ↔ Numeral.Denotes text n := by
  constructor
  · intro h
    cases h with
    | literal _ h => exact h
  · exact .literal start

theorem denotes_node_iff :
    (node start op left right).Denotes n ↔
      ∃ a b, left.Denotes a ∧ right.Denotes b ∧ op.Gives a b n := by
  constructor
  · intro h
    cases h with
    | node _ hleft hright h => exact ⟨_, _, hleft, hright, h⟩
  · rintro ⟨a, b, hleft, hright, h⟩
    exact .node start hleft hright h

theorem Denotes.unique (hn : t.Denotes n) (hm : t.Denotes m) : n = m := by
  induction t generalizing n m with
  | literal start text =>
    exact (denotes_literal_iff.1 hn).unique (denotes_literal_iff.1 hm)
  | node start op left right ihleft ihright =>
    obtain ⟨a, b, hleft, hright, hresult⟩ := denotes_node_iff.1 hn
    obtain ⟨a', b', hleft', hright', hresult'⟩ := denotes_node_iff.1 hm
    obtain rfl := ihleft hleft hleft'
    obtain rfl := ihright hright hright'
    exact hresult.unique hresult'

/-- A quotient is that of a divisor other than zero. -/
theorem Denotes.right_ne_zero (h : (Tree.node start .div left right).Denotes n) :
    ¬right.Denotes 0 := by
  obtain ⟨a, b, -, hright, hresult⟩ := denotes_node_iff.1 h
  intro hzero
  cases hresult with
  | div _ nonzero => exact nonzero (hright.unique hzero)

/-- What is objected to denotes no number in the range. -/
theorem Objects.not_denotes (h : t.Objects w fault) (hn : n ∈ w) : ¬t.Denotes n := by
  intro ht
  cases h with
  | outOfRange start hnone => exact hnone n hn (denotes_literal_iff.1 ht)
  | divisionByZero start left hzero => exact ht.right_ne_zero hzero
  | overflow h hm => exact hm (ht.unique h ▸ hn)

theorem Objects.unique (h : t.Objects w fault) (h' : t.Objects w fault') : fault = fault' := by
  cases h with
  | outOfRange start _ =>
    cases h'
    rfl
  | divisionByZero start left hzero =>
    cases h' with
    | divisionByZero => rfl
    | overflow hvalue _ => exact absurd hzero hvalue.right_ne_zero
  | overflow hvalue _ =>
    cases h' with
    | divisionByZero _ _ hzero => exact absurd hzero hvalue.right_ne_zero
    | overflow => rfl

theorem self_mem_subtrees (t : Tree) : t ∈ t.subtrees := by
  cases t <;> simp [subtrees]

theorem InRange.exists_denotes (h : t.InRange w) : ∃ n ∈ w, t.Denotes n :=
  h t t.self_mem_subtrees

theorem inRange_literal_iff : (literal start text).InRange w ↔ ∃ n ∈ w, Numeral.Denotes text n := by
  simp only [InRange, subtrees, List.mem_singleton, forall_eq, denotes_literal_iff]

theorem inRange_node_iff :
    (node start op left right).InRange w ↔
      left.InRange w ∧ right.InRange w ∧ ∃ n ∈ w, (node start op left right).Denotes n := by
  simp only [InRange, subtrees, List.mem_append, List.mem_singleton]
  constructor
  · intro h
    exact ⟨fun s hs => h s (.inl (.inl hs)), fun s hs => h s (.inl (.inr hs)), h _ (.inr rfl)⟩
  · rintro ⟨hleft, hright, hroot⟩ s ((hs | hs) | rfl)
    · exact hleft s hs
    · exact hright s hs
    · exact hroot

theorem FirstFault.not_inRange (h : t.FirstFault w fault) : ¬t.InRange w := by
  obtain ⟨before, s, after, hsplit, -, hobjects⟩ := h
  intro hrange
  obtain ⟨n, hn, hs⟩ := hrange s (hsplit ▸ List.mem_append_right before List.mem_cons_self)
  exact hobjects.not_denotes hn hs

/-- What is objected to after numbers in the range only, where the first tree is objected to, is that
    tree. -/
theorem Objects.eq_of_append_eq_cons {s s' : Tree} {between after after' : List Tree}
    (h : s.Objects w fault) (h' : s'.Objects w fault')
    (hbetween : ∀ b ∈ between, ∃ n ∈ w, b.Denotes n)
    (hsplit : s :: after = between ++ s' :: after') : fault = fault' := by
  cases between with
  | nil =>
    obtain ⟨rfl, -⟩ := List.cons.inj hsplit
    exact h.unique h'
  | cons b between =>
    obtain ⟨rfl, -⟩ := List.cons.inj hsplit
    obtain ⟨n, hn, hs⟩ := hbetween s List.mem_cons_self
    exact absurd hs (h.not_denotes hn)

theorem FirstFault.unique (h : t.FirstFault w fault) (h' : t.FirstFault w fault') :
    fault = fault' := by
  obtain ⟨before, s, after, hsplit, hbefore, hs⟩ := h
  obtain ⟨before', s', after', hsplit', hbefore', hs'⟩ := h'
  rcases List.append_eq_append_iff.1 (hsplit.symm.trans hsplit') with
    ⟨between, rfl, htail⟩ | ⟨between, rfl, htail⟩
  · exact hs.eq_of_append_eq_cons hs' (List.forall_mem_append.1 hbefore').2 htail
  · exact (hs'.eq_of_append_eq_cons hs (List.forall_mem_append.1 hbefore).2 htail).symm

/-- A first fault is the only one. -/
theorem FirstFault.firstFault_iff (h : t.FirstFault w fault) (fault' : Fault) :
    t.FirstFault w fault' ↔ fault' = fault := by
  constructor
  · intro h'
    exact h'.unique h
  · rintro rfl
    exact h

theorem firstFault_of_literal (h : (literal start text).Objects w fault) :
    (literal start text).FirstFault w fault :=
  ⟨[], _, [], rfl, List.forall_mem_nil _, h⟩

theorem FirstFault.of_left (h : left.FirstFault w fault) :
    (node start op left right).FirstFault w fault := by
  obtain ⟨before, s, after, hsplit, hbefore, hobjects⟩ := h
  refine ⟨before, s, after ++ right.subtrees ++ [node start op left right], ?_, hbefore, hobjects⟩
  simp only [subtrees, hsplit, List.append_assoc, List.cons_append]

theorem FirstFault.of_right (h : right.FirstFault w fault) (hleft : left.InRange w) :
    (node start op left right).FirstFault w fault := by
  obtain ⟨before, s, after, hsplit, hbefore, hobjects⟩ := h
  refine ⟨left.subtrees ++ before, s, after ++ [node start op left right], ?_, ?_, hobjects⟩
  · simp only [subtrees, hsplit, List.append_assoc, List.cons_append]
  · exact List.forall_mem_append.2 ⟨hleft, hbefore⟩

theorem firstFault_of_node (h : (node start op left right).Objects w fault)
    (hleft : left.InRange w) (hright : right.InRange w) :
    (node start op left right).FirstFault w fault :=
  ⟨left.subtrees ++ right.subtrees, _, [], rfl, List.forall_mem_append.2 ⟨hleft, hright⟩, h⟩

end Tree

end StackCalc
