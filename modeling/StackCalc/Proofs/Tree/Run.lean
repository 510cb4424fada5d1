import StackCalc.Proofs.Machine.Exact
import StackCalc.Proofs.Tree.Value

/-!
# Running the tokens of a tree

The tokens of a tree in postorder leave the number that the tree denotes on top of whatever was on the
stack, and fail exactly with the first objection in postorder (`run_tokens`). A leaf is read from the
source, so the source must have the leaf's text where the leaf says that it is.
-/

namespace StackCalc.Tree

variable {w : Width} {source : String} {start : Nat} {op : Operator} {text : List Char}
  {left right t : Tree} {a b n : Int} {fault : Fault}

/-- Whether the source has the text of each leaf at the leaf's offset. -/
def SpelledIn (t : Tree) (source : String) : Prop :=
  ∀ start text, (start, Lexeme.number text) ∈ t.postorder →
    ∃ before after, source = before ++ String.ofList text ++ after ∧ before.utf8ByteSize = start

/-- The source has the text of a leaf in the range that the leaf's token extends over. -/
theorem spelledIn_iff :
    t.SpelledIn source ↔ ∀ start text, (start, Lexeme.number text) ∈ t.postorder →
      Text.slice? source start (Text.byteLength text) = some (String.ofList text) := by
  apply forall₃_congr
  intro start text _
  rw [Text.slice?_eq_some_iff_isRange]
  apply exists₂_congr
  intro before after
  constructor
  · rintro ⟨htext, hstart⟩
    exact ⟨htext, hstart, Text.utf8ByteSize_ofList text⟩
  · rintro ⟨htext, hstart, -⟩
    exact ⟨htext, hstart⟩

theorem SpelledIn.of_left (h : (node start op left right).SpelledIn source) :
    left.SpelledIn source :=
  fun start text hmem => h start text (by simp [postorder, hmem])

theorem SpelledIn.of_right (h : (node start op left right).SpelledIn source) :
    right.SpelledIn source :=
  fun start text hmem => h start text (by simp [postorder, hmem])

theorem tokens_literal (start : Nat) (text : List Char) :
    (literal start text).tokens = [.operand start (Text.byteLength text)] := rfl

theorem tokens_node (start : Nat) (op : Operator) (left right : Tree) :
    (node start op left right).tokens = left.tokens ++ (right.tokens ++ [.operator start op]) := by
  simp only [tokens, postorder, List.map_append, List.append_assoc]
  rfl

/-- An operand has the number of its leaf, or is refused with what the leaf has to object. -/
theorem operandValue_literal (w : Width)
    (h : Text.slice? source start (Text.byteLength text) = some (String.ofList text)) :
    (∃ n ∈ w, (literal start text).Denotes n ∧
      Machine.operandValue w source start (Text.byteLength text) = .ok n) ∨
    ∃ fault, (literal start text).Objects w fault ∧
      Machine.operandValue w source start (Text.byteLength text) = .error fault := by
  have htext : (Text.slice? source start (Text.byteLength text)).getD "" = String.ofList text := by
    rw [h, Option.getD_some]
  by_cases hdenotes : ∃ n, Numeral.Denotes (String.ofList text).toList n ∧ n ∈ w
  · left
    obtain ⟨n, hn, hrange⟩ := hdenotes
    refine ⟨n, hrange, ?_, (Machine.operandValue_eq_ok_iff htext).2 ⟨hn, hrange⟩⟩
    rw [String.toList_ofList] at hn
    exact .literal start hn
  · right
    refine ⟨_, ?_, (Machine.operandValue_eq_error_iff htext).2 hdenotes⟩
    rw [String.toList_ofList] at hdenotes
    exact .outOfRange start fun n hrange hn => hdenotes ⟨n, hn, hrange⟩

/-- An operator has the number of its node, or is refused with what the node has to object. -/
theorem operatorValue_node (w : Width) (start : Nat) (op : Operator) (ha : left.Denotes a)
    (hb : right.Denotes b) :
    (∃ n ∈ w, (node start op left right).Denotes n ∧
      Machine.operatorValue w start op a b = .ok n) ∨
    ∃ fault, (node start op left right).Objects w fault ∧
      Machine.operatorValue w start op a b = .error fault := by
  cases hvalue : Machine.operatorValue w start op a b with
  | ok n =>
    left
    obtain ⟨hresult, hn⟩ := Machine.operatorValue_eq_ok_iff.1 hvalue
    exact ⟨n, hn, .node start ha hb hresult, rfl⟩
  | error fault =>
    right
    refine ⟨fault, ?_, rfl⟩
    rcases Machine.operatorValue_eq_error_iff.1 hvalue with
      ⟨rfl, rfl, rfl⟩ | ⟨n, hresult, hn, rfl⟩
    · exact .divisionByZero start left hb
    · exact .overflow (.node start ha hb hresult) hn

/-- The induction is on the tree, for every stack: the values below are never touched. -/
theorem run_tokens (w : Width) (h : t.SpelledIn source) (stack : List Int) :
    (∃ n, t.InRange w ∧ t.Denotes n ∧ Machine.run w source stack t.tokens = .ok (n :: stack)) ∨
    ∃ fault, t.FirstFault w fault ∧ Machine.run w source stack t.tokens = .error fault := by
  induction t generalizing stack with
  | literal start text =>
    rw [tokens_literal]
    have hslice := spelledIn_iff.1 h start text (List.mem_singleton.2 rfl)
    rcases operandValue_literal w hslice with
      ⟨n, hn, hdenotes, hvalue⟩ | ⟨fault, hobjects, hvalue⟩
    · left
      refine ⟨n, inRange_literal_iff.2 ⟨n, hn, denotes_literal_iff.1 hdenotes⟩, hdenotes, ?_⟩
      simp only [Machine.run, Machine.step, hvalue]
    · right
      refine ⟨fault, firstFault_of_literal hobjects, ?_⟩
      simp only [Machine.run, Machine.step, hvalue]
  | node start op left right ihleft ihright =>
    rw [tokens_node]
    rcases ihleft h.of_left stack with ⟨a, hleft, ha, hrunLeft⟩ | ⟨fault, hleft, hrunLeft⟩
    · rw [Machine.run_append_of_ok hrunLeft]
      rcases ihright h.of_right (a :: stack) with
        ⟨b, hright, hb, hrunRight⟩ | ⟨fault, hright, hrunRight⟩
      · rw [Machine.run_append_of_ok hrunRight]
        rcases operatorValue_node w start op ha hb with
          ⟨n, hn, hdenotes, hvalue⟩ | ⟨fault, hobjects, hvalue⟩
        · left
          refine ⟨n, inRange_node_iff.2 ⟨hleft, hright, n, hn, hdenotes⟩, hdenotes, ?_⟩
          simp only [Machine.run, Machine.step, hvalue]
        · right
          refine ⟨fault, firstFault_of_node hobjects hleft hright, ?_⟩
          simp only [Machine.run, Machine.step, hvalue]
      · right
        exact ⟨fault, hright.of_right hleft, Machine.run_append_of_error hrunRight _⟩
    · right
      exact ⟨fault, hleft.of_left, Machine.run_append_of_error hrunLeft _⟩

end StackCalc.Tree
