import StackCalc.Proofs.Layout.Slices
import StackCalc.Proofs.Program.Acceptance
import StackCalc.Proofs.Tree.Run

/-!
# The value of a written tree

A tree can be written down with any blanks that keep its lexemes apart. Whatever the blanks are, the
text has the number that the tree denotes as its value, or is refused with the first objection in
postorder, with the offset that the blanks give to the lexeme.
-/

namespace StackCalc

/-- The lexemes in the order of the text. -/
def Layout.lexemes (l : Layout) : List Lexeme := l.items.map Prod.snd

theorem Layout.map_snd_placed (l : Layout) : l.placed.map Prod.snd = l.lexemes :=
  Layout.map_snd_placeFrom 0 l.items

theorem Program.calculate_layout {w : Width} {l : Layout} (hl : l.WellFormed) {text : String}
    (htext : text.toList = l.chars) : calculate w text = Program.value w ⟨text, l.tokens⟩ := by
  rw [calculate, Program.ofString_layout hl htext]

namespace Tree

variable {w : Width} {t p : Tree} {l : Layout} {text : String} {n : Int}

/-- The lexemes in postorder. -/
def lexemes (t : Tree) : List Lexeme := t.postorder.map Prod.snd

/-- The tree without its offsets: all of them are zero. -/
def unplaced : Tree → Tree
  | literal _ text => literal 0 text
  | node _ op left right => node 0 op left.unplaced right.unplaced

theorem denotes_unplaced_iff : t.unplaced.Denotes n ↔ t.Denotes n := by
  induction t generalizing n with
  | literal start text => rw [unplaced, denotes_literal_iff, denotes_literal_iff]
  | node start op left right ihleft ihright =>
    simp only [unplaced, denotes_node_iff, ihleft, ihright]

theorem inRange_unplaced_iff : t.unplaced.InRange w ↔ t.InRange w := by
  induction t with
  | literal start text => rw [unplaced, inRange_literal_iff, inRange_literal_iff]
  | node start op left right ihleft ihright =>
    have hvalue (n : Int) := denotes_unplaced_iff (t := node start op left right) (n := n)
    simp only [unplaced] at hvalue ⊢
    simp only [inRange_node_iff, ihleft, ihright, hvalue]

/-- A tree can have its lexemes at any offsets. -/
theorem exists_postorder_eq {placed : List (Nat × Lexeme)} (h : placed.map Prod.snd = t.lexemes) :
    ∃ p : Tree, p.unplaced = t.unplaced ∧ p.postorder = placed := by
  induction t generalizing placed with
  | literal start text =>
    obtain ⟨⟨here, x⟩, rest, rfl, hx, hrest⟩ := List.map_eq_cons_iff.1 h
    obtain rfl := List.map_eq_nil_iff.1 hrest
    obtain rfl : x = .number text := hx
    exact ⟨literal here text, rfl, rfl⟩
  | node start op left right ihleft ihright =>
    rw [lexemes, postorder, List.map_append, List.map_append] at h
    obtain ⟨operands, last, rfl, hoperands, hlast⟩ := List.map_eq_append_iff.1 h
    obtain ⟨xs, ys, rfl, hxs, hys⟩ := List.map_eq_append_iff.1 hoperands
    obtain ⟨⟨here, x⟩, rest, rfl, hx, hrest⟩ := List.map_eq_cons_iff.1 hlast
    obtain rfl := List.map_eq_nil_iff.1 hrest
    obtain rfl : x = .operator op := hx
    obtain ⟨left', hleft, rfl⟩ := ihleft hxs
    obtain ⟨right', hright, rfl⟩ := ihright hys
    exact ⟨node here op left' right', by rw [unplaced, unplaced, hleft, hright], rfl⟩

theorem tokens_eq_of_postorder_eq (h : p.postorder = l.placed) : p.tokens = l.tokens := by
  rw [tokens, h, Layout.tokens]

theorem spelledIn_of_postorder_eq (h : p.postorder = l.placed) (htext : text.toList = l.chars) :
    p.SpelledIn text := by
  rw [spelledIn_iff]
  intro start cs hmem
  rw [h] at hmem
  exact Layout.slice?_of_mem_placed (htext.trans (List.append_nil _).symm) hmem

/-- The value of a program whose tokens are those of a tree. -/
theorem value_of_tokens (w : Width) (h : p.SpelledIn text) :
    (∃ n, p.InRange w ∧ p.Denotes n ∧ Program.value w ⟨text, p.tokens⟩ = .ok n) ∨
    ∃ fault, p.FirstFault w fault ∧ Program.value w ⟨text, p.tokens⟩ = .error fault := by
  rcases run_tokens w h [] with ⟨n, hrange, hdenotes, hrun⟩ | ⟨fault, hfirst, hrun⟩
  · left
    refine ⟨n, hrange, hdenotes, ?_⟩
    rw [Program.value, hrun]
    rfl
  · right
    refine ⟨fault, hfirst, ?_⟩
    rw [Program.value, hrun]

/-- Every way to write down a tree has the number that the tree denotes as its value if each literal
    and each node denotes one in the range, and is otherwise refused with the first objection in
    postorder, at the place that the objectionable lexeme has in the text. -/
theorem calculate_text_of_lexemes_eq (w : Width) (t : Tree) (l : Layout) (hl : l.WellFormed)
    (hlexemes : l.lexemes = t.lexemes) :
    (t.InRange w → ∃ n, t.Denotes n ∧ calculate w l.text = .ok n) ∧
      ∃ p : Tree, p.unplaced = t.unplaced ∧ p.postorder = l.placed ∧
        (¬t.InRange w → ∃ fault, (∀ fault', p.FirstFault w fault' ↔ fault' = fault) ∧
          calculate w l.text = .error fault) := by
  obtain ⟨p, hshape, hplaced⟩ := exists_postorder_eq (l.map_snd_placed.trans hlexemes)
  have htext : l.text.toList = l.chars := String.toList_ofList
  have hrange : p.InRange w ↔ t.InRange w := by
    rw [← inRange_unplaced_iff, hshape, inRange_unplaced_iff]
  have hvalue := value_of_tokens w (spelledIn_of_postorder_eq hplaced htext)
  rw [tokens_eq_of_postorder_eq hplaced, ← Program.calculate_layout hl htext] at hvalue
  refine ⟨?_, p, hshape, hplaced, ?_⟩
  · intro h
    rcases hvalue with ⟨n, -, hdenotes, hcalculate⟩ | ⟨fault, hfirst, -⟩
    · refine ⟨n, ?_, hcalculate⟩
      rwa [← denotes_unplaced_iff, ← hshape, denotes_unplaced_iff]
    · exact absurd (hrange.2 h) hfirst.not_inRange
  · intro h
    rcases hvalue with ⟨n, hin, -, -⟩ | ⟨fault, hfirst, hcalculate⟩
    · exact absurd (hrange.1 hin) h
    · exact ⟨fault, hfirst.firstFault_iff, hcalculate⟩

/-- `9999999999 1 0/+` has a literal out of range and a division by zero. -/
theorem calculate_text_of_lexemes_eq_two_faults :
    let l : Layout := ⟨[([], .number (List.replicate 10 '9')), ([' '], .number ['1']),
      ([' ', '\t'], .number ['0']), ([], .operator .div), ([], .operator .add)], [' ']⟩
    let t : Tree := node 0 .add (literal 0 (List.replicate 10 '9'))
      (node 0 .div (literal 0 ['1']) (literal 0 ['0']))
    l.WellFormed ∧ l.lexemes = t.lexemes ∧
      (t.InRange .bits32 → ∃ n, t.Denotes n ∧ calculate .bits32 l.text = .ok n) ∧
      ∃ p : Tree, p.unplaced = t.unplaced ∧ p.postorder = l.placed ∧
        (¬t.InRange .bits32 → ∃ fault, (∀ fault', p.FirstFault .bits32 fault' ↔ fault' = fault) ∧
          calculate .bits32 l.text = .error fault) := by
  intro l t
  have hl : l.WellFormed := by
    have hnine : Numeral.IsDigits (List.replicate 10 '9') := by decide
    have hone : Numeral.IsDigits ['1'] := by decide
    have hzero : Numeral.IsDigits ['0'] := by decide
    refine ⟨by simp [l, isBlank], by simp [l, isBlank], ?_, ?_⟩
    · simp only [l, List.forall_mem_cons, Lexeme.IsWritten]
      exact ⟨hnine, hone, hzero, trivial, trivial, by simp⟩
    · simp [l, Layout.IsSeparated, Lexeme.takesDigit, Lexeme.startsWithDigit, Lexeme.chars,
        Operator.symbol]
  have hlexemes : l.lexemes = t.lexemes := by decide
  exact ⟨hl, hlexemes, calculate_text_of_lexemes_eq .bits32 t l hl hlexemes⟩

end Tree

end StackCalc
