import Mathlib.Data.Option.Defs
import StackCalc.Proofs.Layout.Seam
import StackCalc.Proofs.Machine.Context
import StackCalc.Proofs.Program.Cover
import StackCalc.Proofs.Program.Outcome

/-!
# Texts in a context

What a text does depends on its tokens alone, and on these only up to their effect: the first
foreign character among them and what they make of each stack (`SameEffect`). The tokens of a part
that stands in two texts have the same effect there (`shift_relocated`), and so have those of two
parts with the same value, since each pushes it on whatever stack there is
(`SameEffect.of_calculate`).
-/

namespace StackCalc

variable {w : Width} {R : Nat → Nat → Prop} {source source' text text' part part' : String}
  {xs xs' ys ys' : List Token} {cs front front' back back' : List Char} {t : Token} {n : Int}

/-- A token starts at a character of the text that is not a blank, and the characters before it have
    one byte each. -/
theorem exists_split_of_mem_tokenize (h : t ∈ tokenize cs) :
    ∃ before c after, cs = before ++ c :: after ∧ isBlank c = false ∧
      before.length = t.start ∧ Text.byteLength before = t.start := by
  obtain ⟨l, tail, rfl, hl, htail⟩ := Layout.exists_layout_append cs
  rw [tokenize_layout_append hl htail, List.mem_append] at h
  rcases h with h | h
  · obtain ⟨before, gap, x, after, hitems, rfl⟩ := Layout.exists_split_of_mem_tokens h
    have hchars := Layout.chars_of_items_eq hitems
    have hwritten := hl.written_of_items_eq hitems
    obtain ⟨c, rest, hx⟩ := List.exists_cons_of_ne_nil (Lexeme.chars_ne_nil hwritten)
    rw [Lexeme.start_token]
    refine ⟨(Layout.mk before gap).chars, c, rest ++ (Layout.mk after l.trailing).chars ++ tail, ?_,
      ?_, (hl.byteLength_front hchars).symm, rfl⟩
    · rw [hchars, hx]
      simp only [List.append_assoc, List.cons_append]
    · apply Lexeme.not_isBlank_head hwritten
      rw [hx]
      rfl
  · obtain ⟨c, hc, rfl⟩ := Option.map_eq_some_iff.1 (Option.mem_toList.1 h)
    obtain ⟨after, rfl⟩ := List.head?_eq_some_iff.1 hc
    exact ⟨l.chars, c, after, rfl, not_isBlank_of_notMem (htail c rfl), rfl,
      byteLength_of_subset_alphabet hl.chars_subset_alphabet⟩

/-- A token of a part of two texts stands for the same in both of them. -/
theorem shift_relocated (htext : text.toList = front ++ (cs ++ back))
    (htext' : text'.toList = front' ++ (cs ++ back')) (ht : t ∈ tokenize cs)
    (place : R (Text.byteLength front + t.start) (Text.byteLength front' + t.start)) :
    Token.Relocated R text text' (t.shift (Text.byteLength front))
      (t.shift (Text.byteLength front')) := by
  cases t with
  | operand start length =>
    have hmem : Token.operand start length ∈ tokenize (String.ofList cs).toList := by
      rwa [String.toList_ofList]
    obtain ⟨literal, -, hslice⟩ := exists_literal_of_operand_mem hmem
    refine .operand place ?_
    rw [Text.slice?_of_part htext hslice, Text.slice?_of_part htext' hslice]
  | operator start op => exact .operator place op
  | foreign start c => exact .foreign place c

theorem forall₂_shift_relocated (htext : text.toList = front ++ (cs ++ back))
    (htext' : text'.toList = front' ++ (cs ++ back'))
    (place : ∀ t ∈ tokenize cs,
      R (Text.byteLength front + t.start) (Text.byteLength front' + t.start)) :
    List.Forall₂ (Token.Relocated R text text')
      ((tokenize cs).map (Token.shift (Text.byteLength front)))
      ((tokenize cs).map (Token.shift (Text.byteLength front'))) := by
  rw [List.forall₂_map_left_iff, List.forall₂_map_right_iff, List.forall₂_same]
  intro t ht
  exact shift_relocated htext htext' ht (place t ht)

theorem calculate_of_fault {fault : Fault}
    (h : (tokenize text.toList).findSome? Token.fault? = some fault) :
    calculate w text = .error fault := by
  rw [calculate, Program.ofString, Program.checkTokens, h]

theorem calculate_of_no_fault (h : (tokenize text.toList).findSome? Token.fault? = none) :
    calculate w text = Program.value w ⟨text, tokenize text.toList⟩ := by
  rw [calculate, Program.ofString, Program.checkTokens, h]

/-- Tokens of one text and of another one that can be exchanged: they contain the same foreign
    character first, if any, and they make the same of every stack. -/
structure SameEffect (w : Width) (R : Nat → Nat → Prop) (source source' : String)
    (tokens tokens' : List Token) : Prop where
  foreign : Option.Rel (Fault.Relocated R) (tokens.findSome? Token.fault?)
    (tokens'.findSome? Token.fault?)
  run : ∀ stack, Relocated R (Machine.run w source stack tokens)
    (Machine.run w source' stack tokens')

namespace SameEffect

theorem of_forall₂ (h : List.Forall₂ (Token.Relocated R source source') xs xs') :
    SameEffect w R source source' xs xs' where
  foreign := by
    induction h with
    | nil => exact .none
    | cons htoken _ ih =>
      cases htoken with
      | operand => exact ih
      | operator => exact ih
      | foreign place c => exact .some (.foreignChar place c)
  run := Machine.run_relocated h

theorem append (hx : SameEffect w R source source' xs xs')
    (hy : SameEffect w R source source' ys ys') :
    SameEffect w R source source' (xs ++ ys) (xs' ++ ys') where
  foreign := by
    have hfirst := hx.foreign
    rw [List.findSome?_append, List.findSome?_append]
    cases hleft : xs.findSome? Token.fault? <;> cases hright : xs'.findSome? Token.fault? <;>
      rw [hleft, hright] at hfirst
    · exact hy.foreign
    · cases hfirst
    · cases hfirst
    · exact hfirst
  run := by
    intro stack
    rcases hx.run stack with ⟨next, hrun, hrun'⟩ | ⟨fault, fault', hrun, hrun', hfault⟩
    · rw [Machine.run_append_of_ok hrun, Machine.run_append_of_ok hrun']
      exact hy.run next
    · rw [Machine.run_append_of_error hrun, Machine.run_append_of_error hrun']
      exact hfault.error

end SameEffect

theorem Relocated.eq_ok {α : Type} {a : α} {y : Except Fault α} (h : Relocated R (.ok a) y) :
    y = .ok a := by
  rcases h with ⟨b, hb, rfl⟩ | ⟨fault, -, hfault, -⟩
  · exact hb.symm
  · simp at hfault

theorem exists_isForeign_or (tokens : List Token) :
    (∃ t ∈ tokens, t.isForeign = true) ∨ ∀ t ∈ tokens, t.isForeign = false := by
  by_cases h : tokens.any Token.isForeign = true
  · exact .inl (List.any_eq_true.1 h)
  · right
    simpa using h

theorem not_isForeign_of_calculate (h : calculate w part = .ok n) :
    ∀ t ∈ tokenize part.toList, t.isForeign = false := by
  cases hfirst : (tokenize part.toList).findSome? Token.fault? with
  | none => exact findSome?_fault?_eq_none_iff.1 hfirst
  | some fault => simp [calculate_of_fault hfirst] at h

theorem run_tokenize_of_calculate (h : calculate w text = .ok n) :
    Machine.run w text [] (tokenize text.toList) = .ok [n] := by
  have hnone := findSome?_fault?_eq_none_iff.2 (not_isForeign_of_calculate h)
  rw [calculate_of_no_fault hnone] at h
  exact Program.run_of_value_eq_ok h

/-- The tokens of a part that has a value push it on whatever stack there is. -/
theorem run_of_calculate (h : calculate w part = .ok n)
    (htext : text.toList = front ++ (part.toList ++ back)) (stack : List Int) :
    Machine.run w text stack
      ((tokenize part.toList).map (Token.shift (Text.byteLength front))) = .ok (n :: stack) := by
  have hpart : part.toList = [] ++ (part.toList ++ []) := (List.append_nil _).symm
  have hsame : SameEffect w (fun _ _ => True) part text
      ((tokenize part.toList).map (Token.shift 0))
      ((tokenize part.toList).map (Token.shift (Text.byteLength front))) :=
    .of_forall₂ (forall₂_shift_relocated hpart htext fun _ _ => trivial)
  have hrun := hsame.run []
  rw [Token.map_shift_zero, run_tokenize_of_calculate h] at hrun
  exact Machine.run_append_below hrun.eq_ok stack

theorem findSome?_fault?_of_calculate (h : calculate w part = .ok n) (k : Nat) :
    ((tokenize part.toList).map (Token.shift k)).findSome? Token.fault? = none := by
  rw [findSome?_fault?_eq_none_iff, List.forall_mem_map]
  intro t ht
  rw [Token.isForeign_shift]
  exact not_isForeign_of_calculate h t ht

/-- Parts with the same value have the same effect. -/
theorem SameEffect.of_calculate (h : calculate w part = .ok n) (h' : calculate w part' = .ok n)
    (htext : text.toList = front ++ (part.toList ++ back))
    (htext' : text'.toList = front' ++ (part'.toList ++ back')) :
    SameEffect w R text text'
      ((tokenize part.toList).map (Token.shift (Text.byteLength front)))
      ((tokenize part'.toList).map (Token.shift (Text.byteLength front'))) where
  foreign := by
    rw [findSome?_fault?_of_calculate h, findSome?_fault?_of_calculate h']
    exact .none
  run := by
    intro stack
    rw [run_of_calculate h htext, run_of_calculate h' htext']
    exact relocated_ok (n :: stack)

/-- Texts whose tokens have the same effect have the same value or the same fault. -/
theorem calculate_relocated
    (h : SameEffect w R text text' (tokenize text.toList) (tokenize text'.toList)) :
    Relocated R (calculate w text) (calculate w text') := by
  have hforeign := h.foreign
  cases hfirst : (tokenize text.toList).findSome? Token.fault? <;>
    cases hfirst' : (tokenize text'.toList).findSome? Token.fault? <;>
    rw [hfirst, hfirst'] at hforeign
  · rw [calculate_of_no_fault hfirst, calculate_of_no_fault hfirst', Program.value, Program.value]
    rcases h.run [] with ⟨stack, hrun, hrun'⟩ | ⟨fault, fault', hrun, hrun', hfault⟩
    · simp only [hrun, hrun']
      exact Machine.outcome_relocated stack
    · simp only [hrun, hrun']
      exact hfault.error
  · cases hforeign
  · cases hforeign
  · cases hforeign with
    | some hfault =>
      rw [calculate_of_fault hfirst, calculate_of_fault hfirst']
      exact hfault.error

end StackCalc
