import StackCalc.Proofs.Layout.Offsets

/-!
# The lexemes of a layout in its text

Each lexeme of a layout is what stands in the text at the offset where the layout places it. So the
range of every operand that is taken from a text holds a literal.
-/

namespace StackCalc

namespace Layout

variable {text : String} {tail : List Char}

theorem slice?_of_mem_placed {l : Layout} (h : text.toList = l.chars ++ tail) {start : Nat}
    {x : Lexeme} (hx : (start, x) ∈ l.placed) :
    Text.slice? text start (Text.byteLength x.chars) = some (String.ofList x.chars) := by
  obtain ⟨before, gap, after, hitems, rfl⟩ := exists_split_of_mem_placed hx
  obtain ⟨items, trailing⟩ := l
  obtain rfl : items = before ++ (gap, x) :: after := hitems
  rw [chars_split, List.append_assoc, List.append_assoc] at h
  exact Text.slice?_append h

theorem map_snd_placeFrom (start : Nat) (items : List (List Char × Lexeme)) :
    (placeFrom start items).map Prod.snd = items.map Prod.snd := by
  induction items generalizing start with
  | nil => rfl
  | cons item items ih => simp only [placeFrom, List.map_cons, ih]

end Layout

theorem exists_literal_of_operand_mem {text : String} {start length : Nat}
    (h : Token.operand start length ∈ tokenize text.toList) :
    ∃ cs, Numeral.IsLiteral cs ∧ Text.slice? text start length = some (String.ofList cs) := by
  obtain ⟨l, tail, htext, hl, htail⟩ := Layout.exists_layout_append text.toList
  rw [htext, tokenize_layout_append hl htail, List.mem_append] at h
  rcases h with h | h
  · obtain ⟨⟨here, x⟩, hplaced, htoken⟩ := List.mem_map.1 h
    cases x with
    | operator op => simp [Lexeme.token] at htoken
    | number cs =>
      obtain ⟨rfl, rfl⟩ := Token.operand.inj htoken
      obtain ⟨before, gap, after, hitems, -⟩ := Layout.exists_split_of_mem_placed hplaced
      have hmem : (gap, Lexeme.number cs) ∈ l.items := by
        rw [hitems]
        exact List.mem_append_right _ List.mem_cons_self
      exact ⟨cs, hl.written _ hmem, Layout.slice?_of_mem_placed htext hplaced⟩
  · obtain ⟨c, -, hc⟩ := Option.map_eq_some_iff.1 (Option.mem_toList.1 h)
    simp at hc

end StackCalc
