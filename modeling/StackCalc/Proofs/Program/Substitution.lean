import StackCalc.Proofs.Machine.Narrow
import StackCalc.Proofs.Program.Context

/-!
# Parts with the same value

A part of a text that has a value by itself can be replaced by any other text of this value, and so
by the decimal form of the value, whatever stands before and behind it: the result is the same, also
where it is a fault (`calculate_inContext`). A fault is then at a token before the part or behind
it, never in the part, since the part by itself has none.
-/

namespace StackCalc

variable {w : Width} {before after part part' text : String} {t : Token} {n : Int}

/-- The text with a part between what stands before it and what stands behind it. -/
def inContext (before after part : String) : String := before ++ " " ++ part ++ " " ++ after

/-- The place in one text that a place outside the part has in the other one. -/
inductive OutsidePart (before after part part' : String) : Nat → Nat → Prop
  | before {i : Nat} (h : i < before.utf8ByteSize) : OutsidePart before after part part' i i
  | behind {i : Nat} (h : i < after.utf8ByteSize) :
      OutsidePart before after part part' ((before ++ " " ++ part ++ " ").utf8ByteSize + i)
        ((before ++ " " ++ part' ++ " ").utf8ByteSize + i)

theorem toList_inContext (before after part : String) :
    (inContext before after part).toList =
      before.toList ++ ([' '] ++ (part.toList ++ ([' '] ++ after.toList))) := by
  have hblank : " ".toList = [' '] := rfl
  simp only [inContext, String.toList_append, hblank, List.append_assoc]

theorem start_lt_of_mem_tokenize (h : t ∈ tokenize text.toList) : t.start < text.utf8ByteSize := by
  obtain ⟨front, c, back, htext, -, -, hstart⟩ := exists_split_of_mem_tokenize h
  have hpos := c.utf8Size_pos
  rw [← Text.byteLength_toList, htext, Text.byteLength_append, Text.byteLength_cons, hstart]
  omega

theorem tokenize_inContext (hbefore : ∀ t ∈ tokenize before.toList, t.isForeign = false)
    (hpart : ∀ t ∈ tokenize part.toList, t.isForeign = false) :
    tokenize (inContext before after part).toList =
      tokenize before.toList ++
        ((tokenize part.toList).map (Token.shift (Text.byteLength (before.toList ++ [' ']))) ++
          (tokenize after.toList).map
            (Token.shift (Text.byteLength (before.toList ++ [' '] ++ part.toList ++ [' '])))) := by
  have hblank : ∀ c ∈ [' '], isBlank c = true := by simp [isBlank]
  have hhead : ∀ (cs : List Char), ∀ c ∈ ([' '] ++ cs).head?, isBlank c = true := by
    intro cs c hc
    obtain rfl : ' ' = c := Option.some.inj hc
    rfl
  rw [toList_inContext, tokenize_append hbefore (not_runsInto_of_isBlank_head _ (hhead _)),
    tokenize_gap_append_append hblank hpart (hhead _), tokenize_gap_append hblank]
  simp only [List.map_append, Token.map_shift_map_shift, Text.byteLength_append, Nat.add_assoc]

/-- What stands before the part has the same effect in both texts. -/
theorem sameEffect_before (before after part part' : String) :
    SameEffect w (OutsidePart before after part part') (inContext before after part)
      (inContext before after part') (tokenize before.toList) (tokenize before.toList) := by
  have hfront : ∀ p : String, (inContext before after p).toList =
      [] ++ (before.toList ++ ([' '] ++ (p.toList ++ ([' '] ++ after.toList)))) :=
    toList_inContext before after
  have hplace : ∀ t ∈ tokenize before.toList, OutsidePart before after part part'
      (Text.byteLength [] + t.start) (Text.byteLength [] + t.start) := by
    intro t ht
    rw [Text.byteLength_nil, Nat.zero_add]
    exact .before (start_lt_of_mem_tokenize ht)
  have hsame := forall₂_shift_relocated (hfront part) (hfront part') hplace
  rw [Text.byteLength_nil, Token.map_shift_zero] at hsame
  exact .of_forall₂ hsame

/-- What stands behind the part has the same effect in both texts. -/
theorem sameEffect_after (before after part part' : String) :
    SameEffect w (OutsidePart before after part part') (inContext before after part)
      (inContext before after part')
      ((tokenize after.toList).map
        (Token.shift (Text.byteLength (before.toList ++ [' '] ++ part.toList ++ [' ']))))
      ((tokenize after.toList).map
        (Token.shift (Text.byteLength (before.toList ++ [' '] ++ part'.toList ++ [' '])))) := by
  have hfront : ∀ p : String, (inContext before after p).toList =
      before.toList ++ [' '] ++ p.toList ++ [' '] ++ (after.toList ++ []) := by
    intro p
    rw [toList_inContext, List.append_nil]
    simp only [List.append_assoc]
  have hsize : ∀ p : String, Text.byteLength (before.toList ++ [' '] ++ p.toList ++ [' ']) =
      (before ++ " " ++ p ++ " ").utf8ByteSize := by
    intro p
    rw [← Text.byteLength_toList]
    simp only [String.toList_append]
    rfl
  refine .of_forall₂ (forall₂_shift_relocated (hfront part) (hfront part') ?_)
  intro t ht
  rw [hsize, hsize]
  exact .behind (start_lt_of_mem_tokenize ht)

/-- In any context, parts with the same value give the same. -/
theorem calculate_inContext (h : calculate w part = .ok n) (h' : calculate w part' = .ok n) :
    Relocated (OutsidePart before after part part') (calculate w (inContext before after part))
      (calculate w (inContext before after part')) := by
  apply calculate_relocated
  rcases exists_isForeign_or (tokenize before.toList) with hforeign | hbefore
  -- Neither text is read up to the part.
  · rw [toList_inContext, toList_inContext, tokenize_append_of_isForeign hforeign,
      tokenize_append_of_isForeign hforeign]
    exact sameEffect_before before after part part'
  · have hfront : ∀ p : String, (inContext before after p).toList =
        before.toList ++ [' '] ++ (p.toList ++ ([' '] ++ after.toList)) := by
      intro p
      rw [toList_inContext, List.append_assoc]
    rw [tokenize_inContext hbefore (not_isForeign_of_calculate h),
      tokenize_inContext hbefore (not_isForeign_of_calculate h')]
    apply (sameEffect_before before after part part').append
    apply SameEffect.append
    · exact .of_calculate h h' (hfront part) (hfront part')
    · exact sameEffect_after before after part part'

theorem tokenize_literal {cs : List Char} (h : Numeral.IsLiteral cs) :
    tokenize cs = [.operand 0 (Text.byteLength cs)] := by
  have hx : (Lexeme.number cs).IsWritten := h
  have hl : (Layout.mk [([], .number cs)] []).WellFormed := {
    gaps_blank := by simp
    trailing_blank := by simp
    written := by simpa using hx
    separated := by simp [Layout.IsSeparated] }
  have htokens := tokenize_layout hl
  rwa [Layout.chars_cons, Layout.chars_nil, List.append_nil, List.nil_append] at htokens

/-- A literal alone has the number that it denotes as its value, if that is in range. -/
theorem calculate_literal {cs : List Char} (h : Numeral.IsLiteral cs)
    (hvalue : Numeral.value? cs = some n) (hn : n ∈ w) :
    calculate w (String.ofList cs) = .ok n := by
  have htokens : tokenize (String.ofList cs).toList = [.operand 0 (Text.byteLength cs)] := by
    rw [String.toList_ofList, tokenize_literal h]
  have hslice : Text.slice? (String.ofList cs) (Text.byteLength []) (Text.byteLength cs) =
      some (String.ofList cs) := by
    apply Text.slice?_append
    rw [String.toList_ofList, List.nil_append, List.append_nil]
  have hoperand : Machine.operandValue w (String.ofList cs) 0 (Text.byteLength cs) = .ok n := by
    apply Machine.operandValue_of_denotes hslice ?_ hn
    rw [String.toList_ofList]
    exact Numeral.value?_eq_some_iff.1 hvalue
  have hrun : Machine.run w (String.ofList cs) [] [.operand 0 (Text.byteLength cs)] = .ok [n] := by
    simp only [Machine.run, Machine.step, hoperand]
  rw [calculate_of_no_fault (by rw [htokens]; rfl), htokens]
  exact Program.value_of_run_eq_ok (p := ⟨_, _⟩) hrun

theorem mem_of_calculate (h : calculate w text = .ok n) : n ∈ w :=
  Machine.forall_mem_of_run (by simp) (run_tokenize_of_calculate h) n List.mem_cons_self

/-- A part between blanks can be replaced by the decimal form of its value. The text has the same
    value as before, or the same fault; a fault before the part is where it was, one behind it moves
    with the text there, and none is in the part. -/
theorem calculate_replace_part (w : Width) (before after part : String) (n : Int)
    (h : calculate w part = .ok n) :
    calculate w (String.ofList (Numeral.decimal n)) = .ok n ∧
    Relocated (OutsidePart before after part (String.ofList (Numeral.decimal n)))
      (calculate w (before ++ " " ++ part ++ " " ++ after))
      (calculate w (before ++ " " ++ String.ofList (Numeral.decimal n) ++ " " ++ after)) := by
  have hdecimal : calculate w (String.ofList (Numeral.decimal n)) = .ok n :=
    calculate_literal (Numeral.isLiteral_decimal n) (Numeral.value?_decimal n) (mem_of_calculate h)
  exact ⟨hdecimal, calculate_inContext h hdecimal⟩

/-- The least number in place of a difference; the quotient behind it then overflows. -/
theorem calculate_replace_part_least :
    let decimal := String.ofList (Numeral.decimal (-2147483648))
    calculate .bits32 "-2147483647 1 -" = .ok (-2147483648) ∧
      calculate .bits32 decimal = .ok (-2147483648) ∧
      Relocated (OutsidePart "5" "-1 / +" "-2147483647 1 -" decimal)
        (calculate .bits32 ("5" ++ " " ++ "-2147483647 1 -" ++ " " ++ "-1 / +"))
        (calculate .bits32 ("5" ++ " " ++ decimal ++ " " ++ "-1 / +")) := by
  intro decimal
  have hvalue : calculate? .bits32 "-2147483647 1 -" = some (-2147483648) := by decide +kernel
  have h : calculate .bits32 "-2147483647 1 -" = .ok (-2147483648) :=
    calculate?_eq_some_iff.1 hvalue
  exact ⟨h, calculate_replace_part .bits32 "5" "-1 / +" "-2147483647 1 -" (-2147483648) h⟩

end StackCalc
