import StackCalc.Proofs.Layout.Slices
import StackCalc.Proofs.Program.Acceptance

/-!
# The program of a text and the text of a program

Whatever lexemes are written down, with whatever blanks that keep them apart, are the tokens of the
text, each at its offset. In the other direction, a text is read as a program exactly if the tokens
of the program cover it but for blanks (`CoversSource`): no byte belongs to two tokens, a number goes
on as long as there are digits, and nothing between the tokens is lost.
-/

namespace StackCalc

theorem encode_of_subset_alphabet {cs : List Char} (h : ∀ c ∈ cs, c ∈ alphabet) :
    cs.flatMap String.utf8EncodeChar = cs.map Char.toUInt8 := by
  induction cs with
  | nil => rfl
  | cons c cs ih =>
    rw [List.forall_mem_cons] at h
    rw [List.flatMap_cons, String.utf8EncodeChar_eq_singleton (utf8Size_of_mem_alphabet h.1), ih h.2]
    rfl

theorem not_isDigit_toUInt8 {c : Char} (hc : c ∈ alphabet) (h : c.isDigit = false) :
    ¬('0'.toUInt8 ≤ c.toUInt8 ∧ c.toUInt8 ≤ '9'.toUInt8) := by
  have hall : alphabet.all (fun d =>
      d.isDigit || !decide ('0'.toUInt8 ≤ d.toUInt8 ∧ d.toUInt8 ≤ '9'.toUInt8)) = true := by decide
  have hd := List.all_eq_true.1 hall c hc
  rw [h, Bool.false_or, Bool.not_eq_true', decide_eq_false_iff_not] at hd
  exact hd

namespace Text

/-- Whether there is a digit at a byte offset. -/
def HasDigitAt (text : String) (i : Nat) : Prop :=
  ∃ byte, (bytes text)[i]? = some byte ∧ '0'.toUInt8 ≤ byte ∧ byte ≤ '9'.toUInt8

end Text

namespace Layout

variable {l : Layout} {gap : List Char} {x : Lexeme} {before after : List (List Char × Lexeme)}
  {t : Token}

theorem toList_text (l : Layout) : l.text.toList = l.chars := String.toList_ofList

/-- In the text of a layout, bytes are characters. -/
theorem WellFormed.bytes_text (hl : l.WellFormed) : Text.bytes l.text = l.chars.map Char.toUInt8 := by
  rw [text, Text.bytes_ofList, encode_of_subset_alphabet hl.chars_subset_alphabet]

theorem WellFormed.byteLength_front (hl : l.WellFormed) {front back : List Char}
    (hchars : l.chars = front ++ back) : Text.byteLength front = front.length := by
  apply byteLength_of_subset_alphabet
  intro c hc
  apply hl.chars_subset_alphabet
  rw [hchars]
  exact List.mem_append_left back hc

/-- Behind the first characters of a layout stands the next one. -/
theorem WellFormed.getElem?_bytes_text (hl : l.WellFormed) {front back : List Char}
    (hchars : l.chars = front ++ back) :
    (Text.bytes l.text)[Text.byteLength front]? = back.head?.map Char.toUInt8 := by
  rw [hl.bytes_text, hchars, List.getElem?_map, hl.byteLength_front hchars,
    List.getElem?_append_right (Nat.le_refl _), Nat.sub_self, List.head?_eq_getElem?]

theorem WellFormed.not_hasDigitAt (hl : l.WellFormed) {front back : List Char}
    (hchars : l.chars = front ++ back) (hback : back.head?.any Char.isDigit = false) :
    ¬Text.HasDigitAt l.text (Text.byteLength front) := by
  rintro ⟨byte, hbyte, hdigit⟩
  rw [hl.getElem?_bytes_text hchars] at hbyte
  obtain ⟨c, hc, rfl⟩ := Option.map_eq_some_iff.1 hbyte
  rw [hc, Option.any_some] at hback
  apply not_isDigit_toUInt8 ?_ hback hdigit
  apply hl.chars_subset_alphabet
  rw [hchars]
  exact List.mem_append_right front (List.mem_of_mem_head? hc)

theorem exists_split_of_mem_tokens (h : t ∈ l.tokens) :
    ∃ before gap x after, l.items = before ++ (gap, x) :: after ∧
      t = x.token (Text.byteLength (Layout.mk before gap).chars) := by
  obtain ⟨⟨here, x⟩, hplaced, rfl⟩ := List.mem_map.1 h
  obtain ⟨before, gap, after, hitems, rfl⟩ := exists_split_of_mem_placed hplaced
  exact ⟨before, gap, x, after, hitems, rfl⟩

theorem chars_of_items_eq (h : l.items = before ++ (gap, x) :: after) :
    l.chars = (Layout.mk before gap).chars ++ (x.chars ++ (Layout.mk after l.trailing).chars) := by
  rw [← chars_split, ← h]

theorem WellFormed.endsBefore_of_items_eq (hl : l.WellFormed)
    (h : l.items = before ++ (gap, x) :: after) :
    x.EndsBefore (Layout.mk after l.trailing).chars := by
  obtain ⟨items, trailing⟩ := l
  obtain rfl : items = before ++ (gap, x) :: after := h
  exact hl.endsBefore_of_split

theorem WellFormed.written_of_items_eq (hl : l.WellFormed)
    (h : l.items = before ++ (gap, x) :: after) : x.IsWritten := by
  apply hl.written (gap, x)
  rw [h]
  exact List.mem_append_right before List.mem_cons_self

theorem WellFormed.bounds_of_mem_tokens (hl : l.WellFormed) (h : t ∈ l.tokens) :
    t.start < t.stop ∧ t.stop ≤ l.text.utf8ByteSize := by
  obtain ⟨before, gap, x, after, hitems, rfl⟩ := exists_split_of_mem_tokens h
  have hwritten := hl.written_of_items_eq hitems
  have hpos := List.length_pos_iff.2 (Lexeme.chars_ne_nil hwritten)
  have hx := byteLength_of_subset_alphabet (Lexeme.chars_subset_alphabet hwritten)
  rw [Lexeme.start_token, Lexeme.stop_token, text, Text.utf8ByteSize_ofList,
    chars_of_items_eq hitems, Text.byteLength_append, Text.byteLength_append]
  omega

/-- An operand is a literal of the text, and no digit follows it. -/
theorem WellFormed.operand_mem_tokens (hl : l.WellFormed) {start length : Nat}
    (h : Token.operand start length ∈ l.tokens) :
    ∃ cs, Numeral.IsLiteral cs ∧ Text.slice? l.text start length = some (String.ofList cs) ∧
      ¬Text.HasDigitAt l.text (start + length) := by
  obtain ⟨before, gap, x, after, hitems, htoken⟩ := exists_split_of_mem_tokens h
  have hchars := chars_of_items_eq hitems
  cases x with
  | operator op => simp [Lexeme.token] at htoken
  | number cs =>
    obtain ⟨rfl, rfl⟩ := Token.operand.inj htoken
    refine ⟨cs, hl.written_of_items_eq hitems, ?_, ?_⟩
    · exact Text.slice?_append (l.toList_text.trans hchars)
    · rw [← Text.byteLength_append]
      rw [Lexeme.chars, ← List.append_assoc] at hchars
      exact hl.not_hasDigitAt hchars (hl.endsBefore_of_items_eq hitems rfl)

/-- An operator is where its symbol stands, and it is not the sign of a number. -/
theorem WellFormed.operator_mem_tokens (hl : l.WellFormed) {start : Nat} {op : Operator}
    (h : Token.operator start op ∈ l.tokens) :
    (Text.bytes l.text)[start]? = some op.symbol.toUInt8 ∧
      (op = .sub → ¬Text.HasDigitAt l.text (start + 1)) := by
  obtain ⟨before, gap, x, after, hitems, htoken⟩ := exists_split_of_mem_tokens h
  have hchars := chars_of_items_eq hitems
  cases x with
  | number cs => simp [Lexeme.token] at htoken
  | operator op' =>
    obtain ⟨rfl, rfl⟩ := Token.operator.inj htoken
    refine ⟨hl.getElem?_bytes_text hchars, ?_⟩
    rintro rfl
    have hone : Text.byteLength (Layout.mk before gap).chars + 1 =
        Text.byteLength ((Layout.mk before gap).chars ++ Lexeme.chars (.operator .sub)) := by
      rw [Text.byteLength_append]
      rfl
    rw [hone]
    rw [← List.append_assoc] at hchars
    exact hl.not_hasDigitAt hchars (hl.endsBefore_of_items_eq hitems rfl)

/-- A byte that no token covers is a blank. -/
theorem WellFormed.isBlank_of_not_covers_byte (hl : l.WellFormed) {i : Nat} {byte : UInt8}
    (hbyte : (Text.bytes l.text)[i]? = some byte) (h : ∀ t ∈ l.tokens, ¬t.Covers i) :
    byte = ' '.toUInt8 ∨ byte = '\t'.toUInt8 := by
  rw [hl.bytes_text, List.getElem?_map] at hbyte
  obtain ⟨c, hc, rfl⟩ := Option.map_eq_some_iff.1 hbyte
  have houtside : ∀ y ∈ placeFrom 0 l.items, ¬(y.2.token y.1).Covers (0 + i) := by
    intro y hy
    rw [Nat.zero_add]
    exact h _ (List.mem_map_of_mem hy)
  have hblank := isBlank_of_not_covers hl hc houtside
  simp only [isBlank, Bool.or_eq_true, beq_iff_eq] at hblank
  rcases hblank with rfl | rfl
  · exact .inl rfl
  · exact .inr rfl

end Layout

namespace Program

/-- The tokens account for all of the source, byte by byte. -/
structure CoversSource (p : Program) : Prop where
  /-- Every token has an extent inside the source. -/
  bounds : ∀ t ∈ p.tokens, t.start < t.stop ∧ t.stop ≤ p.source.utf8ByteSize
  /-- The extents follow one after the other. -/
  ordered : p.tokens.Pairwise fun t u => t.stop ≤ u.start
  /-- An operand extends over a literal, and no digit follows it. -/
  operands : ∀ start length, .operand start length ∈ p.tokens →
    ∃ cs, Numeral.IsLiteral cs ∧ p.textAt? start length = some (String.ofList cs) ∧
      ¬Text.HasDigitAt p.source (start + length)
  /-- An operator extends over its symbol; a minus sign before a digit is none. -/
  operators : ∀ start op, .operator start op ∈ p.tokens →
    (Text.bytes p.source)[start]? = some op.symbol.toUInt8 ∧
      (op = .sub → ¬Text.HasDigitAt p.source (start + 1))
  /-- All that is outside the tokens is blank. -/
  gaps : ∀ i byte, (Text.bytes p.source)[i]? = some byte → (∀ t ∈ p.tokens, ¬t.Covers i) →
    byte = ' '.toUInt8 ∨ byte = '\t'.toUInt8
  /-- The source is its lexemes with blanks around them, one after the other. -/
  written : ∃ l : Layout, l.WellFormed ∧ p.source = l.text ∧ p.tokens = l.tokens

variable {l : Layout} {text : String} {p : Program} {before before' after after' : List Token}
  {token token' : Token}

theorem coversSource_layout (hl : l.WellFormed) : (Program.mk l.text l.tokens).CoversSource where
  bounds := fun _ ht => hl.bounds_of_mem_tokens ht
  ordered := l.pairwise_tokens
  operands := fun _ _ ht => hl.operand_mem_tokens ht
  operators := fun _ _ ht => hl.operator_mem_tokens ht
  gaps := fun _ _ hbyte houtside => hl.isBlank_of_not_covers_byte hbyte houtside
  written := ⟨l, hl, rfl, rfl⟩

/-- Of two tokens the one with fewer before it starts earlier. -/
theorem CoversSource.start_lt (hcovers : p.CoversSource) (h : p.tokens = before ++ token :: after)
    (h' : p.tokens = before' ++ token' :: after') (hlength : before'.length < before.length) :
    token'.start < token.start := by
  have hordered := hcovers.ordered
  rw [h, List.pairwise_append] at hordered
  have hmem : token' ∈ before := by
    have hget : p.tokens[before'.length]? = some token' := by
      rw [h', List.getElem?_append_right (Nat.le_refl _), Nat.sub_self, List.getElem?_cons_zero]
    rw [h, List.getElem?_append_left hlength] at hget
    exact List.mem_of_getElem? hget
  have hstop := hordered.2.2 token' hmem token List.mem_cons_self
  have hbounds := hcovers.bounds token' (h ▸ List.mem_append_left _ hmem)
  omega

theorem CoversSource.start_le (hcovers : p.CoversSource) (h : p.tokens = before ++ token :: after)
    (h' : p.tokens = before' ++ token' :: after') (hlength : before'.length ≤ before.length) :
    token'.start ≤ token.start := by
  by_cases heq : before'.length = before.length
  · have htail := List.append_inj_right (h'.symm.trans h) heq
    exact Nat.le_of_eq (congrArg Token.start (List.cons.inj htail).1)
  · exact Nat.le_of_lt (hcovers.start_lt h h' (by omega))

/-- A program is a layout that was read. -/
theorem exists_layout_of_ofString (h : ofString text = .ok p) :
    ∃ l : Layout, l.WellFormed ∧ text = l.text ∧ p = ⟨text, l.tokens⟩ := by
  obtain ⟨l, tail, htext, hl, htail⟩ := Layout.exists_layout_append text.toList
  cases tail with
  | nil =>
    rw [List.append_nil] at htext
    rw [ofString_layout hl htext] at h
    refine ⟨l, hl, ?_, (Except.ok.inj h).symm⟩
    rw [Layout.text, ← htext, String.ofList_toList]
  | cons c after =>
    rw [ofString_foreign hl (htail c rfl) htext] at h
    simp at h

theorem coversSource_of_ofString (h : ofString text = .ok p) : p.CoversSource := by
  obtain ⟨l, hl, rfl, rfl⟩ := exists_layout_of_ofString h
  exact coversSource_layout hl

/-- A text is read as a program exactly if the tokens of the program cover the text. -/
theorem ofString_eq_ok_iff_coversSource (text : String) (p : Program) :
    ofString text = .ok p ↔ p.source = text ∧ p.CoversSource := by
  constructor
  · intro h
    refine ⟨?_, coversSource_of_ofString h⟩
    rw [(ofString_eq_ok_iff.1 h).1]
  · rintro ⟨rfl, hcovers⟩
    obtain ⟨l, hl, hsource, htokens⟩ := hcovers.written
    rw [ofString_layout hl (hsource ▸ l.toList_text), ← htokens]

/-- Reading what was written gives one token for each lexeme, at the length of what is written before
    it. No lexeme goes on in what is written behind it, so a minus is a sign exactly before a digit. -/
theorem ofString_text (l : Layout) (hl : l.WellFormed) :
    ∃ tokens, ofString l.text = .ok ⟨l.text, tokens⟩ ∧ tokens.length = l.items.length ∧
      ∀ before gap x after, l.items = before ++ (gap, x) :: after →
        tokens[before.length]? = some (x.token (Layout.mk before gap).text.utf8ByteSize) ∧
          x.EndsBefore (Layout.mk after l.trailing).chars := by
  refine ⟨l.tokens, ofString_layout hl l.toList_text, l.length_tokens, ?_⟩
  intro before gap x after hitems
  refine ⟨?_, hl.endsBefore_of_items_eq hitems⟩
  rw [Layout.getElem?_tokens hitems, Layout.text, Text.utf8ByteSize_ofList]

/-- `12-3<TAB>- 4-* ` has three numbers, of which one has a sign, and three operators. -/
theorem ofString_text_signs_and_operators :
    let l : Layout := ⟨[([], .number ['1', '2']), ([], .number ['-', '3']), (['\t'], .operator .sub),
      ([' '], .number ['4']), ([], .operator .sub), ([], .operator .mul)], [' ']⟩
    l.WellFormed ∧
      ∃ tokens, ofString l.text = .ok ⟨l.text, tokens⟩ ∧ tokens.length = l.items.length ∧
        ∀ before gap x after, l.items = before ++ (gap, x) :: after →
          tokens[before.length]? = some (x.token (Layout.mk before gap).text.utf8ByteSize) ∧
            x.EndsBefore (Layout.mk after l.trailing).chars := by
  intro l
  have hl : l.WellFormed := by decide
  exact ⟨hl, ofString_text l hl⟩

/-- A minus directly before a digit is a sign, also where a number stands directly before it. -/
example :
    let l : Layout := ⟨[([], .number ['1']), ([], .number ['-', '2'])], []⟩
    l.WellFormed ∧ l.text = "1-2" ∧ l.tokens = [.operand 0 1, .operand 1 2] := by decide

end Program

end StackCalc
