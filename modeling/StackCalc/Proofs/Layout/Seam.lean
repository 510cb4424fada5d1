import Mathlib.Data.List.Basic
import StackCalc.Proofs.Layout.Offsets
import StackCalc.Proofs.Program.Acceptance

/-!
# Texts one after the other

Two layouts that are written one after the other are one layout, with the trailing blanks of the
first before the first lexeme of the second (`Layout.append`). It is well-formed unless a digit
meets what it would be read into, a number or a minus sign, and its tokens are those of the two
layouts (`tokens_append`). So the tokens of a text behind another one are its own tokens, further on
(`tokenize_append`); behind a foreign character there are none.
-/

namespace StackCalc

namespace Token

/-- The token with its offset moved on by `n`. -/
def shift (n : Nat) : Token → Token
  | operand start length => operand (n + start) length
  | operator start op => operator (n + start) op
  | foreign start c => foreign (n + start) c

theorem shift_zero (t : Token) : t.shift 0 = t := by
  cases t <;> simp only [shift, Nat.zero_add]

theorem shift_shift (m n : Nat) (t : Token) : (t.shift n).shift m = t.shift (m + n) := by
  cases t <;> simp only [shift, Nat.add_assoc]

theorem map_shift_zero (tokens : List Token) : tokens.map (shift 0) = tokens := by
  rw [List.map_congr_left fun t _ => t.shift_zero, List.map_id']

theorem map_shift_map_shift (m n : Nat) (tokens : List Token) :
    (tokens.map (shift n)).map (shift m) = tokens.map (shift (m + n)) := by
  rw [List.map_map]
  exact List.map_congr_left fun t _ => t.shift_shift m n

theorem isForeign_shift (n : Nat) (t : Token) : (t.shift n).isForeign = t.isForeign := by
  cases t <;> rfl

end Token

/-- Whether a digit at the front of `b` would be read as a part of what `a` ends with. -/
def RunsInto (a b : List Char) : Prop :=
  (∃ c ∈ a.getLast?, c.isDigit = true ∨ c = '-') ∧ ∃ d ∈ b.head?, d.isDigit = true

theorem RunsInto.append_right {a b : List Char} (h : RunsInto a b) (rest : List Char) :
    RunsInto a (b ++ rest) := by
  obtain ⟨hlast, d, hd, hdigit⟩ := h
  exact ⟨hlast, d, List.mem_head?_append_of_mem_head? hd, hdigit⟩

namespace Numeral

/-- A literal ends with a digit. -/
theorem isDigit_getLast {text : List Char} (h : IsLiteral text) :
    ∃ c ∈ text.getLast?, c.isDigit = true := by
  have hlast : ∀ {digits : List Char}, IsDigits digits → ∃ c ∈ digits.getLast?, c.isDigit = true :=
    fun hdigits => ⟨_, List.getLast?_eq_some_getLast hdigits.1, hdigits.2 _ (List.getLast_mem _)⟩
  unfold IsLiteral at h
  split at h
  next digits =>
    rw [List.getLast?_cons_of_ne_nil h.1]
    exact hlast h
  next => exact hlast h

end Numeral

theorem Lexeme.getLast_of_takesDigit {x : Lexeme} (h : x.IsWritten) (htakes : x.takesDigit = true) :
    ∃ c ∈ x.chars.getLast?, c.isDigit = true ∨ c = '-' := by
  cases x with
  | number text =>
    obtain ⟨c, hc, hdigit⟩ := Numeral.isDigit_getLast h
    exact ⟨c, hc, .inl hdigit⟩
  | operator op =>
    obtain rfl : op = .sub := of_decide_eq_true htakes
    exact ⟨'-', rfl, .inr rfl⟩

namespace Layout

variable {l m : Layout} {xs ys : List (List Char × Lexeme)}

/-- The layout of two texts that are written one after the other. -/
def append (l m : Layout) : Layout :=
  match m.items with
  | [] => ⟨l.items, l.trailing ++ m.trailing⟩
  | (gap, x) :: rest => ⟨l.items ++ (l.trailing ++ gap, x) :: rest, m.trailing⟩

theorem chars_append (l m : Layout) : (l.append m).chars = l.chars ++ m.chars := by
  obtain ⟨items, trailing⟩ := m
  cases items with
  | nil => simp only [append, chars, List.flatMap_nil, List.nil_append, List.append_assoc]
  | cons item rest =>
    simp only [append, chars, List.flatMap_append, List.flatMap_cons, List.append_assoc]

/-- Items are placed one after the other, each behind the text of those before it. -/
theorem placeFrom_append (start : Nat) (xs ys : List (List Char × Lexeme)) :
    placeFrom start (xs ++ ys) =
      placeFrom start xs ++ placeFrom (start + Text.byteLength (Layout.mk xs []).chars) ys := by
  induction xs generalizing start with
  | nil => rfl
  | cons item xs ih =>
    obtain ⟨gap, x⟩ := item
    rw [List.cons_append, placeFrom, placeFrom, ih, chars_cons]
    simp only [Text.byteLength_append, Nat.add_assoc, List.cons_append]

theorem map_token_placeFrom_add (n start : Nat) (items : List (List Char × Lexeme)) :
    (placeFrom (n + start) items).map (fun (here, x) => x.token here) =
      ((placeFrom start items).map fun (here, x) => x.token here).map (Token.shift n) := by
  induction items generalizing start with
  | nil => rfl
  | cons item items ih =>
    obtain ⟨gap, x⟩ := item
    simp only [placeFrom, List.map_cons, Nat.add_assoc, ih]
    cases x <;> rfl

/-- The tokens of the second layout follow those of the first, by its length further on. -/
theorem tokens_append (l m : Layout) :
    (l.append m).tokens = l.tokens ++ m.tokens.map (Token.shift (Text.byteLength l.chars)) := by
  obtain ⟨xs, trailing⟩ := l
  obtain ⟨items, trailing'⟩ := m
  cases items with
  | nil => exact (List.append_nil _).symm
  | cons item rest =>
    obtain ⟨gap, x⟩ := item
    have hstart : Text.byteLength (Layout.mk xs []).chars + Text.byteLength trailing =
        Text.byteLength (Layout.mk xs trailing).chars := by
      simp only [chars, Text.byteLength_append, Text.byteLength_nil, Nat.add_zero]
    have hgap : placeFrom (0 + Text.byteLength (Layout.mk xs []).chars)
          ((trailing ++ gap, x) :: rest) =
        placeFrom (Text.byteLength (Layout.mk xs trailing).chars + 0) ((gap, x) :: rest) := by
      simp only [placeFrom, Text.byteLength_append, ← hstart, Nat.zero_add, Nat.add_zero,
        Nat.add_assoc]
    simp only [tokens, placed, append]
    rw [placeFrom_append, hgap, List.map_append, map_token_placeFrom_add]

theorem isSeparated_append (hx : IsSeparated xs) (hy : IsSeparated ys)
    (hseam : ∀ last ∈ xs.getLast?, ∀ first ∈ ys.head?, first.1 = [] →
      ¬(last.2.takesDigit = true ∧ first.2.startsWithDigit = true)) :
    IsSeparated (xs ++ ys) := by
  induction xs with
  | nil => exact hy
  | cons item xs ih =>
    obtain ⟨gap, x⟩ := item
    rw [isSeparated_cons_iff] at hx
    rw [List.cons_append, isSeparated_cons_iff]
    cases xs with
    | nil => exact ⟨hseam (gap, x) rfl, hy⟩
    | cons next xs =>
      refine ⟨hx.1, ih hx.2 ?_⟩
      rwa [List.getLast?_cons_cons] at hseam

/-- A layout without blanks at its end ends with what its last lexeme ends with. -/
theorem getLast?_chars {gap : List Char} {x : Lexeme} (hx : x.chars ≠ [])
    (hlast : (gap, x) ∈ xs.getLast?) : (Layout.mk xs []).chars.getLast? = x.chars.getLast? := by
  obtain ⟨before, rfl⟩ := List.getLast?_eq_some_iff.1 hlast
  rw [chars_split, chars_nil, List.append_nil, List.getLast?_append_of_ne_nil _ hx]

/-- A layout without blanks at its front starts with what its first lexeme starts with. -/
theorem head?_chars_cons {trailing : List Char} {x : Lexeme} (hx : x.IsWritten) :
    (Layout.mk (([], x) :: xs) trailing).chars.head? = x.chars.head? := by
  rw [chars_cons, List.nil_append, head?_chars_append hx]

theorem WellFormed.append (hl : l.WellFormed) (hm : m.WellFormed)
    (hseam : ¬RunsInto l.chars m.chars) : (l.append m).WellFormed := by
  obtain ⟨xs, trailing⟩ := l
  obtain ⟨items, trailing'⟩ := m
  cases items with
  | nil =>
    exact {
      gaps_blank := hl.gaps_blank
      trailing_blank := List.forall_mem_append.2 ⟨hl.trailing_blank, hm.trailing_blank⟩
      written := hl.written
      separated := hl.separated }
  | cons item rest =>
    obtain ⟨gap, x⟩ := item
    have hgap := hm.gaps_blank (gap, x) List.mem_cons_self
    have hx : x.IsWritten := hm.written (gap, x) List.mem_cons_self
    refine {
      gaps_blank := ?_
      trailing_blank := hm.trailing_blank
      written :=
        List.forall_mem_append.2 ⟨hl.written, List.forall_mem_cons.2 ⟨hx, hm.of_cons.written⟩⟩
      separated := isSeparated_append hl.separated hm.separated ?_ }
    · refine List.forall_mem_append.2 ⟨hl.gaps_blank, List.forall_mem_cons.2 ⟨?_, ?_⟩⟩
      · exact List.forall_mem_append.2 ⟨hl.trailing_blank, hgap⟩
      · exact hm.of_cons.gaps_blank
    · rintro ⟨gap', y⟩ hlast first hfirst hempty ⟨htakes, hdigit⟩
      obtain rfl : (trailing ++ gap, x) = first := Option.some.inj hfirst
      obtain ⟨rfl, rfl⟩ := List.append_eq_nil_iff.1 hempty
      have hy : y.IsWritten := hl.written (gap', y) (List.mem_of_getLast? hlast)
      apply hseam
      rw [RunsInto, getLast?_chars (Lexeme.chars_ne_nil hy) hlast, head?_chars_cons hx]
      exact ⟨Lexeme.getLast_of_takesDigit hy htakes, (Option.any_eq_true _ _).1 hdigit⟩

end Layout

theorem map_shift_foreignTokens (n start : Nat) (tail : List Char) :
    (foreignTokens start tail).map (Token.shift n) = foreignTokens (n + start) tail := by
  cases tail <;> rfl

variable {a b : List Char}

/-- A text without foreign characters is a layout. -/
theorem exists_layout_of_not_isForeign (h : ∀ t ∈ tokenize a, t.isForeign = false) :
    ∃ l : Layout, l.WellFormed ∧ a = l.chars := by
  obtain ⟨l, tail, rfl, hl, htail⟩ := Layout.exists_layout_append a
  cases tail with
  | nil => exact ⟨l, hl, List.append_nil _⟩
  | cons c after =>
    rw [tokenize_foreign hl (htail c rfl)] at h
    exact absurd (h _ (List.mem_append_right _ List.mem_cons_self)) (by simp [Token.isForeign])

theorem length_of_not_isForeign (h : ∀ t ∈ tokenize a, t.isForeign = false) :
    Text.byteLength a = a.length := by
  obtain ⟨l, hl, rfl⟩ := exists_layout_of_not_isForeign h
  exact byteLength_of_subset_alphabet hl.chars_subset_alphabet

/-- Nothing behind a foreign character counts. -/
theorem tokenize_append_of_isForeign (h : ∃ t ∈ tokenize a, t.isForeign = true) (b : List Char) :
    tokenize (a ++ b) = tokenize a := by
  obtain ⟨l, tail, rfl, hl, htail⟩ := Layout.exists_layout_append a
  cases tail with
  | nil =>
    rw [List.append_nil, tokenize_layout hl] at h
    obtain ⟨t, ht, hforeign⟩ := h
    simp [l.isForeign_tokens t ht] at hforeign
  | cons c after =>
    rw [List.append_assoc, List.cons_append, tokenize_foreign hl (htail c rfl),
      tokenize_foreign hl (htail c rfl)]

/-- Behind a text without foreign characters, another text has its own tokens, further on. -/
theorem tokenize_append (h : ∀ t ∈ tokenize a, t.isForeign = false) (hseam : ¬RunsInto a b) :
    tokenize (a ++ b) = tokenize a ++ (tokenize b).map (Token.shift (Text.byteLength a)) := by
  obtain ⟨l, hl, rfl⟩ := exists_layout_of_not_isForeign h
  obtain ⟨m, tail, rfl, hm, htail⟩ := Layout.exists_layout_append b
  have happend := hl.append hm fun hruns => hseam (hruns.append_right tail)
  rw [← List.append_assoc, ← Layout.chars_append, tokenize_layout hl,
    tokenize_layout_append happend htail, tokenize_layout_append hm htail, Layout.tokens_append,
    Layout.chars_append, List.map_append, map_shift_foreignTokens, List.append_assoc,
    List.length_append, byteLength_of_subset_alphabet hl.chars_subset_alphabet]

theorem not_runsInto_of_isBlank_head (a : List Char) (h : ∀ c ∈ b.head?, isBlank c = true) :
    ¬RunsInto a b := by
  rintro ⟨-, d, hd, hdigit⟩
  simp [not_isDigit_of_isBlank (h d hd)] at hdigit

theorem not_runsInto_of_isBlank (h : ∀ c ∈ a, isBlank c = true) (b : List Char) :
    ¬RunsInto a b := by
  rintro ⟨⟨c, hc, hlast⟩, -⟩
  have hblank := h c (List.mem_of_getLast? hc)
  rcases hlast with hdigit | rfl
  · simp [not_isDigit_of_isBlank hblank] at hdigit
  · simp [isBlank] at hblank

theorem tokenize_of_isBlank (h : ∀ c ∈ a, isBlank c = true) : tokenize a = [] :=
  tokenize_layout (Layout.wellFormed_nil h)

/-- Blanks in front move the tokens of a text on. -/
theorem tokenize_gap_append (h : ∀ c ∈ a, isBlank c = true) (b : List Char) :
    tokenize (a ++ b) = (tokenize b).map (Token.shift (Text.byteLength a)) := by
  have hnil := tokenize_of_isBlank h
  rw [tokenize_append (by simp [hnil]) (not_runsInto_of_isBlank h b), hnil, List.nil_append]

/-- The tokens of a part between blanks are its own, and then come those of what follows it. -/
theorem tokenize_gap_append_append {gap part rest : List Char}
    (hgap : ∀ c ∈ gap, isBlank c = true) (hpart : ∀ t ∈ tokenize part, t.isForeign = false)
    (hrest : ∀ c ∈ rest.head?, isBlank c = true) :
    tokenize (gap ++ (part ++ rest)) =
      (tokenize part).map (Token.shift (Text.byteLength gap)) ++
        (tokenize rest).map (Token.shift (Text.byteLength (gap ++ part))) := by
  rw [tokenize_gap_append hgap, tokenize_append hpart (not_runsInto_of_isBlank_head part hrest),
    List.map_append, Token.map_shift_map_shift, Text.byteLength_append]

/-- A text with a foreign character has the same tokens whatever is written behind it. A text
    without one is followed by the tokens of the text behind it, further on by its length, unless a
    digit there meets a digit or a minus sign. These lists are what a stream gives token by token.
    -/
theorem tokenize_across_seam (a b : String) :
    ((∃ t ∈ tokenize a.toList, t.isForeign = true) →
      tokenize (a ++ b).toList = tokenize a.toList) ∧
    ((∀ t ∈ tokenize a.toList, t.isForeign = false) → ¬RunsInto a.toList b.toList →
      tokenize (a ++ b).toList =
        tokenize a.toList ++ (tokenize b.toList).map (Token.shift a.length) ∧
      a.utf8ByteSize = a.length) ∧
    ∀ n, (TokenStream.advance^[n] (TokenStream.ofList (a ++ b).toList)).next.1 =
      (tokenize (a ++ b).toList)[n]? := by
  rw [String.toList_append]
  refine ⟨?_, ?_, next_iterate_ofList _⟩
  · intro hforeign
    exact tokenize_append_of_isForeign hforeign b.toList
  · intro hnone hseam
    have hlength : Text.byteLength a.toList = a.length :=
      (length_of_not_isForeign hnone).trans String.length_toList
    refine ⟨?_, (Text.byteLength_toList a).symm.trans hlength⟩
    rw [tokenize_append hnone hseam, hlength]

/-- A minus sign that ends a text is an operator there, and another one may follow it. -/
theorem tokenize_across_seam_minus :
    (∀ t ∈ tokenize "3 -".toList, t.isForeign = false) ∧ ¬RunsInto "3 -".toList "-4é".toList ∧
      tokenize ("3 -" ++ "-4é").toList =
        tokenize "3 -".toList ++ (tokenize "-4é".toList).map (Token.shift 3) := by
  have hnone : ∀ t ∈ tokenize "3 -".toList, t.isForeign = false := by decide +kernel
  have hseam : ¬RunsInto "3 -".toList "-4é".toList := by simp [RunsInto]
  exact ⟨hnone, hseam, ((tokenize_across_seam "3 -" "-4é").2.1 hnone hseam).1⟩

end StackCalc
