import StackCalc.Layout

/-!
# The alphabet of programs

The characters that a program may contain, written out, and the classes that the reader tells apart
among them: blanks, digits and operators. All of them take one byte, so that in a text over the
alphabet byte offsets and character offsets are the same.
-/

namespace StackCalc

/-- The characters that a program may contain. -/
def alphabet : List Char :=
  [' ', '\t', '0', '1', '2', '3', '4', '5', '6', '7', '8', '9', '+', '-', '*', '/']

variable {c : Char} {cs : List Char}

theorem isDigit_iff_mem :
    c.isDigit = true ↔ c ∈ ['0', '1', '2', '3', '4', '5', '6', '7', '8', '9'] := by
  constructor
  · intro h
    simp only [Char.isDigit, Bool.and_eq_true, decide_eq_true_eq, ge_iff_le,
      UInt32.le_iff_toNat_le] at h
    have hlow : 48 ≤ c.toNat := h.1
    have hhigh : c.toNat ≤ 57 := h.2
    have hall : ∀ d : Fin 10, Char.ofNat (48 + d.val) ∈
        ['0', '1', '2', '3', '4', '5', '6', '7', '8', '9'] := by decide
    have hc := hall ⟨c.toNat - 48, by omega⟩
    rwa [Nat.add_sub_cancel' hlow, Char.ofNat_toNat] at hc
  · intro h
    have hall : ['0', '1', '2', '3', '4', '5', '6', '7', '8', '9'].all Char.isDigit = true := by
      decide
    exact List.all_eq_true.1 hall c h

theorem mem_alphabet_iff :
    c ∈ alphabet ↔ isBlank c = true ∨ c.isDigit = true ∨ (Operator.ofSymbol? c).isSome = true := by
  constructor
  · intro h
    have hall : alphabet.all
        (fun c => isBlank c || (c.isDigit || (Operator.ofSymbol? c).isSome)) = true := by decide
    have hc := List.all_eq_true.1 hall c h
    simpa only [Bool.or_eq_true] using hc
  · rintro (hblank | hdigit | hop)
    · simp only [isBlank, Bool.or_eq_true, beq_iff_eq] at hblank
      rcases hblank with rfl | rfl <;> decide
    · rw [isDigit_iff_mem] at hdigit
      have hmem := List.mem_append_left ['+', '-', '*', '/'] hdigit
      exact List.mem_cons_of_mem _ (List.mem_cons_of_mem _ hmem)
    · obtain ⟨op, hop⟩ := Option.isSome_iff_exists.1 hop
      obtain rfl := Operator.ofSymbol?_eq_some_iff.1 hop
      cases op <;> decide

theorem not_isBlank_of_notMem (h : c ∉ alphabet) : isBlank c = false := by
  rw [← Bool.not_eq_true]
  exact fun hblank => h (mem_alphabet_iff.2 (.inl hblank))

theorem not_isDigit_of_notMem (h : c ∉ alphabet) : c.isDigit = false := by
  rw [← Bool.not_eq_true]
  exact fun hdigit => h (mem_alphabet_iff.2 (.inr (.inl hdigit)))

theorem ofSymbol?_of_notMem (h : c ∉ alphabet) : Operator.ofSymbol? c = none := by
  rw [← Option.not_isSome_iff_eq_none]
  exact fun hop => h (mem_alphabet_iff.2 (.inr (.inr hop)))

theorem not_isDigit_of_isBlank (h : isBlank c = true) : c.isDigit = false := by
  simp only [isBlank, Bool.or_eq_true, beq_iff_eq] at h
  rcases h with rfl | rfl <;> rfl

theorem Operator.not_isBlank_symbol (op : Operator) : isBlank op.symbol = false := by
  cases op <;> rfl

theorem Operator.not_isDigit_symbol (op : Operator) : op.symbol.isDigit = false := by
  cases op <;> rfl

theorem utf8Size_of_mem_alphabet (h : c ∈ alphabet) : c.utf8Size = 1 := by
  have hall : alphabet.all (fun c => c.utf8Size == 1) = true := by decide
  exact eq_of_beq (List.all_eq_true.1 hall c h)

theorem byteLength_of_subset_alphabet (h : ∀ c ∈ cs, c ∈ alphabet) :
    Text.byteLength cs = cs.length := by
  induction cs with
  | nil => rfl
  | cons c cs ih =>
    rw [Text.byteLength_cons, utf8Size_of_mem_alphabet (h c List.mem_cons_self),
      ih fun d hd => h d (List.mem_cons_of_mem c hd), List.length_cons, Nat.add_comm]

theorem subset_alphabet_of_isBlank (h : ∀ c ∈ cs, isBlank c = true) : ∀ c ∈ cs, c ∈ alphabet :=
  fun c hc => mem_alphabet_iff.2 (.inl (h c hc))

namespace Lexeme

variable {x : Lexeme}

theorem chars_ne_nil (h : x.IsWritten) : x.chars ≠ [] := by
  cases x with
  | operator op => exact List.cons_ne_nil _ _
  | number text =>
    rintro rfl
    exact h.1 rfl

theorem chars_subset_alphabet (h : x.IsWritten) : ∀ c ∈ x.chars, c ∈ alphabet := by
  have hdigits : ∀ {cs : List Char}, Numeral.IsDigits cs → ∀ c ∈ cs, c ∈ alphabet :=
    fun h c hc => mem_alphabet_iff.2 (.inr (.inl (h.2 c hc)))
  cases x with
  | operator op =>
    intro c hc
    obtain rfl := List.mem_singleton.1 hc
    cases op <;> decide
  | number text =>
    simp only [IsWritten, Numeral.IsLiteral] at h
    split at h
    next digits =>
      intro c hc
      rcases List.mem_cons.1 hc with rfl | hc
      · decide
      · exact hdigits h c hc
    next => exact hdigits h

/-- A lexeme starts with a digit, or with a character that is neither a digit nor a blank. -/
theorem not_isBlank_head (h : x.IsWritten) : ∀ c ∈ x.chars.head?, isBlank c = false := by
  intro c hc
  rw [← Bool.not_eq_true]
  intro hblank
  cases x with
  | operator op =>
    obtain rfl : op.symbol = c := Option.some.inj hc
    simp [op.not_isBlank_symbol] at hblank
  | number text =>
    simp only [IsWritten, Numeral.IsLiteral] at h
    split at h
    next digits =>
      obtain rfl : '-' = c := Option.some.inj hc
      simp [isBlank] at hblank
    next =>
      have hdigit := h.2 c (List.mem_of_mem_head? hc)
      simp [not_isDigit_of_isBlank hblank] at hdigit

end Lexeme

end StackCalc
