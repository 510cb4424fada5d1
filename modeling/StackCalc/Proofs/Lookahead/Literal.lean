import StackCalc.Lookahead.Cursor

/-!
# The literal in front

The front of a text that is a literal goes on for as long as digits follow: `literalInFront` finds
it where there is one, it is the longest (`length_le_literalInFront`), and a literal that no digit
follows is found whole.
-/

namespace StackCalc.Numeral

theorem takeWhile_isDigit_eq_nil_iff {cs : List Char} :
    cs.takeWhile Char.isDigit = [] ↔ cs.head?.any Char.isDigit = false := by
  cases cs with
  | nil => simp
  | cons c cs => rw [List.takeWhile_cons]; cases hc : c.isDigit <;> simp [hc]

theorem takeWhile_isDigit_append {digits behind : List Char} (h : IsDigits digits)
    (hbehind : behind.head?.any Char.isDigit = false) :
    (digits ++ behind).takeWhile Char.isDigit = digits := by
  rw [List.takeWhile_append_of_pos h.2, takeWhile_isDigit_eq_nil_iff.2 hbehind, List.append_nil]

theorem literalInFront_of_head_ne {cs : List Char} (h : ∀ rest, cs ≠ '-' :: rest) :
    literalInFront cs = cs.takeWhile Char.isDigit := by
  rw [literalInFront.eq_2]
  exact fun rest hcs => h rest hcs

theorem literalInFront_minus (rest : List Char) :
    literalInFront ('-' :: rest) =
      if rest.takeWhile Char.isDigit = [] then [] else '-' :: rest.takeWhile Char.isDigit := by
  rw [literalInFront]
  cases rest.takeWhile Char.isDigit <;> rfl

theorem literalInFront_append {text behind : List Char} (h : IsLiteral text)
    (hbehind : behind.head?.any Char.isDigit = false) :
    literalInFront (text ++ behind) = text := by
  unfold IsLiteral at h
  split at h
  next digits =>
    rw [List.cons_append, literalInFront_minus, takeWhile_isDigit_append h hbehind, if_neg h.1]
  next hminus =>
    rw [literalInFront_of_head_ne, takeWhile_isDigit_append h hbehind]
    obtain ⟨d, tail, rfl⟩ := List.exists_cons_of_ne_nil h.1
    rintro rest heq
    exact hminus tail (by rw [(List.cons.inj heq).1])

/-- There is no literal in front exactly where there is no digit and no minus sign before one. -/
theorem literalInFront_cons_eq_nil_iff {c : Char} {behind : List Char} :
    literalInFront (c :: behind) = [] ↔
      c.isDigit = false ∧ (c = '-' → behind.head?.any Char.isDigit = false) := by
  by_cases hminus : c = '-'
  · subst hminus
    rw [literalInFront_minus, ite_eq_left_iff, ← takeWhile_isDigit_eq_nil_iff]
    simp
  · rw [literalInFront_of_head_ne fun rest heq => hminus (List.cons.inj heq).1,
      takeWhile_isDigit_eq_nil_iff]
    simp [hminus]

theorem isDigits_takeWhile {cs : List Char} (h : cs.takeWhile Char.isDigit ≠ []) :
    IsDigits (cs.takeWhile Char.isDigit) :=
  ⟨h, List.all_eq_true.1 List.all_takeWhile⟩

theorem not_isDigit_head_dropWhile (cs : List Char) :
    (cs.dropWhile Char.isDigit).head?.any Char.isDigit = false := by
  have hhead := List.head?_dropWhile_not Char.isDigit cs
  cases hdrop : (cs.dropWhile Char.isDigit).head? with
  | none => rfl
  | some c =>
    rw [hdrop] at hhead
    exact hhead

/-- A literal in front ends where no digit follows. -/
theorem exists_literalInFront_append {cs : List Char} (h : literalInFront cs ≠ []) :
    IsLiteral (literalInFront cs) ∧
      ∃ behind, cs = literalInFront cs ++ behind ∧ behind.head?.any Char.isDigit = false := by
  by_cases hminus : ∃ rest, cs = '-' :: rest
  · obtain ⟨rest, rfl⟩ := hminus
    rw [literalInFront_minus] at h ⊢
    split at h
    next hnil => exact absurd rfl h
    next hdigits =>
      rw [if_neg hdigits]
      refine ⟨isDigits_takeWhile hdigits, rest.dropWhile Char.isDigit, ?_,
        not_isDigit_head_dropWhile rest⟩
      rw [List.cons_append, List.takeWhile_append_dropWhile]
  · rw [not_exists] at hminus
    rw [literalInFront_of_head_ne hminus] at h ⊢
    have hdigits := isDigits_takeWhile h
    refine ⟨?_, cs.dropWhile Char.isDigit, List.takeWhile_append_dropWhile.symm,
      not_isDigit_head_dropWhile cs⟩
    unfold IsLiteral
    split
    next rest heq => exact absurd heq (hdigits.head_ne (by decide) rest)
    next => exact hdigits

theorem length_le_takeWhile {p : Char → Bool} {front cs : List Char} (hfront : front <+: cs)
    (h : ∀ c ∈ front, p c = true) : front.length ≤ (cs.takeWhile p).length := by
  obtain ⟨behind, rfl⟩ := hfront
  rw [List.takeWhile_append_of_pos h, List.length_append]
  exact Nat.le_add_right _ _

/-- No literal in front is longer. -/
theorem length_le_literalInFront {front cs : List Char} (hfront : front <+: cs)
    (h : IsLiteral front) : front.length ≤ (literalInFront cs).length := by
  unfold IsLiteral at h
  split at h
  next digits =>
    obtain ⟨behind, rfl⟩ := hfront
    have hlength : digits.length ≤ ((digits ++ behind).takeWhile Char.isDigit).length :=
      length_le_takeWhile (List.prefix_append _ _) h.2
    have hpos : 0 < digits.length := List.length_pos_iff.2 h.1
    have hne : (digits ++ behind).takeWhile Char.isDigit ≠ [] :=
      List.ne_nil_of_length_pos (by omega)
    rw [List.cons_append, literalInFront_minus, if_neg hne, List.length_cons, List.length_cons]
    omega
  next hminus =>
    have hhead : ∀ rest, cs ≠ '-' :: rest := by
      rintro rest rfl
      obtain ⟨d, tail, rfl⟩ := List.exists_cons_of_ne_nil h.1
      exact hminus tail (by rw [(List.cons_prefix_cons.1 hfront).1])
    rw [literalInFront_of_head_ne hhead]
    exact length_le_takeWhile hfront h.2

end StackCalc.Numeral
