import Mathlib.Algebra.Group.Nat.Defs
import StackCalc.Numeral

/-!
# The number that a numeral denotes

What a numeral denotes is said by the places of its digits: a digit counts for ten times as much as it
would one place further back (`placeValue`). Reading a numeral takes the digits one by one from the
front instead. Both come to the same, so a text is read as a number exactly if it denotes this number
(`value?_eq_some_iff`). A text denotes one number at most (`Denotes.unique`), also where it stands in
front of other text: it ends where a character is no part of a numeral (`Denotes.append_inj`).
-/

namespace StackCalc.Numeral

/-- The sum of the digits, each times the power of ten of its place. -/
def placeValue : List Char → Nat
  | [] => 0
  | c :: cs => (c.toNat - '0'.toNat) * 10 ^ cs.length + placeValue cs

/-- Which integer a text denotes in base ten: it consists of digits, at least one, with or without a
    sign in front of them. -/
inductive Denotes : List Char → Int → Prop
  | unsigned {digits : List Char} (h : IsDigits digits) : Denotes digits (placeValue digits)
  | plus {digits : List Char} (h : IsDigits digits) : Denotes ('+' :: digits) (placeValue digits)
  | minus {digits : List Char} (h : IsDigits digits) :
      Denotes ('-' :: digits) (-(placeValue digits : Int))

/-- The characters that numerals consist of. -/
def isPart (c : Char) : Bool := c.isDigit || c == '+' || c == '-'

variable {cs ds xs ys : List Char} {n m : Int}

theorem ofDigitChars_eq_placeValue (cs : List Char) : Nat.ofDigitChars 10 cs 0 = placeValue cs := by
  induction cs with
  | nil => rfl
  | cons c cs ih =>
    rw [Nat.ofDigitChars_cons, Nat.ofDigitChars_eq_ofDigitChars_zero, ih, placeValue, Nat.mul_zero,
      Nat.zero_add, Nat.mul_comm]

theorem map_magnitude?_eq_some_iff {f : Int → Int} :
    (magnitude? cs).map f = some n ↔ IsDigits cs ∧ f (placeValue cs) = n := by
  rw [magnitude?, ofDigitChars_eq_placeValue]
  by_cases h : IsDigits cs <;> simp [h]

/-- A text is read as the number that it denotes; a text that denotes none is not read. -/
theorem value?_eq_some_iff : value? cs = some n ↔ Denotes cs n := by
  constructor
  · intro h
    unfold value? at h
    split at h
    all_goals obtain ⟨hdigits, rfl⟩ := map_magnitude?_eq_some_iff.1 h
    next => exact .minus hdigits
    next => exact .plus hdigits
    next => exact .unsigned hdigits
  · rintro (hdigits | hdigits | hdigits)
    · rw [value?_of_isDigits hdigits]
      exact map_magnitude?_eq_some_iff.2 ⟨hdigits, rfl⟩
    · exact map_magnitude?_eq_some_iff.2 ⟨hdigits, rfl⟩
    · exact map_magnitude?_eq_some_iff.2 ⟨hdigits, rfl⟩

theorem Denotes.unique (hn : Denotes cs n) (hm : Denotes cs m) : n = m :=
  Option.some.inj ((value?_eq_some_iff.2 hn).symm.trans (value?_eq_some_iff.2 hm))

theorem denotes_toDigits (n : Nat) : Denotes (Nat.toDigits 10 n) n := by
  have h := Denotes.unsigned (isDigits_toDigits n)
  rwa [← ofDigitChars_eq_placeValue, Nat.ofDigitChars_ten_toDigits] at h

theorem denotes_decimal (n : Int) : Denotes (decimal n) n :=
  value?_eq_some_iff.1 (value?_decimal n)

theorem Denotes.ne_nil (h : Denotes cs n) : cs ≠ [] := by
  cases h with
  | unsigned h => exact h.1
  | plus h => exact List.cons_ne_nil _ _
  | minus h => exact List.cons_ne_nil _ _

theorem IsDigits.forall_isPart (h : IsDigits cs) : ∀ c ∈ cs, isPart c = true := by
  intro c hc
  simp only [isPart, h.2 c hc, Bool.true_or]

theorem Denotes.forall_isPart (h : Denotes cs n) : ∀ c ∈ cs, isPart c = true := by
  cases h with
  | unsigned h => exact h.forall_isPart
  | plus h => exact List.forall_mem_cons.2 ⟨by decide, h.forall_isPart⟩
  | minus h => exact List.forall_mem_cons.2 ⟨by decide, h.forall_isPart⟩

theorem Denotes.append_ne_cons (h : Denotes cs n) {c : Char} (hc : isPart c = false) :
    cs ++ xs ≠ c :: ys := by
  intro heq
  obtain ⟨d, ds, rfl⟩ := List.exists_cons_of_ne_nil h.ne_nil
  obtain ⟨rfl, -⟩ := List.cons.inj heq
  simp [h.forall_isPart d List.mem_cons_self] at hc

theorem isPart_head?_cons {c : Char} (hc : isPart c = false) (cs : List Char) :
    ∀ d ∈ (c :: cs).head?, isPart d = false := by
  intro d hd
  obtain rfl := Option.some.inj hd
  exact hc

theorem Denotes.takeWhile_append (h : Denotes cs n) (hxs : ∀ c ∈ xs.head?, isPart c = false) :
    (cs ++ xs).takeWhile isPart = cs := by
  have hnil : xs.takeWhile isPart = [] := by
    cases xs with
    | nil => rfl
    | cons c xs => rw [List.takeWhile_cons_of_neg (by simp [hxs c rfl])]
  rw [List.takeWhile_append_of_pos h.forall_isPart, hnil, List.append_nil]

/-- A numeral ends where a character stands that is no part of one. -/
theorem Denotes.append_inj (h : Denotes cs n) (h' : Denotes ds m)
    (hxs : ∀ c ∈ xs.head?, isPart c = false) (hys : ∀ c ∈ ys.head?, isPart c = false)
    (heq : cs ++ xs = ds ++ ys) : n = m ∧ xs = ys := by
  have hcs : cs = ds := by
    rw [← h.takeWhile_append hxs, heq, h'.takeWhile_append hys]
  subst hcs
  exact ⟨h.unique h', List.append_cancel_left heq⟩

/-- The form of a literal is enough for it to denote a number. -/
theorem IsLiteral.exists_denotes (h : IsLiteral cs) : ∃ n, Denotes cs n := by
  unfold IsLiteral at h
  split at h
  next digits => exact ⟨_, .minus h⟩
  next => exact ⟨_, .unsigned h⟩

end StackCalc.Numeral
