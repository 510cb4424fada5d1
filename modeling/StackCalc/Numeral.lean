/-!
# Numerals

The text of an integer in base ten. `value?` reads one: an optional sign and then digits, at least
one, of any number and with any number of zeros in front. `decimal` writes one in its shortest
form, and `value?_decimal` says that reading returns what was written. A literal (`IsLiteral`) is
the narrower form that stands in the text of a program: it may have a minus sign but no plus sign,
since a plus sign is always an operator there.
-/

namespace StackCalc.Numeral

/-- A run of decimal digits, at least one. -/
def IsDigits (cs : List Char) : Prop := cs ≠ [] ∧ ∀ c ∈ cs, c.isDigit = true

instance (cs : List Char) : Decidable (IsDigits cs) :=
  decidable_of_iff (cs ≠ [] ∧ cs.all Char.isDigit = true) (and_congr_right' List.all_eq_true)

/-- Digits with an optional minus sign in front. -/
def IsLiteral : List Char → Prop
  | '-' :: cs => IsDigits cs
  | cs => IsDigits cs

/-- Behind the minus sign, if there is one, a literal is a run of digits. -/
theorem isLiteral_iff {cs : List Char} :
    IsLiteral cs ↔ IsDigits (if cs.head? = some '-' then cs.tail else cs) := by
  unfold IsLiteral
  split
  next digits => rfl
  next hminus =>
    have hhead : cs.head? ≠ some '-' := by
      intro h
      obtain ⟨digits, rfl⟩ := List.head?_eq_some_iff.1 h
      exact hminus digits rfl
    rw [if_neg hhead]

instance (cs : List Char) : Decidable (IsLiteral cs) := decidable_of_iff _ isLiteral_iff.symm

/-- The number that a run of digits denotes. -/
def magnitude? (cs : List Char) : Option Nat :=
  if IsDigits cs then some (Nat.ofDigitChars 10 cs 0) else none

/-- The integer that a text denotes. -/
def value? : List Char → Option Int
  | '-' :: cs => (magnitude? cs).map fun n => -(n : Int)
  | '+' :: cs => (magnitude? cs).map fun n => (n : Int)
  | cs => (magnitude? cs).map fun n => (n : Int)

/-- The digits of an integer, without zeros in front and with a minus sign if it is negative. -/
def decimal (n : Int) : List Char :=
  if n < 0 then '-' :: Nat.toDigits 10 n.natAbs else Nat.toDigits 10 n.natAbs

theorem isDigits_toDigits (n : Nat) : IsDigits (Nat.toDigits 10 n) :=
  ⟨Nat.toDigits_ne_nil, fun _ h => Nat.isDigit_of_mem_toDigits (by decide) (by decide) h⟩

@[simp] theorem magnitude?_toDigits (n : Nat) : magnitude? (Nat.toDigits 10 n) = some n := by
  rw [magnitude?, if_pos (isDigits_toDigits n), Nat.ofDigitChars_ten_toDigits]

/-- A run of digits starts with neither sign. -/
theorem IsDigits.head_ne {cs : List Char} (h : IsDigits cs) {sign : Char}
    (hsign : sign.isDigit = false) (rest : List Char) : cs ≠ sign :: rest := by
  rintro rfl
  exact absurd (h.2 sign List.mem_cons_self) (by simp [hsign])

theorem value?_of_isDigits {cs : List Char} (h : IsDigits cs) :
    value? cs = (magnitude? cs).map fun n => (n : Int) := by
  unfold value?
  split
  · exact absurd rfl (h.head_ne (by decide) _)
  · exact absurd rfl (h.head_ne (by decide) _)
  · rfl

/-- Reading the decimal text of an integer returns the integer. -/
theorem value?_decimal (n : Int) : value? (decimal n) = some n := by
  unfold decimal
  split
  next h =>
    have habs : -(n.natAbs : Int) = n := by omega
    rw [value?, magnitude?_toDigits]
    exact congrArg some habs
  next h =>
    have habs : (n.natAbs : Int) = n := by omega
    rw [value?_of_isDigits (isDigits_toDigits _), magnitude?_toDigits]
    exact congrArg some habs

theorem isLiteral_decimal (n : Int) : IsLiteral (decimal n) := by
  rw [isLiteral_iff, decimal]
  by_cases hn : n < 0
  · rw [if_pos hn]
    exact isDigits_toDigits n.natAbs
  · have hdigits := isDigits_toDigits n.natAbs
    have hhead : (Nat.toDigits 10 n.natAbs).head? ≠ some '-' := by
      intro h
      obtain ⟨rest, hrest⟩ := List.head?_eq_some_iff.1 h
      exact hdigits.head_ne (by decide) rest hrest
    rw [if_neg hn, if_neg hhead]
    exact hdigits

end StackCalc.Numeral
