import StackCalc.Text.Quoted

/-!
# Reading quoted text

`unquote?` reads back what `quoted` writes: it takes a quoted text off the front of a sequence of
characters and gives the characters that it stands for, with what follows the closing quote. It does
not depend on which characters are hidden, so one reader serves every choice of them
(`unquote?_quoted`).
-/

namespace StackCalc.Text

/-- The value of a hexadecimal digit in lower case. -/
def hexValue? (c : Char) : Option Nat :=
  if '0' ≤ c ∧ c ≤ '9' then some (c.toNat - '0'.toNat)
  else if 'a' ≤ c ∧ c ≤ 'f' then some (c.toNat - 'a'.toNat + 10)
  else none

/-- Reads hexadecimal digits up to a closing brace and gives the number that they denote together
    with `n`, the number of the digits before them, and with what follows the brace. -/
def readCodePoint? (n : Nat) : List Char → Option (Nat × List Char)
  | [] => none
  | c :: rest =>
    if c = '}' then some (n, rest)
    else match hexValue? c with
      | some d => readCodePoint? (16 * n + d) rest
      | none => none

/-- Reads what follows a backslash and gives the character that is meant. -/
def unescape? : List Char → Option (Char × List Char)
  | '0' :: rest => some ('\x00', rest)
  | 't' :: rest => some ('\t', rest)
  | 'n' :: rest => some ('\n', rest)
  | 'r' :: rest => some ('\r', rest)
  | '\\' :: rest => some ('\\', rest)
  | '"' :: rest => some ('"', rest)
  | '\'' :: rest => some ('\'', rest)
  | 'u' :: '{' :: rest => (readCodePoint? 0 rest).map fun (n, after) => (Char.ofNat n, after)
  | _ => none

theorem length_readCodePoint?_lt {n m : Nat} {cs after : List Char}
    (h : readCodePoint? n cs = some (m, after)) : after.length < cs.length := by
  induction cs generalizing n with
  | nil => simp [readCodePoint?] at h
  | cons c cs ih =>
    rw [readCodePoint?] at h
    split at h
    next =>
      obtain ⟨-, rfl⟩ := Prod.mk.inj (Option.some.inj h)
      simp
    next =>
      split at h
      next d => exact Nat.lt_succ_of_lt (ih h)
      next => simp at h

theorem length_unescape?_lt {c : Char} {cs after : List Char}
    (h : unescape? cs = some (c, after)) : after.length < cs.length := by
  unfold unescape? at h
  split at h
  case h_8 rest =>
    obtain ⟨⟨n, tail⟩, hread, hpair⟩ := Option.map_eq_some_iff.1 h
    obtain ⟨-, rfl⟩ := Prod.mk.inj hpair
    have hlt := length_readCodePoint?_lt hread
    simp only [List.length_cons]
    omega
  all_goals simp_all

/-- Reads up to the closing quote. -/
def unquoteBody? (quote : Char) (cs : List Char) : Option (List Char × List Char) :=
  match cs with
  | [] => none
  | c :: rest =>
    if c = quote then some ([], rest)
    else if c = '\\' then
      match _h : unescape? rest with
      | some (d, after) => (unquoteBody? quote after).map fun (ds, tail) => (d :: ds, tail)
      | none => none
    else (unquoteBody? quote rest).map fun (ds, tail) => (c :: ds, tail)
termination_by cs.length
decreasing_by
  · exact Nat.lt_succ_of_lt (length_unescape?_lt _h)
  · simp

/-- Reads a quoted text. -/
def unquote? (quote : Char) : List Char → Option (List Char × List Char)
  | [] => none
  | c :: rest => if c = quote then unquoteBody? quote rest else none

theorem hexValue?_digitChar {d : Nat} (h : d < 16) : hexValue? d.digitChar = some d := by
  have hall : ∀ d : Fin 16, hexValue? (Nat.digitChar d) = some d.val := by decide
  exact hall ⟨d, h⟩

theorem digitChar_ne_closing {d : Nat} (h : d < 16) : d.digitChar ≠ '}' := by
  have hall : ∀ d : Fin 16, Nat.digitChar d ≠ '}' := by decide
  exact hall ⟨d, h⟩

theorem readCodePoint?_digitChar {n d : Nat} (h : d < 16) (cs : List Char) :
    readCodePoint? n (d.digitChar :: cs) = readCodePoint? (16 * n + d) cs := by
  rw [readCodePoint?, if_neg (digitChar_ne_closing h), hexValue?_digitChar h]

/-- Digits that were read count as the number that they denote. -/
theorem readCodePoint?_toDigits (n : Nat) (cs : List Char) :
    readCodePoint? 0 (Nat.toDigits 16 n ++ cs) = readCodePoint? n cs := by
  induction n using Nat.strongRecOn generalizing cs with
  | ind n ih =>
    rw [Nat.toDigits_eq_if (by decide)]
    split
    next hlt => simpa using readCodePoint?_digitChar (n := 0) hlt cs
    next hge =>
      have hdiv : n / 16 < n := Nat.div_lt_self (by omega) (by decide)
      rw [List.append_assoc, ih _ hdiv, List.singleton_append,
        readCodePoint?_digitChar (Nat.mod_lt _ (by decide)), Nat.div_add_mod]

theorem unescape?_codePoint (c : Char) (cs : List Char) :
    unescape? ('u' :: '{' :: (Nat.toDigits 16 c.toNat ++ '}' :: cs)) = some (c, cs) := by
  simp [unescape?, readCodePoint?_toDigits, readCodePoint?]

theorem unescape?_escapeLetter {c letter : Char} (h : escapeLetter? c = some letter)
    (cs : List Char) : unescape? (letter :: cs) = some (c, cs) := by
  unfold escapeLetter? at h
  split at h <;> simp_all <;> subst h <;> rfl

/-- An escaped character is read back as itself. -/
theorem unquoteBody?_escape {hidden : Char → Bool} {quote : Char}
    (hquote : quote = '"' ∨ quote = '\'') (c : Char) (cs : List Char) :
    unquoteBody? quote (escape hidden quote c ++ cs) =
      (unquoteBody? quote cs).map fun (ds, tail) => (c :: ds, tail) := by
  have hbackslash : '\\' ≠ quote := by rcases hquote with rfl | rfl <;> decide
  have hescaped : ∀ body, unescape? body = some (c, cs) →
      unquoteBody? quote ('\\' :: body) =
        (unquoteBody? quote cs).map fun (ds, tail) => (c :: ds, tail) := by
    intro body hbody
    rw [unquoteBody?, if_neg hbackslash, if_pos rfl]
    split
    next d after h =>
      obtain ⟨rfl, rfl⟩ := Prod.mk.inj (Option.some.inj (hbody.symm.trans h))
      rfl
    next h => simp [hbody] at h
  unfold escape
  split
  next letter hletter => exact hescaped _ (unescape?_escapeLetter hletter cs)
  next hletter =>
    split
    next hc =>
      subst hc
      apply hescaped
      rcases hquote with rfl | rfl <;> rfl
    next hc =>
      split
      next =>
        simp only [escapeCodePoint, List.cons_append, List.nil_append, List.append_assoc]
        exact hescaped _ (unescape?_codePoint c cs)
      next =>
        have hplain : c ≠ '\\' := by
          rintro rfl
          simp [escapeLetter?] at hletter
        rw [List.singleton_append, unquoteBody?, if_neg hc, if_neg hplain]

/-- A quoted text is read back as the characters that were quoted, whatever follows it. -/
theorem unquote?_quoted {hidden : Char → Bool} {quote : Char}
    (hquote : quote = '"' ∨ quote = '\'') (cs rest : List Char) :
    unquote? quote (quoted hidden quote cs ++ rest) = some (cs, rest) := by
  have hbody : unquoteBody? quote (cs.flatMap (escape hidden quote) ++ quote :: rest) =
      some (cs, rest) := by
    induction cs with
    | nil => simp [unquoteBody?]
    | cons c cs ih => simp [List.append_assoc, unquoteBody?_escape hquote, ih]
  simpa [unquote?, quoted] using hbody

end StackCalc.Text
