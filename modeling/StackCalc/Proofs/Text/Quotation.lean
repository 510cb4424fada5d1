import StackCalc.Text.Unquoted

/-!
# What stands between quotes

A quoted text keeps what it quotes between its quotes and in sight. Each character is shown by a piece
of its own (`escape_cases`): by itself, or by a backslash with what that escapes, in which there is no
other backslash and no bare quote. So a piece leaves nothing escaped behind it, the quotes of the text
all stand behind a backslash, and the first quote that does not is the closing one (`IsContained`).
No piece has a hidden character, whatever it stands for (`isVisible_shown`).
-/

namespace StackCalc.Text

/-- The characters of a text as they stand between quotes. -/
def shown (hidden : Char → Bool) (quote : Char) (cs : List Char) : List Char :=
  cs.flatMap (escape hidden quote)

/-- Whether the character behind `cs` is escaped: a backslash escapes what is behind it, unless it is
    escaped itself. -/
def escapesNext (cs : List Char) : Bool := cs.foldl (fun escaped c => !escaped && c == '\\') false

/-- What quotes enclose cannot end them. -/
structure IsContained (hidden : Char → Bool) (quote : Char) (cs : List Char) : Prop where
  /-- Each quote and each backslash of the text is escaped by a backslash of its own. -/
  escaped : ∀ before c after, cs = before ++ c :: after → c = quote ∨ c = '\\' →
    shown hidden quote cs = shown hidden quote before ++ '\\' :: c :: shown hidden quote after ∧
      escapesNext (shown hidden quote before) = false
  /-- No quote stands there that is not escaped. -/
  none_bare : ∀ front back, shown hidden quote cs = front ++ quote :: back →
    escapesNext front = true
  /-- The closing quote is not escaped. -/
  closes : escapesNext (shown hidden quote cs) = false
  /-- The text is read back, whatever stands behind the closing quote. -/
  reads_back : ∀ rest, unquote? quote (quote :: shown hidden quote cs ++ quote :: rest) =
    some (cs, rest)

/-- No character of the text is hidden. -/
def IsVisible (cs : List Char) : Prop := ∀ c ∈ cs, isHidden c = false

/-- The characters that begin a new line or control a display. -/
def IsControl (c : Char) : Prop :=
  c.toNat < 0x20 ∨ 0x7F ≤ c.toNat ∧ c.toNat < 0xA0 ∨ c = '\u2028' ∨ c = '\u2029'

variable {hidden : Char → Bool} {quote c : Char} {cs xs ys : List Char}

instance (cs : List Char) : Decidable (IsVisible cs) :=
  decidable_of_iff (cs.all (fun c => !isHidden c) = true) (by simp [IsVisible])

theorem quoted_eq (hidden : Char → Bool) (quote : Char) (cs : List Char) :
    quoted hidden quote cs = quote :: shown hidden quote cs ++ [quote] := rfl

theorem shown_cons (hidden : Char → Bool) (quote c : Char) (cs : List Char) :
    shown hidden quote (c :: cs) = escape hidden quote c ++ shown hidden quote cs :=
  List.flatMap_cons

theorem shown_append (hidden : Char → Bool) (quote : Char) (xs ys : List Char) :
    shown hidden quote (xs ++ ys) = shown hidden quote xs ++ shown hidden quote ys :=
  List.flatMap_append

theorem exists_digitChar_of_mem_toDigits {n : Nat} (h : c ∈ Nat.toDigits 16 n) :
    ∃ d : Fin 16, c = Nat.digitChar d := by
  induction n using Nat.strongRecOn with
  | ind n ih =>
    rw [Nat.toDigits_eq_if (by decide)] at h
    split at h
    next hlt => exact ⟨⟨n, hlt⟩, List.mem_singleton.1 h⟩
    next hge =>
      rcases List.mem_append.1 h with h | h
      · exact ih (n / 16) (Nat.div_lt_self (by omega) (by decide)) h
      · exact ⟨⟨n % 16, Nat.mod_lt _ (by decide)⟩, List.mem_singleton.1 h⟩

/-- What may stand behind the first two characters of an escape. -/
def codePointChars : List Char := "0123456789abcdef{}".toList

theorem mem_codePointChars {n : Nat} (h : c ∈ '{' :: Nat.toDigits 16 n ++ ['}']) :
    c ∈ codePointChars := by
  have hdigit : ∀ d : Fin 16, Nat.digitChar d ∈ codePointChars := by decide
  rcases List.mem_append.1 h with h | h
  · rcases List.mem_cons.1 h with rfl | h
    · decide
    · obtain ⟨d, rfl⟩ := exists_digitChar_of_mem_toDigits h
      exact hdigit d
  · obtain rfl := List.mem_singleton.1 h
    decide

theorem escapeLetter?_mem {letter : Char} (h : escapeLetter? c = some letter) :
    letter ∈ ['0', 't', 'n', 'r', '\\', 'u'] := by
  unfold escapeLetter? at h
  split at h <;> simp only [Option.some.injEq, reduceCtorEq] at h <;> subst h <;> decide

/-- The pieces that characters are shown by. -/
theorem escape_cases (hidden : Char → Bool) (quote c : Char) :
    (escape hidden quote c = [c] ∧ c ≠ quote ∧ c ≠ '\\' ∧ hidden c = false) ∨
      ∃ letter digits, escape hidden quote c = '\\' :: letter :: digits ∧
        (letter = quote ∨ letter ∈ ['0', 't', 'n', 'r', '\\', 'u']) ∧
        ∀ d ∈ digits, d ∈ codePointChars := by
  unfold escape
  split
  next letter hletter => exact .inr ⟨letter, [], rfl, .inr (escapeLetter?_mem hletter), by simp⟩
  next hletter =>
    split
    next hc => exact .inr ⟨c, [], rfl, .inl hc, by simp⟩
    next hc =>
      split
      next => exact .inr ⟨'u', _, rfl, .inr (by decide), fun d hd => mem_codePointChars hd⟩
      next hhidden =>
        refine .inl ⟨rfl, hc, ?_, Bool.eq_false_iff.2 hhidden⟩
        rintro rfl
        simp [escapeLetter?] at hletter

section Containment

theorem escapesNext_append (h : escapesNext xs = false) (ys : List Char) :
    escapesNext (xs ++ ys) = escapesNext ys := by
  unfold escapesNext at h ⊢
  rw [List.foldl_append, h]

theorem escapesNext_of_notMem (h : '\\' ∉ cs) : escapesNext cs = false := by
  induction cs with
  | nil => rfl
  | cons c cs ih =>
    rw [List.mem_cons, not_or] at h
    obtain ⟨hc, hcs⟩ := h
    have hone : escapesNext [c] = false := by simpa [escapesNext] using Ne.symm hc
    exact (escapesNext_append hone cs).trans (ih hcs)

/-- Nothing is escaped behind a piece. -/
theorem escapesNext_escape (hidden : Char → Bool) (quote c : Char) :
    escapesNext (escape hidden quote c) = false := by
  rcases escape_cases hidden quote c with ⟨hpiece, -, hc, -⟩ | ⟨letter, digits, hpiece, -, hdigits⟩
  · rw [hpiece]
    exact escapesNext_of_notMem (by simpa using Ne.symm hc)
  · have hescape : escapesNext ['\\', letter] = false := rfl
    rw [hpiece]
    exact (escapesNext_append hescape digits).trans
      (escapesNext_of_notMem fun h => absurd (hdigits _ h) (by decide))

theorem escapesNext_shown (hidden : Char → Bool) (quote : Char) (cs : List Char) :
    escapesNext (shown hidden quote cs) = false := by
  induction cs with
  | nil => rfl
  | cons c cs ih =>
    rw [shown_cons, escapesNext_append (escapesNext_escape hidden quote c)]
    exact ih

variable {front back : List Char}

/-- A quote in a piece is what the backslash of the piece escapes. -/
theorem escapesNext_of_escape_eq (hquote : quote = '"' ∨ quote = '\'')
    (h : escape hidden quote c = front ++ quote :: back) : escapesNext front = true := by
  have hdifferent : quote ≠ '\\' ∧ quote ∉ codePointChars := by
    rcases hquote with rfl | rfl <;> decide
  rcases escape_cases hidden quote c with ⟨hpiece, hc, -⟩ | ⟨letter, digits, hpiece, -, hdigits⟩
  · have hmem : quote ∈ [c] := by
      rw [← hpiece, h]
      simp
    exact absurd (List.mem_singleton.1 hmem).symm hc
  · rw [hpiece] at h
    rcases front with - | ⟨a, - | ⟨b, front⟩⟩
    · exact absurd (List.cons.inj h).1.symm hdifferent.1
    · rw [← (List.cons.inj h).1]
      rfl
    · have hmem : quote ∈ digits := by
        rw [(List.cons.inj (List.cons.inj h).2).2]
        simp
      exact absurd (hdigits quote hmem) hdifferent.2

theorem escapesNext_of_shown_eq (hquote : quote = '"' ∨ quote = '\'')
    (h : shown hidden quote cs = front ++ quote :: back) : escapesNext front = true := by
  induction cs generalizing front with
  | nil => simp [shown] at h
  | cons c cs ih =>
    rw [shown_cons] at h
    rcases List.append_eq_append_iff.1 h with ⟨front', rfl, hrest⟩ | ⟨back', hpiece, hrest⟩
    · rw [escapesNext_append (escapesNext_escape hidden quote c)]
      exact ih hrest
    · cases back' with
      | nil =>
        rw [List.append_nil] at hpiece
        rw [← hpiece, ← List.append_nil (escape _ _ _),
          escapesNext_append (escapesNext_escape hidden quote c)]
        exact ih hrest.symm
      | cons d back' =>
        obtain ⟨rfl, -⟩ := List.cons.inj hrest
        exact escapesNext_of_escape_eq hquote hpiece

theorem isContained (hidden : Char → Bool) (hquote : quote = '"' ∨ quote = '\'') (cs : List Char) :
    IsContained hidden quote cs where
  escaped := by
    rintro before c after rfl hc
    have hpiece : escape hidden quote c = ['\\', c] := by
      rcases hc with rfl | rfl
      · rcases hquote with rfl | rfl <;> rfl
      · rfl
    refine ⟨?_, escapesNext_shown hidden quote before⟩
    rw [shown_append, shown_cons, hpiece]
    rfl
  none_bare front back h := escapesNext_of_shown_eq hquote h
  closes := escapesNext_shown hidden quote cs
  reads_back rest := by
    have hread : unquote? quote (quoted hidden quote cs ++ rest) = some (cs, rest) :=
      unquote?_quoted hquote cs rest
    rw [quoted_eq, List.append_assoc] at hread
    exact hread

end Containment

section Visibility

theorem isVisible_append : IsVisible (xs ++ ys) ↔ IsVisible xs ∧ IsVisible ys :=
  List.forall_mem_append

theorem isVisible_escape (hquote : isHidden quote = false) (c : Char) :
    IsVisible (escape isHidden quote c) := by
  have hletters : IsVisible ['0', 't', 'n', 'r', '\\', 'u'] := by decide
  have hcodePoint : IsVisible codePointChars := by decide
  rcases escape_cases isHidden quote c with
    ⟨hpiece, -, -, hc⟩ | ⟨letter, digits, hpiece, hletter, hdigits⟩
  · rw [hpiece]
    exact List.forall_mem_singleton.2 hc
  · rw [hpiece]
    refine List.forall_mem_cons.2 ⟨by decide, List.forall_mem_cons.2 ⟨?_, ?_⟩⟩
    · rcases hletter with rfl | hletter
      · exact hquote
      · exact hletters letter hletter
    · exact fun d hd => hcodePoint d (hdigits d hd)

theorem isVisible_shown (hquote : isHidden quote = false) (cs : List Char) :
    IsVisible (shown isHidden quote cs) := by
  intro d hd
  obtain ⟨c, -, hd⟩ := List.mem_flatMap.1 hd
  exact isVisible_escape hquote c d hd

theorem isVisible_quoted (hquote : isHidden quote = false) (cs : List Char) :
    IsVisible (quoted isHidden quote cs) := by
  have hone : IsVisible [quote] := List.forall_mem_singleton.2 hquote
  exact isVisible_append.2 ⟨List.forall_mem_cons.2 ⟨hquote, isVisible_shown hquote cs⟩, hone⟩

theorem isHidden_of_isControl (h : IsControl c) : isHidden c = true := by
  rcases h with h | ⟨hlow, hhigh⟩ | rfl | rfl
  · exact isHidden_of_lt_space h
  · have hall : ∀ n : Fin 0x21, isHidden (Char.ofNat (0x7F + n)) = true := by decide
    have hc := hall ⟨c.toNat - 0x7F, by omega⟩
    rwa [Nat.add_sub_cancel' hlow, Char.ofNat_toNat] at hc
  · decide +kernel
  · decide +kernel

theorem IsVisible.not_isControl (h : IsVisible cs) (hc : c ∈ cs) : ¬IsControl c := by
  intro hcontrol
  exact absurd ((h c hc).symm.trans (isHidden_of_isControl hcontrol)) Bool.false_ne_true

end Visibility

end StackCalc.Text
