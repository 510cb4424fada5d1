import StackCalc.Proofs.Program.Context

/-!
# Blanks between words

The words of a text are its longest parts without blanks. Texts with the same words have the same
value or the same fault, at the same character of the same word, whatever blanks are between the
words and around them (`calculate_respaced`).
-/

namespace StackCalc

/-- The same words with other blanks. Both texts have blanks between two words, and each has any or
    none before the first word and behind the last. -/
inductive Respaced : List Char → List Char → Prop
  | blanks {gap gap' : List Char} (hgap : ∀ c ∈ gap, isBlank c = true)
      (hgap' : ∀ c ∈ gap', isBlank c = true) : Respaced gap gap'
  | word {gap gap' word rest rest' : List Char} (hgap : ∀ c ∈ gap, isBlank c = true)
      (hgap' : ∀ c ∈ gap', isBlank c = true) (hne : word ≠ [])
      (hword : ∀ c ∈ word, isBlank c = false) (hrest : ∀ c ∈ rest.head?, isBlank c = true)
      (hrest' : ∀ c ∈ rest'.head?, isBlank c = true) (h : Respaced rest rest') :
      Respaced (gap ++ (word ++ rest)) (gap' ++ (word ++ rest'))

/-- How many of the characters are not blank. -/
def countNonblank (cs : List Char) : Nat := cs.countP fun c => !isBlank c

/-- Whether the character at an offset is not blank, and `k` of those before it are not. -/
structure NonblankAt (cs : List Char) (k i : Nat) : Prop where
  not_blank : ∃ c ∈ cs[i]?, isBlank c = false
  count_eq : countNonblank (cs.take i) = k
  byteLength_eq : Text.byteLength (cs.take i) = i

/-- The offsets of the same character of two texts that differ in their blanks. -/
def SameNonblank (cs cs' : List Char) (i j : Nat) : Prop :=
  ∃ k, NonblankAt cs k i ∧ NonblankAt cs' k j

/-- Fronts of two texts with as many characters that are not blank, each of one byte. -/
structure Aligned (front front' : List Char) : Prop where
  count_eq : countNonblank front = countNonblank front'
  byteLength_left : Text.byteLength front = front.length
  byteLength_right : Text.byteLength front' = front'.length

variable {w : Width} {text text' : String} {t : Token} {c : Char}
  {cs cs' gap gap' word front front' back back' xs xs' : List Char}

theorem countNonblank_append (xs ys : List Char) :
    countNonblank (xs ++ ys) = countNonblank xs + countNonblank ys := List.countP_append

theorem Aligned.append (h : Aligned front front') (hxs : Aligned xs xs') :
    Aligned (front ++ xs) (front' ++ xs') where
  count_eq := by rw [countNonblank_append, countNonblank_append, h.count_eq, hxs.count_eq]
  byteLength_left := by
    rw [Text.byteLength_append, List.length_append, h.byteLength_left, hxs.byteLength_left]
  byteLength_right := by
    rw [Text.byteLength_append, List.length_append, h.byteLength_right, hxs.byteLength_right]

theorem aligned_of_isBlank (hgap : ∀ c ∈ gap, isBlank c = true)
    (hgap' : ∀ c ∈ gap', isBlank c = true) : Aligned gap gap' where
  count_eq := by
    have hzero : ∀ {cs : List Char}, (∀ c ∈ cs, isBlank c = true) → countNonblank cs = 0 := by
      intro cs hcs
      rw [countNonblank, List.countP_eq_zero]
      intro c hc
      simp [hcs c hc]
    rw [hzero hgap, hzero hgap']
  byteLength_left := byteLength_of_subset_alphabet (subset_alphabet_of_isBlank hgap)
  byteLength_right := byteLength_of_subset_alphabet (subset_alphabet_of_isBlank hgap')

theorem aligned_self (h : Text.byteLength word = word.length) : Aligned word word := ⟨rfl, h, h⟩

theorem nonblankAt_of_split {after : List Char} (h : cs = front ++ c :: after)
    (hc : isBlank c = false) (hfront : Text.byteLength front = front.length) :
    NonblankAt cs (countNonblank front) (Text.byteLength front) := by
  rw [hfront, h]
  exact {
    not_blank := ⟨c, by simp, hc⟩
    count_eq := by rw [List.take_left]
    byteLength_eq := by rw [List.take_left, hfront] }

/-- A character behind aligned fronts. -/
theorem Aligned.sameNonblank {after after' : List Char} (h : Aligned front front')
    (hcs : cs = front ++ c :: after) (hcs' : cs' = front' ++ c :: after') (hc : isBlank c = false) :
    SameNonblank cs cs' (Text.byteLength front) (Text.byteLength front') := by
  refine ⟨countNonblank front, nonblankAt_of_split hcs hc h.byteLength_left, ?_⟩
  rw [h.count_eq]
  exact nonblankAt_of_split hcs' hc h.byteLength_right

/-- A word behind aligned fronts has its tokens at the same characters. -/
theorem Aligned.sameNonblank_of_mem_tokenize (h : Aligned front front') (ht : t ∈ tokenize word)
    (hcs : cs = front ++ (word ++ back)) (hcs' : cs' = front' ++ (word ++ back')) :
    SameNonblank cs cs' (Text.byteLength front + t.start) (Text.byteLength front' + t.start) := by
  obtain ⟨before, c, after, rfl, hc, hlength, hbyte⟩ := exists_split_of_mem_tokenize ht
  have hbefore : Aligned before before := aligned_self (hbyte.trans hlength.symm)
  have hsplit : ∀ front back : List Char, front ++ (before ++ c :: after ++ back) =
      front ++ before ++ c :: (after ++ back) := by
    intro front back
    simp only [List.append_assoc, List.cons_append]
  rw [← hbyte, ← Text.byteLength_append, ← Text.byteLength_append]
  exact (h.append hbefore).sameNonblank (hcs.trans (hsplit front back))
    (hcs'.trans (hsplit front' back')) hc

/-- The induction is on the words. Both texts are read up to the same word, with whatever blanks on
    the way, so that the fronts are aligned. -/
theorem Respaced.sameEffect (h : Respaced cs cs') (hfront : Aligned front front')
    (htext : text.toList = front ++ cs) (htext' : text'.toList = front' ++ cs') :
    SameEffect w (SameNonblank text.toList text'.toList) text text'
      ((tokenize cs).map (Token.shift (Text.byteLength front)))
      ((tokenize cs').map (Token.shift (Text.byteLength front'))) := by
  induction h generalizing front front' with
  | blanks hgap hgap' =>
    rw [tokenize_of_isBlank hgap, tokenize_of_isBlank hgap']
    exact .of_forall₂ .nil
  | @word gap gap' word rest rest' hgap hgap' _ _ hrest hrest' _ ih =>
    have hbehind := hfront.append (aligned_of_isBlank hgap hgap')
    rw [← List.append_assoc] at htext htext'
    have hword : SameEffect w (SameNonblank text.toList text'.toList) text text'
        ((tokenize word).map (Token.shift (Text.byteLength (front ++ gap))))
        ((tokenize word).map (Token.shift (Text.byteLength (front' ++ gap')))) := by
      refine .of_forall₂ (forall₂_shift_relocated htext htext' ?_)
      intro t ht
      exact hbehind.sameNonblank_of_mem_tokenize ht htext htext'
    rcases exists_isForeign_or (tokenize word) with hforeign | hnone
    -- The word is the last that is read, and what follows it may differ.
    · rw [tokenize_gap_append hgap, tokenize_gap_append hgap',
        tokenize_append_of_isForeign hforeign, tokenize_append_of_isForeign hforeign,
        Token.map_shift_map_shift, Token.map_shift_map_shift, ← Text.byteLength_append,
        ← Text.byteLength_append]
      exact hword
    · have hnext := hbehind.append (aligned_self (length_of_not_isForeign hnone))
      rw [← List.append_assoc] at htext htext'
      rw [tokenize_gap_append_append hgap hnone hrest,
        tokenize_gap_append_append hgap' hnone hrest', List.map_append, List.map_append]
      simp only [Token.map_shift_map_shift, ← Text.byteLength_append, ← List.append_assoc]
      exact hword.append (ih hnext htext htext')

/-- Other blanks between the words of a text, and around them, change neither its value nor its
    fault. A fault is at the same character, the one with as many others before it that are not
    blank. -/
theorem calculate_respaced (w : Width) (text text' : String)
    (h : Respaced text.toList text'.toList) :
    Relocated (SameNonblank text.toList text'.toList) (calculate w text) (calculate w text') := by
  have hnil : Aligned [] [] := aligned_self rfl
  have hsame : SameEffect w (SameNonblank text.toList text'.toList) text text'
      ((tokenize text.toList).map (Token.shift 0)) ((tokenize text'.toList).map (Token.shift 0)) :=
    h.sameEffect hnil rfl rfl
  apply calculate_relocated
  rwa [Token.map_shift_zero, Token.map_shift_zero] at hsame

/-- A newline is not a blank: it is refused as the second nonblank character. -/
theorem calculate_respaced_newline :
    Respaced "8\t\n/".toList " 8  \n/".toList ∧
      Relocated (SameNonblank "8\t\n/".toList " 8  \n/".toList) (calculate .bits32 "8\t\n/")
        (calculate .bits32 " 8  \n/") := by
  have hsecond : Respaced (['\t'] ++ (['\n', '/'] ++ [])) ([' ', ' '] ++ (['\n', '/'] ++ [])) := by
    apply Respaced.word
    case h => exact .blanks (by simp) (by simp)
    all_goals simp [isBlank]
  have hfirst : Respaced ([] ++ (['8'] ++ (['\t'] ++ (['\n', '/'] ++ []))))
      ([' '] ++ (['8'] ++ ([' ', ' '] ++ (['\n', '/'] ++ [])))) := by
    apply Respaced.word
    case h => exact hsecond
    all_goals simp [isBlank]
  exact ⟨hfirst, calculate_respaced .bits32 "8\t\n/" " 8  \n/" hfirst⟩

end StackCalc
