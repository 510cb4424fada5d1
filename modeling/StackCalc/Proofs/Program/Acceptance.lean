import StackCalc.Calculator
import StackCalc.Proofs.Layout.Tokens

/-!
# Which texts are programs

A text is a program exactly if all of its characters are in the alphabet. Any other text is refused
with its first character outside the alphabet, whatever else is wrong with it.
-/

namespace StackCalc

variable {l : Layout} {c : Char}

theorem Lexeme.isForeign_token (x : Lexeme) (start : Nat) : (x.token start).isForeign = false := by
  cases x <;> rfl

theorem Layout.isForeign_tokens (l : Layout) : ∀ t ∈ l.tokens, t.isForeign = false := by
  intro t ht
  obtain ⟨⟨start, x⟩, -, rfl⟩ := List.mem_map.1 ht
  exact x.isForeign_token start

theorem Token.fault?_eq_none_iff {t : Token} : t.fault? = none ↔ t.isForeign = false := by
  cases t <;> simp [Token.fault?, Token.isForeign]

theorem findSome?_fault?_eq_none_iff {tokens : List Token} :
    tokens.findSome? Token.fault? = none ↔ ∀ t ∈ tokens, t.isForeign = false := by
  simp only [List.findSome?_eq_none_iff, Token.fault?_eq_none_iff]

theorem Layout.findSome?_fault?_tokens (l : Layout) : l.tokens.findSome? Token.fault? = none :=
  findSome?_fault?_eq_none_iff.2 l.isForeign_tokens

theorem tokenize_layout (hl : l.WellFormed) : tokenize l.chars = l.tokens := by
  have htokens : tokenize (l.chars ++ []) = l.tokens ++ foreignTokens l.chars.length [] :=
    tokenize_layout_append hl (by simp)
  rw [List.append_nil] at htokens
  exact htokens.trans (List.append_nil _)

theorem tokenize_foreign (hl : l.WellFormed) (hc : c ∉ alphabet) (after : List Char) :
    tokenize (l.chars ++ c :: after) = l.tokens ++ [.foreign l.chars.length c] := by
  refine tokenize_layout_append hl ?_
  intro d hd
  obtain rfl : c = d := Option.some.inj hd
  exact hc

namespace Program

variable {text : String}

theorem ofString_layout (hl : l.WellFormed) (htext : text.toList = l.chars) :
    ofString text = .ok ⟨text, l.tokens⟩ := by
  rw [ofString, htext, tokenize_layout hl, checkTokens, l.findSome?_fault?_tokens]

theorem ofString_foreign (hl : l.WellFormed) (hc : c ∉ alphabet) {after : List Char}
    (htext : text.toList = l.chars ++ c :: after) :
    ofString text = .error (.foreignChar l.chars.length c) := by
  rw [ofString, htext, tokenize_foreign hl hc, checkTokens, List.findSome?_append,
    l.findSome?_fault?_tokens]
  rfl

theorem ofString_eq_ok_iff {p : Program} :
    ofString text = .ok p ↔
      p = ⟨text, tokenize text.toList⟩ ∧ ∀ t ∈ tokenize text.toList, t.isForeign = false := by
  simp only [← Token.fault?_eq_none_iff]
  rw [ofString]
  cases hcheck : checkTokens (tokenize text.toList) with
  | ok tokens =>
    obtain ⟨rfl, hall⟩ := checkTokens_eq_ok_iff.1 hcheck
    constructor
    · intro h
      exact ⟨(Except.ok.inj h).symm, hall⟩
    · intro h
      rw [h.1]
  | error fault =>
    constructor
    · intro h
      simp at h
    · intro h
      rw [checkTokens_eq_ok_iff.2 ⟨rfl, h.2⟩] at hcheck
      simp at hcheck

/-- Only a foreign character makes a text no program. -/
theorem exists_foreignChar_of_ofString {fault : Fault} (h : ofString text = .error fault) :
    ∃ start c, fault = .foreignChar start c := by
  obtain ⟨l, tail, htext, hl, htail⟩ := Layout.exists_layout_append text.toList
  cases tail with
  | nil =>
    rw [List.append_nil] at htext
    simp [ofString_layout hl htext] at h
  | cons c after =>
    rw [ofString_foreign hl (htail c rfl) htext] at h
    exact ⟨_, c, (Except.error.inj h).symm⟩

/-- A text is a program if and only if its characters are all in the alphabet. The first one that is
    not refuses it before anything is calculated; its position is the same in characters and in
    bytes, and it is the last token, after which the stream stays at its end. -/
theorem ofString_accepts_alphabet (text : String) :
    ((∃ p, ofString text = .ok p) ↔ ∀ c ∈ text.toList, c ∈ alphabet) ∧
    ((∀ c ∈ text.toList, c ∈ alphabet) → ∀ t ∈ tokenize text.toList, t.isForeign = false) ∧
    (¬(∀ c ∈ text.toList, c ∈ alphabet) → ∃ before c after,
      text.toList = before ++ c :: after ∧ (∀ d ∈ before, d ∈ alphabet) ∧ c ∉ alphabet ∧
      Text.byteLength before = before.length ∧
      ofString text = .error (.foreignChar before.length c) ∧
      (∀ w, calculate w text = .error (.foreignChar before.length c)) ∧
      ∃ tokens, tokenize text.toList = tokens ++ [.foreign before.length c] ∧
        ∀ t ∈ tokens, t.isForeign = false) ∧
    ∀ n, (TokenStream.advance^[n] (TokenStream.ofList text.toList)).next.1 =
      (tokenize text.toList)[n]? := by
  obtain ⟨l, tail, htext, hl, htail⟩ := Layout.exists_layout_append text.toList
  have halphabet := hl.chars_subset_alphabet
  cases tail with
  | nil =>
    rw [List.append_nil] at htext
    have hall : ∀ c ∈ text.toList, c ∈ alphabet := htext ▸ halphabet
    refine ⟨⟨fun _ => hall, fun _ => ⟨_, ofString_layout hl htext⟩⟩, ?_, ?_, next_iterate_ofList _⟩
    · intro _
      rw [htext, tokenize_layout hl]
      exact l.isForeign_tokens
    · intro hnot
      exact absurd hall hnot
  | cons c after =>
    have hc : c ∉ alphabet := htail c rfl
    have hmem : c ∈ text.toList := by
      rw [htext]
      exact List.mem_append_right _ List.mem_cons_self
    have hrefused := ofString_foreign hl hc htext
    refine ⟨⟨?_, ?_⟩, ?_, ?_, next_iterate_ofList _⟩
    · rintro ⟨p, hp⟩
      simp [hrefused] at hp
    · intro hall
      exact absurd (hall c hmem) hc
    · intro hall
      exact absurd (hall c hmem) hc
    · intro _
      refine ⟨l.chars, c, after, htext, halphabet, hc, byteLength_of_subset_alphabet halphabet,
        hrefused, ?_, l.tokens, ?_, l.isForeign_tokens⟩
      · intro w
        rw [calculate, hrefused]
      · rw [htext, tokenize_foreign hl hc]

end Program

end StackCalc
