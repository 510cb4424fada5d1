import StackCalc.Proofs.Layout.Tokens

/-!
# Where the lexemes of a layout stand

A lexeme stands behind all that is written before it, so its offset is the length of that in bytes
(`getElem?_placed`). The extents of the lexemes follow one after the other (`pairwise_tokens`), and
what is in none of them is blank (`isBlank_of_not_covers`).
-/

namespace StackCalc

namespace Token

/-- The offset behind the token. -/
def stop (t : Token) : Nat := t.start + t.length

/-- Whether the token extends over the byte at an offset. -/
def Covers (t : Token) (i : Nat) : Prop := t.start ≤ i ∧ i < t.stop

end Token

namespace Lexeme

theorem start_token (x : Lexeme) (start : Nat) : (x.token start).start = start := by
  cases x <;> rfl

theorem length_token (x : Lexeme) (start : Nat) :
    (x.token start).length = Text.byteLength x.chars := by
  cases x with
  | number text => rfl
  | operator op => cases op <;> rfl

theorem stop_token (x : Lexeme) (start : Nat) :
    (x.token start).stop = start + Text.byteLength x.chars := by
  rw [Token.stop, start_token, length_token]

end Lexeme

namespace Layout

variable {gap trailing : List Char} {x : Lexeme} {before after items : List (List Char × Lexeme)}
  {l : Layout} {start here : Nat}

theorem chars_split (before : List (List Char × Lexeme)) (gap : List Char) (x : Lexeme)
    (after : List (List Char × Lexeme)) (trailing : List Char) :
    (Layout.mk (before ++ (gap, x) :: after) trailing).chars =
      (Layout.mk before gap).chars ++ (x.chars ++ (Layout.mk after trailing).chars) := by
  simp only [chars, List.flatMap_append, List.flatMap_cons, List.append_assoc]

theorem WellFormed.of_append (h : (Layout.mk (before ++ after) trailing).WellFormed) :
    (Layout.mk after trailing).WellFormed := by
  induction before with
  | nil => exact h
  | cons item before ih =>
    apply ih
    exact h.of_cons

theorem WellFormed.endsBefore_of_split
    (h : (Layout.mk (before ++ (gap, x) :: after) trailing).WellFormed) :
    x.EndsBefore (Layout.mk after trailing).chars := by
  have hends : x.EndsBefore ((Layout.mk after trailing).chars ++ []) :=
    h.of_append.endsBefore (by simp)
  rwa [List.append_nil] at hends

theorem length_placeFrom (start : Nat) (items : List (List Char × Lexeme)) :
    (placeFrom start items).length = items.length := by
  induction items generalizing start with
  | nil => rfl
  | cons item items ih => simp only [placeFrom, List.length_cons, ih]

theorem length_tokens (l : Layout) : l.tokens.length = l.items.length := by
  rw [tokens, List.length_map, placed, length_placeFrom]

/-- A lexeme is placed behind what is written before it. -/
theorem placeFrom_split (start : Nat) (before : List (List Char × Lexeme)) (gap : List Char)
    (x : Lexeme) (after : List (List Char × Lexeme)) :
    ∃ rest, placeFrom start (before ++ (gap, x) :: after) =
      placeFrom start before ++
        (start + Text.byteLength (Layout.mk before gap).chars, x) :: rest := by
  induction before generalizing start with
  | nil => exact ⟨_, rfl⟩
  | cons item before ih =>
    obtain ⟨gap', y⟩ := item
    obtain ⟨rest, hrest⟩ :=
      ih (start + Text.byteLength gap' + Text.byteLength y.chars)
    refine ⟨rest, ?_⟩
    rw [List.cons_append, placeFrom, hrest, placeFrom, chars_cons]
    simp only [Text.byteLength_append, Nat.add_assoc, List.cons_append]

theorem getElem?_placed (h : l.items = before ++ (gap, x) :: after) :
    l.placed[before.length]? = some (Text.byteLength (Layout.mk before gap).chars, x) := by
  obtain ⟨rest, hrest⟩ := placeFrom_split 0 before gap x after
  have hlength := length_placeFrom 0 before
  rw [placed, h, hrest, List.getElem?_append_right (by omega), hlength, Nat.sub_self, Nat.zero_add]
  rfl

theorem getElem?_tokens (h : l.items = before ++ (gap, x) :: after) :
    l.tokens[before.length]? = some (x.token (Text.byteLength (Layout.mk before gap).chars)) := by
  rw [tokens, List.getElem?_map, getElem?_placed h]
  rfl

/-- What is placed is an item, and what is written before the item decides its place. -/
theorem exists_split_of_mem_placeFrom (h : (here, x) ∈ placeFrom start items) :
    ∃ before gap after, items = before ++ (gap, x) :: after ∧
      here = start + Text.byteLength (Layout.mk before gap).chars := by
  induction items generalizing start with
  | nil => simp [placeFrom] at h
  | cons item items ih =>
    obtain ⟨gap, y⟩ := item
    rw [placeFrom, List.mem_cons] at h
    rcases h with h | h
    · obtain ⟨rfl, rfl⟩ := Prod.mk.inj h
      exact ⟨[], gap, items, rfl, rfl⟩
    · obtain ⟨before, gap', after, rfl, rfl⟩ := ih h
      refine ⟨(gap, y) :: before, gap', after, rfl, ?_⟩
      simp only [chars_cons, Text.byteLength_append, Nat.add_assoc]

theorem exists_split_of_mem_placed (h : (here, x) ∈ l.placed) :
    ∃ before gap after, l.items = before ++ (gap, x) :: after ∧
      here = Text.byteLength (Layout.mk before gap).chars := by
  obtain ⟨before, gap, after, hitems, hhere⟩ := exists_split_of_mem_placeFrom h
  exact ⟨before, gap, after, hitems, hhere.trans (Nat.zero_add _)⟩

theorem pairwise_placeFrom (start : Nat) (items : List (List Char × Lexeme)) :
    (placeFrom start items).Pairwise fun a b => a.1 + Text.byteLength a.2.chars ≤ b.1 := by
  induction items generalizing start with
  | nil => exact .nil
  | cons item items ih =>
    obtain ⟨gap, x⟩ := item
    refine .cons ?_ (ih _)
    rintro ⟨here, y⟩ hy
    obtain ⟨before, gap', after, -, rfl⟩ := exists_split_of_mem_placeFrom hy
    exact Nat.le_add_right _ _

/-- Each token ends before the next one starts. -/
theorem pairwise_tokens (l : Layout) : l.tokens.Pairwise fun t u => t.stop ≤ u.start := by
  apply (pairwise_placeFrom 0 l.items).map
  intro a b hab
  rwa [Lexeme.stop_token, Lexeme.start_token]

/-- The induction is on the lexemes: a character is in the first gap, in the first lexeme or in what
    is written behind it. -/
theorem isBlank_of_not_covers (hl : (Layout.mk items trailing).WellFormed) {i : Nat} {c : Char}
    (hc : (Layout.mk items trailing).chars[i]? = some c)
    (houtside : ∀ y ∈ placeFrom start items, ¬(y.2.token y.1).Covers (start + i)) :
    isBlank c = true := by
  induction items generalizing start i with
  | nil => exact hl.trailing_blank c (List.mem_of_getElem? hc)
  | cons item items ih =>
    obtain ⟨gap, x⟩ := item
    have hgap : ∀ c ∈ gap, isBlank c = true := hl.gaps_blank (gap, x) List.mem_cons_self
    have hx : x.IsWritten := hl.written (gap, x) List.mem_cons_self
    have hgapLength := byteLength_of_subset_alphabet (subset_alphabet_of_isBlank hgap)
    have hxLength := byteLength_of_subset_alphabet (Lexeme.chars_subset_alphabet hx)
    rw [chars_cons] at hc
    rw [placeFrom, List.forall_mem_cons, Token.Covers, Lexeme.start_token, Lexeme.stop_token,
      hgapLength, hxLength] at houtside
    obtain ⟨hfirst, hrest⟩ := houtside
    by_cases hingap : i < gap.length
    · rw [List.getElem?_append_left hingap] at hc
      exact hgap c (List.mem_of_getElem? hc)
    · have hbehind : x.chars.length ≤ i - gap.length := by omega
      rw [List.getElem?_append_right (by omega), List.getElem?_append_right hbehind] at hc
      apply ih hl.of_cons hc
      intro y hy
      have hplace : start + gap.length + x.chars.length + (i - gap.length - x.chars.length) =
          start + i := by omega
      rw [hplace]
      exact hrest y hy

end Layout

end StackCalc
