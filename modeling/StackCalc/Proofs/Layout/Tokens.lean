import Mathlib.Logic.Function.Iterate
import StackCalc.Proofs.Token.Front

/-!
# Layouts and their tokens

Every text is a well-formed layout that is followed by nothing or by a character outside the
alphabet (`exists_layout_append`). Its tokens are those of the layout and, if there is one, that
character (`tokenize_layout_append`), and a stream gives them one by one and nothing after them
(`next_iterate_ofList`).
-/

namespace StackCalc

/-- The token of the character outside the alphabet that a rest of a text starts with, if it has
    one. -/
def foreignTokens (start : Nat) (tail : List Char) : List Token :=
  (tail.head?.map (Token.foreign start)).toList

namespace Layout

variable {gap trailing tail : List Char} {x : Lexeme} {items : List (List Char × Lexeme)}

theorem chars_cons (gap trailing : List Char) (x : Lexeme) (items : List (List Char × Lexeme)) :
    (Layout.mk ((gap, x) :: items) trailing).chars =
      gap ++ (x.chars ++ (Layout.mk items trailing).chars) := by
  simp only [chars, List.flatMap_cons, List.append_assoc]

theorem chars_nil (trailing : List Char) : (Layout.mk [] trailing).chars = trailing := rfl

theorem WellFormed.of_cons (h : (Layout.mk ((gap, x) :: items) trailing).WellFormed) :
    (Layout.mk items trailing).WellFormed where
  gaps_blank := fun item hitem => h.gaps_blank item (List.mem_cons_of_mem _ hitem)
  trailing_blank := h.trailing_blank
  written := fun item hitem => h.written item (List.mem_cons_of_mem _ hitem)
  separated := h.separated.2

theorem wellFormed_nil (h : ∀ c ∈ trailing, isBlank c = true) :
    (Layout.mk [] trailing).WellFormed where
  gaps_blank := fun item hitem => by simp at hitem
  trailing_blank := h
  written := fun item hitem => by simp at hitem
  separated := trivial

theorem not_isDigit_head_of_isBlank (h : ∀ c ∈ gap, isBlank c = true)
    (htail : gap = [] → tail.head?.any Char.isDigit = false) :
    (gap ++ tail).head?.any Char.isDigit = false := by
  cases gap with
  | nil => exact htail rfl
  | cons c gap => exact not_isDigit_of_isBlank (h c List.mem_cons_self)

theorem not_isDigit_head_of_notMem (h : ∀ c ∈ tail.head?, c ∉ alphabet) :
    tail.head?.any Char.isDigit = false := by
  cases tail with
  | nil => rfl
  | cons c tail => exact not_isDigit_of_notMem (h c rfl)

theorem head?_chars_append (hx : x.IsWritten) (tail : List Char) :
    (x.chars ++ tail).head? = x.chars.head? := by
  obtain ⟨c, cs, hcons⟩ := List.exists_cons_of_ne_nil (Lexeme.chars_ne_nil hx)
  rw [hcons]
  rfl

/-- The first lexeme of a layout does not run into what is written behind it. -/
theorem WellFormed.endsBefore (h : (Layout.mk ((gap, x) :: items) trailing).WellFormed)
    (htail : ∀ c ∈ tail.head?, c ∉ alphabet) :
    x.EndsBefore ((Layout.mk items trailing).chars ++ tail) := by
  intro htakes
  cases items with
  | nil =>
    rw [chars_nil]
    exact not_isDigit_head_of_isBlank h.trailing_blank fun _ => not_isDigit_head_of_notMem htail
  | cons item items =>
    obtain ⟨gap', y⟩ := item
    rw [chars_cons, List.append_assoc]
    refine not_isDigit_head_of_isBlank (h.of_cons.gaps_blank (gap', y) List.mem_cons_self) ?_
    intro hgap
    have hapart := h.separated.1 gap' y rfl hgap
    rw [List.append_assoc, head?_chars_append (h.of_cons.written (gap', y) List.mem_cons_self),
      ← Bool.not_eq_true]
    exact fun hdigit => hapart ⟨htakes, hdigit⟩

theorem WellFormed.chars_subset_alphabet {l : Layout} (h : l.WellFormed) :
    ∀ c ∈ l.chars, c ∈ alphabet := by
  intro c hc
  rw [chars, List.mem_append, List.mem_flatMap] at hc
  rcases hc with ⟨item, hitem, hc⟩ | hc
  · rcases List.mem_append.1 hc with hc | hc
    · exact subset_alphabet_of_isBlank (h.gaps_blank item hitem) c hc
    · exact Lexeme.chars_subset_alphabet (h.written item hitem) c hc
  · exact subset_alphabet_of_isBlank h.trailing_blank c hc

theorem wellFormed_cons {l : Layout} (hgap : ∀ c ∈ gap, isBlank c = true) (hx : x.IsWritten)
    (hl : l.WellFormed) (hends : x.EndsBefore (l.chars ++ tail)) :
    (Layout.mk ((gap, x) :: l.items) l.trailing).WellFormed where
  gaps_blank := List.forall_mem_cons.2 ⟨hgap, hl.gaps_blank⟩
  trailing_blank := hl.trailing_blank
  written := List.forall_mem_cons.2 ⟨hx, hl.written⟩
  separated := by
    refine ⟨?_, hl.separated⟩
    rintro gap' y hhead rfl ⟨htakes, hdigit⟩
    obtain ⟨items, trailing⟩ := l
    obtain ⟨item, items, rfl⟩ :=
      List.exists_cons_of_ne_nil (l := items) (by rintro rfl; simp at hhead)
    obtain rfl : item = ([], y) := Option.some.inj hhead
    have hapart := hends htakes
    rw [chars_cons, List.nil_append, List.append_assoc,
      head?_chars_append (hl.written ([], y) List.mem_cons_self)] at hapart
    exact absurd hdigit (by rw [Lexeme.startsWithDigit, hapart]; decide)

/-- Behind blanks, a character of the alphabet starts a lexeme. -/
theorem exists_lexeme_append {c : Char} {cs : List Char} (hc : c ∈ alphabet)
    (hblank : isBlank c = false) :
    ∃ x behind, c :: cs = Lexeme.chars x ++ behind ∧ x.IsWritten ∧ x.EndsBefore behind := by
  by_cases hnumber : Numeral.literalInFront (c :: cs) = []
  · rw [Numeral.literalInFront_cons_eq_nil_iff] at hnumber
    obtain ⟨hdigit, hminus⟩ := hnumber
    rcases mem_alphabet_iff.1 hc with h | h | h
    · simp [h] at hblank
    · simp [h] at hdigit
    · obtain ⟨op, hop⟩ := Option.isSome_iff_exists.1 h
      obtain rfl := Operator.ofSymbol?_eq_some_iff.1 hop
      refine ⟨.operator op, cs, rfl, trivial, fun htakes => hminus ?_⟩
      rw [show op = .sub from of_decide_eq_true htakes]
      rfl
  · obtain ⟨hliteral, behind, happend, hbehind⟩ := Numeral.exists_literalInFront_append hnumber
    exact ⟨.number (Numeral.literalInFront (c :: cs)), behind, happend, hliteral, fun _ => hbehind⟩

/-- Every text is a layout up to its end or up to a character outside the alphabet. -/
theorem exists_layout_append (text : List Char) :
    ∃ (l : Layout) (tail : List Char), text = l.chars ++ tail ∧ l.WellFormed ∧
      ∀ c ∈ tail.head?, c ∉ alphabet := by
  induction hn : text.length using Nat.strongRecOn generalizing text with
  | ind n ih =>
    have hgap : ∀ c ∈ text.takeWhile isBlank, isBlank c = true :=
      List.all_eq_true.1 List.all_takeWhile
    have hhead := List.head?_dropWhile_not isBlank text
    have hsplit := List.takeWhile_append_dropWhile (p := isBlank) (l := text)
    cases hrest : text.dropWhile isBlank with
    | nil =>
      rw [hrest, List.append_nil] at hsplit
      rw [hsplit] at hgap
      exact ⟨⟨[], text⟩, [], (List.append_nil text).symm, wellFormed_nil hgap, by simp⟩
    | cons c cs =>
      rw [hrest] at hhead hsplit
      by_cases hc : c ∈ alphabet
      · obtain ⟨x, behind, happend, hx, hends⟩ := exists_lexeme_append hc hhead
        have hshorter : behind.length < n := by
          have hpos := List.length_pos_iff.2 (Lexeme.chars_ne_nil hx)
          rw [← hn, ← hsplit, happend, List.length_append, List.length_append]
          omega
        obtain ⟨l, tail, rfl, hl, htail⟩ := ih _ hshorter behind rfl
        refine ⟨⟨(text.takeWhile isBlank, x) :: l.items, l.trailing⟩, tail, ?_,
          wellFormed_cons hgap hx hl hends, htail⟩
        rw [chars_cons, List.append_assoc, List.append_assoc, ← happend, hsplit]
      · refine ⟨⟨[], text.takeWhile isBlank⟩, c :: cs, hsplit.symm, wellFormed_nil hgap, ?_⟩
        intro d hd
        obtain rfl : c = d := Option.some.inj hd
        exact hc

end Layout

namespace TokenStream

variable {s after : TokenStream} {token : Token}

theorem drain_of_some (h : s.next = (some token, after)) :
    s.drain = (token :: after.drain.1, after.drain.2) := by
  rw [drain]
  split
  next token' after' h' =>
    obtain ⟨htoken, rfl⟩ := Prod.mk.inj (h.symm.trans h')
    rw [Option.some.inj htoken]
  next after' h' => simp [h] at h'

theorem drain_of_none (h : s.next = (none, after)) : s.drain = ([], after) := by
  rw [drain]
  split
  next token' after' h' => simp [h] at h'
  next after' h' => rw [(Prod.mk.inj (h.symm.trans h')).2]

/-- The induction is on the lexemes: each of them is what the stream takes next. -/
theorem drain_layout_append {start : Nat} {items : List (List Char × Lexeme)}
    {trailing tail : List Char} (hl : (Layout.mk items trailing).WellFormed)
    (htail : ∀ c ∈ tail.head?, c ∉ alphabet)
    (hs : s.Reads start ((Layout.mk items trailing).chars ++ tail)) :
    s.drain.1 = (Layout.placeFrom start items).map (fun (start, x) => x.token start) ++
      foreignTokens (start + (Layout.mk items trailing).chars.length) tail := by
  induction items generalizing s start with
  | nil =>
    cases tail with
    | nil =>
      rw [List.append_nil] at hs
      obtain ⟨after, hnext, -⟩ := hs.next_blanks hl.trailing_blank
      rw [drain_of_none hnext]
      rfl
    | cons c tail =>
      obtain ⟨after, hnext, hended, -⟩ := hs.next_foreign hl.trailing_blank (htail c rfl)
      rw [drain_of_some hnext, drain_of_none (next_of_ended hended)]
      rfl
  | cons item items ih =>
    obtain ⟨gap, x⟩ := item
    have hgap := hl.gaps_blank (gap, x) List.mem_cons_self
    have hx := hl.written (gap, x) List.mem_cons_self
    rw [Layout.chars_cons, List.append_assoc, List.append_assoc] at hs
    obtain ⟨after, hnext, hafter⟩ := hs.next_lexeme hgap hx (hl.endsBefore htail)
    have hlength : (Layout.mk ((gap, x) :: items) trailing).chars.length =
        gap.length + x.chars.length + (Layout.mk items trailing).chars.length := by
      rw [Layout.chars_cons, List.length_append, List.length_append, Nat.add_assoc]
    rw [drain_of_some hnext, ih hl.of_cons hafter, hlength, Layout.placeFrom]
    simp only [byteLength_of_subset_alphabet (subset_alphabet_of_isBlank hgap),
      byteLength_of_subset_alphabet (Lexeme.chars_subset_alphabet hx), List.map_cons,
      List.cons_append, Nat.add_assoc]

/-- The stream after its next token was taken. -/
def advance (s : TokenStream) : TokenStream := s.next.2

theorem next_iterate_of_ended (h : s.ended = true) (n : Nat) : (advance^[n] s).next.1 = none := by
  have hs : advance^[n] s = s :=
    Function.iterate_fixed (by rw [advance, next_of_ended h]) n
  rw [hs, next_of_ended h]

theorem next_iterate_of_reads_nil {start : Nat} (h : s.Reads start []) (n : Nat) :
    (advance^[n] s).next.1 = none := by
  induction n generalizing s start with
  | zero =>
    obtain ⟨after, hnext, -⟩ := h.next_blanks (by simp)
    rw [Function.iterate_zero_apply, hnext]
  | succ n ih =>
    obtain ⟨after, hnext, hafter⟩ := h.next_blanks (by simp)
    rw [Function.iterate_succ_apply, advance, hnext]
    exact ih hafter

/-- A stream gives the tokens that it can be drained of, one after the other, and then none. -/
theorem next_iterate_layout_append {start : Nat} {items : List (List Char × Lexeme)}
    {trailing tail : List Char} (hl : (Layout.mk items trailing).WellFormed)
    (htail : ∀ c ∈ tail.head?, c ∉ alphabet)
    (hs : s.Reads start ((Layout.mk items trailing).chars ++ tail)) (n : Nat) :
    (advance^[n] s).next.1 = s.drain.1[n]? := by
  induction items generalizing s start n with
  | nil =>
    cases tail with
    | nil =>
      rw [List.append_nil] at hs
      obtain ⟨after, hnext, hafter⟩ := hs.next_blanks hl.trailing_blank
      rw [drain_of_none hnext, List.getElem?_nil]
      cases n with
      | zero => rw [Function.iterate_zero_apply, hnext]
      | succ n =>
        rw [Function.iterate_succ_apply, advance, hnext]
        exact next_iterate_of_reads_nil hafter n
    | cons c tail =>
      obtain ⟨after, hnext, hended, -⟩ := hs.next_foreign hl.trailing_blank (htail c rfl)
      rw [drain_of_some hnext, drain_of_none (next_of_ended hended)]
      cases n with
      | zero => rw [Function.iterate_zero_apply, hnext]; rfl
      | succ n =>
        rw [Function.iterate_succ_apply, advance, hnext]
        exact next_iterate_of_ended hended n
  | cons item items ih =>
    obtain ⟨gap, x⟩ := item
    rw [Layout.chars_cons, List.append_assoc, List.append_assoc] at hs
    obtain ⟨after, hnext, hafter⟩ :=
      hs.next_lexeme (hl.gaps_blank (gap, x) List.mem_cons_self)
        (hl.written (gap, x) List.mem_cons_self) (hl.endsBefore htail)
    rw [drain_of_some hnext]
    cases n with
    | zero => rw [Function.iterate_zero_apply, hnext]; rfl
    | succ n =>
      rw [Function.iterate_succ_apply, advance, hnext]
      exact ih hl.of_cons hafter n

end TokenStream

theorem tokenize_layout_append {l : Layout} {tail : List Char} (hl : l.WellFormed)
    (htail : ∀ c ∈ tail.head?, c ∉ alphabet) :
    tokenize (l.chars ++ tail) = l.tokens ++ foreignTokens l.chars.length tail := by
  have hdrain := TokenStream.drain_layout_append hl htail (TokenStream.reads_ofList _)
  rw [Nat.zero_add] at hdrain
  exact hdrain

theorem next_iterate_ofList (text : List Char) (n : Nat) :
    (TokenStream.advance^[n] (TokenStream.ofList text)).next.1 = (tokenize text)[n]? := by
  obtain ⟨l, tail, rfl, hl, htail⟩ := Layout.exists_layout_append text
  exact TokenStream.next_iterate_layout_append hl htail (TokenStream.reads_ofList _) n

end StackCalc
