import Mathlib.Data.List.Forall2
import StackCalc.Journal
import StackCalc.Proofs.Fault.Message
import StackCalc.Proofs.Numeral.Value

/-!
# What a line of a journal shows

A reader of a journal has nothing but its lines, each a level and a text. Which token and which stack
a line shows is said on the text alone: words that stand there as they are, and between them numerals
that denote the offsets and the values (`ShowsVisit`). The line of an executed token shows this token
with the stack before it (`showsVisit_line`), and no line shows two different ones
(`ShowsVisit.unique`). The line of a refusal quotes the text and names the fault (`ShowsRefusal`).
-/

namespace StackCalc

/-- A record as a reader of the journal sees it. -/
def Record.line (r : Record) : Level × String := (r.level, r.message)

/-- The words for the operations in a journal. -/
def Operator.words : List (Operator × String) :=
  [(.add, "Add"), (.sub, "Sub"), (.mul, "Mul"), (.div, "Div")]

/-- The word in front of the fields of a token. -/
def Token.kind : Token → String
  | operand _ _ => "Operand"
  | operator _ _ => "Operator"
  | foreign _ _ => "Unknown"

/-- Two fields with their labels, between braces behind a word, as in `Operand { from: 0, len: 1 }`. -/
def Token.fields (kind first : String) (position : List Char) (second : String)
    (value : List Char) : List Char :=
  kind.toList ++ (' ' :: '{' :: ' ' :: first.toList) ++ (':' :: ' ' :: position) ++
    (',' :: ' ' :: second.toList) ++ (':' :: ' ' :: value) ++ [' ', '}']

/-- Which text shows a token. The character of a foreign token is quoted. -/
inductive Token.ShownAs : Token → List Char → Prop
  | operand {start length : Nat} {position extent : List Char}
      (hstart : Numeral.Denotes position start) (hlength : Numeral.Denotes extent length) :
      ShownAs (.operand start length) (fields "Operand" "from" position "len" extent)
  | operator {start : Nat} {op : Operator} {position : List Char} {word : String}
      (hstart : Numeral.Denotes position start) (hword : (op, word) ∈ Operator.words) :
      ShownAs (.operator start op) (fields "Operator" "at" position "op" word.toList)
  | foreign {start : Nat} {c : Char} {position quotation : List Char}
      (hstart : Numeral.Denotes position start)
      (hquotation : ∀ rest, Text.unquote? '\'' (quotation ++ rest) = some ([c], rest)) :
      ShownAs (.foreign start c) (fields "Unknown" "at" position "lexeme" quotation)

/-- Whether a line shows a token with a stack. The values are between brackets with the bottom of the
    stack first, as in `stack=[1, 2]`. -/
def ShowsVisit (line : Level × String) (visit : Token × List Int) : Prop :=
  ∃ token values, visit.1.ShownAs token ∧ List.Forall₂ Numeral.Denotes values visit.2.reverse ∧
    line = (.trace, String.ofList
      (token ++ (" stack=[".toList ++ (", ".toList.intercalate values ++ [']']))))

/-- Whether a line shows the refusal of a text for a fault: the text stands between quotes, and the
    message of the fault behind it names the fault. -/
def ShowsRefusal (line : Level × String) (text : String) (fault : Fault) : Prop :=
  ∃ quotation, Text.unquote? '"' quotation = some (text.toList, []) ∧
    Fault.ofMessage? fault.message = some fault ∧
    line = (.debug, "rejecting " ++ String.ofList quotation ++ ": " ++ fault.message)

section Unique

open Numeral

variable {token token' : Token} {visit visit' : Token × List Int} {line : Level × String}
  {word first second : String} {position position' value value' cs cs' rest rest' : List Char}
  {xs ys : List (List Char)} {ns ms : List Int} {n m : Int}

theorem Token.takeWhile_fields_append (h : ' ' ∉ word.toList) (first second : String)
    (position value rest : List Char) :
    (fields word first position second value ++ rest).takeWhile (· ≠ ' ') = word.toList := by
  have hword : ∀ c ∈ word.toList, decide (c ≠ ' ') = true := by
    intro c hc
    simpa using ne_of_mem_of_not_mem hc h
  simp only [fields, List.append_assoc, List.cons_append]
  rw [List.takeWhile_append_of_pos hword, List.takeWhile_cons_of_neg (by simp), List.append_nil]

/-- The kind of a token is what stands before the first space. -/
theorem Token.ShownAs.takeWhile_append (h : token.ShownAs cs) (rest : List Char) :
    (cs ++ rest).takeWhile (· ≠ ' ') = token.kind.toList := by
  cases h with
  | operand => exact takeWhile_fields_append (by decide) _ _ _ _ rest
  | operator => exact takeWhile_fields_append (by decide) _ _ _ _ rest
  | foreign => exact takeWhile_fields_append (by decide) _ _ _ _ rest

/-- The first of two fields ends at the comma. -/
theorem Token.fields_append_inj (h : Denotes position n) (h' : Denotes position' m)
    (heq : fields word first position second value ++ rest =
      fields word first position' second value' ++ rest') :
    n = m ∧ value ++ ([' ', '}'] ++ rest) = value' ++ ([' ', '}'] ++ rest') := by
  simp only [fields, List.append_assoc, List.cons_append, List.append_cancel_left_eq,
    List.cons.injEq, true_and] at heq
  obtain ⟨hnm, htail⟩ := h.append_inj h' (isPart_head?_cons (by decide) _)
    (isPart_head?_cons (by decide) _) heq
  simp only [List.cons.injEq, List.append_cancel_left_eq, true_and] at htail
  exact ⟨hnm, htail⟩

/-- The words are of one length, and no two operations have the same. -/
theorem Operator.words_append_inj {op op' : Operator} {word word' : String}
    (h : (op, word) ∈ words) (h' : (op', word') ∈ words)
    (heq : word.toList ++ rest = word'.toList ++ rest') : op = op' ∧ rest = rest' := by
  have hlength : ∀ x ∈ words, x.2.toList.length = 3 := by decide
  have hinj : ∀ x ∈ words, ∀ y ∈ words, x.2 = y.2 → x.1 = y.1 := by decide
  obtain ⟨hword, hrest⟩ := List.append_inj heq ((hlength _ h).trans (hlength _ h').symm)
  exact ⟨hinj _ h _ h' (String.toList_inj.1 hword), hrest⟩

/-- No text shows two tokens, and a token ends where its braces do. -/
theorem Token.ShownAs.append_inj (h : token.ShownAs cs) (h' : token'.ShownAs cs')
    (heq : cs ++ rest = cs' ++ rest') : token = token' ∧ rest = rest' := by
  have hkind : token.kind = token'.kind := by
    rw [← String.toList_inj, ← h.takeWhile_append rest, heq, h'.takeWhile_append]
  cases h with
  | operand hstart hlength =>
    cases h' with
    | operator => simp [kind] at hkind
    | foreign => simp [kind] at hkind
    | operand hstart' hlength' =>
      obtain ⟨hn, htail⟩ := fields_append_inj hstart hstart' heq
      have hend (cs : List Char) : ∀ c ∈ ([' ', '}'] ++ cs).head?, isPart c = false :=
        isPart_head?_cons (by decide) _
      obtain ⟨hm, hrest⟩ := hlength.append_inj hlength' (hend rest) (hend rest') htail
      obtain rfl := Int.ofNat_inj.1 hn
      obtain rfl := Int.ofNat_inj.1 hm
      exact ⟨rfl, List.append_cancel_left hrest⟩
  | operator hstart hword =>
    cases h' with
    | operand => simp [kind] at hkind
    | foreign => simp [kind] at hkind
    | operator hstart' hword' =>
      obtain ⟨hn, htail⟩ := fields_append_inj hstart hstart' heq
      obtain ⟨rfl, hrest⟩ := Operator.words_append_inj hword hword' htail
      obtain rfl := Int.ofNat_inj.1 hn
      exact ⟨rfl, List.append_cancel_left hrest⟩
  | foreign hstart hquotation =>
    cases h' with
    | operand => simp [kind] at hkind
    | operator => simp [kind] at hkind
    | foreign hstart' hquotation' =>
      obtain ⟨hn, htail⟩ := fields_append_inj hstart hstart' heq
      have hread := congrArg (Text.unquote? '\'') htail
      rw [hquotation, hquotation', Option.some.injEq, Prod.mk.injEq, List.singleton_inj] at hread
      obtain ⟨rfl, hrest⟩ := hread
      obtain rfl := Int.ofNat_inj.1 hn
      exact ⟨rfl, List.append_cancel_left hrest⟩

/-- The parts of a joined text, each with the separator before it. -/
theorem intercalate_cons_eq (separator part : List Char) (parts : List (List Char)) :
    separator.intercalate (part :: parts) = part ++ parts.flatMap (separator ++ ·) := by
  induction parts generalizing part with
  | nil => simp only [List.intercalate_singleton, List.flatMap_nil, List.append_nil]
  | cons next parts ih =>
    rw [List.intercalate_cons_cons, ih, List.flatMap_cons, List.append_assoc, List.append_assoc]

/-- Behind a value stands a comma or the closing bracket. -/
theorem isPart_head?_values (xs : List (List Char)) :
    ∀ c ∈ (xs.flatMap (", ".toList ++ ·) ++ [']']).head?, isPart c = false := by
  cases xs with
  | nil => exact isPart_head?_cons (by decide) []
  | cons x xs => exact isPart_head?_cons (by decide) _

/-- The induction is on the values behind the first one, each of which ends where the next begins. -/
theorem eq_of_flatMap_values_eq (hxs : List.Forall₂ Denotes xs ns) (hys : List.Forall₂ Denotes ys ms)
    (heq : xs.flatMap (", ".toList ++ ·) ++ [']'] = ys.flatMap (", ".toList ++ ·) ++ [']']) :
    ns = ms := by
  induction hxs generalizing ys ms with
  | nil =>
    cases hys with
    | nil => rfl
    | cons => nomatch heq
  | cons hx hxs ih =>
    cases hys with
    | nil => nomatch heq
    | cons hy hys =>
      rw [List.flatMap_cons, List.flatMap_cons, List.append_assoc, List.append_assoc,
        List.append_assoc, List.append_assoc] at heq
      obtain ⟨rfl, htail⟩ := hx.append_inj hy (isPart_head?_values _) (isPart_head?_values _)
        (List.append_cancel_left heq)
      rw [ih hys htail]

/-- No text between brackets shows two stacks. -/
theorem eq_of_values_eq (hxs : List.Forall₂ Denotes xs ns) (hys : List.Forall₂ Denotes ys ms)
    (heq : ", ".toList.intercalate xs ++ [']'] = ", ".toList.intercalate ys ++ [']']) :
    ns = ms := by
  cases hxs with
  | nil =>
    cases hys with
    | nil => rfl
    | cons hy _ =>
      rw [intercalate_cons_eq, List.append_assoc] at heq
      exact absurd heq.symm (hy.append_ne_cons (by decide))
  | cons hx hxs =>
    cases hys with
    | nil =>
      rw [intercalate_cons_eq, List.append_assoc] at heq
      exact absurd heq (hx.append_ne_cons (by decide))
    | cons hy hys =>
      rw [intercalate_cons_eq, intercalate_cons_eq, List.append_assoc, List.append_assoc] at heq
      obtain ⟨rfl, htail⟩ := hx.append_inj hy (isPart_head?_values _) (isPart_head?_values _) heq
      rw [eq_of_flatMap_values_eq hxs hys htail]

/-- No line shows two tokens or two stacks. -/
theorem ShowsVisit.unique (h : ShowsVisit line visit) (h' : ShowsVisit line visit') :
    visit = visit' := by
  obtain ⟨cs, values, htoken, hvalues, rfl⟩ := h
  obtain ⟨cs', values', htoken', hvalues', hline⟩ := h'
  have heq := String.ofList_injective (Prod.mk.inj hline).2
  obtain ⟨htokens, hrest⟩ := htoken.append_inj htoken' heq
  have hstacks := eq_of_values_eq hvalues hvalues' (List.append_cancel_left hrest)
  exact Prod.ext htokens (List.reverse_injective hstacks)

/-- Lines that show visits show no others. -/
theorem forall₂_showsVisit_iff {lines : List (Level × String)} {shown : List (Token × List Int)}
    (h : List.Forall₂ ShowsVisit lines shown) (shown' : List (Token × List Int)) :
    List.Forall₂ ShowsVisit lines shown' ↔ shown' = shown := by
  constructor
  · intro h'
    have hunique : Relator.RightUnique ShowsVisit := fun _ _ _ hline hline' => hline.unique hline'
    exact hunique.forall₂ h' h
  · rintro rfl
    exact h

end Unique

/-- The parts of a token are two fields with their labels. -/
theorem Token.toList_braced (kind first second : String)
    {opening label between position value : String}
    (hopening : opening.toList = kind.toList ++ [' '])
    (hlabel : label.toList = first.toList ++ [':', ' '])
    (hbetween : between.toList = ',' :: ' ' :: second.toList ++ [':', ' ']) :
    (opening ++ braced (label ++ position ++ between ++ value)).toList =
      fields kind first position.toList second value.toList := by
  simp only [braced, String.toList_append, String.toList_singleton, hopening, hlabel, hbetween,
    List.append_assoc, List.cons_append, fields]
  rfl

theorem Token.shownAs_describeWith (token : Token) :
    token.ShownAs (token.describeWith Text.isHidden).toList := by
  cases token with
  | operand start length =>
    show ShownAs _ ("Operand " ++ braced ("from: " ++ _ ++ ", len: " ++ _)).toList
    rw [toList_braced "Operand" "from" "len" rfl rfl rfl, Nat.toList_repr, Nat.toList_repr]
    exact .operand (Numeral.denotes_toDigits start) (Numeral.denotes_toDigits length)
  | operator start op =>
    show ShownAs _ ("Operator " ++ braced ("at: " ++ _ ++ ", op: " ++ _)).toList
    rw [toList_braced "Operator" "at" "op" rfl rfl rfl, Nat.toList_repr]
    exact .operator (Numeral.denotes_toDigits start) (by cases op <;> decide)
  | foreign start c =>
    show ShownAs _ ("Unknown " ++ braced ("at: " ++ _ ++ ", lexeme: " ++ _)).toList
    rw [toList_braced "Unknown" "at" "lexeme" rfl rfl rfl, Nat.toList_repr, String.toList_ofList]
    exact .foreign (Numeral.denotes_toDigits start) (Text.unquote?_quoted (.inr rfl) [c])

/-- The line of an executed token shows it, with the stack before it. -/
theorem showsVisit_line (token : Token) (stack : List Int) :
    ShowsVisit (Record.executing token stack).line (token, stack) := by
  refine ⟨_, stack.reverse.map Numeral.decimal, token.shownAs_describeWith, ?_, ?_⟩
  · rw [List.forall₂_map_left_iff, List.forall₂_same]
    exact fun n _ => Numeral.denotes_decimal n
  · have hvalues : (stack.reverse.map fun n => String.ofList (Numeral.decimal n)).map String.toList =
        stack.reverse.map Numeral.decimal := by
      simp only [List.map_map, Function.comp_def, String.toList_ofList]
    refine Prod.ext rfl (String.toList_inj.1 ?_)
    show (token.describeWith Text.isHidden ++ " stack=" ++ Record.describeStack stack).toList = _
    simp only [Record.describeStack, String.toList_append, String.toList_intercalate, hvalues,
      String.toList_ofList, List.append_assoc]
    rfl

theorem showsRefusal_line (text : String) (fault : Fault) :
    ShowsRefusal (Record.refused text fault).line text fault := by
  have hread : Text.unquote? '"' (Text.quoted Text.isHidden '"' text.toList ++ []) =
      some (text.toList, []) := Text.unquote?_quoted (.inl rfl) text.toList []
  rw [List.append_nil] at hread
  exact ⟨_, hread, fault.ofMessage?_messageWith Text.isHidden, rfl⟩

end StackCalc
