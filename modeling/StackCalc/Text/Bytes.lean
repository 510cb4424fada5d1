/-!
# Byte offsets in a text

Offsets into a text count the bytes of its UTF-8 form, while a text is a sequence of characters of
one to four bytes each. A byte offset is a place to cut only where it falls between two characters.
`splitAtByte?` cuts there and refuses anything else; `splitAtByte?_eq_some_iff` says that the two
parts are the text and that the first has exactly the wanted length. `slice?` takes a range out of
a text by cutting at both of its ends; `slice?_eq_some_iff` says what stands there.
-/

namespace StackCalc.Text

/-- Length of the UTF-8 form of a sequence of characters. -/
def byteLength : List Char → Nat
  | [] => 0
  | c :: cs => c.utf8Size + byteLength cs

@[simp] theorem byteLength_nil : byteLength [] = 0 := rfl

@[simp] theorem byteLength_cons (c : Char) (cs : List Char) :
    byteLength (c :: cs) = c.utf8Size + byteLength cs := rfl

@[simp] theorem byteLength_append (xs ys : List Char) :
    byteLength (xs ++ ys) = byteLength xs + byteLength ys := by
  induction xs with
  | nil => simp
  | cons c xs ih => simp [ih, Nat.add_assoc]

theorem utf8ByteSize_ofList (cs : List Char) :
    (String.ofList cs).utf8ByteSize = byteLength cs := by
  induction cs with
  | nil => simp
  | cons c cs ih =>
    rw [show c :: cs = [c] ++ cs from rfl, String.ofList_append, String.utf8ByteSize_append, ih]
    simp

theorem byteLength_toList (text : String) : byteLength text.toList = text.utf8ByteSize := by
  rw [← utf8ByteSize_ofList, String.ofList_toList]

/-- The bytes of the UTF-8 form of a text. -/
def bytes (text : String) : List UInt8 := text.toByteArray.data.toList

theorem bytes_ofList (cs : List Char) :
    bytes (String.ofList cs) = cs.flatMap String.utf8EncodeChar := by
  rw [bytes, String.toByteArray_ofList]
  exact List.toList_data_toByteArray

/-- Cuts a sequence of characters after `n` bytes; `none` if that place is inside a character or
    beyond the end. -/
def splitAtByte? : Nat → List Char → Option (List Char × List Char)
  | 0, cs => some ([], cs)
  | _ + 1, [] => none
  | n + 1, c :: cs =>
    if c.utf8Size ≤ n + 1 then
      (splitAtByte? (n + 1 - c.utf8Size) cs).map fun (before, after) => (c :: before, after)
    else none

@[simp] theorem splitAtByte?_zero (cs : List Char) : splitAtByte? 0 cs = some ([], cs) := by
  cases cs <;> rfl

/-- A cut behind a front is a cut of what follows the front. -/
theorem splitAtByte?_add (front cs : List Char) (n : Nat) :
    splitAtByte? (byteLength front + n) (front ++ cs) =
      (splitAtByte? n cs).map fun (before, after) => (front ++ before, after) := by
  induction front with
  | nil => simp
  | cons c front ih =>
    have hpos := c.utf8Size_pos
    obtain ⟨m, hm⟩ : ∃ m, c.utf8Size + byteLength front + n = m + 1 :=
      ⟨_, (Nat.succ_pred (by omega)).symm⟩
    have hrest : m + 1 - c.utf8Size = byteLength front + n := by omega
    simp only [List.cons_append, byteLength_cons, hm, splitAtByte?]
    rw [if_pos (by omega), hrest, ih, Option.map_map]
    rfl

theorem splitAtByte?_append (xs ys : List Char) :
    splitAtByte? (byteLength xs) (xs ++ ys) = some (xs, ys) := by
  have hcut := splitAtByte?_add xs ys 0
  simpa using hcut

theorem append_eq_of_splitAtByte? {n : Nat} {cs before after : List Char}
    (h : splitAtByte? n cs = some (before, after)) :
    before ++ after = cs ∧ byteLength before = n := by
  induction cs generalizing n before with
  | nil =>
    cases n with
    | zero => simp_all
    | succ n => simp [splitAtByte?] at h
  | cons c cs ih =>
    cases n with
    | zero => simp_all
    | succ n =>
      rw [splitAtByte?] at h
      split at h
      next fits =>
        obtain ⟨⟨xs, ys⟩, hcut, hpair⟩ := Option.map_eq_some_iff.1 h
        obtain ⟨rfl, rfl⟩ := Prod.mk.inj hpair
        obtain ⟨happend, hlength⟩ := ih hcut
        exact ⟨by simp [happend], by simp only [byteLength_cons]; omega⟩
      next => exact absurd h (by simp)

/-- A cut after `n` bytes is exactly a way to write the sequence in two parts, the first of them of
    `n` bytes. -/
theorem splitAtByte?_eq_some_iff {n : Nat} {cs before after : List Char} :
    splitAtByte? n cs = some (before, after) ↔ cs = before ++ after ∧ byteLength before = n := by
  constructor
  · intro h
    exact ⟨(append_eq_of_splitAtByte? h).1.symm, (append_eq_of_splitAtByte? h).2⟩
  · rintro ⟨rfl, rfl⟩
    exact splitAtByte?_append before after

/-- The `length` bytes of `text` from byte `start` on; `none` if the range leaves the text or cuts
    a character in two. -/
def slice? (text : String) (start length : Nat) : Option String :=
  match splitAtByte? start text.toList with
  | none => none
  | some (_, tail) => (splitAtByte? length tail).map fun (taken, _) => String.ofList taken

variable {text text' taken : String}

theorem slice?_append {before taken after : List Char}
    (h : text.toList = before ++ (taken ++ after)) :
    slice? text (byteLength before) (byteLength taken) = some (String.ofList taken) := by
  rw [slice?, h, splitAtByte?_append]
  simp only [splitAtByte?_append, Option.map_some]

/-- A range holds exactly what stands between a front and a back, where the front and what is between
    have the right lengths. -/
theorem slice?_eq_some_iff {start length : Nat} :
    slice? text start length = some taken ↔
      ∃ before after, text.toList = before ++ (taken.toList ++ after) ∧
        byteLength before = start ∧ byteLength taken.toList = length := by
  constructor
  · intro h
    rw [slice?] at h
    split at h
    next => simp at h
    next before tail hbefore =>
      obtain ⟨⟨cs, after⟩, hcut, rfl⟩ := Option.map_eq_some_iff.1 h
      obtain ⟨htext, hstart⟩ := splitAtByte?_eq_some_iff.1 hbefore
      obtain ⟨rfl, hlength⟩ := splitAtByte?_eq_some_iff.1 hcut
      rw [String.toList_ofList]
      exact ⟨before, after, htext, hstart, hlength⟩
  · rintro ⟨before, after, htext, rfl, rfl⟩
    rw [slice?_append htext, String.ofList_toList]

theorem byteLength_of_slice? {start length : Nat} (h : slice? text start length = some taken) :
    byteLength taken.toList = length := by
  obtain ⟨before, after, -, -, hlength⟩ := slice?_eq_some_iff.1 h
  exact hlength

/-- A range behind a front is a range of what follows the front. -/
theorem slice?_add {front : List Char} (h : text.toList = front ++ text'.toList)
    (start length : Nat) :
    slice? text (byteLength front + start) length = slice? text' start length := by
  rw [slice?, slice?, h, splitAtByte?_add]
  cases splitAtByte? start text'.toList <;> rfl

/-- A range of a text is still there where the text goes on. -/
theorem slice?_of_append {back : List Char} (h : text.toList = text'.toList ++ back)
    {start length : Nat} (hslice : slice? text' start length = some taken) :
    slice? text start length = some taken := by
  obtain ⟨before, after, htext, hstart, hlength⟩ := slice?_eq_some_iff.1 hslice
  rw [htext, List.append_assoc, List.append_assoc] at h
  exact slice?_eq_some_iff.2 ⟨before, after ++ back, h, hstart, hlength⟩

/-- A range of a part of a text. -/
theorem slice?_of_part {front cs back : List Char} (h : text.toList = front ++ (cs ++ back))
    {start length : Nat} (hslice : slice? (String.ofList cs) start length = some taken) :
    slice? text (byteLength front + start) length = some taken := by
  have hbehind : (String.ofList (cs ++ back)).toList = (String.ofList cs).toList ++ back := by
    rw [String.toList_ofList, String.toList_ofList]
  rw [← String.toList_ofList (l := cs ++ back)] at h
  rw [slice?_add h]
  exact slice?_of_append hbehind hslice

end StackCalc.Text
