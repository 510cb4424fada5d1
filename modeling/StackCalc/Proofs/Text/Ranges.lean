import StackCalc.Program

/-!
# Byte ranges of a text

A byte range of a text can be taken out if it cuts no character in two, that is, if a character starts
at each of its ends or the text ends there (`isSome_slice?_iff`). It then holds the one part of the text
that has the right number of bytes in front of it and in itself (`IsRange`).
-/

namespace StackCalc

namespace Text

variable {text before taken after before' taken' after' : String} {start length more : Nat}

/-- The text is written in three parts, and the second of them takes up a range of bytes. -/
structure IsRange (text : String) (start length : Nat) (before taken after : String) : Prop where
  text_eq : text = before ++ taken ++ after
  size_before : before.utf8ByteSize = start
  size_taken : taken.utf8ByteSize = length

theorem slice?_eq_some_iff_isRange :
    slice? text start length = some taken ↔
      ∃ before after, IsRange text start length before taken after := by
  rw [slice?_eq_some_iff]
  constructor
  · rintro ⟨before, after, htext, hstart, hlength⟩
    refine ⟨String.ofList before, String.ofList after, ?_, ?_, ?_⟩
    · rw [← String.toList_inj, htext]
      simp only [String.toList_append, String.toList_ofList, List.append_assoc]
    · rw [utf8ByteSize_ofList, hstart]
    · rw [← byteLength_toList, hlength]
  · rintro ⟨before, after, rfl, rfl, rfl⟩
    refine ⟨before.toList, after.toList, ?_, byteLength_toList before, byteLength_toList taken⟩
    rw [String.toList_append, String.toList_append, List.append_assoc]

/-- Two ways to write a text in two parts agree if the first parts have the same length. -/
theorem append_inj_of_utf8ByteSize (h : before ++ after = before' ++ after')
    (hsize : before.utf8ByteSize = before'.utf8ByteSize) : before = before' ∧ after = after' := by
  have hbytes : before.toByteArray ++ after.toByteArray =
      before'.toByteArray ++ after'.toByteArray := by
    rw [← String.toByteArray_append, h, String.toByteArray_append]
  obtain rfl := String.toByteArray_inj.1 (ByteArray.append_inj_left hbytes hsize)
  exact ⟨rfl, (String.append_right_inj before).1 h⟩

theorem IsRange.unique (h : IsRange text start length before taken after)
    (h' : IsRange text start length before' taken' after') :
    before = before' ∧ taken = taken' ∧ after = after' := by
  have htext := h.text_eq.symm.trans h'.text_eq
  rw [String.append_assoc, String.append_assoc] at htext
  obtain ⟨hbefore, hrest⟩ :=
    append_inj_of_utf8ByteSize htext (h.size_before.trans h'.size_before.symm)
  exact ⟨hbefore, append_inj_of_utf8ByteSize hrest (h.size_taken.trans h'.size_taken.symm)⟩

/-- Two ranges of which the second starts where the first ends make up one range. -/
theorem IsRange.append (h : IsRange text start length before taken after)
    (h' : IsRange text (start + length) more before' taken' after') :
    IsRange text start (length + more) before (taken ++ taken') after' := by
  have htext : before ++ taken ++ after = before' ++ (taken' ++ after') := by
    rw [← h.text_eq, h'.text_eq, String.append_assoc]
  have hsize : (before ++ taken).utf8ByteSize = before'.utf8ByteSize := by
    rw [String.utf8ByteSize_append, h.size_before, h.size_taken, h'.size_before]
  obtain ⟨-, hafter⟩ := append_inj_of_utf8ByteSize htext hsize
  refine ⟨?_, h.size_before, ?_⟩
  · rw [h.text_eq, hafter]
    simp only [String.append_assoc]
  · rw [String.utf8ByteSize_append, h.size_taken, h'.size_taken]

theorem slice?_add_length (h : slice? text start length = some taken)
    (h' : slice? text (start + length) more = some taken') :
    slice? text start (length + more) = some (taken ++ taken') := by
  obtain ⟨before, after, hrange⟩ := slice?_eq_some_iff_isRange.1 h
  obtain ⟨before', after', hrange'⟩ := slice?_eq_some_iff_isRange.1 h'
  exact slice?_eq_some_iff_isRange.2 ⟨before, after', hrange.append hrange'⟩

/-- A text can be cut at the places where a character starts or the text ends, and nowhere else. -/
theorem isSome_splitAtByte?_iff :
    (splitAtByte? start text.toList).isSome ↔ (String.Pos.Raw.mk start).IsValid text := by
  rw [Option.isSome_iff_exists, String.Pos.Raw.isValid_iff_exists_append]
  constructor
  · rintro ⟨⟨before, after⟩, hcut⟩
    obtain ⟨htext, rfl⟩ := splitAtByte?_eq_some_iff.1 hcut
    refine ⟨String.ofList before, String.ofList after, ?_, ?_⟩
    · rw [← String.ofList_append, ← htext, String.ofList_toList]
    · rw [String.Pos.Raw.ext_iff, String.byteIdx_rawEndPos, utf8ByteSize_ofList]
  · rintro ⟨before, after, rfl, hstart⟩
    rw [String.Pos.Raw.ext_iff, String.byteIdx_rawEndPos] at hstart
    refine ⟨(before.toList, after.toList), splitAtByte?_eq_some_iff.2 ⟨String.toList_append, ?_⟩⟩
    rw [byteLength_toList, ← hstart]

/-- A range can be taken out if and only if the text can be cut at both of its ends. -/
theorem isSome_slice?_iff :
    (slice? text start length).isSome ↔ (String.Pos.Raw.mk start).IsValid text ∧
      (String.Pos.Raw.mk (start + length)).IsValid text := by
  rw [← isSome_splitAtByte?_iff, ← isSome_splitAtByte?_iff, slice?]
  cases hcut : splitAtByte? start text.toList with
  | none => simp
  | some parts =>
    obtain ⟨before, tail⟩ := parts
    obtain ⟨htext, rfl⟩ := splitAtByte?_eq_some_iff.1 hcut
    rw [htext, splitAtByte?_add]
    simp

theorem bytes_append (text text' : String) : bytes (text ++ text') = bytes text ++ bytes text' := by
  rw [bytes, String.toByteArray_append, ByteArray.data_append, Array.toList_append]
  rfl

theorem length_bytes (text : String) : (bytes text).length = text.utf8ByteSize := Array.length_toList

/-- The bytes of what a range holds are those of the text in the range. -/
theorem IsRange.bytes_taken (h : IsRange text start length before taken after) :
    bytes taken = ((bytes text).drop start).take length := by
  obtain ⟨rfl, rfl, rfl⟩ := h
  rw [bytes_append, bytes_append, List.append_assoc, ← length_bytes, ← length_bytes,
    List.drop_left, List.take_left]

end Text

namespace Program

/-- The text at a byte range of the source is the part of the source with exactly these bytes. There
    is none if and only if the range leaves the source or an end of it is inside a character. Ranges
    that touch can be joined, and a range keeps its text when something is put in front of the source
    and the range moves with it. -/
theorem textAt?_eq_part_of_source (p : Program) (start length : Nat) :
    (∀ taken, p.textAt? start length = some taken ↔
      ∃ before after, Text.IsRange p.source start length before taken after) ∧
    (∀ before taken after before' taken' after',
      Text.IsRange p.source start length before taken after →
      Text.IsRange p.source start length before' taken' after' →
      before = before' ∧ taken = taken' ∧ after = after') ∧
    ((p.textAt? start length).isSome ↔ (String.Pos.Raw.mk start).IsValid p.source ∧
      (String.Pos.Raw.mk (start + length)).IsValid p.source) ∧
    (∀ taken, p.textAt? start length = some taken →
      Text.bytes taken = ((Text.bytes p.source).drop start).take length) ∧
    (∀ more taken taken', p.textAt? start length = some taken →
      p.textAt? (start + length) more = some taken' →
      p.textAt? start (length + more) = some (taken ++ taken')) ∧
    (∀ front tokens, (Program.mk (front ++ p.source) tokens).textAt?
      (front.utf8ByteSize + start) length = p.textAt? start length) := by
  refine ⟨fun _ => Text.slice?_eq_some_iff_isRange, ?_, Text.isSome_slice?_iff, ?_, ?_, ?_⟩
  · intro before taken after before' taken' after' h h'
    exact h.unique h'
  · intro taken h
    obtain ⟨before, after, hrange⟩ := Text.slice?_eq_some_iff_isRange.1 h
    exact hrange.bytes_taken
  · intro more taken taken' h h'
    exact Text.slice?_add_length h h'
  · intro front tokens
    rw [← Text.byteLength_toList]
    exact Text.slice?_add String.toList_append start length

/-- The second character of `aé` takes up two bytes, and there is not even an empty text between
    them. -/
example :
    let p : Program := ⟨"aé", []⟩
    p.textAt? 1 2 = some "é" ∧ p.textAt? 1 1 = none ∧ p.textAt? 2 0 = none := by decide +kernel

end Program

end StackCalc
