import Mathlib.Data.String.Basic
import LoxLexer.Proofs.Source.Proper

/-! # Octets

The UTF-8 form of a text, octet by octet, each octet written as the character of that number. A
character below 128 is its own octet, and no other character has an octet below 128. So whether an
octet is a digit, a letter, a quotation mark or a newline is the same question for the character it
belongs to (`Octetwise`), and a run of such characters is a run of such octets. -/

namespace LoxLexer

/-- The octets of a character. -/
def octets (c : Char) : List Char :=
  (String.utf8EncodeChar c).map Char.ofUInt8

/-- The octets of a text. -/
def encoded (cs : List Char) : List Char :=
  cs.flatMap octets

/-- The octet at a position of the source. -/
def octetAt? (source : String) (position : Nat) : Option Char :=
  source.toByteArray.data[position]?.map Char.ofUInt8

/-- An octet written as a character keeps its number. -/
theorem toNat_ofUInt8 (byte : UInt8) : (Char.ofUInt8 byte).toNat = byte.toNat := by
  change byte.toUInt32.toNat = byte.toNat
  exact UInt8.toNat_toUInt32 byte

/-- An ASCII character is its own octet. -/
theorem octets_of_lt {c : Char} (ascii : c.toNat < 128) : octets c = [c] := by
  have small : c.val.toNat ≤ 127 := Nat.le_of_lt_succ ascii
  have same : Char.ofUInt8 (UInt8.ofNat c.val.toNat) = c := by
    apply Char.toNat_inj.mp
    rw [toNat_ofUInt8, UInt8.toNat_ofNat']
    exact Nat.mod_eq_of_lt (by omega)
  unfold octets String.utf8EncodeChar
  simp only [small, ↓reduceIte, List.map_cons, List.map_nil, same]

/-- No octet of a character beyond ASCII is ASCII. -/
theorem le_toNat_of_mem_octets {c octet : Char} (large : 128 ≤ c.toNat)
    (member : octet ∈ octets c) : 128 ≤ octet.toNat := by
  obtain ⟨byte, found, rfl⟩ := List.mem_map.mp member
  rw [toNat_ofUInt8]
  have value : ¬ c.val.toNat ≤ 127 := Nat.not_le.mpr large
  have of_le {n : Nat} (least : 128 ≤ n) (most : n < 256) : 128 ≤ (UInt8.ofNat n).toNat := by
    rw [UInt8.toNat_ofNat', Nat.mod_eq_of_lt most]
    exact least
  unfold String.utf8EncodeChar at found
  simp only [value, ↓reduceIte] at found
  -- An octet that begins a character is at least 192, any other of several is at least 128.
  split at found
  · rcases List.mem_pair.mp found with rfl | rfl <;> exact of_le (by omega) (by omega)
  split at found
  · rcases List.mem_cons.mp found with rfl | later
    · exact of_le (by omega) (by omega)
    rcases List.mem_pair.mp later with rfl | rfl <;> exact of_le (by omega) (by omega)
  · rcases List.mem_cons.mp found with rfl | later
    · exact of_le (by omega) (by omega)
    rcases List.mem_cons.mp later with rfl | later
    · exact of_le (by omega) (by omega)
    rcases List.mem_pair.mp later with rfl | rfl <;> exact of_le (by omega) (by omega)

/-- There are as many octets as the character takes in UTF-8. -/
theorem length_octets (c : Char) : (octets c).length = c.utf8Size := by
  rw [octets, List.length_map, String.length_utf8EncodeChar]

theorem octets_ne_nil (c : Char) : octets c ≠ [] := by
  apply List.ne_nil_of_length_pos
  rw [length_octets]
  exact c.utf8Size_pos

/-! ## Characters told by their octets -/

/-- The answer for a character is the answer for each of its octets. -/
def Octetwise (p : Char → Bool) : Prop :=
  ∀ c, ∀ octet ∈ octets c, p octet = p c

/-- It is enough that all large characters have one answer. -/
theorem octetwise_of_large {p : Char → Bool} {answer : Bool}
    (large : ∀ c : Char, 128 ≤ c.toNat → p c = answer) : Octetwise p := by
  intro c octet member
  by_cases ascii : c.toNat < 128
  · rw [octets_of_lt ascii] at member
    rw [List.mem_singleton.mp member]
  · have beyond : 128 ≤ c.toNat := Nat.not_lt.mp ascii
    rw [large c beyond, large octet (le_toNat_of_mem_octets beyond member)]

section Large
variable {c : Char} (large : 128 ≤ c.toNat)
include large

/-- A character beyond ASCII is no ASCII character. -/
theorem ne_of_large {d : Char} (small : d.toNat < 128) : c ≠ d := by
  rintro rfl
  omega

/-- No character beyond ASCII can stand in a word. -/
theorem isWordCharacter_of_large : isWordCharacter c = false := by
  rw [Bool.eq_false_iff]
  intro word
  exact absurd (toNat_lt_of_isWordCharacter word) (Nat.not_lt.mpr large)

theorem isBlank_of_large : isBlank c = false := by
  rw [Bool.eq_false_iff, ne_eq, isBlank_iff, not_or]
  exact ⟨ne_of_large large (by decide), ne_of_large large (by decide)⟩

theorem single?_of_large : Punctuator.single? c = none := by
  rw [Option.eq_none_iff_forall_ne_some]
  intro mark found
  have text := Punctuator.text_of_single? found
  cases mark <;> cases text <;> exact absurd large (by decide)

/-- A character beyond ASCII begins nothing. -/
theorem isStray_of_large : IsStray c where
  not_blank := isBlank_of_large large
  not_newline := ne_of_large large (by decide)
  not_quote := ne_of_large large (by decide)
  not_digit := (Bool.or_eq_false_iff.mp (isWordCharacter_of_large large)).2
  not_letter := (Bool.or_eq_false_iff.mp (isWordCharacter_of_large large)).1
  not_mark := single?_of_large large

end Large

/-- Every mark begins with an ASCII character. -/
theorem toNat_lt_of_single? {c : Char} {mark : Punctuator}
    (found : Punctuator.single? c = some mark) : c.toNat < 128 := by
  by_contra large
  rw [single?_of_large (Nat.not_lt.mp large)] at found
  cases found

/-- The octets of a character that begins nothing begin nothing. -/
theorem IsStray.of_mem_octets {c octet : Char} (stray : IsStray c) (member : octet ∈ octets c) :
    IsStray octet := by
  by_cases ascii : c.toNat < 128
  · rw [octets_of_lt ascii] at member
    rwa [List.mem_singleton.mp member]
  · exact isStray_of_large (le_toNat_of_mem_octets (Nat.not_lt.mp ascii) member)

/-- Whether a character is a digit is told by any of its octets. -/
theorem octetwise_isDigit : Octetwise Char.isDigit :=
  octetwise_of_large fun _ large => (Bool.or_eq_false_iff.mp (isWordCharacter_of_large large)).2

/-- Whether a character can stand in a word is told by any of its octets. -/
theorem octetwise_isWordCharacter : Octetwise isWordCharacter :=
  octetwise_of_large fun _ large => isWordCharacter_of_large large

/-- Whether a character is other than a certain ASCII character is told by any of its octets. -/
theorem octetwise_bne {d : Char} (small : d.toNat < 128) : Octetwise (· != d) :=
  octetwise_of_large fun _ large => bne_iff_ne.mpr (ne_of_large large small)

theorem octetwise_beq {d : Char} (small : d.toNat < 128) : Octetwise (· == d) :=
  octetwise_of_large fun _ large => beq_eq_false_iff_ne.mpr (ne_of_large large small)

namespace Octetwise
variable {p : Char → Bool} (octetwise : Octetwise p)
include octetwise

/-- The octets of characters of a class are of the class. -/
theorem forall_mem_encoded {body : List Char} (inside : ∀ c ∈ body, p c = true) :
    ∀ octet ∈ encoded body, p octet = true := by
  intro octet member
  obtain ⟨c, member, belongs⟩ := List.mem_flatMap.mp member
  rw [octetwise c octet belongs]
  exact inside c member

/-- If the first character is not of a class, the first octet is not. -/
theorem forall_head?_encoded {rest : List Char} (outside : ∀ c ∈ rest.head?, p c = false) :
    ∀ octet ∈ (encoded rest).head?, p octet = false := by
  cases rest with
  | nil => nofun
  | cons c rest =>
      intro octet first
      rw [encoded, List.flatMap_cons, List.head?_append_of_ne_nil _ (octets_ne_nil c)] at first
      rw [octetwise c octet (List.mem_of_mem_head? first)]
      exact outside c rfl

/-- The octet that comes next is in the class that the character is in that comes next; NUL stands
for none. -/
theorem head?_encoded (nul : p '\x00' = false) (rest : List Char) :
    p ((encoded rest).head?.getD '\x00') = rest.head?.any p := by
  cases rest with
  | nil => exact nul
  | cons c rest =>
      obtain ⟨octet, others, octets_eq⟩ := List.exists_cons_of_ne_nil (octets_ne_nil c)
      rw [encoded, List.flatMap_cons, octets_eq]
      apply octetwise c
      rw [octets_eq]
      exact List.mem_cons_self

end Octetwise

/-! ## Texts -/

/-- The octets of a text are those of its parts, one part after the other. -/
theorem encoded_append (first second : List Char) :
    encoded (first ++ second) = encoded first ++ encoded second :=
  List.flatMap_append

theorem encoded_cons (c : Char) (cs : List Char) : encoded (c :: cs) = octets c ++ encoded cs :=
  List.flatMap_cons

/-- The octets of a text begin with its first character, if that is ASCII. -/
theorem encoded_cons_of_lt {c : Char} (ascii : c.toNat < 128) (cs : List Char) :
    encoded (c :: cs) = c :: encoded cs := by
  rw [encoded_cons, octets_of_lt ascii, List.singleton_append]

theorem encoded_eq_nil_iff {cs : List Char} : encoded cs = [] ↔ cs = [] := by
  cases cs with
  | nil => exact ⟨fun _ => rfl, fun _ => rfl⟩
  | cons c cs => simp [encoded, octets_ne_nil]

/-- A text that is not empty has an octet. -/
theorem length_encoded_pos {cs : List Char} (some_text : cs ≠ []) : 0 < (encoded cs).length :=
  List.length_pos_iff.mpr (mt encoded_eq_nil_iff.mp some_text)

theorem length_encoded_cons {c : Char} (ascii : c.toNat < 128) (cs : List Char) :
    (encoded (c :: cs)).length = 1 + (encoded cs).length := by
  rw [encoded_cons_of_lt ascii, List.length_cons, Nat.add_comm]

/-- There are as many newlines among the octets as among the characters. -/
theorem count_newline_encoded (cs : List Char) : (encoded cs).count '\n' = cs.count '\n' := by
  induction cs with
  | nil => rfl
  | cons c cs ih =>
      rw [encoded_cons, List.count_append, ih]
      by_cases ascii : c.toNat < 128
      · rw [octets_of_lt ascii, ← List.count_append, List.singleton_append]
      · have large : 128 ≤ c.toNat := Nat.not_lt.mp ascii
        have absent : '\n' ∉ octets c := by
          intro member
          exact absurd (le_toNat_of_mem_octets large member) (by decide)
        rw [List.count_eq_zero.mpr absent, List.count_cons_of_ne (ne_of_large large (by decide)),
          Nat.zero_add]

/-- A text has as many octets as bytes. -/
theorem length_encoded_eq (cs : List Char) :
    (encoded cs).length = (String.ofList cs).utf8ByteSize := by
  change _ = (String.ofList cs).toByteArray.size
  rw [String.toByteArray_ofList, List.utf8Encode, ← ByteArray.size_data, List.data_toByteArray]
  simp [encoded, octets, List.length_flatMap]

theorem length_encoded (source : String) :
    (encoded source.toList).length = source.utf8ByteSize := by
  rw [length_encoded_eq, String.ofList_toList]

/-- The octet at a position is that of the source's characters. -/
theorem octetAt?_eq (source : String) (position : Nat) :
    octetAt? source position = (encoded source.toList)[position]? := by
  rw [octetAt?, ← String.utf8Encode_toList, List.utf8Encode, List.data_toByteArray]
  rw [List.getElem?_toArray, ← List.getElem?_map, List.map_flatMap]
  rfl

/-- Only positions inside the source have an octet. -/
theorem lt_utf8ByteSize_of_octetAt? {source : String} {position : Nat} {octet : Char}
    (found : octetAt? source position = some octet) : position < source.utf8ByteSize := by
  rw [octetAt?_eq] at found
  rw [← length_encoded]
  exact (List.getElem?_eq_some_iff.mp found).1

/-- The octet that comes next is not one of a character that does not come next. -/
theorem head?_encoded_ne {d : Char} {rest : List Char} (small : d.toNat < 128)
    (other : rest.head? ≠ some d) : (encoded rest).head? ≠ some d := by
  have outside : ∀ c ∈ rest.head?, (c == d) = false := by
    intro c head
    rw [beq_eq_false_iff_ne]
    rintro rfl
    exact other head
  intro first
  have absurdly := (octetwise_beq small).forall_head?_encoded outside d first
  rw [beq_self_eq_true] at absurdly
  cases absurdly

/-! ## Positions -/

/-- A position between two characters, or at one of the ends. -/
def IsBoundary (source : String) (position : Nat) : Prop :=
  (String.Pos.Raw.mk position).IsValid source

instance (source : String) : DecidablePred (IsBoundary source) :=
  fun position => inferInstanceAs (Decidable ((String.Pos.Raw.mk position).IsValid source))

/-- The text from one position to another, unless they are out of order, or one of them is past the
end or inside a character. -/
def textBetween? (source : String) (start stop : Nat) : Option String :=
  if ends : start ≤ stop ∧ IsBoundary source start ∧ IsBoundary source stop then
    some (String.extract (⟨⟨start⟩, ends.2.1⟩ : source.Pos) ⟨⟨stop⟩, ends.2.2⟩)
  else none

/-- Behind a beginning of the source there is a boundary between characters. -/
theorem isBoundary_length_encoded {source : String} {before rest : List Char}
    (whole : before ++ rest = source.toList) : IsBoundary source (encoded before).length := by
  apply String.Pos.Raw.isValid_iff_exists_append.mpr
  refine ⟨String.ofList before, String.ofList rest, ?_, ?_⟩
  · rw [← String.ofList_append, whole, String.ofList_toList]
  · rw [length_encoded_eq]
    rfl

/-- What is cut out between two boundaries is the text between them. -/
theorem textBetween?_append {source : String} {before middle rest : List Char}
    (whole : before ++ (middle ++ rest) = source.toList) :
    textBetween? source (encoded before).length (encoded (before ++ middle)).length =
      some (String.ofList middle) := by
  have first : IsBoundary source (encoded before).length := isBoundary_length_encoded whole
  have last : IsBoundary source (encoded (before ++ middle)).length :=
    isBoundary_length_encoded ((List.append_assoc _ _ _).trans whole)
  have ordered : (encoded before).length ≤ (encoded (before ++ middle)).length := by
    rw [encoded_append, List.length_append]
    exact Nat.le_add_right _ _
  have bytes : source.toByteArray = (String.ofList before).toByteArray ++
      ((String.ofList middle).toByteArray ++ (String.ofList rest).toByteArray) := by
    rw [← String.ofList_toList (s := source), ← whole]
    simp
  unfold textBetween?
  rw [dif_pos ⟨ordered, first, last⟩, Option.some_inj, ← String.toByteArray_inj,
    String.toByteArray_extract, bytes]
  simp only [length_encoded_eq, String.ofList_append, String.utf8ByteSize_append]
  have skipped := ByteArray.extract_append_size_add
    (a := (String.ofList before).toByteArray) (i := 0) (j := (String.ofList middle).utf8ByteSize)
    (b := (String.ofList middle).toByteArray ++ (String.ofList rest).toByteArray)
  rw [Nat.add_zero] at skipped
  exact skipped.trans (ByteArray.extract_append_eq_left rfl)

end LoxLexer
