import Mathlib.Tactic.Common

/-!
# UTF-8 and UTF-16

A code point takes one to four bytes, and two units of UTF-16 only where it takes
four bytes: a text never has more units than bytes.
-/

namespace CRun

def utf8Bytes (text : List Char) : List UInt8 := text.flatMap String.utf8EncodeChar

/-- One unit, or a pair of surrogates. -/
def utf16Char (char : Char) : List UInt16 :=
  if char.toNat < 0x10000 then [UInt16.ofNat char.toNat]
  else [UInt16.ofNat (0xD800 + (char.toNat - 0x10000) / 0x400),
    UInt16.ofNat (0xDC00 + (char.toNat - 0x10000) % 0x400)]

def utf16Units (text : List Char) : List UInt16 := text.flatMap utf16Char

/-- The units of some bytes; an ill-formed text gives a replacement for each byte. -/
def utf8ToWide (bytes : List UInt8) : List UInt16 :=
  match bytes.toByteArray.utf8Decode? with
  | some text => utf16Units text.toList
  | none => bytes.map fun _ => 0xFFFD

theorem length_utf16Char_le (char : Char) :
    (utf16Char char).length ≤ (String.utf8EncodeChar char).length := by
  rw [String.length_utf8EncodeChar, utf16Char]
  split_ifs with basic
  · exact char.utf8Size_pos
  · have large : ¬ char.val.toNat ≤ 0xFFFF := fun small => basic (Nat.lt_succ_of_le small)
    simp only [Char.utf8Size, UInt32.le_iff_toNat_le]
    split_ifs with one two three
    · exact absurd (Nat.le_trans one (by decide)) large
    · exact absurd (Nat.le_trans two (by decide)) large
    · exact absurd three large
    · exact Nat.le_add_right 2 2

theorem length_utf16Units_le (text : List Char) :
    (utf16Units text).length ≤ (utf8Bytes text).length := by
  induction text with
  | nil => exact Nat.le_refl 0
  | cons char text inductionHypothesis =>
      rw [utf16Units, utf8Bytes, List.flatMap_cons, List.flatMap_cons, List.length_append,
        List.length_append]
      exact Nat.add_le_add (length_utf16Char_le char) inductionHypothesis

theorem utf8ToWide_utf8Bytes (text : List Char) :
    utf8ToWide (utf8Bytes text) = utf16Units text := by
  have decoded : (utf8Bytes text).toByteArray.utf8Decode? = some text.toArray :=
    List.utf8Decode?_utf8Encode
  rw [utf8ToWide, decoded]

theorem length_utf8ToWide_le (bytes : List UInt8) : (utf8ToWide bytes).length ≤ bytes.length := by
  unfold utf8ToWide
  split
  next text decoded =>
    have valid : bytes.toByteArray.utf8Decode?.isSome = true := by
      rw [decoded]
      rfl
    obtain ⟨points, encoded⟩ := ByteArray.isSome_utf8Decode?_iff.mp valid
    have same : bytes = utf8Bytes points := by
      have lists := congrArg (fun array => array.data.toList) encoded
      simpa [List.utf8Encode, utf8Bytes] using lists
    have again : (utf8Bytes points).toByteArray.utf8Decode? = some points.toArray :=
      List.utf8Decode?_utf8Encode
    rw [same, again] at decoded
    obtain rfl := Option.some.inj decoded
    rw [same]
    exact length_utf16Units_le points
  next => exact Nat.le_of_eq (List.length_map _)

end CRun
