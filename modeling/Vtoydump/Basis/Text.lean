import Mathlib.Algebra.Ring.Nat
import Mathlib.Data.List.Infix
import Mathlib.Data.List.TakeWhile
import Mathlib.Tactic.Common
import Vtoydump.Basis.Fault

/-!
# Text in fixed buffers

The functions of the C library that format into a buffer or read a number out
of one.  A buffer that a number is read from need not hold a terminator; the
number then runs past the end of the buffer.
-/

namespace CRun

def snprintf (size : Nat) (text : List Char) : List Char := text.take (size - 1)

theorem snprintf_of_lt {size : Nat} {text : List Char} (fits : text.length < size) :
    snprintf size text = text := List.take_of_length_le (Nat.le_sub_one_of_lt fits)

/-- What `sprintf_s` leaves in a buffer of the given size; it ends the process when
the text does not fit. -/
def sprintfS (size : Nat) (text : List Char) : Run (List Char) :=
  if text.length < size then .ok text else .error .abort

theorem sprintfS_of_lt {size : Nat} {text : List Char} (fits : text.length < size) :
    sprintfS size text = .ok text := if_pos fits

theorem sprintfS_eq_ok_iff {size : Nat} {text printed : List Char} :
    sprintfS size text = .ok printed ↔ text.length < size ∧ printed = text := by
  unfold sprintfS
  split_ifs with fits
  · simp [fits, eq_comm]
  · simp [fits]

/-- `%d` and `%u` of a number that is not negative. -/
def decimal (value : Nat) : List Char := Nat.toDigits 10 value

theorem decimal_length_pos (value : Nat) : 0 < (decimal value).length :=
  Nat.length_toDigits_pos

/-- A zeroed buffer after a text was read into it. -/
def readInto (size : Nat) (text : List Char) : List Char :=
  text.take size ++ List.replicate (size - text.length) '\x00'

def isSpace (char : Char) : Bool := char == ' ' || (9 ≤ char.toNat && char.toNat ≤ 13)

def digitValue (char : Char) : Option Nat :=
  if '0' ≤ char ∧ char ≤ '9' then some (char.toNat - '0'.toNat)
  else if 'a' ≤ char ∧ char ≤ 'f' then some (char.toNat - 'a'.toNat + 10)
  else if 'A' ≤ char ∧ char ≤ 'F' then some (char.toNat - 'A'.toNat + 10)
  else none

def isDigit (base : Nat) (char : Char) : Bool :=
  match digitValue char with
  | none => false
  | some value => value < base

def digitsValue (base : Nat) (digits : List Char) : Nat :=
  digits.foldl (fun value char => value * base + (digitValue char).getD 0) 0

def splitSign : List Char → Bool × List Char
  | '-' :: rest => (true, rest)
  | '+' :: rest => (false, rest)
  | rest => (false, rest)

/-- A hexadecimal number may begin with `0x`. -/
def skipPrefix (base : Nat) : List Char → List Char
  | '0' :: letter :: digit :: rest =>
      if base = 16 ∧ (letter = 'x' ∨ letter = 'X') ∧ isDigit base digit then digit :: rest
      else '0' :: letter :: digit :: rest
  | rest => rest

/-- `strtoul` and `strtoull`, for an unsigned type with the given largest value. -/
def strtoul (largest base : Nat) (buffer : List Char) : Run Nat :=
  let (negative, number) := splitSign (buffer.dropWhile isSpace)
  let digits := (skipPrefix base number).takeWhile (isDigit base)
  if digits.length = (skipPrefix base number).length then .error .outOfBounds
  else
    let value := digitsValue base digits
    if largest < value then .ok largest
    else if negative then .ok ((largest + 1 - value) % (largest + 1))
    else .ok value

def strtoull (buffer : List Char) : Run Nat := strtoul 18446744073709551615 10 buffer

example : strtoull (readInto 64 "2048\n".toList) = .ok 2048 := by decide

example : strtoul 4294967295 16 "0x7FFFF8\x00".toList = .ok 0x7FFFF8 := by decide

theorem isDigit_nul (base : Nat) : isDigit base '\x00' = false := rfl

theorem mem_splitSign {buffer : List Char} (membership : '\x00' ∈ buffer) :
    '\x00' ∈ (splitSign buffer).2 := by
  unfold splitSign
  split
  · simpa using membership
  · simpa using membership
  · exact membership

theorem mem_skipPrefix {base : Nat} {buffer : List Char} (membership : '\x00' ∈ buffer) :
    '\x00' ∈ skipPrefix base buffer := by
  unfold skipPrefix
  split
  next letter digit rest =>
    split_ifs with hexadecimal
    · have notX : letter ≠ '\x00' := by
        rcases hexadecimal.2.1 with rfl | rfl <;> decide
      simpa [notX.symm] using membership
    · exact membership
  next => exact membership

/-- A number in front of a terminator does not run past the buffer. -/
theorem exists_strtoul_of_mem {largest base : Nat} {buffer : List Char}
    (membership : '\x00' ∈ buffer) : ∃ value, strtoul largest base buffer = .ok value := by
  have spaces : '\x00' ∈ buffer.dropWhile isSpace := by
    rw [← @List.takeWhile_append_dropWhile _ isSpace buffer] at membership
    rcases List.mem_append.mp membership with before | behind
    · have space := List.mem_takeWhile_imp before
      cases space
    · exact behind
  have number : '\x00' ∈ skipPrefix base (splitSign (buffer.dropWhile isSpace)).2 :=
    mem_skipPrefix (mem_splitSign spaces)
  have ends : (skipPrefix base (splitSign (buffer.dropWhile isSpace)).2).takeWhile (isDigit base) ≠
      skipPrefix base (splitSign (buffer.dropWhile isSpace)).2 := by
    intro whole
    have digit := List.takeWhile_eq_self_iff.mp whole _ number
    rw [isDigit_nul] at digit
    cases digit
  unfold strtoul
  simp only
  rw [if_neg fun same => ends ((List.takeWhile_prefix _).eq_of_length same)]
  split_ifs
  · exact ⟨_, rfl⟩
  · exact ⟨_, rfl⟩
  · exact ⟨_, rfl⟩

theorem exists_strtoull_readInto {size : Nat} {text : List Char} (short : text.length < size) :
    ∃ value, strtoull (readInto size text) = .ok value := by
  apply exists_strtoul_of_mem
  apply List.mem_append_right
  exact List.mem_replicate.mpr ⟨Nat.sub_ne_zero_of_lt short, rfl⟩

theorem takeWhile_isDigit_append {base : Nat} {digits : List Char}
    (numeric : ∀ digit ∈ digits, isDigit base digit = true) :
    (digits ++ ['\x00']).takeWhile (isDigit base) = digits := by
  rw [List.takeWhile_append_of_pos numeric, List.takeWhile_cons_of_neg (by simp [isDigit_nul]),
    List.append_nil]

theorem strtoul_hexadecimal {largest : Nat} {digits : List Char}
    (numeric : ∀ digit ∈ digits, isDigit 16 digit = true)
    (small : digitsValue 16 digits ≤ largest) :
    strtoul largest 16 ("0x".toList ++ digits ++ ['\x00']) = .ok (digitsValue 16 digits) := by
  cases digits with
  | nil => rfl
  | cons digit digits =>
      have first : isDigit 16 digit = true := numeric digit List.mem_cons_self
      have number : skipPrefix 16 ('0' :: 'x' :: digit :: (digits ++ ['\x00'])) =
          (digit :: digits) ++ ['\x00'] := if_pos ⟨rfl, .inl rfl, first⟩
      have whole := takeWhile_isDigit_append numeric
      have ends : (digit :: digits).length ≠ ((digit :: digits) ++ ['\x00']).length := by simp
      have stripped : splitSign (("0x".toList ++ (digit :: digits) ++ ['\x00']).dropWhile isSpace) =
          (false, '0' :: 'x' :: digit :: (digits ++ ['\x00'])) := rfl
      simp only [strtoul, stripped, number, whole]
      rw [if_neg ends, if_neg (Nat.not_lt_of_le small)]
      rfl

end CRun
