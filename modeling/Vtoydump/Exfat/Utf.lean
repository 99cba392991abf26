import Mathlib.Data.List.TakeWhile
import Vtoydump.Basis.Fault
import Vtoydump.Basis.Packing

/-!
# Names in UTF-8 and UTF-16

`utf.c` goes through a wide character in both directions.  It refuses a high
surrogate without a low one, lets a lone low one pass as three bytes, and looks
neither at the marks of continuation bytes nor for overlong forms.
-/

namespace Vtoydump.Exfat

open CRun

def eilseq : Int := 84

def enametoolong : Int := 36

def exfatNameMax : Nat := 255

def exfatUtf8NameBufferMax : Nat := exfatNameMax * 3 + 1

/-- Store some bytes or units when there is room for them. -/
def store {Cell : Type} (cells : List Cell) (outsize : Nat) : Option (List Cell) :=
  if outsize < cells.length then none else some cells

def continuation (wc shift : Nat) : UInt8 := UInt8.ofNat (0x80 ||| (wc >>> shift &&& 0x3f))

def wcharToUtf8 (wc outsize : Nat) : Option (List UInt8) :=
  if wc ≤ 0x7f then store [UInt8.ofNat wc] outsize
  else if wc ≤ 0x7ff then
    store [UInt8.ofNat (0xc0 ||| wc >>> 6), continuation wc 0] outsize
  else if wc ≤ 0xffff then
    store [UInt8.ofNat (0xe0 ||| wc >>> 12), continuation wc 6, continuation wc 0] outsize
  else if wc ≤ 0x1fffff then
    store [UInt8.ofNat (0xf0 ||| wc >>> 18), continuation wc 12, continuation wc 6,
      continuation wc 0] outsize
  else if wc ≤ 0x3ffffff then
    store [UInt8.ofNat (0xf8 ||| wc >>> 24), continuation wc 18, continuation wc 12,
      continuation wc 6, continuation wc 0] outsize
  else if wc ≤ 0x7fffffff then
    store [UInt8.ofNat (0xfc ||| wc >>> 30), continuation wc 24, continuation wc 18,
      continuation wc 12, continuation wc 6, continuation wc 0] outsize
  else none

/-- The wide character that the units begin with, and the units behind it. -/
def utf16ToWchar : List UInt16 → Option (Nat × List UInt16)
  | [] => none
  | unit :: rest =>
      if unit &&& 0xfc00 = 0xd800 then
        match rest with
        | [] => none
        | low :: rest =>
            if low &&& 0xfc00 = 0xdc00 then
              some (((unit &&& 0x3ff).toNat <<< 10 ||| (low &&& 0x3ff).toNat) + 0x10000, rest)
            else none
      else some (unit.toNat, rest)

theorem utf16ToWchar_shorter {units rest : List UInt16} {wc : Nat}
    (read : utf16ToWchar units = some (wc, rest)) : rest.length < units.length := by
  unfold utf16ToWchar at read
  split at read
  · cases read
  · split_ifs at read
    · split at read
      · cases read
      · split_ifs at read
        cases read
        simp only [List.length_cons]
        omega
    · cases read
      simp

def utf16ToUtf8 (units : List UInt16) (outsize : Nat) : Except Int (List UInt8) :=
  if units = [] then
    if outsize = 0 then .error (-enametoolong) else .ok [0]
  else
    match _read : utf16ToWchar units with
    | none => .error (-eilseq)
    | some (wc, rest) =>
        match wcharToUtf8 wc outsize with
        | none => .error (-enametoolong)
        | some bytes =>
            if wc = 0 then .ok bytes
            else do
              let more ← utf16ToUtf8 rest (outsize - bytes.length)
              return bytes ++ more
termination_by units.length
decreasing_by exact utf16ToWchar_shorter _read

/-- Six more bits for each of so many bytes. -/
def continued (lead : Nat) : Nat → List UInt8 → Option (Nat × List UInt8)
  | 0, rest => some (lead, rest)
  | _ + 1, [] => none
  | count + 1, byte :: rest => continued (lead <<< 6 ||| (byte &&& 0x3f).toNat) count rest

/-- The wide character that the bytes begin with, and the bytes behind it. -/
def utf8ToWchar : List UInt8 → Option (Nat × List UInt8)
  | [] => none
  | byte :: rest =>
      if byte &&& 0x80 = 0 then some (byte.toNat, rest)
      else if byte &&& 0xe0 = 0xc0 then continued (byte &&& 0x1f).toNat 1 rest
      else if byte &&& 0xf0 = 0xe0 then continued (byte &&& 0x0f).toNat 2 rest
      else if byte &&& 0xf8 = 0xf0 then continued (byte &&& 0x07).toNat 3 rest
      else if byte &&& 0xfc = 0xf8 then continued (byte &&& 0x03).toNat 4 rest
      else if byte &&& 0xfe = 0xfc then continued (byte &&& 0x01).toNat 5 rest
      else none

def wcharToUtf16 (wc outsize : Nat) : Option (List UInt16) :=
  if wc ≤ 0xffff then store [UInt16.ofNat wc] outsize
  else store [UInt16.ofNat (0xd800 ||| ((wc - 0x10000) >>> 10 &&& 0x3ff)),
    UInt16.ofNat (0xdc00 ||| ((wc - 0x10000) &&& 0x3ff))] outsize

theorem continued_length {lead count wc : Nat} {bytes rest : List UInt8}
    (read : continued lead count bytes = some (wc, rest)) :
    rest.length + count = bytes.length := by
  induction count generalizing lead bytes with
  | zero =>
      cases read
      rfl
  | succ count inductionHypothesis =>
      cases bytes with
      | nil => cases read
      | cons byte bytes =>
          have inner := inductionHypothesis read
          rw [List.length_cons]
          omega

theorem utf8ToWchar_shorter {bytes rest : List UInt8} {wc : Nat}
    (read : utf8ToWchar bytes = some (wc, rest)) : rest.length < bytes.length := by
  unfold utf8ToWchar at read
  split at read
  · cases read
  · rw [List.length_cons]
    split_ifs at read
    · cases read
      omega
    all_goals
      have whole := continued_length read
      omega

def utf8ToUtf16 (bytes : List UInt8) (outsize : Nat) : Except Int (List UInt16) :=
  if bytes = [] then
    if outsize = 0 then .error (-enametoolong) else .ok [0]
  else
    match _read : utf8ToWchar bytes with
    | none => .error (-eilseq)
    | some (wc, rest) =>
        match wcharToUtf16 wc outsize with
        | none => .error (-enametoolong)
        | some units =>
            if wc = 0 then
              if outsize - units.length = 0 then .error (-enametoolong) else .ok (units ++ [0])
            else do
              let more ← utf8ToUtf16 rest (outsize - units.length)
              return units ++ more
termination_by bytes.length
decreasing_by exact utf8ToWchar_shorter _read

/-- The name of a node as `exfat_get_name` gives it, without the terminator; a name that
cannot be converted is a bug to the code. -/
def exfatGetName (name : List UInt16) : Run (List UInt8) :=
  match utf16ToUtf8 (name.take exfatNameMax) exfatUtf8NameBufferMax with
  | .error _ => .error .abort
  | .ok bytes => .ok (bytes.takeWhile (· ≠ 0))

/-- A code point that both forms can hold: any but a high surrogate. -/
structure Point where
  value : Nat
  value_lt : value < 0x110000
  not_high : ¬ (0xd800 ≤ value ∧ value < 0xdc00)

namespace Point

def units (point : Point) : List UInt16 :=
  if point.value < 0x10000 then [UInt16.ofNat point.value]
  else [UInt16.ofNat (0xd800 + (point.value - 0x10000) / 1024),
    UInt16.ofNat (0xdc00 + (point.value - 0x10000) % 1024)]

def sixBits (value : Nat) : UInt8 := UInt8.ofNat (0x80 + value % 64)

def bytes (point : Point) : List UInt8 :=
  if point.value < 0x80 then [UInt8.ofNat point.value]
  else if point.value < 0x800 then
    [UInt8.ofNat (0xc0 + point.value / 64), sixBits point.value]
  else if point.value < 0x10000 then
    [UInt8.ofNat (0xe0 + point.value / 4096), sixBits (point.value / 64), sixBits point.value]
  else
    [UInt8.ofNat (0xf0 + point.value / 262144), sixBits (point.value / 4096),
      sixBits (point.value / 64), sixBits point.value]

theorem units_ne_nil (point : Point) : point.units ≠ [] := by
  unfold units
  split_ifs <;> exact List.cons_ne_nil _ _

theorem bytes_ne_nil (point : Point) : point.bytes ≠ [] := by
  unfold bytes
  split_ifs <;> exact List.cons_ne_nil _ _

theorem length_bytes_le (point : Point) : point.bytes.length ≤ 3 * point.units.length := by
  unfold bytes units
  split_ifs <;> simp

theorem continuation_eq (wc shift : Nat) : continuation wc shift = sixBits (wc / 2 ^ shift) := by
  have six : wc >>> shift &&& 0x3f = wc / 2 ^ shift % 64 := by
    rw [Nat.shiftRight_eq_div_pow]
    exact Nat.and_two_pow_sub_one_eq_mod _ 6
  have joined : 0x80 ||| wc / 2 ^ shift % 64 = 0x80 + wc / 2 ^ shift % 64 :=
    or_eq_add 6 (Nat.mod_lt _ (by decide)) (by decide)
  rw [continuation, sixBits, six, joined]

theorem lead_eq (width : Nat) {mark wc shift : Nat} (small : wc / 2 ^ shift < 2 ^ width)
    (multiple : 2 ^ width ∣ mark) : mark ||| wc >>> shift = mark + wc / 2 ^ shift := by
  rw [Nat.shiftRight_eq_div_pow, or_eq_add _ small multiple]

theorem wcharToUtf8_eq (point : Point) (outsize : Nat) :
    wcharToUtf8 point.value outsize = store point.bytes outsize := by
  have limit := point.value_lt
  unfold wcharToUtf8 bytes
  simp only [continuation_eq, Nat.pow_zero, Nat.div_one]
  by_cases one : point.value < 0x80
  · rw [if_pos (by omega), if_pos one]
  rw [if_neg (by omega), if_neg one]
  by_cases two : point.value < 0x800
  · rw [if_pos (by omega), if_pos two,
      lead_eq 5 (by simp; omega) (by decide)]
    simp only [Nat.reducePow]
  rw [if_neg (by omega), if_neg two]
  by_cases three : point.value < 0x10000
  · rw [if_pos (by omega), if_pos three,
      lead_eq 4 (by simp; omega) (by decide)]
    simp only [Nat.reducePow]
  · rw [if_neg (by omega), if_neg three, if_pos (by omega),
      lead_eq 3 (by simp; omega) (by decide)]
    simp only [Nat.reducePow]

theorem wcharToUtf16_eq (point : Point) (outsize : Nat) :
    wcharToUtf16 point.value outsize = store point.units outsize := by
  have limit := point.value_lt
  unfold wcharToUtf16 units
  by_cases basic : point.value < 0x10000
  · rw [if_pos (by omega), if_pos basic]
  · have high : (point.value - 0x10000) >>> 10 &&& 0x3ff = (point.value - 0x10000) / 1024 := by
      rw [Nat.shiftRight_eq_div_pow]
      refine (Nat.and_two_pow_sub_one_eq_mod _ 10).trans (Nat.mod_eq_of_lt ?_)
      omega
    have low : (point.value - 0x10000) &&& 0x3ff = (point.value - 0x10000) % 1024 :=
      Nat.and_two_pow_sub_one_eq_mod _ 10
    have lowJoined : 0xdc00 ||| (point.value - 0x10000) % 1024 =
        0xdc00 + (point.value - 0x10000) % 1024 :=
      or_eq_add 10 (Nat.mod_lt _ (by decide)) (by decide)
    rw [if_neg (by omega), if_neg basic, high, low,
      or_eq_add 10 (by omega) (by decide), lowJoined]

end Point

section Units

theorem and_fc00_eq_iff {unit mark : UInt16} {upper : Nat} (marked : mark.toNat = upper * 1024) :
    unit &&& 0xfc00 = mark ↔ unit.toNat / 1024 = upper := by
  have small := unit.toNat_lt
  have masked : (unit &&& 0xfc00).toNat = unit.toNat / 1024 * 1024 := by
    rw [UInt16.toNat_and]
    refine (and_mask unit.toNat 6 10).trans ?_
    omega
  rw [← UInt16.toNat_inj, masked, marked]
  omega

theorem and_03ff (unit : UInt16) : (unit &&& 0x3ff).toNat = unit.toNat % 1024 :=
  (UInt16.toNat_and _ _).trans (Nat.and_two_pow_sub_one_eq_mod _ 10)

theorem paired_eq (high low : UInt16) :
    (high &&& 0x3ff).toNat <<< 10 ||| (low &&& 0x3ff).toNat =
      high.toNat % 1024 * 1024 + low.toNat % 1024 := by
  rw [and_03ff, and_03ff, Nat.shiftLeft_eq]
  exact or_eq_add 10 (Nat.mod_lt _ (by decide)) (Nat.dvd_mul_left _ _)

theorem high_iff {unit : UInt16} : unit &&& 0xfc00 = 0xd800 ↔ unit.toNat / 1024 = 54 :=
  and_fc00_eq_iff rfl

theorem low_iff {unit : UInt16} : unit &&& 0xfc00 = 0xdc00 ↔ unit.toNat / 1024 = 55 :=
  and_fc00_eq_iff rfl

theorem toNat_ofNat16 {value : Nat} (small : value < 65536) :
    (UInt16.ofNat value).toNat = value := by
  rw [UInt16.toNat_ofNat']
  omega

theorem utf16ToWchar_units (point : Point) (rest : List UInt16) :
    utf16ToWchar (point.units ++ rest) = some (point.value, rest) := by
  have limit := point.value_lt
  have lone := point.not_high
  unfold Point.units
  split_ifs with basic
  · have alone : ¬ UInt16.ofNat point.value &&& 0xfc00 = 0xd800 := by
      rw [high_iff, toNat_ofNat16 basic]
      omega
    rw [List.singleton_append]
    unfold utf16ToWchar
    dsimp only
    rw [if_neg alone, toNat_ofNat16 basic]
  · have high : (UInt16.ofNat (0xd800 + (point.value - 0x10000) / 1024)).toNat =
        0xd800 + (point.value - 0x10000) / 1024 := toNat_ofNat16 (by omega)
    have low : (UInt16.ofNat (0xdc00 + (point.value - 0x10000) % 1024)).toNat =
        0xdc00 + (point.value - 0x10000) % 1024 := toNat_ofNat16 (by omega)
    have value : (0xd800 + (point.value - 0x10000) / 1024) % 1024 * 1024 +
        (0xdc00 + (point.value - 0x10000) % 1024) % 1024 + 0x10000 = point.value := by omega
    rw [List.cons_append, List.singleton_append, utf16ToWchar,
      if_pos (by rw [high_iff, high]; omega), if_pos (by rw [low_iff, low]; omega), paired_eq,
      high, low, value]

theorem exists_point_pair {high low : UInt16} (first : high.toNat / 1024 = 54)
    (second : low.toNat / 1024 = 55) :
    ∃ point : Point,
      point.value = high.toNat % 1024 * 1024 + low.toNat % 1024 + 0x10000 ∧
      point.units = [high, low] := by
  obtain ⟨value, joined⟩ : ∃ value, value = high.toNat % 1024 * 1024 + low.toNat % 1024 :=
    ⟨_, rfl⟩
  rw [← joined]
  have small : value < 0x100000 := by omega
  have highUnit : UInt16.ofNat (0xd800 + value / 1024) = high := by
    rw [← UInt16.toNat_inj, toNat_ofNat16 (by omega)]
    omega
  have lowUnit : UInt16.ofNat (0xdc00 + value % 1024) = low := by
    rw [← UInt16.toNat_inj, toNat_ofNat16 (by omega)]
    omega
  refine ⟨⟨value + 0x10000, by omega, by omega⟩, rfl, ?_⟩
  unfold Point.units
  dsimp only
  rw [if_neg (by omega), Nat.add_sub_cancel, highUnit, lowUnit]

/-- Units that give a wide character are those of a point. -/
theorem exists_point_of_utf16ToWchar {units rest : List UInt16} {wc : Nat}
    (read : utf16ToWchar units = some (wc, rest)) :
    ∃ point : Point, point.value = wc ∧ units = point.units ++ rest := by
  unfold utf16ToWchar at read
  split at read
  · cases read
  next unit tail =>
    have unitSmall := unit.toNat_lt
    split_ifs at read with high
    · rw [high_iff] at high
      split at read
      · cases read
      next low tail =>
        have lowSmall := low.toNat_lt
        split_ifs at read with paired
        rw [low_iff] at paired
        rw [paired_eq] at read
        obtain ⟨point, value, pair⟩ := exists_point_pair high paired
        rw [Option.some.injEq, Prod.mk.injEq] at read
        refine ⟨point, value.trans read.1, ?_⟩
        rw [pair, read.2]
        rfl
    · rw [high_iff] at high
      cases read
      refine ⟨⟨unit.toNat, by omega, by omega⟩, rfl, ?_⟩
      unfold Point.units
      dsimp only
      rw [if_pos unitSmall, UInt16.ofNat_toNat]
      rfl

end Units

section Bytes

theorem continued_sixBits (lead count value : Nat) (rest : List UInt8) :
    continued lead (count + 1) (Point.sixBits value :: rest) =
      continued (lead * 64 + value % 64) count rest := by
  have six : (Point.sixBits value &&& 0x3f).toNat = value % 64 := by
    rw [Point.sixBits, UInt8.toNat_and, UInt8.toNat_ofNat']
    refine (Nat.and_two_pow_sub_one_eq_mod _ 6).trans ?_
    omega
  have joined : lead * 2 ^ 6 ||| value % 64 = lead * 64 + value % 64 :=
    or_eq_add 6 (Nat.mod_lt _ (by decide)) (Nat.dvd_mul_left _ _)
  rw [continued, six, Nat.shiftLeft_eq, joined]

theorem marks_two : ∀ rest < 32, UInt8.ofNat (0xc0 + rest) &&& 0x80 ≠ 0 ∧
    UInt8.ofNat (0xc0 + rest) &&& 0xe0 = 0xc0 ∧
    (UInt8.ofNat (0xc0 + rest) &&& 0x1f).toNat = rest := by decide

theorem marks_three : ∀ rest < 16, UInt8.ofNat (0xe0 + rest) &&& 0x80 ≠ 0 ∧
    UInt8.ofNat (0xe0 + rest) &&& 0xe0 ≠ 0xc0 ∧
    UInt8.ofNat (0xe0 + rest) &&& 0xf0 = 0xe0 ∧
    (UInt8.ofNat (0xe0 + rest) &&& 0x0f).toNat = rest := by decide

theorem marks_four : ∀ rest < 8, UInt8.ofNat (0xf0 + rest) &&& 0x80 ≠ 0 ∧
    UInt8.ofNat (0xf0 + rest) &&& 0xe0 ≠ 0xc0 ∧
    UInt8.ofNat (0xf0 + rest) &&& 0xf0 ≠ 0xe0 ∧
    UInt8.ofNat (0xf0 + rest) &&& 0xf8 = 0xf0 ∧
    (UInt8.ofNat (0xf0 + rest) &&& 0x07).toNat = rest := by decide

theorem marks_one : ∀ value < 128, UInt8.ofNat value &&& 0x80 = 0 ∧
    (UInt8.ofNat value).toNat = value := by decide

theorem utf8ToWchar_bytes (point : Point) (rest : List UInt8) :
    utf8ToWchar (point.bytes ++ rest) = some (point.value, rest) := by
  have limit := point.value_lt
  unfold Point.bytes
  split_ifs with one two three
  · obtain ⟨mark, value⟩ := marks_one _ one
    rw [List.singleton_append, utf8ToWchar, if_pos mark, value]
  · obtain ⟨ascii, mark, value⟩ := marks_two (point.value / 64) (by omega)
    rw [List.cons_append, List.singleton_append, utf8ToWchar, if_neg ascii, if_pos mark, value,
      continued_sixBits, continued]
    congr 2
    omega
  · obtain ⟨ascii, twoMark, mark, value⟩ := marks_three (point.value / 4096) (by omega)
    rw [List.cons_append, List.cons_append, List.singleton_append, utf8ToWchar, if_neg ascii,
      if_neg twoMark, if_pos mark, value, continued_sixBits, continued_sixBits, continued]
    congr 2
    omega
  · obtain ⟨ascii, twoMark, threeMark, mark, value⟩ :=
      marks_four (point.value / 262144) (by omega)
    rw [List.cons_append, List.cons_append, List.cons_append, List.singleton_append, utf8ToWchar,
      if_neg ascii, if_neg twoMark, if_neg threeMark, if_pos mark, value, continued_sixBits,
      continued_sixBits, continued_sixBits, continued]
    congr 2
    omega

end Bytes

def wideUnits (points : List Point) : List UInt16 := points.flatMap Point.units

def wideBytes (points : List Point) : List UInt8 := points.flatMap Point.bytes

/-- No character of the text is the terminator. -/
def NulFree (points : List Point) : Prop := ∀ point ∈ points, point.value ≠ 0

/-- The units end here, or with a terminator. -/
def Ends (units : List UInt16) : Prop := units = [] ∨ ∃ junk, units = 0 :: junk

section Texts

variable {points : List Point}

theorem length_wideBytes_le (points : List Point) :
    (wideBytes points).length ≤ 3 * (wideUnits points).length := by
  induction points with
  | nil => exact Nat.le_refl 0
  | cons point points inductionHypothesis =>
      have here := point.length_bytes_le
      rw [wideBytes, wideUnits] at inductionHypothesis ⊢
      rw [List.flatMap_cons, List.flatMap_cons, List.length_append, List.length_append]
      omega

theorem ne_zero_of_mem_units {point : Point} (some : point.value ≠ 0) {unit : UInt16}
    (membership : unit ∈ point.units) : unit ≠ 0 := by
  have limit := point.value_lt
  rintro rfl
  unfold Point.units at membership
  split_ifs at membership
  · rw [List.mem_singleton, ← UInt16.toNat_inj, toNat_ofNat16 (by omega)] at membership
    exact some membership.symm
  · simp only [List.mem_cons, List.not_mem_nil, or_false] at membership
    rcases membership with high | low
    · rw [← UInt16.toNat_inj, toNat_ofNat16 (by omega)] at high
      have zero : (0 : UInt16).toNat = 0 := rfl
      omega
    · rw [← UInt16.toNat_inj, toNat_ofNat16 (by omega)] at low
      have zero : (0 : UInt16).toNat = 0 := rfl
      omega

theorem ne_zero_of_mem_bytes {point : Point} (some : point.value ≠ 0) {byte : UInt8}
    (membership : byte ∈ point.bytes) : byte ≠ 0 := by
  have limit := point.value_lt
  have marked : ∀ mark value, 0 < mark → mark + value < 256 →
      UInt8.ofNat (mark + value) ≠ 0 := by
    intro mark value positive small equal
    rw [← UInt8.toNat_inj, UInt8.toNat_ofNat'] at equal
    have zero : (0 : UInt8).toNat = 0 := rfl
    omega
  have six : ∀ value, Point.sixBits value ≠ 0 := by
    intro value
    exact marked 0x80 (value % 64) (by decide) (by omega)
  rintro rfl
  unfold Point.bytes at membership
  split_ifs at membership with one two three
  · rw [List.mem_singleton] at membership
    have positive : 0 < point.value := Nat.pos_of_ne_zero some
    exact marked point.value 0 positive (by omega) membership.symm
  all_goals
    simp only [List.mem_cons, List.not_mem_nil, or_false, (six _).symm] at membership
    exact marked _ _ (by decide) (by omega) membership.symm

theorem mem_wideBytes_ne_zero (nulFree : NulFree points) {byte : UInt8}
    (membership : byte ∈ wideBytes points) : byte ≠ 0 := by
  rw [wideBytes, List.mem_flatMap] at membership
  obtain ⟨point, member, inside⟩ := membership
  exact ne_zero_of_mem_bytes (nulFree point member) inside

theorem mem_wideUnits_ne_zero (nulFree : NulFree points) {unit : UInt16}
    (membership : unit ∈ wideUnits points) : unit ≠ 0 := by
  rw [wideUnits, List.mem_flatMap] at membership
  obtain ⟨point, member, inside⟩ := membership
  exact ne_zero_of_mem_units (nulFree point member) inside

theorem utf16ToUtf8_cons (point : Point) (rest : List UInt16) (outsize : Nat) :
    utf16ToUtf8 (point.units ++ rest) outsize =
      if outsize < point.bytes.length then .error (-enametoolong)
      else if point.value = 0 then .ok point.bytes
      else (utf16ToUtf8 rest (outsize - point.bytes.length)).map (point.bytes ++ ·) := by
  have inhabited : point.units ++ rest ≠ [] := by
    intro empty
    exact point.units_ne_nil (List.append_eq_nil_iff.mp empty).1
  rw [utf16ToUtf8, if_neg inhabited]
  split
  next read =>
    rw [utf16ToWchar_units] at read
    cases read
  next wc others read =>
    rw [utf16ToWchar_units] at read
    cases read
    rw [Point.wcharToUtf8_eq, store]
    by_cases long : outsize < point.bytes.length
    · rw [if_pos long, if_pos long]
    · rw [if_neg long, if_neg long]
      dsimp only
      split_ifs
      · rfl
      · cases utf16ToUtf8 rest (outsize - point.bytes.length) <;> rfl

theorem utf8ToUtf16_cons {point : Point} (some : point.value ≠ 0) (rest : List UInt8)
    (outsize : Nat) :
    utf8ToUtf16 (point.bytes ++ rest) outsize =
      if outsize < point.units.length then .error (-enametoolong)
      else (utf8ToUtf16 rest (outsize - point.units.length)).map (point.units ++ ·) := by
  have inhabited : point.bytes ++ rest ≠ [] := by
    intro empty
    exact point.bytes_ne_nil (List.append_eq_nil_iff.mp empty).1
  rw [utf8ToUtf16, if_neg inhabited]
  split
  next read =>
    rw [utf8ToWchar_bytes] at read
    cases read
  next wc others read =>
    rw [utf8ToWchar_bytes] at read
    cases read
    rw [Point.wcharToUtf16_eq, store]
    by_cases long : outsize < point.units.length
    · rw [if_pos long, if_pos long]
    · rw [if_neg long, if_neg long]
      dsimp only
      rw [if_neg some]
      cases utf8ToUtf16 rest (outsize - point.units.length) <;> rfl

theorem utf16ToUtf8_ends {tail : List UInt16} (ends : Ends tail) (outsize : Nat) :
    utf16ToUtf8 tail outsize = if outsize < 1 then .error (-enametoolong) else .ok [0] := by
  rcases ends with rfl | ⟨junk, rfl⟩
  · rw [utf16ToUtf8, if_pos rfl]
    simp only [Nat.lt_one_iff]
  · have zero := utf16ToUtf8_cons ⟨0, by decide, by decide⟩ junk outsize
    exact zero

/-- A text of points is converted when its bytes and the terminator have room. -/
theorem utf16ToUtf8_wideUnits (nulFree : NulFree points) {tail : List UInt16}
    (ends : Ends tail) (outsize : Nat) :
    utf16ToUtf8 (wideUnits points ++ tail) outsize =
      if outsize < (wideBytes points).length + 1 then .error (-enametoolong)
      else .ok (wideBytes points ++ [0]) := by
  induction points generalizing outsize with
  | nil => exact utf16ToUtf8_ends ends outsize
  | cons point points inductionHypothesis =>
      obtain ⟨some, others⟩ := List.forall_mem_cons.mp nulFree
      have shape : wideUnits (point :: points) ++ tail =
          point.units ++ (wideUnits points ++ tail) := by
        rw [wideUnits, List.flatMap_cons, List.append_assoc]
        rfl
      have size : (wideBytes (point :: points)).length =
          point.bytes.length + (wideBytes points).length := by
        rw [wideBytes, List.flatMap_cons, List.length_append]
        rfl
      rw [shape, utf16ToUtf8_cons, if_neg some, inductionHypothesis others, size]
      split_ifs with long inner whole whole
      · rfl
      · omega
      · rfl
      · omega
      · omega
      · rw [Except.map, wideBytes, wideBytes, List.flatMap_cons, List.append_assoc]

theorem utf8ToUtf16_wideBytes (nulFree : NulFree points) (outsize : Nat) :
    utf8ToUtf16 (wideBytes points) outsize =
      if outsize < (wideUnits points).length + 1 then .error (-enametoolong)
      else .ok (wideUnits points ++ [0]) := by
  induction points generalizing outsize with
  | nil =>
      rw [wideBytes, List.flatMap_nil, utf8ToUtf16, if_pos rfl]
      simp only [wideUnits, List.flatMap_nil, List.length_nil, Nat.zero_add, Nat.lt_one_iff]
      rfl
  | cons point points inductionHypothesis =>
      obtain ⟨some, others⟩ := List.forall_mem_cons.mp nulFree
      have shape : wideBytes (point :: points) = point.bytes ++ wideBytes points := by
        rw [wideBytes, List.flatMap_cons]
        rfl
      have size : (wideUnits (point :: points)).length =
          point.units.length + (wideUnits points).length := by
        rw [wideUnits, List.flatMap_cons, List.length_append]
        rfl
      rw [shape, utf8ToUtf16_cons some, inductionHypothesis others, size]
      split_ifs with long inner whole whole
      · rfl
      · omega
      · rfl
      · omega
      · omega
      · rw [Except.map, wideUnits, wideUnits, List.flatMap_cons, List.append_assoc]

/-- Units that `utf16_to_utf8` accepts are a text of points. -/
theorem exists_points_of_utf16ToUtf8 {units : List UInt16} {outsize : Nat}
    {bytes : List UInt8} (done : utf16ToUtf8 units outsize = .ok bytes) :
    ∃ points tail, units = wideUnits points ++ tail ∧ Ends tail ∧ NulFree points := by
  induction size : units.length using Nat.strongRecOn generalizing units outsize bytes with
  | _ length inductionHypothesis =>
      by_cases empty : units = []
      · exact ⟨[], [], by rw [empty]; rfl, Or.inl rfl, fun _ membership => by cases membership⟩
      cases read : utf16ToWchar units with
      | none =>
          rw [utf16ToUtf8, if_neg empty] at done
          split at done
          · cases done
          next wc rest found =>
            rw [read] at found
            cases found
      | some pair =>
          obtain ⟨wc, rest⟩ := pair
          have shorter := utf16ToWchar_shorter read
          obtain ⟨point, rfl, rfl⟩ := exists_point_of_utf16ToWchar read
          by_cases zero : point.value = 0
          · refine ⟨[], point.units ++ rest, rfl, Or.inr ⟨rest, ?_⟩, fun _ membership => by
              cases membership⟩
            unfold Point.units
            rw [if_pos (by omega), zero]
            rfl
          · rw [utf16ToUtf8_cons, if_neg zero] at done
            split_ifs at done
            cases inner : utf16ToUtf8 rest (outsize - point.bytes.length) with
            | error code =>
                rw [inner] at done
                cases done
            | ok more =>
                obtain ⟨points, tail, shape, ends, nulFree⟩ :=
                  inductionHypothesis _ (by omega) inner rfl
                refine ⟨point :: points, tail, ?_, ends, ?_⟩
                · rw [shape, wideUnits, wideUnits, List.flatMap_cons, List.append_assoc]
                · exact List.forall_mem_cons.mpr ⟨zero, nulFree⟩

end Texts

def IsHigh (unit : UInt16) : Prop := 0xd800 ≤ unit.toNat ∧ unit.toNat < 0xdc00

def IsLow (unit : UInt16) : Prop := 0xdc00 ≤ unit.toNat ∧ unit.toNat < 0xe000

/-- Every high surrogate has a low one behind it. -/
def Paired : List UInt16 → Prop
  | [] => True
  | unit :: rest =>
      (IsHigh unit → ∃ low, rest.head? = some low ∧ IsLow low) ∧ Paired rest

/-- The name that a buffer holds: the units before the terminator. -/
def nameUnits (name : List UInt16) : List UInt16 :=
  (name.take exfatNameMax).takeWhile (· ≠ 0)

section Paired

theorem paired_wideUnits (points : List Point) : Paired (wideUnits points) := by
  induction points with
  | nil => trivial
  | cons point points inductionHypothesis =>
      have limit := point.value_lt
      have lone := point.not_high
      rw [wideUnits, List.flatMap_cons]
      rw [wideUnits] at inductionHypothesis
      unfold Point.units
      split_ifs with basic
      · refine ⟨?_, inductionHypothesis⟩
        intro high
        rw [IsHigh, toNat_ofNat16 basic] at high
        omega
      · refine ⟨?_, ?_, inductionHypothesis⟩
        · intro _
          refine ⟨_, rfl, ?_⟩
          rw [IsLow, toNat_ofNat16 (by omega)]
          omega
        · intro high
          rw [IsHigh, toNat_ofNat16 (by omega)] at high
          omega

theorem exists_points_of_paired {units : List UInt16} (paired : Paired units) :
    ∃ points, units = wideUnits points := by
  induction size : units.length using Nat.strongRecOn generalizing units with
  | _ length inductionHypothesis =>
      cases units with
      | nil => exact ⟨[], rfl⟩
      | cons unit rest =>
          have small := unit.toNat_lt
          rw [List.length_cons] at size
          obtain ⟨follows, others⟩ := paired
          by_cases high : IsHigh unit
          · obtain ⟨low, head, second⟩ := follows high
            cases rest with
            | nil => cases head
            | cons next behind =>
                rw [List.head?_cons, Option.some.injEq] at head
                subst head
                rw [List.length_cons] at size
                obtain ⟨points, rfl⟩ := inductionHypothesis _ (by omega) others.2 rfl
                unfold IsHigh at high
                unfold IsLow at second
                obtain ⟨point, -, pair⟩ := @exists_point_pair unit next (by omega) (by omega)
                refine ⟨point :: points, ?_⟩
                rw [wideUnits, wideUnits, List.flatMap_cons, pair]
                rfl
          · obtain ⟨points, rfl⟩ := inductionHypothesis _ (by omega) others rfl
            refine ⟨⟨unit.toNat, by omega, high⟩ :: points, ?_⟩
            rw [wideUnits, wideUnits, List.flatMap_cons, Point.units, if_pos small,
              UInt16.ofNat_toNat]
            rfl

theorem nulFree_of_mem_ne_zero {points : List Point}
    (nonzero : ∀ unit ∈ wideUnits points, unit ≠ 0) : NulFree points := by
  intro point membership zero
  apply nonzero 0 _ rfl
  rw [wideUnits, List.mem_flatMap]
  refine ⟨point, membership, ?_⟩
  rw [Point.units, if_pos (by omega), zero]
  exact List.mem_singleton.mpr rfl

theorem nameUnits_split (name : List UInt16) :
    ∃ tail, name.take exfatNameMax = nameUnits name ++ tail ∧ Ends tail := by
  refine ⟨(name.take exfatNameMax).dropWhile (· ≠ 0), ?_, ?_⟩
  · exact List.takeWhile_append_dropWhile.symm
  · cases rest : (name.take exfatNameMax).dropWhile (· ≠ 0) with
    | nil => exact Or.inl rfl
    | cons unit junk =>
        have stopped := List.head?_dropWhile_not (fun unit : UInt16 => decide (unit ≠ 0))
          (name.take exfatNameMax)
        rw [rest] at stopped
        refine Or.inr ⟨junk, ?_⟩
        rw [show unit = 0 by simpa using stopped]

theorem mem_nameUnits_ne_zero {name : List UInt16} {unit : UInt16}
    (membership : unit ∈ nameUnits name) : unit ≠ 0 := by
  have kept := List.mem_takeWhile_imp membership
  simpa using kept

theorem length_nameUnits_le (name : List UInt16) : (nameUnits name).length ≤ 255 :=
  (List.takeWhile_prefix _).length_le.trans (List.length_take_le _ _)

theorem wideUnits_eq_of_append {points : List Point} {units tail junk : List UInt16}
    (nulFree : NulFree points) (nonzero : ∀ unit ∈ units, unit ≠ 0) (ends : Ends tail)
    (endsToo : Ends junk) (same : units ++ junk = wideUnits points ++ tail) :
    units = wideUnits points := by
  have cut : ∀ front back : List UInt16, (∀ unit ∈ front, unit ≠ 0) → Ends back →
      (front ++ back).takeWhile (· ≠ 0) = front := by
    intro front back clean stops
    rw [List.takeWhile_append_of_pos (by simpa using clean)]
    rcases stops with rfl | ⟨rest, rfl⟩ <;> simp
  rw [← cut units junk nonzero endsToo, same,
    cut _ _ (fun _ membership => mem_wideUnits_ne_zero nulFree membership) ends]

/-- The name of a node is given exactly when its surrogates are paired, always has room,
and leads back to the same name; any other name is a bug to the code. -/
theorem exfatGetName_eq (name : List UInt16) :
    (Paired (nameUnits name) → ∃ bytes, exfatGetName name = .ok bytes ∧
      (∀ byte ∈ bytes, byte ≠ 0) ∧
      utf8ToUtf16 bytes (exfatNameMax + 1) = .ok (nameUnits name ++ [0])) ∧
    (¬ Paired (nameUnits name) → exfatGetName name = .error .abort) := by
  obtain ⟨tail, split, ends⟩ := nameUnits_split name
  constructor
  · intro paired
    obtain ⟨points, same⟩ := exists_points_of_paired paired
    have nulFree : NulFree points := nulFree_of_mem_ne_zero (by
      rw [← same]
      exact fun _ membership => mem_nameUnits_ne_zero membership)
    have short := length_nameUnits_le name
    have bytesShort := length_wideBytes_le points
    rw [← same] at bytesShort
    refine ⟨wideBytes points, ?_, fun _ membership => mem_wideBytes_ne_zero nulFree membership,
      ?_⟩
    · rw [exfatGetName, split, same, utf16ToUtf8_wideUnits nulFree ends, if_neg (by
        rw [exfatUtf8NameBufferMax, exfatNameMax]
        omega)]
      dsimp only
      rw [List.takeWhile_append_of_pos (by
        simpa using fun _ membership => mem_wideBytes_ne_zero nulFree membership)]
      simp
    · rw [utf8ToUtf16_wideBytes nulFree, ← same, if_neg (by
        rw [exfatNameMax]
        omega)]
  · intro unpaired
    rw [exfatGetName, split]
    cases done : utf16ToUtf8 (nameUnits name ++ tail) exfatUtf8NameBufferMax with
    | error code => rfl
    | ok bytes =>
        obtain ⟨points, rest, shape, stops, nulFree⟩ := exists_points_of_utf16ToUtf8 done
        rw [wideUnits_eq_of_append nulFree (fun _ membership => mem_nameUnits_ne_zero membership)
          stops ends shape] at unpaired
        exact absurd (paired_wideUnits points) unpaired

end Paired

end Vtoydump.Exfat
