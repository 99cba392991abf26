import Vtoydump.Windows.Loaders
import Mathlib.Order.Bounds.Basic
import Mathlib.Order.Nat

/-!
# The conversion of the path, in place

`main` turns each `/` of `vtoy_img_path` into `\` in the structure itself, and
ends at a NUL.  The check of the structure does not ask for one: the conversion
stays inside the path exactly when the path is terminated there.
-/

namespace Vtoydump.Windows

open CRun

/-- Where `vtoy_img_path` lies. -/
def offsetofImgPath : Nat := 45

def sizeofImgPath : Nat := 384

/-- The body of the loop, at the byte that `pos` points to. -/
def convertAt (pos : Nat) (bytes : List UInt8) : List UInt8 :=
  if bytes.getD pos 0 = 47 then bytes.set pos 92 else bytes

/-- The loop, with the number of bytes that the structure still has at `pos`. -/
def convertLoop : Nat → Nat → List UInt8 → Run (Nat × List UInt8)
  | 0, _, _ => .error .outOfBounds
  | left + 1, pos, bytes =>
      if bytes.getD pos 0 = 0 then .ok (pos, bytes)
      else convertLoop left (pos + 1) (convertAt pos bytes)

/-- Where the loop ends, and the structure that it leaves. -/
def convertPath (param : OsParam) : Run (Nat × OsParam) := do
  let (stop, bytes) ← convertLoop (sizeofOsParam - offsetofImgPath) offsetofImgPath param.bytes
  return (stop, .ofBytes bytes)

/-- The first NUL at a place or behind it. -/
def FirstNul (bytes : List UInt8) (start stop : Nat) : Prop :=
  IsLeast {index | start ≤ index ∧ bytes[index]? = some 0} stop

/-- Each `/` from one place up to another replaced. -/
def convertedTo (start stop : Nat) (bytes : List UInt8) : List UInt8 :=
  bytes.mapIdx fun index byte => if start ≤ index ∧ index < stop ∧ byte = 47 then 92 else byte

/-- The loop ends inside the path, and changes only each `/` in front of the first NUL. -/
def ConfinedToPath (param : OsParam) : Prop :=
  ∃ stop converted, convertPath param = .ok (stop, converted) ∧
    (offsetofImgPath ≤ stop ∧ stop < offsetofImgPath + sizeofImgPath) ∧
    (∀ index, converted.bytes[index]? ≠ param.bytes[index]? →
      (offsetofImgPath ≤ index ∧ index < offsetofImgPath + sizeofImgPath) ∧
        param.bytes[index]? = some 47 ∧
        ∀ earlier, offsetofImgPath ≤ earlier → earlier ≤ index →
          param.bytes[earlier]? ≠ some 0) ∧
    ∀ offset width, offset + width ≤ offsetofImgPath ∨ offsetofImgPath + sizeofImgPath ≤ offset →
      converted.field offset width = param.field offset width

section Converted

variable {bytes : List UInt8} {start middle stop : Nat}

@[simp] theorem length_convertedTo : (convertedTo start stop bytes).length = bytes.length :=
  List.length_mapIdx

theorem getElem?_convertedTo (index : Nat) :
    (convertedTo start stop bytes)[index]? = bytes[index]?.map
      fun byte => if start ≤ index ∧ index < stop ∧ byte = 47 then 92 else byte :=
  List.getElem?_mapIdx

theorem convertedTo_self : convertedTo start start bytes = bytes := by
  apply List.ext_getElem?
  intro index
  have empty : ∀ byte : UInt8, ¬ (start ≤ index ∧ index < start ∧ byte = 47) := by
    rintro byte ⟨lower, upper, -⟩
    exact absurd upper (Nat.not_lt_of_le lower)
  simp only [getElem?_convertedTo, empty, if_false, Option.map_id']

/-- What two stretches convert, one behind the other. -/
theorem convertedTo_convertedTo (lower : start ≤ middle) (upper : middle ≤ stop) :
    convertedTo middle stop (convertedTo start middle bytes) = convertedTo start stop bytes := by
  apply List.ext_getElem?
  intro index
  rw [getElem?_convertedTo, getElem?_convertedTo, getElem?_convertedTo, Option.map_map]
  rcases Nat.lt_or_ge index middle with front | behind
  · have later : ¬ middle ≤ index := Nat.not_le_of_lt front
    have inside : index < stop := Nat.lt_of_lt_of_le front upper
    simp only [Function.comp_def, later, front, inside, false_and, true_and, if_false]
  · have earlier : ¬ index < middle := Nat.not_lt_of_le behind
    have inside : start ≤ index := Nat.le_trans lower behind
    simp only [Function.comp_def, behind, earlier, inside, false_and, and_false, true_and, if_false]

/-- A conversion makes no NUL and removes none. -/
theorem getElem?_convertedTo_eq_nul_iff (index : Nat) :
    (convertedTo start stop bytes)[index]? = some 0 ↔ bytes[index]? = some 0 := by
  rw [getElem?_convertedTo]
  cases bytes[index]? with
  | none => rfl
  | some byte =>
      rw [Option.map_some]
      split_ifs with slash
      · rw [slash.2.2]
        decide
      · rfl

theorem changed_of_convertedTo {index : Nat}
    (changed : (convertedTo start stop bytes)[index]? ≠ bytes[index]?) :
    start ≤ index ∧ index < stop ∧ bytes[index]? = some 47 := by
  rw [getElem?_convertedTo] at changed
  cases read : bytes[index]? with
  | none =>
      rw [read] at changed
      exact absurd rfl changed
  | some byte =>
      rw [read, Option.map_some] at changed
      split_ifs at changed with slash
      · exact ⟨slash.1, slash.2.1, congrArg some slash.2.2⟩
      · exact absurd rfl changed

end Converted

section Loop

variable {left pos stop : Nat} {bytes converted : List UInt8}

theorem getElem?_eq_some_getD (inside : pos < bytes.length) :
    bytes[pos]? = some (bytes.getD pos 0) := by
  rw [List.getD_eq_getElem?_getD, List.getElem?_eq_getElem inside, Option.getD_some]

theorem convertAt_eq (inside : pos < bytes.length) :
    convertAt pos bytes = convertedTo pos (pos + 1) bytes := by
  apply List.ext_getElem?
  intro index
  rw [getElem?_convertedTo, convertAt]
  by_cases here : pos = index
  · subst here
    have reached : (pos ≤ pos ∧ pos < pos + 1 ∧ bytes.getD pos 0 = 47) ↔ bytes.getD pos 0 = 47 := by
      simp
    rw [getElem?_eq_some_getD inside, Option.map_some, if_congr reached rfl rfl]
    by_cases slash : bytes.getD pos 0 = 47
    · rw [if_pos slash, if_pos slash, List.getElem?_set_self inside]
    · rw [if_neg slash, if_neg slash, getElem?_eq_some_getD inside]
  · have elsewhere : ∀ byte : UInt8, ¬ (pos ≤ index ∧ index < pos + 1 ∧ byte = 47) := by
      rintro byte ⟨lower, upper, -⟩
      exact here (Nat.le_antisymm lower (Nat.le_of_lt_succ upper))
    simp only [elsewhere, if_false, Option.map_id']
    split_ifs with slash
    · exact List.getElem?_set_ne here
    · rfl

/-- A step takes one byte from those that are left. -/
theorem add_length_convertAt (whole : pos + (left + 1) = bytes.length) :
    pos + 1 + left = (convertAt pos bytes).length := by
  have inside : pos < bytes.length := by omega
  rw [convertAt_eq inside, length_convertedTo]
  omega

theorem firstNul_self (nul : bytes[pos]? = some 0) : FirstNul bytes pos pos :=
  ⟨⟨le_rfl, nul⟩, fun _ later => later.1⟩

theorem firstNul_convertAt_iff (inside : pos < bytes.length) (byte : bytes[pos]? ≠ some 0) :
    FirstNul (convertAt pos bytes) (pos + 1) stop ↔ FirstNul bytes pos stop := by
  have places : {index | pos + 1 ≤ index ∧ (convertAt pos bytes)[index]? = some 0} =
      {index | pos ≤ index ∧ bytes[index]? = some 0} := by
    ext index
    rw [Set.mem_ofPred_eq, Set.mem_ofPred_eq, convertAt_eq inside,
      getElem?_convertedTo_eq_nul_iff]
    constructor
    · rintro ⟨behind, nul⟩
      exact ⟨Nat.le_of_succ_le behind, nul⟩
    · rintro ⟨behind, nul⟩
      refine ⟨Nat.lt_of_le_of_ne behind ?_, nul⟩
      rintro rfl
      exact byte nul
  rw [FirstNul, FirstNul, places]

/-- The loop returns exactly when a NUL is ahead, and leaves the bytes converted up to it. -/
theorem convertLoop_eq_ok_iff (whole : pos + left = bytes.length) :
    convertLoop left pos bytes = .ok (stop, converted) ↔
      FirstNul bytes pos stop ∧ converted = convertedTo pos stop bytes := by
  induction left generalizing pos bytes with
  | zero =>
      have beyond : ¬ FirstNul bytes pos stop := by
        rintro ⟨⟨behind, nul⟩, -⟩
        obtain ⟨inside, -⟩ := List.getElem?_eq_some_iff.mp nul
        omega
      simp [convertLoop, beyond]
  | succ left inductionHypothesis =>
      have inside : pos < bytes.length := by omega
      have read := getElem?_eq_some_getD inside
      rw [convertLoop]
      split_ifs with nul
      · have here := firstNul_self (read.trans (congrArg some nul))
        constructor
        · intro returned
          cases returned
          exact ⟨here, convertedTo_self.symm⟩
        · rintro ⟨first, rfl⟩
          rw [first.unique here, convertedTo_self]
      · have byte : bytes[pos]? ≠ some 0 := by
          rw [read]
          exact fun same => nul (Option.some.inj same)
        have rest := add_length_convertAt whole
        rw [inductionHypothesis rest, firstNul_convertAt_iff inside byte]
        apply and_congr_right
        intro first
        have ahead : pos < stop := by
          refine Nat.lt_of_le_of_ne first.1.1 ?_
          rintro rfl
          exact byte first.1.2
        rw [convertAt_eq inside, convertedTo_convertedTo (Nat.le_succ pos) ahead]

theorem take_convertAt (inside : pos < bytes.length) :
    (convertAt pos bytes).take (pos + 1) =
      bytes.take pos ++ [if bytes.getD pos 0 = 47 then 92 else bytes.getD pos 0] := by
  rw [convertAt]
  by_cases slash : bytes.getD pos 0 = 47
  · rw [if_pos slash, if_pos slash, List.take_add_one, List.take_set_of_le le_rfl,
      List.getElem?_set_self inside, Option.toList_some]
  · rw [if_neg slash, if_neg slash, List.take_add_one, getElem?_eq_some_getD inside,
      Option.toList_some]

theorem drop_convertAt : (convertAt pos bytes).drop (pos + 1) = bytes.drop (pos + 1) := by
  unfold convertAt
  split_ifs
  · exact List.drop_set_of_lt (Nat.lt_succ_self pos)
  · rfl

/-- The bytes that are left, as the loop meets them. -/
theorem drop_eq_getD_cons (inside : pos < bytes.length) :
    bytes.drop pos = bytes.getD pos 0 :: bytes.drop (pos + 1) := by
  rw [List.drop_eq_getElem_cons inside, List.getD_eq_getElem?_getD,
    List.getElem?_eq_getElem inside, Option.getD_some]

/-- The loop in place is the conversion of the bytes from the place on. -/
theorem convertLoop_map_snd (whole : pos + left = bytes.length) :
    (convertLoop left pos bytes).map Prod.snd =
      (convertSlashes (bytes.drop pos)).map (bytes.take pos ++ ·) := by
  induction left generalizing pos bytes with
  | zero =>
      have none_left : bytes.drop pos = [] := List.drop_of_length_le (Nat.le_of_eq whole.symm)
      rw [none_left]
      rfl
  | succ left inductionHypothesis =>
      have inside : pos < bytes.length := by omega
      have here := drop_eq_getD_cons inside
      rw [convertLoop, here, convertSlashes]
      by_cases nul : bytes.getD pos 0 = 0
      · rw [if_pos nul, if_pos nul, ← here]
        exact congrArg Except.ok (List.take_append_drop pos bytes).symm
      · have rest := add_length_convertAt whole
        rw [if_neg nul, if_neg nul, inductionHypothesis rest, drop_convertAt, take_convertAt inside]
        cases convertSlashes (bytes.drop (pos + 1)) with
        | error fault => rfl
        | ok converted => exact congrArg Except.ok (List.append_cons _ _ _).symm

end Loop

section Param

variable {param converted : OsParam} {stop : Nat}

theorem offsetofImgPath_add (param : OsParam) :
    offsetofImgPath + (sizeofOsParam - offsetofImgPath) = param.bytes.length := by
  rw [param.length_bytes]
  rfl

/-- `main` goes on with the structure that the loop leaves. -/
theorem convertImgPath_eq (param : OsParam) :
    convertImgPath param = (convertPath param).map Prod.snd := by
  let loop := convertLoop (sizeofOsParam - offsetofImgPath) offsetofImgPath param.bytes
  calc convertImgPath param
    _ = ((convertSlashes param.vtoyImgPath).map (param.bytes.take 45 ++ ·)).map .ofBytes := by
        rw [convertImgPath]
        cases convertSlashes param.vtoyImgPath <;> rfl
    _ = (loop.map Prod.snd).map .ofBytes :=
        congrArg (Except.map _) (convertLoop_map_snd (offsetofImgPath_add param)).symm
    _ = (convertPath param).map Prod.snd := by
        rw [convertPath]
        change (loop.map Prod.snd).map OsParam.ofBytes = (loop >>= _).map Prod.snd
        cases loop <;> rfl

theorem convertPath_eq_ok_iff :
    convertPath param = .ok (stop, converted) ↔
      FirstNul param.bytes offsetofImgPath stop ∧
        converted.bytes = convertedTo offsetofImgPath stop param.bytes := by
  have size : (convertedTo offsetofImgPath stop param.bytes).length = sizeofOsParam :=
    length_convertedTo.trans param.length_bytes
  constructor
  · intro returned
    obtain ⟨⟨place, bytes⟩, looped, returned⟩ := bind_eq_ok_iff.mp returned
    cases returned
    obtain ⟨first, rfl⟩ := (convertLoop_eq_ok_iff (offsetofImgPath_add param)).mp looped
    exact ⟨first, OsParam.bytes_ofBytes size⟩
  · rintro ⟨first, contents⟩
    have looped := (convertLoop_eq_ok_iff (offsetofImgPath_add param)).mpr ⟨first, rfl⟩
    have same : OsParam.ofBytes (convertedTo offsetofImgPath stop param.bytes) = converted :=
      OsParam.bytes_injective ((OsParam.bytes_ofBytes size).trans contents.symm)
    rw [convertPath, looped, ok_bind, ← same]
    rfl

theorem nul_mem_field_iff {offset width : Nat} :
    0 ∈ param.field offset width ↔
      ∃ stop, FirstNul param.bytes offset stop ∧ stop < offset + width := by
  rw [OsParam.field, List.mem_iff_getElem?]
  constructor
  · rintro ⟨index, read⟩
    rw [List.getElem?_take, Option.ite_none_right_eq_some, List.getElem?_drop] at read
    obtain ⟨inside, nul⟩ := read
    have member : offset ≤ offset + index ∧ param.bytes[offset + index]? = some 0 :=
      ⟨Nat.le_add_right _ _, nul⟩
    have inhabited : ∃ place, offset ≤ place ∧ param.bytes[place]? = some 0 := ⟨_, member⟩
    refine ⟨Nat.find inhabited, Nat.isLeast_find inhabited, ?_⟩
    exact Nat.lt_of_le_of_lt (Nat.find_min' inhabited member) (Nat.add_lt_add_left inside offset)
  · rintro ⟨stop, ⟨⟨lower, nul⟩, -⟩, upper⟩
    refine ⟨stop - offset, ?_⟩
    rw [List.getElem?_take, Option.ite_none_right_eq_some, List.getElem?_drop,
      Nat.add_sub_cancel' lower]
    exact ⟨Nat.sub_lt_left_of_lt_add lower upper, nul⟩

theorem nul_mem_of_confinedToPath (confined : ConfinedToPath param) :
    0 ∈ param.field offsetofImgPath sizeofImgPath := by
  obtain ⟨stop, converted, returned, ⟨-, inside⟩, -⟩ := confined
  obtain ⟨first, -⟩ := convertPath_eq_ok_iff.mp returned
  exact nul_mem_field_iff.mpr ⟨stop, first, inside⟩

theorem confinedToPath_of_firstNul (first : FirstNul param.bytes offsetofImgPath stop)
    (inside : stop < offsetofImgPath + sizeofImgPath) : ConfinedToPath param := by
  let converted : OsParam := .ofBytes (convertedTo offsetofImgPath stop param.bytes)
  have contents : converted.bytes = convertedTo offsetofImgPath stop param.bytes :=
    OsParam.bytes_ofBytes (length_convertedTo.trans param.length_bytes)
  have changes : ∀ index, converted.bytes[index]? ≠ param.bytes[index]? →
      offsetofImgPath ≤ index ∧ index < stop ∧ param.bytes[index]? = some 47 := by
    intro index changed
    rw [contents] at changed
    exact changed_of_convertedTo changed
  have returned := convertPath_eq_ok_iff.mpr ⟨first, contents⟩
  refine ⟨stop, converted, returned, ⟨first.1.1, inside⟩, ?_, ?_⟩
  · intro index changed
    obtain ⟨lower, upper, slash⟩ := changes index changed
    refine ⟨⟨lower, upper.trans inside⟩, slash, ?_⟩
    intro earlier behind upTo nul
    exact absurd (first.2 ⟨behind, nul⟩) (Nat.not_le_of_lt (Nat.lt_of_le_of_lt upTo upper))
  · intro offset width outside
    apply OsParam.field_congr
    intro index lower upper
    by_contra changed
    obtain ⟨behind, before, -⟩ := changes index changed
    omega

end Param

/-- The conversion is confined to the path exactly when a NUL terminates the path. -/
theorem confinedToPath_iff (param : OsParam) :
    ConfinedToPath param ↔ 0 ∈ param.field offsetofImgPath sizeofImgPath := by
  constructor
  · exact nul_mem_of_confinedToPath
  · intro nul
    obtain ⟨stop, first, inside⟩ := nul_mem_field_iff.mp nul
    exact confinedToPath_of_firstNul first inside

section Unterminated

/-- A path of 384 bytes without a NUL, in front of a size of 47 bytes. -/
def unterminatedParam : OsParam :=
  .ofBytes (ventoyGuid ++ 100 :: (List.replicate 28 0 ++ List.replicate 384 97 ++ [47]))

/-- No NUL from the path up to the end of the structure. -/
def endlessParam : OsParam :=
  .ofBytes (ventoyGuid ++ 32 :: (List.replicate 28 0 ++ List.replicate 467 97))

/-- The size of the image is converted with the path, or the loop leaves the structure. -/
theorem not_confinedToPath_unterminated :
    (vtoyCheckOsParam unterminatedParam = 0 ∧ unterminatedParam.vtoyImgSize = 47 ∧
      (convertImgPath unterminatedParam).map OsParam.vtoyImgSize = .ok 92 ∧
      ¬ ConfinedToPath unterminatedParam) ∧
      (vtoyCheckOsParam endlessParam = 0 ∧ convertImgPath endlessParam = .error .outOfBounds ∧
        ¬ ConfinedToPath endlessParam) := by
  have unterminated : 0 ∉ unterminatedParam.field offsetofImgPath sizeofImgPath := by
    decide +kernel
  have endless : 0 ∉ endlessParam.field offsetofImgPath sizeofImgPath := by
    decide +kernel
  refine ⟨⟨by decide +kernel, by decide +kernel, by decide +kernel, ?_⟩,
    by decide +kernel, by decide +kernel, ?_⟩
  · intro confined
    exact unterminated (nul_mem_of_confinedToPath confined)
  · intro confined
    exact endless (nul_mem_of_confinedToPath confined)

end Unterminated

end Vtoydump.Windows
