import Vtoydump.Basis.Utf
import Vtoydump.Windows.Mount
import Vtoydump.Windows.Search

/-!
# The buffers for the path of the image

The path on a drive goes into `FilePath[512]`, into `FilePathW[260]` when it is
converted, and into `IsoPath[260]`.  The last buffer is the narrow one: a path
has no more UTF-16 units than bytes.
-/

namespace Vtoydump.Windows

open CRun

/-- `MultiByteToWideChar` for UTF-8: the units of the code points, and never more units
than bytes, whatever the bytes are. -/
structure ConvertsUtf8 (convert : Bool → List Char → List UInt16) : Prop where
  wellFormed : ∀ text : List Char,
    (convert true (shown (utf8Bytes text))).length = (utf16Units text).length
  anyBytes : ∀ bytes : List Char, (convert true bytes).length ≤ bytes.length

/-- What `Utf8ToUtf16` writes, its terminator included, fits `FilePathW`. -/
def FilePathWFits (system : System) (path : List Char) : Prop :=
  isUTF8Encode path = true → (system.multiByteToWideChar true path).length + 1 ≤ 260

/-- The path of a name on a drive fits each buffer, with its terminator. -/
structure PathBuffersFit (system : System) (drive name : List Char) : Prop where
  filePath : (drive ++ name).length + 1 ≤ 512
  filePathW : FilePathWFits system (drive ++ name)
  isoPath : (drive ++ name).length + 1 ≤ 260

section Buffers

variable {system : System} {param : OsParam} {drive name : List Char}

/-- The buffers fit exactly when each step that fills one returns. -/
theorem pathBuffersFit_iff_returns (named : imgName param = .ok name) :
    PathBuffersFit system drive name ↔
      sprintfS 512 (drive ++ name) = .ok (drive ++ name) ∧
        (∃ exist, vtoyIsFileExist system (drive ++ name) = .ok exist) ∧
        isoPath 260 param drive = .ok (drive ++ name) := by
  have printed : ∀ size,
      sprintfS size (drive ++ name) = .ok (drive ++ name) ↔ (drive ++ name).length + 1 ≤ size := by
    intro size
    exact sprintfS_eq_ok_iff.trans (and_iff_left rfl)
  have checked : (∃ exist, vtoyIsFileExist system (drive ++ name) = .ok exist) ↔
      FilePathWFits system (drive ++ name) := by
    constructor
    · rintro ⟨exist, returned⟩
      exact (vtoyIsFileExist_eq_ok_iff.mp returned).1
    · intro fits
      exact exists_vtoyIsFileExist fits
  rw [isoPath, named, ok_bind, printed, printed, checked]
  constructor
  · intro fit
    exact ⟨fit.filePath, fit.filePathW, fit.isoPath⟩
  · rintro ⟨filePath, filePathW, isoPath⟩
    exact ⟨filePath, filePathW, isoPath⟩

/-- The bytes of the path decide: a shorter path has no more units than them. -/
theorem pathBuffersFit_of_converts (converts : ConvertsUtf8 system.multiByteToWideChar) :
    PathBuffersFit system drive name ↔ (drive ++ name).length ≤ 259 := by
  constructor
  · intro fit
    exact Nat.le_of_succ_le_succ fit.isoPath
  · intro short
    have units := (converts.anyBytes (drive ++ name)).trans short
    refine ⟨?_, ?_, Nat.succ_le_succ short⟩
    · exact (Nat.succ_le_succ short).trans (by decide)
    · intro _
      exact Nat.succ_le_succ units

/-- `FilePathW` alone: the code points of the path decide. -/
theorem filePathWFits_iff (converts : ConvertsUtf8 system.multiByteToWideChar)
    {text path : List Char} (wellFormed : path = shown (utf8Bytes text)) :
    FilePathWFits system path ↔
      (isUTF8Encode path = true → (utf16Units text).length ≤ 259) := by
  subst wellFormed
  rw [FilePathWFits, converts.wellFormed, Nat.succ_le_succ_iff]

end Buffers

/-- All buffers are large enough for a path exactly when it has at most 259 bytes with its
drive; `FilePathW` is for a well-formed path when it is not converted, or has at most 259
units. -/
theorem pathBuffersFit_iff (system : System) (param : OsParam) (drive name : List Char)
    (converts : ConvertsUtf8 system.multiByteToWideChar)
    (named : imgName param = .ok name) :
    (PathBuffersFit system drive name ↔ (drive ++ name).length ≤ 259) ∧
      (PathBuffersFit system drive name ↔
        sprintfS 512 (drive ++ name) = .ok (drive ++ name) ∧
          (∃ exist, vtoyIsFileExist system (drive ++ name) = .ok exist) ∧
          isoPath 260 param drive = .ok (drive ++ name)) ∧
      ∀ text, drive ++ name = shown (utf8Bytes text) →
        (FilePathWFits system (drive ++ name) ↔
          (isUTF8Encode (drive ++ name) = true → (utf16Units text).length ≤ 259)) := by
  refine ⟨pathBuffersFit_of_converts converts, pathBuffersFit_iff_returns named, ?_⟩
  intro text wellFormed
  exact filePathWFits_iff converts wellFormed

section Wide

/-- A system that converts as Windows does. -/
def wideSystem : System :=
  { System.bare with
    multiByteToWideChar := fun utf8 text =>
      if utf8 then utf8ToWide (text.map fun char => UInt8.ofNat char.toNat)
      else text.map fun char => UInt16.ofNat char.toNat }

theorem bytes_shown (bytes : List UInt8) :
    (shown bytes).map (fun char => UInt8.ofNat char.toNat) = bytes := by
  rw [shown, List.map_map]
  apply List.map_id''
  intro byte
  have valid : byte.toNat.isValidChar := .inl (byte.toNat_lt.trans (by decide))
  have code : (Char.ofNat byte.toNat).toNat = byte.toNat := by
    rw [Char.ofNat, dif_pos valid]
    rfl
  rw [Function.comp_apply, code, UInt8.ofNat_toNat]

theorem convertsUtf8_wideSystem : ConvertsUtf8 wideSystem.multiByteToWideChar where
  wellFormed text := by
    change (utf8ToWide ((shown (utf8Bytes text)).map _)).length = _
    rw [bytes_shown, utf8ToWide_utf8Bytes]
  anyBytes bytes := by
    have bound := length_utf8ToWide_le (bytes.map fun char => UInt8.ofNat char.toNat)
    rw [List.length_map] at bound
    exact bound

/-- A name with one letter outside ASCII, and 300 within. -/
def wideName : List Char := 'é' :: List.replicate 300 'a'

def wideParam : OsParam := .ofBytes (List.replicate 45 0 ++ utf8Bytes ('/' :: wideName))

theorem imgName_wideParam : imgName wideParam = .ok (shown (utf8Bytes wideName)) := by
  decide +kernel

theorem pathBuffersFit_iff_wide :
    (PathBuffersFit wideSystem "C:\\".toList (shown (utf8Bytes wideName)) ↔
        ("C:\\".toList ++ shown (utf8Bytes wideName)).length ≤ 259) ∧
      (PathBuffersFit wideSystem "C:\\".toList (shown (utf8Bytes wideName)) ↔
        sprintfS 512 ("C:\\".toList ++ shown (utf8Bytes wideName)) =
            .ok ("C:\\".toList ++ shown (utf8Bytes wideName)) ∧
          (∃ exist, vtoyIsFileExist wideSystem
            ("C:\\".toList ++ shown (utf8Bytes wideName)) = .ok exist) ∧
          isoPath 260 wideParam "C:\\".toList =
            .ok ("C:\\".toList ++ shown (utf8Bytes wideName))) ∧
      ∀ text, "C:\\".toList ++ shown (utf8Bytes wideName) = shown (utf8Bytes text) →
        (FilePathWFits wideSystem ("C:\\".toList ++ shown (utf8Bytes wideName)) ↔
          (isUTF8Encode ("C:\\".toList ++ shown (utf8Bytes wideName)) = true →
            (utf16Units text).length ≤ 259)) :=
  pathBuffersFit_iff wideSystem wideParam "C:\\".toList _ convertsUtf8_wideSystem
    imgName_wideParam

/-- The path has 303 bytes; 305 units are written to `FilePathW`. -/
theorem not_pathBuffersFit_wide :
    (utf8Bytes ('/' :: wideName)).length ≤ 383 ∧
      imgName wideParam = .ok (shown (utf8Bytes wideName)) ∧
      ConvertsUtf8 wideSystem.multiByteToWideChar ∧
      ¬ FilePathWFits wideSystem ("C:\\".toList ++ shown (utf8Bytes wideName)) ∧
      ¬ PathBuffersFit wideSystem "C:\\".toList (shown (utf8Bytes wideName)) := by
  have joined : "C:\\".toList ++ shown (utf8Bytes wideName) =
      shown (utf8Bytes ("C:\\".toList ++ wideName)) := by
    decide +kernel
  have overflows :
      ¬ FilePathWFits wideSystem ("C:\\".toList ++ shown (utf8Bytes wideName)) := by
    rw [filePathWFits_iff convertsUtf8_wideSystem joined]
    intro fits
    have units := fits (by decide +kernel)
    exact absurd units (by decide +kernel)
  exact ⟨by decide +kernel, imgName_wideParam, convertsUtf8_wideSystem, overflows,
    fun fit => overflows fit.filePathW⟩

end Wide

end Vtoydump.Windows
