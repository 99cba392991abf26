import Vtoydump.Basis.Text
import Vtoydump.Windows.System

/-!
# Finding the image on Windows

`vtoy_find_disk` takes the first drive whose physical disk carries the GUID
and that has a file at the path of the image.
-/

namespace Vtoydump.Windows

open CRun

/-- `IsUTF8Encode` looks at `MAX_PATH` bytes at most. -/
def isUTF8Encode (src : List Char) : Bool := (src.take 260).any fun char => 127 < char.toNat

/-- `Utf8ToUtf16` into a buffer of so many elements, with a terminator. -/
def utf8ToUtf16 (system : System) (elements : Nat) (src : List Char) : Run (List UInt16) :=
  let wide := system.multiByteToWideChar true src
  if wide.length < elements then .ok wide else .error .outOfBounds

def vtoyIsFileExist (system : System) (filePath : List Char) : Run Bool := do
  if isUTF8Encode filePath then
    let wide ← utf8ToUtf16 system 260 filePath
    return decide (system.fileW wide = .regular)
  else return decide (system.fileA filePath = .regular)

/-- The path of a physical disk fits the buffers it is printed to. -/
def physicalPath (number : Int) : List Char :=
  "\\\\.\\PhysicalDrive".toList ++ (toString number).toList

/-- The volume of a drive string: it ends at the colon. -/
def volumePath (logicalDrive : List Char) : Run (List Char) := do
  let path ← sprintfS 128 ("\\\\.\\".toList ++ logicalDrive)
  return path.takeWhile (· ≠ ':') ++ (if ':' ∈ path then [':'] else [])

/-- `(int)(DiskExtents.Extents[0].DiskNumber)`, which is what `%d` prints as well -/
def diskNumber (number : UInt32) : Int := number.toInt32.toInt

def getPhyDiskUUID (system : System) (logicalDrive : List Char) :
    Run (Option (Int × List UInt8)) := do
  let volume ← volumePath logicalDrive
  match system.volumeDisk volume with
  | none => return none
  | some number =>
      match system.physicalDrive (physicalPath (diskNumber number)) with
      | none => return none
      | some sector => return some (diskNumber number, bytesAt sector 0x180 16)

/-- `vtoy_img_path + 1` -/
def imgName (param : OsParam) : Run (List Char) := do
  let name ← cString (param.vtoyImgPath.drop 1)
  return shown name

/-- What `vtoy_find_disk` returns and leaves behind its pointers; the number of the
disk is indeterminate when no disk could be read. -/
structure DriveSearch where
  rc : Int
  phyDrive : Option Int
  diskname : List Char
  deriving DecidableEq

def findDiskLoop (system : System) (param : OsParam) :
    List (List Char) → Option Int → List Char → Run DriveSearch
  | [], phyDrive, diskname => .ok ⟨1, phyDrive, diskname⟩
  | pos :: later, phyDrive, diskname => do
      match ← getPhyDiskUUID system pos with
      | none => findDiskLoop system param later phyDrive diskname
      | some (number, uuid) =>
          if uuid ≠ param.vtoyDiskGuid then findDiskLoop system param later (some number) diskname
          else
            let diskname ← sprintfS 127 pos
            let name ← imgName param
            let filePath ← sprintfS 512 (diskname ++ name)
            let exist ← vtoyIsFileExist system filePath
            if exist then return ⟨0, some number, diskname⟩
            else findDiskLoop system param later (some number) diskname

def vtoyFindDisk (system : System) (param : OsParam) : Run DriveSearch :=
  -- a failed allocation returns 0, with `PhyDrive` and `diskname` as `main` set them
  if !system.driveStringsMalloc then .ok ⟨0, some (-1), []⟩
  else findDiskLoop system param system.driveStrings.val none []

end Vtoydump.Windows
