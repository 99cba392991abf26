import Vtoydump.OsParam

/-!
# The system around the Windows program

The answers of the Windows calls that the program makes.  Text is a list of
the bytes of a C string, each as a character; the calls that take wide strings
get what `MultiByteToWideChar` makes of it.
-/

namespace Vtoydump.Windows

inductive FileKind where
  | missing
  | directory
  | regular
  deriving DecidableEq

/-- What `GetSystemFirmwareTable` leaves in a buffer, and `GetLastError` behind it. -/
structure FirmwareTable where
  table : Source
  lastError : UInt32

structure ServiceManager where
  openManager : Except UInt32 Unit
  create : List Char → Except UInt32 Unit
  openService : List Char → Bool
  start : List Char → Except UInt32 Unit

structure VirtualDisk where
  openDisk : List UInt16 → UInt32
  /-- `AttachVirtualDisk`, with a drive letter of its own or without. -/
  attach : Bool → UInt32
  physicalPath : Except UInt32 (List Char)
  define : Nat → Char → List Char → Bool
  /-- The first set of drives that differs from the one before, if there ever is one. -/
  drivesAfter : Option UInt32

/-- The strings of a buffer in which an empty one ends the list. -/
abbrev DriveStrings := { drives : List (List Char) // [] ∉ drives }

/-- Everything the program observes. -/
structure System where
  multiByteToWideChar : Bool → List Char → List UInt16
  /-- The path of an ANSI call. -/
  fileA : List Char → FileKind
  /-- The path of a wide call. -/
  fileW : List UInt16 → FileKind
  /-- The data file, if it can be opened. -/
  dataFile : List Char → Option Source
  dataFileMalloc : Bool
  /-- The error of a query for a variable that does not exist, without and with the
  privilege. -/
  dummyVariable : Bool → UInt32
  efivar : List UInt8
  ibft : FirmwareTable
  acpi : FirmwareTable
  acpiMalloc : Bool
  driveStrings : DriveStrings
  driveStringsMalloc : Bool
  /-- `DiskNumber` of the first extent of a volume. -/
  volumeDisk : List Char → Option UInt32
  physicalDrive : List Char → Option (Nat → UInt8)
  logicalDrives : UInt32
  windows8OrGreater : Bool
  virtualDisk : VirtualDisk
  /-- Whether the size of a disk can be queried. -/
  diskLength : List Char → Bool
  /-- Whether the second partition of the disk is a FAT that `fl_attach_media` accepts. -/
  fatAttach : List Char → Bool
  services : ServiceManager
  /-- Whether the process of a command line mounts the image where it is told to. -/
  imdisk : List Char → Bool

def System.bare : System where
  multiByteToWideChar _ text := text.map fun char => UInt16.ofNat char.toNat
  fileA _ := .missing
  fileW _ := .missing
  dataFile _ := none
  dataFileMalloc := true
  dummyVariable _ := 1
  efivar := []
  ibft := ⟨⟨0, fun _ => 0⟩, 2⟩
  acpi := ⟨⟨0, fun _ => 0⟩, 2⟩
  acpiMalloc := true
  driveStrings := ⟨[], List.not_mem_nil⟩
  driveStringsMalloc := true
  volumeDisk _ := none
  physicalDrive _ := none
  logicalDrives := 0
  windows8OrGreater := true
  virtualDisk := ⟨fun _ => 2, fun _ => 2, .error 2, fun _ _ _ => false, none⟩
  diskLength _ := false
  fatAttach _ := false
  services := ⟨.error 5, fun _ => .error 5, fun _ => false, fun _ => .error 5⟩
  imdisk _ := false

end Vtoydump.Windows
