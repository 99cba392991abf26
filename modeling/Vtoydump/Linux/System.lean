import Vtoydump.Exfat.Cluster
import Vtoydump.Exfat.RegionTable

/-!
# The system around the Linux program

What the program can observe: files that may be missing or locked, block
devices, physical memory and the exFAT file system of a partition.  A source
answers the same way every time, and a read on an opened device returns the
requested bytes; a regular file returns what is left of it.
-/

namespace Vtoydump.Linux

inductive FileState (Content : Type) where
  | missing
  | locked
  | readable (content : Content)

variable {Content : Type}

/-- `access(path, F_OK) >= 0` -/
def FileState.accessible : FileState Content → Bool
  | .missing => false
  | _ => true

def FileState.opened : FileState Content → Option Content
  | .readable content => some content
  | _ => none

/-- A value that `errno` has after a failed call. -/
abbrev Errno := { code : Int // code ≠ 0 }

/-- The text of a numeric attribute: it is shorter than the buffers it is read into. -/
abbrev SysfsText := { text : List Char // text.length < 64 }

/-- An opened block device: its bytes, and the answer to `BLKGETSIZE64`. -/
structure BlockDevice where
  content : Nat → UInt8
  blkGetSize64 : Option UInt64

inductive DevMem where
  | locked (errno : Errno)
  | opened (mmap : Nat → Nat → Except Errno (Nat → UInt8))

structure ExfatDriver where
  mount : List Char → Except Int Exfat.Volume
  lookup : Exfat.Volume → List UInt8 → Except Int Exfat.ExfatNode

/-- Everything the program observes. -/
structure System where
  /-- `/sys/firmware/acpi/tables/VTOY` -/
  acpiTable : FileState (List UInt8)
  efi : Bool
  /-- The variable under `/sys/firmware/efi/efivars`. -/
  efivar : FileState (List UInt8)
  /-- The variable under `/sys/firmware/efi/vars`. -/
  efivarData : FileState (List UInt8)
  devMem : DevMem
  /-- What `readdir` lists in `/sys/block`, if it can be opened. -/
  sysBlock : Option (List (List Char))
  sysfs : List Char → FileState SysfsText
  device : List Char → Except Int BlockDevice
  exfat : ExfatDriver
  /-- The build and the answers of `malloc` inside `lsexfat.c`. -/
  process : Exfat.Process
  /-- Whether the tables of physical memory and of ACPI can be allocated. -/
  phymemMalloc : Bool
  acpiMalloc : Bool

def System.bare : System where
  acpiTable := .missing
  efi := false
  efivar := .missing
  efivarData := .missing
  devMem := .locked ⟨1, by decide⟩
  sysBlock := none
  sysfs _ := .missing
  device _ := .error 2
  exfat := ⟨fun _ => .error (-2), fun _ _ => .error (-2)⟩
  process := .allocating .bits64
  phymemMalloc := true
  acpiMalloc := true

end Vtoydump.Linux
