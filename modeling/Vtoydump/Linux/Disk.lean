import Vtoydump.Basis.Scan
import Vtoydump.Basis.Text
import Vtoydump.Linux.System
import Vtoydump.OsParam

/-!
# Finding the disk

`vtoy_find_disk` scans `/sys/block` for the size of the disk, and again for its
GUID and signature when the size does not single out a disk.  Both scans are
counting scans over the listed names, so the order of the listing only shows
in what the buffer holds when no disk is found.
-/

namespace Vtoydump.Linux

open CRun

/-- `vtoy_get_disk_guid`; a device that cannot be opened leaves the buffers alone. -/
def vtoyGetDiskGuid (system : System) (diskname : List Char) (vtguid : List UInt8)
    (vtsig : Option (List UInt8)) : Int × List UInt8 × Option (List UInt8) :=
  match system.device (snprintf 255 ("/dev/".toList ++ diskname)) with
  | .error errno => (errno, vtguid, vtsig)
  | .ok device => (0, bytesAt device.content 0x180 16, some (bytesAt device.content 0x1b8 4))

def vtoyGetDiskSizeInByte (system : System) (disk : List Char) : Run UInt64 :=
  match (system.sysfs (snprintf 255 ("/sys/block/".toList ++ disk ++ "/size".toList))).opened with
  | some text => do
      let size ← strtoull (readInto 64 text.val)
      return UInt64.ofNat size * 512
  | none =>
      match system.device (snprintf 255 ("/dev/".toList ++ disk)) with
      | .error _ => .ok 0
      | .ok device => .ok (device.blkGetSize64.getD 0)

def vtoyIsPossibleBlkdev (name : List Char) : Bool :=
  !(".".toList.isPrefixOf name) &&
  !("ram".toList.isPrefixOf name || "loop".toList.isPrefixOf name ||
    "dm-".toList.isPrefixOf name || "sr".toList.isPrefixOf name)

def findDiskBySizeLoop (system : System) (size : UInt64) (buflen : Nat) :
    List (List Char) → Int → List Char → Run (Int × List Char)
  | [], rc, diskname => .ok (rc, diskname)
  | name :: names, rc, diskname =>
      if !vtoyIsPossibleBlkdev name then findDiskBySizeLoop system size buflen names rc diskname
      else do
        let cursize ← vtoyGetDiskSizeInByte system name
        if cursize = size then
          let rc ← checkInt (rc + 1)
          findDiskBySizeLoop system size buflen names rc (snprintf buflen name)
        else findDiskBySizeLoop system size buflen names rc diskname

def vtoyFindDiskBySize (system : System) (size : UInt64) (diskname : List Char) (buflen : Nat) :
    Run (Int × List Char) :=
  match system.sysBlock with
  | none => .ok (0, diskname)
  | some names => findDiskBySizeLoop system size buflen names 0 diskname

/-- `memcmp` with a buffer that may not have been written. -/
def sameBytes (buffer : Option (List UInt8)) (bytes : List UInt8) : Run Bool :=
  match buffer with
  | none => .error .uninitialized
  | some written => .ok (written == bytes)

/-- The loop of `vtoy_find_disk_by_guid`.  `vtsig` keeps what the device before
left in it. -/
def findDiskByGuidLoop (system : System) (param : OsParam) (buflen : Nat) :
    List (List Char) → Int → List Char → Option (List UInt8) → Run (Int × List Char)
  | [], count, diskname, _ => .ok (count, diskname)
  | name :: names, count, diskname, vtsig =>
      if !vtoyIsPossibleBlkdev name then
        findDiskByGuidLoop system param buflen names count diskname vtsig
      else
        let (rc, vtguid, vtsig) := vtoyGetDiskGuid system name (List.replicate 16 0) vtsig
        if rc = 0 ∧ vtguid = param.vtoyDiskGuid then do
          let same ← sameBytes vtsig param.vtoyDiskSignature
          if same then
            let count ← checkInt (count + 1)
            findDiskByGuidLoop system param buflen names count (snprintf buflen name) vtsig
          else findDiskByGuidLoop system param buflen names count diskname vtsig
        else findDiskByGuidLoop system param buflen names count diskname vtsig

def vtoyFindDiskByGuid (system : System) (param : OsParam) (diskname : List Char)
    (buflen : Nat) : Run (Int × List Char) :=
  match system.sysBlock with
  | none => .ok (0, diskname)
  | some names => findDiskByGuidLoop system param buflen names 0 diskname none

def vtoyCheckDevice (system : System) (param : OsParam) (device : List Char) : Int :=
  let (_, vtguid, vtsig) :=
    vtoyGetDiskGuid system device (List.replicate 16 0) (some (List.replicate 4 0))
  if vtguid = param.vtoyDiskGuid ∧ vtsig = some param.vtoyDiskSignature then 0 else 1

/-- What `vtoy_find_disk` returns, leaves in the buffer and writes to `stderr`. -/
structure DiskSearch where
  rc : Int
  diskname : List Char
  stderr : List String
  deriving DecidableEq

def findDiskResult (cnt : Int) (diskname : List Char) : DiskSearch :=
  if cnt > 1 then ⟨1, diskname, ["More than one disk found, Indistinguishable"]⟩
  else if cnt = 0 then ⟨1, diskname, ["No ventoy disk found"]⟩
  else ⟨0, diskname, []⟩

def vtoyFindDisk (system : System) (param : OsParam) (diskname : List Char) (buflen : Nat) :
    Run DiskSearch := do
  let (cnt, diskname) ← vtoyFindDiskBySize system param.vtoyDiskSize diskname buflen
  if cnt = 1 then
    if vtoyCheckDevice system param diskname ≠ 0 then
      return findDiskResult 0 diskname
    else
      return findDiskResult 1 diskname
  else
    let (cnt, diskname) ← vtoyFindDiskByGuid system param diskname buflen
    return findDiskResult cnt diskname

/-- Whether the device carries the GUID and the signature of the parameters. -/
def carries (system : System) (param : OsParam) (name : List Char) : Bool :=
  match system.device ("/dev/".toList ++ name) with
  | .error _ => false
  | .ok device =>
      bytesAt device.content 0x180 16 == param.vtoyDiskGuid &&
        bytesAt device.content 0x1b8 4 == param.vtoyDiskSignature

/-- The size the kernel reports for a device. -/
def reportedSize (system : System) (name : List Char) : Run UInt64 :=
  match (system.sysfs ("/sys/block/".toList ++ name ++ "/size".toList)).opened with
  | some text => do
      let size ← strtoull (readInto 64 text.val)
      return UInt64.ofNat size * 512
  | none =>
      match system.device ("/dev/".toList ++ name) with
      | .error _ => .ok 0
      | .ok device => .ok (device.blkGetSize64.getD 0)

/-- The name fits the buffer it is returned in and those for its paths. -/
def Fits (buflen : Nat) (name : List Char) : Prop := name.length < buflen ∧ name.length ≤ 238

instance (buflen : Nat) (name : List Char) : Decidable (Fits buflen name) :=
  inferInstanceAs (Decidable (_ ∧ _))

/-- A candidate with the size of the parameters. -/
def sized (system : System) (param : OsParam) (name : List Char) : Run Bool :=
  if !vtoyIsPossibleBlkdev name then .ok false
  else do
    let size ← reportedSize system name
    return size == param.vtoyDiskSize

def identified (system : System) (param : OsParam) (name : List Char) : Bool :=
  vtoyIsPossibleBlkdev name && carries system param name

section Scans

variable {system : System} {param : OsParam} {buflen : Nat}

theorem vtoyGetDiskSizeInByte_of_fits {name : List Char} (fits : Fits buflen name) :
    vtoyGetDiskSizeInByte system name = reportedSize system name := by
  have size : ("/sys/block/".toList ++ name ++ "/size".toList).length < 255 := by
    have short := fits.2
    simp only [List.length_append]
    exact Nat.lt_of_le_of_lt (Nat.add_le_add_right (Nat.add_le_add_left short _) _) (by decide)
  have device : ("/dev/".toList ++ name).length < 255 := by
    have short := fits.2
    rw [List.length_append]
    exact Nat.lt_of_le_of_lt (Nat.add_le_add_left short _) (by decide)
  rw [vtoyGetDiskSizeInByte, snprintf_of_lt size, snprintf_of_lt device]
  rfl

/-- With a GUID that is not zero, reading the identity of a device decides. -/
theorem vtoyGetDiskGuid_carries (nonzero : param.vtoyDiskGuid ≠ List.replicate 16 0)
    {name : List Char} (fits : Fits buflen name) {vtsig signature : Option (List UInt8)}
    {rc : Int} {vtguid : List UInt8}
    (read : vtoyGetDiskGuid system name (List.replicate 16 0) vtsig = (rc, vtguid, signature)) :
    (carries system param name = true ∧ rc = 0 ∧ vtguid = param.vtoyDiskGuid ∧
        signature = some param.vtoyDiskSignature) ∨
      (carries system param name = false ∧
        (vtguid ≠ param.vtoyDiskGuid ∨ rc = 0 ∧
          ∃ other, signature = some other ∧ other ≠ param.vtoyDiskSignature)) := by
  have path : ("/dev/".toList ++ name).length < 255 := by
    have short := fits.2
    rw [List.length_append]
    exact Nat.lt_of_le_of_lt (Nat.add_le_add_left short _) (by decide)
  rw [vtoyGetDiskGuid, snprintf_of_lt path] at read
  rw [carries]
  cases opened : system.device ("/dev/".toList ++ name) with
  | error errno =>
      rw [opened] at read
      cases read
      exact .inr ⟨rfl, .inl (Ne.symm nonzero)⟩
  | ok device =>
      rw [opened] at read
      cases read
      by_cases guid : bytesAt device.content 0x180 16 = param.vtoyDiskGuid
      · by_cases signature : bytesAt device.content 0x1b8 4 = param.vtoyDiskSignature
        · exact .inl ⟨by simp [guid, signature], rfl, guid, congrArg some signature⟩
        · exact .inr ⟨by simp [signature], .inr ⟨rfl, _, rfl, signature⟩⟩
      · exact .inr ⟨by simp [guid], .inl guid⟩

theorem findDiskBySizeLoop_eq {names : List (List Char)} (fits : ∀ name ∈ names, Fits buflen name)
    (rc : Int) (diskname : List Char) (last : Option (List Char)) :
    findDiskBySizeLoop system param.vtoyDiskSize buflen names rc (last.getD diskname) = (do
      let (count, last) ← scan (sized system param) names rc last
      return (count, last.getD diskname)) := by
  induction names generalizing rc last with
  | nil => rfl
  | cons name names inductionHypothesis =>
      obtain ⟨here, others⟩ := List.forall_mem_cons.mp fits
      have rest := inductionHypothesis others
      rw [findDiskBySizeLoop, scan, sized, vtoyGetDiskSizeInByte_of_fits here]
      cases vtoyIsPossibleBlkdev name with
      | false => exact rest rc last
      | true =>
          cases reportedSize system name with
          | error fault => rfl
          | ok size =>
              by_cases same : size = param.vtoyDiskSize
              · cases checkInt (rc + 1) with
                | error fault => simp [same]
                | ok next =>
                    have named := rest next (some name)
                    rw [Option.getD_some] at named
                    simpa [same, snprintf_of_lt here.1] using named
              · simpa [same] using rest rc last

theorem findDiskByGuidLoop_eq (nonzero : param.vtoyDiskGuid ≠ List.replicate 16 0)
    {names : List (List Char)} (fits : ∀ name ∈ names, Fits buflen name) (count : Int)
    (diskname : List Char) (last : Option (List Char)) (vtsig : Option (List UInt8)) :
    findDiskByGuidLoop system param buflen names count (last.getD diskname) vtsig = (do
      let (count, last) ← scan (fun name => .ok (identified system param name)) names count last
      return (count, last.getD diskname)) := by
  induction names generalizing count last vtsig with
  | nil => rfl
  | cons name names inductionHypothesis =>
      obtain ⟨here, others⟩ := List.forall_mem_cons.mp fits
      have rest := inductionHypothesis others
      rw [findDiskByGuidLoop, scan, identified]
      cases vtoyIsPossibleBlkdev name with
      | false => exact rest count last vtsig
      | true =>
          rcases read : vtoyGetDiskGuid system name (List.replicate 16 0) vtsig with
            ⟨rc, vtguid, signature⟩
          rcases vtoyGetDiskGuid_carries nonzero here read with
            ⟨carried, rfl, rfl, rfl⟩ | ⟨other, guid | ⟨rfl, sig, rfl, differs⟩⟩
          · cases checkInt (count + 1) with
            | error fault => simp [carried, sameBytes]
            | ok next =>
                have named := rest next (some name) (some param.vtoyDiskSignature)
                rw [Option.getD_some] at named
                simpa [carried, sameBytes, snprintf_of_lt here.1] using named
          · simpa [other, guid] using rest count last signature
          · by_cases guid : vtguid = param.vtoyDiskGuid
            · simpa [other, guid, sameBytes, differs] using rest count last (some sig)
            · simpa [other, guid] using rest count last (some sig)

theorem vtoyCheckDevice_eq_zero_iff (nonzero : param.vtoyDiskGuid ≠ List.replicate 16 0)
    {name : List Char} (fits : Fits buflen name) :
    vtoyCheckDevice system param name = 0 ↔ carries system param name = true := by
  rw [vtoyCheckDevice]
  rcases read : vtoyGetDiskGuid system name (List.replicate 16 0)
    (some (List.replicate 4 0)) with ⟨rc, vtguid, signature⟩
  rcases vtoyGetDiskGuid_carries nonzero fits read with
    ⟨carried, rfl, rfl, rfl⟩ | ⟨other, guid | ⟨rfl, sig, rfl, differs⟩⟩
  · simp [carried]
  · simp [other, guid]
  · simp [other, differs]

end Scans

/-- The disk found is a candidate that carries the identity, and the only candidate
with its size or the only one with its identity. -/
structure Verified (system : System) (param : OsParam) (names : List (List Char))
    (found : List Char) : Prop where
  membership : found ∈ names
  possible : vtoyIsPossibleBlkdev found = true
  carried : carries system param found = true
  unique :
    (sized system param found = .ok true ∧
        ∀ other ∈ names, sized system param other = .ok true → other = found) ∨
      ∀ other ∈ names, identified system param other = true → other = found

def System.listing (system : System) (names : List (List Char)) : System :=
  { system with sysBlock := some names }

section Find

variable {system : System} {param : OsParam} {buflen : Nat}

/-- The whole search in terms of its two scans. -/
theorem vtoyFindDisk_eq (nonzero : param.vtoyDiskGuid ≠ List.replicate 16 0)
    {names : List (List Char)} (fits : ∀ name ∈ names, Fits buflen name) (diskname : List Char) :
    vtoyFindDisk (system.listing names) param diskname buflen = (do
      let (cnt, last) ← scan (sized system param) names 0 none
      if cnt = 1 then
        if vtoyCheckDevice system param (last.getD diskname) ≠ 0 then
          return findDiskResult 0 (last.getD diskname)
        else return findDiskResult 1 (last.getD diskname)
      else
        let (cnt, last) ←
          scan (fun name => .ok (identified system param name)) names 0 last
        return findDiskResult cnt (last.getD diskname)) := by
  have bySize : vtoyFindDiskBySize (system.listing names) param.vtoyDiskSize diskname buflen =
      (do
        let (count, last) ← scan (sized system param) names 0 none
        return (count, last.getD diskname)) :=
    @findDiskBySizeLoop_eq (system.listing names) param buflen names fits 0 diskname none
  have byGuid : ∀ last : Option (List Char),
      vtoyFindDiskByGuid (system.listing names) param (last.getD diskname) buflen = (do
        let (count, last) ←
          scan (fun name => .ok (identified system param name)) names 0 last
        return (count, last.getD diskname)) := fun last =>
    @findDiskByGuidLoop_eq (system.listing names) param buflen nonzero names fits 0 diskname last
      none
  rw [vtoyFindDisk, bySize]
  cases scan (sized system param) names 0 none with
  | error fault => rfl
  | ok counted =>
      obtain ⟨cnt, last⟩ := counted
      by_cases one : cnt = 1
      · simp only [ok_bind, pure_eq_ok, one]
        rfl
      · simp only [ok_bind, pure_eq_ok, one, if_false, byGuid]
        cases scan (fun name => .ok (identified system param name)) names 0 last <;> rfl

theorem exists_sized (name : List Char) : ∃ passed, sized system param name = .ok passed := by
  unfold sized reportedSize
  cases vtoyIsPossibleBlkdev name with
  | false => exact ⟨false, rfl⟩
  | true =>
      cases (system.sysfs ("/sys/block/".toList ++ name ++ "/size".toList)).opened with
      | some text =>
          obtain ⟨value, parsed⟩ := exists_strtoull_readInto text.property
          refine ⟨UInt64.ofNat value * 512 == param.vtoyDiskSize, ?_⟩
          simp only [parsed, ok_bind, pure_eq_ok]
          rfl
      | none =>
          cases system.device ("/dev/".toList ++ name) with
          | error errno => exact ⟨_, rfl⟩
          | ok device => exact ⟨_, rfl⟩

theorem exists_vtoyFindDisk (nonzero : param.vtoyDiskGuid ≠ List.replicate 16 0)
    {names : List (List Char)} (fits : ∀ name ∈ names, Fits buflen name)
    (short : names.length ≤ 2147483647) (diskname : List Char) :
    ∃ search, vtoyFindDisk (system.listing names) param diskname buflen = .ok search := by
  rw [vtoyFindDisk_eq nonzero fits]
  obtain ⟨cnt, last, bySize⟩ := @exists_scan _ (sized system param) names none
    (fun name _ => exists_sized name) short
  obtain ⟨cntGuid, lastGuid, byGuid⟩ :=
    @exists_scan _ (fun name => .ok (identified system param name)) names last
      (fun name _ => ⟨identified system param name, rfl⟩) short
  simp only [bySize, byGuid, ok_bind]
  split_ifs
  · exact ⟨_, rfl⟩
  · exact ⟨_, rfl⟩
  · exact ⟨_, rfl⟩

theorem eq_one_of_findDiskResult {test : List Char → Run Bool} {names : List (List Char)}
    {last found : Option (List Char)} {cnt : Int} {diskname : List Char}
    (scanned : scan test names 0 last = .ok (cnt, found))
    (success : (findDiskResult cnt diskname).rc = 0) : cnt = 1 := by
  obtain ⟨-, counted, -⟩ := (scan_eq_ok_iff (Int.le_refl 0) (by decide)).mp scanned
  unfold findDiskResult at success
  split_ifs at success with many none_found
  · cases success
  · cases success
  · omega

theorem findDiskResult_rc (cnt : Int) (first second : List Char) :
    (findDiskResult cnt first).rc = (findDiskResult cnt second).rc := by
  unfold findDiskResult
  split_ifs <;> rfl

/-- The result of the search in another order. -/
theorem vtoyFindDisk_perm (nonzero : param.vtoyDiskGuid ≠ List.replicate 16 0)
    {names order : List (List Char)} (perm : names.Perm order)
    (fits : ∀ name ∈ names, Fits buflen name) {diskname : List Char} {search : DiskSearch}
    (returned : vtoyFindDisk (system.listing names) param diskname buflen = .ok search) :
    ∃ again, vtoyFindDisk (system.listing order) param diskname buflen = .ok again ∧
      again.rc = search.rc ∧ (search.rc = 0 → again = search) := by
  have fitsOrder : ∀ name ∈ order, Fits buflen name :=
    fun name membership => fits name (perm.mem_iff.mpr membership)
  rw [vtoyFindDisk_eq nonzero fits] at returned
  obtain ⟨⟨cnt, last⟩, bySize, rest⟩ := bind_eq_ok_iff.mp returned
  obtain ⟨again, bySizeAgain, sameSize⟩ := @scan_perm _ _ _ _ _ none _ _ perm bySize
  rw [vtoyFindDisk_eq nonzero fitsOrder, bySizeAgain]
  by_cases one : cnt = 1
  · refine ⟨search, ?_, rfl, fun _ => rfl⟩
    rw [sameSize one]
    simp only [ok_bind, one, if_true] at rest ⊢
    exact rest
  · simp only [one, if_false] at rest
    obtain ⟨⟨cntGuid, lastGuid⟩, byGuid, result⟩ := bind_eq_ok_iff.mp rest
    obtain ⟨againGuid, byGuidAgain, sameGuid⟩ := @scan_perm _ _ _ _ _ again _ _ perm byGuid
    cases result
    refine ⟨findDiskResult cntGuid (againGuid.getD diskname), ?_, findDiskResult_rc _ _ _, ?_⟩
    · simp only [ok_bind, one, if_false, byGuidAgain]
      rfl
    · intro success
      rw [sameGuid (eq_one_of_findDiskResult byGuid success)]

theorem verified_of_size {names : List (List Char)} {found : List Char}
    (only : names.filter (passes (sized system param)) = [found])
    (carried : carries system param found = true) : Verified system param names found := by
  have membership := List.mem_filter.mp (only ▸ List.mem_singleton_self found)
  have size : sized system param found = .ok true := by
    have passed := membership.2
    unfold passes at passed
    cases tested : sized system param found with
    | error fault =>
        rw [tested] at passed
        cases passed
    | ok passing =>
        rw [tested] at passed
        exact congrArg Except.ok passed
  refine ⟨membership.1, ?_, carried, .inl ⟨size, ?_⟩⟩
  · by_contra filtered
    rw [sized, Bool.eq_false_of_not_eq_true filtered] at size
    cases size
  · intro other inside passed
    apply List.mem_singleton.mp
    rw [← only]
    exact List.mem_filter.mpr ⟨inside, passes_of_eq_ok passed⟩

theorem verified_of_identity {names : List (List Char)} {found : List Char}
    (only : names.filter (passes fun name => .ok (identified system param name)) = [found]) :
    Verified system param names found := by
  have membership := List.mem_filter.mp (only ▸ List.mem_singleton_self found)
  obtain ⟨possible, carried⟩ := Bool.and_eq_true_iff.mp membership.2
  refine ⟨membership.1, possible, carried, .inr ?_⟩
  intro other inside passed
  apply List.mem_singleton.mp
  rw [← only]
  exact List.mem_filter.mpr ⟨inside, passed⟩

theorem vtoyFindDisk_verified (nonzero : param.vtoyDiskGuid ≠ List.replicate 16 0)
    {names : List (List Char)} (fits : ∀ name ∈ names, Fits buflen name)
    {diskname : List Char} {search : DiskSearch}
    (returned : vtoyFindDisk (system.listing names) param diskname buflen = .ok search)
    (success : search.rc = 0) : Verified system param names search.diskname := by
  rw [vtoyFindDisk_eq nonzero fits] at returned
  obtain ⟨⟨cnt, last⟩, bySize, rest⟩ := bind_eq_ok_iff.mp returned
  by_cases one : cnt = 1
  · subst one
    obtain ⟨name, rfl, only⟩ := scan_eq_one bySize
    have inside : name ∈ names := (List.mem_filter.mp (only ▸ List.mem_singleton_self name)).1
    by_cases checked : vtoyCheckDevice system param name = 0
    · simp only [if_true, Option.getD_some, checked, ne_eq, not_true_eq_false, if_false] at rest
      cases rest
      exact verified_of_size only ((vtoyCheckDevice_eq_zero_iff nonzero (fits _ inside)).mp checked)
    · simp only [if_true, Option.getD_some, checked, ne_eq, not_false_eq_true] at rest
      cases rest
      cases success
  · simp only [one, if_false] at rest
    obtain ⟨⟨cntGuid, lastGuid⟩, byGuid, result⟩ := bind_eq_ok_iff.mp rest
    cases result
    obtain rfl := eq_one_of_findDiskResult byGuid success
    obtain ⟨name, rfl, only⟩ := scan_eq_one byGuid
    exact verified_of_identity only

/-- The search returns unless there are more disks than an `int` counts, it does not
depend on the order of the listing, and what it finds is verified. -/
theorem vtoyFindDisk_sound (system : System) (param : OsParam) (buflen : Nat)
    (diskname : List Char) (names order : List (List Char))
    (nonzero : param.vtoyDiskGuid ≠ List.replicate 16 0) (perm : names.Perm order)
    (fits : ∀ name ∈ names, Fits buflen name) :
    let search := fun listed => vtoyFindDisk (system.listing listed) param diskname buflen
    (names.length ≤ 2147483647 → ∃ found, search names = .ok found) ∧
      (∀ rc, (∃ found, search names = .ok found ∧ found.rc = rc) ↔
        ∃ found, search order = .ok found ∧ found.rc = rc) ∧
      ∀ found, search names = .ok found → found.rc = 0 →
        search order = .ok found ∧ Verified system param names found.diskname := by
  have fitsOrder : ∀ name ∈ order, Fits buflen name :=
    fun name membership => fits name (perm.mem_iff.mpr membership)
  intro search
  refine ⟨?_, ?_, ?_⟩
  · intro short
    exact exists_vtoyFindDisk nonzero fits short diskname
  · intro rc
    constructor
    · rintro ⟨found, returned, rfl⟩
      obtain ⟨again, same, code, -⟩ := vtoyFindDisk_perm nonzero perm fits returned
      exact ⟨again, same, code⟩
    · rintro ⟨found, returned, rfl⟩
      obtain ⟨again, same, code, -⟩ := vtoyFindDisk_perm nonzero perm.symm fitsOrder returned
      exact ⟨again, same, code⟩
  · intro found returned success
    obtain ⟨again, same, -, equal⟩ := vtoyFindDisk_perm nonzero perm fits returned
    rw [equal success] at same
    exact ⟨same, vtoyFindDisk_verified nonzero fits returned success⟩

/-- Two disks of one size with a GUID and a signature each. -/
def twinSystem : System :=
  { System.bare with
    sysfs _ := .readable ⟨"2048".toList, by decide⟩
    device path :=
      if path = "/dev/sda".toList then .ok ⟨fun _ => 1, none⟩
      else if path = "/dev/sdb".toList then .ok ⟨fun _ => 2, none⟩
      else .error 2 }

/-- What names the second of the two: its size, GUID and signature. -/
def twinParam : OsParam :=
  .ofBytes (List.replicate 33 2 ++ leBytes 8 1048576 ++ List.replicate 480 2)

/-- The sizes do not tell the disks apart, the identities do. -/
example : vtoyFindDisk (twinSystem.listing ["sda".toList, "sdb".toList]) twinParam [] 255 =
    .ok ⟨0, "sdb".toList, []⟩ := by decide +kernel

theorem vtoyFindDisk_sound_twins :
    let search := fun listed => vtoyFindDisk (twinSystem.listing listed) twinParam [] 255
    (2 ≤ 2147483647 → ∃ found, search ["sda".toList, "sdb".toList] = .ok found) ∧
      (∀ rc, (∃ found, search ["sda".toList, "sdb".toList] = .ok found ∧ found.rc = rc) ↔
        ∃ found, search ["sdb".toList, "sda".toList] = .ok found ∧ found.rc = rc) ∧
      ∀ found, search ["sda".toList, "sdb".toList] = .ok found → found.rc = 0 →
        search ["sdb".toList, "sda".toList] = .ok found ∧
          Verified twinSystem twinParam ["sda".toList, "sdb".toList] found.diskname :=
  vtoyFindDisk_sound twinSystem twinParam 255 []
    ["sda".toList, "sdb".toList] ["sdb".toList, "sda".toList] (by decide) (by decide) (by decide)

end Find

end Vtoydump.Linux
