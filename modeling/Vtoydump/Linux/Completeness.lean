import Vtoydump.Linux.Disk

/-!
# Disks that are not found

The only candidate with the identity of the parameters is found by its identity,
whatever sizes the disks report, unless the scan for the size ends the search:
on a single disk of that size, the identity of no other disk is looked at.
-/

namespace Vtoydump.Linux

open CRun

/-- The candidates that report the size of the parameters. -/
def sizeMatches (system : System) (param : OsParam) (names : List (List Char)) :
    List (List Char) := names.filter (passes (sized system param))

def identityMatches (system : System) (param : OsParam) (names : List (List Char)) :
    List (List Char) := names.filter (identified system param)

/-- The search returns the disk, and success. -/
def Finds (only : List Char) (run : Run DiskSearch) : Prop :=
  ∃ search, run = .ok search ∧ search.rc = 0 ∧ search.diskname = only

section Search

variable {system : System} {param : OsParam} {buflen : Nat} {names : List (List Char)}
  {only : List Char}

theorem carries_of_identityMatches (single : identityMatches system param names = [only]) :
    only ∈ names ∧ carries system param only = true := by
  have membership := List.mem_filter.mp (single ▸ List.mem_singleton_self only)
  exact ⟨membership.1, (Bool.and_eq_true_iff.mp membership.2).2⟩

theorem eq_only_of_carries (single : identityMatches system param names = [only])
    {other : List Char} (sizes : sizeMatches system param names = [other])
    (carried : carries system param other = true) : other = only := by
  have found := verified_of_size sizes carried
  apply List.mem_singleton.mp
  rw [← single]
  exact List.mem_filter.mpr
    ⟨found.membership, Bool.and_eq_true_iff.mpr ⟨found.possible, found.carried⟩⟩

/-- The scan for the size counts its matches, as far as an `int` can. -/
theorem scan_sized_eq_ok_iff {cnt : Int} {last found : Option (List Char)} :
    scan (sized system param) names 0 last = .ok (cnt, found) ↔
      cnt = (sizeMatches system param names).length ∧ cnt ≤ intMax ∧
        found = (sizeMatches system param names).getLast?.or last := by
  rw [scan_eq_ok_iff (Int.le_refl 0) (by decide), Int.zero_add]
  exact and_iff_right fun name _ => exists_sized name

theorem scan_identified (single : identityMatches system param names = [only])
    (last : Option (List Char)) :
    scan (fun name => .ok (identified system param name)) names 0 last =
      .ok (1, some only) := by
  have matched : names.filter (passes fun name => .ok (identified system param name)) = [only] :=
    single
  refine (scan_eq_ok_iff (Int.le_refl 0) (by decide)).mpr ⟨?_, ?_, by decide, ?_⟩
  · intro name _
    exact ⟨_, rfl⟩
  · rw [matched]
    rfl
  · rw [matched]
    rfl

/-- One disk of the size: the search ends with it, found or not. -/
theorem finds_iff_of_single (nonzero : param.vtoyDiskGuid ≠ List.replicate 16 0)
    (fits : ∀ name ∈ names, Fits buflen name) (diskname : List Char)
    (single : identityMatches system param names = [only]) {other : List Char}
    (sizes : sizeMatches system param names = [other]) :
    Finds only (vtoyFindDisk (system.listing names) param diskname buflen) ↔ other = only := by
  have inside : other ∈ names :=
    (List.mem_filter.mp (sizes ▸ List.mem_singleton_self other)).1
  have bySize : scan (sized system param) names 0 none = .ok (1, some other) :=
    scan_sized_eq_ok_iff.mpr (by rw [sizes]; exact ⟨rfl, by decide, rfl⟩)
  have checked := @vtoyCheckDevice_eq_zero_iff system param buflen nonzero other (fits _ inside)
  rw [vtoyFindDisk_eq nonzero fits, bySize]
  simp only [ok_bind, if_true, Option.getD_some]
  by_cases carried : carries system param other = true
  · rw [if_neg (not_not.mpr (checked.mpr carried))]
    constructor
    · intro _
      exact eq_only_of_carries single sizes carried
    · rintro rfl
      exact ⟨_, rfl, rfl, rfl⟩
  · rw [if_pos (checked.not.mpr carried)]
    constructor
    · rintro ⟨search, returned, success, -⟩
      cases returned
      cases success
    · rintro rfl
      exact absurd (carries_of_identityMatches single).2 carried

/-- Any other number of disks of the size: the identity decides. -/
theorem finds_iff_of_not_single (nonzero : param.vtoyDiskGuid ≠ List.replicate 16 0)
    (fits : ∀ name ∈ names, Fits buflen name) (diskname : List Char)
    (single : identityMatches system param names = [only])
    (sizes : (sizeMatches system param names).length ≠ 1) :
    Finds only (vtoyFindDisk (system.listing names) param diskname buflen) ↔
      (sizeMatches system param names).length ≤ 2147483647 := by
  have byGuid := fun last => @scan_identified system param names only single last
  rw [vtoyFindDisk_eq nonzero fits]
  simp only [byGuid]
  constructor
  · rintro ⟨search, returned, -⟩
    obtain ⟨⟨cnt, last⟩, bySize, -⟩ := bind_eq_ok_iff.mp returned
    obtain ⟨rfl, small, -⟩ := scan_sized_eq_ok_iff.mp bySize
    exact Int.ofNat_le.mp small
  · intro small
    have bySize : scan (sized system param) names 0 none =
        .ok (((sizeMatches system param names).length : Int),
          (sizeMatches system param names).getLast?.or none) :=
      scan_sized_eq_ok_iff.mpr ⟨rfl, Int.ofNat_le.mpr small, rfl⟩
    have several : ¬ ((sizeMatches system param names).length : Int) = 1 := by
      intro one
      exact sizes (Int.ofNat_inj.mp one)
    rw [bySize]
    simp only [ok_bind, if_neg several, Option.getD_some]
    exact ⟨_, rfl, rfl, rfl⟩

end Search

/-- The only candidate with the identity is found exactly when no other disk is the
only one of the recorded size; the disks of that size are counted in an `int`. -/
theorem finds_iff (system : System) (param : OsParam) (buflen : Nat) (diskname : List Char)
    (names : List (List Char)) (only : List Char)
    (nonzero : param.vtoyDiskGuid ≠ List.replicate 16 0)
    (fits : ∀ name ∈ names, Fits buflen name)
    (single : identityMatches system param names = [only]) :
    Finds only (vtoyFindDisk (system.listing names) param diskname buflen) ↔
      (sizeMatches system param names).length ≤ 2147483647 ∧
        ∀ other, sizeMatches system param names = [other] → other = only := by
  by_cases one : (sizeMatches system param names).length = 1
  · obtain ⟨other, sizes⟩ := List.length_eq_one_iff.mp one
    rw [finds_iff_of_single nonzero fits diskname single sizes]
    constructor
    · rintro rfl
      refine ⟨one.le.trans (by decide), ?_⟩
      intro another also
      rw [sizes] at also
      exact (List.cons.inj also).1.symm
    · rintro ⟨-, same⟩
      exact same other sizes
  · rw [finds_iff_of_not_single nonzero fits diskname single one]
    constructor
    · intro small
      refine ⟨small, ?_⟩
      intro other sizes
      rw [sizes] at one
      exact absurd rfl one
    · intro both
      exact both.1

section Sizes

/-- The disk `sda` carries the identity, the disk `sdb` has the recorded size. -/
def sizeSystem : System :=
  { System.bare with
    device := fun path =>
      if path = "/dev/sda".toList then .ok ⟨fun _ => 1, some 1024⟩
      else .ok ⟨fun _ => 0, some 512⟩ }

def sizeParam : OsParam :=
  .ofBytes (List.replicate 33 1 ++ leBytes 8 512 ++ List.replicate 444 1)

theorem finds_iff_sizes :
    Finds "sda".toList (vtoyFindDisk (sizeSystem.listing ["sda".toList, "sdb".toList])
        sizeParam [] 255) ↔
      (sizeMatches sizeSystem sizeParam ["sda".toList, "sdb".toList]).length ≤ 2147483647 ∧
        ∀ other, sizeMatches sizeSystem sizeParam ["sda".toList, "sdb".toList] = [other] →
          other = "sda".toList :=
  finds_iff sizeSystem sizeParam 255 [] ["sda".toList, "sdb".toList] "sda".toList
    (by decide +kernel) (by decide) (by decide +kernel)

theorem not_finds_sizes :
    sizeParam.vtoyDiskGuid ≠ List.replicate 16 0 ∧
      identityMatches sizeSystem sizeParam ["sda".toList, "sdb".toList] = ["sda".toList] ∧
      ¬ Finds "sda".toList (vtoyFindDisk (sizeSystem.listing ["sda".toList, "sdb".toList])
        sizeParam [] 255) := by
  refine ⟨by decide +kernel, by decide +kernel, ?_⟩
  rintro ⟨search, returned, success, -⟩
  have run : vtoyFindDisk (sizeSystem.listing ["sda".toList, "sdb".toList]) sizeParam [] 255 =
      .ok ⟨1, "sdb".toList, ["No ventoy disk found"]⟩ := by
    decide +kernel
  rw [run] at returned
  cases returned
  cases success

end Sizes

end Vtoydump.Linux
