import Vtoydump.Basis.ByteStore
import Vtoydump.Exfat.Written

/-!
# A volume with several files

Files of one volume are cut, written and read in any order, and the device may fail each
call as it likes.  What the calls answer and leave is what a store of byte lists does, until
a call meets a transfer that fails; then the file of this call is lost, and no other.
-/

namespace Vtoydump.Exfat

open CRun Blocks ByteStore

structure FileStore (ef : FatVolume) (width : Nat) (Id : Type) where
  disk : ef.Disk width
  node : Id → FileNode

/-- A call: the file, what is asked, the time, and what the device does. -/
structure Call (Id : Type) where
  file : Id
  request : Request
  now : Int
  io : Transfers

/-- A call that returned, with the volume that it met. -/
structure Served (ef : FatVolume) (width : Nat) (Id : Type) where
  before : FileStore ef width Id
  call : Call Id
  answer : Answer

variable {Id : Type} [DecidableEq Id] {width : Nat} {ef : FatVolume}

namespace FileStore

def set (store : FileStore ef width Id) (file : Id) (disk : ef.Disk width) (node : FileNode) :
    FileStore ef width Id := ⟨disk, Function.update store.node file node⟩

def serve (store : FileStore ef width Id) (call : Call Id) :
    Run (Answer × FileStore ef width Id) :=
  let node := store.node call.file
  match call.request with
  | .truncate size erase => do
      let (rc, disk, node) ← exfatTruncate ef call.io call.now store.disk node
        (UInt64.ofNat size) erase
      return (⟨rc, []⟩, store.set call.file disk node)
  | .write data offset => do
      let (rc, disk, node) ← exfatGenericPwrite ef call.io call.now store.disk node data offset
      return (⟨rc, []⟩, store.set call.file disk node)
  | .read buffer offset => do
      let (rc, filled, moved) ← exfatGenericPread (ef.reader call.io store.disk.content)
        node.toExfatNode buffer buffer.length offset
      return (⟨rc, filled⟩, store.set call.file store.disk { node with toExfatNode := moved })

def serveAll : List (Call Id) → FileStore ef width Id →
    Run (List (Served ef width Id) × FileStore ef width Id)
  | [], store => .ok ([], store)
  | call :: calls, store => do
      let (answer, next) ← store.serve call
      let (log, after) ← serveAll calls next
      return (⟨store, call, answer⟩ :: log, after)

/-- A call that does what it would if all transfers of the device succeeded.  Any other call
has met a transfer that failed. -/
def Works (store : FileStore ef width Id) (call : Call Id) : Prop :=
  store.serve call = store.serve { call with io := workingDevice }

/-- The sizes fit, and a file that gets more clusters has not the one free cluster right
before it. -/
def Safe (store : FileStore ef width Id) (call : Call Id) : Prop :=
  call.request.reach (store.node call.file).size.toNat ≤ ef.largest ∧
  (ef.needed (store.node call.file).size.toNat <
      ef.needed (call.request.reach (store.node call.file).size.toNat) →
    ¬ TakesBelow ef store.disk (store.node call.file).toExfatNode
      (bytes2clusters ef.sb.toExfatSuperBlock (store.node call.file).size))

/-- All calls are safe, and none is for a file that the device has failed before. -/
def Careful (lost : Id → Prop) : List (Call Id) → FileStore ef width Id → Prop
  | [], _ => True
  | call :: calls, store => ¬ lost call.file ∧ store.Safe call ∧
      ∀ answer next, store.serve call = .ok (answer, next) →
        Careful (fun file => lost file ∨
          file = call.file ∧ answer.rc < 0 ∧ ¬ store.Works call) calls next

/-- A run to be careful in, as far as it is seen from the sizes and the answers. -/
def seemsCareful (lost : List Id) : List (Call Id) → FileStore ef width Id → Bool
  | [], _ => true
  | call :: calls, store =>
      let node := store.node call.file
      let reach := call.request.reach node.size.toNat
      !lost.contains call.file && reach ≤ ef.largest &&
        (ef.needed reach ≤ ef.needed node.size.toNat ||
          !(node.isContiguous && bytes2clusters ef.sb.toExfatSuperBlock node.size == 1)) &&
        match store.serve call with
        | .error _ => true
        | .ok (answer, next) =>
            seemsCareful (if answer.rc < 0 then call.file :: lost else lost) calls next

theorem Careful.of_seems {lost : Id → Prop} {gone : List Id} {calls : List (Call Id)}
    {store : FileStore ef width Id} (known : ∀ file, lost file → file ∈ gone)
    (seems : seemsCareful gone calls store = true) : store.Careful lost calls := by
  induction calls generalizing lost gone store with
  | nil => trivial
  | cons call calls inductionHypothesis =>
      rw [seemsCareful] at seems
      simp only [Bool.and_eq_true, Bool.not_eq_true', decide_eq_true_eq, Bool.or_eq_true] at seems
      obtain ⟨⟨⟨present, fits⟩, apart⟩, rest⟩ := seems
      refine ⟨fun gone => ?_, ⟨fits, fun more below => ?_⟩, fun answer next served => ?_⟩
      · have membership := List.contains_iff_mem.mpr (known _ gone)
        rw [present] at membership
        cases membership
      · rcases apart with fewer | outside
        · omega
        · rw [below.1, below.2.1] at outside
          cases outside
      · rw [served] at rest
        refine inductionHypothesis ?_ rest
        rintro file (before | ⟨rfl, failed, _⟩)
        · split_ifs
          · exact List.mem_cons_of_mem _ (known file before)
          · exact known file before
        · rw [if_pos failed]
          exact List.mem_cons_self

end FileStore

def Served.event (served : Served ef width Id) : Event Id :=
  ⟨served.call.file, served.call.request, served.before.Works served.call, served.answer⟩

/-- The files of a volume and their clusters.  What belongs to none of them is as it was on
the device at the beginning. -/
structure Keeps (ef : FatVolume) (origin : ef.Disk width) (foreign : UInt32 → Prop)
    (store : FileStore ef width Id) (files : Store Id) (chain : Id → List UInt32) : Prop where
  contains : ∀ file bytes, files.content file = some bytes →
    Contains ef store.disk (store.node file) (chain file) bytes
  referenced : ∀ file, Referenced (store.node file)
  apart : ∀ file other, file ≠ other → files.content file ≠ none → files.content other ≠ none →
    (chain file).Disjoint (chain other)
  free : files.free = exfatCountFreeClusters store.disk.cmap.chunk
  spares : Spares ef (fun cluster => ¬ foreign cluster) origin store.disk
  closed : ∀ file, files.content file ≠ none → ∀ cluster, ef.invalid cluster = false →
    foreign cluster → ¬ Owned store.disk (chain file) cluster
  exact : (∀ file, files.content file ≠ none) → ∀ cluster, ef.invalid cluster = false →
    (store.disk.cmap.used cluster = true ↔ foreign cluster ∨ ∃ file, cluster ∈ chain file)

section Keeping

variable {origin : ef.Disk width} {foreign : UInt32 → Prop} {store : FileStore ef width Id}
  {files : Store Id} {chain : Id → List UInt32} {file : Id} {after : ef.Disk width}
  {node : FileNode} {bytes next : List UInt8} {clusters : List UInt32} {own : UInt32 → Prop}

omit [DecidableEq Id] in
theorem Keeps.not_owned (keeps : Keeps ef origin foreign store files chain) {other : Id}
    (different : other ≠ file) (known : files.content file ≠ none)
    (knownToo : files.content other ≠ none) :
    ∀ cluster ∈ chain other, ¬ Owned store.disk (chain file) cluster := by
  rintro cluster membership (mine | free)
  · exact keeps.apart other file different knownToo known membership mine
  · obtain ⟨bytes, held⟩ := Option.ne_none_iff_exists'.mp knownToo
    rw [(keeps.contains other bytes held).stores.holds.used cluster membership] at free
    cases free

omit [DecidableEq Id] in
theorem Keeps.foreign_used (keeps : Keeps ef origin foreign store files chain)
    (known : files.content file ≠ none)
    (spares : Spares ef (Owned store.disk (chain file)) store.disk after) {cluster : UInt32}
    (valid : ef.invalid cluster = false) (outside : foreign cluster) :
    cluster ∉ chain file ∧ after.cmap.used cluster = true := by
  have apart := keeps.closed file known cluster valid outside
  have used := (spares.used cluster valid apart).mpr
  rw [Owned, not_or] at apart
  exact ⟨apart.1, used (eq_true_of_ne_false apart.2)⟩

/-- The bitmap marks the clusters of the new chain in the place of those of the old one. -/
theorem Keeps.exact_set {new : List UInt32} (keeps : Keeps ef origin foreign store files chain)
    (all : ∀ other, files.content other ≠ none)
    (spares : Spares ef (Owned store.disk (chain file)) store.disk after)
    (replaces : Replaces ef store.disk after (chain file) new) {cluster : UInt32}
    (valid : ef.invalid cluster = false) :
    after.cmap.used cluster = true ↔
      foreign cluster ∨ ∃ other, cluster ∈ Function.update chain file new other := by
  rw [replaces.used cluster valid, keeps.exact all cluster valid]
  constructor
  · rintro (membership | ⟨notMine, outside | ⟨other, membership⟩⟩)
    · exact Or.inr ⟨file, by rw [Function.update_self]; exact membership⟩
    · exact Or.inl outside
    · have different : other ≠ file := by
        rintro rfl
        exact notMine membership
      exact Or.inr ⟨other, by rw [Function.update_of_ne different]; exact membership⟩
  · rintro (outside | ⟨other, membership⟩)
    · exact Or.inr ⟨(keeps.foreign_used (all file) spares valid outside).1, Or.inl outside⟩
    · by_cases same : other = file
      · rw [same, Function.update_self] at membership
        exact Or.inl membership
      · rw [Function.update_of_ne same] at membership
        exact Or.inr ⟨fun mine => keeps.apart other file same (all other) (all file) membership
          mine, Or.inr ⟨other, membership⟩⟩

theorem Keeps.apart_set {new : List UInt32} {content : Option (List UInt8)} {free : Nat}
    (keeps : Keeps ef origin foreign store files chain) (known : files.content file ≠ none)
    (owned : content ≠ none → ∀ cluster ∈ new, Owned store.disk (chain file) cluster)
    {first second : Id} (different : first ≠ second)
    (knownFirst : (files.set file content free).content first ≠ none)
    (knownSecond : (files.set file content free).content second ≠ none) :
    (Function.update chain file new first).Disjoint (Function.update chain file new second) := by
  have others : content ≠ none → ∀ other, other ≠ file → files.content other ≠ none →
      new.Disjoint (chain other) := fun held other apart knownToo cluster inNew inOther =>
    keeps.not_owned apart known knownToo cluster inOther (owned held cluster inNew)
  by_cases sameFirst : first = file
  · have sameSecond : second ≠ file := fun same => different (sameFirst.trans same.symm)
    rw [sameFirst, Store.set_content_self] at knownFirst
    rw [Store.set_content_of_ne _ sameSecond] at knownSecond
    rw [sameFirst, Function.update_self, Function.update_of_ne sameSecond]
    exact others knownFirst second sameSecond knownSecond
  · rw [Store.set_content_of_ne _ sameFirst] at knownFirst
    rw [Function.update_of_ne sameFirst]
    by_cases sameSecond : second = file
    · rw [sameSecond, Store.set_content_self] at knownSecond
      rw [sameSecond, Function.update_self]
      exact (others knownSecond first sameFirst knownFirst).symm
    · rw [Store.set_content_of_ne _ sameSecond] at knownSecond
      rw [Function.update_of_ne sameSecond]
      exact keeps.apart first second different knownFirst knownSecond

/-- A call on one file keeps the others, whatever becomes of this one. -/
theorem Keeps.set (keeps : Keeps ef origin foreign store files chain)
    (known : files.content file ≠ none)
    (spares : Spares ef (Owned store.disk (chain file)) store.disk after)
    (referenced : Referenced node) (content : Option (List UInt8)) (new : List UInt32)
    (holds : ∀ bytes, content = some bytes → Contains ef after node new bytes ∧
      Replaces ef store.disk after (chain file) new) :
    Keeps ef origin foreign (store.set file after node)
      (files.set file content (exfatCountFreeClusters after.cmap.chunk))
      (Function.update chain file new) := by
  have selfNode : (store.set file after node).node file = node := by simp [FileStore.set]
  have otherNode : ∀ other, other ≠ file → (store.set file after node).node other =
      store.node other := by
    intro other different
    simp [FileStore.set, different]
  have disk : (store.set file after node).disk = after := rfl
  have owned : content ≠ none → ∀ cluster ∈ new, Owned store.disk (chain file) cluster := by
    intro some
    obtain ⟨bytes, held⟩ := Option.ne_none_iff_exists'.mp some
    exact (holds bytes held).2.owned
  refine ⟨?_, ?_, fun first second => keeps.apart_set known owned, rfl, ?_, ?_, ?_⟩
  · intro other bytes held
    by_cases same : other = file
    · subst same
      rw [Store.set_content_self] at held
      rw [selfNode, disk, Function.update_self]
      exact (holds bytes held).1
    · rw [Store.set_content_of_ne _ same] at held
      rw [otherNode other same, disk, Function.update_of_ne same]
      exact (keeps.contains other bytes held).spared spares
        (keeps.not_owned same known (by rw [held]; exact Option.some_ne_none _))
  · intro other
    by_cases same : other = file
    · rw [same, selfNode]
      exact referenced
    · rw [otherNode other same]
      exact keeps.referenced other
  · exact keeps.spares.trans (spares.mono fun cluster valid owned outside =>
      keeps.closed file known cluster valid outside owned)
  · rintro other knownToo cluster valid outside (membership | free)
    · by_cases same : other = file
      · rw [same, Store.set_content_self] at knownToo
        rw [same, Function.update_self] at membership
        exact keeps.closed file known cluster valid outside (owned knownToo cluster membership)
      · rw [Store.set_content_of_ne _ same] at knownToo
        rw [Function.update_of_ne same] at membership
        exact keeps.closed other knownToo cluster valid outside (Or.inl membership)
    · rw [disk, (keeps.foreign_used known spares valid outside).2] at free
      cases free
  · intro all cluster valid
    have before : ∀ other, files.content other ≠ none := by
      intro other
      by_cases same : other = file
      · rw [same]
        exact known
      · have knownToo := all other
        rw [Store.set_content_of_ne _ same] at knownToo
        exact knownToo
    have now := all file
    rw [Store.set_content_self] at now
    obtain ⟨bytes, held⟩ := Option.ne_none_iff_exists'.mp now
    exact keeps.exact_set before spares (holds bytes held).2 valid

omit [DecidableEq Id] in
theorem Keeps.counted {new : List UInt32} (keeps : Keeps ef origin foreign store files chain)
    (held : files.content file = some bytes) (contains : Contains ef after node new next)
    (replaces : Replaces ef store.disk after (chain file) new) :
    exfatCountFreeClusters after.cmap.chunk + ef.needed next.length =
      files.free + ef.needed bytes.length := by
  have before := keeps.contains file bytes held
  have counted := replaces.counted
  rw [before.stores.sized, contains.stores.sized, ← before.length, ← contains.length] at counted
  rw [keeps.free]
  exact counted

omit [DecidableEq Id] in
theorem Keeps.short (keeps : Keeps ef origin foreign store files chain) {size : Nat}
    (held : files.content file = some bytes)
    (short : exfatCountFreeClusters store.disk.cmap.chunk + (chain file).length < ef.needed size) :
    files.free + ef.needed bytes.length < ef.needed size := by
  have before := keeps.contains file bytes held
  rw [before.stores.sized, ← before.length, ← keeps.free] at short
  exact short

omit [DecidableEq Id] in
theorem Keeps.taken (keeps : Keeps ef origin foreign store files chain)
    (known : files.content file ≠ none) :
    files.taken ef.needed file = (chain file).length := by
  obtain ⟨bytes, held⟩ := Option.ne_none_iff_exists'.mp known
  have contains := keeps.contains file bytes held
  rw [Store.taken, held, contains.stores.sized, ← contains.length]
  rfl

/-- A step of a store of byte lists, after which the chain of one file is another. -/
def Steps (ef : FatVolume) (origin : ef.Disk width) (foreign : UInt32 → Prop) (event : Event Id)
    (files : Store Id) (chain : Id → List UInt32) (after : FileStore ef width Id) : Prop :=
  ∃ final new, Effect ef.needed (-enospc) event files final ∧
    Keeps ef origin foreign after final (Function.update chain event.file new)

section Calls

variable {event : Event Id} {new : List UInt32}

theorem Keeps.done (keeps : Keeps ef origin foreign store files chain)
    (held : files.content event.file = some bytes)
    (spares : Spares ef (Owned store.disk (chain event.file)) store.disk after)
    (referenced : Referenced node) (contains : Contains ef after node new next)
    (replaces : Replaces ef store.disk after (chain event.file) new)
    (done : event.request.Done bytes event.answer next) :
    Steps ef origin foreign event files chain (store.set event.file after node) := by
  refine ⟨_, new, .done held done (keeps.counted held contains replaces),
    keeps.set (by rw [held]; exact Option.some_ne_none _) spares referenced (some next) new ?_⟩
  rintro other same
  cases same
  exact ⟨contains, replaces⟩

theorem Keeps.full (keeps : Keeps ef origin foreign store files chain)
    (held : files.content event.file = some bytes)
    (spares : Spares ef (Owned store.disk (chain event.file)) store.disk after)
    (referenced : Referenced node) (contains : Contains ef after node new next)
    (replaces : Replaces ef store.disk after (chain event.file) new)
    (unchanged : event.request.Unchanged bytes next) (code : event.answer.rc = -enospc)
    (short : files.free + ef.needed bytes.length < ef.needed (event.request.reach bytes.length)) :
    Steps ef origin foreign event files chain (store.set event.file after node) := by
  refine ⟨_, new, .full held unchanged code short (keeps.counted held contains replaces),
    keeps.set (by rw [held]; exact Option.some_ne_none _) spares referenced (some next) new ?_⟩
  rintro other same
  cases same
  exact ⟨contains, replaces⟩

theorem Keeps.failed (keeps : Keeps ef origin foreign store files chain)
    (known : files.content event.file ≠ none)
    (spares : Spares ef (Owned store.disk (chain event.file)) store.disk after)
    (referenced : Referenced node) (code : event.answer.rc < 0) (unreliable : ¬ event.reliable) :
    Steps ef origin foreign event files chain (store.set event.file after node) := by
  refine ⟨_, chain event.file, .failed code unreliable,
    keeps.set known spares referenced none (chain event.file) ?_⟩
  intro other same
  cases same

end Calls

theorem serve_truncate (laid : ef.Laid) {size : Nat} {erase : Bool} {now : Int} {io : Transfers}
    (keeps : Keeps ef origin foreign store files chain) (known : files.content file ≠ none)
    (safe : store.Safe ⟨file, .truncate size erase, now, io⟩) :
    (∃ answer after, store.serve ⟨file, .truncate size erase, now, io⟩ = .ok (answer, after) ∧
      Steps ef origin foreign ⟨file, .truncate size erase, io.Reliable, answer⟩ files chain
        after) ∨
    store.serve ⟨file, .truncate size erase, now, io⟩ = .error .abort ∧ ¬ io.Reliable := by
  obtain ⟨bytes, held⟩ := Option.ne_none_iff_exists'.mp known
  obtain ⟨fits, apart⟩ := safe
  have bound := largest_lt ef
  have fits : size ≤ ef.largest := fits
  have number : (UInt64.ofNat size).toNat = size := Nat.mod_eq_of_lt (by omega)
  have referenced := keeps.referenced file
  rw [FileStore.serve]
  dsimp only
  rcases exfatTruncate_eq io (UInt64.ofNat size) now erase laid (keeps.contains file bytes held)
    referenced (by rw [number]; exact fits) (by rw [number]; exact apart) with
    ⟨rc, after, resized, truncated, result⟩ | ⟨aborted, unreliable⟩
  · rw [truncated]
    have still := referenced.of_sameKind result.kind
    refine Or.inl ⟨⟨rc, []⟩, store.set file after resized, rfl, ?_⟩
    rcases result.outcome with zero | ⟨code, short, contains, replaces⟩ | ⟨negative, unreliable⟩
    · obtain ⟨new, fill, contains, replaces, sized, zeros⟩ := result.done zero
      have length := contains.length
      rw [sized] at length
      rw [number] at contains zeros length
      exact keeps.done held result.spares still contains replaces
        ⟨zero, length, take_resized length, fun erased => by rw [zeros erased, take_extend]⟩
    · rw [number] at short
      exact keeps.full held result.spares still contains replaces rfl code (keeps.short held short)
    · exact keeps.failed known result.spares still negative unreliable
  · rw [aborted]
    exact Or.inr ⟨rfl, unreliable⟩

theorem serve_write (laid : ef.Laid) {data : List UInt8} {offset : Nat} {now : Int}
    {io : Transfers} (keeps : Keeps ef origin foreign store files chain)
    (known : files.content file ≠ none) (safe : store.Safe ⟨file, .write data offset, now, io⟩) :
    (∃ answer after, store.serve ⟨file, .write data offset, now, io⟩ = .ok (answer, after) ∧
      Steps ef origin foreign ⟨file, .write data offset, io.Reliable, answer⟩ files chain
        after) ∨
    store.serve ⟨file, .write data offset, now, io⟩ = .error .abort ∧ ¬ io.Reliable := by
  obtain ⟨bytes, held⟩ := Option.ne_none_iff_exists'.mp known
  obtain ⟨fits, apart⟩ := safe
  have fits : max (store.node file).size.toNat (offset + data.length) ≤ ef.largest := fits
  have referenced := keeps.referenced file
  have farther : ef.needed (offset + data.length) ≤
      ef.needed (max (store.node file).size.toNat (offset + data.length)) :=
    needed_mono ef (Nat.le_max_right _ _)
  rw [FileStore.serve]
  dsimp only
  rcases exfatGenericPwrite_eq io now laid (keeps.contains file bytes held) referenced
    (by omega : offset + data.length ≤ ef.largest)
    (fun more => apart (Nat.lt_of_lt_of_le more farther)) with
    ⟨rc, after, written, wrote, result⟩ | ⟨aborted, unreliable⟩
  · rw [wrote]
    have still := referenced.of_sameKind result.kind
    refine Or.inl ⟨⟨rc, []⟩, store.set file after written, rfl, ?_⟩
    rcases result.outcome with positive | ⟨code, short, contents⟩ | ⟨negative, unreliable⟩
    · obtain ⟨code, new, contains, replaces⟩ := result.done positive
      exact keeps.done held result.spares still contains replaces ⟨code, rfl⟩
    · obtain ⟨new, left, contains, replaces, unchanged⟩ := contents
      have needs := needed_mono ef (Nat.le_max_right bytes.length (offset + data.length))
      exact keeps.full held result.spares still contains replaces unchanged code
        (Nat.lt_of_lt_of_le (keeps.short held short) needs)
    · exact keeps.failed known result.spares still negative unreliable
  · rw [aborted]
    exact Or.inr ⟨rfl, unreliable⟩

theorem serve_read (laid : ef.Laid) {buffer : List UInt8} {offset : Nat} {now : Int}
    {io : Transfers} (keeps : Keeps ef origin foreign store files chain)
    (known : files.content file ≠ none) :
    ∃ answer after, store.serve ⟨file, .read buffer offset, now, io⟩ = .ok (answer, after) ∧
      Steps ef origin foreign ⟨file, .read buffer offset, io.Reliable, answer⟩ files chain
        after := by
  obtain ⟨bytes, held⟩ := Option.ne_none_iff_exists'.mp known
  have contains := keeps.contains file bytes held
  have referenced := keeps.referenced file
  obtain ⟨rc, filled, moved, reads, same, outcome⟩ := exfatGenericPread_holds io buffer offset laid
    contains.stores.holds contains.stores.size_le (Nat.le_refl buffer.length)
  have kind : SameKind (store.node file) { store.node file with toExfatNode := moved } :=
    ⟨rfl, rfl, rfl⟩
  have still := referenced.of_sameKind kind
  rw [FileStore.serve]
  dsimp only
  rw [reads]
  refine ⟨⟨rc, filled⟩, store.set file store.disk { store.node file with toExfatNode := moved },
    rfl, ?_⟩
  rcases outcome with ⟨movedHolds, code, content⟩ | ⟨code, unreliable⟩
  · have piece := take_drop_bytesAt (ef.byte store.disk.content (chain file))
      (store.node file).size.toNat offset buffer.length
    rw [contains.bytes] at piece
    have movedContains : Contains ef store.disk
        { store.node file with toExfatNode := moved } (chain file) bytes := by
      refine contains.of_stores ⟨movedHolds, ?_, ?_⟩ same.size fun _ _ _ _ => rfl
      · rw [same.size]
        exact contains.stores.sized
      · exact contains.stores.ended.of_entry same.isContiguous fun _ _ => rfl
    refine keeps.done held (.refl _ _) still movedContains (.refl contains.stores.holds)
      ⟨?_, ?_, rfl⟩
    · rw [piece, length_bytesAt]
      exact code
    · rw [piece, overwrite, List.take_zero, List.nil_append, length_bytesAt, Nat.zero_add]
      exact content
  · have negative : rc < 0 := by
      rw [code]
      decide
    exact keeps.failed known (.refl _ _) still negative unreliable

theorem serve_reliable (laid : ef.Laid) (call : Call Id)
    (keeps : Keeps ef origin foreign store files chain)
    (known : files.content call.file ≠ none) (safe : store.Safe call) :
    (∃ answer after, store.serve call = .ok (answer, after) ∧
      Steps ef origin foreign ⟨call.file, call.request, call.io.Reliable, answer⟩ files chain
        after) ∨
    store.serve call = .error .abort ∧ ¬ call.io.Reliable := by
  obtain ⟨file, request, now, io⟩ := call
  cases request with
  | truncate size erase => exact serve_truncate laid keeps known safe
  | write data offset => exact serve_write laid keeps known safe
  | read buffer offset => exact Or.inl (serve_read laid keeps known)

/-- One call on a volume is one step of a store of byte lists, or it meets a transfer that
fails. -/
theorem serve_eq (laid : ef.Laid) {call : Call Id}
    (keeps : Keeps ef origin foreign store files chain)
    (known : files.content call.file ≠ none) (safe : store.Safe call) :
    (∃ answer after, store.serve call = .ok (answer, after) ∧
      Steps ef origin foreign (Served.event ⟨store, call, answer⟩) files chain after) ∨
    store.serve call = .error .abort ∧ ¬ store.Works call := by
  by_cases works : store.Works call
  · -- the answer is that of a device on which no call is failed
    rcases serve_reliable laid { call with io := workingDevice } keeps known safe with
      ⟨answer, after, served, final, new, effect, kept⟩ | ⟨_, unreliable⟩
    · exact Or.inl ⟨answer, after, works.trans served, final, new,
        effect.of_reliable reliable_workingDevice _, kept⟩
    · exact absurd reliable_workingDevice unreliable
  · rcases serve_reliable laid call keeps known safe with
      ⟨answer, after, served, final, new, effect, kept⟩ | ⟨aborted, _⟩
    · exact Or.inl ⟨answer, after, served, final, new, effect.of_unreliable works, kept⟩
    · exact Or.inr ⟨aborted, works⟩

end Keeping

/-- A run of calls beside the run of a store of byte lists.  Each call changes the chain of its
own file alone. -/
inductive Refines (ef : FatVolume) (origin : ef.Disk width) (foreign : UInt32 → Prop) :
    FileStore ef width Id → Store Id → (Id → List UInt32) → List (Served ef width Id) →
      FileStore ef width Id → Store Id → (Id → List UInt32) → Prop where
  | nil {store : FileStore ef width Id} {files : Store Id} {chain : Id → List UInt32}
      (keeps : Keeps ef origin foreign store files chain) :
      Refines ef origin foreign store files chain [] store files chain
  | cons {store next after : FileStore ef width Id} {files between final : Store Id}
      {chain last : Id → List UInt32} {call : Call Id} {answer : Answer} {new : List UInt32}
      {log : List (Served ef width Id)} (keeps : Keeps ef origin foreign store files chain)
      (served : store.serve call = .ok (answer, next))
      (effect : Effect ef.needed (-enospc) (Served.event ⟨store, call, answer⟩) files between)
      (rest : Refines ef origin foreign next between (Function.update chain call.file new) log
        after final last) :
      Refines ef origin foreign store files chain (⟨store, call, answer⟩ :: log) after final last

section Runs

variable {origin : ef.Disk width} {foreign : UInt32 → Prop} {store after : FileStore ef width Id}
  {files final : Store Id} {chain last : Id → List UInt32} {lost : Id → Prop}
  {calls : List (Call Id)} {log : List (Served ef width Id)}

theorem Refines.trace (refines : Refines ef origin foreign store files chain log after final last) :
    Trace ef.needed (-enospc) files (log.map Served.event) final := by
  induction refines with
  | nil => exact .nil _
  | cons _ _ effect _ inductionHypothesis => exact .cons effect inductionHypothesis

theorem Refines.keeps (refines : Refines ef origin foreign store files chain log after final last) :
    Keeps ef origin foreign after final last := by
  induction refines with
  | nil keeps => exact keeps
  | cons _ _ _ _ inductionHypothesis => exact inductionHypothesis

theorem Refines.chain_of_unnamed {file : Id}
    (refines : Refines ef origin foreign store files chain log after final last)
    (unnamed : ∀ served ∈ log, served.call.file ≠ file) : last file = chain file := by
  induction refines with
  | nil => rfl
  | cons _ _ _ _ inductionHypothesis =>
      rw [inductionHypothesis fun served membership =>
        unnamed served (List.mem_cons_of_mem _ membership)]
      exact Function.update_of_ne (unnamed _ List.mem_cons_self).symm _ _

theorem serveAll_cons {call : Call Id} {answer : Answer} {next : FileStore ef width Id}
    (served : store.serve call = .ok (answer, next))
    (run : FileStore.serveAll calls next = .ok (log, after)) :
    FileStore.serveAll (call :: calls) store = .ok (⟨store, call, answer⟩ :: log, after) := by
  rw [FileStore.serveAll, served, ok_bind]
  dsimp only
  rw [run]
  rfl

theorem serveAll_append_abort {done rest : List (Call Id)} {call : Call Id}
    {before : FileStore ef width Id} (served : FileStore.serveAll done store = .ok (log, before))
    (aborted : before.serve call = .error .abort) :
    FileStore.serveAll (done ++ call :: rest) store = .error .abort := by
  induction done generalizing store log with
  | nil =>
      cases served
      rw [List.nil_append, FileStore.serveAll, aborted]
      rfl
  | cons first done inductionHypothesis =>
      rw [FileStore.serveAll] at served
      obtain ⟨⟨answer, next⟩, servedFirst, served⟩ := bind_eq_ok_iff.mp served
      obtain ⟨⟨log, after⟩, servedRest, same⟩ := bind_eq_ok_iff.mp served
      cases same
      rw [List.cons_append, FileStore.serveAll, servedFirst, ok_bind]
      dsimp only
      rw [inductionHypothesis servedRest]
      rfl

/-- How a run ends: all calls are served, or one of them meets a transfer that fails and
aborts. -/
inductive Outcome (ef : FatVolume) (origin : ef.Disk width) (foreign : UInt32 → Prop)
    (store : FileStore ef width Id) (files : Store Id) (chain : Id → List UInt32) :
    List (Call Id) → Prop where
  | served {calls : List (Call Id)} {log : List (Served ef width Id)}
      {after : FileStore ef width Id} {final : Store Id} {last : Id → List UInt32}
      (run : FileStore.serveAll calls store = .ok (log, after))
      (order : log.map Served.call = calls)
      (refines : Refines ef origin foreign store files chain log after final last) :
      Outcome ef origin foreign store files chain calls
  | aborted {done rest : List (Call Id)} {call : Call Id} {log : List (Served ef width Id)}
      {before : FileStore ef width Id} {between : Store Id} {last : Id → List UInt32}
      (run : FileStore.serveAll done store = .ok (log, before))
      (order : log.map Served.call = done)
      (refines : Refines ef origin foreign store files chain log before between last)
      (aborts : before.serve call = .error .abort) (failed : ¬ before.Works call)
      (ends : FileStore.serveAll (done ++ call :: rest) store = .error .abort) :
      Outcome ef origin foreign store files chain (done ++ call :: rest)

/-- A run of calls on a volume is a run of a store of byte lists, whatever the device does to
each call; it ends early only where a call meets a transfer that fails. -/
theorem outcome_of_careful (laid : ef.Laid) (keeps : Keeps ef origin foreign store files chain)
    (careful : store.Careful lost calls) (known : ∀ file, files.content file = none → lost file) :
    Outcome ef origin foreign store files chain calls := by
  induction calls generalizing store files chain lost with
  | nil => exact .served rfl rfl (.nil keeps)
  | cons call calls inductionHypothesis =>
      obtain ⟨notLost, safe, careful⟩ := careful
      rcases serve_eq laid keeps (mt (known call.file) notLost) safe with
        ⟨answer, next, served, between, new, effect, kept⟩ | ⟨aborted, failed⟩
      · have outcome := inductionHypothesis kept (careful answer next served)
          (fun file none => (effect.lost none).imp_left (known file))
        cases outcome with
        | served run order refines =>
            exact .served (serveAll_cons served run) (by rw [List.map_cons, order])
              (.cons keeps served effect refines)
        | aborted run order refines aborts failed ends =>
            have runs := serveAll_cons served run
            exact .aborted runs (by rw [List.map_cons, order]) (.cons keeps served effect refines)
              aborts failed (serveAll_append_abort runs aborts)
      · have run : FileStore.serveAll [] store = .ok ([], store) := rfl
        exact .aborted run rfl (.nil keeps) aborted failed (serveAll_append_abort run aborted)

def blankStore : FileStore blankVolume 8 Bool := ⟨blankDisk, fun _ => emptyNode⟩

theorem contains_emptyNode : Contains blankVolume blankDisk emptyNode [] [] :=
  ⟨⟨holds_emptyNode, by decide, .nil _ _⟩, rfl⟩

theorem keeps_blankStore : Keeps blankVolume blankDisk (fun _ => False) blankStore
    ⟨fun _ => some [], 4⟩ (fun _ => []) := by
  refine ⟨?_, ?_, ?_, by decide, .refl _ _, ?_, ?_⟩
  · rintro file bytes held
    cases held
    exact contains_emptyNode
  · intro file none
    cases none
  · intro file other _ _ _ cluster membership
    cases membership
  · intro file _ cluster _ outside
    cases outside
  · intro _ cluster _
    have free : blankStore.disk.cmap.used cluster = false := used_blankDisk cluster
    rw [free]
    simp

theorem careful_blankStore {calls : List (Call Bool)}
    (seems : FileStore.seemsCareful [] calls blankStore = true) :
    blankStore.Careful (fun file => (⟨fun _ => some [], 4⟩ : Store Bool).content file = none)
      calls := by
  refine .of_seems (fun file none => ?_) seems
  cases none

/-- Every run of calls does to the files what it does to a store of byte lists: each call
changes its own file alone, and only a call that meets a transfer that fails loses its file or
aborts. -/
theorem serveAll_refines (laid : ef.Laid) (keeps : Keeps ef origin foreign store files chain)
    (careful : store.Careful (fun file => files.content file = none) calls) :
    (∃ log after final last, FileStore.serveAll calls store = .ok (log, after) ∧
      log.map Served.call = calls ∧
      Refines ef origin foreign store files chain log after final last) ∨
    ∃ done call rest log before between last, calls = done ++ call :: rest ∧
      FileStore.serveAll done store = .ok (log, before) ∧ log.map Served.call = done ∧
      Refines ef origin foreign store files chain log before between last ∧
      before.serve call = .error .abort ∧ ¬ before.Works call ∧
      FileStore.serveAll calls store = .error .abort := by
  have outcome := outcome_of_careful laid keeps careful fun _ none => none
  cases outcome with
  | served run order refines => exact Or.inl ⟨_, _, _, _, run, order, refines⟩
  | aborted run order refines aborts failed ends =>
      exact Or.inr ⟨_, _, _, _, _, _, _, rfl, run, order, refines, aborts, failed, ends⟩

def unreadableDevice : Transfers := ⟨fun _ _ => false, fun _ _ => true⟩

/-- Two files share the volume until a read of one of them fails; the other one is in three
clusters, the last of them apart. -/
def failingCalls : List (Call Bool) :=
  [⟨true, .write [1, 2, 3] 600, 0, workingDevice⟩, ⟨false, .write [4] 0, 0, workingDevice⟩,
    ⟨true, .write [5] 1030, 0, workingDevice⟩, ⟨false, .read [0, 0] 0, 0, unreadableDevice⟩,
    ⟨true, .read [0, 0, 0, 0] 600, 0, workingDevice⟩]

theorem serveAll_refines_failingCalls :
    ∃ (log : List (Served blankVolume 8 Bool)) (after : FileStore blankVolume 8 Bool)
        (final : Store Bool) (last : Bool → List UInt32),
      FileStore.serveAll failingCalls blankStore = .ok (log, after) ∧
      log.map (fun served => served.answer.rc) = [3, 1, 1, -5, 4] ∧
      Refines blankVolume blankDisk (fun _ => False) blankStore ⟨fun _ => some [], 4⟩ (fun _ => [])
        log after final last := by
  have answers : (FileStore.serveAll failingCalls blankStore).map
      (fun result => result.1.map fun served => served.answer.rc) = .ok [3, 1, 1, -5, 4] := by
    decide +kernel
  rcases serveAll_refines laid_blankVolume keeps_blankStore
    (careful_blankStore (by decide +kernel : FileStore.seemsCareful [] failingCalls _ = true)) with
    ⟨log, after, final, last, run, _, refines⟩ | ⟨_, _, _, _, _, _, _, _, _, _, _, _, _, ends⟩
  · rw [run] at answers
    exact ⟨log, after, final, last, run, Except.ok.inj answers, refines⟩
  · rw [ends] at answers
    cases answers

/-- A file that no call names contains what it did in its old clusters, whatever the device
does. -/
theorem serveAll_unnamed (laid : ef.Laid) (keeps : Keeps ef origin foreign store files chain)
    (careful : store.Careful (fun file => files.content file = none) calls) {file : Id}
    {bytes : List UInt8} (held : files.content file = some bytes)
    (unnamed : ∀ call ∈ calls, call.file ≠ file)
    (run : FileStore.serveAll calls store = .ok (log, after)) :
    Contains ef after.disk (after.node file) (chain file) bytes := by
  have outcome := outcome_of_careful laid keeps careful fun _ none => none
  cases outcome with
  | served run' order refines =>
      rw [run] at run'
      cases run'
      have others : ∀ served ∈ log, served.call.file ≠ file := by
        intro served membership
        apply unnamed served.call
        rw [← order]
        exact List.mem_map_of_mem membership
      rw [← refines.chain_of_unnamed others]
      apply refines.keeps.contains file bytes
      rw [refines.trace.content_of_unnamed, held]
      intro event membership
      obtain ⟨served, inLog, rfl⟩ := List.mem_map.mp membership
      exact others served inLog
  | aborted _ _ _ _ _ ends =>
      rw [run] at ends
      cases ends

theorem FileStore.works_of_reliable {call : Call Id} (reliable : call.io.Reliable) :
    store.Works call := by
  obtain ⟨file, request, now, io⟩ := call
  have same : io = workingDevice := by
    obtain ⟨reads, writes⟩ := io
    have allReads : reads = fun _ _ => true := funext₂ reliable.reads
    have allWrites : writes = fun _ _ => true := funext₂ reliable.writes
    rw [allReads, allWrites]
    rfl
  rw [same]
  rfl

/-- On a device that does not fail no cluster is lost and none is held twice: every file holds
the clusters that its size needs, up to the end of its chain, the bitmap marks those of the
files and those it marked for others, and what the files hold together with what is free is
always the same. -/
theorem serveAll_balance (laid : ef.Laid) (keeps : Keeps ef origin foreign store files chain)
    (careful : store.Careful (fun file => files.content file = none) calls)
    (all : ∀ file, files.content file ≠ none) (reliable : ∀ call ∈ calls, call.io.Reliable)
    (named : Finset Id) (inside : ∀ call ∈ calls, call.file ∈ named) :
    ∃ (log : List (Served ef width Id)) (after : FileStore ef width Id) (last : Id → List UInt32),
      FileStore.serveAll calls store = .ok (log, after) ∧
      (∀ file, Stores ef after.disk (after.node file) (last file)) ∧
      (∀ file other, file ≠ other → (last file).Disjoint (last other)) ∧
      (∀ cluster, ef.invalid cluster = false → (after.disk.cmap.used cluster = true ↔
        foreign cluster ∨ ∃ file, cluster ∈ last file)) ∧
      exfatCountFreeClusters after.disk.cmap.chunk + ∑ file ∈ named, (last file).length =
        exfatCountFreeClusters store.disk.cmap.chunk + ∑ file ∈ named, (chain file).length := by
  have outcome := outcome_of_careful laid keeps careful fun _ none => none
  cases outcome with
  | @served _ log after final last run order refines =>
      have kept := refines.keeps
      have entries : ∀ event ∈ log.map Served.event, event.reliable ∧ event.file ∈ named := by
        intro event membership
        obtain ⟨served, inLog, rfl⟩ := List.mem_map.mp membership
        have called : served.call ∈ calls := by
          rw [← order]
          exact List.mem_map_of_mem inLog
        exact ⟨FileStore.works_of_reliable (reliable _ called), inside _ called⟩
      obtain ⟨still, balance⟩ := refines.trace.balance
        (fun event membership => (entries event membership).1)
        fun event membership => (entries event membership).2
      have allNow : ∀ file, final.content file ≠ none := fun file none =>
        all file (still file none)
      refine ⟨log, after, last, run, fun file => ?_, fun file other different =>
        kept.apart file other different (allNow file) (allNow other), kept.exact allNow, ?_⟩
      · obtain ⟨bytes, held⟩ := Option.ne_none_iff_exists'.mp (allNow file)
        exact (kept.contains file bytes held).stores
      · rw [keeps.free, kept.free, Finset.sum_congr rfl fun file _ => keeps.taken (all file),
          Finset.sum_congr rfl fun file _ => kept.taken (allNow file)] at balance
        exact balance
  | aborted _ _ _ _ failed _ =>
      exact absurd (FileStore.works_of_reliable (reliable _ (by simp))) failed

/-- Two files fill the volume; one of them is cut, and the other one takes what it gave back
and then finds no room. -/
def crowdedCalls : List (Call Bool) :=
  [⟨true, .write [1, 2, 3] 600, 0, workingDevice⟩, ⟨false, .write [4] 600, 0, workingDevice⟩,
    ⟨true, .truncate 100 true, 0, workingDevice⟩, ⟨false, .write [5] 1030, 0, workingDevice⟩,
    ⟨false, .write [6] 1540, 0, workingDevice⟩]

theorem serveAll_balance_crowdedCalls :
    ∃ (log : List (Served blankVolume 8 Bool)) (after : FileStore blankVolume 8 Bool)
        (last : Bool → List UInt32),
      FileStore.serveAll crowdedCalls blankStore = .ok (log, after) ∧
      log.map (fun served => served.answer.rc) = [3, 1, 0, 1, -28] ∧
      (∀ file, Stores blankVolume after.disk (after.node file) (last file)) ∧
      (∀ file other, file ≠ other → (last file).Disjoint (last other)) ∧
      (∀ cluster, blankVolume.invalid cluster = false →
        (after.disk.cmap.used cluster = true ↔ False ∨ ∃ file, cluster ∈ last file)) ∧
      exfatCountFreeClusters after.disk.cmap.chunk + ∑ file ∈ Finset.univ, (last file).length =
        exfatCountFreeClusters blankDisk.cmap.chunk + ∑ _file ∈ (Finset.univ : Finset Bool), 0 := by
  have answers : (FileStore.serveAll crowdedCalls blankStore).map
      (fun result => result.1.map fun served => served.answer.rc) = .ok [3, 1, 0, 1, -28] := by
    decide +kernel
  obtain ⟨log, after, last, run, facts⟩ := serveAll_balance laid_blankVolume keeps_blankStore
    (careful_blankStore (by decide +kernel : FileStore.seemsCareful [] crowdedCalls _ = true))
    (fun _ => Option.some_ne_none _) (by simp [crowdedCalls, reliable_workingDevice])
    Finset.univ (fun _ _ => Finset.mem_univ _)
  rw [run] at answers
  exact ⟨log, after, last, run, Except.ok.inj answers, facts⟩

end Runs

end Vtoydump.Exfat
