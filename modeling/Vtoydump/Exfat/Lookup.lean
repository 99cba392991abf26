import Vtoydump.Basis.Path
import Vtoydump.Exfat.Directory

/-!
# Looking up a path

`exfat_lookup` walks a tree of nodes in memory.  A directory is read when a walk
first goes through it; its nodes stay, with counts of references.  The walk gives
what a walk over the volume itself gives, after any other walks.
-/

namespace Vtoydump.Exfat

open CRun

/-- `struct exfat_node` in memory; children are positions in the list of all nodes. -/
structure TreeNode where
  entry : NodeEntry
  references : Int
  isCached : Bool
  children : List Nat

/-- The nodes in memory, the root first. -/
structure ExfatTree where
  nodes : List TreeNode
  tables : VolumeTables

namespace ExfatTree

def count (tree : ExfatTree) (id : Nat) (change : Int) : ExfatTree :=
  { tree with
    nodes := tree.nodes.modify id fun node =>
      { node with references := node.references + change } }

/-- The references to a node; there are none to a node that does not exist. -/
def references (tree : ExfatTree) (id : Nat) : Int :=
  (tree.nodes[id]?.map TreeNode.references).getD 0

end ExfatTree

def exfatGetNode (tree : ExfatTree) (id : Nat) : Run ExfatTree :=
  match tree.nodes[id]? with
  | none => .error .outOfBounds
  | some _ => .ok (tree.count id 1)

/-- `exfat_put_node` on a volume mounted read-only, where no node is dirty. -/
def exfatPutNode (tree : ExfatTree) (id : Nat) : Run ExfatTree :=
  match tree.nodes[id]? with
  | none => .error .outOfBounds
  | some node => if node.references - 1 < 0 then .error .abort else .ok (tree.count id (-1))

/-- A node that a directory was read for. -/
def allocateNode (entry : NodeEntry) : TreeNode := ⟨entry, 0, false, []⟩

/-- `exfat_cache_directory`, in the tree. -/
def cacheDirectory (ef : ExfatReader) (tree : ExfatTree) (id : Nat) :
    Run (Int × ExfatTree) :=
  match tree.nodes[id]? with
  | none => .error .outOfBounds
  | some node =>
      if node.isCached then .ok (0, tree)
      else do
        let (result, moved, tables) ← exfatCacheDirectory ef node.entry tree.tables
        match result with
        | .error rc => return (rc, ⟨tree.nodes.set id { node with entry := moved }, tables⟩)
        | .ok files =>
            let parent := { node with
              entry := moved
              isCached := true
              children := List.range' tree.nodes.length files.length }
            return (0, ⟨tree.nodes.set id parent ++ files.map allocateNode, tables⟩)

def compareChar (upcase : Option (UInt16 → UInt16)) (a b : UInt16) : Run Int :=
  match upcase with
  | none => .error .nullDeref
  | some table => .ok ((table a).toNat - (table b).toNat)

def compareName (upcase : Option (UInt16 → UInt16)) : List UInt16 → List UInt16 → Run Int
  | a :: first, b :: second =>
      if a ≠ 0 ∧ b ≠ 0 then do
        let rc ← compareChar upcase a b
        if rc ≠ 0 then return rc
        compareName upcase first second
      else compareChar upcase a b
  | _, _ => .error .outOfBounds

/-- The loop of `lookup_name` over the children that are left. -/
def lookupLoop (tree : ExfatTree) (buffer : List UInt16) :
    List Nat → Run (Option Nat × ExfatTree)
  | [] => .ok (none, tree)
  | id :: rest => do
      let held ← exfatGetNode tree id
      match held.nodes[id]? with
      | none => .error .outOfBounds
      | some node => do
          let rc ← compareName held.tables.upcase buffer node.entry.name
          if rc = 0 then return (some id, held)
          let released ← exfatPutNode held id
          lookupLoop released buffer rest

def lookupName (ef : ExfatReader) (tree : ExfatTree) (parent : Nat) (name : List UInt8) :
    Run (Except Int Nat × ExfatTree) :=
  match utf8ToUtf16 name (exfatNameMax + 1) with
  | .error rc => .ok (.error rc, tree)
  | .ok buffer => do
      let held ← exfatGetNode tree parent
      let (rc, cached) ← cacheDirectory ef held parent
      if rc ≠ 0 then do
        let released ← exfatPutNode cached parent
        return (.error rc, released)
      match cached.nodes[parent]? with
      | none => .error .outOfBounds
      | some dir => do
          let (found, looked) ← lookupLoop cached buffer dir.children
          let closed ← exfatPutNode looked parent
          match found with
          | some id => return (.ok id, closed)
          | none => return (.error (-enoent), closed)

def isSlash (byte : UInt8) : Bool := byte == 47

def dotName : List UInt8 := [46]

/-- The loop of `exfat_lookup`, at a node and on the rest of the path. -/
def lookupFrom (ef : ExfatReader) (tree : ExfatTree) (parent : Nat) (path : List UInt8) :
    Run (Except Int Nat × ExfatTree) :=
  if _some : (Path.scan isSlash path).1 = [] then .ok (.ok parent, tree)
  else if (Path.scan isSlash path).1 = dotName then
    lookupFrom ef tree parent (Path.scan isSlash path).2
  else do
    let (found, looked) ← lookupName ef tree parent (Path.scan isSlash path).1
    let released ← exfatPutNode looked parent
    match found with
    | .error rc => return (.error rc, released)
    | .ok id => lookupFrom ef released id (Path.scan isSlash path).2
termination_by path.length
decreasing_by all_goals exact Path.scan_shorter _some

/-- The node that is found, or an error; the path has no terminator. -/
def exfatLookup (ef : ExfatReader) (tree : ExfatTree) (path : List UInt8) :
    Run (Except Int Nat × ExfatTree) := do
  let held ← exfatGetNode tree 0
  lookupFrom ef held 0 path

/-- A name up to case, with its terminator. -/
def folded (upcase : UInt16 → UInt16) (name : List UInt16) : List UInt16 :=
  (name.takeWhile (· ≠ 0) ++ [0]).map upcase

/-- Two names are the same up to case; if the table gives a unit the upper case of the
terminator, a name that continues the other also counts as the same. -/
def SameName (upcase : UInt16 → UInt16) (first second : List UInt16) : Prop :=
  folded upcase first <+: folded upcase second ∨ folded upcase second <+: folded upcase first

instance (upcase : UInt16 → UInt16) (first second : List UInt16) :
    Decidable (SameName upcase first second) := inferInstanceAs (Decidable (_ ∨ _))

/-- The tables of a mounted volume, as far as looking up goes. -/
def mountedTables (upcase : UInt16 → UInt16) : VolumeTables := ⟨some upcase, ⟨0, 0, none⟩, []⟩

/-- The files of a directory of the volume; a file is no directory to the code. -/
def volumeFiles (ef : ExfatReader) (content : Nat → UInt8) (upcase : UInt16 → UInt16)
    (dir : NodeEntry) : Run (Except Int (List NodeEntry)) :=
  if dir.isDirectory then
    (directoryFiles ef content dir (mountedTables upcase)).map Prod.fst
  else .error .abort

def findFile (ef : ExfatReader) (content : Nat → UInt8) (upcase : UInt16 → UInt16)
    (dir : NodeEntry) (name : List UInt8) : Run (Except Int NodeEntry) :=
  match utf8ToUtf16 name (exfatNameMax + 1) with
  | .error rc => .ok (.error rc)
  | .ok buffer => do
      match ← volumeFiles ef content upcase dir with
      | .error rc => return .error rc
      | .ok files =>
          match files.find? fun file => SameName upcase buffer file.name with
          | none => return .error (-enoent)
          | some file => return .ok file

def walkVolume (ef : ExfatReader) (content : Nat → UInt8) (upcase : UInt16 → UInt16) :
    NodeEntry → List (List UInt8) → Run (Except Int NodeEntry)
  | dir, [] => .ok (.ok dir)
  | dir, name :: names => do
      match ← findFile ef content upcase dir name with
      | .error rc => return .error rc
      | .ok file => walkVolume ef content upcase file names

/-- The names that a path goes through: `.` stays where it is. -/
def pathNames (path : List UInt8) : List (List UInt8) :=
  (Path.components isSlash path).filter (· ≠ dotName)

section Names

variable {upcase : UInt16 → UInt16} {a b : UInt16} {first second : List UInt16}

theorem folded_cons (some : a ≠ 0) (name : List UInt16) :
    folded upcase (a :: name) = upcase a :: folded upcase name := by
  rw [folded, List.takeWhile_cons_of_pos (by simpa using some), folded]
  rfl

theorem folded_zero (name : List UInt16) : folded upcase (0 :: name) = [upcase 0] := by
  rw [folded, List.takeWhile_cons_of_neg (by simp)]
  rfl

theorem exists_folded_cons (a : UInt16) (name : List UInt16) :
    ∃ more, folded upcase (a :: name) = upcase a :: more := by
  by_cases zero : a = 0
  · subst zero
    exact ⟨[], folded_zero name⟩
  · exact ⟨_, folded_cons zero name⟩

theorem sameName_cons (some : a ≠ 0) (someToo : b ≠ 0) :
    SameName upcase (a :: first) (b :: second) ↔
      upcase a = upcase b ∧ SameName upcase first second := by
  rw [SameName, folded_cons some, folded_cons someToo, List.cons_prefix_cons,
    List.cons_prefix_cons, @eq_comm _ (upcase b), ← and_or_left, SameName]

theorem sameName_end (ends : a = 0 ∨ b = 0) :
    SameName upcase (a :: first) (b :: second) ↔ upcase a = upcase b := by
  obtain ⟨more, left⟩ := @exists_folded_cons upcase a first
  obtain ⟨others, right⟩ := @exists_folded_cons upcase b second
  constructor
  · rintro (continues | continues)
    · rw [left, right, List.cons_prefix_cons] at continues
      exact continues.1
    · rw [left, right, List.cons_prefix_cons] at continues
      exact continues.1.symm
  · intro same
    rcases ends with rfl | rfl
    · refine Or.inl ?_
      rw [folded_zero, right, List.cons_prefix_cons]
      exact ⟨same, List.nil_prefix⟩
    · refine Or.inr ?_
      rw [folded_zero, left, List.cons_prefix_cons]
      exact ⟨same.symm, List.nil_prefix⟩

theorem compareChar_eq_zero_iff :
    ((upcase a).toNat : Int) - (upcase b).toNat = 0 ↔ upcase a = upcase b := by
  rw [← UInt16.toNat_inj]
  omega

theorem compareName_eq (ends : 0 ∈ first) (endsToo : 0 ∈ second) :
    ∃ rc, compareName (some upcase) first second = .ok rc ∧
      (rc = 0 ↔ SameName upcase first second) := by
  induction first generalizing second with
  | nil => cases ends
  | cons a first inductionHypothesis =>
      cases second with
      | nil => cases endsToo
      | cons b second =>
          rw [compareName]
          by_cases inside : a ≠ 0 ∧ b ≠ 0
          · rw [if_pos inside, compareChar, ok_bind]
            by_cases same : upcase a = upcase b
            · obtain ⟨rc, compared, zero⟩ := inductionHypothesis
                ((List.mem_cons.mp ends).resolve_left inside.1.symm)
                ((List.mem_cons.mp endsToo).resolve_left inside.2.symm)
              refine ⟨rc, ?_, ?_⟩
              · rw [if_neg (not_not.mpr (compareChar_eq_zero_iff.mpr same)), compared]
              · rw [zero, sameName_cons inside.1 inside.2, and_iff_right same]
            · refine ⟨_, if_pos (mt compareChar_eq_zero_iff.mp same), ?_⟩
              rw [compareChar_eq_zero_iff, sameName_cons inside.1 inside.2]
              exact ⟨fun same' => absurd same' same, fun both => both.1⟩
          · rw [if_neg inside]
            refine ⟨_, rfl, ?_⟩
            rw [compareChar_eq_zero_iff, sameName_end]
            by_contra neither
            exact inside ⟨fun zero => neither (Or.inl zero), fun zero => neither (Or.inr zero)⟩

theorem terminated_of_utf8ToUtf16 {bytes : List UInt8} {outsize : Nat} {buffer : List UInt16}
    (converted : utf8ToUtf16 bytes outsize = .ok buffer) : 0 ∈ buffer := by
  induction size : bytes.length using Nat.strongRecOn generalizing bytes outsize buffer with
  | _ length inductionHypothesis =>
      rw [utf8ToUtf16] at converted
      split_ifs at converted
      · cases converted
        exact List.mem_singleton_self 0
      · split at converted
        · cases converted
        next wc rest read =>
          split at converted
          · cases converted
          next units written =>
            split_ifs at converted
            · cases converted
              exact List.mem_append_right _ (List.mem_singleton_self 0)
            · cases inner : utf8ToUtf16 rest (outsize - units.length) with
              | error code =>
                  rw [inner] at converted
                  cases converted
              | ok more =>
                  rw [inner] at converted
                  cases converted
                  have shorter := utf8ToWchar_shorter read
                  exact List.mem_append_right _
                    (inductionHypothesis _ (by omega) inner rfl)

end Names

namespace ExfatTree

variable (tree : ExfatTree) {id other : Nat}

theorem getElem?_count (change : Int) :
    (tree.count id change).nodes[other]? =
      tree.nodes[other]?.map fun node =>
        if id = other then { node with references := node.references + change } else node := by
  rw [count, List.getElem?_modify]
  split_ifs
  · rfl
  · cases tree.nodes[other]? <;> rfl

theorem length_count (change : Int) : (tree.count id change).nodes.length = tree.nodes.length :=
  List.length_modify _ _ _

theorem references_count (inside : id < tree.nodes.length) (change : Int) :
    (tree.count id change).references other =
      tree.references other + if other = id then change else 0 := by
  rw [references, references, getElem?_count]
  by_cases same : other = id
  · subst same
    rw [List.getElem?_eq_getElem inside, if_pos rfl]
    simp
  · rw [if_neg same, Int.add_zero]
    simp only [if_neg (Ne.symm same), Option.map_id']

theorem count_count (first second : Int) :
    (tree.count id first).count id second = tree.count id (first + second) := by
  unfold count
  simp only [List.modify_modify_eq]
  congr 2
  funext node
  simp only [Function.comp_apply, Int.add_assoc]

theorem count_zero : tree.count id 0 = tree := by
  unfold count
  simp only [Int.add_zero]
  congr 1
  apply List.ext_getElem?
  intro index
  rw [List.getElem?_modify]
  split_ifs <;> cases tree.nodes[index]? <;> rfl

end ExfatTree

/-- The children of a cached node are the files of its directory, in their order. -/
def HasFiles (ef : ExfatReader) (content : Nat → UInt8) (upcase : UInt16 → UInt16)
    (origin : List NodeEntry) (entry : NodeEntry) (children : List Nat) : Prop :=
  ∃ files, volumeFiles ef content upcase entry = .ok (.ok files) ∧
    children.map (origin[·]?) = files.map some

/-- The tree stands for nodes of the volume, listed as they were first read. -/
structure Represents (ef : ExfatReader) (content : Nat → UInt8) (upcase : UInt16 → UInt16)
    (tree : ExfatTree) (origin : List NodeEntry) : Prop where
  mounted : tree.tables.upcase = some upcase
  length : tree.nodes.length = origin.length
  known : ∀ entry ∈ origin, ReadNode ef entry
  reread : ∀ {id : Nat} {node : TreeNode} {entry : NodeEntry},
    tree.nodes[id]? = some node → origin[id]? = some entry → Reread ef entry node.entry
  cached : ∀ {id : Nat} {node : TreeNode} {entry : NodeEntry},
    tree.nodes[id]? = some node → origin[id]? = some entry → node.isCached = true →
      HasFiles ef content upcase origin entry node.children
  counted : ∀ id, 0 ≤ tree.references id

section Represents

variable {ef : ExfatReader} {content : Nat → UInt8} {upcase : UInt16 → UInt16}
  {tree : ExfatTree} {origin : List NodeEntry} {id : Nat} {entry : NodeEntry}

theorem Represents.lt_length (represents : Represents ef content upcase tree origin)
    (found : origin[id]? = some entry) : id < tree.nodes.length := by
  rw [represents.length]
  exact (List.getElem?_eq_some_iff.mp found).1

theorem Represents.count (represents : Represents ef content upcase tree origin)
    (inside : id < tree.nodes.length) (change : Int)
    (enough : 0 ≤ tree.references id + change) :
    Represents ef content upcase (tree.count id change) origin where
  mounted := represents.mounted
  length := (tree.length_count change).trans represents.length
  known := represents.known
  reread := by
    intro other node entry stands found
    rw [tree.getElem?_count, Option.map_eq_some_iff] at stands
    obtain ⟨before, stood, rfl⟩ := stands
    have kept := represents.reread stood found
    split_ifs <;> exact kept
  cached := by
    intro other node entry stands found isCached
    rw [tree.getElem?_count, Option.map_eq_some_iff] at stands
    obtain ⟨before, stood, rfl⟩ := stands
    have kept := represents.cached stood found
    split_ifs at isCached ⊢ <;> exact kept isCached
  counted := by
    intro other
    rw [tree.references_count inside]
    split_ifs with same
    · rw [same]
      exact enough
    · rw [Int.add_zero]
      exact represents.counted other

theorem exfatGetNode_eq (inside : id < tree.nodes.length) :
    exfatGetNode tree id = .ok (tree.count id 1) := by
  rw [exfatGetNode, List.getElem?_eq_getElem inside]

theorem exfatPutNode_eq (inside : id < tree.nodes.length) (held : 1 ≤ tree.references id) :
    exfatPutNode tree id = .ok (tree.count id (-1)) := by
  have known : tree.references id = tree.nodes[id].references := by
    rw [ExfatTree.references, List.getElem?_eq_getElem inside]
    rfl
  rw [exfatPutNode, List.getElem?_eq_getElem inside]
  dsimp only
  rw [if_neg (by omega)]

theorem lookupLoop_eq (represents : Represents ef content upcase tree origin)
    {buffer : List UInt16} (ends : 0 ∈ buffer) {children : List Nat} {files : List NodeEntry}
    (stand : children.map (origin[·]?) = files.map some) :
    (files.find? (fun file => SameName upcase buffer file.name) = none ∧
        lookupLoop tree buffer children = .ok (none, tree)) ∨
      ∃ id file, files.find? (fun file => SameName upcase buffer file.name) = some file ∧
        origin[id]? = some file ∧
        lookupLoop tree buffer children = .ok (some id, tree.count id 1) := by
  induction children generalizing files with
  | nil =>
      obtain rfl := List.map_eq_nil_iff.mp stand.symm
      exact Or.inl ⟨rfl, rfl⟩
  | cons id children inductionHypothesis =>
      cases files with
      | nil => cases stand
      | cons file files =>
          rw [List.map_cons, List.map_cons, List.cons.injEq] at stand
          obtain ⟨found, others⟩ := stand
          have inside := represents.lt_length found
          have file_mem := List.mem_of_getElem? found
          obtain ⟨node, stands⟩ : ∃ node, tree.nodes[id]? = some node :=
            ⟨_, List.getElem?_eq_getElem inside⟩
          have reread := represents.reread stands found
          have name : node.entry.name = file.name := by
            rw [reread.same]
          obtain ⟨rc, compared, zero⟩ := @compareName_eq upcase buffer file.name ends
            (represents.known file file_mem).terminated
          have held := represents.count inside 1 (by
            have some := represents.counted id
            omega)
          have start : lookupLoop tree buffer (id :: children) = (do
              if rc = 0 then return (some id, tree.count id 1)
              let released ← exfatPutNode (tree.count id 1) id
              lookupLoop released buffer children) := by
            rw [lookupLoop, exfatGetNode_eq inside, ok_bind, tree.getElem?_count, stands]
            simp only [Option.map_some, if_true]
            rw [name, held.mounted, compared, ok_bind]
          rw [start]
          by_cases same : SameName upcase buffer file.name
          · rw [if_pos (zero.mpr same), List.find?_cons_of_pos (by simpa using same)]
            exact Or.inr ⟨id, file, rfl, found, rfl⟩
          · rw [if_neg (mt zero.mp same), List.find?_cons_of_neg (by simpa using same)]
            have back : exfatPutNode (tree.count id 1) id = .ok tree := by
              rw [exfatPutNode_eq (by rw [tree.length_count]; exact inside), tree.count_count]
              · exact congrArg _ tree.count_zero
              · rw [tree.references_count inside, if_pos rfl]
                have some := represents.counted id
                omega
            rw [back, ok_bind]
            exact inductionHypothesis others

theorem Represents.set (represents : Represents ef content upcase tree origin)
    (changed : TreeNode) {node : TreeNode} {tables : VolumeTables}
    (stands : tree.nodes[id]? = some node)
    (found : origin[id]? = some entry) (mounted : tables.upcase = some upcase)
    (reread : Reread ef entry changed.entry) (same : changed.references = node.references)
    (cached : changed.isCached = true →
      HasFiles ef content upcase origin entry changed.children) :
    Represents ef content upcase ⟨tree.nodes.set id changed, tables⟩ origin ∧
      ∀ other, ExfatTree.references ⟨tree.nodes.set id changed, tables⟩ other =
        tree.references other := by
  have inside := represents.lt_length found
  have counts : ∀ other, ExfatTree.references ⟨tree.nodes.set id changed, tables⟩ other =
      tree.references other := by
    intro other
    rw [ExfatTree.references, ExfatTree.references, List.getElem?_set]
    split_ifs with here
    · subst here
      rw [stands, Option.map_some, Option.map_some, same]
    · rfl
  have cases : ∀ {other : Nat} {node : TreeNode}, (tree.nodes.set id changed)[other]? = some node →
      (other = id ∧ node = changed) ∨ tree.nodes[other]? = some node := by
    intro other node at_
    rw [List.getElem?_set] at at_
    split_ifs at at_ with here
    · exact Or.inl ⟨here.symm, (Option.some.inj at_).symm⟩
    · exact Or.inr at_
  refine ⟨⟨mounted, (List.length_set).trans represents.length, represents.known, ?_, ?_, ?_⟩,
    counts⟩
  · intro other node' entry' at_ from_
    rcases cases at_ with ⟨rfl, rfl⟩ | before
    · rw [found] at from_
      cases from_
      exact reread
    · exact represents.reread before from_
  · intro other node' entry' at_ from_ isCached
    rcases cases at_ with ⟨rfl, rfl⟩ | before
    · rw [found] at from_
      cases from_
      exact cached isCached
    · exact represents.cached before from_ isCached
  · intro other
    rw [counts]
    exact represents.counted other

theorem map_getElem?_within {more : List NodeEntry} {children : List Nat}
    {files : List NodeEntry} (within : origin <+: more)
    (stand : children.map (origin[·]?) = files.map some) :
    children.map (more[·]?) = files.map some := by
  rw [← stand]
  apply List.map_congr_left
  intro child membership
  have image : origin[child]? ∈ files.map some := by
    rw [← stand]
    exact List.mem_map_of_mem membership
  obtain ⟨file, _, found⟩ := List.mem_map.mp image
  obtain ⟨others, rfl⟩ := within
  have inside := (List.getElem?_eq_some_iff.mp found.symm).1
  rw [List.getElem?_append_left inside]

theorem HasFiles.mono {more : List NodeEntry} {children : List Nat} (within : origin <+: more)
    (has : HasFiles ef content upcase origin entry children) :
    HasFiles ef content upcase more entry children := by
  obtain ⟨files, listed, stand⟩ := has
  exact ⟨files, listed, map_getElem?_within within stand⟩

theorem Represents.append (represents : Represents ef content upcase tree origin)
    {files : List NodeEntry} (known : ∀ file ∈ files, ReadNode ef file) :
    Represents ef content upcase ⟨tree.nodes ++ files.map allocateNode, tree.tables⟩
        (origin ++ files) ∧
      ∀ other, ExfatTree.references ⟨tree.nodes ++ files.map allocateNode, tree.tables⟩ other =
        tree.references other := by
  have cases : ∀ {other : Nat} {node : TreeNode} {from_ : NodeEntry},
      (tree.nodes ++ files.map allocateNode)[other]? = some node →
      (origin ++ files)[other]? = some from_ →
      (tree.nodes[other]? = some node ∧ origin[other]? = some from_) ∨
        node = allocateNode from_ := by
    intro other node from_ at_ listed
    by_cases old : other < tree.nodes.length
    · rw [List.getElem?_append_left old] at at_
      rw [List.getElem?_append_left (by rw [← represents.length]; exact old)] at listed
      exact Or.inl ⟨at_, listed⟩
    · rw [List.getElem?_append_right (Nat.le_of_not_lt old), List.getElem?_map,
        represents.length] at at_
      rw [List.getElem?_append_right (by rw [← represents.length]; omega)] at listed
      rw [listed] at at_
      exact Or.inr (Option.some.inj at_).symm
  have counts : ∀ other,
      ExfatTree.references ⟨tree.nodes ++ files.map allocateNode, tree.tables⟩ other =
        tree.references other := by
    intro other
    rw [ExfatTree.references, ExfatTree.references]
    dsimp only
    by_cases old : other < tree.nodes.length
    · rw [List.getElem?_append_left old]
    · rw [List.getElem?_append_right (Nat.le_of_not_lt old), List.getElem?_map,
        List.getElem?_eq_none (Nat.le_of_not_lt old)]
      cases files[other - tree.nodes.length]? <;> rfl
  refine ⟨⟨represents.mounted, ?_, ?_, ?_, ?_, ?_⟩, counts⟩
  · rw [List.length_append, List.length_append, List.length_map, represents.length]
  · intro file membership
    rcases List.mem_append.mp membership with old | new
    · exact represents.known file old
    · exact known file new
  · intro other node from_ at_ listed
    rcases cases at_ listed with ⟨before, beforeToo⟩ | rfl
    · exact represents.reread before beforeToo
    · exact Reread.refl ef from_
  · intro other node from_ at_ listed isCached
    rcases cases at_ listed with ⟨before, beforeToo⟩ | rfl
    · exact (represents.cached before beforeToo isCached).mono (List.prefix_append _ _)
    · cases isCached
  · intro other
    rw [counts]
    exact represents.counted other

theorem map_range'_append (origin files : List NodeEntry) :
    (List.range' origin.length files.length).map ((origin ++ files)[·]?) = files.map some := by
  apply List.ext_getElem?
  intro index
  rw [List.getElem?_map, List.getElem?_map]
  by_cases inside : index < files.length
  · rw [List.getElem?_range' inside, Option.map_some, Nat.one_mul,
      List.getElem?_append_right (Nat.le_add_right _ _), Nat.add_sub_cancel_left,
      List.getElem?_eq_getElem inside]
    rfl
  · rw [List.getElem?_eq_none (by rw [List.length_range']; omega),
      List.getElem?_eq_none (by omega)]
    rfl

theorem exfatCacheDirectory_abort {before : NodeEntry} (file : before.isDirectory = false)
    (tables : VolumeTables) : exfatCacheDirectory ef before tables = .error .abort := by
  rw [exfatCacheDirectory, cacheLoop, readdir, readEntries, if_neg (by rw [file]; decide)]
  rfl

theorem exfatCacheDirectory_mounted (readable : ClustersReadable ef.toExfatFs content)
    (known : ReadNode ef entry) {before : NodeEntry} (reread : Reread ef entry before)
    {tables : VolumeTables} (mounted : tables.upcase = some upcase) :
    (∃ fault, volumeFiles ef content upcase entry = .error fault ∧
        exfatCacheDirectory ef before tables = .error fault) ∨
      ∃ files after found, volumeFiles ef content upcase entry = .ok files ∧
        exfatCacheDirectory ef before tables = .ok (files, after, found) ∧
        Reread ef entry after ∧ Listed ef tables found files := by
  have some : tables.upcase.isSome = true := by rw [mounted]; rfl
  rw [volumeFiles]
  cases isDirectory : entry.isDirectory with
  | false =>
      rw [← reread.isDirectory] at isDirectory
      exact Or.inl ⟨.abort, if_neg (by decide), exfatCacheDirectory_abort isDirectory tables⟩
  | true =>
      have same : (directoryFiles ef content entry (mountedTables upcase)).map Prod.fst =
          (directoryFiles ef content entry tables).map Prod.fst :=
        listFiles_tables _ _ rfl some
      rw [if_pos rfl, same]
      rcases exfatCacheDirectory_eq (known.directory isDirectory) readable reread tables with
        ⟨fault, files, cached⟩ | ⟨files, after, found, kept, listed, cached⟩
      · exact Or.inl ⟨fault, by rw [files]; rfl, cached⟩
      · exact Or.inr ⟨files, after, found, by rw [listed]; rfl, cached, kept,
          listed_of_listFiles listed⟩

/-- What `exfat_cache_directory` does to a tree: it fails as the directory does, or the
node has the files of the directory as its children. -/
theorem cacheDirectory_eq (represents : Represents ef content upcase tree origin)
    (readable : ClustersReadable ef.toExfatFs content) (found : origin[id]? = some entry) :
    (∃ fault, volumeFiles ef content upcase entry = .error fault ∧
        cacheDirectory ef tree id = .error fault) ∨
      (∃ rc after, rc ≠ 0 ∧ volumeFiles ef content upcase entry = .ok (.error rc) ∧
        cacheDirectory ef tree id = .ok (rc, after) ∧
        Represents ef content upcase after origin ∧
        ∀ other, after.references other = tree.references other) ∨
      ∃ files after more node, volumeFiles ef content upcase entry = .ok (.ok files) ∧
        cacheDirectory ef tree id = .ok (0, after) ∧ origin <+: more ∧
        Represents ef content upcase after more ∧
        (∀ other, after.references other = tree.references other) ∧
        after.nodes[id]? = some node ∧ node.children.map (more[·]?) = files.map some := by
  have inside := represents.lt_length found
  obtain ⟨node, stands⟩ : ∃ node, tree.nodes[id]? = some node :=
    ⟨_, List.getElem?_eq_getElem inside⟩
  have reread := represents.reread stands found
  rw [cacheDirectory, stands]
  dsimp only
  by_cases cached : node.isCached = true
  · obtain ⟨files, listed, stand⟩ := represents.cached stands found cached
    exact Or.inr (Or.inr ⟨files, tree, origin, node, listed, if_pos cached, List.prefix_rfl,
      represents, fun _ => rfl, stands, stand⟩)
  · rw [if_neg cached]
    have known := represents.known entry (List.mem_of_getElem? found)
    rcases exfatCacheDirectory_mounted readable known reread represents.mounted with
      ⟨fault, files, failed⟩ | ⟨files, after, tables, listed, done, kept, sound⟩
    · rw [failed]
      exact Or.inl ⟨fault, files, rfl⟩
    have still : tables.upcase = some upcase := by
      rw [sound.upcase (by rw [represents.mounted]; rfl), represents.mounted]
    rw [done, ok_bind]
    cases files with
    | error rc =>
        have code := sound.code rc rfl
        obtain ⟨kept, counts⟩ := represents.set { node with entry := after }
          stands found still kept rfl (fun isCached => absurd isCached cached)
        exact Or.inr (Or.inl ⟨rc, _, by rw [code]; decide, listed, rfl, kept, counts⟩)
    | ok files =>
        obtain ⟨more, countsMore⟩ := represents.append (sound.nodes files rfl)
        have standsMore : (tree.nodes ++ files.map allocateNode)[id]? = some node := by
          rw [List.getElem?_append_left inside, stands]
        have foundMore : (origin ++ files)[id]? = some entry := by
          rw [List.getElem?_append_left (by rw [← represents.length]; exact inside), found]
        have children := map_range'_append origin files
        rw [← represents.length] at children
        let parent : TreeNode := { node with
          entry := after
          isCached := true
          children := List.range' tree.nodes.length files.length }
        obtain ⟨kept, counts⟩ := more.set parent
          standsMore foundMore still kept rfl fun _ => ⟨files, listed, children⟩
        rw [List.set_append_left _ _ inside] at kept counts
        refine Or.inr (Or.inr ⟨files, _, origin ++ files, parent, listed, rfl,
          List.prefix_append _ _, kept, fun other => (counts other).trans (countsMore other),
          ?_, children⟩)
        rw [List.getElem?_append_left (by rw [List.length_set]; exact inside),
          List.getElem?_set_self inside]

/-- What a lookup can return, against what the volume holds; the references are `counts`
without those that the answer itself takes. -/
inductive Answers (ef : ExfatReader) (content : Nat → UInt8) (upcase : UInt16 → UInt16)
    (origin : List NodeEntry) (counts : Nat → Int) :
    Run (Except Int NodeEntry) → Run (Except Int Nat × ExfatTree) → Prop where
  | fault {fault : Fault} : Answers ef content upcase origin counts (.error fault) (.error fault)
  | missing {rc : Int} {after : ExfatTree} {more : List NodeEntry} :
      origin <+: more → Represents ef content upcase after more →
      (∀ id, after.references id = counts id) →
      Answers ef content upcase origin counts (.ok (.error rc)) (.ok (.error rc, after))
  | found {id : Nat} {file : NodeEntry} {after : ExfatTree} {more : List NodeEntry} :
      origin <+: more → Represents ef content upcase after more → more[id]? = some file →
      (∀ other, after.references other = counts other + if other = id then 1 else 0) →
      Answers ef content upcase origin counts (.ok (.ok file)) (.ok (.ok id, after))

theorem getElem?_within {more : List NodeEntry} (within : origin <+: more)
    (found : origin[id]? = some entry) : more[id]? = some entry := by
  obtain ⟨others, rfl⟩ := within
  rw [List.getElem?_append_left (List.getElem?_eq_some_iff.mp found).1, found]

theorem lookupName_eq (represents : Represents ef content upcase tree origin)
    (readable : ClustersReadable ef.toExfatFs content) (found : origin[id]? = some entry)
    (name : List UInt8) :
    Answers ef content upcase origin tree.references (findFile ef content upcase entry name)
      (lookupName ef tree id name) := by
  rw [findFile, lookupName]
  cases converted : utf8ToUtf16 name (exfatNameMax + 1) with
  | error rc => exact .missing List.prefix_rfl represents fun _ => rfl
  | ok buffer =>
      have inside := represents.lt_length found
      have some := represents.counted id
      have held := represents.count inside 1 (by omega)
      dsimp only
      rw [exfatGetNode_eq inside, ok_bind]
      rcases cacheDirectory_eq held readable found with
        ⟨fault, files, cached⟩ | ⟨rc, after, failed, files, cached, kept, counts⟩ |
        ⟨files, after, more, node, listed, cached, within, kept, counts, stands, stand⟩
      · rw [files, cached]
        exact .fault
      · rw [files, cached]
        simp only [ok_bind]
        have insideAfter := kept.lt_length found
        have references : after.references id = tree.references id + 1 := by
          rw [counts, tree.references_count inside, if_pos rfl]
        rw [if_pos failed, exfatPutNode_eq insideAfter (by omega)]
        refine .missing List.prefix_rfl (kept.count insideAfter (-1) (by omega)) fun other => ?_
        rw [after.references_count insideAfter, counts, tree.references_count inside]
        split_ifs <;> omega
      · rw [listed, cached]
        simp only [ok_bind, ne_eq, not_true_eq_false, if_false, stands]
        have foundMore := getElem?_within within found
        have insideAfter := kept.lt_length foundMore
        have references : after.references id = tree.references id + 1 := by
          rw [counts, tree.references_count inside, if_pos rfl]
        rcases lookupLoop_eq kept (terminated_of_utf8ToUtf16 converted) stand with
          ⟨none, looked⟩ | ⟨child, file, first, at_, looked⟩
        · rw [none, looked, ok_bind]
          dsimp only
          rw [exfatPutNode_eq insideAfter (by omega)]
          refine .missing within (kept.count insideAfter (-1) (by omega)) fun other => ?_
          rw [after.references_count insideAfter, counts, tree.references_count inside]
          split_ifs <;> omega
        · rw [first, looked, ok_bind]
          dsimp only
          have childInside := kept.lt_length at_
          have childCount := kept.counted child
          have keptChild := kept.count childInside 1 (by omega)
          have inside' : id < (after.count child 1).nodes.length := by
            rw [after.length_count]
            exact insideAfter
          have enough : 1 ≤ (after.count child 1).references id := by
            rw [after.references_count childInside]
            split_ifs <;> omega
          rw [exfatPutNode_eq inside' enough]
          refine .found within (keptChild.count inside' (-1) (by omega)) at_ fun other => ?_
          rw [(after.count child 1).references_count inside', after.references_count childInside,
            counts, tree.references_count inside]
          split_ifs <;> omega

theorem Answers.mono {more : List NodeEntry} {counts others : Nat → Int}
    {spec : Run (Except Int NodeEntry)} {run : Run (Except Int Nat × ExfatTree)}
    (answers : Answers ef content upcase more counts spec run) (within : origin <+: more)
    (same : ∀ id, counts id = others id) :
    Answers ef content upcase origin others spec run := by
  cases answers with
  | fault => exact .fault
  | missing further kept references =>
      exact .missing (within.trans further) kept fun id => (references id).trans (same id)
  | found further kept at_ references =>
      exact .found (within.trans further) kept at_ fun id => by rw [references, same]

theorem pathNames_eq (path : List UInt8) :
    pathNames path =
      if (Path.scan isSlash path).1 = [] then []
      else if (Path.scan isSlash path).1 = dotName then pathNames (Path.scan isSlash path).2
      else (Path.scan isSlash path).1 :: pathNames (Path.scan isSlash path).2 := by
  rw [pathNames, Path.components_eq_scan]
  split_ifs with none dot
  · rfl
  · rw [List.filter_cons_of_neg (by simpa using dot), pathNames]
  · rw [List.filter_cons_of_pos (by simpa using dot), pathNames]

theorem lookupFrom_eq (represents : Represents ef content upcase tree origin)
    (readable : ClustersReadable ef.toExfatFs content) (found : origin[id]? = some entry)
    (held : 1 ≤ tree.references id) (path : List UInt8) :
    Answers ef content upcase origin
      (fun other => tree.references other - if other = id then 1 else 0)
      (walkVolume ef content upcase entry (pathNames path)) (lookupFrom ef tree id path) := by
  induction size : path.length using Nat.strongRecOn
    generalizing path tree origin id entry with
  | _ length inductionHypothesis =>
      rw [lookupFrom, pathNames_eq]
      by_cases none : (Path.scan isSlash path).1 = []
      · rw [if_pos none, dif_pos none]
        exact .found List.prefix_rfl represents found fun other => by omega
      have shorter := Path.scan_shorter none
      rw [if_neg none, dif_neg none]
      by_cases dot : (Path.scan isSlash path).1 = dotName
      · rw [if_pos dot, if_pos dot]
        exact inductionHypothesis _ (by omega) represents found held _ rfl
      rw [if_neg dot, if_neg dot, walkVolume]
      have answers := lookupName_eq represents readable found (Path.scan isSlash path).1
      generalize findFile ef content upcase entry (Path.scan isSlash path).1 = spec at answers ⊢
      generalize lookupName ef tree id (Path.scan isSlash path).1 = run at answers ⊢
      cases answers with
      | fault => exact .fault
      | @missing rc after more within kept references =>
          have inside := kept.lt_length (getElem?_within within found)
          have count := references id
          simp only [ok_bind]
          rw [exfatPutNode_eq inside (by omega)]
          refine .missing within (kept.count inside (-1) (by omega)) fun other => ?_
          rw [after.references_count inside, references]
          split_ifs <;> omega
      | @found child file after more within kept at_ references =>
          have inside := kept.lt_length (getElem?_within within found)
          have count := references id
          have some := represents.counted child
          have enough : 1 ≤ after.references id := by
            rw [count]
            split_ifs <;> omega
          have released := kept.count inside (-1) (by omega)
          simp only [ok_bind]
          rw [exfatPutNode_eq inside enough, ok_bind]
          have heldChild : 1 ≤ (after.count id (-1)).references child := by
            rw [after.references_count inside, references, if_pos rfl]
            split_ifs with same
            · rw [same]
              omega
            · omega
          apply (inductionHypothesis _ (by omega) released at_ heldChild _ rfl).mono within
          intro other
          rw [after.references_count inside, references]
          split_ifs <;> omega

/-- `exfat_lookup` on a tree that stands for the volume gives what a walk over the volume
gives, and takes a reference to the answer alone. -/
theorem exfatLookup_answers (represents : Represents ef content upcase tree origin)
    (readable : ClustersReadable ef.toExfatFs content) (root : origin[0]? = some entry)
    (path : List UInt8) :
    Answers ef content upcase origin tree.references
      (walkVolume ef content upcase entry (pathNames path)) (exfatLookup ef tree path) := by
  have inside := represents.lt_length root
  have some := represents.counted 0
  have held := represents.count inside 1 (by omega)
  rw [exfatLookup, exfatGetNode_eq inside, ok_bind]
  have answers := lookupFrom_eq held readable root (by
    rw [tree.references_count inside, if_pos rfl]
    omega) path
  refine answers.mono List.prefix_rfl fun id => ?_
  rw [tree.references_count inside]
  split_ifs <;> omega

end Represents

/-- What a process does with a mounted volume: it looks paths up, with or without success,
and puts nodes that it holds; `held` are the answers that were not put yet. -/
inductive Session (ef : ExfatReader) (mounted : ExfatTree) : List Nat → ExfatTree → Prop where
  | start : Session ef mounted [] mounted
  | lookup {held : List Nat} {tree after : ExfatTree} {path : List UInt8} {id : Nat} :
      Session ef mounted held tree → exfatLookup ef tree path = .ok (.ok id, after) →
      Session ef mounted (id :: held) after
  | missing {held : List Nat} {tree after : ExfatTree} {path : List UInt8} {rc : Int} :
      Session ef mounted held tree → exfatLookup ef tree path = .ok (.error rc, after) →
      Session ef mounted held after
  | put {held : List Nat} {tree after : ExfatTree} {id : Nat} :
      Session ef mounted held tree → id ∈ held → exfatPutNode tree id = .ok after →
      Session ef mounted (held.erase id) after

section Sessions

variable {ef : ExfatReader} {content : Nat → UInt8} {upcase : UInt16 → UInt16}
  {mounted tree : ExfatTree} {origin : List NodeEntry} {root : NodeEntry} {held : List Nat}

theorem lt_length_of_references {id : Nat} (some : 1 ≤ tree.references id) :
    id < tree.nodes.length := by
  by_contra beyond
  rw [ExfatTree.references, List.getElem?_eq_none (Nat.le_of_not_lt beyond)] at some
  exact absurd some (by decide)

theorem Session.represents (session : Session ef mounted held tree)
    (begins : Represents ef content upcase mounted origin)
    (readable : ClustersReadable ef.toExfatFs content) (first : origin[0]? = some root) :
    ∃ more, origin <+: more ∧ Represents ef content upcase tree more ∧
      ∀ id, tree.references id = mounted.references id + held.count id := by
  induction session with
  | start => exact ⟨origin, List.prefix_rfl, begins, fun id => by simp⟩
  | @lookup held tree after path id _ looked inductionHypothesis =>
      obtain ⟨more, within, kept, counts⟩ := inductionHypothesis
      have answers := exfatLookup_answers kept readable (getElem?_within within first) path
      rw [looked] at answers
      generalize walkVolume ef content upcase root (pathNames path) = spec at answers
      cases answers with
      | found further keptAfter at_ references =>
          refine ⟨_, within.trans further, keptAfter, fun other => ?_⟩
          rw [references, counts, List.count_cons]
          by_cases same : other = id
          · subst same
            simp only [if_true, beq_self_eq_true]
            omega
          · rw [if_neg same, if_neg (by simpa using Ne.symm same)]
            omega
  | @missing held tree after path rc _ looked inductionHypothesis =>
      obtain ⟨more, within, kept, counts⟩ := inductionHypothesis
      have answers := exfatLookup_answers kept readable (getElem?_within within first) path
      rw [looked] at answers
      generalize walkVolume ef content upcase root (pathNames path) = spec at answers
      cases answers with
      | missing further keptAfter references =>
          exact ⟨_, within.trans further, keptAfter, fun id => by rw [references, counts]⟩
  | @put held tree after id _ membership done inductionHypothesis =>
      obtain ⟨more, within, kept, counts⟩ := inductionHypothesis
      have some := begins.counted id
      have held' := List.count_pos_iff.mpr membership
      have enough : 1 ≤ tree.references id := by
        rw [counts]
        omega
      have inside := lt_length_of_references enough
      rw [exfatPutNode_eq inside enough] at done
      cases done
      refine ⟨more, within, kept.count inside (-1) (by omega), fun other => ?_⟩
      rw [tree.references_count inside, counts, List.count_erase]
      by_cases same : other = id
      · subst same
        rw [if_pos rfl, if_pos (by simp)]
        omega
      · rw [if_neg same, if_neg (by simpa using Ne.symm same)]
        omega

/-- In every session, whatever was looked up and put before, a lookup gives what a walk
over the volume gives; each node is referenced once for each answer still held, and
putting one of these never fails. -/
theorem Session.answers (session : Session ef mounted held tree)
    (begins : Represents ef content upcase mounted origin)
    (readable : ClustersReadable ef.toExfatFs content) (first : origin[0]? = some root) :
    (∀ path, match walkVolume ef content upcase root (pathNames path) with
      | .error fault => exfatLookup ef tree path = .error fault
      | .ok (.error rc) => ∃ after, exfatLookup ef tree path = .ok (.error rc, after)
      | .ok (.ok file) => ∃ id node after, exfatLookup ef tree path = .ok (.ok id, after) ∧
          after.nodes[id]? = some node ∧ Reread ef file node.entry) ∧
      (∀ id, tree.references id = mounted.references id + held.count id) ∧
      ∀ id ∈ held, ∃ after, exfatPutNode tree id = .ok after := by
  obtain ⟨more, within, kept, counts⟩ := session.represents begins readable first
  refine ⟨fun path => ?_, counts, fun id membership => ?_⟩
  · have answers := exfatLookup_answers kept readable (getElem?_within within first) path
    generalize walkVolume ef content upcase root (pathNames path) = spec at answers ⊢
    generalize exfatLookup ef tree path = run at answers ⊢
    cases answers with
    | fault => rfl
    | missing => exact ⟨_, rfl⟩
    | found further keptAfter at_ references =>
        have inside := keptAfter.lt_length at_
        exact ⟨_, _, _, rfl, List.getElem?_eq_getElem inside,
          keptAfter.reread (List.getElem?_eq_getElem inside) at_⟩
  · have some := begins.counted id
    have held' := List.count_pos_iff.mpr membership
    have enough : 1 ≤ tree.references id := by
      rw [counts]
      omega
    exact ⟨_, exfatPutNode_eq (lt_length_of_references enough) enough⟩

end Sessions

end Vtoydump.Exfat
