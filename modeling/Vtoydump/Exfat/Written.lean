import Vtoydump.Exfat.Truncated

/-!
# What a write leaves

A write at an offset makes the file long enough, with zeros before the offset, and puts its
bytes there.  When the volume is full, the file has its old bytes, perhaps with the zeros.
-/

namespace Vtoydump.Exfat

open CRun Blocks Chain

variable {width : Nat} {ef : FatVolume} {io : Transfers} {disk after : ef.Disk width}

structure ExtendResult (ef : FatVolume) (io : Transfers) (disk after : ef.Disk width)
    (node grown : FileNode) (clusters : List UInt32) (bytes : List UInt8) (size : Nat)
    (erase : Bool) (rc : Int) : Prop where
  kind : SameKind node grown
  spares : Spares ef (Owned disk clusters) disk after
  done : rc = 0 → ∃ chain fill, Contains ef after grown chain (bytes ++ fill) ∧
    fill.length = size - bytes.length ∧ Replaces ef disk after clusters chain ∧
    (erase = true → bytes ++ fill = extend bytes size)
  settled : rc = 0 → TakesBelow ef after grown.toExfatNode
      (bytes2clusters ef.sb.toExfatSuperBlock grown.size) →
    ef.needed node.size.toNat = ef.needed grown.size.toNat ∧
      TakesBelow ef disk node.toExfatNode (bytes2clusters ef.sb.toExfatSuperBlock node.size)
  outcome : rc = 0 ∨
    rc = -enospc ∧ exfatCountFreeClusters disk.cmap.chunk + clusters.length < ef.needed size ∧
      Contains ef after grown clusters bytes ∧ Replaces ef disk after clusters clusters ∨
    rc < 0 ∧ ¬ io.Reliable

structure WriteResult (ef : FatVolume) (io : Transfers) (disk after : ef.Disk width)
    (node written : FileNode) (clusters : List UInt32) (bytes data : List UInt8) (offset : Nat)
    (rc : Int) : Prop where
  kind : SameKind node written
  spares : Spares ef (Owned disk clusters) disk after
  done : 0 ≤ rc → rc = data.length ∧ ∃ chain,
    Contains ef after written chain (overwrite (extend bytes offset) offset data) ∧
      Replaces ef disk after clusters chain
  outcome : 0 ≤ rc ∨
    rc = -enospc ∧ exfatCountFreeClusters disk.cmap.chunk + clusters.length <
        ef.needed (offset + data.length) ∧
      (∃ chain kept, Contains ef after written chain kept ∧
        Replaces ef disk after clusters chain ∧ (kept = bytes ∨ kept = extend bytes offset)) ∨
    rc < 0 ∧ ¬ io.Reliable

section Write

variable {clusters : List UInt32} {node : FileNode} {bytes data : List UInt8} {size offset : Nat}

theorem largest_lt (ef : FatVolume) : ef.largest < 2 ^ 64 := by
  have small : ef.clusterSize ≤ 33554432 := clusterSize_le ef.sb
  have bound := Nat.mul_le_mul_left 0xffffffff small
  rw [FatVolume.largest]
  omega

theorem ExtendResult.negative {erase : Bool} {rc : Int} {grown : FileNode}
    (result : ExtendResult ef io disk after node grown clusters bytes size erase rc)
    (failed : rc ≠ 0) : rc < 0 := by
  rcases result.outcome.resolve_left failed with ⟨full, _⟩ | ⟨negative, _⟩
  · rw [full]
    decide
  · exact negative

theorem extendFile_eq (io : Transfers) (now : Int) (erase : Bool) (laid : ef.Laid)
    (contains : Contains ef disk node clusters bytes) (referenced : Referenced node)
    (fits : size ≤ ef.largest)
    (apart : ef.needed node.size.toNat < ef.needed size →
      ¬ TakesBelow ef disk node.toExfatNode
        (bytes2clusters ef.sb.toExfatSuperBlock node.size)) :
    (∃ rc after grown, extendFile ef io now disk node size erase = .ok (rc, after, grown) ∧
      ExtendResult ef io disk after node grown clusters bytes size erase rc) ∨
    extendFile ef io now disk node size erase = .error .abort ∧ ¬ io.Reliable := by
  have length := contains.length
  have bound := largest_lt ef
  have number : (UInt64.ofNat size).toNat = size := Nat.mod_eq_of_lt (by omega)
  rw [extendFile]
  split_ifs with short
  · refine (exfatTruncate_eq io (UInt64.ofNat size) now erase laid contains referenced
      (by rw [number]; exact fits) (by rw [number]; exact apart)).imp_left ?_
    rintro ⟨rc, after, grown, truncated, result⟩
    refine ⟨rc, after, grown, truncated, result.kind, result.spares, fun zero => ?_,
      fun zero => ?_, ?_⟩
    · obtain ⟨chain, fill, held, replaces, sized, zeros⟩ := result.done zero
      rw [number] at held zeros
      rw [List.take_of_length_le (by omega)] at held
      have whole := held.length
      rw [List.length_append, sized, number] at whole
      refine ⟨chain, fill, held, by omega, replaces, fun erased => ?_⟩
      rw [zeros erased, extend]
    · obtain ⟨_, _, _, _, sized, _⟩ := result.done zero
      rw [sized]
      apply result.settled zero
      rw [UInt64.le_iff_toNat_le, number]
      exact Nat.le_of_lt short
    · have outcome := result.outcome
      rw [number] at outcome
      exact outcome
  · refine Or.inl ⟨0, disk, node, rfl, ⟨rfl, rfl, rfl⟩, .refl _ _, fun _ => ⟨clusters, [], ?_, ?_,
      .refl contains.stores.holds, fun _ => ?_⟩, fun _ below => ⟨rfl, below⟩, Or.inl rfl⟩
    · rw [List.append_nil]
      exact contains
    · rw [List.length_nil]
      omega
    · rw [List.append_nil, extend_of_le (by omega)]

theorem writeBytes_eq (io : Transfers) (now : Int) (laid : ef.Laid)
    (contains : Contains ef disk node clusters bytes)
    (inside : offset + data.length ≤ bytes.length) :
    ∃ rc after written, writeBytes ef io now disk node data offset = .ok (rc, after, written) ∧
      SameKind node written ∧ Fills ef clusters disk after ∧
      (0 ≤ rc → rc = data.length ∧
        Contains ef after written clusters (overwrite bytes offset data)) ∧
      (0 ≤ rc ∨ rc < 0 ∧ ¬ io.Reliable) := by
  have length := contains.length
  have held := contains.stores.size_le
  have holds := contains.stores.holds
  rw [writeBytes]
  by_cases none : data = []
  · subst none
    rw [if_pos rfl]
    refine ⟨0, disk, node, rfl, ⟨rfl, rfl, rfl⟩, .refl _ _, fun _ => ⟨rfl, ?_⟩,
      Or.inl (Int.le_refl 0)⟩
    rw [overwrite_nil]
    exact contains
  · have more := List.length_pos_of_ne_nil none
    obtain ⟨number, index⟩ := holds.toNat_index (by omega : offset < clusters.length * _)
    obtain ⟨cluster, moved, advanced, same, answer⟩ := exfatAdvanceCluster_holds io laid holds
      (by rw [number]; exact index :
        (UInt32.ofNat (offset / ef.clusterSize)).toNat < clusters.length)
    rw [if_neg none, advanced, ok_bind]
    dsimp only
    rcases answer with ⟨found, movedHolds⟩ | ⟨broken, unreliable⟩
    · rw [number] at found
      have valid := holds.valid cluster (List.mem_of_getElem? found)
      obtain ⟨rc, after, looped, fills, complete, outcome⟩ := genericPwriteLoop_eq io
        { node with toExfatNode := moved } laid movedHolds (Nat.le_refl data.length) (by omega)
        (fun _ => Or.inl found)
      rw [if_neg (by rw [valid]; exact Bool.false_ne_true), looped, ok_bind]
      dsimp only
      rcases outcome with zero | ⟨code, unreliable⟩
      · have kept := movedHolds.filled laid fills
        have ended : Ended ef after moved clusters := contains.stores.ended.of_entry
          same.isContiguous fun cluster membership => fills.entry laid (holds.valid cluster membership)
        have content : bytesAt (ef.byte after.content clusters) 0 moved.size.toNat =
            overwrite bytes offset data := by
          rw [same.size, ← contains.bytes, ← bytesAt_put (by omega)]
          apply bytesAt_congr
          intro position below
          rw [Nat.zero_add]
          exact complete zero position (Nat.lt_of_lt_of_le below held)
        have sized : clusters.length = ef.needed moved.size.toNat := by
          rw [same.size]
          exact contains.stores.sized
        rw [if_neg (by rw [zero]; decide)]
        split_ifs with file
        · exact ⟨data.length, after, _, rfl, ⟨rfl, rfl, rfl⟩, fills,
            fun _ => ⟨rfl, ⟨kept, sized, ended⟩, content⟩, Or.inl (Int.natCast_nonneg _)⟩
        · exact ⟨data.length, after, _, rfl, ⟨rfl, rfl, rfl⟩, fills,
            fun _ => ⟨rfl, ⟨kept, sized, ended⟩, content⟩, Or.inl (Int.natCast_nonneg _)⟩
      · rw [if_pos (by rw [code]; decide), code]
        exact ⟨-eio, after, _, rfl, ⟨rfl, rfl, rfl⟩, fills, fun positive => absurd positive
          (by decide), Or.inr ⟨by decide, unreliable⟩⟩
    · rw [if_pos broken]
      exact ⟨-eio, disk, _, rfl, ⟨rfl, rfl, rfl⟩, .refl _ _, fun positive => absurd positive
        (by decide), Or.inr ⟨by decide, unreliable⟩⟩

/-- What a file may change after a change of its chain, it might before. -/
theorem Spares.replaced {final : ef.Disk width} {chain : List UInt32}
    (spares : Spares ef (Owned after chain) after final)
    (replaces : Replaces ef disk after clusters chain)
    (before : Spares ef (Owned disk clusters) disk after) :
    Spares ef (Owned disk clusters) disk final := by
  apply before.trans
  apply spares.mono
  rintro cluster valid (membership | free)
  · exact replaces.owned cluster membership
  · by_contra apart
    rw [Owned, not_or] at apart
    have used := (replaces.used cluster valid).mpr
      (Or.inr ⟨apart.1, eq_true_of_ne_false apart.2⟩)
    rw [free] at used
    cases used

/-- What `exfat_generic_pwrite` leaves when the file is long enough for its offset. -/
theorem pwrite_extended {first : ef.Disk width} {grown : FileNode} (io : Transfers) (now : Int)
    (laid : ef.Laid) (result : ExtendResult ef io disk first node grown clusters bytes offset true 0)
    (referenced : Referenced grown) (fits : offset + data.length ≤ ef.largest)
    (apart : ef.needed node.size.toNat < ef.needed (offset + data.length) →
      ¬ TakesBelow ef disk node.toExfatNode
        (bytes2clusters ef.sb.toExfatSuperBlock node.size)) :
    (∃ rc second longer, extendFile ef io now first grown (offset + data.length) false =
        .ok (rc, second, longer) ∧
      (rc ≠ 0 → WriteResult ef io disk second node longer clusters bytes data offset rc) ∧
      (rc = 0 → ∃ answer after written, writeBytes ef io now second longer data offset =
          .ok (answer, after, written) ∧
        WriteResult ef io disk after node written clusters bytes data offset answer)) ∨
    extendFile ef io now first grown (offset + data.length) false = .error .abort ∧
      ¬ io.Reliable := by
  obtain ⟨chain, fill, held, _, replaces, zeros⟩ := result.done rfl
  rw [zeros rfl] at held
  refine (extendFile_eq io now false laid held referenced fits fun more below => ?_).imp_left ?_
  · obtain ⟨same, before⟩ := result.settled rfl below
    exact apart (by rw [same]; exact more) before
  rintro ⟨rc, second, longer, extended, resultToo⟩
  have kind := result.kind.trans resultToo.kind
  have spares := resultToo.spares.replaced replaces result.spares
  refine ⟨rc, second, longer, extended, fun failed => ?_, fun zero => ?_⟩
  · have negative := resultToo.negative failed
    refine ⟨kind, spares, fun positive => absurd positive (Int.not_le.mpr negative), Or.inr ?_⟩
    refine (resultToo.outcome.resolve_left failed).imp_left ?_
    rintro ⟨full, short, kept, replacesToo⟩
    have counted := replaces.counted
    exact ⟨full, by omega, ⟨chain, _, kept,
      replaces.trans replacesToo kept.stores.holds.valid, Or.inr rfl⟩⟩
  · obtain ⟨last, fillToo, heldToo, amount, replacesToo, _⟩ := resultToo.done zero
    have reached : offset ≤ (extend bytes offset).length := by
      rw [length_extend]
      exact Nat.le_max_right _ _
    have valid := heldToo.stores.holds.valid
    have whole := replaces.trans replacesToo valid
    obtain ⟨answer, after, written, wrote, kindToo, fills, complete, outcome⟩ :=
      writeBytes_eq io now laid heldToo (by rw [List.length_append]; omega :
        offset + data.length ≤ _)
    refine ⟨answer, after, written, wrote, kind.trans kindToo,
      spares.trans ((fills.spares laid valid).mono fun cluster _ => whole.owned cluster),
      fun positive => ?_, outcome.imp_right Or.inr⟩
    obtain ⟨code, content⟩ := complete positive
    rcases Nat.le_total (offset + data.length) (extend bytes offset).length with long | short
    · rw [Nat.sub_eq_zero_of_le long] at amount
      rw [List.eq_nil_of_length_eq_zero amount, List.append_nil] at content
      exact ⟨code, last, content, whole.of_cmap fills.cmap⟩
    · rw [overwrite_append reached (by omega)] at content
      exact ⟨code, last, content, whole.of_cmap fills.cmap⟩

/-- `exfat_generic_pwrite` puts the bytes at their offset, behind zeros if the file was
shorter, and answers how many there are; or the volume is full, or the device failed. -/
theorem exfatGenericPwrite_eq (io : Transfers) (now : Int) (laid : ef.Laid)
    (contains : Contains ef disk node clusters bytes) (referenced : Referenced node)
    (fits : offset + data.length ≤ ef.largest)
    (apart : ef.needed node.size.toNat < ef.needed (offset + data.length) →
      ¬ TakesBelow ef disk node.toExfatNode
        (bytes2clusters ef.sb.toExfatSuperBlock node.size)) :
    (∃ rc after written, exfatGenericPwrite ef io now disk node data offset =
        .ok (rc, after, written) ∧
      WriteResult ef io disk after node written clusters bytes data offset rc) ∨
    exfatGenericPwrite ef io now disk node data offset = .error .abort ∧ ¬ io.Reliable := by
  have farther := needed_mono ef (Nat.le_add_right offset data.length)
  rw [exfatGenericPwrite]
  rcases extendFile_eq io now true laid contains referenced (by omega : offset ≤ ef.largest)
    (fun more => apart (by omega)) with ⟨rc, first, grown, extended, result⟩ | ⟨aborted, unreliable⟩
  · rw [extended, ok_bind]
    dsimp only
    by_cases failed : rc = 0
    · subst failed
      rw [if_neg (not_not.mpr rfl)]
      rcases pwrite_extended io now laid result (referenced.of_sameKind result.kind) fits apart with
        ⟨code, second, longer, extendedToo, stopped, done⟩ | ⟨aborted, unreliable⟩
      · rw [extendedToo, ok_bind]
        dsimp only
        by_cases failedToo : code = 0
        · obtain ⟨answer, after, written, wrote, resultToo⟩ := done failedToo
          rw [if_neg (not_not.mpr failedToo), wrote]
          exact Or.inl ⟨answer, after, written, rfl, resultToo⟩
        · rw [if_pos failedToo]
          exact Or.inl ⟨code, second, longer, rfl, stopped failedToo⟩
      · rw [aborted]
        exact Or.inr ⟨rfl, unreliable⟩
    · rw [if_pos failed]
      have negative := result.negative failed
      refine Or.inl ⟨rc, first, grown, rfl, result.kind, result.spares,
        fun positive => absurd positive (Int.not_le.mpr negative), Or.inr ?_⟩
      refine (result.outcome.resolve_left failed).imp_left ?_
      rintro ⟨full, short, kept, replaces⟩
      exact ⟨full, by omega, clusters, bytes, kept, replaces, Or.inl rfl⟩
  · rw [aborted]
    exact Or.inr ⟨rfl, unreliable⟩

end Write

end Vtoydump.Exfat
