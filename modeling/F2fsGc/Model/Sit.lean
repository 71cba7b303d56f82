import F2fsGc.Basic
import Mathlib.Algebra.Order.BigOperators.Group.List
import Mathlib.Algebra.Order.Group.Nat
import Mathlib.Algebra.Order.Ring.Nat

/-!
# The segment-information table and the dirty-segment map

`struct f2fs_sb_info` as `gc.c` sees it: the SIT (`sit_info`, one `seg_entry` per segment and
the mount-wide mtime range), the dirty-segment lists (`dirty_seglist_info`), the victim cursors,
and `cur_victim_sec`. One record, `Sbi`, because the C code threads one `sbi` through everything.

Two choices fix what a state can be:

* a segment's `valid_blocks` is not a field but the popcount of its `cur_valid_map`, and a
  section's `valid_blocks` the sum of its segments' (the SIT keeps both equal at all times, §8
  of the design note); so "at most `blocks_per_seg` valid blocks" holds of every state;
* the dirty maps have `MAIN_SEGS` bits: `dirty_lt` says no bit at or past `MAIN_SEGS` is set,
  which is what lets `find_next_bit` run past `MAIN_SEGS` without reading outside the map.

The mtimes are `unsigned long long` and kept as `BitVec 64`, so that `get_cb_cost` below reads
as the C does, wrapping and all.
-/

set_option autoImplicit false

namespace F2fsGc

/-- `struct seg_entry`, the fields `gc.c` reads. -/
structure SegEntry where
  /-- Bit `off` set iff block `off` of the segment is live. -/
  curValidMap : Nat → Bool
  ckptValidBlocks : Nat
  mtime : BitVec 64

/-- `seg_entry.valid_blocks`: the live blocks of the segment. -/
def SegEntry.validBlocks (g : Geometry) (e : SegEntry) : Nat :=
  popcount e.curValidMap g.blocksPerSeg

/-- `struct f2fs_gc_kthread`: the background thread's tunables. -/
structure GcKthread where
  minSleepTime : Nat
  maxSleepTime : Nat
  noGcSleepTime : Nat
  gcIdle : Nat

/-- The part of `struct f2fs_sb_info` that `gc.c` reads or writes. -/
structure Sbi (g : Geometry) where
  /-- `get_seg_entry(sbi, segno)`. -/
  sentries : Nat → SegEntry
  /-- `sit_i->min_mtime`. -/
  minMtime : BitVec 64
  /-- `sit_i->max_mtime`. -/
  maxMtime : BitVec 64
  /-- `dirty_i->dirty_segmap[type]`. -/
  dirtySegmap : Nat → Nat → Bool
  /-- `dirty_i->nr_dirty[type]`. -/
  nrDirty : Nat → Nat
  /-- `dirty_i->victim_secmap`: sections a background pass chose. -/
  victimSecmap : Nat → Bool
  /-- `sbi->last_victim[gc_mode]`. -/
  lastVictim : GcMode → Nat
  /-- `sbi->cur_victim_sec`. -/
  curVictimSec : Nat
  maxVictimSearch : Nat
  /-- The segment of each current segment (`CURSEG_I(sbi, type)->segno`). -/
  cursegs : List Nat
  /-- `sbi->gc_thread`, absent when background GC is off. -/
  gcThread : Option GcKthread
  dirty_lt : ∀ t i, dirtySegmap t i = true → i < g.mainSegs

variable {g : Geometry}

namespace Sbi

/-- `sbi->last_victim[mode] = v`. -/
def setLastVictim (s : Sbi g) (mode : GcMode) (v : Nat) : Sbi g :=
  { s with lastVictim := Function.update s.lastVictim mode v }

@[simp] theorem setLastVictim_lastVictim (s : Sbi g) (mode : GcMode) (v : Nat) :
    (s.setLastVictim mode v).lastVictim mode = v := by simp [setLastVictim]

end Sbi

/-- `get_sec_entry(sbi, segno)->valid_blocks`, as the sum the SIT keeps it equal to. -/
def secValidBlocks (s : Sbi g) (secno : Nat) : Nat :=
  ((List.range g.segsPerSec).map fun i => (s.sentries (secno * g.segsPerSec + i)).validBlocks g).sum

/-- `get_valid_blocks(sbi, segno, section)`; the C parameter `section` is `span` here. -/
def getValidBlocks (s : Sbi g) (segno span : Nat) : Nat :=
  if 1 < span then secValidBlocks s (getSecno g segno) else (s.sentries segno).validBlocks g

theorem validBlocks_le (e : SegEntry) : e.validBlocks g ≤ g.blocksPerSeg := by
  unfold SegEntry.validBlocks popcount
  exact (List.countP_le_length _).trans (List.length_range _).le

theorem secValidBlocks_le (s : Sbi g) (secno : Nat) :
    secValidBlocks s secno ≤ g.segsPerSec * g.blocksPerSeg := by
  unfold secValidBlocks
  have := List.sum_le_card_nsmul
    ((List.range g.segsPerSec).map fun i => (s.sentries (secno * g.segsPerSec + i)).validBlocks g)
    g.blocksPerSeg (by simp only [List.mem_map]; rintro _ ⟨i, -, rfl⟩; exact validBlocks_le _)
  simpa using this

/-- A section never holds more than `segs_per_sec << log_blocks_per_seg` valid blocks. -/
theorem getValidBlocks_sec_le (s : Sbi g) (segno : Nat) :
    getValidBlocks s segno g.segsPerSec ≤ g.segsPerSec * g.blocksPerSeg := by
  unfold getValidBlocks
  split
  · exact secValidBlocks_le s _
  · exact (validBlocks_le _).trans (Nat.le_mul_of_pos_left _ g.segsPerSec_pos)

end F2fsGc
