import Mathlib.Data.List.Basic
import Mathlib.Algebra.Group.Nat.Basic

/-!
# The vocabulary of `gc.c`

`fs/f2fs/gc.c` reclaims space segment by segment: it picks a victim section under a cost
policy, checks which blocks of each of its segments are still owned, and moves those out. This
file fixes the words every other file uses: the enums the C code switches on, the mount-time
geometry (`struct f2fs_sb_info`'s constants), and `find_next_bit`, the one bitmap primitive the
victim scan is written with.

Numbers are `Nat` where the C value cannot wrap in any state the geometry allows, and `BitVec`
where the C arithmetic is fixed-width and its wrapping is part of what is specified
(`get_cb_cost`, `start_bidx_of_node`'s 32-bit reading).

## The geometry carries its own bounds

`Geometry` holds what the mount fixes and what `gc.c` never writes. Its four proof fields are
the promises the mount and the on-disk layout make to this file, so that no theorem downstream
has to repeat them as hypotheses:

* `segs_per_sec = 1 << log_segs_per_sec`, hence positive;
* the superblock check rejects any `log_blocks_per_seg` but 9 (the bound `≤ 9` is what the
  cost arithmetic needs, and lets small examples use two-block segments);
* a section count never exceeds what the segment count holds;
* block addresses are 32-bit: every block of the main area, and of one section past it, has an
  address below `NULL_SEGNO`; so every segment number, scan offset and per-section block count
  fits `unsigned int`.
-/

set_option autoImplicit false

namespace F2fsGc

/-- `NULL_SEGNO`, `(unsigned int)~0`: the "no segment" value. -/
def nullSegno : Nat := 2 ^ 32 - 1

/-- `UINT_MAX`, the cap of cost-benefit costs. -/
def uintMax : Nat := 2 ^ 32 - 1

/-- `int gc_type`: `BG_GC` or `FG_GC`. -/
inductive GcType where
  | bg
  | fg
  deriving DecidableEq, Repr

/-- `p->gc_mode`, and the index of `sbi->last_victim`: `GC_CB` or `GC_GREEDY`. -/
inductive GcMode where
  | cb
  | greedy
  deriving DecidableEq, Repr

/-- `p->alloc_mode`: `LFS` (whole sections, for GC) or `SSR` (segments, for the allocator). -/
inductive AllocMode where
  | lfs
  | ssr
  deriving DecidableEq, Repr

/-- `DIRTY`, the index of the map of all dirty segments in `dirty_segmap[]`. `NO_CHECK_TYPE`,
which `__get_victim` passes as the type of an LFS request, has the same value. -/
def dirty : Nat := 6

/-- `NO_CHECK_TYPE`. -/
def noCheckType : Nat := 6

/-- The mount-time constants of `struct f2fs_sb_info` that `gc.c` reads, with the bounds the
mount promises (module docstring). -/
structure Geometry where
  logBlocksPerSeg : Nat
  segsPerSec : Nat
  /-- `MAIN_SEGS(sbi)`. -/
  mainSegs : Nat
  /-- `MAIN_SECS(sbi)`. -/
  mainSecs : Nat
  segsPerSec_pos : 0 < segsPerSec
  logBlocksPerSeg_le : logBlocksPerSeg ≤ 9
  mainSecs_le : mainSecs * segsPerSec ≤ mainSegs
  blocks_le : (mainSegs + segsPerSec) * 2 ^ logBlocksPerSeg ≤ nullSegno

namespace Geometry

variable (g : Geometry)

/-- `sbi->blocks_per_seg`, `1 << log_blocks_per_seg`. -/
def blocksPerSeg : Nat := 2 ^ g.logBlocksPerSeg

theorem blocksPerSeg_le : g.blocksPerSeg ≤ 512 :=
  (Nat.pow_le_pow_right (by decide) g.logBlocksPerSeg_le).trans (by decide)

theorem blocksPerSeg_pos : 0 < g.blocksPerSeg := Nat.two_pow_pos _

theorem mainSegs_le : g.mainSegs + g.segsPerSec ≤ nullSegno :=
  (Nat.le_mul_of_pos_right _ (Nat.two_pow_pos _)).trans g.blocks_le

theorem secBlocks_lt : g.segsPerSec * g.blocksPerSeg < 2 ^ 32 := by
  have := g.blocks_le
  have : g.segsPerSec * 2 ^ g.logBlocksPerSeg ≤ (g.mainSegs + g.segsPerSec) * 2 ^ g.logBlocksPerSeg :=
    Nat.mul_le_mul_right _ (by omega)
  unfold blocksPerSeg nullSegno at *
  omega

end Geometry

/-- `GET_SECNO(sbi, segno)`. -/
def getSecno (g : Geometry) (segno : Nat) : Nat := segno / g.segsPerSec

/-! ## `find_next_bit` -/

/-- `find_next_bit(addr, size, offset)`: the first set bit at or after `offset` and below
`size`, or `size` if there is none. The helper walks the `size - offset` candidates. -/
def findNextBit (m : Nat → Bool) (size offset : Nat) : Nat :=
  go (size - offset) offset
where
  go : Nat → Nat → Nat
    | 0, _ => size
    | n + 1, i => if m i then i else go n (i + 1)

/-- The number of set bits below `n`. -/
def popcount (m : Nat → Bool) (n : Nat) : Nat := (List.range n).countP m

/-- A list of distinct set bits below `n` is no longer than the bitmap's weight. -/
theorem length_le_popcount {m : Nat → Bool} {n : Nat} {l : List Nat} (hl : l.Nodup)
    (h : ∀ v ∈ l, m v = true ∧ v < n) : l.length ≤ popcount m n := by
  rw [popcount, List.countP_eq_length_filter]
  exact (List.subperm_of_subset hl fun v hv =>
    List.mem_filter.2 ⟨List.mem_range.2 (h v hv).2, (h v hv).1⟩).length_le

theorem popcount_eq_zero {m : Nat → Bool} {n : Nat} (h : popcount m n = 0) {i : Nat}
    (hi : i < n) : m i = false := by
  rw [popcount, List.countP_eq_zero] at h
  simpa using h i (List.mem_range.2 hi)

section FindNextBit

variable {m : Nat → Bool} {size : Nat}

theorem findNextBit.go_spec (n i : Nat) :
    (go m size n i = size ∧ ∀ j, i ≤ j → j < i + n → m j = false) ∨
      (i ≤ go m size n i ∧ go m size n i < i + n ∧ m (go m size n i) = true ∧
        ∀ j, i ≤ j → j < go m size n i → m j = false) := by
  induction n generalizing i with
  | zero => exact .inl ⟨rfl, fun j h1 h2 => by omega⟩
  | succ n ih =>
    cases hm : m i with
    | true => exact .inr ⟨by simp [go, hm], by simp [go, hm], by simp [go, hm],
        fun j h1 h2 => by simp only [go, hm, if_true] at h2; omega⟩
    | false =>
      simp only [go, hm, Bool.false_eq_true, if_false]
      rcases ih (i + 1) with ⟨he, hf⟩ | ⟨h1, h2, h3, hf⟩
      · refine .inl ⟨he, fun j h1 h2 => ?_⟩
        rcases Nat.eq_or_lt_of_le h1 with rfl | h1
        · exact hm
        · exact hf j h1 (by omega)
      · refine .inr ⟨by omega, by omega, h3, fun j hj hj' => ?_⟩
        rcases Nat.eq_or_lt_of_le hj with rfl | hj
        · exact hm
        · exact hf j hj hj'

/-- What `find_next_bit` answers: a bit below `size` and at or after `offset`, set, with none
set before it; or `size`, with none set from `offset` on. -/
theorem findNextBit_spec (offset : Nat) :
    findNextBit m size offset ≤ size ∧
      (findNextBit m size offset < size →
        offset ≤ findNextBit m size offset ∧ m (findNextBit m size offset) = true) ∧
      ∀ j, offset ≤ j → j < findNextBit m size offset → m j = false := by
  unfold findNextBit
  rcases @findNextBit.go_spec m size (size - offset) offset with
    ⟨he, hf⟩ | ⟨h1, h2, h3, hf⟩
  · refine ⟨he.le, fun h => by omega, fun j h1 h2 => hf j h1 (by omega)⟩
  · exact ⟨by omega, fun _ => ⟨h1, h3⟩, hf⟩

theorem findNextBit_of_lt {offset : Nat} (h : findNextBit m size offset < size) :
    offset ≤ findNextBit m size offset ∧ m (findNextBit m size offset) = true :=
  (findNextBit_spec offset).2.1 h

theorem findNextBit_skip {offset j : Nat} (h1 : offset ≤ j) (h2 : j < findNextBit m size offset) :
    m j = false :=
  (findNextBit_spec offset).2.2 j h1 h2

end FindNextBit

end F2fsGc
