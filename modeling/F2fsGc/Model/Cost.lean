import F2fsGc.Model.Sit

/-!
# `get_cb_cost`, at the widths the C computes in

The cost-benefit cost of a section, `UINT_MAX − 100·(100−u)·age / (100+u)`, is computed in four
widths: the mtimes in `unsigned long long`, the valid-block count in `unsigned int`, `u` and
`age` in `unsigned char`, and the final quotient in `int`. Each piece below is one of those
computations, named after the C variable it assigns, and `getCbCost` strings them together in
the order of the source. It also writes `sit_i->min_mtime`/`max_mtime`, which is why it returns
the state.

The lemmas at the end read each piece back as plain `Nat` arithmetic under the conditions in
which nothing wraps: a section below `segs_per_sec << log_blocks_per_seg` valid blocks (always
true here, `getValidBlocks_sec_le`) and an mtime range narrow enough that `100·(mtime − min)`
fits 64 bits.
-/

set_option autoImplicit false

namespace F2fsGc

variable {g : Geometry}

/-- `mtime` after `div_u64(mtime, segs_per_sec)`: the `unsigned long long` sum of the section's
segment mtimes, averaged. -/
def avgMtime (s : Sbi g) (segno : Nat) : BitVec 64 :=
  let start := getSecno g segno * g.segsPerSec
  (List.range g.segsPerSec).foldl (fun m i => m + (s.sentries (start + i)).mtime) 0 /
    BitVec.ofNat 64 g.segsPerSec

/-- `u = (vblocks * 100) >> log_blocks_per_seg`, with `vblocks` the section's valid blocks
averaged per segment: the utilisation in percent, as `unsigned char`. -/
def cbUtil (s : Sbi g) (segno : Nat) : BitVec 8 :=
  let vblocks : BitVec 32 :=
    BitVec.ofNat 32 (getValidBlocks s segno g.segsPerSec) / BitVec.ofNat 32 g.segsPerSec
  ((vblocks * 100) >>> g.logBlocksPerSeg).setWidth 8

/-- `age`, as `unsigned char`, from the range after its update: `0` if the range is a point,
else `100 − 100·(mtime − min) / (max − min)` in `unsigned long long`. -/
def cbAge (minM maxM mtime : BitVec 64) : BitVec 8 :=
  if maxM ≠ minM then (100 - 100 * (mtime - minM) / (maxM - minM)).setWidth 8 else 0

/-- The return value `UINT_MAX - ((100 * (100 - u) * age) / (100 + u))`: `u` and `age` promoted
to `int`, the quotient truncated, then converted to `unsigned int`. -/
def cbCostOf (u age : BitVec 8) : Nat :=
  (BitVec.ofNat 32 uintMax -
    BitVec.ofInt 32 ((100 * (100 - (u.toNat : Int)) * age.toNat).tdiv (100 + u.toNat))).toNat

/-- `get_cb_cost(sbi, segno)`: the cost, and the state with `min_mtime`/`max_mtime` widened to
the section's mtime ("handle if the system time has changed by the user"). -/
def getCbCost (s : Sbi g) (segno : Nat) : Nat × Sbi g :=
  let mtime := avgMtime s segno
  let u := cbUtil s segno
  let minMtime := if mtime < s.minMtime then mtime else s.minMtime
  let maxMtime := if mtime > s.maxMtime then mtime else s.maxMtime
  (cbCostOf u (cbAge minMtime maxMtime mtime), { s with minMtime, maxMtime })

/-- The cost in exact arithmetic, for `u, age ≤ 100`. -/
def cbTerm (u age : Nat) : Nat := 100 * (100 - u) * age / (100 + u)

/-! ## No wrap -/

theorem cbUtil_toNat (s : Sbi g) (segno : Nat) :
    (cbUtil s segno).toNat =
      getValidBlocks s segno g.segsPerSec / g.segsPerSec * 100 / g.blocksPerSeg := by
  have hv := getValidBlocks_sec_le s segno
  have hb := g.secBlocks_lt
  have hs := g.segsPerSec_pos
  have h512 := g.blocksPerSeg_le
  have hsps : g.segsPerSec < 2 ^ 32 := by
    have := Nat.le_mul_of_pos_right g.segsPerSec g.blocksPerSeg_pos; omega
  have hq : getValidBlocks s segno g.segsPerSec / g.segsPerSec ≤ g.blocksPerSeg :=
    Nat.div_le_of_le_mul hv
  have hd : getValidBlocks s segno g.segsPerSec / g.segsPerSec * 100 / g.blocksPerSeg ≤ 100 :=
    Nat.div_le_of_le_mul (Nat.mul_le_mul_right 100 hq)
  simp only [cbUtil, BitVec.toNat_setWidth, BitVec.toNat_ushiftRight, BitVec.toNat_mul,
    BitVec.toNat_udiv, BitVec.toNat_ofNat, Nat.shiftRight_eq_div_pow]
  rw [Nat.mod_eq_of_lt (by omega : getValidBlocks s segno g.segsPerSec < 2 ^ 32),
    Nat.mod_eq_of_lt hsps, show (100 : BitVec 32).toNat = 100 from rfl,
    Nat.mod_eq_of_lt (by omega : _ * 100 < 2 ^ 32)]
  exact Nat.mod_eq_of_lt (by unfold Geometry.blocksPerSeg at hd; omega)

theorem cbUtil_le (s : Sbi g) (segno : Nat) : (cbUtil s segno).toNat ≤ 100 := by
  rw [cbUtil_toNat]
  exact Nat.div_le_of_le_mul
    (Nat.mul_le_mul_right 100 (Nat.div_le_of_le_mul (getValidBlocks_sec_le s segno)))

theorem cbAge_toNat {minM maxM m : BitVec 64} (h1 : minM ≤ m) (h2 : m ≤ maxM)
    (hr : 100 * (maxM.toNat - minM.toNat) < 2 ^ 64) :
    (cbAge minM maxM m).toNat =
      if maxM = minM then 0 else 100 - 100 * (m.toNat - minM.toNat) / (maxM.toNat - minM.toNat) := by
  rw [BitVec.le_def] at h1 h2
  unfold cbAge
  split
  · rename_i hne
    have hne' : maxM.toNat ≠ minM.toNat := fun h => hne (BitVec.eq_of_toNat_eq h)
    have hq : 100 * (m.toNat - minM.toNat) / (maxM.toNat - minM.toNat) ≤ 100 :=
      Nat.div_le_of_le_mul (by omega)
    have hm := m.isLt
    have hM := maxM.isLt
    simp only [hne, if_false, BitVec.toNat_setWidth, BitVec.toNat_sub, BitVec.toNat_udiv,
      BitVec.toNat_mul, show (100 : BitVec 64).toNat = 100 from rfl]
    rw [show (2 ^ 64 - minM.toNat + m.toNat) % 2 ^ 64 = m.toNat - minM.toNat by omega,
      show (2 ^ 64 - minM.toNat + maxM.toNat) % 2 ^ 64 = maxM.toNat - minM.toNat by omega,
      Nat.mod_eq_of_lt (by omega : 100 * (m.toNat - minM.toNat) < 2 ^ 64)]
    generalize 100 * (m.toNat - minM.toNat) / (maxM.toNat - minM.toNat) = q at *
    omega
  · rename_i he
    simp only [not_not] at he
    simp [he]

theorem cbAge_le {minM maxM m : BitVec 64} (h1 : minM ≤ m) (h2 : m ≤ maxM)
    (hr : 100 * (maxM.toNat - minM.toNat) < 2 ^ 64) : (cbAge minM maxM m).toNat ≤ 100 := by
  rw [cbAge_toNat h1 h2 hr]
  split
  · exact Nat.zero_le _
  · exact Nat.sub_le _ _

/-- The `unsigned long long` sum of the mtime loop is the exact sum, modulo `2^64`. -/
theorem foldl_add_toNat {α : Type} (f : α → BitVec 64) :
    ∀ (l : List α) (a : BitVec 64),
      (l.foldl (fun m i => m + f i) a).toNat = (a.toNat + (l.map fun i => (f i).toNat).sum) % 2 ^ 64
  | [], a => by simp [Nat.mod_eq_of_lt a.isLt]
  | i :: l, a => by
    rw [List.foldl_cons, foldl_add_toNat f l, BitVec.toNat_add, Nat.mod_add_mod, List.map_cons,
      List.sum_cons, Nat.add_assoc]

/-- The mtimes of the section's segments, as the loop of `get_cb_cost` reads them, in `Nat`. -/
def secMtimes (s : Sbi g) (segno : Nat) : List Nat :=
  (List.range g.segsPerSec).map fun i =>
    (s.sentries (getSecno g segno * g.segsPerSec + i)).mtime.toNat

section Average

variable {s : Sbi g} {B : Nat} (segno : Nat) (hm : ∀ i, (s.sentries i).mtime.toNat < B)
include hm

theorem secMtimes_sum_le : (secMtimes s segno).sum ≤ g.segsPerSec * (B - 1) := by
  refine (List.sum_le_card_nsmul _ (B - 1) fun x hx => ?_).trans (by simp [secMtimes])
  obtain ⟨i, -, rfl⟩ := List.mem_map.1 hx
  have := hm (getSecno g segno * g.segsPerSec + i)
  omega

/-- The section's mtimes, each below `B`, with `segs_per_sec · B` within `2^64`: their sum does
not wrap, and `mtime` is their exact average. -/
theorem avgMtime_toNat (hB : g.segsPerSec * B ≤ 2 ^ 64) :
    (avgMtime s segno).toNat = (secMtimes s segno).sum / g.segsPerSec := by
  have hsum := secMtimes_sum_le segno hm
  have hsps : g.segsPerSec < 2 ^ 64 := by
    have := Nat.le_mul_of_pos_right g.segsPerSec g.blocksPerSeg_pos; have := g.secBlocks_lt; omega
  have h0 : (0 : BitVec 64).toNat = 0 := rfl
  have hB1 : g.segsPerSec * (B - 1) < g.segsPerSec * B :=
    Nat.mul_lt_mul_of_pos_left (by have := hm 0; omega) g.segsPerSec_pos
  rw [avgMtime, BitVec.toNat_udiv, foldl_add_toNat, BitVec.toNat_ofNat, Nat.mod_eq_of_lt hsps, h0,
    Nat.zero_add, Nat.mod_eq_of_lt (by unfold secMtimes at hsum; omega)]
  rfl

theorem avgMtime_lt (hB : g.segsPerSec * B ≤ 2 ^ 64) : (avgMtime s segno).toNat < B := by
  rw [avgMtime_toNat segno hm hB]
  have := Nat.div_le_of_le_mul (secMtimes_sum_le segno hm)
  have := hm 0
  omega

end Average

/-- `100·(100−u)·age`, promoted to `int`, is the `Nat` product when `u ≤ 100`. -/
theorem cbProduct_eq {u age : Nat} (hu : u ≤ 100) :
    100 * (100 - (u : Int)) * age = ((100 * (100 - u) * age : Nat) : Int) := by
  push_cast [Int.ofNat_sub hu]
  rfl

theorem cbProduct_le {u age : Nat} (ha : age ≤ 100) : 100 * (100 - u) * age ≤ 10 ^ 6 :=
  calc 100 * (100 - u) * age ≤ 100 * 100 * 100 :=
        Nat.mul_le_mul (Nat.mul_le_mul_left _ (by omega)) ha
    _ = 10 ^ 6 := rfl

theorem cbTerm_le {u age : Nat} (ha : age ≤ 100) : cbTerm u age ≤ 10000 :=
  Nat.div_le_of_le_mul (by have := cbProduct_le (u := u) ha; omega)

theorem cbTerm_eq_zero {u age : Nat} (h : u = 100 ∨ age = 0) : cbTerm u age = 0 := by
  rcases h with rfl | rfl <;> simp [cbTerm]

theorem cbCostOf_eq {u age : BitVec 8} (hu : u.toNat ≤ 100) (ha : age.toNat ≤ 100) :
    cbCostOf u age = uintMax - cbTerm u.toNat age.toNat := by
  have ht := cbTerm_le (u := u.toNat) ha
  have hq : (100 * (100 - (u.toNat : Int)) * age.toNat).tdiv (100 + u.toNat) =
      (cbTerm u.toNat age.toNat : Int) := by
    rw [cbTerm, Int.ofNat_tdiv]
    push_cast [Int.ofNat_sub hu]
    rfl
  rw [cbCostOf, hq, BitVec.ofInt_natCast, BitVec.toNat_sub, BitVec.toNat_ofNat, BitVec.toNat_ofNat]
  unfold uintMax at *
  omega

end F2fsGc
