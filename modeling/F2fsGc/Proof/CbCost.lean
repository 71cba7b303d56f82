import F2fsGc.Model.Cost

/-!
# Cost-benefit cost is monotone — while `100·(mtime − min)` fits 64 bits

The design note says of `get_cb_cost`: "lower is better; this favors old, sparsely-valid
sections". Read as a law, an older and emptier section never costs more. Three floor divisions
(the average, `u`, `age`) and the final quotient are each monotone, so the law holds whenever
the C arithmetic computes what it means to — and `getCbCost_mono` says exactly when that is:
the SIT's range already brackets both sections' mtimes (so the call writes nothing), and
`100·(max_mtime − min_mtime)` fits an `unsigned long long`.

The second condition is not decoration. `age` multiplies the mtime offset by 100 in 64 bits
before dividing; past `2^64/100` the product wraps, and an older section can come out younger.
`getCbCost_wrap_not_mono` is such a pair: mtimes `2^58` and `2^62` in the range `[0, 2^63]`.
Mtimes are seconds, so the condition holds of every real SIT; without it, monotonicity fails.

`getCbCost_bounds` is the same condition read as a range: with every mtime and both ends of the
SIT's range below `2^64 / (100·segs_per_sec)`, no step of `get_cb_cost` wraps, and the cost lies
in `[UINT_MAX − 10000, UINT_MAX]`. The in-place update of `min_mtime`/`max_mtime` is what makes
the subtractions safe: afterwards the range brackets the section's mtime in every state
(`getCbCost_brackets`), a clock moved backwards included.
-/

set_option autoImplicit false

namespace F2fsGc

variable {g : Geometry}

/-- A call whose section lies in the SIT's range writes nothing, and its cost is the formula
over the range as it stands. -/
theorem getCbCost_of_bracket {s : Sbi g} {segno : Nat}
    (h : s.minMtime ≤ avgMtime s segno ∧ avgMtime s segno ≤ s.maxMtime) :
    getCbCost s segno =
      (cbCostOf (cbUtil s segno) (cbAge s.minMtime s.maxMtime (avgMtime s segno)), s) := by
  simp only [BitVec.le_def] at h
  have h1 : ¬avgMtime s segno < s.minMtime := by rw [BitVec.lt_def]; omega
  have h2 : ¬avgMtime s segno > s.maxMtime := by rw [gt_iff_lt, BitVec.lt_def]; omega
  simp only [getCbCost, h1, h2, if_false]

theorem cbTerm_anti {u u' a a' : Nat} (hu : u ≤ u') (ha : a' ≤ a) :
    cbTerm u' a' ≤ cbTerm u a :=
  Nat.div_le_div (Nat.mul_le_mul (Nat.mul_le_mul_left _ (by omega)) ha) (by omega) (by omega)

theorem cbUtil_mono {s : Sbi g} {x y : Nat}
    (hv : getValidBlocks s x g.segsPerSec ≤ getValidBlocks s y g.segsPerSec) :
    (cbUtil s x).toNat ≤ (cbUtil s y).toNat := by
  rw [cbUtil_toNat, cbUtil_toNat]
  exact Nat.div_le_div_right (Nat.mul_le_mul_right _ (Nat.div_le_div_right hv))

theorem cbAge_anti {minM maxM mx my : BitVec 64} (hx : minM ≤ mx ∧ mx ≤ maxM)
    (hy : minM ≤ my ∧ my ≤ maxM) (hr : 100 * (maxM.toNat - minM.toNat) < 2 ^ 64)
    (hm : mx ≤ my) : (cbAge minM maxM my).toNat ≤ (cbAge minM maxM mx).toNat := by
  rw [cbAge_toNat hx.1 hx.2 hr, cbAge_toNat hy.1 hy.2 hr]
  rw [BitVec.le_def] at hm
  split
  · exact Nat.zero_le _
  · exact Nat.sub_le_sub_left (Nat.div_le_div_right (by omega)) _

/-- An older and emptier section never costs more, in every SIT state whose range brackets
both sections and is narrower than `2^64 / 100`. -/
theorem getCbCost_mono (s : Sbi g) (x y : Nat)
    (hx : s.minMtime ≤ avgMtime s x ∧ avgMtime s x ≤ s.maxMtime)
    (hy : s.minMtime ≤ avgMtime s y ∧ avgMtime s y ≤ s.maxMtime)
    (hr : 100 * (s.maxMtime.toNat - s.minMtime.toNat) < 2 ^ 64)
    (hv : getValidBlocks s x g.segsPerSec ≤ getValidBlocks s y g.segsPerSec)
    (hm : avgMtime s x ≤ avgMtime s y) :
    (getCbCost s x).1 ≤ (getCbCost s y).1 := by
  rw [getCbCost_of_bracket hx, getCbCost_of_bracket hy,
    cbCostOf_eq (cbUtil_le s x) (cbAge_le hx.1 hx.2 hr),
    cbCostOf_eq (cbUtil_le s y) (cbAge_le hy.1 hy.2 hr)]
  exact Nat.sub_le_sub_left (cbTerm_anti (cbUtil_mono hv) (cbAge_anti hx hy hr hm)) _

/-- Sections of one segment each, two of them, two blocks a segment. -/
def oneSegSecs : Geometry := ⟨1, 1, 2, 2, by decide, by decide, by decide, by decide⟩

/-- A two-segment SIT over `oneSegSecs`: segment 0 empty with mtime `m0`, segment 1 with
`v1` blocks live (of two) and mtime `m1`, and the range `[0, maxM]`. -/
def twoSegSit (m0 m1 maxM : BitVec 64) (v1 : Nat) : Sbi oneSegSecs where
  sentries n := if n = 0 then ⟨fun _ => false, 0, m0⟩ else ⟨fun i => decide (i < v1), 0, m1⟩
  minMtime := 0
  maxMtime := maxM
  dirtySegmap _ _ := false
  nrDirty _ := 0
  victimSecmap _ := false
  lastVictim _ := 0
  curVictimSec := nullSegno
  maxVictimSearch := 0
  cursegs := []
  gcThread := none
  dirty_lt _ _ h := by simp at h

theorem getCbCost_mono_twoSeg :
    (getCbCost (twoSegSit 1 5 10 1) 0).1 ≤ (getCbCost (twoSegSit 1 5 10 1) 1).1 :=
  getCbCost_mono (twoSegSit 1 5 10 1) 0 1 (by decide) (by decide) (by decide) (by decide)
    (by decide)

/-- Mtimes `2^58` and `2^62` in the range `[0, 2^63]`: segment 0 is older and no fuller, yet
`100·2^62` wraps to `0` and segment 1 gets the larger age. -/
theorem getCbCost_wrap_not_mono :
    let s := twoSegSit (BitVec.ofNat 64 (2 ^ 58)) (BitVec.ofNat 64 (2 ^ 62))
      (BitVec.ofNat 64 (2 ^ 63)) 0
    (s.minMtime ≤ avgMtime s 0 ∧ avgMtime s 0 ≤ s.maxMtime) ∧
      (s.minMtime ≤ avgMtime s 1 ∧ avgMtime s 1 ≤ s.maxMtime) ∧
      getValidBlocks s 0 1 ≤ getValidBlocks s 1 1 ∧
      avgMtime s 0 ≤ avgMtime s 1 ∧
      (getCbCost s 1).1 < (getCbCost s 0).1 := by
  decide

/-! ## Range -/

theorem getCbCost_fst (s : Sbi g) (segno : Nat) :
    (getCbCost s segno).1 = cbCostOf (cbUtil s segno)
      (cbAge (getCbCost s segno).2.minMtime (getCbCost s segno).2.maxMtime (avgMtime s segno)) := rfl

/-- After the update the SIT's range holds the section's mtime, whatever it held before. -/
theorem getCbCost_brackets (s : Sbi g) (segno : Nat) :
    (getCbCost s segno).2.minMtime ≤ avgMtime s segno ∧
      avgMtime s segno ≤ (getCbCost s segno).2.maxMtime := by
  simp only [getCbCost, gt_iff_lt]
  constructor
  · by_cases h : avgMtime s segno < s.minMtime
    · rw [if_pos h]; exact BitVec.le_refl _
    · rw [if_neg h]; exact BitVec.not_lt.1 h
  · by_cases h : s.maxMtime < avgMtime s segno
    · rw [if_pos h]; exact BitVec.le_refl _
    · rw [if_neg h]; exact BitVec.not_lt.1 h

/-- The updated ends are the old ends or the section's mtime, so a bound on all three bounds
them. -/
theorem getCbCost_ends_lt {s : Sbi g} {segno B : Nat} (ha : (avgMtime s segno).toNat < B)
    (hmin : s.minMtime.toNat < B) (hmax : s.maxMtime.toNat < B) :
    (getCbCost s segno).2.minMtime.toNat < B ∧ (getCbCost s segno).2.maxMtime.toNat < B := by
  simp only [getCbCost]
  constructor <;> split <;> assumption

/-- With every mtime and both ends of the range below `2^64 / (100·segs_per_sec)`, nothing in
`get_cb_cost` wraps: the mtime sum is exact, `u ≤ 100`, the updated range brackets the section's
mtime so both `u64` subtractions are exact, `100·(max − min)` fits, `age ≤ 100`, the `int`
product is in `[0, 10^6]`, and the cost is within `10000` of `UINT_MAX`, and `UINT_MAX` itself
for a full or youngest section. -/
theorem getCbCost_bounds (s : Sbi g) (segno : Nat)
    (hm : ∀ i, (s.sentries i).mtime.toNat < 2 ^ 64 / (100 * g.segsPerSec))
    (hmin : s.minMtime.toNat < 2 ^ 64 / (100 * g.segsPerSec))
    (hmax : s.maxMtime.toNat < 2 ^ 64 / (100 * g.segsPerSec)) :
    let mtime := avgMtime s segno
    let u := (cbUtil s segno).toNat
    let s' := (getCbCost s segno).2
    let age := (cbAge s'.minMtime s'.maxMtime mtime).toNat
    mtime.toNat = (secMtimes s segno).sum / g.segsPerSec ∧ u ≤ 100 ∧
      (s'.minMtime ≤ mtime ∧ mtime ≤ s'.maxMtime) ∧
      (mtime - s'.minMtime).toNat = mtime.toNat - s'.minMtime.toNat ∧
      (s'.maxMtime - s'.minMtime).toNat = s'.maxMtime.toNat - s'.minMtime.toNat ∧
      mtime.toNat - s'.minMtime.toNat ≤ s'.maxMtime.toNat - s'.minMtime.toNat ∧
      100 * (s'.maxMtime.toNat - s'.minMtime.toNat) < 2 ^ 64 ∧ age ≤ 100 ∧
      (0 ≤ 100 * (100 - (u : Int)) * age ∧ 100 * (100 - (u : Int)) * age ≤ 10 ^ 6) ∧
      (uintMax - 10000 ≤ (getCbCost s segno).1 ∧ (getCbCost s segno).1 ≤ uintMax) ∧
      (u = 100 ∨ age = 0 → (getCbCost s segno).1 = uintMax) := by
  have hB : 100 * g.segsPerSec * (2 ^ 64 / (100 * g.segsPerSec)) ≤ 2 ^ 64 := Nat.mul_div_le _ _
  have hB1 : g.segsPerSec * (2 ^ 64 / (100 * g.segsPerSec)) ≤ 2 ^ 64 := by
    rw [Nat.mul_assoc] at hB; omega
  have h100 := Nat.mul_le_mul_right (2 ^ 64 / (100 * g.segsPerSec))
    (Nat.le_mul_of_pos_right 100 g.segsPerSec_pos)
  obtain ⟨h1, h2⟩ := getCbCost_brackets s segno
  obtain ⟨hlo, hhi⟩ := getCbCost_ends_lt (avgMtime_lt segno hm hB1) hmin hmax
  have hr : 100 * ((getCbCost s segno).2.maxMtime.toNat - (getCbCost s segno).2.minMtime.toNat) <
      2 ^ 64 := by omega
  have hu := cbUtil_le s segno
  have hage := cbAge_le h1 h2 hr
  have hcost := (getCbCost_fst s segno).trans (cbCostOf_eq hu hage)
  have ht := cbTerm_le (u := (cbUtil s segno).toNat) hage
  dsimp only
  refine ⟨avgMtime_toNat segno hm hB1, hu, ⟨h1, h2⟩, BitVec.toNat_sub_of_le h1,
    BitVec.toNat_sub_of_le (BitVec.le_trans h1 h2), by rw [BitVec.le_def] at h1 h2; omega, hr, hage,
    ?_, ?_, fun h => by rw [hcost, cbTerm_eq_zero h, Nat.sub_zero]⟩
  · rw [cbProduct_eq hu]
    exact ⟨Int.natCast_nonneg _, by exact_mod_cast cbProduct_le hage⟩
  · rw [hcost]; unfold uintMax at *; omega

theorem getCbCost_bounds_twoSeg :
    uintMax - 10000 ≤ (getCbCost (twoSegSit 1 5 10 1) 1).1 ∧
      (getCbCost (twoSegSit 1 5 10 1) 1).1 ≤ uintMax :=
  (getCbCost_bounds (twoSegSit 1 5 10 1) 1
    (fun i => by by_cases h : i = 0 <;> simp only [twoSegSit, h, if_true, if_false] <;> decide)
    (by decide) (by decide)).2.2.2.2.2.2.2.2.2.1

end F2fsGc
