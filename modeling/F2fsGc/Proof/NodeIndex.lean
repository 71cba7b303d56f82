import F2fsGc.Model.NodeIndex

/-!
# The direct nodes tile the file

An inode's node tree is numbered in the order f2fs allocates it: `0` is the inode; `1` and `2`
are direct nodes; `3` is an indirect node, followed by its `N` direct nodes `4 … N+3`; `N+4` is
the second indirect node, followed by `N+5 … 2N+4`; `2N+5` is the double-indirect node, and
after it each of its `N` indirect nodes `2N+6+k(N+1)` is followed by its `N` direct nodes.
`isDirectNode` says which offsets are direct nodes, and `directOfs n j` is the `j`-th of them.

`start_bidx_of_node` turns a direct node's offset back into its rank `j`, and
`startBidxOfNode_directOfs` says it does so exactly, for every `N ≥ 1`. Hence the inode's
`ADDRS_PER_INODE` slots and the direct nodes' `ADDRS_PER_BLOCK` slots each tile the file's
block indices, with neither gap nor overlap (`directTile_unique`). For the constants of a
4 KiB block no step of the C computation wraps, and the 32-bit computation agrees with the
exact one (`startBidxOfNode32_directOfs`).

The one arithmetic fact behind the double-indirect range is `div_succ_add`: writing the rank
`m` there as `k·N + r`, the offset is `m + k` past the range's start, and dividing by `N + 1`
recovers `k`.
-/

set_option autoImplicit false

namespace F2fsGc

/-- Whether the node at offset `ofs` of an inode's tree is a direct node, for
`NIDS_PER_BLOCK = n`. -/
def isDirectNode (n ofs : Nat) : Bool :=
  if ofs = 0 then false
  else if ofs ≤ 2 then true
  else if ofs = 3 then false
  else if ofs ≤ n + 3 then true
  else if ofs = n + 4 then false
  else if ofs ≤ 2 * n + 4 then true
  else if ofs = 2 * n + 5 then false
  else decide (ofs < n * n + 3 * n + 6) && (ofs - (2 * n + 6)) % (n + 1) != 0

/-- The offset of the `j`-th direct node (from `0`): the two under the inode, the `n` under
each of the two indirect nodes, then for `k = m / n` the `(m % n)`-th direct node under the
`k`-th indirect node of the double-indirect node. -/
def directOfs (n j : Nat) : Nat :=
  if j < 2 then j + 1
  else if j < n + 2 then j + 2
  else if j < 2 * n + 2 then j + 3
  else 2 * n + 7 + (j - (2 * n + 2)) / n * (n + 1) + (j - (2 * n + 2)) % n

/-- How many direct nodes an inode's tree has. -/
def directCount (n : Nat) : Nat := n * n + 2 * n + 2

section Rank

variable {n : Nat}

/-- Every rank in the double-indirect range is `2n + 2 + k·n + r`: the `r`-th direct node
under the `k`-th indirect node. -/
theorem double_split (hn : 1 ≤ n) {j : Nat} (hj : 2 * n + 2 ≤ j) :
    ∃ k r, r < n ∧ j = 2 * n + 2 + k * n + r :=
  ⟨(j - (2 * n + 2)) / n, (j - (2 * n + 2)) % n, Nat.mod_lt _ (by omega), by
    have := Nat.div_add_mod (j - (2 * n + 2)) n; rw [Nat.mul_comm] at this; omega⟩

/-- A rank inside the tree passes fewer than `n` indirect nodes of the double-indirect node. -/
theorem double_k_lt {k r : Nat} (h : k * n + r < n * n) : k * n + n ≤ n * n := by
  have hk : k + 1 ≤ n := by
    by_contra hc
    have := Nat.mul_le_mul_right n (show n ≤ k by omega)
    omega
  have := Nat.mul_le_mul_right n hk
  rwa [Nat.add_one_mul] at this

/-- The `r`-th direct node under the `k`-th indirect node of the double-indirect node sits
`k + r + 1` past that range's start, `k·n` ranks later. -/
theorem directOfs_kr (hn : 1 ≤ n) (k : Nat) {r : Nat} (hr : r < n) :
    directOfs n (2 * n + 2 + k * n + r) = 2 * n + 7 + k * n + k + r := by
  have hm : 2 * n + 2 + k * n + r - (2 * n + 2) = r + k * n := by omega
  have h1 : (r + k * n) / n = k := by
    rw [Nat.add_mul_div_right _ _ (by omega : 0 < n), Nat.div_eq_of_lt hr, Nat.zero_add]
  have h2 : (r + k * n) % n = r := by rw [Nat.add_mul_mod_self_right, Nat.mod_eq_of_lt hr]
  simp (disch := omega) only [directOfs, if_neg, hm, h1, h2, Nat.mul_add_one]
  omega

/-- Seen from the node offset: past `2n + 6`, `k` whole groups of `n + 1` and `r + 1` more. -/
theorem double_ofs_sub {k r : Nat} :
    2 * n + 7 + k * n + k + r - (2 * n + 6) = r + 1 + k * (n + 1) := by
  rw [Nat.mul_add_one]; omega

theorem isDirect_kr {k r : Nat} (hr : r < n) (hk : k * n + r < n * n) :
    isDirectNode n (2 * n + 7 + k * n + k + r) = true := by
  have hkn := double_k_lt hk
  have hlt : 2 * n + 7 + k * n + k + r < n * n + 3 * n + 6 := by
    have : k < n := by
      by_contra hc; have := Nat.mul_le_mul_right n (show n ≤ k by omega); omega
    omega
  simp (disch := omega) only [isDirectNode, if_neg, double_ofs_sub, Nat.add_mul_mod_self_right,
    Nat.mod_eq_of_lt, decide_eq_true hlt, Bool.true_and, bne_iff_ne, ne_eq]
  omega

theorem directOfs_isDirect (hn : 1 ≤ n) {j : Nat} (hj : j < directCount n) :
    isDirectNode n (directOfs n j) = true := by
  unfold directCount at hj
  by_cases h2 : 2 * n + 2 ≤ j
  · obtain ⟨k, r, hr, rfl⟩ := double_split hn h2
    rw [directOfs_kr hn k hr]
    exact isDirect_kr hr (by omega)
  by_cases h1 : j < 2
  · rw [directOfs, if_pos h1, isDirectNode, if_neg (by omega), if_pos (by omega)]
  by_cases h3 : j < n + 2
  · rw [directOfs, if_neg h1, if_pos h3, isDirectNode, if_neg (by omega), if_neg (by omega),
      if_neg (by omega), if_pos (by omega)]
  · rw [directOfs, if_neg h1, if_neg h3, if_pos (by omega), isDirectNode, if_neg (by omega),
      if_neg (by omega), if_neg (by omega), if_neg (by omega), if_neg (by omega), if_pos (by omega)]

theorem directOfs_lt (hn : 1 ≤ n) {j j' : Nat} (h : j < j') : directOfs n j < directOfs n j' := by
  have hlow : ∀ {i}, i < 2 * n + 2 → directOfs n i ≤ i + 3 ∧ i + 1 ≤ directOfs n i ∧
      (∀ {i'}, i < i' → i' < 2 * n + 2 → directOfs n i < directOfs n i') := by
    intro i hi
    refine ⟨by unfold directOfs; split_ifs <;> omega, by unfold directOfs; split_ifs <;> omega,
      fun {i'} h1 h2 => ?_⟩
    unfold directOfs; split_ifs <;> omega
  by_cases h2 : 2 * n + 2 ≤ j
  · obtain ⟨k, r, hr, rfl⟩ := double_split hn h2
    obtain ⟨k', r', hr', rfl⟩ := double_split hn (show 2 * n + 2 ≤ j' by omega)
    rw [directOfs_kr hn k hr, directOfs_kr hn k' hr']
    have : k ≤ k' := by
      by_contra hc
      have := Nat.mul_le_mul_right n (show k' + 1 ≤ k by omega)
      rw [Nat.add_one_mul] at this; omega
    omega
  · by_cases h2' : 2 * n + 2 ≤ j'
    · obtain ⟨k', r', hr', rfl⟩ := double_split hn h2'
      rw [directOfs_kr hn k' hr']
      have := (hlow (by omega : j < 2 * n + 2)).1
      omega
    · exact (hlow (by omega)).2.2 h (by omega)

/-- The direct nodes: the inode's two, the `n` under each indirect node, and past the
double-indirect node every offset not a whole number of groups of `n + 1` after it. -/
theorem isDirectNode_cases {ofs : Nat} (h : isDirectNode n ofs = true) :
    1 ≤ ofs ∧ ofs ≤ 2 ∨ 4 ≤ ofs ∧ ofs ≤ n + 3 ∨ n + 5 ≤ ofs ∧ ofs ≤ 2 * n + 4 ∨
      2 * n + 6 < ofs ∧ ofs < n * n + 3 * n + 6 ∧ (ofs - (2 * n + 6)) % (n + 1) ≠ 0 := by
  unfold isDirectNode at h
  by_cases h0 : ofs = 0
  · rw [if_pos h0] at h; cases h
  by_cases h1 : ofs ≤ 2
  · omega
  by_cases h3 : ofs = 3
  · rw [if_neg h0, if_neg h1, if_pos h3] at h; cases h
  by_cases h4 : ofs ≤ n + 3
  · omega
  by_cases h5 : ofs = n + 4
  · rw [if_neg h0, if_neg h1, if_neg h3, if_neg h4, if_pos h5] at h; cases h
  by_cases h6 : ofs ≤ 2 * n + 4
  · omega
  by_cases h7 : ofs = 2 * n + 5
  · rw [if_neg h0, if_neg h1, if_neg h3, if_neg h4, if_neg h5, if_neg h6, if_pos h7] at h; cases h
  rw [if_neg h0, if_neg h1, if_neg h3, if_neg h4, if_neg h5, if_neg h6, if_neg h7] at h
  simp only [Bool.and_eq_true, decide_eq_true_eq, bne_iff_ne, ne_eq] at h
  refine .inr (.inr (.inr ⟨?_, h⟩))
  by_contra hc
  exact h.2 (by rw [show ofs - (2 * n + 6) = 0 by omega, Nat.zero_mod])

theorem exists_directOfs (hn : 1 ≤ n) {ofs : Nat} (h : isDirectNode n ofs = true) :
    ∃ j < directCount n, directOfs n j = ofs := by
  unfold directCount
  rcases isDirectNode_cases h with h | h | h | ⟨hlo, hlt, hr⟩
  · exact ⟨ofs - 1, by omega, by simp (disch := omega) only [directOfs, if_pos]; omega⟩
  · exact ⟨ofs - 2, by omega, by simp (disch := omega) only [directOfs, if_pos, if_neg]; omega⟩
  · exact ⟨ofs - 3, by omega, by simp (disch := omega) only [directOfs, if_pos, if_neg]; omega⟩
  -- `ofs - (2n + 6) = (n + 1)·k + (r + 1)` with `r < n`.
  have hq := Nat.div_add_mod (ofs - (2 * n + 6)) (n + 1)
  have hr' := Nat.mod_lt (ofs - (2 * n + 6)) (by omega : 0 < n + 1)
  generalize (ofs - (2 * n + 6)) / (n + 1) = k at hq
  generalize (ofs - (2 * n + 6)) % (n + 1) = r1 at hq hr hr'
  rw [Nat.mul_comm, Nat.mul_add_one] at hq
  have hk : k * n + (r1 - 1) < n * n := by
    have : k < n := by
      by_contra hc
      have := Nat.mul_le_mul_right (n + 1) (show n ≤ k by omega)
      rw [Nat.mul_add_one, Nat.mul_add_one] at this; omega
    have := Nat.mul_le_mul_right n (show k + 1 ≤ n by omega)
    rw [Nat.add_one_mul] at this; omega
  refine ⟨2 * n + 2 + k * n + (r1 - 1), by omega, ?_⟩
  rw [directOfs_kr hn k (by omega)]
  omega

/-- `start_bidx_of_node` of the `j`-th direct node is `j` blocks of addresses past the
inode's own. -/
theorem startBidxOfNode_directOfs (hn : 1 ≤ n) (apb api : Nat) {j : Nat}
    (hj : j < directCount n) :
    startBidxOfNode n apb api (directOfs n j) = j * apb + api := by
  unfold directCount at hj
  suffices h : ∀ d, directOfs n j = d → d ≠ 0 ∧
      (if d ≤ 2 then d - 1 else if d ≤ 2 * n + 4 then d - 2 - (d - 4) / (n + 1)
        else d - 5 - (d - (2 * n + 4) - 3) / (n + 1)) = j by
    obtain ⟨h0, hb⟩ := h _ rfl
    simp only [startBidxOfNode, h0, if_false, hb]
  intro d hd
  by_cases h2 : 2 * n + 2 ≤ j
  · obtain ⟨k, r, hr, rfl⟩ := double_split hn h2
    rw [directOfs_kr hn k hr] at hd
    subst hd
    have hdec : (2 * n + 7 + k * n + k + r - (2 * n + 4) - 3) / (n + 1) = k := by
      rw [show 2 * n + 7 + k * n + k + r - (2 * n + 4) - 3 = r + k * (n + 1) by
          rw [Nat.mul_add_one]; omega,
        Nat.add_mul_div_right _ _ (by omega), Nat.div_eq_of_lt (by omega), Nat.zero_add]
    refine ⟨by omega, ?_⟩
    simp (disch := omega) only [if_neg, hdec]
    omega
  · by_cases h1 : j < 2
    · obtain rfl : d = j + 1 := by rw [← hd]; simp (disch := omega) only [directOfs, if_pos]
      refine ⟨by omega, ?_⟩
      simp (disch := omega) only [if_pos]
      omega
    · by_cases h3 : j < n + 2
      · obtain rfl : d = j + 2 := by rw [← hd]; simp (disch := omega) only [directOfs, if_pos, if_neg]
        have hdec : (j + 2 - 4) / (n + 1) = 0 := Nat.div_eq_of_lt (by omega)
        refine ⟨by omega, ?_⟩
        simp (disch := omega) only [if_pos, if_neg, hdec]
        omega
      · obtain rfl : d = j + 3 := by rw [← hd]; simp (disch := omega) only [directOfs, if_pos, if_neg]
        have hdec : (j + 3 - 4) / (n + 1) = 1 := Nat.div_eq_of_lt_le (by omega) (by omega)
        refine ⟨by omega, ?_⟩
        simp (disch := omega) only [if_pos, if_neg, hdec]
        omega

end Rank

/-! ## Tiling -/

/-- The block indices node `ofs` maps: `ADDRS_PER_INODE` of them from `0` for the inode,
`ADDRS_PER_BLOCK` of them from `start_bidx_of_node` for a direct node. -/
def Covers (n apb api ofs i : Nat) : Prop :=
  (ofs = 0 ∨ isDirectNode n ofs = true) ∧ startBidxOfNode n apb api ofs ≤ i ∧
    i < startBidxOfNode n apb api ofs + (if ofs = 0 then api else apb)

/-- Every block index below the tree's capacity is mapped by exactly one node. -/
theorem directTile_unique {n : Nat} (hn : 1 ≤ n) (apb api : Nat) {i : Nat}
    (hi : i < api + directCount n * apb) : ∃! ofs, Covers n apb api ofs i := by
  have hnd0 : isDirectNode n 0 = false := rfl
  by_cases hin : i < api
  · refine ⟨0, ⟨.inl rfl, Nat.zero_le _, by simpa [startBidxOfNode] using hin⟩, ?_⟩
    rintro ofs ⟨hk | hk, hs, -⟩
    · exact hk
    · obtain ⟨j, hj, rfl⟩ := exists_directOfs hn hk
      rw [startBidxOfNode_directOfs hn apb api hj] at hs; omega
  · have hapb : 0 < apb := Nat.pos_of_ne_zero fun h => by subst h; omega
    have hq : (i - api) / apb < directCount n := Nat.div_lt_of_lt_mul (by rw [Nat.mul_comm]; omega)
    have hlo := Nat.div_mul_le_self (i - api) apb
    have hhi := Nat.lt_div_mul_add (a := i - api) hapb
    refine ⟨directOfs n ((i - api) / apb), ⟨.inr (directOfs_isDirect hn hq), ?_⟩, ?_⟩
    · have h0 : directOfs n ((i - api) / apb) ≠ 0 := by
        have := directOfs_isDirect hn hq; intro h; rw [h, hnd0] at this; cases this
      rw [startBidxOfNode_directOfs hn apb api hq, if_neg h0]
      omega
    · rintro ofs ⟨hk | hk, hs, hlt⟩
      · subst hk; simp [startBidxOfNode] at hlt; omega
      · obtain ⟨j, hj, rfl⟩ := exists_directOfs hn hk
        have h0 : directOfs n j ≠ 0 := by intro h; rw [h, hnd0] at hk; cases hk
        rw [startBidxOfNode_directOfs hn apb api hj] at hs hlt
        rw [if_neg h0] at hlt
        rw [Nat.div_eq_of_lt_le (show j * apb ≤ i - api by omega)
          (show i - api < (j + 1) * apb by rw [Nat.add_one_mul]; omega)]

/-! ## The node and slot of a file index -/

/-- The node of an inode's tree and the slot in it that hold file block index `i`: the inode's
own `ADDRS_PER_INODE` slots first, then each direct node's `ADDRS_PER_BLOCK`, in the order of
the tree. This is the position `get_node_path` walks to (it is in `node.c`, which is not part
of the source). -/
def indexSlot (n apb api i : Nat) : Nat × Nat :=
  if i < api then (0, i) else (directOfs n ((i - api) / apb), (i - api) % apb)

/-- `start_bidx_of_node(ofs) + s` is the file index held at slot `s` of node `ofs`, for the
inode's slots and for a direct node's. -/
theorem indexSlot_startBidxOfNode {n apb api ofs s : Nat} (hn : 1 ≤ n)
    (h : ofs = 0 ∧ s < api ∨ isDirectNode n ofs = true ∧ s < apb) :
    indexSlot n apb api (startBidxOfNode n apb api ofs + s) = (ofs, s) := by
  rcases h with ⟨rfl, hs⟩ | ⟨hd, hs⟩
  · simp [indexSlot, startBidxOfNode, hs]
  · obtain ⟨j, hj, rfl⟩ := exists_directOfs hn hd
    rw [startBidxOfNode_directOfs hn apb api hj]
    have hsub : j * apb + api + s - api = s + apb * j := by rw [Nat.mul_comm]; omega
    simp only [indexSlot, if_neg (show ¬j * apb + api + s < api by omega), hsub,
      Nat.add_mul_div_left _ _ (show 0 < apb by omega), Nat.div_eq_of_lt hs, Nat.zero_add,
      Nat.add_mul_mod_self_left, Nat.mod_eq_of_lt hs]

/-! ## At the C's widths -/

theorem isDirectNode_bounds {n ofs : Nat} (h : isDirectNode n ofs = true) :
    ofs ≠ 0 ∧ ofs ≠ 3 ∧ ofs ≠ 2 * n + 5 ∧ ofs ≠ 2 * n + 6 ∧ ofs < n * n + 3 * n + 6 := by
  rcases isDirectNode_cases h with h | h | h | h <;> omega

section Word

variable {x y : BitVec 32} {a b : Nat}

theorem toNat_sub_eq (hx : x.toNat = a) (hy : y.toNat = b) (h : b ≤ a) : (x - y).toNat = a - b := by
  rw [BitVec.toNat_sub_of_le (by rw [BitVec.le_def, hx, hy]; exact h), hx, hy]

theorem toNat_add_eq (hx : x.toNat = a) (hy : y.toNat = b) (h : a + b < 2 ^ 32) :
    (x + y).toNat = a + b := by
  rw [BitVec.toNat_add_of_lt (by rw [hx, hy]; exact h), hx, hy]

theorem toNat_mul_eq (hx : x.toNat = a) (hy : y.toNat = b) (h : a * b < 2 ^ 32) :
    (x * y).toNat = a * b := by
  rw [BitVec.toNat_mul_of_lt (by rw [hx, hy]; exact h), hx, hy]

/-- `dec = (x) / (NIDS_PER_BLOCK + 1)`, the quotient taken in `size_t`. -/
theorem toNat_dec_eq (hx : x.toNat = a) :
    ((x.setWidth 64 / BitVec.ofNat 64 (nidsPerBlock + 1)).setWidth 32).toNat = a / 1019 := by
  have := x.isLt
  simp only [BitVec.toNat_setWidth, BitVec.toNat_udiv, BitVec.toNat_ofNat, hx, nidsPerBlock,
    Nat.reduceAdd, Nat.reducePow, Nat.reduceMod]
  omega

theorem toNat_ofNat32 {n : Nat} (h : n < 2 ^ 32) : (BitVec.ofNat 32 n).toNat = n :=
  Nat.mod_eq_of_lt h

end Word

/-- For the constants of a 4 KiB block and an inode with at most 923 addresses, no step of
`start_bidx_of_node` wraps at any direct node, and the 32-bit computation is the exact one. -/
theorem startBidxOfNode32_directOfs {j api : Nat} (hj : j < directCount nidsPerBlock)
    (hapi : api ≤ 923) :
    StartBidxNoWrap nidsPerBlock addrsPerBlock api (directOfs nidsPerBlock j) ∧
      (startBidxOfNode32 (BitVec.ofNat 32 (directOfs nidsPerBlock j)) (BitVec.ofNat 32 api)).toNat =
        startBidxOfNode nidsPerBlock addrsPerBlock api (directOfs nidsPerBlock j) := by
  obtain ⟨h0, h3, h41, h42, hlt⟩ := isDirectNode_bounds (directOfs_isDirect (by decide) hj)
  generalize directOfs nidsPerBlock j = d at *
  unfold nidsPerBlock at h41 h42 hlt
  have hd := toNat_ofNat32 (show d < 2 ^ 32 by omega)
  have ha := toNat_ofNat32 (show api < 2 ^ 32 by omega)
  have c0 : ¬BitVec.ofNat 32 d = 0 := fun h => h0 (by rw [← hd, h]; rfl)
  have c1 : (BitVec.ofNat 32 d ≤ 2) = (d ≤ 2) := propext (by rw [BitVec.le_def, hd]; rfl)
  have c2 : (BitVec.ofNat 32 d ≤ BitVec.ofNat 32 (2 * 1018 + 4)) = (d ≤ 2 * 1018 + 4) :=
    propext (by rw [BitVec.le_def, hd]; rfl)
  unfold StartBidxNoWrap startBidxOfNode32 startBidxOfNode
  simp only [if_neg c0, h0, if_false, nidsPerBlock, addrsPerBlock]
  simp only [c1, c2]
  split_ifs with h1 h2
  · have hb := toNat_sub_eq (y := 1) (b := 1) hd rfl (by omega)
    exact ⟨.inr (.inl ⟨h1, by omega, by omega⟩),
      toNat_add_eq (toNat_mul_eq (b := 1018) hb rfl (by omega)) ha (by omega)⟩
  · have hb := toNat_sub_eq (toNat_sub_eq (y := 2) (b := 2) hd rfl (by omega))
      (toNat_dec_eq (toNat_sub_eq (y := 4) (b := 4) hd rfl (by omega))) (by omega)
    refine ⟨.inr (.inr (.inl ⟨by omega, h2, by omega, by omega, by omega, by omega⟩)),
      toNat_add_eq (toNat_mul_eq (b := 1018) hb rfl (by omega)) ha (by omega)⟩
  · have hb := toNat_sub_eq (toNat_sub_eq (y := 5) (b := 5) hd rfl (by omega))
      (toNat_dec_eq (toNat_sub_eq (y := 3) (b := 3)
        (toNat_sub_eq (y := BitVec.ofNat 32 (2 * 1018 + 4)) (b := 2040) hd rfl (by omega)) rfl
        (by omega))) (by omega)
    refine ⟨.inr (.inr (.inr ⟨by omega, by omega, by omega, by omega, by omega⟩)),
      toNat_add_eq (toNat_mul_eq (b := 1018) hb rfl (by omega)) ha (by omega)⟩

/-! ## The tiling -/

/-- The direct-node offsets in increasing order are `directOfs n 0 < directOfs n 1 < …`, and
`start_bidx_of_node` maps the `j`-th to `j·ADDRS_PER_BLOCK + ADDRS_PER_INODE`; the inode and
the direct nodes therefore tile the block indices; and at the C's widths, for the f2fs
constants, nothing wraps. -/
theorem startBidxOfNode_tiles (n apb api : Nat) (hn : 1 ≤ n) :
    startBidxOfNode n apb api 0 = 0 ∧
    (∀ j j', j < j' → directOfs n j < directOfs n j') ∧
    (∀ j < directCount n, isDirectNode n (directOfs n j) = true) ∧
    (∀ ofs, isDirectNode n ofs = true → ∃ j < directCount n, directOfs n j = ofs) ∧
    (∀ j < directCount n, startBidxOfNode n apb api (directOfs n j) = j * apb + api) ∧
    (∀ i < api + directCount n * apb, ∃! ofs, Covers n apb api ofs i) ∧
    (∀ j < directCount nidsPerBlock, ∀ api' ≤ 923,
      StartBidxNoWrap nidsPerBlock addrsPerBlock api' (directOfs nidsPerBlock j) ∧
      (startBidxOfNode32 (BitVec.ofNat 32 (directOfs nidsPerBlock j)) (BitVec.ofNat 32 api')).toNat =
        startBidxOfNode nidsPerBlock addrsPerBlock api' (directOfs nidsPerBlock j)) :=
  ⟨rfl, fun _ _ => directOfs_lt hn, fun _ => directOfs_isDirect hn, fun _ => exists_directOfs hn,
    fun _ => startBidxOfNode_directOfs hn apb api, fun _ => directTile_unique hn apb api,
    fun _ hj _ => startBidxOfNode32_directOfs hj⟩

/-- At the f2fs constants, the sixth direct node's first index. -/
theorem startBidxOfNode_tiles_f2fs :
    startBidxOfNode nidsPerBlock addrsPerBlock 923 (directOfs nidsPerBlock 5) =
      5 * addrsPerBlock + 923 :=
  (startBidxOfNode_tiles nidsPerBlock addrsPerBlock 923 (by decide)).2.2.2.2.1 5 (by decide)

end F2fsGc
