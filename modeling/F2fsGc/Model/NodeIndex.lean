import F2fsGc.Basic

/-!
# `start_bidx_of_node`

The first file block index a node of an inode's tree maps: `0` for the inode itself, and for a
direct node its position among the direct nodes times `ADDRS_PER_BLOCK`, plus the inode's own
`ADDRS_PER_INODE`. The C recovers that position from the node offset by subtracting the
indirect and double-indirect nodes that come before it, one per `NIDS_PER_BLOCK + 1` offsets.

Two readings. `startBidxOfNode` computes over the naturals, with `NIDS_PER_BLOCK`,
`ADDRS_PER_BLOCK` and `ADDRS_PER_INODE(fi)` as parameters; it is the function's meaning when no
step wraps. `startBidxOfNode32` computes at the C's widths for the constants of a 4 KiB block:
`node_ofs`, `indirect_blks` and `bidx` are `unsigned int`, the division is by the `size_t`
`NIDS_PER_BLOCK + 1`, and `dec` is an `int`. `StartBidxNoWrap` names, step by step, the ranges
inside which the two readings agree.
-/

set_option autoImplicit false

namespace F2fsGc

/-- `NIDS_PER_BLOCK` for a 4 KiB block: `(4096 - sizeof(struct node_footer)) / sizeof(nid_t)`. -/
def nidsPerBlock : Nat := 1018

/-- `ADDRS_PER_BLOCK`. -/
def addrsPerBlock : Nat := 1018

/-- `start_bidx_of_node(node_ofs, fi)` over the naturals: `n` is `NIDS_PER_BLOCK`, `apb` is
`ADDRS_PER_BLOCK` and `api` is `ADDRS_PER_INODE(fi)`. -/
def startBidxOfNode (n apb api nodeOfs : Nat) : Nat :=
  let indirectBlks := 2 * n + 4
  if nodeOfs = 0 then 0
  else
    let bidx :=
      if nodeOfs ≤ 2 then nodeOfs - 1
      else if nodeOfs ≤ indirectBlks then nodeOfs - 2 - (nodeOfs - 4) / (n + 1)
      else nodeOfs - 5 - (nodeOfs - indirectBlks - 3) / (n + 1)
    bidx * apb + api

/-- `start_bidx_of_node` at the C's widths, for `NIDS_PER_BLOCK = ADDRS_PER_BLOCK = 1018`: the
unsigned quotient is taken in 64 bits and stored in the `int dec`, whose bits the following
`unsigned int` subtraction reads back. -/
def startBidxOfNode32 (nodeOfs api : BitVec 32) : BitVec 32 :=
  let indirectBlks : BitVec 32 := BitVec.ofNat 32 (2 * nidsPerBlock + 4)
  if nodeOfs = 0 then 0
  else
    let bidx : BitVec 32 :=
      if nodeOfs ≤ 2 then nodeOfs - 1
      else if nodeOfs ≤ indirectBlks then
        let dec : BitVec 32 :=
          ((nodeOfs - 4).setWidth 64 / BitVec.ofNat 64 (nidsPerBlock + 1)).setWidth 32
        nodeOfs - 2 - dec
      else
        let dec : BitVec 32 :=
          ((nodeOfs - indirectBlks - 3).setWidth 64 / BitVec.ofNat 64 (nidsPerBlock + 1)).setWidth 32
        nodeOfs - 5 - dec
    bidx * BitVec.ofNat 32 addrsPerBlock + api

/-- No step of `start_bidx_of_node` leaves its C type: each `unsigned int` difference is
non-negative, `dec` fits an `int`, and `bidx * ADDRS_PER_BLOCK + ADDRS_PER_INODE` fits an
`unsigned int`. -/
def StartBidxNoWrap (n apb api nodeOfs : Nat) : Prop :=
  let indirectBlks := 2 * n + 4
  nodeOfs = 0 ∨
    (nodeOfs ≤ 2 ∧ 1 ≤ nodeOfs ∧ (nodeOfs - 1) * apb + api < 2 ^ 32) ∨
    (2 < nodeOfs ∧ nodeOfs ≤ indirectBlks ∧ 4 ≤ nodeOfs ∧ (nodeOfs - 4) / (n + 1) < 2 ^ 31 ∧
      2 + (nodeOfs - 4) / (n + 1) ≤ nodeOfs ∧
      (nodeOfs - 2 - (nodeOfs - 4) / (n + 1)) * apb + api < 2 ^ 32) ∨
    (indirectBlks < nodeOfs ∧ indirectBlks + 3 ≤ nodeOfs ∧
      (nodeOfs - indirectBlks - 3) / (n + 1) < 2 ^ 31 ∧
      5 + (nodeOfs - indirectBlks - 3) / (n + 1) ≤ nodeOfs ∧
      (nodeOfs - 5 - (nodeOfs - indirectBlks - 3) / (n + 1)) * apb + api < 2 ^ 32)

end F2fsGc
