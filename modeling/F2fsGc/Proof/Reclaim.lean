import F2fsGc.Proof.Termination
import F2fsGc.Proof.NodeIndex

/-!
# A foreground collection frees its segment

`do_garbage_collect(sbi, segno, gc_list, FG_GC)` frees its segment when the segment is
consistent and the collaborators do their part. Each valid block must be the one its summary
entry names. For a data block: the entry's version is its node's NAT version, slot
`ofs_in_node` of the node holds the block's address, and the node sits at node offset `nofs k`
of inode `ino k`'s tree. For a node block: the node's NAT address is the block. The
collaborators read what they are asked to read, and `f2fs_iget` returns the in-core inode.
Relocating a data block's file index moves that block out of the segment and no other, and
`sync_node_pages` writes every dirty node page out of place. These are `DataReclaim` and
`NodeReclaim`, over an invariant `I` of the world that the collaborator calls keep.

Under them the collection returns `1`, and it relocates every valid block exactly once, in
order of offset (`doGarbageCollect_fg_reclaims`). A data block is handed over as file index
`start_bidx_of_node(nofs) + ofs_in_node` of its owning inode, and that is the index the file
maps to the block: the 32-bit computation `dataBidx` is exact for the inode's slots and a direct
node's, and by the tiling of `Proof/NodeIndex.lean` the index is held at slot `ofs_in_node` of
node `nofs` (`DataReclaim.index`). The contract on the collaborators speaks of the file's block
map (`fileBlock`), not of that computation.

Each migrator is proved one loop at a time. A loop over a segment's offsets is read through
`forUntil_range_inv`: an invariant indexed by the offsets done so far, kept by each iteration.
Phases 0 and 1 of the data migrator leave the valid blocks, the list and the relocations as
they were, and phase 2 lists the owner of every valid block (`DataPre`). Phase 3 hands every
valid block over and empties the segment (`DataPost`). The node migrator's second pass dirties
the node of every valid block (`NodeMid`), and `sync_node_pages` then empties the segment.
-/

set_option autoImplicit false

namespace F2fsGc

variable {g : Geometry} {W : Type}

/-! ## Loops over a segment's offsets -/

/-- A loop over the offsets `a, a + 1, …` whose every iteration in range continues, from a
state where `P` holds at its offset, to one where `P` holds at the next, runs to its end. -/
theorem forUntil_range'_inv {σ : Type} {body : Nat → σ → Except Fault (Bool × σ)}
    (P : Nat → σ → Prop) {n : Nat}
    (hstep : ∀ m < n, ∀ s, P m s → ∃ s', body m s = .ok (false, s') ∧ P (m + 1) s') :
    ∀ k a s, a + k ≤ n → P a s →
      ∃ s', forUntil body (List.range' a k) s = .ok (false, s') ∧ P (a + k) s'
  | 0, _, s, _, h => ⟨s, rfl, h⟩
  | k + 1, a, s, hk, h => by
    obtain ⟨s1, h1, hP1⟩ := hstep a (by omega) s h
    obtain ⟨s', h', hP'⟩ := forUntil_range'_inv P hstep k (a + 1) s1 (by omega) hP1
    refine ⟨s', ?_, by rwa [Nat.add_right_comm, Nat.add_assoc] at hP'⟩
    simp only [List.range'_succ, forUntil, h1]
    exact h'

theorem forUntil_range_inv {σ : Type} {body : Nat → σ → Except Fault (Bool × σ)}
    (P : Nat → σ → Prop) {n : Nat}
    (hstep : ∀ m < n, ∀ s, P m s → ∃ s', body m s = .ok (false, s') ∧ P (m + 1) s') {s : σ}
    (h0 : P 0 s) : ∃ s', forUntil body (List.range n) s = .ok (false, s') ∧ P n s' := by
  simpa [List.range_eq_range'] using forUntil_range'_inv P hstep n 0 s (by omega) h0

/-- The offsets below `m` whose blocks of `segno` are valid in `x`, in order. -/
def validBelow (x : World g W) (segno m : Nat) : List Nat :=
  (List.range m).filter (checkValidMap x.sbi segno)

theorem validBelow_succ (x : World g W) (segno m : Nat) :
    validBelow x segno (m + 1) =
      validBelow x segno m ++ if checkValidMap x.sbi segno m then [m] else [] := by
  unfold validBelow
  rw [List.range_succ, List.filter_append]
  cases h : checkValidMap x.sbi segno m <;> simp [List.filter, h]

/-- The data blocks a log handed to a relocation routine: segment, offset, inode, file
index. -/
def relocatedData (l : List (Event g)) : List (Nat × Nat × Inode × Nat) :=
  l.filterMap fun e => match e with
    | .migrate segno off _ i bidx _ => some (segno, off, i, bidx)
    | _ => none

/-- The node blocks a log dirtied for `sync_node_pages`: segment, offset, node. -/
def relocatedNodes (l : List (Event g)) : List (Nat × Nat × Nat) :=
  l.filterMap fun e => match e with
    | .nodeDirty segno off nid => some (segno, off, nid)
    | _ => none

@[simp] theorem relocatedData_append (l₁ l₂ : List (Event g)) :
    relocatedData (l₁ ++ l₂) = relocatedData l₁ ++ relocatedData l₂ :=
  List.filterMap_append _ _ _

@[simp] theorem relocatedNodes_append (l₁ l₂ : List (Event g)) :
    relocatedNodes (l₁ ++ l₂) = relocatedNodes l₁ ++ relocatedNodes l₂ :=
  List.filterMap_append _ _ _

/-- A segment none of whose blocks is valid is reclaimed. -/
theorem reclaimedOne_of_none_valid {s : Sbi g} {segno : Nat}
    (h : ∀ k < g.blocksPerSeg, checkValidMap s segno k = false) : reclaimedOne s segno = 1 := by
  have h0 : getValidBlocks s segno 1 = 0 := by
    simp only [getValidBlocks, lt_irrefl, if_false, SegEntry.validBlocks, popcount]
    exact List.countP_eq_zero.2 fun k hk => by simpa using h k (List.mem_range.1 hk)
  simp [reclaimedOne, h0]

/-! ## The file's block map -/

/-- The block a file maps at index `i`, read off its node tree: `node ofs` is the page at node
offset `ofs` of the tree, and the block is the address in the slot `indexSlot` gives, for an
inode with `api` addresses. -/
def fileBlock (node : Nat → Option NodePage) (api i : Nat) : Option Nat :=
  (node (indexSlot nidsPerBlock addrsPerBlock api i).1).map
    fun page => page.addrs (indexSlot nidsPerBlock addrsPerBlock api i).2

/-- For the inode's slots and a direct node's, and an inode with at most 923 addresses, the
32-bit `start_bidx_of_node(nofs) + ofs_in_node` is the exact sum. -/
theorem dataBidx_eq {nofs s : Nat} {i : Inode} (hapi : i.addrsPerInode ≤ 923)
    (h : nofs = 0 ∧ s < i.addrsPerInode ∨ isDirectNode nidsPerBlock nofs = true ∧ s < addrsPerBlock) :
    dataBidx nofs i s = startBidxOfNode nidsPerBlock addrsPerBlock i.addrsPerInode nofs + s := by
  unfold dataBidx
  rcases h with ⟨rfl, hs⟩ | ⟨hd, hs⟩
  · simp only [startBidxOfNode32, startBidxOfNode, if_true, BitVec.ofNat_eq_ofNat, BitVec.zero_add,
      BitVec.toNat_ofNat, Nat.zero_add]
    exact Nat.mod_eq_of_lt (by omega)
  · obtain ⟨j, hj, rfl⟩ := exists_directOfs (by decide) hd
    have hj' : j < 1038362 := hj
    rw [BitVec.toNat_add, (startBidxOfNode32_directOfs hj hapi).2,
      startBidxOfNode_directOfs (by decide) _ _ hj, BitVec.toNat_ofNat]
    unfold addrsPerBlock at hs ⊢
    rw [Nat.mod_eq_of_lt (show s < 2 ^ 32 by omega), Nat.mod_eq_of_lt (by omega)]

/-! ## What the collaborators must do -/

section Contract

variable (I : World g W → Prop) (segno : Nat)

/-- `y` keeps the invariant and the valid blocks of `segno`. -/
def Keeps (x y : World g W) : Prop :=
  I y ∧ checkValidMap y.sbi segno = checkValidMap x.sbi segno

/-- `y` keeps the invariant, and of the blocks of `segno` only block `k` has left. -/
def Evicts (k : Nat) (x y : World g W) : Prop :=
  I y ∧ checkValidMap y.sbi segno k = false ∧
    ∀ k', k' ≠ k → checkValidMap y.sbi segno k' = checkValidMap x.sbi segno k'

end Contract

/-- A data segment that a foreground collection can free (module doc): the summary `sum`,
and for each block `k` its owner `ino k` and node offset `nofs k`; `inodeOf` is the in-core
inode of each `ino`, and `tree x ino ofs` the page at node offset `ofs` of inode `ino`'s tree in
`x`. -/
structure DataReclaim (env : Env g W) (segno : Nat) (sum : SumBlock) (I : World g W → Prop)
    (ino nofs : Nat → Nat) (inodeOf : Nat → Inode) (tree : World g W → Nat → Nat → Option NodePage) :
    Prop where
  /-- Each valid block is the one its summary entry names: slot `ofs_in_node` of the entry's
  node, which is the node at offset `nofs k` of inode `ino k`'s tree, the inode itself or a
  direct node, and has that slot. -/
  owned : ∀ x, I x → ∀ k < g.blocksPerSeg, checkValidMap x.sbi segno k = true →
    ∃ page, (env.getNodePage x (sum.entries k).nid).1 = some page ∧
      page.addrs (sum.entries k).ofsInNode = blockAddr env segno k ∧ page.ofsOfNode = nofs k ∧
      (env.getNodeInfo (env.getNodePage x (sum.entries k).nid).2 (sum.entries k).nid).version =
        (sum.entries k).version ∧
      (env.getNodeInfo (env.getNodePage x (sum.entries k).nid).2 (sum.entries k).nid).ino = ino k ∧
      tree x (ino k) (nofs k) = some page ∧
      (nofs k = 0 ∧ (sum.entries k).ofsInNode < (inodeOf (ino k)).addrsPerInode ∨
        isDirectNode nidsPerBlock (nofs k) = true ∧ (sum.entries k).ofsInNode < addrsPerBlock)
  nodePage : ∀ x nid, I x → Keeps I segno x (env.getNodePage x nid).2
  /-- `f2fs_iget` returns the in-core inode, which is good. -/
  iget : ∀ x held n, I x → (env.iget x held n).1 = some (inodeOf n) ∧ Keeps I segno x (env.iget x held n).2
  inodeOf_ino : ∀ n, (inodeOf n).ino = n
  inodeOf_good : ∀ n, (inodeOf n).bad = false
  /-- `ADDRS_PER_INODE` is at most `DEF_ADDRS_PER_INODE`. -/
  inodeOf_addrs : ∀ n, (inodeOf n).addrsPerInode ≤ 923
  iput : ∀ x i, I x → Keeps I segno x (env.iput x i)
  /-- `get_read_data_page` succeeds. -/
  readPage : ∀ x i bidx, I x →
    (env.getReadDataPage x i bidx).1.isSome ∧ Keeps I segno x (env.getReadDataPage x i bidx).2
  /-- Relocating a file index that the file maps to block `k` moves block `k`, and no other,
  out of the segment. -/
  move : ∀ x, I x → ∀ k < g.blocksPerSeg, checkValidMap x.sbi segno k = true → ∀ i idx,
    fileBlock (tree x i.ino) i.addrsPerInode idx = some (blockAddr env segno k) →
    Evicts I segno k x (env.moveDataPage x i idx .fg) ∧ Evicts I segno k x (env.moveEncryptedBlock x i idx)
  /-- `f2fs_submit_merged_bio` makes no block of the segment valid. -/
  submit : ∀ x, I x → ∀ k < g.blocksPerSeg,
    checkValidMap (env.submitMergedBio x).sbi segno k = true → checkValidMap x.sbi segno k = true

/-- A node segment that a foreground collection can free (module doc); `Dirty x nid` is that
node `nid`'s page is dirty in `x`. -/
structure NodeReclaim (env : Env g W) (segno : Nat) (sum : SumBlock) (I : World g W → Prop)
    (Dirty : World g W → Nat → Prop) : Prop where
  /-- Each valid block is the node its summary entry names. -/
  owned : ∀ x, I x → ∀ k < g.blocksPerSeg, checkValidMap x.sbi segno k = true →
    (env.getNodePage x (sum.entries k).nid).1.isSome ∧
      (env.getNodeInfo (env.getNodePage x (sum.entries k).nid).2 (sum.entries k).nid).blkAddr =
        blockAddr env segno k
  nodePage : ∀ x nid, I x →
    Keeps I segno x (env.getNodePage x nid).2 ∧ ∀ n, Dirty x n → Dirty (env.getNodePage x nid).2 n
  wait : ∀ x nid, I x →
    Keeps I segno x (env.waitOnPageWriteback x nid) ∧ ∀ n, Dirty x n → Dirty (env.waitOnPageWriteback x nid) n
  dirty : ∀ x nid, I x →
    Keeps I segno x (env.setPageDirty x nid) ∧ ∀ n, n = nid ∨ Dirty x n → Dirty (env.setPageDirty x nid) n
  /-- `sync_node_pages` writes every dirty node page out of place: a block of the segment is
  still valid after it only if it was valid and its node page clean. -/
  sync : ∀ x, I x → ∀ k < g.blocksPerSeg, checkValidMap (env.syncNodePages x).sbi segno k = true →
    checkValidMap x.sbi segno k = true ∧ ¬Dirty x (sum.entries k).nid

theorem Keeps.trans {I : World g W → Prop} {segno : Nat} {x y z : World g W}
    (h : Keeps I segno x y) (h' : Keeps I segno y z) : Keeps I segno x z :=
  ⟨h'.1, h'.2.trans h.2⟩

/-- Every listed inode is the in-core inode of its `ino`. -/
def Coherent (inodeOf : Nat → Inode) (l : GcInodeList) : Prop :=
  ∀ n j, l.iroot n = some j → j = inodeOf n

/-- `add_gc_inode` of the in-core inode: it is listed afterwards, whether it was listed
already (and its new reference given back) or not; what was listed stays listed. -/
theorem addGcInode_coherent (env : Env g W) {inodeOf : Nat → Inode} {i : Inode} {r : GcState g W}
    (hcoh : Coherent inodeOf r.gcList) (hi : i = inodeOf i.ino) :
    ∃ r', addGcInode env i r = .ok r' ∧ Coherent inodeOf r'.gcList ∧
      r'.gcList.iroot i.ino = some i ∧
      (∀ n, r.gcList.iroot n = some (inodeOf n) → r'.gcList.iroot n = some (inodeOf n)) ∧
      (r'.world = r.world ∨ r'.world = env.iput r.world i) ∧ relocatedData r'.log = relocatedData r.log := by
  unfold addGcInode findGcInode
  rcases hl : r.gcList.iroot i.ino with _ | j
  · refine ⟨_, rfl, fun n j' h => ?_, by simp, fun n h => ?_, .inl rfl, rfl⟩
    · dsimp only at h
      by_cases hn : n = i.ino
      · subst hn; simp only [Function.update_same, Option.some.injEq] at h; rw [← h]; exact hi
      · rw [Function.update_noteq hn] at h; exact hcoh n j' h
    · dsimp only
      by_cases hn : n = i.ino
      · subst hn; rw [hl] at h; cases h
      · rw [Function.update_noteq hn]; exact h
  · obtain rfl : j = i := (hcoh _ _ hl).trans hi.symm
    exact ⟨_, if_pos rfl, hcoh, hl, fun _ h => h, .inr rfl, by simp [iputR, relocatedData]⟩

/-- The data migrator before phase 3, against the world `x0` it started from and the data
relocations `rl` logged before it: the world keeps the invariant and `segno`'s valid blocks,
nothing is relocated, and the owners of the valid blocks below `m` are listed. -/
structure DataPre (I : World g W → Prop) (segno : Nat) (ino : Nat → Nat) (inodeOf : Nat → Inode)
    (x0 : World g W) (rl : List (Nat × Nat × Inode × Nat)) (m : Nat) (st : DataSt g W) : Prop where
  keeps : Keeps I segno x0 st.run.world
  log : relocatedData st.run.log = rl
  coherent : Coherent inodeOf st.run.gcList
  listed : ∀ k < m, checkValidMap x0.sbi segno k = true →
    st.run.gcList.iroot (ino k) = some (inodeOf (ino k))

/-- Phase 3 of the data migrator, having handed over the valid blocks below `m`: those are
no longer valid, the others are, and each was handed over as `tgt` says. -/
structure DataPost (I : World g W → Prop) (segno : Nat) (ino : Nat → Nat) (inodeOf : Nat → Inode)
    (x0 : World g W) (rl : List (Nat × Nat × Inode × Nat)) (tgt : Nat → Nat × Nat × Inode × Nat)
    (m : Nat) (st : DataSt g W) : Prop where
  inv : I st.run.world
  valid : ∀ k < g.blocksPerSeg,
    checkValidMap st.run.world.sbi segno k = (decide (m ≤ k) && checkValidMap x0.sbi segno k)
  log : relocatedData st.run.log = rl ++ (validBelow x0 segno m).map tgt
  listed : ∀ k < g.blocksPerSeg, checkValidMap x0.sbi segno k = true →
    st.run.gcList.iroot (ino k) = some (inodeOf (ino k))

section Invariants

variable {I : World g W → Prop} {segno : Nat} {ino : Nat → Nat} {inodeOf : Nat → Inode}
  {x0 : World g W} {rl : List (Nat × Nat × Inode × Nat)} {m : Nat} {st : DataSt g W}

theorem DataPre.setWorld (h : DataPre I segno ino inodeOf x0 rl m st) {y : World g W}
    (hy : Keeps I segno st.run.world y) :
    DataPre I segno ino inodeOf x0 rl m { st with run := st.run.setWorld y } :=
  ⟨h.keeps.trans hy, h.log, h.coherent, h.listed⟩

theorem DataPre.skip (h : DataPre I segno ino inodeOf x0 rl m st)
    (hv : checkValidMap st.run.world.sbi segno m = false) :
    DataPre I segno ino inodeOf x0 rl (m + 1) st := by
  refine ⟨h.keeps, h.log, h.coherent, fun k hk hk0 => ?_⟩
  rcases Nat.lt_succ_iff_lt_or_eq.1 hk with hk | rfl
  · exact h.listed k hk hk0
  · rw [← h.keeps.2, hv] at hk0; cases hk0

theorem DataPre.post (h : DataPre I segno ino inodeOf x0 rl g.blocksPerSeg st)
    (tgt : Nat → Nat × Nat × Inode × Nat) : DataPost I segno ino inodeOf x0 rl tgt 0 st :=
  ⟨h.keeps.1, fun k _ => by simp [h.keeps.2], by simp [h.log, validBelow], h.listed⟩

end Invariants

/-! ## The data migrator -/

section Data

variable {env : Env g W} {segno : Nat} {sum : SumBlock} {I : World g W → Prop}
  {ino nofs : Nat → Nat} {inodeOf : Nat → Inode} {tree : World g W → Nat → Nat → Option NodePage}
  {x0 : World g W} {rl : List (Nat × Nat × Inode × Nat)} {m : Nat} {st : DataSt g W}
  {readPage : Nat → Inode → Nat → DataSt g W → Except Fault (DataSt g W)}
  {migrate : Nat → Inode → Nat → World g W → Migration × World g W}

/-- The loop's iterations for an invalid block do nothing. -/
theorem gcDataOffset_invalid {phase : Nat} (h : checkValidMap st.run.world.sbi segno m = false) :
    gcDataOffset readPage migrate env sum segno .fg phase m st = .ok (false, st) := by
  unfold gcDataOffset
  rw [if_neg (fun h => nomatch h.1), if_pos h]

/-- The loop's iterations for a live block after phase 0. -/
theorem gcDataOffset_alive {phase : Nat} (hv : checkValidMap st.run.world.sbi segno m = true)
    (hp : phase ≠ 0) {dni : NodeInfo} {n : Nat} {x : World g W}
    (ha : isAlive env st.run.world (sum.entries m) (blockAddr env segno m) = (some (dni, n), x)) :
    gcDataOffset readPage migrate env sum segno .fg phase m st =
      if phase = 1 then .ok (false, { st with run := st.run.setWorld x })
      else if phase = 2 then
        (gcDataPhase2 readPage env m (sum.entries m) dni n { st with run := st.run.setWorld x }).map
          fun st => (false, st)
      else .ok (false, gcDataPhase3 migrate env segno m (sum.entries m) dni n
        { st with run := st.run.setWorld x }) := by
  unfold gcDataOffset
  rw [if_neg (fun h => nomatch h.1), if_neg (by simp [hv]), if_neg hp, ha]

/-- Phase 0 of the foreground loop only reads ahead. -/
theorem gcDataOffset_phase0 (st : DataSt g W) :
    gcDataOffset readPage migrate env sum segno .fg 0 m st = .ok (false, st) := by
  unfold gcDataOffset
  rw [if_neg (fun h => nomatch h.1)]
  by_cases hv : checkValidMap st.run.world.sbi segno m = false
  · rw [if_pos hv]
  · rw [if_neg hv, if_pos rfl]

variable (hc : DataReclaim env segno sum I ino nofs inodeOf tree)
include hc

/-- `is_alive` finds every valid block alive, in its owner's node at `nofs k`. -/
theorem DataReclaim.alive {x : World g W} (hx : I x) {k : Nat} (hk : k < g.blocksPerSeg)
    (hv : checkValidMap x.sbi segno k = true) :
    ∃ dni, isAlive env x (sum.entries k) (blockAddr env segno k) =
      (some (dni, nofs k), (env.getNodePage x (sum.entries k).nid).2) ∧ dni.ino = ino k := by
  obtain ⟨page, hp, ha, ho, hver, hino, -⟩ := hc.owned x hx k hk hv
  refine ⟨_, ?_, hino⟩
  unfold isAlive
  rcases hP : env.getNodePage x (sum.entries k).nid with ⟨_ | page', x'⟩
  · rw [hP] at hp; cases hp
  · rw [hP] at hp hver
    cases hp
    dsimp only at hver ⊢
    rw [if_neg (not_not.2 hver.symm), if_neg (not_not.2 ha), ho]

/-- The file index the migrators compute for a valid block `k` is
`start_bidx_of_node(nofs k) + ofs_in_node` exactly, and the file maps that index to block `k`:
by the tiling, it is the index held at slot `ofs_in_node` of node `nofs k`. -/
theorem DataReclaim.index {x : World g W} (hx : I x) {k : Nat} (hk : k < g.blocksPerSeg)
    (hv : checkValidMap x.sbi segno k = true) :
    dataBidx (nofs k) (inodeOf (ino k)) (sum.entries k).ofsInNode =
        startBidxOfNode nidsPerBlock addrsPerBlock (inodeOf (ino k)).addrsPerInode (nofs k) +
          (sum.entries k).ofsInNode ∧
      fileBlock (tree x (ino k)) (inodeOf (ino k)).addrsPerInode
          (startBidxOfNode nidsPerBlock addrsPerBlock (inodeOf (ino k)).addrsPerInode (nofs k) +
            (sum.entries k).ofsInNode) = some (blockAddr env segno k) := by
  obtain ⟨page, -, ha, -, -, -, ht, hslot⟩ := hc.owned x hx k hk hv
  refine ⟨dataBidx_eq (hc.inodeOf_addrs _) hslot, ?_⟩
  rw [fileBlock, indexSlot_startBidxOfNode (by decide) hslot, ht]
  exact congrArg some ha

/-- `add_gc_inode` of the owner of a valid block `m` lists it. -/
theorem DataReclaim.add (hpre : DataPre I segno ino inodeOf x0 rl m st) :
    ∃ r', addGcInode env (inodeOf (ino m)) st.run = .ok r' ∧
      DataPre I segno ino inodeOf x0 rl (m + 1) { st with run := r' } := by
  obtain ⟨r', hadd, hcoh, hin, hkeep, hw, hlog⟩ :=
    addGcInode_coherent env (i := inodeOf (ino m)) hpre.coherent (by rw [hc.inodeOf_ino])
  refine ⟨r', hadd, ⟨?_, hlog.trans hpre.log, hcoh, fun k hk hv => ?_⟩⟩
  · rcases hw with hw | hw <;> rw [hw]
    · exact hpre.keeps
    · exact hpre.keeps.trans (hc.iput _ _ hpre.keeps.1)
  · rcases Nat.lt_succ_iff_lt_or_eq.1 hk with hk | rfl
    · exact hkeep _ (hpre.listed k hk hv)
    · rwa [hc.inodeOf_ino] at hin

/-- Phase 2 for a live block `m`: `f2fs_iget` returns its owner, and reading the page lists
it. -/
theorem DataReclaim.phase2 (hpre : DataPre I segno ino inodeOf x0 rl m st) {dni : NodeInfo}
    (hdni : dni.ino = ino m) (n : Nat) :
    ∃ st', gcDataPhase2 (gcDataReadFG env) env m (sum.entries m) dni n st = .ok st' ∧
      DataPre I segno ino inodeOf x0 rl (m + 1) st' := by
  obtain ⟨hget, hkeep⟩ := hc.iget st.run.world st.run.held (ino m) hpre.keeps.1
  unfold gcDataPhase2 igetR
  rw [hdni]
  rcases hI : env.iget st.run.world st.run.held (ino m) with ⟨_ | i, x⟩ <;>
    rw [hI] at hget hkeep <;> cases hget
  have hpre2 : DataPre I segno ino inodeOf x0 rl m { st with run := ⟨x, st.run.gcList,
      st.run.held ++ [inodeOf (ino m)], st.run.log ++ [.iget (inodeOf (ino m))]⟩ } :=
    ⟨hpre.keeps.trans hkeep, by rw [relocatedData_append, hpre.log]; exact List.append_nil rl,
      hpre.coherent, hpre.listed⟩
  dsimp only
  rw [hc.inodeOf_good]
  simp only [Bool.false_eq_true, if_false]
  split_ifs
  · obtain ⟨r', hadd, hpost⟩ := hc.add hpre2
    exact ⟨_, by rw [hadd]; rfl, hpost⟩
  · obtain ⟨hsome, hk⟩ := hc.readPage x (inodeOf (ino m))
      (dataBidx n (inodeOf (ino m)) (sum.entries m).ofsInNode) hpre2.keeps.1
    unfold gcDataReadFG
    dsimp only
    rcases hR : env.getReadDataPage x (inodeOf (ino m))
      (dataBidx n (inodeOf (ino m)) (sum.entries m).ofsInNode) with ⟨_ | pg, x'⟩ <;>
      rw [hR] at hsome hk <;> cases hsome
    obtain ⟨r', hadd, hpost⟩ := hc.add (hpre2.setWorld hk)
    exact ⟨_, by dsimp only; rw [hadd]; rfl, hpost⟩

theorem DataReclaim.phase1_step (hm : m < g.blocksPerSeg)
    (hpre : DataPre I segno ino inodeOf x0 rl 0 st) :
    ∃ st', gcDataOffset (gcDataReadFG env) (gcDataMoveFG env .fg) env sum segno .fg 1 m st =
      .ok (false, st') ∧ DataPre I segno ino inodeOf x0 rl 0 st' := by
  cases hv : checkValidMap st.run.world.sbi segno m
  · exact ⟨st, gcDataOffset_invalid hv, hpre⟩
  · obtain ⟨dni, ha, -⟩ := hc.alive hpre.keeps.1 hm hv
    rw [gcDataOffset_alive hv (by decide) ha, if_pos rfl]
    exact ⟨_, rfl, hpre.setWorld (hc.nodePage _ _ hpre.keeps.1)⟩

theorem DataReclaim.phase2_step (hm : m < g.blocksPerSeg)
    (hpre : DataPre I segno ino inodeOf x0 rl m st) :
    ∃ st', gcDataOffset (gcDataReadFG env) (gcDataMoveFG env .fg) env sum segno .fg 2 m st =
      .ok (false, st') ∧ DataPre I segno ino inodeOf x0 rl (m + 1) st' := by
  cases hv : checkValidMap st.run.world.sbi segno m
  · exact ⟨st, gcDataOffset_invalid hv, hpre.skip hv⟩
  · obtain ⟨dni, ha, hdni⟩ := hc.alive hpre.keeps.1 hm hv
    rw [gcDataOffset_alive hv (by decide) ha, if_neg (by decide), if_pos rfl]
    obtain ⟨st', h2, hpost⟩ := hc.phase2 (hpre.setWorld (hc.nodePage _ _ hpre.keeps.1)) hdni (nofs m)
    exact ⟨st', by rw [h2]; rfl, hpost⟩

/-- Phase 3 for block `m`: a valid block is handed over, as file index `dataBidx` of its
owner, and leaves the segment. -/
theorem DataReclaim.phase3_step (hm : m < g.blocksPerSeg)
    (hpost : DataPost I segno ino inodeOf x0 rl (fun k => (segno, k, inodeOf (ino k),
      dataBidx (nofs k) (inodeOf (ino k)) (sum.entries k).ofsInNode)) m st) :
    ∃ st', gcDataOffset (gcDataReadFG env) (gcDataMoveFG env .fg) env sum segno .fg 3 m st =
      .ok (false, st') ∧ DataPost I segno ino inodeOf x0 rl (fun k => (segno, k, inodeOf (ino k),
        dataBidx (nofs k) (inodeOf (ino k)) (sum.entries k).ofsInNode)) (m + 1) st' := by
  have hvm : checkValidMap st.run.world.sbi segno m = checkValidMap x0.sbi segno m := by
    simpa using hpost.valid m hm
  have later : ∀ k, k ≠ m → decide (m ≤ k) = decide (m + 1 ≤ k) := fun k hk => by
    simp only [decide_eq_decide]; omega
  cases hv : checkValidMap x0.sbi segno m
  · refine ⟨st, gcDataOffset_invalid (hvm.trans hv), hpost.inv, fun k hk => ?_, ?_, hpost.listed⟩
    · rw [hpost.valid k hk]
      by_cases hkm : k = m
      · subst hkm; simp [hv]
      · rw [later k hkm]
    · rw [validBelow_succ, hv, hpost.log]; simp
  · obtain ⟨dni, ha, hdni⟩ := hc.alive hpost.inv hm (hvm.trans hv)
    have hk1 := hc.nodePage st.run.world (sum.entries m).nid hpost.inv
    have hvy : checkValidMap (env.getNodePage st.run.world (sum.entries m).nid).2.sbi segno m = true := by
      rw [hk1.2, hvm, hv]
    obtain ⟨hidx, hmap⟩ := hc.index hk1.1 hm hvy
    have hmv := hc.move _ hk1.1 m hm hvy (inodeOf (ino m))
      (dataBidx (nofs m) (inodeOf (ino m)) (sum.entries m).ofsInNode)
      (by rw [hc.inodeOf_ino, hidx]; exact hmap)
    rw [gcDataOffset_alive (hvm.trans hv) (by decide) ha, if_neg (by decide), if_neg (by decide)]
    refine ⟨_, rfl, ?_⟩
    unfold gcDataPhase3 findGcInode
    dsimp only [GcState.setWorld]
    rw [hdni, hpost.listed m hm hv]
    dsimp only
    have key : ∀ how y, Evicts I segno m (env.getNodePage st.run.world (sum.entries m).nid).2 y →
        DataPost I segno ino inodeOf x0 rl (fun k => (segno, k, inodeOf (ino k),
          dataBidx (nofs k) (inodeOf (ino k)) (sum.entries k).ofsInNode)) (m + 1)
          { st with
            run := (st.run.setWorld y).emit (.migrate segno m how (inodeOf (ino m))
              (dataBidx (nofs m) (inodeOf (ino m)) (sum.entries m).ofsInNode) (st.array m)) } := by
      intro how y hy
      refine ⟨hy.1, fun k hk => ?_, ?_, hpost.listed⟩
      · by_cases hkm : k = m
        · subst hkm; simp [GcState.emit, GcState.setWorld, hy.2.1]
        · dsimp only [GcState.emit, GcState.setWorld]
          rw [hy.2.2 k hkm, hk1.2, hpost.valid k hk, later k hkm]
      · dsimp only [GcState.emit, GcState.setWorld]
        rw [relocatedData_append, hpost.log, validBelow_succ, hv, if_pos rfl, List.map_append,
          List.append_assoc]
        rfl
    split_ifs
    · exact key _ _ hmv.2
    · exact key _ _ hmv.1

/-- `gc_data_segment_FG` under the contract frees the segment, and hands over its valid blocks
in order of offset. -/
theorem DataReclaim.segment {r : GcState g W} (hI : I r.world) (hcoh : Coherent inodeOf r.gcList) :
    ∃ r', gcDataSegmentFG env sum segno .fg r = .ok (1, r') ∧
      relocatedData r'.log = relocatedData r.log ++ (validBelow r.world segno g.blocksPerSeg).map
        fun k => (segno, k, inodeOf (ino k), dataBidx (nofs k) (inodeOf (ino k)) (sum.entries k).ofsInNode) := by
  have h0 : DataPre I segno ino inodeOf r.world (relocatedData r.log) 0 ⟨r, fun _ => 0⟩ :=
    ⟨⟨hI, rfl⟩, rfl, hcoh, fun k hk => absurd hk (Nat.not_lt_zero k)⟩
  obtain ⟨s1, h1, p1⟩ : ∃ s1, forUntil (gcDataOffset (gcDataReadFG env) (gcDataMoveFG env .fg) env
      sum segno .fg 0) (List.range g.blocksPerSeg) ⟨r, fun _ => 0⟩ = .ok (false, s1) ∧
      DataPre I segno ino inodeOf r.world _ 0 s1 :=
    forUntil_range_inv (fun _ st => DataPre I segno ino inodeOf r.world _ 0 st)
      (fun _ _ st h => ⟨st, gcDataOffset_phase0 st, h⟩) h0
  obtain ⟨s2, h2, p2⟩ := forUntil_range_inv (fun _ st => DataPre I segno ino inodeOf r.world _ 0 st)
    (fun _ hm _ h => hc.phase1_step hm h) p1
  obtain ⟨s3, h3, p3⟩ := forUntil_range_inv (DataPre I segno ino inodeOf r.world _)
    (fun _ hm _ h => hc.phase2_step hm h) p2
  obtain ⟨s4, h4, p4⟩ := forUntil_range_inv (DataPost I segno ino inodeOf r.world _ _)
    (fun _ hm _ h => hc.phase3_step hm h) (p3.post _)
  have hnone : ∀ k < g.blocksPerSeg,
      checkValidMap (env.submitMergedBio s4.run.world).sbi segno k = false := fun k hk => by
    cases hs : checkValidMap (env.submitMergedBio s4.run.world).sbi segno k
    · rfl
    · have := hc.submit _ p4.inv k hk hs
      simp [p4.valid k hk, Nat.not_le.2 hk] at this
  refine ⟨s4.run.setWorld (env.submitMergedBio s4.run.world), ?_, p4.log⟩
  unfold gcDataSegmentFG gcDataSegmentWith
  simp only [forUntil, h1, h2, h3, h4, if_true]
  dsimp only [GcState.setWorld]
  rw [reclaimedOne_of_none_valid hnone]

end Data

/-! ## The node migrator -/

/-- The node migrator's second pass, from the world `x0` with the node relocations `rn` logged
before it, having dirtied the nodes of the valid blocks below `m`. -/
structure NodeMid (I : World g W → Prop) (Dirty : World g W → Nat → Prop) (segno : Nat)
    (sum : SumBlock) (x0 : World g W) (rn : List (Nat × Nat × Nat)) (m : Nat) (r : GcState g W) :
    Prop where
  keeps : Keeps I segno x0 r.world
  dirty : ∀ k < m, checkValidMap x0.sbi segno k = true → Dirty r.world (sum.entries k).nid
  log : relocatedNodes r.log = rn ++ (validBelow x0 segno m).map fun k => (segno, k, (sum.entries k).nid)

section Node

variable {env : Env g W} {segno : Nat} {sum : SumBlock} {I : World g W → Prop}
  {Dirty : World g W → Nat → Prop}

/-- The readahead pass of the foreground node loop changes nothing. -/
theorem gcNodeOffset_initial (off : Nat) (r : GcState g W) :
    gcNodeOffset env sum segno .fg true off r = .ok (false, r) := by
  unfold gcNodeOffset
  rw [if_neg (fun h => nomatch h.1)]
  by_cases hv : checkValidMap r.world.sbi segno off = false
  · rw [if_pos hv]
  · rw [if_neg hv, if_pos rfl]

variable (hc : NodeReclaim env segno sum I Dirty)
include hc

/-- An iteration of the second pass dirties the node of a valid block. -/
theorem NodeReclaim.step {x0 : World g W} {rn : List (Nat × Nat × Nat)} {m : Nat}
    (hm : m < g.blocksPerSeg) {r : GcState g W} (h : NodeMid I Dirty segno sum x0 rn m r) :
    ∃ r', gcNodeOffset env sum segno .fg false m r = .ok (false, r') ∧
      NodeMid I Dirty segno sum x0 rn (m + 1) r' := by
  unfold gcNodeOffset
  rw [if_neg (fun h => nomatch h.1)]
  cases hv : checkValidMap x0.sbi segno m
  · have hv' : checkValidMap r.world.sbi segno m = false := by rw [h.keeps.2, hv]
    refine ⟨r, by rw [if_pos hv'], h.keeps, fun k hk hk0 => ?_, ?_⟩
    · rcases Nat.lt_succ_iff_lt_or_eq.1 hk with hk | rfl
      · exact h.dirty k hk hk0
      · rw [hv] at hk0; cases hk0
    · rw [validBelow_succ, hv, h.log]; simp
  · have hv' : checkValidMap r.world.sbi segno m = true := by rw [h.keeps.2, hv]
    obtain ⟨hsome, haddr⟩ := hc.owned _ h.keeps.1 m hm hv'
    obtain ⟨hk1, hd1⟩ := hc.nodePage r.world (sum.entries m).nid h.keeps.1
    rw [if_neg (by rw [hv']; exact Bool.noConfusion), if_neg Bool.noConfusion]
    dsimp only
    rcases hP : env.getNodePage r.world (sum.entries m).nid with ⟨_ | page, x⟩ <;>
      rw [hP] at hsome haddr hk1 hd1 <;> cases hsome
    obtain ⟨hk2, hd2⟩ := hc.wait x (sum.entries m).nid hk1.1
    obtain ⟨hk3, hd3⟩ := hc.dirty _ (sum.entries m).nid hk2.1
    dsimp only at haddr hk1 hd1 ⊢
    rw [if_neg (by rw [hk1.2, hv']; exact Bool.noConfusion), if_neg (not_not.2 haddr), if_pos rfl]
    refine ⟨_, rfl, (h.keeps.trans hk1).trans (hk2.trans hk3), fun k hk hk0 => hd3 _ ?_, ?_⟩
    · rcases Nat.lt_succ_iff_lt_or_eq.1 hk with hk | rfl
      · exact .inr (hd2 _ (hd1 _ (h.dirty k hk hk0)))
      · exact .inl rfl
    · dsimp only [GcState.emit, GcState.setWorld]
      rw [relocatedNodes_append, h.log, validBelow_succ, hv, if_pos rfl, List.map_append,
        List.append_assoc]
      rfl

/-- `gc_node_segment` in the foreground under the contract frees the segment, having dirtied
the node of every valid block in order of offset. -/
theorem NodeReclaim.segment {r : GcState g W} (hI : I r.world) :
    ∃ r', gcNodeSegment env sum segno .fg r = .ok (1, r') ∧
      relocatedNodes r'.log = relocatedNodes r.log ++ (validBelow r.world segno g.blocksPerSeg).map
        fun k => (segno, k, (sum.entries k).nid) := by
  obtain ⟨s1, h1, hs1⟩ : ∃ s1, forUntil (gcNodeOffset env sum segno .fg true)
      (List.range g.blocksPerSeg) r = .ok (false, s1) ∧ s1 = r :=
    forUntil_range_inv (fun _ s => s = r) (fun m _ s h => ⟨s, gcNodeOffset_initial m s, h⟩) rfl
  rw [hs1] at h1
  obtain ⟨s2, h2, p2⟩ := forUntil_range_inv (NodeMid I Dirty segno sum r.world (relocatedNodes r.log))
    (fun _ hm _ h => hc.step hm h) (s := r)
    ⟨⟨hI, rfl⟩, fun k hk => absurd hk (Nat.not_lt_zero k), by simp [validBelow]⟩
  have hnone : ∀ k < g.blocksPerSeg, checkValidMap (env.syncNodePages s2.world).sbi segno k = false :=
    fun k hk => by
      cases hs : checkValidMap (env.syncNodePages s2.world).sbi segno k
      · rfl
      · obtain ⟨hv, hd⟩ := hc.sync _ p2.keeps.1 k hk hs
        exact absurd (p2.dirty k hk (by rwa [← p2.keeps.2])) hd
  refine ⟨s2.setWorld (env.syncNodePages s2.world), ?_, p2.log⟩
  unfold gcNodeSegment
  simp only [forUntil, h1, h2, if_true]
  dsimp only [GcState.setWorld]
  rw [reclaimedOne_of_none_valid hnone]

end Node

/-! ## `do_garbage_collect` -/

/-- `idleEnv` with a data segment: block 0 of segment 0 is slot 0 of node 5, at node offset 0
of inode 7. Every inode is readable and good, and relocating a block empties the device. -/
def ownedDataEnv : Env twoSegSec Unit :=
  { idleEnv with
    getSumPage := fun _ _ => ⟨.data, fun _ => ⟨5, 0, 0⟩⟩
    getNodePage := fun x _ => (some ⟨0, fun _ => 0⟩, x)
    getNodeInfo := fun _ _ => ⟨7, 0, 0⟩
    iget := fun x _ n => (some ⟨n, 1, false, false, true, 923⟩, x)
    getReadDataPage := fun x _ _ => (some ⟨true, false⟩, x)
    moveDataPage := fun x _ _ _ => drain x
    moveEncryptedBlock := fun x _ _ => drain x }

/-- `do_garbage_collect(sbi, segno, gc_list, FG_GC)` on a segment that the collaborators can
free returns `1`, having relocated each valid block once, in order of offset. A data block is
relocated as file index `start_bidx_of_node(nofs) + ofs_in_node` of its owner, and that is the
index at which the owner's file maps the block; a node block is relocated by dirtying its node
for `sync_node_pages`. -/
theorem doGarbageCollect_fg_reclaims (env : Env g W) (segno : Nat) (r : GcState g W)
    (I : World g W → Prop) (hI : I r.world) (ino nofs : Nat → Nat) (inodeOf : Nat → Inode)
    (tree : World g W → Nat → Nat → Option NodePage) (Dirty : World g W → Nat → Prop)
    (hdata : (env.getSumPage r.world segno).type = .data →
      DataReclaim env segno (env.getSumPage r.world segno) I ino nofs inodeOf tree ∧
        Coherent inodeOf r.gcList)
    (hnode : (env.getSumPage r.world segno).type = .node →
      NodeReclaim env segno (env.getSumPage r.world segno) I Dirty) :
    ∃ r', doGarbageCollect env segno .fg r = .ok (1, r') ∧
      ((env.getSumPage r.world segno).type = .data →
        relocatedData r'.log = relocatedData r.log ++ (validBelow r.world segno g.blocksPerSeg).map
          (fun k => (segno, k, inodeOf (ino k),
            startBidxOfNode nidsPerBlock addrsPerBlock (inodeOf (ino k)).addrsPerInode (nofs k) +
              ((env.getSumPage r.world segno).entries k).ofsInNode)) ∧
        ∀ k ∈ validBelow r.world segno g.blocksPerSeg,
          fileBlock (tree r.world (ino k)) (inodeOf (ino k)).addrsPerInode
            (startBidxOfNode nidsPerBlock addrsPerBlock (inodeOf (ino k)).addrsPerInode (nofs k) +
              ((env.getSumPage r.world segno).entries k).ofsInNode) = some (blockAddr env segno k)) ∧
      ((env.getSumPage r.world segno).type = .node →
        relocatedNodes r'.log = relocatedNodes r.log ++ (validBelow r.world segno g.blocksPerSeg).map
          fun k => (segno, k, ((env.getSumPage r.world segno).entries k).nid)) := by
  unfold doGarbageCollect
  dsimp only [GcState.emit]
  cases ht : (env.getSumPage r.world segno).type with
  | node =>
    obtain ⟨r', h, hlog⟩ := (hnode ht).segment (r := { r with log := r.log ++ [.collect segno .fg r.world.sbi] }) hI
    refine ⟨r', h, nofun, fun _ => ?_⟩
    rw [hlog, relocatedNodes_append]
    exact congrArg (· ++ List.map _ _) (List.append_nil (relocatedNodes r.log))
  | data =>
    obtain ⟨hc, hcoh⟩ := hdata ht
    obtain ⟨r', h, hlog⟩ := hc.segment (r := { r with log := r.log ++ [.collect segno .fg r.world.sbi] }) hI hcoh
    have hindex := fun k (hk : k ∈ validBelow r.world segno g.blocksPerSeg) =>
      have hkv : k < g.blocksPerSeg ∧ checkValidMap r.world.sbi segno k = true := by
        simpa [validBelow] using hk
      hc.index hI hkv.1 hkv.2
    refine ⟨r', h, fun _ => ⟨?_, fun k hk => (hindex k hk).2⟩, nofun⟩
    rw [hlog, relocatedData_append, show relocatedData [Event.collect segno .fg r.world.sbi] = [] from rfl,
      List.append_nil]
    exact congrArg _ (List.map_congr_left fun k hk => by rw [(hindex k hk).1])

/-- Over worlds where block 0 is segment 0's only possibly valid block, the data segment of
`ownedDataEnv` meets the contract, and the node segment of `drainingEnv` meets its own. -/
theorem doGarbageCollect_fg_reclaims_small :
    (∃ r', doGarbageCollect ownedDataEnv 0 .fg ⟨⟨liveNodeSit, ()⟩, .empty, [], []⟩ = .ok (1, r') ∧
      relocatedData r'.log = [(0, 0, ⟨7, 1, false, false, true, 923⟩, 0)]) ∧
    ∃ r', doGarbageCollect drainingEnv 0 .fg ⟨⟨liveNodeSit, ()⟩, .empty, [], []⟩ = .ok (1, r') ∧
      relocatedNodes r'.log = [(0, 0, 5)] := by
  have drain_valid : ∀ x k, checkValidMap (drain x).sbi 0 k = false := fun _ _ => rfl
  have hdata := doGarbageCollect_fg_reclaims ownedDataEnv 0 ⟨⟨liveNodeSit, ()⟩, .empty, [], []⟩
    (fun x => ∀ k, k ≠ 0 → checkValidMap x.sbi 0 k = false) (fun k hk => by simp [checkValidMap,
      liveNodeSit, hk]) (fun _ => 7) (fun _ => 0) (fun n => ⟨n, 1, false, false, true, 923⟩)
    (fun _ _ _ => some ⟨0, fun _ => 0⟩) (fun _ _ => True)
    (fun _ => ⟨⟨fun x _ k hk _ => ⟨_, rfl, by obtain rfl : k = 0 := Nat.lt_one_iff.1 hk; rfl, rfl, rfl, rfl,
        rfl, .inl ⟨rfl, show 0 < 923 by decide⟩⟩,
      fun _ _ hx => ⟨hx, rfl⟩, fun _ _ _ hx => ⟨rfl, hx, rfl⟩, fun _ => rfl, fun _ => rfl,
      fun _ => Nat.le_refl _, fun _ _ hx => ⟨hx, rfl⟩, fun _ _ _ hx => ⟨rfl, hx, rfl⟩,
      fun x hx k hk _ _ _ _ => have e : Evicts _ 0 k x (drain x) :=
          ⟨fun k' _ => drain_valid x k', drain_valid x k, fun k' hk' => (hx k' (Nat.lt_one_iff.1 hk ▸ hk')).symm⟩
        ⟨e, e⟩,
      fun _ _ _ _ h => h⟩, fun _ _ h => nomatch h⟩) nofun
  have hnode := doGarbageCollect_fg_reclaims drainingEnv 0 ⟨⟨liveNodeSit, ()⟩, .empty, [], []⟩
    (fun _ => True) trivial (fun _ => 0) (fun _ => 0) (fun _ => ⟨0, 0, false, false, false, 0⟩)
    (fun _ _ _ => none) (fun _ _ => True) nofun
    (fun _ => ⟨fun _ _ k hk _ => ⟨rfl, by obtain rfl : k = 0 := Nat.lt_one_iff.1 hk; rfl⟩,
      fun _ _ _ => ⟨⟨trivial, rfl⟩, fun _ h => h⟩, fun _ _ _ => ⟨⟨trivial, rfl⟩, fun _ h => h⟩,
      fun _ _ _ => ⟨⟨trivial, rfl⟩, fun _ _ => trivial⟩,
      fun x _ k _ h => absurd ((drain_valid x k).symm.trans h) Bool.false_ne_true⟩)
  obtain ⟨r₁, h₁, hd, -⟩ := hdata
  obtain ⟨r₂, h₂, -, hn⟩ := hnode
  exact ⟨⟨r₁, h₁, (hd rfl).1.trans (by decide)⟩, ⟨r₂, h₂, (hn rfl).trans (by decide)⟩⟩

end F2fsGc
