import F2fsGc.Model.Run
import F2fsGc.Model.NodeIndex

/-!
# Migrating a victim segment

`do_garbage_collect` reads the segment's summary block and hands it to one of three migrators:
`gc_node_segment` for a node segment, and for a data segment `gc_data_segment_FG` in the
foreground or `gc_data_segment` in the background.

Each migrator is a `for` loop over the blocks of the segment, run more than once (`goto
next_step`): twice for nodes (a readahead pass, then the pass that dirties the node pages) and
four times for data, one per phase. A body may `return 0` early, when a background pass finds
free sections short; `forUntil` is that loop.

The two data migrators share all but two steps: how phase 2 reads the data page before it
lists the inode, and which routine phase 3 hands a live block to. `gcDataSegmentWith` is the
shared loop, with those two steps as parameters; `gc_data_segment` and `gc_data_segment_FG`
are it applied to their own steps. The difference that matters is in `gcDataReadCached`: it
tests `PageUptodate` on what `get_cached_data_page` returned before it tests `IS_ERR`.
-/

set_option autoImplicit false

namespace F2fsGc

variable {g : Geometry} {W : Type}

/-- `START_BLOCK(sbi, segno) + off`, a `block_t`. -/
def blockAddr (env : Env g W) (segno off : Nat) : Nat :=
  (env.seg0Blkaddr + segno * g.blocksPerSeg + off) % 2 ^ 32

/-- `check_valid_map(sbi, segno, offset)`. -/
def checkValidMap (s : Sbi g) (segno off : Nat) : Bool := (s.sentries segno).curValidMap off

/-- `is_alive(sbi, sum, &dni, blkaddr, &nofs)`: the block at `blkaddr` is still the one the
summary entry names, as read through its node page. On `true` the C has filled `dni` and
`nofs`, which come back here. -/
def isAlive (env : Env g W) (x : World g W) (sum : Summary) (blkaddr : Nat) :
    Option (NodeInfo × Nat) × World g W :=
  match env.getNodePage x sum.nid with
  | (none, x) => (none, x)
  | (some page, x) =>
    let dni := env.getNodeInfo x sum.nid
    if sum.version ≠ dni.version then (none, x)
    else if page.addrs sum.ofsInNode ≠ blkaddr then (none, x)
    else (some (dni, page.ofsOfNode), x)

/-- `return 1 only if FG_GC succefully reclaimed one`. -/
def reclaimedOne (s : Sbi g) (segno : Nat) : Nat :=
  if getValidBlocks s segno 1 = 0 then 1 else 0

/-! ## Node segments -/

/-- One iteration of `gc_node_segment`'s loop; `true` is the early `return 0`. -/
def gcNodeOffset (env : Env g W) (sum : SumBlock) (segno : Nat) (gcType : GcType)
    (initial : Bool) (off : Nat) (r : GcState g W) : Except Fault (Bool × GcState g W) :=
  if gcType = .bg ∧ env.hasNotEnoughFreeSecs r.world 0 = true then .ok (true, r)
  else if checkValidMap r.world.sbi segno off = false then .ok (false, r)
  else if initial then .ok (false, r)
  else
    let nid := (sum.entries off).nid
    match env.getNodePage r.world nid with
    | (none, x) => .ok (false, r.setWorld x)
    | (some _, x) =>
      if checkValidMap x.sbi segno off = false then .ok (false, r.setWorld x)
      else if (env.getNodeInfo x nid).blkAddr ≠ blockAddr env segno off then
        .ok (false, r.setWorld x)
      else if gcType = .fg then
        .ok (false, (r.setWorld (env.setPageDirty (env.waitOnPageWriteback x nid) nid)).emit
          (.nodeDirty segno off nid))
      else if env.pageWriteback x nid then .ok (false, r.setWorld x)
      else .ok (false, (r.setWorld (env.setPageDirty x nid)).emit (.nodeDirty segno off nid))

/-- `gc_node_segment(sbi, sum, segno, gc_type)`: the readahead pass (`initial`), the pass that
dirties the node pages, and in the foreground `sync_node_pages`. -/
def gcNodeSegment (env : Env g W) (sum : SumBlock) (segno : Nat) (gcType : GcType)
    (r : GcState g W) : Except Fault (Nat × GcState g W) :=
  match forUntil (fun initial r => forUntil (gcNodeOffset env sum segno gcType initial)
      (List.range g.blocksPerSeg) r) [true, false] r with
  | .error e => .error e
  | .ok (true, r) => .ok (0, r)
  | .ok (false, r) =>
    if gcType = .fg then
      let r := r.setWorld (env.syncNodePages r.world)
      .ok (reclaimedOne r.world.sbi segno, r)
    else .ok (0, r)

/-! ## Data segments -/

/-- A data migrator's loop state: the collector's state and `array`, the page state phase 2
recorded per offset (`kzalloc`ed, so `0` until written). -/
structure DataSt (g : Geometry) (W : Type) where
  run : GcState g W
  array : Nat → Nat

/-- `start_bidx_of_node(nofs, F2FS_I(inode)) + ofs_in_node`, a `block_t`. -/
def dataBidx (nofs : Nat) (i : Inode) (ofsInNode : Nat) : Nat :=
  (startBidxOfNode32 (BitVec.ofNat 32 nofs) (BitVec.ofNat 32 i.addrsPerInode) +
    BitVec.ofNat 32 ofsInNode).toNat

/-- Phase 2 of `gc_data_segment` from the page read on. `PageUptodate(data_page)` runs before
`IS_ERR(data_page)`, so an `ERR_PTR` from `get_cached_data_page` is dereferenced. Otherwise
`array[off]` records the page: `1` dirty, `2` cached and clean, `3` not up to date. -/
def gcDataReadCached (env : Env g W) (off : Nat) (i : Inode) (bidx : Nat) (st : DataSt g W) :
    Except Fault (DataSt g W) :=
  match env.getCachedDataPage st.run.world i bidx with
  | (none, _) => .error .oops
  | (some pg, x) =>
    let cls := if pg.uptodate then (if pg.dirty then 1 else 2) else 3
    (addGcInode env i (st.run.setWorld x)).map fun r => ⟨r, Function.update st.array off cls⟩

/-- Phase 2 of `gc_data_segment_FG` from the page read on: an unreadable page gives its
reference back at once, a readable one hands it to `add_gc_inode`. -/
def gcDataReadFG (env : Env g W) (_off : Nat) (i : Inode) (bidx : Nat) (st : DataSt g W) :
    Except Fault (DataSt g W) :=
  match env.getReadDataPage st.run.world i bidx with
  | (none, x) => .ok { st with run := iputR env i (st.run.setWorld x) }
  | (some _, x) => (addGcInode env i (st.run.setWorld x)).map fun r => { st with run := r }

/-- Phase 3 of `gc_data_segment` for a listed inode that is not an encrypted regular file:
`if (array[off] == 1 || gc_type == BG_GC) move_data_page else change_data_page`. -/
def gcDataMoveBG (env : Env g W) (gcType : GcType) (cls : Nat) (i : Inode) (bidx : Nat)
    (x : World g W) : Migration × World g W :=
  if cls = 1 ∨ gcType = .bg then (.moveData, env.moveDataPage x i bidx gcType)
  else (.changeData, env.changeDataPage x i bidx gcType)

/-- Phase 3 of `gc_data_segment_FG` for such an inode: always `move_data_page`. -/
def gcDataMoveFG (env : Env g W) (gcType : GcType) (_cls : Nat) (i : Inode) (bidx : Nat)
    (x : World g W) : Migration × World g W :=
  (.moveData, env.moveDataPage x i bidx gcType)

/-- Phase 2 for a live block owned by `dni.ino` at node offset `nofs`: `f2fs_iget`, then the
inode is dropped from view if bad (its reference is kept), listed at once if it is an
encrypted regular file, and otherwise handed to the variant's page read. -/
def gcDataPhase2 (readPage : Nat → Inode → Nat → DataSt g W → Except Fault (DataSt g W))
    (env : Env g W) (off : Nat) (entry : Summary) (dni : NodeInfo) (nofs : Nat) (st : DataSt g W) :
    Except Fault (DataSt g W) :=
  match igetR env dni.ino st.run with
  | (none, r) => .ok { st with run := r }
  | (some i, r) =>
    if i.bad then .ok { st with run := r }
    else if i.encrypted ∧ i.regular then (addGcInode env i r).map fun r => { st with run := r }
    else readPage off i (dataBidx nofs i entry.ofsInNode) { st with run := r }

/-- Phase 3 for a live block: if its inode is listed, hand the block over, as file index
`start_bidx_of_node(nofs) + ofs_in_node`, to `move_encrypted_block` or to the variant's
routine. -/
def gcDataPhase3 (migrate : Nat → Inode → Nat → World g W → Migration × World g W)
    (env : Env g W) (segno off : Nat) (entry : Summary) (dni : NodeInfo) (nofs : Nat)
    (st : DataSt g W) : DataSt g W :=
  match findGcInode st.run.gcList dni.ino with
  | none => st
  | some i =>
    let bidx := dataBidx nofs i entry.ofsInNode
    let m := if i.encrypted ∧ i.regular then (.moveEncrypted, env.moveEncryptedBlock st.run.world i bidx)
      else migrate (st.array off) i bidx st.run.world
    { st with run := (st.run.setWorld m.2).emit (.migrate segno off m.1 i bidx (st.array off)) }

/-- One iteration of a data migrator's loop at `phase`, with the variant's own page read
(`readPage`) and phase-3 routine (`migrate`); `true` is the early `return 0`. -/
def gcDataOffset (readPage : Nat → Inode → Nat → DataSt g W → Except Fault (DataSt g W))
    (migrate : Nat → Inode → Nat → World g W → Migration × World g W)
    (env : Env g W) (sum : SumBlock) (segno : Nat) (gcType : GcType) (phase off : Nat)
    (st : DataSt g W) : Except Fault (Bool × DataSt g W) :=
  if gcType = .bg ∧ env.hasNotEnoughFreeSecs st.run.world 0 = true then .ok (true, st)
  else if checkValidMap st.run.world.sbi segno off = false then .ok (false, st)
  else if phase = 0 then .ok (false, st)
  else
    match isAlive env st.run.world (sum.entries off) (blockAddr env segno off) with
    | (none, x) => .ok (false, { st with run := st.run.setWorld x })
    | (some (dni, nofs), x) =>
      let st := { st with run := st.run.setWorld x }
      if phase = 1 then .ok (false, st)
      else if phase = 2 then
        (gcDataPhase2 readPage env off (sum.entries off) dni nofs st).map fun st => (false, st)
      else .ok (false, gcDataPhase3 migrate env segno off (sum.entries off) dni nofs st)

/-- The four phases of a data migrator, then in the foreground `f2fs_submit_merged_bio`. -/
def gcDataSegmentWith (readPage : Nat → Inode → Nat → DataSt g W → Except Fault (DataSt g W))
    (migrate : Nat → Inode → Nat → World g W → Migration × World g W)
    (env : Env g W) (sum : SumBlock) (segno : Nat) (gcType : GcType) (r : GcState g W) :
    Except Fault (Nat × GcState g W) :=
  match forUntil (fun phase st => forUntil (gcDataOffset readPage migrate env sum segno gcType phase)
      (List.range g.blocksPerSeg) st) [0, 1, 2, 3] ⟨r, fun _ => 0⟩ with
  | .error e => .error e
  | .ok (true, st) => .ok (0, st.run)
  | .ok (false, st) =>
    if gcType = .fg then
      let r := st.run.setWorld (env.submitMergedBio st.run.world)
      .ok (reclaimedOne r.world.sbi segno, r)
    else .ok (0, st.run)

/-- `gc_data_segment(sbi, sum, gc_list, segno, gc_type)`, the background data migrator. -/
def gcDataSegment (env : Env g W) (sum : SumBlock) (segno : Nat) (gcType : GcType) :
    GcState g W → Except Fault (Nat × GcState g W) :=
  gcDataSegmentWith (gcDataReadCached env) (gcDataMoveBG env gcType) env sum segno gcType

/-- `gc_data_segment_FG(sbi, sum, gc_list, segno, gc_type)`, the foreground data migrator. -/
def gcDataSegmentFG (env : Env g W) (sum : SumBlock) (segno : Nat) (gcType : GcType) :
    GcState g W → Except Fault (Nat × GcState g W) :=
  gcDataSegmentWith (gcDataReadFG env) (gcDataMoveFG env gcType) env sum segno gcType

/-- `do_garbage_collect(sbi, segno, &gc_list, gc_type)`; it returns what the migrator it picks
returns (`nfree`). -/
def doGarbageCollect (env : Env g W) (segno : Nat) (gcType : GcType) (r : GcState g W) :
    Except Fault (Nat × GcState g W) :=
  let r := r.emit (.collect segno gcType r.world.sbi)
  let sum := env.getSumPage r.world segno
  match sum.type with
  | .node => gcNodeSegment env sum segno gcType r
  | .data =>
    if gcType = .fg then gcDataSegmentFG env sum segno gcType r
    else gcDataSegment env sum segno gcType r

end F2fsGc
