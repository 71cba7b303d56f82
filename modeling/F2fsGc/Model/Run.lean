import F2fsGc.Model.Scan

/-!
# A run of the collector: its world, its collaborators, its state

`gc.c` calls into the rest of the filesystem at every step: node and data page reads,
`f2fs_iget`/`iput`, the writeback paths, the checkpoint. None of that code is part of the
source, so a run is modelled against an `Env`, a record with one function per collaborator.
Each collaborator reads the `World` (the `sbi` state of `Sit.lean` and a private part `W`
the collector never looks at) and, when the C call can block or write, returns the world it
leaves behind. A property of the collector is then a statement about every `Env`, or about
every `Env` that satisfies a named contract.

The collector's own state is `GcState`: the world, the `gc_inode_list` of `f2fs_gc`, and two
ghost fields. `held` is the ledger of inode references the collector owns (one entry per
successful `f2fs_iget`, removed by the matching `iput`); `log` records what the collector did,
in order, so that properties of whole runs can be read off it.

A run can also stop without returning: `Fault.oops` is a dereference of an `ERR_PTR`,
`Fault.hang` a CPU spinning in `f2fs_radix_tree_insert`, and `Fault.outOfFuel` marks a model
run whose `gc_more` loop took more rounds than the fuel it was given.
-/

set_option autoImplicit false

namespace F2fsGc

/-- `SUM_TYPE_NODE` / `SUM_TYPE_DATA`, the footer type of a summary block. -/
inductive SumType where
  | node
  | data
  deriving DecidableEq, Repr

/-- `struct f2fs_summary`: the owner of one block of a segment. -/
structure Summary where
  nid : Nat
  ofsInNode : Nat
  version : Nat
  deriving DecidableEq, Repr

/-- `struct f2fs_summary_block`, the part `gc.c` reads: the footer type and one entry per
block of the segment. -/
structure SumBlock where
  type : SumType
  entries : Nat → Summary

/-- `struct node_info` as `get_node_info` fills it. -/
structure NodeInfo where
  ino : Nat
  blkAddr : Nat
  version : Nat
  deriving DecidableEq, Repr

/-- A node page as `gc.c` reads it: `ofs_of_node(page)` and `datablock_addr(page, ofs)`. -/
structure NodePage where
  ofsOfNode : Nat
  addrs : Nat → Nat

/-- An in-core inode, as `gc.c` sees it. `handle` tells two in-core inodes of one `ino` apart;
the other fields are read through `is_bad_inode`, `f2fs_encrypted_inode`, `S_ISREG` and
`ADDRS_PER_INODE`. -/
structure Inode where
  ino : Nat
  handle : Nat
  bad : Bool
  encrypted : Bool
  regular : Bool
  addrsPerInode : Nat
  deriving DecidableEq, Repr

/-- What `PageUptodate` and `PageDirty` say of a data page. -/
structure PageState where
  uptodate : Bool
  dirty : Bool
  deriving DecidableEq, Repr

/-- The routine phase 3 of a data migrator hands a live block to. -/
inductive Migration where
  | moveData
  | changeData
  | moveEncrypted
  deriving DecidableEq, Repr

/-- How a run stops short of returning. -/
inductive Fault where
  | oops
  | hang
  | outOfFuel
  deriving DecidableEq, Repr

/-- The filesystem as the collector sees it: its `sbi` state and everything else. -/
structure World (g : Geometry) (W : Type) where
  sbi : Sbi g
  priv : W

/-- The collaborators `gc.c` calls, one field per C function (or per C test of a page or
inode flag). `seg0Blkaddr` is `SM_I(sbi)->seg0_blkaddr`, fixed at mount. -/
structure Env (g : Geometry) (W : Type) where
  seg0Blkaddr : Nat
  /-- `sbi->sb->s_flags & MS_ACTIVE`. -/
  active : World g W → Bool
  /-- `f2fs_cp_error(sbi)`. -/
  cpError : World g W → Bool
  /-- `has_not_enough_free_secs(sbi, freed)`. -/
  hasNotEnoughFreeSecs : World g W → Nat → Bool
  /-- `prefree_segments(sbi)`. -/
  prefreeSegments : World g W → Nat
  /-- `write_checkpoint(sbi, &cpc)`. -/
  writeCheckpoint : World g W → World g W
  /-- `get_sum_page(sbi, segno)`. -/
  getSumPage : World g W → Nat → SumBlock
  /-- `get_node_page(sbi, nid)`; `none` is an `ERR_PTR`. -/
  getNodePage : World g W → Nat → Option NodePage × World g W
  /-- `get_node_info(sbi, nid, &ni)`. -/
  getNodeInfo : World g W → Nat → NodeInfo
  /-- `PageWriteback(node_page)`. -/
  pageWriteback : World g W → Nat → Bool
  /-- `f2fs_wait_on_page_writeback(node_page, NODE)`. -/
  waitOnPageWriteback : World g W → Nat → World g W
  /-- `set_page_dirty(node_page)`. -/
  setPageDirty : World g W → Nat → World g W
  /-- `sync_node_pages(sbi, 0, &wbc)`. -/
  syncNodePages : World g W → World g W
  /-- `f2fs_iget(sb, ino)`, given the references the collector holds; `none` is an
  `ERR_PTR`. -/
  iget : World g W → List Inode → Nat → Option Inode × World g W
  /-- `iput(inode)`. -/
  iput : World g W → Inode → World g W
  /-- `get_cached_data_page(inode, index, READA, true, off)`; `none` is an `ERR_PTR`. -/
  getCachedDataPage : World g W → Inode → Nat → Option PageState × World g W
  /-- `get_read_data_page(inode, index, READA, true, off)`; `none` is an `ERR_PTR`. -/
  getReadDataPage : World g W → Inode → Nat → Option PageState × World g W
  /-- `move_data_page(inode, bidx, gc_type)`. -/
  moveDataPage : World g W → Inode → Nat → GcType → World g W
  /-- `change_data_page(inode, bidx, gc_type)`. -/
  changeDataPage : World g W → Inode → Nat → GcType → World g W
  /-- `move_encrypted_block(inode, bidx)`. -/
  moveEncryptedBlock : World g W → Inode → Nat → World g W
  /-- `f2fs_submit_merged_bio(sbi, DATA, WRITE)`. -/
  submitMergedBio : World g W → World g W

/-- What the collector did, in order (ghost). -/
inductive Event (g : Geometry) where
  /-- `do_garbage_collect(sbi, segno, &gc_list, gc_type)` was entered in state `sbi`. -/
  | collect (segno : Nat) (gcType : GcType) (sbi : Sbi g)
  /-- A successful `f2fs_iget`. -/
  | iget (inode : Inode)
  | iput (inode : Inode)
  /-- Phase 3 handed block `off` of `segno` to `how`, as file index `bidx` of `inode`;
  `cls` is `array[off]` at that moment (`0` in `gc_data_segment_FG`, which keeps none). -/
  | migrate (segno off : Nat) (how : Migration) (inode : Inode) (bidx cls : Nat)
  /-- `gc_node_segment` dirtied the node page of block `off` of `segno`. -/
  | nodeDirty (segno off nid : Nat)
  | checkpoint
  /-- `mutex_unlock(&sbi->gc_mutex)` at `f2fs_gc`'s `stop` label. -/
  | unlockGcMutex

/-- `gc_inode_list`: the radix tree `iroot`, indexed by `ino`, and the list `ilist`. -/
structure GcInodeList where
  iroot : Nat → Option Inode
  ilist : List Inode

/-- `INIT_RADIX_TREE` and `LIST_HEAD_INIT`. -/
def GcInodeList.empty : GcInodeList := ⟨fun _ => none, []⟩

/-- The collector's state during one call of `f2fs_gc`. -/
structure GcState (g : Geometry) (W : Type) where
  world : World g W
  gcList : GcInodeList
  held : List Inode
  log : List (Event g)

variable {g : Geometry} {W : Type}

namespace GcState

/-- Record an event. -/
def emit (r : GcState g W) (e : Event g) : GcState g W := { r with log := r.log ++ [e] }

/-- Replace the world. -/
def setWorld (r : GcState g W) (x : World g W) : GcState g W := { r with world := x }

end GcState

/-! ## Inode references -/

/-- `iput(inode)`: the reference goes back, and the ledger forgets it. -/
def iputR (env : Env g W) (i : Inode) (r : GcState g W) : GcState g W :=
  { r with world := env.iput r.world i, held := r.held.erase i, log := r.log ++ [.iput i] }

/-- `f2fs_iget(sb, ino)`: a successful call adds a reference to the ledger. -/
def igetR (env : Env g W) (ino : Nat) (r : GcState g W) : Option Inode × GcState g W :=
  match env.iget r.world r.held ino with
  | (none, x) => (none, r.setWorld x)
  | (some i, x) => (some i, { r with world := x, held := r.held ++ [i], log := r.log ++ [.iget i] })

/-! ## `gc_inode_list` -/

/-- `find_gc_inode(gc_list, ino)`. -/
def findGcInode (l : GcInodeList) (ino : Nat) : Option Inode := l.iroot ino

/-- `add_gc_inode(gc_list, inode)`. An inode already listed loses the new reference at once.
For any other inode `f2fs_radix_tree_insert` retries until the insertion succeeds; it fails
with `-EEXIST` forever when another in-core inode of the same `ino` is listed. -/
def addGcInode (env : Env g W) (i : Inode) (r : GcState g W) : Except Fault (GcState g W) :=
  match findGcInode r.gcList i.ino with
  | some j => if i = j then .ok (iputR env i r) else .error .hang
  | none => .ok { r with gcList := ⟨Function.update r.gcList.iroot i.ino (some i), r.gcList.ilist ++ [i]⟩ }

/-- The loop of `put_gc_inode` over the entries still to release. -/
def putGcInode.go (env : Env g W) : List Inode → GcState g W → GcState g W
  | [], r => r
  | i :: rest, r =>
    go env rest (iputR env i { r with gcList := ⟨Function.update r.gcList.iroot i.ino none, rest⟩ })

/-- `put_gc_inode(gc_list)`: each entry leaves the radix tree, is `iput`, and leaves the list. -/
def putGcInode (env : Env g W) (r : GcState g W) : GcState g W :=
  putGcInode.go env r.gcList.ilist r

/-! ## Loops that can return early -/

/-- A C `for` loop whose body may `return`: `body` runs on each element in turn, and the loop
stops at the first body that asks to return (`true`). The result says whether one did. -/
def forUntil {α σ : Type} (body : α → σ → Except Fault (Bool × σ)) : List α → σ → Except Fault (Bool × σ)
  | [], s => .ok (false, s)
  | a :: as, s =>
    match body a s with
    | .error e => .error e
    | .ok (true, s) => .ok (true, s)
    | .ok (false, s) => forUntil body as s

end F2fsGc
