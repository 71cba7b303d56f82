import F2fsGc.Model.Migrate

/-!
# `f2fs_gc`

One call of `f2fs_gc(sbi, sync)`: rounds of the `gc_more` loop, each of which picks a victim
section (after a background call has been promoted to the foreground when free sections run
short) and collects its segments, until a round finds no victim, the filesystem stops, or, in
a call that is not `sync`, free sections are no longer short. Every way out passes the `stop`
label, which drops `gc_mutex` (the caller took it) and releases the listed inodes.

The loop is not bounded by anything in the C: `gcMore` takes fuel, one unit per round, and
runs out with `Fault.outOfFuel`. That a call returns is then the statement that some fuel
suffices.
-/

set_option autoImplicit false

namespace F2fsGc

variable {g : Geometry} {W : Type}

/-- `EINVAL`. -/
def einval : Int := 22

/-- `EAGAIN`. -/
def eagain : Int := 11

/-- `__get_victim(sbi, &victim, gc_type)`: LFS selection of a whole section under
`sentry_lock`. `*victim` is written only when a victim is found. -/
def getVictim (r : GcState g W) (victim : Nat) (gcType : GcType) : Bool × Nat × GcState g W :=
  let v := getVictimByDefault r.world.sbi victim gcType noCheckType .lfs
  (v.found, v.result, r.setWorld { r.world with sbi := v.sbi })

/-- The `for (i = 0; i < sbi->segs_per_sec; i++)` loop over the victim's segments, from `i`
with `k` segments left; a foreground round stops at the first segment it could not free. It
returns the final `i`. -/
def collectSection (env : Env g W) (segno : Nat) (gcType : GcType) :
    Nat → Nat → GcState g W → Except Fault (Nat × GcState g W)
  | i, 0, r => .ok (i, r)
  | i, k + 1, r =>
    match doGarbageCollect env (segno + i) gcType r with
    | .error e => .error e
    | .ok (nfree, r) =>
      if nfree = 0 ∧ gcType = .fg then .ok (i, r) else collectSection env segno gcType (i + 1) k r

/-- `write_checkpoint(sbi, &cpc)`. -/
def checkpointR (env : Env g W) (r : GcState g W) : GcState g W :=
  (r.setWorld (env.writeCheckpoint r.world)).emit .checkpoint

/-- The `stop` label: `mutex_unlock(&sbi->gc_mutex)`, `put_gc_inode(&gc_list)`, and the return
value of a `sync` call. -/
def gcStop (env : Env g W) (sync : Bool) (secFreed : Nat) (ret : Int) (r : GcState g W) :
    Int × GcState g W :=
  (if sync then (if secFreed ≠ 0 then 0 else -eagain) else ret,
    putGcInode env (r.emit .unlockGcMutex))

/-- The promotion at the top of a round: a background call that finds free sections short
becomes a foreground one, picks its victim at once, and checkpoints when it found one or
prefree segments wait. It returns the round's `gc_type` and `segno`. -/
def promote (env : Env g W) (gcType : GcType) (secFreed : Nat) (r : GcState g W) :
    GcType × Nat × GcState g W :=
  if gcType = .bg ∧ env.hasNotEnoughFreeSecs r.world secFreed = true then
    let (found, segno, r) := getVictim r nullSegno .fg
    (.fg, segno, if found ∨ 0 < env.prefreeSegments r.world then checkpointR env r else r)
  else (gcType, nullSegno, r)

/-- The round's victim: the promotion, then `if (segno == NULL_SEGNO && !__get_victim(sbi,
&segno, gc_type)) goto stop;`. It returns the round's `gc_type`, whether it has a victim, and
the victim. -/
def roundVictim (env : Env g W) (gcType : GcType) (secFreed : Nat) (r : GcState g W) :
    GcType × Bool × Nat × GcState g W :=
  let (gcType, segno, r) := promote env gcType secFreed r
  if segno = nullSegno then
    let (found, segno, r) := getVictim r segno gcType
    (gcType, found, segno, r)
  else (gcType, true, segno, r)

/-- `if (i == sbi->segs_per_sec && gc_type == FG_GC) sec_freed++;` -/
def freedAfter (g : Geometry) (gcType : GcType) (i secFreed : Nat) : Nat :=
  if i = g.segsPerSec ∧ gcType = .fg then secFreed + 1 else secFreed

/-- `if (gc_type == FG_GC) sbi->cur_victim_sec = NULL_SEGNO;` -/
def endRound (gcType : GcType) (r : GcState g W) : GcState g W :=
  if gcType = .fg then r.setWorld { r.world with sbi := { r.world.sbi with curVictimSec := nullSegno } }
  else r

/-- The exit of a round that does not go back to `gc_more`: a call that is not `sync` ends a
foreground round with a checkpoint. -/
def lastRound (env : Env g W) (sync : Bool) (gcType : GcType) (r : GcState g W) : GcState g W :=
  if sync = false ∧ gcType = .fg then checkpointR env r else r

/-- The `gc_more` loop, from the label, with `fuel` rounds to go. -/
def gcMore (env : Env g W) (sync : Bool) :
    Nat → GcType → Nat → Int → GcState g W → Except Fault (Int × GcState g W)
  | 0, _, _, _, _ => .error .outOfFuel
  | fuel + 1, gcType, secFreed, ret, r =>
    if env.active r.world = false ∨ env.cpError r.world = true then
      .ok (gcStop env sync secFreed ret r)
    else
      let (gcType, found, segno, r) := roundVictim env gcType secFreed r
      if found = false then .ok (gcStop env sync secFreed ret r)
      else
        match collectSection env segno gcType 0 g.segsPerSec r with
        | .error e => .error e
        | .ok (i, r) =>
          let secFreed := freedAfter g gcType i secFreed
          let r := endRound gcType r
          if sync = false ∧ env.hasNotEnoughFreeSecs r.world secFreed = true then
            gcMore env sync fuel gcType secFreed 0 r
          else .ok (gcStop env sync secFreed 0 (lastRound env sync gcType r))

/-- `f2fs_gc(sbi, sync)`, entered with `gc_mutex` held, given `fuel` rounds of `gc_more`. -/
def f2fsGc (env : Env g W) (sync : Bool) (fuel : Nat) (x : World g W) :
    Except Fault (Int × GcState g W) :=
  gcMore env sync fuel (if sync then .fg else .bg) 0 (-einval) ⟨x, .empty, [], []⟩

end F2fsGc
