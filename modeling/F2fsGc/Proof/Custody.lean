import F2fsGc.Proof.Ledger
import F2fsGc.Proof.Handover

/-!
# No block is handed over through an inode given back

Phase 3 of a data migrator finds the block's inode with `find_gc_inode` and hands the block to
`move_data_page` or `move_encrypted_block` through it. The inode it finds is one that phase 2
listed with `add_gc_inode`, for this segment or an earlier one of the call, and a listed inode
keeps the reference `f2fs_iget` took on it until `put_gc_inode` at the `stop` label; phase 2
passes over a bad inode before it could list it. So each hand-over is through a good inode on
which the call holds a reference: the events before it take more references on that inode than
they give back (`f2fsGc_migrates_held`).

The fact is about positions in the log (`MigratesHeld`), and at a position it follows from the
accounting of `Proof/Ledger.lean` at that moment. The two are carried together over every step
of the call (`Custody`).
-/

set_option autoImplicit false

namespace F2fsGc

variable {g : Geometry} {W : Type}

/-- A phase-3 hand-over. -/
def Event.IsMigrate : Event g → Prop
  | .migrate .. => True
  | _ => False

/-- Every hand-over in `l` goes through a good inode on which the events before it took more
references than they gave back. -/
def MigratesHeld (l : List (Event g)) : Prop :=
  ∀ pre post segno off how i bidx cls, l = pre ++ Event.migrate segno off how i bidx cls :: post →
    i.bad = false ∧ (iputs pre).count i < (igets pre).count i

namespace MigratesHeld

theorem nil : MigratesHeld ([] : List (Event g)) :=
  fun pre _ _ _ _ _ _ _ h => by cases pre <;> cases h

/-- A log extended by events whose hand-overs are each through an inode held at its own
position. -/
theorem append {l es : List (Event g)} (h : MigratesHeld l)
    (hes : ∀ pre post segno off how i bidx cls, es = pre ++ Event.migrate segno off how i bidx cls :: post →
      i.bad = false ∧ (iputs (l ++ pre)).count i < (igets (l ++ pre)).count i) :
    MigratesHeld (l ++ es) := by
  intro pre post segno off how i bidx cls he
  rcases List.append_eq_append_iff.1 he with ⟨a, rfl, hes'⟩ | ⟨c, rfl, hpost⟩
  · exact hes a post _ _ _ _ _ _ hes'
  · cases c with
    | nil => simpa using hes [] post _ _ _ _ _ _ (by simpa using hpost.symm)
    | cons e c =>
      obtain ⟨rfl, rfl⟩ := List.cons_eq_cons.1 hpost
      exact h pre c _ _ _ _ _ _ rfl

theorem append_quiet {l es : List (Event g)} (h : MigratesHeld l) (hes : ∀ e ∈ es, ¬ e.IsMigrate) :
    MigratesHeld (l ++ es) :=
  h.append fun pre post segno off how i bidx cls he =>
    absurd (show (Event.migrate segno off how i bidx cls : Event g).IsMigrate from trivial)
      (hes _ (he ▸ List.mem_append_right pre (List.mem_cons_self _ post)))

theorem snoc {l : List (Event g)} (h : MigratesHeld l) {segno off : Nat} {how : Migration}
    {i : Inode} {bidx cls : Nat} (hi : i.bad = false ∧ (iputs l).count i < (igets l).count i) :
    MigratesHeld (l ++ [.migrate segno off how i bidx cls]) :=
  h.append fun pre post _ _ _ _ _ _ he => by
    cases pre with
    | nil => cases he; simpa using hi
    | cons _ pre => cases pre <;> cases he

end MigratesHeld

/-- Events that add nothing to `handedOver` are no hand-overs. -/
theorem not_isMigrate_of_refs {es : List (Event g)} (h : ∀ e ∈ es, Event.RefTraffic e) :
    ∀ e ∈ es, ¬ e.IsMigrate := fun e he => by
  cases e <;> first | exact id | exact (h _ he).elim

/-- A listed inode is one the log took more references on than it gave back. -/
theorem Ledger.count_lt {pend : List Inode} {r : GcState g W} (h : Ledger pend r) {i : Inode}
    (hi : i ∈ r.gcList.ilist) : (iputs r.log).count i < (igets r.log).count i := by
  have hheld : 0 < r.held.count i :=
    List.count_pos_iff.2 (h.held.mem_iff.2 (List.mem_append_left _ (List.mem_append_left _ hi)))
  rw [h.acct.count_eq, List.count_append]
  omega

/-! ## Listed inodes are good -/

/-- Every listed inode is good: phase 2 passes over a bad one before it can be listed. -/
def GcInodeList.Good (l : GcInodeList) : Prop := ∀ j ∈ l.ilist, j.bad = false

section Good

variable {env : Env g W}

theorem addGcInode_good {i : Inode} {r r' : GcState g W} (hi : i.bad = false)
    (h : addGcInode env i r = .ok r') (hg : r.gcList.Good) : r'.gcList.Good := by
  unfold addGcInode at h
  split at h
  · split_ifs at h
    cases h
    exact hg
  · cases h
    intro j hj
    rcases List.mem_append.1 hj with hj | hj
    · exact hg j hj
    · rw [List.mem_singleton.1 hj]; exact hi

/-- A page read that lists at most the good inode it is given. -/
def ReadsGood (readPage : Nat → Inode → Nat → DataSt g W → Except Fault (DataSt g W)) : Prop :=
  ∀ off i bidx st st', i.bad = false → readPage off i bidx st = .ok st' → st.run.gcList.Good →
    st'.run.gcList.Good

theorem gcDataReadCached_good : ReadsGood (gcDataReadCached env) := by
  intro off i bidx st st' hi h hg
  unfold gcDataReadCached at h
  split at h
  · cases h
  · cases ha : addGcInode env i (st.run.setWorld _) <;> rw [ha] at h <;> cases h
    exact addGcInode_good hi ha hg

theorem gcDataReadFG_good : ReadsGood (gcDataReadFG env) := by
  intro off i bidx st st' hi h hg
  unfold gcDataReadFG at h
  split at h
  · cases h
    exact hg
  · cases ha : addGcInode env i (st.run.setWorld _) <;> rw [ha] at h <;> cases h
    exact addGcInode_good hi ha hg

/-- Phase 2 lists at most the inode `f2fs_iget` returned, and only when it is good. -/
theorem gcDataPhase2_good {readPage : Nat → Inode → Nat → DataSt g W → Except Fault (DataSt g W)}
    (hr : ReadsGood readPage) {off nofs : Nat} {e : Summary} {dni : NodeInfo} {st st' : DataSt g W}
    (h : gcDataPhase2 readPage env off e dni nofs st = .ok st') (hg : st.run.gcList.Good) :
    st'.run.gcList.Good := by
  unfold gcDataPhase2 at h
  have hg1 := @igetR_gcList g W env dni.ino st.run
  rcases hi : igetR env dni.ino st.run with ⟨_ | i, r1⟩ <;> simp only [hi] at h hg1 <;> rw [← hg1] at hg
  · cases h; exact hg
  split_ifs at h with hb
  · cases h; exact hg
  · cases ha : addGcInode env i r1 <;> rw [ha] at h <;> cases h
    exact addGcInode_good (by simpa using hb) ha hg
  · exact hr _ _ _ _ _ (by simpa using hb) h hg

end Good

/-! ## The invariant -/

/-- The accounting, the listed inodes good, and the hand-overs logged so far each through a
good, held inode. -/
structure Custody (r : GcState g W) : Prop where
  ledger : Ledger [] r
  good : r.gcList.Good
  log : MigratesHeld r.log

namespace Custody

variable {r r' : GcState g W}

theorem init (x : World g W) : Custody (⟨x, .empty, [], []⟩ : GcState g W) :=
  ⟨⟨.empty, by simp [GcInodeList.empty, badRefs, igets], by simp [igets, iputs]⟩, nofun, .nil⟩

/-- A step that keeps the accounting and the listed inodes good, and logs no hand-over. -/
theorem extend (h : Custody r) (hl : Ledger [] r') (hg : r'.gcList.Good) (es : List (Event g))
    (hlog : r'.log = r.log ++ es) (hes : ∀ e ∈ es, ¬ e.IsMigrate) : Custody r' :=
  ⟨hl, hg, hlog ▸ h.log.append_quiet hes⟩

theorem setWorld (h : Custody r) (x : World g W) : Custody (r.setWorld x) :=
  ⟨h.ledger.setWorld x, h.good, h.log⟩

theorem of_checkpointLog (h : Custody r) (hl : Ledger [] r') (hg : r'.gcList = r.gcList)
    (hlog : CheckpointLog r.log r'.log) : Custody r' :=
  have ⟨es, hlog, hes⟩ := hlog
  h.extend hl (hg ▸ h.good) es hlog fun e he => by rw [hes e he]; exact id

end Custody

/-! ## The data migrators -/

section Data

variable {env : Env g W} {readPage : Nat → Inode → Nat → DataSt g W → Except Fault (DataSt g W)}
  {migrate : Nat → Inode → Nat → World g W → Migration × World g W}
  {sum : SumBlock} {segno : Nat} {gcType : GcType}

/-- Phase 3 hands the block over through the inode `find_gc_inode` returns, which is listed and
so held. -/
theorem gcDataPhase3_custody (off nofs : Nat) (e : Summary) (dni : NodeInfo) {st : DataSt g W}
    (h : Custody st.run) : Custody (gcDataPhase3 migrate env segno off e dni nofs st).run := by
  unfold gcDataPhase3
  split
  · exact h
  · rename_i i hf
    have hmem := h.ledger.wf.mem hf
    exact ⟨(h.ledger.setWorld _).emit _ rfl rfl, h.good,
      h.log.snoc ⟨h.good i hmem, h.ledger.count_lt hmem⟩⟩

/-- Phase 2 takes and gives back references and hands nothing over. -/
theorem gcDataPhase2_custody (hl : ReadsLedger readPage) (hq : ReadsRefs readPage)
    (hr : ReadsGood readPage) {off nofs : Nat} {e : Summary} {dni : NodeInfo} {st st' : DataSt g W}
    (h2 : gcDataPhase2 readPage env off e dni nofs st = .ok st') (h : Custody st.run) : Custody st'.run := by
  obtain ⟨es, hlog, hes⟩ := gcDataPhase2_refs hq h2
  exact h.extend (gcDataPhase2_ledger hl h.ledger h2) (gcDataPhase2_good hr h2 h.good) es hlog
    (not_isMigrate_of_refs hes)

theorem gcDataSegmentWith_custody (hl : ReadsLedger readPage) (hq : ReadsRefs readPage)
    (hr : ReadsGood readPage) {r r' : GcState g W} {n : Nat}
    (h : gcDataSegmentWith readPage migrate env sum segno gcType r = .ok (n, r')) (hc : Custody r) :
    Custody r' := by
  refine gcDataSegmentWith_rel (fun a b => Custody a → Custody b) (fun _ => id)
    (fun h₁ h₂ => h₂ ∘ h₁) (fun _ _ _ _ _ hd hc => ?_) (fun _ hc => hc.setWorld _) h hc
  rcases gcDataOffset_cases hd with rfl | ⟨x, -, rfl | ⟨dni, nofs, ⟨-, h2⟩ | ⟨-, rfl⟩⟩⟩
  · exact hc
  · exact hc.setWorld x
  · exact gcDataPhase2_custody hl hq hr h2 (hc.setWorld x)
  · exact gcDataPhase3_custody _ _ _ _ (hc.setWorld x)

end Data

/-! ## The collections and the rounds -/

section Rounds

variable {env : Env g W}

theorem doGarbageCollect_custody {segno : Nat} {gcType : GcType} {r r' : GcState g W} {n : Nat}
    (h : doGarbageCollect env segno gcType r = .ok (n, r')) (hc : Custody r) : Custody r' := by
  have hc0 : Custody (r.emit (.collect segno gcType r.world.sbi)) :=
    hc.extend (hc.ledger.emit _ rfl rfl) hc.good [_] rfl fun e he => by
      rw [List.mem_singleton.1 he]; exact id
  unfold doGarbageCollect at h
  dsimp only at h
  split at h
  · have hn := gcNodeSegment_step h
    obtain ⟨es, hlog, hes⟩ := hn.log
    exact hc0.extend (hn.ledger hc0.ledger) (hn.gcList ▸ hc0.good) es hlog fun e he => by
      obtain ⟨_, _, rfl⟩ := hes e he; exact id
  · split_ifs at h with hfg
    · exact gcDataSegmentWith_custody gcDataReadFG_ledger gcDataReadFG_refs gcDataReadFG_good h hc0
    · have hbg : gcType = .bg := by cases gcType <;> simp_all
      subst hbg
      exact gcDataSegmentWith_custody gcDataReadCached_ledger gcDataReadCached_refs
        gcDataReadCached_good h hc0

theorem collectSection_custody (segno : Nat) (t : GcType) :
    ∀ (k i : Nat) (r : GcState g W) {i' : Nat} {r' : GcState g W},
      collectSection env segno t i k r = .ok (i', r') → Custody r → Custody r'
  | 0, i, r, _, _, h, hc => by cases h; exact hc
  | k + 1, i, r, _, _, h, hc => by
    unfold collectSection at h
    rcases hd : doGarbageCollect env (segno + i) t r with _ | ⟨n, r1⟩ <;> simp only [hd] at h
    · cases h
    have hc1 := doGarbageCollect_custody hd hc
    split_ifs at h
    · cases h; exact hc1
    · exact collectSection_custody segno t k (i + 1) r1 h hc1

/-- The `stop` label logs the unlock and the `iput`s of `put_gc_inode`, no hand-over. -/
theorem gcStop_migratesHeld {sync : Bool} {secFreed : Nat} {ret : Int} {r : GcState g W}
    (hc : Custody r) : MigratesHeld (gcStop env sync secFreed ret r).2.log := by
  obtain ⟨is, hlog⟩ := gcStop_log env sync secFreed ret r
  rw [hlog]
  refine hc.log.append_quiet fun e he => ?_
  rcases List.mem_cons.1 he with rfl | he
  · exact id
  · obtain ⟨_, -, rfl⟩ := List.mem_map.1 he; exact id

theorem gcMore_custody {sync : Bool} :
    ∀ (fuel : Nat) (t : GcType) (secFreed : Nat) (ret : Int) (r : GcState g W)
      {out : Int × GcState g W}, gcMore env sync fuel t secFreed ret r = .ok out → Custody r →
      MigratesHeld out.2.log
  | 0, _, _, _, _, _, h, _ => by cases h
  | fuel + 1, t, secFreed, ret, r, out, h, hc => by
    have hround : ∀ {t' : GcType} {found : Bool} {segno : Nat} {r1 : GcState g W},
        roundVictim env t secFreed r = (t', found, segno, r1) → Custody r1 := fun hv => by
      have hlog := roundVictim_log env t secFreed r
      rw [hv] at hlog
      have hg := (@roundVictim_refs g W env t secFreed r).1
      rw [hv] at hg
      exact hc.of_checkpointLog (roundVictim_ledger hv hc.ledger) hg hlog
    rcases gcMore_cases h with ⟨-, rfl⟩ | ⟨t', segno, r1, hv, rfl⟩ |
      ⟨t', segno, r1, i, r2, hv, hcs, ⟨-, -, hmore⟩ | rfl⟩
    · exact gcStop_migratesHeld hc
    · exact gcStop_migratesHeld (hround hv)
    all_goals
      have hc2 : Custody (endRound t' r2) := by
        have hc1 := collectSection_custody segno t' _ 0 r1 hcs (hround hv)
        exact ⟨endRound_ledger hc1.ledger, by unfold endRound; split_ifs <;> exact hc1.good,
          by rw [endRound_log]; exact hc1.log⟩
    · exact gcMore_custody fuel _ _ 0 _ hmore hc2
    · exact gcStop_migratesHeld
        (hc2.of_checkpointLog (lastRound_ledger hc2.ledger)
          (by unfold lastRound checkpointR; split_ifs <;> rfl) (lastRound_log env sync t' _))

end Rounds

/-- No use after `iput`: every block a call of `f2fs_gc` that returns hands to a migration
routine, it hands over through a good in-core inode on which it holds a reference at that moment.
Before the hand-over, the call took more references on that inode with `f2fs_iget` than it gave
back with `iput`. -/
theorem f2fsGc_migrates_held (env : Env g W) (sync : Bool) (fuel : Nat) (x : World g W)
    {out : Int × GcState g W} (h : f2fsGc env sync fuel x = .ok out) :
    ∀ pre post segno off how i bidx cls,
      out.2.log = pre ++ Event.migrate segno off how i bidx cls :: post →
        i.bad = false ∧ (iputs pre).count i < (igets pre).count i :=
  gcMore_custody _ _ _ _ _ h (.init x)

theorem f2fsGc_migrates_held_ownedData :
    ∃ out, f2fsGc ownedDataEnv true 1 ⟨liveNodeSit, ()⟩ = .ok out ∧
      ∀ pre post segno off how i bidx cls,
        out.2.log = pre ++ Event.migrate segno off how i bidx cls :: post →
          i.bad = false ∧ (iputs pre).count i < (igets pre).count i :=
  have ⟨out, h⟩ := exists_ok_of_isOk
    (show (f2fsGc ownedDataEnv true 1 ⟨liveNodeSit, ()⟩).isOk = true by decide)
  ⟨out, h, f2fsGc_migrates_held ownedDataEnv true 1 _ h⟩

end F2fsGc
