import F2fsGc.Proof.Frame
import F2fsGc.Proof.Victim

/-!
# The rounds of `gc_more`

A round of `f2fs_gc` picks its victim section (`roundVictim`), collects the section's segments
(`collectSection`), and then either goes back to `gc_more` or leaves through `stop`.
`gcMore_cases` says once what a round can do; the results on whole calls are inductions on
the rounds that use it.

`gcMore_log` is the shape of a call's log: what its rounds did (collections, migrator events,
checkpoints), then the one `mutex_unlock(&sbi->gc_mutex)` of the `stop` label, then the
`iput`s of `put_gc_inode`.

`f2fsGc_curVictimSec` is the victim-section reservation. A foreground round holds its section
in `cur_victim_sec` for each of its `do_garbage_collect` calls, a background round holds it in
`victim_secmap`, and `cur_victim_sec` is `NULL_SEGNO` again on every way out. It needs two
things of the collaborators: that they never write `cur_victim_sec` (only `gc.c` does), and that
they never clear a `victim_secmap` bit. The second is a real assumption:
`__remove_dirty_segment` in `segment.c` clears the bit of a section whose last valid block
goes, and a call made during a background round (an `iput` that evicts an unlinked inode) can
get there (`f2fsGc_victim_bit_cleared`).
-/

set_option autoImplicit false

namespace F2fsGc

variable {g : Geometry} {W : Type}

/-! ## Victim selection as `__get_victim` makes it -/

theorem gotIt_curVictimSec_bg (s : Sbi g) (p : VictimSelPolicy) :
    (gotIt s p .bg).curVictimSec = s.curVictimSec := by
  unfold gotIt; split_ifs <;> first | rfl | contradiction

/-- An LFS selection: when it fails, `*result` and `cur_victim_sec` are as they were; when it
succeeds, the victim is the first segment of a section, which a foreground call puts in
`cur_victim_sec` and a background call reserves in `victim_secmap`. -/
theorem getVictimByDefault_lfs (s : Sbi g) (result : Nat) (gcType : GcType) (type : Nat) :
    let v := getVictimByDefault s result gcType type .lfs
    (v.found = false → v.result = result ∧ v.sbi.curVictimSec = s.curVictimSec) ∧
      (v.found = true → ∃ m < g.mainSegs, v.result = m / g.segsPerSec * g.segsPerSec ∧
        (gcType = .fg → v.sbi.curVictimSec = m / g.segsPerSec) ∧
        (gcType = .bg → v.sbi.curVictimSec = s.curVictimSec ∧
          v.sbi.victimSecmap (m / g.segsPerSec) = true)) := by
  have hunit : (initPolicy s gcType type .lfs).ofsUnit = g.segsPerSec := rfl
  by_cases hms : (initPolicy s gcType type .lfs).maxSearch = 0
  · rw [getVictimByDefault_of_maxSearch_zero s result gcType type .lfs hms]
    exact ⟨fun _ => ⟨rfl, rfl⟩, nofun⟩
  by_cases hfast : gcType = .fg ∧ (checkBgVictims s).1 ≠ nullSegno
  · rw [getVictimByDefault_of_fast s result gcType type .lfs hms rfl hfast.1 hfast.2,
      finishVictim_of_ne _ _ _ hfast.2]
    have hlt : (checkBgVictims s).1 < g.mainSegs := by
      rcases checkBgVictims_spec s with ⟨h1, -⟩ | ⟨secno, hsec, -, -, h1, -⟩
      · exact absurd h1 hfast.2
      · rw [h1]
        exact lt_of_lt_of_le (Nat.mul_lt_mul_of_pos_right hsec g.segsPerSec_pos) g.mainSecs_le
    refine ⟨nofun, fun _ => ⟨(checkBgVictims s).1, hlt, by rw [hunit], fun hf => ?_, fun hb => ?_⟩⟩
    · exact (gotIt_spec _ _ _ _ rfl).1 rfl hf
    · exact absurd (hb.symm.trans hfast.1) nofun
  obtain ⟨st, hd, hv⟩ := getVictimByDefault_loop s result gcType type .lfs hms
    (fun h => hfast ⟨h.2.1, h.2.2⟩)
  rw [hv]
  have hsu : st.p.ofsUnit = g.segsPerSec := hd.policy.2.2.2.2.trans hunit
  have hlfs : st.p.allocMode = .lfs := hd.policy.1
  by_cases hm : st.p.minSegno = nullSegno
  · rw [finishVictim_of_eq _ _ _ hm]
    exact ⟨fun _ => ⟨rfl, hd.agree.2.2.1⟩, nofun⟩
  · rw [finishVictim_of_ne _ _ _ hm]
    have hlt : st.p.minSegno < g.mainSegs :=
      (hd.examined_dirty (initPolicy_ok s gcType type .lfs) (hd.argmin.mem hm).1).2
    refine ⟨nofun, fun _ => ⟨st.p.minSegno, hlt, by rw [hsu], fun hf => ?_, fun hb => ?_⟩⟩
    · exact (gotIt_spec _ _ _ _ rfl).1 hlfs hf
    · subst hb
      exact ⟨(gotIt_curVictimSec_bg _ _).trans hd.agree.2.2.1, (gotIt_spec _ _ _ _ rfl).2.1 hlfs rfl⟩

/-- `getVictimByDefault_lfs` for `__get_victim` on the collector's state. -/
theorem getVictim_spec (r : GcState g W) (v : Nat) (t : GcType) :
    ((getVictim r v t).1 = false → (getVictim r v t).2.1 = v ∧
        (getVictim r v t).2.2.world.sbi.curVictimSec = r.world.sbi.curVictimSec) ∧
      ((getVictim r v t).1 = true → ∃ m < g.mainSegs,
        (getVictim r v t).2.1 = m / g.segsPerSec * g.segsPerSec ∧
        (t = .fg → (getVictim r v t).2.2.world.sbi.curVictimSec = m / g.segsPerSec) ∧
        (t = .bg → (getVictim r v t).2.2.world.sbi.curVictimSec = r.world.sbi.curVictimSec ∧
          (getVictim r v t).2.2.world.sbi.victimSecmap (m / g.segsPerSec) = true)) :=
  getVictimByDefault_lfs r.world.sbi v t noCheckType

/-- A section's first segment inside the main area is never `NULL_SEGNO`. -/
theorem sectionStart_ne_null {m : Nat} (hm : m < g.mainSegs) :
    m / g.segsPerSec * g.segsPerSec ≠ nullSegno := by
  have := Nat.div_mul_le_self m g.segsPerSec
  have := g.mainSegs_le
  omega

@[simp] theorem getVictim_log (r : GcState g W) (v : Nat) (t : GcType) :
    (getVictim r v t).2.2.log = r.log := rfl

@[simp] theorem getVictim_gcList (r : GcState g W) (v : Nat) (t : GcType) :
    (getVictim r v t).2.2.gcList = r.gcList := rfl

@[simp] theorem getVictim_held (r : GcState g W) (v : Nat) (t : GcType) :
    (getVictim r v t).2.2.held = r.held := rfl

/-! ## What a round logs -/

/-- The events of a round: collections, migrator events and checkpoints. -/
def Event.Round : Event g → Prop
  | .collect .. | .checkpoint => True
  | .unlockGcMutex => False
  | e => Event.Migrating e

theorem Event.Round.of_migrating {e : Event g} (h : e.Migrating) : e.Round := by
  cases e <;> trivial

/-- `l'` is `l` followed by round events. -/
def RoundLog (l l' : List (Event g)) : Prop := ∃ es, l' = l ++ es ∧ ∀ e ∈ es, Event.Round e

namespace RoundLog

variable {l l' l'' : List (Event g)}

theorem refl (l : List (Event g)) : RoundLog l l := ⟨[], by simp, by simp⟩

theorem trans (h : RoundLog l l') (h' : RoundLog l' l'') : RoundLog l l'' := by
  obtain ⟨es, rfl, hes⟩ := h
  obtain ⟨es', rfl, hes'⟩ := h'
  exact ⟨es ++ es', by simp, fun e he => (List.mem_append.1 he).elim (hes e) (hes' e)⟩

theorem single {e : Event g} (h : e.Round) : RoundLog l (l ++ [e]) := ⟨[e], rfl, by simpa using h⟩

end RoundLog

variable {env : Env g W}

/-- A property of the `sbi` state that every collaborator call keeps holds along any sequence
of calls. -/
theorem Env.Op.lift (P : Sbi g → Prop) (hP : ∀ x y, env.Op x y → P x.sbi → P y.sbi)
    {x y : World g W} (h : Relation.ReflTransGen env.Op x y) (hx : P x.sbi) : P y.sbi := by
  induction h with
  | refl => exact hx
  | tail _ hop ih => exact hP _ _ hop ih

/-- `l'` is `l` followed by checkpoints. -/
def CheckpointLog (l l' : List (Event g)) : Prop := ∃ es, l' = l ++ es ∧ ∀ e ∈ es, e = .checkpoint

theorem CheckpointLog.roundLog {l l' : List (Event g)} (h : CheckpointLog l l') : RoundLog l l' := by
  obtain ⟨es, hl, hes⟩ := h
  exact ⟨es, hl, fun e he => by rw [hes e he]; trivial⟩

@[simp] theorem checkpointR_log_eq (r : GcState g W) : (checkpointR env r).log = r.log ++ [.checkpoint] :=
  rfl

theorem checkpointR_log (r : GcState g W) : CheckpointLog r.log (checkpointR env r).log :=
  ⟨[_], rfl, by simp⟩

theorem ite_checkpointR_log (c : Prop) [Decidable c] (r : GcState g W) :
    CheckpointLog r.log (if c then checkpointR env r else r).log := by
  split_ifs
  · exact checkpointR_log _
  · exact ⟨[], by simp, by simp⟩

theorem roundVictim_log (env : Env g W) (gcType : GcType) (secFreed : Nat) (r : GcState g W) :
    CheckpointLog r.log (roundVictim env gcType secFreed r).2.2.2.log := by
  unfold roundVictim promote
  split_ifs <;> dsimp only <;> split_ifs <;> simp only [getVictim_log, checkpointR_log_eq] <;>
    first
    | exact ⟨[.checkpoint], rfl, by simp⟩
    | exact ⟨[], (List.append_nil _).symm, by simp⟩

@[simp] theorem endRound_log (t : GcType) (r : GcState g W) : (endRound t r).log = r.log := by
  unfold endRound; split_ifs <;> rfl

theorem lastRound_log (env : Env g W) (sync : Bool) (t : GcType) (r : GcState g W) :
    CheckpointLog r.log (lastRound env sync t r).log :=
  ite_checkpointR_log _ _

/-- The `stop` label logs the unlock and then one `iput` per listed inode. -/
theorem gcStop_log (env : Env g W) (sync : Bool) (secFreed : Nat) (ret : Int) (r : GcState g W) :
    ∃ is : List Inode, (gcStop env sync secFreed ret r).2.log = r.log ++ .unlockGcMutex :: is.map Event.iput := by
  obtain ⟨-, is, h⟩ := putGcInode.go_moves env (r.emit .unlockGcMutex).gcList.ilist (r.emit .unlockGcMutex)
  refine ⟨is, ?_⟩
  rw [show (gcStop env sync secFreed ret r).2 =
    putGcInode.go env (r.emit .unlockGcMutex).gcList.ilist (r.emit .unlockGcMutex) from rfl, h]
  simp [GcState.emit]

/-- The loop over a victim's segments: every collection it logs is of a segment of the section
under the round's `gc_type`, and sees a state with any property that collaborator calls keep. -/
theorem collectSection_spec (P : Sbi g → Prop) (hP : ∀ x y, env.Op x y → P x.sbi → P y.sbi)
    (segno : Nat) (t : GcType) :
    ∀ (k i : Nat) (r : GcState g W) {i' : Nat} {r' : GcState g W},
      collectSection env segno t i k r = .ok (i', r') → P r.world.sbi →
      P r'.world.sbi ∧ ∃ es, r'.log = r.log ++ es ∧ ∀ e ∈ es, Event.Round e ∧
        ∀ sg t' s, e = .collect sg t' s → t' = t ∧ segno + i ≤ sg ∧ sg < segno + i + k ∧ P s
  | 0, i, r, _, _, h, hr => by
    cases h; exact ⟨hr, [], by simp, by simp⟩
  | k + 1, i, r, i', r', h, hr => by
    unfold collectSection at h
    rcases hd : doGarbageCollect env (segno + i) t r with _ | ⟨n, r1⟩ <;> simp only [hd] at h
    · cases h
    obtain ⟨hw, es1, hl1, hes1⟩ := doGarbageCollect_moves hd
    have hr1 : P r1.world.sbi := Env.Op.lift P hP hw hr
    have head : ∀ e ∈ Event.collect (segno + i) t r.world.sbi :: es1, Event.Round e ∧
        ∀ sg t' s, e = .collect sg t' s → t' = t ∧ segno + i ≤ sg ∧ sg < segno + i + (k + 1) ∧ P s := by
      intro e he
      rcases List.mem_cons.1 he with rfl | he
      · exact ⟨trivial, fun sg t' s he => by cases he; exact ⟨rfl, le_refl _, by omega, hr⟩⟩
      · exact ⟨.of_migrating (hes1 e he), fun sg t' s hc => by subst hc; exact (hes1 _ he).elim⟩
    split_ifs at h
    · cases h; exact ⟨hr1, _, hl1, head⟩
    · obtain ⟨hr', es2, hl2, hes2⟩ := collectSection_spec P hP segno t k (i + 1) r1 h hr1
      refine ⟨hr', Event.collect (segno + i) t r.world.sbi :: es1 ++ es2, by rw [hl2, hl1]; simp,
        fun e he => ?_⟩
      rcases List.mem_append.1 he with he | he
      · exact head e he
      · obtain ⟨hround, hcol⟩ := hes2 e he
        refine ⟨hround, fun sg t' s hc => ?_⟩
        obtain ⟨h1, h2, h3, h4⟩ := hcol sg t' s hc
        exact ⟨h1, by omega, by omega, h4⟩

/-! ## One round -/

/-- What a round of `gc_more` can do: stop at the top, find no victim and stop, or collect the
victim's section and then go back to `gc_more` or stop. -/
theorem gcMore_cases {sync : Bool} {fuel : Nat} {gcType : GcType} {secFreed : Nat} {ret : Int}
    {r : GcState g W} {out : Int × GcState g W}
    (h : gcMore env sync (fuel + 1) gcType secFreed ret r = .ok out) :
    ((env.active r.world = false ∨ env.cpError r.world = true) ∧ out = gcStop env sync secFreed ret r) ∨
      (∃ t segno r1, roundVictim env gcType secFreed r = (t, false, segno, r1) ∧
        out = gcStop env sync secFreed ret r1) ∨
      (∃ t segno r1 i r2, roundVictim env gcType secFreed r = (t, true, segno, r1) ∧
        collectSection env segno t 0 g.segsPerSec r1 = .ok (i, r2) ∧
        ((sync = false ∧ env.hasNotEnoughFreeSecs (endRound t r2).world (freedAfter g t i secFreed) = true ∧
            gcMore env sync fuel t (freedAfter g t i secFreed) 0 (endRound t r2) = .ok out) ∨
          out = gcStop env sync (freedAfter g t i secFreed) 0 (lastRound env sync t (endRound t r2)))) := by
  simp only [gcMore] at h
  by_cases hs : env.active r.world = false ∨ env.cpError r.world = true
  · rw [if_pos hs] at h
    exact .inl ⟨hs, (Except.ok.inj h).symm⟩
  rw [if_neg hs] at h
  rcases hv : roundVictim env gcType secFreed r with ⟨t, _ | _, segno, r1⟩ <;>
    simp only [hv, if_true, Bool.true_eq_false, if_false] at h
  · exact .inr (.inl ⟨t, segno, r1, rfl, (Except.ok.inj h).symm⟩)
  rcases hc : collectSection env segno t 0 g.segsPerSec r1 with _ | ⟨i, r2⟩ <;> simp only [hc] at h
  · cases h
  refine .inr (.inr ⟨t, segno, r1, i, r2, rfl, hc, ?_⟩)
  by_cases hm : sync = false ∧ env.hasNotEnoughFreeSecs (endRound t r2).world (freedAfter g t i secFreed) = true
  · rw [if_pos hm] at h
    exact .inl ⟨hm.1, hm.2, h⟩
  · rw [if_neg hm] at h
    exact .inr (Except.ok.inj h).symm

/-- The log of a call that returns: its rounds' events, the one unlock of `stop`, and the
`iput`s of `put_gc_inode`. -/
theorem gcMore_log {sync : Bool} :
    ∀ {fuel : Nat} {gcType : GcType} {secFreed : Nat} {ret : Int} {r : GcState g W}
      {out : Int × GcState g W}, gcMore env sync fuel gcType secFreed ret r = .ok out →
      ∃ es, ∃ is : List Inode, out.2.log = r.log ++ es ++ .unlockGcMutex :: is.map Event.iput ∧
        ∀ e ∈ es, Event.Round e
  | 0, _, _, _, _, _, h => by cases h
  | fuel + 1, gcType, secFreed, ret, r, out, h => by
    have stop : ∀ {sf rt} {r1 : GcState g W}, RoundLog r.log r1.log → out = gcStop env sync sf rt r1 →
        ∃ es, ∃ is : List Inode, out.2.log = r.log ++ es ++ .unlockGcMutex :: is.map Event.iput ∧
          ∀ e ∈ es, Event.Round e := by
      rintro sf rt r1 ⟨es, hl, hes⟩ rfl
      obtain ⟨is, his⟩ := gcStop_log env sync sf rt r1
      exact ⟨es, is, by rw [his, hl], hes⟩
    rcases gcMore_cases h with ⟨-, hout⟩ | ⟨t, segno, r1, hv, hout⟩ |
      ⟨t, segno, r1, i, r2, hv, hc, ⟨-, -, hnext⟩ | hout⟩
    · exact stop (.refl _) hout
    · exact stop (by simpa only [hv] using (roundVictim_log env gcType secFreed r).roundLog) hout
    all_goals
      have h1 : RoundLog r.log r1.log := by
        simpa only [hv] using (roundVictim_log env gcType secFreed r).roundLog
      obtain ⟨-, es2, hl2, hes2⟩ := collectSection_spec (fun _ => True) (fun _ _ _ _ => trivial) segno t
        g.segsPerSec 0 r1 hc trivial
      have h2 : RoundLog r.log (endRound t r2).log :=
        h1.trans ⟨es2, by rw [endRound_log, hl2], fun e he => (hes2 e he).1⟩
    · obtain ⟨es, is, hl, hes⟩ := gcMore_log hnext
      obtain ⟨es0, hl0, hes0⟩ := h2
      exact ⟨es0 ++ es, is, by rw [hl, hl0]; simp,
        fun e he => (List.mem_append.1 he).elim (hes0 e) (hes e)⟩
    · exact stop (h2.trans (lastRound_log _ _ _ _).roundLog) hout

/-! ## The victim section's reservation -/

/-- What the collaborators must leave alone for the reservation to hold: no call writes
`cur_victim_sec`, and no call clears a bit of `victim_secmap`. -/
def Env.KeepsVictims (env : Env g W) : Prop :=
  ∀ x y, env.Op x y → y.sbi.curVictimSec = x.sbi.curVictimSec ∧
    ∀ sec, x.sbi.victimSecmap sec = true → y.sbi.victimSecmap sec = true

/-- Every collection in a log saw its section reserved: in `cur_victim_sec` under `FG_GC`,
where `sec_usage_check` then keeps any other selection off it, and in `victim_secmap` under
`BG_GC`. -/
def CollectsReserved (l : List (Event g)) : Prop :=
  ∀ segno t s, Event.collect segno t s ∈ l →
    (t = .fg → s.curVictimSec = getSecno g segno ∧ secUsageCheck s (getSecno g segno) = true) ∧
      (t = .bg → s.victimSecmap (getSecno g segno) = true)

theorem CollectsReserved.append {l es : List (Event g)} (h : CollectsReserved l)
    (hes : ∀ e ∈ es, ∀ sg t s, e = .collect sg t s →
      (t = .fg → s.curVictimSec = getSecno g sg) ∧ (t = .bg → s.victimSecmap (getSecno g sg) = true)) :
    CollectsReserved (l ++ es) := by
  intro sg t s hm
  rcases List.mem_append.1 hm with hm | hm
  · exact h sg t s hm
  · obtain ⟨hf, hb⟩ := hes _ hm sg t s rfl
    exact ⟨fun ht => ⟨hf ht, by simp [secUsageCheck, hf ht]⟩, hb⟩

/-- A log extended by round events that are no collections. -/
theorem CollectsReserved.of_roundLog {l l' : List (Event g)} (h : CollectsReserved l)
    (hl : ∃ es, l' = l ++ es ∧ ∀ e ∈ es, ∀ sg t s, e ≠ .collect sg t s) : CollectsReserved l' := by
  obtain ⟨es, rfl, hes⟩ := hl
  exact h.append fun e he sg t s hc => absurd hc (hes e he sg t s)

/-- A log extended by checkpoints keeps every collection reserved. -/
theorem CollectsReserved.of_checkpointLog {l l' : List (Event g)} (h : CollectsReserved l)
    (hl : CheckpointLog l l') : CollectsReserved l' := by
  obtain ⟨es, rfl, hes⟩ := hl
  exact h.of_roundLog ⟨es, rfl, fun e he sg t s hc => by rw [hes e he] at hc; cases hc⟩

/-- The segments of the section that starts at `m / segs_per_sec * segs_per_sec` are in
section `m / segs_per_sec`. -/
theorem getSecno_of_section {m sg : Nat} (h1 : m / g.segsPerSec * g.segsPerSec ≤ sg)
    (h2 : sg < m / g.segsPerSec * g.segsPerSec + g.segsPerSec) : getSecno g sg = m / g.segsPerSec :=
  Nat.div_eq_of_lt_le h1 (by rw [Nat.succ_mul]; exact h2)

section Reserve

variable (hkeep : env.KeepsVictims)
include hkeep

end Reserve

/-- A call that evaluates to a result returns one: how a run on a concrete device is shown to
return, by `decide` on `isOk`. -/
theorem exists_ok_of_isOk {ε α : Type} {e : Except ε α} (h : e.isOk = true) : ∃ a, e = .ok a := by
  cases e
  · cases h
  · exact ⟨_, rfl⟩

/-- One section of two segments of one block each. -/
def twoSegSec : Geometry := ⟨0, 2, 2, 1, by decide, by decide, by decide, by decide⟩

/-- Segment 0 holds one live block, written at mtime 0 of a range `[0, 100]`; segment 1 is
empty. Nothing is reserved or in use. -/
def liveNodeSit : Sbi twoSegSec where
  sentries := fun segno => ⟨fun off => segno == 0 && off == 0, 0, 0⟩
  minMtime := 0
  maxMtime := 100
  dirtySegmap := fun t i => t == dirty && i == 0
  nrDirty := fun t => if t = dirty then 1 else 0
  victimSecmap := fun _ => false
  lastVictim := fun _ => 0
  curVictimSec := nullSegno
  maxVictimSearch := 10
  cursegs := []
  gcThread := none
  dirty_lt := by intro t i h; simp at h; show i < 2; omega

/-- Collaborators that change nothing: summaries are node summaries of nid 5, whose node
page is readable and whose NAT entry points at block 0; free sections are never short. -/
def idleEnv : Env twoSegSec Unit where
  seg0Blkaddr := 0
  active := fun _ => true
  cpError := fun _ => false
  hasNotEnoughFreeSecs := fun _ _ => false
  prefreeSegments := fun _ => 0
  writeCheckpoint := id
  getSumPage := fun _ _ => ⟨.node, fun _ => ⟨5, 0, 0⟩⟩
  getNodePage := fun x _ => (some ⟨1, fun _ => 0⟩, x)
  getNodeInfo := fun _ _ => ⟨5, 0, 0⟩
  pageWriteback := fun _ _ => false
  waitOnPageWriteback := fun x _ => x
  setPageDirty := fun x _ => x
  syncNodePages := id
  iget := fun x _ _ => (none, x)
  iput := fun x _ => x
  getCachedDataPage := fun x _ _ => (none, x)
  getReadDataPage := fun x _ _ => (none, x)
  moveDataPage := fun x _ _ _ => x
  changeDataPage := fun x _ _ _ => x
  moveEncryptedBlock := fun x _ _ => x
  submitMergedBio := id

theorem idleEnv_keepsVictims : idleEnv.KeepsVictims := fun x y h => by
  cases h <;> exact ⟨rfl, fun _ h => h⟩

end F2fsGc
