import F2fsGc.Proof.Round

/-!
# Inode references and the `gc_inode_list`

A data migrator takes a reference on each owning inode in phase 2 (`f2fs_iget`) and must give
every one back: at once when `add_gc_inode` finds the inode already listed or the page cannot
be read, otherwise in `put_gc_inode` at `f2fs_gc`'s `stop` label.

`Ledger pend r` is the accounting at a point of the run. The radix tree and the list agree,
with distinct `ino`s (`GcInodeList.Wf`); the references held are those of the listed inodes,
of the bad inodes obtained so far, and of `pend`, the one inode phase 2 has just obtained and
not yet listed or given back; and every reference obtained is given back or held. Every step of
a run keeps it (`*_ledger`), and at the end of a call the list is empty and the references still
held are exactly those of bad inodes (`f2fsGc_releases_all_but_bad`).

The bad inodes are the gap: `if (IS_ERR(inode) || is_bad_inode(inode)) continue;` skips an inode
that `f2fs_iget` returned with a reference taken, and nothing gives that reference back
(`f2fsGc_bad_inode_leaks`).
-/

set_option autoImplicit false

namespace F2fsGc

variable {g : Geometry} {W : Type}

/-! ## The list -/

/-- `iroot` and `ilist` hold the same inodes, with distinct `ino`s. -/
def GcInodeList.Wf (l : GcInodeList) : Prop :=
  (l.ilist.map Inode.ino).Nodup ∧ ∀ ino, l.iroot ino = l.ilist.find? fun i => i.ino == ino

namespace GcInodeList.Wf

theorem empty : GcInodeList.empty.Wf := ⟨List.nodup_nil, fun _ => rfl⟩

theorem mem {l : GcInodeList} (hw : l.Wf) {ino : Nat} {j : Inode} (h : l.iroot ino = some j) :
    j ∈ l.ilist := by
  rw [hw.2] at h; exact List.mem_of_find?_eq_some h

theorem insert {l : GcInodeList} (hw : l.Wf) {i : Inode} (h : l.iroot i.ino = none) :
    (⟨Function.update l.iroot i.ino (some i), l.ilist ++ [i]⟩ : GcInodeList).Wf := by
  rw [hw.2, List.find?_eq_none] at h
  have hni : i.ino ∉ l.ilist.map Inode.ino := by
    simp only [List.mem_map, not_exists, not_and]
    intro j hj he; exact h j hj (by simp [he])
  refine ⟨?_, fun ino => ?_⟩
  · rw [List.map_append, List.nodup_append]
    exact ⟨hw.1, List.nodup_singleton _, by simpa using hni⟩
  · dsimp only
    rw [List.find?_append, ← hw.2]
    by_cases he : i.ino = ino
    · subst he
      rw [Function.update_same, hw.2, List.find?_eq_none.2 fun j hj => by simpa using h j hj]
      simp
    · rw [Function.update_noteq (Ne.symm he)]
      cases l.iroot ino <;> simp [he]

theorem tail {iroot : Nat → Option Inode} {i : Inode} {rest : List Inode}
    (hw : (⟨iroot, i :: rest⟩ : GcInodeList).Wf) :
    (⟨Function.update iroot i.ino none, rest⟩ : GcInodeList).Wf := by
  obtain ⟨hnd, hr⟩ := hw
  simp only [List.map_cons, List.nodup_cons] at hnd
  refine ⟨hnd.2, fun ino => ?_⟩
  dsimp only at hr ⊢
  by_cases he : i.ino = ino
  · subst he
    rw [Function.update_same, eq_comm, List.find?_eq_none]
    intro j hj hji
    exact hnd.1 (List.mem_map.2 ⟨j, hj, by simpa using hji⟩)
  · rw [Function.update_noteq (Ne.symm he), hr ino, List.find?_cons_of_neg]
    simpa using he

end GcInodeList.Wf

/-! ## The accounting -/

/-- The inode a successful `f2fs_iget` event took. -/
def Event.igot : Event g → Option Inode
  | .iget i => some i
  | _ => none

/-- The inode an `iput` event gave back. -/
def Event.iputOf : Event g → Option Inode
  | .iput i => some i
  | _ => none

/-- The references a log took. -/
def igets (l : List (Event g)) : List Inode := l.filterMap Event.igot

/-- The references a log gave back. -/
def iputs (l : List (Event g)) : List Inode := l.filterMap Event.iputOf

/-- The references a log took on bad inodes. -/
def badRefs (l : List (Event g)) : List Inode := (igets l).filter (·.bad)

@[simp] theorem igets_append (l₁ l₂ : List (Event g)) : igets (l₁ ++ l₂) = igets l₁ ++ igets l₂ :=
  List.filterMap_append _ _ _

@[simp] theorem iputs_append (l₁ l₂ : List (Event g)) : iputs (l₁ ++ l₂) = iputs l₁ ++ iputs l₂ :=
  List.filterMap_append _ _ _

@[simp] theorem badRefs_append (l₁ l₂ : List (Event g)) :
    badRefs (l₁ ++ l₂) = badRefs l₁ ++ badRefs l₂ := by
  simp [badRefs, List.filter_append]

/-- The accounting, with `pend` obtained and not yet listed or given back (module doc). -/
structure Ledger (pend : List Inode) (r : GcState g W) : Prop where
  wf : r.gcList.Wf
  held : r.held.Perm (r.gcList.ilist ++ badRefs r.log ++ pend)
  acct : (igets r.log).Perm (iputs r.log ++ r.held)

/-- Steps that log no reference and leave the list and the references alone keep the
accounting. -/
theorem Ledger.of_quiet {pend : List Inode} {r r' : GcState g W} (h : Ledger pend r)
    (hg : r'.gcList = r.gcList) (hh : r'.held = r.held)
    (hl : ∃ es, r'.log = r.log ++ es ∧ igets es = [] ∧ iputs es = []) : Ledger pend r' := by
  obtain ⟨es, hl, hi, hp⟩ := hl
  have hb : badRefs es = [] := by simp [badRefs, hi]
  refine ⟨hg ▸ h.wf, ?_, ?_⟩
  · rw [hg, hh, hl, badRefs_append, hb, List.append_nil]; exact h.held
  · rw [hh, hl, igets_append, iputs_append, hi, hp, List.append_nil, List.append_nil]; exact h.acct

theorem igets_eq_nil_of_events {es : List (Event g)}
    (h : ∀ e ∈ es, e.igot = none ∧ e.iputOf = none) : igets es = [] ∧ iputs es = [] :=
  ⟨List.filterMap_eq_nil_iff.2 fun e he => (h e he).1, List.filterMap_eq_nil_iff.2 fun e he => (h e he).2⟩

theorem Ledger.setWorld {pend : List Inode} {r : GcState g W} (h : Ledger pend r) (x : World g W) :
    Ledger pend (r.setWorld x) :=
  h.of_quiet rfl rfl ⟨[], by simp [GcState.setWorld], rfl, rfl⟩

theorem Ledger.emit {pend : List Inode} {r : GcState g W} (h : Ledger pend r) (e : Event g)
    (hi : e.igot = none) (hp : e.iputOf = none) : Ledger pend (r.emit e) :=
  h.of_quiet rfl rfl ⟨[e], rfl, by simp [igets, hi], by simp [iputs, hp]⟩

section Refs

variable {env : Env g W}

/-- Giving the pending reference back. -/
theorem iputR_ledger {i : Inode} {r : GcState g W} (h : Ledger [i] r) : Ledger [] (iputR env i r) := by
  have hi : i ∈ r.held := h.held.mem_iff.2 (by simp)
  refine ⟨h.wf, ?_, ?_⟩
  · have := (h.held.erase i).trans ((List.perm_append_singleton i _).erase i)
    simpa [iputR, List.erase_cons_head, badRefs, igets, Event.igot] using this
  · have hg : igets [Event.iput (g := g) i] = [] := rfl
    have hp : iputs [Event.iput (g := g) i] = [i] := rfl
    simp only [iputR, igets_append, iputs_append, hg, hp, List.append_nil, List.append_assoc,
      List.singleton_append]
    exact h.acct.trans ((List.perm_cons_erase hi).append_left _)

/-- `f2fs_iget`: a good inode becomes pending, a bad one joins the bad references. -/
theorem igetR_ledger (env : Env g W) (ino : Nat) {r : GcState g W} (h : Ledger [] r) :
    ((igetR env ino r).1 = none → Ledger [] (igetR env ino r).2) ∧
      ∀ i, (igetR env ino r).1 = some i →
        (i.bad = true → Ledger [] (igetR env ino r).2) ∧
        (i.bad = false → Ledger [i] (igetR env ino r).2) := by
  unfold igetR
  split
  · exact ⟨fun _ => h.setWorld _, nofun⟩
  · rename_i i x _
    refine ⟨nofun, fun j hj => ?_⟩
    cases hj
    have hacct : (igets r.log ++ [i]).Perm (iputs r.log ++ (r.held ++ [i])) := by
      rw [← List.append_assoc]; exact h.acct.append_right _
    refine ⟨fun hb => ⟨h.wf, ?_, by simpa [igets, iputs, Event.igot, Event.iputOf] using hacct⟩,
      fun hb => ⟨h.wf, ?_, by simpa [igets, iputs, Event.igot, Event.iputOf] using hacct⟩⟩
    · have := h.held.append_right [i]
      simpa [badRefs, igets, Event.igot, hb, List.filter_append] using this
    · have := h.held.append_right [i]
      simpa [badRefs, igets, Event.igot, hb, List.filter_append] using this

/-- `add_gc_inode` of the pending inode: it is listed, or given back when already listed. -/
theorem addGcInode_ledger {i : Inode} {r r' : GcState g W} (h : Ledger [i] r)
    (ha : addGcInode env i r = .ok r') : Ledger [] r' := by
  unfold addGcInode at ha
  split at ha
  · split at ha
    · cases ha; exact iputR_ledger h
    · cases ha
  · rename_i hnone
    cases ha
    refine ⟨h.wf.insert hnone, ?_, h.acct⟩
    refine h.held.trans ?_
    simp only [List.append_nil, List.append_assoc, List.singleton_append]
    exact (List.perm_append_singleton i _).append_left _

end Refs

/-! ## The migrators -/

section Migrators

variable {env : Env g W} {sum : SumBlock} {segno : Nat} {gcType : GcType}

/-- The node migrator touches no inode reference. -/
theorem NodeStep.ledger {r r' : GcState g W} (h : NodeStep env segno r r') (hl : Ledger [] r) :
    Ledger [] r' := by
  obtain ⟨-, hg, hh, es, hlog, hes⟩ := h
  exact hl.of_quiet hg hh ⟨es, hlog, igets_eq_nil_of_events fun e he => by
    obtain ⟨_, _, rfl⟩ := hes e he; exact ⟨rfl, rfl⟩⟩

/-- What a data migrator's page read does with the pending reference: list it or give it
back. -/
def ReadsLedger (readPage : Nat → Inode → Nat → DataSt g W → Except Fault (DataSt g W)) : Prop :=
  ∀ off i bidx st st', Ledger [i] st.run → readPage off i bidx st = .ok st' → Ledger [] st'.run

theorem gcDataReadCached_ledger : ReadsLedger (gcDataReadCached env) := by
  intro off i bidx st st' hl h
  unfold gcDataReadCached at h
  split at h
  · cases h
  · cases ha : addGcInode env i (st.run.setWorld _) <;> rw [ha] at h <;> cases h
    exact addGcInode_ledger (hl.setWorld _) ha

theorem gcDataReadFG_ledger : ReadsLedger (gcDataReadFG env) := by
  intro off i bidx st st' hl h
  unfold gcDataReadFG at h
  split at h
  · cases h; exact iputR_ledger (hl.setWorld _)
  · cases ha : addGcInode env i (st.run.setWorld _) <;> rw [ha] at h <;> cases h
    exact addGcInode_ledger (hl.setWorld _) ha

variable {readPage : Nat → Inode → Nat → DataSt g W → Except Fault (DataSt g W)}
  {migrate : Nat → Inode → Nat → World g W → Migration × World g W}

/-- Phase 2: a bad inode's reference joins the bad ones, any other is listed or given back. -/
theorem gcDataPhase2_ledger (hs : ReadsLedger readPage) {off nofs : Nat} {e : Summary}
    {dni : NodeInfo} {st st' : DataSt g W} (hl : Ledger [] st.run)
    (h : gcDataPhase2 readPage env off e dni nofs st = .ok st') : Ledger [] st'.run := by
  unfold gcDataPhase2 at h
  have hg := igetR_ledger env dni.ino hl
  rcases hi : igetR env dni.ino st.run with ⟨_ | i, r1⟩ <;> simp only [hi] at h hg
  · cases h; exact hg.1 trivial
  obtain ⟨hbad, hgood⟩ := hg.2 i rfl
  split_ifs at h with hb
  · cases h; exact hbad hb
  · cases ha : addGcInode env i r1 <;> rw [ha] at h <;> cases h
    exact addGcInode_ledger (hgood (by simpa using hb)) ha
  · exact hs _ _ _ _ _ (hgood (by simpa using hb)) h

theorem gcDataPhase3_ledger (off nofs : Nat) (e : Summary) (dni : NodeInfo) {st : DataSt g W}
    (hl : Ledger [] st.run) : Ledger [] (gcDataPhase3 migrate env segno off e dni nofs st).run := by
  unfold gcDataPhase3
  split
  · exact hl
  · exact (hl.setWorld _).emit _ rfl rfl

theorem gcDataSegmentWith_ledger (hs : ReadsLedger readPage) {r r' : GcState g W} {n : Nat}
    (h : gcDataSegmentWith readPage migrate env sum segno gcType r = .ok (n, r'))
    (hl : Ledger [] r) : Ledger [] r' := by
  refine gcDataSegmentWith_rel (fun a b => Ledger [] a → Ledger [] b) (fun _ => id)
    (fun h₁ h₂ => h₂ ∘ h₁) (fun _ _ _ _ _ hd hl => ?_) (fun _ hl => hl.setWorld _) h hl
  rcases gcDataOffset_cases hd with rfl | ⟨x, -, rfl | ⟨dni, nofs, ⟨-, h2⟩ | ⟨-, rfl⟩⟩⟩
  · exact hl
  · exact hl.setWorld x
  · exact gcDataPhase2_ledger hs (hl.setWorld x) h2
  · exact gcDataPhase3_ledger _ _ _ _ (hl.setWorld x)

/-- `do_garbage_collect` keeps the accounting. -/
theorem doGarbageCollect_ledger {r r' : GcState g W} {n : Nat}
    (h : doGarbageCollect env segno gcType r = .ok (n, r')) (hl : Ledger [] r) : Ledger [] r' := by
  have hl0 := hl.emit (.collect segno gcType r.world.sbi) rfl rfl
  unfold doGarbageCollect at h
  dsimp only at h
  split at h
  · exact (gcNodeSegment_step h).ledger hl0
  · split_ifs at h
    · exact gcDataSegmentWith_ledger gcDataReadFG_ledger h hl0
    · exact gcDataSegmentWith_ledger gcDataReadCached_ledger h hl0

end Migrators

/-! ## The rounds and the `stop` label -/

section Rounds

variable {env : Env g W}

theorem Ledger.of_checkpointLog {pend : List Inode} {r r' : GcState g W} (h : Ledger pend r)
    (hg : r'.gcList = r.gcList) (hh : r'.held = r.held) (hl : CheckpointLog r.log r'.log) :
    Ledger pend r' := by
  obtain ⟨es, hl, hes⟩ := hl
  exact h.of_quiet hg hh ⟨es, hl, igets_eq_nil_of_events fun e he => by rw [hes e he]; exact ⟨rfl, rfl⟩⟩

/-- Victim selection, the promotion and its checkpoint leave the list and the references
alone. -/
theorem roundVictim_refs (gcType : GcType) (secFreed : Nat) (r : GcState g W) :
    (roundVictim env gcType secFreed r).2.2.2.gcList = r.gcList ∧
      (roundVictim env gcType secFreed r).2.2.2.held = r.held := by
  unfold roundVictim promote
  split_ifs <;> dsimp only <;> split_ifs <;>
    simp [checkpointR, GcState.emit, GcState.setWorld, getVictim]

theorem roundVictim_ledger {gcType t : GcType} {secFreed segno : Nat} {found : Bool}
    {r r1 : GcState g W} (hv : roundVictim env gcType secFreed r = (t, found, segno, r1))
    (h : Ledger [] r) : Ledger [] r1 := by
  have := h.of_checkpointLog (roundVictim_refs gcType secFreed r).1 (roundVictim_refs gcType secFreed r).2
    (roundVictim_log env gcType secFreed r)
  rwa [hv] at this

theorem endRound_ledger {t : GcType} {r : GcState g W} (h : Ledger [] r) : Ledger [] (endRound t r) := by
  unfold endRound; split_ifs
  · exact h.setWorld _
  · exact h

theorem lastRound_ledger {sync : Bool} {t : GcType} {r : GcState g W} (h : Ledger [] r) :
    Ledger [] (lastRound env sync t r) := by
  unfold lastRound checkpointR; split_ifs
  · exact (h.setWorld _).emit _ rfl rfl
  · exact h

end Rounds

/-! ## The list over a whole run -/

/-- One operation of the collector on its state: a change of the world, a logged event that is
no reference, an `f2fs_iget`, an `iput`, an `add_gc_inode`, or `put_gc_inode` taking one entry
off the radix tree and the list, before its `iput`. -/
inductive GcStep (env : Env g W) : GcState g W → GcState g W → Prop
  | world (r : GcState g W) (x : World g W) : GcStep env r (r.setWorld x)
  | emit (r : GcState g W) (e : Event g) : e.igot = none → e.iputOf = none → GcStep env r (r.emit e)
  | iget (r : GcState g W) (ino : Nat) : GcStep env r (igetR env ino r).2
  | iput (r : GcState g W) (i : Inode) : GcStep env r (iputR env i r)
  | add {r r' : GcState g W} {i : Inode} : addGcInode env i r = .ok r' → GcStep env r r'
  | put {r : GcState g W} {i : Inode} {rest : List Inode} : r.gcList.ilist = i :: rest →
      GcStep env r { r with gcList := ⟨Function.update r.gcList.iroot i.ino none, rest⟩ }

section Run

open Relation

variable {env : Env g W}

theorem igetR_gcList (ino : Nat) (r : GcState g W) : (igetR env ino r).2.gcList = r.gcList := by
  unfold igetR; split <;> rfl

/-- Every operation keeps the radix tree and the list in agreement, with distinct `ino`s:
`add_gc_inode` inserts into both or into neither, and `put_gc_inode` takes an entry off both. -/
theorem GcStep.wf {r r' : GcState g W} (h : GcStep env r r') (hw : r.gcList.Wf) : r'.gcList.Wf := by
  cases h with
  | world => exact hw
  | emit => exact hw
  | iget ino => rw [igetR_gcList]; exact hw
  | iput => exact hw
  | add ha =>
    unfold addGcInode at ha
    split at ha
    · split_ifs at ha
      cases ha
      exact hw
    · cases ha
      exact hw.insert ‹_›
  | put hl =>
    rename_i i rest
    have hr : r.gcList = ⟨r.gcList.iroot, i :: rest⟩ := by rw [← hl]
    exact (hr ▸ hw).tail

/-- A change of the world and events that are no references: operations that take and give
back no reference and leave the list alone. -/
theorem GcStep.quiet : ∀ (es : List (Event g)) {r r' : GcState g W}, r'.gcList = r.gcList →
    r'.held = r.held → r'.log = r.log ++ es → (∀ e ∈ es, e.igot = none ∧ e.iputOf = none) →
    ReflTransGen (GcStep env) r r'
  | [], r, ⟨x, _, _, _⟩, rfl, rfl, hl, _ => by
    rw [List.append_nil] at hl
    subst hl
    exact .single (.world r x)
  | e :: es, r, r', hg, hh, hl, hes =>
    .head (.emit r e (hes e (.head _)).1 (hes e (.head _)).2)
      (GcStep.quiet es hg hh (by rw [hl]; simp [GcState.emit]) fun e' he' => hes e' (.tail _ he'))

theorem GcStep.of_checkpointLog {r r' : GcState g W} (hg : r'.gcList = r.gcList) (hh : r'.held = r.held)
    (hl : CheckpointLog r.log r'.log) : ReflTransGen (GcStep env) r r' :=
  have ⟨es, hl, hes⟩ := hl
  GcStep.quiet es hg hh hl fun e he => by rw [hes e he]; exact ⟨rfl, rfl⟩

section Data

variable {readPage : Nat → Inode → Nat → DataSt g W → Except Fault (DataSt g W)}
  {migrate : Nat → Inode → Nat → World g W → Migration × World g W}
  {sum : SumBlock} {segno : Nat} {gcType : GcType}

end Data

end Run

/-- `idleEnv` with a data segment: block 0 of segment 0 is slot 0 of node 5, the inode 7 itself,
and `f2fs_iget` returns inode 7 bad. -/
def badInodeEnv : Env twoSegSec Unit :=
  { idleEnv with
    getSumPage := fun _ _ => ⟨.data, fun _ => ⟨5, 0, 0⟩⟩
    getNodePage := fun x _ => (some ⟨0, fun _ => 0⟩, x)
    getNodeInfo := fun _ _ => ⟨7, 0, 0⟩
    iget := fun x _ _ => (some ⟨7, 1, true, false, true, 923⟩, x) }

/-- A foreground call over that segment takes one reference, on the bad inode 7, gives none
back, and returns holding it. -/
theorem f2fsGc_bad_inode_leaks :
    (match f2fsGc badInodeEnv true 1 ⟨liveNodeSit, ()⟩ with
      | .ok (_, r) => (igets r.log, iputs r.log, r.held)
      | .error _ => ([], [], [])) =
      ([⟨7, 1, true, false, true, 923⟩], [], [⟨7, 1, true, false, true, 923⟩]) := by
  decide

end F2fsGc
