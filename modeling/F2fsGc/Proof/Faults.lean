import F2fsGc.Proof.Ledger
import F2fsGc.Proof.Reclaim
import F2fsGc.Proof.Thread

/-!
# How a collection can fail

The model has three faults. `Fault.outOfFuel` is the model's own: `gc_more` has no bound in the
C, and `gcMore` counts its rounds. The other two are the code's. `gc_data_segment` tests
`PageUptodate` on what `get_cached_data_page` returned before it tests `IS_ERR`, and so
dereferences an `ERR_PTR` (`Fault.oops`). `add_gc_inode` retries `f2fs_radix_tree_insert` for
as long as it fails, which is forever when another in-core inode of the same `ino` is listed
(`Fault.hang`). The model takes the `kzalloc` of `gc_data_segment`'s `array`, whose result the C
never tests, to succeed: a `NULL` there would be one more oops of the background migrator, at
its first write to `array` in phase 2.

`doGarbageCollect_error` says these are the only ways a collection fails, and where: only a
data segment's collection fails, and only a background one can take the oops. A `sync` call of
`f2fs_gc` never goes back to `gc_more`, so it is one foreground round whatever the round budget,
and it fails only by the hang (`f2fsGc_sync_one_round`).

The hang needs `f2fs_iget` to hand out a second in-core inode for an `ino` the collector holds.
When it does not (`Env.IgetStable`), every inode `add_gc_inode` finds listed under the `ino` is
the inode itself, because the listed inodes are held (`Ledger`); so a `sync` call always returns
(`f2fsGc_sync_returns`).
-/

set_option autoImplicit false

namespace F2fsGc

variable {g : Geometry} {W : Type}

theorem Except.map_eq_error {ε α β : Type} {f : α → β} {x : Except ε α} {e : ε}
    (h : x.map f = .error e) : x = .error e := by
  cases x
  · simpa [Except.map] using h
  · cases h

/-- A loop fails only as one of its iterations does. -/
theorem forUntil_error {α σ : Type} (P : Fault → Prop) {body : α → σ → Except Fault (Bool × σ)} :
    ∀ {l : List α}, (∀ a ∈ l, ∀ s e, body a s = .error e → P e) →
      ∀ {s : σ} {e : Fault}, forUntil body l s = .error e → P e
  | [], _, _, _, h => by cases h
  | a :: as, hb, s, e, h => by
    unfold forUntil at h
    split at h
    · cases h
      exact hb a (.head _) _ _ ‹_›
    · cases h
    · exact forUntil_error P (fun a ha => hb a (.tail _ ha)) h

variable {env : Env g W}

theorem addGcInode_error {i : Inode} {r : GcState g W} {e : Fault}
    (h : addGcInode env i r = .error e) : e = .hang := by
  unfold addGcInode at h
  split at h
  · split_ifs at h
    cases h
    rfl
  · cases h

/-! ## The migrators -/

section Migrators

variable {sum : SumBlock} {segno : Nat} {gcType : GcType}

theorem gcNodeOffset_ne_error (initial : Bool) (off : Nat) (r : GcState g W) (e : Fault) :
    gcNodeOffset env sum segno gcType initial off r ≠ .error e := by
  rcases gcNodeOffset_spec env sum segno gcType initial off r with ⟨-, h⟩ | ⟨_, h, -⟩ <;>
    rw [h] <;> nofun

/-- The node migrator never fails. -/
theorem gcNodeSegment_ne_error (r : GcState g W) (e : Fault) :
    gcNodeSegment env sum segno gcType r ≠ .error e := by
  intro h
  unfold gcNodeSegment at h
  rcases hl : forUntil (fun initial r => forUntil (gcNodeOffset env sum segno gcType initial)
      (List.range g.blocksPerSeg) r) [true, false] r with e' | ⟨b, r1⟩ <;> simp only [hl] at h
  · exact forUntil_error (fun _ => False) (fun _ _ _ _ hs => forUntil_error (fun _ => False)
      (fun _ _ _ _ ho => gcNodeOffset_ne_error _ _ _ _ ho) hs) hl
  · cases b
    · simp only at h
      split_ifs at h
    · cases h

theorem gcNodeSegment_ok (r : GcState g W) : ∃ n r', gcNodeSegment env sum segno gcType r = .ok (n, r') := by
  cases h : gcNodeSegment env sum segno gcType r with
  | error e => exact absurd h (gcNodeSegment_ne_error r e)
  | ok p => exact ⟨p.1, p.2, rfl⟩

theorem gcDataReadCached_error {off bidx : Nat} {i : Inode} {st : DataSt g W} {e : Fault}
    (h : gcDataReadCached env off i bidx st = .error e) : e = .oops ∨ e = .hang := by
  unfold gcDataReadCached at h
  split at h
  · cases h
    exact .inl rfl
  · exact .inr (addGcInode_error (Except.map_eq_error h))

theorem gcDataReadFG_error {off bidx : Nat} {i : Inode} {st : DataSt g W} {e : Fault}
    (h : gcDataReadFG env off i bidx st = .error e) : e = .hang := by
  unfold gcDataReadFG at h
  split at h
  · cases h
  · exact addGcInode_error (Except.map_eq_error h)

variable {readPage : Nat → Inode → Nat → DataSt g W → Except Fault (DataSt g W)}
  {migrate : Nat → Inode → Nat → World g W → Migration × World g W}
  (P : Fault → Prop) (hP : P .hang)
  (hr : ∀ off i bidx st e, readPage off i bidx st = .error e → P e)
include hP hr

theorem gcDataPhase2_error {off nofs : Nat} {entry : Summary} {dni : NodeInfo} {st : DataSt g W}
    {e : Fault} (h : gcDataPhase2 readPage env off entry dni nofs st = .error e) : P e := by
  unfold gcDataPhase2 at h
  rcases hi : igetR env dni.ino st.run with ⟨_ | i, r1⟩ <;> simp only [hi] at h
  · cases h
  by_cases hb : i.bad = true
  · rw [if_pos hb] at h; cases h
  rw [if_neg hb] at h
  by_cases he : i.encrypted = true ∧ i.regular = true
  · rw [if_pos he] at h
    exact addGcInode_error (Except.map_eq_error h) ▸ hP
  · rw [if_neg he] at h
    exact hr _ _ _ _ _ h

theorem gcDataOffset_error {phase off : Nat} {st : DataSt g W} {e : Fault}
    (h : gcDataOffset readPage migrate env sum segno gcType phase off st = .error e) : P e := by
  unfold gcDataOffset at h
  by_cases h1 : gcType = .bg ∧ env.hasNotEnoughFreeSecs st.run.world 0 = true
  · rw [if_pos h1] at h; cases h
  by_cases h2 : checkValidMap st.run.world.sbi segno off = false
  · rw [if_neg h1, if_pos h2] at h; cases h
  by_cases h3 : phase = 0
  · rw [if_neg h1, if_neg h2, if_pos h3] at h; cases h
  rw [if_neg h1, if_neg h2, if_neg h3] at h
  split at h
  · cases h
  · dsimp only at h
    by_cases h4 : phase = 1
    · rw [if_pos h4] at h; cases h
    by_cases h5 : phase = 2
    · rw [if_neg h4, if_pos h5] at h
      exact gcDataPhase2_error P hP hr (Except.map_eq_error h)
    · rw [if_neg h4, if_neg h5] at h; cases h

/-- A data migrator fails only as its page read does, or by the hang. -/
theorem gcDataSegmentWith_error {r : GcState g W} {e : Fault}
    (h : gcDataSegmentWith readPage migrate env sum segno gcType r = .error e) : P e := by
  unfold gcDataSegmentWith at h
  rcases hl : forUntil (fun phase st => forUntil (gcDataOffset readPage migrate env sum segno gcType phase)
      (List.range g.blocksPerSeg) st) [0, 1, 2, 3] ⟨r, fun _ => 0⟩ with e' | ⟨b, st1⟩ <;>
    simp only [hl] at h
  · cases h
    exact forUntil_error P (fun _ _ _ _ hs => forUntil_error P
      (fun _ _ _ _ => gcDataOffset_error P hP hr) hs) hl
  · cases b
    · simp only at h
      split_ifs at h
    · cases h

end Migrators

/-- A collection fails only on a data segment, and only by `add_gc_inode`'s endless retry or,
in the background, by the `ERR_PTR` dereference of `gc_data_segment` (whose `kzalloc` of `array`
the model takes to succeed). -/
theorem doGarbageCollect_error {segno : Nat} {gcType : GcType} {r : GcState g W} {e : Fault}
    (h : doGarbageCollect env segno gcType r = .error e) :
    (env.getSumPage r.world segno).type = .data ∧ (e = .hang ∨ gcType = .bg ∧ e = .oops) := by
  unfold doGarbageCollect at h
  dsimp only at h
  split at h
  · exact absurd h (gcNodeSegment_ne_error _ _)
  · rename_i hty
    refine ⟨hty, ?_⟩
    split_ifs at h with hfg
    · exact .inl (gcDataSegmentWith_error (· = .hang) rfl (fun _ _ _ _ _ => gcDataReadFG_error) h)
    · have hbg : gcType = .bg := by
        cases gcType
        · rfl
        · exact absurd rfl hfg
      exact (gcDataSegmentWith_error (fun e => e = .oops ∨ e = .hang) (.inr rfl)
        (fun _ _ _ _ _ => gcDataReadCached_error) h).elim (fun ho => .inr ⟨hbg, ho⟩) .inl

theorem doGarbageCollect_error_ownedData :
    doGarbageCollect ownedDataEnv 0 .bg ⟨⟨liveNodeSit, ()⟩, .empty, [], []⟩ = .error .oops ∧
      ((ownedDataEnv.getSumPage ⟨liveNodeSit, ()⟩ 0).type = .data ∧
        (Fault.oops = .hang ∨ GcType.bg = .bg ∧ Fault.oops = .oops)) :=
  have h : doGarbageCollect ownedDataEnv 0 .bg ⟨⟨liveNodeSit, ()⟩, .empty, [], []⟩ = .error .oops :=
    rfl
  ⟨h, doGarbageCollect_error h⟩

/-! ## A `sync` call is one round -/

theorem collectSection_error {segno : Nat} {t : GcType} :
    ∀ {k i : Nat} {r : GcState g W} {e : Fault}, collectSection env segno t i k r = .error e →
      e = .hang ∨ t = .bg ∧ e = .oops
  | 0, _, _, _, h => by cases h
  | k + 1, i, r, e, h => by
    unfold collectSection at h
    rcases hd : doGarbageCollect env (segno + i) t r with e' | ⟨n, r1⟩ <;> simp only [hd] at h
    · cases h
      exact (doGarbageCollect_error hd).2
    · by_cases hb : n = 0 ∧ t = .fg
      · rw [if_pos hb] at h; cases h
      · rw [if_neg hb] at h
        exact collectSection_error h

/-- `gc_more` with `sync` never goes back to the label. -/
theorem gcMore_sync_fuel (fuel : Nat) (gcType : GcType) (secFreed : Nat) (ret : Int)
    (r : GcState g W) :
    gcMore env true (fuel + 1) gcType secFreed ret r = gcMore env true 1 gcType secFreed ret r := by
  simp only [gcMore, Bool.true_eq_false, false_and, if_false]

/-- A `sync` round fails only as its victim's collection does. -/
theorem gcMore_sync_error {gcType : GcType} {secFreed : Nat} {ret : Int} {r : GcState g W}
    {e : Fault} (h : gcMore env true 1 gcType secFreed ret r = .error e) :
    ∃ t segno r1, roundVictim env gcType secFreed r = (t, true, segno, r1) ∧
      collectSection env segno t 0 g.segsPerSec r1 = .error e := by
  simp only [gcMore] at h
  by_cases hs : env.active r.world = false ∨ env.cpError r.world = true
  · rw [if_pos hs] at h; cases h
  rw [if_neg hs] at h
  rcases hv : roundVictim env gcType secFreed r with ⟨t, _ | _, segno, r1⟩ <;>
    simp only [hv, if_true, Bool.true_eq_false, if_false] at h
  · cases h
  rcases hc : collectSection env segno t 0 g.segsPerSec r1 with e' | ⟨i, r2⟩ <;> simp only [hc] at h
  · cases h
    exact ⟨t, segno, r1, rfl, hc⟩
  · simp only [Bool.true_eq_false, false_and, if_false] at h
    cases h

/-- A `sync` call of `f2fs_gc` is one round: with any budget of at least one round it does what
it does with one, and it fails only by `add_gc_inode`'s endless retry. -/
theorem f2fsGc_sync_one_round (env : Env g W) (fuel : Nat) (x : World g W) (hfuel : 0 < fuel) :
    f2fsGc env true fuel x = f2fsGc env true 1 x ∧
      ∀ e, f2fsGc env true 1 x = .error e → e = .hang := by
  obtain ⟨n, rfl⟩ : ∃ n, fuel = n + 1 := ⟨fuel - 1, by omega⟩
  refine ⟨gcMore_sync_fuel n _ _ _ _, fun e h => ?_⟩
  obtain ⟨t, segno, r1, hv, hc⟩ := gcMore_sync_error h
  rcases collectSection_error hc with he | ⟨rfl, -⟩
  · exact he
  · exact absurd (roundVictim_bg hv).1 nofun

theorem f2fsGc_sync_one_round_livelock :
    0 < 3 ∧ (f2fsGc livelockEnv true 3 ⟨liveNodeSit, ()⟩ = f2fsGc livelockEnv true 1 ⟨liveNodeSit, ()⟩ ∧
      ∀ e, f2fsGc livelockEnv true 1 ⟨liveNodeSit, ()⟩ = .error e → e = .hang) :=
  ⟨by decide, f2fsGc_sync_one_round livelockEnv 3 ⟨liveNodeSit, ()⟩ (by decide)⟩

/-! ## When `add_gc_inode` cannot spin -/

/-- `f2fs_iget` as the inode cache gives it: an inode of the `ino` asked for and, while the
collector holds a reference to an inode of that `ino`, that very inode. -/
def Env.IgetStable (env : Env g W) : Prop :=
  ∀ x held ino i x', env.iget x held ino = (some i, x') →
    i.ino = ino ∧ ∀ j ∈ held, j.ino = ino → j = i

theorem Ledger.listed_held {pend : List Inode} {r : GcState g W} (h : Ledger pend r) {j : Inode}
    (hj : j ∈ r.gcList.ilist) : j ∈ r.held :=
  h.held.mem_iff.2 (List.mem_append_left _ (List.mem_append_left _ hj))

/-- A loop returns, keeping `P`, when every iteration from a state with `P` returns and keeps
it. -/
theorem forUntil_ok_of {α σ : Type} (P : σ → Prop) {body : α → σ → Except Fault (Bool × σ)}
    (hb : ∀ a s, P s → ∃ b s', body a s = .ok (b, s') ∧ P s') :
    ∀ (l : List α) (s : σ), P s → ∃ b s', forUntil body l s = .ok (b, s') ∧ P s'
  | [], s, hs => ⟨false, s, rfl, hs⟩
  | a :: as, s, hs => by
    obtain ⟨b, s1, h1, hs1⟩ := hb a s hs
    cases b <;> simp only [forUntil, h1]
    · exact forUntil_ok_of P hb as s1 hs1
    · exact ⟨true, s1, rfl, hs1⟩

/-- `add_gc_inode` returns when every listed inode of the same `ino` is the inode itself. -/
theorem addGcInode_map_ok {β : Type} (f : GcState g W → β) {i : Inode} {r : GcState g W}
    (hw : r.gcList.Wf) (hi : ∀ j ∈ r.gcList.ilist, j.ino = i.ino → j = i) :
    ∃ b, (addGcInode env i r).map f = .ok b := by
  unfold addGcInode
  split
  · rename_i j hj
    have hf : r.gcList.ilist.find? (fun k => k.ino == i.ino) = some j := (hw.2 i.ino).symm.trans hj
    have hino : j.ino = i.ino := by simpa using List.find?_some hf
    rw [if_pos (hi j (hw.mem hj) hino).symm]
    exact ⟨_, rfl⟩
  · exact ⟨_, rfl⟩

theorem igetR_some {ino : Nat} {r r1 : GcState g W} {i : Inode} (h : igetR env ino r = (some i, r1)) :
    ∃ x, env.iget r.world r.held ino = (some i, x) ∧ r1.gcList = r.gcList := by
  unfold igetR at h
  split at h
  · cases h
  · rename_i x heq
    cases h
    exact ⟨x, heq, rfl⟩

theorem gcDataOffset_ledger {readPage : Nat → Inode → Nat → DataSt g W → Except Fault (DataSt g W)}
    {migrate : Nat → Inode → Nat → World g W → Migration × World g W} (hr : ReadsLedger readPage)
    {sum : SumBlock} {segno : Nat} {gcType : GcType} {phase off : Nat} {st st' : DataSt g W}
    {b : Bool} (hl : Ledger [] st.run)
    (h : gcDataOffset readPage migrate env sum segno gcType phase off st = .ok (b, st')) :
    Ledger [] st'.run := by
  rcases gcDataOffset_cases h with rfl | ⟨x, -, rfl | ⟨dni, nofs, ⟨-, h2⟩ | ⟨-, rfl⟩⟩⟩
  · exact hl
  · exact hl.setWorld x
  · exact gcDataPhase2_ledger hr (hl.setWorld x) h2
  · exact gcDataPhase3_ledger _ _ _ _ (hl.setWorld x)

section Progress

variable {sum : SumBlock} {segno : Nat} {gcType : GcType} (hs : env.IgetStable)
include hs

/-- Under a stable `f2fs_iget`, the inode phase 2 obtains is the only listed one of its `ino`. -/
theorem igetR_listed {ino : Nat} {r r1 : GcState g W} {i : Inode} (hl : Ledger [] r)
    (h : igetR env ino r = (some i, r1)) : ∀ j ∈ r1.gcList.ilist, j.ino = i.ino → j = i := by
  obtain ⟨x, hx, hg⟩ := igetR_some h
  obtain ⟨hino, hsame⟩ := hs _ _ _ _ _ hx
  intro j hj hji
  rw [hg] at hj
  exact hsame j (hl.listed_held hj) (hji.trans hino)

theorem gcDataPhase2_FG_ok (off nofs : Nat) (e : Summary) (dni : NodeInfo) (st : DataSt g W)
    (hl : Ledger [] st.run) : ∃ st', gcDataPhase2 (gcDataReadFG env) env off e dni nofs st = .ok st' := by
  unfold gcDataPhase2
  rcases hi : igetR env dni.ino st.run with ⟨_ | i, r1⟩
  · exact ⟨_, rfl⟩
  have hw : r1.gcList.Wf := by
    obtain ⟨-, -, hg⟩ := igetR_some hi
    exact hg ▸ hl.wf
  have hone := igetR_listed hs hl hi
  dsimp only
  by_cases hb : i.bad = true
  · rw [if_pos hb]; exact ⟨_, rfl⟩
  rw [if_neg hb]
  by_cases he : i.encrypted = true ∧ i.regular = true
  · rw [if_pos he]
    exact addGcInode_map_ok _ hw hone
  · rw [if_neg he]
    unfold gcDataReadFG
    split
    · exact ⟨_, rfl⟩
    · exact addGcInode_map_ok _ hw hone

theorem gcDataOffset_FG_ok {migrate : Nat → Inode → Nat → World g W → Migration × World g W}
    {phase off : Nat} {st : DataSt g W} (hl : Ledger [] st.run) :
    ∃ b st', gcDataOffset (gcDataReadFG env) migrate env sum segno gcType phase off st = .ok (b, st') := by
  unfold gcDataOffset
  by_cases h1 : gcType = .bg ∧ env.hasNotEnoughFreeSecs st.run.world 0 = true
  · rw [if_pos h1]; exact ⟨_, _, rfl⟩
  by_cases h2 : checkValidMap st.run.world.sbi segno off = false
  · rw [if_neg h1, if_pos h2]; exact ⟨_, _, rfl⟩
  by_cases h3 : phase = 0
  · rw [if_neg h1, if_neg h2, if_pos h3]; exact ⟨_, _, rfl⟩
  rw [if_neg h1, if_neg h2, if_neg h3]
  rcases ha : isAlive env st.run.world (sum.entries off) (blockAddr env segno off) with
    ⟨_ | ⟨dni, nofs⟩, x⟩
  · exact ⟨_, _, rfl⟩
  dsimp only
  by_cases h4 : phase = 1
  · rw [if_pos h4]; exact ⟨_, _, rfl⟩
  by_cases h5 : phase = 2
  · rw [if_neg h4, if_pos h5]
    obtain ⟨st', h⟩ := gcDataPhase2_FG_ok hs off nofs (sum.entries off) dni
      { st with run := st.run.setWorld x } (hl.setWorld x)
    exact ⟨false, st', by rw [h]; rfl⟩
  · rw [if_neg h4, if_neg h5]; exact ⟨_, _, rfl⟩

/-- The foreground data migrator returns. -/
theorem gcDataSegmentFG_ok {r : GcState g W} (hl : Ledger [] r) :
    ∃ n r', gcDataSegmentFG env sum segno gcType r = .ok (n, r') := by
  have hbody : ∀ (phase : Nat) (st : DataSt g W), Ledger [] st.run → ∃ b st',
      forUntil (gcDataOffset (gcDataReadFG env) (gcDataMoveFG env gcType) env sum segno gcType phase)
        (List.range g.blocksPerSeg) st = .ok (b, st') ∧ Ledger [] st'.run :=
    fun _ st hst => forUntil_ok_of (fun st : DataSt g W => Ledger [] st.run)
      (fun _ st hst => let ⟨b, st', h⟩ := gcDataOffset_FG_ok hs hst
        ⟨b, st', h, gcDataOffset_ledger gcDataReadFG_ledger hst h⟩) _ st hst
  obtain ⟨b, st, h, -⟩ := forUntil_ok_of _ hbody [0, 1, 2, 3] ⟨r, fun _ => 0⟩ hl
  unfold gcDataSegmentFG gcDataSegmentWith
  rw [h]
  cases b
  · dsimp only
    split_ifs <;> exact ⟨_, _, rfl⟩
  · exact ⟨_, _, rfl⟩

end Progress

section Returns

variable (hs : env.IgetStable)
include hs

/-- A foreground collection returns. -/
theorem doGarbageCollect_FG_ok (segno : Nat) {r : GcState g W} (hl : Ledger [] r) :
    ∃ n r', doGarbageCollect env segno .fg r = .ok (n, r') := by
  have hl0 := hl.emit (.collect segno .fg r.world.sbi) rfl rfl
  unfold doGarbageCollect
  dsimp only
  split
  · exact gcNodeSegment_ok _
  · rw [if_pos rfl]
    exact gcDataSegmentFG_ok hs hl0

/-- A foreground round's loop over its section returns. -/
theorem collectSection_FG_ok (segno : Nat) :
    ∀ (k i : Nat) (r : GcState g W), Ledger [] r → ∃ i' r', collectSection env segno .fg i k r = .ok (i', r')
  | 0, i, r, _ => ⟨i, r, rfl⟩
  | k + 1, i, r, hl => by
    obtain ⟨n, r1, hd⟩ := doGarbageCollect_FG_ok hs (segno + i) hl
    unfold collectSection
    rw [hd]
    dsimp only
    by_cases hb : n = 0 ∧ GcType.fg = .fg
    · rw [if_pos hb]; exact ⟨_, _, rfl⟩
    · rw [if_neg hb]
      exact collectSection_FG_ok segno k (i + 1) r1 (doGarbageCollect_ledger hd hl)

end Returns

theorem f2fsGc_sync_ok {env : Env g W} (hs : env.IgetStable) {fuel : Nat} (hfuel : 0 < fuel)
    (x : World g W) : ∃ out, f2fsGc env true fuel x = .ok out := by
  obtain ⟨n, rfl⟩ : ∃ n, fuel = n + 1 := ⟨fuel - 1, by omega⟩
  show ∃ out, gcMore env true (n + 1) .fg 0 (-einval) ⟨x, .empty, [], []⟩ = .ok out
  rw [gcMore_sync_fuel]
  rcases h : gcMore env true 1 .fg 0 (-einval) ⟨x, .empty, [], []⟩ with e | out
  · obtain ⟨t, segno, r1, hv, hc⟩ := gcMore_sync_error h
    have ht : t = .fg := by
      cases t
      · exact absurd (roundVictim_bg hv).1 nofun
      · rfl
    subst ht
    have h0 : Ledger [] (⟨x, .empty, [], []⟩ : GcState g W) :=
      ⟨.empty, by simp [GcInodeList.empty, badRefs, igets], by simp [igets, iputs]⟩
    obtain ⟨i, r2, hc'⟩ := collectSection_FG_ok hs segno g.segsPerSec 0 r1 (roundVictim_ledger hv h0)
    rw [hc'] at hc
    cases hc
  · exact ⟨out, rfl⟩

/-- With a stable `f2fs_iget`, a `sync` call of `f2fs_gc` returns, given one round. -/
theorem f2fsGc_sync_returns (env : Env g W) (hs : env.IgetStable) (fuel : Nat) (x : World g W)
    (hfuel : 0 < fuel) : ∃ out, f2fsGc env true fuel x = .ok out :=
  f2fsGc_sync_ok hs hfuel x

/-! ## The collector thread -/

section Thread

variable {tenv : ThreadEnv g W} {th : GcKthread} {gcFuel : Nat}

/-- A pass of `gc_thread_func` faults only as its call of `f2fs_gc` does. -/
theorem gcThreadBody_ok (hgc : ∀ y, ∃ out, f2fsGc tenv.gc tenv.forceFgGc gcFuel y = .ok out)
    (st : ThreadState g W) : ∃ b st', gcThreadBody tenv th gcFuel st = .ok (b, st') := by
  unfold gcThreadBody
  rcases tenv.tryToFreeze st.world with ⟨_ | _, x⟩
  · simp only [Bool.false_eq_true, if_false]
    generalize tenv.waitEvent x st.waitMs = y
    by_cases h1 : tenv.kthreadShouldStop y = true
    · rw [if_pos h1]; exact ⟨_, _, rfl⟩
    by_cases h2 : tenv.frozen y = true
    · rw [if_neg h1, if_pos h2]; exact ⟨_, _, rfl⟩
    by_cases h3 : tenv.mutexTrylock y = false
    · rw [if_neg h1, if_neg h2, if_pos h3]; exact ⟨_, _, rfl⟩
    by_cases h4 : tenv.isIdle y = false
    · rw [if_neg h1, if_neg h2, if_neg h3, if_pos h4]; exact ⟨_, _, rfl⟩
    obtain ⟨⟨ret, r⟩, hout⟩ := hgc y
    rw [if_neg h1, if_neg h2, if_neg h3, if_neg h4, hout]
    exact ⟨_, _, rfl⟩
  · exact ⟨_, _, rfl⟩

theorem gcThreadLoop_ok (hgc : ∀ y, ∃ out, f2fsGc tenv.gc tenv.forceFgGc gcFuel y = .ok out) :
    ∀ (n : Nat) (st : ThreadState g W), ∃ st', gcThreadLoop tenv th gcFuel n st = .ok st'
  | 0, st => ⟨st, rfl⟩
  | n + 1, st => by
    obtain ⟨b, st1, hb⟩ := gcThreadBody_ok hgc st
    unfold gcThreadLoop
    rw [hb]
    cases b
    · dsimp only
      split_ifs
      · exact ⟨st1, rfl⟩
      · exact gcThreadLoop_ok hgc n st1
    · exact ⟨st1, rfl⟩

end Thread

/-- With `FORCE_FG_GC` set and a stable `f2fs_iget`, the collector thread never faults: every
run of `gc_thread_func`, over any number of passes, returns. Each of its calls of `f2fs_gc` is a
`sync` one, a single foreground round. -/
theorem gcThreadFunc_forceFg_returns (tenv : ThreadEnv g W) (hs : tenv.gc.IgetStable)
    (hfg : tenv.forceFgGc = true) (th : GcKthread) (gcFuel n : Nat) (hfuel : 0 < gcFuel)
    (x : World g W) : ∃ st, gcThreadFunc tenv th gcFuel n x = .ok st :=
  gcThreadLoop_ok (fun y => hfg ▸ f2fsGc_sync_ok hs hfuel y) n _

/-- `ownedDataEnv` whose `f2fs_iget` behaves as the inode cache: one in-core inode per `ino`,
and none while the collector holds another inode of that `ino`. -/
def icacheEnv : Env twoSegSec Unit :=
  { ownedDataEnv with
    iget := fun x held ino =>
      if held.all fun j => j.ino != ino || j == ⟨ino, 1, false, false, true, 923⟩ then
        (some ⟨ino, 1, false, false, true, 923⟩, x)
      else (none, x) }

theorem icacheEnv_igetStable : icacheEnv.IgetStable := by
  intro x held ino i x' h
  simp only [icacheEnv] at h
  split_ifs at h with hc
  · cases h
    refine ⟨rfl, fun j hj hji => ?_⟩
    simpa [hji] using List.all_eq_true.1 hc j hj
  · cases h

theorem f2fsGc_sync_returns_icache :
    icacheEnv.IgetStable ∧ 0 < 1 ∧ ∃ out, f2fsGc icacheEnv true 1 ⟨liveNodeSit, ()⟩ = .ok out :=
  ⟨icacheEnv_igetStable, Nat.one_pos,
    f2fsGc_sync_returns icacheEnv icacheEnv_igetStable 1 ⟨liveNodeSit, ()⟩ Nat.one_pos⟩

/-- `idleThread` over `icacheEnv`, with `FORCE_FG_GC` set. -/
def icacheThread : ThreadEnv twoSegSec Unit := { idleThread with gc := icacheEnv, forceFgGc := true }

theorem gcThreadFunc_forceFg_returns_icache :
    icacheThread.gc.IgetStable ∧ icacheThread.forceFgGc = true ∧ 0 < 1 ∧
      ∃ st, gcThreadFunc icacheThread ⟨30, 60, 300, 0⟩ 1 3 ⟨liveNodeSit, ()⟩ = .ok st :=
  ⟨icacheEnv_igetStable, rfl, Nat.one_pos,
    gcThreadFunc_forceFg_returns icacheThread icacheEnv_igetStable rfl ⟨30, 60, 300, 0⟩ 1 3 Nat.one_pos
      ⟨liveNodeSit, ()⟩⟩

/-- `idleThread` over the collaborators of the livelock of `Proof/Termination.lean`: the live
block of the victim segment belongs to an inode that `f2fs_iget` cannot load, and free sections
stay short until a section is freed. -/
def livelockThread : ThreadEnv twoSegSec Unit := { idleThread with gc := livelockEnv }

/-- The thread can keep `gc_mutex` for good. Its first pass takes the mutex with
`mutex_trylock`, finds the device idle and calls `f2fs_gc(sbi, false)`, and that call never
reaches its `stop` label, whatever its budget of rounds: no run of the thread gets past it, so
the release at `stop` never comes. -/
theorem gcThreadFunc_livelock :
    (fun gcFuel n => gcThreadFunc livelockThread ⟨30, 60, 300, 0⟩ gcFuel (n + 1) ⟨liveNodeSit, ()⟩) =
      fun _ _ => .error .outOfFuel := by
  funext gcFuel n
  have hgc : f2fsGc livelockEnv false gcFuel ⟨liveNodeSit, ()⟩ = .error .outOfFuel :=
    livelockEnv_outOfFuel gcFuel _ _ rfl
  simp only [gcThreadFunc, gcThreadLoop, gcThreadBody, livelockThread, idleThread,
    Bool.false_eq_true, Bool.true_eq_false, if_false, hgc]

end F2fsGc
