import F2fsGc.Proof.Round

/-!
# How many rounds `gc_more` runs

`f2fs_gc` without `sync` goes back to `gc_more` while `has_not_enough_free_secs(sbi, sec_freed)`
holds, and `sec_freed` grows only when a foreground round frees its whole section. So the loop
ends only if the foreground rounds make progress.

When they do, it ends: if every collection returns, every foreground collection frees its
segment, and free sections suffice once `N` sections were freed, a call runs at most `N + 2`
rounds (`f2fsGc_returns`). One background round may come first, since the promotion to
`FG_GC` is tested at the top of a round and the loop's exit at its end.

When they do not, nothing else stops the loop. A live data block whose inode `f2fs_iget` cannot
load is skipped by `gc_data_segment_FG`, so its segment keeps a valid block,
`do_garbage_collect` returns `0`, `sec_freed` stays `0`, and the next round selects the same
section again, forever (`f2fsGc_livelock`).

What a foreground collection returns is read off its final write-out: `sync_node_pages` or
`f2fs_submit_merged_bio`, then `1` exactly when the segment has no valid block left
(`doGarbageCollect_fg`).
-/

set_option autoImplicit false

namespace F2fsGc

variable {g : Geometry} {W : Type}

/-! ## Loops that return -/

/-- A loop whose every iteration returns returns. -/
theorem forUntil_ok {α σ : Type} {body : α → σ → Except Fault (Bool × σ)} :
    ∀ (l : List α), (∀ a ∈ l, ∀ s, ∃ b s', body a s = .ok (b, s')) →
      ∀ s, ∃ b s', forUntil body l s = .ok (b, s')
  | [], _, s => ⟨false, s, rfl⟩
  | a :: as, hb, s => by
    obtain ⟨b, s1, h1⟩ := hb a (.head _) s
    cases b <;> simp only [forUntil, h1]
    · exact forUntil_ok as (fun a ha => hb a (.tail _ ha)) s1
    · exact ⟨true, s1, rfl⟩

/-- A loop whose iterations never ask to return does not return early. -/
theorem forUntil_false {α σ : Type} {body : α → σ → Except Fault (Bool × σ)}
    (hb : ∀ a s b s', body a s = .ok (b, s') → b = false) :
    ∀ (l : List α) s {b s'}, forUntil body l s = .ok (b, s') → b = false
  | [], _, _, _, h => by cases h; rfl
  | a :: as, s, b, s', h => by
    unfold forUntil at h
    split at h
    · cases h
    · next heq => cases h; exact hb a s _ _ heq
    · exact forUntil_false hb as _ h

/-! ## The migrators -/

section Migrators

variable {env : Env g W} {sum : SumBlock} {segno : Nat}

theorem gcNodeOffset_ok (env : Env g W) (sum : SumBlock) (segno : Nat) (gcType : GcType)
    (initial : Bool) (off : Nat) (r : GcState g W) :
    ∃ b r', gcNodeOffset env sum segno gcType initial off r = .ok (b, r') := by
  rcases gcNodeOffset_spec env sum segno gcType initial off r with ⟨-, h⟩ | ⟨_, h, -⟩ <;>
    exact ⟨_, _, h⟩

/-- The early `return 0` is for background passes only. -/
theorem gcNodeOffset_fg {initial : Bool} {off : Nat} {r r' : GcState g W} {b : Bool}
    (h : gcNodeOffset env sum segno .fg initial off r = .ok (b, r')) : b = false := by
  rcases gcNodeOffset_spec env sum segno .fg initial off r with ⟨h1, -⟩ | ⟨_, h', -⟩
  · cases h1
  · rw [h'] at h; cases h; rfl

theorem gcDataOffset_fg {readPage : Nat → Inode → Nat → DataSt g W → Except Fault (DataSt g W)}
    {migrate : Nat → Inode → Nat → World g W → Migration × World g W} {phase off : Nat}
    {st st' : DataSt g W} {b : Bool}
    (h : gcDataOffset readPage migrate env sum segno .fg phase off st = .ok (b, st')) : b = false := by
  unfold gcDataOffset at h
  rw [if_neg (fun h => nomatch h.1)] at h
  by_cases h2 : checkValidMap st.run.world.sbi segno off = false
  · rw [if_pos h2] at h; cases h; rfl
  by_cases h3 : phase = 0
  · rw [if_neg h2, if_pos h3] at h; cases h; rfl
  rw [if_neg h2, if_neg h3] at h
  rcases ha : isAlive env st.run.world (sum.entries off) (blockAddr env segno off) with
    ⟨_ | ⟨dni, nofs⟩, x⟩ <;> rw [ha] at h
  · cases h; rfl
  dsimp only at h
  by_cases h4 : phase = 1
  · rw [if_pos h4] at h; cases h; rfl
  by_cases h5 : phase = 2
  · rw [if_neg h4, if_pos h5] at h
    cases h2 : gcDataPhase2 readPage env off (sum.entries off) dni nofs
      { st with run := st.run.setWorld x } <;> rw [h2] at h <;> cases h
    rfl
  · rw [if_neg h4, if_neg h5] at h; cases h; rfl

theorem gcNodeSegment_fg {r r' : GcState g W} {n : Nat}
    (h : gcNodeSegment env sum segno .fg r = .ok (n, r')) :
    (∃ x, r'.world = env.syncNodePages x) ∧ n = reclaimedOne r'.world.sbi segno := by
  unfold gcNodeSegment at h
  split at h
  · cases h
  · next heq => exact absurd (forUntil_false (fun _ _ _ _ => forUntil_false
      (fun _ _ _ _ => gcNodeOffset_fg) _ _) _ _ heq) nofun
  · simp only [if_true] at h
    cases h
    exact ⟨⟨_, rfl⟩, rfl⟩

theorem gcDataSegmentWith_fg {readPage : Nat → Inode → Nat → DataSt g W → Except Fault (DataSt g W)}
    {migrate : Nat → Inode → Nat → World g W → Migration × World g W} {r r' : GcState g W} {n : Nat}
    (h : gcDataSegmentWith readPage migrate env sum segno .fg r = .ok (n, r')) :
    (∃ x, r'.world = env.submitMergedBio x) ∧ n = reclaimedOne r'.world.sbi segno := by
  unfold gcDataSegmentWith at h
  split at h
  · cases h
  · next heq => exact absurd (forUntil_false (fun _ _ _ _ => forUntil_false
      (fun _ _ _ _ => gcDataOffset_fg) _ _) _ _ heq) nofun
  · simp only [if_true] at h
    cases h
    exact ⟨⟨_, rfl⟩, rfl⟩

/-- A foreground collection ends with its final write-out, `sync_node_pages` for a node
segment and `f2fs_submit_merged_bio` for a data segment, and returns `1` exactly when that
left the segment without a valid block. -/
theorem doGarbageCollect_fg {r r' : GcState g W} {n : Nat}
    (h : doGarbageCollect env segno .fg r = .ok (n, r')) :
    (∃ x, r'.world = env.syncNodePages x ∨ r'.world = env.submitMergedBio x) ∧
      n = reclaimedOne r'.world.sbi segno := by
  unfold doGarbageCollect at h
  dsimp only at h
  split at h
  · obtain ⟨⟨x, hx⟩, hn⟩ := gcNodeSegment_fg h
    exact ⟨⟨x, .inl hx⟩, hn⟩
  · rw [if_pos rfl] at h
    obtain ⟨⟨x, hx⟩, hn⟩ := gcDataSegmentWith_fg h
    exact ⟨⟨x, .inr hx⟩, hn⟩

/-! ## Without inodes, a collection returns -/

section NoInodes

variable (hi : ∀ x held ino, (env.iget x held ino).1 = none)
include hi

theorem gcDataPhase2_noInodes
    (readPage : Nat → Inode → Nat → DataSt g W → Except Fault (DataSt g W)) (off nofs : Nat)
    (e : Summary) (dni : NodeInfo) (st : DataSt g W) :
    gcDataPhase2 readPage env off e dni nofs st = .ok { st with run := (igetR env dni.ino st.run).2 } := by
  unfold gcDataPhase2 igetR
  rcases h : env.iget st.run.world st.run.held dni.ino with ⟨_ | i, x⟩
  · rfl
  · exact absurd (congrArg Prod.fst h) (by rw [hi]; nofun)

theorem gcDataOffset_noInodes
    (readPage : Nat → Inode → Nat → DataSt g W → Except Fault (DataSt g W))
    (migrate : Nat → Inode → Nat → World g W → Migration × World g W) (gcType : GcType)
    (phase off : Nat) (st : DataSt g W) :
    ∃ b st', gcDataOffset readPage migrate env sum segno gcType phase off st = .ok (b, st') := by
  unfold gcDataOffset
  by_cases h1 : gcType = .bg ∧ env.hasNotEnoughFreeSecs st.run.world 0 = true
  · exact ⟨_, _, if_pos h1⟩
  by_cases h2 : checkValidMap st.run.world.sbi segno off = false
  · exact ⟨_, _, by rw [if_neg h1, if_pos h2]⟩
  by_cases h3 : phase = 0
  · exact ⟨_, _, by rw [if_neg h1, if_neg h2, if_pos h3]⟩
  rw [if_neg h1, if_neg h2, if_neg h3]
  rcases isAlive env st.run.world (sum.entries off) (blockAddr env segno off) with
    ⟨_ | ⟨dni, nofs⟩, x⟩
  · exact ⟨_, _, rfl⟩
  dsimp only
  rw [gcDataPhase2_noInodes hi]
  by_cases h4 : phase = 1
  · exact ⟨_, _, if_pos h4⟩
  by_cases h5 : phase = 2
  · exact ⟨_, _, by rw [if_neg h4, if_pos h5]; rfl⟩
  · exact ⟨_, _, by rw [if_neg h4, if_neg h5]⟩

theorem gcDataSegmentWith_noInodes
    (readPage : Nat → Inode → Nat → DataSt g W → Except Fault (DataSt g W))
    (migrate : Nat → Inode → Nat → World g W → Migration × World g W) (gcType : GcType)
    (r : GcState g W) : ∃ n r', gcDataSegmentWith readPage migrate env sum segno gcType r = .ok (n, r') := by
  obtain ⟨b, st, h⟩ := forUntil_ok [0, 1, 2, 3] (fun phase _ st => forUntil_ok _
    (fun off _ st => gcDataOffset_noInodes hi readPage migrate gcType phase off st) st) ⟨r, fun _ => 0⟩
  unfold gcDataSegmentWith
  rw [h]
  cases b <;> dsimp only <;> (try split_ifs) <;> exact ⟨_, _, rfl⟩

/-- A collection that never obtains an inode never faults. -/
theorem doGarbageCollect_noInodes (segno : Nat) (gcType : GcType) (r : GcState g W) :
    ∃ n r', doGarbageCollect env segno gcType r = .ok (n, r') := by
  unfold doGarbageCollect
  dsimp only
  split
  · obtain ⟨b, r1, h⟩ := forUntil_ok [true, false] (fun initial _ r => forUntil_ok _
      (fun off _ r => gcNodeOffset_ok env _ segno gcType initial off r) r) _
    unfold gcNodeSegment
    rw [h]
    cases b <;> dsimp only <;> (try split_ifs) <;> exact ⟨_, _, rfl⟩
  · split_ifs
    · exact gcDataSegmentWith_noInodes hi _ _ _ _
    · exact gcDataSegmentWith_noInodes hi _ _ _ _

end NoInodes

end Migrators

/-! ## The rounds -/

section Rounds

variable {env : Env g W}

/-- A round keeps `BG_GC` only when it started as one and free sections were not short. -/
theorem roundVictim_bg {t : GcType} {s segno : Nat} {found : Bool} {r r1 : GcState g W}
    (hv : roundVictim env t s r = (.bg, found, segno, r1)) :
    t = .bg ∧ env.hasNotEnoughFreeSecs r.world s = false := by
  have h1 : (roundVictim env t s r).1 =
      if t = .bg ∧ env.hasNotEnoughFreeSecs r.world s = true then .fg else t := by
    unfold roundVictim promote getVictim; dsimp only; split_ifs <;> rfl
  rw [hv] at h1
  dsimp only at h1
  split_ifs at h1 with h
  subst h1
  exact ⟨rfl, by simpa using h⟩

/-- When every collection returns and a foreground one frees its segment, the loop over a
section's segments returns, and in the foreground runs to the last segment. -/
theorem collectSection_frees
    (hcollect : ∀ segno t (r : GcState g W), ∃ n r', doGarbageCollect env segno t r = .ok (n, r') ∧
      (t = .fg → n = 1)) (segno : Nat) (t : GcType) :
    ∀ k i (r : GcState g W), ∃ i' r', collectSection env segno t i k r = .ok (i', r') ∧
      (t = .fg → i' = i + k)
  | 0, i, r => ⟨i, r, rfl, fun _ => rfl⟩
  | k + 1, i, r => by
    obtain ⟨n, r1, hd, hn⟩ := hcollect (segno + i) t r
    obtain ⟨i', r', hc, hi'⟩ := collectSection_frees hcollect segno t k (i + 1) r1
    have hgo : ¬(n = 0 ∧ t = .fg) := fun h => by rw [hn h.2] at h; exact absurd h.1 one_ne_zero
    refine ⟨i', r', ?_, fun ht => by rw [hi' ht]; omega⟩
    rw [collectSection, hd]
    dsimp only
    rw [if_neg hgo]
    exact hc

variable {N : Nat} (hN : ∀ y k, N ≤ k → env.hasNotEnoughFreeSecs y k = false)
  (hcollect : ∀ segno t (r : GcState g W), ∃ n r', doGarbageCollect env segno t r = .ok (n, r') ∧
    (t = .fg → n = 1))
include hN hcollect

/-- The rounds still to run from the top of `gc_more`: one per section still to free, and one
more for a background round that free sections do not yet promote. -/
theorem gcMore_returns :
    ∀ fuel t s ret (r : GcState g W),
      N - s + (if t = .bg ∧ env.hasNotEnoughFreeSecs r.world s = false then 2 else 1) ≤ fuel →
      ∃ out, gcMore env false fuel t s ret r = .ok out
  | 0, t, s, ret, r, hfuel => by split_ifs at hfuel <;> omega
  | fuel + 1, t, s, ret, r, hfuel => by
    simp only [gcMore]
    by_cases hs : env.active r.world = false ∨ env.cpError r.world = true
    · rw [if_pos hs]; exact ⟨_, rfl⟩
    rw [if_neg hs]
    rcases hv : roundVictim env t s r with ⟨t', _ | _, segno, r1⟩
    · exact ⟨_, rfl⟩
    obtain ⟨i, r2, hc, hi⟩ := collectSection_frees hcollect segno t' g.segsPerSec 0 r1
    simp only [hc, Bool.true_eq_false, if_false, true_and]
    by_cases hm : env.hasNotEnoughFreeSecs (endRound t' r2).world (freedAfter g t' i s) = true
    · rw [if_pos hm]
      refine gcMore_returns fuel t' _ 0 _ ?_
      cases t' with
      | fg =>
        -- a foreground round freed its section
        have hfreed : freedAfter g .fg i s = s + 1 := by simp [freedAfter, hi rfl]
        rw [hfreed] at hm ⊢
        have hlt : s + 1 < N := by
          by_contra hge
          rw [hN _ _ (by omega)] at hm
          cases hm
        simp only [reduceCtorEq, false_and, if_false]
        split_ifs at hfuel <;> omega
      | bg =>
        -- a background round: free sections are short at its end, so the next is promoted
        obtain ⟨ht, hnot⟩ := roundVictim_bg hv
        have hfreed : freedAfter g .bg i s = s := by simp [freedAfter]
        rw [hfreed] at hm ⊢
        simp only [hm, Bool.true_eq_false, and_false, if_false]
        simp only [ht, hnot, and_self, if_true] at hfuel
        omega
    · rw [if_neg hm]; exact ⟨_, rfl⟩

end Rounds

/-- `f2fs_gc(sbi, false)` returns when the foreground rounds make progress: if every
`do_garbage_collect` returns, every foreground one frees its segment, and free sections suffice
once `N` sections have been freed, then the `gc_more` loop ends within `N + 2` rounds. -/
theorem f2fsGc_returns (env : Env g W) (x : World g W) (N : Nat)
    (hN : ∀ y k, N ≤ k → env.hasNotEnoughFreeSecs y k = false)
    (hcollect : ∀ segno t (r : GcState g W), ∃ n r', doGarbageCollect env segno t r = .ok (n, r') ∧
      (t = .fg → n = 1))
    (fuel : Nat) (hfuel : N + 2 ≤ fuel) : ∃ out, f2fsGc env false fuel x = .ok out :=
  gcMore_returns hN hcollect fuel _ 0 _ _ (by split_ifs <;> omega)

/-- The final write-out empties every segment. -/
def drain (x : World twoSegSec Unit) : World twoSegSec Unit :=
  ⟨{ x.sbi with sentries := fun segno => { x.sbi.sentries segno with curValidMap := fun _ => false } }, ()⟩

/-- `idleEnv` on a device short of free sections until one section is freed, whose final
write-outs leave no valid block behind. -/
def drainingEnv : Env twoSegSec Unit :=
  { idleEnv with
    hasNotEnoughFreeSecs := fun _ k => decide (k < 1)
    syncNodePages := drain
    submitMergedBio := drain }

theorem drainingEnv_noInodes : ∀ x held ino, (drainingEnv.iget x held ino).1 = none :=
  fun _ _ _ => rfl

theorem drainingEnv_collects (segno : Nat) (t : GcType) (r : GcState twoSegSec Unit) :
    ∃ n r', doGarbageCollect drainingEnv segno t r = .ok (n, r') ∧ (t = .fg → n = 1) := by
  obtain ⟨n, r', h⟩ := doGarbageCollect_noInodes drainingEnv_noInodes segno t r
  refine ⟨n, r', h, fun ht => ?_⟩
  subst ht
  obtain ⟨⟨x, hx | hx⟩, rfl⟩ := doGarbageCollect_fg h <;>
    simp [hx, reclaimedOne, getValidBlocks, SegEntry.validBlocks, popcount, drainingEnv, drain]

theorem f2fsGc_returns_draining : ∃ out, f2fsGc drainingEnv false 3 ⟨liveNodeSit, ()⟩ = .ok out :=
  f2fsGc_returns drainingEnv ⟨liveNodeSit, ()⟩ 1 (fun _ _ hk => decide_eq_false (Nat.not_lt.2 hk))
    drainingEnv_collects 3 le_rfl

/-! ## A section that never frees -/

/-- `idleEnv` on a device short of free sections until one section is freed, with a data
segment: block 0 of segment 0 is slot 0 of node 5, owned by inode 7, which `f2fs_iget` cannot
load. -/
def livelockEnv : Env twoSegSec Unit :=
  { idleEnv with
    hasNotEnoughFreeSecs := fun _ k => decide (k < 1)
    getSumPage := fun _ _ => ⟨.data, fun _ => ⟨5, 0, 0⟩⟩
    getNodePage := fun x _ => (some ⟨0, fun _ => 0⟩, x)
    getNodeInfo := fun _ _ => ⟨7, 0, 0⟩ }

/-- The state while section 0 is collected: `liveNodeSit` with `cur_victim_sec = 0`. -/
def livelockSit : Sbi twoSegSec := (getVictimByDefault liveNodeSit nullSegno .fg noCheckType .lfs).sbi

theorem livelockEnv_noInodes : ∀ x held ino, (livelockEnv.iget x held ino).1 = none :=
  fun _ _ _ => rfl

theorem livelockEnv_steps {x y : World twoSegSec Unit}
    (h : Relation.ReflTransGen livelockEnv.Op x y) : y = x := by
  induction h with
  | refl => rfl
  | tail _ hop ih => cases hop <;> exact ih

theorem livelockEnv_getVictim {r : GcState twoSegSec Unit} (hr : r.world = ⟨liveNodeSit, ()⟩) :
    getVictim r nullSegno .fg = (true, 0, r.setWorld ⟨livelockSit, ()⟩) := by
  unfold getVictim
  rw [hr]
  rfl

/-- Every round selects section 0, promoted to `FG_GC` if it started as a background round. -/
theorem livelockEnv_roundVictim (t : GcType) {r : GcState twoSegSec Unit}
    (hr : r.world = ⟨liveNodeSit, ()⟩) :
    ∃ r1, roundVictim livelockEnv t 0 r = (.fg, true, 0, r1) ∧ r1.world = ⟨livelockSit, ()⟩ := by
  have hg := livelockEnv_getVictim hr
  cases t
  · refine ⟨checkpointR livelockEnv (r.setWorld ⟨livelockSit, ()⟩), ?_, rfl⟩
    unfold roundVictim promote
    rw [if_pos ⟨rfl, rfl⟩, hg]
    rfl
  · refine ⟨r.setWorld ⟨livelockSit, ()⟩, ?_, rfl⟩
    unfold roundVictim promote
    rw [if_neg (fun h => nomatch h.1)]
    dsimp only
    rw [if_pos rfl, hg]

/-- Collecting section 0 stops at segment 0, which keeps its live block. -/
theorem livelockEnv_collectSection {r1 : GcState twoSegSec Unit} (hr1 : r1.world = ⟨livelockSit, ()⟩) :
    ∃ r2, collectSection livelockEnv 0 .fg 0 twoSegSec.segsPerSec r1 = .ok (0, r2) ∧
      r2.world = r1.world := by
  obtain ⟨n, r2, hd⟩ := doGarbageCollect_noInodes livelockEnv_noInodes 0 .fg r1
  have hw : r2.world = r1.world := livelockEnv_steps (doGarbageCollect_moves hd).1
  have hn : n = 0 := by rw [(doGarbageCollect_fg hd).2, hw, hr1]; rfl
  subst hn
  refine ⟨r2, ?_, hw⟩
  show collectSection livelockEnv 0 .fg 0 (1 + 1) r1 = _
  rw [collectSection, Nat.add_zero, hd]
  rfl

/-- Every round from the starting state comes back to it, so every budget of rounds runs out. -/
theorem livelockEnv_outOfFuel :
    ∀ fuel (t : GcType) (ret : Int) {r : GcState twoSegSec Unit}, r.world = ⟨liveNodeSit, ()⟩ →
      gcMore livelockEnv false fuel t 0 ret r = .error .outOfFuel
  | 0, _, _, _, _ => rfl
  | fuel + 1, t, ret, r, hr => by
    obtain ⟨r1, hv, hr1⟩ := livelockEnv_roundVictim t hr
    obtain ⟨r2, hc, hr2⟩ := livelockEnv_collectSection hr1
    have hend : (endRound .fg r2).world = ⟨liveNodeSit, ()⟩ := by
      show { r2.world with sbi := { r2.world.sbi with curVictimSec := nullSegno } } = _
      rw [hr2, hr1]; rfl
    rw [gcMore, if_neg (fun h => h.elim Bool.noConfusion Bool.noConfusion), hv]
    dsimp only
    rw [if_neg (by decide), hc]
    dsimp only
    rw [if_pos ⟨rfl, rfl⟩]
    exact livelockEnv_outOfFuel fuel .fg 0 hend

/-- A call of `f2fs_gc(sbi, false)` over that segment never returns: each round selects
section 0, cannot move the block of the inode `f2fs_iget` cannot load, frees nothing, and goes
back to `gc_more`. -/
theorem f2fsGc_livelock :
    (fun fuel => f2fsGc livelockEnv false fuel ⟨liveNodeSit, ()⟩) = fun _ => .error .outOfFuel :=
  funext fun fuel => livelockEnv_outOfFuel fuel _ _ rfl

end F2fsGc
