import F2fsGc.Proof.Collections
import F2fsGc.Proof.ScanRun

/-!
# A background reservation, and the foreground selection that takes it back

Under `BG_GC` an LFS selection does not hold its victim in `cur_victim_sec`: `got_it` reserves
the section in `victim_secmap`, and the background round only marks its pages dirty. The next
foreground LFS selection starts with `check_bg_victims`, which takes the lowest reserved section
not in use, clears its bit, and returns it without scanning.

`getVictimByDefault_reserve_take` is that round trip on the selection's own state. When no
section below the reserved one is reserved and idle, the foreground call returns the victim the
background call chose, holds its section in `cur_victim_sec`, and leaves `victim_secmap` as it
was before the background call. It needs `MAIN_SEGS = MAIN_SECS * segs_per_sec`, since
`check_bg_victims` looks at the first `MAIN_SECS` sections only.

The background half needs to know what the scan writes: the SIT's `min_mtime`/`max_mtime`
(`get_cb_cost`) and `last_victim`, nothing a later selection's policy reads
(`scanLoop_keeps`).
-/

set_option autoImplicit false

namespace F2fsGc

variable {g : Geometry}

/-! ## What the scan leaves in place -/

/-- The state an iteration leaves, whether the loop goes on or breaks. -/
def Step.state : Step g → Scan g
  | .cont st | .brk st => st

section Keeps

variable {α : Type} (f : Sbi g → α) (hl : ∀ (s : Sbi g) m v, f (s.setLastVictim m v) = f s)
include hl

theorem countSearched_keeps (st : Scan g) (segno : Nat) :
    f (countSearched st segno).state.sbi = f st.sbi := by
  unfold countSearched
  split
  · exact hl _ _ _
  · rfl

variable (hc : ∀ s segno p, f (getGcCost s segno p).2 = f s)
include hc

theorem scanStep_keeps (gcType : GcType) (maxCost : Nat) (st : Scan g) :
    f (scanStep gcType maxCost st).state.sbi = f st.sbi := by
  rcases scanStep_cases (rfl : scanStep gcType maxCost st = _) with
    ⟨-, -, h⟩ | ⟨-, -, h⟩ | ⟨-, -, h⟩ | ⟨-, -, -, h | h⟩ <;> rw [h]
  · exact hl _ _ _
  · rfl
  · rfl
  · rw [countSearched_keeps f hl]
    exact hc _ _ _
  · exact hc _ _ _

/-- A field that pricing and the `last_victim` writes keep, the whole loop keeps. -/
theorem scanLoop_keeps (gcType : GcType) (maxCost : Nat) :
    ∀ (fuel : Nat) (st : Scan g), f (scanLoop gcType maxCost fuel st).sbi = f st.sbi
  | 0, _ => rfl
  | fuel + 1, st => by
    have hs := scanStep_keeps f hl hc gcType maxCost st
    simp only [scanLoop]
    split <;> rename_i st' h <;> rw [h] at hs
    · exact (scanLoop_keeps gcType maxCost fuel st').trans hs
    · exact hs

end Keeps

/-! ## The two selections -/

/-- A background LFS selection that finds its victim chose a section that was neither in use
nor reserved, reserved it, and wrote nothing else that a later selection reads. -/
theorem getVictimByDefault_bg_reserves (s : Sbi g) (result type : Nat)
    (hf : (getVictimByDefault s result .bg type .lfs).found = true) :
    ∃ sec, (getVictimByDefault s result .bg type .lfs).result = sec * g.segsPerSec ∧
      sec * g.segsPerSec < g.mainSegs ∧ s.victimSecmap sec = false ∧
      secUsageCheck s sec = false ∧
      (getVictimByDefault s result .bg type .lfs).sbi.victimSecmap =
        Function.update s.victimSecmap sec true ∧
      (getVictimByDefault s result .bg type .lfs).sbi.curVictimSec = s.curVictimSec ∧
      (getVictimByDefault s result .bg type .lfs).sbi.cursegs = s.cursegs ∧
      (getVictimByDefault s result .bg type .lfs).sbi.nrDirty = s.nrDirty ∧
      (getVictimByDefault s result .bg type .lfs).sbi.maxVictimSearch = s.maxVictimSearch := by
  have hms : (initPolicy s .bg type .lfs).maxSearch ≠ 0 := fun h0 => by
    rw [getVictimByDefault_of_maxSearch_zero s result .bg type .lfs h0] at hf
    cases hf
  obtain ⟨st, hd, hv⟩ := getVictimByDefault_loop s result .bg type .lfs hms fun h => nomatch h.2.1
  have hst := (getVictimByDefault_scan s result .bg type .lfs (by rw [hv, finishVictim_scan])).2
  have hkeep : (st.sbi.nrDirty, st.sbi.maxVictimSearch) = (s.nrDirty, s.maxVictimSearch) := by
    rw [hst]
    refine scanLoop_keeps (fun s : Sbi g => (s.nrDirty, s.maxVictimSearch)) (fun _ _ _ => rfl)
      (fun s segno p => ?_) .bg _ _ _
    unfold getGcCost; split <;> rfl
  by_cases hm : st.p.minSegno = nullSegno
  · rw [hv, finishVictim_of_eq _ _ _ hm] at hf
    cases hf
  rw [hv, finishVictim_of_ne _ _ _ hm]
  have hunit : st.p.ofsUnit = g.segsPerSec := hd.policy.2.2.2.2
  have hsbi : gotIt st.sbi st.p .bg =
      { st.sbi with victimSecmap := Function.update st.sbi.victimSecmap (getSecno g st.p.minSegno) true } := by
    have hlfs : st.p.allocMode = .lfs := hd.policy.1
    unfold gotIt
    rw [if_pos hlfs, if_neg nofun]
  obtain ⟨hmem, -⟩ := hd.argmin.mem hm
  obtain ⟨⟨huse, hbg⟩, -⟩ := hd.examined _ hmem
  have hlt := (hd.examined_dirty (initPolicy_ok s .bg type .lfs) hmem).2
  rw [hsbi]
  refine ⟨st.p.minSegno / g.segsPerSec, by rw [hunit], ?_, by simpa using hbg, huse, ?_,
    ?_, ?_, (Prod.mk.inj hkeep).1, (Prod.mk.inj hkeep).2⟩
  · exact lt_of_le_of_lt (Nat.div_mul_le_self _ _) hlt
  · exact congrArg (Function.update · _ true) hd.agree.2.1
  · exact hd.agree.2.2.1
  · exact hd.agree.2.2.2

/-- A foreground LFS selection takes the lowest reserved section not in use: it clears the
section's bit, holds it in `cur_victim_sec`, and returns its first segment without scanning. -/
theorem getVictimByDefault_fg_takes (s : Sbi g) (result type : Nat) {sec : Nat}
    (hms : (initPolicy s .fg type .lfs).maxSearch ≠ 0) (hsec : sec < g.mainSecs)
    (hres : s.victimSecmap sec = true) (hidle : secUsageCheck s sec = false)
    (hlow : ∀ k < sec, s.victimSecmap k = true → secUsageCheck s k = true) :
    getVictimByDefault s result .fg type .lfs =
      ⟨true, sec * g.segsPerSec,
        { s with victimSecmap := Function.update s.victimSecmap sec false, curVictimSec := sec },
        none⟩ := by
  have hcb : checkBgVictims s =
      (sec * g.segsPerSec, { s with victimSecmap := Function.update s.victimSecmap sec false }) := by
    unfold checkBgVictims
    rw [List.find?_range_eq_some.2 ⟨by simp [hres, hidle], List.mem_range.2 hsec, fun k hk => ?_⟩]
    cases hk' : s.victimSecmap k
    · simp
    · simp [hlow k hk hk']
  have hne : sec * g.segsPerSec ≠ nullSegno := by
    have := Nat.mul_lt_mul_of_pos_right hsec g.segsPerSec_pos
    have := g.mainSecs_le
    have := g.mainSegs_le
    omega
  rw [getVictimByDefault_of_fast s result .fg type .lfs hms rfl rfl (by rw [hcb]; exact hne), hcb,
    finishVictim_of_ne _ _ _ hne]
  have hdiv : sec * g.segsPerSec / g.segsPerSec = sec := Nat.mul_div_cancel _ g.segsPerSec_pos
  show (⟨true, sec * g.segsPerSec / g.segsPerSec * g.segsPerSec, _, none⟩ : Victim g) = _
  have hal : (initPolicy s .fg type .lfs).allocMode = .lfs := rfl
  simp only [gotIt, hal, ite_true, getSecno, hdiv]

/-- The reservation round trip: a background LFS selection reserves its victim's section, and a
foreground LFS selection from the state it leaves returns that victim without scanning, holds
its section in `cur_victim_sec`, and restores `victim_secmap` to what it was before the
background call, provided no section below the victim's is reserved and idle. -/
theorem getVictimByDefault_reserve_take (s : Sbi g) (result result' type type' : Nat)
    (hsecs : g.mainSegs = g.mainSecs * g.segsPerSec) :
    let v := getVictimByDefault s result .bg type .lfs
    v.found = true →
    (∀ k < v.result / g.segsPerSec, s.victimSecmap k = true → secUsageCheck s k = true) →
    getVictimByDefault v.sbi result' .fg type' .lfs =
      ⟨true, v.result,
        { v.sbi with victimSecmap := s.victimSecmap, curVictimSec := v.result / g.segsPerSec },
        none⟩ := by
  intro v hf hlow
  have key := getVictimByDefault_bg_reserves s result type hf
  rw [show getVictimByDefault s result .bg type .lfs = v from rfl] at key
  obtain ⟨sec, hr, hlt, hfree, hidle, hvsm, hcur, hcs, hnr, hmvs⟩ := key
  have hsec : v.result / g.segsPerSec = sec := by
    rw [hr]
    exact Nat.mul_div_cancel _ g.segsPerSec_pos
  have hms : (initPolicy s .bg type .lfs).maxSearch ≠ 0 := fun h0 => by
    have hv : v = _ := getVictimByDefault_of_maxSearch_zero s result .bg type .lfs h0
    rw [hv] at hf
    cases hf
  have husage : ∀ k, secUsageCheck v.sbi k = secUsageCheck s k := fun k => by
    simp only [secUsageCheck, hcur, hcs]
  have hsecm : sec < g.mainSecs := by
    rw [hsecs] at hlt
    exact Nat.lt_of_mul_lt_mul_right hlt
  rw [getVictimByDefault_fg_takes v.sbi result' type'
      (by simpa only [initPolicy_maxSearch_eq, scannedType, hnr, hmvs] using hms)
      hsecm (by rw [hvsm]; simp)
      (by rw [husage]; exact hidle)
      (fun k hk hres => by
        rw [hvsm, Function.update_noteq (Nat.ne_of_lt hk)] at hres
        rw [husage]; exact hlow k (hsec ▸ hk) hres),
    hsec, hr, hvsm, Function.update_idem, ← hfree, Function.update_eq_self]

theorem getVictimByDefault_reserve_take_liveNode :
    (getVictimByDefault liveNodeSit nullSegno .bg noCheckType .lfs).found = true ∧
      getVictimByDefault (getVictimByDefault liveNodeSit nullSegno .bg noCheckType .lfs).sbi
          nullSegno .fg noCheckType .lfs =
        ⟨true, (getVictimByDefault liveNodeSit nullSegno .bg noCheckType .lfs).result,
          { (getVictimByDefault liveNodeSit nullSegno .bg noCheckType .lfs).sbi with
            victimSecmap := liveNodeSit.victimSecmap,
            curVictimSec :=
              (getVictimByDefault liveNodeSit nullSegno .bg noCheckType .lfs).result /
                twoSegSec.segsPerSec },
          none⟩ :=
  have hf : (getVictimByDefault liveNodeSit nullSegno .bg noCheckType .lfs).found = true := by decide
  have h0 : (getVictimByDefault liveNodeSit nullSegno .bg noCheckType .lfs).result /
      twoSegSec.segsPerSec = 0 := by decide
  ⟨hf, getVictimByDefault_reserve_take liveNodeSit nullSegno nullSegno noCheckType noCheckType rfl
    hf fun k hk => absurd (h0 ▸ hk) (Nat.not_lt_zero k)⟩

/-! ## No reservation is lost

Over a whole call of `f2fs_gc`, a selection clears a bit of `victim_secmap` only in the
foreground, through `check_bg_victims`, and the section it clears is the round's victim, whose
first segment the round then collects. Background rounds only set bits, each the bit of the
section they collect. With collaborators that clear no bit (`Env.KeepsVictims`), every section
reserved on entry or by a background round is, when the call returns, still reserved or taken by
a foreground collection (`f2fsGc_reservations_kept`). -/

/-- `got_it` clears no bit of `victim_secmap`. -/
theorem gotIt_victimSecmap {s : Sbi g} {sec : Nat} (p : VictimSelPolicy) (gcType : GcType)
    (h : s.victimSecmap sec = true) : (gotIt s p gcType).victimSecmap sec = true := by
  unfold gotIt
  split_ifs
  · exact h
  · by_cases hs : sec = getSecno g p.minSegno
    · dsimp only; rw [hs, Function.update_same]
    · dsimp only; rw [Function.update_noteq hs]; exact h
  · exact h

/-- An LFS selection clears at most one reserved bit: a foreground one, of the section
`check_bg_victims` returns as the victim. -/
theorem getVictimByDefault_victimSecmap (s : Sbi g) (result : Nat) (gcType : GcType) (type : Nat)
    {sec : Nat} (h : s.victimSecmap sec = true) :
    (getVictimByDefault s result gcType type .lfs).sbi.victimSecmap sec = true ∨
      gcType = .fg ∧ (getVictimByDefault s result gcType type .lfs).found = true ∧
        (getVictimByDefault s result gcType type .lfs).result = sec * g.segsPerSec := by
  by_cases hms : (initPolicy s gcType type .lfs).maxSearch = 0
  · rw [getVictimByDefault_of_maxSearch_zero s result gcType type .lfs hms]
    exact .inl h
  by_cases hfast : gcType = .fg ∧ (checkBgVictims s).1 ≠ nullSegno
  · rw [getVictimByDefault_of_fast s result gcType type .lfs hms rfl hfast.1 hfast.2,
      finishVictim_of_ne _ _ _ hfast.2]
    rcases checkBgVictims_spec s with ⟨h1, -⟩ | ⟨secno, -, -, -, h1, h2⟩
    · exact absurd h1 hfast.2
    by_cases hs : sec = secno
    · subst hs
      have hunit : (initPolicy s gcType type .lfs).ofsUnit = g.segsPerSec := rfl
      refine .inr ⟨hfast.1, rfl, ?_⟩
      dsimp only
      rw [hunit, h1, Nat.mul_div_cancel _ g.segsPerSec_pos]
    · refine .inl (gotIt_victimSecmap _ _ ?_)
      rw [h2]
      dsimp only
      rw [Function.update_noteq hs]
      exact h
  obtain ⟨st, hd, hv⟩ := getVictimByDefault_loop s result gcType type .lfs hms
    fun h' => hfast ⟨h'.2.1, h'.2.2⟩
  have hst : st.sbi.victimSecmap sec = true := by rw [hd.agree.2.1]; exact h
  rw [hv]
  unfold finishVictim
  split
  · exact .inl (gotIt_victimSecmap _ _ hst)
  · exact .inl hst

theorem getVictim_victimSecmap {W : Type} (r : GcState g W) (v : Nat) (t : GcType) (sec : Nat)
    (h : r.world.sbi.victimSecmap sec = true) :
    (getVictim r v t).2.2.world.sbi.victimSecmap sec = true ∨
      t = .fg ∧ (getVictim r v t).1 = true ∧ (getVictim r v t).2.1 = sec * g.segsPerSec :=
  getVictimByDefault_victimSecmap r.world.sbi v t noCheckType h

section Kept

variable {W : Type} {env : Env g W} (hkeep : env.KeepsVictims)
include hkeep

theorem Env.KeepsVictims.bit {x y : World g W} (h : Relation.ReflTransGen env.Op x y) {sec : Nat}
    (hx : x.sbi.victimSecmap sec = true) : y.sbi.victimSecmap sec = true :=
  Env.Op.lift (fun s => s.victimSecmap sec = true) (fun _ _ hop h' => (hkeep _ _ hop).2 _ h') h hx

theorem checkpointR_victimSecmap {r : GcState g W} {sec : Nat}
    (h : r.world.sbi.victimSecmap sec = true) : (checkpointR env r).world.sbi.victimSecmap sec = true :=
  (hkeep _ _ (.writeCheckpoint _)).2 _ h

/-- A round's selection clears at most the bit of the section a foreground round takes as its
victim; a background round's victim is reserved. -/
theorem roundVictim_victimSecmap {gcType t : GcType} {secFreed segno : Nat} {found : Bool}
    {r r1 : GcState g W} (hv : roundVictim env gcType secFreed r = (t, found, segno, r1)) :
    (∀ sec, r.world.sbi.victimSecmap sec = true → r1.world.sbi.victimSecmap sec = true ∨
      t = .fg ∧ found = true ∧ segno = sec * g.segsPerSec) ∧
    (t = .bg → found = true → r1.world.sbi.victimSecmap (getSecno g segno) = true) := by
  unfold roundVictim promote at hv
  by_cases hp : gcType = .bg ∧ env.hasNotEnoughFreeSecs r.world secFreed = true
  · rw [if_pos hp] at hv
    have k0 := getVictim_victimSecmap r nullSegno .fg
    obtain ⟨-, hfound⟩ := getVictim_spec r nullSegno .fg
    rcases hg : getVictim r nullSegno .fg with ⟨f0, s0, r0⟩
    simp only [hg] at hv k0 hfound
    generalize hr0' : (if f0 = true ∨ 0 < env.prefreeSegments r0.world then checkpointR env r0 else r0) = r0'
      at hv
    have hc0 : ∀ sec, r0.world.sbi.victimSecmap sec = true → r0'.world.sbi.victimSecmap sec = true := by
      intro sec h
      rw [← hr0']
      split_ifs
      exacts [checkpointR_victimSecmap hkeep h, h]
    by_cases hs0 : s0 = nullSegno
    · rw [if_pos hs0] at hv
      rcases hg' : getVictim r0' s0 .fg with ⟨f1, s1, r1'⟩
      have k1 := getVictim_victimSecmap r0' s0 .fg
      simp only [hg'] at hv k1
      obtain ⟨rfl, rfl, rfl, rfl⟩ := hv
      refine ⟨fun sec h => ?_, nofun⟩
      rcases k0 sec h with h0 | ⟨-, hf0, -⟩
      · exact (k1 sec (hc0 sec h0)).imp_right fun h1 => ⟨rfl, h1.2⟩
      · obtain ⟨m, hm, hs, -⟩ := hfound hf0
        exact absurd (hs.symm.trans hs0) (sectionStart_ne_null hm)
    · rw [if_neg hs0] at hv
      obtain ⟨rfl, rfl, rfl, rfl⟩ := hv
      exact ⟨fun sec h => (k0 sec h).imp (hc0 sec) fun h1 => ⟨rfl, rfl, h1.2.2⟩, nofun⟩
  · rw [if_neg hp] at hv
    have k1 := getVictim_victimSecmap r nullSegno gcType
    obtain ⟨-, hfound⟩ := getVictim_spec r nullSegno gcType
    rcases hg : getVictim r nullSegno gcType with ⟨f1, s1, r1'⟩
    simp only [hg, if_true] at hv k1 hfound
    obtain ⟨rfl, rfl, rfl, rfl⟩ := hv
    refine ⟨k1, fun hb hf => ?_⟩
    obtain ⟨m, -, hs, -, hbg⟩ := hfound hf
    rw [getSecno, hs, Nat.mul_div_cancel _ g.segsPerSec_pos]
    exact (hbg hb).2

end Kept

/-- The reservations of `x` and those of a log's background collections: each still held in
`victim_secmap`, or taken by a foreground collection of its section. -/
def ReservationsKept {W : Type} (x : World g W) (r : GcState g W) : Prop :=
  ∀ sec, (x.sbi.victimSecmap sec = true ∨
      ∃ sg, (sg, GcType.bg) ∈ collections r.log ∧ getSecno g sg = sec) →
    r.world.sbi.victimSecmap sec = true ∨ (sec * g.segsPerSec, GcType.fg) ∈ collections r.log

namespace ReservationsKept

variable {W : Type} {x : World g W}

/-- A step that clears no bit and collects nothing keeps the reservations. -/
theorem of_quiet {r r' : GcState g W} (h : ReservationsKept x r)
    (hb : ∀ sec, r.world.sbi.victimSecmap sec = true → r'.world.sbi.victimSecmap sec = true)
    (hc : collections r'.log = collections r.log) : ReservationsKept x r' := by
  intro sec hs
  rw [hc] at hs ⊢
  exact (h sec hs).imp (hb sec) id

variable {env : Env g W} (hkeep : env.KeepsVictims)
include hkeep

theorem gcStop {r : GcState g W} (h : ReservationsKept x r) (sync : Bool) (secFreed : Nat)
    (ret : Int) : ReservationsKept x (F2fsGc.gcStop env sync secFreed ret r).2 :=
  h.of_quiet (fun _ => hkeep.bit (putGcInode.go_moves env _ (r.emit .unlockGcMutex)).1)
    (gcStop_collections sync secFreed ret ⟨[], (List.append_nil _).symm, nofun⟩)

/-- A round that finds its victim keeps the reservations: a bit its selection clears is its
victim's, whose first segment it collects in the foreground, and its background collections
are of the section it reserved. -/
theorem round {gcType t : GcType} {secFreed segno i : Nat} {r r1 r2 : GcState g W}
    (h : ReservationsKept x r) (hv : roundVictim env gcType secFreed r = (t, true, segno, r1))
    (hc : collectSection env segno t 0 g.segsPerSec r1 = .ok (i, r2)) : ReservationsKept x r2 := by
  obtain ⟨hsel, hbg⟩ := roundVictim_victimSecmap hkeep hv
  have hkept : ∀ sec, r1.world.sbi.victimSecmap sec = true → r2.world.sbi.victimSecmap sec = true :=
    fun sec h1 => (collectSection_spec (fun s => s.victimSecmap sec = true)
      (fun _ _ hop h' => (hkeep _ _ hop).2 _ h') segno t _ _ r1 hc h1).1
  obtain ⟨j, hj, hj0, -, hl⟩ := collectSection_collections segno t g.segsPerSec 0 r1 hc
  have hr1 : collections r1.log = collections r.log :=
    (by simpa only [hv] using roundVictim_log env gcType secFreed r : CheckpointLog r.log r1.log).collections_eq
  have hj1 : 0 < j := hj0 g.segsPerSec_pos
  rw [hr1, Nat.add_zero] at hl
  have hnew : ∀ sg t', (sg, t') ∈ (List.range' segno j).map (fun sg => (sg, t)) ↔
      segno ≤ sg ∧ sg < segno + j ∧ t' = t := by
    intro sg t'
    simp only [List.mem_map, List.mem_range'_1, Prod.mk.injEq]
    constructor
    · rintro ⟨a, ha, rfl, rfl⟩; exact ⟨ha.1, ha.2, rfl⟩
    · rintro ⟨h1, h2, rfl⟩; exact ⟨sg, ⟨h1, h2⟩, rfl, rfl⟩
  intro sec hs
  rw [hl] at hs ⊢
  simp only [List.mem_append] at hs ⊢
  have old : (x.sbi.victimSecmap sec = true ∨
      ∃ sg, (sg, GcType.bg) ∈ collections r.log ∧ getSecno g sg = sec) →
      r2.world.sbi.victimSecmap sec = true ∨ (sec * g.segsPerSec, GcType.fg) ∈ collections r.log ∨
        (sec * g.segsPerSec, GcType.fg) ∈ (List.range' segno j).map fun sg => (sg, t) := fun hs =>
    match h sec hs with
    | .inl hr => (hsel sec hr).imp (hkept sec) fun ⟨ht, _, hs⟩ =>
        .inr ((hnew _ _).2 ⟨hs ▸ le_refl _, by omega, ht.symm⟩)
    | .inr hr => .inr (.inl hr)
  rcases hs with hs | ⟨sg, hsg | hsg, hsec⟩
  · exact old (.inl hs)
  · exact old (.inr ⟨sg, hsg, hsec⟩)
  · -- a background collection of this round is of the section the round reserved
    obtain ⟨h1, h2, rfl⟩ := (hnew sg _).1 hsg
    obtain ⟨m, -, rfl⟩ := roundVictim_start hv
    have hsec' : getSecno g sg = getSecno g (m / g.segsPerSec * g.segsPerSec) := by
      rw [getSecno_of_section h1 (by omega), getSecno, Nat.mul_div_cancel _ g.segsPerSec_pos]
    exact .inl (hkept sec (hsec ▸ hsec' ▸ hbg rfl rfl))

theorem gcMore {sync : Bool} :
    ∀ {fuel : Nat} {gcType : GcType} {secFreed : Nat} {ret : Int} {r : GcState g W}
      {out : Int × GcState g W}, F2fsGc.gcMore env sync fuel gcType secFreed ret r = .ok out →
      ReservationsKept x r → ReservationsKept x out.2
  | 0, _, _, _, _, _, h => by cases h
  | fuel + 1, gcType, secFreed, ret, r, out, h => by
    intro hk
    rcases gcMore_cases h with ⟨-, rfl⟩ | ⟨t, segno, r1, hv, rfl⟩ |
      ⟨t, segno, r1, i, r2, hv, hc, ⟨-, -, hnext⟩ | rfl⟩
    · exact hk.gcStop hkeep sync secFreed ret
    · have hr1 : CheckpointLog r.log r1.log := by
        simpa only [hv] using roundVictim_log env gcType secFreed r
      refine (hk.of_quiet (fun sec h => ?_) hr1.collections_eq).gcStop hkeep sync secFreed ret
      exact ((roundVictim_victimSecmap hkeep hv).1 sec h).resolve_right fun h' => nomatch h'.2.1
    all_goals
      have he : ReservationsKept x (endRound t r2) :=
        (hk.round hkeep hv hc).of_quiet (fun _ h' => by unfold endRound; split_ifs <;> exact h')
          (by rw [endRound_log])
    · exact ReservationsKept.gcMore hnext he
    · refine (he.of_quiet (fun _ h' => ?_) (lastRound_log env sync t _).collections_eq).gcStop hkeep
        sync _ 0
      unfold lastRound
      split_ifs
      exacts [checkpointR_victimSecmap hkeep h', h']

end ReservationsKept

/-- No reservation is lost: over any call of `f2fs_gc` whose collaborators clear no
`victim_secmap` bit, a section reserved on entry, or reserved by a background round of the call,
is still reserved when the call returns, unless a foreground round of the call took it, and then
that round collected the section's first segment. -/
theorem f2fsGc_reservations_kept {W : Type} (env : Env g W) (hkeep : env.KeepsVictims) (sync : Bool)
    (fuel : Nat) (x : World g W) {out : Int × GcState g W} (h : f2fsGc env sync fuel x = .ok out)
    (sec : Nat) (hres : x.sbi.victimSecmap sec = true ∨
      ∃ sg, (sg, GcType.bg) ∈ collections out.2.log ∧ getSecno g sg = sec) :
    out.2.world.sbi.victimSecmap sec = true ∨
      (sec * g.segsPerSec, GcType.fg) ∈ collections out.2.log :=
  ReservationsKept.gcMore hkeep h
    (fun _ hs => hs.elim .inl fun ⟨_, hsg, _⟩ => nomatch hsg) sec hres

/-- `liveNodeSit` after a background selection has reserved its section `0`. -/
def reservedSit : Sbi twoSegSec := (getVictimByDefault liveNodeSit nullSegno .bg noCheckType .lfs).sbi

theorem f2fsGc_reservations_kept_reserved :
    ∃ out, f2fsGc idleEnv true 1 ⟨reservedSit, ()⟩ = .ok out ∧
      reservedSit.victimSecmap 0 = true ∧
      (out.2.world.sbi.victimSecmap 0 = true ∨
        (0 * twoSegSec.segsPerSec, GcType.fg) ∈ collections out.2.log) :=
  have ⟨out, h⟩ := exists_ok_of_isOk
    (show (f2fsGc idleEnv true 1 ⟨reservedSit, ()⟩).isOk = true by decide)
  have h0 : reservedSit.victimSecmap 0 = true := by decide
  ⟨out, h, h0, f2fsGc_reservations_kept idleEnv idleEnv_keepsVictims true 1 _ h 0 (.inl h0)⟩

end F2fsGc
