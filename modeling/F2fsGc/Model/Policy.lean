import F2fsGc.Model.Cost

/-!
# The selection policy

`struct victim_sel_policy` and the functions that fill it and price a candidate:
`select_gc_type`, `select_policy`, `get_max_cost`, `get_gc_cost`; with them the two tests the
scan applies to a candidate's section, `sec_usage_check` and the `victim_secmap` bit, and the
foreground fast path `check_bg_victims`.

`sec_usage_check` lives in `segment.h`, outside this file; it is the one definition below
modelled from the design note rather than from `gc.c`.

Every function here that can write the state writes only the SIT's mtime range
(`get_cb_cost`) or one `victim_secmap` bit (`check_bg_victims`). `Sbi.Agree` names what the
scan relies on staying fixed, and the lemmas at the end say which calls keep it.
-/

set_option autoImplicit false

namespace F2fsGc

/-- `struct victim_sel_policy`. -/
structure VictimSelPolicy where
  allocMode : AllocMode
  gcMode : GcMode
  /-- The map the scan walks. -/
  dirtySegmap : Nat → Bool
  maxSearch : Nat
  offset : Nat
  /-- `1` for SSR, `segs_per_sec` for LFS: the unit the scan steps by. -/
  ofsUnit : Nat
  minCost : Nat
  minSegno : Nat

variable {g : Geometry}

/-- `select_gc_type(gc_th, gc_type)`: cost-benefit in the background, greedy in the foreground,
unless the thread's `gc_idle` (1: cost-benefit, 2: greedy) overrides it. -/
def selectGcType (gcTh : Option GcKthread) (gcType : GcType) : GcMode :=
  let gcMode := if gcType = .bg then GcMode.cb else .greedy
  match gcTh with
  | some th =>
    if th.gcIdle ≠ 0 then
      if th.gcIdle = 1 then .cb else if th.gcIdle = 2 then .greedy else gcMode
    else gcMode
  | none => gcMode

/-- `select_policy(sbi, gc_type, type, p)`, with `p->alloc_mode` already set. The cost fields
are set by the caller. -/
def selectPolicy (s : Sbi g) (gcType : GcType) (type : Nat) (allocMode : AllocMode) :
    VictimSelPolicy :=
  let (gcMode, map, maxSearch, ofsUnit) :=
    match allocMode with
    | .ssr => (GcMode.greedy, s.dirtySegmap type, s.nrDirty type, 1)
    | .lfs => (selectGcType s.gcThread gcType, s.dirtySegmap dirty, s.nrDirty dirty, g.segsPerSec)
  { allocMode, gcMode, dirtySegmap := map,
    maxSearch := if maxSearch > s.maxVictimSearch then s.maxVictimSearch else maxSearch,
    offset := s.lastVictim gcMode, ofsUnit, minCost := 0, minSegno := nullSegno }

/-- The dirty type whose map and count `select_policy` takes: `type` for SSR, `DIRTY` for
LFS. -/
def scannedType (allocMode : AllocMode) (type : Nat) : Nat :=
  match allocMode with
  | .ssr => type
  | .lfs => dirty

/-- `get_max_cost(sbi, p)`: the cost no candidate is chosen at. -/
def getMaxCost (p : VictimSelPolicy) : Nat :=
  match p.allocMode, p.gcMode with
  | .ssr, _ => 2 ^ g.logBlocksPerSeg
  | .lfs, .greedy => 2 ^ g.logBlocksPerSeg * p.ofsUnit % 2 ^ 32
  | .lfs, .cb => uintMax

/-- `get_gc_cost(sbi, segno, p)`. -/
def getGcCost (s : Sbi g) (segno : Nat) (p : VictimSelPolicy) : Nat × Sbi g :=
  match p.allocMode, p.gcMode with
  | .ssr, _ => ((s.sentries segno).ckptValidBlocks, s)
  | .lfs, .greedy => (getValidBlocks s segno g.segsPerSec, s)
  | .lfs, .cb => getCbCost s segno

/-- Modelled from the spec: `sec_usage_check(sbi, secno)` is declared in `segment.h`. A section
is in use when a current segment (a write cursor, `IS_CURSEC`) lies in it — "a section is a
victim candidate only when no currently active write cursor points into it" — or when it is
`cur_victim_sec`, the section a foreground pass is collecting ("in LFS/FG mode the section is
marked `cur_victim_sec`"). -/
def secUsageCheck (s : Sbi g) (secno : Nat) : Bool :=
  s.cursegs.any (fun segno => getSecno g segno == secno) || s.curVictimSec == secno

/-- `check_bg_victims(sbi)`: the first section of `victim_secmap` that is not in use, its bit
cleared, as its first segment; or `NULL_SEGNO`. -/
def checkBgVictims (s : Sbi g) : Nat × Sbi g :=
  match (List.range g.mainSecs).find? (fun secno => s.victimSecmap secno && !secUsageCheck s secno) with
  | some secno =>
    (secno * g.segsPerSec, { s with victimSecmap := Function.update s.victimSecmap secno false })
  | none => (nullSegno, s)

/-! ## What selection leaves in place -/

/-- The fields the scan reads and never writes. -/
def Sbi.Agree (s s' : Sbi g) : Prop :=
  s'.sentries = s.sentries ∧ s'.victimSecmap = s.victimSecmap ∧
    s'.curVictimSec = s.curVictimSec ∧ s'.cursegs = s.cursegs

namespace Sbi.Agree

variable {s s' s'' : Sbi g}

theorem refl (s : Sbi g) : Agree s s := ⟨rfl, rfl, rfl, rfl⟩

theorem trans (h : Agree s s') (h' : Agree s' s'') : Agree s s'' :=
  ⟨h'.1.trans h.1, h'.2.1.trans h.2.1, h'.2.2.1.trans h.2.2.1, h'.2.2.2.trans h.2.2.2⟩

theorem secUsageCheck_eq (h : Agree s s') (secno : Nat) :
    secUsageCheck s' secno = secUsageCheck s secno := by
  simp only [secUsageCheck, h.2.2.1, h.2.2.2]

end Sbi.Agree

theorem setLastVictim_agree (s : Sbi g) (mode : GcMode) (v : Nat) :
    Sbi.Agree s (s.setLastVictim mode v) := ⟨rfl, rfl, rfl, rfl⟩

theorem getCbCost_agree (s : Sbi g) (segno : Nat) : Sbi.Agree s (getCbCost s segno).2 :=
  ⟨rfl, rfl, rfl, rfl⟩

@[simp] theorem getCbCost_lastVictim (s : Sbi g) (segno : Nat) :
    (getCbCost s segno).2.lastVictim = s.lastVictim := rfl

theorem getGcCost_agree (s : Sbi g) (segno : Nat) (p : VictimSelPolicy) :
    Sbi.Agree s (getGcCost s segno p).2 := by
  unfold getGcCost
  split
  · exact .refl s
  · exact .refl s
  · exact getCbCost_agree s segno

@[simp] theorem getGcCost_lastVictim (s : Sbi g) (segno : Nat) (p : VictimSelPolicy) :
    (getGcCost s segno p).2.lastVictim = s.lastVictim := by
  unfold getGcCost; split <;> rfl

/-- Greedy and SSR costs read the segment entries alone. -/
theorem getGcCost_congr {s s' : Sbi g} (h : s'.sentries = s.sentries) (segno : Nat)
    {p : VictimSelPolicy} (hp : p.gcMode = .greedy ∨ p.allocMode = .ssr) :
    (getGcCost s' segno p).1 = (getGcCost s segno p).1 := by
  unfold getGcCost getValidBlocks secValidBlocks
  split <;> simp_all

/-- The unit of a policy: `1` for SSR, `segs_per_sec` for LFS. -/
theorem selectPolicy_ofsUnit (s : Sbi g) (gcType : GcType) (type : Nat) (allocMode : AllocMode) :
    (selectPolicy s gcType type allocMode).ofsUnit =
      match allocMode with
      | .ssr => 1
      | .lfs => g.segsPerSec := by
  cases allocMode <;> rfl

theorem checkBgVictims_spec (s : Sbi g) :
    ((checkBgVictims s).1 = nullSegno ∧ (checkBgVictims s).2 = s) ∨
      ∃ secno, secno < g.mainSecs ∧ s.victimSecmap secno = true ∧
        secUsageCheck s secno = false ∧ (checkBgVictims s).1 = secno * g.segsPerSec ∧
        (checkBgVictims s).2 =
          { s with victimSecmap := Function.update s.victimSecmap secno false } := by
  unfold checkBgVictims
  split
  · rename_i secno h
    obtain ⟨h1, h2, -⟩ := List.find?_range_eq_some.1 h
    simp only [Bool.and_eq_true, Bool.not_eq_true'] at h1
    exact .inr ⟨secno, List.mem_range.1 h2, h1.1, h1.2, rfl, rfl⟩
  · exact .inl ⟨rfl, rfl⟩

end F2fsGc
