import F2fsGc.Proof.Victim
import Mathlib.Logic.Relation

/-!
# The victim loop as a run: its budget, its end, its two passes

Two facts about the `while (1)` loop of `get_victim_by_default` that the selection law
(`Proof/Victim.lean`) does not need.

The search budget. `nsearched++ >= p.max_search` tests the count before it is incremented, so
the loop counts `max_search + 1` candidates before the budget stops it; and a candidate priced at
`max_cost`, no cheaper than the minimum, goes to `continue` before it is counted.
`getVictimByDefault_budget` bounds what is counted, and that is all the budget bounds: with
`max_victim_search = 1`, a call prices three segments (`getVictimByDefault_prices_past_budget`).

The run. `ScanRun` is the loop with no bound on its iterations. From the call's first state it
reaches a `break`, and the fuel `getVictimByDefault` gives `scanLoop` gets there
(`scanLoop_run`). Every state on the way is in one of the two passes `Pass` names, every
iteration is either the one wrap or moves the offset forward inside its pass, and no segment is
taken twice (`getVictimByDefault_loop_terminates`).
-/

set_option autoImplicit false

namespace F2fsGc

variable {g : Geometry}

theorem finishVictim_scan (s : Sbi g) (p : VictimSelPolicy) (gcType : GcType) (result : Nat)
    (scan : Option (Scan g)) : (finishVictim s p gcType result scan).scan = scan := by
  unfold finishVictim; split <;> rfl

section Call

variable (s : Sbi g) (result : Nat) (gcType : GcType) (type : Nat) (allocMode : AllocMode)

/-- `select_policy`'s budget: `nr_dirty` of the scanned map, capped at `max_victim_search`. -/
theorem initPolicy_maxSearch_eq :
    (initPolicy s gcType type allocMode).maxSearch =
      min (s.nrDirty (scannedType allocMode type)) s.maxVictimSearch := by
  cases allocMode <;> simp only [initPolicy, selectPolicy, scannedType, Nat.min_def] <;>
    split <;> split <;> omega

/-- A call that ran the loop ran it from its first state, on the measure's fuel. -/
theorem getVictimByDefault_scan {st : Scan g}
    (h : (getVictimByDefault s result gcType type allocMode).scan = some st) :
    (initPolicy s gcType type allocMode).maxSearch ≠ 0 ∧
      st = scanLoop gcType (getMaxCost (g := g) (initPolicy s gcType type allocMode))
        (Scan.measure ⟨initPolicy s gcType type allocMode, g.mainSegs, 0, s, [], [], none⟩)
        ⟨initPolicy s gcType type allocMode, g.mainSegs, 0, s, [], [], none⟩ := by
  have hms : (initPolicy s gcType type allocMode).maxSearch ≠ 0 := fun h0 => by
    rw [getVictimByDefault_of_maxSearch_zero s result gcType type allocMode h0] at h; cases h
  refine ⟨hms, ?_⟩
  simp only [getVictimByDefault, hms, if_false, apply_ite Victim.scan, finishVictim_scan] at h
  by_cases hf :
      (if allocMode = .lfs ∧ gcType = .fg then checkBgVictims s else (nullSegno, s)).1 ≠ nullSegno
  · rw [if_pos hf] at h; cases h
  · rw [if_neg hf] at h; exact (Option.some.inj h).symm

end Call

/-! ## The search budget -/

section Budget

variable {gcType : GcType} {maxCost ms : Nat}

/-- What the loop keeps of its budget between iterations: `nsearched` counts exactly the priced
candidates whose cost is not the cap, and has not passed `max_search`; the minimum is never
above the cap. -/
structure Budget (maxCost ms : Nat) (st : Scan g) : Prop where
  unit : 1 ≤ st.p.ofsUnit
  maxSearch : st.p.maxSearch = ms
  minCost : st.p.minCost ≤ maxCost
  counted : st.nsearched = st.examined.countP fun e => e.2 ≠ maxCost
  within : st.nsearched ≤ ms
  stopped : st.stoppedAt = none

/-- The budget at the `break`: at most `max_search + 1` candidates off the cap priced, and
exactly that many when the budget made the `break`. -/
def BudgetDone (maxCost ms : Nat) (st : Scan g) : Prop :=
  (st.examined.countP fun e => e.2 ≠ maxCost) ≤ ms + 1 ∧
    (st.stoppedAt ≠ none → (st.examined.countP fun e => e.2 ≠ maxCost) = ms + 1)

namespace Budget

theorem done {st : Scan g} (hb : Budget maxCost ms st) : BudgetDone maxCost ms st :=
  ⟨hb.counted ▸ Nat.le_succ_of_le hb.within, fun h => absurd hb.stopped h⟩

theorem advance {st : Scan g} (hb : Budget maxCost ms st) (segno : Nat) :
    Budget maxCost ms (st.advance segno) :=
  ⟨hb.1, hb.2, hb.3, hb.4, hb.5, hb.6⟩

theorem wrap {st : Scan g} (hb : Budget maxCost ms st) : Budget maxCost ms st.wrap :=
  ⟨hb.1, hb.2, hb.3, hb.4, hb.5, hb.6⟩

/-- A candidate priced at the cap is passed over: the count does not move. -/
theorem examine_cap {st : Scan g} (hb : Budget maxCost ms st) {segno : Nat}
    (hc : (getGcCost st.sbi segno st.p).1 = maxCost) : Budget maxCost ms (st.examine segno) where
  unit := by simpa using hb.unit
  maxSearch := by simpa using hb.maxSearch
  minCost := (Scan.examine_minCost_le st segno).trans hb.minCost
  counted := by simp [hb.counted, hc]
  within := hb.within
  stopped := hb.stopped

/-- A candidate priced off the cap is counted: `nsearched++ >= p.max_search` goes on below the
budget and breaks at it. -/
theorem examine_count {st : Scan g} (hb : Budget maxCost ms st) {segno : Nat}
    (hc : (getGcCost st.sbi segno st.p).1 ≠ maxCost) :
    (∀ st', countSearched (st.examine segno) segno = .cont st' → Budget maxCost ms st') ∧
      ∀ st', countSearched (st.examine segno) segno = .brk st' → BudgetDone maxCost ms st' := by
  have hcnt : ((st.examine segno).examined.countP fun e => e.2 ≠ maxCost) = st.nsearched + 1 := by
    simp [hb.counted, hc]
  have hms : (st.examine segno).p.maxSearch = ms := by simpa using hb.maxSearch
  refine ⟨fun st' h => ?_, fun st' h => ?_⟩
  · obtain ⟨rfl, hlt⟩ := countSearched_cont h
    rw [hms] at hlt
    exact ⟨by simpa using hb.unit, hms, (Scan.examine_minCost_le st segno).trans hb.minCost,
      hcnt.symm, hlt, hb.stopped⟩
  · obtain ⟨rfl, hge⟩ := countSearched_brk h
    rw [hms, Scan.examine_nsearched] at hge
    have := hb.within
    exact ⟨by simp only [hcnt]; omega, fun _ => by simp only [hcnt]; omega⟩

/-- One iteration: a `continue` keeps the budget, a `break` ends within it. -/
theorem step {st : Scan g} (hb : Budget maxCost ms st) :
    (∀ st', scanStep gcType maxCost st = .cont st' → Budget maxCost ms st') ∧
      ∀ st', scanStep gcType maxCost st = .brk st' → BudgetDone maxCost ms st' := by
  simp only [scanStep]
  generalize findNextBit st.p.dirtySegmap st.lastSegment st.p.offset = segno
  by_cases h1 : st.lastSegment ≤ segno
  · rw [if_pos h1]
    by_cases h2 : st.sbi.lastVictim st.p.gcMode ≠ 0
    · rw [if_pos h2]; exact ⟨fun st' h => by cases h; exact hb.wrap, nofun⟩
    · rw [if_neg h2]; exact ⟨nofun, fun st' h => by cases h; exact hb.done⟩
  rw [if_neg h1]
  by_cases h3 : secUsageCheck st.sbi (getSecno g segno) = true
  · rw [if_pos h3]; exact ⟨fun st' h => by cases h; exact hb.advance segno, nofun⟩
  rw [if_neg h3]
  by_cases h4 : gcType = .bg ∧ st.sbi.victimSecmap (getSecno g segno) = true
  · rw [if_pos h4]; exact ⟨fun st' h => by cases h; exact hb.advance segno, nofun⟩
  rw [if_neg h4]
  have hb' := hb.advance segno
  split
  · exact hb'.examine_count (by have := hb'.minCost; omega)
  split
  · exact ⟨fun st' h => by cases h; exact hb'.examine_cap ‹_›, nofun⟩
  · exact hb'.examine_count ‹_›

end Budget

end Budget

/-- The budget of one call. `select_policy` sets `max_search = min(nr_dirty, max_victim_search)`,
and a call that scans has `max_search > 0`. Counting is what the budget bounds: the priced
candidates whose cost is not the cap number at most `max_search + 1` (the test comes before the
increment), and exactly `max_search + 1` when the budget stopped the loop. Candidates at the cap
are priced and not counted. -/
theorem getVictimByDefault_budget (s : Sbi g) (result : Nat) (gcType : GcType) (type : Nat)
    (allocMode : AllocMode) :
    let p := initPolicy s gcType type allocMode
    p.maxSearch = min (s.nrDirty (scannedType allocMode type)) s.maxVictimSearch ∧
      ∀ st, (getVictimByDefault s result gcType type allocMode).scan = some st →
        0 < p.maxSearch ∧
        (st.examined.countP fun e => e.2 ≠ getMaxCost (g := g) p) ≤ p.maxSearch + 1 ∧
        (st.stoppedAt ≠ none →
          (st.examined.countP fun e => e.2 ≠ getMaxCost (g := g) p) = p.maxSearch + 1) := by
  refine ⟨initPolicy_maxSearch_eq s gcType type allocMode, fun st h => ?_⟩
  obtain ⟨hms, rfl⟩ := getVictimByDefault_scan s result gcType type allocMode h
  exact ⟨Nat.pos_of_ne_zero hms, scanLoop_induct (Budget _ _) (BudgetDone _ _)
    (fun _ hb => hb.unit) (fun _ _ hb => hb.step.1 _) (fun _ _ hb => hb.step.2 _) _ _
    ⟨(initPolicy_ok s gcType type allocMode).unit_pos, rfl, le_rfl, rfl, Nat.zero_le _, rfl⟩
    le_rfl⟩

/-- Segments 0 to 2 dirty, segment 0 full, every cursor at 0, and `max_victim_search = 1`. -/
def budgetSit : Sbi fourSegs where
  sentries n := ⟨fun _ => decide (n = 0), 0, 0⟩
  minMtime := 0
  maxMtime := 0
  dirtySegmap _ i := decide (i < 3)
  nrDirty _ := 3
  victimSecmap _ := false
  lastVictim _ := 0
  curVictimSec := nullSegno
  maxVictimSearch := 1
  cursegs := []
  gcThread := none
  dirty_lt _ i h := by simp only [decide_eq_true_eq] at h; show i < 4; omega

/-- With a budget of one, a foreground call prices three segments: segment 0 at the cap
(`2`, not counted), segment 1 (counted first), and segment 2 (counted second, where
`nsearched++ >= 1` breaks). -/
theorem getVictimByDefault_prices_past_budget :
    (initPolicy budgetSit .fg 0 .lfs).maxSearch = 1 ∧
      getMaxCost (g := fourSegs) (initPolicy budgetSit .fg 0 .lfs) = 2 ∧
      (getVictimByDefault budgetSit 0 .fg 0 .lfs).scan.map Scan.examined =
        some [(0, 2), (1, 0), (2, 0)] := by
  decide

/-! ## The loop as a run -/

section Run

variable (gcType : GcType) (maxCost : Nat)

/-- `st'` follows `st` by iterations that `continue`. -/
def ScanReach : Scan g → Scan g → Prop :=
  Relation.ReflTransGen fun a b => scanStep gcType maxCost a = .cont b

/-- The `while (1)` loop with no bound on its iterations: from `st` it continues to a state whose
iteration breaks with `st'`. -/
def ScanRun (st st' : Scan g) : Prop :=
  ∃ st1, ScanReach gcType maxCost st st1 ∧ scanStep gcType maxCost st1 = .brk st'

variable {gcType maxCost}

theorem ScanReach.inv (P : Scan g → Prop)
    (hP : ∀ a b, P a → scanStep gcType maxCost a = .cont b → P b) {st st' : Scan g}
    (h : ScanReach gcType maxCost st st') (h0 : P st) : P st' := by
  unfold ScanReach at h
  induction h with
  | refl => exact h0
  | tail _ hab ih => exact hP _ _ ih hab

/-- On fuel for the measure, `scanLoop` is the loop: what it returns is the state of a real
`break`. -/
theorem scanLoop_run (fuel : Nat) {st : Scan g} (hu : 1 ≤ st.p.ofsUnit)
    (hf : st.measure ≤ fuel) : ScanRun gcType maxCost st (scanLoop gcType maxCost fuel st) :=
  scanLoop_induct (fun a => 1 ≤ a.p.ofsUnit ∧ ScanReach gcType maxCost st a)
    (ScanRun gcType maxCost st)
    (fun _ h => h.1) (fun _ _ h hs => ⟨(scanStep_measure h.1 hs).2.1 ▸ h.1, h.2.tail hs⟩)
    (fun a _ h hs => ⟨a, h.2, hs⟩) fuel st ⟨hu, .refl⟩ hf

/-- An iteration that continues is the wrap, or takes a segment at or past the offset and moves
the offset past it, in the same pass. -/
theorem scanStep_cont {st st' : Scan g} (hu : 1 ≤ st.p.ofsUnit)
    (h : scanStep gcType maxCost st = .cont st') :
    (st.sbi.lastVictim st.p.gcMode ≠ 0 ∧ st' = st.wrap) ∨
      (st.p.offset < st'.p.offset ∧ st'.lastSegment = st.lastSegment ∧
        st'.sbi.lastVictim = st.sbi.lastVictim) := by
  have hadv : findNextBit st.p.dirtySegmap st.lastSegment st.p.offset < st.lastSegment →
      st.p.offset < nextOffset (findNextBit st.p.dirtySegmap st.lastSegment st.p.offset)
        st.p.ofsUnit := fun hlt => by
    have := (findNextBit_of_lt hlt).1
    have := nextOffset_gt (findNextBit st.p.dirtySegmap st.lastSegment st.p.offset) hu
    omega
  rcases scanStep_cases h with ⟨-, h2, h3⟩ | ⟨-, -, h3⟩ | ⟨h1, -, h3⟩ | ⟨h1, -, -, h3 | h3⟩
  · cases h3; exact .inl ⟨h2, rfl⟩
  · cases h3
  · cases h3; exact .inr ⟨hadv h1, rfl, rfl⟩
  · obtain ⟨rfl, -⟩ := countSearched_cont h3.symm
    exact .inr ⟨by simpa using hadv h1, rfl, by simp⟩
  · cases h3; exact .inr ⟨by simpa using hadv h1, rfl, by simp⟩

end Run

/-- The loop of every call ends, in at most two passes. From the call's first state (the
cursor `c = last_victim[gc_mode]` as offset, `MAIN_SEGS` as the end), the loop reaches a `break`,
and `scanLoop` on the measure's fuel returns that `break`'s state. Every state on the way is in
the first pass (`[c, MAIN_SEGS)`, cursor untouched) or, when `c ≠ 0`, in the second (`[0, c)`,
cursor cleared); every iteration that continues is the wrap, which needs the cursor not yet
cleared and clears it, or moves the offset strictly forward inside its pass; and no segment is
taken from the map twice, each a dirty one. The loop needs no bound on `c`. -/
theorem getVictimByDefault_loop_terminates (s : Sbi g) (gcType : GcType) (type : Nat)
    (allocMode : AllocMode) :
    let p := initPolicy s gcType type allocMode
    let maxCost := getMaxCost (g := g) p
    let st0 : Scan g := ⟨p, g.mainSegs, 0, s, [], [], none⟩
    ScanRun gcType maxCost st0 (scanLoop gcType maxCost st0.measure st0) ∧
      (∀ st, ScanReach gcType maxCost st0 st → Pass s p st) ∧
      (∀ st st', ScanReach gcType maxCost st0 st → scanStep gcType maxCost st = .cont st' →
        (st.sbi.lastVictim p.gcMode ≠ 0 ∧ st' = st.wrap) ∨
          (st.p.offset < st'.p.offset ∧ st'.lastSegment = st.lastSegment ∧
            st'.sbi.lastVictim p.gcMode = st.sbi.lastVictim p.gcMode)) ∧
      ∀ st', ScanRun gcType maxCost st0 st' →
        st'.visited.Nodup ∧ ∀ v ∈ st'.visited, p.dirtySegmap v = true := by
  intro p maxCost st0
  have hp := initPolicy_ok s gcType type allocMode
  have hreach : ∀ st, ScanReach gcType maxCost st0 st → ScanInv s gcType p maxCost st :=
    fun st h => h.inv _ (fun _ b ha hs => (scanInv_step hp ha).1 b hs)
      (scanInv_init p (initPolicy_offset s gcType type allocMode) rfl rfl)
  refine ⟨scanLoop_run _ hp.unit_pos le_rfl, fun st h => (hreach st h).pass,
    fun st st' h hs => ?_, fun st' ⟨st1, h1, hb⟩ => ?_⟩
  · have hi := hreach st h
    obtain ⟨-, hmode, -, -, hunit⟩ := hi.policy
    rw [← hmode]
    rcases scanStep_cont (hunit ▸ hp.unit_pos) hs with h' | ⟨h1, h2, h3⟩
    · exact .inl h'
    · exact .inr ⟨h1, h2, by rw [h3]⟩
  · have hd := (scanInv_step hp (hreach st1 h1)).2 st' hb
    exact ⟨hd.nodup, hd.visited⟩

end F2fsGc
