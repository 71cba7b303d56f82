import F2fsGc.Proof.ScanInv

/-!
# What `get_victim_by_default` returns

The scan's results, read off `ScanDone` (`Proof/ScanInv.lean`) and the `got_it` block.

`getVictimByDefault_scan_correct` is the selection law: the candidate kept is the first
minimum of the prices the call computed; a scan stopped by its budget has priced every eligible
unit from the old cursor to where it stopped and leaves the cursor there, and any other scan
has priced every eligible unit and clears the cursor. The law holds of every call that reaches
the loop. A call whose budget `max_search = min(nr_dirty, max_victim_search)` is `0` never
does: it returns at once, prices nothing, and keeps the cursor
(`getVictimByDefault_zero_budget_keeps_cursor`). When `nr_dirty` counts the scanned map and
`max_victim_search` covers it, the budget is never hit, and a greedy or SSR call returns a unit
of least cost among all eligible dirty units.

`getVictimByDefault_result_valid` is what a caller may assume of the returned unit: aligned,
inside the main area, not in use, and either reserved by a background pass (the foreground
fast path) or priced below the cap by the scan; and the `got_it` writes.
-/

set_option autoImplicit false

namespace F2fsGc

variable {g : Geometry}

/-! ## The policy the call sets up -/

section Setup

variable (s : Sbi g) (gcType : GcType) (type : Nat) (allocMode : AllocMode)

theorem initPolicy_offset :
    (initPolicy s gcType type allocMode).offset =
      s.lastVictim (initPolicy s gcType type allocMode).gcMode := by
  cases allocMode <;> rfl

theorem initPolicy_ofsUnit :
    (initPolicy s gcType type allocMode).ofsUnit = 1 ∨
      (initPolicy s gcType type allocMode).ofsUnit = g.segsPerSec :=
  (initPolicy_ok s gcType type allocMode).unit

/-- With `max_victim_search` covering `nr_dirty`, the budget is the scanned map's `nr_dirty`. -/
theorem initPolicy_maxSearch
    (h : s.nrDirty (scannedType allocMode type) ≤ s.maxVictimSearch) :
    (initPolicy s gcType type allocMode).dirtySegmap =
        s.dirtySegmap (scannedType allocMode type) ∧
      (initPolicy s gcType type allocMode).maxSearch =
        s.nrDirty (scannedType allocMode type) := by
  cases allocMode <;> refine ⟨rfl, ?_⟩ <;> simp only [initPolicy, selectPolicy, scannedType] at h ⊢ <;>
    split <;> omega

theorem getGcCost_lfs_greedy (s : Sbi g) (segno : Nat) {p : VictimSelPolicy}
    (ha : p.allocMode = .lfs) (hm : p.gcMode = .greedy) :
    getGcCost s segno p = (getValidBlocks s segno g.segsPerSec, s) := by
  unfold getGcCost; rw [ha, hm]

/-- A greedy or SSR price is the price of the unit: a section for LFS, a segment for SSR. -/
theorem getGcCost_unit (s' : Sbi g)
    (hg : (initPolicy s gcType type allocMode).gcMode = .greedy ∨
      (initPolicy s gcType type allocMode).allocMode = .ssr) {a b : Nat}
    (h : a / (initPolicy s gcType type allocMode).ofsUnit =
      b / (initPolicy s gcType type allocMode).ofsUnit) :
    (getGcCost s' a (initPolicy s gcType type allocMode)).1 =
      (getGcCost s' b (initPolicy s gcType type allocMode)).1 := by
  cases allocMode with
  | lfs =>
    have hgr := hg.resolve_right (by intro h; cases h)
    rw [getGcCost_lfs_greedy s' a rfl hgr, getGcCost_lfs_greedy s' b rfl hgr]
    change a / g.segsPerSec = b / g.segsPerSec at h
    unfold getValidBlocks
    split
    · exact congrArg (secValidBlocks s') h
    · have : g.segsPerSec = 1 := by have := g.segsPerSec_pos; omega
      rw [this, Nat.div_one, Nat.div_one] at h; rw [h]
  | ssr =>
    change a / 1 = b / 1 at h
    rw [Nat.div_one, Nat.div_one] at h; rw [h]

end Setup

theorem getSecno_unitStart {u : Nat} (hu : u = 1 ∨ u = g.segsPerSec) (n : Nat) :
    getSecno g (n / u * u) = getSecno g n := by
  rcases hu with rfl | rfl
  · rw [Nat.div_one, Nat.mul_one]
  · exact Nat.mul_div_cancel _ g.segsPerSec_pos

theorem unitStart_add_le {u n k : Nat} (h : n < k * u) : n / u * u + u ≤ k * u := by
  have hq : n / u < k := Nat.div_lt_of_lt_mul (by rwa [Nat.mul_comm] at h)
  calc n / u * u + u = (n / u + 1) * u := (Nat.succ_mul _ _).symm
    _ ≤ k * u := Nat.mul_le_mul_right u hq

theorem finishVictim_of_ne {s : Sbi g} {p : VictimSelPolicy} (gcType : GcType) (result : Nat)
    (scan : Option (Scan g)) (h : p.minSegno ≠ nullSegno) :
    finishVictim s p gcType result scan =
      ⟨true, p.minSegno / p.ofsUnit * p.ofsUnit, gotIt s p gcType, scan⟩ := if_pos h

theorem finishVictim_of_eq {s : Sbi g} {p : VictimSelPolicy} (gcType : GcType) (result : Nat)
    (scan : Option (Scan g)) (h : p.minSegno = nullSegno) :
    finishVictim s p gcType result scan = ⟨false, result, s, scan⟩ := if_neg (not_not.2 h)

/-- The `got_it` writes, read at the returned unit's section. -/
theorem gotIt_spec (s : Sbi g) (p : VictimSelPolicy) (gcType : GcType) (secno : Nat)
    (hsec : getSecno g p.minSegno = secno) :
    (p.allocMode = .lfs → gcType = .fg → (gotIt s p gcType).curVictimSec = secno) ∧
      (p.allocMode = .lfs → gcType = .bg → (gotIt s p gcType).victimSecmap secno = true) ∧
      (gcType = .fg → (gotIt s p gcType).victimSecmap = s.victimSecmap) := by
  subst hsec
  refine ⟨fun ha hf => ?_, fun ha hb => ?_, fun hf => ?_⟩ <;> unfold gotIt
  · simp [ha, hf]
  · simp [ha, hb]
  · split
    · simp [hf]
    · rfl

@[simp] theorem gotIt_lastVictim (s : Sbi g) (p : VictimSelPolicy) (gcType : GcType) :
    (gotIt s p gcType).lastVictim = s.lastVictim := by
  unfold gotIt; split
  · split <;> rfl
  · rfl

/-! ## The three ways through the call -/

section Paths

variable (s : Sbi g) (result : Nat) (gcType : GcType) (type : Nat) (allocMode : AllocMode)

theorem getVictimByDefault_of_maxSearch_zero
    (h : (initPolicy s gcType type allocMode).maxSearch = 0) :
    getVictimByDefault s result gcType type allocMode = ⟨false, result, s, none⟩ := by
  simp only [getVictimByDefault, h, if_true]

theorem getVictimByDefault_of_fast (hms : (initPolicy s gcType type allocMode).maxSearch ≠ 0)
    (hl : allocMode = .lfs) (hf : gcType = .fg) (hne : (checkBgVictims s).1 ≠ nullSegno) :
    getVictimByDefault s result gcType type allocMode =
      finishVictim (checkBgVictims s).2
        { initPolicy s gcType type allocMode with minSegno := (checkBgVictims s).1 } gcType
        result none := by
  subst hl hf
  simp only [getVictimByDefault, hms, if_false, and_self, if_true, ne_eq, hne, not_false_eq_true]

/-- A call that reaches the loop returns through `finishVictim` from a state where the loop is
done. -/
theorem getVictimByDefault_loop (hms : (initPolicy s gcType type allocMode).maxSearch ≠ 0)
    (hfast : ¬(allocMode = .lfs ∧ gcType = .fg ∧ (checkBgVictims s).1 ≠ nullSegno)) :
    ∃ st, ScanDone s gcType (initPolicy s gcType type allocMode)
        (getMaxCost (g := g) (initPolicy s gcType type allocMode)) st ∧
      getVictimByDefault s result gcType type allocMode =
        finishVictim st.sbi st.p gcType result (some st) := by
  have h1 : (if allocMode = .lfs ∧ gcType = .fg then checkBgVictims s else (nullSegno, s)).1 =
      nullSegno := by
    split
    · rename_i h; exact not_not.1 fun hne => hfast ⟨h.1, h.2, hne⟩
    · rfl
  simp only [getVictimByDefault, hms, if_false, h1, ne_eq, not_true_eq_false]
  exact ⟨_, scanLoop_done (initPolicy_ok s gcType type allocMode) _
    (scanInv_init _ (initPolicy_offset s gcType type allocMode) rfl rfl) le_rfl, rfl⟩

end Paths

/-! ## What a finished scan has seen -/

namespace ScanDone

variable {s : Sbi g} {gcType : GcType} {p0 : VictimSelPolicy} {maxCost : Nat} {st : Scan g}

theorem examined_dirty (hd : ScanDone s gcType p0 maxCost st) (hp : PolicyOk g p0)
    {e : Nat × Nat} (he : e ∈ st.examined) : p0.dirtySegmap e.1 = true ∧ e.1 < g.mainSegs := by
  have hv := hd.visited e.1 (hd.sublist.subset (List.mem_map_of_mem Prod.fst he))
  exact ⟨hv, hp.map_lt _ hv⟩

theorem examined_ne_null (hd : ScanDone s gcType p0 maxCost st) (hp : PolicyOk g p0) :
    ∀ e ∈ st.examined, e.1 ≠ nullSegno := fun e he => by
  have := (hd.examined_dirty hp he).2; have := g.mainSegs_le; omega

/-- The budget cannot stop a scan whose budget is at least the map's weight: it would have
priced more distinct dirty segments than there are. -/
theorem not_budget (hd : ScanDone s gcType p0 maxCost st) (hp : PolicyOk g p0)
    (hn : popcount p0.dirtySegmap g.mainSegs ≤ p0.maxSearch) : st.stoppedAt = none := by
  rcases hd.stop with ⟨h, -⟩ | ⟨b, -, -, hlt, -⟩
  · exact h
  · have h1 := hd.sublist.length_le
    rw [List.length_map] at h1
    have h2 := length_le_popcount hd.nodup fun v hv => ⟨hd.visited v hv, hp.map_lt v (hd.visited v hv)⟩
    omega

theorem covers_all (hd : ScanDone s gcType p0 maxCost st) (hs : st.stoppedAt = none) :
    ∀ seg, p0.dirtySegmap seg = true → Eligible s gcType (getSecno g seg) →
      Covered p0 st.examined seg := by
  rcases hd.stop with ⟨-, -, h⟩ | ⟨b, hb, -⟩
  · exact h
  · rw [hs] at hb; cases hb

/-- A complete greedy or SSR scan's minimum is no dearer than any eligible dirty unit. -/
theorem min_le (hd : ScanDone s gcType p0 maxCost st) (hs : st.stoppedAt = none)
    (hg : p0.gcMode = .greedy ∨ p0.allocMode = .ssr)
    (hunit : ∀ a b, a / p0.ofsUnit = b / p0.ofsUnit → (getGcCost s a p0).1 = (getGcCost s b p0).1)
    {seg : Nat} (hdirty : p0.dirtySegmap seg = true) (hel : Eligible s gcType (getSecno g seg)) :
    st.p.minCost ≤ (getGcCost s seg p0).1 := by
  obtain ⟨e, he, hu⟩ := hd.covers_all hs seg hdirty hel
  rw [← hunit _ _ hu, ← (hd.examined e he).2 hg]
  exact hd.argmin.le_of_mem he

end ScanDone

/-! ## The selection law -/

theorem getVictimByDefault_scan_correct (s : Sbi g) (result : Nat) (gcType : GcType) (type : Nat)
    (allocMode : AllocMode)
    (hfast : 0 < (initPolicy s gcType type allocMode).maxSearch →
      ¬(allocMode = .lfs ∧ gcType = .fg ∧ (checkBgVictims s).1 ≠ nullSegno)) :
    let p := initPolicy s gcType type allocMode
    let v := getVictimByDefault s result gcType type allocMode
    (p.maxSearch = 0 → v.found = false ∧ v.result = result ∧ v.sbi = s ∧ v.scan = none) ∧
    (0 < p.maxSearch → ∃ st, v.scan = some st ∧
      (FirstMin (getMaxCost (g := g) p) st.examined (st.p.minSegno, st.p.minCost) ∧
        (v.found = true ↔ st.p.minSegno ≠ nullSegno) ∧
        (v.found = true → v.result = st.p.minSegno / p.ofsUnit * p.ofsUnit)) ∧
      ((∃ b, st.stoppedAt = some b ∧ v.sbi.lastVictim p.gcMode = b ∧
          ∀ seg, p.dirtySegmap seg = true → InCyclic (s.lastVictim p.gcMode) b seg →
            Eligible s gcType (getSecno g seg) → Covered p st.examined seg) ∨
        (st.stoppedAt = none ∧ v.sbi.lastVictim p.gcMode = 0 ∧
          ∀ seg, p.dirtySegmap seg = true → Eligible s gcType (getSecno g seg) →
            Covered p st.examined seg))) ∧
    (s.nrDirty (scannedType allocMode type) =
        popcount (s.dirtySegmap (scannedType allocMode type))
          g.mainSegs →
      s.nrDirty (scannedType allocMode type) ≤ s.maxVictimSearch →
      (∀ st, v.scan = some st → st.stoppedAt = none) ∧
      ((p.gcMode = .greedy ∨ p.allocMode = .ssr) →
        (v.found = true → ∃ seg, p.dirtySegmap seg = true ∧ Eligible s gcType (getSecno g seg) ∧
          v.result = seg / p.ofsUnit * p.ofsUnit ∧
          ∀ seg', p.dirtySegmap seg' = true → Eligible s gcType (getSecno g seg') →
            (getGcCost s seg p).1 ≤ (getGcCost s seg' p).1) ∧
        (v.found = false → ∀ seg, p.dirtySegmap seg = true → Eligible s gcType (getSecno g seg) →
          getMaxCost (g := g) p ≤ (getGcCost s seg p).1))) := by
  intro p v
  have hp : PolicyOk g p := initPolicy_ok s gcType type allocMode
  have hunit := getGcCost_unit s gcType type allocMode s
  rcases Nat.eq_zero_or_pos p.maxSearch with hms | hms
  · -- `max_search == 0`: the call returns before the loop.
    have hv : v = ⟨false, result, s, none⟩ :=
      getVictimByDefault_of_maxSearch_zero s result gcType type allocMode hms
    refine ⟨fun _ => by rw [hv]; exact ⟨rfl, rfl, rfl, rfl⟩,
      fun h => absurd hms (Nat.pos_iff_ne_zero.1 h), fun hnr hle => ?_⟩
    obtain ⟨hmap, hmax⟩ := initPolicy_maxSearch s gcType type allocMode hle
    rw [hv]
    refine ⟨fun _ h => (by cases h), fun _ => ⟨fun h => (by cases h), fun _ seg hd _ => ?_⟩⟩
    have hz : popcount p.dirtySegmap g.mainSegs = 0 := by
      rw [show p.dirtySegmap = _ from hmap, ← hnr, ← hmax]; exact hms
    rw [popcount_eq_zero hz (hp.map_lt seg hd)] at hd; cases hd
  · obtain ⟨st, hd, hv⟩ := getVictimByDefault_loop s result gcType type allocMode
      (Nat.pos_iff_ne_zero.1 hms) (hfast hms)
    obtain ⟨-, hmode, -, -, hunit'⟩ := hd.policy
    have hsome : v.scan = some st := by rw [show v = _ from hv]; unfold finishVictim; split <;> rfl
    have hlv : v.sbi.lastVictim = st.sbi.lastVictim := by
      rw [show v = _ from hv]; unfold finishVictim; split
      · exact gotIt_lastVictim _ _ _
      · rfl
    have hfound : v.found = true ↔ st.p.minSegno ≠ nullSegno := by
      rw [show v = _ from hv]; unfold finishVictim; split <;> simp_all
    have hres : v.found = true → v.result = st.p.minSegno / p.ofsUnit * p.ofsUnit := by
      rw [show v = _ from hv, ← hunit']; unfold finishVictim; split <;> simp_all
    refine ⟨fun h => absurd h (Nat.pos_iff_ne_zero.1 hms), fun _ => ⟨st, hsome, ⟨hd.argmin, hfound, hres⟩, ?_⟩,
      fun hnr hle => ?_⟩
    · rw [hlv]
      rcases hd.stop with ⟨h1, h2, h3⟩ | ⟨b, h1, h2, -, h3⟩
      · exact .inr ⟨h1, h2, h3⟩
      · exact .inl ⟨b, h1, h2, h3⟩
    · obtain ⟨hmap, hmax⟩ := initPolicy_maxSearch s gcType type allocMode hle
      have hns : st.stoppedAt = none :=
        hd.not_budget hp (by rw [show p.dirtySegmap = _ from hmap, ← hnr, ← hmax])
      refine ⟨fun st' h => by rw [hsome] at h; cases h; exact hns, fun hg => ⟨fun hf => ?_, fun hf => ?_⟩⟩
      · have hne := hfound.1 hf
        obtain ⟨hm, -⟩ := hd.argmin.mem hne
        obtain ⟨hdirty, -⟩ := hd.examined_dirty hp hm
        obtain ⟨hel, hcost⟩ := hd.examined _ hm
        refine ⟨st.p.minSegno, hdirty, hel, hres hf, fun seg' hd' hel' => ?_⟩
        rw [← hcost hg]
        exact hd.min_le hns hg (fun a b h => hunit hg h) hd' hel'
      · have hnull : st.p.minSegno = nullSegno := by
          by_contra h; have := hfound.2 h; rw [hf] at this; cases this
        intro seg hdirty hel
        obtain ⟨e, he, hu⟩ := hd.covers_all hns seg hdirty hel
        rw [← hunit hg hu, ← (hd.examined e he).2 hg]
        exact hd.argmin.cap_le hnull (hd.examined_ne_null hp) e he

/-- Four one-segment sections, two blocks a segment. -/
def fourSegs : Geometry := ⟨1, 1, 4, 4, by decide, by decide, by decide, by decide⟩

/-- Segments 1 and 3 dirty and counted, every cursor at 2, and `max_victim_search` as given. -/
def cursorSit (maxVictimSearch : Nat) : Sbi fourSegs where
  sentries _ := ⟨fun _ => false, 0, 0⟩
  minMtime := 0
  maxMtime := 0
  dirtySegmap _ i := i == 1 || i == 3
  nrDirty _ := 2
  victimSecmap _ := false
  lastVictim _ := 2
  curVictimSec := nullSegno
  maxVictimSearch := maxVictimSearch
  cursegs := []
  gcThread := none
  dirty_lt _ i h := by simp only [Bool.or_eq_true, beq_iff_eq] at h; show i < 4; omega

/-- At `max_victim_search = 1` a background call on segments 1 and 3 reaches the loop. -/
theorem getVictimByDefault_scan_correct_cursorSit :
    (0 < (initPolicy (cursorSit 1) .bg 0 .lfs).maxSearch →
      ¬(AllocMode.lfs = .lfs ∧ GcType.bg = .fg ∧ (checkBgVictims (cursorSit 1)).1 ≠ nullSegno)) ∧
      ∃ st, (getVictimByDefault (cursorSit 1) 0 .bg 0 .lfs).scan = some st ∧
        FirstMin (getMaxCost (g := fourSegs) (initPolicy (cursorSit 1) .bg 0 .lfs)) st.examined
          (st.p.minSegno, st.p.minCost) :=
  ⟨fun _ => by decide, ((getVictimByDefault_scan_correct (cursorSit 1) 0 .bg 0 .lfs fun _ => by decide).2.1
    (by decide)).imp fun _ h => ⟨h.1, h.2.1.1⟩⟩

/-- With `max_victim_search = 0` a background call stops without scanning: segment 1 is dirty
and eligible, nothing is priced, and the cursor stays at 2. -/
theorem getVictimByDefault_zero_budget_keeps_cursor :
    let s := cursorSit 0
    let v := getVictimByDefault s 0 .bg 0 .lfs
    (initPolicy s .bg 0 .lfs).dirtySegmap 1 = true ∧ Eligible s .bg (getSecno fourSegs 1) ∧
      v.scan = none ∧ v.found = false ∧ v.sbi.lastVictim (initPolicy s .bg 0 .lfs).gcMode = 2 :=
  ⟨rfl, by decide, rfl, rfl, rfl⟩

/-! ## The returned unit -/

theorem getVictimByDefault_result_valid (s : Sbi g) (result : Nat) (gcType : GcType) (type : Nat)
    (allocMode : AllocMode) (hsecs : g.mainSegs = g.mainSecs * g.segsPerSec) :
    let p := initPolicy s gcType type allocMode
    let v := getVictimByDefault s result gcType type allocMode
    let secno := getSecno g v.result
    (v.found = true →
      (∃ u, v.result = u * p.ofsUnit) ∧ v.result + p.ofsUnit ≤ g.mainSegs ∧
      secUsageCheck s secno = false ∧
      ((allocMode = .lfs ∧ gcType = .fg ∧ s.victimSecmap secno = true ∧
          v.sbi.victimSecmap secno = false) ∨
        ∃ seg, seg / p.ofsUnit = v.result / p.ofsUnit ∧ p.dirtySegmap seg = true ∧
          (∃ st cost, v.scan = some st ∧ (seg, cost) ∈ st.examined ∧
            cost < getMaxCost (g := g) p) ∧
          (gcType = .bg → s.victimSecmap secno = false)) ∧
      (allocMode = .lfs → gcType = .fg → v.sbi.curVictimSec = secno) ∧
      (allocMode = .lfs → gcType = .bg → v.sbi.victimSecmap secno = true)) ∧
    (v.found = false →
      v.result = result ∧ v.sbi.victimSecmap = s.victimSecmap ∧
        v.sbi.curVictimSec = s.curVictimSec) := by
  intro p v secno
  have hp : PolicyOk g p := initPolicy_ok s gcType type allocMode
  have hu := hp.unit_pos
  have hal : p.allocMode = allocMode := by cases allocMode <;> rfl
  -- A unit start below `MAIN_SEGS`, from any segment below it.
  have hstart : ∀ n, n < g.mainSegs → n / p.ofsUnit * p.ofsUnit + p.ofsUnit ≤ g.mainSegs := by
    intro n hn
    rcases hp.unit with h | h <;> rw [h]
    · simpa using unitStart_add_le (u := 1) (k := g.mainSegs) (by omega)
    · rw [hsecs] at hn ⊢; exact unitStart_add_le hn
  rcases Nat.eq_zero_or_pos p.maxSearch with hms | hms
  · -- `max_search == 0`
    have hv : v = ⟨false, result, s, none⟩ :=
      getVictimByDefault_of_maxSearch_zero s result gcType type allocMode hms
    rw [hv]
    exact ⟨fun h => (by cases h), fun _ => ⟨rfl, rfl, rfl⟩⟩
  by_cases hfast : allocMode = .lfs ∧ gcType = .fg ∧ (checkBgVictims s).1 ≠ nullSegno
  · -- the foreground fast path: a section a background pass reserved
    obtain ⟨hl, hf, hne⟩ := hfast
    rcases checkBgVictims_spec s with ⟨h, -⟩ | ⟨sec, hlt, hres, huse, h1, h2⟩
    · exact absurd h hne
    have hunit : (initPolicy s gcType type allocMode).ofsUnit = g.segsPerSec := by subst hl; rfl
    have hv := getVictimByDefault_of_fast s result gcType type allocMode
      (Nat.pos_iff_ne_zero.1 hms) hl hf hne
    rw [finishVictim_of_ne _ _ _ hne] at hv
    have hr : v.result = sec * g.segsPerSec := by
      rw [show v = _ from hv]; dsimp only
      rw [h1, hunit, Nat.mul_div_cancel _ g.segsPerSec_pos]
    have hsec : secno = sec := by
      show getSecno g v.result = sec; rw [hr]; exact Nat.mul_div_cancel _ g.segsPerSec_pos
    obtain ⟨hcur, -, hmap⟩ := gotIt_spec (checkBgVictims s).2
      { initPolicy s gcType type allocMode with minSegno := (checkBgVictims s).1 } gcType sec
      (by rw [h1]; exact Nat.mul_div_cancel _ g.segsPerSec_pos)
    have hfound : v.found = true := by rw [show v = _ from hv]
    refine ⟨fun _ => ⟨⟨sec, by rw [hr]; exact congrArg _ hunit.symm⟩, ?_, ?_, .inl ⟨hl, hf, ?_, ?_⟩,
      fun _ _ => ?_, fun _ hb => ?_⟩, fun h => ?_⟩
    · rw [hr, show p.ofsUnit = _ from hunit, ← Nat.succ_mul, hsecs]
      exact Nat.mul_le_mul_right _ hlt
    · rw [hsec]; exact huse
    · rw [hsec]; exact hres
    · rw [hsec, show v = _ from hv]; dsimp only; rw [hmap hf, h2]; simp
    · rw [hsec, show v = _ from hv]; exact hcur (by rw [← hl]; exact hal) hf
    · rw [hf] at hb; cases hb
    · rw [hfound] at h; cases h
  · -- the scan
    obtain ⟨st, hd, hv⟩ := getVictimByDefault_loop s result gcType type allocMode
      (Nat.pos_iff_ne_zero.1 hms) hfast
    obtain ⟨hal', -, -, -, hunit'⟩ := hd.policy
    by_cases hm : st.p.minSegno = nullSegno
    · rw [finishVictim_of_eq _ _ _ hm] at hv
      rw [show v = _ from hv]
      exact ⟨fun h => (by cases h), fun _ => ⟨rfl, hd.agree.2.1, hd.agree.2.2.1⟩⟩
    rw [finishVictim_of_ne _ _ _ hm] at hv
    obtain ⟨hmem, hlt⟩ := hd.argmin.mem hm
    obtain ⟨hdirty, hbound⟩ := hd.examined_dirty hp hmem
    obtain ⟨⟨huse, hbg⟩, -⟩ := hd.examined _ hmem
    have hr : v.result = st.p.minSegno / p.ofsUnit * p.ofsUnit := by
      rw [show v = _ from hv]; dsimp only; rw [hunit']
    have hsec : secno = getSecno g st.p.minSegno := by
      show getSecno g v.result = _; rw [hr]; exact getSecno_unitStart hp.unit _
    obtain ⟨hcur, hset, -⟩ := gotIt_spec st.sbi st.p gcType secno hsec.symm
    rw [hal', hal] at hcur hset
    have hsbi : v.sbi = gotIt st.sbi st.p gcType := by rw [show v = _ from hv]
    have hfound : v.found = true := by rw [show v = _ from hv]
    refine ⟨fun _ => ⟨⟨_, hr⟩, ?_, ?_, .inr ⟨st.p.minSegno, ?_, hdirty,
        ⟨st, st.p.minCost, by rw [show v = _ from hv], hmem, hlt⟩, fun hb => ?_⟩,
      fun hl hf => ?_, fun hl hb => ?_⟩, fun h => ?_⟩
    · rw [hr]; exact hstart _ hbound
    · rw [hsec]; exact huse
    · rw [hr, Nat.mul_div_cancel _ hu]
    · rw [hsec]; simpa [hb] using hbg
    · rw [hsbi]; exact hcur hl hf
    · rw [hsbi]; exact hset hl hb
    · rw [hfound] at h; cases h

theorem getVictimByDefault_result_valid_fourSegs :
    fourSegs.mainSegs = fourSegs.mainSecs * fourSegs.segsPerSec ∧
      let p := initPolicy (cursorSit 1) .fg 0 .lfs
      let v := getVictimByDefault (cursorSit 1) 0 .fg 0 .lfs
      let secno := getSecno fourSegs v.result
      (v.found = true →
        (∃ u, v.result = u * p.ofsUnit) ∧ v.result + p.ofsUnit ≤ fourSegs.mainSegs ∧
        secUsageCheck (cursorSit 1) secno = false ∧
        ((AllocMode.lfs = .lfs ∧ GcType.fg = .fg ∧ (cursorSit 1).victimSecmap secno = true ∧
            v.sbi.victimSecmap secno = false) ∨
          ∃ seg, seg / p.ofsUnit = v.result / p.ofsUnit ∧ p.dirtySegmap seg = true ∧
            (∃ st cost, v.scan = some st ∧ (seg, cost) ∈ st.examined ∧
              cost < getMaxCost (g := fourSegs) p) ∧
            (GcType.fg = .bg → (cursorSit 1).victimSecmap secno = false)) ∧
        (AllocMode.lfs = .lfs → GcType.fg = .fg → v.sbi.curVictimSec = secno) ∧
        (AllocMode.lfs = .lfs → GcType.fg = .bg → v.sbi.victimSecmap secno = true)) ∧
      (v.found = false →
        v.result = 0 ∧ v.sbi.victimSecmap = (cursorSit 1).victimSecmap ∧
          v.sbi.curVictimSec = (cursorSit 1).curVictimSec) :=
  ⟨rfl, getVictimByDefault_result_valid (cursorSit 1) 0 .fg 0 .lfs rfl⟩

end F2fsGc
