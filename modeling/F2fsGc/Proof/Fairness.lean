import F2fsGc.Proof.Reserve

/-!
# The cursor: repeated background selections price every section

`last_victim[gc_mode]` is where a selection stopped when the search budget ran out, and the
next selection starts there. A background LFS selection that the budget stops at `b` has priced
every eligible section with a dirty segment in the cyclic interval from its cursor to `b`
(`ScanDone`), and `b` lies past its cursor: the budget counts at least one candidate before it
breaks, so the loop has moved off the cursor, and it never comes back to it (`scanStep_stop_ne`).
A selection that the budget does not stop prices every eligible dirty section (`BgCovers`).

`bgSelections s n` is `n` background selections in a row, each from the state the one before
left, with nothing else changing the state. On the ring of `MAIN_SEGS` segments the cursors of
the selections move forward by at least one segment each, and the interval each one covers starts
where the one before stopped (`aheadOf`). So `MAIN_SEGS` selections price a segment of every
section that has a dirty segment and is still eligible after them
(`getVictimByDefault_bg_fair`).
-/

set_option autoImplicit false

namespace F2fsGc

variable {g : Geometry}

/-! ## A budget stop lies past the cursor -/

section Stop

variable {s : Sbi g} {gcType : GcType} {p0 : VictimSelPolicy} {maxCost : Nat}

/-- Once the loop has taken a segment, it has passed its cursor. -/
theorem ScanInv.passed_cursor {st : Scan g} (hi : ScanInv s gcType p0 maxCost st)
    (hv : st.visited ≠ []) : Passed s p0 st (s.lastVictim p0.gcMode) := by
  rcases hi.pass with ⟨hlv, -, -⟩ | ⟨hc, hlv, -⟩
  · obtain ⟨v, hmem⟩ := List.exists_mem_of_ne_nil _ hv
    have hp := (passed_iff_of_lastVictim st v hlv).1 (hi.visited v hmem).2
    exact (passed_iff_of_lastVictim st _ hlv).2 ⟨le_refl _, by omega⟩
  · exact (passed_iff_of_wrapped st _ hc hlv).2 (.inl (le_refl _))

variable (hp : PolicyOk g p0)
include hp

/-- A `break` on the budget stops at a dirty segment other than the cursor: the budget has
counted a candidate before, so the loop has passed the cursor, and the segment it stops at is
one it had not passed. -/
theorem scanStep_stop_ne (hms : 0 < p0.maxSearch) {st st' : Scan g}
    (hi : ScanInv s gcType p0 maxCost st) (h : scanStep gcType maxCost st = .brk st') :
    ∀ b, st'.stoppedAt = some b → b ≠ s.lastVictim p0.gcMode ∧ b < g.mainSegs := by
  intro b hb
  rcases scanStep_cases h with ⟨-, -, h'⟩ | ⟨-, -, h'⟩ | ⟨-, -, h'⟩ | ⟨hlt, -, -, h' | h'⟩
  · cases h'
  · cases h'
    rw [hi.stopped] at hb
    cases hb
  · cases h'
  · obtain ⟨rfl, hge⟩ := countSearched_brk h'.symm
    cases hb
    obtain ⟨-, hd, hnew, -⟩ := advance_passed hp hi rfl hlt
    have hge' : p0.maxSearch ≤ st.nsearched := by
      rw [← hi.policy.2.2.2.1]
      simpa [Scan.advance] using hge
    have hvis : st.visited ≠ [] := fun hnil => by
      have h1 := hi.sublist.length_le
      rw [hnil, List.length_map, List.length_nil] at h1
      have := hi.counted
      omega
    refine ⟨fun heq => hnew ?_, hp.map_lt _ hd⟩
    rw [heq]
    exact hi.passed_cursor hvis
  · cases h'

/-- The loop's `break` on the budget is at a dirty segment other than the cursor. -/
theorem scanLoop_stop_ne (hms : 0 < p0.maxSearch) (fuel : Nat) {st : Scan g}
    (hi : ScanInv s gcType p0 maxCost st) (hf : st.measure ≤ fuel) :
    ∀ b, (scanLoop gcType maxCost fuel st).stoppedAt = some b →
      b ≠ s.lastVictim p0.gcMode ∧ b < g.mainSegs :=
  scanLoop_induct (ScanInv s gcType p0 maxCost)
    (fun st => ∀ b, st.stoppedAt = some b → b ≠ s.lastVictim p0.gcMode ∧ b < g.mainSegs)
    (fun _ hi => hi.policy.2.2.2.2 ▸ hp.unit_pos)
    (fun _ _ hi => (scanInv_step hp hi).1 _) (fun _ _ hi => scanStep_stop_ne hp hms hi)
    fuel st hi hf

end Stop

/-! ## One background selection -/

section Bg

variable (s : Sbi g) (result type : Nat)

/-- What a background LFS selection leaves of the state a later selection reads: the dirty map
and its count, the budget, the thread's mode, the current segments and `cur_victim_sec`. It may
reserve a section, and clears no reservation. -/
theorem getVictimByDefault_bg_frame :
    let v := getVictimByDefault s result .bg type .lfs
    (v.sbi.dirtySegmap, v.sbi.nrDirty, v.sbi.maxVictimSearch, v.sbi.gcThread, v.sbi.cursegs,
        v.sbi.curVictimSec) =
      (s.dirtySegmap, s.nrDirty, s.maxVictimSearch, s.gcThread, s.cursegs, s.curVictimSec) ∧
      ∀ sec, s.victimSecmap sec = true → v.sbi.victimSecmap sec = true := by
  intro v
  refine ⟨?_, fun sec h => ((getVictimByDefault_victimSecmap s result .bg type h).resolve_right
    fun h' => nomatch h'.1)⟩
  let f : Sbi g → _ := fun s =>
    (s.dirtySegmap, s.nrDirty, s.maxVictimSearch, s.gcThread, s.cursegs, s.curVictimSec)
  show f v.sbi = f s
  by_cases hms : (initPolicy s .bg type .lfs).maxSearch = 0
  · show f (getVictimByDefault s result .bg type .lfs).sbi = f s
    rw [getVictimByDefault_of_maxSearch_zero s result .bg type .lfs hms]
  obtain ⟨st, -, hv⟩ := getVictimByDefault_loop s result .bg type .lfs hms fun h => nomatch h.2.1
  have hst := (getVictimByDefault_scan s result .bg type .lfs (by rw [hv, finishVictim_scan])).2
  have hkeep : f st.sbi = f s := by
    rw [hst]
    refine scanLoop_keeps f (fun _ _ _ => rfl) (fun s segno p => ?_) .bg _ _ _
    unfold getGcCost; split <;> rfl
  show f (getVictimByDefault s result .bg type .lfs).sbi = f s
  rw [hv, ← hkeep]
  unfold finishVictim gotIt
  split
  · dsimp only
    split_ifs <;> first | rfl | contradiction
  · rfl

/-- What a background LFS selection `v` from `s` prices, and where it leaves the cursor: a
segment of every eligible section with a dirty segment; or, when the budget stops it, a segment
of every such section from its cursor to where it stopped, a segment of the main area other than
the cursor, which it leaves as the cursor. -/
def BgCovers (s : Sbi g) (type : Nat) (v : Victim g) : Prop :=
  let p := initPolicy s .bg type .lfs
  ∃ st, v.scan = some st ∧
    ((∀ seg, p.dirtySegmap seg = true → Eligible s .bg (getSecno g seg) →
        Covered p st.examined seg) ∨
      (v.sbi.lastVictim p.gcMode ≠ s.lastVictim p.gcMode ∧ v.sbi.lastVictim p.gcMode < g.mainSegs ∧
        ∀ seg, p.dirtySegmap seg = true → InCyclic (s.lastVictim p.gcMode) (v.sbi.lastVictim p.gcMode) seg →
          Eligible s .bg (getSecno g seg) → Covered p st.examined seg))

/-- A background LFS selection with a budget prices what `BgCovers` says. -/
theorem getVictimByDefault_bg_covers (hms : 0 < (initPolicy s .bg type .lfs).maxSearch) :
    BgCovers s type (getVictimByDefault s result .bg type .lfs) := by
  unfold BgCovers
  intro p
  obtain ⟨st, hd, hv⟩ := getVictimByDefault_loop s result .bg type .lfs (Nat.pos_iff_ne_zero.1 hms)
    fun h => nomatch h.2.1
  have hscan : (getVictimByDefault s result .bg type .lfs).scan = some st := by
    rw [hv, finishVictim_scan]
  have hst := (getVictimByDefault_scan s result .bg type .lfs hscan).2
  have hlv : (getVictimByDefault s result .bg type .lfs).sbi.lastVictim = st.sbi.lastVictim := by
    rw [hv]
    unfold finishVictim
    split
    · exact gotIt_lastVictim _ _ _
    · rfl
  refine ⟨st, hscan, ?_⟩
  rcases hd.stop with ⟨-, -, hall⟩ | ⟨b, hb, hlvb, -, hcyc⟩
  · exact .inl hall
  · have hne := scanLoop_stop_ne (initPolicy_ok s .bg type .lfs) hms _
      (scanInv_init _ (initPolicy_offset s .bg type .lfs) rfl rfl) le_rfl b (hst ▸ hb)
    rw [hlv, hlvb]
    exact .inr ⟨hne.1, hne.2, hcyc⟩

end Bg

/-! ## The ring of segments -/

/-- How far `x` lies ahead of the cursor `c` on the ring of `m` segments. -/
def aheadOf (m c x : Nat) : Nat := if c ≤ x then x - c else x + m - c

section Ring

variable {m c a x : Nat}

theorem aheadOf_lt (hc : c < m) (hx : x < m) : aheadOf m c x < m := by
  unfold aheadOf; split <;> omega

theorem aheadOf_pos (hc : c < m) (hne : a ≠ c) : 0 < aheadOf m c a := by
  unfold aheadOf; split <;> omega

variable (hc : c < m) (ha : a < m) (hx : x < m)
include hc ha hx

/-- The cyclic interval from `c` to `a` is what lies no further ahead of `c` than `a`. -/
theorem inCyclic_iff_aheadOf : InCyclic c a x ↔ aheadOf m c x ≤ aheadOf m c a := by
  unfold InCyclic aheadOf; split_ifs <;> omega

/-- Past `a`, the distance from `a` is what is left of the distance from `c`. -/
theorem aheadOf_sub (h : aheadOf m c a ≤ aheadOf m c x) :
    aheadOf m a x = aheadOf m c x - aheadOf m c a := by
  unfold aheadOf at *; split_ifs at * <;> omega

end Ring

/-! ## Repeated selections -/

/-- `n` background LFS selections of `__get_victim` in a row, each from the state the one before
left, with nothing else changing the state. -/
def bgSelections (s : Sbi g) : Nat → List (Victim g)
  | 0 => []
  | n + 1 =>
    let v := getVictimByDefault s nullSegno .bg noCheckType .lfs
    v :: bgSelections v.sbi n

/-- The state `n` background selections in a row leave. -/
def afterBgSelections (s : Sbi g) : Nat → Sbi g
  | 0 => s
  | n + 1 => afterBgSelections (getVictimByDefault s nullSegno .bg noCheckType .lfs).sbi n

/-- Each selection starts from the state the one before it left. -/
theorem afterBgSelections_succ :
    ∀ (k : Nat) (s : Sbi g), afterBgSelections s (k + 1) =
      (getVictimByDefault (afterBgSelections s k) nullSegno .bg noCheckType .lfs).sbi
  | 0, _ => rfl
  | k + 1, _ => afterBgSelections_succ k _

/-- The `k`-th of the selections is made from the state the `k` before it left. -/
theorem bgSelections_getElem? :
    ∀ (n k : Nat) (s : Sbi g), k < n →
      (bgSelections s n)[k]? = some (getVictimByDefault (afterBgSelections s k) nullSegno .bg noCheckType .lfs)
  | n + 1, 0, _, _ => by rw [bgSelections, List.getElem?_cons_zero]; rfl
  | n + 1, k + 1, _, h => by
    rw [bgSelections, List.getElem?_cons_succ]
    exact bgSelections_getElem? n k _ (by omega)

/-- A background selection keeps the search budget of the next one. -/
theorem initPolicy_maxSearch_bgSelection (s : Sbi g) :
    (initPolicy (getVictimByDefault s nullSegno .bg noCheckType .lfs).sbi .bg noCheckType .lfs).maxSearch =
      (initPolicy s .bg noCheckType .lfs).maxSearch := by
  obtain ⟨hf, -⟩ := getVictimByDefault_bg_frame s nullSegno noCheckType
  simp only [Prod.mk.injEq] at hf
  simp only [initPolicy_maxSearch_eq, hf.2.1, hf.2.2.1]

theorem afterBgSelections_maxSearch :
    ∀ (k : Nat) (s : Sbi g), (initPolicy (afterBgSelections s k) .bg noCheckType .lfs).maxSearch =
      (initPolicy s .bg noCheckType .lfs).maxSearch
  | 0, _ => rfl
  | k + 1, s => (afterBgSelections_maxSearch k _).trans (initPolicy_maxSearch_bgSelection s)

/-- Some selection of `l` priced a segment of `seg`'s section. -/
def PricedIn (l : List (Victim g)) (seg : Nat) : Prop :=
  ∃ v ∈ l, ∃ st, v.scan = some st ∧ ∃ e ∈ st.examined, getSecno g e.1 = getSecno g seg

/-- The mode whose `last_victim` a background LFS selection starts from. -/
abbrev bgMode (s : Sbi g) : GcMode := (initPolicy s .bg noCheckType .lfs).gcMode

/-- A section eligible after the selections was eligible before them: none of them frees a
current segment, writes `cur_victim_sec`, or clears a reservation. -/
theorem eligible_of_afterBgSelections :
    ∀ (n : Nat) (s : Sbi g) {sec : Nat}, Eligible (afterBgSelections s n) .bg sec → Eligible s .bg sec
  | 0, _, _, h => h
  | n + 1, s, sec, h => by
    obtain ⟨hf, hres⟩ := getVictimByDefault_bg_frame s nullSegno noCheckType
    obtain ⟨hu, hr⟩ := eligible_of_afterBgSelections n _ h
    simp only [Prod.mk.injEq] at hf
    refine ⟨by simpa only [secUsageCheck, hf.2.2.2.2.1, hf.2.2.2.2.2] using hu, fun hb => hr ⟨hb.1, ?_⟩⟩
    exact hres sec hb.2

/-- Each selection priced what lies less than `n` ahead of the first cursor, among the sections
still eligible after them: the potential argument, one selection at a time. -/
theorem bgSelections_priced_ahead :
    ∀ (n : Nat) (s : Sbi g), 0 < (initPolicy s .bg noCheckType .lfs).maxSearch →
      s.lastVictim (bgMode s) < g.mainSegs →
      ∀ seg, s.dirtySegmap dirty seg = true →
        Eligible (afterBgSelections s n) .bg (getSecno g seg) →
        aheadOf g.mainSegs (s.lastVictim (bgMode s)) seg < n → PricedIn (bgSelections s n) seg
  | 0, _, _, _, _, _, _, hn => absurd hn (Nat.not_lt_zero _)
  | n + 1, s, hms, hc, seg, hd, he, hn => by
    have hseg : seg < g.mainSegs := s.dirty_lt dirty seg hd
    have hel : Eligible s .bg (getSecno g seg) := eligible_of_afterBgSelections (n + 1) s he
    have hpriced : ∀ st, (getVictimByDefault s nullSegno .bg noCheckType .lfs).scan = some st →
        Covered (initPolicy s .bg noCheckType .lfs) st.examined seg →
        PricedIn (bgSelections s (n + 1)) seg := fun st hs ⟨e, he', hu⟩ =>
      ⟨_, List.mem_cons_self _ _, st, hs, e, he', hu⟩
    obtain ⟨st, hs, hall | ⟨hne, hlt, hcyc⟩⟩ := getVictimByDefault_bg_covers s nullSegno noCheckType hms
    · exact hpriced st hs (hall seg hd hel)
    obtain ⟨hf, -⟩ := getVictimByDefault_bg_frame s nullSegno noCheckType
    simp only [Prod.mk.injEq] at hf
    have hms' := (initPolicy_maxSearch_bgSelection s).symm ▸ hms
    set v := getVictimByDefault s nullSegno .bg noCheckType .lfs
    by_cases hin : InCyclic (s.lastVictim (bgMode s)) (v.sbi.lastVictim (bgMode s)) seg
    · exact hpriced st hs (hcyc seg hd hin hel)
    -- past the first stop: the rest of the selections start from it
    have hmode : bgMode v.sbi = bgMode s := by
      simp only [bgMode, initPolicy, selectPolicy, hf.2.2.2.1]
    rw [inCyclic_iff_aheadOf hc hlt hseg, not_le] at hin
    have hpos := aheadOf_pos hc hne
    have hsub := aheadOf_sub hc hlt hseg hin.le
    obtain ⟨v', hv', hrest⟩ := bgSelections_priced_ahead n v.sbi
      hms' (hmode ▸ hlt) seg
      (by rw [hf.1]; exact hd) he (by rw [hmode, hsub]; omega)
    exact ⟨v', List.mem_cons_of_mem _ hv', hrest⟩

/-- Cursor fairness: from any state whose cursor is a segment of the main area and whose
budget is not zero, `MAIN_SEGS` background LFS selections in a row price a segment of every
section that has a dirty segment and is still eligible after them (not in use, not reserved).
Each selection starts from the state the one before it left, and prices what `BgCovers` says:
one that the budget stops leaves the cursor at a segment past the one it started from, and the
next resumes there. -/
theorem getVictimByDefault_bg_fair (s : Sbi g)
    (hms : 0 < (initPolicy s .bg noCheckType .lfs).maxSearch)
    (hc : s.lastVictim (initPolicy s .bg noCheckType .lfs).gcMode < g.mainSegs)
    (seg : Nat) (hd : s.dirtySegmap dirty seg = true)
    (he : secUsageCheck (afterBgSelections s g.mainSegs) (getSecno g seg) = false ∧
      (afterBgSelections s g.mainSegs).victimSecmap (getSecno g seg) = false) :
    (∀ k < g.mainSegs,
      let v := getVictimByDefault (afterBgSelections s k) nullSegno .bg noCheckType .lfs
      (bgSelections s g.mainSegs)[k]? = some v ∧ afterBgSelections s (k + 1) = v.sbi ∧
        BgCovers (afterBgSelections s k) noCheckType v) ∧
    ∃ v ∈ bgSelections s g.mainSegs, ∃ st, v.scan = some st ∧
      ∃ e ∈ st.examined, getSecno g e.1 = getSecno g seg :=
  ⟨fun k hk => ⟨bgSelections_getElem? _ k s hk, afterBgSelections_succ k s,
      getVictimByDefault_bg_covers _ _ _ (by rw [afterBgSelections_maxSearch]; exact hms)⟩,
    bgSelections_priced_ahead g.mainSegs s hms hc seg hd
      ⟨he.1, fun h => by rw [he.2] at h; exact Bool.false_ne_true h.2⟩
      (aheadOf_lt hc (s.dirty_lt dirty seg hd))⟩

/-- Two one-block, one-segment sections. -/
def twoSegs : Geometry := ⟨0, 1, 2, 2, by decide, by decide, by decide, by decide⟩

/-- Both segments dirty, under greedy selection (`gc_idle = 2`); segment 1 is full, so it is
priced at the cap and never chosen. The budget is one. -/
def ringSit : Sbi twoSegs where
  sentries n := ⟨fun _ => decide (n = 1), 0, 0⟩
  minMtime := 0
  maxMtime := 0
  dirtySegmap _ i := decide (i < 2)
  nrDirty _ := 2
  victimSecmap _ := false
  lastVictim _ := 0
  curVictimSec := nullSegno
  maxVictimSearch := 1
  cursegs := []
  gcThread := some ⟨30, 60, 300, 2⟩
  dirty_lt _ i h := by simp only [decide_eq_true_eq] at h; exact h

theorem getVictimByDefault_bg_fair_ring :
    0 < (initPolicy ringSit .bg noCheckType .lfs).maxSearch ∧
      ringSit.lastVictim (initPolicy ringSit .bg noCheckType .lfs).gcMode < twoSegs.mainSegs ∧
      ringSit.dirtySegmap dirty 1 = true ∧
      (secUsageCheck (afterBgSelections ringSit twoSegs.mainSegs) (getSecno twoSegs 1) = false ∧
        (afterBgSelections ringSit twoSegs.mainSegs).victimSecmap (getSecno twoSegs 1) = false) ∧
      (∀ k < twoSegs.mainSegs,
        let v := getVictimByDefault (afterBgSelections ringSit k) nullSegno .bg noCheckType .lfs
        (bgSelections ringSit twoSegs.mainSegs)[k]? = some v ∧
          afterBgSelections ringSit (k + 1) = v.sbi ∧ BgCovers (afterBgSelections ringSit k) noCheckType v) ∧
      ∃ v ∈ bgSelections ringSit twoSegs.mainSegs, ∃ st, v.scan = some st ∧
        ∃ e ∈ st.examined, getSecno twoSegs e.1 = getSecno twoSegs 1 :=
  have hms : 0 < (initPolicy ringSit .bg noCheckType .lfs).maxSearch := by decide
  have hc : ringSit.lastVictim (initPolicy ringSit .bg noCheckType .lfs).gcMode < twoSegs.mainSegs := by
    decide
  have hd : ringSit.dirtySegmap dirty 1 = true := by decide
  have he : secUsageCheck (afterBgSelections ringSit twoSegs.mainSegs) (getSecno twoSegs 1) = false ∧
      (afterBgSelections ringSit twoSegs.mainSegs).victimSecmap (getSecno twoSegs 1) = false := by
    decide
  ⟨hms, hc, hd, he, getVictimByDefault_bg_fair ringSit hms hc 1 hd he⟩

end F2fsGc
