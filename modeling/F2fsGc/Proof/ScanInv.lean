import F2fsGc.Model.Scan

/-!
# The invariant of the victim scan

What `get_victim_by_default`'s loop knows after any number of iterations, stated once
(`ScanInv`) and kept by every iteration that continues (`scanInv_step`); what it knows at a
`break` (`ScanDone`, from `scanDone_brk`). The results about the whole call — which candidate it
returns, what it has looked at, where the cursor ends — are read off `ScanDone`
(`Proof/Victim.lean`).

The invariant is about the segments the loop has *passed*: from the old cursor `c` up to the
current offset, and after the wrap also everything from `c` on. Every passed dirty segment of a
section the scan may price (`Eligible`) has a priced segment in its unit; every segment taken
from `find_next_bit` was passed and taken once; and the running minimum is the first minimum
of the prices so far (`FirstMin`).
-/

set_option autoImplicit false

namespace F2fsGc

variable {g : Geometry}

/-- A section the scan prices: not in use, and, in the background, not reserved. -/
def Eligible (s : Sbi g) (gcType : GcType) (secno : Nat) : Prop :=
  secUsageCheck s secno = false ∧ ¬(gcType = .bg ∧ s.victimSecmap secno = true)

instance (s : Sbi g) (gcType : GcType) (secno : Nat) : Decidable (Eligible s gcType secno) :=
  inferInstanceAs (Decidable (_ ∧ _))

/-- `seg` lies in the cyclic interval from the cursor `c` to `stop`, both included. -/
def InCyclic (c stop seg : Nat) : Prop :=
  if c ≤ stop then c ≤ seg ∧ seg ≤ stop else c ≤ seg ∨ seg ≤ stop

/-- `m` is the first minimum of the prices `l` below `cap`, or `(NULL_SEGNO, cap)` when no
price is below it. -/
def FirstMin (cap : Nat) (l : List (Nat × Nat)) (m : Nat × Nat) : Prop :=
  (m = (nullSegno, cap) ∧ ∀ e ∈ l, cap ≤ e.2) ∨
    (m.2 < cap ∧ ∃ pre post, l = pre ++ m :: post ∧ (∀ e ∈ pre, m.2 < e.2) ∧
      ∀ e ∈ post, m.2 ≤ e.2)

theorem FirstMin.nil (cap : Nat) : FirstMin cap [] (nullSegno, cap) := .inl ⟨rfl, by simp⟩

/-- Keeping the strictly cheaper of the minimum and a new price keeps the first minimum. -/
theorem FirstMin.snoc {cap : Nat} {l : List (Nat × Nat)} {m : Nat × Nat} (h : FirstMin cap l m)
    (e : Nat × Nat) : FirstMin cap (l ++ [e]) (if e.2 < m.2 then e else m) := by
  rcases h with ⟨rfl, hl⟩ | ⟨hm, pre, post, rfl, hpre, hpost⟩
  · split
    · exact .inr ⟨‹_›, l, [], rfl, fun x hx => by have := hl x hx; simp at *; omega, by simp⟩
    · refine .inl ⟨rfl, fun x hx => ?_⟩
      rcases List.mem_append.1 hx with hx | hx
      · exact hl x hx
      · simp at hx; subst hx; simp at *; omega
  · split
    · refine .inr ⟨by omega, pre ++ m :: post, [], rfl, fun x hx => ?_, by simp⟩
      rcases List.mem_append.1 hx with hx | hx
      · exact Nat.lt_trans ‹_› (hpre x hx)
      · rcases List.mem_cons.1 hx with rfl | hx
        · assumption
        · exact Nat.lt_of_lt_of_le ‹_› (hpost x hx)
    · refine .inr ⟨hm, pre, post ++ [e], by simp, hpre, fun x hx => ?_⟩
      rcases List.mem_append.1 hx with hx | hx
      · exact hpost x hx
      · simp at hx; subst hx; omega

/-- What the scan needs of its policy: a unit of `1` or `segs_per_sec`, and a map inside the
main area. -/
structure PolicyOk (g : Geometry) (p : VictimSelPolicy) : Prop where
  unit : p.ofsUnit = 1 ∨ p.ofsUnit = g.segsPerSec
  map_lt : ∀ i, p.dirtySegmap i = true → i < g.mainSegs

theorem PolicyOk.unit_pos {p : VictimSelPolicy} (hp : PolicyOk g p) : 1 ≤ p.ofsUnit := by
  rcases hp.unit with h | h <;> rw [h]; exact g.segsPerSec_pos

theorem initPolicy_ok (s : Sbi g) (gcType : GcType) (type : Nat) (allocMode : AllocMode) :
    PolicyOk g (initPolicy s gcType type allocMode) := by
  cases allocMode
  · exact ⟨.inr rfl, s.dirty_lt dirty⟩
  · exact ⟨.inl rfl, s.dirty_lt type⟩

theorem eligible_agree {s s' : Sbi g} (h : Sbi.Agree s s') (gcType : GcType) (secno : Nat) :
    Eligible s' gcType secno ↔ Eligible s gcType secno := by
  simp only [Eligible, h.secUsageCheck_eq, h.2.1]

/-- Pricing reads only the policy's mode. -/
theorem getGcCost_of_mode (s : Sbi g) (segno : Nat) {p p' : VictimSelPolicy}
    (ha : p.allocMode = p'.allocMode) (hm : p.gcMode = p'.gcMode) :
    getGcCost s segno p = getGcCost s segno p' := by
  simp only [getGcCost, ha, hm]

/-- The first minimum is no dearer than any price. -/
theorem FirstMin.le_of_mem {cap : Nat} {l : List (Nat × Nat)} {m : Nat × Nat}
    (h : FirstMin cap l m) {e : Nat × Nat} (he : e ∈ l) : m.2 ≤ e.2 := by
  rcases h with ⟨rfl, hl⟩ | ⟨-, pre, post, rfl, hpre, hpost⟩
  · exact hl e he
  · rcases List.mem_append.1 he with h | h
    · exact Nat.le_of_lt (hpre e h)
    · rcases List.mem_cons.1 h with rfl | h
      · exact le_refl _
      · exact hpost e h

/-- A first minimum other than `NULL_SEGNO` is a price below the cap. -/
theorem FirstMin.mem {cap : Nat} {l : List (Nat × Nat)} {m : Nat × Nat}
    (h : FirstMin cap l m) (hm : m.1 ≠ nullSegno) : m ∈ l ∧ m.2 < cap := by
  rcases h with ⟨rfl, -⟩ | ⟨hlt, pre, post, rfl, -, -⟩
  · exact absurd rfl hm
  · exact ⟨List.mem_append_right _ (List.mem_cons_self _ _), hlt⟩

/-- With no price at `NULL_SEGNO`, a first minimum at `NULL_SEGNO` means every price reached
the cap. -/
theorem FirstMin.cap_le {cap : Nat} {l : List (Nat × Nat)} {m : Nat × Nat}
    (h : FirstMin cap l m) (hm : m.1 = nullSegno) (hl : ∀ e ∈ l, e.1 ≠ nullSegno) :
    ∀ e ∈ l, cap ≤ e.2 := by
  rcases h with ⟨-, h⟩ | ⟨-, pre, post, rfl, -, -⟩
  · exact h
  · exact absurd hm (hl m (List.mem_append_right _ (List.mem_cons_self _ _)))

section Inv

variable (s : Sbi g) (gcType : GcType) (p0 : VictimSelPolicy) (maxCost : Nat)

/-- The segments the loop has passed, for the cursor `c = last_victim[gc_mode]` it started
from: `[c, offset)` before the wrap, `[c, ∞) ∪ [0, offset)` after it. -/
def Passed (st : Scan g) (seg : Nat) : Prop :=
  if s.lastVictim p0.gcMode ≠ 0 ∧ st.sbi.lastVictim p0.gcMode = 0 then
    s.lastVictim p0.gcMode ≤ seg ∨ seg < st.p.offset
  else s.lastVictim p0.gcMode ≤ seg ∧ seg < st.p.offset

/-- Where the loop is: in the first pass, walking `[c, MAIN_SEGS)` with the cursor untouched;
or after the wrap, walking `[0, c)` with the cursor cleared. -/
def Pass (st : Scan g) : Prop :=
  (st.sbi.lastVictim p0.gcMode = s.lastVictim p0.gcMode ∧ st.lastSegment = g.mainSegs ∧
      s.lastVictim p0.gcMode ≤ st.p.offset) ∨
    (s.lastVictim p0.gcMode ≠ 0 ∧ st.sbi.lastVictim p0.gcMode = 0 ∧
      st.lastSegment = s.lastVictim p0.gcMode)

/-- The policy fields the loop never writes. -/
def SamePolicy (p : VictimSelPolicy) : Prop :=
  p.allocMode = p0.allocMode ∧ p.gcMode = p0.gcMode ∧ p.dirtySegmap = p0.dirtySegmap ∧
    p.maxSearch = p0.maxSearch ∧ p.ofsUnit = p0.ofsUnit

/-- Each priced segment's section is eligible, and a greedy or SSR price is the price in the
state the call started from. -/
def ExaminedOk (l : List (Nat × Nat)) : Prop :=
  ∀ e ∈ l, Eligible s gcType (getSecno g e.1) ∧
    ((p0.gcMode = .greedy ∨ p0.allocMode = .ssr) → e.2 = (getGcCost s e.1 p0).1)

/-- Some priced segment shares `seg`'s unit. -/
def Covered (l : List (Nat × Nat)) (seg : Nat) : Prop :=
  ∃ e ∈ l, e.1 / p0.ofsUnit = seg / p0.ofsUnit

/-- What the loop knows between iterations. -/
structure ScanInv (st : Scan g) : Prop where
  policy : SamePolicy p0 st.p
  agree : Sbi.Agree s st.sbi
  pass : Pass s p0 st
  visited : ∀ v ∈ st.visited, p0.dirtySegmap v = true ∧ Passed s p0 st v
  nodup : st.visited.Nodup
  examined : ExaminedOk s gcType p0 st.examined
  sublist : (st.examined.map Prod.fst).Sublist st.visited
  cover : ∀ seg, p0.dirtySegmap seg = true → Passed s p0 st seg →
    Eligible s gcType (getSecno g seg) → Covered p0 st.examined seg
  argmin : FirstMin maxCost st.examined (st.p.minSegno, st.p.minCost)
  counted : st.nsearched ≤ st.examined.length
  stopped : st.stoppedAt = none

/-- What the loop knows at its `break`: either it fell off the end of the map, with the cursor
cleared and every eligible dirty unit priced; or the budget stopped it at `b`, with the cursor
at `b` and every eligible dirty unit from the old cursor to `b` priced. -/
structure ScanDone (st : Scan g) : Prop where
  policy : SamePolicy p0 st.p
  agree : Sbi.Agree s st.sbi
  visited : ∀ v ∈ st.visited, p0.dirtySegmap v = true
  nodup : st.visited.Nodup
  examined : ExaminedOk s gcType p0 st.examined
  sublist : (st.examined.map Prod.fst).Sublist st.visited
  argmin : FirstMin maxCost st.examined (st.p.minSegno, st.p.minCost)
  stop : (st.stoppedAt = none ∧ st.sbi.lastVictim p0.gcMode = 0 ∧
      ∀ seg, p0.dirtySegmap seg = true → Eligible s gcType (getSecno g seg) →
        Covered p0 st.examined seg) ∨
    ∃ b, st.stoppedAt = some b ∧ st.sbi.lastVictim p0.gcMode = b ∧
      p0.maxSearch < st.examined.length ∧
      ∀ seg, p0.dirtySegmap seg = true → InCyclic (s.lastVictim p0.gcMode) b seg →
        Eligible s gcType (getSecno g seg) → Covered p0 st.examined seg

variable {s gcType p0 maxCost}

theorem passed_iff_of_lastVictim (st : Scan g) (seg : Nat)
    (h : st.sbi.lastVictim p0.gcMode = s.lastVictim p0.gcMode) :
    Passed s p0 st seg ↔ s.lastVictim p0.gcMode ≤ seg ∧ seg < st.p.offset := by
  unfold Passed; rw [h]; split <;> simp_all

theorem passed_iff_of_wrapped (st : Scan g) (seg : Nat) (hc : s.lastVictim p0.gcMode ≠ 0)
    (h : st.sbi.lastVictim p0.gcMode = 0) :
    Passed s p0 st seg ↔ s.lastVictim p0.gcMode ≤ seg ∨ seg < st.p.offset := by
  unfold Passed; rw [if_pos ⟨hc, h⟩]

@[simp] theorem passed_examine (st : Scan g) (segno : Nat) :
    Passed s p0 (st.examine segno) = Passed s p0 st := by
  funext seg; simp only [Passed, Scan.examine_lastVictim, Scan.examine_offset]

@[simp] theorem pass_examine (st : Scan g) (segno : Nat) :
    Pass s p0 (st.examine segno) ↔ Pass s p0 st := by
  simp only [Pass, Scan.examine_lastVictim, Scan.examine_offset, Scan.examine_lastSegment]

theorem samePolicy_examine {st : Scan g} (h : SamePolicy p0 st.p) (segno : Nat) :
    SamePolicy p0 (st.examine segno).p := by
  simpa only [SamePolicy, Scan.examine_allocMode, Scan.examine_gcMode, Scan.examine_dirtySegmap,
    Scan.examine_maxSearch, Scan.examine_ofsUnit] using h

theorem nextOffset_div {segno seg u : Nat} (hu : 1 ≤ u) (h1 : segno ≤ seg)
    (h2 : seg < nextOffset segno u) : seg / u = segno / u := by
  have hd := Nat.div_add_mod segno u
  have hm := Nat.mod_lt segno (by omega : 0 < u)
  refine Nat.div_eq_of_lt_le ?_ ?_
  · rw [Nat.mul_comm]; omega
  · unfold nextOffset at h2
    rw [Nat.succ_mul, Nat.mul_comm]
    split at h2 <;> omega

theorem getSecno_of_div {u a b : Nat} (hu : u = 1 ∨ u = g.segsPerSec) (h : a / u = b / u) :
    getSecno g a = getSecno g b := by
  rcases hu with rfl | rfl
  · simp only [Nat.div_one] at h; rw [h]
  · exact h

theorem scanInv_init (p : VictimSelPolicy) (hoff : p.offset = s.lastVictim p.gcMode)
    (hmin : p.minSegno = nullSegno) (hcost : p.minCost = maxCost) :
    ScanInv s gcType p maxCost ⟨p, g.mainSegs, 0, s, [], [], none⟩ where
  policy := ⟨rfl, rfl, rfl, rfl, rfl⟩
  agree := .refl s
  pass := .inl ⟨rfl, rfl, hoff.ge⟩
  visited := by simp
  nodup := List.nodup_nil
  examined := by simp [ExaminedOk]
  sublist := List.Sublist.slnil
  cover seg _ h := by
    unfold Passed at h; dsimp only at h
    rw [if_neg (fun h' => h'.1 h'.2), hoff] at h; omega
  argmin := by simp only [hmin, hcost]; exact FirstMin.nil maxCost
  counted := le_refl 0
  stopped := rfl

/-- The budget's `break` at `segno`. -/
theorem budget_done {st : Scan g} (hi : ScanInv s gcType p0 maxCost st) {segno : Nat}
    (hcnt : st.nsearched < st.examined.length)
    (hcyc : ∀ seg, InCyclic (s.lastVictim p0.gcMode) segno seg → Passed s p0 st seg)
    (hmax : st.p.maxSearch ≤ st.nsearched) :
    ScanDone s gcType p0 maxCost
      { st with nsearched := st.nsearched + 1, sbi := st.sbi.setLastVictim st.p.gcMode segno,
                stoppedAt := some segno } := by
  obtain ⟨-, hmode, -, hms, -⟩ := hi.policy
  exact {
    policy := hi.policy
    agree := hi.agree.trans (setLastVictim_agree _ _ _)
    visited := fun v hv => (hi.visited v hv).1
    nodup := hi.nodup, examined := hi.examined, sublist := hi.sublist, argmin := hi.argmin
    stop := .inr ⟨segno, rfl, by simp [hmode], (by omega : p0.maxSearch < st.examined.length),
      fun seg hd hc he => hi.cover seg hd (hcyc seg hc) he⟩ }

section Step

variable (hp : PolicyOk g p0)
include hp

/-- Taking the next dirty segment `segno`: the pass goes on; `segno` is dirty and new; what was
passed stays passed, and so does the cyclic interval up to `segno`; and every dirty segment newly
passed lies in `segno`'s unit. -/
theorem advance_passed {st : Scan g} (hi : ScanInv s gcType p0 maxCost st) {segno : Nat}
    (hseg : findNextBit st.p.dirtySegmap st.lastSegment st.p.offset = segno)
    (hlt : segno < st.lastSegment) :
    Pass s p0 (st.advance segno) ∧ p0.dirtySegmap segno = true ∧ ¬Passed s p0 st segno ∧
      (∀ seg, Passed s p0 st seg → Passed s p0 (st.advance segno) seg) ∧
      (∀ seg, InCyclic (s.lastVictim p0.gcMode) segno seg → Passed s p0 (st.advance segno) seg) ∧
      ∀ seg, p0.dirtySegmap seg = true → Passed s p0 (st.advance segno) seg →
        ¬Passed s p0 st seg → seg / p0.ofsUnit = segno / p0.ofsUnit := by
  obtain ⟨hoff, hdirty⟩ := findNextBit_of_lt (by rw [hseg]; exact hlt)
  rw [hseg] at hoff hdirty
  obtain ⟨-, hmode, hmap', -, hunit'⟩ := hi.policy
  have hskip : ∀ j, st.p.offset ≤ j → j < segno → p0.dirtySegmap j = false := fun j h1 h2 => by
    rw [← hmap']; exact findNextBit_skip h1 (by rw [hseg]; exact h2)
  rw [hmap'] at hdirty
  have hu := hp.unit_pos
  have hgt : segno < nextOffset segno p0.ofsUnit := nextOffset_gt segno hu
  have hadv : (st.advance segno).p.offset = nextOffset segno p0.ofsUnit := by simp [hunit']
  have hnew : ∀ seg, p0.dirtySegmap seg = true → st.p.offset ≤ seg →
      seg < nextOffset segno p0.ofsUnit → seg / p0.ofsUnit = segno / p0.ofsUnit := by
    intro seg hd h1 h2
    refine nextOffset_div hu ?_ h2
    by_contra hlt'
    rw [hskip seg h1 (by omega)] at hd
    exact Bool.false_ne_true hd
  rcases hi.pass with ⟨hlv, hls, hc⟩ | ⟨hc, hlv, hls⟩
  · have e1 := fun seg => passed_iff_of_lastVictim st seg hlv
    have e2 := fun seg => passed_iff_of_lastVictim (st.advance segno) seg hlv
    simp only [e1, e2, hadv]
    refine ⟨.inl ⟨hlv, hls, by omega⟩, hdirty, by omega, fun seg h => by omega,
      fun seg h => ?_, fun seg hd h1 h2 => hnew seg hd (by omega) h1.2⟩
    unfold InCyclic at h; split at h <;> omega
  · have e1 := fun seg => passed_iff_of_wrapped st seg hc hlv
    have e2 := fun seg => passed_iff_of_wrapped (st.advance segno) seg hc hlv
    simp only [e1, e2, hadv]
    refine ⟨.inr ⟨hc, hlv, hls⟩, hdirty, by omega, fun seg h => by omega,
      fun seg h => ?_, fun seg hd h1 h2 => hnew seg hd (by omega) (by omega)⟩
    unfold InCyclic at h; split at h <;> omega

/-- The visited list after taking `segno`: dirty, passed, and still without repeats. -/
theorem advance_visited {st : Scan g} (hi : ScanInv s gcType p0 maxCost st) {segno : Nat}
    (hseg : findNextBit st.p.dirtySegmap st.lastSegment st.p.offset = segno)
    (hlt : segno < st.lastSegment) :
    (∀ v ∈ (st.advance segno).visited, p0.dirtySegmap v = true ∧
      Passed s p0 (st.advance segno) v) ∧ (st.advance segno).visited.Nodup := by
  obtain ⟨-, hd, hnp, hmono, hcyc, -⟩ := advance_passed hp hi hseg hlt
  have hself : Passed s p0 (st.advance segno) segno :=
    hcyc segno (by unfold InCyclic; split <;> omega)
  refine ⟨fun v hv => ?_, List.nodup_append.2 ⟨hi.nodup, List.nodup_singleton _, ?_⟩⟩
  · rcases List.mem_append.1 hv with hv | hv
    · exact ⟨(hi.visited v hv).1, hmono v (hi.visited v hv).2⟩
    · rw [List.mem_singleton.1 hv]; exact ⟨hd, hself⟩
  · intro v hv hv'
    rw [List.mem_singleton.1 hv'] at hv
    exact hnp (hi.visited segno hv).2

/-- The wrap passes no dirty segment: the first pass found none from the offset on. -/
theorem wrap_inv {st : Scan g} (hi : ScanInv s gcType p0 maxCost st)
    (hge : st.lastSegment ≤ findNextBit st.p.dirtySegmap st.lastSegment st.p.offset)
    (hlv : st.sbi.lastVictim st.p.gcMode ≠ 0) : ScanInv s gcType p0 maxCost st.wrap := by
  obtain ⟨hal, hmode, hmap', hms, hunit'⟩ := hi.policy
  rw [hmode] at hlv
  obtain ⟨hl, hls, hc⟩ : st.sbi.lastVictim p0.gcMode = s.lastVictim p0.gcMode ∧
      st.lastSegment = g.mainSegs ∧ s.lastVictim p0.gcMode ≤ st.p.offset := by
    rcases hi.pass with h | ⟨-, h, -⟩
    · exact h
    · exact absurd h hlv
  have hc0 : s.lastVictim p0.gcMode ≠ 0 := hl ▸ hlv
  have hw : st.wrap.sbi.lastVictim p0.gcMode = 0 := by rw [← hmode]; exact Scan.wrap_lastVictim st
  have hnone : ∀ j, st.p.offset ≤ j → p0.dirtySegmap j = false := by
    intro j hj
    cases hd : p0.dirtySegmap j with
    | false => rfl
    | true =>
      have := hp.map_lt j hd
      rw [← hd, ← hmap']
      exact findNextBit_skip hj (show j < findNextBit st.p.dirtySegmap st.lastSegment st.p.offset by omega)
  have e1 := fun seg => passed_iff_of_lastVictim st seg hl
  have e2 := fun seg => passed_iff_of_wrapped st.wrap seg hc0 hw
  have hmono : ∀ seg, Passed s p0 st seg → Passed s p0 st.wrap seg := fun seg h => by
    rw [e1] at h; rw [e2]; exact .inl h.1
  have hback : ∀ seg, p0.dirtySegmap seg = true → Passed s p0 st.wrap seg →
      Passed s p0 st seg := by
    intro seg hd h
    rw [e2, Scan.wrap_offset] at h
    rw [e1]
    refine ⟨h.resolve_right (Nat.not_lt_zero seg), Nat.lt_of_not_le fun hle => ?_⟩
    rw [hnone seg hle] at hd; exact Bool.false_ne_true hd
  exact {
    policy := ⟨hal, hmode, hmap', hms, hunit'⟩
    agree := hi.agree.trans (setLastVictim_agree _ _ _)
    pass := .inr ⟨hc0, hw, by rw [Scan.wrap_lastSegment, hmode, hl]⟩
    visited := fun v hv => ⟨(hi.visited v hv).1, hmono v (hi.visited v hv).2⟩
    nodup := hi.nodup
    examined := hi.examined
    sublist := hi.sublist
    cover := fun seg hd h he => hi.cover seg hd (hback seg hd h) he
    argmin := hi.argmin
    counted := hi.counted
    stopped := hi.stopped }

/-- Falling off the end: every dirty segment has been passed. -/
theorem fall_done {st : Scan g} (hi : ScanInv s gcType p0 maxCost st)
    (hge : st.lastSegment ≤ findNextBit st.p.dirtySegmap st.lastSegment st.p.offset)
    (hlv : st.sbi.lastVictim st.p.gcMode = 0) : ScanDone s gcType p0 maxCost st := by
  obtain ⟨-, hmode, hmap', -, -⟩ := hi.policy
  rw [hmode] at hlv
  have hskip : ∀ j, st.p.offset ≤ j → j < st.lastSegment → p0.dirtySegmap j = false :=
    fun j h1 h2 => by
      rw [← hmap']
      exact findNextBit_skip h1 (show j < findNextBit st.p.dirtySegmap st.lastSegment st.p.offset by omega)
  have hall : ∀ seg, p0.dirtySegmap seg = true → Passed s p0 st seg := by
    intro seg hd
    have hlt := hp.map_lt seg hd
    have hoff : seg < st.p.offset ∨ st.lastSegment ≤ seg := by
      by_contra h
      rw [hskip seg (by omega) (by omega)] at hd; exact Bool.false_ne_true hd
    rcases hi.pass with ⟨hl, hls, -⟩ | ⟨hc, hw, hls⟩
    · rw [passed_iff_of_lastVictim st seg hl, ← hl, hlv]; omega
    · rw [passed_iff_of_wrapped st seg hc hw]; omega
  exact {
    policy := hi.policy, agree := hi.agree
    visited := fun v hv => (hi.visited v hv).1
    nodup := hi.nodup, examined := hi.examined, sublist := hi.sublist, argmin := hi.argmin
    stop := .inl ⟨hi.stopped, hlv, fun seg hd he => hi.cover seg hd (hall seg hd) he⟩ }

/-- Skipping a section in use or reserved: nothing is priced, and none of the segments newly
passed needed to be. -/
theorem skip_inv {st : Scan g} (hi : ScanInv s gcType p0 maxCost st) {segno : Nat}
    (hseg : findNextBit st.p.dirtySegmap st.lastSegment st.p.offset = segno)
    (hlt : segno < st.lastSegment) (hne : ¬Eligible st.sbi gcType (getSecno g segno)) :
    ScanInv s gcType p0 maxCost (st.advance segno) := by
  obtain ⟨hpass, -, -, hmono, -, hnew⟩ := advance_passed hp hi hseg hlt
  obtain ⟨hvis, hnd⟩ := advance_visited hp hi hseg hlt
  rw [eligible_agree hi.agree] at hne
  exact {
    policy := hi.policy, agree := hi.agree, pass := hpass, visited := hvis, nodup := hnd
    examined := hi.examined
    sublist := hi.sublist.trans (List.sublist_append_left _ _)
    cover := fun seg hd h he => by
      by_cases hold : Passed s p0 st seg
      · exact hi.cover seg hd hold he
      · exact (hne (by rwa [getSecno_of_div hp.unit (hnew seg hd h hold)] at he)).elim
    argmin := hi.argmin, counted := hi.counted, stopped := hi.stopped }

/-- Pricing `segno`: its entry joins the priced list, the running minimum stays the first
minimum, and the cyclic interval up to `segno` is passed. -/
theorem examine_inv {st : Scan g} (hi : ScanInv s gcType p0 maxCost st) {segno : Nat}
    (hseg : findNextBit st.p.dirtySegmap st.lastSegment st.p.offset = segno)
    (hlt : segno < st.lastSegment) (he : Eligible st.sbi gcType (getSecno g segno)) :
    let st' := (st.advance segno).examine segno
    ScanInv s gcType p0 maxCost st' ∧ st'.nsearched < st'.examined.length ∧
      ∀ seg, InCyclic (s.lastVictim p0.gcMode) segno seg → Passed s p0 st' seg := by
  intro st'
  obtain ⟨hpass, -, -, hmono, hcyc, hnew⟩ := advance_passed hp hi hseg hlt
  obtain ⟨hvis, hnd⟩ := advance_visited hp hi hseg hlt
  obtain ⟨hal, hmode, -, -, -⟩ := hi.policy
  rw [eligible_agree hi.agree] at he
  have hcost : getGcCost st.sbi segno (st.advance segno).p = getGcCost st.sbi segno p0 :=
    getGcCost_of_mode _ _ hal hmode
  have hex : st'.examined = st.examined ++ [(segno, (getGcCost st.sbi segno p0).1)] := by
    simp only [st', Scan.examine, Scan.advance_sbi, Scan.advance_examined, hcost]
  have hexam : ExaminedOk s gcType p0 st'.examined := by
    rw [hex]
    intro e he'
    rcases List.mem_append.1 he' with h | h
    · exact hi.examined e h
    · rw [List.mem_singleton.1 h]
      exact ⟨he, fun hg => getGcCost_congr hi.agree.1 segno hg⟩
  have hcover : ∀ seg, p0.dirtySegmap seg = true → Passed s p0 st' seg →
      Eligible s gcType (getSecno g seg) → Covered p0 st'.examined seg := by
    intro seg hd h hel
    rw [passed_examine] at h
    rw [hex]
    by_cases hold : Passed s p0 st seg
    · obtain ⟨e, hm, he'⟩ := hi.cover seg hd hold hel
      exact ⟨e, List.mem_append_left _ hm, he'⟩
    · exact ⟨_, List.mem_append_right _ (List.mem_singleton_self _), (hnew seg hd h hold).symm⟩
  have hcnt : st'.nsearched < st'.examined.length := by
    rw [hex, List.length_append]; exact Nat.lt_succ_of_le hi.counted
  refine ⟨{
    policy := samePolicy_examine (show SamePolicy p0 (st.advance segno).p from hi.policy) segno
    agree := hi.agree.trans (getGcCost_agree _ _ _)
    pass := (pass_examine _ _).2 hpass
    visited := by simpa only [st', passed_examine] using hvis
    nodup := hnd
    examined := hexam
    sublist := by
      rw [hex, List.map_append]
      exact hi.sublist.append (List.Sublist.refl _)
    cover := hcover
    argmin := by
      rw [hex, Scan.examine_min, Scan.advance_sbi, hcost]
      exact hi.argmin.snoc _
    counted := Nat.le_of_lt hcnt
    stopped := hi.stopped }, hcnt, fun seg h => ?_⟩
  rw [passed_examine]; exact hcyc seg h

/-- One iteration: a `continue` keeps the invariant, a `break` ends in `ScanDone`. -/
theorem scanInv_step {st : Scan g} (hi : ScanInv s gcType p0 maxCost st) :
    (∀ st', scanStep gcType maxCost st = .cont st' → ScanInv s gcType p0 maxCost st') ∧
      ∀ st', scanStep gcType maxCost st = .brk st' → ScanDone s gcType p0 maxCost st' := by
  have key : ∀ r, scanStep gcType maxCost st = r →
      (∀ st', r = .cont st' → ScanInv s gcType p0 maxCost st') ∧
        ∀ st', r = .brk st' → ScanDone s gcType p0 maxCost st' := by
    intro r h
    rcases scanStep_cases h with ⟨h1, h2, rfl⟩ | ⟨h1, h2, rfl⟩ | ⟨h1, h2, rfl⟩ | ⟨h1, h2, h3, h4⟩
    · exact ⟨fun st' h => (by cases h; exact wrap_inv hp hi h1 h2), fun _ h => by cases h⟩
    · exact ⟨fun _ h => (by cases h), fun st' h => by cases h; exact fall_done hp hi h1 h2⟩
    · have hne : ¬Eligible st.sbi gcType
          (getSecno g (findNextBit st.p.dirtySegmap st.lastSegment st.p.offset)) := by
        rintro ⟨he1, he2⟩
        rcases h2 with h2 | h2
        · rw [he1] at h2; cases h2
        · exact he2 h2
      exact ⟨fun st' h => (by cases h; exact skip_inv hp hi rfl h1 hne), fun _ h => by cases h⟩
    · obtain ⟨hi', hcnt, hcyc⟩ := examine_inv hp hi rfl h1 ⟨h2, h3⟩
      rcases h4 with rfl | rfl
      · constructor
        · intro st' h
          obtain ⟨rfl, -⟩ := countSearched_cont h
          exact { hi' with counted := hcnt }
        · intro st' h
          obtain ⟨rfl, hmax⟩ := countSearched_brk h
          exact budget_done hi' hcnt hcyc hmax
      · exact ⟨fun st' h => (by cases h; exact hi'), fun _ h => by cases h⟩
  exact ⟨fun st' h => (key _ rfl).1 st' h, fun st' h => (key _ rfl).2 st' h⟩

/-- The whole loop, on enough fuel, ends in `ScanDone`. -/
theorem scanLoop_done (fuel : Nat) {st : Scan g} (hi : ScanInv s gcType p0 maxCost st)
    (hf : st.measure ≤ fuel) : ScanDone s gcType p0 maxCost (scanLoop gcType maxCost fuel st) :=
  scanLoop_induct (ScanInv s gcType p0 maxCost) (ScanDone s gcType p0 maxCost)
    (fun _ hi => hi.policy.2.2.2.2 ▸ hp.unit_pos)
    (fun _ _ hi => (scanInv_step hp hi).1 _) (fun _ _ hi => (scanInv_step hp hi).2 _)
    fuel st hi hf

end Step

end Inv

end F2fsGc
