import F2fsGc.Model.Policy

/-!
# `get_victim_by_default`

The victim search. After the policy is set and the cost cap computed, a foreground LFS request
first takes any section a background pass reserved (`check_bg_victims`); otherwise the
`while (1)` loop walks the dirty map from `last_victim[gc_mode]` to `MAIN_SEGS`, wraps once to
walk `[0, last_victim)`, and keeps the cheapest candidate, stopping early once it has counted
`max_search` candidates.

The loop is `scanLoop`: one iteration is `scanStep`, which either continues (`Step.cont`) or
breaks (`Step.brk`), and the loop runs it on a fuel argument. `getVictimByDefault` supplies
`Scan.measure` as the fuel, a bound on the number of iterations (`scanStep_measure`), so the
fuel never runs out and `scanLoop` returns the state of a real `break`
(`scanLoop_induct`).

Three fields of `Scan` are ghost, recording what the C computes without storing: `visited`,
every segment the loop took from `find_next_bit`; `examined`, each segment whose cost it
computed, with that cost; and `stoppedAt`, the segment at which the search budget stopped it.
-/

set_option autoImplicit false

namespace F2fsGc

variable {g : Geometry}

/-- The locals of `get_victim_by_default`'s loop, and the `sbi` it writes. -/
structure Scan (g : Geometry) where
  p : VictimSelPolicy
  lastSegment : Nat
  nsearched : Nat
  sbi : Sbi g
  visited : List Nat
  examined : List (Nat × Nat)
  stoppedAt : Option Nat

/-- One iteration's end: `continue` (or the loop's back edge), or `break`. -/
inductive Step (g : Geometry) where
  | cont (st : Scan g)
  | brk (st : Scan g)

/-- `p.offset = segno + p.ofs_unit; if (p.ofs_unit > 1) p.offset -= segno % p.ofs_unit;` -/
def nextOffset (segno ofsUnit : Nat) : Nat :=
  if 1 < ofsUnit then segno + ofsUnit - segno % ofsUnit else segno + ofsUnit

/-- The wrap: `last_segment = last_victim[gc_mode]; last_victim[gc_mode] = 0; p.offset = 0;` -/
def Scan.wrap (st : Scan g) : Scan g :=
  { st with lastSegment := st.sbi.lastVictim st.p.gcMode,
            sbi := st.sbi.setLastVictim st.p.gcMode 0, p := { st.p with offset := 0 } }

/-- `segno` taken from the map, the offset moved past its unit. -/
def Scan.advance (st : Scan g) (segno : Nat) : Scan g :=
  { st with p := { st.p with offset := nextOffset segno st.p.ofsUnit },
            visited := st.visited ++ [segno] }

/-- `cost = get_gc_cost(sbi, segno, &p); if (p.min_cost > cost) { p.min_segno = segno;
p.min_cost = cost; }` -/
def Scan.examine (st : Scan g) (segno : Nat) : Scan g :=
  let cost := (getGcCost st.sbi segno st.p).1
  { st with sbi := (getGcCost st.sbi segno st.p).2, examined := st.examined ++ [(segno, cost)],
            p := if cost < st.p.minCost then { st.p with minSegno := segno, minCost := cost }
                 else st.p }

/-- `if (nsearched++ >= p.max_search) { sbi->last_victim[p.gc_mode] = segno; break; }` -/
def countSearched (st : Scan g) (segno : Nat) : Step g :=
  if st.p.maxSearch ≤ st.nsearched then
    .brk { st with nsearched := st.nsearched + 1,
                   sbi := st.sbi.setLastVictim st.p.gcMode segno, stoppedAt := some segno }
  else .cont { st with nsearched := st.nsearched + 1 }

/-- One iteration of the `while (1)` loop. -/
def scanStep (gcType : GcType) (maxCost : Nat) (st : Scan g) : Step g :=
  let segno := findNextBit st.p.dirtySegmap st.lastSegment st.p.offset
  if st.lastSegment ≤ segno then
    if st.sbi.lastVictim st.p.gcMode ≠ 0 then .cont st.wrap else .brk st
  else
    let secno := getSecno g segno
    if secUsageCheck st.sbi secno then .cont (st.advance segno)
    else if gcType = .bg ∧ st.sbi.victimSecmap secno = true then .cont (st.advance segno)
    else
      let st := st.advance segno
      let cost := (getGcCost st.sbi segno st.p).1
      if cost < st.p.minCost then countSearched (st.examine segno) segno
      else if cost = maxCost then .cont (st.examine segno)
      else countSearched (st.examine segno) segno

/-- The loop, run for at most `fuel` iterations. -/
def scanLoop (gcType : GcType) (maxCost : Nat) : Nat → Scan g → Scan g
  | 0, st => st
  | fuel + 1, st =>
    match scanStep gcType maxCost st with
    | .cont st' => scanLoop gcType maxCost fuel st'
    | .brk st' => st'

/-- A bound on the iterations left: the wrap still to come, and the distance to the end of the
current pass. -/
def Scan.measure (st : Scan g) : Nat :=
  (if st.sbi.lastVictim st.p.gcMode = 0 then 0 else st.sbi.lastVictim st.p.gcMode + 1) +
    (st.lastSegment - st.p.offset) + 1

/-- What `get_victim_by_default` returns: its return value, `*result`, and the state; and the
loop's last state when the loop ran (ghost). -/
structure Victim (g : Geometry) where
  found : Bool
  result : Nat
  sbi : Sbi g
  scan : Option (Scan g)

/-- The `got_it` block's writes: an LFS victim's section becomes `cur_victim_sec` in the
foreground and is reserved in `victim_secmap` in the background. -/
def gotIt (s : Sbi g) (p : VictimSelPolicy) (gcType : GcType) : Sbi g :=
  if p.allocMode = .lfs then
    if gcType = .fg then { s with curVictimSec := getSecno g p.minSegno }
    else { s with victimSecmap := Function.update s.victimSecmap (getSecno g p.minSegno) true }
  else s

/-- From `if (p.min_segno != NULL_SEGNO)` to the return. -/
def finishVictim (s : Sbi g) (p : VictimSelPolicy) (gcType : GcType) (result : Nat)
    (scan : Option (Scan g)) : Victim g :=
  if p.minSegno ≠ nullSegno then ⟨true, p.minSegno / p.ofsUnit * p.ofsUnit, gotIt s p gcType, scan⟩
  else ⟨false, result, s, scan⟩

/-- `select_policy(sbi, gc_type, type, &p); p.min_segno = NULL_SEGNO;
p.min_cost = max_cost = get_max_cost(sbi, &p);` -/
def initPolicy (s : Sbi g) (gcType : GcType) (type : Nat) (allocMode : AllocMode) :
    VictimSelPolicy :=
  let p := selectPolicy s gcType type allocMode
  { p with minSegno := nullSegno, minCost := getMaxCost (g := g) p }

/-- `get_victim_by_default(sbi, result, gc_type, type, alloc_mode)`; `result` is `*result` on
entry. -/
def getVictimByDefault (s : Sbi g) (result : Nat) (gcType : GcType) (type : Nat)
    (allocMode : AllocMode) : Victim g :=
  let p := initPolicy s gcType type allocMode
  let maxCost := getMaxCost (g := g) p
  if p.maxSearch = 0 then ⟨false, result, s, none⟩
  else
    let fast := if allocMode = .lfs ∧ gcType = .fg then checkBgVictims s else (nullSegno, s)
    if fast.1 ≠ nullSegno then finishVictim fast.2 { p with minSegno := fast.1 } gcType result none
    else
      let st0 : Scan g := ⟨p, g.mainSegs, 0, s, [], [], none⟩
      let st := scanLoop gcType maxCost st0.measure st0
      finishVictim st.sbi st.p gcType result (some st)

/-! ## The loop ends -/

section Loop

variable {gcType : GcType} {maxCost : Nat}

theorem nextOffset_gt (segno : Nat) {u : Nat} (hu : 1 ≤ u) : segno < nextOffset segno u := by
  unfold nextOffset
  split
  · have := Nat.mod_lt segno (by omega : 0 < u); omega
  · omega

theorem countSearched_cont {st st' : Scan g} {segno : Nat} (h : countSearched st segno = .cont st') :
    st' = { st with nsearched := st.nsearched + 1 } ∧ st.nsearched < st.p.maxSearch := by
  unfold countSearched at h; split at h <;> cases h; exact ⟨rfl, by omega⟩

theorem countSearched_brk {st st' : Scan g} {segno : Nat} (h : countSearched st segno = .brk st') :
    st' = { st with nsearched := st.nsearched + 1,
                    sbi := st.sbi.setLastVictim st.p.gcMode segno, stoppedAt := some segno } ∧
      st.p.maxSearch ≤ st.nsearched := by
  unfold countSearched at h; split at h <;> cases h; exact ⟨rfl, by omega⟩

@[simp] theorem Scan.advance_sbi (st : Scan g) (segno : Nat) : (st.advance segno).sbi = st.sbi := rfl
@[simp] theorem Scan.advance_lastSegment (st : Scan g) (segno : Nat) :
    (st.advance segno).lastSegment = st.lastSegment := rfl
@[simp] theorem Scan.advance_offset (st : Scan g) (segno : Nat) :
    (st.advance segno).p.offset = nextOffset segno st.p.ofsUnit := rfl
@[simp] theorem Scan.advance_ofsUnit (st : Scan g) (segno : Nat) :
    (st.advance segno).p.ofsUnit = st.p.ofsUnit := rfl
@[simp] theorem Scan.advance_gcMode (st : Scan g) (segno : Nat) :
    (st.advance segno).p.gcMode = st.p.gcMode := rfl
@[simp] theorem Scan.advance_examined (st : Scan g) (segno : Nat) :
    (st.advance segno).examined = st.examined := rfl
@[simp] theorem Scan.examine_lastSegment (st : Scan g) (segno : Nat) :
    (st.examine segno).lastSegment = st.lastSegment := rfl
@[simp] theorem Scan.examine_offset (st : Scan g) (segno : Nat) :
    (st.examine segno).p.offset = st.p.offset := by simp only [Scan.examine]; split <;> rfl
@[simp] theorem Scan.examine_ofsUnit (st : Scan g) (segno : Nat) :
    (st.examine segno).p.ofsUnit = st.p.ofsUnit := by simp only [Scan.examine]; split <;> rfl
@[simp] theorem Scan.examine_gcMode (st : Scan g) (segno : Nat) :
    (st.examine segno).p.gcMode = st.p.gcMode := by simp only [Scan.examine]; split <;> rfl
@[simp] theorem Scan.examine_allocMode (st : Scan g) (segno : Nat) :
    (st.examine segno).p.allocMode = st.p.allocMode := by simp only [Scan.examine]; split <;> rfl
@[simp] theorem Scan.examine_dirtySegmap (st : Scan g) (segno : Nat) :
    (st.examine segno).p.dirtySegmap = st.p.dirtySegmap := by simp only [Scan.examine]; split <;> rfl
@[simp] theorem Scan.examine_maxSearch (st : Scan g) (segno : Nat) :
    (st.examine segno).p.maxSearch = st.p.maxSearch := by simp only [Scan.examine]; split <;> rfl
@[simp] theorem Scan.examine_lastVictim (st : Scan g) (segno : Nat) :
    (st.examine segno).sbi.lastVictim = st.sbi.lastVictim := by simp [Scan.examine]

@[simp] theorem Scan.examine_examined (st : Scan g) (segno : Nat) :
    (st.examine segno).examined = st.examined ++ [(segno, (getGcCost st.sbi segno st.p).1)] := rfl
@[simp] theorem Scan.examine_nsearched (st : Scan g) (segno : Nat) :
    (st.examine segno).nsearched = st.nsearched := rfl
@[simp] theorem Scan.examine_stoppedAt (st : Scan g) (segno : Nat) :
    (st.examine segno).stoppedAt = st.stoppedAt := rfl

theorem Scan.examine_minCost_le (st : Scan g) (segno : Nat) :
    (st.examine segno).p.minCost ≤ st.p.minCost := by
  simp only [Scan.examine]
  split
  · exact Nat.le_of_lt ‹_›
  · exact le_refl _

/-- The running minimum after pricing `segno`. -/
theorem Scan.examine_min (st : Scan g) (segno : Nat) :
    ((st.examine segno).p.minSegno, (st.examine segno).p.minCost) =
      if (getGcCost st.sbi segno st.p).1 < st.p.minCost then (segno, (getGcCost st.sbi segno st.p).1)
      else (st.p.minSegno, st.p.minCost) := by
  simp only [Scan.examine]; split <;> rfl

@[simp] theorem Scan.wrap_lastSegment (st : Scan g) :
    st.wrap.lastSegment = st.sbi.lastVictim st.p.gcMode := rfl
@[simp] theorem Scan.wrap_offset (st : Scan g) : st.wrap.p.offset = 0 := rfl
@[simp] theorem Scan.wrap_lastVictim (st : Scan g) :
    st.wrap.sbi.lastVictim st.p.gcMode = 0 := by simp [Scan.wrap]

/-- Everything one iteration can do: wrap, fall off the end, skip a section in use or
reserved, or price the candidate and then count it or pass over it at the cap. -/
theorem scanStep_cases {st : Scan g} {r : Step g} (h : scanStep gcType maxCost st = r) :
    let segno := findNextBit st.p.dirtySegmap st.lastSegment st.p.offset
    (st.lastSegment ≤ segno ∧ st.sbi.lastVictim st.p.gcMode ≠ 0 ∧ r = .cont st.wrap) ∨
    (st.lastSegment ≤ segno ∧ st.sbi.lastVictim st.p.gcMode = 0 ∧ r = .brk st) ∨
    (segno < st.lastSegment ∧
      (secUsageCheck st.sbi (getSecno g segno) = true ∨
        (gcType = .bg ∧ st.sbi.victimSecmap (getSecno g segno) = true)) ∧
      r = .cont (st.advance segno)) ∨
    (segno < st.lastSegment ∧ secUsageCheck st.sbi (getSecno g segno) = false ∧
      ¬(gcType = .bg ∧ st.sbi.victimSecmap (getSecno g segno) = true) ∧
      (r = countSearched ((st.advance segno).examine segno) segno ∨
        r = .cont ((st.advance segno).examine segno))) := by
  intro segno
  subst h
  unfold scanStep
  by_cases h1 : st.lastSegment ≤ segno
  · by_cases h2 : st.sbi.lastVictim st.p.gcMode = 0
    · exact .inr (.inl ⟨h1, h2, by simp [segno, h1, h2]⟩)
    · exact .inl ⟨h1, h2, by simp [segno, h1, h2]⟩
  · have h1' : segno < st.lastSegment := by omega
    cases hu : secUsageCheck st.sbi (getSecno g segno)
    · by_cases hv : gcType = .bg ∧ st.sbi.victimSecmap (getSecno g segno) = true
      · exact .inr (.inr (.inl ⟨h1', .inr hv, by simp [segno, h1, hu, hv]⟩))
      · refine .inr (.inr (.inr ⟨h1', rfl, hv, ?_⟩))
        simp only [segno, h1, hu, hv, if_false, Bool.false_eq_true]
        split
        · exact .inl rfl
        · split
          · exact .inr rfl
          · exact .inl rfl
    · exact .inr (.inr (.inl ⟨h1', .inl rfl, by simp [segno, h1, hu]⟩))

/-- Every iteration that continues lowers the measure, and keeps the policy's unit and mode. -/
theorem scanStep_measure {st st' : Scan g} (hu : 1 ≤ st.p.ofsUnit)
    (h : scanStep gcType maxCost st = .cont st') :
    st'.measure < st.measure ∧ st'.p.ofsUnit = st.p.ofsUnit ∧ st'.p.gcMode = st.p.gcMode := by
  have hf := @findNextBit_spec st.p.dirtySegmap st.lastSegment st.p.offset
  rcases scanStep_cases h with ⟨h1, h2, h3⟩ | ⟨-, -, h3⟩ | ⟨h1, -, h3⟩ | ⟨h1, -, -, h3 | h3⟩
  · cases h3
    refine ⟨?_, rfl, rfl⟩
    simp only [Scan.measure, Scan.wrap, Sbi.setLastVictim_lastVictim, if_true]
    split <;> omega
  · cases h3
  · cases h3
    have := nextOffset_gt (findNextBit st.p.dirtySegmap st.lastSegment st.p.offset) hu
    refine ⟨?_, rfl, rfl⟩
    simp only [Scan.measure, Scan.advance_sbi, Scan.advance_lastSegment, Scan.advance_offset,
      Scan.advance_gcMode]
    omega
  · obtain ⟨rfl, -⟩ := countSearched_cont h3.symm
    have := nextOffset_gt (findNextBit st.p.dirtySegmap st.lastSegment st.p.offset) hu
    refine ⟨?_, by simp, by simp⟩
    simp only [Scan.measure, Scan.examine_lastVictim, Scan.examine_gcMode, Scan.examine_offset,
      Scan.examine_lastSegment, Scan.advance_sbi, Scan.advance_lastSegment, Scan.advance_offset,
      Scan.advance_gcMode]
    omega
  · cases h3
    have := nextOffset_gt (findNextBit st.p.dirtySegmap st.lastSegment st.p.offset) hu
    refine ⟨?_, by simp, by simp⟩
    simp only [Scan.measure, Scan.examine_lastVictim, Scan.examine_gcMode, Scan.examine_offset,
      Scan.examine_lastSegment, Scan.advance_sbi, Scan.advance_lastSegment, Scan.advance_offset,
      Scan.advance_gcMode]
    omega

/-- The loop principle: a property kept by every iteration that continues, whose breaking
iterations establish `Q`, gives `Q` of the loop's result — given fuel for the measure. -/
theorem scanLoop_induct (P Q : Scan g → Prop)
    (hu : ∀ st, P st → 1 ≤ st.p.ofsUnit)
    (hcont : ∀ st st', P st → scanStep gcType maxCost st = .cont st' → P st')
    (hbrk : ∀ st st', P st → scanStep gcType maxCost st = .brk st' → Q st') :
    ∀ (fuel : Nat) (st : Scan g), P st → st.measure ≤ fuel → Q (scanLoop gcType maxCost fuel st) := by
  intro fuel
  induction fuel with
  | zero => intro st _ h; simp [Scan.measure] at h
  | succ n ih =>
    intro st hP hm
    simp only [scanLoop]
    split
    · rename_i st' h
      exact ih st' (hcont st st' hP h) (by have := (scanStep_measure (hu st hP) h).1; omega)
    · rename_i st' h
      exact hbrk st st' hP h

end Loop

end F2fsGc
