import F2fsGc.Proof.Reclaim

/-!
# Each block of a victim segment is handed over at most once

A migrator passes over its segment more than once: `gc_node_segment` twice (a readahead pass,
then the pass that dirties node pages) and the data migrators four times, one per phase. Only
one pass acts on a block: the node pages are dirtied in the second pass, and data blocks are
handed to a migration routine in phase 3. Phases 0 and 1 only read ahead, and phase 2 only
takes and gives back inode references.

What one iteration of a pass may log is `NodePassLog` for the node migrator and `DataPassLog`
for the data migrators. `handedOver` reads off a log the blocks handed over, each as its segment
and offset. A collection hands over a sublist of its segment's blocks in order of offset
(`doGarbageCollect_handedOver`): no block twice, and none outside the segment.
-/

set_option autoImplicit false

namespace F2fsGc

variable {g : Geometry} {W : Type}

/-- The blocks a log shows handed over: a phase-3 migration or a dirtied node page, each as its
segment and offset. -/
def handedOver (l : List (Event g)) : List (Nat × Nat) :=
  l.filterMap fun e => match e with
    | .migrate sg off .. => some (sg, off)
    | .nodeDirty sg off _ => some (sg, off)
    | _ => none

@[simp] theorem handedOver_append (l₁ l₂ : List (Event g)) :
    handedOver (l₁ ++ l₂) = handedOver l₁ ++ handedOver l₂ :=
  List.filterMap_append _ _ _

/-- Passes that hand nothing over add nothing to what a migrator may hand over. -/
theorem flatMap_range_nil (n : Nat) :
    ((List.range n).flatMap fun _ => ([] : List (Nat × Nat))) = [] :=
  List.flatMap_eq_nil_iff.2 fun _ _ => rfl

/-- A loop hands over, in order, what its iterations hand over, each within what its element
allows. -/
theorem forUntil_handedOver {α σ : Type} (run : σ → GcState g W) (f : α → List (Nat × Nat))
    {body : α → σ → Except Fault (Bool × σ)} :
    ∀ {l : List α}, (∀ a ∈ l, ∀ s b s', body a s = .ok (b, s') →
        ∃ l', handedOver (run s').log = handedOver (run s).log ++ l' ∧ l'.Sublist (f a)) →
      ∀ {s : σ} {b : Bool} {s' : σ}, forUntil body l s = .ok (b, s') →
        ∃ l', handedOver (run s').log = handedOver (run s).log ++ l' ∧ l'.Sublist (l.flatMap f)
  | [], _, s, b, s', h => by cases h; exact ⟨[], by simp, List.Sublist.slnil⟩
  | a :: as, hb, s, b, s', h => by
    unfold forUntil at h
    split at h
    · cases h
    · cases h
      obtain ⟨l', hl, hs⟩ := hb a (.head _) _ _ _ ‹_›
      exact ⟨l', hl, hs.trans (List.sublist_append_left _ _)⟩
    · obtain ⟨l₁, hl₁, hs₁⟩ := hb a (.head _) _ _ _ ‹_›
      obtain ⟨l₂, hl₂, hs₂⟩ := forUntil_handedOver run f (fun a ha => hb a (.tail _ ha)) h
      exact ⟨l₁ ++ l₂, by rw [hl₂, hl₁, List.append_assoc], hs₁.append hs₂⟩

variable {env : Env g W}

/-! ## Node segments -/

section Node

variable {sum : SumBlock} {segno : Nat} {gcType : GcType}

/-- What one iteration of `gc_node_segment`'s loop logs: nothing in the readahead pass, and
in the second pass at most the dirtied node page of its own block. -/
def NodePassLog (segno off : Nat) (initial : Bool) (es : List (Event g)) : Prop :=
  es = [] ∨ initial = false ∧ ∃ nid, es = [.nodeDirty segno off nid]

theorem NodePassLog.handedOver {off : Nat} {initial : Bool} {es : List (Event g)}
    (h : NodePassLog segno off initial es) :
    (handedOver es).Sublist (if initial then [] else [(segno, off)]) := by
  rcases h with rfl | ⟨rfl, nid, rfl⟩
  · exact List.nil_sublist _
  · exact List.Sublist.refl _

theorem gcNodeOffset_passLog {initial : Bool} {off : Nat} {r r' : GcState g W} {b : Bool}
    (h : gcNodeOffset env sum segno gcType initial off r = .ok (b, r')) :
    ∃ es, r'.log = r.log ++ es ∧ NodePassLog segno off initial es := by
  have hquiet : ∀ r₁ : GcState g W, r₁.log = r.log →
      ∃ es, r₁.log = r.log ++ es ∧ NodePassLog segno off initial es :=
    fun _ hr => ⟨[], by rw [hr, List.append_nil], .inl rfl⟩
  unfold gcNodeOffset at h
  by_cases h1 : gcType = .bg ∧ env.hasNotEnoughFreeSecs r.world 0 = true
  · rw [if_pos h1] at h; cases h; exact hquiet _ rfl
  by_cases h2 : checkValidMap r.world.sbi segno off = false
  · rw [if_neg h1, if_pos h2] at h; cases h; exact hquiet _ rfl
  cases initial
  · rw [if_neg h1, if_neg h2, if_neg Bool.false_ne_true] at h
    dsimp only at h
    rcases hp : env.getNodePage r.world (sum.entries off).nid with ⟨_ | _, x⟩ <;> simp only [hp] at h
    · cases h; exact hquiet _ rfl
    · split_ifs at h <;> cases h <;>
        first
        | exact hquiet _ rfl
        | exact ⟨_, rfl, .inr ⟨rfl, _, rfl⟩⟩
  · rw [if_neg h1, if_neg h2, if_pos rfl] at h
    cases h
    exact hquiet _ rfl

/-- The node migrator dirties the node pages of a sublist of its segment's blocks. -/
theorem gcNodeSegment_handedOver {r r' : GcState g W} {n : Nat}
    (h : gcNodeSegment env sum segno gcType r = .ok (n, r')) :
    ∃ l', handedOver r'.log = handedOver r.log ++ l' ∧
      l'.Sublist ((List.range g.blocksPerSeg).map fun off => (segno, off)) := by
  unfold gcNodeSegment at h
  rcases hl : forUntil (fun initial r => forUntil (gcNodeOffset env sum segno gcType initial)
      (List.range g.blocksPerSeg) r) [true, false] r with _ | ⟨b, r1⟩ <;> simp only [hl] at h
  · cases h
  obtain ⟨l', hl', hs⟩ : ∃ l', handedOver r1.log = handedOver r.log ++ l' ∧
      l'.Sublist ([true, false].flatMap fun initial : Bool =>
        (List.range g.blocksPerSeg).flatMap fun off => if initial then [] else [(segno, off)]) := by
    refine forUntil_handedOver id _ ?_ hl
    intro initial _ _ _ _ hs
    refine forUntil_handedOver id (fun off => if initial then [] else [(segno, off)]) ?_ hs
    intro _ _ _ _ _ ho
    obtain ⟨es, hl, hp⟩ := gcNodeOffset_passLog ho
    exact ⟨_, by simp only [id, hl, handedOver_append], hp.handedOver⟩
  have hlog : r'.log = r1.log := by
    cases b <;> simp only at h <;> (try split_ifs at h) <;> cases h <;> rfl
  refine ⟨l', by rw [hlog]; exact hl', ?_⟩
  simpa [flatMap_range_nil, ← List.map_eq_flatMap] using hs

end Node

/-! ## Data segments -/

section Data

/-- The events of taking an inode reference and of giving one back. -/
def Event.RefTraffic : Event g → Prop
  | .iget _ | .iput _ => True
  | _ => False

/-- `l'` is `l` followed by references taken and given back. -/
def RefsLog (l l' : List (Event g)) : Prop :=
  ∃ es, l' = l ++ es ∧ ∀ e ∈ es, Event.RefTraffic e

theorem RefsLog.refl (l : List (Event g)) : RefsLog l l := ⟨[], (List.append_nil _).symm, nofun⟩

theorem RefsLog.trans {l l' l'' : List (Event g)} (h : RefsLog l l') (h' : RefsLog l' l'') :
    RefsLog l l'' := by
  obtain ⟨es, rfl, hes⟩ := h
  obtain ⟨es', rfl, hes'⟩ := h'
  exact ⟨es ++ es', List.append_assoc _ _ _, fun e he => (List.mem_append.1 he).elim (hes e) (hes' e)⟩

theorem handedOver_eq_nil_of_refs {es : List (Event g)} (h : ∀ e ∈ es, Event.RefTraffic e) :
    handedOver es = [] :=
  List.filterMap_eq_nil_iff.2 fun e he => by
    cases e with
    | migrate => exact (h _ he).elim
    | nodeDirty => exact (h _ he).elim
    | _ => rfl

theorem iputR_refs (i : Inode) (r : GcState g W) : RefsLog r.log (iputR env i r).log :=
  ⟨[.iput i], rfl, by simp [Event.RefTraffic]⟩

theorem igetR_refs (ino : Nat) (r : GcState g W) : RefsLog r.log (igetR env ino r).2.log := by
  unfold igetR
  split
  · exact .refl _
  · exact ⟨[.iget _], rfl, by simp [Event.RefTraffic]⟩

theorem addGcInode_refs {i : Inode} {r r' : GcState g W} (h : addGcInode env i r = .ok r') :
    RefsLog r.log r'.log := by
  unfold addGcInode at h
  split at h
  · split_ifs at h
    cases h
    exact iputR_refs i r
  · cases h
    exact .refl _

/-- A page read that only takes and gives back references. -/
def ReadsRefs (readPage : Nat → Inode → Nat → DataSt g W → Except Fault (DataSt g W)) : Prop :=
  ∀ off i bidx st st', readPage off i bidx st = .ok st' → RefsLog st.run.log st'.run.log

theorem gcDataReadCached_refs : ReadsRefs (gcDataReadCached env) := by
  intro off i bidx st st' h
  unfold gcDataReadCached at h
  split at h
  · cases h
  · cases ha : addGcInode env i (st.run.setWorld _) <;> rw [ha] at h <;> cases h
    have := addGcInode_refs ha
    exact this

theorem gcDataReadFG_refs : ReadsRefs (gcDataReadFG env) := by
  intro off i bidx st st' h
  unfold gcDataReadFG at h
  split at h
  · cases h
    exact @iputR_refs g W env i (st.run.setWorld _)
  · cases ha : addGcInode env i (st.run.setWorld _) <;> rw [ha] at h <;> cases h
    have := addGcInode_refs ha
    exact this

variable {readPage : Nat → Inode → Nat → DataSt g W → Except Fault (DataSt g W)}
  {migrate : Nat → Inode → Nat → World g W → Migration × World g W}
  {sum : SumBlock} {segno : Nat} {gcType : GcType}

/-- Phase 2 only takes and gives back references. -/
theorem gcDataPhase2_refs (hq : ReadsRefs readPage) {off nofs : Nat} {e : Summary}
    {dni : NodeInfo} {st st' : DataSt g W}
    (h : gcDataPhase2 readPage env off e dni nofs st = .ok st') : RefsLog st.run.log st'.run.log := by
  unfold gcDataPhase2 at h
  have hg := @igetR_refs g W env dni.ino st.run
  rcases hi : igetR env dni.ino st.run with ⟨_ | i, r1⟩ <;> simp only [hi] at h hg
  · cases h; exact hg
  split_ifs at h
  · cases h; exact hg
  · cases ha : addGcInode env i r1 <;> rw [ha] at h <;> cases h
    exact hg.trans (addGcInode_refs ha)
  · exact hg.trans (hq _ _ _ _ _ h)

/-- What one iteration of a data migrator's loop logs: nothing in phases 0 and 1, which only
read ahead; only references taken and given back in phase 2; and in phase 3 at most the
migration of its own block. -/
def DataPassLog (segno off phase : Nat) (es : List (Event g)) : Prop :=
  if phase < 2 then es = []
  else if phase = 2 then ∀ e ∈ es, Event.RefTraffic e
  else es = [] ∨ ∃ how i bidx cls, es = [.migrate segno off how i bidx cls]

theorem DataPassLog.handedOver {off phase : Nat} {es : List (Event g)}
    (h : DataPassLog segno off phase es) :
    (handedOver es).Sublist (if phase < 3 then [] else [(segno, off)]) := by
  unfold DataPassLog at h
  split_ifs at h with h2 h3
  · rw [h]; exact List.nil_sublist _
  · rw [handedOver_eq_nil_of_refs h]; exact List.nil_sublist _
  · rw [if_neg (by omega)]
    rcases h with rfl | ⟨how, i, bidx, cls, rfl⟩
    · exact List.nil_sublist _
    · exact List.Sublist.refl _

/-- Phase 3 logs at most the migration of the block it is at. -/
theorem gcDataPhase3_log (off nofs : Nat) (e : Summary) (dni : NodeInfo) (st : DataSt g W) :
    ∃ es, (gcDataPhase3 migrate env segno off e dni nofs st).run.log = st.run.log ++ es ∧
      (es = [] ∨ ∃ how i bidx cls, es = [.migrate segno off how i bidx cls]) := by
  unfold gcDataPhase3
  split
  · exact ⟨[], (List.append_nil _).symm, .inl rfl⟩
  · exact ⟨_, rfl, .inr ⟨_, _, _, _, rfl⟩⟩

theorem DataPassLog.nil (off phase : Nat) : DataPassLog segno off phase ([] : List (Event g)) := by
  unfold DataPassLog; split_ifs <;> simp

theorem gcDataOffset_passLog (hq : ReadsRefs readPage) {phase off : Nat} {st st' : DataSt g W}
    {b : Bool} (h : gcDataOffset readPage migrate env sum segno gcType phase off st = .ok (b, st')) :
    ∃ es, st'.run.log = st.run.log ++ es ∧ DataPassLog segno off phase es := by
  rcases gcDataOffset_cases h with rfl | ⟨x, -, rfl | ⟨dni, nofs, ⟨h2, hp⟩ | ⟨h3, rfl⟩⟩⟩
  · exact ⟨[], (List.append_nil _).symm, .nil off phase⟩
  · exact ⟨[], (List.append_nil _).symm, .nil off phase⟩
  · obtain ⟨es, hl, hes⟩ := gcDataPhase2_refs hq hp
    refine ⟨es, hl, ?_⟩
    rw [DataPassLog, if_neg (by omega), if_pos h2]
    exact hes
  · obtain ⟨es, hl, hes⟩ := @gcDataPhase3_log g W env migrate segno off nofs (sum.entries off) dni
      { st with run := st.run.setWorld x }
    refine ⟨es, hl, ?_⟩
    rw [DataPassLog, if_neg (by omega), if_neg (by omega)]
    exact hes

/-- A data migrator hands over a sublist of its segment's blocks. -/
theorem gcDataSegmentWith_handedOver (hq : ReadsRefs readPage) {r r' : GcState g W} {n : Nat}
    (h : gcDataSegmentWith readPage migrate env sum segno gcType r = .ok (n, r')) :
    ∃ l', handedOver r'.log = handedOver r.log ++ l' ∧
      l'.Sublist ((List.range g.blocksPerSeg).map fun off => (segno, off)) := by
  unfold gcDataSegmentWith at h
  rcases hl : forUntil (fun phase st => forUntil (gcDataOffset readPage migrate env sum segno gcType phase)
      (List.range g.blocksPerSeg) st) [0, 1, 2, 3] ⟨r, fun _ => 0⟩ with _ | ⟨b, st1⟩ <;>
    simp only [hl] at h
  · cases h
  obtain ⟨l', hl', hs⟩ : ∃ l', handedOver st1.run.log = handedOver r.log ++ l' ∧
      l'.Sublist ([0, 1, 2, 3].flatMap fun phase : Nat =>
        (List.range g.blocksPerSeg).flatMap fun off => if phase < 3 then [] else [(segno, off)]) := by
    refine forUntil_handedOver DataSt.run _ ?_ hl
    intro phase _ _ _ _ hs
    refine forUntil_handedOver DataSt.run (fun off => if phase < 3 then [] else [(segno, off)]) ?_ hs
    intro _ _ _ _ _ ho
    obtain ⟨es, hl, hp⟩ := gcDataOffset_passLog hq ho
    exact ⟨_, by rw [hl, handedOver_append], hp.handedOver⟩
  have hlog : r'.log = st1.run.log := by
    cases b <;> simp only at h <;> (try split_ifs at h) <;> cases h <;> rfl
  refine ⟨l', by rw [hlog]; exact hl', ?_⟩
  simpa [flatMap_range_nil, ← List.map_eq_flatMap] using hs

end Data

/-- A collection hands each block of its segment over at most once, in order of offset: the data
blocks it passes to a migration routine, or the node blocks whose node page it dirties, are a
sublist of the segment's blocks. The passes of the migrators are what make it so: an iteration of
`gc_node_segment`'s loop dirties a node page only in the second pass, an iteration of a data
migrator's loop migrates a block only in phase 3, and those of the other passes log nothing but
references taken and given back. -/
theorem doGarbageCollect_handedOver {segno : Nat} {gcType : GcType} {r r' : GcState g W} {n : Nat}
    (h : doGarbageCollect env segno gcType r = .ok (n, r')) :
    (∀ (sum : SumBlock) (initial : Bool) (off : Nat) (s s' : GcState g W) (b : Bool),
      gcNodeOffset env sum segno gcType initial off s = .ok (b, s') →
        ∃ es, s'.log = s.log ++ es ∧ NodePassLog segno off initial es) ∧
    (∀ (sum : SumBlock) (phase off : Nat) (st st' : DataSt g W) (b : Bool),
      (gcDataOffset (gcDataReadFG env) (gcDataMoveFG env gcType) env sum segno gcType phase off st =
          .ok (b, st') ∨
        gcDataOffset (gcDataReadCached env) (gcDataMoveBG env gcType) env sum segno gcType phase off
          st = .ok (b, st')) →
        ∃ es, st'.run.log = st.run.log ++ es ∧ DataPassLog segno off phase es) ∧
    ∃ l', handedOver r'.log = handedOver r.log ++ l' ∧
      l'.Sublist ((List.range g.blocksPerSeg).map fun off => (segno, off)) := by
  refine ⟨fun _ _ _ _ _ _ => gcNodeOffset_passLog, fun _ _ _ _ _ _ hd =>
    hd.elim (gcDataOffset_passLog gcDataReadFG_refs) (gcDataOffset_passLog gcDataReadCached_refs), ?_⟩
  have hr : handedOver (r.emit (.collect segno gcType r.world.sbi)).log = handedOver r.log := by
    simp [GcState.emit, handedOver]
  unfold doGarbageCollect at h
  dsimp only at h
  rw [← hr]
  split at h
  · exact gcNodeSegment_handedOver h
  · split_ifs at h
    · exact gcDataSegmentWith_handedOver gcDataReadFG_refs h
    · exact gcDataSegmentWith_handedOver gcDataReadCached_refs h

theorem doGarbageCollect_handedOver_ownedData :
    ∃ out, doGarbageCollect ownedDataEnv 0 .fg ⟨⟨liveNodeSit, ()⟩, .empty, [], []⟩ = .ok out ∧
      (∀ (sum : SumBlock) (initial : Bool) (off : Nat) (s s' : GcState twoSegSec Unit) (b : Bool),
        gcNodeOffset ownedDataEnv sum 0 .fg initial off s = .ok (b, s') →
          ∃ es, s'.log = s.log ++ es ∧ NodePassLog 0 off initial es) ∧
      (∀ (sum : SumBlock) (phase off : Nat) (st st' : DataSt twoSegSec Unit) (b : Bool),
        (gcDataOffset (gcDataReadFG ownedDataEnv) (gcDataMoveFG ownedDataEnv .fg) ownedDataEnv sum 0
            .fg phase off st = .ok (b, st') ∨
          gcDataOffset (gcDataReadCached ownedDataEnv) (gcDataMoveBG ownedDataEnv .fg) ownedDataEnv
            sum 0 .fg phase off st = .ok (b, st')) →
          ∃ es, st'.run.log = st.run.log ++ es ∧ DataPassLog 0 off phase es) ∧
      ∃ l', handedOver out.2.log = handedOver ([] : List (Event twoSegSec)) ++ l' ∧
        l'.Sublist ((List.range twoSegSec.blocksPerSeg).map fun off => (0, off)) :=
  have ⟨out, h⟩ := exists_ok_of_isOk
    (show (doGarbageCollect ownedDataEnv 0 .fg ⟨⟨liveNodeSit, ()⟩, .empty, [], []⟩).isOk = true by
      decide)
  ⟨out, h, doGarbageCollect_handedOver h⟩

end F2fsGc
