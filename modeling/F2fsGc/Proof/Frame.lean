import F2fsGc.Model.Gc
import Mathlib.Logic.Relation

/-!
# What migrating a segment can change

`do_garbage_collect` touches the filesystem only through its collaborators, and its own record
only by the events a migrator logs. `Env.Op` names one collaborator call (what world it can
leave behind), and `Moves` says that a state is reached from another by such calls and by
migrator events. Every function of `Migrate.lean` moves its state this way (`*_moves`); the
collector-level results then take their facts about the world from a contract on `Env.Op`
alone.

The migrator events are `f2fs_iget`, `iput`, a dirtied node page, and a phase-3 hand-over that
is never to `change_data_page`: `gc_data_segment` runs only under `BG_GC`, where its dispatch
picks `move_data_page`, and `gc_data_segment_FG` has no other routine.
-/

set_option autoImplicit false

namespace F2fsGc

variable {g : Geometry} {W : Type}

/-- One collaborator call: `y` is a world the call can leave behind when made in `x`. -/
inductive Env.Op (env : Env g W) : World g W → World g W → Prop
  | writeCheckpoint (x : World g W) : Env.Op env x (env.writeCheckpoint x)
  | getNodePage (x : World g W) (nid : Nat) : Env.Op env x (env.getNodePage x nid).2
  | waitOnPageWriteback (x : World g W) (nid : Nat) : Env.Op env x (env.waitOnPageWriteback x nid)
  | setPageDirty (x : World g W) (nid : Nat) : Env.Op env x (env.setPageDirty x nid)
  | syncNodePages (x : World g W) : Env.Op env x (env.syncNodePages x)
  | iget (x : World g W) (held : List Inode) (ino : Nat) : Env.Op env x (env.iget x held ino).2
  | iput (x : World g W) (i : Inode) : Env.Op env x (env.iput x i)
  | getCachedDataPage (x : World g W) (i : Inode) (n : Nat) :
      Env.Op env x (env.getCachedDataPage x i n).2
  | getReadDataPage (x : World g W) (i : Inode) (n : Nat) :
      Env.Op env x (env.getReadDataPage x i n).2
  | moveDataPage (x : World g W) (i : Inode) (n : Nat) (t : GcType) :
      Env.Op env x (env.moveDataPage x i n t)
  | changeDataPage (x : World g W) (i : Inode) (n : Nat) (t : GcType) :
      Env.Op env x (env.changeDataPage x i n t)
  | moveEncryptedBlock (x : World g W) (i : Inode) (n : Nat) :
      Env.Op env x (env.moveEncryptedBlock x i n)
  | submitMergedBio (x : World g W) : Env.Op env x (env.submitMergedBio x)

/-- The events a migrator logs. -/
def Event.Migrating : Event g → Prop
  | .iget _ | .iput _ | .nodeDirty .. => True
  | .migrate _ _ how _ _ _ => how ≠ .changeData
  | _ => False

/-- `r'` is `r` after collaborator calls and migrator events. -/
structure Moves (env : Env g W) (r r' : GcState g W) : Prop where
  world : Relation.ReflTransGen env.Op r.world r'.world
  log : ∃ es, r'.log = r.log ++ es ∧ ∀ e ∈ es, Event.Migrating e

namespace Moves

variable {env : Env g W} {r r' r'' : GcState g W}

theorem refl (r : GcState g W) : Moves env r r := ⟨.refl, [], by simp, by simp⟩

theorem trans (h : Moves env r r') (h' : Moves env r' r'') : Moves env r r'' := by
  obtain ⟨hw, es, hl, hes⟩ := h
  obtain ⟨hw', es', hl', hes'⟩ := h'
  exact ⟨hw.trans hw', es ++ es', by rw [hl', hl, List.append_assoc],
    fun e he => (List.mem_append.1 he).elim (hes e) (hes' e)⟩

theorem op {x : World g W} (h : env.Op r.world x) : Moves env r (r.setWorld x) :=
  ⟨.single h, [], by simp [GcState.setWorld], by simp⟩

theorem emit (e : Event g) (h : Event.Migrating e) : Moves env r (r.emit e) :=
  ⟨.refl, [e], rfl, by simpa using h⟩

theorem steps {x : World g W} (h : Relation.ReflTransGen env.Op r.world x) :
    Moves env r (r.setWorld x) :=
  ⟨h, [], by simp [GcState.setWorld], by simp⟩

theorem steps_emit {x : World g W} {e : Event g} (h : Relation.ReflTransGen env.Op r.world x)
    (he : Event.Migrating e) : Moves env r ((r.setWorld x).emit e) :=
  (steps h).trans (emit e he)

/-- A state with the same world and log. -/
theorem of_eq (hw : r'.world = r.world) (hl : r'.log = r.log) : Moves env r r' :=
  ⟨hw ▸ .refl, [], by simp [hl], by simp⟩

end Moves

/-- A call that returns a value and a world: the world is one the call leaves behind. -/
theorem Env.Op.of_pair {env : Env g W} {α : Type} {p : α × World g W} {a : α} {x y : World g W}
    (hp : env.Op y p.2) (h : p = (a, x)) : env.Op y x := by
  subst h; exact hp

/-! ## Conditionals and loops -/

/-- A conditional whose branches both continue a loop continues it. -/
theorem ite_ok_false {ε σ : Type} {c : Prop} [Decidable c] (a b : σ) :
    (if c then (.ok (false, a) : Except ε (Bool × σ)) else .ok (false, b)) =
      .ok (false, if c then a else b) := by
  split <;> rfl

/-- What holds of both branches of a conditional holds of it. -/
theorem ite_of_both {α : Type} {P : α → Prop} {c : Prop} [Decidable c] {a b : α} (ha : P a)
    (hb : P b) : P (if c then a else b) := by
  split <;> assumption

/-- A relation that every iteration establishes, reflexive and transitive, holds across the
whole loop. -/
theorem forUntil_rel {α σ : Type} (R : σ → σ → Prop) (hrefl : ∀ s, R s s)
    (htrans : ∀ {a b c}, R a b → R b c → R a c) {body : α → σ → Except Fault (Bool × σ)} :
    ∀ {l : List α}, (∀ a ∈ l, ∀ s b s', body a s = .ok (b, s') → R s s') →
      ∀ {s b s'}, forUntil body l s = .ok (b, s') → R s s'
  | [], _, s, b, s', h => by cases h; exact hrefl s
  | a :: as, hb, s, b, s', h => by
    unfold forUntil at h
    split at h
    · cases h
    · cases h; exact hb a (.head _) _ _ _ ‹_›
    · exact htrans (hb a (.head _) _ _ _ ‹_›) (forUntil_rel R hrefl htrans (fun a ha => hb a (.tail _ ha)) h)

/-- `put_gc_inode`'s loop only gives references back. -/
theorem putGcInode.go_moves (env : Env g W) :
    ∀ (l : List Inode) (r : GcState g W),
      Relation.ReflTransGen env.Op r.world (putGcInode.go env l r).world ∧
        ∃ es : List Inode, (putGcInode.go env l r).log = r.log ++ es.map Event.iput
  | [], r => ⟨.refl, [], by simp [putGcInode.go]⟩
  | i :: rest, r => by
    obtain ⟨hw, es, hl⟩ := putGcInode.go_moves env rest
      (iputR env i { r with gcList := ⟨Function.update r.gcList.iroot i.ino none, rest⟩ })
    refine ⟨(Relation.ReflTransGen.single (.iput _ _)).trans hw, i :: es, ?_⟩
    show (putGcInode.go env rest (iputR env i _)).log = _
    rw [hl]; simp [iputR]

/-! ## Inode references and the inode list -/

section Refs

variable {env : Env g W} {r r' : GcState g W}

theorem iputR_moves (i : Inode) (r : GcState g W) : Moves env r (iputR env i r) :=
  ⟨.single (.iput _ _), [.iput i], rfl, by simp [Event.Migrating]⟩

theorem igetR_moves (env : Env g W) (ino : Nat) (r : GcState g W) : Moves env r (igetR env ino r).2 := by
  unfold igetR
  split
  · exact .op (.of_pair (.iget r.world r.held ino) ‹_›)
  · exact ⟨.single (.of_pair (.iget r.world r.held ino) ‹_›), [.iget _], rfl,
      by simp [Event.Migrating]⟩

theorem addGcInode_moves {i : Inode} (h : addGcInode env i r = .ok r') : Moves env r r' := by
  unfold addGcInode at h
  split at h
  · split at h
    · cases h; exact iputR_moves i r
    · cases h
  · cases h; exact .of_eq rfl rfl

end Refs

/-! ## The migrators -/

section Migrators

variable {env : Env g W} {sum : SumBlock} {segno : Nat} {gcType : GcType}

theorem isAlive_op (x : World g W) (e : Summary) (a : Nat) : env.Op x (isAlive env x e a).2 := by
  unfold isAlive
  split
  · exact .of_pair (.getNodePage x e.nid) ‹_›
  · have hop : env.Op x _ := .of_pair (.getNodePage x e.nid) ‹_›
    dsimp only
    split_ifs <;> exact hop

/-- What the node migrator does: call collaborators and log dirtied node pages of `segno`,
leaving the inode list and the references alone. -/
structure NodeStep (env : Env g W) (segno : Nat) (r r' : GcState g W) : Prop where
  world : Relation.ReflTransGen env.Op r.world r'.world
  gcList : r'.gcList = r.gcList
  held : r'.held = r.held
  log : ∃ es, r'.log = r.log ++ es ∧ ∀ e ∈ es, ∃ off nid, e = .nodeDirty segno off nid

namespace NodeStep

variable {r r' r'' : GcState g W}

theorem refl (r : GcState g W) : NodeStep env segno r r := ⟨.refl, rfl, rfl, [], by simp, by simp⟩

theorem trans (h : NodeStep env segno r r') (h' : NodeStep env segno r' r'') :
    NodeStep env segno r r'' := by
  obtain ⟨hw, hg, hh, es, hl, hes⟩ := h
  obtain ⟨hw', hg', hh', es', hl', hes'⟩ := h'
  exact ⟨hw.trans hw', hg'.trans hg, hh'.trans hh, es ++ es', by rw [hl', hl, List.append_assoc],
    fun e he => (List.mem_append.1 he).elim (hes e) (hes' e)⟩

theorem steps {x : World g W} (h : Relation.ReflTransGen env.Op r.world x) :
    NodeStep env segno r (r.setWorld x) :=
  ⟨h, rfl, rfl, [], by simp [GcState.setWorld], by simp⟩

theorem steps_emit {x : World g W} {off nid : Nat} (h : Relation.ReflTransGen env.Op r.world x) :
    NodeStep env segno r ((r.setWorld x).emit (.nodeDirty segno off nid)) :=
  (steps h).trans ⟨.refl, rfl, rfl, [_], rfl, by simp⟩

theorem moves (h : NodeStep env segno r r') : Moves env r r' := by
  obtain ⟨hw, -, -, es, hl, hes⟩ := h
  exact ⟨hw, es, hl, fun e he => by obtain ⟨_, _, rfl⟩ := hes e he; trivial⟩

end NodeStep

/-- What one iteration of `gc_node_segment`'s loop does: return early, in the background only,
or go on after reading the block's node page and perhaps dirtying it. -/
theorem gcNodeOffset_spec (env : Env g W) (sum : SumBlock) (segno : Nat) (gcType : GcType)
    (initial : Bool) (off : Nat) (r : GcState g W) :
    gcType = .bg ∧ gcNodeOffset env sum segno gcType initial off r = .ok (true, r) ∨
      ∃ r', gcNodeOffset env sum segno gcType initial off r = .ok (false, r') ∧
        NodeStep env segno r r' := by
  unfold gcNodeOffset
  by_cases h1 : gcType = .bg ∧ env.hasNotEnoughFreeSecs r.world 0 = true
  · exact .inl ⟨h1.1, if_pos h1⟩
  refine .inr ?_
  rw [if_neg h1]
  dsimp only
  rcases hp : env.getNodePage r.world (sum.entries off).nid with ⟨_ | _, x⟩ <;>
    have hx : NodeStep env segno r (r.setWorld x) := .steps (.single (.of_pair (.getNodePage _ _) hp)) <;>
    simp only [ite_ok_false] <;> refine ⟨_, rfl, ?_⟩
  · exact ite_of_both (.refl r) (ite_of_both (.refl r) hx)
  · refine ite_of_both (.refl r) (ite_of_both (.refl r)
      (ite_of_both hx (ite_of_both hx (ite_of_both ?_ (ite_of_both hx ?_)))))
    · exact hx.trans (.steps_emit (((Relation.ReflTransGen.single (.waitOnPageWriteback _ _)).tail
        (.setPageDirty _ _))))
    · exact hx.trans (.steps_emit (.single (.setPageDirty _ _)))

theorem gcNodeOffset_step {initial : Bool} {off : Nat} {r r' : GcState g W} {b : Bool}
    (h : gcNodeOffset env sum segno gcType initial off r = .ok (b, r')) : NodeStep env segno r r' := by
  rcases gcNodeOffset_spec env sum segno gcType initial off r with ⟨-, h'⟩ | ⟨r'', h', hs⟩ <;>
    rw [h'] at h <;> cases h
  · exact .refl r
  · exact hs

theorem gcNodeSegment_step {r r' : GcState g W} {n : Nat}
    (h : gcNodeSegment env sum segno gcType r = .ok (n, r')) : NodeStep env segno r r' := by
  unfold gcNodeSegment at h
  rcases hl : forUntil (fun initial r => forUntil (gcNodeOffset env sum segno gcType initial)
      (List.range g.blocksPerSeg) r) [true, false] r with _ | ⟨b, r1⟩ <;> simp only [hl] at h
  · cases h
  have h1 : NodeStep env segno r r1 :=
    forUntil_rel _ NodeStep.refl NodeStep.trans (fun _ _ _ _ _ hs =>
      forUntil_rel _ NodeStep.refl NodeStep.trans (fun _ _ _ _ _ => gcNodeOffset_step) hs) hl
  cases b <;> simp only at h <;> (try split_ifs at h) <;> cases h
  · exact h1.trans (.steps (.single (.syncNodePages _)))
  all_goals exact h1

theorem gcDataReadCached_moves {off bidx : Nat} {i : Inode} {st st' : DataSt g W}
    (h : gcDataReadCached env off i bidx st = .ok st') : Moves env st.run st'.run := by
  unfold gcDataReadCached at h
  split at h
  · cases h
  · cases ha : addGcInode env i (st.run.setWorld _) <;> rw [ha] at h <;> cases h
    exact (Moves.op (.of_pair (.getCachedDataPage _ _ _) ‹_›)).trans (addGcInode_moves ha)

theorem gcDataReadFG_moves {off bidx : Nat} {i : Inode} {st st' : DataSt g W}
    (h : gcDataReadFG env off i bidx st = .ok st') : Moves env st.run st'.run := by
  unfold gcDataReadFG at h
  split at h
  · cases h
    exact (Moves.op (.of_pair (.getReadDataPage _ _ _) ‹_›)).trans (iputR_moves _ _)
  · cases ha : addGcInode env i (st.run.setWorld _) <;> rw [ha] at h <;> cases h
    exact (Moves.op (.of_pair (.getReadDataPage _ _ _) ‹_›)).trans (addGcInode_moves ha)

variable {readPage : Nat → Inode → Nat → DataSt g W → Except Fault (DataSt g W)}
  {migrate : Nat → Inode → Nat → World g W → Migration × World g W}

/-- What a data migrator's own steps must do: read pages through collaborators, and hand
blocks over through one, never to `change_data_page`. -/
structure StepsMove (env : Env g W)
    (readPage : Nat → Inode → Nat → DataSt g W → Except Fault (DataSt g W))
    (migrate : Nat → Inode → Nat → World g W → Migration × World g W) : Prop where
  read : ∀ off i bidx st st', readPage off i bidx st = .ok st' → Moves env st.run st'.run
  op : ∀ cls i bidx x, env.Op x (migrate cls i bidx x).2
  notChange : ∀ cls i bidx x, (migrate cls i bidx x).1 ≠ .changeData

theorem gcDataPhase2_moves (hs : StepsMove env readPage migrate) {off nofs : Nat} {e : Summary}
    {dni : NodeInfo} {st st' : DataSt g W}
    (h : gcDataPhase2 readPage env off e dni nofs st = .ok st') : Moves env st.run st'.run := by
  unfold gcDataPhase2 at h
  rcases hi : igetR env dni.ino st.run with ⟨_ | i, r1⟩ <;>
    have hr1 : Moves env st.run r1 := by simpa only [hi] using igetR_moves env dni.ino st.run
  all_goals simp only [hi] at h
  · cases h; exact hr1
  split_ifs at h
  · cases h; exact hr1
  · cases hadd : addGcInode env i r1 <;> rw [hadd] at h <;> cases h
    exact hr1.trans (addGcInode_moves hadd)
  · exact hr1.trans (hs.read _ _ _ _ _ h)

theorem gcDataPhase3_moves (hs : StepsMove env readPage migrate) (off nofs : Nat) (e : Summary)
    (dni : NodeInfo) (st : DataSt g W) :
    Moves env st.run (gcDataPhase3 migrate env segno off e dni nofs st).run := by
  unfold gcDataPhase3
  split
  · exact .refl _
  · dsimp only
    split_ifs
    · exact .steps_emit (.single (.moveEncryptedBlock _ _ _)) (by simp [Event.Migrating])
    · exact .steps_emit (.single (hs.op _ _ _ _)) (hs.notChange _ _ _ _)

/-- What one iteration of a data migrator's loop can do: nothing, or read the block's node
page through a collaborator and then stop there, run phase 2, or, past it, run phase 3. -/
theorem gcDataOffset_cases {phase off : Nat} {st st' : DataSt g W} {b : Bool}
    (h : gcDataOffset readPage migrate env sum segno gcType phase off st = .ok (b, st')) :
    st' = st ∨ ∃ x, env.Op st.run.world x ∧ (st' = { st with run := st.run.setWorld x } ∨
      ∃ dni nofs, phase = 2 ∧ gcDataPhase2 readPage env off (sum.entries off) dni nofs
          { st with run := st.run.setWorld x } = .ok st' ∨
        2 < phase ∧ st' = gcDataPhase3 migrate env segno off (sum.entries off) dni nofs
          { st with run := st.run.setWorld x }) := by
  unfold gcDataOffset at h
  by_cases h1 : gcType = .bg ∧ env.hasNotEnoughFreeSecs st.run.world 0 = true
  · rw [if_pos h1] at h; cases h; exact .inl rfl
  by_cases h2 : checkValidMap st.run.world.sbi segno off = false
  · rw [if_neg h1, if_pos h2] at h; cases h; exact .inl rfl
  by_cases h3 : phase = 0
  · rw [if_neg h1, if_neg h2, if_pos h3] at h; cases h; exact .inl rfl
  rw [if_neg h1, if_neg h2, if_neg h3] at h
  rcases ha : isAlive env st.run.world (sum.entries off) (blockAddr env segno off) with
    ⟨_ | ⟨dni, nofs⟩, x⟩ <;> rw [ha] at h <;> refine .inr ⟨x, .of_pair (isAlive_op _ _ _) ha, ?_⟩
  · cases h; exact .inl rfl
  dsimp only at h
  by_cases h4 : phase = 1
  · rw [if_pos h4] at h; cases h; exact .inl rfl
  by_cases h5 : phase = 2
  · rw [if_neg h4, if_pos h5] at h
    cases h2 : gcDataPhase2 readPage env off (sum.entries off) dni nofs
      { st with run := st.run.setWorld x } <;> rw [h2] at h <;> cases h
    exact .inr ⟨dni, nofs, .inl ⟨h5, h2⟩⟩
  · rw [if_neg h4, if_neg h5] at h; cases h; exact .inr ⟨dni, nofs, .inr ⟨by omega, rfl⟩⟩

theorem gcDataOffset_moves (hs : StepsMove env readPage migrate) {phase off : Nat}
    {st st' : DataSt g W} {b : Bool}
    (h : gcDataOffset readPage migrate env sum segno gcType phase off st = .ok (b, st')) :
    Moves env st.run st'.run := by
  rcases gcDataOffset_cases h with rfl | ⟨x, hx, rfl | ⟨dni, nofs, ⟨-, h2⟩ | ⟨-, rfl⟩⟩⟩
  · exact .refl _
  · exact .op hx
  · exact (Moves.op hx).trans (gcDataPhase2_moves hs h2)
  · exact (Moves.op hx).trans (gcDataPhase3_moves hs off nofs _ dni { st with run := st.run.setWorld x })

/-- A relation that every iteration of a data migrator's loop and its final
`f2fs_submit_merged_bio` establish, reflexive and transitive, holds across the migrator. -/
theorem gcDataSegmentWith_rel (R : GcState g W → GcState g W → Prop) (hrefl : ∀ r, R r r)
    (htrans : ∀ {a b c}, R a b → R b c → R a c)
    (hstep : ∀ phase off st b st',
      gcDataOffset readPage migrate env sum segno gcType phase off st = .ok (b, st') → R st.run st'.run)
    (hsubmit : ∀ r, R r (r.setWorld (env.submitMergedBio r.world))) {r r' : GcState g W} {n : Nat}
    (h : gcDataSegmentWith readPage migrate env sum segno gcType r = .ok (n, r')) : R r r' := by
  unfold gcDataSegmentWith at h
  rcases hl : forUntil (fun phase st => forUntil (gcDataOffset readPage migrate env sum segno gcType phase)
      (List.range g.blocksPerSeg) st) [0, 1, 2, 3] ⟨r, fun _ => 0⟩ with _ | ⟨b, st1⟩ <;>
    simp only [hl] at h
  · cases h
  have h1 : R r st1.run :=
    forUntil_rel (fun s s' : DataSt g W => R s.run s'.run) (fun _ => hrefl _) htrans
      (fun _ _ _ _ _ hs' => forUntil_rel (fun s s' : DataSt g W => R s.run s'.run) (fun _ => hrefl _)
        htrans (fun _ _ => hstep _ _) hs') hl
  cases b <;> simp only at h <;> (try split_ifs at h) <;> cases h
  · exact htrans h1 (hsubmit _)
  all_goals exact h1

theorem gcDataSegmentWith_moves (hs : StepsMove env readPage migrate) {r r' : GcState g W}
    {n : Nat} (h : gcDataSegmentWith readPage migrate env sum segno gcType r = .ok (n, r')) :
    Moves env r r' :=
  gcDataSegmentWith_rel _ Moves.refl Moves.trans (fun _ _ _ _ _ => gcDataOffset_moves hs)
    (fun _ => .op (.submitMergedBio _)) h

theorem gcDataReadCached_stepsMove : StepsMove env (gcDataReadCached env) (gcDataMoveBG env .bg) :=
  ⟨fun _ _ _ _ _ => gcDataReadCached_moves, fun _ _ _ _ => by
    simpa only [gcDataMoveBG, or_true, if_true] using .moveDataPage _ _ _ _,
    fun _ _ _ _ => by simp [gcDataMoveBG]⟩

theorem gcDataReadFG_stepsMove : StepsMove env (gcDataReadFG env) (gcDataMoveFG env gcType) :=
  ⟨fun _ _ _ _ _ => gcDataReadFG_moves, fun _ _ _ _ => .moveDataPage _ _ _ _, fun _ _ _ _ => nofun⟩

/-- `do_garbage_collect` logs its own entry, then only migrator events, and changes the world
only through collaborator calls. -/
theorem doGarbageCollect_moves {r r' : GcState g W} {n : Nat}
    (h : doGarbageCollect env segno gcType r = .ok (n, r')) :
    Relation.ReflTransGen env.Op r.world r'.world ∧
      ∃ es, r'.log = r.log ++ Event.collect segno gcType r.world.sbi :: es ∧
        ∀ e ∈ es, Event.Migrating e := by
  have hm : Moves env (r.emit (.collect segno gcType r.world.sbi)) r' := by
    unfold doGarbageCollect at h
    dsimp only at h
    split at h
    · exact (gcNodeSegment_step h).moves
    · split_ifs at h with hfg
      · exact gcDataSegmentWith_moves gcDataReadFG_stepsMove h
      · have hbg : gcType = .bg := by cases gcType <;> simp_all
        subst hbg
        exact gcDataSegmentWith_moves gcDataReadCached_stepsMove h
  obtain ⟨hw, es, hl, hes⟩ := hm
  exact ⟨hw, es, by simpa [GcState.emit] using hl, hes⟩

end Migrators

end F2fsGc
