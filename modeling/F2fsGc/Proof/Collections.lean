import F2fsGc.Proof.Retval

/-!
# Which segments a call of `f2fs_gc` collects

Every `do_garbage_collect` of a call logs `Event.collect segno gc_type`. Read off the log, a
call's collections come in rounds of `gc_more`. A round collects the first segments of one
section of the main area, in order, under one `gc_type`: all `segs_per_sec` of them in the
background, and in the foreground up to the first segment it could not free (that one
included). Only the first round can be a background one: a round goes back to `gc_more` only
when free sections are short, and then the next round is promoted to `FG_GC`. A `sync` call
never goes back, so it runs at most one round, in the foreground (`f2fsGc_collections`).

The return value of a `sync` call is `sec_freed ? 0 : -EAGAIN`, and `sec_freed` counts the
foreground rounds whose loop reached `segs_per_sec`; so a `sync` call that returns `0`
collected exactly the segments of one section (`f2fsGc_sync_zero`).

The checkpoints a call writes sit at two places of its log (`f2fsGc_checkpoints`). One is
between its background collections and its foreground ones, where the promotion of a background
call writes it; a call is promoted once, since it stays `FG_GC` afterwards. The other follows the
last foreground collection, on the way out of a call that is not `sync`. Between them, a
`Stretch` of the log writes no checkpoint and collects under one `gc_type`.
-/

set_option autoImplicit false

namespace F2fsGc

variable {g : Geometry} {W : Type}

/-- The collections a log shows, each as its segment and `gc_type`, in order. -/
def collections (l : List (Event g)) : List (Nat × GcType) :=
  l.filterMap fun e => match e with
    | .collect sg t _ => some (sg, t)
    | _ => none

@[simp] theorem collections_append (l₁ l₂ : List (Event g)) :
    collections (l₁ ++ l₂) = collections l₁ ++ collections l₂ :=
  List.filterMap_append _ _ _

@[simp] theorem collections_cons_collect (sg : Nat) (t : GcType) (s : Sbi g) (l : List (Event g)) :
    collections (.collect sg t s :: l) = (sg, t) :: collections l :=
  rfl

theorem collections_eq_nil {es : List (Event g)} (h : ∀ e ∈ es, ∀ sg t s, e ≠ .collect sg t s) :
    collections es = [] :=
  List.filterMap_eq_nil_iff.2 fun e he => by
    cases e with
    | collect sg t s => exact absurd rfl (h _ he sg t s)
    | _ => rfl

theorem collections_of_migrating {es : List (Event g)} (h : ∀ e ∈ es, Event.Migrating e) :
    collections es = [] :=
  collections_eq_nil fun e he sg t s hc => by subst hc; exact (h _ he).elim

theorem CheckpointLog.collections_eq {l l' : List (Event g)} (h : CheckpointLog l l') :
    collections l' = collections l := by
  obtain ⟨es, rfl, hes⟩ := h
  have h0 : collections es = [] := collections_eq_nil fun e he sg t s hc => by
    rw [hes e he] at hc; cases hc
  rw [collections_append, h0, List.append_nil]

/-- One round's collections: the first `count` segments from `start`, under `gcType`. -/
structure RoundCollect where
  gcType : GcType
  start : Nat
  count : Nat
  deriving DecidableEq, Repr

namespace RoundCollect

/-- The collections a round logs. -/
def collections (c : RoundCollect) : List (Nat × GcType) :=
  (List.range' c.start c.count).map fun sg => (sg, c.gcType)

/-- A round over the geometry `g`: it starts at the first segment of a section inside the main
area and collects between one segment and the whole section, the whole section in the
background. -/
structure Valid (g : Geometry) (c : RoundCollect) : Prop where
  start : ∃ m < g.mainSegs, c.start = m / g.segsPerSec * g.segsPerSec
  count_pos : 0 < c.count
  count_le : c.count ≤ g.segsPerSec
  bg_whole : c.gcType = .bg → c.count = g.segsPerSec

/-- Rounds after a first one that is not a background one are all foreground ones. -/
theorem all_fg {rounds : List RoundCollect} (htail : ∀ c ∈ rounds.tail, c.gcType = .fg)
    (hhead : ∀ c ∈ rounds.head?, c.gcType ≠ .bg) : ∀ c ∈ rounds, c.gcType = .fg := by
  cases rounds with
  | nil => nofun
  | cons c cs =>
    refine List.forall_mem_cons.2 ⟨?_, htail⟩
    have := hhead c rfl
    cases h : c.gcType
    · exact absurd h this
    · rfl

end RoundCollect

variable {env : Env g W}

/-- The `stop` label after a checkpoint-only stretch adds no collection. -/
theorem gcStop_collections (sync : Bool) (secFreed : Nat) (ret : Int) {r r1 : GcState g W}
    (hl : CheckpointLog r.log r1.log) :
    collections (gcStop env sync secFreed ret r1).2.log = collections r.log := by
  obtain ⟨es, h, hes⟩ := gcStop_noCollect sync secFreed ret hl
  rw [h, collections_append, collections_eq_nil hes, List.append_nil]

/-- The loop over a victim's segments collects `j` consecutive segments from `segno + i`: at
least one when it runs at all, and all `k` unless a foreground collection frees nothing, in
which case it returns that segment's index. -/
theorem collectSection_collections (segno : Nat) (t : GcType) :
    ∀ (k i : Nat) (r : GcState g W) {i' : Nat} {r' : GcState g W},
      collectSection env segno t i k r = .ok (i', r') →
      ∃ j ≤ k, (0 < k → 0 < j) ∧ (i' = i + k ∧ j = k ∨ t = .fg ∧ i' + 1 = i + j) ∧
        collections r'.log = collections r.log ++ (List.range' (segno + i) j).map fun sg => (sg, t)
  | 0, i, r, _, _, h => by
    cases h
    exact ⟨0, le_refl 0, nofun, .inl ⟨rfl, rfl⟩, by simp⟩
  | k + 1, i, r, i', r', h => by
    unfold collectSection at h
    rcases hd : doGarbageCollect env (segno + i) t r with _ | ⟨n, r1⟩ <;> simp only [hd] at h
    · cases h
    obtain ⟨-, es, hl, hes⟩ := doGarbageCollect_moves hd
    have h1 : collections r1.log = collections r.log ++ [(segno + i, t)] := by
      rw [hl, collections_append, collections_cons_collect, collections_of_migrating hes]
    by_cases hb : n = 0 ∧ t = .fg
    · rw [if_pos hb] at h
      cases h
      exact ⟨1, by omega, fun _ => Nat.one_pos, .inr ⟨hb.2, rfl⟩, h1⟩
    · rw [if_neg hb] at h
      obtain ⟨j, hj, -, hi, hl'⟩ := collectSection_collections segno t k (i + 1) r1 h
      refine ⟨j + 1, by omega, fun _ => by omega, ?_, by rw [hl', h1, List.append_assoc]; rfl⟩
      rcases hi with ⟨rfl, rfl⟩ | ⟨ht, hi⟩
      · exact .inl ⟨by omega, rfl⟩
      · exact .inr ⟨ht, by omega⟩

/-- A round's victim is the first segment of a section inside the main area. -/
theorem roundVictim_start {gcType : GcType} {secFreed : Nat} {r : GcState g W} {t : GcType}
    {segno : Nat} {r1 : GcState g W} (hv : roundVictim env gcType secFreed r = (t, true, segno, r1)) :
    ∃ m < g.mainSegs, segno = m / g.segsPerSec * g.segsPerSec := by
  unfold roundVictim promote at hv
  by_cases hp : gcType = .bg ∧ env.hasNotEnoughFreeSecs r.world secFreed = true
  · rw [if_pos hp] at hv
    obtain ⟨hmiss, hfound⟩ := getVictim_spec r nullSegno .fg
    rcases hg : getVictim r nullSegno .fg with ⟨f0, s0, r0⟩
    simp only [hg] at hmiss hfound hv
    generalize (if f0 = true ∨ 0 < env.prefreeSegments r0.world then checkpointR env r0 else r0) = r0'
      at hv
    by_cases hs0 : s0 = nullSegno
    · rw [if_pos hs0] at hv
      obtain ⟨-, hfound'⟩ := getVictim_spec r0' s0 .fg
      rcases hg' : getVictim r0' s0 .fg with ⟨f1, s1, r1'⟩
      simp only [hg'] at hfound' hv
      obtain ⟨rfl, rfl, rfl, rfl⟩ := hv
      obtain ⟨m, hm, hs, -⟩ := hfound' rfl
      exact ⟨m, hm, hs⟩
    · rw [if_neg hs0] at hv
      obtain ⟨rfl, -, rfl, rfl⟩ := hv
      cases f0
      · exact absurd (hmiss rfl).1 hs0
      · obtain ⟨m, hm, hs, -⟩ := hfound rfl
        exact ⟨m, hm, hs⟩
  · rw [if_neg hp] at hv
    obtain ⟨-, hfound⟩ := getVictim_spec r nullSegno gcType
    rcases hg : getVictim r nullSegno gcType with ⟨f1, s1, r1'⟩
    simp only [hg, if_true] at hfound hv
    obtain ⟨rfl, rfl, rfl, rfl⟩ := hv
    obtain ⟨m, hm, hs, -⟩ := hfound rfl
    exact ⟨m, hm, hs⟩

/-- A round that finds its victim and collects it: one `RoundCollect` of its `gc_type` from the
victim, after a checkpoint-only stretch. -/
theorem round_collections {gcType t : GcType} {secFreed : Nat} {r r1 r2 : GcState g W}
    {segno i : Nat} (hv : roundVictim env gcType secFreed r = (t, true, segno, r1))
    (hc : collectSection env segno t 0 g.segsPerSec r1 = .ok (i, r2)) :
    ∃ c : RoundCollect, c.Valid g ∧ c.gcType = t ∧
      (i = g.segsPerSec → c.count = g.segsPerSec) ∧
      collections r2.log = collections r.log ++ c.collections := by
  obtain ⟨j, hj, hj0, hi, hl⟩ := collectSection_collections segno t g.segsPerSec 0 r1 hc
  have hr1 : CheckpointLog r.log r1.log := by simpa only [hv] using roundVictim_log env gcType secFreed r
  refine ⟨⟨t, segno, j⟩, ⟨roundVictim_start hv, hj0 g.segsPerSec_pos, hj, fun hb => ?_⟩, rfl,
    fun hs => ?_, by rw [hl, hr1.collections_eq, Nat.add_zero]; rfl⟩
  · rcases hi with ⟨-, hj⟩ | ⟨ht, -⟩
    · exact hj
    · exact absurd (ht.symm.trans hb) nofun
  · dsimp only
    omega

/-- The rounds of `gc_more`, read off the log: each a valid `RoundCollect`; all but the first in
the foreground; the first in the background only when the loop was entered with `BG_GC` and
free sections were not short; and at most one round in a `sync` call. -/
theorem gcMore_collections (sync : Bool) :
    ∀ {fuel : Nat} {gcType : GcType} {secFreed : Nat} {ret : Int} {r : GcState g W}
      {out : Int × GcState g W}, gcMore env sync fuel gcType secFreed ret r = .ok out →
      ∃ rounds : List RoundCollect,
        collections out.2.log = collections r.log ++ rounds.flatMap RoundCollect.collections ∧
        (∀ c ∈ rounds, c.Valid g) ∧ (∀ c ∈ rounds.tail, c.gcType = .fg) ∧
        (∀ c ∈ rounds.head?, c.gcType = .bg →
          gcType = .bg ∧ env.hasNotEnoughFreeSecs r.world secFreed = false) ∧
        (sync = true → rounds.length ≤ 1)
  | 0, _, _, _, _, _, h => by cases h
  | fuel + 1, gcType, secFreed, ret, r, out, h => by
    rcases gcMore_cases h with ⟨-, rfl⟩ | ⟨t, segno, r1, hv, rfl⟩ |
      ⟨t, segno, r1, i, r2, hv, hc, hnext⟩
    · exact ⟨[], by simp [gcStop_collections sync secFreed ret (⟨[], by simp, nofun⟩ : CheckpointLog r.log r.log)], nofun, nofun,
        nofun, fun _ => Nat.zero_le _⟩
    · have hr1 : CheckpointLog r.log r1.log := by
        simpa only [hv] using roundVictim_log env gcType secFreed r
      exact ⟨[], by simp [gcStop_collections sync secFreed ret hr1], nofun, nofun, nofun,
        fun _ => Nat.zero_le _⟩
    obtain ⟨c, hvalid, rfl, -, hl⟩ := round_collections hv hc
    have hhead : c.gcType = .bg → gcType = .bg ∧ env.hasNotEnoughFreeSecs r.world secFreed = false :=
      fun hb => roundVictim_bg (hb ▸ hv)
    rcases hnext with ⟨hsync, hshort, hrec⟩ | rfl
    · obtain ⟨rounds, hcol, hval, htail, hhead', -⟩ := gcMore_collections sync hrec
      refine ⟨c :: rounds, by rw [hcol, endRound_log, hl]; simp, List.forall_mem_cons.2 ⟨hvalid, hval⟩,
        RoundCollect.all_fg htail fun c' hc' hb => ?_, fun _ h => by cases h; exact hhead,
        fun hs => absurd (hs ▸ hsync) nofun⟩
      rw [(hhead' c' hc' hb).2] at hshort
      cases hshort
    · refine ⟨[c], ?_, by simpa using hvalid, nofun, fun _ h => by cases h; exact hhead,
        fun _ => le_refl _⟩
      rw [gcStop_collections _ _ _ (lastRound_log env sync c.gcType _), endRound_log, hl]
      simp

/-- The collections of any call of `f2fs_gc` that returns are rounds, each the first segments of
one section inside the main area, under one `gc_type`, all of the section in the background;
only the first round can be a background one, and a `sync` call runs at most one round, in the
foreground. -/
theorem f2fsGc_collections (env : Env g W) (sync : Bool) (fuel : Nat) (x : World g W)
    {out : Int × GcState g W} (h : f2fsGc env sync fuel x = .ok out) :
    ∃ rounds : List RoundCollect,
      collections out.2.log = rounds.flatMap RoundCollect.collections ∧
      (∀ c ∈ rounds, c.Valid g) ∧ (∀ c ∈ rounds.tail, c.gcType = .fg) ∧
      (sync = true → rounds.length ≤ 1 ∧ ∀ c ∈ rounds, c.gcType = .fg) := by
  obtain ⟨rounds, hcol, hval, htail, hhead, hone⟩ := gcMore_collections sync h
  refine ⟨rounds, by simpa [collections] using hcol, hval, htail, fun hs => ⟨hone hs, ?_⟩⟩
  subst hs
  exact RoundCollect.all_fg htail fun c hc hb => absurd (hhead c hc hb).1 nofun

theorem f2fsGc_collections_liveNode :
    ∃ out, f2fsGc idleEnv false 1 ⟨liveNodeSit, ()⟩ = .ok out ∧
      ∃ rounds : List RoundCollect,
        collections out.2.log = rounds.flatMap RoundCollect.collections ∧
        (∀ c ∈ rounds, c.Valid twoSegSec) ∧ (∀ c ∈ rounds.tail, c.gcType = .fg) ∧
        (false = true → rounds.length ≤ 1 ∧ ∀ c ∈ rounds, c.gcType = .fg) :=
  have ⟨out, h⟩ := exists_ok_of_isOk
    (show (f2fsGc idleEnv false 1 ⟨liveNodeSit, ()⟩).isOk = true by decide)
  ⟨out, h, f2fsGc_collections idleEnv false 1 _ h⟩

/-- A `sync` call of `f2fs_gc` returns `0` or `-EAGAIN`, and `0` only when it collected every
segment of one section inside the main area, in order, in the foreground. -/
theorem f2fsGc_sync_zero (env : Env g W) (fuel : Nat) (x : World g W)
    {out : Int × GcState g W} (h : f2fsGc env true fuel x = .ok out) :
    (out.1 = 0 ∨ out.1 = -eagain) ∧
      (out.1 = 0 → ∃ m < g.mainSegs, collections out.2.log =
        (List.range' (m / g.segsPerSec * g.segsPerSec) g.segsPerSec).map fun sg => (sg, GcType.fg)) := by
  have h' : gcMore env true fuel .fg 0 (-einval) ⟨x, .empty, [], []⟩ = .ok out := h
  have heagain : -eagain ≠ 0 := by decide
  cases fuel with
  | zero => cases h'
  | succ fuel =>
  rcases gcMore_cases h' with ⟨-, rfl⟩ | ⟨-, -, -, -, rfl⟩ | ⟨t, segno, r1, i, r2, hv, hc, ⟨hs, -⟩ | hout⟩
  · exact ⟨.inr rfl, fun h0 => absurd h0 heagain⟩
  · exact ⟨.inr rfl, fun h0 => absurd h0 heagain⟩
  · cases hs
  obtain ⟨c, hvalid, rfl, hcount, hl⟩ := round_collections hv hc
  have hfg : c.gcType = .fg := by
    cases ht : c.gcType
    · rw [ht] at hv
      exact absurd (roundVictim_bg hv).1 nofun
    · rfl
  have hret : out.1 = if i = g.segsPerSec then 0 else -eagain := by
    rw [hout]
    by_cases hi : i = g.segsPerSec <;> simp [gcStop, freedAfter, hi, hfg]
  by_cases hi : i = g.segsPerSec
  · rw [if_pos hi] at hret
    obtain ⟨m, hm, hstart⟩ := hvalid.start
    refine ⟨.inl hret, fun _ => ⟨m, hm, ?_⟩⟩
    rw [hout, gcStop_collections _ _ _ (lastRound_log env true c.gcType _), endRound_log, hl]
    simp [RoundCollect.collections, collections, hstart, hcount hi, hfg]
  · rw [if_neg hi] at hret
    exact ⟨.inr hret, fun h0 => absurd (hret.symm.trans h0) heagain⟩

theorem f2fsGc_sync_zero_draining :
    ∃ out, f2fsGc drainingEnv true 1 ⟨liveNodeSit, ()⟩ = .ok out ∧
      (out.1 = 0 ∨ out.1 = -eagain) ∧
        (out.1 = 0 → ∃ m < twoSegSec.mainSegs, collections out.2.log =
          (List.range' (m / twoSegSec.segsPerSec * twoSegSec.segsPerSec) twoSegSec.segsPerSec).map
            fun sg => (sg, GcType.fg)) :=
  have ⟨out, h⟩ := exists_ok_of_isOk
    (show (f2fsGc drainingEnv true 1 ⟨liveNodeSit, ()⟩).isOk = true by decide)
  ⟨out, h, f2fsGc_sync_zero drainingEnv 1 _ h⟩

/-! ## Checkpoints -/

/-- The number of checkpoints a log shows. -/
def checkpoints (l : List (Event g)) : Nat :=
  (l.filter fun e => match e with
    | .checkpoint => true
    | _ => false).length

@[simp] theorem checkpoints_nil : checkpoints ([] : List (Event g)) = 0 := rfl

@[simp] theorem checkpoints_append (l₁ l₂ : List (Event g)) :
    checkpoints (l₁ ++ l₂) = checkpoints l₁ + checkpoints l₂ := by
  simp [checkpoints, List.filter_append]

theorem checkpoints_eq_zero {es : List (Event g)} (h : ∀ e ∈ es, e ≠ .checkpoint) :
    checkpoints es = 0 := by
  rw [checkpoints, List.length_eq_zero, List.filter_eq_nil_iff]
  intro e he
  cases e <;> first | exact Bool.false_ne_true | exact absurd rfl (h _ he)

/-- The `stop` label writes no checkpoint. -/
@[simp] theorem checkpoints_stop (is : List Inode) :
    checkpoints (.unlockGcMutex :: is.map (Event.iput (g := g))) = 0 :=
  checkpoints_eq_zero fun e he hc => by subst hc; simp at he

/-- A stretch of a log that writes no checkpoint and collects only under `t`. -/
def Stretch (t : GcType) (es : List (Event g)) : Prop :=
  checkpoints es = 0 ∧ ∀ c ∈ collections es, c.2 = t

theorem Stretch.nil (t : GcType) : Stretch t ([] : List (Event g)) := ⟨rfl, nofun⟩

theorem Stretch.append {t : GcType} {l₁ l₂ : List (Event g)} (h₁ : Stretch t l₁)
    (h₂ : Stretch t l₂) : Stretch t (l₁ ++ l₂) := by
  refine ⟨by rw [checkpoints_append, h₁.1, h₂.1], fun c hc => ?_⟩
  rw [collections_append, List.mem_append] at hc
  exact hc.elim (h₁.2 c) (h₂.2 c)

/-- Victim selection logs nothing but the promotion's checkpoint, which only a round entered
with `BG_GC` writes, and which makes the round a foreground one. -/
theorem roundVictim_promo (gcType : GcType) (secFreed : Nat) (r : GcState g W) :
    ∃ p, (roundVictim env gcType secFreed r).2.2.2.log = r.log ++ p ∧
      (p = [] ∨ p = [.checkpoint] ∧ gcType = .bg ∧ (roundVictim env gcType secFreed r).1 = .fg) := by
  unfold roundVictim promote
  by_cases hp : gcType = .bg ∧ env.hasNotEnoughFreeSecs r.world secFreed = true
  · rw [if_pos hp]; dsimp only; split_ifs <;> simp [hp.1]
  · rw [if_neg hp]; dsimp only; split_ifs <;> simp

/-- The loop over a victim's segments logs a stretch under its `gc_type`. -/
theorem collectSection_stretch (segno : Nat) (t : GcType) :
    ∀ (k i : Nat) (r : GcState g W) {i' : Nat} {r' : GcState g W},
      collectSection env segno t i k r = .ok (i', r') → ∃ es, r'.log = r.log ++ es ∧ Stretch t es
  | 0, i, r, _, _, h => by cases h; exact ⟨[], (List.append_nil _).symm, .nil t⟩
  | k + 1, i, r, i', r', h => by
    unfold collectSection at h
    rcases hd : doGarbageCollect env (segno + i) t r with _ | ⟨n, r1⟩ <;> simp only [hd] at h
    · cases h
    obtain ⟨-, es, hl, hes⟩ := doGarbageCollect_moves hd
    have h1 : Stretch t (Event.collect (segno + i) t r.world.sbi :: es) := by
      refine ⟨checkpoints_eq_zero fun e he hc => ?_, fun c hc => ?_⟩
      · subst hc
        rcases List.mem_cons.1 he with he | he
        · cases he
        · exact hes _ he
      · rw [collections_cons_collect, collections_of_migrating hes, List.mem_singleton] at hc
        rw [hc]
    by_cases hb : n = 0 ∧ t = .fg
    · rw [if_pos hb] at h
      cases h
      exact ⟨_, hl, h1⟩
    · rw [if_neg hb] at h
      obtain ⟨es', hl', h2⟩ := collectSection_stretch segno t k (i + 1) r1 h
      exact ⟨_, by rw [hl', hl, List.append_assoc], h1.append h2⟩

/-- A round that finds its victim and collects it logs the promotion's checkpoint, if it writes
one, then a stretch under its `gc_type` with at least one collection. -/
theorem round_stretch {gcType t : GcType} {secFreed : Nat} {r r1 r2 : GcState g W}
    {segno i : Nat} (hv : roundVictim env gcType secFreed r = (t, true, segno, r1))
    (hc : collectSection env segno t 0 g.segsPerSec r1 = .ok (i, r2)) :
    ∃ p c, r2.log = r.log ++ p ++ c ∧ Stretch t c ∧ collections c ≠ [] ∧
      (p = [] ∨ p = [.checkpoint] ∧ gcType = .bg ∧ t = .fg) := by
  obtain ⟨p, hp, hpc⟩ := @roundVictim_promo g W env gcType secFreed r
  rw [hv] at hp hpc
  obtain ⟨c, hl, hcs⟩ := collectSection_stretch segno t g.segsPerSec 0 r1 hc
  obtain ⟨j, -, hj0, -, hcol⟩ := collectSection_collections segno t g.segsPerSec 0 r1 hc
  have hj := hj0 g.segsPerSec_pos
  refine ⟨p, c, by rw [hl, hp], hcs, fun h0 => ?_, hpc⟩
  simp [hl, h0] at hcol
  omega

/-- The log of `gc_more` around its checkpoints: background collections, the checkpoint of the
promotion to `FG_GC` if one is written, foreground collections, the checkpoint on the way out
of a foreground round of a call that is not `sync`, and the `stop` label. -/
theorem gcMore_checkpoints (sync : Bool) :
    ∀ {fuel : Nat} {gcType : GcType} {secFreed : Nat} {ret : Int} {r : GcState g W}
      {out : Int × GcState g W}, gcMore env sync fuel gcType secFreed ret r = .ok out →
      ∃ (bgPart promo fgPart exit : List (Event g)) (is : List Inode),
        out.2.log = r.log ++ bgPart ++ promo ++ fgPart ++ exit ++ .unlockGcMutex :: is.map Event.iput ∧
        Stretch .bg bgPart ∧ Stretch .fg fgPart ∧ (gcType = .fg → bgPart = []) ∧
        (promo = [] ∨ promo = [.checkpoint] ∧ gcType = .bg) ∧
        (exit = [] ∨ exit = [.checkpoint] ∧ sync = false ∧ collections fgPart ≠ [])
  | 0, _, _, _, _, _, h => by cases h
  | fuel + 1, gcType, secFreed, ret, r, out, h => by
    rcases gcMore_cases h with ⟨-, rfl⟩ | ⟨t, segno, r1, hv, rfl⟩ |
      ⟨t, segno, r1, i, r2, hv, hc, hnext⟩
    · obtain ⟨is, hs⟩ := gcStop_log env sync secFreed ret r
      exact ⟨[], [], [], [], is, by simpa using hs, .nil _, .nil _, fun _ => rfl, .inl rfl, .inl rfl⟩
    · obtain ⟨p, hp, hpc⟩ := @roundVictim_promo g W env gcType secFreed r
      rw [hv] at hp hpc
      obtain ⟨is, hs⟩ := gcStop_log env sync secFreed ret r1
      exact ⟨[], p, [], [], is, by rw [hs, hp]; simp, .nil _, .nil _, fun _ => rfl,
        hpc.imp_right fun h => ⟨h.1, h.2.1⟩, .inl rfl⟩
    obtain ⟨p, c, hl, hcs, hcne, hpc⟩ := round_stretch hv hc
    cases t with
    | bg =>
      -- a background round: no promotion, in a call entered with `BG_GC`
      obtain rfl : p = [] := hpc.resolve_right fun h => nomatch h.2.2
      obtain rfl : gcType = .bg := (roundVictim_bg hv).1
      rcases hnext with ⟨-, -, hrec⟩ | rfl
      · obtain ⟨A, P, B, E, is, hout, hA, hB, -, hP, hE⟩ := gcMore_checkpoints sync hrec
        exact ⟨c ++ A, P, B, E, is, by rw [hout, endRound_log, hl]; simp, hcs.append hA, hB,
          nofun, hP, hE⟩
      · obtain ⟨is, hs⟩ := gcStop_log env sync (freedAfter g .bg i secFreed) 0
          (lastRound env sync .bg (endRound .bg r2))
        exact ⟨c, [], [], [], is, by rw [hs]; simp [lastRound, hl], hcs, .nil _, nofun, .inl rfl, .inl rfl⟩
    | fg =>
      have hp : p = [] ∨ p = [.checkpoint] ∧ gcType = .bg := hpc.imp_right fun h => ⟨h.1, h.2.1⟩
      rcases hnext with ⟨-, -, hrec⟩ | rfl
      · -- the rounds after a foreground one are foreground ones, with no promotion
        obtain ⟨A, P, B, E, is, hout, -, hB, hA, hP, hE⟩ := gcMore_checkpoints sync hrec
        obtain rfl := hA rfl
        obtain rfl : P = [] := hP.resolve_right fun h => nomatch h.2
        refine ⟨[], p, c ++ B, E, is, by rw [hout, endRound_log, hl]; simp, .nil _, hcs.append hB,
          fun _ => rfl, hp, hE.imp_right fun h => ⟨h.1, h.2.1, ?_⟩⟩
        rw [collections_append]
        exact fun h0 => hcne (List.append_eq_nil.1 h0).1
      · obtain ⟨is, hs⟩ := gcStop_log env sync (freedAfter g .fg i secFreed) 0
          (lastRound env sync .fg (endRound .fg r2))
        cases sync
        · exact ⟨[], p, c, [.checkpoint], is, by rw [hs]; simp [lastRound, hl], .nil _, hcs,
            fun _ => rfl, hp, .inr ⟨rfl, rfl, hcne⟩⟩
        · exact ⟨[], p, c, [], is, by rw [hs]; simp [lastRound, hl], .nil _, hcs, fun _ => rfl, hp,
            .inl rfl⟩

/-- A call of `f2fs_gc` writes at most two checkpoints, and a `sync` call writes none. Its log
is background collections, the checkpoint of the promotion to `FG_GC` if one is written, then
only foreground collections, the checkpoint on the way out after a foreground round, and the
`stop` label; a `sync` call writes neither checkpoint and collects nothing in the background. -/
theorem f2fsGc_checkpoints (env : Env g W) (sync : Bool) (fuel : Nat) (x : World g W)
    {out : Int × GcState g W} (h : f2fsGc env sync fuel x = .ok out) :
    (∃ (bgPart promo fgPart exit : List (Event g)) (is : List Inode),
      out.2.log = bgPart ++ promo ++ fgPart ++ exit ++ .unlockGcMutex :: is.map Event.iput ∧
      Stretch .bg bgPart ∧ Stretch .fg fgPart ∧ (sync = true → bgPart = []) ∧
      (promo = [] ∨ promo = [.checkpoint] ∧ sync = false) ∧
      (exit = [] ∨ exit = [.checkpoint] ∧ sync = false ∧ collections fgPart ≠ [])) ∧
    checkpoints out.2.log ≤ 2 ∧ (sync = true → checkpoints out.2.log = 0) := by
  obtain ⟨A, P, B, E, is, hl, hA, hB, hA0, hP, hE⟩ := gcMore_checkpoints sync h
  have hP' : P = [] ∨ P = [.checkpoint] ∧ sync = false := by cases sync <;> simpa using hP
  have hone : ∀ {l : List (Event g)}, l = [] ∨ l = [.checkpoint] ∧ sync = false →
      checkpoints l ≤ 1 ∧ (sync = true → checkpoints l = 0) := by
    rintro _ (rfl | ⟨rfl, rfl⟩) <;> simp [checkpoints]
  have hsum : checkpoints out.2.log = checkpoints P + checkpoints E := by
    simp [hl, hA.1, hB.1]
  obtain ⟨hP1, hP0⟩ := hone hP'
  obtain ⟨hE1, hE0⟩ := hone (hE.imp_right fun h => ⟨h.1, h.2.1⟩)
  refine ⟨⟨A, P, B, E, is, by simpa using hl, hA, hB, fun hs => hA0 (by simp [hs]), hP', hE⟩,
    by omega, fun hs => by rw [hsum, hP0 hs, hE0 hs]⟩

theorem f2fsGc_checkpoints_draining :
    ∃ out, f2fsGc drainingEnv false 3 ⟨liveNodeSit, ()⟩ = .ok out ∧
      ((∃ (bgPart promo fgPart exit : List (Event twoSegSec)) (is : List Inode),
        out.2.log = bgPart ++ promo ++ fgPart ++ exit ++ .unlockGcMutex :: is.map Event.iput ∧
        Stretch .bg bgPart ∧ Stretch .fg fgPart ∧ (false = true → bgPart = []) ∧
        (promo = [] ∨ promo = [.checkpoint] ∧ false = false) ∧
        (exit = [] ∨ exit = [.checkpoint] ∧ false = false ∧ collections fgPart ≠ [])) ∧
      checkpoints out.2.log ≤ 2 ∧ (false = true → checkpoints out.2.log = 0)) :=
  have ⟨out, h⟩ := exists_ok_of_isOk
    (show (f2fsGc drainingEnv false 3 ⟨liveNodeSit, ()⟩).isOk = true by decide)
  ⟨out, h, f2fsGc_checkpoints drainingEnv false 3 _ h⟩

end F2fsGc
