import F2fsGc.Proof.Termination

/-!
# What `f2fs_gc` returns

`gc_thread_func` reads the return value as "if return value is not zero, no victim was
selected", and sleeps `no_gc_sleep_time` when it is not zero. A victim that is selected is
collected: its first `do_garbage_collect` logs `Event.collect`. So the contract is that a call
returning non-zero logs no collection.

Without `sync` it holds. `ret` starts at `-EINVAL`, the first round that finds a victim sets it
to `0`, and nothing sets it again; so a non-zero return is `-EINVAL` from a call whose rounds
found nothing (`f2fsGc_nonzero_no_victim`).

With `sync` it does not: the `stop` label overwrites `ret` with `sec_freed ? 0 : -EAGAIN`, and a
foreground round that selects its victim but cannot free all of the section leaves
`sec_freed = 0`. The thread makes such calls when `FORCE_FG_GC` is set
(`f2fsGc_sync_eagain_after_victim`).
-/

set_option autoImplicit false

namespace F2fsGc

variable {g : Geometry} {W : Type}

/-- The segments a log shows collected, in order. -/
def collectedSegs (l : List (Event g)) : List Nat :=
  l.filterMap fun e => match e with
    | .collect sg _ _ => some sg
    | _ => none

variable {env : Env g W}

/-- The `stop` label after a checkpoint-only stretch adds no collection. -/
theorem gcStop_noCollect (sync : Bool) (secFreed : Nat) (ret : Int) {r r1 : GcState g W}
    (hl : CheckpointLog r.log r1.log) :
    ∃ es, (gcStop env sync secFreed ret r1).2.log = r.log ++ es ∧
      ∀ e ∈ es, ∀ segno t s, e ≠ .collect segno t s := by
  obtain ⟨cs, hcs, hc⟩ := hl
  obtain ⟨is, his⟩ := gcStop_log env sync secFreed ret r1
  refine ⟨cs ++ .unlockGcMutex :: is.map Event.iput, by rw [his, hcs, List.append_assoc], ?_⟩
  intro e he segno t s hce
  subst hce
  simp only [List.mem_append, List.mem_cons, List.mem_map] at he
  rcases he with he | he | ⟨_, -, he⟩
  · cases hc _ he
  · cases he
  · cases he

/-- Without `sync`, a call from `gc_more` returns `0`, or the `ret` it was given with no
collection logged. -/
theorem gcMore_ret :
    ∀ {fuel : Nat} {gcType : GcType} {secFreed : Nat} {ret : Int} {r : GcState g W}
      {out : Int × GcState g W}, gcMore env false fuel gcType secFreed ret r = .ok out →
      out.1 = 0 ∨ (out.1 = ret ∧ ∃ es, out.2.log = r.log ++ es ∧
        ∀ e ∈ es, ∀ segno t s, e ≠ .collect segno t s)
  | 0, _, _, _, _, _, h => by cases h
  | fuel + 1, gcType, secFreed, ret, r, out, h => by
    rcases gcMore_cases h with ⟨-, rfl⟩ | ⟨t, segno, r1, hv, rfl⟩ |
      ⟨t, segno, r1, i, r2, hv, -, ⟨-, -, hnext⟩ | rfl⟩
    · exact .inr ⟨rfl, gcStop_noCollect false secFreed ret ⟨[], by simp, by simp⟩⟩
    · exact .inr ⟨rfl, gcStop_noCollect false secFreed ret (by
        simpa only [hv] using roundVictim_log env gcType secFreed r)⟩
    · exact .inl ((gcMore_ret hnext).elim id (·.1))
    · exact .inl rfl

/-- A call of `f2fs_gc(sbi, false)` that returns non-zero returns `-EINVAL` and collected
nothing: the contract `gc_thread_func` states holds for background calls. -/
theorem f2fsGc_nonzero_no_victim (env : Env g W) (fuel : Nat) (x : World g W)
    {out : Int × GcState g W} (h : f2fsGc env false fuel x = .ok out) (hne : out.1 ≠ 0) :
    out.1 = -einval ∧ ∀ segno t s, Event.collect segno t s ∉ out.2.log := by
  have h' : gcMore env false fuel .bg 0 (-einval) ⟨x, .empty, [], []⟩ = .ok out := h
  rcases gcMore_ret h' with h0 | ⟨h1, es, hl, hes⟩
  · exact absurd h0 hne
  · refine ⟨h1, fun segno t s hm => hes _ ?_ segno t s rfl⟩
    rwa [hl, List.nil_append] at hm

/-- `liveNodeSit` with nothing dirty. -/
def cleanSit : Sbi twoSegSec :=
  { liveNodeSit with dirtySegmap := fun _ _ => false, nrDirty := fun _ => 0,
                     dirty_lt := fun _ _ h => Bool.noConfusion h }

theorem f2fsGc_nonzero_no_victim_clean :
    ∃ out, f2fsGc idleEnv false 1 ⟨cleanSit, ()⟩ = .ok out ∧ out.1 ≠ 0 ∧
      out.1 = -einval ∧ ∀ segno t s, Event.collect segno t s ∉ out.2.log :=
  ⟨_, rfl, by decide, f2fsGc_nonzero_no_victim idleEnv 1 ⟨cleanSit, ()⟩ rfl (by decide)⟩

/-- A `sync` call over the live block of the inode `f2fs_iget` cannot load: its foreground round
selects section 0 and collects segment 0, which keeps the block, so `sec_freed` stays `0` and
the call returns `-EAGAIN` after selecting a victim. -/
theorem f2fsGc_sync_eagain_after_victim :
    (match f2fsGc livelockEnv true 1 ⟨liveNodeSit, ()⟩ with
      | .ok (ret, r) => (ret, collectedSegs r.log)
      | .error _ => (0, [])) = (-eagain, [0]) := by
  decide

end F2fsGc
