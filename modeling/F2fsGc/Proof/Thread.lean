import F2fsGc.Model.Thread
import F2fsGc.Proof.Round

/-!
# `gc_mutex` in the background thread

The thread may be at `try_to_freeze`, at the interruptible wait, at a `mutex_trylock` or in
`f2fs_balance_fs_bg` only without `gc_mutex`; a successful `mutex_trylock` takes it, and a
release needs it. `lockRun` reads a trace against these rules, from whether the thread holds
the mutex; a trace obeys them, ending without the mutex, when `lockRun false` gives
`some false`.

`gcThreadFunc_gcMutex` is the discipline: every call of `f2fs_gc` that returns has passed its
`stop` label exactly once, so releases the mutex exactly once, and every run of the thread
obeys the rules. Each pass of the loop either never takes the mutex or takes it and gives it
back once, at line 69 for a busy device or at `f2fs_gc`'s `stop` label.
-/

set_option autoImplicit false

namespace F2fsGc

variable {g : Geometry} {W : Type}

/-- One trace event, from whether the thread holds `gc_mutex`: where it leaves the thread, or
`none` where the event breaks the rules. -/
def lockStep : Bool → ThreadEvent → Option Bool
  | false, .freeze | false, .wait | false, .balance => some false
  | false, .trylock ok => some ok
  | true, .unlock _ => some false
  | _, _ => none

/-- A trace, from whether the thread holds `gc_mutex`. -/
def lockRun : Bool → List ThreadEvent → Option Bool
  | held, [] => some held
  | held, e :: es => (lockStep held e).bind fun h => lockRun h es

theorem lockRun_append (held : Bool) (l₁ l₂ : List ThreadEvent) :
    lockRun held (l₁ ++ l₂) = (lockRun held l₁).bind fun h => lockRun h l₂ := by
  induction l₁ generalizing held with
  | nil => rfl
  | cons e es ih =>
    simp only [List.cons_append, lockRun]
    cases lockStep held e <;> simp [ih]

/-- Traces that leave the mutex free compose. -/
theorem lockRun_free_append {l₁ l₂ : List ThreadEvent} (h₁ : lockRun false l₁ = some false)
    (h₂ : lockRun false l₂ = some false) : lockRun false (l₁ ++ l₂) = some false := by
  rw [lockRun_append, h₁]; exact h₂

/-! ## `f2fs_gc` releases the mutex once -/

theorem gcUnlocks_append (l₁ l₂ : List (Event g)) : gcUnlocks (l₁ ++ l₂) = gcUnlocks l₁ ++ gcUnlocks l₂ :=
  List.filterMap_append _ _ _

theorem gcUnlocks_of_round {es : List (Event g)} (h : ∀ e ∈ es, Event.Round e) : gcUnlocks es = [] := by
  refine List.filterMap_eq_nil_iff.2 fun e he => ?_
  have := h e he
  cases e <;> first | rfl | exact this.elim

theorem gcUnlocks_iputs (is : List Inode) : gcUnlocks (is.map (Event.iput (g := g))) = [] :=
  List.filterMap_eq_nil_iff.2 fun e he => by obtain ⟨i, -, rfl⟩ := List.mem_map.1 he; rfl

/-- Every call of `f2fs_gc` that returns passed its `stop` label once. -/
theorem f2fsGc_unlocks_once {env : Env g W} {sync : Bool} {fuel : Nat} {x : World g W}
    {out : Int × GcState g W} (h : f2fsGc env sync fuel x = .ok out) :
    gcUnlocks out.2.log = [.unlock true] := by
  obtain ⟨es, is, hl, hes⟩ := gcMore_log h
  rw [hl, ← List.singleton_append, gcUnlocks_append, gcUnlocks_append, gcUnlocks_append,
    gcUnlocks_of_round hes, gcUnlocks_iputs]
  rfl

/-! ## The loop -/

section Loop

variable {tenv : ThreadEnv g W} {th : GcKthread} {gcFuel : Nat}

/-- One pass of the loop extends the trace by events that obey the rules and leave the mutex
free. -/
theorem gcThreadBody_lock {st st' : ThreadState g W} {b : Bool}
    (h : gcThreadBody tenv th gcFuel st = .ok (b, st')) :
    ∃ es, st'.trace = st.trace ++ es ∧ lockRun false es = some false := by
  unfold gcThreadBody at h
  rcases hf : tenv.tryToFreeze st.world with ⟨_ | _, x⟩ <;>
    simp only [hf, Bool.false_eq_true, if_false, if_true] at h
  · generalize tenv.waitEvent x st.waitMs = y at h
    by_cases h1 : tenv.kthreadShouldStop y = true
    · rw [if_pos h1] at h; cases h; exact ⟨[.freeze, .wait], by simp, rfl⟩
    by_cases h2 : tenv.frozen y = true
    · rw [if_neg h1, if_pos h2] at h; cases h; exact ⟨[.freeze, .wait], by simp, rfl⟩
    by_cases h3 : tenv.mutexTrylock y = false
    · rw [if_neg h1, if_neg h2, if_pos h3] at h; cases h
      exact ⟨[.freeze, .wait, .trylock false], by simp, rfl⟩
    by_cases h4 : tenv.isIdle y = false
    · rw [if_neg h1, if_neg h2, if_neg h3, if_pos h4] at h; cases h
      exact ⟨[.freeze, .wait, .trylock true, .unlock false], by simp, rfl⟩
    rw [if_neg h1, if_neg h2, if_neg h3, if_neg h4] at h
    split at h
    · cases h
    · rename_i ret r hgc
      cases h
      refine ⟨[.freeze, .wait, .trylock true] ++ gcUnlocks r.log ++ [.balance], by simp, ?_⟩
      rw [f2fsGc_unlocks_once hgc]
      rfl
  · cases h; exact ⟨[.freeze], by simp, rfl⟩

theorem gcThreadLoop_lock :
    ∀ (n : Nat) (st : ThreadState g W) {st' : ThreadState g W},
      gcThreadLoop tenv th gcFuel n st = .ok st' →
      ∃ es, st'.trace = st.trace ++ es ∧ lockRun false es = some false
  | 0, st, st', h => by cases h; exact ⟨[], by simp, rfl⟩
  | n + 1, st, st', h => by
    unfold gcThreadLoop at h
    rcases hb : gcThreadBody tenv th gcFuel st with _ | ⟨b, st1⟩ <;> simp only [hb] at h
    · cases h
    obtain ⟨es1, hl1, hr1⟩ := gcThreadBody_lock hb
    have last : st' = st1 → ∃ es, st'.trace = st.trace ++ es ∧ lockRun false es = some false :=
      fun h' => ⟨es1, h' ▸ hl1, hr1⟩
    cases b
    · simp only [Bool.false_eq_true, if_false] at h
      split_ifs at h
      · exact last (Except.ok.inj h).symm
      · obtain ⟨es2, hl2, hr2⟩ := gcThreadLoop_lock n st1 h
        exact ⟨es1 ++ es2, by rw [hl2, hl1, List.append_assoc], lockRun_free_append hr1 hr2⟩
    · exact last (Except.ok.inj h).symm

end Loop

/-- `gc_mutex` in `gc_thread_func`: every call of `f2fs_gc` that returns releases the mutex
exactly once, at its `stop` label; and in every run of the thread, the mutex is held only
between a successful `mutex_trylock` and one release, never at `try_to_freeze`, at the wait,
in `f2fs_balance_fs_bg` or at a `mutex_trylock`, and not when the run ends. -/
theorem gcThreadFunc_gcMutex (tenv : ThreadEnv g W) (th : GcKthread) (gcFuel n : Nat)
    (x : World g W) :
    (∀ sync fuel (y : World g W) out, f2fsGc tenv.gc sync fuel y = .ok out →
        gcUnlocks out.2.log = [.unlock true]) ∧
      ∀ st, gcThreadFunc tenv th gcFuel n x = .ok st → lockRun false st.trace = some false :=
  ⟨fun _ _ _ _ h => f2fsGc_unlocks_once h, fun _ h => by
    obtain ⟨es, hl, hr⟩ := gcThreadLoop_lock n _ h
    simpa [hl] using hr⟩

/-- A thread that never freezes nor stops, always finds the mutex free and the device idle, over
the idle collaborators of `Proof/Round.lean`. -/
def idleThread : ThreadEnv twoSegSec Unit where
  gc := idleEnv
  tryToFreeze := fun x => (false, x)
  waitEvent := fun x _ => x
  kthreadShouldStop := fun _ => false
  frozen := fun _ => false
  mutexTrylock := fun _ => true
  isIdle := fun _ => true
  hasEnoughInvalidBlocks := fun _ => true
  forceFgGc := false
  balanceFsBg := id

theorem gcThreadFunc_gcMutex_idle :
    (∃ out, f2fsGc idleEnv false 1 ⟨liveNodeSit, ()⟩ = .ok out ∧ gcUnlocks out.2.log = [.unlock true]) ∧
      ∃ st, gcThreadFunc idleThread ⟨30, 60, 300, 0⟩ 1 2 ⟨liveNodeSit, ()⟩ = .ok st ∧
        lockRun false st.trace = some false :=
  ⟨⟨_, rfl, (gcThreadFunc_gcMutex idleThread ⟨30, 60, 300, 0⟩ 1 2 ⟨liveNodeSit, ()⟩).1 false 1
      ⟨liveNodeSit, ()⟩ _ rfl⟩,
    ⟨_, rfl, (gcThreadFunc_gcMutex idleThread ⟨30, 60, 300, 0⟩ 1 2 ⟨liveNodeSit, ()⟩).2 _ rfl⟩⟩

end F2fsGc
