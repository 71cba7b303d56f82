import F2fsGc.Model.Gc

/-!
# The background collector thread

`gc_thread_func`: a loop that sleeps for `wait_ms`, skips a frozen filesystem, takes
`gc_mutex` with `mutex_trylock`, gives it back at once when the device is busy, and otherwise
tunes its sleep and calls `f2fs_gc`, which gives `gc_mutex` back at its `stop` label. Then
`f2fs_balance_fs_bg`, and again until `kthread_should_stop()`.

The thread's collaborators are those of `f2fs_gc` and the kernel calls of the loop
(`ThreadEnv`). `increase_sleep_time` and `decrease_sleep_time` are defined in `gc.h`, which is
not part of the source: they are modelled from the spec, which bounds the wait to
`[min_sleep, max_sleep]` and moves it by `min_sleep` per event.

The thread's trace records the points of the loop where `gc_mutex` matters: `try_to_freeze`,
the interruptible wait, each `mutex_trylock` and each release, and `f2fs_balance_fs_bg`. The
releases inside `f2fs_gc` are read off its log.

The loop runs until the thread is stopped, possibly forever: `gcThreadLoop` runs at most `n`
passes, so that each `n` gives a prefix of the run. Each call of `f2fs_gc` is given `gcFuel`
rounds of `gc_more`.
-/

set_option autoImplicit false

namespace F2fsGc

/-- A point of the thread's loop where `gc_mutex` matters (ghost). -/
inductive ThreadEvent where
  /-- `try_to_freeze()`. -/
  | freeze
  /-- `wait_event_interruptible_timeout(...)`. -/
  | wait
  /-- `mutex_trylock(&sbi->gc_mutex)`, and whether it took the mutex. -/
  | trylock (ok : Bool)
  /-- A release of `gc_mutex`: the `mutex_unlock` for a busy device, or (`atStop`) the one at
  `f2fs_gc`'s `stop` label. -/
  | unlock (atStop : Bool)
  /-- `f2fs_balance_fs_bg(sbi)`. -/
  | balance
  deriving DecidableEq, Repr

variable {g : Geometry} {W : Type}

/-- The collaborators of `gc_thread_func`. -/
structure ThreadEnv (g : Geometry) (W : Type) where
  /-- Those of `f2fs_gc`. -/
  gc : Env g W
  /-- `try_to_freeze()`. -/
  tryToFreeze : World g W → Bool × World g W
  /-- `wait_event_interruptible_timeout(*wq, kthread_should_stop(), msecs_to_jiffies(wait_ms))`. -/
  waitEvent : World g W → Nat → World g W
  /-- `kthread_should_stop()`. -/
  kthreadShouldStop : World g W → Bool
  /-- `sbi->sb->s_writers.frozen >= SB_FREEZE_WRITE`. -/
  frozen : World g W → Bool
  /-- Whether `mutex_trylock(&sbi->gc_mutex)` finds the mutex free. -/
  mutexTrylock : World g W → Bool
  /-- `is_idle(sbi)`. -/
  isIdle : World g W → Bool
  /-- `has_enough_invalid_blocks(sbi)`. -/
  hasEnoughInvalidBlocks : World g W → Bool
  /-- `test_opt(sbi, FORCE_FG_GC)`. -/
  forceFgGc : Bool
  /-- `f2fs_balance_fs_bg(sbi)`. -/
  balanceFsBg : World g W → World g W

/-- The thread's state: the world, `wait_ms`, and the trace (ghost). -/
structure ThreadState (g : Geometry) (W : Type) where
  world : World g W
  waitMs : Nat
  trace : List ThreadEvent

/-- Modelled from the spec: `increase_sleep_time(gc_th, &wait)` (in `gc.h`, which is not part of
the source) moves the wait one step of `min_sleep` up, to at most `max_sleep`. -/
def increaseSleepTime (th : GcKthread) (wait : Nat) : Nat :=
  min (wait + th.minSleepTime) th.maxSleepTime

/-- Modelled from the spec: `decrease_sleep_time(gc_th, &wait)` (in `gc.h`, which is not part of
the source) moves the wait one step of `min_sleep` down, to at least `min_sleep`. -/
def decreaseSleepTime (th : GcKthread) (wait : Nat) : Nat :=
  max (wait - th.minSleepTime) th.minSleepTime

/-- The releases of `gc_mutex` in a log of `f2fs_gc`, as trace events. -/
def gcUnlocks (l : List (Event g)) : List ThreadEvent :=
  l.filterMap fun e => match e with
    | .unlockGcMutex => some (.unlock true)
    | _ => none

/-- One pass of the body of `gc_thread_func`'s `do`-`while` loop; `true` is the `break`. -/
def gcThreadBody (tenv : ThreadEnv g W) (th : GcKthread) (gcFuel : Nat) (st : ThreadState g W) :
    Except Fault (Bool × ThreadState g W) :=
  let (frozenNow, x) := tenv.tryToFreeze st.world
  let st : ThreadState g W := { st with world := x, trace := st.trace ++ [.freeze] }
  if frozenNow then .ok (false, st)
  else
    let st : ThreadState g W :=
      { st with world := tenv.waitEvent st.world st.waitMs, trace := st.trace ++ [.wait] }
    if tenv.kthreadShouldStop st.world then .ok (true, st)
    else if tenv.frozen st.world then .ok (false, { st with waitMs := increaseSleepTime th st.waitMs })
    else if tenv.mutexTrylock st.world = false then
      .ok (false, { st with trace := st.trace ++ [.trylock false] })
    else
      let st : ThreadState g W := { st with trace := st.trace ++ [.trylock true] }
      if tenv.isIdle st.world = false then
        .ok (false, { st with waitMs := increaseSleepTime th st.waitMs,
                              trace := st.trace ++ [.unlock false] })
      else
        let waitMs := if tenv.hasEnoughInvalidBlocks st.world then decreaseSleepTime th st.waitMs
          else increaseSleepTime th st.waitMs
        match f2fsGc tenv.gc tenv.forceFgGc gcFuel st.world with
        | .error e => .error e
        | .ok (ret, r) =>
          .ok (false, { world := tenv.balanceFsBg r.world,
                        waitMs := if ret ≠ 0 then th.noGcSleepTime else waitMs,
                        trace := st.trace ++ gcUnlocks r.log ++ [.balance] })

/-- At most `n` passes of the loop, each followed by its `while (!kthread_should_stop())`. -/
def gcThreadLoop (tenv : ThreadEnv g W) (th : GcKthread) (gcFuel : Nat) :
    Nat → ThreadState g W → Except Fault (ThreadState g W)
  | 0, st => .ok st
  | n + 1, st =>
    match gcThreadBody tenv th gcFuel st with
    | .error e => .error e
    | .ok (true, st) => .ok st
    | .ok (false, st) => if tenv.kthreadShouldStop st.world then .ok st else gcThreadLoop tenv th gcFuel n st

/-- `gc_thread_func(sbi)` for the thread's tunables `th`, over at most `n` passes. -/
def gcThreadFunc (tenv : ThreadEnv g W) (th : GcKthread) (gcFuel n : Nat) (x : World g W) :
    Except Fault (ThreadState g W) :=
  gcThreadLoop tenv th gcFuel n ⟨x, th.minSleepTime, []⟩

end F2fsGc
