import F2fsGc.Proof.Round

/-!
# Which routine a data block is handed to

Phase 2 of `gc_data_segment` records in `array[off]` whether the block's page was cached and
dirty (`1`), cached and clean (`2`) or not up to date (`3`), and phase 3 dispatches on
`array[off] == 1 || gc_type == BG_GC`. `do_garbage_collect` calls `gc_data_segment` only under
`BG_GC` (`gc_data_segment_FG` takes the foreground), so the test is always true there and
`move_data_page` gets every block, whatever phase 2 recorded; `gc_data_segment_FG` has no other
routine. `change_data_page` is never called (`f2fsGc_never_remaps`), and a clean cached page is
moved like a dirty one (`gcDataSegment_clean_page_moved`).
-/

set_option autoImplicit false

namespace F2fsGc

variable {g : Geometry} {W : Type}

/-- `idleEnv` with a data segment: block 0 of segment 0 is slot 0 of node 5, the inode 7
itself, whose page is cached and clean. -/
def cleanPageEnv : Env twoSegSec Unit :=
  { idleEnv with
    getSumPage := fun _ _ => ⟨.data, fun _ => ⟨5, 0, 0⟩⟩
    getNodePage := fun x _ => (some ⟨0, fun _ => 0⟩, x)
    getNodeInfo := fun _ _ => ⟨7, 0, 0⟩
    iget := fun x _ _ => (some ⟨7, 1, false, false, true, 923⟩, x)
    getCachedDataPage := fun x _ _ => (some ⟨true, false⟩, x) }

/-- No call of `f2fs_gc` that returns has handed a block to `change_data_page`. -/
theorem f2fsGc_never_remaps (env : Env g W) (sync : Bool) (fuel : Nat) (x : World g W)
    {out : Int × GcState g W} (h : f2fsGc env sync fuel x = .ok out) :
    ∀ segno off how i bidx cls, Event.migrate segno off how i bidx cls ∈ out.2.log →
      how ≠ .changeData := by
  intro segno off how i bidx cls hm
  obtain ⟨es, is, hl, hes⟩ := gcMore_log h
  rw [hl] at hm
  simp only [List.nil_append, List.mem_append, List.mem_cons, List.mem_map] at hm
  rcases hm with hm | hm | ⟨_, -, hm⟩
  · exact hes _ hm
  · cases hm
  · cases hm

theorem f2fsGc_never_remaps_cleanPage :
    ∃ out, f2fsGc cleanPageEnv false 1 ⟨liveNodeSit, ()⟩ = .ok out ∧
      ∀ segno off how i bidx cls, Event.migrate segno off how i bidx cls ∈ out.2.log →
        how ≠ .changeData :=
  have ⟨out, h⟩ := exists_ok_of_isOk
    (show (f2fsGc cleanPageEnv false 1 ⟨liveNodeSit, ()⟩).isOk = true by decide)
  ⟨out, h, f2fsGc_never_remaps cleanPageEnv false 1 _ h⟩

/-- The phase-3 hand-overs of a log: segment, offset, routine, and `array[off]`. -/
def handovers (l : List (Event g)) : List (Nat × Nat × Migration × Nat) :=
  l.filterMap fun e => match e with
    | .migrate segno off how _ _ cls => some (segno, off, how, cls)
    | _ => none

/-- A background collection of that segment records the clean page (`array[0] = 2`) and
still hands the block to `move_data_page`. -/
theorem gcDataSegment_clean_page_moved :
    (match doGarbageCollect cleanPageEnv 0 .bg ⟨⟨liveNodeSit, ()⟩, .empty, [], []⟩ with
      | .ok (_, r) => handovers r.log
      | .error _ => []) = [(0, 0, .moveData, 2)] := by
  decide

end F2fsGc
