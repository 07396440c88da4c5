import Mathlib.Logic.Function.Iterate
import RvPipeSim.Lib.ObservedRun
import RvPipeSim.Signals

/-!
# Runs of the pipeline

A run of the pipelined simulator is any sequence of cycles, cut into calls of `runCycles`
in any way: between two calls the miss state is parked in the caches and loaded back
(`reenter`). It instantiates the observed runs of the library, so every state from which
a cycle was taken is on record.

`haltTrace` lists those states for `runTillHalt`, and `run_of_runTillHalt` is the bridge:
what a halting `runTillHalt` did is a run in which only the last cycle returned HALT.
-/

namespace RvPipeSim

open ObservedRun

/-- Leave `runCycles` and enter it again. -/
def reenter (s : LoopState) : LoopState := enter (leave s)

/-- A run from `start`, in calls of `runCycles`, whose cycles all meet `ok`. -/
abbrev RunFrom (fault : Fault) (ok : LoopState → Prop) (start : LoopState) :
    List LoopState → LoopState → Prop :=
  Run (cycle fault) reenter ok start

/-- A run from the initial state of a memory image and two cache configurations. -/
abbrev PipelineRun (fault : Fault) (ok : LoopState → Prop)
    (iCacheConfig dCacheConfig : CacheConfig) (mem : MemoryStore) :
    List LoopState → LoopState → Prop :=
  RunFrom fault ok (enter (initSimulator iCacheConfig dCacheConfig mem))

/-- No condition on a cycle. -/
abbrev anyCycle : LoopState → Prop := fun _ => True

/-- `n` cycles in one call of `runCycles` are a run. -/
theorem run_iterate {fault : Fault} {ok : LoopState → Prop} {start : LoopState} {n : ℕ}
    (hok : ∀ k < n, ok ((cycle fault)^[k] start)) :
    RunFrom fault ok start ((List.range n).map fun k => (cycle fault)^[k] start)
      ((cycle fault)^[n] start) := by
  induction n with
  | zero => exact .refl
  | succ n ih =>
      rw [List.range_succ, List.map_append, Function.iterate_succ_apply']
      exact .next (ih fun k hk => hok k (by omega)) (hok n (by omega))

/-- The cycle from `s` returns HALT. -/
def LoopState.halts (fault : Fault) (s : LoopState) : Bool := (cycle fault s).wbInst.isHalt

namespace LoopState

variable {s : LoopState}

/-- What WB holds after an unfrozen cycle. -/
theorem wbInst_cycle (fault : Fault) (hz : s.frozen = false) :
    (cycle fault s).wbInst = (s.simulator.simWB s.memInst).1 := by
  rw [cycle_wbInst, wbStage, if_neg (by simp [hz])]

/-- A cycle that is not frozen halts iff a HALT goes from MEM to WB. -/
theorem halts_eq (fault : Fault) (hz : s.frozen = false) :
    s.halts fault = s.memInst.isHalt := by
  rw [halts, wbInst_cycle fault hz, simWB_toDecodeInfo]

/-- A frozen cycle does not return HALT. -/
theorem not_frozen_of_halts {fault : Fault} (h : s.halts fault = true) : s.frozen = false := by
  by_contra hz
  rw [Bool.not_eq_false] at hz
  rw [halts, cycle_wbInst, wbStage, if_pos hz] at h
  exact Bool.noConfusion h

/-- What halts the simulator comes from MEM. -/
theorem memInst_of_halts {fault : Fault} (h : s.halts fault = true) :
    s.memInst.isHalt = true :=
  (halts_eq fault (not_frozen_of_halts h)).symm.trans h

end LoopState

/-- The states from which `runTillHalt` takes its cycles. -/
def haltTrace (fault : Fault) : ℕ → Machine → List LoopState
  | 0, _ => []
  | fuel + 1, m =>
      enter m ::
        match runCycles fault 1 m with
        | (.halt, _) => []
        | (_, m) => haltTrace fault fuel m

/-- What `runCycles(1)` returns. -/
theorem runCycles_one (fault : Fault) (m : Machine) :
    runCycles fault 1 m =
      (if (enter m).halts fault then .halt else .success, leave (cycle fault (enter m))) := by
  rw [runCycles, runLoop]
  by_cases h : (cycle fault (enter m)).pipelineInfo.wbInst.isHalt = true
  · simp [LoopState.halts, h]
  · simp [LoopState.halts, h, runLoop]

/-- A halting `runTillHalt` is a run of cycles none of which returns HALT, followed by one
that does; `haltTrace` lists their starting states. -/
theorem run_of_runTillHalt {fault : Fault} {fuel : ℕ} {m m' : Machine}
    (h : runTillHalt fault fuel m = some m') :
    ∃ visited s,
      RunFrom fault (fun t => t.halts fault = false) (enter m) visited s ∧
      s.halts fault = true ∧ m' = leave (cycle fault s) ∧
      haltTrace fault fuel m = visited ++ [s] := by
  induction fuel generalizing m with
  | zero => simp [runTillHalt] at h
  | succ fuel ih =>
      rw [runTillHalt, runCycles_one] at h
      rw [haltTrace, runCycles_one]
      by_cases hhalt : (enter m).halts fault = true
      · rw [if_pos hhalt] at h ⊢
        exact ⟨[], enter m, .refl, hhalt, (Option.some.inj h).symm, rfl⟩
      · rw [if_neg hhalt] at h ⊢
        obtain ⟨visited, s, hrun, hs, hm', htrace⟩ := ih h
        refine ⟨enter m :: visited, s, ?_, hs, hm', ?_⟩
        · have hfirst : RunFrom fault (fun t => t.halts fault = false) (enter m) [enter m]
              (reenter (cycle fault (enter m))) :=
            .resume (.next .refl (by simpa using hhalt))
          exact hfirst.trans hrun
        · rw [List.cons_append, ← htrace]

end RvPipeSim
