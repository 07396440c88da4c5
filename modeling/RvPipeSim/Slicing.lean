import RvPipeSim.Timing

/-!
# How a run is sliced

`runCycles` keeps the miss state of the two caches in locals, loads it on entry and stores
it back on exit. What it stores back is what it loads again, and `cycle` does not look at
what is parked in the caches meanwhile. So the loop of a longer call is the loop of a
shorter one, continued in the next call (`runCycles_add`).

The call `runCycles(0)` has no bound and comes back with a HALT only; `runTillHalt` cuts the
same run into calls of one cycle.
-/

namespace RvPipeSim

variable {fault : Fault} {s t : LoopState} {n : ℕ}

/-- `runCycles(0)`: the loop without a bound, followed for `fuel` cycles. It returns on a
HALT only. -/
def runUnlimited (fault : Fault) (fuel : ℕ) (m : Machine) : Option Machine :=
  match runLoop fault fuel (enter m) with
  | (.halt, s) => some (leave s)
  | _ => none

/-! ### At the boundary of two calls -/

/-- Entering and leaving at once changes nothing. -/
theorem leave_enter (m : Machine) : leave (enter m) = m := rfl

/-- States that differ in parked miss states only leave the same machine behind. -/
theorem leave_congr (h : reenter s = reenter t) : leave s = leave t := by
  have hleave : ∀ u, leave (reenter u) = leave u := fun u => leave_enter (leave u)
  rw [← hleave s, h, hleave t]

/-- A HALT comes to WB in such states alike. -/
theorem halts_congr (h : reenter s = reenter t) : s.halts fault = t.halts fault :=
  LoopState.congr_reenter (f := fun u => u.halts fault)
    (fun u => congrArg (fun info => info.wbInst.isHalt)
      (LoopState.pipelineInfo_cycle_reenter u)) h

/-- One cycle of the loop: it ends with a HALT in WB, or goes on. -/
theorem runLoop_succ (fault : Fault) (cycles : ℕ) (s : LoopState) :
    runLoop fault (cycles + 1) s =
      if s.halts fault then (.halt, cycle fault s) else runLoop fault cycles (cycle fault s) := rfl

/-- The loop does the same in such states. -/
theorem runLoop_congr (cycles : ℕ) (h : reenter s = reenter t) :
    (runLoop fault cycles s).1 = (runLoop fault cycles t).1 ∧
      leave (runLoop fault cycles s).2 = leave (runLoop fault cycles t).2 := by
  induction cycles generalizing s t with
  | zero => exact ⟨rfl, leave_congr h⟩
  | succ cycles ih =>
      have hnext : reenter (cycle fault s) = reenter (cycle fault t) :=
        LoopState.reenter_cycle_congr h
      rw [runLoop_succ, runLoop_succ, halts_congr h]
      split
      · exact ⟨rfl, leave_congr hnext⟩
      · exact ih hnext

/-- The loop does not see that a call ended. -/
theorem runLoop_reenter (fault : Fault) (cycles : ℕ) (s : LoopState) :
    (runLoop fault cycles (reenter s)).1 = (runLoop fault cycles s).1 ∧
      leave (runLoop fault cycles (reenter s)).2 = leave (runLoop fault cycles s).2 :=
  runLoop_congr cycles s.reenter_reenter

/-- A call of `runCycles` goes on where the last one left. -/
theorem runCycles_leave (cycles : ℕ) (s : LoopState) :
    runCycles fault cycles (leave s) =
      ((runLoop fault cycles s).1, leave (runLoop fault cycles s).2) := by
  obtain ⟨hstatus, hleave⟩ := runLoop_reenter fault cycles s
  rw [← hstatus, ← hleave]
  rfl

/-! ### Two calls in a row -/

/-- The loop runs through the cycles in which no HALT comes to WB. -/
theorem runLoop_add (hrun : ∀ k < n, ((cycle fault)^[k] s).halts fault = false) (m : ℕ) :
    runLoop fault (n + m) s = runLoop fault m ((cycle fault)^[n] s) := by
  induction n generalizing s with
  | zero => rw [Nat.zero_add, Function.iterate_zero_apply]
  | succ n ih =>
      have hfirst : s.halts fault = false := hrun 0 (by omega)
      rw [Nat.add_right_comm, runLoop_succ, hfirst, if_neg Bool.false_ne_true,
        Function.iterate_succ_apply]
      refine ih fun k hk => ?_
      rw [← Function.iterate_succ_apply]
      exact hrun (k + 1) (by omega)

/-- `runCycles(n)` returns SUCCESS behind `n` such cycles. -/
theorem runCycles_of_no_halt {m : Machine}
    (hrun : ∀ k < n, ((cycle fault)^[k] (enter m)).halts fault = false) :
    runCycles fault n m = (.success, leave ((cycle fault)^[n] (enter m))) := by
  have hloop : runLoop fault n (enter m) = (.success, (cycle fault)^[n] (enter m)) :=
    runLoop_add hrun 0
  rw [runCycles, hloop]

/-- **A longer call is two shorter ones.** -/
theorem runCycles_add {M : Machine}
    (hrun : ∀ k < n, ((cycle fault)^[k] (enter M)).halts fault = false) (m : ℕ) :
    runCycles fault (n + m) M = runCycles fault m (runCycles fault n M).2 := by
  rw [runCycles_of_no_halt hrun, runCycles_leave, runCycles, runLoop_add hrun]

/-- A call without a bound goes on where the last call left. -/
theorem runUnlimited_leave (fuel : ℕ) (s : LoopState) :
    runUnlimited fault fuel (leave s) =
      match runLoop fault fuel s with
      | (.halt, s) => some (leave s)
      | _ => none := by
  obtain ⟨hstatus, hleave⟩ := runLoop_reenter fault fuel s
  have henter : enter (leave s) = reenter s := rfl
  rw [runUnlimited, henter]
  generalize runLoop fault fuel (reenter s) = after at hstatus hleave ⊢
  generalize runLoop fault fuel s = after' at hstatus hleave ⊢
  obtain ⟨status, u⟩ := after
  obtain ⟨status', u'⟩ := after'
  obtain rfl : status = status' := hstatus
  cases status with
  | halt => exact congrArg some hleave
  | success => rfl
  | error => rfl

/-- **Calls of one cycle make a call without a bound.** -/
theorem runTillHalt_eq_runUnlimited (fault : Fault) (fuel : ℕ) (M : Machine) :
    runTillHalt fault fuel M = runUnlimited fault fuel M := by
  induction fuel generalizing M with
  | zero => rfl
  | succ fuel ih =>
      rw [runTillHalt, runCycles_one, runUnlimited, runLoop_succ]
      cases hhalt : (enter M).halts fault
      · rw [if_neg Bool.false_ne_true, if_neg Bool.false_ne_true, ← runUnlimited_leave]
        exact ih _
      · rfl

/-- **Splitting a run does not change it.** Where no HALT comes to WB within `n` cycles, a
call of `n` cycles and one of `m` leave the machine and return the status of one call of
`n + m`; and `runTillHalt` leaves the machine that a call without a bound leaves. -/
theorem runs_sliced (fault : Fault) (M : Machine)
    (hrun : ∀ k < n, ((cycle fault)^[k] (enter M)).halts fault = false) :
    (∀ m, runCycles fault (n + m) M = runCycles fault m (runCycles fault n M).2) ∧
      ∀ fuel, runTillHalt fault fuel M = runUnlimited fault fuel M :=
  ⟨runCycles_add hrun, fun fuel => runTillHalt_eq_runUnlimited fault fuel M⟩

/-- `lw x1, 256(x0); addi x2, x1, 1; HALT`, cut in the data miss of the load. -/
theorem runs_sliced_in_miss :
    let mem : MemoryStore := .image fun
      | 0 => 0x10002083 | 1 => 0x00108113 | 2 => 0xfeedfeed | _ => 0x00000013
    let slow : CacheConfig := { cacheSize := 64, blockSize := 64, ways := 1, missLatency := 5 }
    let M := initSimulator (.oneBlock 64) slow mem
    ((runCycles accessFault 6 M).2.dCache.fetchMiss = true) ∧
      (∀ m, runCycles accessFault (6 + m) M =
        runCycles accessFault m (runCycles accessFault 6 M).2) ∧
      ∀ fuel, runTillHalt accessFault fuel M = runUnlimited accessFault fuel M := by
  intro mem slow M
  exact ⟨by decide +kernel, runs_sliced accessFault M (by decide +kernel)⟩

end RvPipeSim
