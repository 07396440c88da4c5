import RvPipeSim.Timing

/-!
# What a miss costs

The miss state of a cache is a flag and a counter. A miss sets the flag and clears the
counter, every later cycle counts, and the check at the end of a cycle clears both once the
counter is at `missLatency - 1`. In `uint64_t` that difference is one less than the latency
only where the latency is not 0 (`lastMissCycle_succ_eq_iff`), and a latency of 0 freezes
the pipeline for `2 ^ 64` cycles.

On the instruction side an exception clears the flag as well. The fetch that is redirected
to the handler is not accessed again if the handler was already in IF, so an instruction
miss at the handler that an illegal instruction in ID sees is not paid for.

## Main results

* `data_miss_costs_iff` — a data miss freezes the pipeline for its latency exactly if that is
  not 0;
* `redirectDelay_iterate` — when the handler enters ID behind a redirect;
* `inst_miss_paid_iff` — an instruction miss is paid for exactly if no exception sees it at the
  handler.
-/

namespace RvPipeSim

open Simulator ObservedRun

/-! ### Data misses -/

/-- A miss lasts for `missLatency` cycles exactly if the latency is not 0. -/
theorem lastMissCycle_succ_eq_iff {config : CacheConfig} (h : config.missLatency < 2 ^ 64) :
    lastMissCycle config + 1 = config.missLatency ↔ 1 ≤ config.missLatency := by
  rw [lastMissCycle]
  omega

/-- The data miss of the cycle from `s` freezes the pipeline for `latency` cycles: in each
of them WB takes a bubble and MEM, EX and ID are held, and in the next one the instruction
in MEM is handed to `simWB`. -/
def LoopState.Freezes (s : LoopState) (latency : ℕ) (elapsed : ℕ) (t : LoopState) : Prop :=
  (elapsed < latency →
    t.frozen = true ∧ (cycle accessFault t).wbInst = nop .bubble ∧
      Held s (cycle accessFault t)) ∧
    (elapsed = latency → t.wbCall = some s.memInst)

namespace LoopState

variable {s : LoopState}

/-- How a freeze goes on is seen alike. -/
theorem freezes_reenter (latency elapsed : ℕ) (t : LoopState) :
    s.Freezes latency elapsed (reenter t) = s.Freezes latency elapsed t := by
  have hpipe : (cycle accessFault (reenter t)).pipelineInfo = (cycle accessFault t).pipelineInfo :=
    pipelineInfo_cycle_reenter t
  have hheld : Held s (cycle accessFault (reenter t)) ↔ Held s (cycle accessFault t) :=
    ⟨fun hheld => hheld.of_pipelineInfo hpipe.symm, fun hheld => hheld.of_pipelineInfo hpipe⟩
  rw [Freezes, Freezes, frozen_reenter, wbCall_reenter, wbInst, hpipe, hheld]

/-- A miss freezes the pipeline for as long as `dataLeft` says. -/
theorem freezes_dataLeft (hs : Steady s) (k : ℕ) :
    s.Freezes s.dataLeft k ((cycle accessFault)^[k] s) := by
  refine ⟨fun hk => ?_, fun hk => ?_⟩
  · have hz := frozen_iterate hs hk
    have hst := steady_iterate hs k
    refine ⟨hz, ?_, (freeze_iterate hs (Nat.le_of_lt hk)).2.trans (held_of_frozen hst hz)⟩
    rw [cycle_wbInst, wbStage, if_pos hz]
  · subst hk
    rw [wbCall, thawed_iterate hs, if_neg Bool.false_ne_true]
    exact congrArg some (freeze_iterate hs (Nat.le_refl _)).2.mem

end LoopState

/-- **A data miss costs its latency exactly if the latency is not 0.** From a cycle in
which `dCache->access` returns false, every run is frozen for exactly `missLatency` cycles
and then hands the missing instruction to `simWB`, if and only if `missLatency` is at
least 1. -/
theorem data_miss_costs_iff {iCacheConfig dCacheConfig : CacheConfig} {mem : MemoryStore}
    {visited : List LoopState} {s : LoopState}
    (h : PipelineRun accessFault anyCycle iCacheConfig dCacheConfig mem visited s)
    (hmiss : s.dataMiss = true) (hlatency : dCacheConfig.missLatency < 2 ^ 32) :
    (∀ visited' t, RunFrom accessFault anyCycle s visited' t →
        s.Freezes dCacheConfig.missLatency visited'.length t) ↔
      1 ≤ dCacheConfig.missLatency := by
  have hs := (Steady.of_run h).1
  rw [LoopState.dataMiss, Bool.and_eq_true, Bool.not_eq_true'] at hmiss
  have hleft : s.dataLeft = lastMissCycle dCacheConfig + 1 := by
    rw [LoopState.dataLeft_of_no_miss hmiss.1, if_pos hmiss.2, (config_of_run h).2]
  have hcost := lastMissCycle_succ_eq_iff (Nat.lt_trans hlatency (by omega))
  rw [LoopState.forall_run_iff fun k t => LoopState.freezes_reenter _ k t, ← hcost, ← hleft]
  constructor
  · intro hall
    -- the pipeline is still frozen when it should hand on the instruction, or it never was
    by_contra hne
    have hnow := (hall dCacheConfig.missLatency).2 rfl
    rw [LoopState.wbCall] at hnow
    by_cases hlt : dCacheConfig.missLatency < s.dataLeft
    · rw [LoopState.frozen_iterate hs hlt, if_pos rfl] at hnow
      exact absurd hnow (by simp)
    · have hthaw := ((hall s.dataLeft).1 (by omega)).1
      rw [LoopState.thawed_iterate hs] at hthaw
      exact Bool.noConfusion hthaw
  · intro heq k
    rw [← heq]
    exact LoopState.freezes_dataLeft hs k

/-- `lw x1, 256(x0)` under a D-cache of latency 0: the load should retire at once, and the
pipeline is frozen for `2 ^ 64` cycles. -/
theorem data_miss_hangs :
    ∃ visited s,
      PipelineRun accessFault anyCycle (.oneBlock 64) ⟨64, 64, 1, 0⟩
        (.image fun | 0 => 0x10002083 | _ => 0x00000013) visited s ∧
      s.dataMiss = true ∧ ¬ s.Freezes 0 0 s ∧
      ∀ visited' t, RunFrom accessFault anyCycle s visited' t → visited'.length < 2 ^ 64 →
        t.frozen = true := by
  have hrun : PipelineRun accessFault anyCycle (.oneBlock 64) ⟨64, 64, 1, 0⟩
      (.image fun | 0 => 0x10002083 | _ => 0x00000013) _ _ :=
    run_iterate (n := 5) fun _ _ => trivial
  refine ⟨_, _, hrun, by decide +kernel, fun hnow => ?_, ?_⟩
  · have hcall := hnow.2 rfl
    rw [LoopState.wbCall, if_pos (by decide +kernel)] at hcall
    exact absurd hcall (by simp)
  · have hs := (Steady.of_run hrun).1
    intro visited' t hrun' hlength
    rw [LoopState.congr_reenter LoopState.frozen_reenter (LoopState.run_eq_iterate hrun')]
    refine LoopState.frozen_iterate hs ?_
    rw [LoopState.dataLeft_of_no_miss (by decide +kernel), if_pos (by decide +kernel),
      (config_of_run hrun).2]
    exact hlength

/-- The same load under a D-cache of latency 3: three cycles, and then it retires. -/
theorem data_miss_costs_three :
    let s := (cycle accessFault)^[5] (enter (initSimulator (.oneBlock 64) ⟨64, 64, 1, 3⟩
      (.image fun | 0 => 0x10002083 | _ => 0x00000013)))
    ∀ visited' t, RunFrom accessFault anyCycle s visited' t →
      s.Freezes 3 visited'.length t := by
  intro s
  have hrun : PipelineRun accessFault anyCycle (.oneBlock 64) ⟨64, 64, 1, 3⟩
      (.image fun | 0 => 0x10002083 | _ => 0x00000013) _ s :=
    run_iterate (n := 5) fun _ _ => trivial
  exact (data_miss_costs_iff hrun (by decide +kernel) (by decide)).mpr (by decide)

/-! ### Instruction misses -/

namespace LoopState

variable {s t : LoopState}

/-- The I-cache access of this cycle misses: `iCache->access` returns false. -/
def instMiss (s : LoopState) : Bool :=
  !s.stalled && !s.instFetchMiss && !s.ifInst.isNop && s.ifInst.PC != s.prevICPC &&
    !(s.iCache.access s.ifInst.PC .cacheRead).1

/-- A miss starts a wait of `lastMissCycle + 1` cycles, with the address on record. -/
theorem instLeft_of_instMiss (hmiss : s.instMiss = true) :
    s.stalled = false ∧ s.instLeft = lastMissCycle s.iCache.config + 1 ∧
      (detect s).prevICPC = s.ifInst.PC := by
  simp only [instMiss, Bool.and_eq_true, Bool.not_eq_true'] at hmiss
  obtain ⟨⟨⟨⟨hst, hpending⟩, hword⟩, hnew⟩, hmiss⟩ := hmiss
  obtain ⟨-, hpc, hcache⟩ := accessDCache_inst s
  have hstall : s.hazard.stall = false := hst
  have hdetect : (detect s).instFetchMiss = true ∧ (detect s).instMissStalls = 0 ∧
      (detect s).prevICPC = s.ifInst.PC := by
    simp [detect, accessICache, recordHazard, hstall, hpending, hword, hpc, hnew, hcache, hmiss]
  refine ⟨hst, ?_, hdetect.2.2⟩
  rw [instLeft, starved, if_pos hdetect.1, hdetect.2.1, Nat.sub_zero]

/-- A fetch is pending as long as its countdown is positive. -/
theorem starved_iff_instLeft : s.starved = true ↔ 0 < s.instLeft := by
  cases hsv : s.starved
  · simp [instLeft, hsv]
  · simp [instLeft, hsv]

/-- **A wait without exception lasts `instLeft` cycles.** -/
theorem wait_iterate (hs : Steady s) (hexc : s.excepted = false) (hst : s.stalled = false)
    {k : ℕ} (hk : k ≤ s.instLeft) :
    ((cycle accessFault)^[k] s).instLeft = s.instLeft - k ∧
      ((cycle accessFault)^[k] s).excepted = false ∧
      ((cycle accessFault)^[k] s).stalled = false := by
  induction k with
  | zero => exact ⟨rfl, hexc, hst⟩
  | succ k ih =>
      obtain ⟨hleft, hexc', hst'⟩ := ih (Nat.le_of_succ_le hk)
      have ht := steady_iterate hs k
      have hsv : ((cycle accessFault)^[k] s).starved = true := starved_iff_instLeft.mpr (by omega)
      obtain ⟨-, -, hheld⟩ := held_of_miss ht hexc' hst' (by rw [hsv, Bool.or_true])
      have hnext : (cycle accessFault ((cycle accessFault)^[k] s)).instLeft + 1 =
          ((cycle accessFault)^[k] s).instLeft :=
        instLeft_cycle ht.tracked ((exception_eq_excepted ht.shape ht.flow).trans hexc') hst' hsv
      rw [Function.iterate_succ_apply']
      exact ⟨by omega, hheld⟩

/-! ### A miss that an exception sees -/

/-- IF holds the first word of the handler, and its access is on record. -/
structure AtHandler (s : LoopState) : Prop where
  PC : s.ifInst.PC = excHandler
  recorded : (detect s).prevICPC = excHandler

/-- What is handed to `simID` was in IF. -/
theorem PC_of_idCall {inst : Instruction} (hcall : s.idCall = some inst) :
    inst.PC = s.ifInst.PC := by
  rw [idCall, Option.ite_none_left_eq_some] at hcall
  obtain rfl := Option.some.inj hcall.2
  rw [enterID]
  split <;> rfl

/-- No instruction miss is pending, and none is made. -/
def Fed (s : LoopState) : Prop := s.instFetchMiss = false ∧ s.prevICPC = s.ifInst.PC

/-- Where the address in IF is on record, IF does not wait. -/
theorem Fed.starved (h : Fed s) : s.starved = false := not_starved_of_recorded h.1 h.2

/-- The hazard detection leaves that address on record. -/
theorem Fed.prevICPC (h : Fed s) : (detect s).prevICPC = s.ifInst.PC := by
  have hif : (recordHazard (accessDCache s)).ifInst = s.ifInst := by
    rw [recordHazard, ifInst, accessDCache_pipelineInfo]
  have hpc : (recordHazard (accessDCache s)).prevICPC = s.prevICPC := (accessDCache_inst s).2.1
  have hmiss : (recordHazard (accessDCache s)).instFetchMiss = false :=
    (accessDCache_instFetchMiss s).trans h.1
  rw [detect, accessICache_of_recorded _ hmiss (by rw [hpc, hif, h.2]), hpc, h.2]

/-- The redirect fetches the handler and forgets the miss; the access is not made again. -/
theorem fed_of_excepted (hs : Steady s) (hexc : s.excepted = true) :
    (cycle accessFault s).ifInst.PC = excHandler ∧
      (cycle accessFault s).ifInst.status = .normal ∧
      ((detect s).prevICPC = excHandler → Fed (cycle accessFault s)) := by
  obtain ⟨hif, -, hflag⟩ := fetch_of_excepted hs.shape hs.flow hexc
  have hPC : (cycle accessFault s).ifInst.PC = excHandler := by
    rw [hif]
    rfl
  refine ⟨hPC, by rw [hif]; rfl, fun hrec => ?_⟩
  obtain ⟨hmiss, -, hpc, -⟩ := cycle_inst accessFault s
  rw [hflag, ite_self] at hmiss
  exact ⟨hmiss, by rw [hpc, hrec, hPC]⟩

/-- While the pipeline is frozen, the exception goes on and IF stays at the handler. -/
theorem redirect_iterate (hs : Steady s) (hexc : s.excepted = true) (hat : AtHandler s) {k : ℕ}
    (hk : k ≤ s.dataLeft) :
    ((cycle accessFault)^[k] s).excepted = true ∧ AtHandler ((cycle accessFault)^[k] s) := by
  refine ⟨(freeze_iterate hs hk).2.excepted.trans hexc, ?_⟩
  induction k with
  | zero => exact hat
  | succ k ih =>
      have hk' := Nat.le_of_succ_le hk
      obtain ⟨hPC, -, hfed⟩ := fed_of_excepted (steady_iterate hs k)
        ((freeze_iterate hs hk').2.excepted.trans hexc)
      rw [Function.iterate_succ_apply']
      exact ⟨hPC, (hfed (ih hk').recorded).prevICPC.trans hPC⟩

/-- The thaw takes the illegal instruction out of ID, and the handler waits in IF. -/
theorem thaw_of_excepted (hs : Steady s) (hz : s.frozen = false) (hexc : s.excepted = true)
    (hat : AtHandler s) :
    (cycle accessFault s).idInst.active = false ∧ (cycle accessFault s).ifInst.PC = excHandler ∧
      (cycle accessFault s).ifInst.status = .normal ∧ Fed (cycle accessFault s) := by
  obtain ⟨hPC, hstatus, hfed⟩ := fed_of_excepted hs hexc
  refine ⟨?_, hPC, hstatus, hfed hat.recorded⟩
  rw [cycle_idInst_eq hs.shape hs.flow, idOut_of_excepted accessFault hz hexc]
  rfl

/-- Behind an empty ID a data miss holds IF, and no instruction miss comes up. -/
theorem fed_iterate (hs : Steady s) (hid : s.idInst.active = false) (hfed : Fed s) {k : ℕ}
    (hk : k ≤ s.dataLeft) :
    ((cycle accessFault)^[k] s).idInst.active = false ∧
      ((cycle accessFault)^[k] s).ifInst = s.ifInst ∧ Fed ((cycle accessFault)^[k] s) := by
  induction k with
  | zero => exact ⟨hid, rfl, hfed⟩
  | succ k ih =>
      obtain ⟨hid', hif, hfed'⟩ := ih (Nat.le_of_succ_le hk)
      have ht := steady_iterate hs k
      have hz := frozen_iterate hs hk
      obtain ⟨hexc, -⟩ := unhindered_of_inactive ht hid'
      obtain ⟨hid'', hif', -⟩ := held_of_inactive ht hid' (by rw [enters, hz]; rfl)
      obtain ⟨hmiss, -, hpc, -⟩ := cycle_inst accessFault ((cycle accessFault)^[k] s)
      rw [(fetch_of_frozen ht.shape ht.flow hexc hz).2.2, hfed'.starved, ite_self] at hmiss
      rw [Function.iterate_succ_apply']
      exact ⟨hid'', hif'.trans hif, hmiss, by rw [hpc, hfed'.prevICPC, hif']⟩

/-- The cycles from a redirect that finds the handler in IF until ID takes the handler: the
rest of the freeze, the cycle that thaws it, and the miss of the instruction then in MEM. -/
def redirectDelay (s : LoopState) : ℕ :=
  s.dataLeft + 1 + if s.exMisses then lastMissCycle s.dCache.config + 1 else 0

/-- **The handler enters ID `redirectDelay` cycles after the redirect**, not before. -/
theorem redirectDelay_iterate (hs : Steady s) (hexc : s.excepted = true) (hat : AtHandler s) :
    (∀ k < s.redirectDelay, ((cycle accessFault)^[k] s).idCall = none ∧
        ((cycle accessFault)^[k] s).ifInst.PC = excHandler) ∧
      ∃ inst, ((cycle accessFault)^[s.redirectDelay] s).idCall = some inst ∧
        inst.PC = excHandler := by
  have hthawed := steady_iterate hs s.dataLeft
  obtain ⟨hexc', hat'⟩ := redirect_iterate hs hexc hat (Nat.le_refl _)
  obtain ⟨hid, hPC, hstatus, hfed⟩ := thaw_of_excepted hthawed (thawed_iterate hs) hexc' hat'
  have hnext := dataLeft_cycle_of_moving hthawed (thawed_iterate hs)
  rw [exMisses_iterate hs (Nat.le_refl _), dCache_config_iterate] at hnext
  generalize hu : cycle accessFault ((cycle accessFault)^[s.dataLeft] s) = u at *
  have hu' : Steady u := hu ▸ hthawed.cycle
  have hiterate : ∀ k, (cycle accessFault)^[s.dataLeft + 1 + k] s = (cycle accessFault)^[k] u := by
    intro k
    rw [Nat.add_comm, Function.iterate_add_apply, Function.iterate_succ_apply', hu]
  have hdelay : s.redirectDelay = s.dataLeft + 1 + u.dataLeft := by
    rw [redirectDelay, hnext]
  rw [hdelay]
  refine ⟨fun k hk => ?_, ?_⟩
  · by_cases hfreeze : k ≤ s.dataLeft
    · obtain ⟨hexc'', hat''⟩ := redirect_iterate hs hexc hat hfreeze
      refine ⟨if_pos ?_, hat''.PC⟩
      rw [hexc'', Bool.or_true, Bool.true_or, Bool.true_or, Bool.true_or]
    · obtain ⟨j, rfl⟩ := Nat.exists_eq_add_of_le (Nat.lt_of_not_le hfreeze)
      have hj : j < u.dataLeft := by omega
      obtain ⟨-, hif, -⟩ := fed_iterate hu' hid hfed (Nat.le_of_lt hj)
      rw [Nat.succ_eq_add_one, hiterate, hif]
      refine ⟨if_pos ?_, hPC⟩
      rw [frozen_iterate hu' hj, Bool.true_or, Bool.true_or, Bool.true_or, Bool.true_or]
  · obtain ⟨hid', hif, hfed'⟩ := fed_iterate hu' hid hfed (Nat.le_refl _)
    obtain ⟨hexc'', hst⟩ := unhindered_of_inactive (steady_iterate hu' u.dataLeft) hid'
    have hmp : mispredicted ((cycle accessFault)^[u.dataLeft] u).ifInst
        ((cycle accessFault)^[u.dataLeft] u).PC = false := by
      rw [mispredicted, hif, hstatus]
      rfl
    rw [hiterate]
    refine ⟨enterID u.ifInst, ?_, ?_⟩
    · rw [idCall, thawed_iterate hu', hexc'', hst, hfed'.starved, hmp, hif]
      rfl
    · rw [enterID]
      split <;> exact hPC

/-- A fetch from elsewhere does not stay in IF under a redirect. -/
theorem moved_of_redirect (hs : Steady s) (hexc : s.excepted = true)
    (hPC : s.ifInst.PC ≠ excHandler) (hsv : s.starved = true) {visited : List LoopState}
    (hrun : RunFrom accessFault anyCycle s visited t) {inst : Instruction}
    (hcall : t.idCall = some inst) (hinst : inst.PC = s.ifInst.PC) :
    ∃ u ∈ visited, u.ifInst.PC ≠ s.ifInst.PC := by
  have hiterate := run_eq_iterate hrun
  have hmoved : (cycle accessFault s).ifInst.PC ≠ s.ifInst.PC := by
    rw [(fed_of_excepted hs hexc).1]
    exact hPC.symm
  rw [congr_reenter idCall_reenter hiterate] at hcall
  obtain hzero | hone | hmore :
      visited.length = 0 ∨ visited.length = 1 ∨ 1 < visited.length := by omega
  · rw [hzero, Function.iterate_zero, id_eq, idCall, hsv, Bool.or_true, Bool.true_or,
      if_pos rfl] at hcall
    exact absurd hcall (by simp)
  · rw [hone, Function.iterate_one] at hcall
    exact absurd ((PC_of_idCall hcall).symm.trans hinst) hmoved
  · obtain ⟨u, hu, heq⟩ := exists_visited hrun hmore
    refine ⟨u, hu, ?_⟩
    have hif : u.ifInst = (cycle accessFault s).ifInst :=
      congr_reenter (f := fun v => v.ifInst) (fun _ => rfl) heq
    rw [hif]
    exact hmoved

end LoopState

/-- **An instruction miss is paid for, unless an exception sees it at the handler.** From a
cycle in which `iCache->access` returns false, no run hands an instruction of the same
address to `simID` within `missLatency` cycles, with IF at that address throughout, if and
only if no illegal instruction in ID redirects a fetch that is at the handler already, or
the data side holds ID for long enough. -/
theorem inst_miss_paid_iff {iCacheConfig dCacheConfig : CacheConfig} {mem : MemoryStore}
    {visited : List LoopState} {s : LoopState}
    (h : PipelineRun accessFault anyCycle iCacheConfig dCacheConfig mem visited s)
    (hmiss : s.instMiss = true) (hpos : 1 ≤ iCacheConfig.missLatency)
    (hlatency : iCacheConfig.missLatency < 2 ^ 64) :
    (∀ visited' t inst, RunFrom accessFault anyCycle s visited' t → t.idCall = some inst →
        inst.PC = s.ifInst.PC → (∀ u ∈ visited', u.ifInst.PC = s.ifInst.PC) →
        iCacheConfig.missLatency ≤ visited'.length) ↔
      (s.excepted = true → s.ifInst.PC = excHandler →
        iCacheConfig.missLatency ≤ s.redirectDelay) := by
  have hs := (Steady.of_run h).1
  obtain ⟨hst, hleft, hrec⟩ := LoopState.instLeft_of_instMiss hmiss
  rw [(config_of_run h).1, (lastMissCycle_succ_eq_iff hlatency).mpr hpos] at hleft
  constructor
  · intro hall hexc hPC
    obtain ⟨hbefore, inst, hcall, hinst⟩ :=
      LoopState.redirectDelay_iterate hs hexc ⟨hPC, hrec.trans hPC⟩
    have hdelay := hall _ _ inst (run_iterate fun _ _ => trivial) hcall (hinst.trans hPC.symm) ?_
    · rwa [List.length_map, List.length_range] at hdelay
    · intro u hu
      obtain ⟨k, hk, rfl⟩ := List.mem_map.mp hu
      rw [(hbefore k (List.mem_range.mp hk)).2, hPC]
  · intro hdelay visited' t inst hrun hcall hinst hsame
    have hiterate := LoopState.run_eq_iterate hrun
    rw [LoopState.congr_reenter LoopState.idCall_reenter hiterate] at hcall
    by_contra hshort
    rw [Nat.not_le] at hshort
    cases hexc : s.excepted
    · -- the wait is not over
      have hsv : ((cycle accessFault)^[visited'.length] s).starved = true := by
        obtain ⟨hleft', -⟩ :=
          LoopState.wait_iterate hs hexc hst (k := visited'.length) (by omega)
        exact LoopState.starved_iff_instLeft.mpr (by omega)
      rw [LoopState.idCall, hsv, Bool.or_true, Bool.true_or, if_pos rfl] at hcall
      exact absurd hcall (by simp)
    · by_cases hPC : s.ifInst.PC = excHandler
      · obtain ⟨hbefore, -⟩ := LoopState.redirectDelay_iterate hs hexc ⟨hPC, hrec.trans hPC⟩
        rw [(hbefore _ (Nat.lt_of_lt_of_le hshort (hdelay hexc hPC))).1] at hcall
        exact absurd hcall (by simp)
      · have hsv : s.starved = true := LoopState.starved_iff_instLeft.mpr (by omega)
        rw [← LoopState.congr_reenter LoopState.idCall_reenter hiterate] at hcall
        obtain ⟨u, hu, hmoved⟩ :=
          LoopState.moved_of_redirect hs hexc hPC hsv hrun hcall hinst
        exact hmoved (hsame u hu)

/-- `lw x1, 256(x0); nop` and an illegal word, with an I-cache of latency 2: the access of
the handler misses while the load holds the illegal word in ID, and the handler enters ID
one cycle later. -/
theorem inst_miss_unpaid :
    ∃ visited s visited' t inst,
      PipelineRun accessFault anyCycle ⟨64, 64, 1, 2⟩ (.oneBlock 64)
        (.image fun | 0 => 0x10002083 | 2 => 0 | _ => 0x00000013) visited s ∧
      s.instMiss = true ∧ RunFrom accessFault anyCycle s visited' t ∧ t.idCall = some inst ∧
      inst.PC = s.ifInst.PC ∧ (∀ u ∈ visited', u.ifInst.PC = s.ifInst.PC) ∧
      visited'.length < 2 := by
  refine ⟨_, _, _, _, _, run_iterate (n := 7) fun _ _ => trivial, ?_,
    run_iterate (n := 1) fun _ _ => trivial, if_neg ?_, ?_, ?_, ?_⟩
  · decide +kernel
  · decide +kernel
  · decide +kernel
  · decide +kernel
  · decide

/-- The first miss of the same program is paid for. -/
theorem inst_miss_paid_first :
    let s := cycle accessFault (enter (initSimulator ⟨64, 64, 1, 2⟩ (.oneBlock 64)
      (.image fun | 0 => 0x10002083 | 2 => 0 | _ => 0x00000013)))
    ∀ visited' t inst, RunFrom accessFault anyCycle s visited' t → t.idCall = some inst →
      inst.PC = s.ifInst.PC → (∀ u ∈ visited', u.ifInst.PC = s.ifInst.PC) →
      2 ≤ visited'.length := by
  intro s
  have hrun : PipelineRun accessFault anyCycle ⟨64, 64, 1, 2⟩ (.oneBlock 64)
      (.image fun | 0 => 0x10002083 | 2 => 0 | _ => 0x00000013) _ s :=
    run_iterate (n := 1) fun _ _ => trivial
  have hexc : s.excepted = false := by decide +kernel
  exact (inst_miss_paid_iff hrun (by decide +kernel) (by decide) (by decide)).mpr
    fun hexc' => Bool.noConfusion (hexc.symm.trans hexc')

end RvPipeSim
