import RvPipeSim.FunctRefinement
import RvPipeSim.IndexSafety
import RvPipeSim.Liveness

/-!
# The pipeline halts when the functional simulator does

`runTillHalt` of `cycle.cpp` is a `while (true)`. Along a functional run that halts, the
pipeline decodes one instruction of that run after the other (`Paced`), and it decodes
something in every window of `progressBound` cycles (`Liveness`), so it comes to the HALT.
Behind the HALT at most two more words enter ID before WB sees it (`haltDepth`).

`pipeline_halts` bounds the number of cycles it takes.
-/

namespace RvPipeSim

open Simulator ObservedRun

/-- A `runTillHalt` that runs out of fuel has taken a cycle for each unit of it, none of which
returns HALT. -/
theorem run_of_runTillHalt_none {fault : Fault} {fuel : ℕ} {m : Machine}
    (h : runTillHalt fault fuel m = none) :
    ∃ s, RunFrom fault (fun t => t.halts fault = false) (enter m) (haltTrace fault fuel m) s ∧
      (haltTrace fault fuel m).length = fuel := by
  induction fuel generalizing m with
  | zero => exact ⟨enter m, .refl, rfl⟩
  | succ fuel ih =>
      rw [runTillHalt, runCycles_one] at h
      rw [haltTrace, runCycles_one]
      cases hhalt : (enter m).halts fault
      · rw [hhalt, if_neg Bool.false_ne_true] at h
        rw [if_neg Bool.false_ne_true]
        obtain ⟨s, hrun, hlength⟩ := ih h
        have hfirst : RunFrom fault (fun t => t.halts fault = false) (enter m) [enter m]
            (reenter (cycle fault (enter m))) := .resume (.next .refl hhalt)
        exact ⟨s, hfirst.trans hrun, congrArg (· + 1) hlength⟩
      · rw [hhalt, if_pos rfl] at h
        exact absurd h (by simp)

namespace FunctMachine

variable {fuel : ℕ} {m₀ m u : FunctMachine} {k : ℕ}

/-- In the order of a run that halts, the successor of a legal instruction is the next one. -/
theorem trace_getElem_succ (h : runTillHalt fuel m₀ = some (.halt, m))
    (hu : (trace fuel m₀)[k]? = some u) (hhalt : u.executed.isHalt = false) :
    (trace fuel m₀)[k + 1]? = some u.advance := by
  induction fuel generalizing m₀ k with
  | zero => exact absurd hu (by simp [trace])
  | succ fuel ih =>
      rcases trace_succ h with ⟨⟨hlast, -⟩, htrace⟩ | ⟨-, hrest, htrace⟩
      · rw [htrace, List.getElem?_singleton] at hu
        split at hu
        · obtain rfl := Option.some.inj hu
          exact Bool.noConfusion (hhalt.symm.trans hlast)
        · exact absurd hu (by simp)
      · rw [htrace] at hu ⊢
        cases k with
        | zero =>
            obtain rfl := Option.some.inj hu
            cases fuel with
            | zero => exact absurd hrest (by simp [runTillHalt])
            | succ fuel => rfl
        | succ k => exact ih hrest hu

end FunctMachine

namespace LoopState

variable {s : LoopState}

/-- How far behind ID the oldest HALT is. -/
def haltDepth (s : LoopState) : ℕ :=
  if s.memInst.isHalt then 2 else if s.exInst.isHalt then 1 else 0

/-- A HALT in flight is at most two slots past ID. -/
theorem haltDepth_le (s : LoopState) : s.haltDepth ≤ 2 := by
  rw [haltDepth]
  split_ifs <;> omega

/-- Short of the cycle that halts, a cycle that decodes behind a HALT moves the HALT on. -/
theorem haltDepth_cycle (hs : Steady s) (hhalt : s.halts accessFault = false)
    (hfree : s.haltFree = false) :
    s.haltDepth + s.decodes.toNat ≤ (cycle accessFault s).haltDepth := by
  rw [haltDepth, haltDepth, memInst_isHalt_cycle hs, exInst_isHalt_cycle hs]
  cases hz : s.frozen
  · have hmem : s.memInst.isHalt = false := (halts_eq accessFault hz).symm.trans hhalt
    have hone : s.decodes.toNat ≤ 1 := Bool.toNat_le _
    rw [hmem, if_neg Bool.false_ne_true, if_neg Bool.false_ne_true]
    cases hex : s.exInst.isHalt
    · have hid : s.idInst.isHalt = true := by
        rw [haltFree, hmem, hex, Bool.or_self, Bool.false_or] at hfree
        simpa using hfree
      obtain ⟨hexc, hst⟩ := moving_of_halt hs hid
      rw [hexc, hst, hid]
      simpa using hone
    · simpa using Nat.add_le_add_left hone 1
  · have hdecodes : s.decodes = false := by
      by_contra hdecodes
      rw [Bool.not_eq_false] at hdecodes
      exact Bool.noConfusion (hz.symm.trans (moving_of_decodes hs hdecodes).1)
    rw [hdecodes]
    exact Nat.le_refl _

end LoopState

/-! ### Keeping pace -/

section Pace

variable {fuel : ℕ} {m₀ m : FunctMachine} {visited : List LoopState} {s : LoopState}
  {q : Sequencer}

/-- The sequencer explains the pipeline's state, and it is at the instruction of the
functional run that ID is to decode next, or behind the HALT. -/
structure Paced (fuel : ℕ) (m₀ m : FunctMachine) (visited : List LoopState) (s : LoopState)
    (q : Sequencer) : Prop where
  steady : Steady s
  operands : Operands s
  refines : Refines visited s q
  funct : FollowsFunct (FunctMachine.trace fuel m₀) m q
  ahead : q.halted = false →
    (FunctMachine.trace fuel m₀)[visited.countP (·.decodes)]? = some q.toFunctMachine
  behind : q.halted = true →
    visited.countP (·.decodes) ≤ (FunctMachine.trace fuel m₀).length + s.haltDepth

namespace Paced

/-- Short of the cycle that halts, no more words are decoded than the run has, and two. -/
theorem countP_decodes_le (h : Paced fuel m₀ m visited s q) :
    visited.countP (·.decodes) ≤ (FunctMachine.trace fuel m₀).length + 2 := by
  cases hq : q.halted
  · obtain ⟨hlt, -⟩ := List.getElem?_eq_some_iff.mp (h.ahead hq)
    omega
  · have hle := h.behind hq
    have hdepth := s.haltDepth_le
    omega

/-- At the start the functional run is all ahead. -/
theorem init {mem : MemoryStore} (iCacheConfig dCacheConfig : CacheConfig)
    (h : FunctMachine.runTillHalt fuel (.initSimulator mem) = some (.halt, m)) :
    Paced fuel (.initSimulator mem) m [] (enter (initSimulator iCacheConfig dCacheConfig mem))
      (.init mem) where
  steady := .init iCacheConfig dCacheConfig mem
  operands := .init iCacheConfig dCacheConfig mem
  refines := .init iCacheConfig dCacheConfig mem
  funct := .running rfl (FunctMachine.start_mem_trace h) rfl
  ahead _ := by
    cases fuel with
    | zero => exact absurd h (by simp [FunctMachine.runTillHalt])
    | succ fuel => rfl
  behind hq := Bool.noConfusion hq

/-- Entering `runCycles` again decodes nothing. -/
theorem reenter (h : Paced fuel m₀ m visited s q) :
    Paced fuel m₀ m visited (RvPipeSim.reenter s) q :=
  ⟨h.steady.reenter, h.operands.reenter, h.refines.reenter, h.funct, h.ahead, h.behind⟩

/-- Behind a HALT the sequencer stays. -/
theorem cycle_of_halted (hpaced : Paced fuel m₀ m visited s q) (hregular : s.Regular)
    (hhalt : s.halts accessFault = false) (hq : q.halted = true) :
    Paced fuel m₀ m (visited ++ [s]) (cycle accessFault s) q where
  steady := hpaced.steady.cycle
  operands := hpaced.operands.cycle hpaced.steady.shape
  refines := by
    rcases hpaced.refines.cycle hpaced.steady hpaced.operands hregular hhalt with hstay | hstep
    · exact hstay
    · rwa [Sequencer.step_of_halted hq] at hstep
  funct := hpaced.funct
  ahead hq' := Bool.noConfusion (hq'.symm.trans hq)
  behind _ := by
    have hfree : s.haltFree = false := by
      rw [← Bool.not_eq_true', ← hpaced.refines.halted_eq, hq]
    have hdepth := LoopState.haltDepth_cycle hpaced.steady hhalt hfree
    have hle := hpaced.behind hq
    rw [LoopState.countP_concat]
    omega

/-- The sequencer waits for ID, and makes a step when ID decodes. -/
theorem cycle_of_running (h : FunctMachine.runTillHalt fuel m₀ = some (.halt, m))
    (hskips : SkipsNone (FunctMachine.trace fuel m₀)) (hpaced : Paced fuel m₀ m visited s q)
    (hregular : s.Regular) (hq : q.halted = false) :
    Paced fuel m₀ m (visited ++ [s]) (cycle accessFault s) (if s.decodes then q.step else q) := by
  have hs := hpaced.steady
  have ho := hpaced.operands
  obtain ⟨hfresh, hcoherent⟩ := hregular
    (by rw [← Bool.not_eq_false', ← hpaced.refines.halted_eq, hq])
  obtain ⟨hlt, -⟩ := List.getElem?_eq_some_iff.mp (hpaced.ahead hq)
  cases hpaced.refines with
  | running hfree _ hsync hsim htrace hPC =>
      cases hdecodes : s.decodes
      · refine ⟨hs.cycle, ho.cycle hs.shape,
          .of_not_decodes hs ho hfresh hdecodes hfree hq hsync hsim htrace hPC, hpaced.funct,
          fun _ => ?_, fun hq' => Bool.noConfusion (hq.symm.trans hq')⟩
        rw [LoopState.countP_concat, hdecodes]
        exact hpaced.ahead hq
      · refine ⟨hs.cycle, ho.cycle hs.shape,
          .of_decodes hs ho hfresh hcoherent hdecodes hfree hq hsync hsim htrace hPC,
          hpaced.funct.step h hskips, fun hq' => ?_, fun _ => ?_⟩
        · rw [LoopState.countP_concat, hdecodes]
          cases hpaced.funct with
          | halted hq' => exact Bool.noConfusion (hq.symm.trans hq')
          | running _ hmem hfetch =>
              rcases FunctMachine.trace_step h hmem with ⟨hstop, -⟩ | ⟨hgo, hlegal, -⟩
              · rw [if_pos rfl, Sequencer.step_of_halt hq hstop] at hq'
                exact Bool.noConfusion hq'
              · rw [if_pos rfl, Sequencer.step_of_legal hq hgo hlegal,
                  successors_eq hgo hlegal hfetch (hskips _ hmem)]
                exact FunctMachine.trace_getElem_succ h (hpaced.ahead hq) hgo
        · rw [LoopState.countP_concat, hdecodes, Bool.toNat_true]
          omega
  | haltInID _ _ _ hq' => exact Bool.noConfusion (hq.symm.trans hq')
  | haltInEX _ _ hq' => exact Bool.noConfusion (hq.symm.trans hq')
  | haltInMEM _ hq' => exact Bool.noConfusion (hq.symm.trans hq')

end Paced

/-- **A pipelined run of regular cycles keeps pace with the functional one.** -/
theorem Paced.of_run {iCacheConfig dCacheConfig : CacheConfig} {mem : MemoryStore}
    (h : FunctMachine.runTillHalt fuel (.initSimulator mem) = some (.halt, m))
    (hskips : SkipsNone (FunctMachine.trace fuel (.initSimulator mem)))
    (hrun : PipelineRun accessFault (fun t => t.Regular ∧ t.halts accessFault = false)
      iCacheConfig dCacheConfig mem visited s) :
    ∃ q, Paced fuel (.initSimulator mem) m visited s q := by
  refine hrun.historical (fun visited s => ∃ q, Paced fuel (.initSimulator mem) m visited s q)
    ⟨_, .init iCacheConfig dCacheConfig h⟩ ?_ ?_
  · rintro visited s ⟨q, hpaced⟩ ⟨hregular, hhalt⟩
    cases hq : q.halted
    · exact ⟨_, hpaced.cycle_of_running h hskips hregular hq⟩
    · exact ⟨q, hpaced.cycle_of_halted hregular hhalt hq⟩
  · rintro visited s ⟨q, hpaced⟩
    exact ⟨q, hpaced.reenter⟩

/-- Whoever keeps pace with a functional run for long enough halts. -/
theorem runTillHalt_of_paced {iCacheConfig dCacheConfig : CacheConfig} {mem : MemoryStore}
    {fuel' : ℕ}
    (hfuel : ((FunctMachine.trace fuel (.initSimulator mem)).length + 3) *
      (LoopState.progressBound iCacheConfig dCacheConfig + 1) ≤ fuel')
    (hpaced : ∀ s, PipelineRun accessFault (fun t => t.halts accessFault = false) iCacheConfig
      dCacheConfig mem
      (haltTrace accessFault fuel' (initSimulator iCacheConfig dCacheConfig mem)) s →
        ∃ q, Paced fuel (.initSimulator mem) m
          (haltTrace accessFault fuel' (initSimulator iCacheConfig dCacheConfig mem)) s q) :
    ∃ m', runTillHalt accessFault fuel' (initSimulator iCacheConfig dCacheConfig mem) =
      some m' := by
  rw [← Option.isSome_iff_exists, ← Option.ne_none_iff_isSome]
  intro hnone
  obtain ⟨s, hrun, hlength⟩ := run_of_runTillHalt_none hnone
  obtain ⟨q, hpaced⟩ := hpaced s hrun
  have hstart : LoopState.Configured iCacheConfig dCacheConfig
      (enter (initSimulator iCacheConfig dCacheConfig mem)) :=
    ⟨.init iCacheConfig dCacheConfig mem, rfl, rfl⟩
  -- a run out of fuel has decoded more often than it can
  have hoften := hstart.length_le hrun
  rw [hlength] at hoften
  have hmost := Nat.mul_le_mul_left (LoopState.progressBound iCacheConfig dCacheConfig + 1)
    hpaced.countP_decodes_le
  have hsplit : ((FunctMachine.trace fuel (.initSimulator mem)).length + 3) *
      (LoopState.progressBound iCacheConfig dCacheConfig + 1) =
      (LoopState.progressBound iCacheConfig dCacheConfig + 1) *
        ((FunctMachine.trace fuel (.initSimulator mem)).length + 2) +
      (LoopState.progressBound iCacheConfig dCacheConfig + 1) :=
    (Nat.mul_comm _ _).trans (Nat.mul_succ _ _)
  omega

end Pace

/-! ### The caches of a run -/

namespace LoopState

variable {s : LoopState} {iCacheConfig dCacheConfig : CacheConfig}

/-- Every access that the cycle may make is in bounds, whatever its address. -/
def CachesSafe (s : LoopState) : Prop :=
  ∀ address, s.iCache.SafeAccess address ∧ s.dCache.SafeAccess address

/-- An access to the D-cache, or none, leaves it the sets of its configuration. -/
theorem sized_accessDCache (h : s.dCache.Sized dCacheConfig) :
    (accessDCache s).dCache.Sized dCacheConfig := by
  rw [accessDCache]
  dsimp only
  generalize (if s.pipelineInfo.memInst.writesMem = true then CacheOperation.cacheWrite
    else CacheOperation.cacheRead) = op
  split
  · split
    · exact h.access _ op
    · exact h
  · split <;> exact h

/-- So does an access to the I-cache. -/
theorem sized_accessICache (stall : Bool) (h : s.iCache.Sized iCacheConfig) :
    (accessICache stall s).iCache.Sized iCacheConfig := by
  rw [accessICache]
  dsimp only
  split
  · split
    · exact h.access _ .cacheRead
    · exact h
  · split <;> exact h

end LoopState

/-- **In every run the caches have the sets of their configurations.** -/
theorem sized_of_run {fault : Fault} {ok : LoopState → Prop}
    {iCacheConfig dCacheConfig : CacheConfig} {mem : MemoryStore} {visited : List LoopState}
    {s : LoopState} (h : PipelineRun fault ok iCacheConfig dCacheConfig mem visited s) :
    s.iCache.Sized iCacheConfig ∧ s.dCache.Sized dCacheConfig := by
  refine (h.invariant (fun s : LoopState =>
    s.iCache.Sized iCacheConfig ∧ s.dCache.Sized dCacheConfig)
    ⟨.new iCacheConfig, .new dCacheConfig⟩ ?_ ?_).1
  · rintro s ⟨hi, hd⟩ -
    have hinst : (accessDCache s).iCache = s.iCache := by
      rw [accessDCache]
      split_ifs <;> rfl
    have hi' : (recordHazard (accessDCache s)).iCache.Sized iCacheConfig := hinst ▸ hi
    refine ⟨LoopState.sized_accessICache s.hazard.stall hi', ?_⟩
    rw [LoopState.dCache_cycle]
    exact LoopState.sized_accessDCache hd
  · rintro s ⟨hi, hd⟩
    exact ⟨⟨hi.config_eq, hi.length_sets, hi.length_ways⟩,
      hd.config_eq, hd.length_sets, hd.length_ways⟩

/-- **No access of a halting run is out of bounds**, if both caches have a set. -/
theorem cachesSafe_of_runTillHalt {fault : Fault} {iCacheConfig dCacheConfig : CacheConfig}
    (hi : 1 ≤ iCacheConfig.numSets) (hi' : iCacheConfig.numSets < 2 ^ 32)
    (hd : 1 ≤ dCacheConfig.numSets) (hd' : dCacheConfig.numSets < 2 ^ 32) {mem : MemoryStore}
    {fuel : ℕ} {m : Machine}
    (h : runTillHalt fault fuel (initSimulator iCacheConfig dCacheConfig mem) = some m) :
    ∀ s ∈ haltTrace fault fuel (initSimulator iCacheConfig dCacheConfig mem), s.CachesSafe := by
  obtain ⟨visited, s, hrun, -, -, htrace⟩ := run_of_runTillHalt h
  intro t ht address
  rw [htrace] at ht
  obtain ⟨before, hrun'⟩ := hrun.exists_prefix ht
  obtain ⟨hinst, hdata⟩ := sized_of_run hrun'
  exact ⟨hinst.safeAccess hi hi' address, hdata.safeAccess hd hd' address⟩

/-- **The pipelined simulator halts.** Let the functional run of a program halt and branch to
no word behind the next one, and let the cycles of the pipelined run be regular: unless a HALT
is in flight, branches go by their operands and the words decoded are the ones in memory. Then
under two caches that have a set the pipelined run makes no access out of bounds and halts,
after at most `progressBound + 1` cycles for each instruction of the functional run and for
three more. -/
theorem pipeline_halts {iCacheConfig dCacheConfig : CacheConfig}
    (hi : 1 ≤ iCacheConfig.numSets) (hi' : iCacheConfig.numSets < 2 ^ 32)
    (hd : 1 ≤ dCacheConfig.numSets) (hd' : dCacheConfig.numSets < 2 ^ 32) {mem : MemoryStore}
    {fuel : ℕ} {m : FunctMachine}
    (h : FunctMachine.runTillHalt fuel (.initSimulator mem) = some (.halt, m))
    (hskips : SkipsNone (FunctMachine.trace fuel (.initSimulator mem))) {fuel' : ℕ}
    (hfuel : ((FunctMachine.trace fuel (.initSimulator mem)).length + 3) *
      (LoopState.progressBound iCacheConfig dCacheConfig + 1) ≤ fuel')
    (hregular : ∀ s ∈ haltTrace accessFault fuel' (initSimulator iCacheConfig dCacheConfig mem),
      s.Regular) :
    (∃ m', runTillHalt accessFault fuel' (initSimulator iCacheConfig dCacheConfig mem) =
      some m') ∧
      ∀ s ∈ haltTrace accessFault fuel' (initSimulator iCacheConfig dCacheConfig mem),
        s.CachesSafe := by
  obtain ⟨m', h'⟩ := runTillHalt_of_paced hfuel fun _ hrun => Paced.of_run h hskips
    (hrun.restrict fun t ht => ⟨hregular t ht, hrun.ok_of_mem t ht⟩)
  exact ⟨⟨m', h'⟩, cachesSafe_of_runTillHalt hi hi' hd hd' h'⟩

/-- `addi x1, x0, 5; sw x1, 256(x0); nop; beq x1, x0, +12; lw x2, 256(x0); HALT` has six
instructions, so with latencies of 1 it halts within 81 cycles. -/
theorem pipeline_halts_store :
    let mem : MemoryStore := .image fun
      | 0 => 0x00500093 | 1 => 0x10102023 | 2 => 0x00000013 | 3 => 0x00008663
      | 4 => 0x10002103 | 5 => 0xfeedfeed | _ => 0x00000013
    ∃ m', runTillHalt accessFault 81 (initSimulator (.oneBlock 64) (.oneBlock 64) mem) =
      some m' := by
  intro mem
  obtain ⟨⟨status, m⟩, h, hstatus⟩ := Option.map_eq_some_iff.mp
    (by decide +kernel :
      (FunctMachine.runTillHalt 10 (.initSimulator mem)).map Prod.fst = some .halt)
  obtain rfl : status = .halt := hstatus
  exact (pipeline_halts (by decide) (by decide) (by decide) (by decide) h (by decide +kernel)
    (by decide +kernel) (by decide +kernel)).1

end RvPipeSim
