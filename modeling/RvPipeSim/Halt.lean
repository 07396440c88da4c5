import RvPipeSim.Conservation

/-!
# Behind a HALT

`runTillHalt` returns in the cycle that finds a HALT in WB, after all stages of that cycle
have run. Registers change in WB only and memory in MEM only, so what is younger than the
HALT never gets to write a register; but in that last cycle MEM has already performed the
access of the instruction right behind the HALT. `halt_shields_iff` says exactly when
nothing younger than the HALT has an effect: when that instruction is not a store that
changes memory.
-/

namespace RvPipeSim

open Simulator ObservedRun

/-- No instruction of a number above `n` changed a register or a byte of memory in the
cycles from `trace`: registers change where `simWB` is called, memory where `simMEM` is. -/
def Shielded (fault : Fault) (n : ℕ) (trace : List LoopState) : Prop :=
  ∀ t ∈ trace,
    (∀ inst m, t.wbCall = some inst → inst.seq = some m → n < m → ∀ r,
      (cycle fault t).simulator.regData.registers r = t.simulator.regData.registers r) ∧
    (∀ inst m, t.memCall = some inst → inst.seq = some m → n < m → ∀ address,
      (cycle fault t).simulator.memory.byteAt address = t.simulator.memory.byteAt address)

namespace LoopState

variable {s : LoopState}

/-- The cycle that returns HALT hands a HALT from MEM to `simWB`. -/
theorem wbCall_of_halts {fault : Fault} (h : Shape s) (hhalt : s.halts fault = true) :
    s.wbCall = some s.memInst ∧ s.memInst.isHalt = true ∧ s.memInst.instruction = haltWord ∧
      ∃ n, s.memInst.seq = some n := by
  rw [halts, cycle_wbInst, wbStage] at hhalt
  cases hz : s.frozen
  · rw [hz, if_neg Bool.false_ne_true, simWB_toDecodeInfo] at hhalt
    rcases h.memSlot with ⟨status, hpad⟩ | hpassed
    · rw [hpad] at hhalt
      exact Bool.noConfusion hhalt
    · have hword : (decodeOf s.memInst.instruction).isHalt = true := by
        rw [← hpassed.decode]
        exact hhalt
      exact ⟨if_neg (by simp [hz]), hhalt, decodeOf_isHalt hword,
        Option.isSome_iff_exists.mp hpassed.numbered⟩
  · rw [hz, if_pos rfl] at hhalt
    exact Bool.noConfusion hhalt

/-- What is handed to `simWB` and `simMEM` is not squashed. -/
theorem callNumber_simWB (hu : Unsquashed s) {inst : Instruction} (hcall : s.wbCall = some inst) :
    s.callNumber .simWB = inst.seq := by
  rw [callNumber, call, hcall, ← (wbCall_eq_some hcall).2]
  exact live_of_unsquashed number_nop hu.mem

/-- Where nothing is squashed, MEM is handed what has its number in the log. -/
theorem callNumber_simMEM (hu : Unsquashed s) {inst : Instruction}
    (hcall : s.memCall = some inst) : s.callNumber .simMEM = inst.seq := by
  rw [callNumber, call, hcall, ← (memCall_eq_some hcall).2]
  exact (live_of_unsquashed number_nop hu.ex : s.exInst.number = s.exInst.seq)

/-- A store in EX has a number. -/
theorem seq_of_store (h : Shape s) (hstore : isStore s.exInst = true) :
    ∃ m, s.exInst.seq = some m := by
  rcases h.exSlot with ⟨status, hpad⟩ | hpassed
  · rw [hpad] at hstore
    exact Bool.noConfusion hstore
  · exact Option.isSome_iff_exists.mp hpassed.numbered

end LoopState

section Younger

variable {iCacheConfig dCacheConfig : CacheConfig} {mem : MemoryStore}
  {ok : LoopState → Prop} {visited : List LoopState} {s : LoopState} {n m : ℕ}

/-- No number above the one in MEM has been handed to `simWB`. -/
theorem not_younger_in_simWB
    (h : PipelineRun accessFault ok iCacheConfig dCacheConfig mem visited s)
    (hn : s.memInst.seq = some n) (hm : m ∈ callLog visited .simWB) : m < n := by
  have hlive : s.memInst.number = some n :=
    (live_of_unsquashed number_nop (Steady.of_run h).1.unsquashed.mem).trans hn
  exact (List.pairwise_append.mp ((InOrder.of_run h).sorted .simWB)).2.2 m hm n
    (by simp [LoopState.upstream, hlive])

/-- No number above the one in MEM has been handed to `simMEM`. -/
theorem not_younger_in_simMEM
    (h : PipelineRun accessFault ok iCacheConfig dCacheConfig mem visited s)
    (hn : s.memInst.seq = some n) (hm : m ∈ callLog visited .simMEM) : m ≤ n := by
  have hlive : s.memInst.number = some n :=
    (live_of_unsquashed number_nop (Steady.of_run h).1.unsquashed.mem).trans hn
  have hstart : Steady (enter (initSimulator iCacheConfig dCacheConfig mem)) :=
    (Steady.of_run (.refl : PipelineRun accessFault ok iCacheConfig dCacheConfig mem [] _)).1
  have hlog : callLog visited .simMEM = callLog visited .simWB ++ [n] := by
    have hconserved := conserved_memInst (a := FetchInfo.seq) hstart h
    rw [show s.memInst.live FetchInfo.seq = some n from hlive] at hconserved
    exact hconserved
  rw [hlog, List.mem_append, List.mem_singleton] at hm
  rcases hm with hm | rfl
  · exact Nat.le_of_lt (not_younger_in_simWB h hn hm)
  · exact Nat.le_refl m

/-- What EX holds is younger than what MEM holds. -/
theorem younger_in_EX
    (h : PipelineRun accessFault ok iCacheConfig dCacheConfig mem visited s)
    (hn : s.memInst.seq = some n) (hm : s.exInst.seq = some m) : n < m := by
  have hu := (Steady.of_run h).1.unsquashed
  have hlive : s.memInst.number = some n := (live_of_unsquashed number_nop hu.mem).trans hn
  have hlive' : s.exInst.number = some m := (live_of_unsquashed number_nop hu.ex).trans hm
  have hsorted := (List.pairwise_append.mp ((InOrder.of_run h).sorted .simWB)).2.1
  rw [LoopState.upstream, hlive, hlive'] at hsorted
  exact (List.pairwise_append.mp hsorted).2.2 n (by simp) m (by simp)

/-- Before the last cycle nothing younger than the instruction in MEM has an effect. -/
theorem shielded_before
    (h : PipelineRun accessFault ok iCacheConfig dCacheConfig mem visited s)
    (hn : s.memInst.seq = some n) : Shielded accessFault n visited := by
  intro t ht
  have hu := ((Steady.of_run h).2 t ht).unsquashed
  refine ⟨fun inst m hcall hm hlt => ?_, fun inst m hcall hm hlt => ?_⟩
  · have hnumber := (LoopState.callNumber_simWB hu hcall).trans hm
    have hless := not_younger_in_simWB h hn (List.mem_filterMap.mpr ⟨t, ht, hnumber⟩)
    omega
  · have hnumber := (LoopState.callNumber_simMEM hu hcall).trans hm
    have hless := not_younger_in_simMEM h hn (List.mem_filterMap.mpr ⟨t, ht, hnumber⟩)
    omega

/-- In the last cycle everything hangs on the store that may be behind the HALT. -/
theorem shielded_last
    (h : PipelineRun accessFault ok iCacheConfig dCacheConfig mem visited s)
    (hn : s.memInst.seq = some n) (hz : s.frozen = false) :
    Shielded accessFault n [s] ↔
      (isStore s.exInst = true → ∀ address,
        (storedMemory s.exForwarded s.simulator.memory).byteAt address =
          s.simulator.memory.byteAt address) := by
  have hshape := (Steady.of_run h).1.shape
  have hmemory : (cycle accessFault s).simulator.memory = _ :=
    LoopState.memory_cycle hshape hz
  constructor
  · intro hshield hstore address
    obtain ⟨m, hm⟩ := LoopState.seq_of_store hshape hstore
    have hcall : s.memCall = some s.exForwarded := if_neg (by simp [hz])
    have hkept := (hshield s (List.mem_singleton.mpr rfl)).2 _ m hcall hm
      (younger_in_EX h hn hm) address
    rwa [hmemory, if_pos hstore] at hkept
  · intro hstore t ht
    obtain rfl := List.mem_singleton.mp ht
    refine ⟨fun inst m hcall hm hlt => ?_, fun inst m hcall hm hlt address => ?_⟩
    · -- the HALT itself
      rw [← (LoopState.wbCall_eq_some hcall).2, hn] at hm
      obtain rfl : n = m := Option.some.inj hm
      exact absurd hlt (Nat.lt_irrefl n)
    · rw [hmemory]
      split <;> rename_i hst
      · exact hstore hst address
      · rfl

end Younger

/-- **What is behind a HALT has no effect, unless it is a store that has just got to MEM.**
A halting `runTillHalt` ends with a cycle that hands a HALT to `simWB`. When it returns, no
instruction fetched after that HALT has changed a register or a byte of memory, if and only
if the instruction in EX at the start of that cycle is not a store that changes memory. -/
theorem halt_shields_iff {iCacheConfig dCacheConfig : CacheConfig} {mem : MemoryStore}
    {fuel : ℕ} {m' : Machine}
    (h : runTillHalt accessFault fuel (initSimulator iCacheConfig dCacheConfig mem) = some m') :
    ∃ visited s halt n,
      haltTrace accessFault fuel (initSimulator iCacheConfig dCacheConfig mem) = visited ++ [s] ∧
      m' = leave (cycle accessFault s) ∧ s.wbCall = some halt ∧ halt.isHalt = true ∧
      halt.instruction = haltWord ∧ halt.seq = some n ∧
      (Shielded accessFault n (visited ++ [s]) ↔
        (isStore s.exInst = true → ∀ address,
          (storedMemory s.exForwarded s.simulator.memory).byteAt address =
            s.simulator.memory.byteAt address)) := by
  obtain ⟨visited, s, hrun, hhalt, hm', htrace⟩ := run_of_runTillHalt h
  obtain ⟨hcall, hishalt, hword, n, hn⟩ :=
    LoopState.wbCall_of_halts (Steady.of_run hrun).1.shape hhalt
  obtain ⟨hz, -⟩ := LoopState.wbCall_eq_some hcall
  refine ⟨visited, s, s.memInst, n, htrace, hm', hcall, hishalt, hword, hn, ?_⟩
  rw [← shielded_last hrun hn hz]
  constructor
  · intro hall t ht
    exact hall t (List.mem_append_right _ ht)
  · intro hlast t ht
    rcases List.mem_append.mp ht with ht | ht
    · exact shielded_before hrun hn t ht
    · exact hlast t ht

/-- `addi x1, x0, 1; HALT; sw x1, 256(x0)`: the store behind the HALT is carried out. -/
theorem halt_not_shielded :
    ∃ visited s halt n,
      haltTrace accessFault 20 (initSimulator (.oneBlock 64) (.oneBlock 64)
        (.image fun | 0 => 0x00100093 | 1 => 0xfeedfeed | 2 => 0x10102023 | _ => 0x00000013)) =
          visited ++ [s] ∧
      s.wbCall = some halt ∧ halt.isHalt = true ∧ halt.seq = some n ∧
      ¬ Shielded accessFault n (visited ++ [s]) := by
  refine ⟨_, _, _, 1, (List.dropLast_concat_getLast (List.cons_ne_nil _ _)).symm,
    if_neg (by decide +kernel), by decide +kernel, by decide +kernel, ?_⟩
  intro hshield
  have hkept := (hshield _ (List.mem_append_right _ (List.mem_singleton.mpr rfl))).2 _ 2
    (if_neg (by decide +kernel)) (by decide +kernel) (by decide) 256
  exact absurd hkept (by decide +kernel)

/-- `addi x1, x0, 1; HALT; addi x1, x0, 1`: nothing behind the HALT has an effect. -/
theorem halt_shields_addi :
    let m := initSimulator (.oneBlock 64) (.oneBlock 64)
      (.image fun | 0 => 0x00100093 | 1 => 0xfeedfeed | _ => 0x00100093)
    ∃ visited s n, haltTrace accessFault 20 m = visited ++ [s] ∧
      Shielded accessFault n (visited ++ [s]) := by
  intro m
  obtain ⟨m', h⟩ := Option.isSome_iff_exists.mp
    (by decide +kernel : (runTillHalt accessFault 20 m).isSome = true)
  obtain ⟨visited, s, halt, n, htrace, -, -, -, -, -, hiff⟩ := halt_shields_iff h
  refine ⟨visited, s, n, htrace, hiff.mpr fun hstore => ?_⟩
  -- the last state of the trace is the one in which an `addi` is in EX
  have hlast : ((haltTrace accessFault 20 m).getLast?.map fun t => isStore t.exInst) =
      some false := by decide +kernel
  rw [htrace, List.getLast?_append, List.getLast?_singleton] at hlast
  have hlast' : isStore s.exInst = false := Option.some.inj hlast
  rw [hlast'] at hstore
  exact Bool.noConfusion hstore

end RvPipeSim
