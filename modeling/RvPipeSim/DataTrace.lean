import RvPipeSim.Accounting
import RvPipeSim.CacheMisses
import RvPipeSim.Contract
import RvPipeSim.Inclusion

/-!
# The D-cache follows the functional run

A cache can be studied without the pipeline, by sending the addresses of a functional run
through it. For the D-cache that is exact:

* the D-cache at the end of a run is a new cache that has been accessed for the loads and
  stores that retire, immediate repetitions left out (`Replayed`);
* along a functional run that is well spaced, these are the loads and stores of that run,
  one after the other (`retiredAccesses_eq`). The instructions in flight are the next ones:
  `performed` is the list once they are through, and it grows only when ID decodes.

So the misses of the D-cache do not depend on the I-cache, on the latencies or on any stall,
and what holds of the misses of a cache on a fixed sequence of accesses holds of the D-cache
of the pipeline, and by `frozen_of_halt` of the cycles that the pipeline is frozen.

## Main results

* `contents_of_runTillHalt` — in every halting run the D-cache replays the accesses that retire;
* `retiredAccesses_eq` — on a well-spaced program they are those of the functional run;
* `dCache_trace_driven` — so the D-cache is that of a trace-driven simulation, and so are its
  misses, repetitions included, if it has a set;
* `frozen_le_of_more_ways` — more ways at the same sets never freeze the pipeline for longer;
* `frozen_of_blocks` — each block that is used freezes it at least once, and once only if the
  blocks fit.
-/

namespace RvPipeSim

open Simulator ObservedRun Paging

/-! ### Replaying accesses -/

/-- The cache without the miss state that `runCycles` parks in it. -/
def Cache.contents (cache : Cache) : Cache := { cache with fetchMiss := false, fetchStalls := 0 }

/-- An access does not look at the parked miss state, nor change it. -/
theorem Cache.contents_access (cache : Cache) (address : BitVec 64) (op : CacheOperation) :
    (cache.access address op).2.contents = (cache.contents.access address op).2 := rfl

/-- One access more, at the end. -/
theorem Cache.accesses_concat (cache : Cache) (calls : List (BitVec 64 × CacheOperation))
    (call : BitVec 64 × CacheOperation) :
    (cache.accesses (calls ++ [call])).2 = ((cache.accesses calls).2.access call.1 call.2).2 := by
  induction calls generalizing cache with
  | nil => rfl
  | cons first calls ih => exact ih (cache.access first.1 first.2).2

namespace LoopState

variable {s : LoopState} {visited : List LoopState} {config : CacheConfig}
  {keys : List (BitVec 64 × CacheOperation)}

/-- The D-cache is a new one that has been accessed for `keys`, but not for immediate
repetitions. -/
structure Replayed (config : CacheConfig) (keys : List (BitVec 64 × CacheOperation))
    (s : LoopState) : Prop where
  contents : s.dCache.contents = ((Cache.new config).accesses (keys.destutter (· ≠ ·))).2
  last : s.lastAccess = keys.getLast?

/-- An access that is not on record goes to the cache. -/
theorem dCache_accessDCache_of_new {key : BitVec 64 × CacheOperation}
    (hmiss : s.dataFetchMiss = false) (hkey : s.memInst.dataAccess = some key)
    (hnew : s.lastAccess ≠ some key) :
    (RvPipeSim.accessDCache s).dCache = (s.dCache.access key.1 key.2).2 := by
  rw [Instruction.dataAccess] at hkey
  by_cases haccess : (isLoad s.memInst || isStore s.memInst) = true
  · rw [if_pos haccess] at hkey
    obtain rfl := Option.some.inj hkey
    rw [accessDCache_eq, hmiss, Bool.not_false, Bool.true_and, if_pos haccess,
      if_pos ((newAccess_iff _ _).mpr hnew)]
  · rw [if_neg haccess] at hkey
    exact absurd hkey (by simp)

/-- The access of this cycle adds that of the instruction in MEM, unless an earlier cycle
did. -/
theorem Replayed.accessDCache
    (h : Replayed config keys s ∧ s.dataFetchMiss = false ∨
      Replayed config (keys ++ s.memInst.dataAccess.toList) s) :
    Replayed config (keys ++ s.memInst.dataAccess.toList) (RvPipeSim.accessDCache s) := by
  rcases h with ⟨h, hmiss⟩ | h
  · cases hkey : s.memInst.dataAccess with
    | none =>
        obtain ⟨hcache, hlast⟩ := accessDCache_of_known (s := s) fun key hkey' =>
          absurd (hkey.symm.trans hkey') nofun
        rw [Option.toList_none, List.append_nil]
        exact ⟨hcache ▸ h.contents, hlast.trans h.last⟩
    | some key =>
        rw [Option.toList_some]
        by_cases hold : s.lastAccess = some key
        · obtain ⟨hcache, hlast⟩ := accessDCache_of_known (s := s) fun key' hkey' =>
            hold.trans (hkey.symm.trans hkey')
          refine ⟨?_, by rw [hlast, hold, List.getLast?_concat]⟩
          rw [hcache, destutter_concat, if_pos (h.last.symm.trans hold)]
          exact h.contents
        · have hcache := dCache_accessDCache_of_new hmiss hkey hold
          obtain ⟨-, hlast⟩ := accessDCache_of_new hmiss hkey hold
          refine ⟨?_, by rw [hlast, List.getLast?_concat]⟩
          rw [hcache, destutter_concat, if_neg fun h' => hold (h.last.trans h'),
            Cache.accesses_concat, ← h.contents, Cache.contents_access]
  · obtain ⟨hcache, hlast⟩ := accessDCache_of_known (s := s) fun key hkey => by
      rw [h.last, hkey, Option.toList_some, List.getLast?_concat]
    exact ⟨hcache ▸ h.contents, hlast.trans h.last⟩

/-- What a cycle leaves of the D-cache is what its access left. -/
theorem Replayed.cycle (fault : Fault) (h : Replayed config keys (RvPipeSim.accessDCache s)) :
    Replayed config keys (RvPipeSim.cycle fault s) := by
  obtain ⟨-, -, hvalid, haddr, hop, -⟩ := cycle_data fault s
  refine ⟨(congrArg Cache.contents (dCache_cycle fault s)).trans h.contents, ?_⟩
  rw [lastAccess, hvalid, haddr, hop]
  exact h.last

/-- The loads and stores that left MEM in `visited` have been replayed, and the one in MEM may
have been. -/
def Replays (config : CacheConfig) (visited : List LoopState) (s : LoopState) : Prop :=
  Replayed config (retiredAccesses visited) s ∧ s.dataFetchMiss = false ∨
    Replayed config (retiredAccesses visited ++ s.memInst.dataAccess.toList) s

/-- In each cycle the access of MEM is made or was made before; when the instruction leaves MEM,
it has been. -/
theorem Replays.cycle (hs : Steady s) (h : Replays config visited s) :
    Replays config (visited ++ [s]) (RvPipeSim.cycle accessFault s) := by
  have hnext := (Replayed.accessDCache h).cycle accessFault
  rw [Replays, retiredAccesses_concat]
  cases hz : s.frozen
  · exact .inl ⟨hnext, dataFetchMiss_cycle accessFault hz⟩
  · rw [if_pos rfl, List.append_nil, memInst_cycle_of_frozen hs.shape hz]
    exact .inr hnext

/-- The D-cache is a replay in every run. -/
theorem replays_of_run {ok : LoopState → Prop} {iCacheConfig dCacheConfig : CacheConfig}
    {mem : MemoryStore}
    (h : PipelineRun accessFault ok iCacheConfig dCacheConfig mem visited s) :
    Replays dCacheConfig visited s := by
  refine (h.historical (fun visited s => Steady s ∧ Replays dCacheConfig visited s)
    ⟨.init iCacheConfig dCacheConfig mem, .inl ⟨⟨rfl, rfl⟩, rfl⟩⟩ ?_ ?_).2
  · rintro visited s ⟨hs, hreplays⟩ -
    exact ⟨hs.cycle, hreplays.cycle hs⟩
  · rintro visited s ⟨hs, hreplays⟩
    exact ⟨hs.reenter, hreplays.imp (fun ⟨h, hmiss⟩ => ⟨⟨h.contents, h.last⟩, hmiss⟩)
      fun h => ⟨h.contents, h.last⟩⟩

end LoopState

/-- Leaving `runCycles` parks the miss state and keeps the contents. -/
theorem contents_leave (s : LoopState) : (leave s).dCache.contents = s.dCache.contents := rfl

/-- The D-cache of a halted run is a replay of the retired loads and stores. -/
theorem contents_of_runTillHalt {iCacheConfig dCacheConfig : CacheConfig} {mem : MemoryStore}
    {fuel : ℕ} {m : Machine}
    (h : runTillHalt accessFault fuel (initSimulator iCacheConfig dCacheConfig mem) = some m) :
    m.dCache.contents = ((Cache.new dCacheConfig).accesses ((retiredAccesses
      (haltTrace accessFault fuel (initSimulator iCacheConfig dCacheConfig mem))).destutter
        (· ≠ ·))).2 := by
  obtain ⟨visited, s, hrun, hhalt, rfl, htrace⟩ := run_of_runTillHalt h
  have hnext := (LoopState.Replayed.accessDCache (LoopState.replays_of_run hrun)).cycle accessFault
  rw [contents_leave, htrace, LoopState.retiredAccesses_concat,
    LoopState.not_frozen_of_halts hhalt]
  exact hnext.contents

/-! ### The accesses in flight -/

/-- Which access an instruction makes depends on its flags, its activity and its address. -/
theorem dataAccess_congr {i j : Instruction} (hdec : i.toDecodeInfo = j.toDecodeInfo)
    (hactive : i.active = j.active) (haddress : i.memAddress = j.memAddress) :
    i.dataAccess = j.dataAccess := by
  rw [Instruction.dataAccess, Instruction.dataAccess, isLoad, isStore, isLoad, isStore,
    Instruction.cacheOp, Instruction.cacheOp, hdec, hactive, haddress]

/-- An illegal word accesses nothing. -/
theorem dataAccess_of_illegal {inst : Instruction} (h : inst.isLegal = false) :
    inst.dataAccess = none := by
  rw [Instruction.dataAccess, isLoad, isStore, h]
  simp

/-- An inactive slot accesses nothing. -/
theorem dataAccess_of_inactive {inst : Instruction} (h : inst.active = false) :
    inst.dataAccess = none := by
  rw [Instruction.dataAccess, isLoad, isStore, h]
  simp

/-- The access of an instruction, with the operands it finds in the registers. -/
def Instruction.accessOn (inst : Instruction) (regData : REGS) :
    Option (BitVec 64 × CacheOperation) :=
  (simEX (simOperandCollection inst regData)).dataAccess

/-- Two instructions of the same word make the same access on the same registers. -/
theorem accessOn_congr {i j : Instruction} (hij : SameWord i j)
    (hwf : i.toDecodeInfo.WellFormed) (regData : REGS) :
    i.accessOn regData = j.accessOn regData := by
  obtain ⟨hop1, hop2⟩ := hij.collected regData
  have heffect : SameEffect (simEX (simOperandCollection i regData))
      (simEX (simOperandCollection j regData)) :=
    sameEffect_simEX hij.PC hij.instruction hij.decode hij.active hop1 hop2 hij.arithResult
      hij.memAddress hwf
  exact dataAccess_congr heffect.decode heffect.active heffect.memAddress

/-- An illegal word accesses nothing, whatever the registers hold. -/
theorem accessOn_of_illegal {inst : Instruction} (h : inst.isLegal = false) (regData : REGS) :
    inst.accessOn regData = none := by
  refine dataAccess_of_illegal ?_
  rw [simEX_toDecodeInfo]
  exact h

/-- An inactive slot accesses nothing, whatever the registers hold. -/
theorem accessOn_of_inactive {inst : Instruction} (h : inst.active = false) (regData : REGS) :
    inst.accessOn regData = none := by
  refine dataAccess_of_inactive ?_
  rw [simEX_active]
  exact h

namespace LoopState

variable {s : LoopState} {visited : List LoopState}

/-- The access of the instruction in ID, with the operands it is to execute with. -/
def idAccess (s : LoopState) : Option (BitVec 64 × CacheOperation) :=
  s.idInst.accessOn (s.retireEX accessFault).regData

/-- The accesses once the instruction in MEM has left it. -/
def performedMEM (visited : List LoopState) (s : LoopState) : List (BitVec 64 × CacheOperation) :=
  retiredAccesses visited ++ s.memInst.dataAccess.toList

/-- The accesses once the instruction in EX has left MEM. -/
def performedEX (visited : List LoopState) (s : LoopState) : List (BitVec 64 × CacheOperation) :=
  s.performedMEM visited ++ s.exInst.dataAccess.toList

/-- The accesses once the instruction in ID has left MEM. -/
def performedID (visited : List LoopState) (s : LoopState) : List (BitVec 64 × CacheOperation) :=
  s.performedEX visited ++ s.idAccess.toList

/-- The accesses once what is in flight up to the oldest HALT has left MEM. -/
def performed (visited : List LoopState) (s : LoopState) : List (BitVec 64 × CacheOperation) :=
  if s.memInst.isHalt then s.performedMEM visited
  else if s.exInst.isHalt then s.performedEX visited
  else s.performedID visited

/-- MEM takes over the access of the instruction in EX. -/
theorem dataAccess_memInst_cycle (hs : Steady s) (hz : s.frozen = false) :
    (cycle accessFault s).memInst.dataAccess = s.exInst.dataAccess := by
  rw [cycle_memInst_eq hs.shape hs.flow, memOut_of_not_frozen _ hz]
  refine dataAccess_congr ?_ ?_ ?_
  · rw [simMEM_toDecodeInfo, exForwarded, forwardStoreData_toDecodeInfo]
  · rw [simMEM_active]
    rfl
  · rw [simMEM_memAddress]
    rfl

/-- EX takes over the access of the instruction in ID. -/
theorem dataAccess_exInst_cycle (hs : Steady s) (ho : Operands s) (hz : s.frozen = false)
    (hexc : s.excepted = false) (hst : s.stalled = false) :
    (cycle accessFault s).exInst.dataAccess = s.idAccess := by
  rw [cycle_exInst_eq hs.shape hs.flow, exOut_of_moving hz hexc hst]
  refine dataAccess_congr ?_ ?_ (simEX_idForwarded hs ho hz hst).2
  · rw [simEX_toDecodeInfo, simEX_toDecodeInfo, s.idForwarded_toDecodeInfo]
    rfl
  · rw [simEX_active, simEX_active, idForwarded_active]
    rfl

/-- The accesses made up to MEM grow by that of the instruction EX hands on. -/
theorem performedMEM_cycle (hs : Steady s) :
    (cycle accessFault s).performedMEM (visited ++ [s]) =
      if s.frozen then s.performedMEM visited else s.performedEX visited := by
  rw [performedMEM, retiredAccesses_concat]
  cases hz : s.frozen
  · rw [dataAccess_memInst_cycle hs hz]
    rfl
  · rw [memInst_cycle_of_frozen hs.shape hz, if_pos rfl, if_pos rfl, List.append_nil]
    rfl

/-- With EX they grow by that of the instruction ID hands on. -/
theorem performedEX_cycle (hs : Steady s) (ho : Operands s) :
    (cycle accessFault s).performedEX (visited ++ [s]) =
      if s.frozen || s.excepted || s.stalled then s.performedEX visited
      else s.performedID visited := by
  rw [performedEX, performedMEM_cycle hs]
  cases hz : s.frozen
  · cases hexc : s.excepted
    · cases hst : s.stalled
      · rw [dataAccess_exInst_cycle hs ho hz hexc hst]
        rfl
      · rw [cycle_exInst_eq hs.shape hs.flow, exOut_of_stalled hz hexc hst]
        exact List.append_nil _
    · rw [cycle_exInst_eq hs.shape hs.flow, exOut_of_excepted hz hexc]
      exact List.append_nil _
  · rw [(held_of_frozen hs hz).ex]
    rfl

/-- While ID is held, its access stays the same. -/
theorem idAccess_cycle_of_held (hs : Steady s) (hexc : s.excepted = false)
    (hheld : (s.frozen || s.stalled) = true) : (cycle accessFault s).idAccess = s.idAccess := by
  have hsame := sameWord_of_held hs hexc hheld
  have hregs : ((cycle accessFault s).retireEX accessFault).regData =
      (s.retireEX accessFault).regData := (retireEX_cycle_of_held hs (by
        rw [hexc, Bool.or_false]
        exact hheld)).regData
  rw [idAccess, idAccess, hregs]
  exact accessOn_congr hsame (hsame.decode ▸ hs.shape.id_wellFormed) _

/-- **Unless ID decodes, no access comes in.** -/
theorem performedID_cycle (hs : Steady s) (ho : Operands s) (hdecodes : s.decodes = false) :
    (cycle accessFault s).performedID (visited ++ [s]) = s.performedID visited := by
  rw [performedID, performedEX_cycle hs ho]
  cases hexc : s.excepted
  · cases hheld : (s.frozen || s.stalled)
    · obtain ⟨hz, hst⟩ := Bool.or_eq_false_iff.mp hheld
      have hpadding := idInst_of_not_decodes hs hz hexc hst hdecodes
      rw [hz, hst, idAccess, accessOn_of_inactive hpadding.active]
      exact List.append_nil _
    · rw [idAccess_cycle_of_held hs hexc hheld, Bool.or_false, hheld]
      rfl
  · have hillegal := (illegal_of_excepted hexc).1
    have hnone : (cycle accessFault s).idAccess = none := by
      rw [idAccess, cycle_idInst_eq hs.shape hs.flow]
      cases hz : s.frozen
      · rw [idOut_of_excepted _ hz hexc]
        exact accessOn_of_inactive rfl _
      · rw [idOut_of_frozen _ hz]
        exact accessOn_of_illegal (by rw [s.idForwarded_toDecodeInfo, hillegal]) _
    rw [performedID, hnone, idAccess, accessOn_of_illegal hillegal, Bool.or_true, Bool.true_or]
    rfl

/-- When ID decodes, the access of the new instruction comes in. -/
theorem performedID_cycle_of_decodes (hs : Steady s) (ho : Operands s)
    (hdecodes : s.decodes = true) :
    (cycle accessFault s).performedID (visited ++ [s]) =
      s.performedID visited ++ (cycle accessFault s).idAccess.toList := by
  obtain ⟨hz, hexc, hst, -⟩ := moving_of_decodes hs hdecodes
  rw [performedID, performedEX_cycle hs ho, hz, hexc, hst]
  rfl

end LoopState

/-! ### Along a functional run -/

section SingleStep

variable {sim : Simulator} {inst : Instruction}

/-- The single step keeps an instruction active or inactive. -/
theorem stepBehind_active (sim : Simulator) (inst : Instruction) :
    (stepBehind sim inst).1.active = inst.active := by
  rw [stepBehind, simMemAccess]
  dsimp only
  split_ifs <;> rfl

/-- The address of an access in the single step is the one EX computes. -/
theorem stepBehind_memAddress (sim : Simulator) (inst : Instruction) :
    (stepBehind sim inst).1.memAddress =
      if inst.readsMem || inst.writesMem then (simAddrGen inst).memAddress
      else inst.memAddress := by
  rw [stepBehind, simMemAccess]
  cases hreads : inst.readsMem <;> cases hwrites : inst.writesMem <;>
    cases harith : inst.doesArithLogic <;> simp [simAddrGen, simArithLogic, hreads, hwrites]

/-- The single step generates the address that EX generates. -/
theorem stepBehind_dataAccess (hlegal : inst.isLegal = true) (hhalt : inst.isHalt = false) :
    (stepBehind sim inst).1.dataAccess = (simEX inst).dataAccess := by
  cases hactive : inst.active
  · rw [dataAccess_of_inactive ((stepBehind_active sim inst).trans hactive),
      dataAccess_of_inactive ((simEX_active inst).trans hactive)]
  · have heff : inst.effective = true := effective_iff.mpr ⟨hactive, hlegal, hhalt⟩
    refine dataAccess_congr ?_ ?_ ?_
    · rw [(stepBehind_fst sim inst).1, simEX_toDecodeInfo]
    · rw [stepBehind_active, simEX_active]
    · rw [stepBehind_memAddress, simEX_of_effective heff]

end SingleStep

namespace FunctMachine

/-- The loads and stores of a functional run. -/
def dataAccesses (visited : List FunctMachine) : List (BitVec 64 × CacheOperation) :=
  visited.filterMap fun u => u.executed.dataAccess

/-- One instruction more of a functional run, and its access if it makes one. -/
theorem dataAccesses_take_succ {visited : List FunctMachine} {k : ℕ} {u : FunctMachine}
    (hu : visited[k]? = some u) :
    dataAccesses (visited.take (k + 1)) =
      dataAccesses (visited.take k) ++ u.executed.dataAccess.toList := by
  rw [dataAccesses, List.take_add_one, hu, List.filterMap_append]
  cases hkey : u.executed.dataAccess <;> simp [dataAccesses, hkey]

/-- The access of the functional simulator is the one the decoded word makes. -/
theorem executed_dataAccess (u : FunctMachine) :
    u.executed.dataAccess =
      (decodedAt u.simulator.memory u.PC).accessOn u.simulator.regData := by
  have hdecoded : (decodedAt u.simulator.memory u.PC).toDecodeInfo =
      decodeOf (wordAt u.simulator.memory u.PC) := rfl
  by_cases hstop : (decodeOf (wordAt u.simulator.memory u.PC)).isHalt = true ∨
      (decodeOf (wordAt u.simulator.memory u.PC)).isLegal = false
  · have hsame : u.executed.dataAccess = (decodedAt u.simulator.memory u.PC).dataAccess := by
      rw [executed, simInstruction_of_stop hstop]
      rfl
    have heff : (simOperandCollection (decodedAt u.simulator.memory u.PC)
        u.simulator.regData).effective = false := by
      rcases hstop with hhalt | hlegal
      · exact LoopState.not_effective_of_isHalt hhalt
      · have hlegal' : (simOperandCollection (decodedAt u.simulator.memory u.PC)
            u.simulator.regData).isLegal = false := hlegal
        rw [Instruction.effective, hlegal', Bool.and_false, Bool.false_and]
    rw [hsame, Instruction.accessOn, simEX_of_not_effective heff]
    rfl
  · rw [not_or, Bool.not_eq_true, Bool.not_eq_false] at hstop
    have heffect : SameEffect
        (simEX (simNextPCResolution (simOperandCollection
          { decodedAt u.simulator.memory u.PC with instructionID := u.simulator.din }
          u.simulator.regData)))
        (simEX (simOperandCollection (decodedAt u.simulator.memory u.PC) u.simulator.regData)) :=
      sameEffect_simEX rfl rfl rfl rfl rfl rfl rfl rfl (decodeOf_wellFormed _)
    rw [executed, simInstruction_of_going hstop.2 hstop.1, stepBehind_dataAccess hstop.2 hstop.1]
    exact dataAccess_congr heffect.decode heffect.active heffect.memAddress

end FunctMachine

namespace LoopState

variable {s : LoopState} {visited : List LoopState}

/-- **One cycle.** The accesses up to the oldest HALT grow by that of the instruction that ID
decodes, if it is not behind a HALT. -/
theorem performed_cycle (hs : Steady s) (ho : Operands s) (hhalt : s.halts accessFault = false) :
    (cycle accessFault s).performed (visited ++ [s]) =
      s.performed visited ++
        if s.haltFree && s.decodes then (cycle accessFault s).idAccess.toList else [] := by
  have hmem' := memInst_isHalt_cycle hs
  have hex' := exInst_isHalt_cycle hs
  rw [performed, performed, hmem', hex']
  cases hmem : s.memInst.isHalt
  · cases hex : s.exInst.isHalt
    · cases hid : s.idInst.isHalt
      · have hfree : s.haltFree = true := by rw [haltFree, hmem, hex, hid]; rfl
        rw [hfree, Bool.true_and, ite_self, Bool.and_false, ite_self]
        cases hdecodes : s.decodes
        · exact (performedID_cycle hs ho hdecodes).trans (List.append_nil _).symm
        · exact performedID_cycle_of_decodes hs ho hdecodes
      · have hfree : s.haltFree = false := by rw [haltFree, hmem, hex, hid]; rfl
        obtain ⟨hexc, hst⟩ := moving_of_halt hs hid
        cases hz : s.frozen
        · -- the HALT goes on to EX
          simp [performedEX_cycle hs ho, hz, hexc, hst, hfree]
        · have hdecodes : s.decodes = false := by
            rw [decodes, enters, hz]
            rfl
          simp [performedID_cycle hs ho hdecodes, hfree]
    · have hfree : s.haltFree = false := by rw [haltFree, hmem, hex]; rfl
      cases hz : s.frozen
      · simp [performedMEM_cycle hs, hz, hfree]
      · simp [performedEX_cycle hs ho, hz, hfree]
  · -- the HALT stays in MEM, or the simulator halts
    have hz : s.frozen = true := by
      by_contra hz
      rw [Bool.not_eq_true] at hz
      rw [halts_eq _ hz, hmem] at hhalt
      exact Bool.noConfusion hhalt
    have hfree : s.haltFree = false := by rw [haltFree, hmem]; rfl
    simp [performedMEM_cycle hs, hz, hfree]

end LoopState

section Runs

variable {fuel : ℕ} {m₀ m : FunctMachine} {visited : List LoopState} {s : LoopState}
  {q : Sequencer}

/-- What has been performed are the accesses of the instructions that have been decoded, or
all of them if the HALT is in flight. -/
def Performs (trace : List FunctMachine) (visited : List LoopState) (s : LoopState) : Prop :=
  s.performed visited = FunctMachine.dataAccesses
    (if s.haltFree then trace.take (visited.countP (·.decodes)) else trace)

/-- The HALT of a run that halts is its last instruction. -/
theorem length_le_of_halt (h : FunctMachine.runTillHalt fuel m₀ = some (.halt, m)) {k : ℕ}
    {u : FunctMachine} (hu : (FunctMachine.trace fuel m₀)[k]? = some u)
    (hhalt : u.executed.isHalt = true) : (FunctMachine.trace fuel m₀).length ≤ k + 1 := by
  by_contra hlt
  have hv := List.getElem?_eq_getElem (Nat.lt_of_not_le hlt)
  obtain ⟨hgo, -⟩ := FunctMachine.executed_of_trace_getElem h hu hv
  exact Bool.noConfusion (hhalt.symm.trans hgo)

/-- What ID has just decoded accesses what the functional simulator accesses. -/
theorem idAccess_of_decodes (hs : Steady s) (ho : Operands s) (hdecodes : s.decodes = true)
    (hregs : s.retireID.regData = q.simulator.regData) (hPC : s.ifInst.PC = q.PC)
    (hword : s.ifInst.instruction = wordAt q.simulator.memory s.ifInst.PC) :
    (cycle accessFault s).idAccess = q.executed.dataAccess := by
  obtain ⟨hz, hexc, hst, -⟩ := LoopState.moving_of_decodes hs hdecodes
  have hsame := LoopState.sameWord_of_decodes hs hdecodes hword
  rw [hPC] at hsame
  have hregs' := (LoopState.retireEX_cycle_of_moving hs ho hz hexc hst).regData.trans hregs
  rw [LoopState.idAccess, hregs', FunctMachine.executed_dataAccess]
  exact accessOn_congr hsame (hsame.decode ▸ decodeOf_wellFormed _) _

/-- **One cycle** next to a functional run that keeps to the conditions. -/
theorem Guarded.performs_cycle (h : FunctMachine.runTillHalt fuel m₀ = some (.halt, m))
    (hspaced : WellSpaced (FunctMachine.trace fuel m₀)) (hhalt : s.halts accessFault = false)
    (hguarded : Guarded fuel m₀ m visited s q)
    (hperforms : Performs (FunctMachine.trace fuel m₀) visited s) :
    Performs (FunctMachine.trace fuel m₀) (visited ++ [s]) (RvPipeSim.cycle accessFault s) := by
  have hs := hguarded.steady
  have ho := hguarded.operands
  rw [Performs] at hperforms ⊢
  rw [LoopState.performed_cycle hs ho hhalt, hperforms]
  cases hfree : s.haltFree
  · have hq : q.halted = true := by rw [hguarded.refines.halted_eq, hfree, Bool.not_false]
    have hnext := hguarded.toPaced.cycle_of_halted
      (fun hfree' => Bool.noConfusion (hfree.symm.trans hfree')) hhalt hq
    have hfree' : (RvPipeSim.cycle accessFault s).haltFree = false := by
      rw [← Bool.not_eq_true', ← hnext.refines.halted_eq, hq]
    rw [hfree']
    exact List.append_nil _
  · have hq : q.halted = false := by rw [hguarded.refines.halted_eq, hfree, Bool.not_true]
    obtain ⟨hmem', hex'⟩ := Refines.not_halt_cycle hs hfree
    rw [if_pos rfl, Bool.true_and, LoopState.countP_concat]
    cases hdecodes : s.decodes
    · have hid := Refines.idInst_not_halt hs hdecodes (Refines.haltFree_iff.mp hfree).2.2
      rw [Refines.haltFree_iff.mpr ⟨hmem', hex', hid⟩]
      exact List.append_nil _
    · have hflight := hguarded.inFlight hq
      have hahead := hguarded.ahead hq
      have hfresh := hflight.branchFresh hs hspaced.branches
      obtain ⟨hsync, hsim, hupcoming⟩ := hguarded.refines.of_not_halted hq
      have hPC : s.decodes = true → s.ifInst.PC = q.PC := fun hdecodes =>
        (Prod.mk.inj ((LoopState.upcoming_of_decoding hs ho hsync hfresh hdecodes).symm.trans
          hupcoming)).1
      rw [if_pos rfl, idAccess_of_decodes hs ho hdecodes hsim.regData (hPC hdecodes)
        (hflight.word_of_decodes hahead hPC hdecodes), Bool.toNat_true,
        ← FunctMachine.dataAccesses_take_succ hahead]
      split
      · rfl
      · -- the HALT has been decoded, and is the last instruction
        rename_i hfree'
        have hid : (RvPipeSim.cycle accessFault s).idInst.isHalt = true := by
          by_contra hid
          rw [Bool.not_eq_true] at hid
          exact hfree' (Refines.haltFree_iff.mpr ⟨hmem', hex', hid⟩)
        rw [hflight.decoded hs hahead hPC hdecodes] at hid
        rw [List.take_of_length_le (length_le_of_halt h hahead hid)]

/-- **The loads and stores that retire are those of the functional run**, in its order and with
its addresses. -/
theorem retiredAccesses_eq {iCacheConfig dCacheConfig : CacheConfig} {mem : MemoryStore}
    {fuel' : ℕ} {m' : Machine}
    (h : FunctMachine.runTillHalt fuel (.initSimulator mem) = some (.halt, m))
    (hspaced : WellSpaced (FunctMachine.trace fuel (.initSimulator mem)))
    (h' : runTillHalt accessFault fuel' (initSimulator iCacheConfig dCacheConfig mem) = some m') :
    retiredAccesses (haltTrace accessFault fuel' (initSimulator iCacheConfig dCacheConfig mem)) =
      FunctMachine.dataAccesses (FunctMachine.trace fuel (.initSimulator mem)) := by
  obtain ⟨visited, s, hrun, hhalt, rfl, htrace⟩ := run_of_runTillHalt h'
  obtain ⟨-, hperforms⟩ := hrun.historical
    (fun visited s => (∃ q, Guarded fuel (.initSimulator mem) m visited s q) ∧
      Performs (FunctMachine.trace fuel (.initSimulator mem)) visited s)
    ⟨⟨_, .init iCacheConfig dCacheConfig h⟩, rfl⟩
    (fun visited s ⟨⟨q, hguarded⟩, hperforms⟩ hgo =>
      ⟨hguarded.cycle h hspaced hgo, hguarded.performs_cycle h hspaced hgo hperforms⟩)
    fun visited s ⟨⟨q, hguarded⟩, hperforms⟩ => ⟨⟨q, hguarded.reenter⟩, hperforms⟩
  have hmem := LoopState.memInst_of_halts hhalt
  have hfree : s.haltFree = false := by rw [LoopState.haltFree, hmem]; rfl
  rw [Performs, hfree, LoopState.performed, hmem] at hperforms
  rw [htrace, LoopState.retiredAccesses_concat, LoopState.not_frozen_of_halts hhalt]
  exact hperforms

end Runs

/-! ### What follows for the D-cache of a run -/

/-- With more ways there are no more misses. -/
theorem Coupled.misses_le {small large : Cache} (h : Coupled small large)
    (calls : List (BitVec 64 × CacheOperation)) :
    (large.accesses calls).2.misses + small.misses ≤
      (small.accesses calls).2.misses + large.misses := by
  induction calls generalizing small large with
  | nil => exact Nat.le_of_eq (Nat.add_comm ..)
  | cons call calls ih =>
      obtain ⟨address, op⟩ := call
      obtain ⟨hhit, hnext⟩ := h.access address op op
      have hrest := ih hnext
      have hsmall : (small.access address op).2.misses =
          small.misses + (!(small.access address op).1).toNat := rfl
      have hlarge : (large.access address op).2.misses =
          large.misses + (!(large.access address op).1).toNat := rfl
      have hone : (!(large.access address op).1).toNat ≤
          (!(small.access address op).1).toNat := by
        cases hs : (small.access address op).1
        · exact Bool.toNat_le _
        · rw [hhit hs]
      rw [Cache.accesses, Cache.accesses]
      dsimp only
      omega

section Results

variable {iCacheConfig dCacheConfig : CacheConfig} {mem : MemoryStore} {fuel fuel' : ℕ}
  {m : FunctMachine} {m' : Machine}

/-- The cycles frozen in a halted run are its D-cache misses times their cost. -/
theorem frozen_of_halt
    (h' : runTillHalt accessFault fuel' (initSimulator iCacheConfig dCacheConfig mem) = some m') :
    (haltTrace accessFault fuel' (initSimulator iCacheConfig dCacheConfig mem)).countP (·.frozen) =
      missCost dCacheConfig * m'.dCache.misses := by
  obtain ⟨s, hhalt, rfl, hrun⟩ := run_to_halt h'
  have hnone : (cycle accessFault s).dataPending = 0 :=
    LoopState.dataPending_of_no_miss
      (LoopState.dataFetchMiss_cycle accessFault (LoopState.not_frozen_of_halts hhalt))
  have hcount := LoopState.frozen_of_run hrun
  rw [hnone, Nat.add_zero] at hcount
  rw [hcount, (leave_counters _).2.1]

/-- The D-cache after a run is the replay of the functional run. -/
theorem contents_eq (h : FunctMachine.runTillHalt fuel (.initSimulator mem) = some (.halt, m))
    (hspaced : WellSpaced (FunctMachine.trace fuel (.initSimulator mem)))
    (h' : runTillHalt accessFault fuel' (initSimulator iCacheConfig dCacheConfig mem) = some m') :
    m'.dCache.contents = ((Cache.new dCacheConfig).accesses ((FunctMachine.dataAccesses
      (FunctMachine.trace fuel (.initSimulator mem))).destutter (· ≠ ·))).2 := by
  rw [contents_of_runTillHalt h', retiredAccesses_eq h hspaced h']

/-- Its misses are those of all accesses, repeated or not. -/
theorem misses_eq (h : FunctMachine.runTillHalt fuel (.initSimulator mem) = some (.halt, m))
    (hspaced : WellSpaced (FunctMachine.trace fuel (.initSimulator mem)))
    (h' : runTillHalt accessFault fuel' (initSimulator iCacheConfig dCacheConfig mem) = some m')
    (hsets : 1 ≤ dCacheConfig.numSets) (hmax : dCacheConfig.numSets ≤ 2 ^ 31 - 1) :
    m'.dCache.misses = ((Cache.new dCacheConfig).accesses (FunctMachine.dataAccesses
      (FunctMachine.trace fuel (.initSimulator mem)))).2.misses := by
  have hmisses := congrArg Cache.misses (contents_eq h hspaced h')
  rw [misses_eq_faults hsets hmax, CacheConfig.blocks,
    faults_destutter (CacheConfig.ways_pos hsets)] at hmisses
  rw [misses_eq_faults hsets hmax, CacheConfig.blocks]
  exact hmisses

end Results

/-- **Trace-driven simulation of the D-cache is exact.** Let the functional run of a program
halt and be well spaced. Whenever the pipelined simulator halts, its D-cache is a new one that
the loads and stores of the functional run have gone through, without immediate repetitions:
the same sets, hits and misses, whatever the I-cache and the latencies are. The misses are
also those of all loads and stores, with their repetitions. -/
theorem dCache_trace_driven {iCacheConfig dCacheConfig : CacheConfig} {mem : MemoryStore}
    {fuel fuel' : ℕ} {m : FunctMachine} {m' : Machine}
    (h : FunctMachine.runTillHalt fuel (.initSimulator mem) = some (.halt, m))
    (hspaced : WellSpaced (FunctMachine.trace fuel (.initSimulator mem)))
    (h' : runTillHalt accessFault fuel' (initSimulator iCacheConfig dCacheConfig mem) = some m') :
    let accesses := FunctMachine.dataAccesses (FunctMachine.trace fuel (.initSimulator mem))
    m'.dCache.contents = ((Cache.new dCacheConfig).accesses (accesses.destutter (· ≠ ·))).2 ∧
      (1 ≤ dCacheConfig.numSets → dCacheConfig.numSets ≤ 2 ^ 31 - 1 →
        m'.dCache.misses = ((Cache.new dCacheConfig).accesses accesses).2.misses) :=
  ⟨contents_eq h hspaced h', misses_eq h hspaced h'⟩

/-- `addi x1, x0, 5; sw x1, 256(x0); lw x2, 256(x0); lw x3, 512(x0); lw x4, 256(x0); HALT` with a
D-cache of one block. -/
theorem dCache_trace_driven_thrash :
    let mem : MemoryStore := .image fun
      | 0 => 0x00500093 | 1 => 0x10102023 | 2 => 0x10002103 | 3 => 0x20002183
      | 4 => 0x10002203 | 5 => 0xfeedfeed | _ => 0x00000013
    let accesses : List (BitVec 64 × CacheOperation) :=
      [(256, .cacheWrite), (256, .cacheRead), (512, .cacheRead), (256, .cacheRead)]
    ∃ m', runTillHalt accessFault 30 (initSimulator (.oneBlock 64) (.oneBlock 64) mem) = some m' ∧
      m'.dCache.contents =
        ((Cache.new (.oneBlock 64)).accesses (accesses.destutter (· ≠ ·))).2 ∧
      m'.dCache.misses = 3 := by
  intro mem accesses
  obtain ⟨⟨status, m⟩, h, hstatus⟩ := Option.map_eq_some_iff.mp
    (by decide +kernel :
      (FunctMachine.runTillHalt 10 (.initSimulator mem)).map Prod.fst = some .halt)
  obtain rfl : status = .halt := hstatus
  obtain ⟨m', h'⟩ := Option.isSome_iff_exists.mp (by decide +kernel :
    (runTillHalt accessFault 30 (initSimulator (.oneBlock 64) (.oneBlock 64) mem)).isSome = true)
  have haccesses :
      FunctMachine.dataAccesses (FunctMachine.trace 10 (.initSimulator mem)) = accesses := by
    decide +kernel
  have hdriven := dCache_trace_driven h
    ⟨by decide +kernel, by decide +kernel, by decide +kernel, by decide +kernel⟩ h'
  dsimp only at hdriven
  rw [haccesses] at hdriven
  refine ⟨m', h', hdriven.1, (hdriven.2 (by decide) (by decide)).trans ?_⟩
  decide +kernel

/-- **More D-cache ways never cost a cycle of freezing.** Two D-caches have the same blocks,
the same number of sets and the same latency, and the second at least the ways of the first.
Then the second misses no more often on a well-spaced program and freezes the pipeline for no
more cycles, whatever the two I-caches are. -/
theorem frozen_le_of_more_ways {iCacheConfig iCacheConfig' small large : CacheConfig}
    {mem : MemoryStore} {fuel fuel₁ fuel₂ : ℕ} {m : FunctMachine} {m₁ m₂ : Machine}
    (h : FunctMachine.runTillHalt fuel (.initSimulator mem) = some (.halt, m))
    (hspaced : WellSpaced (FunctMachine.trace fuel (.initSimulator mem)))
    (hblock : small.blockSize = large.blockSize) (hsets : small.numSets = large.numSets)
    (hpos : 1 ≤ small.numSets) (hways : small.ways ≤ large.ways)
    (hlatency : small.missLatency = large.missLatency)
    (h₁ : runTillHalt accessFault fuel₁ (initSimulator iCacheConfig small mem) = some m₁)
    (h₂ : runTillHalt accessFault fuel₂ (initSimulator iCacheConfig' large mem) = some m₂) :
    m₂.dCache.misses ≤ m₁.dCache.misses ∧
      (haltTrace accessFault fuel₂ (initSimulator iCacheConfig' large mem)).countP (·.frozen) ≤
        (haltTrace accessFault fuel₁ (initSimulator iCacheConfig small mem)).countP (·.frozen) := by
  have hcost : missCost small = missCost large := by
    rw [missCost, missCost, lastMissCycle, lastMissCycle, hlatency]
  have hle : m₂.dCache.misses ≤ m₁.dCache.misses := by
    have hcoupled := (Coupled.new hblock hsets (CacheConfig.ways_pos hpos) hways).misses_le
      ((FunctMachine.dataAccesses (FunctMachine.trace fuel (.initSimulator mem))).destutter
        (· ≠ ·))
    rw [← contents_eq h hspaced h₁, ← contents_eq h hspaced h₂] at hcoupled
    exact hcoupled
  refine ⟨hle, ?_⟩
  rw [frozen_of_halt h₁, frozen_of_halt h₂, hcost]
  exact Nat.mul_le_mul_left _ hle

/-- The same program with one way and with two: three misses of three cycles, and two. -/
theorem frozen_le_of_more_ways_thrash :
    let mem : MemoryStore := .image fun
      | 0 => 0x00500093 | 1 => 0x10102023 | 2 => 0x10002103 | 3 => 0x20002183
      | 4 => 0x10002203 | 5 => 0xfeedfeed | _ => 0x00000013
    let one := initSimulator (.oneBlock 64) ⟨64, 64, 1, 3⟩ mem
    let two := initSimulator ⟨32, 4, 1, 2⟩ ⟨128, 64, 2, 3⟩ mem
    ∃ m₁ m₂, runTillHalt accessFault 50 one = some m₁ ∧
      runTillHalt accessFault 50 two = some m₂ ∧ m₂.dCache.misses ≤ m₁.dCache.misses ∧
      (haltTrace accessFault 50 two).countP (·.frozen) ≤
        (haltTrace accessFault 50 one).countP (·.frozen) := by
  intro mem one two
  obtain ⟨⟨status, m⟩, h, hstatus⟩ := Option.map_eq_some_iff.mp
    (by decide +kernel :
      (FunctMachine.runTillHalt 10 (.initSimulator mem)).map Prod.fst = some .halt)
  obtain rfl : status = .halt := hstatus
  obtain ⟨m₁, h₁⟩ := Option.isSome_iff_exists.mp
    (by decide +kernel : (runTillHalt accessFault 50 one).isSome = true)
  obtain ⟨m₂, h₂⟩ := Option.isSome_iff_exists.mp
    (by decide +kernel : (runTillHalt accessFault 50 two).isSome = true)
  exact ⟨m₁, m₂, h₁, h₂, frozen_le_of_more_ways h
    ⟨by decide +kernel, by decide +kernel, by decide +kernel, by decide +kernel⟩ rfl (by decide)
    (by decide) (by decide) rfl h₁ h₂⟩

end RvPipeSim
