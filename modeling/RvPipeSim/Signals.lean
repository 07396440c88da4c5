import Mathlib.Tactic.SplitIfs
import RvPipeSim.Stages

/-!
# One cycle, named

The loop body of `runCycles` computes a handful of control signals and then five new
slots from the old ones. This module names those quantities as functions of the state at
the start of the cycle, and shows that `cycle` is made of them, field by field. Later
modules argue about the names and never unfold `cycle`.

* `frozen`, `excepted`, `stalled`, `starved`: the data miss, illegal-instruction, hazard
  and instruction-miss signals the stages test, in the order they test them.
* `memOut`, `exOut`, `idOut`, `fetchOut`: what each stage leaves behind.
* `wbCall`, `memCall`, `exCall`, `idCall`: the instruction handed to `simWB`, `simMEM`,
  `simEX` and `simID` in this cycle, if the stage calls it.
-/

namespace RvPipeSim

open Simulator

namespace LoopState

variable (fault : Fault) (s : LoopState)

/-! ### The slots -/

/-- The instruction in IF. -/
abbrev ifInst : Instruction := s.pipelineInfo.ifInst
/-- The instruction in ID. -/
abbrev idInst : Instruction := s.pipelineInfo.idInst
/-- The instruction in EX. -/
abbrev exInst : Instruction := s.pipelineInfo.exInst
/-- The instruction in MEM. -/
abbrev memInst : Instruction := s.pipelineInfo.memInst
/-- The instruction in WB. -/
abbrev wbInst : Instruction := s.pipelineInfo.wbInst

/-! ### Detection leaves the pipeline alone -/

/-- The D-cache access sets the last access, the cache and the state of its miss. -/
theorem accessDCache_frame :
    accessDCache s =
      { s with
        prevDValid := (accessDCache s).prevDValid
        prevDAddr := (accessDCache s).prevDAddr
        prevDOp := (accessDCache s).prevDOp
        dCache := (accessDCache s).dCache
        dataFetchMiss := (accessDCache s).dataFetchMiss
        dataMissStalls := (accessDCache s).dataMissStalls } := by
  unfold accessDCache
  dsimp only
  split_ifs <;> rfl

/-- The D-cache holds no data: an access leaves registers and memory alone. -/
@[simp] theorem accessDCache_simulator : (accessDCache s).simulator = s.simulator := by
  rw [accessDCache_frame]

/-- The slots of the pipeline are not touched. -/
@[simp] theorem accessDCache_pipelineInfo :
    (accessDCache s).pipelineInfo = s.pipelineInfo := by
  rw [accessDCache_frame]

/-- Nor is the PC. -/
@[simp] theorem accessDCache_PC : (accessDCache s).PC = s.PC := by
  rw [accessDCache_frame]

/-- An access fetches nothing. -/
@[simp] theorem accessDCache_fetched : (accessDCache s).fetched = s.fetched := by
  rw [accessDCache_frame]

/-- It completes no instruction. -/
@[simp] theorem accessDCache_completedCount :
    (accessDCache s).completedCount = s.completedCount := by
  rw [accessDCache_frame]

/-- Load-use stalls are counted by the hazard checks alone. -/
@[simp] theorem accessDCache_loadStallCount :
    (accessDCache s).loadStallCount = s.loadStallCount := by
  rw [accessDCache_frame]

/-- A pending stall cycle is not spent here. -/
@[simp] theorem accessDCache_remainingStallCycles :
    (accessDCache s).remainingStallCycles = s.remainingStallCycles := by
  rw [accessDCache_frame]

/-- A data access does not end an instruction miss. -/
@[simp] theorem accessDCache_instFetchMiss :
    (accessDCache s).instFetchMiss = s.instFetchMiss := by
  rw [accessDCache_frame]

/-- The hazard checks see the same slots behind the access as before it. -/
@[simp] theorem accessDCache_hazard : (accessDCache s).hazard = s.hazard := by
  simp [hazard]

variable (stall : Bool)

/-- The I-cache access sets the last access, the cache and the state of its miss. -/
theorem accessICache_frame :
    accessICache stall s =
      { s with
        prevICPC := (accessICache stall s).prevICPC
        iCache := (accessICache stall s).iCache
        instFetchMiss := (accessICache stall s).instFetchMiss
        instMissStalls := (accessICache stall s).instMissStalls } := by
  unfold accessICache
  dsimp only
  split_ifs <;> rfl

/-- The I-cache holds no code: an access leaves registers and memory alone. -/
@[simp] theorem accessICache_simulator : (accessICache stall s).simulator = s.simulator := by
  rw [accessICache_frame]

/-- The slots of the pipeline are not touched. -/
@[simp] theorem accessICache_pipelineInfo :
    (accessICache stall s).pipelineInfo = s.pipelineInfo := by
  rw [accessICache_frame]

/-- The PC stays on the address that is looked up next. -/
@[simp] theorem accessICache_PC : (accessICache stall s).PC = s.PC := by
  rw [accessICache_frame]

/-- The lookup is not the fetch: the counter of fetches stays. -/
@[simp] theorem accessICache_fetched : (accessICache stall s).fetched = s.fetched := by
  rw [accessICache_frame]

/-- It completes no instruction. -/
@[simp] theorem accessICache_completedCount :
    (accessICache stall s).completedCount = s.completedCount := by
  rw [accessICache_frame]

/-- It counts no load-use stall. -/
@[simp] theorem accessICache_loadStallCount :
    (accessICache stall s).loadStallCount = s.loadStallCount := by
  rw [accessICache_frame]

/-- It spends no stall cycle. -/
@[simp] theorem accessICache_remainingStallCycles :
    (accessICache stall s).remainingStallCycles = s.remainingStallCycles := by
  rw [accessICache_frame]

/-- An instruction access does not end a data miss. -/
@[simp] theorem accessICache_dataFetchMiss :
    (accessICache stall s).dataFetchMiss = s.dataFetchMiss := by
  rw [accessICache_frame]

/-- A stalled cycle makes no I-cache access. -/
theorem accessICache_instFetchMiss_of_stall :
    (accessICache true s).instFetchMiss = s.instFetchMiss := by
  unfold accessICache; dsimp only; split_ifs <;> simp_all

/-- Detection as a whole leaves registers and memory alone. -/
@[simp] theorem detect_simulator : (detect s).simulator = s.simulator := by
  simp [detect, recordHazard]

/-- It leaves the slots alone, so the stages read those of the last cycle. -/
@[simp] theorem detect_pipelineInfo : (detect s).pipelineInfo = s.pipelineInfo := by
  simp [detect, recordHazard]

/-- It leaves the PC alone. -/
@[simp] theorem detect_PC : (detect s).PC = s.PC := by
  simp [detect, recordHazard]

/-- It fetches nothing. -/
@[simp] theorem detect_fetched : (detect s).fetched = s.fetched := by
  simp [detect, recordHazard]

/-- It completes no instruction. -/
@[simp] theorem detect_completedCount : (detect s).completedCount = s.completedCount := by
  simp [detect, recordHazard]

/-- It counts the load-use stalls that the hazard checks report. -/
@[simp] theorem detect_loadStallCount :
    (detect s).loadStallCount = s.loadStallCount + s.hazard.loadStalls := by
  simp [detect, recordHazard]

/-- It leaves pending the stall cycles that the hazard checks report. -/
@[simp] theorem detect_remainingStallCycles :
    (detect s).remainingStallCycles = s.hazard.remainingStallCycles := by
  simp [detect, recordHazard]

/-! ### The control signals -/

/-- A data miss holds MEM, EX and ID in this cycle. -/
def frozen : Bool := (detect s).dataFetchMiss

/-- An instruction miss keeps the instruction in IF from entering ID in this cycle. -/
def starved : Bool := (detect s).instFetchMiss

/-- The instruction in ID raises an illegal-instruction exception. -/
def excepted : Bool := raisesIllegalExc s.idInst

/-- A hazard holds the instruction in ID. -/
def stalled : Bool := s.hazard.stall

/-! ### What the stages leave behind -/

/-- The simulator after WB. -/
def simAfterWB : Simulator := (wbStage s.frozen s.simulator s.memInst).2

/-- The instruction in EX with its store data forwarded. -/
def exForwarded : Instruction := forwardStoreData s.frozen s.memInst s.exInst

/-- The result of the MEM stage. -/
def memOut : Instruction × Simulator :=
  memStage fault s.frozen s.simAfterWB s.memInst s.exForwarded

/-- The memory-exception signal. -/
def memExc : Bool := (s.memOut fault).1.memException

/-- The instruction in ID with its operands forwarded. -/
def idForwarded : Instruction := forwardToID s.memInst s.exForwarded s.idInst

/-- The result of the EX stage. -/
def exOut : Instruction :=
  exStage s.frozen s.excepted s.stalled s.exForwarded s.idForwarded

/-- The result of the ID stage. -/
def idOut : Instruction × Simulator :=
  idStage s.frozen s.excepted s.stalled s.starved s.PC (s.memOut fault).2 s.idForwarded s.ifInst

/-- A branch or jump sits in ID at the end of the cycle, with no miss pending. -/
def branchInId : Bool := !s.frozen && !s.starved && isBranchOrJump (s.idOut fault).1

/-- The result of the IF stage. -/
def fetchOut : FetchResult :=
  ifStage s.excepted (s.memExc fault) s.stalled (s.branchInId fault) (detect s)
    (s.idOut fault).2 (s.idOut fault).1

/-- The memory exception squashes the younger slots in this cycle. -/
def flush : Bool := s.memExc fault && !s.excepted

/-- Forwarding to ID changes operands, not the fetched word or its PC. -/
@[simp] theorem idForwarded_toFetchInfo : s.idForwarded.toFetchInfo = s.idInst.toFetchInfo :=
  forwardToID_toFetchInfo _ _ _

/-- It does not decode anything anew. -/
@[simp] theorem idForwarded_toDecodeInfo :
    s.idForwarded.toDecodeInfo = s.idInst.toDecodeInfo :=
  forwardToID_toDecodeInfo _ _ _

/-- It does not resolve a branch anew. -/
@[simp] theorem idForwarded_nextPC : s.idForwarded.nextPC = s.idInst.nextPC :=
  forwardToID_nextPC _ _ _

/-- It neither squashes an instruction nor revives one. -/
@[simp] theorem idForwarded_active : s.idForwarded.active = s.idInst.active := by
  rw [idForwarded, forwardToID_eq]
  rfl

/-- A branch stays a branch when its operands are forwarded. -/
@[simp] theorem idForwarded_branch : isBranchOrJump s.idForwarded = isBranchOrJump s.idInst := by
  rw [isBranchOrJump, isBranchOrJump, idForwarded_active, idForwarded_toDecodeInfo]

/-! ### `cycle`, field by field -/

/-- WB gets the outcome of its stage. -/
theorem cycle_wbInst :
    (cycle fault s).wbInst = (wbStage s.frozen s.simulator s.memInst).1 := by
  simp [cycle, expireMisses, advance, frozen]

/-- MEM gets what its stage leaves, squashed if that has faulted. -/
theorem cycle_memInst :
    (cycle fault s).memInst = squashIf (s.memExc fault) (s.memOut fault).1 := by
  simp [cycle, expireMisses, advance, frozen, memExc, memOut, simAfterWB, exForwarded]

/-- EX gets what its stage leaves, squashed by a flush. -/
theorem cycle_exInst : (cycle fault s).exInst = squashIf (s.flush fault) s.exOut := by
  simp [cycle, expireMisses, advance, frozen, memExc, memOut, simAfterWB, exForwarded,
    exOut, excepted, stalled, idForwarded, flush]

/-- ID gets what its stage leaves, squashed by a flush. -/
theorem cycle_idInst : (cycle fault s).idInst = squashIf (s.flush fault) (s.idOut fault).1 := by
  simp [cycle, expireMisses, advance, frozen, memExc, memOut, simAfterWB, exForwarded,
    idOut, excepted, stalled, starved, idForwarded, flush]

/-- IF gets what the fetch leaves. -/
theorem cycle_ifInst : (cycle fault s).ifInst = (s.fetchOut fault).ifInst := by
  simp [cycle, expireMisses, advance, frozen, memExc, memOut, simAfterWB, exForwarded,
    idOut, excepted, stalled, starved, idForwarded, fetchOut, branchInId]

/-- The next PC is that of the fetch. -/
theorem cycle_PC : (cycle fault s).PC = (s.fetchOut fault).PC := by
  simp [cycle, expireMisses, advance, frozen, memExc, memOut, simAfterWB, exForwarded,
    idOut, excepted, stalled, starved, idForwarded, fetchOut, branchInId]

/-- The fetches are counted where they are made. -/
theorem cycle_fetched : (cycle fault s).fetched = (s.fetchOut fault).fetched := by
  simp [cycle, expireMisses, advance, frozen, memExc, memOut, simAfterWB, exForwarded,
    idOut, excepted, stalled, starved, idForwarded, fetchOut, branchInId]

/-- ID is the last stage to touch the simulator: IF only reads memory. -/
theorem cycle_simulator : (cycle fault s).simulator = (s.idOut fault).2 := by
  simp [cycle, expireMisses, advance, frozen, memOut, simAfterWB, exForwarded,
    idOut, excepted, stalled, starved, idForwarded]

/-- What the hazard checks leave pending is pending in the next cycle. -/
theorem cycle_remainingStallCycles :
    (cycle fault s).remainingStallCycles = s.hazard.remainingStallCycles := by
  simp [cycle, expireMisses, advance]

/-- The miss state of IF after the stages, before the latency check. -/
theorem advance_instFetchMiss :
    (advance fault s.excepted s.stalled (detect s)).instFetchMiss =
      (s.fetchOut fault).instFetchMiss := by
  simp [advance, frozen, memExc, memOut, simAfterWB, exForwarded, idOut, excepted, stalled,
    starved, idForwarded, fetchOut, branchInId]

/-- The instruction miss that a cycle leaves pending is the one its IF stage left. -/
theorem instFetchMiss_of_cycle (h : (cycle fault s).instFetchMiss = true) :
    (s.fetchOut fault).instFetchMiss = true := by
  rw [← advance_instFetchMiss]
  simp only [cycle, expireMisses] at h
  split at h
  · exact absurd h (by simp)
  · exact h

/-! ### The calls of the stage functions -/

/-- The instruction handed to `simWB` in this cycle. -/
def wbCall : Option Instruction := if s.frozen then none else some s.memInst

/-- The instruction handed to `simMEM` in this cycle. -/
def memCall : Option Instruction := if s.frozen then none else some s.exForwarded

/-- The instruction handed to `simEX` in this cycle. -/
def exCall : Option Instruction :=
  if s.frozen || s.excepted || s.stalled then none else some s.idForwarded

/-- The instruction handed to `simID` in this cycle. -/
def idCall : Option Instruction :=
  if s.frozen || s.excepted || s.stalled || s.starved || mispredicted s.ifInst s.PC then none
  else some (enterID s.ifInst)

section Calls

variable {s}

/-- `simWB` is called on the instruction in MEM, in a cycle that is not frozen. -/
theorem wbCall_eq_some {inst : Instruction} (h : s.wbCall = some inst) :
    s.frozen = false ∧ s.memInst = inst := by
  obtain ⟨hz, hinst⟩ := Option.ite_none_left_eq_some.mp h
  exact ⟨by simpa using hz, Option.some.inj hinst⟩

/-- `simMEM` is called on the instruction in EX with its store data forwarded. -/
theorem memCall_eq_some {inst : Instruction} (h : s.memCall = some inst) :
    s.frozen = false ∧ s.exForwarded = inst := by
  obtain ⟨hz, hinst⟩ := Option.ite_none_left_eq_some.mp h
  exact ⟨by simpa using hz, Option.some.inj hinst⟩

/-- What is handed to `simEX`. -/
theorem exCall_eq_some {inst : Instruction} (hcall : s.exCall = some inst) :
    s.frozen = false ∧ s.excepted = false ∧ s.stalled = false ∧ inst = s.idForwarded := by
  simp only [exCall, Option.ite_none_left_eq_some, Bool.or_eq_true, not_or,
    Bool.not_eq_true, Option.some.injEq] at hcall
  exact ⟨hcall.1.1.1, hcall.1.1.2, hcall.1.2, hcall.2.symm⟩

end Calls

/-- A stage that calls `simMEM` leaves its result. -/
theorem memOut_of_call {i : Instruction} (h : s.memCall = some i) :
    s.memOut fault = s.simAfterWB.simMEM fault i := by
  simp only [memCall, Option.ite_none_left_eq_some, Bool.not_eq_true, Option.some.injEq] at h
  obtain ⟨hfrozen, rfl⟩ := h
  rw [memOut, memStage, if_neg (by simp [hfrozen])]

/-! ### The MEM, EX and ID stages, case by case -/

variable {s}

/-- A frozen cycle holds MEM, EX and ID, and the forwarding into ID still happens. -/
theorem memOut_of_frozen (h : s.frozen = true) :
    s.memOut fault = (s.memInst, s.simulator) := by
  rw [memOut, memStage, if_pos h, simAfterWB, wbStage, if_pos h]

/-- Nothing is forwarded to a frozen EX. -/
theorem exForwarded_of_frozen (h : s.frozen = true) : s.exForwarded = s.exInst := by
  rw [exForwarded, h, forwardStoreData_frozen]

/-- EX keeps its instruction through a data miss. -/
theorem exOut_of_frozen (h : s.frozen = true) : s.exOut = s.exInst := by
  rw [exOut, exStage, if_pos h, exForwarded_of_frozen h]

/-- ID keeps its instruction through a data miss, with its operands forwarded. -/
theorem idOut_of_frozen (h : s.frozen = true) :
    s.idOut fault = (s.idForwarded, s.simulator) := by
  rw [idOut, idStage, if_pos h, memOut_of_frozen fault h]

/-- Without a data miss WB and MEM advance. -/
theorem simAfterWB_of_not_frozen (h : s.frozen = false) :
    s.simAfterWB = (s.simulator.simWB s.memInst).2 := by
  rw [simAfterWB, wbStage, if_neg (by simp [h])]

/-- MEM takes the instruction of EX, and sees the registers behind WB. -/
theorem memOut_of_not_frozen (h : s.frozen = false) :
    s.memOut fault = s.simAfterWB.simMEM fault s.exForwarded := by
  rw [memOut, memStage, if_neg (by simp [h])]

/-- An illegal instruction in ID is dropped, and nothing enters EX or ID. -/
theorem exOut_of_excepted (h : s.frozen = false) (hexc : s.excepted = true) :
    s.exOut = nop .squashed := by
  rw [exOut, exStage, if_neg (by simp [h]), if_pos hexc]

/-- An illegal instruction in ID is replaced by a squashed NOP. -/
theorem idOut_of_excepted (h : s.frozen = false) (hexc : s.excepted = true) :
    s.idOut fault = (nop .squashed, (s.memOut fault).2) := by
  rw [idOut, idStage, if_neg (by simp [h]), if_pos hexc]

/-- A hazard holds ID, sends a bubble to EX and re-resolves a branch. -/
theorem exOut_of_stalled (h : s.frozen = false) (hexc : s.excepted = false)
    (hstall : s.stalled = true) : s.exOut = nop .bubble := by
  rw [exOut, exStage, if_neg (by simp [h]), if_neg (by simp [hexc]), if_pos hstall]

/-- A hazard keeps the instruction in ID and resolves a branch on what is forwarded. -/
theorem idOut_of_stalled (h : s.frozen = false) (hexc : s.excepted = false)
    (hstall : s.stalled = true) :
    s.idOut fault =
      (if isBranchOrJump s.idForwarded then simNextPCResolution s.idForwarded
        else s.idForwarded, (s.memOut fault).2) := by
  rw [idOut, idStage, if_neg (by simp [h]), if_neg (by simp [hexc]), if_pos hstall]
  split <;> rfl

/-- Otherwise the instruction in ID goes to EX. -/
theorem exOut_of_moving (h : s.frozen = false) (hexc : s.excepted = false)
    (hstall : s.stalled = false) : s.exOut = simEX s.idForwarded := by
  rw [exOut, exStage, if_neg (by simp [h]), if_neg (by simp [hexc]), if_neg (by simp [hstall])]

/-- An instruction miss sends a bubble to ID. -/
theorem idOut_of_starved (h : s.frozen = false) (hexc : s.excepted = false)
    (hstall : s.stalled = false) (hstarved : s.starved = true) :
    s.idOut fault = (nop .bubble, (s.memOut fault).2) := by
  rw [idOut, idStage, if_neg (by simp [h]), if_neg (by simp [hexc]), if_neg (by simp [hstall]),
    if_pos hstarved]

/-- A fetch that the branch in front of it did not choose is squashed. -/
theorem idOut_of_mispredicted (h : s.frozen = false) (hexc : s.excepted = false)
    (hstall : s.stalled = false) (hstarved : s.starved = false)
    (hmp : mispredicted s.ifInst s.PC = true) :
    s.idOut fault = (nop .squashed, (s.memOut fault).2) := by
  rw [idOut, idStage, if_neg (by simp [h]), if_neg (by simp [hexc]), if_neg (by simp [hstall]),
    if_neg (by simp [hstarved]), if_pos hmp]

/-- Otherwise ID decodes what IF holds. -/
theorem idOut_of_decoding (h : s.frozen = false) (hexc : s.excepted = false)
    (hstall : s.stalled = false) (hstarved : s.starved = false)
    (hmp : mispredicted s.ifInst s.PC = false) :
    s.idOut fault = (s.memOut fault).2.simID (enterID s.ifInst) := by
  rw [idOut, idStage, if_neg (by simp [h]), if_neg (by simp [hexc]), if_neg (by simp [hstall]),
    if_neg (by simp [hstarved]), if_neg (by simp [hmp])]

variable (s)

/-- All that EX can hold after a cycle without exceptions in MEM. -/
theorem exOut_cases :
    s.frozen = true ∧ s.exOut = s.exInst ∨ (∃ status, s.exOut = nop status) ∨
      (s.frozen = false ∧ s.excepted = false ∧ s.stalled = false) ∧
        s.exOut = simEX s.idForwarded := by
  cases hz : s.frozen
  · cases hexc : s.excepted
    · cases hst : s.stalled
      · exact .inr (.inr ⟨⟨rfl, rfl, rfl⟩, exOut_of_moving hz hexc hst⟩)
      · exact .inr (.inl ⟨_, exOut_of_stalled hz hexc hst⟩)
    · exact .inr (.inl ⟨_, exOut_of_excepted hz hexc⟩)
  · exact .inl ⟨rfl, exOut_of_frozen hz⟩

/-- All that ID can hold after a cycle without exceptions in MEM. -/
theorem idOut_cases :
    s.frozen = true ∧ s.idOut fault = (s.idForwarded, s.simulator) ∨
      (s.frozen = false ∧ ∃ status, s.idOut fault = (nop status, (s.memOut fault).2)) ∨
      (s.frozen = false ∧ s.excepted = false ∧ s.stalled = true) ∧
        s.idOut fault =
          (if isBranchOrJump s.idForwarded then simNextPCResolution s.idForwarded
            else s.idForwarded, (s.memOut fault).2) ∨
      (s.frozen = false ∧ s.excepted = false ∧ s.stalled = false ∧ s.starved = false ∧
          mispredicted s.ifInst s.PC = false) ∧
        s.idOut fault = (s.memOut fault).2.simID (enterID s.ifInst) := by
  cases hz : s.frozen
  · cases hexc : s.excepted
    · cases hst : s.stalled
      · cases hsv : s.starved
        · cases hmp : mispredicted s.ifInst s.PC
          · exact .inr (.inr (.inr ⟨⟨rfl, rfl, rfl, rfl, rfl⟩,
              idOut_of_decoding fault hz hexc hst hsv hmp⟩))
          · exact .inr (.inl ⟨rfl, _, idOut_of_mispredicted fault hz hexc hst hsv hmp⟩)
        · exact .inr (.inl ⟨rfl, _, idOut_of_starved fault hz hexc hst hsv⟩)
      · exact .inr (.inr (.inl ⟨⟨rfl, rfl, rfl⟩, idOut_of_stalled fault hz hexc hst⟩))
    · exact .inr (.inl ⟨rfl, _, idOut_of_excepted fault hz hexc⟩)
  · exact .inl ⟨rfl, idOut_of_frozen fault hz⟩

/-! ### The IF stage, case by case -/

/-- The branch left in ID is taken. -/
def taken : Bool := (s.idOut fault).1.nextPC != (s.idOut fault).1.PC + 4

/-- An exception fetches the handler. -/
theorem fetchOut_of_exception (h : (s.excepted || s.memExc fault) = true) :
    s.fetchOut fault =
      { ifInst := simIF (s.idOut fault).2 excHandler s.fetched, PC := excHandler,
        instFetchMiss := false, instMissStalls := 0, fetched := s.fetched + 1 } := by
  rw [fetchOut, ifStage, if_pos h, detect_fetched]

/-- A stalled cycle holds IF, and follows a branch that waits in ID. -/
theorem fetchOut_of_stalled (h : (s.excepted || s.memExc fault) = false)
    (hstall : s.stalled = true) :
    (s.fetchOut fault).ifInst = s.ifInst ∧ (s.fetchOut fault).fetched = s.fetched ∧
      (s.fetchOut fault).PC =
        (if s.branchInId fault then
          if s.taken fault then (s.idOut fault).1.nextPC else (s.idOut fault).1.nextPC + 4
        else s.PC) ∧
      (s.fetchOut fault).instFetchMiss =
        (if s.branchInId fault && s.taken fault then false else s.starved) := by
  rw [fetchOut, ifStage, if_neg (by simp [h]), if_pos hstall]
  by_cases hbr : s.branchInId fault = true
  · by_cases htk : (s.idOut fault).1.nextPC = (s.idOut fault).1.PC + 4#64
    · simp [hbr, htk, taken, starved]
    · simp [hbr, htk, taken]
  · simp [hbr, starved]

/-- Behind a branch in ID the fetch goes on along the old PC and then follows it. -/
theorem fetchOut_of_branch (h : (s.excepted || s.memExc fault) = false)
    (hstall : s.stalled = false) (hbr : s.branchInId fault = true) :
    (s.fetchOut fault).ifInst =
        { simIF (s.idOut fault).2 s.PC s.fetched with status := .speculative } ∧
      (s.fetchOut fault).fetched = s.fetched + 1 ∧
      (s.fetchOut fault).PC = (s.idOut fault).1.nextPC ∧
      (s.fetchOut fault).instFetchMiss = false := by
  have hstarved : (detect s).instFetchMiss = false := by
    simp only [branchInId, starved, Bool.and_eq_true, Bool.not_eq_true'] at hbr
    exact hbr.1.2
  rw [fetchOut, ifStage, if_neg (by simp [h]), if_neg (by simp [hstall]), if_pos hbr]
  simp [hstarved]

/-- A miss holds IF. -/
theorem fetchOut_of_miss (h : (s.excepted || s.memExc fault) = false)
    (hstall : s.stalled = false) (hmiss : (s.starved || s.frozen) = true) :
    (s.fetchOut fault).ifInst = s.ifInst ∧ (s.fetchOut fault).fetched = s.fetched ∧
      (s.fetchOut fault).PC = s.PC ∧ (s.fetchOut fault).instFetchMiss = s.starved := by
  have hbr : s.branchInId fault = false := by
    rw [Bool.or_eq_true] at hmiss
    rcases hmiss with hmiss | hmiss <;> simp [branchInId, hmiss]
  have hmiss' : ((detect s).instFetchMiss || (detect s).dataFetchMiss) = true := hmiss
  rw [fetchOut, ifStage, if_neg (by simp [h]), if_neg (by simp [hstall]),
    if_neg (by simp [hbr]), if_pos hmiss']
  simp [starved]

/-- Otherwise IF fetches the next word in sequence. -/
theorem fetchOut_of_next (h : (s.excepted || s.memExc fault) = false)
    (hstall : s.stalled = false) (hbr : s.branchInId fault = false)
    (hmiss : (s.starved || s.frozen) = false) :
    s.fetchOut fault =
      { ifInst := simIF (s.idOut fault).2 s.PC s.fetched, PC := s.PC + 4,
        instFetchMiss := false, instMissStalls := (detect s).instMissStalls,
        fetched := s.fetched + 1 } := by
  have hmiss' := hmiss
  simp only [starved, frozen, Bool.or_eq_false_iff] at hmiss'
  have hnb : isBranchOrJump (s.idOut fault).1 = false := by
    simpa [branchInId, starved, frozen, hmiss'.1, hmiss'.2] using hbr
  rw [fetchOut, ifStage, if_neg (by simp [h]), if_neg (by simp [hstall]),
    if_neg (by simp [hbr]), if_neg (by simp [hmiss'.1, hmiss'.2])]
  simp [hnb, hmiss'.1]

end LoopState

end RvPipeSim
