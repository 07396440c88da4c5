import RvPipeSim.Cache
import RvPipeSim.Simulator

/-!
# The pipelined simulator

`cycle.cpp`: the file-level state of the cycle simulator is a `Machine`, the state inside
the loop of `runCycles` a `LoopState`, which adds the four locals that hold the miss
state, and `cycle` is one iteration of that loop. Its parts follow the source in order:
the D-cache access, the hazard detection, the I-cache access, then the stages WB, MEM,
EX, ID and IF, and the miss-latency check.

The state carries one ghost counter, `fetched`: the number of `simIF` calls so far, from
which every fetched instruction takes its `seq`.
-/

namespace RvPipeSim

/-- The padding instruction `nop(status)`. -/
def nop (status : StageStatus) : Instruction :=
  { instruction := nopWord, isLegal := true, isNop := true, status := status }

/-- The exception address. -/
abbrev excHandler : BitVec 64 := 0x8000#64

/-- The five pipeline registers. -/
structure PipelineInfo where
  ifInst : Instruction := nop .idle
  idInst : Instruction := nop .idle
  exInst : Instruction := nop .idle
  memInst : Instruction := nop .idle
  wbInst : Instruction := nop .idle

/-- The file-level state of `cycle.cpp`. -/
structure Machine where
  simulator : Simulator
  iCache : Cache
  dCache : Cache
  pipelineInfo : PipelineInfo := {}
  cycleCount : ℕ := 0
  loadStallCount : ℕ := 0
  completedCount : ℕ := 0
  prevICPC : BitVec 64 := -1
  remainingStallCycles : ℕ := 0
  prevDValid : Bool := false
  prevDAddr : BitVec 64 := 0
  prevDOp : CacheOperation := .cacheRead
  PC : BitVec 64 := 0
  fetched : ℕ := 0

/-- The state inside the loop of `runCycles`: the machine and the locals that carry the
miss state of the two caches. -/
structure LoopState extends Machine where
  dataFetchMiss : Bool
  instFetchMiss : Bool
  dataMissStalls : ℕ
  instMissStalls : ℕ

/-- `initSimulator` on a memory. -/
def initSimulator (iCacheConfig dCacheConfig : CacheConfig) (mem : MemoryStore) : Machine where
  simulator := { regData := ⟨fun _ => 0⟩, memory := mem, din := 0 }
  iCache := Cache.new iCacheConfig
  dCache := Cache.new dCacheConfig

/-! ### Classification of a pipeline slot -/

/-- The slot holds an instruction that is neither padding nor squashed. -/
def Instruction.active (inst : Instruction) : Bool :=
  !inst.isNop && inst.status != .bubble && inst.status != .squashed

/-- `isLoad`. -/
def isLoad (inst : Instruction) : Bool := inst.readsMem && inst.isLegal && inst.active

/-- `isStore`. -/
def isStore (inst : Instruction) : Bool := inst.writesMem && inst.isLegal && inst.active

/-- `writesREG`. -/
def writesREG (inst : Instruction) : Bool :=
  inst.writesRd && inst.rd != 0 && inst.isLegal && inst.active

/-- `isBranchOrJump`. -/
def isBranchOrJump (inst : Instruction) : Bool :=
  (inst.opcode == opBranch || inst.opcode == opJal || inst.opcode == opJalr) &&
    inst.isLegal && inst.active

/-- The test behind `illegalExc`. -/
def raisesIllegalExc (prevIDInst : Instruction) : Bool :=
  !prevIDInst.isLegal && prevIDInst.active && !prevIDInst.isHalt

/-- `inst.readsRs1 && inst.rs1 == rd && rd != 0`. -/
def readsRs1From (inst : Instruction) (rd : BitVec 5) : Bool :=
  inst.readsRs1 && inst.rs1 == rd && rd != 0

/-- `inst.readsRs2 && inst.rs2 == rd && rd != 0`. -/
def readsRs2From (inst : Instruction) (rd : BitVec 5) : Bool :=
  inst.readsRs2 && inst.rs2 == rd && rd != 0

/-! ### Detection: caches and hazards -/

/-- The D-cache access of the instruction in MEM, or one more cycle of a data miss. -/
def accessDCache (s : LoopState) : LoopState :=
  let prevMEMInst := s.pipelineInfo.memInst
  let opType : CacheOperation := if prevMEMInst.writesMem then .cacheWrite else .cacheRead
  if !s.dataFetchMiss && (isLoad prevMEMInst || isStore prevMEMInst) then
    if !s.prevDValid || prevMEMInst.memAddress != s.prevDAddr || opType != s.prevDOp then
      let (hit, dCache) := s.dCache.access prevMEMInst.memAddress opType
      { s with
        prevDValid := true
        prevDAddr := prevMEMInst.memAddress
        prevDOp := opType
        dCache := dCache
        dataFetchMiss := !hit
        dataMissStalls := if hit then s.dataMissStalls else 0 }
    else s
  else if s.dataFetchMiss then
    { s with dataMissStalls := s.dataMissStalls + 1 }
  else s

/-- The outcome of the hazard checks. -/
structure Hazard where
  stall : Bool
  remainingStallCycles : ℕ
  loadStalls : ℕ

/-- The load part of the hazard checks: a load in EX against the instruction in ID. -/
def detectLoadHazard (prevEXInst prevIDInst : Instruction) : Hazard :=
  if isLoad prevEXInst then
    let loadRd := prevEXInst.rd
    if isStore prevIDInst then
      if readsRs1From prevIDInst loadRd then ⟨true, 0, 1⟩ else ⟨false, 0, 0⟩
    else if isBranchOrJump prevIDInst then
      if readsRs1From prevIDInst loadRd || readsRs2From prevIDInst loadRd then ⟨true, 1, 1⟩
      else ⟨false, 0, 0⟩
    else
      if readsRs1From prevIDInst loadRd || readsRs2From prevIDInst loadRd then ⟨true, 0, 1⟩
      else ⟨false, 0, 0⟩
  else ⟨false, 0, 0⟩

/-- The hazard checks: a pending second stall cycle, else load-use and load-branch, else
arithmetic-branch. -/
def detectHazard (remainingStallCycles : ℕ) (prevEXInst prevIDInst : Instruction) : Hazard :=
  if remainingStallCycles > 0 then ⟨true, remainingStallCycles - 1, 0⟩
  else
    let load := detectLoadHazard prevEXInst prevIDInst
    if !load.stall && isBranchOrJump prevIDInst then
      if writesREG prevEXInst && !isLoad prevEXInst then
        let aluRd := prevEXInst.rd
        if readsRs1From prevIDInst aluRd || readsRs2From prevIDInst aluRd then
          { load with stall := true }
        else load
      else load
    else load

/-- The hazard checks of this cycle. -/
def LoopState.hazard (s : LoopState) : Hazard :=
  detectHazard s.remainingStallCycles s.pipelineInfo.exInst s.pipelineInfo.idInst

/-- Record the outcome of the hazard checks. -/
def recordHazard (s : LoopState) : LoopState :=
  { s with
    remainingStallCycles := s.hazard.remainingStallCycles
    loadStallCount := s.loadStallCount + s.hazard.loadStalls }

/-- The I-cache access of the instruction in IF, or one more cycle of an instruction miss. -/
def accessICache (stall : Bool) (s : LoopState) : LoopState :=
  let prevIFInst := s.pipelineInfo.ifInst
  if !stall && !s.instFetchMiss && !prevIFInst.isNop then
    if prevIFInst.PC != s.prevICPC then
      let (hit, iCache) := s.iCache.access prevIFInst.PC .cacheRead
      { s with
        prevICPC := prevIFInst.PC
        iCache := iCache
        instFetchMiss := !hit
        instMissStalls := if hit then s.instMissStalls else 0 }
    else s
  else if s.instFetchMiss then
    { s with instMissStalls := s.instMissStalls + 1 }
  else s

/-- The part of the loop body before the stages. -/
def detect (s : LoopState) : LoopState :=
  accessICache s.hazard.stall (recordHazard (accessDCache s))

/-! ### The stages -/

/-- WB stage. -/
def wbStage (dataFetchMiss : Bool) (sim : Simulator) (prevMEMInst : Instruction) :
    Instruction × Simulator :=
  if dataFetchMiss then (nop .bubble, sim) else sim.simWB prevMEMInst

/-- The value an instruction in MEM forwards. -/
def forwardValue (prevMEMInst : Instruction) : BitVec 64 :=
  if isLoad prevMEMInst then prevMEMInst.memResult else prevMEMInst.arithResult

/-- Forward WB → MEM: store data from the instruction about to write back. -/
def forwardStoreData (dataFetchMiss : Bool) (prevMEMInst prevEXInst : Instruction) :
    Instruction :=
  { prevEXInst with
    op2Val :=
      if isStore prevEXInst && writesREG prevMEMInst && !dataFetchMiss then
        if prevEXInst.rs2 == prevMEMInst.rd && prevMEMInst.rd != 0 then forwardValue prevMEMInst
        else prevEXInst.op2Val
      else prevEXInst.op2Val }

/-- MEM stage. -/
def memStage (fault : Fault) (dataFetchMiss : Bool) (sim : Simulator)
    (prevMEMInst prevEXInst : Instruction) : Instruction × Simulator :=
  if dataFetchMiss then (prevMEMInst, sim) else sim.simMEM fault prevEXInst

/-- Overwrite the operands of `inst` that come from register `rd`. -/
def forwardOperands (inst : Instruction) (rd : BitVec 5) (value : BitVec 64) : Instruction :=
  { inst with
    op1Val := if readsRs1From inst rd then value else inst.op1Val
    op2Val := if readsRs2From inst rd then value else inst.op2Val }

/-- Forward from MEM → EX. -/
def forwardFromMEM (prevMEMInst prevIDInst : Instruction) : Instruction :=
  if writesREG prevMEMInst then
    forwardOperands prevIDInst prevMEMInst.rd (forwardValue prevMEMInst)
  else prevIDInst

/-- Forward from EX → EX. -/
def forwardFromEX (prevEXInst prevIDInst : Instruction) : Instruction :=
  if writesREG prevEXInst then forwardOperands prevIDInst prevEXInst.rd prevEXInst.arithResult
  else prevIDInst

/-- Forward from EX → ID, for a branch or jump. -/
def forwardFromEXToBranch (prevEXInst prevIDInst : Instruction) : Instruction :=
  if writesREG prevEXInst && isBranchOrJump prevIDInst then
    forwardOperands prevIDInst prevEXInst.rd prevEXInst.arithResult
  else prevIDInst

/-- The three forwarding paths into the instruction in ID, in the order of the source. -/
def forwardToID (prevMEMInst prevEXInst prevIDInst : Instruction) : Instruction :=
  forwardFromEXToBranch prevEXInst
    (forwardFromEX prevEXInst (forwardFromMEM prevMEMInst prevIDInst))

/-- EX stage. -/
def exStage (dataFetchMiss illegalExc stall : Bool) (prevEXInst prevIDInst : Instruction) :
    Instruction :=
  if dataFetchMiss then prevEXInst
  else if illegalExc then nop .squashed
  else if stall then nop .bubble
  else Simulator.simEX prevIDInst

/-- The status a fetched instruction takes on its way into ID. -/
def enterID (prevIFInst : Instruction) : Instruction :=
  if !prevIFInst.isNop && !(prevIFInst.status == .bubble) && !(prevIFInst.status == .squashed) &&
      !(prevIFInst.status == .idle) then
    { prevIFInst with status := .normal }
  else prevIFInst

/-- The test by which ID squashes the instruction in IF. -/
def mispredicted (prevIFInst : Instruction) (PC : BitVec 64) : Bool :=
  prevIFInst.status == .speculative && prevIFInst.PC != PC - 4

/-- ID stage. -/
def idStage (dataFetchMiss illegalExc stall instFetchMiss : Bool) (PC : BitVec 64)
    (sim : Simulator) (prevIDInst prevIFInst : Instruction) : Instruction × Simulator :=
  if dataFetchMiss then (prevIDInst, sim)
  else if illegalExc then (nop .squashed, sim)
  else if stall then
    if isBranchOrJump prevIDInst then (simNextPCResolution prevIDInst, sim) else (prevIDInst, sim)
  else if instFetchMiss then (nop .bubble, sim)
  else if mispredicted prevIFInst PC then (nop .squashed, sim)
  else sim.simID (enterID prevIFInst)

/-- What the IF stage decides: the slot, the next PC and the instruction-miss state. -/
structure FetchResult where
  ifInst : Instruction
  PC : BitVec 64
  instFetchMiss : Bool
  instMissStalls : ℕ
  fetched : ℕ

/-- IF stage. `branchInId` and `idInst` describe the instruction the ID stage left in ID. -/
def ifStage (illegalExc memExc stall branchInId : Bool) (s : LoopState) (sim : Simulator)
    (idInst : Instruction) : FetchResult :=
  let prevIFInst := s.pipelineInfo.ifInst
  let taken := branchInId && idInst.nextPC != idInst.PC + 4
  if illegalExc || memExc then
    { ifInst := sim.simIF excHandler s.fetched, PC := excHandler, instFetchMiss := false,
      instMissStalls := 0, fetched := s.fetched + 1 }
  else if stall then
    if branchInId then
      if taken then
        { ifInst := prevIFInst, PC := idInst.nextPC, instFetchMiss := false,
          instMissStalls := 0, fetched := s.fetched }
      else
        { ifInst := prevIFInst, PC := idInst.nextPC + 4, instFetchMiss := s.instFetchMiss,
          instMissStalls := s.instMissStalls, fetched := s.fetched }
    else
      { ifInst := prevIFInst, PC := s.PC, instFetchMiss := s.instFetchMiss,
        instMissStalls := s.instMissStalls, fetched := s.fetched }
  else if branchInId then
    { ifInst := { sim.simIF s.PC s.fetched with status := .speculative },
      PC := idInst.nextPC,
      instFetchMiss := if taken then false else s.instFetchMiss,
      instMissStalls := if taken then 0 else s.instMissStalls,
      fetched := s.fetched + 1 }
  else if s.instFetchMiss || s.dataFetchMiss then
    { ifInst := prevIFInst, PC := s.PC, instFetchMiss := s.instFetchMiss,
      instMissStalls := s.instMissStalls, fetched := s.fetched }
  else
    { ifInst :=
        if isBranchOrJump idInst then { sim.simIF s.PC s.fetched with status := .speculative }
        else sim.simIF s.PC s.fetched,
      PC := s.PC + 4, instFetchMiss := s.instFetchMiss,
      instMissStalls := s.instMissStalls, fetched := s.fetched + 1 }

/-- Squash a slot when `flush` is set. -/
def squashIf (flush : Bool) (inst : Instruction) : Instruction :=
  { inst with status := if flush then .squashed else inst.status }

/-- The stages of one cycle, from the state after `detect`. -/
def advance (fault : Fault) (illegalExc stall : Bool) (s : LoopState) : LoopState :=
  let prevMEMInst := s.pipelineInfo.memInst
  let (wbInst, sim) := wbStage s.dataFetchMiss s.simulator prevMEMInst
  let completed := !wbInst.isNop && wbInst.isLegal && wbInst.status != .bubble &&
    wbInst.status != .squashed
  let prevEXInst := forwardStoreData s.dataFetchMiss prevMEMInst s.pipelineInfo.exInst
  let (memInst, sim) := memStage fault s.dataFetchMiss sim prevMEMInst prevEXInst
  let memExc := memInst.memException
  let memInst := squashIf memExc memInst
  let prevIDInst := forwardToID prevMEMInst prevEXInst s.pipelineInfo.idInst
  let exInst := exStage s.dataFetchMiss illegalExc stall prevEXInst prevIDInst
  let (idInst, sim) := idStage s.dataFetchMiss illegalExc stall s.instFetchMiss s.PC sim
    prevIDInst s.pipelineInfo.ifInst
  let branchInId := !s.dataFetchMiss && !s.instFetchMiss && isBranchOrJump idInst
  let fetch := ifStage illegalExc memExc stall branchInId s sim idInst
  -- `memExc` squashes the younger slots, unless `illegalExc` has already replaced them
  let flush := memExc && !illegalExc
  { s with
    simulator := sim
    completedCount := s.completedCount + completed.toNat
    pipelineInfo :=
      { ifInst := fetch.ifInst
        idInst := squashIf flush idInst
        exInst := squashIf flush exInst
        memInst := memInst
        wbInst := wbInst }
    PC := fetch.PC
    instFetchMiss := fetch.instFetchMiss
    instMissStalls := fetch.instMissStalls
    fetched := fetch.fetched }

/-- `missLatency - 1` in `uint64_t`. -/
def lastMissCycle (config : CacheConfig) : ℕ := (config.missLatency + 2 ^ 64 - 1) % 2 ^ 64

/-- The miss-latency check at the end of a cycle. -/
def expireMisses (s : LoopState) : LoopState :=
  let iDone := s.instMissStalls ≥ lastMissCycle s.iCache.config
  let dDone := s.dataMissStalls ≥ lastMissCycle s.dCache.config
  { s with
    instMissStalls := if iDone then 0 else s.instMissStalls
    instFetchMiss := if iDone then false else s.instFetchMiss
    dataMissStalls := if dDone then 0 else s.dataMissStalls
    dataFetchMiss := if dDone then false else s.dataFetchMiss }

/-- One iteration of the loop of `runCycles`. -/
def cycle (fault : Fault) (s : LoopState) : LoopState :=
  let illegalExc := raisesIllegalExc s.pipelineInfo.idInst
  let s' := expireMisses (advance fault illegalExc s.hazard.stall (detect s))
  { s' with cycleCount := s'.cycleCount + 1 }

/-! ### Running -/

/-- Entry of `runCycles`: load the locals from the caches. -/
def enter (m : Machine) : LoopState :=
  { m with
    dataFetchMiss := m.dCache.fetchMiss
    instFetchMiss := m.iCache.fetchMiss
    dataMissStalls := m.dCache.fetchStalls
    instMissStalls := m.iCache.fetchStalls }

/-- Exit of `runCycles`: store the locals back. -/
def leave (s : LoopState) : Machine :=
  { s.toMachine with
    dCache := { s.dCache with fetchMiss := s.dataFetchMiss, fetchStalls := s.dataMissStalls }
    iCache := { s.iCache with fetchMiss := s.instFetchMiss, fetchStalls := s.instMissStalls } }

/-- The loop of `runCycles`: at most `cycles` iterations, ended early by a HALT in WB. -/
def runLoop (fault : Fault) : ℕ → LoopState → Status × LoopState
  | 0, s => (.success, s)
  | cycles + 1, s =>
      let s := cycle fault s
      if s.pipelineInfo.wbInst.isHalt then (.halt, s) else runLoop fault cycles s

/-- `runCycles(cycles)` for `cycles > 0`. -/
def runCycles (fault : Fault) (cycles : ℕ) (m : Machine) : Status × Machine :=
  let (status, s) := runLoop fault cycles (enter m)
  (status, leave s)

/-- `runTillHalt`: repeat `runCycles(1)` until it returns HALT, at most `fuel` times. -/
def runTillHalt (fault : Fault) : ℕ → Machine → Option Machine
  | 0, _ => none
  | fuel + 1, m =>
      match runCycles fault 1 m with
      | (.halt, m) => some m
      | (_, m) => runTillHalt fault fuel m

end RvPipeSim
