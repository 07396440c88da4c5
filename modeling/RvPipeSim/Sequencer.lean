import Mathlib.Tactic.SplitIfs
import RvPipeSim.Funct
import RvPipeSim.Stages

/-!
# Program order

What the pipelined simulator amounts to when every instruction is carried out before the
next one is looked at. A `Sequencer` is the functional simulator of `funct.cpp` with the
two habits of the pipeline: an illegal instruction sends it to the handler, and the word
behind the current one is chosen before the current one is carried out (`fetchPC`), so a
branch only discards it if it is not the word before the target (`follow`).

The pipeline carries an instruction out in stages, on an `Instruction` record that has
been through other hands than the one of `simInstruction`. `carryOut` is the part behind
ID, and `carryOut_agrees` says what it depends on; `simInstruction_agrees` is the link to
the single step.

## Main results

* `carryOut_agrees` — what carrying out an instruction depends on;
* `simInstruction_agrees` — the single step carries out as the pipeline does;
* `Sequencer.step_of_legal`, `Sequencer.step_of_illegal`, `Sequencer.step_of_halt` — the steps
  of the machine.
-/

namespace RvPipeSim

open Simulator

/-! ### The same registers and memory -/

namespace Simulator

/-- Two simulators hold the same registers and the same memory. -/
structure Agrees (sim sim' : Simulator) : Prop where
  regData : sim.regData = sim'.regData
  memory : sim.memory = sim'.memory

/-- A simulator agrees with itself. -/
theorem Agrees.refl (sim : Simulator) : sim.Agrees sim := ⟨rfl, rfl⟩

/-- Agreement does not depend on the order. -/
theorem Agrees.symm {sim sim' : Simulator} (h : sim.Agrees sim') : sim'.Agrees sim :=
  ⟨h.regData.symm, h.memory.symm⟩

/-- Agreement goes on over a third simulator. -/
theorem Agrees.trans {sim sim' sim'' : Simulator} (h : sim.Agrees sim')
    (h' : sim'.Agrees sim'') : sim.Agrees sim'' :=
  ⟨h.regData.trans h'.regData, h.memory.trans h'.memory⟩

/-- MEM and WB on an instruction that has been executed. -/
def complete (sim : Simulator) (inst : Instruction) : Simulator :=
  let (inst, sim) := sim.simMEM accessFault inst
  (sim.simWB inst).2

/-- Everything behind ID: collect the operands, execute, access memory, write back. -/
def carryOut (sim : Simulator) (inst : Instruction) : Simulator :=
  sim.complete (simEX (simOperandCollection inst sim.regData))

end Simulator

/-! ### What carrying out depends on -/

/-- Executed instructions that do the same to registers and memory. -/
structure SameEffect (i j : Instruction) : Prop where
  decode : i.toDecodeInfo = j.toDecodeInfo
  active : i.active = j.active
  arithResult : i.arithResult = j.arithResult
  memAddress : i.memAddress = j.memAddress
  storeData : isStore i = true → i.op2Val = j.op2Val

/-- Decoded instructions that do the same to registers and memory, whatever operands they
have collected. -/
structure SameWord (i j : Instruction) : Prop where
  PC : i.PC = j.PC
  instruction : i.instruction = j.instruction
  decode : i.toDecodeInfo = j.toDecodeInfo
  active : i.active = j.active
  op1Val : i.readsRs1 = false → i.op1Val = j.op1Val
  op2Val : i.readsRs2 = false → i.op2Val = j.op2Val
  arithResult : i.arithResult = j.arithResult
  memAddress : i.memAddress = j.memAddress

section Congruence

variable {sim sim' : Simulator} {i j : Instruction}

/-- Whether an instruction has an effect depends on its flags and its activity. -/
theorem effective_congr (hdec : i.toDecodeInfo = j.toDecodeInfo) (hactive : i.active = j.active) :
    i.effective = j.effective := by
  rw [Instruction.effective, Instruction.effective, hactive, hdec]

/-- What the ALU reads of an instruction. -/
theorem arithLogicResult_congr (hPC : i.PC = j.PC) (hinstruction : i.instruction = j.instruction)
    (hdec : i.toDecodeInfo = j.toDecodeInfo) (hop1 : i.op1Val = j.op1Val)
    (hop2 : i.op2Val = j.op2Val) (hresult : i.arithResult = j.arithResult) :
    arithLogicResult i = arithLogicResult j := by
  unfold arithLogicResult
  rw [hPC, hinstruction, hop1, hop2, hresult, hdec]

/-- What the next PC depends on: not on the result, nor on the status. -/
theorem resolvedPC_congr (hPC : i.PC = j.PC) (hinstruction : i.instruction = j.instruction)
    (hdec : i.toDecodeInfo = j.toDecodeInfo) (hop1 : i.op1Val = j.op1Val)
    (hop2 : i.op2Val = j.op2Val) : resolvedPC i = resolvedPC j := by
  unfold resolvedPC branchTaken
  rw [hPC, hinstruction, hop1, hop2, hdec]

/-- What MEM and WB do to an instruction that has an effect. -/
theorem complete_of_effective (h : i.effective = true) :
    sim.complete i =
      { sim with
        memory := (simMemAccess accessFault i sim.memory).2
        regData :=
          if i.writesRd then
            sim.regData.write i.rd
              (if i.readsMem then loadedValue i sim.memory else i.arithResult)
          else sim.regData } := by
  have hdec : (sim.simMEM accessFault i).1.toDecodeInfo = i.toDecodeInfo :=
    simMEM_toDecodeInfo _ _ _
  have heff : (sim.simMEM accessFault i).1.effective = true :=
    (effective_congr hdec (simMEM_active _ _ _)).trans h
  rw [complete]
  dsimp only
  rw [simWB_of_effective heff, hdec, simMEM_of_effective h]
  dsimp only
  cases hwrites : i.writesRd
  · rfl
  · rw [if_pos rfl, if_pos rfl, simCommit, simMemAccess]
    cases hreads : i.readsMem
    · simp only [Bool.false_eq_true, if_false]
      split <;> rw [hreads] <;> rfl
    · simp [hreads]

/-- MEM and WB do nothing to an instruction without effect. -/
theorem complete_of_not_effective (h : i.effective = false) : sim.complete i = sim := by
  rw [complete, simMEM_of_not_effective h]
  dsimp only
  rw [simWB_of_not_effective h]

/-- **MEM and WB do the same on instructions of the same effect.** -/
theorem complete_agrees (h : sim.Agrees sim') (hij : SameEffect i j) :
    (sim.complete i).Agrees (sim'.complete j) := by
  obtain ⟨hregs, hmem⟩ := h
  have heff := effective_congr hij.decode hij.active
  cases hi : i.effective
  · rw [complete_of_not_effective hi, complete_of_not_effective (heff.symm.trans hi)]
    exact ⟨hregs, hmem⟩
  · rw [complete_of_effective hi, complete_of_effective (heff.symm.trans hi)]
    have hload : loadedValue i sim.memory = loadedValue j sim'.memory := by
      unfold loadedValue accessSize
      rw [hmem, hij.memAddress, hij.decode]
    constructor
    · dsimp only
      rw [hload, hregs, hij.arithResult, hij.decode]
    · dsimp only
      rw [simMemAccess, simMemAccess, hij.decode]
      cases hwrites : j.writesMem
      · split <;> exact hmem
      · have hop2 : i.op2Val = j.op2Val := hij.storeData <| by
          rw [isStore, (effective_iff.mp hi).1, (effective_iff.mp hi).2.1, hij.decode, hwrites]
          rfl
        have hstored : storedMemory i sim.memory = storedMemory j sim'.memory := by
          unfold storedMemory accessSize
          rw [hmem, hij.memAddress, hop2, hij.decode]
        rw [hstored]
        split
        · exact hmem
        · rfl

/-- EX computes the same from the same operands; a store does not need its data there. -/
theorem simEX_congr (hPC : i.PC = j.PC) (hinstruction : i.instruction = j.instruction)
    (hdec : i.toDecodeInfo = j.toDecodeInfo) (hactive : i.active = j.active)
    (hop1 : i.op1Val = j.op1Val) (hop2 : i.doesArithLogic = true → i.op2Val = j.op2Val)
    (hresult : i.arithResult = j.arithResult) (haddress : i.memAddress = j.memAddress) :
    (simEX i).arithResult = (simEX j).arithResult ∧
      (simEX i).memAddress = (simEX j).memAddress := by
  have heff := effective_congr hdec hactive
  cases hi : i.effective
  · rw [simEX_of_not_effective hi, simEX_of_not_effective (heff.symm.trans hi)]
    exact ⟨hresult, haddress⟩
  · rw [simEX_of_effective hi, simEX_of_effective (heff.symm.trans hi)]
    constructor
    · cases harith : i.doesArithLogic
      · have harith' : j.doesArithLogic = false := hdec ▸ harith
        dsimp only
        rw [harith', if_neg Bool.false_ne_true, if_neg Bool.false_ne_true, hresult]
      · have harith' : j.doesArithLogic = true := hdec ▸ harith
        have hmasked : maskedOp2 i = maskedOp2 j := by
          unfold maskedOp2
          rw [hop2 harith, hdec]
        rw [harith', if_pos rfl, if_pos rfl]
        exact arithLogicResult_congr hPC hinstruction hdec hop1 hmasked hresult
    · dsimp only [simAddrGen]
      rw [hop1, hinstruction, haddress, hdec]

/-- The same operands are collected from the same registers. -/
theorem SameWord.collected (hij : SameWord i j) (regData : REGS) :
    (simOperandCollection i regData).op1Val = (simOperandCollection j regData).op1Val ∧
      (simOperandCollection i regData).op2Val = (simOperandCollection j regData).op2Val := by
  have hdec := hij.decode
  constructor
  · dsimp only [simOperandCollection]
    cases hreads : i.readsRs1
    · have hreads' : j.readsRs1 = false := hdec ▸ hreads
      rw [hreads', if_neg Bool.false_ne_true, if_neg Bool.false_ne_true, hij.op1Val hreads]
    · have hreads' : j.readsRs1 = true := hdec ▸ hreads
      rw [hreads', if_pos rfl, if_pos rfl, hdec]
  · dsimp only [simOperandCollection]
    cases hreads : i.readsRs2
    · have hreads' : j.readsRs2 = false := hdec ▸ hreads
      rw [hreads', if_neg Bool.false_ne_true, if_neg Bool.false_ne_true, hij.op2Val hreads]
    · have hreads' : j.readsRs2 = true := hdec ▸ hreads
      rw [hreads', if_pos rfl, if_pos rfl, hdec]

/-- Collected anew, the operands give both the same next PC. -/
theorem SameWord.resolvedPC_eq (hij : SameWord i j) (regData : REGS) :
    resolvedPC (simOperandCollection i regData) = resolvedPC (simOperandCollection j regData) :=
  resolvedPC_congr hij.PC hij.instruction hij.decode (hij.collected regData).1
    (hij.collected regData).2

/-- EX keeps the data of a store. -/
theorem simEX_op2Val_of_store (hwf : i.toDecodeInfo.WellFormed) (hstore : i.writesMem = true) :
    (simEX i).op2Val = i.op2Val := by
  cases heff : i.effective
  · rw [simEX_of_not_effective heff]
  · rw [simEX_of_effective heff, (hwf.store hstore).2.1]
    rfl

/-- EX on the same operands has the same effect. -/
theorem sameEffect_simEX (hPC : i.PC = j.PC) (hinstruction : i.instruction = j.instruction)
    (hdec : i.toDecodeInfo = j.toDecodeInfo) (hactive : i.active = j.active)
    (hop1 : i.op1Val = j.op1Val) (hop2 : i.op2Val = j.op2Val)
    (hresult : i.arithResult = j.arithResult) (haddress : i.memAddress = j.memAddress)
    (hwf : i.toDecodeInfo.WellFormed) : SameEffect (simEX i) (simEX j) := by
  obtain ⟨hresult', haddress'⟩ :=
    simEX_congr hPC hinstruction hdec hactive hop1 (fun _ => hop2) hresult haddress
  refine ⟨?_, ?_, hresult', haddress', fun hstore => ?_⟩
  · rw [simEX_toDecodeInfo, simEX_toDecodeInfo, hdec]
  · rw [simEX_active, simEX_active, hactive]
  · have hwrites : i.writesMem = true := by
      rw [isStore, simEX_toDecodeInfo, Bool.and_eq_true, Bool.and_eq_true] at hstore
      exact hstore.1.1
    rw [simEX_op2Val_of_store hwf hwrites, simEX_op2Val_of_store (hdec ▸ hwf) (hdec ▸ hwrites),
      hop2]

/-- **Carrying out depends on the word and on the registers and memory it meets.** -/
theorem carryOut_agrees (h : sim.Agrees sim') (hij : SameWord i j)
    (hwf : i.toDecodeInfo.WellFormed) : (sim.carryOut i).Agrees (sim'.carryOut j) := by
  obtain ⟨hop1, hop2⟩ := hij.collected sim'.regData
  rw [carryOut, carryOut, h.regData]
  exact complete_agrees h (sameEffect_simEX hij.PC hij.instruction hij.decode hij.active hop1 hop2
    hij.arithResult hij.memAddress hwf)

/-- An instruction without effect leaves registers and memory alone. -/
theorem carryOut_of_not_effective (h : i.effective = false) : sim.carryOut i = sim := by
  have heff : (simOperandCollection i sim.regData).effective = false := h
  rw [carryOut, simEX_of_not_effective heff, complete_of_not_effective heff]

end Congruence

/-! ### The single step -/

/-- The instruction at `PC`, decoded. -/
def decodedAt (mem : MemoryStore) (PC : BitVec 64) : Instruction := simDecode (simFetch PC mem)

/-- `simInstruction` behind the resolution of the next PC. -/
def stepBehind (sim : Simulator) (inst : Instruction) : Instruction × Simulator :=
  let inst := if inst.doesArithLogic then simArithLogic inst else inst
  let (inst, sim) :=
    if inst.readsMem || inst.writesMem then
      let (inst, memory) := simMemAccess accessFault (simAddrGen inst) sim.memory
      (inst, { sim with memory })
    else (inst, sim)
  let sim := if inst.writesRd then { sim with regData := simCommit inst sim.regData } else sim
  (inst, sim)

section SingleStep

variable {sim : Simulator} {PC : BitVec 64} {inst : Instruction}

/-- What follows in the single step changes neither the flags nor the next PC. -/
theorem stepBehind_fst (sim : Simulator) (inst : Instruction) :
    (stepBehind sim inst).1.toDecodeInfo = inst.toDecodeInfo ∧
      (stepBehind sim inst).1.nextPC = inst.nextPC := by
  rw [stepBehind, simMemAccess]
  dsimp only
  split_ifs <;> exact ⟨rfl, rfl⟩

/-- Only a store changes memory, and the step shows what it has stored. -/
theorem stepBehind_memory (hwf : inst.toDecodeInfo.WellFormed) :
    (stepBehind sim inst).2.memory =
      if inst.writesMem then storedMemory (stepBehind sim inst).1 sim.memory else sim.memory := by
  rw [stepBehind]
  dsimp only
  cases hwrites : inst.writesMem
  · cases hreads : inst.readsMem <;> cases harith : inst.doesArithLogic <;>
      cases hrd : inst.writesRd <;>
      simp [simMemAccess, simAddrGen, simArithLogic, hreads, hwrites, hrd]
  · obtain ⟨hreads, harith, hrd, -⟩ := hwf.store hwrites
    simp [simMemAccess, simAddrGen, hreads, hwrites, harith, hrd]

/-- The end of the single step is that of the pipeline. -/
theorem stepBehind_agrees (hwf : inst.toDecodeInfo.WellFormed) (hlegal : inst.isLegal = true)
    (hhalt : inst.isHalt = false) (hactive : inst.active = !inst.isNop) :
    (stepBehind sim inst).2.Agrees (sim.complete (simEX inst)) := by
  cases hnop : inst.isNop
  · have heff : inst.effective = true := by
      rw [effective_iff, hactive, hnop]
      exact ⟨rfl, hlegal, hhalt⟩
    have hex : (simEX inst).effective = true :=
      (effective_congr (simEX_toDecodeInfo _) (simEX_active _)).trans heff
    rw [complete_of_effective hex, simEX_toDecodeInfo, simEX_of_effective heff, stepBehind]
    dsimp only
    cases hreads : inst.readsMem
    · cases hwrites : inst.writesMem
      · cases harith : inst.doesArithLogic <;> cases hrd : inst.writesRd <;> constructor <;>
          simp [simMemAccess, simCommit, simArithLogic, hreads, hwrites, hrd]
      · obtain ⟨-, harith, hrd, -⟩ := hwf.store hwrites
        constructor <;>
          simp [simMemAccess, simAddrGen, storedMemory, accessSize, harith, hreads, hwrites, hrd]
    · obtain ⟨hwrites, harith, hrd, -⟩ := hwf.load hreads
      constructor <;>
        simp [simMemAccess, simAddrGen, simCommit, loadedValue, accessSize, harith, hreads, hrd]
  · obtain ⟨-, -, hinert, -⟩ := hwf.isNop hnop
    have heff : (simEX inst).effective = false := by
      rw [Instruction.effective, simEX_active, hactive, hnop]
      rfl
    rw [complete_of_not_effective heff, stepBehind]
    dsimp only
    rw [hinert.doesArithLogic, if_neg Bool.false_ne_true, hinert.readsMem, hinert.writesMem,
      Bool.or_false, if_neg Bool.false_ne_true]
    dsimp only
    rw [hinert.writesRd, if_neg Bool.false_ne_true]
    exact .refl sim

/-- A HALT or an illegal instruction is decoded and nothing else. -/
theorem simInstruction_of_stop
    (hstop : (decodeOf (wordAt sim.memory PC)).isHalt = true ∨
      (decodeOf (wordAt sim.memory PC)).isLegal = false) :
    sim.simInstruction PC =
      ({ decodedAt sim.memory PC with instructionID := sim.din },
        { sim with din := sim.din + 1 }) := by
  have htest : (!(decodeOf (wordAt sim.memory PC)).isLegal ||
      (decodeOf (wordAt sim.memory PC)).isHalt) = true := by
    rcases hstop with hhalt | hlegal
    · rw [hhalt, Bool.or_true]
    · rw [hlegal]
      rfl
  exact if_pos htest

section Going

variable (hlegal : (decodeOf (wordAt sim.memory PC)).isLegal = true)
  (hhalt : (decodeOf (wordAt sim.memory PC)).isHalt = false)

include hlegal hhalt

/-- Any other instruction goes on to the end of the step. -/
theorem simInstruction_of_going :
    sim.simInstruction PC =
      stepBehind { sim with din := sim.din + 1 }
        (simNextPCResolution (simOperandCollection
          { decodedAt sim.memory PC with instructionID := sim.din } sim.regData)) := by
  have htest : (!(decodeOf (wordAt sim.memory PC)).isLegal ||
      (decodeOf (wordAt sim.memory PC)).isHalt) = false := by
    rw [hlegal, hhalt]
    rfl
  exact if_neg (Bool.eq_false_iff.mp htest)

/-- The single step goes on where the operands collected at its beginning say. -/
theorem simInstruction_nextPC :
    (sim.simInstruction PC).1.nextPC =
      resolvedPC (simOperandCollection (decodedAt sim.memory PC) sim.regData) := by
  rw [simInstruction_of_going hlegal hhalt, (stepBehind_fst _ _).2]
  rfl

/-- The single step changes memory for a store only. -/
theorem simInstruction_memory :
    (sim.simInstruction PC).2.memory =
      if (decodeOf (wordAt sim.memory PC)).writesMem then
        storedMemory (sim.simInstruction PC).1 sim.memory
      else sim.memory := by
  rw [simInstruction_of_going hlegal hhalt]
  exact stepBehind_memory (decodeOf_wellFormed (wordAt sim.memory PC))

/-- **The single step carries the instruction out as the pipeline does.** -/
theorem simInstruction_agrees :
    (sim.simInstruction PC).2.Agrees (sim.carryOut (decodedAt sim.memory PC)) := by
  rw [simInstruction_of_going hlegal hhalt]
  generalize hinst : simNextPCResolution (simOperandCollection
    { decodedAt sim.memory PC with instructionID := sim.din } sim.regData) = inst
  have hwf : inst.toDecodeInfo.WellFormed := hinst ▸ decodeOf_wellFormed _
  have hactive : inst.active = !inst.isNop := by
    rw [← hinst]
    exact (Bool.and_true _).trans (Bool.and_true _)
  refine (stepBehind_agrees hwf (by rw [← hinst]; exact hlegal) (by rw [← hinst]; exact hhalt)
    hactive).trans (complete_agrees ⟨rfl, rfl⟩ ?_)
  -- the two records differ in their number and next PC only
  subst hinst
  exact sameEffect_simEX rfl rfl rfl rfl rfl rfl rfl rfl hwf

end Going

/-- The single step returns the flags of the fetched word, also where it stops at once. -/
theorem simInstruction_toDecodeInfo (sim : Simulator) (PC : BitVec 64) :
    (sim.simInstruction PC).1.toDecodeInfo = decodeOf (wordAt sim.memory PC) := by
  by_cases hstop : (decodeOf (wordAt sim.memory PC)).isHalt = true ∨
      (decodeOf (wordAt sim.memory PC)).isLegal = false
  · rw [simInstruction_of_stop hstop]
    rfl
  · rw [not_or, Bool.not_eq_true, Bool.not_eq_false] at hstop
    rw [simInstruction_of_going hstop.2 hstop.1, (stepBehind_fst _ _).1]
    rfl

end SingleStep

/-! ### The machine -/

/-- The PC of the next instruction and the PC behind it, where a branch with target
`target` finds `fetchPC` chosen: it keeps the choice if that is the word before the target. -/
def follow (fetchPC target : BitVec 64) : BitVec 64 × BitVec 64 :=
  if fetchPC = target - 4 then (fetchPC, fetchPC + 4) else (target, target + 4)

/-- The functional simulator with the PC chosen to be fetched next, and the PCs of the legal
instructions so far. -/
structure Sequencer extends FunctMachine where
  fetchPC : BitVec 64 := 4
  halted : Bool := false
  trace : List (BitVec 64) := []

namespace Sequencer

/-- The state of the sequencer for a memory image. -/
def init (mem : MemoryStore) : Sequencer where
  toFunctMachine := FunctMachine.initSimulator mem

/-- The two PCs behind the current instruction. -/
def successors (q : Sequencer) : BitVec 64 × BitVec 64 :=
  if q.executed.isLegal then
    if q.executed.branchOpcode then follow q.fetchPC q.executed.nextPC
    else (q.fetchPC, q.fetchPC + 4)
  else (excHandler, excHandler)

/-- One instruction: a HALT ends the run, an illegal instruction goes to the handler. -/
def step (q : Sequencer) : Sequencer :=
  if q.halted then q
  else if q.executed.isHalt then { q with halted := true, trace := q.trace ++ [q.PC] }
  else
    { simulator := if q.executed.isLegal then q.advance.simulator else q.simulator
      PC := q.successors.1
      fetchPC := q.successors.2
      trace := if q.executed.isLegal then q.trace ++ [q.PC] else q.trace }

/-- The flags of what the sequencer executes are those of the word at its PC. -/
theorem executed_toDecodeInfo (q : Sequencer) :
    q.executed.toDecodeInfo = decodeOf (wordAt q.simulator.memory q.PC) :=
  simInstruction_toDecodeInfo q.simulator q.PC

section Step

variable {q : Sequencer}

/-- A sequencer that has halted stays as it is. -/
theorem step_of_halted (h : q.halted = true) : q.step = q := if_pos h

variable (hq : q.halted = false)

include hq

/-- At a HALT the sequencer logs it and stays. -/
theorem step_of_halt (hhalt : q.executed.isHalt = true) :
    q.step = { q with halted := true, trace := q.trace ++ [q.PC] } := by
  rw [step, hq, if_neg Bool.false_ne_true, if_pos hhalt]

/-- At an illegal instruction both PCs go to the handler, whose first word is fetched twice. -/
theorem step_of_illegal (hhalt : q.executed.isHalt = false) (hlegal : q.executed.isLegal = false) :
    q.step = { q with PC := excHandler, fetchPC := excHandler, halted := false } := by
  rw [step, hq, if_neg Bool.false_ne_true, hhalt, if_neg Bool.false_ne_true, successors, hlegal]
  rfl

/-- Else the sequencer takes the single step, and the two PCs move on. -/
theorem step_of_legal (hhalt : q.executed.isHalt = false) (hlegal : q.executed.isLegal = true) :
    q.step =
      { q with
        simulator := q.advance.simulator
        PC := q.successors.1
        fetchPC := q.successors.2
        halted := false
        trace := q.trace ++ [q.PC] } := by
  rw [step, hq, if_neg Bool.false_ne_true, hhalt, if_neg Bool.false_ne_true, hlegal]
  rfl

end Step

end Sequencer

end RvPipeSim
