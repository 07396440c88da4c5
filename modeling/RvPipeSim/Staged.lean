import RvPipeSim.Sequencer

/-!
# The five stages are the single step

`staged` hands one instruction through the five stage functions, with nothing else in the
pipeline, as `simInstruction` executes it. The two guard the same helpers by different
tests: `simInstruction` by two flags once, the stages by the flags, the NOP flag and the
status, each stage anew.
-/

namespace RvPipeSim

open Simulator

namespace Simulator

/-- `simWB(simMEM(simEX(simID(simIF(PC)))))`; `seq` is the ghost number of the fetch. -/
def staged (sim : Simulator) (PC : BitVec 64) (seq : ℕ) : Instruction × Simulator :=
  let (inst, sim) := sim.simID (sim.simIF PC seq)
  let (inst, sim) := sim.simMEM accessFault (simEX inst)
  sim.simWB inst

end Simulator

section Staged

variable {sim : Simulator} {PC : BitVec 64} {seq : ℕ}

/-- The registers and memory behind the five stages are those behind MEM and WB. -/
theorem staged_snd (sim : Simulator) (PC : BitVec 64) (seq : ℕ) :
    (sim.staged PC seq).2 =
      (sim.simID (sim.simIF PC seq)).2.complete (simEX (sim.simID (sim.simIF PC seq)).1) := by
  rw [staged, complete]

/-- The instruction of the stages is what ID made of it, as far as it says where to go on. -/
theorem staged_fst (sim : Simulator) (PC : BitVec 64) (seq : ℕ) :
    (sim.staged PC seq).1.toDecodeInfo = (sim.simID (sim.simIF PC seq)).1.toDecodeInfo ∧
      (sim.staged PC seq).1.nextPC = (sim.simID (sim.simIF PC seq)).1.nextPC := by
  have hWB : ∀ (sim : Simulator) (inst : Instruction),
      (sim.simWB inst).1.nextPC = inst.nextPC := by
    intro sim inst
    rw [simWB]
    split_ifs <;> rfl
  have hMEM : ∀ (sim : Simulator) (inst : Instruction),
      (sim.simMEM accessFault inst).1.nextPC = inst.nextPC := by
    intro sim inst
    rw [simMEM, simMemAccess]
    split_ifs <;> rfl
  have hEX : ∀ inst : Instruction, (simEX inst).nextPC = inst.nextPC := by
    intro inst
    rw [simEX]
    dsimp only
    split_ifs <;> rfl
  rw [staged]
  dsimp only
  rw [simWB_toDecodeInfo, simMEM_toDecodeInfo, simEX_toDecodeInfo, hWB, hMEM, hEX]
  exact ⟨rfl, rfl⟩

/-- ID changes neither registers nor memory. -/
theorem simID_agrees (sim : Simulator) (inst : Instruction) : (sim.simID inst).2.Agrees sim :=
  ⟨(simID_frame sim inst).1, (simID_frame sim inst).2⟩

/-- What ID makes of the word at the PC. -/
theorem simID_simIF (sim : Simulator) (PC : BitVec 64) (seq : ℕ) :
    (sim.simID (sim.simIF PC seq)).1 =
      if (decodeOf (wordAt sim.memory PC)).isHalt || !(decodeOf (wordAt sim.memory PC)).isLegal then
        { sim.simIF PC seq with toDecodeInfo := decodeOf (wordAt sim.memory PC) }
      else
        { simNextPCResolution (simOperandCollection
            { sim.simIF PC seq with toDecodeInfo := decodeOf (wordAt sim.memory PC) }
            sim.regData) with
          instructionID := sim.din, status := .normal } :=
  simID_of_fresh rfl rfl

/-- The five stages return the flags of the fetched word. -/
theorem staged_toDecodeInfo (sim : Simulator) (PC : BitVec 64) (seq : ℕ) :
    (sim.staged PC seq).1.toDecodeInfo = decodeOf (wordAt sim.memory PC) := by
  rw [(staged_fst sim PC seq).1, simID_simIF]
  split <;> rfl

/-- A HALT or an illegal instruction passes the stages without an effect. -/
theorem staged_of_stop
    (hstop : (decodeOf (wordAt sim.memory PC)).isHalt = true ∨
      (decodeOf (wordAt sim.memory PC)).isLegal = false) :
    (sim.staged PC seq).2.Agrees sim := by
  have heff : (simEX (sim.simID (sim.simIF PC seq)).1).effective = false := by
    have hdec : (sim.simID (sim.simIF PC seq)).1.toDecodeInfo =
        decodeOf (wordAt sim.memory PC) := by
      rw [← (staged_fst sim PC seq).1, staged_toDecodeInfo]
    rw [Instruction.effective, simEX_toDecodeInfo, hdec]
    rcases hstop with hhalt | hlegal
    · rw [hhalt, Bool.not_true, Bool.and_false]
    · rw [hlegal, Bool.and_false, Bool.false_and]
  rw [staged_snd, complete_of_not_effective heff]
  exact simID_agrees _ _

section Going

variable (hlegal : (decodeOf (wordAt sim.memory PC)).isLegal = true)
  (hhalt : (decodeOf (wordAt sim.memory PC)).isHalt = false)

include hlegal hhalt

/-- ID decodes a legal word, collects its operands and resolves its next PC. -/
theorem simID_of_going :
    (sim.simID (sim.simIF PC seq)).1 =
      { simNextPCResolution (simOperandCollection
          { sim.simIF PC seq with toDecodeInfo := decodeOf (wordAt sim.memory PC) }
          sim.regData) with
        instructionID := sim.din, status := .normal } := by
  rw [simID_simIF, hlegal, hhalt]
  rfl

/-- Any other instruction is carried out. -/
theorem staged_of_going :
    (sim.staged PC seq).2.Agrees (sim.carryOut (decodedAt sim.memory PC)) := by
  rw [staged_snd, carryOut]
  refine complete_agrees (simID_agrees _ _) ?_
  -- the record ID makes differs from the decoded one in its number, status and next PC only
  rw [simID_of_going hlegal hhalt]
  exact sameEffect_simEX rfl rfl rfl rfl rfl rfl rfl rfl (decodeOf_wellFormed _)

/-- The five stages go on where ID says. -/
theorem staged_nextPC :
    (sim.staged PC seq).1.nextPC =
      resolvedPC (simOperandCollection (decodedAt sim.memory PC) sim.regData) := by
  rw [(staged_fst sim PC seq).2, simID_of_going hlegal hhalt]
  rfl

end Going

end Staged

/-- **The staged path is the single step.** On every register file, memory and PC the two
leave the same registers and memory, decode the word alike and, unless it is illegal or a
HALT, go on at the same PC. -/
theorem staged_eq_simInstruction (sim : Simulator) (PC : BitVec 64) (seq : ℕ) :
    (sim.staged PC seq).2.regData = (sim.simInstruction PC).2.regData ∧
      (sim.staged PC seq).2.memory = (sim.simInstruction PC).2.memory ∧
      (sim.staged PC seq).1.isLegal = (sim.simInstruction PC).1.isLegal ∧
      (sim.staged PC seq).1.isHalt = (sim.simInstruction PC).1.isHalt ∧
      ((sim.simInstruction PC).1.isLegal = true → (sim.simInstruction PC).1.isHalt = false →
        (sim.staged PC seq).1.nextPC = (sim.simInstruction PC).1.nextPC) := by
  have hagrees : (sim.staged PC seq).2.Agrees (sim.simInstruction PC).2 := by
    by_cases hstop : (decodeOf (wordAt sim.memory PC)).isHalt = true ∨
        (decodeOf (wordAt sim.memory PC)).isLegal = false
    · rw [simInstruction_of_stop hstop]
      exact (staged_of_stop hstop).trans ⟨rfl, rfl⟩
    · rw [not_or, Bool.not_eq_true, Bool.not_eq_false] at hstop
      exact (staged_of_going hstop.2 hstop.1).trans (simInstruction_agrees hstop.2 hstop.1).symm
  rw [staged_toDecodeInfo, simInstruction_toDecodeInfo]
  refine ⟨hagrees.regData, hagrees.memory, rfl, rfl, fun hlegal hhalt => ?_⟩
  rw [staged_nextPC hlegal hhalt, simInstruction_nextPC hlegal hhalt]

end RvPipeSim
