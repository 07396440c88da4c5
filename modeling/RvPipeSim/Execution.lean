import RvPipeSim.Decoding
import RvPipeSim.MemoryAccess
import RvPipeSim.Sequencer

/-!
# The single step implements the instruction set

`simInstruction` on a valid encoding, against `Rv64i.step` on the view of the simulator's
registers and memory. The lemmas follow the helpers of the source: what is decoded, what
`simArithLogic` computes, the address and the value of a load or store, the next PC. Each
compares one helper with the matching part of the instruction set, for all operands.

## Main results

* `computed_op`, `computed_opImm`, `computed_shift` — the ALU, by the classes of the
  instruction set;
* `resolvedPC_branch`, `resolvedPC_jal`, `resolvedPC_jalr` — the next PC, with the pieces of
  its offset put together;
* `loadedValue_eq`, `storedMemory_eq` — loads and stores in range;
* `simInstruction_implements` — the single step implements every instruction, from any
  registers and memory.
-/

namespace RvPipeSim

open Rv64i Simulator

/-! ### Arithmetic -/

section Arithmetic

variable {inst : Instruction}

/-- What `simArithLogic` leaves in `arithResult`. -/
def Instruction.computed (inst : Instruction) : BitVec 64 := (simArithLogic inst).arithResult

/-- The ALU on two registers, operation by operation; a shift by a register counts the low six
bits. -/
theorem computed_op {o : Op} (hop : inst.opcode = opInt) (hf3 : inst.funct3 = o.funct.2)
    (hf7 : inst.funct7 = o.funct.1)
    (hupper : extractBits inst.instruction 31 26 = (o.funct.1.extractLsb' 1 6).setWidth 64) :
    inst.computed = o.eval inst.op1Val inst.op2Val := by
  have hmask := (and_mask_toNat inst.op2Val).1
  rw [Instruction.computed]
  simp only [simArithLogic, arithLogicResult, maskedOp2, hop, hf3, hf7, hupper]
  cases o with
  | add => rfl
  | sub => rfl
  | sll => exact congrArg (fun n : ℕ => inst.op1Val <<< n) hmask
  | slt => rfl
  | sltu => rfl
  | xor => rfl
  | srl => exact congrArg (fun n : ℕ => inst.op1Val >>> n) hmask
  | sra => exact congrArg (fun n : ℕ => inst.op1Val.sshiftRight n) hmask
  | or => rfl
  | and => rfl

/-- The word operations work on the lower halves and extend the sign of the result. -/
theorem computed_opW {o : OpW} (hop : inst.opcode = opIntw) (hf3 : inst.funct3 = o.funct.2)
    (hf7 : inst.funct7 = o.funct.1)
    (hupper : extractBits inst.instruction 31 26 = (o.funct.1.extractLsb' 1 6).setWidth 64) :
    inst.computed =
      (o.eval (inst.op1Val.setWidth 32) (inst.op2Val.setWidth 32)).signExtend 64 := by
  have hmask := (and_mask_toNat inst.op2Val).2
  rw [Instruction.computed]
  simp only [simArithLogic, arithLogicResult, maskedOp2, hop, hf3, hf7, hupper]
  cases o with
  | addw => exact sext64_setWidth _ (by omega)
  | subw => exact sext64_setWidth _ (by omega)
  | sllw =>
      refine (sext64_setWidth _ (by omega)).trans ?_
      exact congrArg (fun n : ℕ => (inst.op1Val.setWidth 32 <<< n).signExtend 64) hmask
  | srlw =>
      refine (sext64_setWidth _ (by omega)).trans ?_
      exact congrArg (fun n : ℕ => (inst.op1Val.setWidth 32 >>> n).signExtend 64) hmask
  | sraw =>
      refine (sext64_signExtend _ (by omega)).trans ?_
      exact congrArg (fun n : ℕ => ((inst.op1Val.setWidth 32).sshiftRight n).signExtend 64) hmask

/-- The ALU on an immediate is the ALU on registers, with the immediate sign-extended. -/
theorem computed_opImm {o : ImmOp} {imm : BitVec 12} (hop : inst.opcode = opIntimm)
    (hf3 : inst.funct3 = o.funct3)
    (himm : extractBits inst.instruction 31 20 = imm.setWidth 64) :
    inst.computed = o.toOp.eval inst.op1Val (imm.signExtend 64) := by
  have hsext : sext64 (imm.setWidth 64) 11 = imm.signExtend 64 := sext64_setWidth imm (by omega)
  rw [Instruction.computed]
  simp only [simArithLogic, arithLogicResult, hop, hf3, himm, hsext]
  cases o <;> rfl

/-- The shift amounts `simArithLogic` masks out of the immediate. -/
theorem shamt_toNat {upper : BitVec 6} {shamt : BitVec 6} :
    ((upper ++ shamt : BitVec 12).setWidth 64 &&& 0x3F#64).toNat =
      ((shamt.setWidth 64).setWidth 6).toNat := by
  rw [(and_mask_toNat _).1, BitVec.setWidth_setWidth_of_le _ (by omega),
    BitVec.setWidth_setWidth_of_le _ (by omega), BitVec.setWidth_eq]
  exact congrArg BitVec.toNat BitVec.setWidth_append_eq_right

/-- The word shifts mask five bits, so the bits above the shift amount do not reach them. -/
theorem shamtW_toNat {upper : BitVec 7} {shamt : BitVec 5} :
    (((upper ++ shamt : BitVec 12).setWidth 64 &&& 0x1F#64).setWidth 32).toNat =
      ((shamt.setWidth 32).setWidth 5).toNat := by
  rw [(and_mask_toNat _).2, BitVec.setWidth_setWidth_of_le _ (by omega),
    BitVec.setWidth_setWidth_of_le _ (by omega), BitVec.setWidth_setWidth_of_le _ (by omega),
    BitVec.setWidth_eq]
  exact congrArg BitVec.toNat BitVec.setWidth_append_eq_right

/-- The shifts by a constant: the six bits of the immediate that the mask keeps are the shift
amount. -/
theorem computed_shift {o : ShiftOp} {shamt : BitVec 6} (hop : inst.opcode = opIntimm)
    (hf3 : inst.funct3 = o.funct.2)
    (himm : extractBits inst.instruction 31 20 = (o.funct.1 ++ shamt : BitVec 12).setWidth 64)
    (hupper : extractBits inst.instruction 31 26 = o.funct.1.setWidth 64) :
    inst.computed = o.toOp.eval inst.op1Val (shamt.setWidth 64) := by
  rw [Instruction.computed]
  simp only [simArithLogic, arithLogicResult, hop, hf3, himm, hupper]
  cases o with
  | slli => exact congrArg (fun n : ℕ => inst.op1Val <<< n) shamt_toNat
  | srli => exact congrArg (fun n : ℕ => inst.op1Val >>> n) shamt_toNat
  | srai => exact congrArg (fun n : ℕ => inst.op1Val.sshiftRight n) shamt_toNat

/-- `addiw` adds in 32 bits and extends the sign of the sum. -/
theorem computed_addiw {imm : BitVec 12} (hop : inst.opcode = opIntimmw) (hf3 : inst.funct3 = 0)
    (himm : extractBits inst.instruction 31 20 = imm.setWidth 64) :
    inst.computed = (inst.op1Val.setWidth 32 + imm.signExtend 32).signExtend 64 := by
  have hsext : sext32 ((imm.setWidth 64).setWidth 32) 11 = imm.signExtend 32 := by
    rw [BitVec.setWidth_setWidth_of_le _ (by omega)]
    exact sext32_setWidth imm (by omega)
  rw [Instruction.computed]
  simp only [simArithLogic, arithLogicResult, hop, hf3, himm, hsext]
  exact sext64_setWidth _ (by omega)

/-- The word shifts by a constant. -/
theorem computed_shiftW {o : ShiftOp} {shamt : BitVec 5} (hop : inst.opcode = opIntimmw)
    (hf3 : inst.funct3 = o.funct.2)
    (himm : extractBits inst.instruction 31 20 =
      ((o.funct.1 ++ 0#1 : BitVec 7) ++ shamt : BitVec 12).setWidth 64)
    (hupper : extractBits inst.instruction 31 26 = o.funct.1.setWidth 64) :
    inst.computed =
      (o.toOpW.eval (inst.op1Val.setWidth 32) (shamt.setWidth 32)).signExtend 64 := by
  rw [Instruction.computed]
  simp only [simArithLogic, arithLogicResult, hop, hf3, himm, hupper]
  cases o with
  | slli =>
      refine (sext64_setWidth _ (by omega)).trans ?_
      exact congrArg (fun n : ℕ => (inst.op1Val.setWidth 32 <<< n).signExtend 64) shamtW_toNat
  | srli =>
      refine (sext64_setWidth _ (by omega)).trans ?_
      exact congrArg (fun n : ℕ => (inst.op1Val.setWidth 32 >>> n).signExtend 64) shamtW_toNat
  | srai =>
      refine (sext64_signExtend _ (by omega)).trans ?_
      exact congrArg (fun n : ℕ => ((inst.op1Val.setWidth 32).sshiftRight n).signExtend 64)
        shamtW_toNat

/-- The immediate of `lui` and `auipc`. -/
theorem sext64_upper (imm : BitVec 20) :
    sext64 (imm.setWidth 64 <<< 12) 31 = (imm ++ 0#12).signExtend 64 := by
  have happend : imm.setWidth 64 <<< 12 = (imm ++ 0#12).setWidth 64 := by
    rw [setWidth_append]
    simp
  rw [happend]
  exact sext64_setWidth _ (by omega)

/-- `lui` is its immediate above twelve zeros. -/
theorem computed_lui {imm : BitVec 20} (hop : inst.opcode = opLui)
    (himm : extractBits inst.instruction 31 12 = imm.setWidth 64) :
    inst.computed = (imm ++ 0#12).signExtend 64 := by
  rw [Instruction.computed]
  simp only [simArithLogic, arithLogicResult, hop, himm, sext64_upper]
  rfl

/-- `auipc` adds the same immediate to its own PC. -/
theorem computed_auipc {imm : BitVec 20} (hop : inst.opcode = opAuipc)
    (himm : extractBits inst.instruction 31 12 = imm.setWidth 64) :
    inst.computed = inst.PC + (imm ++ 0#12).signExtend 64 := by
  rw [Instruction.computed]
  simp only [simArithLogic, arithLogicResult, hop, himm, sext64_upper]
  rfl

/-- The link value. -/
theorem computed_link (hop : inst.opcode = opJal ∨ inst.opcode = opJalr) :
    inst.computed = inst.PC + 4 := by
  rw [Instruction.computed]
  rcases hop with hop | hop
  · simp only [simArithLogic, arithLogicResult, hop]
    rfl
  · simp only [simArithLogic, arithLogicResult, hop]
    rfl

end Arithmetic

/-! ### The next PC -/

section NextPC

variable {inst : Instruction}

/-- Without an opcode that redirects, the next PC is the next word. -/
theorem resolvedPC_of_next
    (h : inst.opcode ≠ opJalr ∧ inst.opcode ≠ opBranch ∧ inst.opcode ≠ opJal) :
    resolvedPC inst = inst.PC + 4 := by
  simp only [resolvedPC, h.1, h.2.1, h.2.2, if_false]

/-- `jalr` clears the last bit of its target. -/
theorem resolvedPC_jalr {imm : BitVec 12} (hop : inst.opcode = opJalr)
    (himm : extractBits inst.instruction 31 20 = imm.setWidth 64) :
    resolvedPC inst = (inst.op1Val + imm.signExtend 64) &&& ~~~1#64 := by
  have hsext : sext64 (imm.setWidth 64) 11 = imm.signExtend 64 := sext64_setWidth imm (by omega)
  simp only [resolvedPC, hop, himm, hsext, if_true]

/-- The comparisons of the source are those of the instruction set; `bge` and `bgeu` negate the
strict ones. -/
theorem branchTaken_eq {o : BranchOp} (hf3 : inst.funct3 = o.funct3) :
    branchTaken inst = o.taken inst.op1Val inst.op2Val := by
  rw [branchTaken, hf3]
  cases o with
  | beq => rfl
  | bne => rfl
  | blt => rfl
  | bge => exact BitVec.sle_eq_not_slt
  | bltu => rfl
  | bgeu => exact BitVec.ule_eq_not_ult _ _

/-- The source collects the pieces of an offset in the order of the word; this puts them in the
order of the offset, with the zero bit at the end. -/
theorem or_pieces (a b c d : BitVec 64) :
    a ||| b ||| c ||| d = a ||| (d ||| (b ||| c)) ||| (0#1).setWidth 64 := by
  rw [BitVec.setWidth_zero, BitVec.or_zero, BitVec.or_assoc, BitVec.or_assoc,
    ← BitVec.or_assoc b c d, BitVec.or_comm (b ||| c) d]

/-- The pieces of a branch offset. -/
theorem sext64_branch {b12 b11 : BitVec 1} {hi : BitVec 6} {lo : BitVec 4} :
    sext64 (b12.setWidth 64 <<< 12 ||| hi.setWidth 64 <<< 5 ||| lo.setWidth 64 <<< 1 |||
        b11.setWidth 64 <<< 11) 12 =
      ((b12 ++ (b11 ++ (hi ++ lo)) : BitVec 12) ++ 0#1).signExtend 64 := by
  have happend : b12.setWidth 64 <<< 12 ||| hi.setWidth 64 <<< 5 ||| lo.setWidth 64 <<< 1 |||
      b11.setWidth 64 <<< 11 =
        ((b12 ++ (b11 ++ (hi ++ lo)) : BitVec 12) ++ 0#1).setWidth 64 := by
    rw [or_pieces, setWidth_append, setWidth_append, setWidth_append, setWidth_append]
    simp only [BitVec.shiftLeft_or_distrib, ← BitVec.shiftLeft_add]
  rw [happend]
  exact sext64_setWidth _ (by omega)

/-- The pieces of a jump offset. -/
theorem sext64_jump {b20 b11 : BitVec 1} {hi : BitVec 8} {lo : BitVec 10} :
    sext64 (b20.setWidth 64 <<< 20 ||| lo.setWidth 64 <<< 1 ||| b11.setWidth 64 <<< 11 |||
        hi.setWidth 64 <<< 12) 20 =
      ((b20 ++ (hi ++ (b11 ++ lo)) : BitVec 20) ++ 0#1).signExtend 64 := by
  have happend : b20.setWidth 64 <<< 20 ||| lo.setWidth 64 <<< 1 ||| b11.setWidth 64 <<< 11 |||
      hi.setWidth 64 <<< 12 =
        ((b20 ++ (hi ++ (b11 ++ lo)) : BitVec 20) ++ 0#1).setWidth 64 := by
    rw [or_pieces, setWidth_append, setWidth_append, setWidth_append, setWidth_append,
      BitVec.or_comm (lo.setWidth 64 <<< 1)]
    simp only [BitVec.shiftLeft_or_distrib, ← BitVec.shiftLeft_add]
  rw [happend]
  exact sext64_setWidth _ (by omega)

/-- The target of a branch, its offset put together from the two fields that hold it. -/
theorem resolvedPC_branch {o : BranchOp} {b12 b11 : BitVec 1} {hi : BitVec 6} {lo : BitVec 4}
    (hop : inst.opcode = opBranch) (hf3 : inst.funct3 = o.funct3)
    (hf7 : inst.funct7 = b12 ++ hi) (hrd : inst.rd = lo ++ b11) :
    resolvedPC inst =
      if o.taken inst.op1Val inst.op2Val then
        inst.PC + ((b12 ++ (b11 ++ (hi ++ lo)) : BitVec 12) ++ 0#1).signExtend 64
      else inst.PC + 4 := by
  have h12 : extractBits ((b12 ++ hi : BitVec 7).setWidth 64) 6 6 = b12.setWidth 64 := by
    rw [extractBits_setWidth (n := 1) _ rfl (by omega) (by omega)]
    exact congrArg _ BitVec.extractLsb'_append_eq_left
  have hhi : extractBits ((b12 ++ hi : BitVec 7).setWidth 64) 5 0 = hi.setWidth 64 := by
    rw [extractBits_setWidth (n := 6) _ rfl (by omega) (by omega)]
    exact congrArg _ BitVec.extractLsb'_append_eq_right
  have hlo : extractBits ((lo ++ b11 : BitVec 5).setWidth 64) 4 1 = lo.setWidth 64 := by
    rw [extractBits_setWidth (n := 4) _ rfl (by omega) (by omega)]
    exact congrArg _ BitVec.extractLsb'_append_eq_left
  have h11 : extractBits ((lo ++ b11 : BitVec 5).setWidth 64) 0 0 = b11.setWidth 64 := by
    rw [extractBits_setWidth (n := 1) _ rfl (by omega) (by omega)]
    exact congrArg _ BitVec.extractLsb'_append_eq_right
  simp only [resolvedPC, hop, hf7, hrd, h12, hhi, hlo, h11, branchTaken_eq hf3, sext64_branch]
  rfl

/-- The target of `jal`, its offset put together from the four pieces of the upper immediate. -/
theorem resolvedPC_jal {b20 b11 : BitVec 1} {hi : BitVec 8} {lo : BitVec 10}
    (hop : inst.opcode = opJal)
    (himm : extractBits inst.instruction 31 12 =
      (b20 ++ (lo ++ (b11 ++ hi)) : BitVec 20).setWidth 64) :
    resolvedPC inst =
      inst.PC + ((b20 ++ (hi ++ (b11 ++ lo)) : BitVec 20) ++ 0#1).signExtend 64 := by
  have h20 : extractBits ((b20 ++ (lo ++ (b11 ++ hi)) : BitVec 20).setWidth 64) 19 19 =
      b20.setWidth 64 := by
    rw [extractBits_setWidth (n := 1) _ rfl (by omega) (by omega)]
    exact congrArg _ BitVec.extractLsb'_append_eq_left
  have hlo : extractBits ((b20 ++ (lo ++ (b11 ++ hi)) : BitVec 20).setWidth 64) 18 9 =
      lo.setWidth 64 := by
    rw [extractBits_setWidth (n := 10) _ rfl (by omega) (by omega)]
    refine congrArg _ ((BitVec.extractLsb'_append_eq_of_add_le (by omega)).trans ?_)
    exact BitVec.extractLsb'_append_eq_left
  have h11 : extractBits ((b20 ++ (lo ++ (b11 ++ hi)) : BitVec 20).setWidth 64) 8 8 =
      b11.setWidth 64 := by
    rw [extractBits_setWidth (n := 1) _ rfl (by omega) (by omega)]
    refine congrArg _ ((BitVec.extractLsb'_append_eq_of_add_le (by omega)).trans ?_)
    refine (BitVec.extractLsb'_append_eq_of_add_le (by omega)).trans ?_
    exact BitVec.extractLsb'_append_eq_left
  have hhi : extractBits ((b20 ++ (lo ++ (b11 ++ hi)) : BitVec 20).setWidth 64) 7 0 =
      hi.setWidth 64 := by
    rw [extractBits_setWidth (n := 8) _ rfl (by omega) (by omega)]
    refine congrArg _ ((BitVec.extractLsb'_append_eq_of_add_le (by omega)).trans ?_)
    refine (BitVec.extractLsb'_append_eq_of_add_le (by omega)).trans ?_
    exact BitVec.extractLsb'_append_eq_right
  simp only [resolvedPC, hop, himm, h20, hlo, h11, hhi, sext64_jump]
  rfl

end NextPC

/-! ### Loads and stores -/

section Access

variable {inst : Instruction} {mem : MemoryStore}

/-- The address of a load. -/
theorem simAddrGen_load {imm : BitVec 12} (hload : inst.readsMem = true)
    (himm : extractBits inst.instruction 31 20 = imm.setWidth 64) :
    (simAddrGen inst).memAddress = inst.op1Val + imm.signExtend 64 := by
  have hsext : sext64 (imm.setWidth 64) 11 = imm.signExtend 64 := sext64_setWidth imm (by omega)
  simp only [simAddrGen, hload, himm, hsext, if_true]

/-- The address of a store, whose offset lies where other formats keep `funct7` and `rd`. -/
theorem simAddrGen_store {hi : BitVec 7} {lo : BitVec 5} (hload : inst.readsMem = false)
    (hstore : inst.writesMem = true) (hf7 : inst.funct7 = hi) (hrd : inst.rd = lo) :
    (simAddrGen inst).memAddress = inst.op1Val + (hi ++ lo : BitVec 12).signExtend 64 := by
  have hsext : sext64 (hi.setWidth 64 <<< 5 ||| lo.setWidth 64) 11 =
      (hi ++ lo : BitVec 12).signExtend 64 := by
    rw [← setWidth_append]
    exact sext64_setWidth (n := 11) (hi ++ lo : BitVec 12) (by omega)
  simp only [simAddrGen, hload, hstore, hf7, hrd, hsext, if_true, Bool.false_eq_true, if_false]

/-- A load in range loads what the instruction set says. -/
theorem loadedValue_eq {o : LoadOp} (hf3 : inst.funct3 = o.funct3)
    (hrange : mem.InRange inst.memAddress o.bytes) :
    (accessSize inst).bytes = o.bytes ∧
      loadedValue inst mem = o.extend (loadBytes mem.view inst.memAddress o.bytes) := by
  have hsize : (accessSize inst).bytes = o.bytes := by
    rw [accessSize, hf3]
    cases o <;> rfl
  have hvalue := MemoryStore.getMemValue_of_inRange (hsize ▸ hrange)
  refine ⟨hsize, ?_⟩
  have hsext : ∀ n, n + 1 = o.bytes * 8 → n < 64 →
      sext64 (loadBytes mem.view inst.memAddress o.bytes) n =
        ((loadBytes mem.view inst.memAddress o.bytes).setWidth (n + 1)).signExtend 64 := by
    intro n hn hlt
    rw [← sext64_setWidth _ hlt, hn, loadBytes_setWidth]
  simp only [loadedValue, hvalue, hsize, hf3]
  cases o with
  | lb => exact hsext 7 rfl (by omega)
  | lh => exact hsext 15 rfl (by omega)
  | lw => exact hsext 31 rfl (by omega)
  | ld => rfl
  | lbu => rfl
  | lhu => rfl
  | lwu => rfl

/-- A store in range stores what the instruction set says. -/
theorem storedMemory_eq {o : StoreOp} (hf3 : inst.funct3 = o.funct3)
    (hrange : mem.InRange inst.memAddress o.bytes) :
    (storedMemory inst mem).startAddr = mem.startAddr ∧
      (storedMemory inst mem).numEntries = mem.numEntries ∧
      (storedMemory inst mem).view = storeBytes mem.view inst.memAddress inst.op2Val o.bytes := by
  have hsize : (accessSize inst).bytes = o.bytes := by
    rw [accessSize, hf3]
    cases o <;> rfl
  rw [← hsize]
  exact MemoryStore.setMemValue_of_inRange (hsize ▸ hrange)

end Access

/-! ### The single step -/

/-- The state of the instruction set a simulator stands for, at a PC. -/
def Simulator.view (sim : Simulator) (PC : BitVec 64) : State where
  regs := sim.regData.registers
  mem := sim.memory.view
  pc := PC

/-- The instruction at `PC`, decoded and with its operands. -/
def collectedAt (sim : Simulator) (PC : BitVec 64) : Instruction :=
  simOperandCollection (decodedAt sim.memory PC) sim.regData

/-- The single step at `PC` does what the instruction set says about `i`. -/
structure Implements (sim : Simulator) (PC : BitVec 64) (i : Instr) : Prop where
  registers : ∀ r ≠ 0,
    (sim.simInstruction PC).2.regData.registers r = (step (sim.view PC) i).regs r
  memory : (sim.simInstruction PC).2.memory.view = (step (sim.view PC) i).mem
  bounds : (sim.simInstruction PC).2.memory.startAddr = sim.memory.startAddr ∧
    (sim.simInstruction PC).2.memory.numEntries = sim.memory.numEntries
  nextPC : (sim.simInstruction PC).1.nextPC = (step (sim.view PC) i).pc

section SingleStep

variable {sim : Simulator} {PC : BitVec 64} {inst : Instruction}

/-- The rest of the single step, for an instruction that computes what it writes. -/
theorem stepBehind_of_arith (harith : inst.doesArithLogic = true) (hload : inst.readsMem = false)
    (hstore : inst.writesMem = false) (hrd : inst.writesRd = true) :
    (stepBehind sim inst).2 = { sim with regData := sim.regData.write inst.rd inst.computed } := by
  simp [stepBehind, simCommit, simArithLogic, Instruction.computed, harith, hload, hstore, hrd]

/-- The rest of the single step of a load: the loaded value goes into its destination. -/
theorem stepBehind_of_load (harith : inst.doesArithLogic = false) (hload : inst.readsMem = true)
    (hrd : inst.writesRd = true) :
    (stepBehind sim inst).2 =
      { sim with
        regData := sim.regData.write inst.rd (loadedValue (simAddrGen inst) sim.memory) } := by
  have hload' : (simAddrGen inst).readsMem = true := hload
  have hrd' : (simAddrGen inst).writesRd = true := hrd
  simp [stepBehind, simCommit, simMemAccess, harith, hload, hload', hrd']
  rfl

/-- The rest of the single step of a store: only the memory changes. -/
theorem stepBehind_of_store (harith : inst.doesArithLogic = false)
    (hload : inst.readsMem = false) (hstore : inst.writesMem = true)
    (hrd : inst.writesRd = false) :
    (stepBehind sim inst).2 =
      { sim with memory := storedMemory (simAddrGen inst) sim.memory } := by
  have hload' : (simAddrGen inst).readsMem = false := hload
  have hstore' : (simAddrGen inst).writesMem = true := hstore
  have hrd' : (simAddrGen inst).writesRd = false := hrd
  simp [stepBehind, simMemAccess, harith, hload, hstore, hload', hstore', hrd']

/-- The rest of the single step of a branch changes nothing; its effect is the next PC. -/
theorem stepBehind_of_branch (harith : inst.doesArithLogic = false)
    (hload : inst.readsMem = false) (hstore : inst.writesMem = false)
    (hrd : inst.writesRd = false) : (stepBehind sim inst).2 = sim := by
  simp [stepBehind, harith, hload, hstore, hrd]

/-- The first operand is the register the format names, `x0` read as zero. -/
theorem collectedAt_op1Val {d : DecodeInfo} (hd : (collectedAt sim PC).toDecodeInfo = d)
    (h : d.readsRs1 = true) : (collectedAt sim PC).op1Val = (sim.view PC).x d.rs1 := by
  subst hd
  exact if_pos h

/-- The second operand is the register the format names, `x0` read as zero. -/
theorem collectedAt_op2Val {d : DecodeInfo} (hd : (collectedAt sim PC).toDecodeInfo = d)
    (h : d.readsRs2 = true) : (collectedAt sim PC).op2Val = (sim.view PC).x d.rs2 := by
  subst hd
  exact if_pos h

/-- Where the bytes at `PC` are a word of the instruction set, that word is fetched and decoded.
-/
theorem collectedAt_instruction {w : BitVec 32} (hfetch : sim.memory.InRange PC 4)
    (hword : loadBytes sim.memory.view PC 4 = w.setWidth 64) :
    (collectedAt sim PC).instruction = w.setWidth 64 ∧
      (collectedAt sim PC).toDecodeInfo = decodeOf (w.setWidth 64) := by
  have hvalue : wordAt sim.memory PC = w.setWidth 64 := by
    have hread : (sim.memory.getMemValue PC .wordSize).2 = w.setWidth 64 :=
      (MemoryStore.getMemValue_of_inRange hfetch).trans hword
    rw [wordAt, simFetch, hread, setWidth_word]
  refine ⟨hvalue, ?_⟩
  have hdecode : (collectedAt sim PC).toDecodeInfo = decodeOf (wordAt sim.memory PC) := rfl
  rw [hdecode, hvalue]

variable (hlegal : (collectedAt sim PC).isLegal = true)
  (hhalt : (collectedAt sim PC).isHalt = false)

include hlegal hhalt

/-- The single step of a legal instruction that is not HALT: number it, then run it to the end.
-/
theorem simInstruction_eq :
    sim.simInstruction PC =
      stepBehind { sim with din := sim.din + 1 }
        { collectedAt sim PC with
          instructionID := sim.din
          nextPC := resolvedPC (collectedAt sim PC) } :=
  simInstruction_of_going hlegal hhalt

/-- The single step goes on at the PC that ID resolved; no later stage touches it. -/
theorem simInstruction_fst_nextPC :
    (sim.simInstruction PC).1.nextPC = resolvedPC (collectedAt sim PC) := by
  rw [simInstruction_eq hlegal hhalt, (stepBehind_fst _ _).2]

end SingleStep

/-! ### Instruction by instruction -/

section Implements

variable {sim : Simulator} {PC : BitVec 64} {i : Instr} {d : DecodeInfo}

/-- A register write of the source, against one that drops writes to `x0`. -/
theorem registers_write (sim : Simulator) (PC : BitVec 64) {rd r : BitVec 5} (hr : r ≠ 0)
    (value : BitVec 64) :
    (sim.regData.write rd value).registers r = ((sim.view PC).setX rd value).regs r := by
  rw [State.setX]
  dsimp only
  split
  · rename_i hrd
    exact Function.update_of_ne (hrd ▸ hr) _ _
  · rfl

/-- An instruction that only writes a register. -/
theorem implements_of_write {rd : BitVec 5} {value : BitVec 64}
    (hlegal : (collectedAt sim PC).isLegal = true) (hhalt : (collectedAt sim PC).isHalt = false)
    (hstate : (sim.simInstruction PC).2 =
      { sim with regData := sim.regData.write rd value, din := sim.din + 1 })
    (hresult : result (sim.view PC) i = some (rd, value))
    (hmemory : Rv64i.memory (sim.view PC) i = sim.memory.view)
    (hpc : resolvedPC (collectedAt sim PC) = Rv64i.nextPC (sim.view PC) i) :
    Implements sim PC i := by
  refine ⟨fun r hr => ?_, ?_, ?_, ?_⟩
  · rw [hstate, step, hresult]
    exact registers_write sim PC hr _
  · rw [hstate, step, hmemory]
  · rw [hstate]
    exact ⟨rfl, rfl⟩
  · rw [simInstruction_fst_nextPC hlegal hhalt, hpc, step]

/-- An instruction that computes the value it writes. -/
theorem implements_of_arith {value : BitVec 64}
    (hd : (collectedAt sim PC).toDecodeInfo = d) (hlegal : d.isLegal = true)
    (hhalt : d.isHalt = false) (harith : d.doesArithLogic = true) (hload : d.readsMem = false)
    (hstore : d.writesMem = false) (hrd : d.writesRd = true)
    (hvalue : (collectedAt sim PC).computed = value)
    (hresult : result (sim.view PC) i = some (d.rd, value))
    (hmemory : Rv64i.memory (sim.view PC) i = sim.memory.view)
    (hpc : resolvedPC (collectedAt sim PC) = Rv64i.nextPC (sim.view PC) i) :
    Implements sim PC i := by
  subst hd
  refine implements_of_write hlegal hhalt ?_ hresult hmemory hpc
  rw [simInstruction_eq hlegal hhalt, ← hvalue]
  exact stepBehind_of_arith harith hload hstore hrd

/-- A load. -/
theorem implements_of_load {value : BitVec 64}
    (hd : (collectedAt sim PC).toDecodeInfo = d) (hlegal : d.isLegal = true)
    (hhalt : d.isHalt = false) (harith : d.doesArithLogic = false) (hload : d.readsMem = true)
    (hrd : d.writesRd = true)
    (hvalue : loadedValue (simAddrGen (collectedAt sim PC)) sim.memory = value)
    (hresult : result (sim.view PC) i = some (d.rd, value))
    (hmemory : Rv64i.memory (sim.view PC) i = sim.memory.view)
    (hpc : resolvedPC (collectedAt sim PC) = Rv64i.nextPC (sim.view PC) i) :
    Implements sim PC i := by
  subst hd
  refine implements_of_write hlegal hhalt ?_ hresult hmemory hpc
  rw [simInstruction_eq hlegal hhalt, ← hvalue]
  exact stepBehind_of_load harith hload hrd

/-- A store. -/
theorem implements_of_store (hd : (collectedAt sim PC).toDecodeInfo = d)
    (hlegal : d.isLegal = true) (hhalt : d.isHalt = false) (harith : d.doesArithLogic = false)
    (hload : d.readsMem = false) (hstore : d.writesMem = true) (hrd : d.writesRd = false)
    (hresult : result (sim.view PC) i = none)
    (hmemory : (storedMemory (simAddrGen (collectedAt sim PC)) sim.memory).startAddr =
        sim.memory.startAddr ∧
      (storedMemory (simAddrGen (collectedAt sim PC)) sim.memory).numEntries =
        sim.memory.numEntries ∧
      (storedMemory (simAddrGen (collectedAt sim PC)) sim.memory).view =
        Rv64i.memory (sim.view PC) i)
    (hpc : resolvedPC (collectedAt sim PC) = Rv64i.nextPC (sim.view PC) i) :
    Implements sim PC i := by
  subst hd
  have hstate : (sim.simInstruction PC).2 =
      { sim with
        memory := storedMemory (simAddrGen (collectedAt sim PC)) sim.memory
        din := sim.din + 1 } := by
    rw [simInstruction_eq hlegal hhalt]
    exact stepBehind_of_store harith hload hstore hrd
  refine ⟨fun r _ => ?_, ?_, ?_, ?_⟩
  · rw [hstate, step, hresult]
    rfl
  · rw [hstate, step, hmemory.2.2]
  · rw [hstate]
    exact ⟨hmemory.1, hmemory.2.1⟩
  · rw [simInstruction_fst_nextPC hlegal hhalt, hpc, step]

/-- An instruction that leaves memory and all registers but `x0` alone. -/
theorem implements_of_branch (hd : (collectedAt sim PC).toDecodeInfo = d)
    (hlegal : d.isLegal = true) (hhalt : d.isHalt = false) (harith : d.doesArithLogic = false)
    (hload : d.readsMem = false) (hstore : d.writesMem = false) (hrd : d.writesRd = false)
    (hresult : ∀ rd value, result (sim.view PC) i = some (rd, value) → rd = 0)
    (hmemory : Rv64i.memory (sim.view PC) i = sim.memory.view)
    (hpc : resolvedPC (collectedAt sim PC) = Rv64i.nextPC (sim.view PC) i) :
    Implements sim PC i := by
  subst hd
  have hstate : (sim.simInstruction PC).2 = { sim with din := sim.din + 1 } := by
    rw [simInstruction_eq hlegal hhalt]
    exact stepBehind_of_branch harith hload hstore hrd
  refine ⟨fun r _ => ?_, ?_, ?_, ?_⟩
  · rw [hstate, step]
    cases hr : result (sim.view PC) i with
    | none => rfl
    | some write =>
        have hzero : write.1 = 0 := hresult write.1 write.2 hr
        dsimp only
        rw [State.setX, if_pos hzero]
        rfl
  · rw [hstate, step, hmemory]
  · rw [hstate]
    exact ⟨rfl, rfl⟩
  · rw [simInstruction_fst_nextPC hlegal hhalt, hpc, step]

/-- `resolvedPC_of_next` at the fetched instruction, from its opcode. -/
theorem resolvedPC_next {opcode : BitVec 7} (hop : (collectedAt sim PC).opcode = opcode)
    (hne : opcode ≠ opJalr ∧ opcode ≠ opBranch ∧ opcode ≠ opJal) :
    resolvedPC (collectedAt sim PC) = PC + 4 := by
  subst hop
  exact resolvedPC_of_next hne

/-- A field of the instruction word, as the helpers extract it. -/
theorem field_collectedAt {w : BitVec 32} (hinst : (collectedAt sim PC).instruction = w.setWidth 64)
    {hi lo n : ℕ} (hn : hi - lo + 1 = n) (hn' : n ≤ 64) :
    extractBits (collectedAt sim PC).instruction hi lo = (w.extractLsb' lo n).setWidth 64 := by
  rw [hinst, extractBits_setWidth w hn hn' (by omega)]

section Encoded

variable (hfetch : sim.memory.InRange PC 4)
include hfetch

/-- The single step implements the ALU operations on registers. -/
theorem implements_op {o : Op} {rd rs1 rs2 : BitVec 5}
    (hword : loadBytes sim.memory.view PC 4 = (encode (.op o rd rs1 rs2)).setWidth 64) :
    Implements sim PC (.op o rd rs1 rs2) := by
  obtain ⟨hinst, hd⟩ := collectedAt_instruction hfetch hword
  have hlegal : legalInt (fieldInfo o.funct.1 rs2 rs1 o.funct.2 rd opInt) = true :=
    legalInt_iff.mpr (.inl ⟨o, rfl⟩)
  replace hd := hd.trans (decodeOf_of_switch (ne_nopWord (by decide)) (by decide)
    ((decodeOpcode_int rfl).trans (if_pos hlegal)))
  have hop : (collectedAt sim PC).opcode = opInt := congrArg DecodeInfo.opcode hd
  have hcomputed := computed_op hop (congrArg DecodeInfo.funct3 hd) (congrArg DecodeInfo.funct7 hd)
    ((field_collectedAt hinst rfl (by omega)).trans (congrArg _ upper_rType))
  rw [collectedAt_op1Val hd rfl, collectedAt_op2Val hd rfl] at hcomputed
  exact implements_of_arith hd rfl rfl rfl rfl rfl rfl hcomputed rfl rfl
    (resolvedPC_next hop (by decide))

/-- The single step implements the word operations on registers. -/
theorem implements_opW {o : OpW} {rd rs1 rs2 : BitVec 5}
    (hword : loadBytes sim.memory.view PC 4 = (encode (.opW o rd rs1 rs2)).setWidth 64) :
    Implements sim PC (.opW o rd rs1 rs2) := by
  obtain ⟨hinst, hd⟩ := collectedAt_instruction hfetch hword
  have hlegal : legalIntw (fieldInfo o.funct.1 rs2 rs1 o.funct.2 rd opIntw) = true :=
    legalIntw_iff.mpr (.inl ⟨o, rfl⟩)
  replace hd := hd.trans (decodeOf_of_switch (ne_nopWord (by decide)) (by decide)
    ((decodeOpcode_intw rfl).trans (if_pos hlegal)))
  have hop : (collectedAt sim PC).opcode = opIntw := congrArg DecodeInfo.opcode hd
  have hcomputed := computed_opW hop (congrArg DecodeInfo.funct3 hd)
    (congrArg DecodeInfo.funct7 hd)
    ((field_collectedAt hinst rfl (by omega)).trans (congrArg _ upper_rType))
  rw [collectedAt_op1Val hd rfl, collectedAt_op2Val hd rfl] at hcomputed
  exact implements_of_arith hd rfl rfl rfl rfl rfl rfl hcomputed rfl rfl
    (resolvedPC_next hop (by decide))

/-- The single step implements `addiw`. -/
theorem implements_addiw {rd rs1 : BitVec 5} {imm : BitVec 12}
    (hword : loadBytes sim.memory.view PC 4 = (encode (.addiw rd rs1 imm)).setWidth 64) :
    Implements sim PC (.addiw rd rs1 imm) := by
  obtain ⟨hinst, hd⟩ := collectedAt_instruction hfetch hword
  have hlegal : legalIntimmw (fieldInfo (imm.extractLsb' 5 7) (imm.extractLsb' 0 5) rs1 0b000 rd
      opIntimmw) = true := legalIntimmw_iff.mpr (.inl (.inl rfl))
  replace hd := hd.trans (decodeOf_of_switch (ne_nopWord (by decide)) (by decide)
    ((decodeOpcode_intimmw rfl).trans (if_pos hlegal)))
  have hop : (collectedAt sim PC).opcode = opIntimmw := congrArg DecodeInfo.opcode hd
  have hcomputed := computed_addiw hop (congrArg DecodeInfo.funct3 hd)
    ((field_collectedAt hinst rfl (by omega)).trans (congrArg _ imm12_iType))
  rw [collectedAt_op1Val hd rfl] at hcomputed
  exact implements_of_arith hd rfl rfl rfl rfl rfl rfl hcomputed rfl rfl
    (resolvedPC_next hop (by decide))

/-- The single step implements the word shifts by a constant. -/
theorem implements_shiftW {o : ShiftOp} {rd rs1 : BitVec 5} {shamt : BitVec 5}
    (hword : loadBytes sim.memory.view PC 4 = (encode (.shiftW o rd rs1 shamt)).setWidth 64) :
    Implements sim PC (.shiftW o rd rs1 shamt) := by
  obtain ⟨hinst, hd⟩ := collectedAt_instruction hfetch hword
  have hf7 : ((o.funct.1 ++ 0#1 : BitVec 7) ++ shamt : BitVec 12).extractLsb' 5 7 =
      o.funct.1 ++ 0#1 := BitVec.extractLsb'_append_eq_left
  have hlegal : legalIntimmw (fieldInfo (((o.funct.1 ++ 0#1 : BitVec 7) ++ shamt :
      BitVec 12).extractLsb' 5 7) (((o.funct.1 ++ 0#1 : BitVec 7) ++ shamt :
      BitVec 12).extractLsb' 0 5) rs1 o.funct.2 rd opIntimmw) = true :=
    legalIntimmw_iff.mpr (.inl (.inr ⟨o, hf7.symm, rfl⟩))
  replace hd := hd.trans (decodeOf_of_switch (ne_nopWord (by decide)) (by decide)
    ((decodeOpcode_intimmw rfl).trans (if_pos hlegal)))
  have hop : (collectedAt sim PC).opcode = opIntimmw := congrArg DecodeInfo.opcode hd
  have hupper : (((o.funct.1 ++ 0#1 : BitVec 7) ++ shamt : BitVec 12).extractLsb' 5 7).extractLsb'
      1 6 = o.funct.1 := by
    rw [hf7]
    exact BitVec.extractLsb'_append_eq_left
  have hcomputed := computed_shiftW hop (congrArg DecodeInfo.funct3 hd)
    ((field_collectedAt hinst rfl (by omega)).trans (congrArg _ imm12_iType))
    ((field_collectedAt hinst rfl (by omega)).trans (congrArg _ (upper_rType.trans hupper)))
  rw [collectedAt_op1Val hd rfl] at hcomputed
  exact implements_of_arith hd rfl rfl rfl rfl rfl rfl hcomputed rfl rfl
    (resolvedPC_next hop (by decide))

/-- The single step implements `lui`. -/
theorem implements_lui {rd : BitVec 5} {imm : BitVec 20}
    (hword : loadBytes sim.memory.view PC 4 = (encode (.lui rd imm)).setWidth 64) :
    Implements sim PC (.lui rd imm) := by
  obtain ⟨hinst, hd⟩ := collectedAt_instruction hfetch hword
  replace hd := hd.trans (decodeOf_of_switch (ne_nopWord (by decide)) (by decide)
    (decodeOpcode_upper (.inr (.inl rfl))))
  have hop : (collectedAt sim PC).opcode = opLui := congrArg DecodeInfo.opcode hd
  have hcomputed := computed_lui hop
    ((field_collectedAt hinst rfl (by omega)).trans (congrArg _ imm20_uType))
  exact implements_of_arith hd rfl rfl rfl rfl rfl rfl hcomputed rfl rfl
    (resolvedPC_next hop (by decide))

/-- The single step implements `auipc`. -/
theorem implements_auipc {rd : BitVec 5} {imm : BitVec 20}
    (hword : loadBytes sim.memory.view PC 4 = (encode (.auipc rd imm)).setWidth 64) :
    Implements sim PC (.auipc rd imm) := by
  obtain ⟨hinst, hd⟩ := collectedAt_instruction hfetch hword
  replace hd := hd.trans (decodeOf_of_switch (ne_nopWord (by decide)) (by decide)
    (decodeOpcode_upper (.inl rfl)))
  have hop : (collectedAt sim PC).opcode = opAuipc := congrArg DecodeInfo.opcode hd
  have hcomputed := computed_auipc hop
    ((field_collectedAt hinst rfl (by omega)).trans (congrArg _ imm20_uType))
  exact implements_of_arith hd rfl rfl rfl rfl rfl rfl hcomputed rfl rfl
    (resolvedPC_next hop (by decide))

/-- The single step implements `jal`, which links to the next word. -/
theorem implements_jal {rd : BitVec 5} {imm : BitVec 20}
    (hword : loadBytes sim.memory.view PC 4 = (encode (.jal rd imm)).setWidth 64) :
    Implements sim PC (.jal rd imm) := by
  obtain ⟨hinst, hd⟩ := collectedAt_instruction hfetch hword
  replace hd := hd.trans (decodeOf_of_switch (ne_nopWord (by decide)) (by decide)
    (decodeOpcode_upper (.inr (.inr rfl))))
  have hop : (collectedAt sim PC).opcode = opJal := congrArg DecodeInfo.opcode hd
  have hpc : resolvedPC (collectedAt sim PC) = PC + (imm ++ 0#1).signExtend 64 := by
    obtain ⟨b20, b11, hi, lo, rfl⟩ := exists_jImm imm
    exact resolvedPC_jal hop ((field_collectedAt hinst rfl (by omega)).trans
      (congrArg _ ((congrArg _ jType_append).trans imm20_uType)))
  exact implements_of_arith hd rfl rfl rfl rfl rfl rfl (computed_link (.inl hop)) rfl rfl hpc

/-- The single step implements `jalr`; the target is computed from the old register, also where
the link overwrites it. -/
theorem implements_jalr {rd rs1 : BitVec 5} {imm : BitVec 12}
    (hword : loadBytes sim.memory.view PC 4 = (encode (.jalr rd rs1 imm)).setWidth 64) :
    Implements sim PC (.jalr rd rs1 imm) := by
  obtain ⟨hinst, hd⟩ := collectedAt_instruction hfetch hword
  replace hd := hd.trans (decodeOf_of_switch (ne_nopWord (by decide)) (by decide)
    (decodeOpcode_jalr rfl))
  have hop : (collectedAt sim PC).opcode = opJalr := congrArg DecodeInfo.opcode hd
  have hpc := resolvedPC_jalr hop
    ((field_collectedAt hinst rfl (by omega)).trans (congrArg _ imm12_iType))
  rw [collectedAt_op1Val hd rfl] at hpc
  exact implements_of_arith hd rfl rfl rfl rfl rfl rfl (computed_link (.inr hop)) rfl rfl hpc

/-- The NOP is decoded on its own: it writes nothing, as the instruction it encodes does. -/
theorem implements_nop {i : Instr} {rs1 rs2 : BitVec 5} {funct3 : BitVec 3} {rd : BitVec 5}
    {funct7 opcode : BitVec 7} (hencode : encode i = rType funct7 rs2 rs1 funct3 rd opcode)
    (hword : loadBytes sim.memory.view PC 4 = (encode i).setWidth 64)
    (hnop : (encode i).setWidth 64 = nopWord)
    (hresult : ∀ r value, result (sim.view PC) i = some (r, value) → r = rd)
    (hmemory : Rv64i.memory (sim.view PC) i = sim.memory.view)
    (hpc : Rv64i.nextPC (sim.view PC) i = PC + 4) : Implements sim PC i := by
  obtain ⟨-, hd⟩ := collectedAt_instruction hfetch hword
  have hrd : rd = 0 := by
    rw [hencode] at hnop
    have hnop' : nopWord = (0x00000013#32).setWidth 64 := by decide
    exact (fields_of_word (hnop.trans hnop')).2.trans (by decide)
  rw [hnop] at hd
  refine implements_of_branch hd rfl rfl rfl rfl rfl rfl (fun r value h => ?_) hmemory ?_
  · exact (hresult r value h).trans hrd
  · rw [hpc]
    exact resolvedPC_next (congrArg DecodeInfo.opcode hd) (by decide)

/-- The single step implements the ALU operations on an immediate. -/
theorem implements_opImm {o : ImmOp} {rd rs1 : BitVec 5} {imm : BitVec 12}
    (hword : loadBytes sim.memory.view PC 4 = (encode (.opImm o rd rs1 imm)).setWidth 64) :
    Implements sim PC (.opImm o rd rs1 imm) := by
  by_cases hnop : (encode (.opImm o rd rs1 imm)).setWidth 64 = nopWord
  · refine implements_nop hfetch rfl hword hnop (fun r value h => ?_) rfl rfl
    exact (Prod.mk.inj (Option.some.inj h)).1.symm
  obtain ⟨hinst, hd⟩ := collectedAt_instruction hfetch hword
  have hlegal : legalIntimm (fieldInfo (imm.extractLsb' 5 7) (imm.extractLsb' 0 5) rs1 o.funct3 rd
      opIntimm) = true := legalIntimm_iff.mpr (.inl (.inl ⟨o, rfl⟩))
  replace hd := hd.trans (decodeOf_of_switch hnop (by decide)
    ((decodeOpcode_intimm rfl).trans (if_pos hlegal)))
  have hop : (collectedAt sim PC).opcode = opIntimm := congrArg DecodeInfo.opcode hd
  have hcomputed := computed_opImm hop (congrArg DecodeInfo.funct3 hd)
    ((field_collectedAt hinst rfl (by omega)).trans (congrArg _ imm12_iType))
  rw [collectedAt_op1Val hd rfl] at hcomputed
  exact implements_of_arith hd rfl rfl rfl rfl rfl rfl hcomputed rfl rfl
    (resolvedPC_next hop (by decide))

/-- The single step implements the shifts by a constant. -/
theorem implements_shift {o : ShiftOp} {rd rs1 : BitVec 5} {shamt : BitVec 6}
    (hword : loadBytes sim.memory.view PC 4 = (encode (.shift o rd rs1 shamt)).setWidth 64) :
    Implements sim PC (.shift o rd rs1 shamt) := by
  by_cases hnop : (encode (.shift o rd rs1 shamt)).setWidth 64 = nopWord
  · refine implements_nop hfetch rfl hword hnop (fun r value h => ?_) rfl rfl
    exact (Prod.mk.inj (Option.some.inj h)).1.symm
  obtain ⟨hinst, hd⟩ := collectedAt_instruction hfetch hword
  have hlegal : legalIntimm (fieldInfo ((o.funct.1 ++ shamt : BitVec 12).extractLsb' 5 7)
      ((o.funct.1 ++ shamt : BitVec 12).extractLsb' 0 5) rs1 o.funct.2 rd opIntimm) = true :=
    legalIntimm_iff.mpr (.inl (.inr ⟨o, Prod.ext upper_append.symm rfl⟩))
  replace hd := hd.trans (decodeOf_of_switch hnop (by decide)
    ((decodeOpcode_intimm rfl).trans (if_pos hlegal)))
  have hop : (collectedAt sim PC).opcode = opIntimm := congrArg DecodeInfo.opcode hd
  have hcomputed := computed_shift hop (congrArg DecodeInfo.funct3 hd)
    ((field_collectedAt hinst rfl (by omega)).trans (congrArg _ imm12_iType))
    ((field_collectedAt hinst rfl (by omega)).trans
      (congrArg _ (upper_rType.trans upper_append)))
  rw [collectedAt_op1Val hd rfl] at hcomputed
  exact implements_of_arith hd rfl rfl rfl rfl rfl rfl hcomputed rfl rfl
    (resolvedPC_next hop (by decide))

/-- The single step implements a load whose bytes are in the memory. -/
theorem implements_load {o : LoadOp} {rd rs1 : BitVec 5} {imm : BitVec 12}
    (hword : loadBytes sim.memory.view PC 4 = (encode (.load o rd rs1 imm)).setWidth 64)
    (hrange : sim.memory.InRange ((sim.view PC).effective rs1 imm) o.bytes) :
    Implements sim PC (.load o rd rs1 imm) := by
  obtain ⟨hinst, hd⟩ := collectedAt_instruction hfetch hword
  have hlegal : legalLoad (fieldInfo (imm.extractLsb' 5 7) (imm.extractLsb' 0 5) rs1 o.funct3 rd
      opLoad) = true := legalLoad_iff.mpr ⟨o, rfl⟩
  replace hd := hd.trans (decodeOf_of_switch (ne_nopWord (by decide)) (by decide)
    ((decodeOpcode_load rfl).trans (if_pos hlegal)))
  have hop : (collectedAt sim PC).opcode = opLoad := congrArg DecodeInfo.opcode hd
  have haddress : (simAddrGen (collectedAt sim PC)).memAddress =
      (sim.view PC).effective rs1 imm := by
    rw [simAddrGen_load (congrArg DecodeInfo.readsMem hd)
      ((field_collectedAt hinst rfl (by omega)).trans (congrArg _ imm12_iType)),
      collectedAt_op1Val hd rfl]
    rfl
  have hf3 : (simAddrGen (collectedAt sim PC)).funct3 = o.funct3 := congrArg DecodeInfo.funct3 hd
  have hvalue := (loadedValue_eq hf3 (haddress ▸ hrange)).2
  rw [haddress] at hvalue
  exact implements_of_load hd rfl rfl rfl rfl rfl hvalue rfl rfl
    (resolvedPC_next hop (by decide))

/-- The single step implements a store whose bytes are in the memory. -/
theorem implements_store {o : StoreOp} {rs1 rs2 : BitVec 5} {imm : BitVec 12}
    (hword : loadBytes sim.memory.view PC 4 = (encode (.store o rs1 rs2 imm)).setWidth 64)
    (hrange : sim.memory.InRange ((sim.view PC).effective rs1 imm) o.bytes) :
    Implements sim PC (.store o rs1 rs2 imm) := by
  obtain ⟨hinst, hd⟩ := collectedAt_instruction hfetch hword
  have hlegal : legalStore (fieldInfo (imm.extractLsb' 5 7) rs2 rs1 o.funct3
      (imm.extractLsb' 0 5) opStore) = true := legalStore_iff.mpr ⟨o, rfl⟩
  replace hd := hd.trans (decodeOf_of_switch (ne_nopWord (by decide)) (by decide)
    ((decodeOpcode_store rfl).trans (if_pos hlegal)))
  have hop : (collectedAt sim PC).opcode = opStore := congrArg DecodeInfo.opcode hd
  have himm : (imm.extractLsb' 5 7 ++ imm.extractLsb' 0 5 : BitVec 12) = imm :=
    BitVec.extractLsb'_append_extractLsb'
  have haddress : (simAddrGen (collectedAt sim PC)).memAddress =
      (sim.view PC).effective rs1 imm := by
    rw [simAddrGen_store (congrArg DecodeInfo.readsMem hd) (congrArg DecodeInfo.writesMem hd)
      (congrArg DecodeInfo.funct7 hd) (congrArg DecodeInfo.rd hd), collectedAt_op1Val hd rfl]
    exact congrArg ((sim.view PC).x rs1 + BitVec.signExtend 64 ·) himm
  have hf3 : (simAddrGen (collectedAt sim PC)).funct3 = o.funct3 := congrArg DecodeInfo.funct3 hd
  have hmemory := storedMemory_eq hf3 (haddress ▸ hrange)
  have hdata : (simAddrGen (collectedAt sim PC)).op2Val = (sim.view PC).x rs2 :=
    collectedAt_op2Val hd rfl
  rw [haddress, hdata] at hmemory
  exact implements_of_store hd rfl rfl rfl rfl rfl rfl rfl hmemory
    (resolvedPC_next hop (by decide))

/-- The single step implements the branches. -/
theorem implements_branch {o : BranchOp} {rs1 rs2 : BitVec 5} {imm : BitVec 12}
    (hword : loadBytes sim.memory.view PC 4 = (encode (.branch o rs1 rs2 imm)).setWidth 64) :
    Implements sim PC (.branch o rs1 rs2 imm) := by
  obtain ⟨b12, b11, hi, lo, rfl⟩ := exists_bImm imm
  have hencode : encode (.branch o rs1 rs2 (b12 ++ (b11 ++ (hi ++ lo)))) =
      rType (b12 ++ hi) rs2 rs1 o.funct3 (lo ++ b11) opBranch := bType_append
  rw [hencode] at hword
  obtain ⟨hinst, hd⟩ := collectedAt_instruction hfetch hword
  have hlegal : legalBranch (fieldInfo (b12 ++ hi) rs2 rs1 o.funct3 (lo ++ b11) opBranch) = true :=
    legalBranch_iff.mpr ⟨o, rfl⟩
  replace hd := hd.trans (decodeOf_of_switch (ne_nopWord (by decide)) (by decide)
    ((decodeOpcode_branch rfl).trans (if_pos hlegal)))
  have hpc := resolvedPC_branch (congrArg DecodeInfo.opcode hd) (congrArg DecodeInfo.funct3 hd)
    (congrArg DecodeInfo.funct7 hd) (congrArg DecodeInfo.rd hd)
  rw [collectedAt_op1Val hd rfl, collectedAt_op2Val hd rfl] at hpc
  exact implements_of_branch hd rfl rfl rfl rfl rfl rfl (fun _ _ h => nomatch h) rfl hpc

end Encoded

end Implements

/-- **The single step implements RV64I.** From any registers and memory, where the word at the
PC encodes an instruction and its access, if any, lies inside the memory, `simInstruction`
leaves the registers `x1` to `x31`, the memory and the next PC that the instruction set
prescribes. -/
theorem simInstruction_implements {sim : Simulator} {PC : BitVec 64} {i : Instr}
    (hfetch : sim.memory.InRange PC 4)
    (hword : loadBytes sim.memory.view PC 4 = (encode i).setWidth 64)
    (haccess : ∀ address n, access (sim.view PC) i = some (address, n) →
      sim.memory.InRange address n) : Implements sim PC i := by
  cases i with
  | op o rd rs1 rs2 => exact implements_op hfetch hword
  | opW o rd rs1 rs2 => exact implements_opW hfetch hword
  | opImm o rd rs1 imm => exact implements_opImm hfetch hword
  | shift o rd rs1 shamt => exact implements_shift hfetch hword
  | addiw rd rs1 imm => exact implements_addiw hfetch hword
  | shiftW o rd rs1 shamt => exact implements_shiftW hfetch hword
  | load o rd rs1 imm => exact implements_load hfetch hword (haccess _ _ rfl)
  | store o rs1 rs2 imm => exact implements_store hfetch hword (haccess _ _ rfl)
  | branch o rs1 rs2 imm => exact implements_branch hfetch hword
  | lui rd imm => exact implements_lui hfetch hword
  | auipc rd imm => exact implements_auipc hfetch hword
  | jal rd imm => exact implements_jal hfetch hword
  | jalr rd rs1 imm => exact implements_jalr hfetch hword

/-- `sd x1, 8(x0)` at the start of memory. -/
theorem simInstruction_implements_sd :
    Implements { regData := ⟨fun _ => 0x1234⟩, memory := .image fun _ => 0x00103423, din := 0 } 0
      (.store .sd 0 1 8) := by
  refine simInstruction_implements (by decide) (by decide) fun address n h => ?_
  obtain ⟨rfl, rfl⟩ := Prod.mk.inj (Option.some.inj h)
  decide

end RvPipeSim
