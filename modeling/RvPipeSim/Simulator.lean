import RvPipeSim.MemoryStore

/-!
# The instruction simulator

`simulator.cpp`: one `Instruction` record filled in on its way from fetch to write-back,
the helpers that fill it (`simFetch` … `simCommit`), the single-step execution
`simInstruction` built from them, and the five stage functions `simIF` … `simWB` of the
pipeline.

Two things here are not in the source text. `Instruction.seq` is a ghost field: the
number of the `simIF` call that produced the instruction, which nothing in the code
reads. And the test by which a load reports a memory fault is the parameter `fault`;
`accessFault` is the test the source performs.
-/

namespace RvPipeSim

/-- Known by IF. `seq` is the ghost number of the fetch, `none` for a padding slot. -/
structure FetchInfo where
  PC : BitVec 64 := 0
  instruction : BitVec 64 := 0
  seq : Option ℕ := none

/-- Known by ID, and left alone by every later stage. -/
structure DecodeInfo where
  isHalt : Bool := false
  isLegal : Bool := true
  isNop : Bool := false
  readsMem : Bool := false
  writesMem : Bool := false
  doesArithLogic : Bool := false
  writesRd : Bool := false
  readsRs1 : Bool := false
  readsRs2 : Bool := false
  opcode : BitVec 7 := 0
  funct3 : BitVec 3 := 0
  funct7 : BitVec 7 := 0
  rd : BitVec 5 := 0
  rs1 : BitVec 5 := 0
  rs2 : BitVec 5 := 0

/-- An instruction on its way through the simulator. -/
structure Instruction extends FetchInfo, DecodeInfo where
  nextPC : BitVec 64 := 0
  op1Val : BitVec 64 := 0
  op2Val : BitVec 64 := 0
  arithResult : BitVec 64 := 0
  memAddress : BitVec 64 := 0
  memException : Bool := false
  memResult : BitVec 64 := 0
  instructionID : ℕ := 0
  status : StageStatus := .normal

/-- The register file. -/
structure REGS where
  registers : BitVec 5 → BitVec 64

namespace REGS

/-- The value an operand read sees: `simOperandCollection` clears `registers[0]` first. -/
def read (regData : REGS) (r : BitVec 5) : BitVec 64 :=
  if r = 0 then 0 else regData.registers r

/-- `registers[r] = value`; the source does write `registers[0]`. -/
def write (regData : REGS) (r : BitVec 5) (value : BitVec 64) : REGS where
  registers := Function.update regData.registers r value

end REGS

/-- The fault test of a load: memory, address and size of the access. -/
abbrev Fault := MemoryStore → BitVec 64 → MemEntrySize → Bool

/-- The fault test of `simMemAccess`: `getMemValue(…) == EINVAL`. -/
def accessFault : Fault := fun mem address size => (mem.getMemValue address size).1 == einval

/-! ### The helpers -/

/-- Get raw instruction bits from memory. -/
def simFetch (PC : BitVec 64) (myMem : MemoryStore) : Instruction :=
  let instruction := (myMem.getMemValue PC .wordSize).2
  { PC := PC, instruction := (instruction.setWidth 32).setWidth 64 }

/-! The legality conditions of `simDecode`, one for each opcode class that has one. -/

/-- The condition under `case OP_INT`. -/
def legalInt (d : DecodeInfo) : Bool :=
  (d.funct3 == funct3Add && (d.funct7 == funct7Add || d.funct7 == funct7Sub)) ||
    d.funct3 == funct3Sll || d.funct3 == funct3Slt || d.funct3 == funct3Sltu ||
    d.funct3 == funct3Xor ||
    (d.funct3 == funct3Sr && ((d.funct7.ushiftRight 1).setWidth 64 == upperimmArith ||
      (d.funct7.ushiftRight 1).setWidth 64 == upperimmLogical)) ||
    d.funct3 == funct3Or || d.funct3 == funct3And

/-- The condition under `case OP_INTW`. -/
def legalIntw (d : DecodeInfo) : Bool :=
  (d.funct3 == funct3Add && (d.funct7 == funct7Add || d.funct7 == funct7Sub)) ||
    d.funct3 == funct3Sll ||
    (d.funct3 == funct3Sr && (d.funct7 == funct7Arith || d.funct7 == funct7Logical))

/-- The condition under `case OP_LOAD`. -/
def legalLoad (d : DecodeInfo) : Bool :=
  d.funct3 == funct3B || d.funct3 == funct3H || d.funct3 == funct3W ||
    d.funct3 == funct3D || d.funct3 == funct3Bu || d.funct3 == funct3Hu ||
    d.funct3 == funct3Wu

/-- The condition under `case OP_INTIMM`. -/
def legalIntimm (d : DecodeInfo) : Bool :=
  d.funct3 == funct3Add || d.funct3 == funct3Sll || d.funct3 == funct3Slt ||
    d.funct3 == funct3Sltu || d.funct3 == funct3Xor ||
    (d.funct3 == funct3Sr && ((d.funct7.ushiftRight 1).setWidth 64 == upperimmArith ||
      (d.funct7.ushiftRight 1).setWidth 64 == upperimmLogical)) ||
    d.funct3 == funct3Or || d.funct3 == funct3And

/-- The condition under `case OP_INTIMMW`. -/
def legalIntimmw (d : DecodeInfo) : Bool :=
  d.funct3 == funct3Add || d.funct3 == funct3Sll ||
    (d.funct3 == funct3Sr && (d.funct7 == funct7Arith || d.funct7 == funct7Logical))

/-- The condition under `case OP_STORE`. -/
def legalStore (d : DecodeInfo) : Bool :=
  d.funct3 == funct3B || d.funct3 == funct3H || d.funct3 == funct3W || d.funct3 == funct3D

/-- The condition under `case OP_BRANCH`. -/
def legalBranch (d : DecodeInfo) : Bool :=
  d.funct3 == funct3Beq || d.funct3 == funct3Bne || d.funct3 == funct3Blt ||
    d.funct3 == funct3Bge || d.funct3 == funct3Bltu || d.funct3 == funct3Bgeu

/-- The `switch` of `simDecode` over the opcode. -/
def decodeOpcode (d : DecodeInfo) : DecodeInfo :=
  if d.opcode = opInt then
    if legalInt d then
      { d with doesArithLogic := true, writesRd := true, readsRs1 := true, readsRs2 := true }
    else { d with isLegal := false }
  else if d.opcode = opIntw then
    if legalIntw d then
      { d with doesArithLogic := true, writesRd := true, readsRs1 := true, readsRs2 := true }
    else { d with isLegal := false }
  else if d.opcode = opLoad then
    if legalLoad d then { d with readsRs1 := true, writesRd := true, readsMem := true }
    else { d with isLegal := false }
  else if d.opcode = opIntimm then
    if legalIntimm d then { d with doesArithLogic := true, writesRd := true, readsRs1 := true }
    else { d with isLegal := false }
  else if d.opcode = opIntimmw then
    if legalIntimmw d then { d with doesArithLogic := true, writesRd := true, readsRs1 := true }
    else { d with isLegal := false }
  else if d.opcode = opJalr then
    { d with isLegal := true, doesArithLogic := true, writesRd := true, readsRs1 := true }
  else if d.opcode = opStore then
    if legalStore d then { d with readsRs1 := true, readsRs2 := true, writesMem := true }
    else { d with isLegal := false }
  else if d.opcode = opBranch then
    if legalBranch d then { d with readsRs1 := true, readsRs2 := true }
    else { d with isLegal := false }
  else if d.opcode = opAuipc ∨ d.opcode = opLui ∨ d.opcode = opJal then
    { d with isLegal := true, doesArithLogic := true, writesRd := true }
  else { d with isLegal := false }

/-- The decode part of an instruction with the word `instruction`, from the part `d`. -/
def decodeWord (instruction : BitVec 64) (d : DecodeInfo) : DecodeInfo :=
  let d := { d with
    opcode := (extractBits instruction 6 0).setWidth 7
    rd := (extractBits instruction 11 7).setWidth 5
    funct3 := (extractBits instruction 14 12).setWidth 3
    rs1 := (extractBits instruction 19 15).setWidth 5
    rs2 := (extractBits instruction 24 20).setWidth 5
    funct7 := (extractBits instruction 31 25).setWidth 7 }
  if instruction = haltWord then { d with isHalt := true }
  else if instruction = nopWord then { d with isNop := true }
  else decodeOpcode d

/-- Determine the opcode, the function fields, the register names and the legality. -/
def simDecode (inst : Instruction) : Instruction :=
  { inst with toDecodeInfo := decodeWord inst.instruction inst.toDecodeInfo }

/-- Collect the register operands. -/
def simOperandCollection (inst : Instruction) (regData : REGS) : Instruction :=
  { inst with
    op1Val := if inst.readsRs1 then regData.read inst.rs1 else inst.op1Val
    op2Val := if inst.readsRs2 then regData.read inst.rs2 else inst.op2Val }

/-- The comparison of a conditional branch. -/
def branchTaken (inst : Instruction) : Bool :=
  if inst.funct3 = funct3Beq then inst.op1Val == inst.op2Val
  else if inst.funct3 = funct3Bne then inst.op1Val != inst.op2Val
  else if inst.funct3 = funct3Blt then inst.op1Val.slt inst.op2Val
  else if inst.funct3 = funct3Bge then inst.op2Val.sle inst.op1Val
  else if inst.funct3 = funct3Bltu then inst.op1Val.ult inst.op2Val
  else if inst.funct3 = funct3Bgeu then inst.op2Val.ule inst.op1Val
  else false

/-- The PC `simNextPCResolution` resolves to. -/
def resolvedPC (inst : Instruction) : BitVec 64 :=
  let imm5 : BitVec 64 := inst.rd.setWidth 64
  let imm7 : BitVec 64 := inst.funct7.setWidth 64
  let imm12 := extractBits inst.instruction 31 20
  let imm20 := extractBits inst.instruction 31 12
  let branchTarget := inst.PC + sext64
    (extractBits imm7 6 6 <<< 12 ||| extractBits imm7 5 0 <<< 5 |||
      extractBits imm5 4 1 <<< 1 ||| extractBits imm5 0 0 <<< 11) 12
  let jalTarget := inst.PC + sext64
    (extractBits imm20 19 19 <<< 20 ||| extractBits imm20 18 9 <<< 1 |||
      extractBits imm20 8 8 <<< 11 ||| extractBits imm20 7 0 <<< 12) 20
  if inst.opcode = opJalr then (inst.op1Val + sext64 imm12 11) &&& ~~~1#64
  else if inst.opcode = opBranch then
    if branchTaken inst then branchTarget else inst.PC + 4
  else if inst.opcode = opJal then jalTarget
  else inst.PC + 4

/-- Resolve the next PC, whether `+4` or the target of a branch or jump. -/
def simNextPCResolution (inst : Instruction) : Instruction :=
  { inst with nextPC := resolvedPC inst }

/-- The second operand of `simArithLogic`: register shifts use 6 bits of `rs2` in
`OP_INT` and 5 in `OP_INTW`. -/
def maskedOp2 (inst : Instruction) : BitVec 64 :=
  if inst.opcode = opInt ∧ (inst.funct3 = funct3Sll ∨ inst.funct3 = funct3Sr) then
    inst.op2Val &&& 0x3F#64
  else if inst.opcode = opIntw ∧ (inst.funct3 = funct3Sll ∨ inst.funct3 = funct3Sr) then
    inst.op2Val &&& 0x1F#64
  else inst.op2Val

/-- The arithmetic result of an instruction whose shift amount is masked; an encoding
that no branch of the source covers leaves `arithResult` as it is. -/
def arithLogicResult (inst : Instruction) : BitVec 64 :=
  let imm12 := extractBits inst.instruction 31 20
  let upperImm12 := extractBits inst.instruction 31 26
  let imm20 := extractBits inst.instruction 31 12
  let op1Val := inst.op1Val
  let op2Val := inst.op2Val
  let op1W : BitVec 32 := op1Val.setWidth 32
  let op2W : BitVec 32 := op2Val.setWidth 32
  if inst.opcode = opInt then
    if inst.funct3 = funct3Add then
      if inst.funct7 = funct7Add then op1Val + op2Val
      else if inst.funct7 = funct7Sub then op1Val - op2Val
      else inst.arithResult
    else if inst.funct3 = funct3Sll then op1Val <<< op2Val
    else if inst.funct3 = funct3Slt then if op1Val.slt op2Val then 1 else 0
    else if inst.funct3 = funct3Sltu then if op1Val.ult op2Val then 1 else 0
    else if inst.funct3 = funct3Xor then op1Val ^^^ op2Val
    else if inst.funct3 = funct3Sr then
      if upperImm12 = funct7Logical.setWidth 64 then op1Val >>> op2Val
      else if upperImm12 = upperimmArith then op1Val.sshiftRight op2Val.toNat
      else inst.arithResult
    else if inst.funct3 = funct3Or then op1Val ||| op2Val
    else op1Val &&& op2Val
  else if inst.opcode = opIntw then
    if inst.funct3 = funct3Add then
      if inst.funct7 = funct7Add then sext64 ((op1W + op2W).setWidth 64) 31
      else if inst.funct7 = funct7Sub then sext64 ((op1W - op2W).setWidth 64) 31
      else inst.arithResult
    else if inst.funct3 = funct3Sll then sext64 ((op1W <<< op2W).setWidth 64) 31
    else if inst.funct3 = funct3Sr then
      if upperImm12 = funct7Logical.setWidth 64 then sext64 ((op1W >>> op2W).setWidth 64) 31
      else if upperImm12 = upperimmArith then
        sext64 ((op1W.sshiftRight op2W.toNat).signExtend 64) 31
      else inst.arithResult
    else inst.arithResult
  else if inst.opcode = opIntimm then
    if inst.funct3 = funct3Add then op1Val + sext64 imm12 11
    else if inst.funct3 = funct3Sll then op1Val <<< (imm12 &&& 0x3F#64)
    else if inst.funct3 = funct3Slt then if op1Val.slt (sext64 imm12 11) then 1 else 0
    else if inst.funct3 = funct3Sltu then if op1Val.ult (sext64 imm12 11) then 1 else 0
    else if inst.funct3 = funct3Xor then op1Val ^^^ sext64 imm12 11
    else if inst.funct3 = funct3Sr then
      if upperImm12 = upperimmLogical then op1Val >>> (imm12 &&& 0x3F#64)
      else if upperImm12 = upperimmArith then op1Val.sshiftRight (imm12 &&& 0x3F#64).toNat
      else inst.arithResult
    else if inst.funct3 = funct3Or then op1Val ||| sext64 imm12 11
    else op1Val &&& sext64 imm12 11
  else if inst.opcode = opIntimmw then
    let shamt : BitVec 32 := (imm12 &&& 0x1F#64).setWidth 32
    if inst.funct3 = funct3Add then
      sext64 ((op1W + sext32 (imm12.setWidth 32) 11).setWidth 64) 31
    else if inst.funct3 = funct3Sll then sext64 ((op1W <<< shamt).setWidth 64) 31
    else if inst.funct3 = funct3Sr then
      if upperImm12 = upperimmLogical then sext64 ((op1W >>> shamt).setWidth 64) 31
      else if upperImm12 = upperimmArith then
        sext64 ((op1W.sshiftRight shamt.toNat).signExtend 64) 31
      else inst.arithResult
    else inst.arithResult
  else if inst.opcode = opJalr then inst.PC + 4
  else if inst.opcode = opAuipc then inst.PC + sext64 (imm20 <<< 12) 31
  else if inst.opcode = opLui then sext64 (imm20 <<< 12) 31
  else if inst.opcode = opJal then inst.PC + 4
  else inst.arithResult

/-- Perform arithmetic operations. -/
def simArithLogic (inst : Instruction) : Instruction :=
  let inst := { inst with op2Val := maskedOp2 inst }
  { inst with arithResult := arithLogicResult inst }

/-- Generate the memory address of a load or store. -/
def simAddrGen (inst : Instruction) : Instruction :=
  let imm5 : BitVec 64 := inst.rd.setWidth 64
  let imm7 : BitVec 64 := inst.funct7.setWidth 64
  let imm12 := extractBits inst.instruction 31 20
  let storeImm := sext64 ((imm7 <<< 5) ||| imm5) 11
  { inst with
    memAddress :=
      if inst.readsMem then inst.op1Val + sext64 imm12 11
      else if inst.writesMem then inst.op1Val + storeImm
      else inst.memAddress }

/-- The access size of a load or store. -/
def accessSize (inst : Instruction) : MemEntrySize :=
  if inst.funct3 = funct3B ∨ inst.funct3 = funct3Bu then .byteSize
  else if inst.funct3 = funct3H ∨ inst.funct3 = funct3Hu then .halfSize
  else if inst.funct3 = funct3W ∨ inst.funct3 = funct3Wu then .wordSize
  else .doubleSize

/-- The value a load takes from memory: sign-extended for `lb`, `lh` and `lw`. -/
def loadedValue (inst : Instruction) (myMem : MemoryStore) : BitVec 64 :=
  let size := accessSize inst
  let value := (myMem.getMemValue inst.memAddress size).2
  if inst.funct3 = funct3B ∨ inst.funct3 = funct3H ∨ inst.funct3 = funct3W then
    sext64 value (size.bytes * 8 - 1)
  else value

/-- The memory after a store. -/
def storedMemory (inst : Instruction) (myMem : MemoryStore) : MemoryStore :=
  (myMem.setMemValue inst.memAddress inst.op2Val (accessSize inst)).2

/-- Perform the memory access of a load or store. -/
def simMemAccess (fault : Fault) (inst : Instruction) (myMem : MemoryStore) :
    Instruction × MemoryStore :=
  if inst.readsMem then
    ({ inst with
        memException := fault myMem inst.memAddress (accessSize inst)
        memResult := loadedValue inst myMem }, myMem)
  else if inst.writesMem then (inst, storedMemory inst myMem)
  else (inst, myMem)

/-- Write the result back to the register file. -/
def simCommit (inst : Instruction) (regData : REGS) : REGS :=
  if inst.readsMem then regData.write inst.rd inst.memResult
  else regData.write inst.rd inst.arithResult

/-! ### The simulator object, its pipeline stages and its single step -/

/-- The state of a `Simulator`: registers, memory and the dynamic instruction number. -/
structure Simulator where
  regData : REGS
  memory : MemoryStore
  din : ℕ

namespace Simulator

/-- IF: fetch at `PC`; `seq` is the ghost number of this fetch. -/
def simIF (sim : Simulator) (PC : BitVec 64) (seq : ℕ) : Instruction :=
  { simFetch PC sim.memory with status := .normal, seq := some seq }

/-- ID: decode, read the operands, resolve the next PC. -/
def simID (sim : Simulator) (inst : Instruction) : Instruction × Simulator :=
  if inst.isNop || inst.status == .bubble || inst.status == .squashed then (inst, sim)
  else
    let inst := simDecode inst
    if inst.isHalt || !inst.isLegal then (inst, sim)
    else
      let inst := simOperandCollection inst sim.regData
      let inst := simNextPCResolution inst
      ({ inst with instructionID := sim.din, status := .normal }, { sim with din := sim.din + 1 })

/-- EX: arithmetic and address generation. -/
def simEX (inst : Instruction) : Instruction :=
  if inst.isNop || inst.status == .bubble || inst.status == .squashed then inst
  else if inst.isHalt || !inst.isLegal then inst
  else
    let inst := if inst.doesArithLogic then simArithLogic inst else inst
    let inst := if inst.readsMem || inst.writesMem then simAddrGen inst else inst
    { inst with status := .normal }

/-- MEM: memory access. -/
def simMEM (fault : Fault) (sim : Simulator) (inst : Instruction) : Instruction × Simulator :=
  if inst.isNop || inst.status == .bubble || inst.status == .squashed then (inst, sim)
  else if inst.isHalt || !inst.isLegal then (inst, sim)
  else if inst.readsMem || inst.writesMem then
    let (inst, memory) := simMemAccess fault inst sim.memory
    ({ inst with status := .normal }, { sim with memory })
  else ({ inst with status := .normal }, sim)

/-- WB: register write. -/
def simWB (sim : Simulator) (inst : Instruction) : Instruction × Simulator :=
  if inst.isNop || inst.status == .bubble || inst.status == .squashed then (inst, sim)
  else if inst.isHalt || !inst.isLegal then (inst, sim)
  else
    let sim := if inst.writesRd then { sim with regData := simCommit inst sim.regData } else sim
    ({ inst with status := .normal }, sim)

/-- Simulate the whole instruction at `PC` in a single step. -/
def simInstruction (sim : Simulator) (PC : BitVec 64) : Instruction × Simulator :=
  let inst := simFetch PC sim.memory
  let inst := simDecode inst
  let inst := { inst with instructionID := sim.din }
  let sim := { sim with din := sim.din + 1 }
  if !inst.isLegal || inst.isHalt then (inst, sim)
  else
    let inst := simOperandCollection inst sim.regData
    let inst := simNextPCResolution inst
    let inst := if inst.doesArithLogic then simArithLogic inst else inst
    let (inst, sim) :=
      if inst.readsMem || inst.writesMem then
        let (inst, memory) := simMemAccess accessFault (simAddrGen inst) sim.memory
        (inst, { sim with memory })
      else (inst, sim)
    let sim := if inst.writesRd then { sim with regData := simCommit inst sim.regData } else sim
    (inst, sim)

end Simulator

end RvPipeSim
