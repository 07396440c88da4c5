import RvPipeSim.Utilities

/-!
# The pipeline trace

The part of `Utilities.cpp` that prints an instruction into the pipeline state dump:
`getOpString` finds the mnemonic, one handler for each format inserts the mnemonic and the
operands into a stream, and `printInstr` picks the handler.

A stream is the list of the items inserted into it, so that a register or a number can be
told from text; `render` is the text they make.
-/

namespace RvPipeSim

/-! ### Streams -/

/-- `regNames`. -/
def regNames (r : BitVec 5) : String :=
  ["zero", "ra", "sp", "gp", "tp", "t0", "t1", "t2", "s0", "s1", "a0", "a1", "a2", "a3", "a4",
    "a5", "a6", "a7", "s2", "s3", "s4", "s5", "s6", "s7", "s8", "s9", "s10", "s11", "t3", "t4",
    "t5", "t6"].getD r.toNat ""

/-- What is inserted into a stream: text, the name of a register, or a number. -/
inductive Item
  | text (s : String)
  | reg (r : BitVec 5)
  | num (n : ℤ)
  deriving DecidableEq, Repr

/-- The text of an item. -/
def Item.render : Item → String
  | .text s => s
  | .reg r => regNames r
  | .num n => toString n

/-- The text of a stream. -/
def render (items : List Item) : String := String.join (items.map Item.render)

/-- `stageStatusStr`. -/
def stageStatusStr : StageStatus → String
  | .bubble => " (bubble) "
  | .idle => " (idle) "
  | .normal => " "
  | .speculative => " (spcu) "
  | .squashed => " (squashed) "

/-- `std::left << std::setw(width)`. -/
def leftAligned (width : ℕ) (s : String) : String :=
  s ++ String.ofList (List.replicate (width - s.length) ' ')

/-! ### Mnemonics -/

/-- `funct3` under `case OP_INTIMM` and `case OP_INT`. -/
def intBody (opcode : BitVec 7) (funct3 : BitVec 3) (funct7 : BitVec 7) : Option String :=
  if funct3 = funct3Add then
    if opcode = opInt then
      if funct7 = funct7Add then some "add"
      else if funct7 = funct7Sub then some "sub"
      else none
    else some "add"
  else if funct3 = funct3Sll then some "sll"
  else if funct3 = funct3Slt then some "slt"
  else if funct3 = funct3Sltu then some "sltu"
  else if funct3 = funct3Xor then some "xor"
  else if funct3 = funct3Sr then
    if (funct7.ushiftRight 1).setWidth 64 = upperimmLogical then some "srl"
    else if (funct7.ushiftRight 1).setWidth 64 = upperimmArith then some "sra"
    else none
  else if funct3 = funct3Or then some "or"
  else if funct3 = funct3And then some "and"
  else none

/-- `funct3` under `case OP_INTIMMW` and `case OP_INTW`. -/
def intwBody (funct3 : BitVec 3) (funct7 : BitVec 7) : Option String :=
  if funct3 = funct3Add then
    if funct7 = funct7Add then some "add"
    else if funct7 = funct7Sub then some "sub"
    else none
  else if funct3 = funct3Sll then some "sll"
  else if funct3 = funct3Sr then
    if funct7 = funct7Logical then some "srl"
    else if funct7 = funct7Arith then some "sra"
    else none
  else none

/-- `funct3` under `case OP_LOAD`. -/
def loadBody (funct3 : BitVec 3) : Option String :=
  if funct3 = funct3B then some "b"
  else if funct3 = funct3H then some "h"
  else if funct3 = funct3W then some "w"
  else if funct3 = funct3D then some "d"
  else if funct3 = funct3Bu then some "bu"
  else if funct3 = funct3Hu then some "hu"
  else if funct3 = funct3Wu then some "wu"
  else none

/-- `funct3` under `case OP_STORE`. -/
def storeBody (funct3 : BitVec 3) : Option String :=
  if funct3 = funct3B then some "b"
  else if funct3 = funct3H then some "h"
  else if funct3 = funct3W then some "w"
  else if funct3 = funct3D then some "d"
  else none

/-- `funct3` under `case OP_BRANCH`. -/
def branchBody (funct3 : BitVec 3) : Option String :=
  if funct3 = funct3Beq then some "eq"
  else if funct3 = funct3Bne then some "ne"
  else if funct3 = funct3Blt then some "lt"
  else if funct3 = funct3Bge then some "ge"
  else if funct3 = funct3Bltu then some "ltu"
  else if funct3 = funct3Bgeu then some "geu"
  else none

/-- The mnemonic from its parts; `"ILLEGAL"` where a `switch` has no case. -/
def opString (front : String) (body : Option String) (back : String) : String :=
  match body with
  | none => "ILLEGAL"
  | some body => front ++ body ++ back

/-- The mnemonic of an instruction. -/
def getOpString (opcode : BitVec 7) (funct3 : BitVec 3) (funct7 : BitVec 7) : String :=
  if opcode = opIntimm then opString "" (intBody opcode funct3 funct7) "i"
  else if opcode = opInt then opString "" (intBody opcode funct3 funct7) ""
  else if opcode = opIntimmw then opString "" (intwBody funct3 funct7) "iw"
  else if opcode = opIntw then opString "" (intwBody funct3 funct7) "w"
  else if opcode = opLoad then opString "l" (loadBody funct3) ""
  else if opcode = opStore then opString "s" (storeBody funct3) ""
  else if opcode = opBranch then opString "b" (branchBody funct3) ""
  else if opcode = opJal then "jal"
  else if opcode = opJalr then "jalr"
  else if opcode = opLui then "lui"
  else if opcode = opAuipc then "auipc"
  else "ILLEGAL"

/-! ### Handlers -/

section Handlers

variable (curInst : BitVec 64)

/-- Register-register and register-immediate instructions, and `jalr`. -/
def handleIAndR : List Item :=
  let opcode : BitVec 7 := (extractBits curInst 6 0).setWidth 7
  let rd : BitVec 5 := (extractBits curInst 11 7).setWidth 5
  let funct3 : BitVec 3 := (extractBits curInst 14 12).setWidth 3
  let rs1 : BitVec 5 := (extractBits curInst 19 15).setWidth 5
  let rs2 : BitVec 5 := (extractBits curInst 24 20).setWidth 5
  let funct7 : BitVec 7 := (extractBits curInst 31 25).setWidth 7
  let imm12 := extractBits curInst 31 20
  let sextImm12 := (sext64 imm12 11).toInt
  let opcodeStr := getOpString opcode funct3 funct7
  if opcodeStr = "ILLEGAL" then [.text " ILLEGAL"]
  else if opcode = opInt ∨ opcode = opIntw then
    [.text " ", .text opcodeStr, .text " ", .reg rd, .text ", ", .reg rs1, .text ", ", .reg rs2]
  else
    [.text " ", .text opcodeStr, .text " ", .reg rd, .text ", ", .reg rs1, .text ", ",
      if funct3 = funct3Sll ∨ funct3 = funct3Sr then .num (imm12 &&& 0x3F#64).toNat
      else .num sextImm12]

/-- Loads and stores. -/
def handleLAndS : List Item :=
  let opcode : BitVec 7 := (extractBits curInst 6 0).setWidth 7
  let rd : BitVec 5 := (extractBits curInst 11 7).setWidth 5
  let funct3 : BitVec 3 := (extractBits curInst 14 12).setWidth 3
  let rs1 : BitVec 5 := (extractBits curInst 19 15).setWidth 5
  let rs2 : BitVec 5 := (extractBits curInst 24 20).setWidth 5
  let imm5 := extractBits curInst 11 7
  let imm7 := extractBits curInst 31 25
  let imm12 := extractBits curInst 31 20
  let sextImm12 := (sext64 imm12 11).toInt
  let storeImm := (sext64 ((imm7 <<< 5) ||| imm5) 11).toInt
  let opcodeStr := getOpString opcode funct3 0
  if opcodeStr = "ILLEGAL" then [.text " ILLEGAL"]
  else if opcode = opLoad then
    [.text " ", .text opcodeStr, .text " ", .reg rd, .text ", ", .num sextImm12, .text "(",
      .reg rs1, .text ")"]
  else
    [.text " ", .text opcodeStr, .text " ", .reg rs2, .text ", ", .num storeImm, .text "(",
      .reg rs1, .text ")"]

/-- Branches. -/
def handleBranch : List Item :=
  let opcode : BitVec 7 := (extractBits curInst 6 0).setWidth 7
  let rs1 : BitVec 5 := (extractBits curInst 19 15).setWidth 5
  let rs2 : BitVec 5 := (extractBits curInst 24 20).setWidth 5
  let funct3 : BitVec 3 := (extractBits curInst 14 12).setWidth 3
  let imm7 := extractBits curInst 31 25
  let imm5 := extractBits curInst 11 7
  let branchImm := (sext64
    (extractBits imm7 6 6 <<< 12 ||| extractBits imm7 5 0 <<< 5 |||
      extractBits imm5 4 1 <<< 1 ||| extractBits imm5 0 0 <<< 11) 12).toInt
  let opcodeStr := getOpString opcode funct3 0
  if opcodeStr = "ILLEGAL" then [.text " ILLEGAL"]
  else
    [.text " ", .text opcodeStr, .text " ", .reg rs1, .text ", ", .reg rs2, .text ", ",
      .num branchImm]

/-- `jal`, `lui` and `auipc`. -/
def handleSpecial : List Item :=
  let opcode : BitVec 7 := (extractBits curInst 6 0).setWidth 7
  let rd : BitVec 5 := (extractBits curInst 11 7).setWidth 5
  let imm20 := extractBits curInst 31 12
  let sextUpper := (sext64 (imm20 <<< 12) 19).toInt
  let jalImm := (sext64
    (extractBits imm20 19 19 <<< 20 ||| extractBits imm20 18 9 <<< 1 |||
      extractBits imm20 8 8 <<< 11 ||| extractBits imm20 7 0 <<< 12) 20).toInt
  let opcodeStr := getOpString opcode 0 0
  if opcodeStr = "ILLEGAL" then [.text " ILLEGAL"]
  else if opcode = opJal then
    [.text " ", .text opcodeStr, .text " ", .reg rd, .text ", ", .num jalImm]
  else [.text " ", .text opcodeStr, .text " ", .reg rd, .text ", ", .num sextUpper]

/-- What `printInstr` inserts in front of the status. -/
def instrItems : List Item :=
  let opcode : BitVec 7 := (extractBits curInst 6 0).setWidth 7
  if curInst = haltWord then [.text " HALT"]
  else if curInst = nopWord then [.text " NOP"]
  else if opcode = opInt ∨ opcode = opIntw ∨ opcode = opIntimm ∨ opcode = opIntimmw ∨
      opcode = opJalr then handleIAndR curInst
  else if opcode = opLoad ∨ opcode = opStore then handleLAndS curInst
  else if opcode = opBranch then handleBranch curInst
  else if opcode = opJal ∨ opcode = opLui ∨ opcode = opAuipc then handleSpecial curInst
  else [.text " ILLEGAL"]

end Handlers

/-- Print an instruction and the status of its slot, in a column of 25 characters. -/
def printInstr (curInst : BitVec 32) (status : StageStatus) : String :=
  leftAligned 25 (render (instrItems (curInst.setWidth 64)) ++ stageStatusStr status)

end RvPipeSim
