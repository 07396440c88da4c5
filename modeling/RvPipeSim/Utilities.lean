import Mathlib.Algebra.Group.Nat.Defs
import Mathlib.Data.Int.Notation
import Mathlib.Data.Nat.Notation
import Mathlib.Logic.Function.Basic

/-!
# Utilities: status codes, encodings and bit-field helpers

The declarations of `Utilities.h` the two simulators use, and the three bit-field
helpers of `Utilities.cpp`. A `uint64_t` is a `BitVec 64`; the opcode, the function
fields and the register numbers, which the source also keeps in `uint64_t`, are typed
by the number of bits `extractBits` cuts out for them, so that a value outside that
range cannot be written down.
-/

namespace RvPipeSim

/-- The result of running a simulator. -/
inductive Status
  | success
  | error
  | halt
  deriving DecidableEq, Repr

/-- The status of a pipeline slot. -/
inductive StageStatus
  | normal
  | bubble
  | idle
  | speculative
  | squashed
  deriving DecidableEq, Repr

/-! ### Opcodes and function fields -/

/-- Integer ALU instructions `add, sub, sll, slt, sltu, xor, srl, sra, or, and`. -/
abbrev opInt : BitVec 7 := 0b0110011#7
/-- Integer ALU instructions on 32-bit words `addw, subw, sllw, srlw, sraw`. -/
abbrev opIntw : BitVec 7 := 0b0111011#7
/-- Load instructions `lb, lh, lw, ld, lbu, lhu, lwu`. -/
abbrev opLoad : BitVec 7 := 0b0000011#7
/-- Integer ALU immediate instructions. -/
abbrev opIntimm : BitVec 7 := 0b0010011#7
/-- Integer ALU immediate instructions on 32-bit words. -/
abbrev opIntimmw : BitVec 7 := 0b0011011#7
/-- `jalr`. -/
abbrev opJalr : BitVec 7 := 0b1100111#7
/-- Store instructions `sb, sh, sw, sd`. -/
abbrev opStore : BitVec 7 := 0b0100011#7
/-- Branch instructions `beq, bne, blt, bge, bltu, bgeu`. -/
abbrev opBranch : BitVec 7 := 0b1100011#7
/-- `auipc`. -/
abbrev opAuipc : BitVec 7 := 0b0010111#7
/-- `lui`. -/
abbrev opLui : BitVec 7 := 0b0110111#7
/-- `jal`. -/
abbrev opJal : BitVec 7 := 0b1101111#7

/-! `FUNCT3` for integer ALU instructions. -/

abbrev funct3Add : BitVec 3 := 0b000#3
abbrev funct3Sll : BitVec 3 := 0b001#3
abbrev funct3Slt : BitVec 3 := 0b010#3
abbrev funct3Sltu : BitVec 3 := 0b011#3
abbrev funct3Xor : BitVec 3 := 0b100#3
abbrev funct3Sr : BitVec 3 := 0b101#3
abbrev funct3Or : BitVec 3 := 0b110#3
abbrev funct3And : BitVec 3 := 0b111#3

/-! `FUNCT3` for loads and stores. -/

abbrev funct3B : BitVec 3 := 0b000#3
abbrev funct3H : BitVec 3 := 0b001#3
abbrev funct3W : BitVec 3 := 0b010#3
abbrev funct3D : BitVec 3 := 0b011#3
abbrev funct3Bu : BitVec 3 := 0b100#3
abbrev funct3Hu : BitVec 3 := 0b101#3
abbrev funct3Wu : BitVec 3 := 0b110#3

/-! `FUNCT3` for branches. -/

abbrev funct3Beq : BitVec 3 := 0b000#3
abbrev funct3Bne : BitVec 3 := 0b001#3
abbrev funct3Blt : BitVec 3 := 0b100#3
abbrev funct3Bge : BitVec 3 := 0b101#3
abbrev funct3Bltu : BitVec 3 := 0b110#3
abbrev funct3Bgeu : BitVec 3 := 0b111#3

/-! `RI_FUNCT7` and `SR_UPPER_IMM12`. -/

abbrev funct7Add : BitVec 7 := 0b0000000#7
abbrev funct7Sub : BitVec 7 := 0b0100000#7
abbrev funct7Logical : BitVec 7 := 0b0000000#7
abbrev funct7Arith : BitVec 7 := 0b0100000#7
abbrev upperimmLogical : BitVec 64 := 0b000000#64
abbrev upperimmArith : BitVec 64 := 0b010000#64

/-- The encoding at which the simulators halt. -/
abbrev haltWord : BitVec 64 := 0xfeedfeed#64
/-- The encoding of `addi x0, x0, 0`. -/
abbrev nopWord : BitVec 64 := 0x00000013#64

/-! ### Bit fields -/

/-- The bits `start` down to `stop` of a word. -/
def extractBits (instruction : BitVec 64) (start stop : ℕ) : BitVec 64 :=
  let bitsToExtract := start - stop + 1
  let mask := (1#64 <<< bitsToExtract) - 1#64
  let clipped := instruction >>> stop
  clipped &&& mask

/-- Sign-extend `imm` to 32 bits from bit `signBit`. -/
def sext32 (imm : BitVec 32) (signBit : ℕ) : BitVec 32 :=
  if imm &&& (1#32 <<< signBit) ≠ 0#32 then imm ||| (~~~0#32 <<< (signBit + 1)) else imm

/-- Sign-extend `imm` to 64 bits from bit `signBit`. -/
def sext64 (imm : BitVec 64) (signBit : ℕ) : BitVec 64 :=
  if imm &&& (1#64 <<< signBit) ≠ 0#64 then imm ||| (~~~0#64 <<< (signBit + 1)) else imm

end RvPipeSim
