import Mathlib.Data.Fintype.OfMap
import Mathlib.Logic.Function.Basic

/-!
# The RV64I base instruction set

The user-level integer instructions of RV64I without `fence`, `ecall` and `ebreak`:
their syntax `Instr`, their encoding into 32-bit words, and what one of them does to the
registers, the memory and the PC.

Operations that differ in the function fields only are one constructor with an operation
argument. An offset of a branch or of `jal` is a multiple of two, and its immediate is
kept without the last bit, as the encoding does.

The encoding is written over `rType`, the six fields of a word. `exists_rType` cuts any
word into them, and `exists_encode_iff` says, field by field, which words encode an
instruction.

## Main results

* `encode`, `step` — the encoding and the meaning of an instruction;
* `exists_rType`, `rType_inj` — a word has its six fields in one way;
* `exists_encode_iff` — the words that encode an instruction, by their fields.
-/

namespace Rv64i

/-! ### Syntax -/

/-- Register-register operations. -/
inductive Op
  | add | sub | sll | slt | sltu | xor | srl | sra | or | and
  deriving DecidableEq, Repr

/-- Register-register operations on 32-bit words. -/
inductive OpW
  | addw | subw | sllw | srlw | sraw
  deriving DecidableEq, Repr

/-- Operations with a 12-bit immediate. -/
inductive ImmOp
  | addi | slti | sltiu | xori | ori | andi
  deriving DecidableEq, Repr

/-- Shifts by an immediate. -/
inductive ShiftOp
  | slli | srli | srai
  deriving DecidableEq, Repr

/-- Loads. -/
inductive LoadOp
  | lb | lh | lw | ld | lbu | lhu | lwu
  deriving DecidableEq, Repr

/-- Stores. -/
inductive StoreOp
  | sb | sh | sw | sd
  deriving DecidableEq, Repr

/-- Conditional branches. -/
inductive BranchOp
  | beq | bne | blt | bge | bltu | bgeu
  deriving DecidableEq, Repr

instance : Fintype Op :=
  .ofList [.add, .sub, .sll, .slt, .sltu, .xor, .srl, .sra, .or, .and] fun o => by
    cases o <;> decide

instance : Fintype OpW :=
  .ofList [.addw, .subw, .sllw, .srlw, .sraw] fun o => by cases o <;> decide

instance : Fintype ImmOp :=
  .ofList [.addi, .slti, .sltiu, .xori, .ori, .andi] fun o => by cases o <;> decide

instance : Fintype ShiftOp :=
  .ofList [.slli, .srli, .srai] fun o => by cases o <;> decide

instance : Fintype LoadOp :=
  .ofList [.lb, .lh, .lw, .ld, .lbu, .lhu, .lwu] fun o => by cases o <;> decide

instance : Fintype StoreOp :=
  .ofList [.sb, .sh, .sw, .sd] fun o => by cases o <;> decide

instance : Fintype BranchOp :=
  .ofList [.beq, .bne, .blt, .bge, .bltu, .bgeu] fun o => by cases o <;> decide

/-- The instructions. -/
inductive Instr
  | op (o : Op) (rd rs1 rs2 : BitVec 5)
  | opW (o : OpW) (rd rs1 rs2 : BitVec 5)
  | opImm (o : ImmOp) (rd rs1 : BitVec 5) (imm : BitVec 12)
  | shift (o : ShiftOp) (rd rs1 : BitVec 5) (shamt : BitVec 6)
  | addiw (rd rs1 : BitVec 5) (imm : BitVec 12)
  | shiftW (o : ShiftOp) (rd rs1 : BitVec 5) (shamt : BitVec 5)
  | load (o : LoadOp) (rd rs1 : BitVec 5) (imm : BitVec 12)
  | store (o : StoreOp) (rs1 rs2 : BitVec 5) (imm : BitVec 12)
  | branch (o : BranchOp) (rs1 rs2 : BitVec 5) (imm : BitVec 12)
  | lui (rd : BitVec 5) (imm : BitVec 20)
  | auipc (rd : BitVec 5) (imm : BitVec 20)
  | jal (rd : BitVec 5) (imm : BitVec 20)
  | jalr (rd rs1 : BitVec 5) (imm : BitVec 12)
  deriving DecidableEq, Repr

/-! ### Encoding -/

/-- The function fields of a register-register operation. -/
def Op.funct : Op → BitVec 7 × BitVec 3
  | .add => (0b0000000, 0b000)
  | .sub => (0b0100000, 0b000)
  | .sll => (0b0000000, 0b001)
  | .slt => (0b0000000, 0b010)
  | .sltu => (0b0000000, 0b011)
  | .xor => (0b0000000, 0b100)
  | .srl => (0b0000000, 0b101)
  | .sra => (0b0100000, 0b101)
  | .or => (0b0000000, 0b110)
  | .and => (0b0000000, 0b111)

/-- The function fields of a register-register operation on words. -/
def OpW.funct : OpW → BitVec 7 × BitVec 3
  | .addw => (0b0000000, 0b000)
  | .subw => (0b0100000, 0b000)
  | .sllw => (0b0000000, 0b001)
  | .srlw => (0b0000000, 0b101)
  | .sraw => (0b0100000, 0b101)

/-- The function field of an operation with an immediate. -/
def ImmOp.funct3 : ImmOp → BitVec 3
  | .addi => 0b000
  | .slti => 0b010
  | .sltiu => 0b011
  | .xori => 0b100
  | .ori => 0b110
  | .andi => 0b111

/-- The upper six bits of the immediate and the function field of a shift. -/
def ShiftOp.funct : ShiftOp → BitVec 6 × BitVec 3
  | .slli => (0b000000, 0b001)
  | .srli => (0b000000, 0b101)
  | .srai => (0b010000, 0b101)

/-- The function field of a load: its width, and whether it extends the sign. -/
def LoadOp.funct3 : LoadOp → BitVec 3
  | .lb => 0b000
  | .lh => 0b001
  | .lw => 0b010
  | .ld => 0b011
  | .lbu => 0b100
  | .lhu => 0b101
  | .lwu => 0b110

/-- The function field of a store: its width. -/
def StoreOp.funct3 : StoreOp → BitVec 3
  | .sb => 0b000
  | .sh => 0b001
  | .sw => 0b010
  | .sd => 0b011

/-- The function field of a branch: its comparison. -/
def BranchOp.funct3 : BranchOp → BitVec 3
  | .beq => 0b000
  | .bne => 0b001
  | .blt => 0b100
  | .bge => 0b101
  | .bltu => 0b110
  | .bgeu => 0b111

/-- The six fields of a word, which are those of the R format. -/
def rType (funct7 : BitVec 7) (rs2 rs1 : BitVec 5) (funct3 : BitVec 3) (rd : BitVec 5)
    (opcode : BitVec 7) : BitVec 32 :=
  funct7 ++ (rs2 ++ (rs1 ++ (funct3 ++ (rd ++ opcode))))

/-- The I format: the immediate takes the place of `funct7` and `rs2`. -/
def iType (imm : BitVec 12) (rs1 : BitVec 5) (funct3 : BitVec 3) (rd : BitVec 5)
    (opcode : BitVec 7) : BitVec 32 :=
  rType (imm.extractLsb' 5 7) (imm.extractLsb' 0 5) rs1 funct3 rd opcode

/-- The S format: the immediate takes the place of `funct7` and `rd`. -/
def sType (imm : BitVec 12) (rs2 rs1 : BitVec 5) (funct3 : BitVec 3) (opcode : BitVec 7) :
    BitVec 32 :=
  rType (imm.extractLsb' 5 7) rs2 rs1 funct3 (imm.extractLsb' 0 5) opcode

/-- The B format, from the offset without its last bit: bits 12 and 10 to 5 of the offset
take the place of `funct7`, bits 4 to 1 and 11 that of `rd`. -/
def bType (imm : BitVec 12) (rs2 rs1 : BitVec 5) (funct3 : BitVec 3) (opcode : BitVec 7) :
    BitVec 32 :=
  rType (imm.extractLsb' 11 1 ++ imm.extractLsb' 4 6) rs2 rs1 funct3
    (imm.extractLsb' 0 4 ++ imm.extractLsb' 10 1) opcode

/-- The U format: the immediate takes everything above `rd`. -/
def uType (imm : BitVec 20) (rd : BitVec 5) (opcode : BitVec 7) : BitVec 32 :=
  rType (imm.extractLsb' 13 7) (imm.extractLsb' 8 5) (imm.extractLsb' 3 5)
    (imm.extractLsb' 0 3) rd opcode

/-- The J format, from the offset without its last bit: the U format of bits 20, 10 to 1,
11 and 19 to 12 of the offset. -/
def jType (imm : BitVec 20) (rd : BitVec 5) (opcode : BitVec 7) : BitVec 32 :=
  uType (imm.extractLsb' 19 1 ++ (imm.extractLsb' 0 10 ++
    (imm.extractLsb' 10 1 ++ imm.extractLsb' 11 8))) rd opcode

/-- The encoding of an instruction. -/
def encode : Instr → BitVec 32
  | .op o rd rs1 rs2 => rType o.funct.1 rs2 rs1 o.funct.2 rd 0b0110011
  | .opW o rd rs1 rs2 => rType o.funct.1 rs2 rs1 o.funct.2 rd 0b0111011
  | .opImm o rd rs1 imm => iType imm rs1 o.funct3 rd 0b0010011
  | .shift o rd rs1 shamt => iType (o.funct.1 ++ shamt) rs1 o.funct.2 rd 0b0010011
  | .addiw rd rs1 imm => iType imm rs1 0b000 rd 0b0011011
  | .shiftW o rd rs1 shamt =>
      iType ((o.funct.1 ++ 0#1) ++ shamt) rs1 o.funct.2 rd 0b0011011
  | .load o rd rs1 imm => iType imm rs1 o.funct3 rd 0b0000011
  | .store o rs1 rs2 imm => sType imm rs2 rs1 o.funct3 0b0100011
  | .branch o rs1 rs2 imm => bType imm rs2 rs1 o.funct3 0b1100011
  | .lui rd imm => uType imm rd 0b0110111
  | .auipc rd imm => uType imm rd 0b0010111
  | .jal rd imm => jType imm rd 0b1101111
  | .jalr rd rs1 imm => iType imm rs1 0b000 rd 0b1100111

/-! ### The fields of a word -/

section Fields

variable {funct7 funct7' : BitVec 7} {rs2 rs2' rs1 rs1' rd rd' : BitVec 5}
  {funct3 funct3' : BitVec 3} {opcode opcode' : BitVec 7}

/-- The opcode of a word put together from its fields. -/
theorem opcode_rType :
    (rType funct7 rs2 rs1 funct3 rd opcode).extractLsb' 0 7 = opcode := by
  rw [rType]
  refine (BitVec.extractLsb'_append_eq_of_add_le (by omega)).trans ?_
  refine (BitVec.extractLsb'_append_eq_of_add_le (by omega)).trans ?_
  refine (BitVec.extractLsb'_append_eq_of_add_le (by omega)).trans ?_
  refine (BitVec.extractLsb'_append_eq_of_add_le (by omega)).trans ?_
  exact BitVec.extractLsb'_append_eq_right

/-- The `rd` of a word put together from its fields. -/
theorem rd_rType : (rType funct7 rs2 rs1 funct3 rd opcode).extractLsb' 7 5 = rd := by
  rw [rType]
  refine (BitVec.extractLsb'_append_eq_of_add_le (by omega)).trans ?_
  refine (BitVec.extractLsb'_append_eq_of_add_le (by omega)).trans ?_
  refine (BitVec.extractLsb'_append_eq_of_add_le (by omega)).trans ?_
  refine (BitVec.extractLsb'_append_eq_of_add_le (by omega)).trans ?_
  exact BitVec.extractLsb'_append_eq_left

/-- The `funct3` of a word put together from its fields. -/
theorem funct3_rType : (rType funct7 rs2 rs1 funct3 rd opcode).extractLsb' 12 3 = funct3 := by
  rw [rType]
  refine (BitVec.extractLsb'_append_eq_of_add_le (by omega)).trans ?_
  refine (BitVec.extractLsb'_append_eq_of_add_le (by omega)).trans ?_
  refine (BitVec.extractLsb'_append_eq_of_add_le (by omega)).trans ?_
  exact BitVec.extractLsb'_append_eq_left

/-- The `rs1` of a word put together from its fields. -/
theorem rs1_rType : (rType funct7 rs2 rs1 funct3 rd opcode).extractLsb' 15 5 = rs1 := by
  rw [rType]
  refine (BitVec.extractLsb'_append_eq_of_add_le (by omega)).trans ?_
  refine (BitVec.extractLsb'_append_eq_of_add_le (by omega)).trans ?_
  exact BitVec.extractLsb'_append_eq_left

/-- The `rs2` of a word put together from its fields. -/
theorem rs2_rType : (rType funct7 rs2 rs1 funct3 rd opcode).extractLsb' 20 5 = rs2 := by
  rw [rType]
  refine (BitVec.extractLsb'_append_eq_of_add_le (by omega)).trans ?_
  exact BitVec.extractLsb'_append_eq_left

/-- The `funct7` of a word put together from its fields. -/
theorem funct7_rType : (rType funct7 rs2 rs1 funct3 rd opcode).extractLsb' 25 7 = funct7 := by
  rw [rType]
  exact BitVec.extractLsb'_append_eq_left

/-- A bit-vector is its upper bits behind its lower ones. -/
theorem exists_append {n m : ℕ} (x : BitVec (n + m)) :
    ∃ (hi : BitVec n) (lo : BitVec m), x = hi ++ lo :=
  ⟨x.extractLsb' m n, x.extractLsb' 0 m, BitVec.extractLsb'_append_extractLsb'.symm⟩

/-- Every word has six fields. -/
theorem exists_rType (w : BitVec 32) :
    ∃ funct7 rs2 rs1 funct3 rd opcode, w = rType funct7 rs2 rs1 funct3 rd opcode := by
  obtain ⟨funct7, w, rfl⟩ := exists_append (n := 7) (m := 25) w
  obtain ⟨rs2, w, rfl⟩ := exists_append (n := 5) (m := 20) w
  obtain ⟨rs1, w, rfl⟩ := exists_append (n := 5) (m := 15) w
  obtain ⟨funct3, w, rfl⟩ := exists_append (n := 3) (m := 12) w
  obtain ⟨rd, opcode, rfl⟩ := exists_append (n := 5) (m := 7) w
  exact ⟨funct7, rs2, rs1, funct3, rd, opcode, rfl⟩

/-- A word has its six fields in one way only. -/
theorem rType_inj :
    rType funct7 rs2 rs1 funct3 rd opcode = rType funct7' rs2' rs1' funct3' rd' opcode' ↔
      funct7 = funct7' ∧ rs2 = rs2' ∧ rs1 = rs1' ∧ funct3 = funct3' ∧ rd = rd' ∧
        opcode = opcode' := by
  constructor
  · intro h
    refine ⟨?_, ?_, ?_, ?_, ?_, ?_⟩
    · simpa only [funct7_rType] using congrArg (BitVec.extractLsb' 25 7) h
    · simpa only [rs2_rType] using congrArg (BitVec.extractLsb' 20 5) h
    · simpa only [rs1_rType] using congrArg (BitVec.extractLsb' 15 5) h
    · simpa only [funct3_rType] using congrArg (BitVec.extractLsb' 12 3) h
    · simpa only [rd_rType] using congrArg (BitVec.extractLsb' 7 5) h
    · simpa only [opcode_rType] using congrArg (BitVec.extractLsb' 0 7) h
  · rintro ⟨rfl, rfl, rfl, rfl, rfl, rfl⟩
    rfl

/-! Every choice of fields is an instance of each of the other formats. -/

/-- Every word is of the I format. -/
theorem rType_eq_iType :
    rType funct7 rs2 rs1 funct3 rd opcode = iType (funct7 ++ rs2) rs1 funct3 rd opcode := by
  rw [iType, BitVec.extractLsb'_append_eq_left, BitVec.extractLsb'_append_eq_right]

/-- A shift amount of six bits takes the last bit of `funct7`. -/
theorem append_shamt {hi : BitVec 6} {b : BitVec 1} {lo : BitVec 5} :
    (hi ++ (b ++ lo : BitVec 6) : BitVec 12) = (hi ++ b : BitVec 7) ++ lo := by
  simpa using (@BitVec.append_assoc _ _ _ hi b lo).symm

/-- The upper six bits of a shift's immediate, as they lie in `funct7`. -/
theorem upper_append {hi shamt : BitVec 6} :
    ((hi ++ shamt : BitVec 12).extractLsb' 5 7).extractLsb' 1 6 = hi := by
  obtain ⟨b, lo, rfl⟩ := exists_append (n := 1) (m := 5) shamt
  rw [append_shamt, BitVec.extractLsb'_append_eq_left, BitVec.extractLsb'_append_eq_left]

/-- The I format of a shift amount of six bits. -/
theorem iType_append {hi : BitVec 6} {b : BitVec 1} :
    iType (hi ++ (b ++ rs2 : BitVec 6) : BitVec 12) rs1 funct3 rd opcode =
      rType (hi ++ b : BitVec 7) rs2 rs1 funct3 rd opcode := by
  rw [append_shamt, rType_eq_iType]

/-- Every word is of the S format. -/
theorem rType_eq_sType :
    rType funct7 rs2 rs1 funct3 rd opcode = sType (funct7 ++ rd) rs2 rs1 funct3 opcode := by
  rw [sType, BitVec.extractLsb'_append_eq_left, BitVec.extractLsb'_append_eq_right]

/-- Every word is of the U format. -/
theorem rType_eq_uType :
    rType funct7 rs2 rs1 funct3 rd opcode =
      uType (funct7 ++ (rs2 ++ (rs1 ++ funct3))) rd opcode := by
  rw [uType, rType_inj]
  refine ⟨BitVec.extractLsb'_append_eq_left.symm, ?_, ?_, ?_, rfl, rfl⟩
  · refine ((BitVec.extractLsb'_append_eq_of_add_le (by omega)).trans ?_).symm
    exact BitVec.extractLsb'_append_eq_left
  · refine ((BitVec.extractLsb'_append_eq_of_add_le (by omega)).trans ?_).symm
    refine (BitVec.extractLsb'_append_eq_of_add_le (by omega)).trans ?_
    exact BitVec.extractLsb'_append_eq_left
  · refine ((BitVec.extractLsb'_append_eq_of_add_le (by omega)).trans ?_).symm
    refine (BitVec.extractLsb'_append_eq_of_add_le (by omega)).trans ?_
    exact BitVec.extractLsb'_append_eq_right

/-- The B format of an offset given by its four pieces. -/
theorem bType_append {b12 b11 : BitVec 1} {hi : BitVec 6} {lo : BitVec 4} :
    bType (b12 ++ (b11 ++ (hi ++ lo))) rs2 rs1 funct3 opcode =
      rType (b12 ++ hi) rs2 rs1 funct3 (lo ++ b11) opcode := by
  have h12 : (b12 ++ (b11 ++ (hi ++ lo)) : BitVec 12).extractLsb' 11 1 = b12 :=
    BitVec.extractLsb'_append_eq_left
  have h11 : (b12 ++ (b11 ++ (hi ++ lo)) : BitVec 12).extractLsb' 10 1 = b11 :=
    (BitVec.extractLsb'_append_eq_of_add_le (by omega)).trans BitVec.extractLsb'_append_eq_left
  have hhi : (b12 ++ (b11 ++ (hi ++ lo)) : BitVec 12).extractLsb' 4 6 = hi :=
    ((BitVec.extractLsb'_append_eq_of_add_le (by omega)).trans
      (BitVec.extractLsb'_append_eq_of_add_le (by omega))).trans
      BitVec.extractLsb'_append_eq_left
  have hlo : (b12 ++ (b11 ++ (hi ++ lo)) : BitVec 12).extractLsb' 0 4 = lo :=
    ((BitVec.extractLsb'_append_eq_of_add_le (by omega)).trans
      (BitVec.extractLsb'_append_eq_of_add_le (by omega))).trans
      BitVec.extractLsb'_append_eq_right
  rw [bType, h12, h11, hhi, hlo]

/-- The J format of an offset given by its four pieces. -/
theorem jType_append {b20 b11 : BitVec 1} {hi : BitVec 8} {lo : BitVec 10} :
    jType (b20 ++ (hi ++ (b11 ++ lo))) rd opcode =
      uType (b20 ++ (lo ++ (b11 ++ hi))) rd opcode := by
  have h20 : (b20 ++ (hi ++ (b11 ++ lo)) : BitVec 20).extractLsb' 19 1 = b20 :=
    BitVec.extractLsb'_append_eq_left
  have hhi : (b20 ++ (hi ++ (b11 ++ lo)) : BitVec 20).extractLsb' 11 8 = hi :=
    (BitVec.extractLsb'_append_eq_of_add_le (by omega)).trans BitVec.extractLsb'_append_eq_left
  have h11 : (b20 ++ (hi ++ (b11 ++ lo)) : BitVec 20).extractLsb' 10 1 = b11 :=
    ((BitVec.extractLsb'_append_eq_of_add_le (by omega)).trans
      (BitVec.extractLsb'_append_eq_of_add_le (by omega))).trans
      BitVec.extractLsb'_append_eq_left
  have hlo : (b20 ++ (hi ++ (b11 ++ lo)) : BitVec 20).extractLsb' 0 10 = lo :=
    ((BitVec.extractLsb'_append_eq_of_add_le (by omega)).trans
      (BitVec.extractLsb'_append_eq_of_add_le (by omega))).trans
      BitVec.extractLsb'_append_eq_right
  rw [jType, h20, hhi, h11, hlo]

/-! Pieces of the immediates, and words as instances of the B and J formats. -/

/-- An offset of a branch cut into the pieces of the B format. -/
theorem exists_bImm (imm : BitVec 12) :
    ∃ (b12 b11 : BitVec 1) (hi : BitVec 6) (lo : BitVec 4), imm = b12 ++ (b11 ++ (hi ++ lo)) := by
  obtain ⟨b12, rest, rfl⟩ := exists_append (n := 1) (m := 11) imm
  obtain ⟨b11, rest, rfl⟩ := exists_append (n := 1) (m := 10) rest
  obtain ⟨hi, lo, rfl⟩ := exists_append (n := 6) (m := 4) rest
  exact ⟨b12, b11, hi, lo, rfl⟩

/-- An offset of a jump cut into the pieces of the J format. -/
theorem exists_jImm (imm : BitVec 20) :
    ∃ (b20 b11 : BitVec 1) (hi : BitVec 8) (lo : BitVec 10), imm = b20 ++ (hi ++ (b11 ++ lo)) := by
  obtain ⟨b20, rest, rfl⟩ := exists_append (n := 1) (m := 19) imm
  obtain ⟨hi, rest, rfl⟩ := exists_append (n := 8) (m := 11) rest
  obtain ⟨b11, lo, rfl⟩ := exists_append (n := 1) (m := 10) rest
  exact ⟨b20, b11, hi, lo, rfl⟩

/-- An upper immediate cut into the fields it takes the place of. -/
theorem exists_uImm (imm : BitVec 20) :
    ∃ (a : BitVec 7) (b c : BitVec 5) (d : BitVec 3), imm = a ++ (b ++ (c ++ d)) := by
  obtain ⟨a, rest, rfl⟩ := exists_append (n := 7) (m := 13) imm
  obtain ⟨b, rest, rfl⟩ := exists_append (n := 5) (m := 8) rest
  obtain ⟨c, d, rfl⟩ := exists_append (n := 5) (m := 3) rest
  exact ⟨a, b, c, d, rfl⟩

/-- Every word is of the B format, for some offset. -/
theorem rType_eq_bType (funct7 : BitVec 7) (rs2 rs1 : BitVec 5) (funct3 : BitVec 3)
    (rd : BitVec 5) (opcode : BitVec 7) :
    ∃ imm, rType funct7 rs2 rs1 funct3 rd opcode = bType imm rs2 rs1 funct3 opcode := by
  obtain ⟨b12, hi, rfl⟩ := exists_append (n := 1) (m := 6) funct7
  obtain ⟨lo, b11, rfl⟩ := exists_append (n := 4) (m := 1) rd
  exact ⟨_, bType_append.symm⟩

/-- Every word of the U format is of the J format, for some offset. -/
theorem uType_eq_jType (imm : BitVec 20) (rd : BitVec 5) (opcode : BitVec 7) :
    ∃ imm', uType imm rd opcode = jType imm' rd opcode := by
  obtain ⟨b20, rest, rfl⟩ := exists_append (n := 1) (m := 19) imm
  obtain ⟨lo, rest, rfl⟩ := exists_append (n := 10) (m := 9) rest
  obtain ⟨b11, hi, rfl⟩ := exists_append (n := 1) (m := 8) rest
  exact ⟨_, jType_append.symm⟩

/-! The longer immediates of a word. -/

/-- The upper twelve bits of a word are `funct7` and `rs2`. -/
theorem imm12_rType :
    (rType funct7 rs2 rs1 funct3 rd opcode).extractLsb' 20 12 = funct7 ++ rs2 := by
  have hassoc : rType funct7 rs2 rs1 funct3 rd opcode =
      (funct7 ++ rs2 : BitVec 12) ++ (rs1 ++ (funct3 ++ (rd ++ opcode)) : BitVec 20) := by
    simpa [rType] using (@BitVec.append_assoc _ _ _ funct7 rs2
      (rs1 ++ (funct3 ++ (rd ++ opcode)) : BitVec 20)).symm
  rw [hassoc]
  exact BitVec.extractLsb'_append_eq_left

/-- The immediate of the I format, read back. -/
theorem imm12_iType {imm : BitVec 12} :
    (iType imm rs1 funct3 rd opcode).extractLsb' 20 12 = imm := by
  obtain ⟨hi, lo, rfl⟩ := exists_append (n := 7) (m := 5) imm
  rw [← rType_eq_iType, imm12_rType]

/-- The upper six bits of a word lie in `funct7`. -/
theorem upper_rType :
    (rType funct7 rs2 rs1 funct3 rd opcode).extractLsb' 26 6 = funct7.extractLsb' 1 6 :=
  BitVec.extractLsb'_append_eq_of_le (by omega)

/-- The immediate of the U format, read back. -/
theorem imm20_uType {imm : BitVec 20} : (uType imm rd opcode).extractLsb' 12 20 = imm := by
  obtain ⟨a, b, c, d, rfl⟩ := exists_uImm imm
  rw [← rType_eq_uType]
  have hassoc : rType a b c d rd opcode =
      (a ++ (b ++ (c ++ d)) : BitVec 20) ++ (rd ++ opcode : BitVec 12) := by
    have hc := @BitVec.append_assoc _ _ _ c d (rd ++ opcode)
    have hb := @BitVec.append_assoc _ _ _ b (c ++ d) (rd ++ opcode)
    have ha := @BitVec.append_assoc _ _ _ a (b ++ (c ++ d)) (rd ++ opcode)
    simp only [BitVec.cast_eq] at ha hb hc
    rw [hb, hc] at ha
    exact ha.symm
  rw [hassoc]
  exact BitVec.extractLsb'_append_eq_left

/-! Which function fields belong to an operation. -/

/-- The function fields that belong to a register-register operation. -/
theorem exists_op_iff :
    (∃ o : Op, o.funct = (funct7, funct3)) ↔
      funct7 = 0 ∨ funct7 = 0b0100000 ∧ (funct3 = 0b000 ∨ funct3 = 0b101) := by
  constructor
  · rintro ⟨o, ho⟩
    obtain ⟨rfl, rfl⟩ := Prod.mk.inj ho
    cases o <;> decide
  · have hbase : ∀ funct3, ∃ o : Op, o.funct = (0, funct3) := by decide
    rintro (rfl | ⟨rfl, rfl | rfl⟩)
    · exact hbase funct3
    · exact ⟨.sub, rfl⟩
    · exact ⟨.sra, rfl⟩

/-- The function fields that belong to an operation on words. -/
theorem exists_opW_iff :
    (∃ o : OpW, o.funct = (funct7, funct3)) ↔
      funct7 = 0 ∧ (funct3 = 0b000 ∨ funct3 = 0b001 ∨ funct3 = 0b101) ∨
        funct7 = 0b0100000 ∧ (funct3 = 0b000 ∨ funct3 = 0b101) := by
  constructor
  · rintro ⟨o, ho⟩
    obtain ⟨rfl, rfl⟩ := Prod.mk.inj ho
    cases o <;> decide
  · rintro (⟨rfl, rfl | rfl | rfl⟩ | ⟨rfl, rfl | rfl⟩)
    · exact ⟨.addw, rfl⟩
    · exact ⟨.sllw, rfl⟩
    · exact ⟨.srlw, rfl⟩
    · exact ⟨.subw, rfl⟩
    · exact ⟨.sraw, rfl⟩

/-- The function fields that belong to a shift by six bits. -/
theorem exists_shiftOp_iff {upper : BitVec 6} :
    (∃ o : ShiftOp, o.funct = (upper, funct3)) ↔
      upper = 0 ∧ (funct3 = 0b001 ∨ funct3 = 0b101) ∨ upper = 0b010000 ∧ funct3 = 0b101 := by
  constructor
  · rintro ⟨o, ho⟩
    obtain ⟨rfl, rfl⟩ := Prod.mk.inj ho
    cases o <;> decide
  · rintro (⟨rfl, rfl | rfl⟩ | ⟨rfl, rfl⟩)
    · exact ⟨.slli, rfl⟩
    · exact ⟨.srli, rfl⟩
    · exact ⟨.srai, rfl⟩

/-- The function fields that belong to a shift by five bits, whose sixth is zero. -/
theorem exists_shiftOpW_iff :
    (∃ o : ShiftOp, o.funct.1 ++ 0#1 = funct7 ∧ o.funct.2 = funct3) ↔
      funct7 = 0 ∧ (funct3 = 0b001 ∨ funct3 = 0b101) ∨ funct7 = 0b0100000 ∧ funct3 = 0b101 := by
  constructor
  · rintro ⟨o, rfl, rfl⟩
    cases o <;> decide
  · rintro (⟨rfl, rfl | rfl⟩ | ⟨rfl, rfl⟩)
    · exact ⟨.slli, rfl, rfl⟩
    · exact ⟨.srli, rfl, rfl⟩
    · exact ⟨.srai, rfl, rfl⟩

/-- The function fields that belong to an operation with an immediate: all but those of the
shifts. -/
theorem exists_immOp_iff : ∀ {funct3 : BitVec 3},
    (∃ o : ImmOp, o.funct3 = funct3) ↔ funct3 ≠ 0b001 ∧ funct3 ≠ 0b101 := by
  decide

/-- The function fields that belong to a load. -/
theorem exists_loadOp_iff : ∀ {funct3 : BitVec 3},
    (∃ o : LoadOp, o.funct3 = funct3) ↔ funct3 ≠ 0b111 := by
  decide

/-- The function fields that belong to a store. -/
theorem exists_storeOp_iff : ∀ {funct3 : BitVec 3},
    (∃ o : StoreOp, o.funct3 = funct3) ↔ funct3.toNat < 4 := by
  decide

/-- The function fields that belong to a branch. -/
theorem exists_branchOp_iff : ∀ {funct3 : BitVec 3},
    (∃ o : BranchOp, o.funct3 = funct3) ↔ funct3 ≠ 0b010 ∧ funct3 ≠ 0b011 := by
  decide

/-- The words that encode an instruction, opcode by opcode. -/
theorem exists_encode_iff :
    (∃ i, encode i = rType funct7 rs2 rs1 funct3 rd opcode) ↔
      (opcode = 0b0110011 ∧ ∃ o : Op, o.funct = (funct7, funct3)) ∨
      (opcode = 0b0111011 ∧ ∃ o : OpW, o.funct = (funct7, funct3)) ∨
      (opcode = 0b0010011 ∧
        ((∃ o : ImmOp, o.funct3 = funct3) ∨
          ∃ o : ShiftOp, o.funct = (funct7.extractLsb' 1 6, funct3))) ∨
      (opcode = 0b0011011 ∧
        (funct3 = 0 ∨ ∃ o : ShiftOp, o.funct.1 ++ 0#1 = funct7 ∧ o.funct.2 = funct3)) ∨
      (opcode = 0b0000011 ∧ ∃ o : LoadOp, o.funct3 = funct3) ∨
      (opcode = 0b0100011 ∧ ∃ o : StoreOp, o.funct3 = funct3) ∨
      (opcode = 0b1100011 ∧ ∃ o : BranchOp, o.funct3 = funct3) ∨
      opcode = 0b0110111 ∨ opcode = 0b0010111 ∨ opcode = 0b1101111 ∨
      (opcode = 0b1100111 ∧ funct3 = 0) := by
  constructor
  · rintro ⟨i, h⟩
    cases i with
    | op o rd rs1 rs2 =>
        obtain ⟨hf7, -, -, hf3, -, hop⟩ := rType_inj.mp h
        exact .inl ⟨hop.symm, o, Prod.ext hf7 hf3⟩
    | opW o rd rs1 rs2 =>
        obtain ⟨hf7, -, -, hf3, -, hop⟩ := rType_inj.mp h
        exact .inr (.inl ⟨hop.symm, o, Prod.ext hf7 hf3⟩)
    | opImm o rd rs1 imm =>
        obtain ⟨-, -, -, hf3, -, hop⟩ := rType_inj.mp h
        exact .inr (.inr (.inl ⟨hop.symm, .inl ⟨o, hf3⟩⟩))
    | shift o rd rs1 shamt =>
        obtain ⟨hf7, -, -, hf3, -, hop⟩ := rType_inj.mp h
        have hupper : o.funct.1 = funct7.extractLsb' 1 6 := hf7 ▸ upper_append.symm
        exact .inr (.inr (.inl ⟨hop.symm, .inr ⟨o, Prod.ext hupper hf3⟩⟩))
    | addiw rd rs1 imm =>
        obtain ⟨-, -, -, hf3, -, hop⟩ := rType_inj.mp h
        exact .inr (.inr (.inr (.inl ⟨hop.symm, .inl hf3.symm⟩)))
    | shiftW o rd rs1 shamt =>
        obtain ⟨hf7, -, -, hf3, -, hop⟩ := rType_inj.mp h
        rw [BitVec.extractLsb'_append_eq_left] at hf7
        exact .inr (.inr (.inr (.inl ⟨hop.symm, .inr ⟨o, hf7, hf3⟩⟩)))
    | load o rd rs1 imm =>
        obtain ⟨-, -, -, hf3, -, hop⟩ := rType_inj.mp h
        exact .inr (.inr (.inr (.inr (.inl ⟨hop.symm, o, hf3⟩))))
    | store o rs1 rs2 imm =>
        obtain ⟨-, -, -, hf3, -, hop⟩ := rType_inj.mp h
        exact .inr (.inr (.inr (.inr (.inr (.inl ⟨hop.symm, o, hf3⟩)))))
    | branch o rs1 rs2 imm =>
        obtain ⟨-, -, -, hf3, -, hop⟩ := rType_inj.mp h
        exact .inr (.inr (.inr (.inr (.inr (.inr (.inl ⟨hop.symm, o, hf3⟩))))))
    | lui rd imm =>
        obtain ⟨-, -, -, -, -, hop⟩ := rType_inj.mp h
        simp [← hop]
    | auipc rd imm =>
        obtain ⟨-, -, -, -, -, hop⟩ := rType_inj.mp h
        simp [← hop]
    | jal rd imm =>
        obtain ⟨-, -, -, -, -, hop⟩ := rType_inj.mp h
        simp [← hop]
    | jalr rd rs1 imm =>
        obtain ⟨-, -, -, hf3, -, hop⟩ := rType_inj.mp h
        simp [← hop, ← hf3]
  · rintro (⟨rfl, o, ho⟩ | ⟨rfl, o, ho⟩ | ⟨rfl, ⟨o, rfl⟩ | ⟨o, ho⟩⟩ | ⟨rfl, rfl | ⟨o, rfl, rfl⟩⟩ |
      ⟨rfl, o, rfl⟩ | ⟨rfl, o, rfl⟩ | ⟨rfl, o, rfl⟩ | rfl | rfl | rfl | ⟨rfl, rfl⟩)
    · exact ⟨.op o rd rs1 rs2, by rw [encode, ho]⟩
    · exact ⟨.opW o rd rs1 rs2, by rw [encode, ho]⟩
    · exact ⟨.opImm o rd rs1 (funct7 ++ rs2), rType_eq_iType.symm⟩
    · obtain ⟨hi, lo, rfl⟩ := exists_append (n := 6) (m := 1) funct7
      rw [BitVec.extractLsb'_append_eq_left] at ho
      exact ⟨.shift o rd rs1 (lo ++ rs2), by rw [encode, ho, iType_append]⟩
    · exact ⟨.addiw rd rs1 (funct7 ++ rs2), rType_eq_iType.symm⟩
    · exact ⟨.shiftW o rd rs1 rs2, rType_eq_iType.symm⟩
    · exact ⟨.load o rd rs1 (funct7 ++ rs2), rType_eq_iType.symm⟩
    · exact ⟨.store o rs1 rs2 (funct7 ++ rd), rType_eq_sType.symm⟩
    · obtain ⟨imm, himm⟩ := rType_eq_bType funct7 rs2 rs1 o.funct3 rd 0b1100011
      exact ⟨.branch o rs1 rs2 imm, himm.symm⟩
    · exact ⟨.lui rd (funct7 ++ (rs2 ++ (rs1 ++ funct3))), rType_eq_uType.symm⟩
    · exact ⟨.auipc rd (funct7 ++ (rs2 ++ (rs1 ++ funct3))), rType_eq_uType.symm⟩
    · obtain ⟨imm, himm⟩ := uType_eq_jType (funct7 ++ (rs2 ++ (rs1 ++ funct3))) rd 0b1101111
      exact ⟨.jal rd imm, (rType_eq_uType.trans himm).symm⟩
    · exact ⟨.jalr rd rs1 (funct7 ++ rs2), rType_eq_iType.symm⟩

end Fields

/-! ### Semantics -/

/-- The state of a hart: the registers, a byte for every address, and the PC. -/
structure State where
  regs : BitVec 5 → BitVec 64
  mem : BitVec 64 → BitVec 8
  pc : BitVec 64

/-- The value of a register: `x0` reads as zero. -/
def State.x (s : State) (r : BitVec 5) : BitVec 64 := if r = 0 then 0 else s.regs r

/-- Write a register: a write to `x0` is dropped. -/
def State.setX (s : State) (r : BitVec 5) (value : BitVec 64) : State :=
  { s with regs := if r = 0 then s.regs else Function.update s.regs r value }

/-- The little-endian value of `n` bytes from an address on, zero-extended. -/
def loadBytes (mem : BitVec 64 → BitVec 8) (address : BitVec 64) : ℕ → BitVec 64
  | 0 => 0
  | n + 1 => (mem address).setWidth 64 ||| (loadBytes mem (address + 1) n <<< 8)

/-- A load of `n` bytes leaves the bits above them clear. -/
theorem getLsbD_loadBytes (mem : BitVec 64 → BitVec 8) (address : BitVec 64) {n i : ℕ}
    (hi : n * 8 ≤ i) : (loadBytes mem address n).getLsbD i = false := by
  induction n generalizing address i with
  | zero => simp [loadBytes]
  | succ n ih =>
      rw [loadBytes, BitVec.getLsbD_or, BitVec.getLsbD_shiftLeft, ih _ (by omega),
        BitVec.getLsbD_setWidth, BitVec.getLsbD_of_ge _ _ (by omega)]
      simp

/-- A load of `n` bytes has no bits above them. -/
theorem loadBytes_setWidth (mem : BitVec 64 → BitVec 8) (address : BitVec 64) (n : ℕ) :
    ((loadBytes mem address n).setWidth (n * 8)).setWidth 64 = loadBytes mem address n := by
  apply BitVec.eq_of_getLsbD_eq
  intro i hi
  rw [BitVec.getLsbD_setWidth, BitVec.getLsbD_setWidth, decide_eq_true hi, Bool.true_and]
  by_cases hin : i < n * 8
  · rw [decide_eq_true hin, Bool.true_and]
  · rw [getLsbD_loadBytes mem address (by omega), Bool.and_false]

/-- Memory with the low `n` bytes of `value` at an address, lowest first. -/
def storeBytes (mem : BitVec 64 → BitVec 8) (address value : BitVec 64) (n : ℕ) :
    BitVec 64 → BitVec 8 :=
  fun a =>
    if (a - address).toNat < n then (value >>> ((a - address).toNat * 8)).setWidth 8 else mem a

/-- The result of a register-register operation. -/
def Op.eval : Op → BitVec 64 → BitVec 64 → BitVec 64
  | .add, a, b => a + b
  | .sub, a, b => a - b
  | .sll, a, b => a <<< (b.setWidth 6).toNat
  | .slt, a, b => if a.slt b then 1 else 0
  | .sltu, a, b => if a.ult b then 1 else 0
  | .xor, a, b => a ^^^ b
  | .srl, a, b => a >>> (b.setWidth 6).toNat
  | .sra, a, b => a.sshiftRight (b.setWidth 6).toNat
  | .or, a, b => a ||| b
  | .and, a, b => a &&& b

/-- The result of a register-register operation on words, before its sign extension. -/
def OpW.eval : OpW → BitVec 32 → BitVec 32 → BitVec 32
  | .addw, a, b => a + b
  | .subw, a, b => a - b
  | .sllw, a, b => a <<< (b.setWidth 5).toNat
  | .srlw, a, b => a >>> (b.setWidth 5).toNat
  | .sraw, a, b => a.sshiftRight (b.setWidth 5).toNat

/-- The register-register operation an immediate operation performs. -/
def ImmOp.toOp : ImmOp → Op
  | .addi => .add
  | .slti => .slt
  | .sltiu => .sltu
  | .xori => .xor
  | .ori => .or
  | .andi => .and

def ShiftOp.toOp : ShiftOp → Op
  | .slli => .sll
  | .srli => .srl
  | .srai => .sra

def ShiftOp.toOpW : ShiftOp → OpW
  | .slli => .sllw
  | .srli => .srlw
  | .srai => .sraw

/-- The number of bytes a load reads. -/
def LoadOp.bytes : LoadOp → ℕ
  | .lb | .lbu => 1
  | .lh | .lhu => 2
  | .lw | .lwu => 4
  | .ld => 8

/-- The register value of a load from its zero-extended bytes. -/
def LoadOp.extend : LoadOp → BitVec 64 → BitVec 64
  | .lb, v => (v.setWidth 8).signExtend 64
  | .lh, v => (v.setWidth 16).signExtend 64
  | .lw, v => (v.setWidth 32).signExtend 64
  | .ld, v | .lbu, v | .lhu, v | .lwu, v => v

/-- The number of bytes a store writes. -/
def StoreOp.bytes : StoreOp → ℕ
  | .sb => 1
  | .sh => 2
  | .sw => 4
  | .sd => 8

/-- The condition of a branch. -/
def BranchOp.taken : BranchOp → BitVec 64 → BitVec 64 → Bool
  | .beq, a, b => a == b
  | .bne, a, b => a != b
  | .blt, a, b => a.slt b
  | .bge, a, b => !a.slt b
  | .bltu, a, b => a.ult b
  | .bgeu, a, b => !a.ult b

/-- The effective address of a load or store. -/
def State.effective (s : State) (rs1 : BitVec 5) (imm : BitVec 12) : BitVec 64 :=
  s.x rs1 + imm.signExtend 64

/-- The address and the number of bytes of the memory access of an instruction. -/
def access (s : State) : Instr → Option (BitVec 64 × ℕ)
  | .load o _ rs1 imm => some (s.effective rs1 imm, o.bytes)
  | .store o rs1 _ imm => some (s.effective rs1 imm, o.bytes)
  | _ => none

/-- What `step` writes to `rd`, for the instructions that have one. -/
def result (s : State) : Instr → Option (BitVec 5 × BitVec 64)
  | .op o rd rs1 rs2 => some (rd, o.eval (s.x rs1) (s.x rs2))
  | .opW o rd rs1 rs2 =>
      some (rd, (o.eval ((s.x rs1).setWidth 32) ((s.x rs2).setWidth 32)).signExtend 64)
  | .opImm o rd rs1 imm => some (rd, o.toOp.eval (s.x rs1) (imm.signExtend 64))
  | .shift o rd rs1 shamt => some (rd, o.toOp.eval (s.x rs1) (shamt.setWidth 64))
  | .addiw rd rs1 imm =>
      some (rd, ((s.x rs1).setWidth 32 + imm.signExtend 32).signExtend 64)
  | .shiftW o rd rs1 shamt =>
      some (rd, (o.toOpW.eval ((s.x rs1).setWidth 32) (shamt.setWidth 32)).signExtend 64)
  | .load o rd rs1 imm =>
      some (rd, o.extend (loadBytes s.mem (s.effective rs1 imm) o.bytes))
  | .store .. => none
  | .branch .. => none
  | .lui rd imm => some (rd, (imm ++ 0#12).signExtend 64)
  | .auipc rd imm => some (rd, s.pc + (imm ++ 0#12).signExtend 64)
  | .jal rd _ => some (rd, s.pc + 4)
  | .jalr rd _ _ => some (rd, s.pc + 4)

/-- The memory behind an instruction. -/
def memory (s : State) : Instr → (BitVec 64 → BitVec 8)
  | .store o rs1 rs2 imm => storeBytes s.mem (s.effective rs1 imm) (s.x rs2) o.bytes
  | _ => s.mem

/-- The PC behind an instruction. -/
def nextPC (s : State) : Instr → BitVec 64
  | .branch o rs1 rs2 imm =>
      if o.taken (s.x rs1) (s.x rs2) then s.pc + (imm ++ 0#1).signExtend 64 else s.pc + 4
  | .jal _ imm => s.pc + (imm ++ 0#1).signExtend 64
  | .jalr _ rs1 imm => (s.x rs1 + imm.signExtend 64) &&& ~~~1#64
  | _ => s.pc + 4

/-- One instruction. All of it reads the state before the instruction. -/
def step (s : State) (i : Instr) : State :=
  { regs := match result s i with
      | some (rd, value) => (s.setX rd value).regs
      | none => s.regs
    mem := memory s i
    pc := nextPC s i }

end Rv64i
