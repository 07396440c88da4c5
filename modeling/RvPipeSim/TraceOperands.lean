import RvPipeSim.Execution
import RvPipeSim.TraceLegality

/-!
# The operands the trace prints

The printer takes the registers and the immediate out of the word on its own, format by
format. The registers are the ones the instruction writes and reads. The immediate is the
one the execution uses but for three kinds of words (`Misprinted`): the amount of `slliw`
is masked to six bits where the execution takes five, the immediate of `jalr` is printed
as a shift amount where its `funct3` is that of a shift, and the upper immediate of `lui`
and `auipc` has its sign extended from bit 19 where the execution extends it from bit 31.

## Main results

* `prints_reg`, `prints_imm`, `prints_load`, `prints_store`, `prints_branch`, `prints_jal`,
  `prints_upper` — what each format prints;
* `arith_intimm`, `arith_intimmw` — an ALU instruction with an immediate is the one on
  registers, with the immediate for the second;
* `operandsAgree_iff` — where the registers agree all depends on the one number that is
  printed;
* `trace_operands_iff` — the printed operands are the executed ones, exactly if the word is not
  `Misprinted`.
-/

namespace RvPipeSim

/-! ### What is printed -/

/-- The register an item names. -/
def Item.reg? : Item → Option (BitVec 5)
  | .reg r => some r
  | _ => none

/-- The number an item shows. -/
def Item.num? : Item → Option ℤ
  | .num n => some n
  | _ => none

/-- The registers and the numbers in what is printed for a word, in their order. -/
structure Prints (w : BitVec 64) (regs : List (BitVec 5)) (nums : List ℤ) : Prop where
  regs : (instrItems w).filterMap Item.reg? = regs
  nums : (instrItems w).filterMap Item.num? = nums

/-! ### What is executed -/

/-- The registers an instruction writes and reads, the destination first; a store names the
register it stores before the one of its address. -/
def DecodeInfo.operandRegs (d : DecodeInfo) : List (BitVec 5) :=
  (if d.writesRd then [d.rd] else []) ++
    if d.writesMem then [d.rs2, d.rs1]
    else (if d.readsRs1 then [d.rs1] else []) ++ (if d.readsRs2 then [d.rs2] else [])

/-- The instruction on two registers that a register-immediate instruction is with `imm`
in the second one. -/
def Instruction.registerForm (inst : Instruction) (imm : BitVec 64) : Instruction :=
  { inst with
    opcode := if inst.opcode = opIntimm then opInt else opIntw
    funct7 := if inst.funct3 = funct3Add then funct7Add else inst.funct7
    op2Val := imm }

/-- The execution of a decoded instruction is the one with the immediate `imm`. -/
def UsesImm (inst : Instruction) (imm : BitVec 64) : Prop :=
  if inst.opcode = opIntimm ∨ inst.opcode = opIntimmw then
    (simArithLogic inst).arithResult = arithLogicResult (inst.registerForm imm)
  else if inst.opcode = opLoad ∨ inst.opcode = opStore then
    (simAddrGen inst).memAddress = inst.op1Val + imm
  else if inst.opcode = opJalr then resolvedPC inst = (inst.op1Val + imm) &&& ~~~1#64
  else if inst.opcode = opBranch then
    resolvedPC inst = if branchTaken inst then inst.PC + imm else inst.PC + 4
  else if inst.opcode = opJal then resolvedPC inst = inst.PC + imm
  else if inst.opcode = opLui then (simArithLogic inst).arithResult = imm
  else (simArithLogic inst).arithResult = inst.PC + imm

/-- The operands printed for a word are the ones it is executed with, whatever the
registers hold and wherever it stands. -/
structure OperandsAgree (w : BitVec 64) : Prop where
  regs : (instrItems w).filterMap Item.reg? = (decodeOf w).operandRegs
  imm : if (decodeOf w).opcode = opInt ∨ (decodeOf w).opcode = opIntw then
      (instrItems w).filterMap Item.num? = []
    else ∃ n, (instrItems w).filterMap Item.num? = [n] ∧
      ∀ inst : Instruction, inst.instruction = w → inst.toDecodeInfo = decodeOf w →
        UsesImm inst (BitVec.ofInt 64 n)

/-- A word that is accepted and printed with its mnemonic. -/
structure Shown (w : BitVec 64) : Prop where
  ne_halt : w ≠ haltWord
  ne_nop : w ≠ nopWord
  isLegal : (decodeOf w).isLegal = true
  hasOp : opOf w ≠ "ILLEGAL"

/-! ### The handlers -/

/-- The displacement put together from the immediate fields of a branch. -/
def branchOffset (imm7 imm5 : BitVec 64) : BitVec 64 :=
  sext64
    (extractBits imm7 6 6 <<< 12 ||| extractBits imm7 5 0 <<< 5 |||
      extractBits imm5 4 1 <<< 1 ||| extractBits imm5 0 0 <<< 11) 12

/-- The displacement put together from the immediate field of `jal`. -/
def jalOffset (imm20 : BitVec 64) : BitVec 64 :=
  sext64
    (extractBits imm20 19 19 <<< 20 ||| extractBits imm20 18 9 <<< 1 |||
      extractBits imm20 8 8 <<< 11 ||| extractBits imm20 7 0 <<< 12) 20

section Handlers

variable {w : BitVec 64}

/-- The instructions on two registers print the three of them and no number. -/
theorem prints_reg (hw : Shown w)
    (hopcode : (wordInfo w).opcode = opInt ∨ (wordInfo w).opcode = opIntw) :
    Prints w [(wordInfo w).rd, (wordInfo w).rs1, (wordInfo w).rs2] [] := by
  have hitems : instrItems w = handleIAndR w := by
    rw [instrItems, if_neg hw.ne_halt, if_neg hw.ne_nop]
    exact if_pos (by rcases hopcode with h | h <;> simp only [wordInfo] at h <;> simp [h])
  have hhandle : handleIAndR w = _ := (if_neg hw.hasOp).trans (if_pos hopcode)
  exact ⟨by rw [hitems, hhandle]; rfl, by rw [hitems, hhandle]; rfl⟩

/-- The number printed behind the registers of a register-immediate instruction. -/
def printedImm12 (w : BitVec 64) : ℤ :=
  if (wordInfo w).funct3 = funct3Sll ∨ (wordInfo w).funct3 = funct3Sr then
    (extractBits w 31 20 &&& 0x3F#64).toNat
  else (sext64 (extractBits w 31 20) 11).toInt

/-- The register-immediate instructions and `jalr` print two registers and the immediate, which
the shifts mask to six bits. -/
theorem prints_imm (hw : Shown w)
    (hopcode : (wordInfo w).opcode = opIntimm ∨ (wordInfo w).opcode = opIntimmw ∨
      (wordInfo w).opcode = opJalr) :
    Prints w [(wordInfo w).rd, (wordInfo w).rs1] [printedImm12 w] := by
  have hitems : instrItems w = handleIAndR w := by
    rw [instrItems, if_neg hw.ne_halt, if_neg hw.ne_nop]
    exact if_pos (.inr (.inr hopcode))
  have hne : ¬ ((wordInfo w).opcode = opInt ∨ (wordInfo w).opcode = opIntw) := by
    rcases hopcode with h | h | h <;> rw [h] <;> decide
  have hhandle : handleIAndR w = _ := (if_neg hw.hasOp).trans (if_neg hne)
  have hnum : ∀ {p : Prop} [Decidable p] {a b : ℤ},
      (if p then Item.num a else .num b) = .num (if p then a else b) := by
    intro p _ a b
    exact (apply_ite Item.num p a b).symm
  rw [hnum] at hhandle
  exact ⟨by rw [hitems, hhandle]; rfl, by rw [hitems, hhandle]; rfl⟩

/-- Loads and stores go to `handleLAndS`. -/
theorem instrItems_mem (hw : Shown w)
    (hopcode : (wordInfo w).opcode = opLoad ∨ (wordInfo w).opcode = opStore) :
    instrItems w = handleLAndS w := by
  have hskip : ¬ ((wordInfo w).opcode = opInt ∨ (wordInfo w).opcode = opIntw ∨
      (wordInfo w).opcode = opIntimm ∨ (wordInfo w).opcode = opIntimmw ∨
      (wordInfo w).opcode = opJalr) := by
    rcases hopcode with h | h <;> rw [h] <;> decide
  rw [instrItems, if_neg hw.ne_halt, if_neg hw.ne_nop]
  exact (if_neg hskip).trans (if_pos hopcode)

/-- A load prints its destination, its base register and the displacement. -/
theorem prints_load (hw : Shown w)
    (hopcode : (wordInfo w).opcode = opLoad) :
    Prints w [(wordInfo w).rd, (wordInfo w).rs1] [(sext64 (extractBits w 31 20) 11).toInt] := by
  have hop := hw.hasOp
  rw [opOf_mem (.inl hopcode)] at hop
  have hhandle : handleLAndS w = _ := (if_neg hop).trans (if_pos hopcode)
  rw [← instrItems_mem hw (.inl hopcode)] at hhandle
  exact ⟨by rw [hhandle]; rfl, by rw [hhandle]; rfl⟩

/-- A store prints the register it stores, its base register and the displacement. -/
theorem prints_store (hw : Shown w)
    (hopcode : (wordInfo w).opcode = opStore) :
    Prints w [(wordInfo w).rs2, (wordInfo w).rs1]
      [(sext64 ((extractBits w 31 25 <<< 5) ||| extractBits w 11 7) 11).toInt] := by
  have hop := hw.hasOp
  rw [opOf_mem (.inr hopcode)] at hop
  have hne : (wordInfo w).opcode ≠ opLoad := by rw [hopcode]; decide
  have hhandle : handleLAndS w = _ := (if_neg hop).trans (if_neg hne)
  rw [← instrItems_mem hw (.inr hopcode)] at hhandle
  exact ⟨by rw [hhandle]; rfl, by rw [hhandle]; rfl⟩

/-- A branch prints the two registers it compares and its displacement. -/
theorem prints_branch (hw : Shown w)
    (hopcode : (wordInfo w).opcode = opBranch) :
    Prints w [(wordInfo w).rs1, (wordInfo w).rs2]
      [(branchOffset (extractBits w 31 25) (extractBits w 11 7)).toInt] := by
  have hitems : instrItems w = handleBranch w := by
    have hop : (extractBits w 6 0).setWidth 7 = opBranch := hopcode
    rw [instrItems, if_neg hw.ne_halt, if_neg hw.ne_nop, hop]
    rfl
  have hop := hw.hasOp
  rw [opOf_branch hopcode] at hop
  have hhandle : handleBranch w = _ := if_neg hop
  rw [← hitems] at hhandle
  exact ⟨by rw [hhandle]; rfl, by rw [hhandle]; rfl⟩

/-- `jal`, `lui` and `auipc` go to `handleSpecial`. -/
theorem instrItems_special (hw : Shown w)
    (hopcode : (wordInfo w).opcode = opJal ∨ (wordInfo w).opcode = opLui ∨
      (wordInfo w).opcode = opAuipc) : instrItems w = handleSpecial w := by
  have hop : (extractBits w 6 0).setWidth 7 = (wordInfo w).opcode := rfl
  rw [instrItems, if_neg hw.ne_halt, if_neg hw.ne_nop, hop]
  rcases hopcode with h | h | h <;> rw [h] <;> rfl

/-- `jal` prints its destination and the displacement. -/
theorem prints_jal (hw : Shown w)
    (hopcode : (wordInfo w).opcode = opJal) :
    Prints w [(wordInfo w).rd] [(jalOffset (extractBits w 31 12)).toInt] := by
  have hop := hw.hasOp
  rw [opOf_special (.inl hopcode)] at hop
  have hhandle : handleSpecial w = _ := (if_neg hop).trans (if_pos hopcode)
  rw [← instrItems_special hw (.inl hopcode)] at hhandle
  exact ⟨by rw [hhandle]; rfl, by rw [hhandle]; rfl⟩

/-- `lui` and `auipc` print their destination and the immediate, whose sign they take from bit
19. -/
theorem prints_upper (hw : Shown w)
    (hopcode : (wordInfo w).opcode = opLui ∨ (wordInfo w).opcode = opAuipc) :
    Prints w [(wordInfo w).rd] [(sext64 (extractBits w 31 12 <<< 12) 19).toInt] := by
  have hop := hw.hasOp
  rw [opOf_special (.inr hopcode)] at hop
  have hne : (wordInfo w).opcode ≠ opJal := by
    rcases hopcode with h | h <;> rw [h] <;> decide
  have hhandle : handleSpecial w = _ := (if_neg hop).trans (if_neg hne)
  rw [← instrItems_special hw (.inr hopcode)] at hhandle
  exact ⟨by rw [hhandle]; rfl, by rw [hhandle]; rfl⟩

end Handlers

/-! ### The execution -/

section Execution

variable {inst : Instruction}

/-- A field of a 64-bit word. -/
theorem extractBits_word (w : BitVec 64) {hi lo n : ℕ} (hn : hi - lo + 1 = n) (hn' : n ≤ 64) :
    extractBits w hi lo = (w.extractLsb' lo n).setWidth 64 := by
  have h := extractBits_setWidth w hn hn' le_rfl
  rwa [BitVec.setWidth_eq] at h

/-- The 12-bit immediate of a word. -/
theorem extractBits_imm12 (w : BitVec 64) :
    extractBits w 31 20 = (w.extractLsb' 20 12).setWidth 64 :=
  extractBits_word w (by omega) (by omega)

/-- A field that went through a register of its width. -/
theorem extractBits_field (w : BitVec 64) {hi lo n : ℕ} (hn : hi - lo + 1 = n) (hn' : n ≤ 64) :
    ((extractBits w hi lo).setWidth n).setWidth 64 = extractBits w hi lo := by
  rw [extractBits_word w hn hn', BitVec.setWidth_setWidth_of_le _ hn', BitVec.setWidth_eq]

/-- The shift amount of a register-immediate instruction with `mask` for its amounts, and
the immediate of the others. -/
def immOf (inst : Instruction) (mask : BitVec 64) : BitVec 64 :=
  if inst.funct3 = funct3Sll ∨ inst.funct3 = funct3Sr then
    extractBits inst.instruction 31 20 &&& mask
  else sext64 (extractBits inst.instruction 31 20) 11

/-- What a shift takes of its immediate. -/
theorem immOf_shift {mask : BitVec 64}
    (h : inst.funct3 = funct3Sll ∨ inst.funct3 = funct3Sr) :
    immOf inst mask = extractBits inst.instruction 31 20 &&& mask :=
  if_pos h

/-- The other instructions take the immediate with its sign. -/
theorem immOf_of_ne {mask : BitVec 64} (hsll : inst.funct3 ≠ funct3Sll)
    (hsr : inst.funct3 ≠ funct3Sr) :
    immOf inst mask = sext64 (extractBits inst.instruction 31 20) 11 :=
  if_neg (not_or.mpr ⟨hsll, hsr⟩)

/-- The immediate of `addiw` is extended to 32 bits, or to 64 and cut. -/
theorem sext32_imm12 (w : BitVec 64) :
    sext32 ((extractBits w 31 20).setWidth 32) 11 =
      (sext64 (extractBits w 31 20) 11).setWidth 32 := by
  rw [extractBits_imm12, BitVec.setWidth_setWidth_of_le _ (by omega), sext32_setWidth _ (by omega),
    sext64_setWidth _ (by omega)]
  apply BitVec.eq_of_getLsbD_eq
  intro i hi
  rw [BitVec.getLsbD_setWidth, BitVec.getLsbD_signExtend, BitVec.getLsbD_signExtend,
    decide_eq_true hi, decide_eq_true (Nat.lt_trans hi (by omega)), Bool.true_and, Bool.true_and]

/-- On another function code `intimm` takes the immediate as the second register. -/
theorem arith_intimm (hop : inst.opcode = opIntimm) :
    (simArithLogic inst).arithResult =
      arithLogicResult (inst.registerForm (immOf inst 0x3F#64)) := by
  by_cases hsll : inst.funct3 = funct3Sll
  · rw [immOf_shift (.inl hsll)]
    simp only [simArithLogic, arithLogicResult, Instruction.registerForm, hop, hsll]
    rfl
  by_cases hsr : inst.funct3 = funct3Sr
  · rw [immOf_shift (.inr hsr)]
    simp only [simArithLogic, arithLogicResult, Instruction.registerForm, hop, hsr]
    rfl
  rw [immOf_of_ne hsll hsr]
  by_cases hadd : inst.funct3 = funct3Add
  · simp only [simArithLogic, arithLogicResult, Instruction.registerForm, hop, hadd]
    rfl
  · simp only [simArithLogic, arithLogicResult, Instruction.registerForm, hop, if_neg hadd,
      if_neg hsll, if_neg hsr]
    rfl

/-- On another function code `intimmw` does the same, with five bits for the amount of a shift.
-/
theorem arith_intimmw (hop : inst.opcode = opIntimmw) :
    (simArithLogic inst).arithResult =
      arithLogicResult (inst.registerForm (immOf inst 0x1F#64)) := by
  by_cases hsll : inst.funct3 = funct3Sll
  · rw [immOf_shift (.inl hsll)]
    simp only [simArithLogic, arithLogicResult, Instruction.registerForm, hop, hsll]
    rfl
  by_cases hsr : inst.funct3 = funct3Sr
  · rw [immOf_shift (.inr hsr)]
    simp only [simArithLogic, arithLogicResult, Instruction.registerForm, hop, hsr]
    rfl
  rw [immOf_of_ne hsll hsr]
  by_cases hadd : inst.funct3 = funct3Add
  · simp only [simArithLogic, arithLogicResult, Instruction.registerForm, hop, hadd, sext32_imm12]
    rfl
  · simp only [simArithLogic, arithLogicResult, Instruction.registerForm, hop, if_neg hadd,
      if_neg hsll, if_neg hsr]
    rfl

/-! What `UsesImm` says, opcode by opcode. -/

section Opcodes

variable {imm : BitVec 64}

/-- For the ALU instructions the immediate stands for the second register. -/
theorem usesImm_arith (hop : inst.opcode = opIntimm ∨ inst.opcode = opIntimmw) :
    UsesImm inst imm ↔
      (simArithLogic inst).arithResult = arithLogicResult (inst.registerForm imm) := by
  rw [UsesImm, if_pos hop]

/-- For loads and stores the immediate is added to the base register. -/
theorem usesImm_address (hop : inst.opcode = opLoad ∨ inst.opcode = opStore) :
    UsesImm inst imm ↔ (simAddrGen inst).memAddress = inst.op1Val + imm := by
  have hne : ¬ (inst.opcode = opIntimm ∨ inst.opcode = opIntimmw) := by
    rcases hop with h | h <;> rw [h] <;> decide
  rw [UsesImm, if_neg hne, if_pos hop]

/-- For `jalr` the immediate is added to the base register and the last bit cleared. -/
theorem usesImm_jalr (hop : inst.opcode = opJalr) :
    UsesImm inst imm ↔ resolvedPC inst = (inst.op1Val + imm) &&& ~~~1#64 := by
  rw [UsesImm, hop]
  rfl

/-- For a taken branch the immediate is the distance of the target. -/
theorem usesImm_branch (hop : inst.opcode = opBranch) :
    UsesImm inst imm ↔
      resolvedPC inst = if branchTaken inst then inst.PC + imm else inst.PC + 4 := by
  rw [UsesImm, hop]
  rfl

/-- For `jal` the immediate is the distance of the target. -/
theorem usesImm_jal (hop : inst.opcode = opJal) :
    UsesImm inst imm ↔ resolvedPC inst = inst.PC + imm := by
  rw [UsesImm, hop]
  rfl

/-- For `lui` the immediate is the result. -/
theorem usesImm_lui (hop : inst.opcode = opLui) :
    UsesImm inst imm ↔ (simArithLogic inst).arithResult = imm := by
  rw [UsesImm, hop]
  rfl

/-- For `auipc` the immediate is the distance of the result from its own PC. -/
theorem usesImm_auipc (hop : inst.opcode = opAuipc) :
    UsesImm inst imm ↔ (simArithLogic inst).arithResult = inst.PC + imm := by
  rw [UsesImm, hop]
  rfl

end Opcodes

end Execution

/-! ### The immediates that differ -/

section Immediates

variable (w : BitVec 64)

/-- The amount that is printed, and the one `slliw` takes. -/
theorem shamt_word :
    extractBits w 31 20 &&& 0x3F#64 = (w.extractLsb' 20 6).setWidth 64 ∧
      extractBits w 31 20 &&& 0x1F#64 = (w.extractLsb' 20 6).setWidth 64 &&& 0x1F#64 := by
  have hprinted : extractBits w 31 20 &&& 0x3F#64 = (w.extractLsb' 20 6).setWidth 64 := by
    apply BitVec.eq_of_toNat_eq
    rw [(and_mask_toNat _).1, extractBits_imm12, BitVec.setWidth_setWidth_of_le _ (by omega),
      BitVec.setWidth_extractLsb'_of_le (by omega), BitVec.toNat_setWidth]
    omega
  have hmasks : 0x1F#64 = 0x3F#64 &&& 0x1F#64 := by decide
  refine ⟨hprinted, ?_⟩
  rw [← hprinted, BitVec.and_assoc, ← hmasks]

/-- Bit 25 of the word, the last one of `funct7`, is the top bit of a six-bit shift amount. -/
theorem getLsbD_shamt : w.getLsbD 25 = (w.extractLsb' 20 6).getLsbD 5 := by
  rw [BitVec.getLsbD_extractLsb', decide_eq_true (by omega), Bool.true_and]

/-- The two agree on amounts below 32. -/
theorem mask_agree (h : w.getLsbD 25 = false) :
    extractBits w 31 20 &&& 0x3F#64 = extractBits w 31 20 &&& 0x1F#64 := by
  rw [getLsbD_shamt] at h
  rw [(shamt_word w).1, (shamt_word w).2]
  generalize w.extractLsb' 20 6 = shamt at h ⊢
  revert shamt
  decide

/-- An amount that is printed too large shifts a one out of its word. -/
theorem sllw_ne (h : w.getLsbD 25 = true) :
    sext64 (((1#32) <<< (extractBits w 31 20 &&& 0x1F#64).setWidth 32).setWidth 64) 31 ≠
      sext64 (((1#32) <<< (extractBits w 31 20 &&& 0x3F#64).setWidth 32).setWidth 64) 31 := by
  rw [getLsbD_shamt] at h
  rw [(shamt_word w).1, (shamt_word w).2]
  generalize w.extractLsb' 20 6 = shamt at h ⊢
  revert shamt
  decide +kernel

/-- The shift amount printed for `jalr` is its immediate when that is small, and leads to
another target otherwise. -/
theorem jalr_agree_iff :
    (((extractBits w 31 20 &&& 0x3F#64) &&& ~~~1#64 =
        sext64 (extractBits w 31 20) 11 &&& ~~~1#64) → w.extractLsb' 26 6 = 0) ∧
      (w.extractLsb' 26 6 = 0 →
        extractBits w 31 20 &&& 0x3F#64 = sext64 (extractBits w 31 20) 11) := by
  have hstart : 26 = 20 + 6 := by omega
  have hpieces : w.extractLsb' 20 12 = w.extractLsb' 26 6 ++ w.extractLsb' 20 6 :=
    (BitVec.extractLsb'_append_extractLsb'_eq_extractLsb' hstart).symm
  have hsext : sext64 (extractBits w 31 20) 11 =
      (w.extractLsb' 26 6 ++ w.extractLsb' 20 6).signExtend 64 := by
    rw [extractBits_imm12, ← hpieces]
    exact sext64_setWidth _ (by omega)
  rw [(shamt_word w).1, hsext]
  generalize w.extractLsb' 26 6 = upper
  generalize w.extractLsb' 20 6 = shamt
  constructor
  · intro heq
    apply BitVec.eq_of_getLsbD_eq
    intro i hi
    have hmask : ∀ i < 6, (~~~1#64).getLsbD (6 + i) = true := by decide
    -- bit `6 + i` of the one is clear, and of the other it is bit `i` of `upper`
    have hbit := congrArg (fun b : BitVec 64 => b.getLsbD (6 + i)) heq
    rw [BitVec.getLsbD_and, BitVec.getLsbD_and, hmask i hi, Bool.and_true, Bool.and_true,
      BitVec.getLsbD_setWidth, BitVec.getLsbD_of_ge shamt _ (by omega), Bool.and_false,
      BitVec.getLsbD_signExtend, decide_eq_true (by omega), Bool.true_and, if_pos (by omega),
      BitVec.getLsbD_append, if_neg (by omega), Nat.add_sub_cancel_left] at hbit
    exact hbit.symm.trans BitVec.getLsbD_zero.symm
  · rintro rfl
    revert shamt
    decide

/-- The bits of a sign-extended word above its own repeat its sign. -/
theorem getLsbD_signExtend_word (v : BitVec 32) {i : ℕ} (hi : i < 64) :
    (v.signExtend 64).getLsbD i = if i < 32 then v.getLsbD i else v.getLsbD 31 := by
  have hmsb : v.msb = v.getLsbD 31 := BitVec.msb_eq_getLsbD_last v
  rw [BitVec.getLsbD_signExtend, decide_eq_true hi, Bool.true_and, hmsb]

/-- What `sext64` makes of a word whose bit 19 is set. -/
theorem getLsbD_fill (v : BitVec 32) {i : ℕ} (hi : i < 64) :
    (v.setWidth 64 ||| ~~~0#64 <<< 20).getLsbD i = (v.getLsbD i || decide (20 ≤ i)) := by
  have hsub : i - 20 < 64 := by omega
  rw [BitVec.getLsbD_or, BitVec.getLsbD_setWidth, BitVec.getLsbD_shiftLeft,
    BitVec.getLsbD_not, BitVec.getLsbD_zero]
  by_cases hlow : i < 20
  · simp [hi, hlow]
  · simp [hi, hlow, hsub, Nat.le_of_not_lt hlow]

/-- The upper twelve bits of a word are all set iff each bit from 20 on is. -/
theorem upper_ones_iff (v : BitVec 32) :
    v.extractLsb' 20 12 = BitVec.allOnes 12 ↔ ∀ i, 20 ≤ i → i < 32 → v.getLsbD i = true := by
  constructor
  · intro hones i hlo hhi
    have hin : i - 20 < 12 := by omega
    have h := congrArg (fun b : BitVec 12 => b.getLsbD (i - 20)) hones
    rwa [BitVec.getLsbD_extractLsb', BitVec.getLsbD_allOnes, decide_eq_true hin,
      Bool.true_and, Nat.add_sub_cancel' hlo] at h
  · intro hrepeat
    apply BitVec.eq_of_getLsbD_eq
    intro i hi
    rw [BitVec.getLsbD_extractLsb', BitVec.getLsbD_allOnes, decide_eq_true hi, Bool.true_and,
      hrepeat _ (by omega) (by omega)]

/-- Extending the sign from bit 19 gives what extending it from bit 31 gives when the bits
from 20 on repeat bit 19. -/
theorem sext64_low_iff (v : BitVec 32) :
    sext64 (v.setWidth 64) 19 = v.signExtend 64 ↔
      if v.getLsbD 19 then v.extractLsb' 20 12 = BitVec.allOnes 12 else v.getLsbD 31 = false := by
  have hbit : (v.setWidth 64).getLsbD 19 = v.getLsbD 19 := by
    rw [BitVec.getLsbD_setWidth, decide_eq_true (by omega), Bool.true_and]
  rw [sext64]
  by_cases hlow : v.getLsbD 19 = true
  · rw [if_pos ((and_bit_ne_zero_iff (by omega)).mpr (hbit.trans hlow)), if_pos hlow,
      upper_ones_iff]
    constructor
    · intro heq i hlo hhi
      have h := getLsbD_signExtend_word v (Nat.lt_trans hhi (by omega))
      rw [← heq, getLsbD_fill v (by omega), if_pos hhi, decide_eq_true hlo, Bool.or_true] at h
      exact h.symm
    · intro hrepeat
      apply BitVec.eq_of_getLsbD_eq
      intro i hi
      rw [getLsbD_fill v hi, getLsbD_signExtend_word v hi]
      by_cases hin : i < 20
      · rw [if_pos (by omega), decide_eq_false (by omega), Bool.or_false]
      · rw [decide_eq_true (by omega), Bool.or_true]
        split
        · exact (hrepeat i (by omega) (by assumption)).symm
        · exact (hrepeat 31 (by omega) (by omega)).symm
  · rw [if_neg (fun h => hlow (hbit.symm.trans ((and_bit_ne_zero_iff (by omega)).mp h))),
      if_neg hlow]
    constructor
    · intro heq
      have hhigh := getLsbD_signExtend_word v (i := 32) (by omega)
      rw [← heq, if_neg (by omega), BitVec.getLsbD_setWidth,
        BitVec.getLsbD_of_ge v 32 le_rfl, Bool.and_false] at hhigh
      exact hhigh.symm
    · intro hhigh
      have hmsb : v.msb = v.getLsbD 31 := BitVec.msb_eq_getLsbD_last v
      exact (BitVec.signExtend_eq_setWidth_of_msb_false (hmsb.trans hhigh)).symm

/-- The upper immediate as printed and as executed. -/
theorem upper_agree_iff :
    sext64 (extractBits w 31 12 <<< 12) 19 = sext64 (extractBits w 31 12 <<< 12) 31 ↔
      if w.getLsbD 19 then w.extractLsb' 20 12 = BitVec.allOnes 12 else w.getLsbD 31 = false := by
  have hfield : extractBits w 31 12 = (w.extractLsb' 12 20).setWidth 64 :=
    extractBits_word w (by omega) (by omega)
  have happend : (w.extractLsb' 12 20).setWidth 64 <<< 12 =
      (w.extractLsb' 12 20 ++ 0#12).setWidth 64 := by
    rw [setWidth_append]
    simp
  have hbit : ∀ i, 12 ≤ i → i < 32 → (w.extractLsb' 12 20 ++ 0#12).getLsbD i = w.getLsbD i := by
    intro i hlo hhi
    rw [BitVec.getLsbD_append, if_neg (by omega), BitVec.getLsbD_extractLsb',
      decide_eq_true (by omega), Bool.true_and, Nat.add_sub_cancel' hlo]
  have hhigh : (w.extractLsb' 12 20 ++ 0#12).extractLsb' 20 12 = w.extractLsb' 20 12 := by
    apply BitVec.eq_of_getLsbD_eq
    intro i hi
    rw [BitVec.getLsbD_extractLsb', BitVec.getLsbD_extractLsb', hbit _ (by omega) (by omega)]
  rw [hfield, sext64_upper, happend, sext64_low_iff, hbit 19 (by omega) (by omega),
    hbit 31 (by omega) (by omega), hhigh]

end Immediates

/-! ### Words -/

section Words

variable {w : BitVec 64}

/-- A word that is accepted has the flags of its class. -/
theorem accepted_of_isLegal {d accepted : DecodeInfo} {legal : Bool}
    (h : decodeOpcode d = if legal = true then accepted else { d with isLegal := false })
    (hlegal : (decodeOpcode d).isLegal = true) : legal = true ∧ decodeOpcode d = accepted := by
  cases legal with
  | false =>
      rw [h] at hlegal
      exact Bool.noConfusion hlegal
  | true => exact ⟨rfl, h⟩

/-- A decoded instruction with the word `w`. -/
structure Decoded (w : BitVec 64) (inst : Instruction) : Prop where
  word : inst.instruction = w
  opcode : inst.opcode = (wordInfo w).opcode
  funct3 : inst.funct3 = (wordInfo w).funct3
  funct7 : inst.funct7 = (wordInfo w).funct7
  rd : inst.rd = (wordInfo w).rd

/-- What the decoder makes of a word other than HALT and `nop` keeps the fields that were cut out
of it. -/
theorem Decoded.of_decodeOf {inst : Instruction} (hhalt : w ≠ haltWord) (hnop : w ≠ nopWord)
    (hword : inst.instruction = w) (hd : inst.toDecodeInfo = decodeOf w) : Decoded w inst := by
  obtain ⟨hopcode, hf3, hf7, hrd⟩ := decodeOpcode_fields (wordInfo w)
  rw [decodeOf_wordInfo hhalt hnop] at hd
  exact ⟨hword, by rw [hd, hopcode], by rw [hd, hf3], by rw [hd, hf7], by rw [hd, hrd]⟩

/-! The fields that hold the two parts of the immediate of a store or a branch. -/

/-- The upper part of the immediate lies in `funct7`, so the execution finds it there. -/
theorem Decoded.imm7 {inst : Instruction} (h : Decoded w inst) :
    inst.funct7.setWidth 64 = extractBits w 31 25 := by
  rw [h.funct7]
  exact extractBits_field w (by omega) (by omega)

/-- The lower part of the immediate lies in `rd`, so the execution finds it there. -/
theorem Decoded.imm5 {inst : Instruction} (h : Decoded w inst) :
    inst.rd.setWidth 64 = extractBits w 11 7 := by
  rw [h.rd]
  exact extractBits_field w (by omega) (by omega)

/-- A decoded instruction with the word `w` and a first operand. -/
def decodedWith (w op1Val : BitVec 64) : Instruction where
  toDecodeInfo := decodeOf w
  instruction := w
  op1Val := op1Val

/-- Where the registers agree and one number is printed, all depends on what that number is to
the execution. -/
theorem operandsAgree_iff {regs : List (BitVec 5)} {n : ℤ}
    (hreg : ¬ ((decodeOf w).opcode = opInt ∨ (decodeOf w).opcode = opIntw))
    (hprints : Prints w regs [n]) (hregs : (decodeOf w).operandRegs = regs) :
    OperandsAgree w ↔
      ∀ inst : Instruction, inst.instruction = w → inst.toDecodeInfo = decodeOf w →
        UsesImm inst (BitVec.ofInt 64 n) := by
  constructor
  · intro hagree
    obtain ⟨m, hm, huses⟩ := (if_neg hreg).mp hagree.imm
    rw [hprints.nums, List.singleton_inj] at hm
    rwa [hm]
  · intro huses
    refine ⟨hprints.regs.trans hregs.symm, ?_⟩
    rw [if_neg hreg]
    exact ⟨n, hprints.nums, huses⟩

/-- The number printed for a 12-bit immediate, as a 64-bit value; shifts print six bits of it. -/
theorem ofInt_printedImm12 {inst : Instruction} (h : Decoded w inst) :
    BitVec.ofInt 64 (printedImm12 w) = immOf inst 0x3F#64 := by
  rw [printedImm12, immOf, h.word, h.funct3]
  split
  · rw [BitVec.ofInt_natCast, BitVec.ofNat_toNat, BitVec.setWidth_eq]
  · rw [BitVec.ofInt_toInt]

/-! The classes: the flags of an accepted word, and what the printed immediate is to the
execution. -/

/-- A word that is shown is legal, so its arm of the `switch` accepted it. -/
theorem Shown.accepted {accepted : DecodeInfo} {legal : Bool} (hw : Shown w)
    (h : decodeOpcode (wordInfo w) =
      if legal = true then accepted else { wordInfo w with isLegal := false }) :
    legal = true ∧ decodeOf w = accepted := by
  have hlegal := hw.isLegal
  rw [decodeOf_wordInfo hw.ne_halt hw.ne_nop] at hlegal ⊢
  exact accepted_of_isLegal h hlegal

/-- A word that is shown is neither HALT nor `nop`, so its fields are kept. -/
theorem Shown.decoded {inst : Instruction} (hw : Shown w) (hword : inst.instruction = w)
    (hd : inst.toDecodeInfo = decodeOf w) : Decoded w inst :=
  .of_decodeOf hw.ne_halt hw.ne_nop hword hd

/-- The opcode is not that of an instruction on two registers. -/
theorem Shown.not_reg (hw : Shown w)
    (h : ¬ ((wordInfo w).opcode = opInt ∨ (wordInfo w).opcode = opIntw)) :
    ¬ ((decodeOf w).opcode = opInt ∨ (decodeOf w).opcode = opIntw) := by
  rw [decodeOf_wordInfo hw.ne_halt hw.ne_nop, (decodeOpcode_fields _).1]
  exact h

/-- The instructions on two registers are printed as they are executed. -/
theorem operandsAgree_reg (hw : Shown w)
    (hopcode : (wordInfo w).opcode = opInt ∨ (wordInfo w).opcode = opIntw) :
    OperandsAgree w := by
  have hprints := prints_reg hw hopcode
  have hd : decodeOf w = { wordInfo w with
      doesArithLogic := true, writesRd := true, readsRs1 := true, readsRs2 := true } := by
    rcases hopcode with h | h
    · exact (hw.accepted (decodeOpcode_int h)).2
    · exact (hw.accepted (decodeOpcode_intw h)).2
  refine ⟨by rw [hprints.regs, hd]; rfl, ?_⟩
  rw [hd, if_pos hopcode]
  exact hprints.nums

/-- The register-immediate instructions are printed as they are executed, shifts included. -/
theorem operandsAgree_intimm (hw : Shown w) (hopcode : (wordInfo w).opcode = opIntimm) :
    OperandsAgree w := by
  have hregs : (decodeOf w).operandRegs = [(wordInfo w).rd, (wordInfo w).rs1] := by
    rw [(hw.accepted (decodeOpcode_intimm hopcode)).2]
    rfl
  have hreg := hw.not_reg (by rw [hopcode]; decide)
  refine (operandsAgree_iff hreg (prints_imm hw (.inl hopcode)) hregs).mpr ?_
  intro inst hword hinst
  have hdec := hw.decoded hword hinst
  have hi : inst.opcode = opIntimm := hdec.opcode.trans hopcode
  rw [usesImm_arith (.inl hi), ofInt_printedImm12 hdec]
  exact arith_intimm hi

/-- The right shifts of a word have an amount below 32. -/
theorem bit_funct7_of_legal (hlegal : legalIntimmw (wordInfo w) = true)
    (hsr : (wordInfo w).funct3 = funct3Sr) : w.getLsbD 25 ≠ true := by
  have hfield : extractBits w 31 25 = (w.extractLsb' 25 7).setWidth 64 :=
    extractBits_word w (by omega) (by omega)
  have hf7 : (wordInfo w).funct7 = w.extractLsb' 25 7 := by
    rw [wordInfo, hfield, BitVec.setWidth_setWidth_of_le _ (by omega), BitVec.setWidth_eq]
  have hbit : w.getLsbD 25 = (w.extractLsb' 25 7).getLsbD 0 := by
    rw [BitVec.getLsbD_extractLsb', decide_eq_true (by omega), Bool.true_and]
  rw [legalIntimmw, hsr, hf7] at hlegal
  rw [hbit]
  generalize w.extractLsb' 25 7 = funct7 at hlegal ⊢
  revert funct7
  decide

/-- `slliw` with an amount of 32 or more is printed with another one than it takes. -/
theorem operandsAgree_intimmw (hw : Shown w) (hopcode : (wordInfo w).opcode = opIntimmw) :
    OperandsAgree w ↔ ¬ ((wordInfo w).funct3 = funct3Sll ∧ w.getLsbD 25 = true) := by
  obtain ⟨hlegal, haccepted⟩ := hw.accepted (decodeOpcode_intimmw hopcode)
  have hregs : (decodeOf w).operandRegs = [(wordInfo w).rd, (wordInfo w).rs1] := by
    rw [haccepted]
    rfl
  have hreg := hw.not_reg (by rw [hopcode]; decide)
  rw [operandsAgree_iff hreg (prints_imm hw (.inr (.inl hopcode))) hregs]
  constructor
  · rintro huses ⟨hsll, hbit⟩
    have hdec : Decoded w (decodedWith w 1) := hw.decoded rfl rfl
    have hi : (decodedWith w 1).opcode = opIntimmw := hdec.opcode.trans hopcode
    have hshift : (decodedWith w 1).funct3 = funct3Sll := hdec.funct3.trans hsll
    have h := huses (decodedWith w 1) rfl rfl
    rw [usesImm_arith (.inr hi), ofInt_printedImm12 hdec, arith_intimmw hi,
      immOf_shift (.inl hshift), immOf_shift (.inl hshift)] at h
    simp only [arithLogicResult, Instruction.registerForm, hi, hshift] at h
    exact sllw_ne w hbit h
  · intro hnot inst hword hinst
    have hdec := hw.decoded hword hinst
    have hi : inst.opcode = opIntimmw := hdec.opcode.trans hopcode
    rw [usesImm_arith (.inr hi), ofInt_printedImm12 hdec, arith_intimmw hi]
    suffices himm : immOf inst 0x1F#64 = immOf inst 0x3F#64 by rw [himm]
    by_cases hshift : inst.funct3 = funct3Sll ∨ inst.funct3 = funct3Sr
    · rw [immOf_shift hshift, immOf_shift hshift, hdec.word]
      refine (mask_agree w (Bool.eq_false_iff.mpr fun hbit => ?_)).symm
      rw [hdec.funct3] at hshift
      have hsr : (wordInfo w).funct3 = funct3Sr := hshift.resolve_left fun h => hnot ⟨h, hbit⟩
      exact bit_funct7_of_legal hlegal hsr hbit
    · rw [not_or] at hshift
      rw [immOf_of_ne hshift.1 hshift.2, immOf_of_ne hshift.1 hshift.2]

/-- `jalr` with the function code of a shift has its immediate printed as a shift amount. -/
theorem operandsAgree_jalr (hw : Shown w) (hopcode : (wordInfo w).opcode = opJalr) :
    OperandsAgree w ↔
      ¬ (((wordInfo w).funct3 = funct3Sll ∨ (wordInfo w).funct3 = funct3Sr) ∧
        w.extractLsb' 26 6 ≠ 0) := by
  have hregs : (decodeOf w).operandRegs = [(wordInfo w).rd, (wordInfo w).rs1] := by
    rw [decodeOf_wordInfo hw.ne_halt hw.ne_nop, decodeOpcode_jalr hopcode]
    rfl
  have hreg := hw.not_reg (by rw [hopcode]; decide)
  rw [operandsAgree_iff hreg (prints_imm hw (.inr (.inr hopcode))) hregs]
  have hresolved : ∀ inst : Instruction, Decoded w inst → inst.opcode = opJalr →
      resolvedPC inst = (inst.op1Val + sext64 (extractBits w 31 20) 11) &&& ~~~1#64 := by
    intro inst hdec hi
    rw [resolvedPC, if_pos hi, hdec.word]
  constructor
  · rintro huses ⟨hshift, hupper⟩
    have hdec : Decoded w (decodedWith w 0) := hw.decoded rfl rfl
    have hi : (decodedWith w 0).opcode = opJalr := hdec.opcode.trans hopcode
    have h := huses (decodedWith w 0) rfl rfl
    rw [usesImm_jalr hi, ofInt_printedImm12 hdec, hresolved _ hdec hi,
      immOf_shift (by rwa [hdec.funct3])] at h
    have hzero : ∀ x : BitVec 64, (decodedWith w 0).op1Val + x = x := fun x => BitVec.zero_add x
    rw [hzero, hzero] at h
    exact hupper ((jalr_agree_iff w).1 h.symm)
  · intro hnot inst hword hinst
    have hdec := hw.decoded hword hinst
    have hi : inst.opcode = opJalr := hdec.opcode.trans hopcode
    rw [usesImm_jalr hi, ofInt_printedImm12 hdec, hresolved _ hdec hi]
    by_cases hshift : inst.funct3 = funct3Sll ∨ inst.funct3 = funct3Sr
    · rw [immOf_shift hshift, hdec.word]
      rw [hdec.funct3] at hshift
      have hupper : w.extractLsb' 26 6 = 0 := by
        by_contra h
        exact hnot ⟨hshift, h⟩
      rw [(jalr_agree_iff w).2 hupper]
    · rw [not_or] at hshift
      rw [immOf_of_ne hshift.1 hshift.2, hdec.word]

/-- Loads are printed as they are executed. -/
theorem operandsAgree_load (hw : Shown w) (hopcode : (wordInfo w).opcode = opLoad) :
    OperandsAgree w := by
  have hd := (hw.accepted (decodeOpcode_load hopcode)).2
  have hregs : (decodeOf w).operandRegs = [(wordInfo w).rd, (wordInfo w).rs1] := by
    rw [hd]
    rfl
  have hreg := hw.not_reg (by rw [hopcode]; decide)
  refine (operandsAgree_iff hreg (prints_load hw hopcode) hregs).mpr ?_
  intro inst hword hinst
  have hload : inst.readsMem = true := by rw [hinst, hd]
  rw [usesImm_address (.inl ((hw.decoded hword hinst).opcode.trans hopcode)), BitVec.ofInt_toInt,
    simAddrGen, if_pos hload, hword]

/-- Stores are printed as they are executed. -/
theorem operandsAgree_store (hw : Shown w) (hopcode : (wordInfo w).opcode = opStore) :
    OperandsAgree w := by
  have hd := (hw.accepted (decodeOpcode_store hopcode)).2
  have hregs : (decodeOf w).operandRegs = [(wordInfo w).rs2, (wordInfo w).rs1] := by
    rw [hd]
    rfl
  have hreg := hw.not_reg (by rw [hopcode]; decide)
  refine (operandsAgree_iff hreg (prints_store hw hopcode) hregs).mpr ?_
  intro inst hword hinst
  have hdec := hw.decoded hword hinst
  have hload : ¬ inst.readsMem = true := by
    rw [hinst, hd]
    exact Bool.noConfusion
  have hstore : inst.writesMem = true := by rw [hinst, hd]
  rw [usesImm_address (.inr (hdec.opcode.trans hopcode)), BitVec.ofInt_toInt, simAddrGen,
    if_neg hload, if_pos hstore, hdec.imm7, hdec.imm5]

/-- Branches are printed as they are executed. -/
theorem operandsAgree_branch (hw : Shown w) (hopcode : (wordInfo w).opcode = opBranch) :
    OperandsAgree w := by
  have hd := (hw.accepted (decodeOpcode_branch hopcode)).2
  have hregs : (decodeOf w).operandRegs = [(wordInfo w).rs1, (wordInfo w).rs2] := by
    rw [hd]
    rfl
  have hreg := hw.not_reg (by rw [hopcode]; decide)
  refine (operandsAgree_iff hreg (prints_branch hw hopcode) hregs).mpr ?_
  intro inst hword hinst
  have hdec := hw.decoded hword hinst
  have hi : inst.opcode = opBranch := hdec.opcode.trans hopcode
  rw [usesImm_branch hi, BitVec.ofInt_toInt, resolvedPC, if_neg (by rw [hi]; decide), if_pos hi,
    hdec.imm7, hdec.imm5, branchOffset]

/-- `jal` is printed as it is executed. -/
theorem operandsAgree_jal (hw : Shown w) (hopcode : (wordInfo w).opcode = opJal) :
    OperandsAgree w := by
  have hregs : (decodeOf w).operandRegs = [(wordInfo w).rd] := by
    rw [decodeOf_wordInfo hw.ne_halt hw.ne_nop, decodeOpcode_upper (.inr (.inr hopcode))]
    rfl
  have hreg := hw.not_reg (by rw [hopcode]; decide)
  refine (operandsAgree_iff hreg (prints_jal hw hopcode) hregs).mpr ?_
  intro inst hword hinst
  have hi : inst.opcode = opJal := (hw.decoded hword hinst).opcode.trans hopcode
  rw [usesImm_jal hi, BitVec.ofInt_toInt, resolvedPC, if_neg (by rw [hi]; decide),
    if_neg (by rw [hi]; decide), if_pos hi, hword, jalOffset]

/-- `lui` and `auipc` have the sign of their immediate taken from bit 19. -/
theorem operandsAgree_upper (hw : Shown w)
    (hopcode : (wordInfo w).opcode = opLui ∨ (wordInfo w).opcode = opAuipc) :
    OperandsAgree w ↔
      if w.getLsbD 19 then w.extractLsb' 20 12 = BitVec.allOnes 12 else w.getLsbD 31 = false := by
  have hregs : (decodeOf w).operandRegs = [(wordInfo w).rd] := by
    rw [decodeOf_wordInfo hw.ne_halt hw.ne_nop,
      decodeOpcode_upper (hopcode.elim (fun h => .inr (.inl h)) .inl)]
    rfl
  have hreg := hw.not_reg (by rcases hopcode with h | h <;> rw [h] <;> decide)
  rw [operandsAgree_iff hreg (prints_upper hw hopcode) hregs, ← upper_agree_iff,
    BitVec.ofInt_toInt]
  -- the result of the one opcode is the immediate, of the other the PC plus the immediate
  have huses : ∀ inst : Instruction, Decoded w inst →
      (UsesImm inst (sext64 (extractBits w 31 12 <<< 12) 19) ↔
        sext64 (extractBits w 31 12 <<< 12) 19 = sext64 (extractBits w 31 12 <<< 12) 31) := by
    intro inst hdec
    rcases hopcode with h | h
    · have hi : inst.opcode = opLui := hdec.opcode.trans h
      have hresult : (simArithLogic inst).arithResult =
          sext64 (extractBits w 31 12 <<< 12) 31 := by
        simp only [simArithLogic, arithLogicResult, hi, hdec.word]
        rfl
      rw [usesImm_lui hi, hresult]
      exact eq_comm
    · have hi : inst.opcode = opAuipc := hdec.opcode.trans h
      have hresult : (simArithLogic inst).arithResult =
          inst.PC + sext64 (extractBits w 31 12 <<< 12) 31 := by
        simp only [simArithLogic, arithLogicResult, hi, hdec.word]
        rfl
      rw [usesImm_auipc hi, hresult, BitVec.add_right_inj]
      exact eq_comm
  constructor
  · intro h
    have hdec : Decoded w (decodedWith w 0) := hw.decoded rfl rfl
    exact (huses _ hdec).mp (h _ rfl rfl)
  · intro h inst hword hinst
    exact (huses inst (hw.decoded hword hinst)).mpr h

/-- The words whose immediate is printed as another one than they are executed with:

* `slliw` with bit 25 set, whose amount is printed with six bits and taken with five;
* `jalr` with the function code of a shift, whose immediate is printed as an amount, and is
  larger than that;
* `lui` and `auipc` where the bits from 20 on do not repeat bit 19, from which the printer
  extends the sign. -/
def Misprinted (w : BitVec 64) : Prop :=
  (wordInfo w).opcode = opIntimmw ∧ (wordInfo w).funct3 = funct3Sll ∧ w.getLsbD 25 = true ∨
    (wordInfo w).opcode = opJalr ∧
      ((wordInfo w).funct3 = funct3Sll ∨ (wordInfo w).funct3 = funct3Sr) ∧
      w.extractLsb' 26 6 ≠ 0 ∨
    ((wordInfo w).opcode = opLui ∨ (wordInfo w).opcode = opAuipc) ∧
      ¬ if w.getLsbD 19 then w.extractLsb' 20 12 = BitVec.allOnes 12 else w.getLsbD 31 = false

instance : Decidable (Misprinted w) :=
  inferInstanceAs (Decidable (_ ∨ _ ∧ _ ∧ _ ∨ _ ∧ ¬ ite _ _ _))

/-- The operands printed for a word with a mnemonic are the executed ones, unless the word
is misprinted. -/
theorem operandsAgree_iff_not_misprinted (hw : Shown w) :
    OperandsAgree w ↔ ¬ Misprinted w := by
  by_cases himmw : (wordInfo w).opcode = opIntimmw
  · rw [operandsAgree_intimmw hw himmw, Misprinted, himmw]
    simp [show opIntimmw ≠ opJalr by decide, show opIntimmw ≠ opLui by decide,
      show opIntimmw ≠ opAuipc by decide]
  by_cases hjalr : (wordInfo w).opcode = opJalr
  · rw [operandsAgree_jalr hw hjalr, Misprinted, hjalr]
    simp [show opJalr ≠ opIntimmw by decide, show opJalr ≠ opLui by decide,
      show opJalr ≠ opAuipc by decide]
  by_cases hupper : (wordInfo w).opcode = opLui ∨ (wordInfo w).opcode = opAuipc
  · rw [operandsAgree_upper hw hupper, Misprinted, or_iff_right (fun h => himmw h.1),
      or_iff_right (fun h => hjalr h.1), and_iff_right hupper, not_not]
  -- the other classes print what they execute
  refine iff_of_true ?_ (by simp [Misprinted, himmw, hjalr, hupper])
  by_cases hreg : (wordInfo w).opcode = opInt ∨ (wordInfo w).opcode = opIntw
  · exact operandsAgree_reg hw hreg
  by_cases himm : (wordInfo w).opcode = opIntimm
  · exact operandsAgree_intimm hw himm
  by_cases hload : (wordInfo w).opcode = opLoad
  · exact operandsAgree_load hw hload
  by_cases hstore : (wordInfo w).opcode = opStore
  · exact operandsAgree_store hw hstore
  by_cases hbranch : (wordInfo w).opcode = opBranch
  · exact operandsAgree_branch hw hbranch
  by_cases hjal : (wordInfo w).opcode = opJal
  · exact operandsAgree_jal hw hjal
  · have hlegal := hw.isLegal
    rw [not_or] at hreg hupper
    rw [decodeOf_wordInfo hw.ne_halt hw.ne_nop, decodeOpcode_other (by
      simp [himmw, hjalr, hupper.1, hupper.2, hreg.1, hreg.2, himm, hload, hstore, hbranch,
        hjal])] at hlegal
    exact Bool.noConfusion hlegal

end Words

/-- **The trace prints the operands that are executed, but for the misprinted words.** -/
theorem trace_operands_iff {w : BitVec 32} {status : StageStatus} {inst : Instruction}
    (hfresh : inst.toDecodeInfo = {}) (hword : inst.instruction = w.setWidth 64)
    (hhalt : w ≠ 0xfeedfeed#32) (hnop : w ≠ 0x00000013#32)
    (hlegal : (simDecode inst).isLegal = true) (hshown : ¬ SaysIllegal (printInstr w status)) :
    OperandsAgree (w.setWidth 64) ↔ ¬ Misprinted (w.setWidth 64) := by
  have hhalt' : w.setWidth 64 ≠ haltWord := fun h => hhalt (setWidth_inj h)
  have hnop' : w.setWidth 64 ≠ nopWord := fun h => hnop (setWidth_inj h)
  rw [simDecode_eq hfresh, hword] at hlegal
  rw [printInstr_illegal hhalt' hnop'] at hshown
  exact operandsAgree_iff_not_misprinted ⟨hhalt', hnop', hlegal, hshown⟩

/-- `lui a0, 1` is printed as it is executed. -/
theorem trace_operands_lui : OperandsAgree 0x00001537 :=
  (@trace_operands_iff 0x00001537 .normal { instruction := 0x00001537 } rfl rfl (by decide)
    (by decide) (by decide) (by decide +kernel)).mpr (by decide)

/-- `lui a0, 0x80` writes `0x80000`, and is printed with `-0x80000`. -/
theorem trace_operands_lui_negative :
    (simDecode { instruction := 0x00080537 }).isLegal = true ∧
      ¬ SaysIllegal (printInstr 0x00080537 .normal) ∧ ¬ OperandsAgree 0x00080537 := by
  refine ⟨by decide, by decide +kernel, fun h => ?_⟩
  exact (operandsAgree_iff_not_misprinted ⟨by decide, by decide, by decide, by decide⟩).mp h
    (by decide)

end RvPipeSim
