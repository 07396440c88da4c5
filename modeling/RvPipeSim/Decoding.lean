import RvPipeSim.BitFields
import RvPipeSim.Lib.Rv64i
import RvPipeSim.Stages

/-!
# Which words decode as legal

`simDecode` against the encoding of the instruction set. On the six fields of a word,
`decodeOf_rType` says what is decoded, and the word is a valid encoding when it is
`encode` of some instruction.

Every valid encoding is accepted. The fields the source does not look at are listed in
`Unchecked`: a word with a reserved value there is accepted as well, which is how `mulh`
and `jalr` with a stray `funct3` get through while `mul` traps.
-/

namespace RvPipeSim

open Rv64i

/-! ### The fields `simDecode` finds -/

/-- What `simDecode` cuts out of a 32-bit word, as a field of its width. -/
theorem field_extractBits (w : BitVec 32) {hi lo n : ℕ} (hn : hi - lo + 1 = n) (hn' : n ≤ 64) :
    (extractBits (w.setWidth 64) hi lo).setWidth n = w.extractLsb' lo n := by
  rw [extractBits_setWidth w hn hn' (by omega), BitVec.setWidth_setWidth_of_le _ hn',
    BitVec.setWidth_eq]

/-- A fetched word survives the 64-bit register that holds it. -/
theorem setWidth_word (w : BitVec 32) : (w.setWidth 64).setWidth 32 = w := by
  rw [BitVec.setWidth_setWidth_of_le _ (by omega), BitVec.setWidth_eq]

/-- Words are told apart by their 64-bit values. -/
theorem setWidth_inj {v w : BitVec 32} (h : v.setWidth 64 = w.setWidth 64) : v = w := by
  rw [← setWidth_word v, h, setWidth_word]

section Fields

variable {funct7 : BitVec 7} {rs2 rs1 rd : BitVec 5} {funct3 : BitVec 3} {opcode : BitVec 7}

/-- The fields of a word, before the `switch`. -/
def fieldInfo (funct7 : BitVec 7) (rs2 rs1 : BitVec 5) (funct3 : BitVec 3) (rd : BitVec 5)
    (opcode : BitVec 7) : DecodeInfo where
  opcode := opcode
  funct3 := funct3
  funct7 := funct7
  rd := rd
  rs1 := rs1
  rs2 := rs2

/-- A word that is neither HALT nor NOP goes through the `switch` with its fields. -/
theorem decodeOf_rType
    (hhalt : (rType funct7 rs2 rs1 funct3 rd opcode).setWidth 64 ≠ haltWord)
    (hnop : (rType funct7 rs2 rs1 funct3 rd opcode).setWidth 64 ≠ nopWord) :
    decodeOf ((rType funct7 rs2 rs1 funct3 rd opcode).setWidth 64) =
      decodeOpcode (fieldInfo funct7 rs2 rs1 funct3 rd opcode) := by
  rw [decodeOf, decodeWord, if_neg hhalt, if_neg hnop,
    field_extractBits _ (by omega) (by omega), opcode_rType,
    field_extractBits _ (by omega) (by omega), funct3_rType,
    field_extractBits _ (by omega) (by omega), funct7_rType,
    field_extractBits _ (by omega) (by omega), rd_rType,
    field_extractBits _ (by omega) (by omega), rs1_rType,
    field_extractBits _ (by omega) (by omega), rs2_rType]
  rfl

/-- A word that is `v` has the fields of `v`. -/
theorem fields_of_word {v : BitVec 32}
    (h : (rType funct7 rs2 rs1 funct3 rd opcode).setWidth 64 = v.setWidth 64) :
    opcode = v.extractLsb' 0 7 ∧ rd = v.extractLsb' 7 5 := by
  rw [← setWidth_inj h]
  exact ⟨opcode_rType.symm, rd_rType.symm⟩

/-- A word of another opcode is not the `nop`. -/
theorem ne_nopWord (hop : opcode ≠ opIntimm) :
    (rType funct7 rs2 rs1 funct3 rd opcode).setWidth 64 ≠ nopWord := by
  intro h
  have hword : nopWord = (0x00000013#32).setWidth 64 := by decide
  exact hop ((fields_of_word (h.trans hword)).1.trans (by decide))

/-- The same for a word whose opcode is not HALT's. -/
theorem decodeOf_of_switch {d : DecodeInfo}
    (hnop : (rType funct7 rs2 rs1 funct3 rd opcode).setWidth 64 ≠ nopWord)
    (hop : opcode ≠ 0b1101101)
    (hswitch : decodeOpcode (fieldInfo funct7 rs2 rs1 funct3 rd opcode) = d) :
    decodeOf ((rType funct7 rs2 rs1 funct3 rd opcode).setWidth 64) = d := by
  refine (decodeOf_rType (fun h => hop ?_) hnop).trans hswitch
  have hword : haltWord = (0xfeedfeed#32).setWidth 64 := by decide
  exact (fields_of_word (h.trans hword)).1.trans (by decide)

/-! ### The `switch`, opcode by opcode -/

section Switch

variable {d : DecodeInfo}

/-- `OP_INT`: the flags of an instruction on two registers, if it is accepted. -/
theorem decodeOpcode_int (h : d.opcode = opInt) :
    decodeOpcode d =
      if legalInt d then
        { d with doesArithLogic := true, writesRd := true, readsRs1 := true, readsRs2 := true }
      else { d with isLegal := false } := by
  rw [decodeOpcode, h]
  rfl

/-- `OP_INTW`: the same, on words. -/
theorem decodeOpcode_intw (h : d.opcode = opIntw) :
    decodeOpcode d =
      if legalIntw d then
        { d with doesArithLogic := true, writesRd := true, readsRs1 := true, readsRs2 := true }
      else { d with isLegal := false } := by
  rw [decodeOpcode, h]
  rfl

/-- `OP_LOAD`: an access that reads memory, and no result of the ALU. -/
theorem decodeOpcode_load (h : d.opcode = opLoad) :
    decodeOpcode d =
      if legalLoad d then { d with readsRs1 := true, writesRd := true, readsMem := true }
      else { d with isLegal := false } := by
  rw [decodeOpcode, h]
  rfl

/-- `OP_INTIMM`: one register and an immediate. -/
theorem decodeOpcode_intimm (h : d.opcode = opIntimm) :
    decodeOpcode d =
      if legalIntimm d then { d with doesArithLogic := true, writesRd := true, readsRs1 := true }
      else { d with isLegal := false } := by
  rw [decodeOpcode, h]
  rfl

/-- `OP_INTIMMW`: the same, on words. -/
theorem decodeOpcode_intimmw (h : d.opcode = opIntimmw) :
    decodeOpcode d =
      if legalIntimmw d then
        { d with doesArithLogic := true, writesRd := true, readsRs1 := true }
      else { d with isLegal := false } := by
  rw [decodeOpcode, h]
  rfl

/-- `OP_JALR` is accepted with any `funct3`. -/
theorem decodeOpcode_jalr (h : d.opcode = opJalr) :
    decodeOpcode d =
      { d with isLegal := true, doesArithLogic := true, writesRd := true, readsRs1 := true } := by
  rw [decodeOpcode, h]
  rfl

/-- `OP_STORE`: an access that writes memory, and no destination. -/
theorem decodeOpcode_store (h : d.opcode = opStore) :
    decodeOpcode d =
      if legalStore d then { d with readsRs1 := true, readsRs2 := true, writesMem := true }
      else { d with isLegal := false } := by
  rw [decodeOpcode, h]
  rfl

/-- `OP_BRANCH`: two registers are read, nothing is written. -/
theorem decodeOpcode_branch (h : d.opcode = opBranch) :
    decodeOpcode d =
      if legalBranch d then { d with readsRs1 := true, readsRs2 := true }
      else { d with isLegal := false } := by
  rw [decodeOpcode, h]
  rfl

/-- The opcodes with a 20-bit immediate read no register and are always accepted. -/
theorem decodeOpcode_upper (h : d.opcode = opAuipc ∨ d.opcode = opLui ∨ d.opcode = opJal) :
    decodeOpcode d = { d with isLegal := true, doesArithLogic := true, writesRd := true } := by
  rcases h with h | h | h
  all_goals
    rw [decodeOpcode, h]
    rfl

/-- No other opcode is accepted. -/
theorem decodeOpcode_other
    (h : d.opcode ∉ [opInt, opIntw, opLoad, opIntimm, opIntimmw, opJalr, opStore, opBranch,
      opAuipc, opLui, opJal]) : decodeOpcode d = { d with isLegal := false } := by
  simp only [List.mem_cons, List.not_mem_nil, or_false, not_or] at h
  obtain ⟨h1, h2, h3, h4, h5, h6, h7, h8, hupper⟩ := h
  rw [decodeOpcode, if_neg h1, if_neg h2, if_neg h3, if_neg h4, if_neg h5, if_neg h6, if_neg h7,
    if_neg h8, if_neg (by simpa using hupper)]

end Switch

/-! ### Accepted words -/

/-- The fields of a word that no instruction has and that `simDecode` lets through:

* `funct7` of `OP` is looked at for `add`, `sub` and the right shifts only, and there
  without its last bit;
* `funct7` of `sllw` and `slliw` and the upper immediate of `slli` are not looked at;
* nor is `funct3` of `jalr`. -/
def Unchecked (funct7 : BitVec 7) (funct3 : BitVec 3) (opcode : BitVec 7) : Prop :=
  opcode = opInt ∧
      (funct3 ≠ funct3Add ∧ funct3 ≠ funct3Sr ∧ funct7 ≠ 0 ∨
        funct3 = funct3Sr ∧ (funct7 = 0b0000001 ∨ funct7 = 0b0100001)) ∨
    opcode = opIntw ∧ funct3 = funct3Sll ∧ funct7 ≠ 0 ∨
    opcode = opIntimm ∧ funct3 = funct3Sll ∧ funct7.extractLsb' 1 6 ≠ 0 ∨
    opcode = opIntimmw ∧ funct3 = funct3Sll ∧ funct7 ≠ 0 ∨
    opcode = opJalr ∧ funct3 ≠ 0

instance : Decidable (Unchecked funct7 funct3 opcode) :=
  inferInstanceAs (Decidable (_ ∨ _))

/-! One check over the function fields for each opcode class with a condition: what it
accepts is what an operation has, or unchecked. -/

/-- The condition of `OP_INT`. -/
theorem legalInt_iff {d : DecodeInfo} :
    legalInt d = true ↔
      (∃ o : Op, o.funct = (d.funct7, d.funct3)) ∨ Unchecked d.funct7 d.funct3 opInt := by
  rw [exists_op_iff, legalInt]
  generalize d.funct7 = funct7
  generalize d.funct3 = funct3
  revert funct7 funct3
  decide +kernel

/-- The condition of `OP_INTW`. -/
theorem legalIntw_iff {d : DecodeInfo} :
    legalIntw d = true ↔
      (∃ o : OpW, o.funct = (d.funct7, d.funct3)) ∨ Unchecked d.funct7 d.funct3 opIntw := by
  rw [exists_opW_iff, legalIntw]
  generalize d.funct7 = funct7
  generalize d.funct3 = funct3
  revert funct7 funct3
  decide +kernel

/-- The condition of `OP_INTIMM`, whose shifts keep six bits for the amount. -/
theorem legalIntimm_iff {d : DecodeInfo} :
    legalIntimm d = true ↔
      ((∃ o : ImmOp, o.funct3 = d.funct3) ∨
        ∃ o : ShiftOp, o.funct = (d.funct7.extractLsb' 1 6, d.funct3)) ∨
        Unchecked d.funct7 d.funct3 opIntimm := by
  rw [exists_immOp_iff, exists_shiftOp_iff, legalIntimm]
  generalize d.funct7 = funct7
  generalize d.funct3 = funct3
  revert funct7 funct3
  decide +kernel

/-- The condition of `OP_INTIMMW`, whose shifts keep five bits for the amount. -/
theorem legalIntimmw_iff {d : DecodeInfo} :
    legalIntimmw d = true ↔
      (d.funct3 = 0 ∨ ∃ o : ShiftOp, o.funct.1 ++ 0#1 = d.funct7 ∧ o.funct.2 = d.funct3) ∨
        Unchecked d.funct7 d.funct3 opIntimmw := by
  rw [exists_shiftOpW_iff, legalIntimmw]
  generalize d.funct7 = funct7
  generalize d.funct3 = funct3
  revert funct7 funct3
  decide +kernel

/-- The condition of `OP_LOAD` lets nothing unchecked through. -/
theorem legalLoad_iff {d : DecodeInfo} :
    legalLoad d = true ↔ ∃ o : LoadOp, o.funct3 = d.funct3 := by
  rw [exists_loadOp_iff, legalLoad]
  generalize d.funct3 = funct3
  revert funct3
  decide

/-- The condition of `OP_STORE` lets nothing unchecked through. -/
theorem legalStore_iff {d : DecodeInfo} :
    legalStore d = true ↔ ∃ o : StoreOp, o.funct3 = d.funct3 := by
  rw [exists_storeOp_iff, legalStore]
  generalize d.funct3 = funct3
  revert funct3
  decide

/-- The condition of `OP_BRANCH` lets nothing unchecked through. -/
theorem legalBranch_iff {d : DecodeInfo} :
    legalBranch d = true ↔ ∃ o : BranchOp, o.funct3 = d.funct3 := by
  rw [exists_branchOp_iff, legalBranch]
  generalize d.funct3 = funct3
  revert funct3
  decide

/-- In a class with a condition the word is legal iff the condition holds. -/
theorem isLegal_ite {d : DecodeInfo} (legal : Bool) (accepted : DecodeInfo)
    (haccepted : accepted.isLegal = true) :
    (if legal = true then accepted else { d with isLegal := false }).isLegal = legal := by
  cases legal
  · rfl
  · exact haccepted

/-- The `switch` accepts the encodings of the instructions, and the unchecked ones. -/
theorem isLegal_decodeOpcode :
    (decodeOpcode (fieldInfo funct7 rs2 rs1 funct3 rd opcode)).isLegal = true ↔
      (∃ i, encode i = rType funct7 rs2 rs1 funct3 rd opcode) ∨
        Unchecked funct7 funct3 opcode := by
  rw [exists_encode_iff]
  by_cases hint : opcode = opInt
  · subst hint
    rw [decodeOpcode_int rfl, isLegal_ite _ _ rfl, legalInt_iff]
    simp [fieldInfo, opInt]
  by_cases hintw : opcode = opIntw
  · subst hintw
    rw [decodeOpcode_intw rfl, isLegal_ite _ _ rfl, legalIntw_iff]
    simp [fieldInfo, opIntw]
  by_cases hload : opcode = opLoad
  · subst hload
    rw [decodeOpcode_load rfl, isLegal_ite _ _ rfl, legalLoad_iff]
    simp [fieldInfo, Unchecked, opInt, opIntw, opIntimm, opIntimmw, opJalr, opLoad]
  by_cases himm : opcode = opIntimm
  · subst himm
    rw [decodeOpcode_intimm rfl, isLegal_ite _ _ rfl, legalIntimm_iff]
    simp [fieldInfo, opIntimm]
  by_cases himmw : opcode = opIntimmw
  · subst himmw
    rw [decodeOpcode_intimmw rfl, isLegal_ite _ _ rfl, legalIntimmw_iff]
    simp [fieldInfo, opIntimmw]
  by_cases hjalr : opcode = opJalr
  · subst hjalr
    rw [decodeOpcode_jalr rfl]
    simp [Unchecked, opInt, opIntw, opIntimm, opIntimmw, opJalr, Classical.em]
  by_cases hstore : opcode = opStore
  · subst hstore
    rw [decodeOpcode_store rfl, isLegal_ite _ _ rfl, legalStore_iff]
    simp [fieldInfo, Unchecked, opInt, opIntw, opIntimm, opIntimmw, opJalr, opStore]
  by_cases hbranch : opcode = opBranch
  · subst hbranch
    rw [decodeOpcode_branch rfl, isLegal_ite _ _ rfl, legalBranch_iff]
    simp [fieldInfo, Unchecked, opInt, opIntw, opIntimm, opIntimmw, opJalr, opBranch]
  by_cases hupper : opcode = opAuipc ∨ opcode = opLui ∨ opcode = opJal
  · rw [decodeOpcode_upper hupper]
    refine ⟨fun _ => .inl ?_, fun _ => rfl⟩
    rcases hupper with rfl | rfl | rfl <;> simp [opAuipc, opLui, opJal]
  · simp only [not_or] at hupper
    rw [decodeOpcode_other (by simp [fieldInfo, *])]
    simp [Unchecked, *]

/-- No instruction has unchecked fields. -/
theorem not_encode_of_unchecked (h : Unchecked funct7 funct3 opcode) :
    ¬ ∃ i, encode i = rType funct7 rs2 rs1 funct3 rd opcode := by
  rw [exists_encode_iff, exists_op_iff, exists_opW_iff, exists_immOp_iff, exists_shiftOp_iff,
    exists_shiftOpW_iff]
  rcases h with ⟨rfl, h⟩ | ⟨rfl, h⟩ | ⟨rfl, h⟩ | ⟨rfl, h⟩ | ⟨rfl, h⟩
  · simp [opInt]
    rcases h with ⟨hadd, hsr, h0⟩ | ⟨rfl, rfl | rfl⟩
    · exact ⟨h0, fun _ => ⟨hadd, hsr⟩⟩
    · decide
    · decide
  · simpa [opIntw, h.1, funct3Sll] using h.2
  · simpa [opIntimm, h.1, funct3Sll] using h.2
  · simpa [opIntimmw, h.1, funct3Sll] using h.2
  · simpa [opJalr] using h

end Fields

/-- **Decoding is exact where the source looks.** `simDecode` marks a word other than HALT as
legal exactly when it is a valid encoding, exactly when its fields are not unchecked. -/
theorem simDecode_isLegal_iff {w : BitVec 32} (hhalt : w ≠ 0xfeedfeed#32) {inst : Instruction}
    (hword : inst.instruction = w.setWidth 64)
    (hfresh : inst.toDecodeInfo = {}) :
    ((simDecode inst).isLegal = true ↔ ∃ i, encode i = w) ↔
      ¬ Unchecked (w.extractLsb' 25 7) (w.extractLsb' 12 3) (w.extractLsb' 0 7) := by
  obtain ⟨funct7, rs2, rs1, funct3, rd, opcode, rfl⟩ := exists_rType w
  rw [funct7_rType, funct3_rType, opcode_rType]
  have haccepted : (simDecode inst).isLegal = true ↔
      (∃ i, encode i = rType funct7 rs2 rs1 funct3 rd opcode) ∨
        Unchecked funct7 funct3 opcode := by
    rw [simDecode_eq hfresh, hword]
    dsimp only
    by_cases hnop : (rType funct7 rs2 rs1 funct3 rd opcode).setWidth 64 = nopWord
    · have hword : encode (.opImm .addi 0 0 0) = rType funct7 rs2 rs1 funct3 rd opcode := by
        have hnop' : ((0x00000013#32).setWidth 64) = nopWord := by decide
        have hencode : encode (.opImm .addi 0 0 0) = 0x00000013#32 := by decide
        rw [hencode]
        exact (setWidth_inj (hnop'.trans hnop.symm))
      rw [hnop]
      exact ⟨fun _ => .inl ⟨_, hword⟩, fun _ => rfl⟩
    · rw [decodeOf_rType (fun h => hhalt (setWidth_inj h)) hnop, isLegal_decodeOpcode]
  rw [haccepted]
  constructor
  · intro h hunchecked
    exact not_encode_of_unchecked hunchecked (h.mp (.inr hunchecked))
  · intro h
    exact or_iff_left h

/-- `mulh x3, x1, x2` is no instruction of the set, and decodes as legal. -/
theorem mulh_decodes :
    (simDecode { instruction := 0x022091b3 }).isLegal = true ∧
      ¬ ∃ i, encode i = 0x022091b3#32 := by
  have hword : (0x022091b3#32) = rType 0b0000001 2 1 0b001 3 0b0110011 := by decide
  rw [hword]
  exact ⟨by decide, not_encode_of_unchecked (by decide)⟩

/-- `mul x3, x1, x2` is no instruction of the set either, and it is rejected. -/
theorem simDecode_isLegal_iff_mul :
    ((simDecode { instruction := (0x022081b3#32).setWidth 64 }).isLegal = true ↔
        ∃ i, encode i = 0x022081b3#32) ↔
      ¬ Unchecked ((0x022081b3#32).extractLsb' 25 7) ((0x022081b3#32).extractLsb' 12 3)
        ((0x022081b3#32).extractLsb' 0 7) :=
  simDecode_isLegal_iff (by decide) rfl rfl

end RvPipeSim
