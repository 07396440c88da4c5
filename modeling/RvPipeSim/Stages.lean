import RvPipeSim.Cycle

/-!
# What the stage functions do to an instruction

One block of lemmas per helper of `simulator.cpp`: which fields it leaves alone, and what
it does to the ones it sets. After ID nothing changes the fetch and decode parts of an
instruction, which is one lemma per function because the two parts are substructures.

`decodeOf` is the decode part `simDecode` computes for a fetched word, and
`decodeOf_wellFormed` lists what the flags of any word satisfy: at most one of HALT, NOP,
illegal, load, store and the rest, each with its own reads and writes.

## Main results

* `decodeOf_wellFormed` — the flags of any word;
* `simEX_of_effective`, `simMEM_of_effective`, `simWB_of_effective` — the stage functions on a
  slot they act on;
* `simEX_of_not_effective`, `simMEM_of_not_effective`, `simWB_of_not_effective` — and on one
  that they hand through;
* `forwardToID_op1Val`, `forwardToID_op2Val` — what the forwarding paths make of an operand;
* `simWB_read` — the registers after WB.
-/

namespace RvPipeSim

open Simulator

/-! ### Decode -/

/-- The decode part of the word `w`. -/
def decodeOf (w : BitVec 64) : DecodeInfo := decodeWord w {}

/-- The opcode is that of a branch, `jal` or `jalr`. -/
def DecodeInfo.branchOpcode (d : DecodeInfo) : Bool :=
  d.opcode == opBranch || d.opcode == opJal || d.opcode == opJalr

/-- The instruction touches neither registers nor memory. -/
structure DecodeInfo.Inert (d : DecodeInfo) : Prop where
  readsMem : d.readsMem = false
  writesMem : d.writesMem = false
  doesArithLogic : d.doesArithLogic = false
  writesRd : d.writesRd = false
  readsRs1 : d.readsRs1 = false
  readsRs2 : d.readsRs2 = false

/-- What the flags of a decoded word satisfy. -/
structure DecodeInfo.WellFormed (d : DecodeInfo) : Prop where
  halt : d.isHalt = true →
    d.isLegal = true ∧ d.isNop = false ∧ d.Inert ∧ d.branchOpcode = false
  isNop : d.isNop = true →
    d.isLegal = true ∧ d.isHalt = false ∧ d.Inert ∧ d.branchOpcode = false
  illegal : d.isLegal = false → d.isHalt = false ∧ d.isNop = false ∧ d.Inert
  load : d.readsMem = true → d.writesMem = false ∧ d.doesArithLogic = false ∧
    d.writesRd = true ∧ d.readsRs1 = true ∧ d.readsRs2 = false ∧ d.branchOpcode = false
  store : d.writesMem = true → d.readsMem = false ∧ d.doesArithLogic = false ∧
    d.writesRd = false ∧ d.readsRs1 = true ∧ d.readsRs2 = true ∧ d.branchOpcode = false

/-- The `switch` touches neither the HALT flag nor the NOP flag. -/
theorem decodeOpcode_isHalt (d : DecodeInfo) : (decodeOpcode d).isHalt = d.isHalt := by
  simp only [decodeOpcode, apply_ite DecodeInfo.isHalt, ite_self]

/-- The `switch` leaves the NOP flag as `simDecode` set it before. -/
theorem decodeOpcode_isNop (d : DecodeInfo) : (decodeOpcode d).isNop = d.isNop := by
  simp only [decodeOpcode, apply_ite DecodeInfo.isNop, ite_self]

/-- The `switch` leaves the fields alone. -/
theorem decodeOpcode_fields (d : DecodeInfo) :
    (decodeOpcode d).opcode = d.opcode ∧ (decodeOpcode d).funct3 = d.funct3 ∧
      (decodeOpcode d).funct7 = d.funct7 ∧ (decodeOpcode d).rd = d.rd := by
  refine ⟨?_, ?_, ?_, ?_⟩
  · simp only [decodeOpcode, apply_ite DecodeInfo.opcode, ite_self]
  · simp only [decodeOpcode, apply_ite DecodeInfo.funct3, ite_self]
  · simp only [decodeOpcode, apply_ite DecodeInfo.funct7, ite_self]
  · simp only [decodeOpcode, apply_ite DecodeInfo.rd, ite_self]

/-- Only `0xfeedfeed` decodes to HALT. -/
theorem decodeOf_isHalt {w : BitVec 64} (h : (decodeOf w).isHalt = true) : w = haltWord := by
  by_contra hne
  rw [decodeOf, decodeWord, if_neg hne] at h
  dsimp only at h
  split at h
  · exact Bool.noConfusion h
  · rw [decodeOpcode_isHalt] at h
    exact Bool.noConfusion h

/-- On a freshly fetched instruction `simDecode` computes `decodeOf` of the word and
leaves every field outside the decode part alone. -/
theorem simDecode_eq {inst : Instruction} (h : inst.toDecodeInfo = {}) :
    simDecode inst = { inst with toDecodeInfo := decodeOf inst.instruction } := by
  rw [simDecode, h, decodeOf]

/-- The flags of an instruction that only computes, branches or jumps. -/
theorem DecodeInfo.WellFormed.of_plain {d : DecodeInfo} (hhalt : d.isHalt = false)
    (hnop : d.isNop = false) (hlegal : d.isLegal = true) (hload : d.readsMem = false)
    (hstore : d.writesMem = false) : d.WellFormed where
  halt h := by simp [hhalt] at h
  isNop h := by simp [hnop] at h
  illegal h := by simp [hlegal] at h
  load h := by simp [hload] at h
  store h := by simp [hstore] at h

/-- The flags of an illegal word. -/
theorem DecodeInfo.WellFormed.of_illegal {d : DecodeInfo} (hhalt : d.isHalt = false)
    (hnop : d.isNop = false) (hd : d.Inert) : d.WellFormed where
  halt h := by simp [hhalt] at h
  isNop h := by simp [hnop] at h
  illegal _ := ⟨hhalt, hnop, hd⟩
  load h := by simp [hd.readsMem] at h
  store h := by simp [hd.writesMem] at h

/-- Flags are well-formed if those of both branches are, each under its condition; the rule that
walks down the arms of the `switch`. -/
theorem DecodeInfo.WellFormed.ite {p : Prop} [Decidable p] {d e : DecodeInfo}
    (hd : p → d.WellFormed) (he : ¬ p → e.WellFormed) : (if p then d else e).WellFormed :=
  iteInduction (motive := DecodeInfo.WellFormed) hd he

/-- The `switch` keeps a part with clear flags well-formed: each arm sets the flags of one
class, and `readsMem` and `writesMem` only under an opcode that is not a branch's. -/
theorem decodeOpcode_wellFormed {d : DecodeInfo} (hhalt : d.isHalt = false)
    (hlegal : d.isLegal = true) (hnop : d.isNop = false) (hd : d.Inert) :
    (decodeOpcode d).WellFormed := by
  have hill : { d with isLegal := false }.WellFormed :=
    .of_illegal hhalt hnop ⟨hd.1, hd.2, hd.3, hd.4, hd.5, hd.6⟩
  unfold decodeOpcode
  refine .ite (fun _ => .ite (fun _ => ?_) fun _ => hill) fun _ => ?_
  · exact .of_plain hhalt hnop hlegal hd.readsMem hd.writesMem
  refine .ite (fun _ => .ite (fun _ => ?_) fun _ => hill) fun _ => ?_
  · exact .of_plain hhalt hnop hlegal hd.readsMem hd.writesMem
  refine .ite (fun hop => .ite (fun _ => ?_) fun _ => hill) fun _ => ?_
  · refine ⟨?_, ?_, ?_, fun _ => ?_, ?_⟩
    · simp [hhalt]
    · simp [hnop]
    · simp [hlegal]
    · exact ⟨hd.writesMem, hd.doesArithLogic, rfl, rfl, hd.readsRs2, by
        simp only [DecodeInfo.branchOpcode, hop]; decide⟩
    · simp [hd.writesMem]
  refine .ite (fun _ => .ite (fun _ => ?_) fun _ => hill) fun _ => ?_
  · exact .of_plain hhalt hnop hlegal hd.readsMem hd.writesMem
  refine .ite (fun _ => .ite (fun _ => ?_) fun _ => hill) fun _ => ?_
  · exact .of_plain hhalt hnop hlegal hd.readsMem hd.writesMem
  refine .ite (fun _ => ?_) fun _ => ?_
  · exact .of_plain hhalt hnop rfl hd.readsMem hd.writesMem
  refine .ite (fun hop => .ite (fun _ => ?_) fun _ => hill) fun _ => ?_
  · refine ⟨?_, ?_, ?_, ?_, fun _ => ?_⟩
    · simp [hhalt]
    · simp [hnop]
    · simp [hlegal]
    · simp [hd.readsMem]
    · exact ⟨hd.readsMem, hd.doesArithLogic, hd.writesRd, rfl, rfl, by
        simp only [DecodeInfo.branchOpcode, hop]; decide⟩
  refine .ite (fun _ => .ite (fun _ => ?_) fun _ => hill) fun _ => ?_
  · exact .of_plain hhalt hnop hlegal hd.readsMem hd.writesMem
  exact .ite (fun _ => .of_plain hhalt hnop rfl hd.readsMem hd.writesMem) fun _ => hill

/-- Every word decodes to well-formed flags: the all-ones word to a HALT, the zero word and `nop`
to a NOP, all others through the `switch`. -/
theorem decodeOf_wellFormed (w : BitVec 64) : (decodeOf w).WellFormed := by
  unfold decodeOf decodeWord
  dsimp only
  split
  · rename_i h
    subst h
    refine ⟨fun _ => ⟨rfl, rfl, ⟨rfl, rfl, rfl, rfl, rfl, rfl⟩, by decide⟩, ?_, ?_, ?_, ?_⟩ <;>
      simp
  split
  · rename_i h
    subst h
    refine ⟨?_, fun _ => ⟨rfl, rfl, ⟨rfl, rfl, rfl, rfl, rfl, rfl⟩, by decide⟩, ?_, ?_, ?_⟩ <;>
      simp
  exact decodeOpcode_wellFormed rfl rfl rfl ⟨rfl, rfl, rfl, rfl, rfl, rfl⟩

/-- The word at an address. -/
def wordAt (mem : MemoryStore) (address : BitVec 64) : BitVec 64 :=
  (simFetch address mem).instruction

/-! ### Activity of a slot -/

/-- The stage functions from EX on act on the instruction: it is neither padding nor
squashed, legal, and not the HALT. -/
def Instruction.effective (inst : Instruction) : Bool :=
  inst.active && inst.isLegal && !inst.isHalt

/-- A slot is effective iff it is active and holds a legal instruction that is not HALT. -/
theorem effective_iff {inst : Instruction} :
    inst.effective = true ↔
      inst.active = true ∧ inst.isLegal = true ∧ inst.isHalt = false := by
  simp [Instruction.effective, and_assoc]

/-- A slot is active iff it is neither a NOP nor a bubble nor squashed. -/
theorem active_iff {inst : Instruction} :
    inst.active = true ↔
      inst.isNop = false ∧ inst.status ≠ .bubble ∧ inst.status ≠ .squashed := by
  simp [Instruction.active, and_assoc]

/-! ### Fetch and decode -/

/-- A fetch writes its number into the slot, which tells it from every other fetch. -/
@[simp] theorem simIF_seq (sim : Simulator) (PC : BitVec 64) (n : ℕ) :
    (sim.simIF PC n).seq = some n := rfl

/-- ID keeps what was fetched: address, word and number. -/
@[simp] theorem simID_toFetchInfo (sim : Simulator) (inst : Instruction) :
    (sim.simID inst).1.toFetchInfo = inst.toFetchInfo := by
  unfold simID
  split
  · rfl
  · dsimp only
    split <;> rfl

/-- ID only numbers instructions: registers and memory stay. -/
theorem simID_frame (sim : Simulator) (inst : Instruction) :
    (sim.simID inst).2.regData = sim.regData ∧ (sim.simID inst).2.memory = sim.memory := by
  unfold simID
  split
  · exact ⟨rfl, rfl⟩
  · dsimp only
    split <;> exact ⟨rfl, rfl⟩

/-- Padding and squashed slots pass through ID. -/
theorem simID_of_inactive {sim : Simulator} {inst : Instruction} (h : inst.active = false) :
    sim.simID inst = (inst, sim) := by
  have h' : (inst.isNop || inst.status == .bubble || inst.status == .squashed) = true := by
    simp only [Instruction.active, Bool.and_eq_false_iff, Bool.not_eq_false',
      bne_eq_false_iff_eq] at h
    rcases h with (h | h) | h <;> simp [h]
  rw [simID, if_pos h']

/-- What ID makes of a freshly fetched instruction. -/
theorem simID_of_fresh {sim : Simulator} {inst : Instruction} (h : inst.toDecodeInfo = {})
    (hactive : inst.active = true) :
    (sim.simID inst).1 =
      if (decodeOf inst.instruction).isHalt || !(decodeOf inst.instruction).isLegal then
        { inst with toDecodeInfo := decodeOf inst.instruction }
      else
        { simNextPCResolution (simOperandCollection
            { inst with toDecodeInfo := decodeOf inst.instruction } sim.regData) with
          instructionID := sim.din, status := .normal } := by
  obtain ⟨hnop, hbubble, hsquashed⟩ := active_iff.mp hactive
  have h' : (inst.isNop || inst.status == .bubble || inst.status == .squashed) = false := by
    simp [hnop, hbubble, hsquashed]
  rw [simID, h', if_neg (by simp), simDecode_eq h]
  dsimp only
  split <;> rfl

/-- Resolving the next PC keeps what was fetched. -/
@[simp] theorem simNextPCResolution_toFetchInfo (inst : Instruction) :
    (simNextPCResolution inst).toFetchInfo = inst.toFetchInfo := rfl

/-- ID predicts the next PC from the operands it has collected. -/
@[simp] theorem simNextPCResolution_nextPC (inst : Instruction) :
    (simNextPCResolution inst).nextPC = resolvedPC inst := rfl

/-! ### EX, MEM and WB -/

/-- A slot that is not effective fails one of the two tests with which every stage function
begins: for padding, or for HALT and illegal words. -/
theorem not_effective_cases {inst : Instruction} (h : inst.effective = false) :
    (inst.isNop || inst.status == .bubble || inst.status == .squashed) = true ∨
      (inst.isHalt || !inst.isLegal) = true := by
  simp only [Instruction.effective, Instruction.active, Bool.and_eq_false_iff,
    Bool.not_eq_false', bne_eq_false_iff_eq] at h
  rcases h with (((h | h) | h) | h) | h <;> simp [h]

/-- An effective slot passes both tests at the head of the stage functions. -/
theorem effective_tests {inst : Instruction} (h : inst.effective = true) :
    (inst.isNop || inst.status == .bubble || inst.status == .squashed) = false ∧
      (inst.isHalt || !inst.isLegal) = false := by
  obtain ⟨hactive, hlegal, hhalt⟩ := effective_iff.mp h
  obtain ⟨hnop, hbubble, hsquashed⟩ := active_iff.mp hactive
  simp [hnop, hbubble, hsquashed, hlegal, hhalt]

/-- EX hands a slot that is not effective on as it is. -/
theorem simEX_of_not_effective {inst : Instruction} (h : inst.effective = false) :
    simEX inst = inst := by
  unfold simEX
  rcases not_effective_cases h with h | h
  · rw [if_pos h]
  · split <;> rfl

/-- MEM hands a slot that is not effective on and leaves the memory alone. -/
theorem simMEM_of_not_effective {fault : Fault} {sim : Simulator} {inst : Instruction}
    (h : inst.effective = false) : sim.simMEM fault inst = (inst, sim) := by
  unfold simMEM
  rcases not_effective_cases h with h | h
  · rw [if_pos h]
  · split <;> rfl

/-- WB hands a slot that is not effective on and writes no register. -/
theorem simWB_of_not_effective {sim : Simulator} {inst : Instruction}
    (h : inst.effective = false) : sim.simWB inst = (inst, sim) := by
  unfold simWB
  rcases not_effective_cases h with h | h
  · rw [if_pos h]
  · split <;> rfl

/-- EX of an effective slot in one record: the result of the ALU, the address of an access, the
masked shift amount, and the status. -/
theorem simEX_of_effective {inst : Instruction} (h : inst.effective = true) :
    simEX inst =
      { inst with
        op2Val := if inst.doesArithLogic then maskedOp2 inst else inst.op2Val
        arithResult :=
          if inst.doesArithLogic then (simArithLogic inst).arithResult else inst.arithResult
        memAddress :=
          if inst.readsMem || inst.writesMem then (simAddrGen inst).memAddress
          else inst.memAddress
        status := .normal } := by
  obtain ⟨h1, h2⟩ := effective_tests h
  rw [simEX, h1, h2]
  simp only [Bool.false_eq_true, if_false]
  by_cases harith : inst.doesArithLogic = true
  · by_cases hacc : (inst.readsMem || inst.writesMem) = true
    · simp only [harith, hacc, if_true, simArithLogic, simAddrGen]
    · simp only [harith, hacc, Bool.false_eq_true, if_false, if_true, simArithLogic]
  · by_cases hacc : (inst.readsMem || inst.writesMem) = true
    · simp only [harith, hacc, Bool.false_eq_true, if_false, if_true, simAddrGen]
    · simp only [harith, hacc, Bool.false_eq_true, if_false]

/-- WB of an effective slot commits its result iff the instruction has a destination. -/
theorem simWB_of_effective {sim : Simulator} {inst : Instruction}
    (h : inst.effective = true) :
    sim.simWB inst =
      ({ inst with status := .normal },
        if inst.writesRd then { sim with regData := simCommit inst sim.regData } else sim) := by
  obtain ⟨h1, h2⟩ := effective_tests h
  rw [simWB, h1, h2]
  rfl

/-- MEM of an effective slot is its memory access; without one `simMemAccess` changes nothing, so
the two tests of the source fall together. -/
theorem simMEM_of_effective {fault : Fault} {sim : Simulator} {inst : Instruction}
    (h : inst.effective = true) :
    sim.simMEM fault inst =
      ({ (simMemAccess fault inst sim.memory).1 with status := .normal },
        { sim with memory := (simMemAccess fault inst sim.memory).2 }) := by
  obtain ⟨h1, h2⟩ := effective_tests h
  rw [simMEM, h1, h2]
  by_cases hacc : (inst.readsMem || inst.writesMem) = true
  · rw [if_neg (by simp), if_neg (by simp), if_pos hacc]
  · rw [if_neg (by simp), if_neg (by simp), if_neg hacc]
    simp only [Bool.or_eq_true, not_or, Bool.not_eq_true] at hacc
    rw [simMemAccess, if_neg (by simp [hacc.1]), if_neg (by simp [hacc.2])]

/-- An access keeps what was fetched. -/
@[simp] theorem simMemAccess_toFetchInfo (fault : Fault) (inst : Instruction)
    (mem : MemoryStore) : (simMemAccess fault inst mem).1.toFetchInfo = inst.toFetchInfo := by
  unfold simMemAccess
  split
  · rfl
  · split <;> rfl

/-- An access keeps the flags of the decoder. -/
@[simp] theorem simMemAccess_toDecodeInfo (fault : Fault) (inst : Instruction)
    (mem : MemoryStore) :
    (simMemAccess fault inst mem).1.toDecodeInfo = inst.toDecodeInfo := by
  unfold simMemAccess
  split
  · rfl
  · split <;> rfl

/-- EX keeps what was fetched. -/
@[simp] theorem simEX_toFetchInfo (inst : Instruction) :
    (simEX inst).toFetchInfo = inst.toFetchInfo := by
  cases h : inst.effective
  · rw [simEX_of_not_effective h]
  · rw [simEX_of_effective h]

/-- EX keeps the flags of the decoder. -/
@[simp] theorem simEX_toDecodeInfo (inst : Instruction) :
    (simEX inst).toDecodeInfo = inst.toDecodeInfo := by
  cases h : inst.effective
  · rw [simEX_of_not_effective h]
  · rw [simEX_of_effective h]

/-- MEM keeps what was fetched. -/
@[simp] theorem simMEM_toFetchInfo (fault : Fault) (sim : Simulator) (inst : Instruction) :
    (sim.simMEM fault inst).1.toFetchInfo = inst.toFetchInfo := by
  cases h : inst.effective
  · rw [simMEM_of_not_effective h]
  · rw [simMEM_of_effective h]
    exact simMemAccess_toFetchInfo fault inst sim.memory

/-- MEM keeps the flags of the decoder. -/
@[simp] theorem simMEM_toDecodeInfo (fault : Fault) (sim : Simulator) (inst : Instruction) :
    (sim.simMEM fault inst).1.toDecodeInfo = inst.toDecodeInfo := by
  cases h : inst.effective
  · rw [simMEM_of_not_effective h]
  · rw [simMEM_of_effective h]
    exact simMemAccess_toDecodeInfo fault inst sim.memory

/-- MEM keeps the address that EX computed, so a frozen cycle sees it again. -/
@[simp] theorem simMEM_memAddress (fault : Fault) (sim : Simulator) (inst : Instruction) :
    (sim.simMEM fault inst).1.memAddress = inst.memAddress := by
  cases h : inst.effective
  · rw [simMEM_of_not_effective h]
  · rw [simMEM_of_effective h, simMemAccess]
    split
    · rfl
    · split <;> rfl

/-- WB keeps what was fetched. -/
@[simp] theorem simWB_toFetchInfo (sim : Simulator) (inst : Instruction) :
    (sim.simWB inst).1.toFetchInfo = inst.toFetchInfo := by
  cases h : inst.effective
  · rw [simWB_of_not_effective h]
  · rw [simWB_of_effective h]

/-- WB keeps the flags of the decoder. -/
@[simp] theorem simWB_toDecodeInfo (sim : Simulator) (inst : Instruction) :
    (sim.simWB inst).1.toDecodeInfo = inst.toDecodeInfo := by
  cases h : inst.effective
  · rw [simWB_of_not_effective h]
  · rw [simWB_of_effective h]

/-! ### Activity through the stages -/

/-- EX neither squashes a slot nor brings one to life: it writes the status of an active slot
to active slots only. -/
@[simp] theorem simEX_active (inst : Instruction) : (simEX inst).active = inst.active := by
  cases h : inst.effective
  · rw [simEX_of_not_effective h]
  · obtain ⟨hnop, hbubble, hsquashed⟩ := active_iff.mp (effective_iff.mp h).1
    rw [(effective_iff.mp h).1, simEX_of_effective h, Instruction.active]
    dsimp only
    rw [hnop]
    rfl

/-- MEM keeps a slot active or inactive. -/
@[simp] theorem simMEM_active (fault : Fault) (sim : Simulator) (inst : Instruction) :
    (sim.simMEM fault inst).1.active = inst.active := by
  cases h : inst.effective
  · rw [simMEM_of_not_effective h]
  · obtain ⟨hnop, hbubble, hsquashed⟩ := active_iff.mp (effective_iff.mp h).1
    have hdec : (sim.simMEM fault inst).1.isNop = inst.isNop := by rw [simMEM_toDecodeInfo]
    rw [(effective_iff.mp h).1, Instruction.active, hdec, hnop, simMEM_of_effective h]
    rfl

/-- WB keeps a slot active or inactive. -/
@[simp] theorem simWB_active (sim : Simulator) (inst : Instruction) :
    (sim.simWB inst).1.active = inst.active := by
  cases h : inst.effective
  · rw [simWB_of_not_effective h]
  · obtain ⟨hnop, hbubble, hsquashed⟩ := active_iff.mp (effective_iff.mp h).1
    have hdec : (sim.simWB inst).1.isNop = inst.isNop := by rw [simWB_toDecodeInfo]
    rw [(effective_iff.mp h).1, Instruction.active, hdec, hnop, simWB_of_effective h]
    rfl

/-- Only loads change in MEM, and only in `memException`, `memResult` and the status. -/
theorem simMEM_of_not_load {fault : Fault} {sim : Simulator} {inst : Instruction}
    (h : inst.readsMem = false) :
    (sim.simMEM fault inst).1 = { inst with status := (sim.simMEM fault inst).1.status } := by
  cases heff : inst.effective
  · rw [simMEM_of_not_effective heff]
  · rw [simMEM_of_effective heff, simMemAccess, if_neg (by simp [h])]
    split <;> rfl

/-- MEM leaves the registers alone. -/
theorem simMEM_regData (fault : Fault) (sim : Simulator) (inst : Instruction) :
    (sim.simMEM fault inst).2.regData = sim.regData := by
  cases h : inst.effective
  · rw [simMEM_of_not_effective h]
  · rw [simMEM_of_effective h]

/-- MEM changes memory for a store only. -/
theorem simMEM_memory (fault : Fault) (sim : Simulator) {inst : Instruction}
    (hwf : inst.toDecodeInfo.WellFormed) :
    (sim.simMEM fault inst).2.memory =
      if isStore inst then storedMemory inst sim.memory else sim.memory := by
  cases heff : inst.effective
  · have hno : isStore inst = false := by
      by_contra hst
      rw [Bool.not_eq_false, isStore, Bool.and_eq_true, Bool.and_eq_true] at hst
      obtain ⟨⟨hwrites, hlegal⟩, hactive⟩ := hst
      have hhalt : inst.isHalt = false := Bool.eq_false_iff.mpr fun hh => by
        rw [(hwf.halt hh).2.2.1.writesMem] at hwrites
        exact Bool.noConfusion hwrites
      rw [effective_iff.mpr ⟨hactive, hlegal, hhalt⟩] at heff
      exact Bool.noConfusion heff
    rw [simMEM_of_not_effective heff, hno]
    rfl
  · obtain ⟨hactive, hlegal, -⟩ := effective_iff.mp heff
    have hst : isStore inst = inst.writesMem := by
      rw [isStore, hlegal, hactive, Bool.and_true, Bool.and_true]
    rw [simMEM_of_effective heff, simMemAccess, hst]
    cases hwrites : inst.writesMem
    · split <;> rfl
    · rw [(hwf.store hwrites).1]
      rfl

/-- WB leaves the memory alone. -/
theorem simWB_memory (sim : Simulator) (inst : Instruction) :
    (sim.simWB inst).2.memory = sim.memory := by
  cases h : inst.effective
  · rw [simWB_of_not_effective h]
  · rw [simWB_of_effective h]
    dsimp only
    split <;> rfl

/-! ### Forwarding -/

/-- Forwarding store data keeps the flags of the decoder. -/
@[simp] theorem forwardStoreData_toDecodeInfo (z : Bool) (mem ex : Instruction) :
    (forwardStoreData z mem ex).toDecodeInfo = ex.toDecodeInfo := rfl

/-- While a data miss freezes the pipeline no store data are forwarded. -/
@[simp] theorem forwardStoreData_frozen (mem ex : Instruction) :
    forwardStoreData true mem ex = ex := by
  simp [forwardStoreData]

/-- Two instructions that differ in their operands only. -/
def Instruction.SameButOperands (inst inst' : Instruction) : Prop :=
  inst = { inst' with op1Val := inst.op1Val, op2Val := inst.op2Val }

/-- The path from MEM touches the operands only. -/
theorem forwardFromMEM_sameButOperands (mem id : Instruction) :
    (forwardFromMEM mem id).SameButOperands id := by
  unfold forwardFromMEM
  split <;> rfl

/-- The path from EX touches the operands only. -/
theorem forwardFromEX_sameButOperands (ex id : Instruction) :
    (forwardFromEX ex id).SameButOperands id := by
  unfold forwardFromEX
  split <;> rfl

/-- The path from EX to a branch touches the operands only. -/
theorem forwardFromEXToBranch_sameButOperands (ex id : Instruction) :
    (forwardFromEXToBranch ex id).SameButOperands id := by
  unfold forwardFromEXToBranch
  split <;> rfl

/-- Two rewritings of the operands, one after the other, are one. -/
theorem Instruction.SameButOperands.trans {a b c : Instruction} (h : a.SameButOperands b)
    (h' : b.SameButOperands c) : a.SameButOperands c := by
  rw [SameButOperands, h, h']

/-- Forwarding into ID rewrites the two operands and nothing else. -/
theorem forwardToID_eq (mem ex id : Instruction) :
    forwardToID mem ex id =
      { id with
        op1Val := (forwardToID mem ex id).op1Val
        op2Val := (forwardToID mem ex id).op2Val } :=
  (forwardFromEXToBranch_sameButOperands ex _).trans
    ((forwardFromEX_sameButOperands ex _).trans (forwardFromMEM_sameButOperands mem id))

/-- Forwarding into ID keeps what was fetched. -/
@[simp] theorem forwardToID_toFetchInfo (mem ex id : Instruction) :
    (forwardToID mem ex id).toFetchInfo = id.toFetchInfo := by
  rw [forwardToID_eq]

/-- Forwarding into ID keeps the flags of the decoder. -/
@[simp] theorem forwardToID_toDecodeInfo (mem ex id : Instruction) :
    (forwardToID mem ex id).toDecodeInfo = id.toDecodeInfo := by
  rw [forwardToID_eq]

/-- Forwarding into ID keeps the status. -/
@[simp] theorem forwardToID_status (mem ex id : Instruction) :
    (forwardToID mem ex id).status = id.status := by
  rw [forwardToID_eq]

/-- Forwarding into ID does not predict again; `simNextPCResolution` has to be called on the
result. -/
@[simp] theorem forwardToID_nextPC (mem ex id : Instruction) :
    (forwardToID mem ex id).nextPC = id.nextPC := by
  rw [forwardToID_eq]

/-- The instruction is about to write register `r`, which is not `x0`. -/
def Instruction.forwards (inst : Instruction) (r : BitVec 5) : Bool :=
  writesREG inst && inst.rd == r

/-- The first operand takes the forwarded value iff the instruction reads it from the register
that is written. -/
theorem forwardOperands_op1Val (inst : Instruction) {rd : BitVec 5} (hrd : rd ≠ 0)
    (value : BitVec 64) :
    (forwardOperands inst rd value).op1Val =
      if inst.readsRs1 && rd == inst.rs1 then value else inst.op1Val := by
  have hcond : readsRs1From inst rd = (inst.readsRs1 && rd == inst.rs1) := by
    rw [readsRs1From, bne_iff_ne.mpr hrd, Bool.and_true, BEq.comm (a := inst.rs1)]
  rw [forwardOperands, hcond]

/-- The second operand takes the forwarded value iff the instruction reads it from the register
that is written. -/
theorem forwardOperands_op2Val (inst : Instruction) {rd : BitVec 5} (hrd : rd ≠ 0)
    (value : BitVec 64) :
    (forwardOperands inst rd value).op2Val =
      if inst.readsRs2 && rd == inst.rs2 then value else inst.op2Val := by
  have hcond : readsRs2From inst rd = (inst.readsRs2 && rd == inst.rs2) := by
    rw [readsRs2From, bne_iff_ne.mpr hrd, Bool.and_true, BEq.comm (a := inst.rs2)]
  rw [forwardOperands, hcond]

/-- An instruction that forwards never has `x0` as its destination. -/
theorem rd_ne_zero_of_writesREG {inst : Instruction} (h : writesREG inst = true) :
    inst.rd ≠ 0 := by
  simp only [writesREG, Bool.and_eq_true, bne_iff_ne] at h
  exact h.1.1.2

/-- The three forwarding paths on one operand `op`, read when `reads` says so from the
register `rs`: an instruction in EX that writes the register comes before one in MEM. The
third path repeats the second one for branches. -/
theorem forwardToID_operand (op : Instruction → BitVec 64) (reads : DecodeInfo → Bool)
    (rs : DecodeInfo → BitVec 5)
    (hop : ∀ (inst : Instruction) {rd : BitVec 5}, rd ≠ 0 → ∀ value,
      op (forwardOperands inst rd value) =
        if reads inst.toDecodeInfo && rd == rs inst.toDecodeInfo then value else op inst)
    (mem ex id : Instruction) :
    op (forwardToID mem ex id) =
      if reads id.toDecodeInfo && ex.forwards (rs id.toDecodeInfo) then ex.arithResult
      else if reads id.toDecodeInfo && mem.forwards (rs id.toDecodeInfo) then forwardValue mem
      else op id := by
  have hmem : op (forwardFromMEM mem id) =
        (if reads id.toDecodeInfo && mem.forwards (rs id.toDecodeInfo) then forwardValue mem
          else op id) ∧
      (forwardFromMEM mem id).toDecodeInfo = id.toDecodeInfo := by
    rw [forwardFromMEM, Instruction.forwards]
    by_cases hw : writesREG mem = true
    · rw [if_pos hw, hop id (rd_ne_zero_of_writesREG hw), hw, Bool.true_and]
      exact ⟨rfl, rfl⟩
    · simp [hw]
  rw [forwardToID, forwardFromEXToBranch, forwardFromEX]
  by_cases hw : writesREG ex = true
  · have hstep : ∀ inst : Instruction, inst.toDecodeInfo = id.toDecodeInfo →
        op (forwardOperands inst ex.rd ex.arithResult) =
          if reads id.toDecodeInfo && ex.forwards (rs id.toDecodeInfo) then ex.arithResult
          else op inst := by
      intro inst hinst
      rw [hop inst (rd_ne_zero_of_writesREG hw), Instruction.forwards, hw, Bool.true_and, hinst]
    rw [if_pos hw, hw, Bool.true_and]
    split
    · rw [hstep (forwardOperands (forwardFromMEM mem id) ex.rd ex.arithResult) hmem.2,
        hstep _ hmem.2, hmem.1]
      split <;> rfl
    · rw [hstep _ hmem.2, hmem.1]
  · have hno : ex.forwards (rs id.toDecodeInfo) = false := by
      rw [Instruction.forwards, Bool.eq_false_iff.mpr hw, Bool.false_and]
    rw [if_neg hw, Bool.eq_false_iff.mpr hw, Bool.false_and, if_neg Bool.false_ne_true, hmem.1,
      hno, Bool.and_false, if_neg Bool.false_ne_true]

/-- The first operand after forwarding: from EX, else from MEM, else from the register file. -/
theorem forwardToID_op1Val (mem ex id : Instruction) :
    (forwardToID mem ex id).op1Val =
      if id.readsRs1 && ex.forwards id.rs1 then ex.arithResult
      else if id.readsRs1 && mem.forwards id.rs1 then forwardValue mem
      else id.op1Val :=
  forwardToID_operand (·.op1Val) (·.readsRs1) (·.rs1)
    (fun inst _ hrd value => forwardOperands_op1Val inst hrd value) mem ex id

/-- The second operand after forwarding: from EX, else from MEM, else from the register file. -/
theorem forwardToID_op2Val (mem ex id : Instruction) :
    (forwardToID mem ex id).op2Val =
      if id.readsRs2 && ex.forwards id.rs2 then ex.arithResult
      else if id.readsRs2 && mem.forwards id.rs2 then forwardValue mem
      else id.op2Val :=
  forwardToID_operand (·.op2Val) (·.readsRs2) (·.rs2)
    (fun inst _ hrd value => forwardOperands_op2Val inst hrd value) mem ex id

/-- Nothing is forwarded for `x0`. -/
@[simp] theorem forwards_zero (inst : Instruction) : inst.forwards 0#5 = false := by
  rw [Instruction.forwards, writesREG]
  by_cases hrd : inst.rd = 0#5
  · simp [hrd]
  · rw [beq_eq_false_iff_ne.mpr hrd, Bool.and_false]

/-- Which register a slot forwards depends on its flags and its activity alone, not on the values
it carries. -/
theorem forwards_congr {i j : Instruction} (hdec : i.toDecodeInfo = j.toDecodeInfo)
    (hactive : i.active = j.active) (r : BitVec 5) : i.forwards r = j.forwards r := by
  rw [Instruction.forwards, Instruction.forwards, writesREG, writesREG, hactive, hdec]

/-- A register after WB: the instruction's value if it writes it, the old one otherwise. -/
theorem simWB_read {sim : Simulator} {inst : Instruction}
    (hhalt : inst.isHalt = true → inst.writesRd = false) (r : BitVec 5) :
    (sim.simWB inst).2.regData.read r =
      if inst.forwards r then forwardValue inst else sim.regData.read r := by
  cases heff : inst.effective
  · have hno : inst.forwards r = false := by
      rw [Bool.eq_false_iff]
      intro hfw
      simp only [Instruction.forwards, writesREG, Bool.and_eq_true] at hfw
      obtain ⟨⟨⟨⟨hwrites, -⟩, hlegal⟩, hactive⟩, -⟩ := hfw
      have hnh : inst.isHalt = false := Bool.eq_false_iff.mpr fun hh => by
        rw [hhalt hh] at hwrites
        exact Bool.noConfusion hwrites
      rw [effective_iff.mpr ⟨hactive, hlegal, hnh⟩] at heff
      exact Bool.noConfusion heff
    rw [simWB_of_not_effective heff, hno]
    rfl
  · obtain ⟨hactive, hlegal, -⟩ := effective_iff.mp heff
    rw [simWB_of_effective heff]
    dsimp only
    by_cases hr : r = 0#5
    · subst hr
      rw [forwards_zero]
      simp [REGS.read]
    · have hload : isLoad inst = inst.readsMem := by rw [isLoad, hlegal, hactive]; simp
      have hfw : inst.forwards r = (inst.writesRd && inst.rd == r) := by
        rw [Instruction.forwards, writesREG, hlegal, hactive]
        by_cases hrd : inst.rd = r
        · simp [hrd, hr]
        · rw [beq_eq_false_iff_ne.mpr hrd, Bool.and_false, Bool.and_false]
      rw [hfw, forwardValue, hload]
      cases hwrites : inst.writesRd
      · rfl
      · by_cases hrd : inst.rd = r
        · subst hrd
          cases hm : inst.readsMem <;> simp [simCommit, REGS.read, REGS.write, hr, hm]
        · have hne : r ≠ inst.rd := Ne.symm hrd
          cases hm : inst.readsMem <;> simp [simCommit, REGS.read, REGS.write, hr, hm, hrd, hne]

/-- Forwarding leaves an instruction that reads nothing alone. -/
theorem forwardToID_of_reads_nothing {mem ex id : Instruction} (h1 : id.readsRs1 = false)
    (h2 : id.readsRs2 = false) : forwardToID mem ex id = id := by
  rw [forwardToID_eq, forwardToID_op1Val, forwardToID_op2Val, h1, h2]
  rfl

end RvPipeSim
