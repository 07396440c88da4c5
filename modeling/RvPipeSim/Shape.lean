import RvPipeSim.Runs
import RvPipeSim.Slots

/-!
# What the slots can hold

Every slot holds padding or an instruction that has gone through the stages before it:
IF a fresh fetch (`Fetched`), ID a decoded word whose later fields are still clear
(`Decoded`), EX and MEM a decoded word that is legal unless it is squashed (`Passed`).
`Shape` collects this, with what the second cycle of a load-branch stall is pending on,
and `Shape.of_run` shows it of every state of every run, whatever the fault test.

## Main results

* `decoded_simID`, `passed_simEX`, `passed_simMEM` — what the stage functions make of a slot;
* `Shape.cycle`, `Shape.of_run` — the shape of the slots, for one cycle and for a run.
-/

namespace RvPipeSim

open Simulator ObservedRun

/-! ### Instructions at the four stages -/

/-- A padding slot. -/
def Instruction.IsPadding (inst : Instruction) : Prop := ∃ status, inst = nop status

/-- Fresh from `simIF`: nothing but the word is known. -/
structure Instruction.Fetched (inst : Instruction) : Prop where
  clear : inst = { toFetchInfo := inst.toFetchInfo, status := inst.status }
  numbered : inst.seq.isSome = true
  status : inst.status = .normal ∨ inst.status = .speculative

/-- Decoded, and not executed yet. -/
structure Instruction.Decoded (inst : Instruction) : Prop where
  decode : inst.toDecodeInfo = decodeOf inst.instruction
  numbered : inst.seq.isSome = true
  status : inst.status = .normal ∨ inst.status = .squashed
  op1Val : inst.readsRs1 = false → inst.op1Val = 0
  op2Val : inst.readsRs2 = false → inst.op2Val = 0
  arithResult : inst.arithResult = 0
  memAddress : inst.memAddress = 0
  memException : inst.memException = false
  memResult : inst.memResult = 0

/-- In EX or MEM. -/
structure Instruction.Passed (inst : Instruction) : Prop where
  decode : inst.toDecodeInfo = decodeOf inst.instruction
  numbered : inst.seq.isSome = true
  status : inst.status = .normal ∨ inst.status = .squashed
  legal : inst.active = true → inst.isLegal = true

/-- Padding has the flags of a NOP. -/
theorem Instruction.IsPadding.wellFormed {inst : Instruction} (h : inst.IsPadding) :
    inst.toDecodeInfo.WellFormed := by
  obtain ⟨status, rfl⟩ := h
  exact ⟨Bool.noConfusion, fun _ => ⟨rfl, rfl, ⟨rfl, rfl, rfl, rfl, rfl, rfl⟩, rfl⟩,
    Bool.noConfusion, Bool.noConfusion, Bool.noConfusion⟩

/-- Padding is never active. -/
theorem Instruction.IsPadding.active {inst : Instruction} (h : inst.IsPadding) :
    inst.active = false := by
  obtain ⟨status, rfl⟩ := h
  rfl

/-- Padding is no branch, so nothing is predicted from it. -/
theorem Instruction.IsPadding.not_branch {inst : Instruction} (h : inst.IsPadding) :
    isBranchOrJump inst = false := by
  rw [isBranchOrJump, h.active, Bool.and_false]

/-- What the decoder wrote is well-formed. -/
theorem Instruction.Decoded.wellFormed {inst : Instruction} (h : inst.Decoded) :
    inst.toDecodeInfo.WellFormed :=
  h.decode ▸ decodeOf_wellFormed _

/-- EX and MEM do not touch the flags of the decoder. -/
theorem Instruction.Passed.wellFormed {inst : Instruction} (h : inst.Passed) :
    inst.toDecodeInfo.WellFormed :=
  h.decode ▸ decodeOf_wellFormed _

/-- A HALT is no padding. -/
theorem Instruction.passed_of_isHalt {inst : Instruction} (h : inst.IsPadding ∨ inst.Passed)
    (hhalt : inst.isHalt = true) : inst.Passed := by
  refine h.resolve_left fun hpad => ?_
  obtain ⟨status, rfl⟩ := hpad
  exact Bool.noConfusion hhalt

/-- The contents of the slots, and what a pending second stall cycle waits for. -/
structure Shape (s : LoopState) : Prop where
  ifSlot : s.ifInst = nop .idle ∨ s.ifInst.Fetched
  idSlot : s.idInst.IsPadding ∨ s.idInst.Decoded
  exSlot : s.exInst.IsPadding ∨ s.exInst.Passed
  memSlot : s.memInst.IsPadding ∨ s.memInst.Passed
  exException : s.exInst.memException = false
  memException : s.memInst.memException = true → s.memInst.status = .squashed
  /-- A second stall cycle is pending only for a branch in ID. -/
  pending : 0 < s.remainingStallCycles → s.remainingStallCycles = 1 ∧
    s.idInst.branchOpcode = true ∧ s.idInst.isLegal = true ∧ s.idInst.isNop = false

namespace Shape

variable {s : LoopState}

/-- Whatever is in ID has well-formed flags. -/
theorem id_wellFormed (h : Shape s) : s.idInst.toDecodeInfo.WellFormed :=
  h.idSlot.elim (·.wellFormed) (·.wellFormed)

/-- Whatever is in EX has well-formed flags. -/
theorem ex_wellFormed (h : Shape s) : s.exInst.toDecodeInfo.WellFormed :=
  h.exSlot.elim (·.wellFormed) (·.wellFormed)

/-- Whatever is in MEM has well-formed flags. -/
theorem mem_wellFormed (h : Shape s) : s.memInst.toDecodeInfo.WellFormed :=
  h.memSlot.elim (·.wellFormed) (·.wellFormed)

/-- An active instruction in ID is a decoded one of status normal. -/
theorem id_of_active (h : Shape s) (hactive : s.idInst.active = true) :
    s.idInst.Decoded ∧ s.idInst.status = .normal := by
  rcases h.idSlot with hpad | hdec
  · rw [hpad.active] at hactive
    exact Bool.noConfusion hactive
  · refine ⟨hdec, hdec.status.resolve_right fun hsq => ?_⟩
    exact (active_iff.mp hactive).2.2 hsq

end Shape

/-! ### What the stage functions make of them -/

section StageFunctions

variable {inst : Instruction}

/-- Squashed padding is padding, of another status. -/
theorem isPadding_squashIf (flush : Bool) (h : inst.IsPadding) :
    (squashIf flush inst).IsPadding := by
  obtain ⟨status, rfl⟩ := h
  exact ⟨if flush then .squashed else status, rfl⟩

/-- A squashed instruction stays decoded. -/
theorem decoded_squashIf (flush : Bool) (h : inst.Decoded) : (squashIf flush inst).Decoded := by
  refine ⟨h.decode, h.numbered, ?_, h.op1Val, h.op2Val, h.arithResult, h.memAddress,
    h.memException, h.memResult⟩
  cases flush
  · exact h.status
  · exact .inr rfl

/-- A squashed instruction stays in EX or MEM, and need not be legal any more. -/
theorem passed_squashIf (flush : Bool) (h : inst.Passed) : (squashIf flush inst).Passed := by
  refine ⟨h.decode, h.numbered, ?_, fun hactive => ?_⟩
  · cases flush
    · exact h.status
    · exact .inr rfl
  · cases flush
    · exact h.legal hactive
    · exact absurd rfl (active_iff.mp hactive).2.2

/-- Forwarding only touches operands that are read. -/
theorem decoded_forwardToID (mem ex : Instruction) (h : inst.Decoded) :
    (forwardToID mem ex inst).Decoded := by
  have hop : (inst.readsRs1 = false → (forwardToID mem ex inst).op1Val = inst.op1Val) ∧
      (inst.readsRs2 = false → (forwardToID mem ex inst).op2Val = inst.op2Val) := by
    refine ⟨fun h1 => ?_, fun h2 => ?_⟩
    · rw [forwardToID_op1Val, h1]
      rfl
    · rw [forwardToID_op2Val, h2]
      rfl
  rw [forwardToID_eq]
  exact ⟨h.decode, h.numbered, h.status, fun h1 => (hop.1 h1).trans (h.op1Val h1),
    fun h2 => (hop.2 h2).trans (h.op2Val h2), h.arithResult, h.memAddress, h.memException,
    h.memResult⟩

/-- Padding reads nothing, so nothing is forwarded to it. -/
theorem isPadding_forwardToID (mem ex : Instruction) (h : inst.IsPadding) :
    (forwardToID mem ex inst).IsPadding := by
  obtain ⟨status, rfl⟩ := h
  exact ⟨status, forwardToID_of_reads_nothing rfl rfl⟩

/-- Predicting the next PC writes `nextPC` only. -/
theorem decoded_simNextPCResolution (h : inst.Decoded) : (simNextPCResolution inst).Decoded :=
  ⟨h.decode, h.numbered, h.status, h.op1Val, h.op2Val, h.arithResult, h.memAddress,
    h.memException, h.memResult⟩

/-- A fetched instruction enters ID with status normal, and nothing else changed. -/
theorem enterID_of_fetched (h : inst.Fetched) : enterID inst = { inst with status := .normal } := by
  have hnop : inst.isNop = false := by rw [h.clear]
  rw [enterID]
  rcases h.status with hst | hst <;> simp [hst, hnop]

/-- What enters ID carries the word and nothing else. -/
theorem enterID_clear (h : inst.Fetched) :
    enterID inst = { toFetchInfo := inst.toFetchInfo, status := .normal } :=
  (enterID_of_fetched h).trans
    (congrArg (fun i : Instruction => { i with status := .normal }) h.clear)

/-- ID decodes a fetched instruction. -/
theorem decoded_simID (sim : Simulator) (h : inst.Fetched) :
    (sim.simID (enterID inst)).1.Decoded := by
  rw [enterID_clear h, simID_of_fresh rfl rfl]
  split
  · exact ⟨rfl, h.numbered, .inl rfl, fun _ => rfl, fun _ => rfl, rfl, rfl, rfl, rfl⟩
  · refine ⟨rfl, h.numbered, .inl rfl, fun h1 => ?_, fun h2 => ?_, rfl, rfl, rfl, rfl⟩
    · have hreads : (decodeOf inst.instruction).readsRs1 = false := h1
      exact if_neg (by simp [hreads])
    · have hreads : (decodeOf inst.instruction).readsRs2 = false := h2
      exact if_neg (by simp [hreads])

/-- ID gives a fetched instruction status normal, also where it stops at HALT or an illegal word.
-/
theorem simID_status (sim : Simulator) (h : inst.Fetched) :
    (sim.simID (enterID inst)).1.status = .normal := by
  rw [enterID_of_fetched h, simID_of_fresh (by rw [h.clear]) (by rw [h.clear]; rfl)]
  split <;> rfl

/-- ID reads the operands of a fetched instruction from the register file. -/
theorem simID_operands (sim : Simulator) (h : inst.Fetched) :
    ((sim.simID (enterID inst)).1.readsRs1 = true →
        (sim.simID (enterID inst)).1.op1Val =
          sim.regData.read (sim.simID (enterID inst)).1.rs1) ∧
      ((sim.simID (enterID inst)).1.readsRs2 = true →
        (sim.simID (enterID inst)).1.op2Val =
          sim.regData.read (sim.simID (enterID inst)).1.rs2) := by
  rw [enterID_clear h, simID_of_fresh rfl rfl]
  split
  · rename_i hstop
    have hinert : (decodeOf inst.instruction).Inert := by
      rw [Bool.or_eq_true, Bool.not_eq_true'] at hstop
      rcases hstop with hhalt | hill
      · exact ((decodeOf_wellFormed _).halt hhalt).2.2.1
      · exact ((decodeOf_wellFormed _).illegal hill).2.2
    exact ⟨fun h1 => absurd (hinert.readsRs1.symm.trans h1) Bool.false_ne_true,
      fun h2 => absurd (hinert.readsRs2.symm.trans h2) Bool.false_ne_true⟩
  · exact ⟨fun h1 => if_pos h1, fun h2 => if_pos h2⟩

/-- EX passes on a decoded instruction that raises no exception. -/
theorem passed_simEX (h : inst.Decoded) (hlegal : raisesIllegalExc inst = false) :
    (simEX inst).Passed ∧ (simEX inst).memException = false := by
  have hpass : inst.active = true → inst.isLegal = true := fun hactive => by
    by_contra hill
    rw [Bool.not_eq_true] at hill
    have hhalt := (h.wellFormed.illegal hill).1
    rw [raisesIllegalExc, hill, hactive, hhalt] at hlegal
    exact Bool.noConfusion hlegal
  cases heff : inst.effective
  · rw [simEX_of_not_effective heff]
    exact ⟨⟨h.decode, h.numbered, h.status, hpass⟩, h.memException⟩
  · rw [simEX_of_effective heff]
    exact ⟨⟨h.decode, h.numbered, .inl rfl, fun _ => (effective_iff.mp heff).2.1⟩,
      h.memException⟩

/-- MEM passes an instruction on; a load that faults keeps its status until the flush. -/
theorem passed_simMEM (fault : Fault) (sim : Simulator) (h : inst.Passed) :
    (sim.simMEM fault inst).1.Passed := by
  have hfetch := simMEM_toFetchInfo fault sim inst
  have hdec := simMEM_toDecodeInfo fault sim inst
  have hword : (sim.simMEM fault inst).1.instruction = inst.instruction := by rw [hfetch]
  have hseq : (sim.simMEM fault inst).1.seq = inst.seq := by rw [hfetch]
  refine ⟨by rw [hdec, hword, h.decode], by rw [hseq]; exact h.numbered, ?_, fun hactive => ?_⟩
  · cases heff : inst.effective
    · rw [simMEM_of_not_effective heff]
      exact h.status
    · rw [simMEM_of_effective heff]
      exact .inl rfl
  · have hlegal : (sim.simMEM fault inst).1.isLegal = inst.isLegal := by rw [hdec]
    rw [hlegal]
    cases heff : inst.effective
    · rw [simMEM_of_not_effective heff] at hactive
      exact h.legal hactive
    · exact (effective_iff.mp heff).2.1

/-- MEM passes padding on. -/
theorem isPadding_simMEM (fault : Fault) (sim : Simulator) (h : inst.IsPadding) :
    (sim.simMEM fault inst).1.IsPadding := by
  rw [simMEM_of_not_effective (by obtain ⟨status, rfl⟩ := h; rfl)]
  exact h

/-- Store data are forwarded to stores, not to padding. -/
theorem isPadding_forwardStoreData (frozen : Bool) (mem : Instruction) (h : inst.IsPadding) :
    (forwardStoreData frozen mem inst).IsPadding := by
  obtain ⟨status, rfl⟩ := h
  exact ⟨status, rfl⟩

/-- Forwarded store data change an operand only. -/
theorem passed_forwardStoreData (frozen : Bool) (mem : Instruction) (h : inst.Passed) :
    (forwardStoreData frozen mem inst).Passed :=
  ⟨h.decode, h.numbered, h.status, h.legal⟩

end StageFunctions

/-! ### Step and run -/

namespace LoopState

variable {fault : Fault} {s : LoopState}

/-- A cycle that raises an illegal-instruction exception has an illegal word in ID. -/
theorem illegal_of_excepted (h : s.excepted = true) :
    s.idInst.isLegal = false ∧ s.idInst.active = true ∧ s.idInst.isHalt = false := by
  simpa [excepted, raisesIllegalExc, and_assoc] using h

/-- The hazard checks keep at most one stall cycle pending, and only behind a branch. -/
theorem pending_of_hazard (h : Shape s) (hpos : 0 < s.hazard.remainingStallCycles) :
    s.hazard.remainingStallCycles = 1 ∧ s.stalled = true ∧ s.idInst.branchOpcode = true ∧
      s.idInst.isLegal = true ∧ s.idInst.isNop = false := by
  revert hpos
  rw [stalled, hazard, detectHazard]
  by_cases hrem : s.remainingStallCycles > 0
  · rw [if_pos hrem]
    intro hpos
    have := (h.pending hrem).1
    exact absurd hpos (by simp [this])
  · rw [if_neg hrem]
    have hload : 0 < (detectLoadHazard s.exInst s.idInst).remainingStallCycles →
        (detectLoadHazard s.exInst s.idInst) = ⟨true, 1, 1⟩ ∧
          isBranchOrJump s.idInst = true := by
      unfold detectLoadHazard
      dsimp only
      split_ifs <;> simp_all
    intro hpos
    have hpos' : 0 < (detectLoadHazard s.exInst s.idInst).remainingStallCycles := by
      revert hpos
      dsimp only
      split_ifs <;> exact id
    obtain ⟨heq, hbranch⟩ := hload hpos'
    rw [heq]
    have hbr : (s.idInst.branchOpcode = true ∧ s.idInst.isLegal = true) ∧
        s.idInst.active = true := by
      simpa [isBranchOrJump, DecodeInfo.branchOpcode] using hbranch
    exact ⟨rfl, rfl, hbr.1.1, hbr.1.2, (active_iff.mp hbr.2).1⟩

end LoopState

namespace Shape

variable {fault : Fault} {s : LoopState}

/-- All slots are idle at the start. -/
theorem init (iCacheConfig dCacheConfig : CacheConfig) (mem : MemoryStore) :
    Shape (enter (initSimulator iCacheConfig dCacheConfig mem)) where
  ifSlot := .inl rfl
  idSlot := .inl ⟨.idle, rfl⟩
  exSlot := .inl ⟨.idle, rfl⟩
  memSlot := .inl ⟨.idle, rfl⟩
  exException := rfl
  memException := Bool.noConfusion
  pending h := absurd h (Nat.lt_irrefl 0)

/-- The instruction in ID after forwarding. -/
theorem idForwarded (h : Shape s) : s.idForwarded.IsPadding ∨ s.idForwarded.Decoded :=
  h.idSlot.imp (isPadding_forwardToID _ _) (decoded_forwardToID _ _)

/-- What the ID stage leaves in ID. -/
theorem idOut (fault : Fault) (h : Shape s) :
    (s.idOut fault).1.IsPadding ∨ (s.idOut fault).1.Decoded := by
  obtain ⟨-, hout⟩ | ⟨-, status, hout⟩ | ⟨-, hout⟩ | ⟨-, hout⟩ := s.idOut_cases fault
  · rw [hout]
    exact h.idForwarded
  · rw [hout]
    exact .inl ⟨status, rfl⟩
  · rw [hout]
    dsimp only
    split
    · rename_i hbr
      rcases h.idForwarded with hpad | hdec
      · rw [hpad.not_branch] at hbr
        exact Bool.noConfusion hbr
      · exact .inr (decoded_simNextPCResolution hdec)
    · exact h.idForwarded
  · rw [hout]
    rcases h.ifSlot with hidle | hfetched
    · rw [hidle]
      exact .inl ⟨.idle, rfl⟩
    · exact .inr (decoded_simID _ hfetched)

/-- What the EX stage leaves in EX. -/
theorem exOut (h : Shape s) :
    (s.exOut.IsPadding ∨ s.exOut.Passed) ∧ s.exOut.memException = false := by
  obtain ⟨-, hout⟩ | ⟨status, hout⟩ | ⟨⟨-, hexc, -⟩, hout⟩ := s.exOut_cases
  · rw [hout]
    exact ⟨h.exSlot, h.exException⟩
  · rw [hout]
    exact ⟨.inl ⟨status, rfl⟩, rfl⟩
  · rw [hout]
    rcases h.idForwarded with ⟨status, hnop⟩ | hdec
    · rw [hnop]
      exact ⟨.inl ⟨status, rfl⟩, rfl⟩
    · have hlegal : raisesIllegalExc s.idForwarded = false := by
        rw [← hexc, LoopState.excepted, LoopState.idForwarded, forwardToID_eq]
        rfl
      exact (passed_simEX hdec hlegal).imp_left .inr

/-- What the MEM stage leaves in MEM. -/
theorem memOut (fault : Fault) (h : Shape s) :
    (s.memOut fault).1.IsPadding ∨ (s.memOut fault).1.Passed := by
  cases hz : s.frozen
  · rw [LoopState.memOut_of_not_frozen fault hz]
    exact h.exSlot.imp
      (fun hpad => isPadding_simMEM fault _ (isPadding_forwardStoreData _ _ hpad))
      (fun hpass => passed_simMEM fault _ (passed_forwardStoreData _ _ hpass))
  · rw [LoopState.memOut_of_frozen fault hz]
    exact h.memSlot

/-- A pending stall cycle keeps its branch in ID. -/
theorem pending_cycle (h : Shape s) (hpos : 0 < (cycle fault s).remainingStallCycles) :
    (cycle fault s).remainingStallCycles = 1 ∧ (cycle fault s).idInst.branchOpcode = true ∧
      (cycle fault s).idInst.isLegal = true ∧ (cycle fault s).idInst.isNop = false := by
  rw [LoopState.cycle_remainingStallCycles] at hpos ⊢
  obtain ⟨hone, hstall, hbr, hlegal, hnop⟩ := LoopState.pending_of_hazard h hpos
  have hexc : s.excepted = false := Bool.eq_false_iff.mpr fun hexc => by
    rw [(LoopState.illegal_of_excepted hexc).1] at hlegal
    exact Bool.noConfusion hlegal
  have hheld : (s.idOut fault).1.toDecodeInfo = s.idInst.toDecodeInfo := by
    cases hz : s.frozen
    · rw [LoopState.idOut_of_stalled fault hz hexc hstall]
      dsimp only
      split
      · exact forwardToID_toDecodeInfo _ _ _
      · exact forwardToID_toDecodeInfo _ _ _
    · rw [LoopState.idOut_of_frozen fault hz]
      exact forwardToID_toDecodeInfo _ _ _
  have hdec : (RvPipeSim.cycle fault s).idInst.toDecodeInfo = s.idInst.toDecodeInfo := by
    rw [LoopState.cycle_idInst, ← hheld]
    rfl
  rw [hdec]
  exact ⟨hone, hbr, hlegal, hnop⟩

/-- **One cycle keeps the shape of the slots.** -/
theorem cycle (h : Shape s) : Shape (RvPipeSim.cycle fault s) where
  ifSlot := by
    cases hfetch : s.refetched fault
    · rw [(LoopState.cycle_of_not_refetched fault s hfetch).2]
      exact h.ifSlot
    · obtain ⟨-, PC, status, hstatus, hif⟩ := LoopState.cycle_of_refetched fault s hfetch
      rw [hif]
      exact .inr ⟨rfl, rfl, hstatus⟩
  idSlot := by
    rw [LoopState.cycle_idInst]
    exact (h.idOut fault).imp (isPadding_squashIf _) (decoded_squashIf _)
  exSlot := by
    rw [LoopState.cycle_exInst]
    exact h.exOut.1.imp (isPadding_squashIf _) (passed_squashIf _)
  memSlot := by
    rw [LoopState.cycle_memInst]
    exact (h.memOut fault).imp (isPadding_squashIf _) (passed_squashIf _)
  exException := by
    rw [LoopState.cycle_exInst]
    exact h.exOut.2
  memException := fun hexc => by
    rw [LoopState.cycle_memInst] at hexc ⊢
    have hmem : s.memExc fault = true := hexc
    rw [squashIf, if_pos hmem]
  pending := h.pending_cycle

/-- The slots are the same when `runCycles` is entered again. -/
theorem reenter (h : Shape s) : Shape (RvPipeSim.reenter s) :=
  ⟨h.ifSlot, h.idSlot, h.exSlot, h.memSlot, h.exException, h.memException, h.pending⟩

/-- **The slots keep their shape in every run.** -/
theorem of_run {ok : LoopState → Prop} {iCacheConfig dCacheConfig : CacheConfig}
    {mem : MemoryStore} {visited : List LoopState}
    (h : PipelineRun fault ok iCacheConfig dCacheConfig mem visited s) :
    Shape s ∧ ∀ t ∈ visited, Shape t :=
  h.invariant Shape (init iCacheConfig dCacheConfig mem) (fun _ hs _ => hs.cycle) (fun _ => reenter)

end Shape

end RvPipeSim
