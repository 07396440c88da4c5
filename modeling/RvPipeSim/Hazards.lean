import RvPipeSim.Shape

/-!
# Data hazards are resolved

An instruction that enters EX must see its source registers as the older instructions in
MEM and EX will leave them; a store that enters MEM must carry the data its source
register will hold. `retireMEM` and `retireEX` are these older instructions retired by the
stage functions themselves.

The invariant `Operands` says what an instruction waiting in ID knows of a source
register: its operand is what the register file holds, unless an older instruction that
writes the register is still in EX or MEM. The operand of such a register is *owed*, and
the forwarding paths pay it before the instruction leaves.

## Main results

* `forwardedValue_eq` — forwarding pays what MEM owes;
* `Operands.cycle` — one cycle keeps the operands;
* `operands_resolved` — in every cycle EX and MEM are handed what the older instructions leave.
-/

namespace RvPipeSim

open Simulator ObservedRun

namespace LoopState

/-- The simulator once the instruction in MEM has retired. -/
def retireMEM (s : LoopState) : Simulator := (s.simulator.simWB s.memInst).2

/-- The simulator once the instructions in MEM and EX have retired. -/
def retireEX (fault : Fault) (s : LoopState) : Simulator :=
  let (exInst, sim) := s.retireMEM.simMEM fault (forwardStoreData false s.memInst s.exInst)
  (sim.simWB exInst).2

/-- `value` is what register `r` holds, or an older instruction is about to write `r`. -/
def HoldsOperand (s : LoopState) (r : BitVec 5) (value : BitVec 64) : Prop :=
  s.exInst.forwards r = true ∨ s.memInst.forwards r = true ∨ value = s.simulator.regData.read r

/-- The operand of register `r` after forwarding, if it was `value`. -/
def forwardedValue (s : LoopState) (r : BitVec 5) (value : BitVec 64) : BitVec 64 :=
  if s.exInst.forwards r then s.exInst.arithResult
  else if s.memInst.forwards r then forwardValue s.memInst
  else value

end LoopState

/-- What the operands held in ID and EX are worth. -/
structure Operands (s : LoopState) : Prop where
  op1 : s.idInst.active = true → s.idInst.readsRs1 = true →
    s.HoldsOperand s.idInst.rs1 s.idInst.op1Val
  op2 : s.idInst.active = true → s.idInst.readsRs2 = true →
    s.HoldsOperand s.idInst.rs2 s.idInst.op2Val
  /-- Store data may still be owed by the instruction in MEM. -/
  storeData : isStore s.exInst = true →
    s.memInst.forwards s.exInst.rs2 = true ∨
      s.exInst.op2Val = s.simulator.regData.read s.exInst.rs2

/-! ### The registers after WB and MEM -/

namespace LoopState

variable {fault : Fault} {s : LoopState} {r : BitVec 5} {value : BitVec 64}

/-- Forwarding store data to EX does not change which register it forwards to ID. -/
theorem exForwarded_forwards (s : LoopState) (r : BitVec 5) :
    s.exForwarded.forwards r = s.exInst.forwards r :=
  forwards_congr rfl rfl r

/-- The first operand of ID after forwarding, if the instruction reads one. -/
theorem idForwarded_op1Val (s : LoopState) :
    s.idForwarded.op1Val =
      if s.idInst.readsRs1 then s.forwardedValue s.idInst.rs1 s.idInst.op1Val
      else s.idInst.op1Val := by
  rw [idForwarded, forwardToID_op1Val, exForwarded_forwards]
  cases s.idInst.readsRs1 <;> rfl

/-- The second operand of ID after forwarding, if the instruction reads one. -/
theorem idForwarded_op2Val (s : LoopState) :
    s.idForwarded.op2Val =
      if s.idInst.readsRs2 then s.forwardedValue s.idInst.rs2 s.idInst.op2Val
      else s.idInst.op2Val := by
  rw [idForwarded, forwardToID_op2Val, exForwarded_forwards]
  cases s.idInst.readsRs2 <;> rfl

/-- A register once the instruction in MEM has retired. -/
theorem retireMEM_read (h : Shape s) (r : BitVec 5) :
    s.retireMEM.regData.read r =
      if s.memInst.forwards r then forwardValue s.memInst else s.simulator.regData.read r :=
  simWB_read (fun hhalt => (h.mem_wellFormed.halt hhalt).2.2.1.writesRd) r

/-- **Forwarding pays.** After forwarding, an operand is owed by EX only. -/
theorem forwardedValue_eq (h : Shape s) (hheld : s.HoldsOperand r value)
    (hex : s.exInst.forwards r = false) :
    s.forwardedValue r value = s.retireMEM.regData.read r := by
  rw [forwardedValue, hex, if_neg Bool.false_ne_true, retireMEM_read h]
  rcases hheld with hheld | hheld | hheld
  · rw [hex] at hheld
    exact Bool.noConfusion hheld
  · rw [if_pos hheld, if_pos hheld]
  · rw [hheld]

/-- ID changes neither registers nor memory. -/
theorem idOut_frame (hz : s.frozen = false) :
    (s.idOut fault).2.regData = (s.memOut fault).2.regData ∧
      (s.idOut fault).2.memory = (s.memOut fault).2.memory := by
  obtain ⟨hz', -⟩ | ⟨-, status, hout⟩ | ⟨-, hout⟩ | ⟨-, hout⟩ := s.idOut_cases fault
  · exact Bool.noConfusion (hz.symm.trans hz')
  · rw [hout]
    exact ⟨rfl, rfl⟩
  · rw [hout]
    exact ⟨rfl, rfl⟩
  · rw [hout]
    exact simID_frame _ _

/-- The registers after an unfrozen cycle: the instruction in MEM has retired. -/
theorem regData_cycle (hz : s.frozen = false) :
    (cycle fault s).simulator.regData = s.retireMEM.regData := by
  rw [cycle_simulator, (idOut_frame hz).1, memOut_of_not_frozen fault hz, simMEM_regData,
    simAfterWB_of_not_frozen hz, retireMEM]

/-- The memory after an unfrozen cycle: the instruction in EX has made its access. -/
theorem memory_cycle (h : Shape s) (hz : s.frozen = false) :
    (cycle fault s).simulator.memory =
      if isStore s.exInst then storedMemory s.exForwarded s.simulator.memory
      else s.simulator.memory := by
  have hstore : isStore s.exForwarded = isStore s.exInst := rfl
  rw [cycle_simulator, (idOut_frame hz).2, memOut_of_not_frozen fault hz,
    simMEM_memory fault _ (show s.exForwarded.toDecodeInfo.WellFormed from h.ex_wellFormed),
    simAfterWB_of_not_frozen hz, simWB_memory, hstore]

/-- A frozen cycle leaves the simulator alone. -/
theorem simulator_cycle_of_frozen (hz : s.frozen = true) :
    (cycle fault s).simulator = s.simulator := by
  rw [cycle_simulator, idOut_of_frozen fault hz]

/-- A frozen cycle leaves MEM alone: what faulted there is already squashed. -/
theorem memInst_cycle_of_frozen (h : Shape s) (hz : s.frozen = true) :
    (cycle fault s).memInst = s.memInst := by
  rw [cycle_memInst, memExc, memOut_of_frozen fault hz]
  dsimp only
  cases hexc : s.memInst.memException
  · rfl
  · have hsq := h.memException hexc
    rw [squashIf, if_pos rfl, ← hsq]

/-- What was in EX writes the same registers from MEM. -/
theorem memInst_forwards_cycle (hz : s.frozen = false) (hmem : s.memExc fault = false)
    (r : BitVec 5) : (cycle fault s).memInst.forwards r = s.exInst.forwards r := by
  rw [cycle_memInst, hmem, memOut_of_not_frozen fault hz]
  exact (forwards_congr (simMEM_toDecodeInfo _ _ _) (simMEM_active _ _ _) r).trans
    (exForwarded_forwards s r)

/-- A memory exception flushes, unless an illegal instruction has come first. -/
theorem memExc_of_not_flush (hflush : s.flush fault = false) (hexc : s.excepted = false) :
    s.memExc fault = false := by
  rwa [flush, hexc, Bool.not_false, Bool.and_true] at hflush

/-- In a cycle that holds ID, the forwarded operand is held after it. -/
theorem holdsOperand_of_held (h : Shape s) (hheld : s.HoldsOperand r value)
    (hflush : s.flush fault = false)
    (hcase : s.frozen = true ∨ s.frozen = false ∧ s.excepted = false ∧ s.stalled = true) :
    (cycle fault s).HoldsOperand r (s.forwardedValue r value) := by
  rcases hcase with hz | ⟨hz, hexc, hst⟩
  · have hex : (cycle fault s).exInst = s.exInst := by
      rw [cycle_exInst, hflush, exOut_of_frozen hz]
      rfl
    rw [HoldsOperand, hex, memInst_cycle_of_frozen h hz, simulator_cycle_of_frozen hz,
      forwardedValue]
    rcases hheld with hheld | hheld | hheld
    · exact .inl hheld
    · exact .inr (.inl hheld)
    · cases hfe : s.exInst.forwards r
      · cases hfm : s.memInst.forwards r
        · exact .inr (.inr hheld)
        · exact .inr (.inl rfl)
      · exact .inl rfl
  · have hmem := memExc_of_not_flush hflush hexc
    cases hfe : s.exInst.forwards r
    · refine .inr (.inr ?_)
      rw [regData_cycle hz]
      exact forwardedValue_eq h hheld hfe
    · exact .inr (.inl ((memInst_forwards_cycle hz hmem r).trans hfe))

end LoopState

/-! ### Step and run -/

namespace Operands

variable {fault : Fault} {s : LoopState}

/-- The slots are empty at the start. -/
theorem init (iCacheConfig dCacheConfig : CacheConfig) (mem : MemoryStore) :
    Operands (enter (initSimulator iCacheConfig dCacheConfig mem)) :=
  ⟨Bool.noConfusion, Bool.noConfusion, Bool.noConfusion⟩

/-- What waits in ID after a cycle holds its operands. -/
theorem holdsOperand_cycle (h : Shape s) (ho : Operands s)
    (hactive : (RvPipeSim.cycle fault s).idInst.active = true) :
    ((RvPipeSim.cycle fault s).idInst.readsRs1 = true →
        (RvPipeSim.cycle fault s).HoldsOperand (RvPipeSim.cycle fault s).idInst.rs1
          (RvPipeSim.cycle fault s).idInst.op1Val) ∧
      ((RvPipeSim.cycle fault s).idInst.readsRs2 = true →
        (RvPipeSim.cycle fault s).HoldsOperand (RvPipeSim.cycle fault s).idInst.rs2
          (RvPipeSim.cycle fault s).idInst.op2Val) := by
  -- in both cycles that hold ID, it keeps its decode part and takes the forwarded operands
  have hheld : ∀ inst : Instruction, s.flush fault = false →
      (s.frozen = true ∨ s.frozen = false ∧ s.excepted = false ∧ s.stalled = true) →
      (inst.active = true → s.idInst.active = true) → inst.toDecodeInfo = s.idInst.toDecodeInfo →
      inst.op1Val = s.idForwarded.op1Val → inst.op2Val = s.idForwarded.op2Val →
      inst.active = true →
      (inst.readsRs1 = true → (RvPipeSim.cycle fault s).HoldsOperand inst.rs1 inst.op1Val) ∧
        (inst.readsRs2 = true → (RvPipeSim.cycle fault s).HoldsOperand inst.rs2 inst.op2Val) := by
    intro inst hflush hcase hact hdec hop1 hop2 hinst
    refine ⟨fun hreads => ?_, fun hreads => ?_⟩
    · rw [hdec] at hreads
      rw [hop1, LoopState.idForwarded_op1Val, if_pos hreads, hdec]
      exact LoopState.holdsOperand_of_held h (ho.op1 (hact hinst) hreads) hflush hcase
    · rw [hdec] at hreads
      rw [hop2, LoopState.idForwarded_op2Val, if_pos hreads, hdec]
      exact LoopState.holdsOperand_of_held h (ho.op2 (hact hinst) hreads) hflush hcase
  obtain ⟨hflush, ⟨hz, heq⟩ | ⟨⟨hz, hexc, hst⟩, heq⟩ | ⟨⟨hz, hexc, hst, hsv, hmp⟩, heq⟩⟩ :=
    LoopState.idInst_of_active hactive
  · rw [heq] at hactive ⊢
    refine hheld _ hflush (.inl hz) (fun ha => ?_) (forwardToID_toDecodeInfo _ _ _) rfl rfl hactive
    rwa [LoopState.idForwarded_active] at ha
  · rw [heq] at hactive ⊢
    refine hheld _ hflush (.inr ⟨hz, hexc, hst⟩) (fun ha => ?_) ?_ ?_ ?_ hactive
    · rw [← LoopState.idForwarded_active]
      split at ha <;> exact ha
    · split <;> exact forwardToID_toDecodeInfo _ _ _
    · split <;> rfl
    · split <;> rfl
  · have hregs : (RvPipeSim.cycle fault s).simulator.regData = (s.memOut fault).2.regData := by
      rw [LoopState.cycle_simulator, LoopState.idOut_of_decoding fault hz hexc hst hsv hmp]
      exact (simID_frame _ _).1
    rw [heq] at hactive ⊢
    rcases h.ifSlot with hidle | hfetched
    · rw [hidle] at hactive
      exact Bool.noConfusion hactive
    · obtain ⟨h1, h2⟩ := simID_operands (s.memOut fault).2 hfetched
      exact ⟨fun hreads => .inr (.inr (by rw [hregs]; exact h1 hreads)),
        fun hreads => .inr (.inr (by rw [hregs]; exact h2 hreads))⟩

/-- Store data in EX after a cycle. -/
theorem storeData_cycle (h : Shape s) (ho : Operands s)
    (hstore : isStore (RvPipeSim.cycle fault s).exInst = true) :
    (RvPipeSim.cycle fault s).memInst.forwards (RvPipeSim.cycle fault s).exInst.rs2 = true ∨
      (RvPipeSim.cycle fault s).exInst.op2Val =
        (RvPipeSim.cycle fault s).simulator.regData.read (RvPipeSim.cycle fault s).exInst.rs2 := by
  have hparts : ((RvPipeSim.cycle fault s).exInst.writesMem = true ∧
      (RvPipeSim.cycle fault s).exInst.isLegal = true) ∧
      (RvPipeSim.cycle fault s).exInst.active = true := by
    simpa [isStore, and_assoc] using hstore
  obtain ⟨hflush, ⟨hz, heq⟩ | ⟨⟨hz, hexc, hst⟩, heq⟩⟩ := LoopState.exInst_of_active hparts.2
  · rw [heq] at hstore ⊢
    rw [LoopState.memInst_cycle_of_frozen h hz, LoopState.simulator_cycle_of_frozen hz]
    exact ho.storeData hstore
  · have hmem := LoopState.memExc_of_not_flush hflush hexc
    have hdec : (simEX s.idForwarded).toDecodeInfo = s.idInst.toDecodeInfo := by
      rw [simEX_toDecodeInfo]
      exact forwardToID_toDecodeInfo _ _ _
    have hactive : s.idInst.active = true := by
      have := hparts.2
      rwa [heq, simEX_active, LoopState.idForwarded_active] at this
    have hwrites : s.idInst.writesMem = true := by
      have := hparts.1.1
      rwa [heq, hdec] at this
    obtain ⟨-, harith, -, -, hreads, -⟩ := h.id_wellFormed.store hwrites
    have hop2 : (simEX s.idForwarded).op2Val = s.idForwarded.op2Val := by
      have harith' : s.idForwarded.doesArithLogic = false :=
        (congrArg DecodeInfo.doesArithLogic (forwardToID_toDecodeInfo _ _ _)).trans harith
      cases heff : s.idForwarded.effective
      · rw [simEX_of_not_effective heff]
      · rw [simEX_of_effective heff, harith']
        rfl
    rw [heq, hop2, LoopState.idForwarded_op2Val, if_pos hreads, hdec,
      LoopState.memInst_forwards_cycle hz hmem, LoopState.regData_cycle hz]
    cases hfe : s.exInst.forwards s.idInst.rs2
    · exact .inr (LoopState.forwardedValue_eq h (ho.op2 hactive hreads) hfe)
    · exact .inl rfl

/-- **One cycle keeps the operands.** -/
theorem cycle (h : Shape s) (ho : Operands s) : Operands (RvPipeSim.cycle fault s) where
  op1 hactive := (holdsOperand_cycle h ho hactive).1
  op2 hactive := (holdsOperand_cycle h ho hactive).2
  storeData := storeData_cycle h ho

/-- Entering `runCycles` again changes no operand. -/
theorem reenter (ho : Operands s) : Operands (RvPipeSim.reenter s) :=
  ⟨ho.op1, ho.op2, ho.storeData⟩

/-- The operands are worth what they should be in every state of a run. -/
theorem of_run {ok : LoopState → Prop} {iCacheConfig dCacheConfig : CacheConfig}
    {mem : MemoryStore} {visited : List LoopState}
    (h : PipelineRun fault ok iCacheConfig dCacheConfig mem visited s) :
    (Shape s ∧ Operands s) ∧ ∀ t ∈ visited, Shape t ∧ Operands t :=
  h.invariant (fun s => Shape s ∧ Operands s)
    ⟨.init iCacheConfig dCacheConfig mem, init iCacheConfig dCacheConfig mem⟩
    (fun _ hs _ => ⟨hs.1.cycle, cycle hs.1 hs.2⟩)
    (fun _ hs => ⟨hs.1.reenter, hs.2.reenter⟩)

end Operands

/-! ### At the door of EX and of MEM -/

namespace LoopState

variable {fault : Fault} {s : LoopState}

/-- A hazard that is not stalled on is none: no load in EX writes a register that ID needs
in EX. -/
theorem not_load_of_moving (hst : s.stalled = false) {r : BitVec 5}
    (hfw : s.exInst.forwards r = true) (hactive : s.idInst.active = true)
    (hlegal : s.idInst.isLegal = true)
    (hneeds : s.idInst.readsRs1 = true ∧ s.idInst.rs1 = r ∨
      s.idInst.readsRs2 = true ∧ s.idInst.rs2 = r ∧ s.idInst.writesMem = false) :
    isLoad s.exInst = false := by
  rw [Bool.eq_false_iff]
  intro hload
  have hparts : s.exInst.rd ≠ 0 ∧ s.exInst.rd = r := by
    simp only [Instruction.forwards, writesREG, Bool.and_eq_true, bne_iff_ne, beq_iff_eq] at hfw
    exact ⟨hfw.1.1.1.2, hfw.2⟩
  have hstore : isStore s.idInst = s.idInst.writesMem := by
    rw [isStore, hlegal, hactive, Bool.and_true, Bool.and_true]
  have hreads : (s.idInst.writesMem = true → readsRs1From s.idInst s.exInst.rd = true) ∧
      (s.idInst.writesMem = false →
        (readsRs1From s.idInst s.exInst.rd || readsRs2From s.idInst s.exInst.rd) = true) := by
    simp only [readsRs1From, readsRs2From, Bool.and_eq_true, Bool.or_eq_true, beq_iff_eq,
      bne_iff_ne]
    rcases hneeds with ⟨hr, hrs⟩ | ⟨hr, hrs, hw⟩
    · have h1 : (s.idInst.readsRs1 = true ∧ s.idInst.rs1 = s.exInst.rd) ∧ s.exInst.rd ≠ 0 :=
        ⟨⟨hr, hrs.trans hparts.2.symm⟩, hparts.1⟩
      exact ⟨fun _ => h1, fun _ => .inl h1⟩
    · exact ⟨fun hw' => by simp [hw] at hw',
        fun _ => .inr ⟨⟨hr, hrs.trans hparts.2.symm⟩, hparts.1⟩⟩
  have hdetect : (detectLoadHazard s.exInst s.idInst).stall = true := by
    rw [detectLoadHazard, if_pos hload, hstore]
    dsimp only
    cases hw : s.idInst.writesMem
    · rw [if_neg Bool.false_ne_true, hreads.2 hw, if_pos rfl, if_pos rfl]
      split <;> rfl
    · rw [if_pos rfl, hreads.1 hw]
      rfl
  rw [stalled, hazard, detectHazard] at hst
  by_cases hrem : s.remainingStallCycles > 0
  · rw [if_pos hrem] at hst
    exact Bool.noConfusion hst
  · rw [if_neg hrem] at hst
    dsimp only at hst
    rw [hdetect, Bool.not_true, Bool.false_and, if_neg Bool.false_ne_true, hdetect] at hst
    exact Bool.noConfusion hst

/-- An operand that is forwarded into EX is what the register holds once the older
instructions have retired. -/
theorem forwardedValue_eq_retireEX (h : Shape s) (hz : s.frozen = false) {r : BitVec 5}
    {value : BitVec 64} (hheld : s.HoldsOperand r value)
    (hload : s.exInst.forwards r = true → isLoad s.exInst = false) :
    s.forwardedValue r value = (s.retireEX fault).regData.read r := by
  have hmem : s.memOut fault =
      s.retireMEM.simMEM fault (forwardStoreData false s.memInst s.exInst) := by
    rw [memOut_of_not_frozen fault hz, simAfterWB_of_not_frozen hz, exForwarded, hz, retireMEM]
  have hread : (s.retireEX fault).regData.read r =
      if s.exInst.forwards r then forwardValue (s.memOut fault).1
      else s.retireMEM.regData.read r := by
    have hfw : (s.memOut fault).1.forwards r = s.exInst.forwards r := by
      rw [hmem]
      exact (forwards_congr (simMEM_toDecodeInfo _ _ _) (simMEM_active _ _ _) r).trans
        (forwards_congr rfl rfl r)
    have hregs : (s.memOut fault).2.regData = s.retireMEM.regData := by
      rw [hmem, simMEM_regData]
    have hhalt : (s.memOut fault).1.isHalt = true → (s.memOut fault).1.writesRd = false := by
      have hdec : (s.memOut fault).1.toDecodeInfo = s.exInst.toDecodeInfo := by
        rw [hmem, simMEM_toDecodeInfo]
        rfl
      rw [hdec]
      exact fun hhalt => (h.ex_wellFormed.halt hhalt).2.2.1.writesRd
    have hex : s.retireEX fault = ((s.memOut fault).2.simWB (s.memOut fault).1).2 := by
      rw [hmem, retireEX]
    rw [hex, simWB_read hhalt, hfw, hregs]
  rw [hread]
  cases hfe : s.exInst.forwards r
  · exact forwardedValue_eq h hheld hfe
  · -- an ALU result, which MEM passes through
    have hnl := hload hfe
    have hparts : s.exInst.isLegal = true ∧ s.exInst.active = true := by
      simp only [Instruction.forwards, writesREG, Bool.and_eq_true] at hfe
      exact ⟨hfe.1.1.2, hfe.1.2⟩
    have hreads : s.exInst.readsMem = false := by
      rwa [isLoad, hparts.1, hparts.2, Bool.and_true, Bool.and_true] at hnl
    have hnl' : isLoad (s.memOut fault).1 = false := by
      have hdec : (s.memOut fault).1.readsMem = s.exInst.readsMem := by
        rw [hmem, simMEM_toDecodeInfo]
        rfl
      rw [isLoad, hdec, hreads, Bool.false_and, Bool.false_and]
    rw [if_pos rfl, forwardedValue, if_pos hfe, forwardValue, hnl', if_neg Bool.false_ne_true,
      hmem, simMEM_of_not_load (by exact hreads)]
    rfl

/-- The operands of an instruction that leaves ID, store data aside, are what its source
registers hold once EX and MEM have retired. -/
theorem operands_eq (h : Shape s) (ho : Operands s) (hz : s.frozen = false)
    (hst : s.stalled = false) (hactive : s.idInst.active = true)
    (hlegal : s.idInst.isLegal = true) :
    (s.idInst.readsRs1 = true →
        s.idForwarded.op1Val = (s.retireEX fault).regData.read s.idInst.rs1) ∧
      (s.idInst.readsRs2 = true → s.idInst.writesMem = false →
        s.idForwarded.op2Val = (s.retireEX fault).regData.read s.idInst.rs2) := by
  refine ⟨fun hreads => ?_, fun hreads hnostore => ?_⟩
  · rw [idForwarded_op1Val, if_pos hreads]
    exact forwardedValue_eq_retireEX h hz (ho.op1 hactive hreads) fun hfw =>
      not_load_of_moving hst hfw hactive hlegal (.inl ⟨hreads, rfl⟩)
  · rw [idForwarded_op2Val, if_pos hreads]
    exact forwardedValue_eq_retireEX h hz (ho.op2 hactive hreads) fun hfw =>
      not_load_of_moving hst hfw hactive hlegal (.inr ⟨hreads, rfl, hnostore⟩)

/-- Store data handed to MEM is what the register holds once MEM has retired. -/
theorem storeData_eq (h : Shape s) (ho : Operands s) (hstore : isStore s.exInst = true) :
    (forwardStoreData false s.memInst s.exInst).op2Val =
      s.retireMEM.regData.read s.exInst.rs2 := by
  rw [forwardStoreData, retireMEM_read h]
  dsimp only
  rw [hstore, Bool.true_and, Bool.not_false, Bool.and_true]
  cases hfm : s.memInst.forwards s.exInst.rs2
  · rcases ho.storeData hstore with hfw | hval
    · rw [hfm] at hfw
      exact Bool.noConfusion hfw
    · rw [hval, if_neg Bool.false_ne_true]
      have hno : ¬ (writesREG s.memInst = true ∧
          (s.exInst.rs2 == s.memInst.rd && s.memInst.rd != 0) = true) := by
        rintro ⟨hw, hrs⟩
        rw [Bool.and_eq_true, beq_iff_eq] at hrs
        rw [Instruction.forwards, hw, hrs.1, beq_self_eq_true] at hfm
        exact Bool.noConfusion hfm
      split_ifs with hw hrs
      · exact absurd ⟨hw, hrs⟩ hno
      · rfl
      · rfl
  · rw [Instruction.forwards, Bool.and_eq_true, beq_iff_eq] at hfm
    have hrd : (s.memInst.rd != 0) = true := bne_iff_ne.mpr (rd_ne_zero_of_writesREG hfm.1)
    rw [if_pos hfm.1, ← hfm.2, beq_self_eq_true, hrd]
    rfl

end LoopState

/-- **Data hazards are fully resolved.** In every cycle of every run, the operands of a
legal instruction handed to `simEX` are what its source registers hold once the older
instructions in MEM and EX have retired, store data aside; and the data of a store handed
to `simMEM` are what its register holds once the older instruction in MEM has retired. -/
theorem operands_resolved {fault : Fault} {iCacheConfig dCacheConfig : CacheConfig}
    {mem : MemoryStore} {visited : List LoopState} {s : LoopState}
    (h : PipelineRun fault anyCycle iCacheConfig dCacheConfig mem visited s) :
    (∀ inst, s.exCall = some inst → inst.active = true → inst.isLegal = true →
      (inst.readsRs1 = true → inst.op1Val = (s.retireEX fault).regData.read inst.rs1) ∧
        (inst.readsRs2 = true → inst.writesMem = false →
          inst.op2Val = (s.retireEX fault).regData.read inst.rs2)) ∧
      (∀ inst, s.memCall = some inst → isStore inst = true →
        inst.op2Val = s.retireMEM.regData.read inst.rs2) := by
  obtain ⟨hshape, hops⟩ := (Operands.of_run h).1
  refine ⟨fun inst hcall hactive hlegal => ?_, fun inst hcall hstore => ?_⟩
  · simp only [LoopState.exCall, Option.ite_none_left_eq_some, Bool.or_eq_true, not_or,
      Bool.not_eq_true, Option.some.injEq] at hcall
    obtain ⟨⟨⟨hz, -⟩, hst⟩, rfl⟩ := hcall
    rw [LoopState.idForwarded_active] at hactive
    rw [s.idForwarded_toDecodeInfo] at hlegal ⊢
    exact LoopState.operands_eq hshape hops hz hst hactive hlegal
  · simp only [LoopState.memCall, Option.ite_none_left_eq_some, Bool.not_eq_true,
      Option.some.injEq] at hcall
    obtain ⟨hz, rfl⟩ := hcall
    rw [LoopState.exForwarded, hz]
    exact LoopState.storeData_eq hshape hops hstore

/-- `addi x1, x0, 5` in EX, `add x2, x1, x1` leaving ID: both operands come out as 5. -/
theorem operands_resolved_add :
    let mem : MemoryStore := .image fun | 0 => 0x00500093 | 1 => 0x00108133 | _ => 0x00000013
    let s := (cycle accessFault)^[4] (enter (initSimulator (.oneBlock 64) (.oneBlock 64) mem))
    (s.exInst.instruction = 0x00500093 ∧ s.exCall.map (·.op1Val) = some 5) ∧
      (∀ inst, s.exCall = some inst → inst.active = true → inst.isLegal = true →
        (inst.readsRs1 = true → inst.op1Val = (s.retireEX accessFault).regData.read inst.rs1) ∧
          (inst.readsRs2 = true → inst.writesMem = false →
            inst.op2Val = (s.retireEX accessFault).regData.read inst.rs2)) := by
  intro mem s
  have hrun : PipelineRun accessFault anyCycle (.oneBlock 64) (.oneBlock 64) mem _ s :=
    run_iterate fun _ _ => trivial
  exact ⟨⟨by decide +kernel, by decide +kernel⟩, (operands_resolved hrun).1⟩

end RvPipeSim
