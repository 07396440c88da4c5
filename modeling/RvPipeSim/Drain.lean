import RvPipeSim.Conservation
import RvPipeSim.Sequencer

/-!
# Draining the pipeline

What registers, memory and the list of retired instructions will be once the instructions
in MEM, in EX and in ID are through. `retireMEM`, `retireEX` and `retireID` are the three
simulators, `committedMEM`, `committedEX` and `committedID` the three lists.

A cycle moves the pipeline along and changes none of the three pictures: what is drained
behind MEM in the next state is what is drained behind EX in this one, and so on, whatever
is stalled. Only an instruction that enters ID is new.
-/

namespace RvPipeSim

open Simulator ObservedRun

namespace LoopState

variable {s : LoopState} {visited : List LoopState}

/-- The simulator once the instructions in MEM, EX and ID have retired. -/
def retireID (s : LoopState) : Simulator := (s.retireEX accessFault).carryOut s.idInst

/-! ### Registers and memory -/

/-- What is in EX retires behind what is in MEM, with its store data forwarded. -/
theorem retireEX_eq (s : LoopState) :
    s.retireEX accessFault = s.retireMEM.complete (forwardStoreData false s.memInst s.exInst) :=
  rfl

/-- Nothing in EX retires unless it has an effect. -/
theorem retireEX_of_not_effective (h : s.exInst.effective = false) :
    s.retireEX accessFault = s.retireMEM := complete_of_not_effective h

/-- Nothing in ID retires unless it has an effect. -/
theorem retireID_of_not_effective (h : s.idInst.effective = false) :
    s.retireID = s.retireEX accessFault := carryOut_of_not_effective h

/-- Inactive slots have no effect. -/
theorem not_effective_of_inactive {inst : Instruction} (h : inst.active = false) :
    inst.effective = false := by
  rw [Instruction.effective, h]
  rfl

/-- A HALT has no effect on registers and memory. -/
theorem not_effective_of_isHalt {inst : Instruction} (h : inst.isHalt = true) :
    inst.effective = false := by
  rw [Instruction.effective, h, Bool.not_true, Bool.and_false]

/-- WB of the same instruction keeps two simulators in agreement. -/
theorem simWB_agrees {sim sim' : Simulator} (h : sim.Agrees sim') (inst : Instruction) :
    (sim.simWB inst).2.Agrees (sim'.simWB inst).2 := by
  cases heff : inst.effective
  · rw [simWB_of_not_effective heff, simWB_of_not_effective heff]
    exact h
  · rw [simWB_of_effective heff, simWB_of_effective heff]
    constructor
    · dsimp only
      split
      · rw [h.regData]
      · exact h.regData
    · dsimp only
      split <;> exact h.memory

/-- **What is behind MEM next is what is behind EX now.** -/
theorem retireMEM_cycle (hs : Steady s) (hz : s.frozen = false) :
    (cycle accessFault s).retireMEM.Agrees (s.retireEX accessFault) := by
  have hmem : s.memOut accessFault =
      s.retireMEM.simMEM accessFault (forwardStoreData false s.memInst s.exInst) := by
    rw [memOut_of_not_frozen _ hz, simAfterWB_of_not_frozen hz, exForwarded, hz, retireMEM]
  have hsim : (cycle accessFault s).simulator.Agrees (s.memOut accessFault).2 := by
    rw [cycle_simulator]
    exact ⟨(idOut_frame hz).1, (idOut_frame hz).2⟩
  rw [retireMEM, cycle_memInst_eq hs.shape hs.flow, retireEX, ← hmem]
  exact simWB_agrees hsim _

/-- A frozen cycle leaves memory and the instructions in MEM and EX as they are. -/
theorem retireEX_cycle_of_frozen (hs : Steady s) (hz : s.frozen = true) :
    (cycle accessFault s).retireEX accessFault = s.retireEX accessFault := by
  have hex : (cycle accessFault s).exInst = s.exInst := by
    rw [cycle_exInst_eq hs.shape hs.flow, exOut_of_frozen hz]
  rw [retireEX_eq, retireEX_eq, retireMEM, retireMEM, simulator_cycle_of_frozen hz,
    memInst_cycle_of_frozen hs.shape hz, hex]

/-- Memory after an unfrozen cycle is memory once the instruction in EX has retired. -/
theorem memory_cycle_eq_retireEX (hs : Steady s) (hz : s.frozen = false) :
    (cycle accessFault s).simulator.memory = (s.retireEX accessFault).memory := by
  rw [← (retireMEM_cycle hs hz).memory, retireMEM, simWB_memory]

/-- An instruction that leaves ID has the operands it is to have, store data aside. -/
theorem idForwarded_collected (hs : Steady s) (ho : Operands s) (hz : s.frozen = false)
    (hst : s.stalled = false) (hactive : s.idInst.active = true)
    (hlegal : s.idInst.isLegal = true) :
    let inst := simOperandCollection s.idInst (s.retireEX accessFault).regData
    s.idForwarded.op1Val = inst.op1Val ∧
      (s.idInst.writesMem = false → s.idForwarded.op2Val = inst.op2Val) := by
  obtain ⟨hop1, hop2⟩ := @operands_eq accessFault s hs.shape ho hz hst hactive hlegal
  constructor
  · show _ = if s.idInst.readsRs1 then _ else _
    split
    · rename_i hreads
      exact hop1 hreads
    · rename_i hreads
      rw [idForwarded_op1Val, if_neg hreads]
  · intro hnostore
    show _ = if s.idInst.readsRs2 then _ else _
    split
    · rename_i hreads
      exact hop2 hreads hnostore
    · rename_i hreads
      rw [idForwarded_op2Val, if_neg hreads]

/-- What EX computes from the forwarded operands. -/
theorem simEX_idForwarded (hs : Steady s) (ho : Operands s) (hz : s.frozen = false)
    (hst : s.stalled = false) :
    let inst := simOperandCollection s.idInst (s.retireEX accessFault).regData
    (simEX s.idForwarded).arithResult = (simEX inst).arithResult ∧
      (simEX s.idForwarded).memAddress = (simEX inst).memAddress := by
  intro inst
  have heq : s.idForwarded = { s.idInst with
      op1Val := s.idForwarded.op1Val, op2Val := s.idForwarded.op2Val } := forwardToID_eq _ _ _
  cases heff : s.idInst.effective
  · have hfwd : s.idForwarded.effective = false := by
      rw [heq]
      exact heff
    rw [simEX_of_not_effective hfwd, simEX_of_not_effective (show inst.effective = false from heff),
      heq]
    exact ⟨rfl, rfl⟩
  · obtain ⟨hactive, hlegal, -⟩ := effective_iff.mp heff
    obtain ⟨hop1, hop2⟩ := idForwarded_collected hs ho hz hst hactive hlegal
    have hdec : s.idForwarded.toDecodeInfo = inst.toDecodeInfo := forwardToID_toDecodeInfo _ _ _
    refine simEX_congr ?_ ?_ hdec (idForwarded_active s) hop1 (fun harith => ?_) ?_ ?_
    · rw [heq]
      rfl
    · rw [heq]
      rfl
    · refine hop2 (Bool.eq_false_iff.mpr fun hwrites => ?_)
      rw [hdec] at harith
      exact Bool.noConfusion (harith.symm.trans (hs.shape.id_wellFormed.store hwrites).2.1)
    · rw [heq]
      rfl
    · rw [heq]
      rfl

/-- The instruction that moves from ID to EX does there what it was to do in ID. -/
theorem sameEffect_of_moving (hs : Steady s) (ho : Operands s) (hz : s.frozen = false)
    (hexc : s.excepted = false) (hst : s.stalled = false) :
    SameEffect
      (forwardStoreData false (cycle accessFault s).memInst (cycle accessFault s).exInst)
      (simEX (simOperandCollection s.idInst (s.retireEX accessFault).regData)) := by
  have hexInst : (cycle accessFault s).exInst = simEX s.idForwarded := by
    rw [cycle_exInst_eq hs.shape hs.flow, exOut_of_moving hz hexc hst]
  have hdec : (cycle accessFault s).exInst.toDecodeInfo = s.idInst.toDecodeInfo := by
    rw [hexInst, simEX_toDecodeInfo]
    exact forwardToID_toDecodeInfo _ _ _
  obtain ⟨hresult, haddress⟩ := simEX_idForwarded hs ho hz hst
  rw [← hexInst] at hresult haddress
  refine ⟨?_, ?_, hresult, haddress, fun hstore => ?_⟩
  · rw [forwardStoreData_toDecodeInfo, hdec, simEX_toDecodeInfo]
    rfl
  · show (cycle accessFault s).exInst.active = _
    rw [hexInst, simEX_active, simEX_active, idForwarded_active]
    rfl
  · have hstore' : isStore (cycle accessFault s).exInst = true := hstore
    have hwrites : s.idInst.writesMem = true := by
      rw [isStore, hdec, Bool.and_eq_true, Bool.and_eq_true] at hstore'
      exact hstore'.1.1
    have hreads : s.idInst.readsRs2 = true := (hs.shape.id_wellFormed.store hwrites).2.2.2.2.1
    have hkept : (simEX (simOperandCollection s.idInst (s.retireEX accessFault).regData)).op2Val =
        (simOperandCollection s.idInst (s.retireEX accessFault).regData).op2Val :=
      simEX_op2Val_of_store hs.shape.id_wellFormed hwrites
    have hread : (simOperandCollection s.idInst (s.retireEX accessFault).regData).op2Val =
        (s.retireEX accessFault).regData.read s.idInst.rs2 := if_pos hreads
    rw [storeData_eq hs.shape.cycle (ho.cycle hs.shape) hstore', hkept,
      hread, (retireMEM_cycle hs hz).regData, hdec]

/-- **What is behind EX next is what is behind ID now**, if ID moves. -/
theorem retireEX_cycle_of_moving (hs : Steady s) (ho : Operands s) (hz : s.frozen = false)
    (hexc : s.excepted = false) (hst : s.stalled = false) :
    ((cycle accessFault s).retireEX accessFault).Agrees s.retireID :=
  complete_agrees (retireMEM_cycle hs hz) (sameEffect_of_moving hs ho hz hexc hst)

/-- **What is behind EX next is what is behind EX now**, if ID is held or emptied. -/
theorem retireEX_cycle_of_held (hs : Steady s)
    (hheld : (s.frozen || s.excepted || s.stalled) = true) :
    ((cycle accessFault s).retireEX accessFault).Agrees (s.retireEX accessFault) := by
  cases hz : s.frozen
  · have hpadding : (cycle accessFault s).exInst.active = false := by
      rw [cycle_exInst_eq hs.shape hs.flow]
      cases hexc : s.excepted
      · rw [hz, hexc] at hheld
        rw [exOut_of_stalled hz hexc (by simpa using hheld)]
        rfl
      · rw [exOut_of_excepted hz hexc]
        rfl
    rw [retireEX_of_not_effective (not_effective_of_inactive hpadding)]
    exact retireMEM_cycle hs hz
  · rw [retireEX_cycle_of_frozen hs hz]
    exact .refl _

/-- Forwarding and a new next PC leave the word in ID the same. -/
theorem sameWord_idForwarded (s : LoopState) (nextPC : BitVec 64) :
    SameWord { s.idForwarded with nextPC := nextPC } s.idInst := by
  have heq : s.idForwarded = { s.idInst with
      op1Val := s.idForwarded.op1Val, op2Val := s.idForwarded.op2Val } := forwardToID_eq _ _ _
  refine ⟨?_, ?_, s.idForwarded_toDecodeInfo, ?_, fun hreads => ?_, fun hreads => ?_, ?_, ?_⟩
  · rw [heq]
  · rw [heq]
  · exact idForwarded_active s
  · show s.idForwarded.op1Val = _
    rw [s.idForwarded_toDecodeInfo] at hreads
    rw [idForwarded_op1Val, if_neg (Bool.eq_false_iff.mp hreads)]
  · show s.idForwarded.op2Val = _
    rw [s.idForwarded_toDecodeInfo] at hreads
    rw [idForwarded_op2Val, if_neg (Bool.eq_false_iff.mp hreads)]
  · rw [heq]
  · rw [heq]

/-- What is held in ID stays the same word. -/
theorem sameWord_of_held (hs : Steady s) (hexc : s.excepted = false)
    (hheld : (s.frozen || s.stalled) = true) :
    SameWord (cycle accessFault s).idInst s.idInst := by
  rw [cycle_idInst_eq hs.shape hs.flow]
  cases hz : s.frozen
  · rw [idOut_of_stalled _ hz hexc (by simpa [hz] using hheld)]
    dsimp only
    split
    · exact sameWord_idForwarded s _
    · exact sameWord_idForwarded s s.idForwarded.nextPC
  · rw [idOut_of_frozen _ hz]
    exact sameWord_idForwarded s s.idForwarded.nextPC

/-- **What is behind ID stays the same** while ID is held. -/
theorem retireID_cycle_of_held (hs : Steady s) (hexc : s.excepted = false)
    (hheld : (s.frozen || s.stalled) = true) :
    (cycle accessFault s).retireID.Agrees s.retireID := by
  have hsame := sameWord_of_held hs hexc hheld
  refine carryOut_agrees (retireEX_cycle_of_held hs ?_) hsame
    (hsame.decode ▸ hs.shape.id_wellFormed)
  rw [hexc, Bool.or_false]
  exact hheld

/-! ### Where a HALT goes -/

/-- A HALT comes to MEM from EX and stays there in a freeze. -/
theorem memInst_isHalt_cycle (hs : Steady s) :
    (cycle accessFault s).memInst.isHalt =
      if s.frozen then s.memInst.isHalt else s.exInst.isHalt := by
  rw [cycle_memInst_eq hs.shape hs.flow]
  cases hz : s.frozen
  · rw [memOut_of_not_frozen _ hz, simMEM_toDecodeInfo]
    rfl
  · rw [memOut_of_frozen _ hz]
    rfl

/-- A HALT comes to EX from ID and stays there in a freeze; an exception or a hazard puts in a
bubble. -/
theorem exInst_isHalt_cycle (hs : Steady s) :
    (cycle accessFault s).exInst.isHalt =
      if s.frozen then s.exInst.isHalt
      else !s.excepted && !s.stalled && s.idInst.isHalt := by
  rw [cycle_exInst_eq hs.shape hs.flow]
  cases hz : s.frozen
  · cases hexc : s.excepted
    · cases hst : s.stalled
      · rw [exOut_of_moving hz hexc hst, simEX_toDecodeInfo, s.idForwarded_toDecodeInfo]
        rfl
      · rw [exOut_of_stalled hz hexc hst]
        rfl
    · rw [exOut_of_excepted hz hexc]
      rfl
  · rw [exOut_of_frozen hz]
    rfl

/-- A HALT in ID neither raises nor stalls. -/
theorem moving_of_halt (hs : Steady s) (hhalt : s.idInst.isHalt = true) :
    s.excepted = false ∧ s.stalled = false := by
  refine ⟨?_, stalled_of_halt hs.shape hhalt⟩
  rw [excepted, raisesIllegalExc, (hs.shape.id_wellFormed.halt hhalt).1]
  rfl

/-! ### The instructions that retire -/

/-- A frozen cycle hands nothing on. -/
theorem callLabel_of_frozen {α : Type*} (a : FetchInfo → Option α) (hz : s.frozen = true)
    (stage : Stage) : callLabel a (s.call stage) = none := by
  cases stage with
  | simWB => rw [call, callLabel_wbCall, if_pos hz]
  | simMEM => rw [call, callLabel_memCall, if_pos hz]
  | simEX => rw [call, callLabel_exCall, hz]; rfl
  | simID => rw [call, callLabel_idCall, hz]; rfl

/-- The labels of what has retired and of what is in MEM. -/
def labelsMEM (visited : List LoopState) (s : LoopState) : List FetchInfo :=
  labelLog legalFetch visited .simWB ++ (s.memInst.live legalFetch).toList

/-- The labels of what has retired and of what is in MEM and EX. -/
def labelsEX (visited : List LoopState) (s : LoopState) : List FetchInfo :=
  labelsMEM visited s ++ (s.exInst.live legalFetch).toList

/-- The labels of what has retired and of what is in MEM, EX and ID. -/
def labelsID (visited : List LoopState) (s : LoopState) : List FetchInfo :=
  labelsEX visited s ++ (s.idInst.live legalFetch).toList

/-- What has retired or is in MEM grows by what MEM takes. -/
theorem labelsMEM_cycle (hs : Steady s) :
    labelsMEM (visited ++ [s]) (cycle accessFault s) =
      labelsMEM visited s ++ (callLabel legalFetch (s.call .simMEM)).toList := by
  have hshift : (callLabel legalFetch (s.call .simWB)).toList ++ _ =
      _ ++ (callLabel legalFetch (s.call .simMEM)).toList :=
    shift_memInst legalFetch accessFault s (memExc_eq_false hs.shape hs.flow)
  rw [labelsMEM, labelLog_concat, List.append_assoc, hshift, ← List.append_assoc]
  rfl

/-- With EX it grows by what EX takes. -/
theorem labelsEX_cycle (hs : Steady s) :
    labelsEX (visited ++ [s]) (cycle accessFault s) =
      labelsEX visited s ++ (callLabel legalFetch (s.call .simEX)).toList := by
  have hshift : (callLabel legalFetch (s.call .simMEM)).toList ++ _ =
      _ ++ (callLabel legalFetch (s.call .simEX)).toList :=
    shift_exInst legalFetch legalFetch_nop accessFault s (flush_eq_false hs.shape hs.flow)
  rw [labelsEX, labelsMEM_cycle hs, List.append_assoc, hshift, ← List.append_assoc]
  rfl

/-- With ID it grows by what ID takes; an illegal instruction that leaves ID has no label. -/
theorem labelsID_cycle (hs : Steady s) :
    labelsID (visited ++ [s]) (cycle accessFault s) =
      labelsID visited s ++ (callLabel legalFetch (s.call .simID)).toList := by
  have hshift : (callLabel legalFetch (s.call .simEX)).toList ++ _ =
      _ ++ (callLabel legalFetch (s.call .simID)).toList :=
    shift_idInst legalFetch legalFetch_nop accessFault s (flush_eq_false hs.shape hs.flow)
      (live_of_excepted hs)
  rw [labelsID, labelsEX_cycle hs, List.append_assoc, hshift, ← List.append_assoc]
  rfl

/-- The PCs of what has retired and of what is in MEM. -/
def committedMEM (visited : List LoopState) (s : LoopState) : List (BitVec 64) :=
  (labelLog legalFetch visited .simWB ++ (s.memInst.live legalFetch).toList).map FetchInfo.PC

/-- The PCs of what has retired and of what is in MEM and EX. -/
def committedEX (visited : List LoopState) (s : LoopState) : List (BitVec 64) :=
  committedMEM visited s ++ ((s.exInst.live legalFetch).toList).map FetchInfo.PC

/-- The PCs of what has retired and of what is in MEM, EX and ID. -/
def committedID (visited : List LoopState) (s : LoopState) : List (BitVec 64) :=
  committedEX visited s ++ ((s.idInst.live legalFetch).toList).map FetchInfo.PC

/-- The PC of the instruction handed to a stage function. -/
def handedPC (s : LoopState) (stage : Stage) : List (BitVec 64) :=
  ((callLabel legalFetch (s.call stage)).toList).map FetchInfo.PC

/-- A frozen cycle hands no PC on. -/
theorem handedPC_of_frozen (hz : s.frozen = true) (stage : Stage) : s.handedPC stage = [] := by
  rw [handedPC, callLabel_of_frozen legalFetch hz]
  rfl

/-- The PCs are those of the labels. -/
theorem committedMEM_eq : committedMEM visited s = (labelsMEM visited s).map FetchInfo.PC := rfl

/-- The PCs are those of the labels. -/
theorem committedEX_eq : committedEX visited s = (labelsEX visited s).map FetchInfo.PC := by
  rw [labelsEX, List.map_append]
  rfl

/-- The PCs are those of the labels. -/
theorem committedID_eq : committedID visited s = (labelsID visited s).map FetchInfo.PC := by
  rw [labelsID, List.map_append, ← committedEX_eq]
  rfl

/-- `labelsMEM_cycle` for the PCs. -/
theorem committedMEM_cycle (hs : Steady s) :
    committedMEM (visited ++ [s]) (cycle accessFault s) =
      committedMEM visited s ++ s.handedPC .simMEM := by
  rw [committedMEM_eq, committedMEM_eq, labelsMEM_cycle hs, List.map_append, handedPC]

/-- `labelsEX_cycle` for the PCs. -/
theorem committedEX_cycle (hs : Steady s) :
    committedEX (visited ++ [s]) (cycle accessFault s) =
      committedEX visited s ++ s.handedPC .simEX := by
  rw [committedEX_eq, committedEX_eq, labelsEX_cycle hs, List.map_append, handedPC]

/-- `labelsID_cycle` for the PCs. -/
theorem committedID_cycle (hs : Steady s) :
    committedID (visited ++ [s]) (cycle accessFault s) =
      committedID visited s ++ s.handedPC .simID := by
  rw [committedID_eq, committedID_eq, labelsID_cycle hs, List.map_append, handedPC]

end LoopState

end RvPipeSim
