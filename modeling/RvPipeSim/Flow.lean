import RvPipeSim.Hazards

/-!
# Control flow in the absence of faults

The fault test of the source never succeeds (`accessFault_eq_false`), so in its runs no
load faults and nothing that was decoded is ever squashed. `Flow` describes how IF, the
PC and a branch in ID hang together in such runs:

* behind a normal fetch the PC is the next word, or (`Restarted`) it is the handler
  address that has just been fetched and will be fetched once more;
* behind a branch in ID there is a speculative fetch of the word after it, and the PC has
  been redirected to the branch's `nextPC`;
* a speculative fetch without a branch in ID waits for an instruction miss to end.

## Main results

* `accessFault_eq_false` — the fault test of the source never succeeds;
* `cycle_memInst_eq`, `cycle_exInst_eq`, `cycle_idInst_eq` — so no cycle squashes anything from
  ID on;
* `fetch_of_decoded_branch`, `fetch_of_stalled_branch`, `fetch_of_mispredicted`,
  `fetch_of_decoded` — where the fetch goes on;
* `Flow.cycle`, `Flow.of_run` — the invariant, for one cycle and for a run.
-/

namespace RvPipeSim

open Simulator ObservedRun

/-! ### The fault test of the source -/

/-- The status of a read is zero or `-EINVAL`, from whatever byte on. -/
theorem MemoryStore.getLoop_fst (mem : MemoryStore) (relativeAddr : BitVec 64)
    (remaining i : ℕ) (value : BitVec 64) :
    (mem.getLoop relativeAddr remaining i value).1 = 0 ∨
      (mem.getLoop relativeAddr remaining i value).1 = -einval := by
  induction remaining generalizing i value with
  | zero => exact .inl rfl
  | succ remaining ih =>
      rw [getLoop]
      split
      · exact .inr rfl
      · exact ih _ _

/-- `getMemValue` returns `-EINVAL`, never `EINVAL`: the fault test never succeeds. -/
theorem accessFault_eq_false (mem : MemoryStore) (address : BitVec 64) (size : MemEntrySize) :
    accessFault mem address size = false := by
  rw [accessFault, beq_eq_false_iff_ne]
  rcases mem.getLoop_fst (address - mem.startAddr) size.bytes 0 0#64 with h | h
  · intro heq
    exact absurd (h.symm.trans heq) (by decide)
  · intro heq
    exact absurd (h.symm.trans heq) (by decide)

/-- MEM marks no load as faulting. -/
theorem simMEM_accessFault (sim : Simulator) {inst : Instruction}
    (h : inst.memException = false) :
    (sim.simMEM accessFault inst).1.memException = false := by
  cases heff : inst.effective
  · rw [simMEM_of_not_effective heff]
    exact h
  · rw [simMEM_of_effective heff, simMemAccess]
    split
    · exact accessFault_eq_false _ _ _
    · split <;> exact h

/-! ### The invariant -/

/-- The handler has been fetched by an exception redirect, which leaves the PC on it. -/
structure LoopState.Restarted (s : LoopState) : Prop where
  PC : s.PC = s.ifInst.PC
  handler : s.ifInst.PC = excHandler
  /-- The redirect goes on, or the instructions behind the illegal one are gone. -/
  drained : s.excepted = true ∨ s.idInst.active = false ∧ s.exInst.active = false

/-- What lies behind a branch in ID. -/
structure LoopState.Redirected (s : LoopState) : Prop where
  speculative : s.ifInst.status = .speculative
  /-- IF holds the next word; behind a branch that is the handler's first word and is
  followed by its own copy, IF holds that copy, and nothing is in flight. -/
  next : s.ifInst.PC = s.idInst.PC + 4 ∨
    s.ifInst.PC = s.idInst.PC ∧ s.exInst.active = false ∧ s.memInst.active = false ∧
      s.remainingStallCycles = 0
  /-- The PC is where the branch goes; behind a branch not taken it may be one word on. -/
  PC : s.PC = s.idInst.nextPC ∨
    s.idInst.nextPC = s.idInst.PC + 4 ∧ s.PC = s.idInst.nextPC + 4 ∧
      s.ifInst.PC = s.idInst.PC + 4

/-- How IF, the PC and ID hang together. -/
structure Flow (s : LoopState) : Prop where
  noException : s.memInst.memException = false
  /-- What is inactive in ID is padding or a NOP. -/
  inactive : s.idInst.active = false → s.idInst.isNop = true
  /-- Before the first fetch nothing is in ID. -/
  idle : s.ifInst = nop .idle → s.idInst.active = false ∧ s.exInst.active = false
  normal : s.ifInst.status = .normal →
    isBranchOrJump s.idInst = false ∧ (s.PC = s.ifInst.PC + 4 ∨ s.Restarted)
  branch : isBranchOrJump s.idInst = true → s.Redirected
  /-- A speculative fetch whose branch has gone waits alone. -/
  waiting : s.ifInst.status = .speculative → isBranchOrJump s.idInst = false →
    s.idInst.active = false
  /-- No hazard holds a branch while IF misses. -/
  missing : s.instFetchMiss = true → isBranchOrJump s.idInst = true → s.stalled = false

namespace LoopState

variable {s : LoopState}

/-- `isBranchOrJump` asks for an active slot, a legal word and one of the three opcodes. -/
theorem active_of_branch {inst : Instruction} (h : isBranchOrJump inst = true) :
    inst.active = true ∧ inst.isLegal = true ∧ inst.branchOpcode = true := by
  have h' : (inst.branchOpcode && inst.isLegal && inst.active) = true := h
  rw [Bool.and_eq_true, Bool.and_eq_true] at h'
  exact ⟨h'.2, h'.1.2, h'.1.1⟩

/-- No load faults. -/
theorem memExc_eq_false (h : Shape s) (hf : Flow s) : s.memExc accessFault = false := by
  rw [memExc]
  cases hz : s.frozen
  · rw [memOut_of_not_frozen accessFault hz]
    exact simMEM_accessFault _ h.exException
  · rw [memOut_of_frozen accessFault hz]
    exact hf.noException

/-- No cycle flushes. -/
theorem flush_eq_false (h : Shape s) (hf : Flow s) : s.flush accessFault = false := by
  rw [flush, memExc_eq_false h hf, Bool.false_and]

/-- A stall cycle is pending only while a branch is in ID. -/
theorem remaining_of_inactive (h : Shape s) (hf : Flow s) (hid : s.idInst.active = false) :
    s.remainingStallCycles = 0 := by
  by_contra hne
  have hnop := (h.pending (Nat.pos_of_ne_zero hne)).2.2.2
  rw [hf.inactive hid] at hnop
  exact Bool.noConfusion hnop

/-- What reads nothing and does not branch raises no hazard. -/
theorem stalled_of_inert (hinert : s.idInst.Inert) (hop : s.idInst.branchOpcode = false)
    (hrem : s.remainingStallCycles = 0) : s.stalled = false := by
  have hbr : isBranchOrJump s.idInst = false := by
    have hparts : isBranchOrJump s.idInst =
        (s.idInst.branchOpcode && s.idInst.isLegal && s.idInst.active) := rfl
    rw [hparts, hop, Bool.false_and, Bool.false_and]
  have hst : isStore s.idInst = false := by
    rw [isStore, hinert.writesMem, Bool.false_and, Bool.false_and]
  have h1 : ∀ rd, readsRs1From s.idInst rd = false := fun rd => by
    rw [readsRs1From, hinert.readsRs1]
    rfl
  have h2 : ∀ rd, readsRs2From s.idInst rd = false := fun rd => by
    rw [readsRs2From, hinert.readsRs2]
    rfl
  have hload : (detectLoadHazard s.exInst s.idInst).stall = false := by
    rw [detectLoadHazard]
    dsimp only
    rw [hst, hbr, h1, h2]
    split <;> rfl
  rw [stalled, hazard, detectHazard, hrem, if_neg (Nat.lt_irrefl 0)]
  dsimp only
  rw [hbr, Bool.and_false, if_neg Bool.false_ne_true]
  exact hload

/-- An empty ID raises no hazard. -/
theorem stalled_of_inactive (h : Shape s) (hf : Flow s) (hid : s.idInst.active = false) :
    s.stalled = false := by
  have hnop := h.id_wellFormed.isNop (hf.inactive hid)
  exact stalled_of_inert hnop.2.2.1 hnop.2.2.2 (remaining_of_inactive h hf hid)

/-- A HALT in ID raises no hazard. -/
theorem stalled_of_halt (h : Shape s) (hhalt : s.idInst.isHalt = true) : s.stalled = false := by
  obtain ⟨-, -, hinert, hop⟩ := h.id_wellFormed.halt hhalt
  refine stalled_of_inert hinert hop ?_
  by_contra hne
  have hbr := (h.pending (Nat.pos_of_ne_zero hne)).2.1
  rw [hop] at hbr
  exact Bool.noConfusion hbr

/-- An empty EX raises no hazard. -/
theorem stalled_of_ex_inactive (hex : s.exInst.active = false)
    (hrem : s.remainingStallCycles = 0) : s.stalled = false := by
  have hload : isLoad s.exInst = false := by rw [isLoad, hex, Bool.and_false]
  have hwrites : writesREG s.exInst = false := by rw [writesREG, hex, Bool.and_false]
  rw [stalled, hazard, detectHazard, hrem, if_neg (Nat.lt_irrefl 0), detectLoadHazard, hload,
    if_neg Bool.false_ne_true]
  dsimp only
  rw [hwrites, Bool.false_and, if_neg Bool.false_ne_true, ite_self]

/-- A branch is no store. -/
theorem writesMem_of_branch (h : Shape s) (hbr : isBranchOrJump s.idInst = true) :
    s.idInst.writesMem = false := by
  have hop := (active_of_branch hbr).2.2
  refine Bool.eq_false_iff.mpr fun hw => ?_
  rw [(h.id_wellFormed.store hw).2.2.2.2.2] at hop
  exact Bool.noConfusion hop

/-- A branch that reads a register the instruction in EX writes is stalled. -/
theorem stalled_of_producer (h : Shape s) (hbr : isBranchOrJump s.idInst = true)
    (hproducer : s.idInst.readsRs1 = true ∧ s.exInst.forwards s.idInst.rs1 = true ∨
      s.idInst.readsRs2 = true ∧ s.exInst.forwards s.idInst.rs2 = true) :
    s.stalled = true := by
  by_contra hst
  rw [Bool.not_eq_true] at hst
  obtain ⟨hactive, hlegal, -⟩ := active_of_branch hbr
  have hnostore := writesMem_of_branch h hbr
  -- the producer is no load, so the branch checks see it
  have hnl : isLoad s.exInst = false := by
    rcases hproducer with ⟨hreads, hfw⟩ | ⟨hreads, hfw⟩
    · exact not_load_of_moving hst hfw hactive hlegal (.inl ⟨hreads, rfl⟩)
    · exact not_load_of_moving hst hfw hactive hlegal (.inr ⟨hreads, rfl, hnostore⟩)
  have hreads : writesREG s.exInst = true ∧
      (readsRs1From s.idInst s.exInst.rd || readsRs2From s.idInst s.exInst.rd) = true := by
    simp only [Instruction.forwards, Bool.and_eq_true, beq_iff_eq] at hproducer
    simp only [readsRs1From, readsRs2From, Bool.or_eq_true, Bool.and_eq_true, beq_iff_eq,
      bne_iff_ne]
    rcases hproducer with ⟨hreads, hw, hrd⟩ | ⟨hreads, hw, hrd⟩
    · exact ⟨hw, .inl ⟨⟨hreads, hrd.symm⟩, rd_ne_zero_of_writesREG hw⟩⟩
    · exact ⟨hw, .inr ⟨⟨hreads, hrd.symm⟩, rd_ne_zero_of_writesREG hw⟩⟩
  have hload : detectLoadHazard s.exInst s.idInst = ⟨false, 0, 0⟩ := by
    rw [detectLoadHazard, hnl, if_neg Bool.false_ne_true]
  rw [stalled, hazard, detectHazard] at hst
  by_cases hrem : s.remainingStallCycles > 0
  · rw [if_pos hrem] at hst
    exact Bool.noConfusion hst
  · rw [if_neg hrem, hload] at hst
    dsimp only at hst
    rw [hbr, hreads.1, hnl, hreads.2] at hst
    exact Bool.noConfusion hst

/-- After an unstalled cycle no stall cycle is pending. -/
theorem remaining_of_not_stalled (h : Shape s) (hst : s.stalled = false) :
    s.hazard.remainingStallCycles = 0 := by
  by_contra hne
  have := (pending_of_hazard h (Nat.pos_of_ne_zero hne)).2.1
  rw [hst] at this
  exact Bool.noConfusion this

/-- Holding ID keeps the hazard checks as they are. -/
theorem detectHazard_congr {i j : Instruction} (hdec : i.toDecodeInfo = j.toDecodeInfo)
    (hactive : i.active = j.active) (remaining : ℕ) (ex : Instruction) :
    detectHazard remaining ex i = detectHazard remaining ex j := by
  have hst : isStore i = isStore j := by rw [isStore, isStore, hactive, hdec]
  have hbr : isBranchOrJump i = isBranchOrJump j := by
    rw [isBranchOrJump, isBranchOrJump, hactive, hdec]
  have h1 : ∀ rd, readsRs1From i rd = readsRs1From j rd := fun rd => by
    rw [readsRs1From, readsRs1From, hdec]
  have h2 : ∀ rd, readsRs2From i rd = readsRs2From j rd := fun rd => by
    rw [readsRs2From, readsRs2From, hdec]
  have hload : detectLoadHazard ex i = detectLoadHazard ex j := by
    rw [detectLoadHazard, detectLoadHazard, hst, hbr]
    dsimp only
    rw [h1, h2]
  rw [detectHazard, detectHazard, hload, hbr]
  dsimp only
  rw [h1, h2]

/-! ### One cycle without faults -/

variable (h : Shape s) (hf : Flow s)

include h hf

/-- Nothing in MEM is squashed. -/
theorem cycle_memInst_eq : (cycle accessFault s).memInst = (s.memOut accessFault).1 := by
  rw [cycle_memInst, memExc_eq_false h hf]
  rfl

/-- Nothing in EX is squashed. -/
theorem cycle_exInst_eq : (cycle accessFault s).exInst = s.exOut := by
  rw [cycle_exInst, flush_eq_false h hf]
  rfl

/-- Nothing in ID is squashed. -/
theorem cycle_idInst_eq : (cycle accessFault s).idInst = (s.idOut accessFault).1 := by
  rw [cycle_idInst, flush_eq_false h hf]
  rfl

/-- Only an illegal instruction redirects to the handler. -/
theorem exception_eq_excepted : (s.excepted || s.memExc accessFault) = s.excepted := by
  rw [memExc_eq_false h hf, Bool.or_false]

omit h hf in
/-- A pending stall cycle would stall this one. -/
theorem remaining_of_unstalled (hst : s.stalled = false) : s.remainingStallCycles = 0 := by
  by_contra hne
  rw [stalled, hazard, detectHazard, if_pos (Nat.pos_of_ne_zero hne)] at hst
  exact Bool.noConfusion hst

/-- An unstalled cycle that is frozen is followed by an unstalled one. -/
theorem stalled_of_frozen (hz : s.frozen = true) (hst : s.stalled = false)
    (hid : (cycle accessFault s).idInst = s.idForwarded) :
    (cycle accessFault s).stalled = false := by
  have hex : (cycle accessFault s).exInst = s.exInst :=
    (cycle_exInst_eq h hf).trans (exOut_of_frozen hz)
  have hhaz : (cycle accessFault s).hazard = s.hazard :=
    calc (cycle accessFault s).hazard
        = detectHazard 0 (cycle accessFault s).exInst (cycle accessFault s).idInst := by
          rw [hazard, cycle_remainingStallCycles, remaining_of_not_stalled h hst]
      _ = detectHazard 0 s.exInst s.idInst := by
          rw [hex, hid]
          exact detectHazard_congr (forwardToID_toDecodeInfo _ _ _) (idForwarded_active s) 0
            s.exInst
      _ = s.hazard := by rw [hazard, remaining_of_unstalled hst]
  rw [stalled, hhaz]
  exact hst

/-- An illegal instruction redirects the fetch to the handler. -/
theorem fetch_of_excepted (hexc : s.excepted = true) :
    (cycle accessFault s).ifInst = simIF (s.idOut accessFault).2 excHandler s.fetched ∧
      (cycle accessFault s).PC = excHandler ∧
      (s.fetchOut accessFault).instFetchMiss = false := by
  have hfetch := fetchOut_of_exception accessFault s
    ((exception_eq_excepted h hf).trans hexc)
  rw [cycle_ifInst, cycle_PC, hfetch]
  exact ⟨rfl, rfl, rfl⟩

/-- A data miss holds IF and the PC. -/
theorem fetch_of_frozen (hexc : s.excepted = false) (hz : s.frozen = true) :
    (cycle accessFault s).ifInst = s.ifInst ∧ (cycle accessFault s).PC = s.PC ∧
      (s.fetchOut accessFault).instFetchMiss = s.starved := by
  rw [cycle_ifInst, cycle_PC]
  have hexc' := (exception_eq_excepted h hf).trans hexc
  cases hst : s.stalled
  · obtain ⟨hif, -, hPC, hmiss⟩ :=
      fetchOut_of_miss accessFault s hexc' hst (by rw [hz, Bool.or_true])
    exact ⟨hif, hPC, hmiss⟩
  · obtain ⟨hif, -, hPC, hmiss⟩ := fetchOut_of_stalled accessFault s hexc' hst
    have hbr : s.branchInId accessFault = false := by simp [branchInId, hz]
    rw [hPC, hmiss, hbr]
    exact ⟨hif, rfl, rfl⟩

/-- An instruction miss holds IF and the PC while ID drains. -/
theorem fetch_of_starved (hexc : s.excepted = false) (hst : s.stalled = false)
    (hsv : s.starved = true) :
    (cycle accessFault s).ifInst = s.ifInst ∧ (cycle accessFault s).PC = s.PC := by
  rw [cycle_ifInst, cycle_PC]
  obtain ⟨hif, -, hPC, -⟩ := fetchOut_of_miss accessFault s
    ((exception_eq_excepted h hf).trans hexc) hst (by rw [hsv, Bool.true_or])
  exact ⟨hif, hPC⟩

/-- A hazard without a branch in ID holds IF and the PC. -/
theorem fetch_of_stalled (hexc : s.excepted = false) (hst : s.stalled = true)
    (hbr : isBranchOrJump s.idInst = false) :
    (cycle accessFault s).ifInst = s.ifInst ∧ (cycle accessFault s).PC = s.PC := by
  cases hz : s.frozen
  · rw [cycle_ifInst, cycle_PC]
    obtain ⟨hif, -, hPC, -⟩ := fetchOut_of_stalled accessFault s
      ((exception_eq_excepted h hf).trans hexc) hst
    have hbr' : s.branchInId accessFault = false := by
      rw [branchInId, idOut_of_stalled accessFault hz hexc hst, idForwarded_branch, hbr,
        if_neg Bool.false_ne_true, idForwarded_branch, hbr, Bool.and_false]
    rw [hPC, hbr']
    exact ⟨hif, rfl⟩
  · obtain ⟨hif, hPC, -⟩ := fetch_of_frozen h hf hexc hz
    exact ⟨hif, hPC⟩

omit h in
/-- A stalled branch is not missing its next instruction. -/
theorem starved_of_stalled_branch (hst : s.stalled = true)
    (hbr : isBranchOrJump s.idInst = true) : s.starved = false := by
  have hstarved : s.starved = s.instFetchMiss := by
    have hst' : s.hazard.stall = true := hst
    rw [starved, detect, hst', accessICache_instFetchMiss_of_stall]
    exact accessDCache_instFetchMiss s
  rw [hstarved]
  by_contra hmiss
  rw [Bool.not_eq_false] at hmiss
  rw [hf.missing hmiss hbr] at hst
  exact Bool.noConfusion hst

/-- A stalled branch is resolved again, and the PC follows it, one word on if it is not
taken. -/
theorem fetch_of_stalled_branch (hexc : s.excepted = false) (hz : s.frozen = false)
    (hst : s.stalled = true) (hbr : isBranchOrJump s.idInst = true) :
    (cycle accessFault s).ifInst = s.ifInst ∧
      (cycle accessFault s).idInst = simNextPCResolution s.idForwarded ∧
      (cycle accessFault s).PC =
        (if resolvedPC s.idForwarded = s.idInst.PC + 4 then s.idInst.PC + 4 + 4
        else resolvedPC s.idForwarded) := by
  have hid : s.idOut accessFault =
      (simNextPCResolution s.idForwarded, (s.memOut accessFault).2) := by
    rw [idOut_of_stalled accessFault hz hexc hst, idForwarded_branch, hbr, if_pos rfl]
  have hPC' : s.idForwarded.PC = s.idInst.PC := by
    rw [idForwarded, forwardToID_toFetchInfo]
  have hbr' : s.branchInId accessFault = true := by
    have hres : isBranchOrJump (simNextPCResolution s.idForwarded) =
        isBranchOrJump s.idForwarded := rfl
    rw [branchInId, hz, starved_of_stalled_branch hf hst hbr, hid, hres, idForwarded_branch, hbr]
    rfl
  obtain ⟨hif, -, hPC, -⟩ := fetchOut_of_stalled accessFault s
    ((exception_eq_excepted h hf).trans hexc) hst
  rw [cycle_ifInst, cycle_PC, cycle_idInst_eq h hf, hid, hPC, hbr', taken, hid]
  refine ⟨hif, rfl, ?_⟩
  rw [if_pos rfl, simNextPCResolution_nextPC, simNextPCResolution_toFetchInfo, hPC']
  by_cases htk : resolvedPC s.idForwarded = s.idInst.PC + 4
  · rw [if_pos htk, htk, bne_self_eq_false, if_neg Bool.false_ne_true]
  · rw [if_neg htk, if_pos (bne_iff_ne.mpr htk)]

/-- Where ID squashes the instruction in IF, the fetch goes on at the PC. -/
theorem fetch_of_mispredicted (hexc : s.excepted = false) (hz : s.frozen = false)
    (hst : s.stalled = false) (hsv : s.starved = false)
    (hmp : mispredicted s.ifInst s.PC = true) :
    (cycle accessFault s).ifInst = simIF (s.idOut accessFault).2 s.PC s.fetched ∧
      (cycle accessFault s).PC = s.PC + 4 := by
  have hbr : s.branchInId accessFault = false := by
    rw [branchInId, idOut_of_mispredicted accessFault hz hexc hst hsv hmp]
    exact Bool.and_false _
  rw [cycle_ifInst, cycle_PC, fetchOut_of_next accessFault s
    ((exception_eq_excepted h hf).trans hexc) hst hbr (by rw [hsv, hz]; rfl)]
  exact ⟨rfl, rfl⟩

/-- Behind a decoded branch the fetch is speculative and the PC follows the branch. -/
theorem fetch_of_decoded_branch (hexc : s.excepted = false) (hz : s.frozen = false)
    (hst : s.stalled = false) (hsv : s.starved = false)
    (hbr : isBranchOrJump (s.idOut accessFault).1 = true) :
    (cycle accessFault s).ifInst =
        { simIF (s.idOut accessFault).2 s.PC s.fetched with status := .speculative } ∧
      (cycle accessFault s).PC = (s.idOut accessFault).1.nextPC ∧
      (s.fetchOut accessFault).instFetchMiss = false := by
  have hbr' : s.branchInId accessFault = true := by
    rw [branchInId, hz, hsv, hbr]
    rfl
  obtain ⟨hif, -, hPC, hmiss⟩ := fetchOut_of_branch accessFault s
    ((exception_eq_excepted h hf).trans hexc) hst hbr'
  rw [cycle_ifInst, cycle_PC]
  exact ⟨hif, hPC, hmiss⟩

/-- Behind anything else that is decoded the fetch goes on at the PC. -/
theorem fetch_of_decoded (hexc : s.excepted = false) (hz : s.frozen = false)
    (hst : s.stalled = false) (hsv : s.starved = false)
    (hbr : isBranchOrJump (s.idOut accessFault).1 = false) :
    (cycle accessFault s).ifInst = simIF (s.idOut accessFault).2 s.PC s.fetched ∧
      (cycle accessFault s).PC = s.PC + 4 := by
  have hbr' : s.branchInId accessFault = false := by rw [branchInId, hbr, Bool.and_false]
  rw [cycle_ifInst, cycle_PC, fetchOut_of_next accessFault s
    ((exception_eq_excepted h hf).trans hexc) hst hbr' (by rw [hsv, hz]; rfl)]
  exact ⟨rfl, rfl⟩

end LoopState

/-! ### Step and run -/

namespace Flow

variable {s : LoopState} (h : Shape s) (hf : Flow s)

/-- At the start the slots are idle and no miss is pending. -/
theorem init (iCacheConfig dCacheConfig : CacheConfig) (mem : MemoryStore) :
    Flow (enter (initSimulator iCacheConfig dCacheConfig mem)) where
  noException := rfl
  inactive _ := rfl
  idle _ := ⟨rfl, rfl⟩
  normal hst := StageStatus.noConfusion hst
  branch hbr := Bool.noConfusion hbr
  waiting hst := StageStatus.noConfusion hst
  missing hmiss := Bool.noConfusion hmiss

/-- What becomes active in EX was active in EX or ID. -/
theorem exInst_inactive {s : LoopState} (hid : s.idInst.active = false)
    (hex : s.exInst.active = false) :
    (RvPipeSim.cycle accessFault s).exInst.active = false := by
  by_contra hactive
  rw [Bool.not_eq_false] at hactive
  obtain ⟨-, ⟨-, heq⟩ | ⟨-, heq⟩⟩ := LoopState.exInst_of_active hactive
  · rw [heq, hex] at hactive
    exact Bool.noConfusion hactive
  · rw [heq, simEX_active, LoopState.idForwarded_active, hid] at hactive
    exact Bool.noConfusion hactive

/-- What becomes active in ID was there or comes from IF. -/
theorem idInst_inactive {s : LoopState} (hid : s.idInst.active = false)
    (hheld : s.refetched accessFault = false) :
    (RvPipeSim.cycle accessFault s).idInst.active = false := by
  by_contra hactive
  rw [Bool.not_eq_false] at hactive
  obtain ⟨-, ⟨-, heq⟩ | ⟨-, heq⟩ | ⟨⟨hz, -, hst, hsv, -⟩, -⟩⟩ :=
    LoopState.idInst_of_active hactive
  · rw [heq, LoopState.idForwarded_active, hid] at hactive
    exact Bool.noConfusion hactive
  · rw [heq, LoopState.idForwarded_branch, isBranchOrJump, hid, Bool.and_false,
      if_neg Bool.false_ne_true, LoopState.idForwarded_active, hid] at hactive
    exact Bool.noConfusion hactive
  · rw [LoopState.refetched, hz, hst, hsv, Bool.or_eq_false_iff] at hheld
    exact Bool.noConfusion hheld.2

include h hf

/-- Nothing decoded is squashed: what is inactive in ID is padding or a NOP. -/
theorem inactive_cycle (hid : (RvPipeSim.cycle accessFault s).idInst.active = false) :
    (RvPipeSim.cycle accessFault s).idInst.isNop = true := by
  have hheld : s.idForwarded.active = false → s.idForwarded.isNop = true := fun hact => by
    rw [s.idForwarded_toDecodeInfo]
    exact hf.inactive ((LoopState.idForwarded_active s).symm.trans hact)
  rw [LoopState.cycle_idInst_eq h hf] at hid ⊢
  cases hz : s.frozen
  · cases hexc : s.excepted
    · cases hst : s.stalled
      · cases hsv : s.starved
        · cases hmp : mispredicted s.ifInst s.PC
          · rw [LoopState.idOut_of_decoding _ hz hexc hst hsv hmp] at hid ⊢
            rcases h.ifSlot with hidle | hfetched
            · rw [hidle]
              rfl
            · have hnormal := simID_status (s.memOut accessFault).2 hfetched
              rw [Instruction.active, hnormal] at hid
              simpa using hid
          · rw [LoopState.idOut_of_mispredicted _ hz hexc hst hsv hmp]
            rfl
        · rw [LoopState.idOut_of_starved _ hz hexc hst hsv]
          rfl
      · rw [LoopState.idOut_of_stalled _ hz hexc hst] at hid ⊢
        dsimp only at hid ⊢
        split at hid <;> rename_i hbr
        · rw [if_pos hbr]
          exact hheld hid
        · rw [if_neg hbr]
          exact hheld hid
    · rw [LoopState.idOut_of_excepted _ hz hexc]
      rfl
  · rw [LoopState.idOut_of_frozen _ hz] at hid ⊢
    exact hheld hid

omit h in
/-- IF is idle until its first fetch, and nothing is behind it. -/
theorem idle_cycle (hidle : (RvPipeSim.cycle accessFault s).ifInst = nop .idle) :
    (RvPipeSim.cycle accessFault s).idInst.active = false ∧
      (RvPipeSim.cycle accessFault s).exInst.active = false := by
  cases hfetch : s.refetched accessFault
  · rw [(LoopState.cycle_of_not_refetched accessFault s hfetch).2] at hidle
    obtain ⟨hid, hex⟩ := hf.idle hidle
    exact ⟨idInst_inactive hid hfetch, exInst_inactive hid hex⟩
  · obtain ⟨-, PC, status, -, hif⟩ := LoopState.cycle_of_refetched accessFault s hfetch
    rw [hif] at hidle
    exact absurd (congrArg (fun i : Instruction => i.seq) hidle) (by simp [nop])

/-- After an exception redirect. -/
theorem restarted_of_excepted (hexc : s.excepted = true) :
    isBranchOrJump (RvPipeSim.cycle accessFault s).idInst = false ∧
      (RvPipeSim.cycle accessFault s).Restarted := by
  obtain ⟨hif, hPC, -⟩ := LoopState.fetch_of_excepted h hf hexc
  obtain ⟨hlegal, -, -⟩ := LoopState.illegal_of_excepted hexc
  have hpc : (RvPipeSim.cycle accessFault s).PC = (RvPipeSim.cycle accessFault s).ifInst.PC := by
    rw [hif, hPC]
    rfl
  have hhandler : (RvPipeSim.cycle accessFault s).ifInst.PC = excHandler := by
    rw [hif]
    rfl
  cases hz : s.frozen
  · have hid : (RvPipeSim.cycle accessFault s).idInst = nop .squashed := by
      rw [LoopState.cycle_idInst_eq h hf, LoopState.idOut_of_excepted _ hz hexc]
    have hex : (RvPipeSim.cycle accessFault s).exInst = nop .squashed := by
      rw [LoopState.cycle_exInst_eq h hf, LoopState.exOut_of_excepted hz hexc]
    refine ⟨by rw [hid]; rfl, hpc, hhandler, .inr ⟨by rw [hid]; rfl, by rw [hex]; rfl⟩⟩
  · have hid : (RvPipeSim.cycle accessFault s).idInst = s.idForwarded := by
      rw [LoopState.cycle_idInst_eq h hf, LoopState.idOut_of_frozen _ hz]
    have hexc' : (RvPipeSim.cycle accessFault s).excepted = true := by
      rw [LoopState.excepted, hid, ← hexc, LoopState.excepted, LoopState.idForwarded,
        forwardToID_eq]
      rfl
    refine ⟨?_, hpc, hhandler, .inl hexc'⟩
    rw [hid, LoopState.idForwarded_branch, isBranchOrJump, hlegal, Bool.and_false, Bool.false_and]

/-- A held normal fetch. -/
theorem normal_of_held (hexc : s.excepted = false) (hfetch : s.refetched accessFault = false)
    (hnormal : s.ifInst.status = .normal)
    (hif : (RvPipeSim.cycle accessFault s).ifInst = s.ifInst) :
    isBranchOrJump (RvPipeSim.cycle accessFault s).idInst = false ∧
      ((RvPipeSim.cycle accessFault s).PC = (RvPipeSim.cycle accessFault s).ifInst.PC + 4 ∨
        (RvPipeSim.cycle accessFault s).Restarted) := by
  obtain ⟨hbr, hPC⟩ := hf.normal hnormal
  have hbr' : isBranchOrJump (RvPipeSim.cycle accessFault s).idInst = false := by
    by_contra hbr'
    rw [Bool.not_eq_false] at hbr'
    obtain ⟨-, ⟨-, heq⟩ | ⟨-, heq⟩ | ⟨⟨hz, -, hst, hsv, -⟩, -⟩⟩ :=
      LoopState.idInst_of_active (LoopState.active_of_branch hbr').1
    · rw [heq, LoopState.idForwarded_branch, hbr] at hbr'
      exact Bool.noConfusion hbr'
    · rw [heq, LoopState.idForwarded_branch, hbr, if_neg Bool.false_ne_true,
        LoopState.idForwarded_branch, hbr] at hbr'
      exact Bool.noConfusion hbr'
    · rw [LoopState.refetched, hz, hst, hsv, Bool.or_eq_false_iff] at hfetch
      exact Bool.noConfusion hfetch.2
  have hPC' : (RvPipeSim.cycle accessFault s).PC = s.PC := by
    cases hz : s.frozen
    · cases hst : s.stalled
      · have hsv : s.starved = true := by
          rw [LoopState.refetched, hexc, hz, hst, Bool.or_eq_false_iff] at hfetch
          simpa using hfetch.2
        exact (LoopState.fetch_of_starved h hf hexc hst hsv).2
      · exact (LoopState.fetch_of_stalled h hf hexc hst hbr).2
    · exact (LoopState.fetch_of_frozen h hf hexc hz).2.1
  refine ⟨hbr', ?_⟩
  rw [hif, hPC']
  rcases hPC with hPC | hres
  · exact .inl hPC
  · obtain ⟨hid, hex⟩ := hres.drained.resolve_left (by rw [hexc]; exact Bool.false_ne_true)
    exact .inr ⟨by rw [hif, hPC', hres.PC], by rw [hif, hres.handler],
      .inr ⟨idInst_inactive hid hfetch, exInst_inactive hid hex⟩⟩

/-- A fetch of status normal has no branch in front of it, and the PC is one word on, or on the
handler. -/
theorem normal_cycle (hnormal : (RvPipeSim.cycle accessFault s).ifInst.status = .normal) :
    isBranchOrJump (RvPipeSim.cycle accessFault s).idInst = false ∧
      ((RvPipeSim.cycle accessFault s).PC = (RvPipeSim.cycle accessFault s).ifInst.PC + 4 ∨
        (RvPipeSim.cycle accessFault s).Restarted) := by
  cases hexc : s.excepted
  · cases hfetch : s.refetched accessFault
    · have hif := (LoopState.cycle_of_not_refetched accessFault s hfetch).2
      exact normal_of_held h hf hexc hfetch (hif ▸ hnormal) hif
    · obtain ⟨⟨hz, hst⟩, hsv⟩ : (s.frozen = false ∧ s.stalled = false) ∧ s.starved = false := by
        simpa [LoopState.refetched, hexc, LoopState.memExc_eq_false h hf] using hfetch
      cases hbr : isBranchOrJump (s.idOut accessFault).1
      · obtain ⟨hif, hPC⟩ := LoopState.fetch_of_decoded h hf hexc hz hst hsv hbr
        rw [LoopState.cycle_idInst_eq h hf, hif, hPC]
        exact ⟨hbr, .inl rfl⟩
      · obtain ⟨hif, -⟩ := LoopState.fetch_of_decoded_branch h hf hexc hz hst hsv hbr
        rw [hif] at hnormal
        exact StageStatus.noConfusion hnormal
  · obtain ⟨hbr, hres⟩ := restarted_of_excepted h hf hexc
    exact ⟨hbr, .inr hres⟩

omit h hf in
/-- A branch in ID is legal and raises no exception. -/
theorem not_excepted_of_branch (hbr : isBranchOrJump s.idInst = true) : s.excepted = false := by
  by_contra hexc
  rw [Bool.not_eq_false] at hexc
  have hlegal := (LoopState.active_of_branch hbr).2.1
  rw [(LoopState.illegal_of_excepted hexc).1] at hlegal
  exact Bool.noConfusion hlegal

/-- What lies behind a branch that has just been decoded. -/
theorem redirected_of_decoded (hexc : s.excepted = false) (hz : s.frozen = false)
    (hst : s.stalled = false) (hsv : s.starved = false)
    (hmp : mispredicted s.ifInst s.PC = false)
    (hbr : isBranchOrJump (RvPipeSim.cycle accessFault s).idInst = true) :
    (RvPipeSim.cycle accessFault s).Redirected := by
  have hid := LoopState.cycle_idInst_eq h hf
  obtain ⟨hif, hPC, -⟩ :=
    LoopState.fetch_of_decoded_branch h hf hexc hz hst hsv (hid ▸ hbr)
  have hidPC : (RvPipeSim.cycle accessFault s).idInst.PC = s.ifInst.PC := by
    rw [hid, LoopState.idOut_of_decoding _ hz hexc hst hsv hmp, simID_toFetchInfo]
    rw [enterID]
    split <;> rfl
  have hnext : s.PC = s.ifInst.PC + 4 ∨
      s.PC = s.ifInst.PC ∧ s.idInst.active = false ∧ s.exInst.active = false := by
    rcases h.ifSlot with hidle | hfetched
    · rw [hid, LoopState.idOut_of_decoding _ hz hexc hst hsv hmp, hidle] at hbr
      exact Bool.noConfusion hbr
    · rcases hfetched.status with hnormal | hspec
      · rcases (hf.normal hnormal).2 with hseq | hres
        · exact .inl hseq
        · exact .inr ⟨hres.PC, hres.drained.resolve_left (by rw [hexc]; exact Bool.false_ne_true)⟩
      · -- a speculative instruction passes the squash test only at PC - 4
        rw [mispredicted, hspec, beq_self_eq_true, Bool.true_and, bne_eq_false_iff_eq] at hmp
        rw [hmp]
        exact .inl (BitVec.sub_add_cancel _ _).symm
  refine ⟨by rw [hif], ?_, .inl (by rw [hPC, hid])⟩
  rw [hif, hidPC]
  rcases hnext with hnext | ⟨hnext, hidle, hex⟩
  · exact .inl hnext
  · refine .inr ⟨hnext, exInst_inactive hidle hex, ?_, ?_⟩
    · rw [LoopState.cycle_memInst_eq h hf, LoopState.memOut_of_not_frozen _ hz, simMEM_active]
      exact hex
    · rw [LoopState.cycle_remainingStallCycles]
      exact LoopState.remaining_of_not_stalled h hst

/-- Whether held, stalled or just decoded, a branch in ID has redirected the fetch. -/
theorem branch_cycle (hbr : isBranchOrJump (RvPipeSim.cycle accessFault s).idInst = true) :
    (RvPipeSim.cycle accessFault s).Redirected := by
  obtain ⟨-, ⟨hz, heq⟩ | ⟨⟨hz, hexc, hst⟩, heq⟩ | ⟨⟨hz, hexc, hst, hsv, hmp⟩, -⟩⟩ :=
    LoopState.idInst_of_active (LoopState.active_of_branch hbr).1
  · rw [heq, LoopState.idForwarded_branch] at hbr
    have hred := hf.branch hbr
    obtain ⟨hif, hPC, -⟩ := LoopState.fetch_of_frozen h hf (not_excepted_of_branch hbr) hz
    have hfetch : s.idForwarded.PC = s.idInst.PC := by
      rw [LoopState.idForwarded, forwardToID_toFetchInfo]
    have hex : (RvPipeSim.cycle accessFault s).exInst = s.exInst := by
      rw [LoopState.cycle_exInst_eq h hf, LoopState.exOut_of_frozen hz]
    have hmem : (RvPipeSim.cycle accessFault s).memInst = s.memInst := by
      rw [LoopState.cycle_memInst_eq h hf, LoopState.memOut_of_frozen _ hz]
    refine ⟨by rw [hif]; exact hred.speculative, ?_, ?_⟩
    · rw [hif, heq, hfetch, hex, hmem]
      refine hred.next.imp_right fun hdup => ⟨hdup.1, hdup.2.1, hdup.2.2.1, ?_⟩
      rw [LoopState.cycle_remainingStallCycles]
      exact LoopState.remaining_of_not_stalled h
        (LoopState.stalled_of_ex_inactive hdup.2.1 hdup.2.2.2)
    · rw [hif, hPC, heq, hfetch, s.idForwarded_nextPC]
      exact hred.PC
  · have hbr' := LoopState.branch_of_stalled heq hbr
    have hred := hf.branch hbr'
    obtain ⟨hif, hid, hPC⟩ := LoopState.fetch_of_stalled_branch h hf hexc hz hst hbr'
    have hfetch : s.idForwarded.PC = s.idInst.PC := by
      rw [LoopState.idForwarded, forwardToID_toFetchInfo]
    have hnext : s.ifInst.PC = s.idInst.PC + 4 := by
      refine hred.next.resolve_right fun hdup => ?_
      rw [LoopState.stalled_of_ex_inactive hdup.2.1 hdup.2.2.2] at hst
      exact Bool.noConfusion hst
    refine ⟨by rw [hif]; exact hred.speculative, ?_, ?_⟩
    · rw [hif, hid, simNextPCResolution_toFetchInfo, hfetch]
      exact .inl hnext
    · rw [hif, hid, hPC, simNextPCResolution_toFetchInfo, hfetch, simNextPCResolution_nextPC]
      by_cases htk : resolvedPC s.idForwarded = s.idInst.PC + 4
      · rw [if_pos htk, htk]
        exact .inr ⟨rfl, rfl, hnext⟩
      · rw [if_neg htk]
        exact .inl rfl
  · exact redirected_of_decoded h hf hexc hz hst hsv hmp hbr

/-- Where a speculative fetch waits and its branch has left, ID is empty. -/
theorem waiting_cycle (hspec : (RvPipeSim.cycle accessFault s).ifInst.status = .speculative)
    (hbr : isBranchOrJump (RvPipeSim.cycle accessFault s).idInst = false) :
    (RvPipeSim.cycle accessFault s).idInst.active = false := by
  cases hexc : s.excepted
  · cases hfetch : s.refetched accessFault
    · have hif := (LoopState.cycle_of_not_refetched accessFault s hfetch).2
      rw [hif] at hspec
      cases hbr' : isBranchOrJump s.idInst
      · exact idInst_inactive (hf.waiting hspec hbr') hfetch
      · -- the branch is still there, unless it has left while IF misses
        by_contra hactive
        rw [Bool.not_eq_false] at hactive
        obtain ⟨-, ⟨-, heq⟩ | ⟨-, heq⟩ | ⟨⟨hz, -, hst, hsv, -⟩, -⟩⟩ :=
          LoopState.idInst_of_active hactive
        · rw [heq, LoopState.idForwarded_branch, hbr'] at hbr
          exact Bool.noConfusion hbr
        · have hres : isBranchOrJump (simNextPCResolution s.idForwarded) =
              isBranchOrJump s.idForwarded := rfl
          rw [heq, LoopState.idForwarded_branch, hbr', if_pos rfl, hres,
            LoopState.idForwarded_branch, hbr'] at hbr
          exact Bool.noConfusion hbr
        · rw [LoopState.refetched, hz, hst, hsv, Bool.or_eq_false_iff] at hfetch
          exact Bool.noConfusion hfetch.2
    · obtain ⟨⟨hz, hst⟩, hsv⟩ : (s.frozen = false ∧ s.stalled = false) ∧ s.starved = false := by
        simpa [LoopState.refetched, hexc, LoopState.memExc_eq_false h hf] using hfetch
      rw [LoopState.cycle_idInst_eq h hf] at hbr
      rw [(LoopState.fetch_of_decoded h hf hexc hz hst hsv hbr).1] at hspec
      exact StageStatus.noConfusion hspec
  · rw [(LoopState.fetch_of_excepted h hf hexc).1] at hspec
    exact StageStatus.noConfusion hspec

/-- No hazard comes up for a branch behind which a fetch is pending. -/
theorem missing_cycle (hmiss : (RvPipeSim.cycle accessFault s).instFetchMiss = true)
    (hbr : isBranchOrJump (RvPipeSim.cycle accessFault s).idInst = true) :
    (RvPipeSim.cycle accessFault s).stalled = false := by
  have hmiss' := LoopState.instFetchMiss_of_cycle accessFault s hmiss
  obtain ⟨-, ⟨hz, heq⟩ | ⟨⟨hz, hexc, hst⟩, heq⟩ | ⟨⟨hz, hexc, hst, hsv, hmp⟩, -⟩⟩ :=
    LoopState.idInst_of_active (LoopState.active_of_branch hbr).1
  · rw [heq, LoopState.idForwarded_branch] at hbr
    have hexc := not_excepted_of_branch hbr
    rw [(LoopState.fetch_of_frozen h hf hexc hz).2.2] at hmiss'
    have hst : s.stalled = false := by
      by_contra hst
      rw [Bool.not_eq_false] at hst
      rw [LoopState.starved_of_stalled_branch hf hst hbr] at hmiss'
      exact Bool.noConfusion hmiss'
    exact LoopState.stalled_of_frozen h hf hz hst heq
  · have hbr' := LoopState.branch_of_stalled heq hbr
    obtain ⟨-, -, -, hflag⟩ := LoopState.fetchOut_of_stalled accessFault s
      ((LoopState.exception_eq_excepted h hf).trans hexc) hst
    rw [hflag, LoopState.starved_of_stalled_branch hf hst hbr', ite_self] at hmiss'
    exact Bool.noConfusion hmiss'
  · rw [LoopState.cycle_idInst_eq h hf] at hbr
    rw [(LoopState.fetch_of_decoded_branch h hf hexc hz hst hsv hbr).2.2] at hmiss'
    exact Bool.noConfusion hmiss'

/-- **One cycle keeps the control flow.** -/
theorem cycle : Flow (RvPipeSim.cycle accessFault s) where
  noException := LoopState.memExc_eq_false h hf ▸
    congrArg (fun i : Instruction => i.memException) (LoopState.cycle_memInst_eq h hf)
  inactive := inactive_cycle h hf
  idle := idle_cycle hf
  normal := normal_cycle h hf
  branch := branch_cycle h hf
  waiting := waiting_cycle h hf
  missing := missing_cycle h hf

end Flow

/-- None of the facts speaks of the parked miss state. -/
theorem Flow.reenter {s : LoopState} (hf : Flow s) : Flow (RvPipeSim.reenter s) :=
  ⟨hf.noException, hf.inactive, hf.idle,
    fun hst => (hf.normal hst).imp_right (Or.imp_right fun hres => ⟨hres.1, hres.2, hres.3⟩),
    fun hbr => ⟨(hf.branch hbr).1, (hf.branch hbr).2, (hf.branch hbr).3⟩, hf.waiting, hf.missing⟩

/-- **Slots and control flow in every run of the source's simulator.** -/
theorem Flow.of_run {ok : LoopState → Prop} {iCacheConfig dCacheConfig : CacheConfig}
    {mem : MemoryStore} {visited : List LoopState} {s : LoopState}
    (h : PipelineRun accessFault ok iCacheConfig dCacheConfig mem visited s) :
    (Shape s ∧ Flow s) ∧ ∀ t ∈ visited, Shape t ∧ Flow t :=
  h.invariant (fun s => Shape s ∧ Flow s)
    ⟨.init iCacheConfig dCacheConfig mem, .init iCacheConfig dCacheConfig mem⟩
    (fun _ hs _ => ⟨hs.1.cycle, Flow.cycle hs.1 hs.2⟩)
    (fun _ hs => ⟨hs.1.reenter, hs.2.reenter⟩)

end RvPipeSim
