import RvPipeSim.Branches
import RvPipeSim.Drain

/-!
# The pipeline follows program order

`Refines visited s q` says that the sequencer's state `q` is the pipeline's state `s` with
the instructions in MEM, EX and ID carried out: the registers and memory, the list of what
retires, and the PCs of the next two instructions (`upcoming`). Behind a HALT nothing counts,
so there the picture ends with the HALT.

In a `Regular` cycle a branch goes by the operands it executes with and the instruction that
enters ID is the word memory holds by then. `Refines.cycle` is the step lemma for such
cycles: the sequencer makes a step when an instruction enters ID, and none otherwise.

## Main results

* `upcoming_cycle`, `retireID_cycle` — unless ID decodes, the sequencer's state explains the
  next cycle as well;
* `Refines.of_decodes` — a decoded instruction is the sequencer's next step;
* `Refines.cycle` — a regular cycle makes the sequencer step or wait.
-/

namespace RvPipeSim

open Simulator ObservedRun

namespace LoopState

variable {s : LoopState} {visited : List LoopState}

/-! ### The PCs behind the instruction in ID -/

/-- Where the branch in ID goes on the operands it is to execute with. -/
def target (s : LoopState) : BitVec 64 :=
  resolvedPC (simOperandCollection s.idInst (s.retireEX accessFault).regData)

/-- The next PC and the one behind it by what IF holds. -/
def inLine (s : LoopState) : BitVec 64 × BitVec 64 :=
  if s.ifInst.status == .idle || mispredicted s.ifInst s.PC then (s.PC, s.PC + 4)
  else (s.ifInst.PC, s.PC)

/-- The PC of the next instruction to enter ID and the PC fetched behind it. -/
def upcoming (s : LoopState) : BitVec 64 × BitVec 64 :=
  if s.excepted then (excHandler, excHandler)
  else if isBranchOrJump s.idInst then follow s.ifInst.PC s.target
  else s.inLine

/-- ID decodes an instruction in this cycle. -/
def decodes (s : LoopState) : Bool :=
  s.enters && !(s.ifInst.status == .idle || mispredicted s.ifInst s.PC)

/-- The instruction that enters ID is what memory holds at its address, the older
instructions carried out. -/
def FetchCoherent (s : LoopState) : Prop :=
  s.decodes = true → s.ifInst.instruction = wordAt s.retireID.memory s.ifInst.PC

/-- No HALT is in MEM, EX or ID. -/
def haltFree (s : LoopState) : Bool :=
  !(s.memInst.isHalt || s.exInst.isHalt || s.idInst.isHalt)

/-- Unless a HALT is ahead, branches go by their operands and the words ID takes are the
ones in memory. -/
def Regular (s : LoopState) : Prop := s.haltFree = true → s.BranchFresh ∧ s.FetchCoherent

instance (s : LoopState) : Decidable s.FetchCoherent :=
  inferInstanceAs (Decidable (_ = true → _ = _))

instance (s : LoopState) : Decidable s.Regular :=
  inferInstanceAs (Decidable (_ = true → _ ∧ _))

/-- ID decodes what may enter it, has been fetched and is on the right path. -/
theorem decodes_iff :
    s.decodes = true ↔
      s.enters = true ∧ s.ifInst.status ≠ .idle ∧ mispredicted s.ifInst s.PC = false := by
  rw [decodes, Bool.and_eq_true, Bool.not_eq_true', Bool.or_eq_false_iff, beq_eq_false_iff_ne]

/-- Behind a fetch of status normal the line goes on at the PC. -/
theorem inLine_of_normal (h : s.ifInst.status = .normal) : s.inLine = (s.ifInst.PC, s.PC) := by
  rw [inLine, mispredicted, h]
  rfl

/-- A branch that leaves ID goes where its operands say. -/
theorem target_of_moving (hs : Steady s) (ho : Operands s) (hsync : s.Synced)
    (hfresh : s.BranchFresh) (hz : s.frozen = false) (hst : s.stalled = false)
    (hbr : isBranchOrJump s.idInst = true) : s.idInst.nextPC = s.target := by
  have hexc := Flow.not_excepted_of_branch hbr
  obtain ⟨hactive, hlegal, hop⟩ := active_of_branch hbr
  have hcall : s.exCall = some s.idForwarded := if_neg (by rw [hz, hexc, hst]; decide)
  have hnext := (resolved_iff_fresh hs.shape hsync hcall (by rwa [idForwarded_branch])).mpr hfresh
  have hsame := sameWord_idForwarded s s.idForwarded.nextPC
  obtain ⟨hop1, hop2⟩ := idForwarded_collected hs ho hz hst hactive hlegal
  have hnostore : s.idInst.writesMem = false := Bool.eq_false_iff.mpr fun hwrites =>
    Bool.noConfusion (hop.symm.trans (hs.shape.id_wellFormed.store hwrites).2.2.2.2.2)
  have hkept : s.idForwarded.nextPC = s.idInst.nextPC := forwardToID_nextPC _ _ _
  rw [← hkept, hnext, simNextPCResolution_nextPC, target]
  exact resolvedPC_congr hsame.PC hsame.instruction hsame.decode hop1 (hop2 hnostore)

/-- Behind a branch that leaves ID, its target and what IF holds tell the same. -/
theorem follow_of_redirected (h : s.Redirected) :
    follow s.ifInst.PC s.idInst.nextPC = s.inLine := by
  have hidle : (s.ifInst.status == StageStatus.idle) = false := by
    rw [h.speculative]
    rfl
  rw [inLine, hidle, Bool.false_or, mispredicted, h.speculative, follow]
  rcases h.PC with hPC | ⟨hnext, hPC, hif⟩
  · rw [hPC]
    by_cases hchosen : s.ifInst.PC = s.idInst.nextPC - 4
    · rw [if_pos hchosen, if_neg (by simp [hchosen]), hchosen]
      rw [BitVec.sub_add_cancel]
    · rw [if_neg hchosen, if_pos (by simpa using hchosen)]
  · have hPC' : s.ifInst.PC = s.PC - 4 := by
      rw [hPC, hnext, hif, BitVec.add_sub_cancel]
    rw [if_neg (by rw [hif, hnext]; bv_omega), if_neg (by simpa using hPC'), hif, hPC, hnext]

/-- **When ID moves, the next instruction is the one IF holds or the one at the PC.** -/
theorem upcoming_of_moving (hs : Steady s) (ho : Operands s) (hsync : s.Synced)
    (hfresh : s.BranchFresh) (hz : s.frozen = false) (hexc : s.excepted = false)
    (hst : s.stalled = false) : s.upcoming = s.inLine := by
  rw [upcoming, hexc, if_neg Bool.false_ne_true]
  split
  · rename_i hbr
    rw [← target_of_moving hs ho hsync hfresh hz hst hbr]
    exact follow_of_redirected (hs.flow.branch hbr)
  · rfl

/-- What is held in ID raises and branches as before. -/
theorem held_congr (hs : Steady s) (hexc : s.excepted = false)
    (hheld : (s.frozen || s.stalled) = true) :
    (cycle accessFault s).excepted = false ∧
      isBranchOrJump (cycle accessFault s).idInst = isBranchOrJump s.idInst ∧
      (cycle accessFault s).target = s.target := by
  have hsame := sameWord_of_held hs hexc hheld
  have hregs : ((cycle accessFault s).retireEX accessFault).regData =
      (s.retireEX accessFault).regData := (retireEX_cycle_of_held hs (by
        rw [hexc, Bool.or_false]
        exact hheld)).regData
  refine ⟨?_, ?_, ?_⟩
  · rw [← hexc, excepted, raisesIllegalExc, hsame.decode, hsame.active]
    rfl
  · rw [isBranchOrJump, isBranchOrJump, hsame.decode, hsame.active]
  · rw [target, hregs]
    exact hsame.resolvedPC_eq _

/-- While ID is held, the PCs behind it stay the same. -/
theorem upcoming_cycle_of_held (hs : Steady s) (hexc : s.excepted = false)
    (hheld : (s.frozen || s.stalled) = true) : (cycle accessFault s).upcoming = s.upcoming := by
  obtain ⟨hexc', hbr', htarget⟩ := held_congr hs hexc hheld
  rw [upcoming, upcoming, hexc', hexc, hbr', htarget]
  cases hz : s.frozen
  · have hst : s.stalled = true := by simpa [hz] using hheld
    cases hbr : isBranchOrJump s.idInst
    · obtain ⟨hif, hPC⟩ := fetch_of_stalled hs.shape hs.flow hexc hst hbr
      rw [inLine, inLine, hif, hPC]
    · rw [(fetch_of_stalled_branch hs.shape hs.flow hexc hz hst hbr).1]
      rfl
  · obtain ⟨hif, hPC, -⟩ := fetch_of_frozen hs.shape hs.flow hexc hz
    rw [inLine, inLine, hif, hPC]

/-- The redirect to the handler keeps its aim. -/
theorem upcoming_cycle_of_excepted (hs : Steady s) (hexc : s.excepted = true) :
    (cycle accessFault s).upcoming = s.upcoming := by
  have hexc' : (cycle accessFault s).excepted = s.frozen := by
    cases hz : s.frozen
    · rw [excepted, cycle_idInst_eq hs.shape hs.flow, idOut_of_excepted _ hz hexc]
      rfl
    · rw [excepted, cycle_idInst_eq hs.shape hs.flow, idOut_of_frozen _ hz, ← hexc, excepted,
        idForwarded, forwardToID_eq]
      rfl
  rw [upcoming, upcoming, hexc, hexc', if_pos rfl]
  cases hz : s.frozen
  · obtain ⟨hif, hPC, -⟩ := fetch_of_excepted hs.shape hs.flow hexc
    have hbr : isBranchOrJump (cycle accessFault s).idInst = false := by
      rw [cycle_idInst_eq hs.shape hs.flow, idOut_of_excepted _ hz hexc]
      rfl
    rw [if_neg Bool.false_ne_true, hbr, if_neg Bool.false_ne_true,
      inLine_of_normal (by rw [hif]; rfl), hif, hPC]
    rfl
  · rfl

/-- Why ID decodes nothing although it moves. -/
theorem not_decodes_cases (hs : Steady s) (hz : s.frozen = false) (hexc : s.excepted = false)
    (hst : s.stalled = false) (hdecodes : s.decodes = false) :
    s.starved = true ∨
      s.starved = false ∧
        (mispredicted s.ifInst s.PC = true ∨
          mispredicted s.ifInst s.PC = false ∧ s.ifInst = nop .idle) := by
  cases hsv : s.starved
  · have henters : s.enters = true := enters_iff.mpr ⟨hz, hexc, hst, hsv⟩
    rw [decodes, henters, Bool.true_and, Bool.not_eq_false', Bool.or_eq_true] at hdecodes
    refine .inr ⟨rfl, ?_⟩
    cases hmp : mispredicted s.ifInst s.PC
    · have hidle : s.ifInst.status = .idle := by
        rcases hdecodes with hidle | hmp'
        · exact beq_iff_eq.mp hidle
        · rw [hmp] at hmp'
          exact Bool.noConfusion hmp'
      refine .inr ⟨rfl, hs.shape.ifSlot.resolve_right fun hfetched => ?_⟩
      rcases hfetched.status with hst | hst
      · rw [hst] at hidle
        exact StageStatus.noConfusion hidle
      · rw [hst] at hidle
        exact StageStatus.noConfusion hidle
    · exact .inl rfl
  · exact .inl rfl

/-- What ID is left with when it moves and decodes nothing. -/
theorem idInst_of_not_decodes (hs : Steady s) (hz : s.frozen = false) (hexc : s.excepted = false)
    (hst : s.stalled = false) (hdecodes : s.decodes = false) :
    (cycle accessFault s).idInst.IsPadding := by
  rw [cycle_idInst_eq hs.shape hs.flow]
  rcases not_decodes_cases hs hz hexc hst hdecodes with hsv | ⟨hsv, hmp | ⟨hmp, hidle⟩⟩
  · rw [idOut_of_starved _ hz hexc hst hsv]
    exact ⟨_, rfl⟩
  · rw [idOut_of_mispredicted _ hz hexc hst hsv hmp]
    exact ⟨_, rfl⟩
  · rw [idOut_of_decoding _ hz hexc hst hsv hmp, hidle]
    exact ⟨_, rfl⟩

/-- Behind an ID that moves and decodes nothing, IF has the same two words to come. -/
theorem inLine_cycle (hs : Steady s) (hz : s.frozen = false) (hexc : s.excepted = false)
    (hst : s.stalled = false) (hdecodes : s.decodes = false) :
    (cycle accessFault s).inLine = s.inLine := by
  have hpadding := idInst_of_not_decodes hs hz hexc hst hdecodes
  rcases not_decodes_cases hs hz hexc hst hdecodes with hsv | ⟨hsv, hmp | ⟨hmp, hidle⟩⟩
  · obtain ⟨hif, hPC⟩ := fetch_of_starved hs.shape hs.flow hexc hst hsv
    rw [inLine, inLine, hif, hPC]
  · obtain ⟨hif, hPC⟩ := fetch_of_mispredicted hs.shape hs.flow hexc hz hst hsv hmp
    rw [inLine_of_normal (by rw [hif]; rfl), hif, hPC, inLine, hmp, Bool.or_true, if_pos rfl]
    rfl
  · have hnobranch : isBranchOrJump (s.idOut accessFault).1 = false := by
      rw [← cycle_idInst_eq hs.shape hs.flow]
      exact hpadding.not_branch
    obtain ⟨hif, hPC⟩ := fetch_of_decoded hs.shape hs.flow hexc hz hst hsv hnobranch
    rw [inLine_of_normal (by rw [hif]; rfl), hif, hPC, inLine, hidle]
    rfl

/-- **Unless ID decodes, the instructions to come stay the same.** -/
theorem upcoming_cycle (hs : Steady s) (ho : Operands s) (hsync : s.Synced)
    (hfresh : s.BranchFresh) (hdecodes : s.decodes = false) :
    (cycle accessFault s).upcoming = s.upcoming := by
  cases hexc : s.excepted
  · cases hheld : (s.frozen || s.stalled)
    · obtain ⟨hz, hst⟩ := Bool.or_eq_false_iff.mp hheld
      have hpadding := idInst_of_not_decodes hs hz hexc hst hdecodes
      have hexc' : (cycle accessFault s).excepted = false := by
        rw [excepted, raisesIllegalExc, hpadding.active, Bool.and_false, Bool.false_and]
      rw [upcoming_of_moving hs ho hsync hfresh hz hexc hst,
        ← inLine_cycle hs hz hexc hst hdecodes, upcoming, hexc', if_neg Bool.false_ne_true,
        hpadding.not_branch, if_neg Bool.false_ne_true]
    · exact upcoming_cycle_of_held hs hexc hheld
  · exact upcoming_cycle_of_excepted hs hexc

/-- **Unless ID decodes, what is drained stays the same.** -/
theorem retireID_cycle (hs : Steady s) (ho : Operands s) (hdecodes : s.decodes = false) :
    (cycle accessFault s).retireID.Agrees s.retireID := by
  cases hexc : s.excepted
  · cases hheld : (s.frozen || s.stalled)
    · obtain ⟨hz, hst⟩ := Bool.or_eq_false_iff.mp hheld
      have hpadding := idInst_of_not_decodes hs hz hexc hst hdecodes
      rw [retireID_of_not_effective (not_effective_of_inactive hpadding.active)]
      exact retireEX_cycle_of_moving hs ho hz hexc hst
    · exact retireID_cycle_of_held hs hexc hheld
  · have hillegal := (illegal_of_excepted hexc).1
    have heff : s.idInst.effective = false := by
      rw [Instruction.effective, hillegal, Bool.and_false, Bool.false_and]
    have heff' : (cycle accessFault s).idInst.effective = false := by
      rw [cycle_idInst_eq hs.shape hs.flow]
      cases hz : s.frozen
      · rw [idOut_of_excepted _ hz hexc]
        rfl
      · rw [idOut_of_frozen _ hz, Instruction.effective, s.idForwarded_toDecodeInfo, hillegal,
          Bool.and_false, Bool.false_and]
    rw [retireID_of_not_effective heff, retireID_of_not_effective heff']
    exact retireEX_cycle_of_held hs (by rw [hexc, Bool.or_true, Bool.true_or])

/-! ### The instruction that enters ID -/

/-- What a cycle that decodes an instruction looks like. -/
theorem moving_of_decodes (hs : Steady s) (h : s.decodes = true) :
    s.frozen = false ∧ s.excepted = false ∧ s.stalled = false ∧ s.starved = false ∧
      mispredicted s.ifInst s.PC = false ∧ s.ifInst.Fetched := by
  obtain ⟨henters, hidle, hmp⟩ := decodes_iff.mp h
  obtain ⟨hz, hexc, hst, hsv⟩ := enters_iff.mp henters
  refine ⟨hz, hexc, hst, hsv, hmp, hs.shape.ifSlot.resolve_left fun hnop => hidle ?_⟩
  rw [hnop]
  rfl

/-- The instruction ID decodes is the next one. -/
theorem upcoming_of_decoding (hs : Steady s) (ho : Operands s) (hsync : s.Synced)
    (hfresh : s.BranchFresh) (h : s.decodes = true) : s.upcoming = (s.ifInst.PC, s.PC) := by
  obtain ⟨hz, hexc, hst, -, hmp, -⟩ := moving_of_decodes hs h
  rw [upcoming_of_moving hs ho hsync hfresh hz hexc hst, inLine, hmp,
    beq_eq_false_iff_ne.mpr (decodes_iff.mp h).2.1]
  rfl

/-- The instruction ID decodes is the one IF held. -/
theorem idInst_of_decodes (hs : Steady s) (h : s.decodes = true) :
    (cycle accessFault s).idInst.Decoded ∧ (cycle accessFault s).idInst.status = .normal ∧
      (cycle accessFault s).idInst.toFetchInfo = s.ifInst.toFetchInfo := by
  obtain ⟨hz, hexc, hst, hsv, hmp, hfetched⟩ := moving_of_decodes hs h
  rw [cycle_idInst_eq hs.shape hs.flow, idOut_of_decoding _ hz hexc hst hsv hmp]
  refine ⟨decoded_simID _ hfetched, simID_status _ hfetched, ?_⟩
  rw [simID_toFetchInfo, enterID_of_fetched hfetched]

/-- It is the one the single step decodes, if memory holds the same word. -/
theorem sameWord_of_decodes (hs : Steady s) (h : s.decodes = true) {mem : MemoryStore}
    (hword : s.ifInst.instruction = wordAt mem s.ifInst.PC) :
    SameWord (cycle accessFault s).idInst (decodedAt mem s.ifInst.PC) := by
  obtain ⟨hdecoded, hnormal, hfetch⟩ := idInst_of_decodes hs h
  have hdec : (cycle accessFault s).idInst.toDecodeInfo =
      (decodedAt mem s.ifInst.PC).toDecodeInfo := by
    rw [hdecoded.decode, hfetch, hword]
    rfl
  refine ⟨?_, ?_, hdec, ?_, fun hreads => hdecoded.op1Val hreads,
    fun hreads => hdecoded.op2Val hreads, hdecoded.arithResult, hdecoded.memAddress⟩
  · rw [hfetch]
    rfl
  · rw [hfetch, hword]
    rfl
  · rw [Instruction.active, Instruction.active, hnormal, hdec]
    rfl

/-- What is decoded is what IF holds, and has a label if it is legal. -/
theorem callLabel_of_decodes (hs : Steady s) (h : s.decodes = true) :
    callLabel legalFetch (s.call .simID) =
      if (decodeOf s.ifInst.instruction).isLegal then some s.ifInst.toFetchInfo else none := by
  obtain ⟨hz, hexc, hst, hsv, hmp, hfetched⟩ := moving_of_decodes hs h
  have hlive : s.ifInst.status ≠ .squashed := by
    rcases hfetched.status with hst | hst <;> rw [hst] <;> decide
  rw [call, callLabel_idCall, hz, hexc, hst, hsv, hmp, Instruction.live, if_neg hlive, legalFetch,
    hfetched.numbered, Bool.true_and]
  rfl

/-- What is not decoded hands no label to ID. -/
theorem callLabel_of_not_decodes (hs : Steady s) (h : s.decodes = false) :
    callLabel legalFetch (s.call .simID) = none := by
  rw [call, callLabel_idCall]
  split
  · rfl
  · rename_i hgoing
    rw [Bool.not_eq_true, Bool.or_eq_false_iff, Bool.or_eq_false_iff, Bool.or_eq_false_iff,
      Bool.or_eq_false_iff] at hgoing
    obtain ⟨⟨⟨⟨hz, hexc⟩, hst⟩, hsv⟩, hmp⟩ := hgoing
    rcases not_decodes_cases hs hz hexc hst h with hsv' | ⟨-, hmp' | ⟨-, hidle⟩⟩
    · exact Bool.noConfusion (hsv.symm.trans hsv')
    · exact Bool.noConfusion (hmp.symm.trans hmp')
    · rw [hidle]
      rfl

/-- ID is handed the PC in IF, if the word there is legal. -/
theorem handedPC_of_decodes (hs : Steady s) (h : s.decodes = true) :
    s.handedPC .simID =
      if (decodeOf s.ifInst.instruction).isLegal then [s.ifInst.PC] else [] := by
  rw [handedPC, callLabel_of_decodes hs h]
  cases (decodeOf s.ifInst.instruction).isLegal <;> rfl

/-- What is not decoded hands no PC to ID. -/
theorem handedPC_of_not_decodes (hs : Steady s) (h : s.decodes = false) :
    s.handedPC .simID = [] := by
  rw [handedPC, callLabel_of_not_decodes hs h]
  rfl

end LoopState

/-! ### The refinement -/

/-- The sequencer's state `q` is the pipeline's state, reached by cycles from `visited`, with
the instructions in flight carried out, up to the oldest HALT. -/
inductive Refines (visited : List LoopState) (s : LoopState) (q : Sequencer) : Prop
  | running : s.haltFree = true → q.halted = false → s.Synced →
      s.retireID.Agrees q.simulator → s.committedID visited = q.trace →
      s.upcoming = (q.PC, q.fetchPC) → Refines visited s q
  | haltInID : s.memInst.isHalt = false → s.exInst.isHalt = false → s.idInst.isHalt = true →
      q.halted = true → (s.retireEX accessFault).Agrees q.simulator →
      s.committedID visited = q.trace → Refines visited s q
  | haltInEX : s.memInst.isHalt = false → s.exInst.isHalt = true → q.halted = true →
      s.retireMEM.Agrees q.simulator → s.committedEX visited = q.trace → Refines visited s q
  | haltInMEM : s.memInst.isHalt = true → q.halted = true → s.simulator.Agrees q.simulator →
      s.committedMEM visited = q.trace → Refines visited s q

namespace Refines

variable {visited : List LoopState} {s : LoopState} {q : Sequencer}

/-- No HALT is in ID, EX or MEM. -/
theorem haltFree_iff :
    s.haltFree = true ↔
      s.memInst.isHalt = false ∧ s.exInst.isHalt = false ∧ s.idInst.isHalt = false := by
  rw [LoopState.haltFree, Bool.not_eq_true', Bool.or_eq_false_iff, Bool.or_eq_false_iff, and_assoc]

/-- The sequencer has halted when a HALT is in flight. -/
theorem halted_eq (h : Refines visited s q) : q.halted = !s.haltFree := by
  cases h with
  | running hfree hq => rw [hfree, hq, Bool.not_true]
  | haltInID _ _ hid hq =>
      rw [hq, LoopState.haltFree, hid, Bool.or_true, Bool.not_true, Bool.not_false]
  | haltInEX _ hex hq =>
      rw [hq, LoopState.haltFree, hex, Bool.or_true, Bool.true_or, Bool.not_true, Bool.not_false]
  | haltInMEM hmem hq =>
      rw [hq, LoopState.haltFree, hmem, Bool.true_or, Bool.true_or, Bool.not_true, Bool.not_false]

/-- A sequencer that goes on has the state behind ID. -/
theorem of_not_halted (h : Refines visited s q) (hq : q.halted = false) :
    s.Synced ∧ s.retireID.Agrees q.simulator ∧ s.upcoming = (q.PC, q.fetchPC) := by
  cases h with
  | running _ _ hsync hsim _ hPC => exact ⟨hsync, hsim, hPC⟩
  | haltInID _ _ _ hq' => exact Bool.noConfusion (hq.symm.trans hq')
  | haltInEX _ _ hq' => exact Bool.noConfusion (hq.symm.trans hq')
  | haltInMEM _ hq' => exact Bool.noConfusion (hq.symm.trans hq')

/-- No HALT comes to MEM or EX from stages without one. -/
theorem not_halt_cycle (hs : Steady s) (h : s.haltFree = true) :
    (RvPipeSim.cycle accessFault s).memInst.isHalt = false ∧
      (RvPipeSim.cycle accessFault s).exInst.isHalt = false := by
  obtain ⟨hmem, hex, hid⟩ := haltFree_iff.mp h
  rw [LoopState.memInst_isHalt_cycle hs, LoopState.exInst_isHalt_cycle hs, hmem, hex, hid]
  exact ⟨ite_self _, by rw [Bool.and_false, ite_self]⟩

/-- A HALT in MEM stays there until the simulator halts. -/
theorem of_haltInMEM (hs : Steady s) (hhalt : s.halts accessFault = false)
    (hmem : s.memInst.isHalt = true) (hq : q.halted = true) (hsim : s.simulator.Agrees q.simulator)
    (htrace : s.committedMEM visited = q.trace) :
    Refines (visited ++ [s]) (RvPipeSim.cycle accessFault s) q := by
  have hz : s.frozen = true := by
    by_contra hz
    rw [Bool.not_eq_true] at hz
    rw [LoopState.halts_eq _ hz, hmem] at hhalt
    exact Bool.noConfusion hhalt
  refine .haltInMEM ?_ hq ?_ ?_
  · rw [LoopState.memInst_isHalt_cycle hs, if_pos hz, hmem]
  · rw [LoopState.simulator_cycle_of_frozen hz]
    exact hsim
  · rw [LoopState.committedMEM_cycle hs, htrace, LoopState.handedPC_of_frozen hz,
      List.append_nil]

/-- A HALT in EX goes on to MEM. -/
theorem of_haltInEX (hs : Steady s) (hmem : s.memInst.isHalt = false)
    (hex : s.exInst.isHalt = true) (hq : q.halted = true)
    (hsim : s.retireMEM.Agrees q.simulator) (htrace : s.committedEX visited = q.trace) :
    Refines (visited ++ [s]) (RvPipeSim.cycle accessFault s) q := by
  cases hz : s.frozen
  · have hnostore : isStore s.exInst = false := by
      rw [isStore, (hs.shape.ex_wellFormed.halt hex).2.2.1.writesMem]
      rfl
    refine .haltInMEM ?_ hq ?_ ?_
    · rw [LoopState.memInst_isHalt_cycle hs, hz, hex]
      rfl
    · refine .trans ⟨LoopState.regData_cycle hz, ?_⟩ hsim
      rw [LoopState.memory_cycle hs.shape hz, hnostore, if_neg Bool.false_ne_true,
        LoopState.retireMEM, simWB_memory]
    · rw [LoopState.committedMEM_cycle hs, ← htrace, LoopState.handedPC, LoopState.call,
        LoopState.callLabel_memCall, hz]
      rfl
  · refine .haltInEX ?_ ?_ hq ?_ ?_
    · rw [LoopState.memInst_isHalt_cycle hs, if_pos hz, hmem]
    · rw [LoopState.exInst_isHalt_cycle hs, if_pos hz, hex]
    · rw [LoopState.retireMEM, LoopState.simulator_cycle_of_frozen hz,
        LoopState.memInst_cycle_of_frozen hs.shape hz]
      exact hsim
    · rw [LoopState.committedEX_cycle hs, htrace, LoopState.handedPC_of_frozen hz, List.append_nil]

/-- A HALT in ID goes on to EX. -/
theorem of_haltInID (hs : Steady s) (hmem : s.memInst.isHalt = false)
    (hex : s.exInst.isHalt = false) (hid : s.idInst.isHalt = true) (hq : q.halted = true)
    (hsim : (s.retireEX accessFault).Agrees q.simulator)
    (htrace : s.committedID visited = q.trace) :
    Refines (visited ++ [s]) (RvPipeSim.cycle accessFault s) q := by
  obtain ⟨hexc, hst⟩ := LoopState.moving_of_halt hs hid
  cases hz : s.frozen
  · refine .haltInEX ?_ ?_ hq ((LoopState.retireMEM_cycle hs hz).trans hsim) ?_
    · rw [LoopState.memInst_isHalt_cycle hs, hz, hex]
      rfl
    · rw [LoopState.exInst_isHalt_cycle hs, hz, hexc, hst, hid]
      rfl
    · rw [LoopState.committedEX_cycle hs, ← htrace, LoopState.handedPC, LoopState.call,
        LoopState.callLabel_exCall, hz, hexc, hst]
      rfl
  · refine .haltInID ?_ ?_ ?_ hq ?_ ?_
    · rw [LoopState.memInst_isHalt_cycle hs, if_pos hz, hmem]
    · rw [LoopState.exInst_isHalt_cycle hs, if_pos hz, hex]
    · have hsame := LoopState.sameWord_of_held hs hexc (by rw [hz]; rfl)
      rw [hsame.decode]
      exact hid
    · rw [LoopState.retireEX_cycle_of_frozen hs hz]
      exact hsim
    · rw [LoopState.committedID_cycle hs, htrace, LoopState.handedPC_of_frozen hz, List.append_nil]

/-- Without a decoded instruction no HALT comes to ID. -/
theorem idInst_not_halt (hs : Steady s) (hdecodes : s.decodes = false)
    (hid : s.idInst.isHalt = false) : (RvPipeSim.cycle accessFault s).idInst.isHalt = false := by
  cases hexc : s.excepted
  · cases hheld : (s.frozen || s.stalled)
    · obtain ⟨hz, hst⟩ := Bool.or_eq_false_iff.mp hheld
      obtain ⟨status, hnop⟩ := LoopState.idInst_of_not_decodes hs hz hexc hst hdecodes
      rw [hnop]
      rfl
    · rw [(LoopState.sameWord_of_held hs hexc hheld).decode]
      exact hid
  · rw [LoopState.cycle_idInst_eq hs.shape hs.flow]
    cases hz : s.frozen
    · rw [LoopState.idOut_of_excepted _ hz hexc]
      rfl
    · rw [LoopState.idOut_of_frozen _ hz, s.idForwarded_toDecodeInfo]
      exact hid

/-- Without a decoded instruction the sequencer waits. -/
theorem of_not_decodes (hs : Steady s) (ho : Operands s) (hfresh : s.BranchFresh)
    (hdecodes : s.decodes = false) (hfree : s.haltFree = true) (hq : q.halted = false)
    (hsync : s.Synced) (hsim : s.retireID.Agrees q.simulator)
    (htrace : s.committedID visited = q.trace) (hPC : s.upcoming = (q.PC, q.fetchPC)) :
    Refines (visited ++ [s]) (RvPipeSim.cycle accessFault s) q := by
  obtain ⟨hmem', hex'⟩ := not_halt_cycle hs hfree
  refine .running (haltFree_iff.mpr ⟨hmem', hex', ?_⟩) hq (hsync.cycle hs.shape hs.flow hfresh)
    ((LoopState.retireID_cycle hs ho hdecodes).trans hsim) ?_
    ((LoopState.upcoming_cycle hs ho hsync hfresh hdecodes).trans hPC)
  · exact idInst_not_halt hs hdecodes (haltFree_iff.mp hfree).2.2
  · rw [LoopState.committedID_cycle hs, htrace, LoopState.handedPC_of_not_decodes hs hdecodes,
      List.append_nil]

/-- The PCs behind an instruction that has just been decoded are those the sequencer goes on
to, if that one has decoded and carried out the same. -/
theorem upcoming_of_decodes (hs : Steady s) (hdecodes : s.decodes = true)
    (hexecuted : q.executed.toDecodeInfo = (RvPipeSim.cycle accessFault s).idInst.toDecodeInfo)
    (hfetch : q.fetchPC = s.PC)
    (htarget : q.executed.isHalt = false → q.executed.isLegal = true →
      q.executed.nextPC = (RvPipeSim.cycle accessFault s).target)
    (hhalt : q.executed.isHalt = false) :
    (RvPipeSim.cycle accessFault s).upcoming = q.successors := by
  obtain ⟨hz, hexc, hst, hsv, hmp, hfetched⟩ := LoopState.moving_of_decodes hs hdecodes
  obtain ⟨hdecoded, hnormal, -⟩ := LoopState.idInst_of_decodes hs hdecodes
  have hactive : (RvPipeSim.cycle accessFault s).idInst.active =
      !(RvPipeSim.cycle accessFault s).idInst.isNop := by
    rw [Instruction.active, hnormal]
    exact (Bool.and_true _).trans (Bool.and_true _)
  rw [Sequencer.successors, hexecuted]
  cases hlegal : (RvPipeSim.cycle accessFault s).idInst.isLegal
  · obtain ⟨hnohalt, hnop, -⟩ := hdecoded.wellFormed.illegal hlegal
    have hexc' : (RvPipeSim.cycle accessFault s).excepted = true := by
      rw [LoopState.excepted, raisesIllegalExc, hlegal, hactive, hnop, hnohalt]
      rfl
    rw [LoopState.upcoming, hexc']
    rfl
  · have hexc' : (RvPipeSim.cycle accessFault s).excepted = false := by
      rw [LoopState.excepted, raisesIllegalExc, hlegal]
      rfl
    have hbranch : isBranchOrJump (RvPipeSim.cycle accessFault s).idInst =
        (RvPipeSim.cycle accessFault s).idInst.branchOpcode := by
      have hparts : isBranchOrJump (RvPipeSim.cycle accessFault s).idInst =
          ((RvPipeSim.cycle accessFault s).idInst.branchOpcode &&
            (RvPipeSim.cycle accessFault s).idInst.isLegal &&
            (RvPipeSim.cycle accessFault s).idInst.active) := rfl
      rw [hparts, hlegal, hactive, Bool.and_true]
      cases hnop : (RvPipeSim.cycle accessFault s).idInst.isNop
      · exact Bool.and_true _
      · rw [(hdecoded.wellFormed.isNop hnop).2.2.2]
        rfl
    have hidOut := LoopState.cycle_idInst_eq hs.shape hs.flow
    rw [LoopState.upcoming, hexc', if_neg Bool.false_ne_true, hbranch, if_pos rfl]
    cases hop : (RvPipeSim.cycle accessFault s).idInst.branchOpcode
    · have hnobranch : isBranchOrJump (s.idOut accessFault).1 = false := by
        rw [← hidOut, hbranch, hop]
      obtain ⟨hif, hPC⟩ :=
        LoopState.fetch_of_decoded hs.shape hs.flow hexc hz hst hsv hnobranch
      rw [if_neg Bool.false_ne_true, if_neg Bool.false_ne_true,
        LoopState.inLine_of_normal (by rw [hif]; rfl), hif, hPC, hfetch]
      rfl
    · have hbr : isBranchOrJump (s.idOut accessFault).1 = true := by
        rw [← hidOut, hbranch, hop]
      obtain ⟨hif, -⟩ := LoopState.fetch_of_decoded_branch hs.shape hs.flow hexc hz hst hsv hbr
      rw [if_pos rfl, if_pos rfl, htarget hhalt (by rw [hexecuted, hlegal]), hif, hfetch]
      rfl

/-- **A decoded instruction is the sequencer's next step.** -/
theorem of_decodes (hs : Steady s) (ho : Operands s) (hfresh : s.BranchFresh)
    (hcoherent : s.FetchCoherent) (hdecodes : s.decodes = true) (hfree : s.haltFree = true)
    (hq : q.halted = false) (hsync : s.Synced) (hsim : s.retireID.Agrees q.simulator)
    (htrace : s.committedID visited = q.trace) (hPC : s.upcoming = (q.PC, q.fetchPC)) :
    Refines (visited ++ [s]) (RvPipeSim.cycle accessFault s) q.step := by
  obtain ⟨hz, hexc, hst, -⟩ := LoopState.moving_of_decodes hs hdecodes
  obtain ⟨hdecoded, -, hfetch⟩ := LoopState.idInst_of_decodes hs hdecodes
  obtain ⟨hmem', hex'⟩ := not_halt_cycle hs hfree
  -- the sequencer is at the instruction in IF, and has the PC as the next one
  obtain ⟨hqPC, hqfetch⟩ := Prod.mk.inj <|
    hPC.symm.trans (LoopState.upcoming_of_decoding hs ho hsync hfresh hdecodes)
  have hword : s.ifInst.instruction = wordAt q.simulator.memory q.PC := by
    rw [← hsim.memory, hqPC]
    exact hcoherent hdecodes
  have hsame : SameWord (RvPipeSim.cycle accessFault s).idInst
      (decodedAt q.simulator.memory q.PC) := by
    rw [hqPC] at hword ⊢
    exact LoopState.sameWord_of_decodes hs hdecodes hword
  have hexecuted : q.executed.toDecodeInfo =
      (RvPipeSim.cycle accessFault s).idInst.toDecodeInfo := by
    rw [q.executed_toDecodeInfo, hsame.decode]
    rfl
  have hEX : ((RvPipeSim.cycle accessFault s).retireEX accessFault).Agrees q.simulator :=
    (LoopState.retireEX_cycle_of_moving hs ho hz hexc hst).trans hsim
  have htarget : q.executed.isHalt = false → q.executed.isLegal = true →
      q.executed.nextPC = (RvPipeSim.cycle accessFault s).target := by
    intro hhalt hlegal
    rw [q.executed_toDecodeInfo] at hhalt hlegal
    rw [LoopState.target, hEX.regData, hsame.resolvedPC_eq]
    exact simInstruction_nextPC hlegal hhalt
  have htrace' : (RvPipeSim.cycle accessFault s).committedID (visited ++ [s]) =
      q.trace ++ if q.executed.isLegal then [q.PC] else [] := by
    rw [LoopState.committedID_cycle hs, htrace, LoopState.handedPC_of_decodes hs hdecodes,
      hexecuted, hqPC, hdecoded.decode, hfetch]
  have hsync' := hsync.cycle hs.shape hs.flow hfresh
  cases hhalt : q.executed.isHalt
  · have hid' : (RvPipeSim.cycle accessFault s).haltFree = true :=
      haltFree_iff.mpr ⟨hmem', hex', hexecuted ▸ hhalt⟩
    have hPC'' := upcoming_of_decodes hs hdecodes hexecuted hqfetch htarget hhalt
    cases hlegal : q.executed.isLegal
    · have heff : (RvPipeSim.cycle accessFault s).idInst.effective = false := by
        rw [Instruction.effective, ← hexecuted, hlegal, Bool.and_false, Bool.false_and]
      rw [hlegal, if_neg Bool.false_ne_true, List.append_nil] at htrace'
      rw [Sequencer.step_of_illegal hq hhalt hlegal]
      refine .running hid' rfl hsync' ?_ htrace' ?_
      · rw [LoopState.retireID_of_not_effective heff]
        exact hEX
      · rw [hPC'', Sequencer.successors, hlegal]
        rfl
    · rw [hlegal, if_pos rfl] at htrace'
      rw [Sequencer.step_of_legal hq hhalt hlegal]
      refine .running hid' rfl hsync' ?_ htrace' hPC''
      rw [q.executed_toDecodeInfo] at hhalt hlegal
      exact (carryOut_agrees hEX hsame hdecoded.wellFormed).trans
        (simInstruction_agrees hlegal hhalt).symm
  · have hlegal : q.executed.isLegal = true := by
      rw [hexecuted] at hhalt ⊢
      exact (hdecoded.wellFormed.halt hhalt).1
    rw [hlegal, if_pos rfl] at htrace'
    rw [Sequencer.step_of_halt hq hhalt]
    exact .haltInID hmem' hex' (hexecuted ▸ hhalt) rfl hEX htrace'

/-- **One regular cycle follows the sequencer**, which makes a step or waits. -/
theorem cycle (hs : Steady s) (ho : Operands s) (hregular : s.Regular)
    (hhalt : s.halts accessFault = false) (h : Refines visited s q) :
    Refines (visited ++ [s]) (RvPipeSim.cycle accessFault s) q ∨
      Refines (visited ++ [s]) (RvPipeSim.cycle accessFault s) q.step := by
  cases h with
  | running hfree hq hsync hsim htrace hPC =>
      obtain ⟨hfresh, hcoherent⟩ := hregular hfree
      cases hdecodes : s.decodes
      · exact .inl (of_not_decodes hs ho hfresh hdecodes hfree hq hsync hsim htrace hPC)
      · exact .inr (of_decodes hs ho hfresh hcoherent hdecodes hfree hq hsync hsim htrace hPC)
  | haltInID hmem hex hid hq hsim htrace => exact .inl (of_haltInID hs hmem hex hid hq hsim htrace)
  | haltInEX hmem hex hq hsim htrace => exact .inl (of_haltInEX hs hmem hex hq hsim htrace)
  | haltInMEM hmem hq hsim htrace => exact .inl (of_haltInMEM hs hhalt hmem hq hsim htrace)

/-- At the start the sequencer is at the first instruction, and nothing has retired. -/
theorem init (iCacheConfig dCacheConfig : CacheConfig) (mem : MemoryStore) :
    Refines [] (enter (initSimulator iCacheConfig dCacheConfig mem)) (.init mem) :=
  .running rfl rfl (fun hbr => Bool.noConfusion hbr) ⟨rfl, rfl⟩ rfl rfl

/-- Entering `runCycles` again changes nothing the refinement speaks of. -/
theorem reenter (h : Refines visited s q) : Refines visited (RvPipeSim.reenter s) q := by
  cases h with
  | running hfree hq hsync hsim htrace hPC => exact .running hfree hq hsync hsim htrace hPC
  | haltInID hmem hex hid hq hsim htrace => exact .haltInID hmem hex hid hq hsim htrace
  | haltInEX hmem hex hq hsim htrace => exact .haltInEX hmem hex hq hsim htrace
  | haltInMEM hmem hq hsim htrace => exact .haltInMEM hmem hq hsim htrace

/-- The cycle that halts has the sequencer's outcome before it, and retires its trace. -/
theorem of_halts (hs : Steady s) (hhalt : s.halts accessFault = true) (h : Refines visited s q) :
    q.halted = true ∧ s.simulator.Agrees q.simulator ∧ retiredPCs (visited ++ [s]) = q.trace := by
  obtain ⟨f, -, hlive, hretired⟩ := retired_of_halts visited hs hhalt
  have hmem : s.memInst.isHalt = true := LoopState.memInst_of_halts hhalt
  cases h with
  | running hfree => exact Bool.noConfusion (hmem.symm.trans (haltFree_iff.mp hfree).1)
  | haltInID hmem' => exact Bool.noConfusion (hmem.symm.trans hmem')
  | haltInEX hmem' => exact Bool.noConfusion (hmem.symm.trans hmem')
  | haltInMEM _ hq hsim htrace =>
      refine ⟨hq, hsim, ?_⟩
      rw [hretired, ← htrace, LoopState.committedMEM, hlive]
      rfl

end Refines

/-! ### The last cycle -/

namespace LoopState

variable {s : LoopState}

/-- If this cycle ends the run, it leaves no mark of a store behind the HALT. -/
def Quiet (s : LoopState) : Prop :=
  s.halts accessFault = true → isStore s.exInst = true →
    storedMemory s.exForwarded s.simulator.memory = s.simulator.memory

/-- The cycle that halts writes no register, and no memory if it is quiet. -/
theorem outcome_of_halts (hs : Steady s) (hhalt : s.halts accessFault = true) :
    (cycle accessFault s).simulator.regData = s.simulator.regData ∧
      ((cycle accessFault s).simulator.memory = s.simulator.memory ↔ s.Quiet) := by
  have hz := not_frozen_of_halts hhalt
  constructor
  · rw [regData_cycle hz, retireMEM,
      simWB_of_not_effective (not_effective_of_isHalt (memInst_of_halts hhalt))]
  · rw [memory_cycle hs.shape hz]
    constructor
    · intro hkept _ hstore
      rwa [if_pos hstore] at hkept
    · intro hquiet
      split
      · rename_i hstore
        exact hquiet hhalt hstore
      · rfl

end LoopState

end RvPipeSim
