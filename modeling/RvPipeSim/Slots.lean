import RvPipeSim.Signals

/-!
# How the slots shift in one cycle

The shift is stated once, for any label `a` of fetched instructions that padding does not
carry (`live_wbInst` and its siblings), so that the same five equations serve the sequence
numbers of fetches and the addresses of retired instructions. Between two neighbouring
stages they give a conservation law: what the stage function takes out of its slot and
what the slot holds afterwards is, in order, part of what the slot held before followed
by what the stage before handed over.

## Main results

* `live_wbInst`, `live_memInst`, `live_exInst`, `live_idInst` — the slots after a cycle, by
  their labels;
* `shift_memInst`, `shift_exInst`, `shift_idInst` — conservation where nothing is flushed;
* `sublist_memInst`, `sublist_exInst`, `sublist_idInst` — and in every cycle.
-/

namespace RvPipeSim

open Simulator

/-! ### Labels of live slots -/

/-- The label of an instruction that is not squashed. -/
def Instruction.live {α : Type*} (a : FetchInfo → Option α) (inst : Instruction) : Option α :=
  if inst.status = .squashed then none else a inst.toFetchInfo

section Live

variable {α : Type*} (a : FetchInfo → Option α)

/-- The label depends on what was fetched, and on whether it is squashed. -/
theorem live_congr {i j : Instruction} (hfetch : i.toFetchInfo = j.toFetchInfo)
    (hstatus : i.status = .squashed ↔ j.status = .squashed) : i.live a = j.live a := by
  simp only [Instruction.live, hfetch, hstatus]

/-- Padding carries no label. -/
theorem live_nop (ha : a (nop .idle).toFetchInfo = none) (status : StageStatus) :
    (nop status).live a = none := by
  have h : a (nop status).toFetchInfo = none := ha
  rw [Instruction.live, h, ite_self]

/-- A flush takes the label away. -/
@[simp] theorem live_squashIf (flush : Bool) (inst : Instruction) :
    (squashIf flush inst).live a = if flush then none else inst.live a := by
  cases flush <;> simp [squashIf, Instruction.live]

/-- An effective instruction is not squashed. -/
theorem not_squashed_of_effective {inst : Instruction} (h : inst.effective = true) :
    inst.status ≠ .squashed :=
  (active_iff.mp (effective_iff.mp h).1).2.2

/-- EX keeps the label. -/
@[simp] theorem live_simEX (inst : Instruction) : (simEX inst).live a = inst.live a := by
  refine live_congr a (simEX_toFetchInfo inst) ?_
  cases h : inst.effective
  · rw [simEX_of_not_effective h]
  · rw [simEX_of_effective h]
    simp [not_squashed_of_effective h]

/-- MEM keeps the label; a flush for its exception comes after it. -/
@[simp] theorem live_simMEM (fault : Fault) (sim : Simulator) (inst : Instruction) :
    (sim.simMEM fault inst).1.live a = inst.live a := by
  refine live_congr a (simMEM_toFetchInfo fault sim inst) ?_
  cases h : inst.effective
  · rw [simMEM_of_not_effective h]
  · rw [simMEM_of_effective h]
    simp [not_squashed_of_effective h]

/-- WB keeps the label. -/
@[simp] theorem live_simWB (sim : Simulator) (inst : Instruction) :
    (sim.simWB inst).1.live a = inst.live a := by
  refine live_congr a (simWB_toFetchInfo sim inst) ?_
  cases h : inst.effective
  · rw [simWB_of_not_effective h]
  · rw [simWB_of_effective h]
    simp [not_squashed_of_effective h]

/-- ID keeps the status of a squashed slot, and squashes none. -/
theorem simID_squashed_iff (sim : Simulator) (inst : Instruction) :
    (sim.simID inst).1.status = .squashed ↔ inst.status = .squashed := by
  cases h : inst.active
  · rw [simID_of_inactive h]
  · obtain ⟨hnop, hbubble, hsquashed⟩ := active_iff.mp h
    have htest : (inst.isNop || inst.status == .bubble || inst.status == .squashed) = false := by
      simp [hnop, hbubble, hsquashed]
    rw [simID, htest, if_neg (by simp)]
    dsimp only
    split
    · rfl
    · simp [hsquashed]

/-- ID keeps the label. -/
@[simp] theorem live_simID (sim : Simulator) (inst : Instruction) :
    (sim.simID inst).1.live a = inst.live a :=
  live_congr a (simID_toFetchInfo sim inst) (simID_squashed_iff sim inst)

/-- Entering ID keeps the label. -/
@[simp] theorem live_enterID (inst : Instruction) : (enterID inst).live a = inst.live a := by
  unfold enterID
  split
  · rename_i h
    refine live_congr a rfl ?_
    simp only [Bool.and_eq_true, Bool.not_eq_true', beq_eq_false_iff_ne] at h
    simp [h.1.2]
  · rfl

/-- Predicting the next PC keeps the label. -/
@[simp] theorem live_simNextPCResolution (inst : Instruction) :
    (simNextPCResolution inst).live a = inst.live a := rfl

/-- Forwarding store data keeps the label. -/
@[simp] theorem live_forwardStoreData (z : Bool) (mem ex : Instruction) :
    (forwardStoreData z mem ex).live a = ex.live a := rfl

/-- Forwarding into ID keeps the label. -/
@[simp] theorem live_forwardToID (mem ex id : Instruction) :
    (forwardToID mem ex id).live a = id.live a :=
  live_congr a (forwardToID_toFetchInfo mem ex id) (by rw [forwardToID_status])

end Live

namespace LoopState

/-! ### The slots after a cycle -/

/-- IF fetches a new instruction in this cycle. -/
def refetched (fault : Fault) (s : LoopState) : Bool :=
  s.excepted || s.memExc fault || (!s.frozen && !s.stalled && !s.starved)

/-- The labels handed on by the call `call` of a stage function. -/
def callLabel {α : Type*} (a : FetchInfo → Option α) (call : Option Instruction) : Option α :=
  call.bind (·.live a)

section Shift

variable {α : Type*} (a : FetchInfo → Option α) (ha : a (nop .idle).toFetchInfo = none)
  (fault : Fault) (s : LoopState)

/-- WB takes what is in MEM, unless the pipeline is frozen. -/
theorem callLabel_wbCall :
    callLabel a s.wbCall = if s.frozen then none else s.memInst.live a := by
  rw [wbCall]
  split <;> rfl

/-- MEM takes what is in EX, unless the pipeline is frozen. -/
theorem callLabel_memCall :
    callLabel a s.memCall = if s.frozen then none else s.exInst.live a := by
  rw [memCall]
  split <;> rfl

/-- EX takes what is in ID, unless that is held, illegal or stalled. -/
theorem callLabel_exCall :
    callLabel a s.exCall =
      if s.frozen || s.excepted || s.stalled then none else s.idInst.live a := by
  rw [exCall]
  split
  · rfl
  · exact live_forwardToID a s.memInst s.exForwarded s.idInst

/-- ID takes what is in IF, unless ID is held, the fetch is pending or the path is wrong. -/
theorem callLabel_idCall :
    callLabel a s.idCall =
      if s.frozen || s.excepted || s.stalled || s.starved || mispredicted s.ifInst s.PC then none
      else s.ifInst.live a := by
  rw [idCall]
  split
  · rfl
  · exact live_enterID a s.ifInst

/-- What ID holds after forwarding has the label of what it held. -/
@[simp] theorem live_idForwarded : s.idForwarded.live a = s.idInst.live a :=
  live_forwardToID a s.memInst s.exForwarded s.idInst

include ha

/-- After a cycle WB holds what it has just taken. -/
theorem live_wbInst : (cycle fault s).wbInst.live a = callLabel a s.wbCall := by
  rw [cycle_wbInst, callLabel_wbCall, wbStage]
  split
  · exact live_nop a ha _
  · exact live_simWB a s.simulator s.memInst

omit ha in
/-- After a cycle MEM holds what it has just taken or, in a freeze, what it held. -/
theorem live_memInst :
    (cycle fault s).memInst.live a =
      if s.memExc fault then none
      else if s.frozen then s.memInst.live a else callLabel a s.memCall := by
  rw [cycle_memInst, live_squashIf, callLabel_memCall, memOut, memStage]
  congr 1
  split
  · rfl
  · rw [live_simMEM, exForwarded, live_forwardStoreData]

/-- After a cycle EX holds what it has just taken or, in a freeze, what it held. -/
theorem live_exInst :
    (cycle fault s).exInst.live a =
      if s.flush fault then none
      else if s.frozen then s.exInst.live a else callLabel a s.exCall := by
  rw [cycle_exInst, live_squashIf, callLabel_exCall, exOut, exStage]
  congr 1
  by_cases hz : s.frozen
  · simp [hz, exForwarded]
  by_cases hexc : s.excepted
  · simp [hz, hexc, live_nop a ha]
  by_cases hst : s.stalled
  · simp [hz, hexc, hst, live_nop a ha]
  · simp [hz, hexc, hst]

/-- After a cycle ID holds what it has just taken, or what it held in a freeze or a stall. -/
theorem live_idInst :
    (cycle fault s).idInst.live a =
      if s.flush fault then none
      else if s.frozen || (!s.excepted && s.stalled) then s.idInst.live a
      else callLabel a s.idCall := by
  rw [cycle_idInst, live_squashIf, callLabel_idCall, idOut, idStage]
  congr 1
  by_cases hz : s.frozen
  · simp [hz]
  by_cases hexc : s.excepted
  · simp [hz, hexc, live_nop a ha]
  by_cases hst : s.stalled
  · by_cases hbr : isBranchOrJump s.idForwarded
    · simp [hz, hexc, hst, hbr]
    · simp [hz, hexc, hst, hbr]
  by_cases hsv : s.starved
  · simp [hz, hexc, hst, hsv, live_nop a ha]
  by_cases hmp : mispredicted s.ifInst s.PC
  · simp [hz, hexc, hst, hsv, hmp, live_nop a ha]
  · simp [hz, hexc, hst, hsv, hmp]

omit ha

/-- Where IF fetches, it takes the next number. -/
theorem cycle_of_refetched (h : s.refetched fault = true) :
    (cycle fault s).fetched = s.fetched + 1 ∧
      ∃ PC status, (status = .normal ∨ status = .speculative) ∧
        (cycle fault s).ifInst =
          { simIF (s.idOut fault).2 PC s.fetched with status := status } := by
  rw [cycle_fetched, cycle_ifInst]
  cases hexc : s.excepted || s.memExc fault
  · obtain ⟨⟨hfrozen, hstall⟩, hstarved⟩ :
        (s.frozen = false ∧ s.stalled = false) ∧ s.starved = false := by
      simpa [refetched, hexc] using h
    cases hbr : s.branchInId fault
    · rw [fetchOut_of_next fault s hexc hstall hbr (by simp [hfrozen, hstarved])]
      exact ⟨rfl, s.PC, .normal, .inl rfl, rfl⟩
    · obtain ⟨hif, hfetched, -, -⟩ := fetchOut_of_branch fault s hexc hstall hbr
      exact ⟨hfetched, s.PC, .speculative, .inr rfl, hif⟩
  · rw [fetchOut_of_exception fault s hexc]
    exact ⟨rfl, excHandler, .normal, .inl rfl, rfl⟩

/-- Where IF does not fetch, it keeps its instruction. -/
theorem cycle_of_not_refetched (h : s.refetched fault = false) :
    (cycle fault s).fetched = s.fetched ∧ (cycle fault s).ifInst = s.ifInst := by
  rw [cycle_fetched, cycle_ifInst]
  obtain ⟨hexc, hrest⟩ : (s.excepted || s.memExc fault) = false ∧
      (!s.frozen && !s.stalled && !s.starved) = false := by
    simpa only [refetched, Bool.or_eq_false_iff] using h
  cases hstall : s.stalled
  · have hmiss : (s.starved || s.frozen) = true := by
      revert hrest
      rw [hstall]
      cases s.frozen <;> cases s.starved <;> decide
    obtain ⟨hif, hfetched, -, -⟩ := fetchOut_of_miss fault s hexc hstall hmiss
    exact ⟨hfetched, hif⟩
  · obtain ⟨hif, hfetched, -, -⟩ := fetchOut_of_stalled fault s hexc hstall
    exact ⟨hfetched, hif⟩

/-! ### Conservation between neighbouring stages -/

/-- Without a memory exception nothing is lost between EX and WB. -/
theorem shift_memInst (hmem : s.memExc fault = false) :
    (callLabel a s.wbCall).toList ++ ((cycle fault s).memInst.live a).toList =
      (s.memInst.live a).toList ++ (callLabel a s.memCall).toList := by
  rw [live_memInst, callLabel_wbCall, callLabel_memCall, hmem]
  cases s.frozen <;> simp

/-- Nothing gets from EX to WB out of order, and an exception only takes away. -/
theorem sublist_memInst :
    ((callLabel a s.wbCall).toList ++ ((cycle fault s).memInst.live a).toList).Sublist
      ((s.memInst.live a).toList ++ (callLabel a s.memCall).toList) := by
  cases hmem : s.memExc fault
  · exact shift_memInst a fault s hmem ▸ .refl _
  · rw [live_memInst, callLabel_wbCall, hmem]
    cases s.frozen <;> simp [List.Sublist.refl]

include ha

/-- Without a flush nothing is lost between ID and MEM. -/
theorem shift_exInst (hflush : s.flush fault = false) :
    (callLabel a s.memCall).toList ++ ((cycle fault s).exInst.live a).toList =
      (s.exInst.live a).toList ++ (callLabel a s.exCall).toList := by
  rw [live_exInst a ha, callLabel_memCall, callLabel_exCall, hflush]
  cases s.frozen <;> simp

/-- Nothing gets from ID to MEM out of order, and a flush only takes away. -/
theorem sublist_exInst :
    ((callLabel a s.memCall).toList ++ ((cycle fault s).exInst.live a).toList).Sublist
      ((s.exInst.live a).toList ++ (callLabel a s.exCall).toList) := by
  cases hflush : s.flush fault
  · exact shift_exInst a ha fault s hflush ▸ .refl _
  · rw [live_exInst a ha, callLabel_memCall, hflush]
    cases s.frozen <;> simp [List.Sublist.refl]

/-- An illegal instruction leaves ID without being handed on; everything else is kept. -/
theorem shift_idInst (hflush : s.flush fault = false)
    (hexc : s.excepted = true → s.idInst.live a = none) :
    (callLabel a s.exCall).toList ++ ((cycle fault s).idInst.live a).toList =
      (s.idInst.live a).toList ++ (callLabel a s.idCall).toList := by
  rw [live_idInst a ha, callLabel_exCall, callLabel_idCall, hflush]
  cases hz : s.frozen
  · cases he : s.excepted
    · cases s.stalled <;> simp
    · simp [hexc he]
  · simp

/-- Nothing gets from IF to EX out of order, and a flush only takes away. -/
theorem sublist_idInst :
    ((callLabel a s.exCall).toList ++ ((cycle fault s).idInst.live a).toList).Sublist
      ((s.idInst.live a).toList ++ (callLabel a s.idCall).toList) := by
  rw [live_idInst a ha, callLabel_exCall, callLabel_idCall]
  cases s.frozen
  · cases s.excepted
    · cases s.stalled <;> cases s.flush fault <;> simp
    · cases s.flush fault <;> simp
  · cases s.flush fault <;> simp

omit ha

/-- What ID takes from IF was there, and then IF fetches anew. -/
theorem refetched_of_idCall {i : Instruction} (h : s.idCall = some i) :
    s.refetched fault = true := by
  simp only [idCall, Option.ite_none_left_eq_some, Bool.or_eq_true, not_or,
    Bool.not_eq_true] at h
  obtain ⟨⟨⟨⟨⟨hfrozen, -⟩, hstalled⟩, hstarved⟩, -⟩, -⟩ := h
  simp [refetched, hfrozen, hstalled, hstarved]

end Shift

/-! ### Where an active slot comes from -/

section Active

variable {fault : Fault} {s : LoopState}

/-- What is active behind a flush was not flushed. -/
theorem active_of_squashIf {flush : Bool} {inst : Instruction}
    (h : (squashIf flush inst).active = true) :
    flush = false ∧ inst.active = true ∧ squashIf flush inst = inst := by
  cases flush
  · exact ⟨rfl, h, rfl⟩
  · exact absurd rfl (active_iff.mp h).2.2

/-- An active instruction in EX was held there or comes from ID. -/
theorem exInst_of_active (h : (cycle fault s).exInst.active = true) :
    s.flush fault = false ∧
      (s.frozen = true ∧ (cycle fault s).exInst = s.exInst ∨
        (s.frozen = false ∧ s.excepted = false ∧ s.stalled = false) ∧
          (cycle fault s).exInst = simEX s.idForwarded) := by
  rw [cycle_exInst] at h ⊢
  obtain ⟨hflush, hactive, heq⟩ := active_of_squashIf h
  rw [heq]
  refine ⟨hflush, ?_⟩
  obtain ⟨hz, hout⟩ | ⟨status, hout⟩ | ⟨hmoves, hout⟩ := s.exOut_cases
  · exact .inl ⟨hz, hout⟩
  · rw [hout] at hactive
    exact Bool.noConfusion hactive
  · exact .inr ⟨hmoves, hout⟩

/-- An active instruction in ID was held there by a data miss or a hazard, or comes from
IF. -/
theorem idInst_of_active (h : (cycle fault s).idInst.active = true) :
    s.flush fault = false ∧
      (s.frozen = true ∧ (cycle fault s).idInst = s.idForwarded ∨
        (s.frozen = false ∧ s.excepted = false ∧ s.stalled = true) ∧
          (cycle fault s).idInst =
            (if isBranchOrJump s.idForwarded then simNextPCResolution s.idForwarded
              else s.idForwarded) ∨
        (s.frozen = false ∧ s.excepted = false ∧ s.stalled = false ∧ s.starved = false ∧
            mispredicted s.ifInst s.PC = false) ∧
          (cycle fault s).idInst = ((s.memOut fault).2.simID (enterID s.ifInst)).1) := by
  rw [cycle_idInst] at h ⊢
  obtain ⟨hflush, hactive, heq⟩ := active_of_squashIf h
  rw [heq]
  refine ⟨hflush, ?_⟩
  obtain ⟨hz, hout⟩ | ⟨hz, status, hout⟩ | ⟨hmoves, hout⟩ | ⟨hmoves, hout⟩ := s.idOut_cases fault
  · exact .inl ⟨hz, by rw [hout]⟩
  · rw [hout] at hactive
    exact Bool.noConfusion hactive
  · exact .inr (.inl ⟨hmoves, by rw [hout]⟩)
  · exact .inr (.inr ⟨hmoves, by rw [hout]⟩)

/-- A branch that ID has kept in a stall was one before. -/
theorem branch_of_stalled
    (heq : (cycle fault s).idInst =
      if isBranchOrJump s.idForwarded then simNextPCResolution s.idForwarded
      else s.idForwarded)
    (hbr : isBranchOrJump (cycle fault s).idInst = true) : isBranchOrJump s.idInst = true := by
  rw [← idForwarded_branch]
  by_contra hno
  rw [heq, if_neg hno] at hbr
  exact hno hbr

end Active

end LoopState

end RvPipeSim
