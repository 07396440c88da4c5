import RvPipeSim.Drain
import RvPipeSim.Timing

/-!
# The illegal-instruction flush

While a miss in MEM holds an illegal instruction in ID, every cycle raises its exception
again and replaces what is in IF; EX and ID are flushed when the freeze is over. Neither the
illegal instruction nor what was behind it is ever handed to EX, so neither has an effect
(`Discarded`). The instructions ahead of it, in EX and MEM, do not depend on what is behind
them: two states that agree on MEM and EX stay so until both have retired (`Alike`), whatever
ID holds in the one and in the other.

## Main results

* `Alike.cycle` — what is in ID makes no difference to older instructions;
* `Discarded.cycle`, `Discarded.suppressed` — the illegal instruction and what is behind it go
  no further than ID;
* `illegal_flush_precise` — the flush is precise.
-/

namespace RvPipeSim

open Simulator ObservedRun

/-! ### What is not older than a number -/

/-- The instruction has no number below `n`. -/
def Instruction.NotOlder (n : ℕ) (inst : Instruction) : Prop := ∀ m, inst.seq = some m → n ≤ m

/-- Neither what is in ID and IF nor what will be fetched is older than `n`. -/
structure Front (n : ℕ) (s : LoopState) : Prop where
  fetched : n ≤ s.fetched
  ifInst : s.ifInst.NotOlder n
  idInst : s.idInst.NotOlder n

/-- What the front of the pipeline holds comes from the front. -/
theorem Front.cycle {n : ℕ} {s : LoopState} (fault : Fault) (h : Front n s) :
    Front n (RvPipeSim.cycle fault s) where
  fetched := by
    rw [s.fetched_cycle fault]
    exact Nat.le_trans h.fetched (Nat.le_add_right _ _)
  ifInst m hm := by
    rw [s.seq_ifInst fault] at hm
    split at hm
    · obtain rfl := Option.some.inj hm
      exact h.fetched
    · exact h.ifInst m hm
  idInst m hm := by
    rw [s.seq_idInst fault] at hm
    split_ifs at hm
    · exact h.idInst m hm
    · exact h.idInst m hm
    · exact h.ifInst m hm

namespace LoopState

variable {fault : Fault} {s t : LoopState} {n : ℕ}

/-- If nothing older than `n` is held in EX, nothing older comes there, as what comes is from the
front. -/
theorem exInst_notOlder_cycle (fault : Fault) (hf : Front n s)
    (hex : s.frozen = true → s.exInst.NotOlder n) :
    (cycle fault s).exInst.NotOlder n := by
  intro m hm
  rw [seq_exInst] at hm
  split_ifs at hm with hz
  · exact hex hz m hm
  · exact hf.idInst m hm

/-- If nothing older than `n` is in EX or held in MEM, nothing older comes to MEM. -/
theorem memInst_notOlder_cycle (fault : Fault) (hex : s.exInst.NotOlder n)
    (hmem : s.frozen = true → s.memInst.NotOlder n) : (cycle fault s).memInst.NotOlder n := by
  intro m hm
  rw [seq_memInst] at hm
  split_ifs at hm with hz
  · exact hmem hz m hm
  · exact hex m hm

/-! ### What the instruction in MEM depends on -/

/-- MEM does the same to simulators with the same registers and memory. -/
theorem simMEM_agrees {sim sim' : Simulator} (h : sim.Agrees sim') (inst : Instruction) :
    (sim.simMEM fault inst).1 = (sim'.simMEM fault inst).1 ∧
      (sim.simMEM fault inst).2.Agrees (sim'.simMEM fault inst).2 := by
  cases heff : inst.effective
  · rw [simMEM_of_not_effective heff, simMEM_of_not_effective heff]
    exact ⟨rfl, h⟩
  · rw [simMEM_of_effective heff, simMEM_of_effective heff, h.memory]
    exact ⟨rfl, h.regData, rfl⟩

/-- Two states that agree on the instruction in MEM, the registers, the memory and the
D-cache. -/
structure SameMEM (s t : LoopState) : Prop where
  memInst : s.memInst = t.memInst
  simulator : s.simulator.Agrees t.simulator
  dataFetchMiss : s.dataFetchMiss = t.dataFetchMiss
  dataMissStalls : s.dataMissStalls = t.dataMissStalls
  prevDValid : s.prevDValid = t.prevDValid
  prevDAddr : s.prevDAddr = t.prevDAddr
  prevDOp : s.prevDOp = t.prevDOp
  dCache : s.dCache = t.dCache

namespace SameMEM

/-- The D-cache access depends on the instruction in MEM and the D-cache. -/
theorem accessDCache (h : SameMEM s t) :
    SameMEM (RvPipeSim.accessDCache s) (RvPipeSim.accessDCache t) := by
  rw [accessDCache_eq s, accessDCache_eq t, h.memInst, h.dataFetchMiss, h.dataMissStalls,
    h.prevDValid, h.prevDAddr, h.prevDOp, h.dCache]
  split_ifs
  · exact ⟨h.memInst, h.simulator, rfl, rfl, rfl, rfl, rfl, rfl⟩
  · exact ⟨h.memInst, h.simulator, rfl, rfl, rfl, rfl, rfl, rfl⟩
  · exact h
  · exact ⟨h.memInst, h.simulator, rfl, rfl, h.prevDValid, h.prevDAddr, h.prevDOp, h.dCache⟩
  · exact h

/-- Both freeze, or neither. -/
theorem frozen (h : SameMEM s t) : s.frozen = t.frozen := by
  rw [frozen_eq, frozen_eq, h.accessDCache.dataFetchMiss]

/-- WB is handed the same instruction. -/
theorem wbCall (h : SameMEM s t) : s.wbCall = t.wbCall := by
  rw [LoopState.wbCall, LoopState.wbCall, h.frozen, h.memInst]

/-- If EX holds the same, the same store data are forwarded to it. -/
theorem exForwarded (h : SameMEM s t) (hex : s.exInst = t.exInst) :
    s.exForwarded = t.exForwarded := by
  rw [LoopState.exForwarded, LoopState.exForwarded, h.frozen, h.memInst, hex]

/-- WB leaves the same registers and memory. -/
theorem simAfterWB (h : SameMEM s t) : s.simAfterWB.Agrees t.simAfterWB := by
  rw [LoopState.simAfterWB, LoopState.simAfterWB, h.frozen, h.memInst, wbStage, wbStage]
  split
  · exact h.simulator
  · exact simWB_agrees h.simulator t.memInst

/-- What MEM leaves behind is the same. -/
theorem memOut (fault : Fault) (h : SameMEM s t) (hex : s.frozen = true ∨ s.exInst = t.exInst) :
    (s.memOut fault).1 = (t.memOut fault).1 ∧
      (s.memOut fault).2.Agrees (t.memOut fault).2 := by
  cases hz : s.frozen
  · have hz' := h.frozen.symm.trans hz
    have hex' := hex.resolve_left (by rw [hz]; exact Bool.false_ne_true)
    rw [memOut_of_not_frozen fault hz, memOut_of_not_frozen fault hz', h.exForwarded hex']
    exact simMEM_agrees h.simAfterWB t.exForwarded
  · rw [memOut_of_frozen fault hz, memOut_of_frozen fault (h.frozen.symm.trans hz)]
    exact ⟨h.memInst, h.simulator⟩

/-- If MEM takes over the same, both raise a memory exception or neither. -/
theorem memExc (fault : Fault) (h : SameMEM s t) (hex : s.frozen = true ∨ s.exInst = t.exInst) :
    s.memExc fault = t.memExc fault := by
  rw [LoopState.memExc, LoopState.memExc, (h.memOut fault hex).1]

/-- A cycle keeps the agreement as long as what enters MEM is the same. -/
theorem cycle (fault : Fault) (h : SameMEM s t) (hex : s.frozen = true ∨ s.exInst = t.exInst) :
    SameMEM (RvPipeSim.cycle fault s) (RvPipeSim.cycle fault t) := by
  obtain ⟨hmiss, hstalls, hvalid, haddr, hop, -⟩ := cycle_data fault s
  obtain ⟨hmiss', hstalls', hvalid', haddr', hop', -⟩ := cycle_data fault t
  have hdata := h.accessDCache
  refine ⟨?_, ?_, ?_, ?_, ?_, ?_, ?_, ?_⟩
  · rw [cycle_memInst, cycle_memInst, h.memExc fault hex, (h.memOut fault hex).1]
  · cases hz : s.frozen
    · obtain ⟨hregs, hmem⟩ := idOut_frame (s := s) hz
      obtain ⟨hregs', hmem'⟩ := idOut_frame (s := t) (h.frozen.symm.trans hz)
      obtain ⟨hregsOut, hmemOut⟩ := (h.memOut fault hex).2
      rw [cycle_simulator, cycle_simulator]
      exact ⟨hregs.trans (hregsOut.trans hregs'.symm), hmem.trans (hmemOut.trans hmem'.symm)⟩
    · rw [simulator_cycle_of_frozen hz, simulator_cycle_of_frozen (h.frozen.symm.trans hz)]
      exact h.simulator
  · rw [hmiss, hmiss', hdata.dataMissStalls, h.dCache, h.frozen]
  · rw [hstalls, hstalls', hdata.dataMissStalls, h.dCache]
  · rw [hvalid, hvalid', hdata.prevDValid]
  · rw [haddr, haddr', hdata.prevDAddr]
  · rw [hop, hop', hdata.prevDOp]
  · rw [dCache_cycle, dCache_cycle, hdata.dCache]

end SameMEM

/-! ### The instructions older than a number, in two states -/

/-- The instructions older than `n` are the same in both states, and so is all that they
depend on. -/
inductive Alike (n : ℕ) (s t : LoopState) : Prop
  /-- Those in EX and in MEM. -/
  | ex (mem : SameMEM s t) (ex : s.exInst = t.exInst)
  /-- Only the one in MEM is left. -/
  | mem (mem : SameMEM s t) (left : s.exInst.NotOlder n) (right : t.exInst.NotOlder n)
  /-- They have retired. -/
  | done (left : s.memInst.NotOlder n ∧ s.exInst.NotOlder n)
      (right : t.memInst.NotOlder n ∧ t.exInst.NotOlder n)

/-- In a frozen cycle without exceptions EX stays. -/
theorem exInst_cycle_of_frozen (hexc : s.memExc fault = false) (hz : s.frozen = true) :
    (cycle fault s).exInst = s.exInst := by
  rw [cycle_exInst, flush, hexc, exOut_of_frozen hz]
  rfl

/-- **What is in ID makes no difference to older instructions.** -/
theorem Alike.cycle (hs : s.memExc fault = false) (hfront : Front n s) (hfront' : Front n t)
    (h : Alike n s t) : Alike n (RvPipeSim.cycle fault s) (RvPipeSim.cycle fault t) := by
  cases h with
  | ex hmem hex =>
      have hnext := hmem.cycle fault (.inr hex)
      cases hz : s.frozen
      · have hz' := hmem.frozen.symm.trans hz
        exact .mem hnext (exInst_notOlder_cycle fault hfront fun h => absurd h (by simp [hz]))
          (exInst_notOlder_cycle fault hfront' fun h => absurd h (by simp [hz']))
      · refine .ex hnext ?_
        rw [exInst_cycle_of_frozen hs hz, exInst_cycle_of_frozen
          ((hmem.memExc fault (.inr hex)).symm.trans hs) (hmem.frozen.symm.trans hz), hex]
  | mem hmem hleft hright =>
      have hex := exInst_notOlder_cycle fault hfront fun _ => hleft
      have hex' := exInst_notOlder_cycle fault hfront' fun _ => hright
      cases hz : s.frozen
      · have hz' := hmem.frozen.symm.trans hz
        exact .done ⟨memInst_notOlder_cycle fault hleft fun h => absurd h (by simp [hz]), hex⟩
          ⟨memInst_notOlder_cycle fault hright fun h => absurd h (by simp [hz']), hex'⟩
      · exact .mem (hmem.cycle fault (.inl hz)) hex hex'
  | done hleft hright =>
      exact .done ⟨memInst_notOlder_cycle fault hleft.2 fun _ => hleft.1,
          exInst_notOlder_cycle fault hfront fun _ => hleft.2⟩
        ⟨memInst_notOlder_cycle fault hright.2 fun _ => hright.1,
          exInst_notOlder_cycle fault hfront' fun _ => hright.2⟩

/-- The effect on `part` of the simulator of an instruction older than `n` that `call` is
handed: the instruction, and `part` before and after the cycle. -/
def olderEffect {α : Type*} (n : ℕ) (call : LoopState → Option Instruction)
    (part : Simulator → α) (u : LoopState) : Option (Instruction × α × α) :=
  ((call u).filter fun inst => inst.seq.any (· < n)).map fun inst =>
    (inst, part u.simulator, part (RvPipeSim.cycle accessFault u).simulator)

/-- What is not older has no such effect. -/
theorem olderEffect_of_notOlder {α : Type*} {call : LoopState → Option Instruction}
    {part : Simulator → α} (h : ∀ inst, call s = some inst → inst.NotOlder n) :
    s.olderEffect n call part = none := by
  rw [olderEffect, Option.map_eq_none_iff, Option.filter_eq_none_iff]
  intro inst hinst hany
  obtain ⟨m, hm, hlt⟩ := (Option.any_eq_true _ _).mp hany
  exact absurd (of_decide_eq_true hlt) (Nat.not_lt.mpr (h inst hinst m hm))

/-- The effect depends on what the stage is handed and on `part` before and after. -/
theorem olderEffect_congr {α : Type*} {call : LoopState → Option Instruction}
    {part : Simulator → α} (hcall : call s = call t) (hnow : part s.simulator = part t.simulator)
    (hnext : part (RvPipeSim.cycle accessFault s).simulator =
      part (RvPipeSim.cycle accessFault t).simulator) :
    s.olderEffect n call part = t.olderEffect n call part := by
  rw [olderEffect, olderEffect, hcall, hnow, hnext]

/-- Older instructions write the same registers and the same memory in both states. -/
theorem Alike.olderEffect (h : Alike n s t) :
    s.olderEffect n LoopState.wbCall Simulator.regData =
        t.olderEffect n LoopState.wbCall Simulator.regData ∧
      s.olderEffect n LoopState.memCall Simulator.memory =
        t.olderEffect n LoopState.memCall Simulator.memory := by
  have hwb : ∀ {u : LoopState}, u.memInst.NotOlder n →
      u.olderEffect n LoopState.wbCall Simulator.regData = none := fun hu =>
    olderEffect_of_notOlder fun inst hcall => (wbCall_eq_some hcall).2 ▸ hu
  have hmemCall : ∀ {u : LoopState}, u.exInst.NotOlder n →
      u.olderEffect n LoopState.memCall Simulator.memory = none := fun hu =>
    olderEffect_of_notOlder fun inst hcall => (memCall_eq_some hcall).2 ▸ hu
  cases h with
  | ex hmem hex =>
      have hnext := (hmem.cycle accessFault (.inr hex)).simulator
      have hcall : s.memCall = t.memCall := by
        rw [LoopState.memCall, LoopState.memCall, hmem.frozen, hmem.exForwarded hex]
      exact ⟨olderEffect_congr hmem.wbCall hmem.simulator.regData hnext.regData,
        olderEffect_congr hcall hmem.simulator.memory hnext.memory⟩
  | mem hmem hleft hright =>
      refine ⟨olderEffect_congr hmem.wbCall hmem.simulator.regData ?_, ?_⟩
      · cases hz : s.frozen
        · rw [regData_cycle hz, regData_cycle (hmem.frozen.symm.trans hz), retireMEM, retireMEM,
            hmem.memInst]
          exact (simWB_agrees hmem.simulator t.memInst).regData
        · exact (hmem.cycle accessFault (.inl hz)).simulator.regData
      · rw [hmemCall hleft, hmemCall hright]
  | done hleft hright =>
      rw [hwb hleft.1, hwb hright.1, hmemCall hleft.2, hmemCall hright.2]
      exact ⟨rfl, rfl⟩

/-! ### Until they have retired -/

/-- The front stays behind `n` in every iterate. -/
theorem front_iterate (fault : Fault) (h : Front n s) (k : ℕ) :
    Front n ((RvPipeSim.cycle fault)^[k] s) := by
  induction k with
  | zero => exact h
  | succ k ih =>
      rw [Function.iterate_succ_apply']
      exact ih.cycle fault

/-- Alike states go on alike. -/
theorem alike_iterate (hs : Steady s) (hfront : Front n s) (hfront' : Front n t)
    (h : Alike n s t) (k : ℕ) :
    Alike n ((RvPipeSim.cycle accessFault)^[k] s) ((RvPipeSim.cycle accessFault)^[k] t) := by
  induction k with
  | zero => exact h
  | succ k ih =>
      have hst := steady_iterate hs k
      rw [Function.iterate_succ_apply', Function.iterate_succ_apply']
      exact ih.cycle (memExc_eq_false hst.shape hst.flow) (front_iterate accessFault hfront k)
        (front_iterate accessFault hfront' k)

/-- Once the freeze is over, what was in EX is in MEM. -/
theorem exInst_notOlder_iterate (hs : Steady s) (hfront : Front n s) {k : ℕ}
    (hk : s.dataLeft < k) : ((RvPipeSim.cycle accessFault)^[k] s).exInst.NotOlder n := by
  induction hk with
  | refl =>
      rw [Function.iterate_succ_apply']
      refine exInst_notOlder_cycle accessFault (front_iterate accessFault hfront _) fun hz => ?_
      rw [thawed_iterate hs] at hz
      exact Bool.noConfusion hz
  | step _ ih =>
      rw [Function.iterate_succ_apply']
      exact exInst_notOlder_cycle accessFault (front_iterate accessFault hfront _) fun _ => ih

/-- Once the freeze is over, what was in MEM is in WB. -/
theorem memInst_notOlder_iterate (hs : Steady s) (hfront : Front n s)
    (hex : s.exInst.NotOlder n) {k : ℕ} (hk : s.dataLeft < k) :
    ((RvPipeSim.cycle accessFault)^[k] s).memInst.NotOlder n := by
  have hexs : ∀ j, ((RvPipeSim.cycle accessFault)^[j] s).exInst.NotOlder n := by
    intro j
    induction j with
    | zero => exact hex
    | succ j ih =>
        rw [Function.iterate_succ_apply']
        exact exInst_notOlder_cycle accessFault (front_iterate accessFault hfront j) fun _ => ih
  induction hk with
  | refl =>
      rw [Function.iterate_succ_apply']
      refine memInst_notOlder_cycle accessFault (hexs _) fun hz => ?_
      rw [thawed_iterate hs] at hz
      exact Bool.noConfusion hz
  | step _ ih =>
      rw [Function.iterate_succ_apply']
      exact memInst_notOlder_cycle accessFault (hexs _) fun _ => ih

/-- The cycles until what is in MEM and in EX has retired: a freeze and the cycle that ends
it, for each of the two. -/
def drainTime (s : LoopState) : ℕ :=
  ((RvPipeSim.cycle accessFault)^[s.dataLeft + 1] s).dataLeft + 1 + (s.dataLeft + 1)

/-- After `drainTime` cycles nothing older than `n` is left in MEM or EX. -/
theorem drained_iterate (hs : Steady s) (hfront : Front n s) {k : ℕ} (hk : s.drainTime ≤ k) :
    ((RvPipeSim.cycle accessFault)^[k] s).memInst.NotOlder n ∧
      ((RvPipeSim.cycle accessFault)^[k] s).exInst.NotOlder n := by
  obtain ⟨j, rfl⟩ := Nat.exists_eq_add_of_le' hk
  rw [drainTime, ← Nat.add_assoc, Function.iterate_add_apply]
  have hex := exInst_notOlder_iterate hs hfront (Nat.lt_succ_self s.dataLeft)
  have hst := steady_iterate hs (s.dataLeft + 1)
  have hfr := front_iterate accessFault hfront (s.dataLeft + 1)
  refine ⟨memInst_notOlder_iterate hst hfr hex (by omega), ?_⟩
  rw [← Function.iterate_add_apply]
  exact exInst_notOlder_iterate hs hfront (by omega)

/-- Until then MEM holds what was in it, or what was in EX. -/
theorem memInst_older_iterate (hs : Steady s) (hmem : ∀ m, s.memInst.seq = some m → m < n)
    (hex : ∀ m, s.exInst.seq = some m → m < n) {k : ℕ} (hk : k < s.drainTime) {m : ℕ}
    (hm : ((RvPipeSim.cycle accessFault)^[k] s).memInst.seq = some m) : m < n := by
  rcases Nat.lt_or_ge s.dataLeft k with hlt | hle
  · obtain ⟨j, rfl⟩ := Nat.exists_eq_add_of_le' (show s.dataLeft + 1 ≤ k from hlt)
    rw [drainTime] at hk
    rw [Function.iterate_add_apply, (freeze_iterate (steady_iterate hs _) (by omega)).2.mem,
      Function.iterate_succ_apply', seq_memInst, thawed_iterate hs,
      (freeze_iterate hs (Nat.le_refl _)).2.ex] at hm
    exact hex m hm
  · rw [(freeze_iterate hs hle).2.mem] at hm
    exact hmem m hm

/-- The state in which ID holds a NOP instead of what it holds. -/
def withNop (s : LoopState) : LoopState :=
  { s with
    pipelineInfo :=
      { s.pipelineInfo with
        idInst :=
          (s.simulator.simID
            { PC := s.idInst.PC, instruction := nopWord, seq := s.idInst.seq,
              status := .normal }).1 } }

end LoopState

/-! ### The illegal instruction and what is behind it -/

/-- The numbers from `n` up to `bound` go no further than ID: `n` waits there for its flush,
and the others are in IF. -/
structure Discarded (n bound : ℕ) (s : LoopState) : Prop where
  fetched : bound ≤ s.fetched
  ifInst : ∀ m, s.ifInst.seq = some m → s.excepted = true ∨ bound ≤ m
  idInst : ∀ m, s.idInst.seq = some m → s.excepted = true ∧ m = n ∨ bound ≤ m
  exInst : ∀ m, s.exInst.seq = some m → m < n ∨ bound ≤ m
  memInst : ∀ m, s.memInst.seq = some m → m < n ∨ bound ≤ m

namespace Discarded

variable {s : LoopState} {n bound : ℕ}

/-- In the cycle in which the illegal instruction is found. -/
theorem of_excepted (hord : Ordered s) (hexc : s.excepted = true)
    (hn : s.idInst.seq = some n) : Discarded n s.fetched s where
  fetched := Nat.le_refl _
  ifInst _ _ := .inl hexc
  idInst _ hm := .inl ⟨hexc, Option.some.inj (hm.symm.trans hn)⟩
  exInst _ hm := .inl (hord.ex_lt_id hm hn)
  memInst _ hm := .inl (hord.mem_lt_id hm hn)

/-- The illegal instruction waits out a freeze and is flushed, and what was behind it in IF with
it. -/
theorem cycle (hs : Steady s) (h : Discarded n bound s) :
    Discarded n bound (RvPipeSim.cycle accessFault s) where
  fetched := by
    rw [s.fetched_cycle accessFault]
    exact Nat.le_trans h.fetched (Nat.le_add_right _ _)
  ifInst m hm := by
    rw [s.seq_ifInst accessFault] at hm
    split at hm
    · obtain rfl := Option.some.inj hm
      exact .inr h.fetched
    · rename_i hkept
      refine .inr ((h.ifInst m hm).resolve_left fun hexc => hkept ?_)
      rw [LoopState.refetched, hexc]
      rfl
  idInst m hm := by
    rw [s.seq_idInst accessFault] at hm
    split_ifs at hm with hz hexc
    · rw [(LoopState.held_of_frozen hs hz).excepted]
      exact h.idInst m hm
    · exact .inr ((h.idInst m hm).resolve_left fun hid => hexc hid.1)
    · exact .inr ((h.ifInst m hm).resolve_left hexc)
  exInst m hm := by
    rw [s.seq_exInst accessFault] at hm
    split_ifs at hm with hz hexc
    · exact h.exInst m hm
    · exact .inr ((h.idInst m hm).resolve_left fun hid => hexc (by rw [hid.1]; rfl))
  memInst m hm := by
    rw [s.seq_memInst accessFault] at hm
    split_ifs at hm
    · exact h.memInst m hm
    · exact h.exInst m hm

/-- Entering `runCycles` again moves nothing. -/
theorem reenter (h : Discarded n bound s) : Discarded n bound (RvPipeSim.reenter s) :=
  ⟨h.fetched, h.ifInst, h.idInst, h.exInst, h.memInst⟩

/-- They are not handed to MEM or to WB. -/
theorem suppressed (h : Discarded n bound s) : Suppressed accessFault n bound s := by
  have hwb : ∀ inst m, s.wbCall = some inst → inst.seq = some m → n ≤ m → ¬ m < bound := by
    intro inst m hcall hm hle hlt
    obtain ⟨-, rfl⟩ := LoopState.wbCall_eq_some hcall
    have := h.memInst m hm
    omega
  have hmem : ∀ inst m, s.memCall = some inst → inst.seq = some m → n ≤ m → ¬ m < bound := by
    intro inst m hcall hm hle hlt
    obtain ⟨-, rfl⟩ := LoopState.memCall_eq_some hcall
    have := h.exInst m hm
    omega
  constructor
  · exact fun inst m hcall hm hle hlt => absurd hlt (hwb inst m hcall hm hle)
  · exact fun inst m hcall hm hle hlt => absurd hlt (hmem inst m hcall hm hle)
  · exact fun inst m hcall hm hle hlt => absurd hlt (hwb inst m hcall hm hle)
  · exact fun inst m hcall hm hle hlt => absurd hlt (hwb inst m hcall hm hle)

end Discarded

section Precise

variable {s t : LoopState} {n : ℕ} {visited visited' : List LoopState}

namespace LoopState

/-- How a run is cut into calls of `runCycles` makes no difference to the effects. -/
theorem olderEffect_reenter {α : Type*} {call : LoopState → Option Instruction}
    (hcall : ∀ u, call (reenter u) = call u) (part : Simulator → α) (u : LoopState) :
    (reenter u).olderEffect n call part = u.olderEffect n call part :=
  olderEffect_congr (hcall u) rfl (congr_reenter (f := fun v => part v.simulator) (fun _ => rfl)
    (reenter_cycle_congr (reenter_reenter u)))

/-- The effects of older instructions are the same in runs from alike states. -/
theorem Alike.map_olderEffect (hs : Steady s) (hfront : Front n s) (hfront' : Front n t)
    (h : Alike n s t) {s' t' : LoopState} (hrun : RunFrom accessFault anyCycle s visited s')
    (hrun' : RunFrom accessFault anyCycle t visited' t')
    (hlength : visited.length = visited'.length) :
    visited.map (·.olderEffect n LoopState.wbCall Simulator.regData) =
        visited'.map (·.olderEffect n LoopState.wbCall Simulator.regData) ∧
      visited.map (·.olderEffect n LoopState.memCall Simulator.memory) =
        visited'.map (·.olderEffect n LoopState.memCall Simulator.memory) := by
  have halike := fun k => (alike_iterate hs hfront hfront' h k).olderEffect
  constructor
  · rw [map_visited (olderEffect_reenter wbCall_reenter Simulator.regData) hrun,
      map_visited (olderEffect_reenter wbCall_reenter Simulator.regData) hrun', hlength]
    exact List.map_congr_left fun k _ => (halike k).1
  · rw [map_visited (olderEffect_reenter memCall_reenter Simulator.memory) hrun,
      map_visited (olderEffect_reenter memCall_reenter Simulator.memory) hrun', hlength]
    exact List.map_congr_left fun k _ => (halike k).2

/-- A state and the one with a NOP for the illegal instruction differ in ID only. -/
theorem alike_withNop (n : ℕ) (s : LoopState) : Alike n s s.withNop :=
  .ex ⟨rfl, .refl _, rfl, rfl, rfl, rfl, rfl, rfl⟩ rfl

end LoopState

/-- What was in MEM or EX has retired when neither holds anything older than `n`. -/
theorem retired_of_drained (hs : Steady s) (hrun : RunFrom accessFault anyCycle s visited t)
    (hmem : t.memInst.NotOlder n) (hex : t.exInst.NotOlder n) {m : ℕ} (hlt : m < n)
    (hm : s.memInst.number = some m ∨ s.exInst.number = some m) :
    m ∈ callLog visited .simWB := by
  have hgone : ∀ {inst : Instruction}, inst.NotOlder n → m ∉ inst.number.toList := by
    intro inst hinst hin
    have hseq := seq_of_number (Option.mem_toList.mp hin)
    exact absurd hlt (Nat.not_lt.mpr (hinst m hseq))
  have hin : m ∈ s.memInst.number.toList ++ labelLog FetchInfo.seq visited .simMEM := by
    rw [List.mem_append]
    refine hm.imp Option.mem_toList.mpr fun hm => ?_
    have hex' := List.mem_append_left (labelLog FetchInfo.seq visited .simEX)
      (Option.mem_toList.mpr hm)
    rw [Instruction.number, conserved_exInst number_nop hs hrun] at hex'
    exact (List.mem_append.mp hex').resolve_right (hgone hex)
  rw [Instruction.number, conserved_memInst hs hrun] at hin
  exact (List.mem_append.mp hin).resolve_right (hgone hmem)

/-- What is in flight and older than the instruction in ID has retired, or is in MEM or EX. -/
theorem retired_or_ahead (hord : Ordered s) (hi : InOrder visited s)
    (hn : s.idInst.seq = some n) {m : ℕ} (hm : s.InFlight m) (hlt : m < n) :
    m ∈ callLog visited .simWB ∨ s.memInst.number = some m ∨ s.exInst.number = some m := by
  rcases hm.slots with hnum | hnum | hnum | hnum | hnum
  · have := hord.id_lt_if hn (seq_of_number hnum)
    omega
  · obtain rfl : n = m := Option.some.inj (hn.symm.trans (seq_of_number hnum))
    exact absurd hlt (Nat.lt_irrefl n)
  · exact .inr (.inr hnum)
  · exact .inr (.inl hnum)
  · exact .inl (hi.passed .simWB _ (by simp [LoopState.downstream]) m hnum)

/-- What is in ID and IF is not older than the instruction in ID. -/
theorem Front.of_idInst (hord : Ordered s) (hn : s.idInst.seq = some n) : Front n s where
  fetched := Nat.le_of_lt (hord.id_lt_fetched hn)
  ifInst _ hm := Nat.le_of_lt (hord.id_lt_if hn hm)
  idInst _ hm := Nat.le_of_eq (Option.some.inj (hn.symm.trans hm))

/-- A NOP in ID is as young as the instruction it replaces. -/
theorem Front.withNop (h : Front n s) : Front n s.withNop := by
  refine ⟨h.fetched, h.ifInst, fun m hm => h.idInst m ?_⟩
  rw [← hm, LoopState.withNop, LoopState.idInst, simID_toFetchInfo]

variable {iCacheConfig dCacheConfig : CacheConfig} {mem : MemoryStore}
  (h : PipelineRun accessFault anyCycle iCacheConfig dCacheConfig mem visited s)
  (hn : s.idInst.seq = some n)

include h hn

/-- The illegal instruction and what is behind it never have an effect. -/
theorem suppressed_of_excepted (hexc : s.excepted = true)
    (hrun : RunFrom accessFault anyCycle s visited' t) :
    ∀ u ∈ visited', Suppressed accessFault n s.fetched u := by
  have hlater := (hrun.invariant (fun u => Steady u ∧ Discarded n s.fetched u)
    ⟨(Steady.of_run h).1, .of_excepted (Ordered.of_run h) hexc hn⟩
    (fun _ hu _ => ⟨hu.1.cycle, hu.2.cycle hu.1⟩) (fun _ hu => ⟨hu.1.reenter, hu.2.reenter⟩)).2
  exact fun u hu => (hlater u hu).2.suppressed

/-- What is ahead of the instruction in ID retires once. -/
theorem retired_once (hrun : RunFrom accessFault anyCycle s visited' t)
    (hlength : s.drainTime ≤ visited'.length) {m : ℕ} (hlt : m < n) (hm : s.InFlight m) :
    (callLog (visited ++ visited') .simWB).count m = 1 := by
  have hs := (Steady.of_run h).1
  have hord := Ordered.of_run h
  obtain ⟨hmem, hex⟩ := LoopState.drained_iterate hs (.of_idInst hord hn) hlength
  have ht := LoopState.run_eq_iterate hrun
  have hmem' : t.memInst.NotOlder n := by
    rwa [LoopState.congr_reenter (f := LoopState.memInst) (fun _ => rfl) ht]
  have hex' : t.exInst.NotOlder n := by
    rwa [LoopState.congr_reenter (f := LoopState.exInst) (fun _ => rfl) ht]
  have hnodup : (callLog (visited ++ visited') .simWB).Nodup :=
    ((InOrder.of_run (h.trans hrun)).pairwise_callLog .simWB).imp Nat.ne_of_lt
  refine List.count_eq_one_of_mem hnodup ?_
  rw [callLog, List.filterMap_append, List.mem_append]
  exact (retired_or_ahead hord (InOrder.of_run h) hn hm hlt).imp_right
    (retired_of_drained hs hrun hmem' hex' hlt)

/-- Until then only a HALT ahead of the instruction in ID halts the simulator. -/
theorem halts_ahead (hrun : RunFrom accessFault anyCycle s visited' t)
    (hlength : visited'.length ≤ s.drainTime) {u : LoopState} (hu : u ∈ visited')
    (hhalts : u.halts accessFault = true) :
    ∃ inst m, u.wbCall = some inst ∧ inst.isHalt = true ∧ inst.seq = some m ∧ m < n := by
  have hs := (Steady.of_run h).1
  have hord := Ordered.of_run h
  obtain ⟨k, hk, hiter⟩ := LoopState.exists_iterate hrun hu
  have hz := LoopState.not_frozen_of_halts hhalts
  have hhalt := LoopState.memInst_of_halts hhalts
  have hpassed := Instruction.passed_of_isHalt ((Steady.of_runFrom hs hrun).2 u hu).shape.memSlot
    hhalt
  obtain ⟨m, hm⟩ := Option.isSome_iff_exists.mp hpassed.numbered
  refine ⟨u.memInst, m, by rw [LoopState.wbCall, hz]; rfl, hhalt, hm, ?_⟩
  have hmem : u.memInst = ((cycle accessFault)^[k] s).memInst :=
    LoopState.congr_reenter (f := LoopState.memInst) (fun _ => rfl) hiter
  rw [hmem] at hm
  exact LoopState.memInst_older_iterate hs (fun m hm => hord.mem_lt_id hm hn)
    (fun m hm => hord.ex_lt_id hm hn) (Nat.lt_of_lt_of_le hk hlength) hm

end Precise

/-- **The illegal-instruction flush is precise.** Let the instruction in ID raise the illegal
exception, for however many cycles a miss holds it there. In everything that follows

* neither it nor what is behind it in IF writes a register or memory, is counted or halts,
* after `drainTime` cycles what is older and in flight has retired exactly once, and only an
  older HALT halts the simulator before,
* what is older has, cycle for cycle, the effect on registers and memory that it has when ID
  holds a NOP. -/
theorem illegal_flush_precise {iCacheConfig dCacheConfig : CacheConfig} {mem : MemoryStore}
    {visited : List LoopState} {s : LoopState}
    (h : PipelineRun accessFault anyCycle iCacheConfig dCacheConfig mem visited s)
    (hexc : s.excepted = true) :
    ∃ n, s.idInst.seq = some n ∧
      (∀ visited' t, RunFrom accessFault anyCycle s visited' t →
        (∀ u ∈ visited', Suppressed accessFault n s.fetched u) ∧
        (s.drainTime ≤ visited'.length →
          ∀ m < n, s.InFlight m → (callLog (visited ++ visited') .simWB).count m = 1) ∧
        (visited'.length ≤ s.drainTime → ∀ u ∈ visited', u.halts accessFault = true →
          ∃ inst m, u.wbCall = some inst ∧ inst.isHalt = true ∧ inst.seq = some m ∧ m < n)) ∧
      ∀ visited' t visited'' t', RunFrom accessFault anyCycle s visited' t →
        RunFrom accessFault anyCycle s.withNop visited'' t' →
        visited'.length = visited''.length →
        visited'.map (·.olderEffect n LoopState.wbCall Simulator.regData) =
            visited''.map (·.olderEffect n LoopState.wbCall Simulator.regData) ∧
          visited'.map (·.olderEffect n LoopState.memCall Simulator.memory) =
            visited''.map (·.olderEffect n LoopState.memCall Simulator.memory) := by
  have hs := (Steady.of_run h).1
  obtain ⟨-, hactive, -⟩ := LoopState.illegal_of_excepted hexc
  obtain ⟨n, hn⟩ := Option.isSome_iff_exists.mp (hs.shape.id_of_active hactive).1.numbered
  have hfront : Front n s := .of_idInst (Ordered.of_run h) hn
  refine ⟨n, hn, fun visited' t hrun => ⟨?_, ?_, ?_⟩, ?_⟩
  · exact suppressed_of_excepted h hn hexc hrun
  · exact fun hlength m hlt hm => retired_once h hn hrun hlength hlt hm
  · exact fun hlength u hu hhalts => halts_ahead h hn hrun hlength hu hhalts
  · intro visited' t visited'' t' hrun hrun'
    exact (LoopState.alike_withNop n s).map_olderEffect hs hfront hfront.withNop hrun hrun'

/-- `lw x1, 256(x0); nop` and an illegal word: while the load waits for memory, the word waits
in ID. The load retires, and the word does not. -/
theorem illegal_flush_precise_load :
    let mem : MemoryStore := .image fun | 0 => 0x10002083 | 2 => 0 | _ => 0x00000013
    let s₀ := enter (initSimulator (.oneBlock 64) (.oneBlock 64) mem)
    let s := (cycle accessFault)^[5] s₀
    s.frozen = true ∧
      ∀ visited t, RunFrom accessFault anyCycle s visited t →
        (∀ u ∈ visited, Suppressed accessFault 2 s.fetched u) ∧
        (s.drainTime ≤ visited.length →
          (callLog ((List.range 5).map (fun k => (cycle accessFault)^[k] s₀) ++ visited)
            .simWB).count 0 = 1) := by
  intro mem s₀ s
  refine ⟨by decide +kernel, fun visited t hrun => ?_⟩
  have hstart : PipelineRun accessFault anyCycle (.oneBlock 64) (.oneBlock 64) mem _ s :=
    run_iterate fun _ _ => trivial
  obtain ⟨n, hn, hruns, -⟩ := illegal_flush_precise hstart (by decide +kernel)
  obtain rfl : 2 = n := Option.some.inj
    ((by decide +kernel : some 2 = s.idInst.seq).trans hn)
  obtain ⟨hsuppressed, hretired, -⟩ := hruns visited t hrun
  refine ⟨hsuppressed, fun hlength => hretired hlength 0 Nat.two_pos ?_⟩
  exact ⟨s.memInst, by simp [LoopState.downstream], by decide +kernel⟩

end RvPipeSim
