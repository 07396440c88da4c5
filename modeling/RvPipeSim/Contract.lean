import RvPipeSim.CycleAccounting
import RvPipeSim.Lib.Apart
import RvPipeSim.Termination

/-!
# What a program has to keep to

The refinement theorem of `FunctRefinement` and the termination theorem of `Termination` ask
for cycles of the pipelined run that are regular. Here the conditions are on the functional
run alone, where a programmer or a compiler can check them:

* no branch or jump goes to the word behind the next one (`SkipsNone`);
* the two instructions in front of a branch or jump write no register it reads (`Feeds`);
* the two instructions in front of an instruction do not store to it (`Overwrites`);
* the word behind the HALT is no store (`ShieldsHalt`).

A program may modify its own code, and branch on loaded values, at the stated distance.

The distances are those of the pipeline: what is in ID, EX and MEM is the end of the
functional run so far (`InFlight`), so an instruction more than two places ahead has written
its register when a branch is decoded, and its memory when the next word is fetched. Then all
cycles are regular, whatever the caches do (`Guarded`).

## Main results

* `Guarded.of_run` — every pipelined run keeps in line with the functional one until it halts;
* `Guarded.halts` and `Guarded.outcome` — it does halt, and with what the functional run leaves;
* `branches_resolved` — the distance asked of a producer makes every branch go by its operands;
* `pipeline_correct` — the pipelined simulator halts within a stated number of cycles with the
  registers and the memory of the functional one.
-/

namespace RvPipeSim

open Simulator ObservedRun

/-! ### The conditions -/

namespace FunctMachine

variable {fuel k : ℕ} {m₀ m u v : FunctMachine}

/-- The instruction at `v` is a branch or jump that reads a register the one at `u` writes. -/
def Feeds (u v : FunctMachine) : Prop :=
  v.executed.branchOpcode = true ∧ u.executed.writesRd = true ∧ u.executed.rd ≠ 0 ∧
    (v.executed.readsRs1 = true ∧ v.executed.rs1 = u.executed.rd ∨
      v.executed.readsRs2 = true ∧ v.executed.rs2 = u.executed.rd)

instance : DecidableRel Feeds := fun _ _ => inferInstanceAs (Decidable (_ ∧ _ ∧ _ ∧ _))

/-- The instruction at `u` stores to a byte of the one at `v`. -/
def Overwrites (u v : FunctMachine) : Prop := ∃ j < 4, u.StoresTo (v.PC + BitVec.ofNat 64 j)

instance (u : FunctMachine) (address : BitVec 64) : Decidable (u.StoresTo address) :=
  inferInstanceAs (Decidable (_ ∧ _))

instance : DecidableRel Overwrites := fun _ _ => inferInstanceAs (Decidable (∃ j < 4, _))

/-- The word behind the HALT is at no time a store. -/
def ShieldsHalt (visited : List FunctMachine) : Prop :=
  ∀ u ∈ visited, u.executed.isHalt = true → ∀ v ∈ visited,
    (decodeOf (wordAt v.simulator.memory (u.PC + 4))).writesMem = false

instance (visited : List FunctMachine) : Decidable (ShieldsHalt visited) :=
  inferInstanceAs (Decidable (∀ u ∈ visited, _ = true → ∀ v ∈ visited, _ = false))

/-- An instruction of a run that halts with one behind it is legal and no HALT. -/
theorem executed_of_trace_getElem (h : runTillHalt fuel m₀ = some (.halt, m))
    (hu : (trace fuel m₀)[k]? = some u) (hv : (trace fuel m₀)[k + 1]? = some v) :
    u.executed.isHalt = false ∧ u.executed.isLegal = true ∧ v = u.advance := by
  have hgo : u.executed.isHalt = false ∧ u.executed.isLegal = true := by
    induction fuel generalizing m₀ k with
    | zero => exact absurd hu (by simp [trace])
    | succ fuel ih =>
        rcases trace_succ h with ⟨-, htrace⟩ | ⟨hgo, hrest, htrace⟩
        · rw [htrace] at hv
          exact absurd hv (by simp)
        · rw [htrace] at hu hv
          cases k with
          | zero =>
              obtain rfl := Option.some.inj hu
              exact hgo
          | succ k => exact ih hrest hu hv
  refine ⟨hgo.1, hgo.2, Option.some.inj (hv.symm.trans ?_)⟩
  exact trace_getElem_succ h hu hgo.1

/-- Every instruction of a run that halts is legal. -/
theorem isLegal_of_mem_trace (h : runTillHalt fuel m₀ = some (.halt, m))
    (hu : u ∈ trace fuel m₀) : u.executed.isLegal = true := by
  rcases trace_step h hu with ⟨hhalt, -⟩ | ⟨-, hlegal, -⟩
  · have hdec : u.executed.toDecodeInfo = decodeOf (wordAt u.simulator.memory u.PC) :=
      simInstruction_toDecodeInfo u.simulator u.PC
    rw [hdec] at hhalt ⊢
    exact ((decodeOf_wellFormed _).halt hhalt).1
  · exact hlegal

/-- The memory of up to two instructions earlier holds the same word. -/
theorem wordAt_of_apart (h : runTillHalt fuel m₀ = some (.halt, m))
    (hapart : Apart Overwrites 2 (trace fuel m₀)) {n : ℕ} (hn : n ≤ 2)
    (hu : (trace fuel m₀)[k]? = some u) (hv : (trace fuel m₀)[k + n]? = some v) :
    wordAt u.simulator.memory v.PC = wordAt v.simulator.memory v.PC := by
  have hstep : ∀ {i : ℕ} {w w' : FunctMachine}, (trace fuel m₀)[i]? = some w →
      (trace fuel m₀)[i + 1]? = some w' → i < k + n → k + n ≤ i + 2 →
      wordAt w'.simulator.memory v.PC = wordAt w.simulator.memory v.PC := by
    intro i w w' hw hw' hlt hle
    obtain ⟨hhalt, hlegal, rfl⟩ := executed_of_trace_getElem h hw hw'
    refine wordAt_advance hhalt hlegal fun j hj hstores => ?_
    exact hapart.not_rel hw hv hlt hle ⟨j, hj, hstores⟩
  match n, hn with
  | 0, _ =>
      obtain rfl := Option.some.inj (hu.symm.trans hv)
      rfl
  | 1, _ => exact (hstep hu hv (by omega) (by omega)).symm
  | 2, _ =>
      obtain ⟨hlt, -⟩ := List.getElem?_eq_some_iff.mp hv
      have hw := List.getElem?_eq_getElem (show k + 1 < (trace fuel m₀).length by omega)
      exact ((hstep hw hv (by omega) (by omega)).trans
        (hstep hu hw (by omega) (by omega))).symm

end FunctMachine

/-! ### What is in flight -/

/-- What a slot holds of the run: the instruction in it, if it is no padding. -/
def Instruction.slot (inst : Instruction) : List DecodeInfo :=
  if inst.padding then [] else [inst.toDecodeInfo]

/-- A slot holds one instruction or none. -/
theorem Instruction.slot_length_le (inst : Instruction) : inst.slot.length ≤ 1 := by
  rw [slot]
  split <;> simp

namespace LoopState

variable {s : LoopState}

/-- The instructions in ID, EX and MEM, the youngest first. -/
def decodedSlots (s : LoopState) : List DecodeInfo :=
  s.idInst.slot ++ s.exInst.slot ++ s.memInst.slot

/-- What a slot holds of the run is fixed by what was fetched and decoded. -/
theorem slot_congr {i j : Instruction} (hfetch : i.toFetchInfo = j.toFetchInfo)
    (hdec : i.toDecodeInfo = j.toDecodeInfo) : i.slot = j.slot := by
  rw [Instruction.slot, Instruction.slot, padding_eq hfetch, hdec]

/-- A slot without padding holds its instruction. -/
theorem slot_of_not_padding {inst : Instruction} (h : inst.padding = false) :
    inst.slot = [inst.toDecodeInfo] := by
  rw [Instruction.slot, h, if_neg Bool.false_ne_true]

/-- An active instruction in a slot is no padding. -/
theorem slot_of_active {inst : Instruction} (h : inst.IsPadding ∨ inst.seq.isSome = true)
    (hactive : inst.active = true) : inst.slot = [inst.toDecodeInfo] := by
  rcases h with hpad | hnumbered
  · exact Bool.noConfusion (hpad.active.symm.trans hactive)
  · refine slot_of_not_padding ?_
    rw [Instruction.padding, ← Option.not_isSome, hnumbered]
    rfl

/-- What one cycle does to the slots: nothing, or it moves EX and MEM on behind a bubble, or it
moves ID on as well, and a decoded instruction enters. -/
theorem slots_cases (hs : Steady s) (hexc : s.excepted = false) :
    (s.frozen = true ∧ s.decodes = false ∧
      (cycle accessFault s).idInst.slot = s.idInst.slot ∧
      (cycle accessFault s).exInst.slot = s.exInst.slot ∧
      (cycle accessFault s).memInst.slot = s.memInst.slot) ∨
    (s.frozen = false ∧ s.stalled = true ∧ s.decodes = false ∧
      (cycle accessFault s).idInst.slot = s.idInst.slot ∧
      (cycle accessFault s).exInst.slot = [] ∧
      (cycle accessFault s).memInst.slot = s.exInst.slot) ∨
    s.frozen = false ∧ s.stalled = false ∧
      (cycle accessFault s).idInst.slot =
        (if s.decodes then [(cycle accessFault s).idInst.toDecodeInfo] else []) ∧
      (cycle accessFault s).exInst.slot = s.idInst.slot ∧
      (cycle accessFault s).memInst.slot = s.exInst.slot := by
  have hno : s.frozen = true ∨ s.stalled = true → s.decodes = false := by
    intro hheld
    by_contra hdecodes
    rw [Bool.not_eq_false] at hdecodes
    obtain ⟨hz, -, hst, -⟩ := moving_of_decodes hs hdecodes
    rw [hz, hst] at hheld
    simp at hheld
  cases hz : s.frozen
  · have hmem : (cycle accessFault s).memInst.slot = s.exInst.slot := by
      rw [cycle_memInst_eq hs.shape hs.flow, memOut_of_not_frozen _ hz]
      exact slot_congr (simMEM_toFetchInfo ..) (simMEM_toDecodeInfo ..)
    cases hst : s.stalled
    · refine .inr (.inr ⟨rfl, rfl, ?_, ?_, hmem⟩)
      · cases hdecodes : s.decodes
        · obtain ⟨status, hnop⟩ := idInst_of_not_decodes hs hz hexc hst hdecodes
          rw [hnop]
          rfl
        · obtain ⟨hdecoded, -, -⟩ := idInst_of_decodes hs hdecodes
          refine slot_of_not_padding ?_
          rw [Instruction.padding, ← Option.not_isSome, hdecoded.numbered]
          rfl
      · rw [cycle_exInst_eq hs.shape hs.flow, exOut_of_moving hz hexc hst]
        exact slot_congr ((simEX_toFetchInfo _).trans s.idForwarded_toFetchInfo)
          ((simEX_toDecodeInfo _).trans s.idForwarded_toDecodeInfo)
    · refine .inr (.inl ⟨rfl, rfl, hno (.inr hst), ?_, ?_, hmem⟩)
      · have hsame := sameWord_of_held hs hexc (by rw [hst, Bool.or_true])
        refine slot_congr ?_ hsame.decode
        rw [cycle_idInst_eq hs.shape hs.flow, idOut_of_stalled _ hz hexc hst]
        dsimp only
        split <;> exact s.idForwarded_toFetchInfo
      · rw [cycle_exInst_eq hs.shape hs.flow, exOut_of_stalled hz hexc hst]
        rfl
  · have hheld := held_of_frozen hs hz
    obtain ⟨_, _, hid⟩ := hheld.id
    refine .inl ⟨rfl, hno (.inl hz), ?_, by rw [hheld.ex], by rw [hheld.mem]⟩
    rw [hid]
    rfl

/-- The instructions in flight are not more than have been decoded. -/
theorem slots_length_le {visited : List FunctMachine} {k : ℕ}
    (h : s.decodedSlots <+: ((visited.take k).map fun u => u.executed.toDecodeInfo).reverse) :
    s.idInst.slot.length + s.exInst.slot.length ≤ k := by
  have hle := h.length_le
  rw [decodedSlots, List.length_append, List.length_append, List.length_reverse,
    List.length_map] at hle
  have htake := List.length_take_le k visited
  omega

/-- A cycle that decodes fetches. -/
theorem refetched_of_decodes (hs : Steady s) (h : s.decodes = true) :
    s.refetched accessFault = true := by
  obtain ⟨hz, -, hst, hsv, -⟩ := moving_of_decodes hs h
  rw [refetched, hz, hst, hsv]
  simp

end LoopState

section InFlight

variable {fuel k : ℕ} {m₀ m : FunctMachine} {s : LoopState}

/-- `k` instructions of the functional run have been decoded. What is in ID, EX and MEM are
the last of them, the pipeline's memory is the one in front of those in ID and EX, and if IF
holds the next one, it holds the word it is in memory. -/
structure InFlight (visited : List FunctMachine) (k : ℕ) (s : LoopState) : Prop where
  slots : s.decodedSlots <+: ((visited.take k).map fun u => u.executed.toDecodeInfo).reverse
  current : ∃ u, visited[k - (s.idInst.slot.length + s.exInst.slot.length)]? = some u ∧
    s.simulator.memory = u.simulator.memory
  ex : ∃ u, visited[k - s.idInst.slot.length]? = some u ∧
    (s.retireEX accessFault).memory = u.simulator.memory
  next : s.ifInst.status = .idle ∨ ∀ u, visited[k]? = some u → s.ifInst.PC = u.PC →
    s.ifInst.instruction = wordAt u.simulator.memory u.PC

namespace InFlight

/-- No illegal instruction is in ID. -/
theorem not_excepted (h : FunctMachine.runTillHalt fuel m₀ = some (.halt, m)) (hs : Steady s)
    (hflight : InFlight (FunctMachine.trace fuel m₀) k s) : s.excepted = false := by
  by_contra hexc
  rw [Bool.not_eq_false] at hexc
  have hmem : s.idInst.toDecodeInfo ∈ s.decodedSlots := by
    rw [LoopState.decodedSlots,
      LoopState.slot_of_not_padding (LoopState.padding_of_excepted hs hexc).1]
    simp
  obtain ⟨u, hu, hdec⟩ := List.mem_map.mp (List.mem_reverse.mp (hflight.slots.subset hmem))
  have hlegal := FunctMachine.isLegal_of_mem_trace h (List.mem_of_mem_take hu)
  rw [hdec] at hlegal
  exact Bool.noConfusion (hlegal.symm.trans (LoopState.illegal_of_excepted hexc).1)

section Step

variable (h : FunctMachine.runTillHalt fuel m₀ = some (.halt, m)) (hs : Steady s)
  (hflight : InFlight (FunctMachine.trace fuel m₀) k s) {u : FunctMachine}
  (hu : (FunctMachine.trace fuel m₀)[k]? = some u)
  (hPC : s.decodes = true → s.ifInst.PC = u.PC)

include hflight hu hPC in
/-- ID decodes the word that the next instruction is in memory. -/
theorem word_of_decodes (hdecodes : s.decodes = true) :
    s.ifInst.instruction = wordAt u.simulator.memory s.ifInst.PC := by
  rw [hPC hdecodes]
  exact hflight.next.resolve_left (LoopState.decodes_iff.mp hdecodes).2.1 u hu (hPC hdecodes)

include hs hflight hu hPC

/-- What ID decodes is what the functional run executes next. -/
theorem decoded (hdecodes : s.decodes = true) :
    (RvPipeSim.cycle accessFault s).idInst.toDecodeInfo = u.executed.toDecodeInfo := by
  have hsame := LoopState.sameWord_of_decodes hs hdecodes
    (hflight.word_of_decodes hu hPC hdecodes)
  have hdec : u.executed.toDecodeInfo = decodeOf (wordAt u.simulator.memory u.PC) :=
    simInstruction_toDecodeInfo u.simulator u.PC
  rw [hdec, ← hPC hdecodes]
  exact hsame.decode

include h

/-- The instructions in flight are again the last ones decoded. -/
theorem slots_cycle :
    (RvPipeSim.cycle accessFault s).decodedSlots <+:
      (((FunctMachine.trace fuel m₀).take (k + s.decodes.toNat)).map
        fun u => u.executed.toDecodeInfo).reverse := by
  have hslots := hflight.slots
  rw [LoopState.decodedSlots] at hslots ⊢
  rcases LoopState.slots_cases hs (hflight.not_excepted h hs) with
    ⟨-, hdecodes, hid, hex, hmem⟩ | ⟨-, -, hdecodes, hid, hex, hmem⟩ | ⟨-, -, hid, hex, hmem⟩
  · rw [hid, hex, hmem, hdecodes]
    exact hslots
  · rw [hid, hex, hmem, hdecodes, List.append_nil]
    exact (List.prefix_append _ _).trans hslots
  · have hbehind : s.idInst.slot ++ s.exInst.slot <+:
        (((FunctMachine.trace fuel m₀).take k).map fun u => u.executed.toDecodeInfo).reverse :=
      (List.prefix_append _ _).trans hslots
    rw [hid, hex, hmem]
    cases hdecodes : s.decodes
    · exact hbehind
    · have htake : (FunctMachine.trace fuel m₀).take (k + 1) =
          (FunctMachine.trace fuel m₀).take k ++ [u] := by
        rw [List.take_add_one, hu]
        rfl
      rw [if_pos rfl, hflight.decoded hs hu hPC hdecodes, Bool.toNat_true, htake, List.map_append,
        List.reverse_append, List.append_assoc]
      exact (List.prefix_append_right_inj [u.executed.toDecodeInfo]).mpr hbehind

omit hu hPC in
/-- The pipeline's memory follows the instruction in front of those in ID and EX. -/
theorem memory_cycle (ho : Operands s) (hu : (FunctMachine.trace fuel m₀)[k]? = some u)
    (hid : s.retireID.memory = u.simulator.memory) :
    (∃ v, (FunctMachine.trace fuel m₀)[k + s.decodes.toNat -
        ((RvPipeSim.cycle accessFault s).idInst.slot.length +
          (RvPipeSim.cycle accessFault s).exInst.slot.length)]? = some v ∧
      (RvPipeSim.cycle accessFault s).simulator.memory = v.simulator.memory) ∧
    ∃ v, (FunctMachine.trace fuel m₀)[k + s.decodes.toNat -
        (RvPipeSim.cycle accessFault s).idInst.slot.length]? = some v ∧
      ((RvPipeSim.cycle accessFault s).retireEX accessFault).memory = v.simulator.memory := by
  have hexc := hflight.not_excepted h hs
  obtain ⟨v, hv, hcurrent⟩ := hflight.current
  obtain ⟨w, hw, hbehind⟩ := hflight.ex
  rcases LoopState.slots_cases hs hexc with
    ⟨hz, hdecodes, hid', hex', -⟩ | ⟨hz, hst, hdecodes, hid', hex', -⟩ | ⟨hz, hst, hid', hex', -⟩
  · rw [hid', hex', hdecodes, LoopState.simulator_cycle_of_frozen hz,
      (LoopState.retireEX_cycle_of_held hs (by rw [hz]; rfl)).memory]
    exact ⟨⟨v, hv, hcurrent⟩, w, hw, hbehind⟩
  · rw [hid', hex', hdecodes, LoopState.memory_cycle_eq_retireEX hs hz,
      (LoopState.retireEX_cycle_of_held hs (by rw [hst, Bool.or_true])).memory]
    exact ⟨⟨w, hw, hbehind⟩, w, hw, hbehind⟩
  · have hlength : (RvPipeSim.cycle accessFault s).idInst.slot.length = s.decodes.toNat := by
      rw [hid']
      cases s.decodes <;> rfl
    rw [hlength, hex', LoopState.memory_cycle_eq_retireEX hs hz,
      (LoopState.retireEX_cycle_of_moving hs ho hz hexc hst).memory, Nat.add_sub_cancel,
      Nat.add_comm k, Nat.add_sub_add_left]
    exact ⟨⟨w, hw, hbehind⟩, u, hu, hid⟩

/-- **One cycle keeps the instructions in flight in line with the functional run.** -/
theorem cycle (ho : Operands s) (hid : s.retireID.memory = u.simulator.memory)
    (hapart : Apart FunctMachine.Overwrites 2 (FunctMachine.trace fuel m₀)) :
    InFlight (FunctMachine.trace fuel m₀) (k + s.decodes.toNat)
      (RvPipeSim.cycle accessFault s) := by
  have hslots := hflight.slots_cycle h hs hu hPC
  obtain ⟨hcurrent, hex⟩ := hflight.memory_cycle h hs ho hu hid
  refine ⟨hslots, hcurrent, hex, ?_⟩
  cases hfetch : s.refetched accessFault
  · have hdecodes : s.decodes = false := by
      by_contra hdecodes
      rw [Bool.not_eq_false] at hdecodes
      exact Bool.noConfusion (hfetch.symm.trans (LoopState.refetched_of_decodes hs hdecodes))
    rw [(LoopState.cycle_of_not_refetched accessFault s hfetch).2, hdecodes]
    exact hflight.next
  · -- what is fetched now is the word of up to two instructions earlier
    obtain ⟨-, PC, status, -, hif⟩ := LoopState.cycle_of_refetched accessFault s hfetch
    refine .inr fun v hv hvPC => ?_
    obtain ⟨w, hw, hmem⟩ := hcurrent
    have hword : (RvPipeSim.cycle accessFault s).ifInst.instruction =
        wordAt (RvPipeSim.cycle accessFault s).simulator.memory
          (RvPipeSim.cycle accessFault s).ifInst.PC := by
      rw [hif, LoopState.cycle_simulator]
      rfl
    rw [hword, hvPC, hmem]
    have hpair : (FunctMachine.trace fuel m₀)[k + s.decodes.toNat -
        ((RvPipeSim.cycle accessFault s).idInst.slot.length +
          (RvPipeSim.cycle accessFault s).exInst.slot.length) +
        ((RvPipeSim.cycle accessFault s).idInst.slot.length +
          (RvPipeSim.cycle accessFault s).exInst.slot.length)]? = some v := by
      rw [Nat.sub_add_cancel (LoopState.slots_length_le hslots)]
      exact hv
    have hid' := Instruction.slot_length_le (RvPipeSim.cycle accessFault s).idInst
    have hex' := Instruction.slot_length_le (RvPipeSim.cycle accessFault s).exInst
    exact FunctMachine.wordAt_of_apart h hapart (by omega) hw hpair

end Step

/-! ### Branches find their operands written -/

/-- The instruction in place `p` of the slots is the one `p` places in front of the youngest. -/
theorem slot_getElem {visited : List FunctMachine} (h : InFlight visited k s) {p : ℕ}
    {dec : DecodeInfo} (hp : s.decodedSlots[p]? = some dec) :
    ∃ u, visited[(visited.take k).length - 1 - p]? = some u ∧ p < (visited.take k).length ∧
      u.executed.toDecodeInfo = dec := by
  obtain ⟨hlt, -⟩ := List.getElem?_eq_some_iff.mp hp
  have hle := h.slots.length_le
  rw [List.length_reverse, List.length_map] at hle
  have hat := List.prefix_iff_getElem?.mp h.slots p hlt
  rw [List.getElem?_reverse (by rw [List.length_map]; omega), List.length_map,
    List.getElem?_map] at hat
  obtain ⟨u, hu, hdec⟩ := Option.map_eq_some_iff.mp hat
  rw [List.getElem?_take] at hu
  split at hu
  · refine ⟨u, hu, by omega, Option.some.inj (.trans ?_ hp)⟩
    rw [hdec, List.getElem?_eq_getElem hlt]
  · exact absurd hu (by simp)

/-- What is in EX or MEM writes no register that a branch in ID reads. -/
theorem unfed {visited : List FunctMachine} (h : InFlight visited k s) (hs : Steady s)
    (hspaced : Apart FunctMachine.Feeds 2 visited) (hbr : isBranchOrJump s.idInst = true)
    (inst : Instruction) (hslot : inst.active = true → ∃ p, 1 ≤ p ∧ p ≤ 2 ∧
      s.decodedSlots[p]? = some inst.toDecodeInfo) :
    (s.idInst.readsRs1 && inst.forwards s.idInst.rs1) = false ∧
      (s.idInst.readsRs2 && inst.forwards s.idInst.rs2) = false := by
  obtain ⟨hid, -, hop⟩ := LoopState.active_of_branch hbr
  cases hwrites : writesREG inst
  · rw [Instruction.forwards, Instruction.forwards, hwrites, Bool.false_and, Bool.false_and,
      Bool.and_false, Bool.and_false]
    exact ⟨rfl, rfl⟩
  · obtain ⟨⟨⟨hrd, hzero⟩, -⟩, hactive⟩ : ((inst.writesRd = true ∧ (inst.rd != 0) = true) ∧
        inst.isLegal = true) ∧ inst.active = true := by
      simpa only [writesREG, Bool.and_eq_true] using hwrites
    obtain ⟨p, hpos, hle, hp⟩ := hslot hactive
    have hfirst : s.decodedSlots[0]? = some s.idInst.toDecodeInfo := by
      rw [LoopState.decodedSlots,
        LoopState.slot_of_active (.inr (hs.shape.id_of_active hid).1.numbered) hid]
      rfl
    obtain ⟨v, hv, -, hvdec⟩ := h.slot_getElem hfirst
    obtain ⟨u, hu, hlt, hudec⟩ := h.slot_getElem hp
    have hnot := hspaced.not_rel hu hv (by omega) (by omega)
    rw [FunctMachine.Feeds, hvdec, hudec] at hnot
    rw [Instruction.forwards, Instruction.forwards, hwrites, Bool.true_and, Bool.true_and]
    constructor
    · by_contra hreads
      rw [Bool.not_eq_false, Bool.and_eq_true, beq_iff_eq] at hreads
      exact hnot ⟨hop, hrd, bne_iff_ne.mp hzero, .inl ⟨hreads.1, hreads.2.symm⟩⟩
    · by_contra hreads
      rw [Bool.not_eq_false, Bool.and_eq_true, beq_iff_eq] at hreads
      exact hnot ⟨hop, hrd, bne_iff_ne.mp hzero, .inr ⟨hreads.1, hreads.2.symm⟩⟩

/-- In particular EX does not, which is directly in front of it. -/
theorem unfed_ex {visited : List FunctMachine} (h : InFlight visited k s) (hs : Steady s)
    (hspaced : Apart FunctMachine.Feeds 2 visited) (hbr : isBranchOrJump s.idInst = true) :
    (s.idInst.readsRs1 && s.exInst.forwards s.idInst.rs1) = false ∧
      (s.idInst.readsRs2 && s.exInst.forwards s.idInst.rs2) = false := by
  have hid := (LoopState.active_of_branch hbr).1
  refine h.unfed hs hspaced hbr s.exInst fun hactive => ⟨1, Nat.le_refl 1, Nat.le_succ 1, ?_⟩
  rw [LoopState.decodedSlots,
    LoopState.slot_of_active (.inr (hs.shape.id_of_active hid).1.numbered) hid,
    LoopState.slot_of_active (hs.shape.exSlot.imp_right (·.numbered)) hactive]
  rfl

/-- **Nothing is forwarded to a branch** that keeps its distance. -/
theorem branchFresh {visited : List FunctMachine} (h : InFlight visited k s) (hs : Steady s)
    (hspaced : Apart FunctMachine.Feeds 2 visited) : s.BranchFresh := by
  intro hbr _ _
  have hid := (LoopState.active_of_branch hbr).1
  have hidslot := LoopState.slot_of_active (.inr (hs.shape.id_of_active hid).1.numbered) hid
  have hex := h.unfed_ex hs hspaced hbr
  have hmem := h.unfed hs hspaced hbr s.memInst fun hactive => by
    refine ⟨1 + s.exInst.slot.length, Nat.le_add_right 1 _,
      Nat.add_le_add_left s.exInst.slot_length_le 1, ?_⟩
    rw [LoopState.decodedSlots, hidslot,
      LoopState.slot_of_active (hs.shape.memSlot.imp_right (·.numbered)) hactive]
    have hlength : 1 + s.exInst.slot.length =
        ([s.idInst.toDecodeInfo] ++ s.exInst.slot).length := by
      rw [List.length_append, List.length_singleton]
    rw [hlength]
    exact List.getElem?_concat_length
  have hsame : s.idForwarded = s.idInst := by
    rw [LoopState.idForwarded, forwardToID_eq, forwardToID_op1Val, forwardToID_op2Val,
      LoopState.exForwarded_forwards, LoopState.exForwarded_forwards, hex.1, hex.2, hmem.1, hmem.2]
    rfl
  rw [hsame]

end InFlight

end InFlight

/-! ### Behind the HALT -/

namespace LoopState

variable {s : LoopState}

/-- The word behind the oldest HALT is a store. -/
def storeBehind (s : LoopState) : Bool :=
  if s.memInst.isHalt then s.exInst.writesMem
  else if s.exInst.isHalt then s.idInst.writesMem
  else (decodeOf s.ifInst.instruction).writesMem

/-- What comes behind the HALT is what IF held when the HALT was decoded, or padding. -/
theorem storeBehind_cycle (hs : Steady s) (hhalt : s.halts accessFault = false)
    (hfree : s.haltFree = false) (h : s.storeBehind = false) :
    (cycle accessFault s).storeBehind = false := by
  rw [storeBehind] at h ⊢
  rw [memInst_isHalt_cycle hs, exInst_isHalt_cycle hs]
  cases hz : s.frozen
  · have hmem : s.memInst.isHalt = false := (halts_eq accessFault hz).symm.trans hhalt
    rw [hmem, if_neg Bool.false_ne_true] at h
    rw [if_neg Bool.false_ne_true, if_neg Bool.false_ne_true]
    cases hex : s.exInst.isHalt
    · -- the HALT goes from ID to EX, and ID takes what IF holds
      have hid : s.idInst.isHalt = true := by
        rw [haltFree, hmem, hex, Bool.or_self, Bool.false_or] at hfree
        simpa using hfree
      obtain ⟨hexc, hst⟩ := moving_of_halt hs hid
      rw [hex, if_neg Bool.false_ne_true] at h
      have hgo : (!s.excepted && !s.stalled && s.idInst.isHalt) = true := by
        rw [hexc, hst, hid]
        rfl
      rw [if_neg Bool.false_ne_true, hgo, if_pos rfl]
      cases hdecodes : s.decodes
      · obtain ⟨status, hnop⟩ := idInst_of_not_decodes hs hz hexc hst hdecodes
        rw [hnop]
        rfl
      · obtain ⟨hdecoded, -, hfetch⟩ := idInst_of_decodes hs hdecodes
        rw [hdecoded.decode, hfetch]
        exact h
    · -- the HALT goes from EX to MEM
      rw [hex, if_pos rfl] at h
      rw [if_pos rfl, cycle_exInst_eq hs.shape hs.flow]
      cases hexc : s.excepted
      · cases hst : s.stalled
        · rw [exOut_of_moving hz hexc hst, simEX_toDecodeInfo, s.idForwarded_toDecodeInfo]
          exact h
        · rw [exOut_of_stalled hz hexc hst]
          rfl
      · rw [exOut_of_excepted hz hexc]
        rfl
  · have hheld := held_of_frozen hs hz
    obtain ⟨_, _, hid⟩ := hheld.id
    rw [if_pos rfl, if_pos rfl, hheld.ex, hid]
    cases hmem : s.memInst.isHalt
    · cases hex : s.exInst.isHalt
      · have hidhalt : s.idInst.isHalt = true := by
          rw [haltFree, hmem, hex, Bool.or_self, Bool.false_or] at hfree
          simpa using hfree
        rw [(fetch_of_frozen hs.shape hs.flow (moving_of_halt hs hidhalt).1 hz).1]
        rwa [hmem, hex] at h
      · rwa [hmem, hex] at h
    · rwa [hmem] at h

/-- When the simulator halts, EX holds no store if none is behind the HALT. -/
theorem quiet_of_storeBehind (h : s.storeBehind = false) : s.Quiet := by
  intro hhalt hstore
  rw [storeBehind, memInst_of_halts hhalt, if_pos rfl] at h
  rw [isStore, h, Bool.false_and, Bool.false_and] at hstore
  exact Bool.noConfusion hstore

end LoopState

/-! ### Runs that keep to the conditions -/

section Runs

variable {fuel : ℕ} {m₀ m : FunctMachine} {visited : List LoopState} {s : LoopState}
  {q : Sequencer}

/-- The conditions on a functional run. -/
structure WellSpaced (visited : List FunctMachine) : Prop where
  skipsNone : SkipsNone visited
  branches : Apart FunctMachine.Feeds 2 visited
  stores : Apart FunctMachine.Overwrites 2 visited
  shieldsHalt : FunctMachine.ShieldsHalt visited

/-- A paced run with the instructions in flight in line, and no store behind the HALT. -/
structure Guarded (fuel : ℕ) (m₀ m : FunctMachine) (visited : List LoopState) (s : LoopState)
    (q : Sequencer) : Prop extends Paced fuel m₀ m visited s q where
  inFlight : q.halted = false →
    InFlight (FunctMachine.trace fuel m₀) (visited.countP (·.decodes)) s
  shielded : q.halted = true → s.storeBehind = false

namespace Guarded

/-- Nothing is in flight at the start. -/
theorem init {mem : MemoryStore} (iCacheConfig dCacheConfig : CacheConfig)
    (h : FunctMachine.runTillHalt fuel (.initSimulator mem) = some (.halt, m)) :
    Guarded fuel (.initSimulator mem) m [] (enter (initSimulator iCacheConfig dCacheConfig mem))
      (.init mem) where
  toPaced := .init iCacheConfig dCacheConfig h
  inFlight hq :=
    have hstart := (Paced.init iCacheConfig dCacheConfig h).ahead hq
    ⟨List.nil_prefix, ⟨_, hstart, rfl⟩, ⟨_, hstart, rfl⟩, .inl rfl⟩
  shielded hq := Bool.noConfusion hq

/-- Entering `runCycles` again moves nothing. -/
theorem reenter (h : Guarded fuel m₀ m visited s q) :
    Guarded fuel m₀ m visited (RvPipeSim.reenter s) q where
  toPaced := h.toPaced.reenter
  inFlight hq := ⟨(h.inFlight hq).slots, (h.inFlight hq).current, (h.inFlight hq).ex,
    (h.inFlight hq).next⟩
  shielded := h.shielded

/-- When a HALT is decoded, the word fetched behind it is no store. -/
theorem storeBehind_of_decodes (hguarded : Guarded fuel m₀ m visited s q)
    (hshield : FunctMachine.ShieldsHalt (FunctMachine.trace fuel m₀)) (hfree : s.haltFree = true)
    (hq : q.halted = false) (hdecodes : s.decodes = true) (hPC : s.PC = q.PC + 4)
    (hhalt : (cycle accessFault s).idInst.isHalt = true) (hstop : q.executed.isHalt = true)
    (hcurrent : ∃ v ∈ FunctMachine.trace fuel m₀,
      (cycle accessFault s).simulator.memory = v.simulator.memory) :
    (cycle accessFault s).storeBehind = false := by
  have hs := hguarded.steady
  obtain ⟨hmem, hex⟩ := Refines.not_halt_cycle hs hfree
  obtain ⟨hz, hexc, hst, hsv, -⟩ := LoopState.moving_of_decodes hs hdecodes
  obtain ⟨hdecoded, -⟩ := LoopState.idInst_of_decodes hs hdecodes
  have hnobranch : isBranchOrJump (s.idOut accessFault).1 = false := by
    rw [← LoopState.cycle_idInst_eq hs.shape hs.flow]
    by_contra hbr
    rw [Bool.not_eq_false] at hbr
    have hop := (LoopState.active_of_branch hbr).2.2
    exact Bool.noConfusion (hop.symm.trans (hdecoded.wellFormed.halt hhalt).2.2.2)
  obtain ⟨v, hv, hmemory⟩ := hcurrent
  have hword : (cycle accessFault s).ifInst.instruction =
      wordAt v.simulator.memory (q.PC + 4) := by
    rw [(LoopState.fetch_of_decoded hs.shape hs.flow hexc hz hst hsv hnobranch).1, ← hmemory,
      LoopState.cycle_simulator, ← hPC]
    rfl
  rw [LoopState.storeBehind, hmem, if_neg Bool.false_ne_true, hex, if_neg Bool.false_ne_true,
    hword]
  exact hshield q.toFunctMachine (hguarded.funct.of_not_halted hq) hstop v hv

/-- **One cycle of the pipeline** next to a functional run that keeps to the conditions. -/
theorem cycle (h : FunctMachine.runTillHalt fuel m₀ = some (.halt, m))
    (hspaced : WellSpaced (FunctMachine.trace fuel m₀)) (hhalt : s.halts accessFault = false)
    (hguarded : Guarded fuel m₀ m visited s q) :
    ∃ q', Guarded fuel m₀ m (visited ++ [s]) (RvPipeSim.cycle accessFault s) q' := by
  have hs := hguarded.steady
  have ho := hguarded.operands
  cases hq : q.halted
  · have hflight := hguarded.inFlight hq
    have hfresh := hflight.branchFresh hs hspaced.branches
    have hahead := hguarded.ahead hq
    have hfree : s.haltFree = true := by
      rw [← Bool.not_eq_false', ← hguarded.refines.halted_eq, hq]
    obtain ⟨hsync, hsim, hupcoming⟩ := hguarded.refines.of_not_halted hq
    have hPC : s.decodes = true → s.ifInst.PC = q.PC ∧ s.PC = q.fetchPC := fun hdecodes =>
      Prod.mk.inj ((LoopState.upcoming_of_decoding hs ho hsync hfresh hdecodes).symm.trans
        hupcoming)
    have hcoherent : s.FetchCoherent := fun hdecodes => by
      rw [hsim.memory]
      exact hflight.word_of_decodes hahead (fun hdecodes => (hPC hdecodes).1) hdecodes
    have hflight' := hflight.cycle h hs hahead (fun hdecodes => (hPC hdecodes).1) ho hsim.memory
      hspaced.stores
    have hpaced := hguarded.toPaced.cycle_of_running h hspaced.skipsNone
      (fun _ => ⟨hfresh, hcoherent⟩) hq
    refine ⟨_, hpaced, fun _ => ?_, fun hq' => ?_⟩
    · rw [LoopState.countP_concat]
      exact hflight'
    · -- the sequencer has halted in this cycle: a HALT has been decoded
      cases hdecodes : s.decodes
      · rw [hdecodes, if_neg Bool.false_ne_true] at hq'
        exact Bool.noConfusion (hq.symm.trans hq')
      · have hdec := hflight.decoded hs hahead (fun hdecodes => (hPC hdecodes).1) hdecodes
        have hstop : q.executed.isHalt = true := by
          by_contra hgo
          rw [Bool.not_eq_true] at hgo
          rw [hdecodes, if_pos rfl, Sequencer.step, hq, if_neg Bool.false_ne_true, hgo,
            if_neg Bool.false_ne_true] at hq'
          exact Bool.noConfusion hq'
        have hfetch : q.fetchPC = q.PC + 4 := by
          cases hguarded.funct with
          | running _ _ hfetch => exact hfetch
          | halted hq'' => exact Bool.noConfusion (hq.symm.trans hq'')
        obtain ⟨v, hv, hmemory⟩ := hflight'.current
        exact hguarded.storeBehind_of_decodes hspaced.shieldsHalt hfree hq hdecodes
          ((hPC hdecodes).2.trans hfetch) (hdec ▸ hstop) hstop
          ⟨v, List.mem_of_getElem? hv, hmemory⟩
  · have hfree : s.haltFree = false := by
      rw [← Bool.not_eq_true', ← hguarded.refines.halted_eq, hq]
    have hregular : s.Regular := fun hfree' => Bool.noConfusion (hfree.symm.trans hfree')
    exact ⟨q, hguarded.toPaced.cycle_of_halted hregular hhalt hq,
      fun hq' => Bool.noConfusion (hq'.symm.trans hq),
      fun _ => LoopState.storeBehind_cycle hs hhalt hfree (hguarded.shielded hq)⟩

/-- **Every run keeps in line** until it halts. -/
theorem of_run {iCacheConfig dCacheConfig : CacheConfig} {mem : MemoryStore}
    (h : FunctMachine.runTillHalt fuel (.initSimulator mem) = some (.halt, m))
    (hspaced : WellSpaced (FunctMachine.trace fuel (.initSimulator mem)))
    (hrun : PipelineRun accessFault (fun t => t.halts accessFault = false) iCacheConfig
      dCacheConfig mem visited s) :
    ∃ q, Guarded fuel (.initSimulator mem) m visited s q := by
  refine hrun.historical (fun visited s => ∃ q, Guarded fuel (.initSimulator mem) m visited s q)
    ⟨_, .init iCacheConfig dCacheConfig h⟩ ?_ ?_
  · rintro visited s ⟨q, hguarded⟩ hhalt
    exact hguarded.cycle h hspaced hhalt
  · rintro visited s ⟨q, hguarded⟩
    exact ⟨q, hguarded.reenter⟩

/-- Such a program makes the pipelined simulator halt. -/
theorem halts (iCacheConfig dCacheConfig : CacheConfig) {mem : MemoryStore}
    (h : FunctMachine.runTillHalt fuel (.initSimulator mem) = some (.halt, m))
    (hspaced : WellSpaced (FunctMachine.trace fuel (.initSimulator mem))) :
    ∃ m', runTillHalt accessFault (((FunctMachine.trace fuel (.initSimulator mem)).length + 3) *
      (LoopState.progressBound iCacheConfig dCacheConfig + 1))
      (initSimulator iCacheConfig dCacheConfig mem) = some m' :=
  runTillHalt_of_paced (Nat.le_refl _) fun _ hrun =>
    (of_run h hspaced hrun).imp fun _ hguarded => hguarded.toPaced

/-- Whenever the pipelined simulator halts on such a program, it has computed what the
functional one has. -/
theorem outcome {iCacheConfig dCacheConfig : CacheConfig} {mem : MemoryStore} {fuel' : ℕ}
    {m' : Machine}
    (h : FunctMachine.runTillHalt fuel (.initSimulator mem) = some (.halt, m))
    (hspaced : WellSpaced (FunctMachine.trace fuel (.initSimulator mem)))
    (h' : runTillHalt accessFault fuel' (initSimulator iCacheConfig dCacheConfig mem) = some m') :
    m'.simulator.Agrees m.simulator := by
  obtain ⟨visited, s, hrun, hhalt, rfl, -⟩ := run_of_runTillHalt h'
  obtain ⟨q, hguarded⟩ := of_run h hspaced hrun
  obtain ⟨hq, hsim, -⟩ := hguarded.refines.of_halts hguarded.steady hhalt
  obtain ⟨hregs, hmem⟩ := LoopState.outcome_of_halts hguarded.steady hhalt
  have hfunct : m.simulator.Agrees s.simulator := by
    cases hguarded.funct with
    | running hq' => exact Bool.noConfusion (hq.symm.trans hq')
    | halted _ hsim' => exact hsim'.trans hsim.symm
  exact ⟨hregs.trans hfunct.regData.symm,
    (hmem.mpr (LoopState.quiet_of_storeBehind (hguarded.shielded hq))).trans hfunct.memory.symm⟩

end Guarded

/-- **Branches of a program that keeps its distances are resolved on the right operands.** In
every cycle of the pipelined run with no HALT in flight, a branch or jump that is handed to
`simEX` carries the `nextPC` that its forwarded operands resolve to, and the PC was last
redirected by it. -/
theorem branches_resolved {iCacheConfig dCacheConfig : CacheConfig} {mem : MemoryStore}
    (h : FunctMachine.runTillHalt fuel (.initSimulator mem) = some (.halt, m))
    (hspaced : WellSpaced (FunctMachine.trace fuel (.initSimulator mem)))
    (hrun : PipelineRun accessFault (fun t => t.halts accessFault = false) iCacheConfig
      dCacheConfig mem visited s)
    (hfree : s.haltFree = true) {inst : Instruction} (hcall : s.exCall = some inst)
    (hbr : isBranchOrJump inst = true) :
    inst.nextPC = (simNextPCResolution inst).nextPC ∧
      (s.PC = inst.nextPC ∨ inst.nextPC = inst.PC + 4 ∧ s.PC = inst.nextPC + 4) := by
  obtain ⟨q, hguarded⟩ := Guarded.of_run h hspaced hrun
  have hs := hguarded.steady
  have hq : q.halted = false := by rw [hguarded.refines.halted_eq, hfree, Bool.not_true]
  obtain ⟨hsync, -, -⟩ := hguarded.refines.of_not_halted hq
  have hfresh := (hguarded.inFlight hq).branchFresh hs hspaced.branches
  exact ⟨(LoopState.resolved_iff_fresh hs.shape hsync hcall hbr).mpr hfresh,
    LoopState.redirected_of_exCall hs.flow hcall hbr⟩

end Runs

/-- **What a program has to keep to.** If the functional run of a program halts, branches to no
word behind the next one, writes no register less than three instructions ahead of a branch
that reads it, stores to no instruction less than three instructions ahead of it and has no
store behind its HALT, then under every pair of caches that have a set the pipelined simulator
makes no access out of bounds and halts, within `progressBound + 1` cycles for each instruction
and for three more, with the registers and the memory of the functional run. -/
theorem pipeline_correct {iCacheConfig dCacheConfig : CacheConfig}
    (hi : 1 ≤ iCacheConfig.numSets) (hi' : iCacheConfig.numSets < 2 ^ 32)
    (hd : 1 ≤ dCacheConfig.numSets) (hd' : dCacheConfig.numSets < 2 ^ 32) {mem : MemoryStore}
    {fuel : ℕ} {m : FunctMachine}
    (h : FunctMachine.runTillHalt fuel (.initSimulator mem) = some (.halt, m))
    (hspaced : WellSpaced (FunctMachine.trace fuel (.initSimulator mem))) :
    let cycles := ((FunctMachine.trace fuel (.initSimulator mem)).length + 3) *
      (LoopState.progressBound iCacheConfig dCacheConfig + 1)
    (∃ m', runTillHalt accessFault cycles (initSimulator iCacheConfig dCacheConfig mem) =
        some m' ∧
      m'.simulator.regData = m.simulator.regData ∧
      m'.simulator.memory = m.simulator.memory) ∧
      ∀ s ∈ haltTrace accessFault cycles (initSimulator iCacheConfig dCacheConfig mem),
        s.CachesSafe := by
  intro cycles
  obtain ⟨m', h'⟩ := Guarded.halts iCacheConfig dCacheConfig h hspaced
  have hagrees := Guarded.outcome h hspaced h'
  exact ⟨⟨m', h', hagrees.regData, hagrees.memory⟩, cachesSafe_of_runTillHalt hi hi' hd hd' h'⟩

/-- `addi x1, x0, 19; sw x1, 16(x0); nop; beq x1, x0, +12; addi x2, x0, 7; HALT` turns its
`addi x2, x0, 7` into a nop three instructions before it comes to it. -/
theorem pipeline_correct_patched :
    let mem : MemoryStore := .image fun
      | 0 => 0x01300093 | 1 => 0x00102823 | 2 => 0x00000013 | 3 => 0x00008663
      | 4 => 0x00700113 | 5 => 0xfeedfeed | _ => 0x00000013
    ∃ m, FunctMachine.runTillHalt 10 (.initSimulator mem) = some (.halt, m) ∧
      ∃ m', runTillHalt accessFault 153 (initSimulator ⟨32, 4, 1, 2⟩ ⟨64, 64, 1, 3⟩ mem) =
          some m' ∧
        m'.simulator.regData = m.simulator.regData ∧
        m'.simulator.memory = m.simulator.memory := by
  intro mem
  obtain ⟨⟨status, m⟩, h, hstatus⟩ := Option.map_eq_some_iff.mp
    (by decide +kernel :
      (FunctMachine.runTillHalt 10 (.initSimulator mem)).map Prod.fst = some .halt)
  obtain rfl : status = .halt := hstatus
  obtain ⟨hrun, -⟩ := @pipeline_correct ⟨32, 4, 1, 2⟩ ⟨64, 64, 1, 3⟩ (by decide) (by decide)
    (by decide) (by decide) _ _ _ h
    ⟨by decide +kernel, by decide +kernel, by decide +kernel, by decide +kernel⟩
  have hfuel : ((FunctMachine.trace 10 (.initSimulator mem)).length + 3) *
      (LoopState.progressBound ⟨32, 4, 1, 2⟩ ⟨64, 64, 1, 3⟩ + 1) = 153 := by decide +kernel
  rw [hfuel] at hrun
  exact ⟨m, h, hrun⟩

end RvPipeSim
