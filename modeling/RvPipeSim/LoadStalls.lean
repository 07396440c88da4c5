import Mathlib.Data.Finset.Card
import RvPipeSim.Timing

/-!
# Load-use stalls

`loadStallCount` is raised by the hazard check, and the check runs in every cycle. A hazard
that moves is counted once: the next cycle has a bubble in EX. A hazard that a data miss
holds in place is counted again in each frozen cycle. So the counter of a straight-line run
is the number of instructions that waited for a load exactly if no hazard was ever frozen.
-/

namespace RvPipeSim

open Simulator ObservedRun

namespace LoopState

/-- The instruction in ID is directly behind a load in EX and reads the register it loads; a
store only counts its address register. -/
def loadUse (s : LoopState) : Bool :=
  isLoad s.exInst &&
    (readsRs1From s.idInst s.exInst.rd || (!isStore s.idInst && readsRs2From s.idInst s.exInst.rd))

variable {fault : Fault} {s t : LoopState} {visited : List LoopState}

/-! ### The hazard check of a straight-line cycle -/

/-- No stall cycle is pending unless a branch is in ID. -/
theorem remaining_of_no_branch (hs : Steady s) (hbr : isBranchOrJump s.idInst = false) :
    s.remainingStallCycles = 0 := by
  by_contra hne
  obtain ⟨-, hop, hlegal, hnop⟩ := hs.shape.pending (Nat.pos_of_ne_zero hne)
  have hactive : s.idInst.active = true := by
    rcases hs.unsquashed.id with ⟨status, hpad⟩ | hnormal
    · have hop' : (nop status).branchOpcode = false := rfl
      rw [hpad, hop'] at hop
      exact Bool.noConfusion hop
    · rw [Instruction.active, hnop, hnormal]
      rfl
  have hbranch : isBranchOrJump s.idInst = true := by
    rw [isBranchOrJump, hlegal, hactive]
    simpa [DecodeInfo.branchOpcode] using hop
  exact Bool.noConfusion (hbr.symm.trans hbranch)

/-- Without a branch in ID the check stalls and counts the load-use hazards. -/
theorem hazard_of_no_branch (hs : Steady s) (hbr : isBranchOrJump s.idInst = false) :
    s.hazard = ⟨s.loadUse, 0, s.loadUse.toNat⟩ := by
  have hload : detectLoadHazard s.exInst s.idInst = ⟨s.loadUse, 0, s.loadUse.toNat⟩ := by
    rw [detectLoadHazard, loadUse, hbr]
    dsimp only
    cases isLoad s.exInst
    · rfl
    · cases isStore s.idInst
      · cases readsRs1From s.idInst s.exInst.rd <;> cases readsRs2From s.idInst s.exInst.rd <;> rfl
      · cases readsRs1From s.idInst s.exInst.rd <;> rfl
  rw [hazard, detectHazard, remaining_of_no_branch hs hbr, if_neg (Nat.lt_irrefl 0), hload, hbr]
  dsimp only
  rw [Bool.and_false, if_neg Bool.false_ne_true]

/-- What waits for a load is a fetched instruction, and no illegal one. -/
theorem consumer_of_loadUse (hs : Steady s) (h : s.loadUse = true) :
    s.excepted = false ∧ ∃ n, s.idInst.seq = some n := by
  rw [loadUse, Bool.and_eq_true, Bool.or_eq_true, Bool.and_eq_true] at h
  have hreads : s.idInst.readsRs1 = true ∨ s.idInst.readsRs2 = true := by
    rcases h.2 with h1 | ⟨-, h2⟩
    · rw [readsRs1From, Bool.and_eq_true, Bool.and_eq_true] at h1
      exact .inl h1.1.1
    · rw [readsRs2From, Bool.and_eq_true, Bool.and_eq_true] at h2
      exact .inr h2.1.1
  constructor
  · refine Bool.eq_false_iff.mpr fun hexc => ?_
    have hinert := (hs.shape.id_wellFormed.illegal (illegal_of_excepted hexc).1).2.2
    rw [hinert.readsRs1, hinert.readsRs2] at hreads
    simp at hreads
  · rcases hs.shape.idSlot with ⟨status, hpad⟩ | hdecoded
    · rw [hpad] at hreads
      simp [nop] at hreads
    · exact Option.isSome_iff_exists.mp hdecoded.numbered

/-- A freeze keeps a load and its user, or keeps there being none. -/
theorem Held.loadUse (h : Held s t) : t.loadUse = s.loadUse := by
  obtain ⟨_, _, hid⟩ := h.id
  rw [LoopState.loadUse, h.ex, hid]
  rfl

/-! ### Each hazard moves once -/

/-- The instructions that waited for a load, once for each cycle. -/
def loadUses (visited : List LoopState) : List (Option ℕ) :=
  (visited.filter loadUse).map fun u => u.idInst.seq

/-- Those of cycles in which the pipeline moved. -/
def loadUsesTaken (visited : List LoopState) : List (Option ℕ) :=
  (visited.filter fun u => u.loadUse && !u.frozen).map fun u => u.idInst.seq

/-- A cycle with a load and its user adds the user's number. -/
theorem loadUses_concat (visited : List LoopState) (s : LoopState) :
    loadUses (visited ++ [s]) =
      loadUses visited ++ if s.loadUse then [s.idInst.seq] else [] := by
  rw [loadUses, List.filter_append, List.map_append]
  cases h : s.loadUse <;> simp [loadUses, h]

/-- Such a cycle takes the stall if it is not frozen. -/
theorem loadUsesTaken_concat (visited : List LoopState) (s : LoopState) :
    loadUsesTaken (visited ++ [s]) =
      loadUsesTaken visited ++ if s.loadUse && !s.frozen then [s.idInst.seq] else [] := by
  rw [loadUsesTaken, List.filter_append, List.map_append]
  cases h : s.loadUse && !s.frozen <;> simp [loadUsesTaken, h]

/-- Every hazard so far has moved, or still waits; none moved twice. -/
structure Counted (visited : List LoopState) (s : LoopState) : Prop where
  nodup : (loadUsesTaken visited).Nodup
  pending : ∀ n ∈ loadUses visited,
    n ∈ loadUsesTaken visited ∨ s.loadUse = true ∧ s.idInst.seq = n
  /-- While the instruction is still in ID, the load has left EX. -/
  gone : ∀ n ∈ loadUsesTaken visited, s.idInst.seq = n → s.exInst.active = false

/-- A frozen hazard stays as it is. -/
theorem Counted.of_frozen (hs : Steady s) (h : Counted visited s) (hz : s.frozen = true) :
    Counted (visited ++ [s]) (cycle accessFault s) := by
  have hheld := held_of_frozen hs hz
  have hseq : (cycle accessFault s).idInst.seq = s.idInst.seq := hheld.seq
  have htaken : loadUsesTaken (visited ++ [s]) = loadUsesTaken visited := by
    rw [loadUsesTaken_concat, hz, Bool.not_true, Bool.and_false, if_neg Bool.false_ne_true,
      List.append_nil]
  refine ⟨htaken ▸ h.nodup, fun n hn => ?_, fun n hn hid => ?_⟩
  · rw [htaken, hheld.loadUse, hseq]
    rw [loadUses_concat, List.mem_append] at hn
    rcases hn with hn | hn
    · exact h.pending n hn
    · split at hn
      · rename_i huse
        exact .inr ⟨huse, (List.mem_singleton.mp hn).symm⟩
      · exact absurd hn List.not_mem_nil
  · rw [htaken] at hn
    rw [hheld.ex]
    exact h.gone n hn (hseq.symm.trans hid)

/-- A hazard that moves is counted here, and leaves a bubble in EX. -/
theorem Counted.of_taken (hs : Steady s) (h : Counted visited s)
    (hbr : isBranchOrJump s.idInst = false) (hz : s.frozen = false) (huse : s.loadUse = true) :
    Counted (visited ++ [s]) (cycle accessFault s) := by
  have htaken : loadUsesTaken (visited ++ [s]) = loadUsesTaken visited ++ [s.idInst.seq] := by
    rw [loadUsesTaken_concat, hz, huse]
    rfl
  have hst : s.stalled = true := by rw [stalled, hazard_of_no_branch hs hbr, huse]
  have hempty : (cycle accessFault s).exInst.active = false := by
    rw [cycle_exInst_eq hs.shape hs.flow,
      exOut_of_stalled hz (consumer_of_loadUse hs huse).1 hst]
    rfl
  refine ⟨?_, fun n hn => .inl ?_, fun _ _ _ => hempty⟩
  · rw [htaken, List.nodup_append]
    refine ⟨h.nodup, List.nodup_singleton _, ?_⟩
    rintro n hn m hm rfl
    have hidle := h.gone n hn (List.mem_singleton.mp hm).symm
    rw [loadUse, isLoad, hidle, Bool.and_false, Bool.false_and] at huse
    exact Bool.noConfusion huse
  · rw [htaken]
    rw [loadUses_concat, huse, if_pos rfl, List.mem_append] at hn
    rcases hn with hn | hn
    · rcases h.pending n hn with hn | ⟨-, rfl⟩
      · exact List.mem_append_left _ hn
      · exact List.mem_append_right _ (List.mem_singleton.mpr rfl)
    · exact List.mem_append_right _ hn

/-- A cycle without a hazard lets the instruction in ID go. -/
theorem Counted.of_free (hs : Steady s) (hold : BehindID visited s) (h : Counted visited s)
    (hall : ∀ u ∈ visited, Steady u) (hbr : isBranchOrJump s.idInst = false)
    (hz : s.frozen = false) (huse : s.loadUse = false) :
    Counted (visited ++ [s]) (cycle accessFault s) := by
  have htaken : loadUsesTaken (visited ++ [s]) = loadUsesTaken visited := by
    rw [loadUsesTaken_concat, huse, Bool.false_and, if_neg Bool.false_ne_true, List.append_nil]
  have hst : s.stalled = false := by rw [stalled, hazard_of_no_branch hs hbr, huse]
  refine ⟨htaken ▸ h.nodup, fun n hn => .inl ?_, fun n hn hid => ?_⟩
  · rw [htaken]
    rw [loadUses_concat, huse, if_neg Bool.false_ne_true, List.append_nil] at hn
    exact (h.pending n hn).resolve_right fun hwait =>
      Bool.noConfusion (huse.symm.trans hwait.1)
  · -- what is in ID now was never there before
    rw [htaken, loadUsesTaken] at hn
    obtain ⟨u, hu, rfl⟩ := List.mem_map.mp hn
    obtain ⟨hu, hwait⟩ := List.mem_filter.mp hu
    rw [Bool.and_eq_true] at hwait
    obtain ⟨m, hm⟩ := (consumer_of_loadUse (hall u hu) hwait.1).2
    rw [hm, seq_idInst, hz, hst] at hid
    have hin : s.ifInst.seq = some m := by
      revert hid
      cases s.excepted <;> cases s.starved || mispredicted s.ifInst s.PC <;> simp
    exact absurd ((hold u hu m hm).2 m hin) (Nat.lt_irrefl m)

/-- The counter of the source grows by what the hazard check reports. -/
theorem loadStallCount_cycle (fault : Fault) (s : LoopState) :
    (cycle fault s).loadStallCount = s.loadStallCount + s.hazard.loadStalls :=
  detect_loadStallCount s

/-- What a straight-line run has counted: every cycle with a hazard, and each hazard that
moved once. -/
theorem counted_of_run {iCacheConfig dCacheConfig : CacheConfig} {mem : MemoryStore}
    (h : PipelineRun accessFault (fun u => isBranchOrJump u.idInst = false) iCacheConfig
      dCacheConfig mem visited s) :
    Counted visited s ∧ s.loadStallCount = visited.countP loadUse := by
  refine (h.historical (fun visited s => (Steady s ∧ Ordered s ∧ BehindID visited s ∧
    ∀ u ∈ visited, Steady u) ∧ Counted visited s ∧ s.loadStallCount = visited.countP loadUse)
    ⟨⟨.init iCacheConfig dCacheConfig mem, .init iCacheConfig dCacheConfig mem,
      fun u hu => absurd hu List.not_mem_nil, fun u hu => absurd hu List.not_mem_nil⟩,
      ⟨.nil, fun n hn => absurd hn List.not_mem_nil, fun n hn => absurd hn List.not_mem_nil⟩,
      rfl⟩ ?_ ?_).2
  · rintro visited s ⟨⟨hs, hord, hold, hall⟩, hcounted, hcount⟩ hbr
    refine ⟨⟨hs.cycle, hord.cycle, hold.cycle hord, fun u hu => ?_⟩, ?_, ?_⟩
    · rcases List.mem_append.mp hu with hu | hu
      · exact hall u hu
      · exact List.mem_singleton.mp hu ▸ hs
    · cases hz : s.frozen
      · cases huse : s.loadUse
        · exact hcounted.of_free hs hold hall hbr hz huse
        · exact hcounted.of_taken hs hbr hz huse
      · exact hcounted.of_frozen hs hz
    · rw [loadStallCount_cycle, hcount, hazard_of_no_branch hs hbr, List.countP_append,
        List.countP_singleton]
      cases s.loadUse <;> rfl
  · rintro visited s ⟨⟨hs, hord, hold, hall⟩, hcounted, hcount⟩
    exact ⟨⟨hs.reenter, hord.reenter, hold, hall⟩,
      ⟨hcounted.nodup, hcounted.pending, hcounted.gone⟩, hcount⟩

/-- When the last cycle moves, the hazards that moved are the instructions that waited. -/
theorem Counted.distinct (h : Counted visited s) (hnext : Counted (visited ++ [s]) t)
    (hz : s.frozen = false) :
    (loadUses (visited ++ [s])).dedup.length = (loadUsesTaken (visited ++ [s])).length := by
  have hset : (loadUses (visited ++ [s])).toFinset = (loadUsesTaken (visited ++ [s])).toFinset := by
    ext n
    rw [List.mem_toFinset, List.mem_toFinset, loadUses_concat, loadUsesTaken_concat, hz,
      Bool.not_false, Bool.and_true, List.mem_append, List.mem_append]
    constructor
    · rintro (hn | hn)
      · rcases h.pending n hn with hn | ⟨huse, rfl⟩
        · exact .inl hn
        · exact .inr (by rw [if_pos huse]; exact List.mem_singleton.mpr rfl)
      · exact .inr hn
    · refine Or.imp_left fun hn => ?_
      obtain ⟨u, hu, rfl⟩ := List.mem_map.mp hn
      obtain ⟨hu, huse⟩ := List.mem_filter.mp hu
      rw [Bool.and_eq_true] at huse
      exact List.mem_map.mpr ⟨u, List.mem_filter.mpr ⟨hu, huse.1⟩, rfl⟩
  calc (loadUses (visited ++ [s])).dedup.length
      = (loadUses (visited ++ [s])).toFinset.card := (List.card_toFinset _).symm
    _ = (loadUsesTaken (visited ++ [s])).toFinset.card := by rw [hset]
    _ = (loadUsesTaken (visited ++ [s])).length := List.toFinset_card_of_nodup hnext.nodup

/-- The cycles with a hazard are those of them that move exactly if none is frozen. -/
theorem countP_loadUse_iff (visited : List LoopState) :
    visited.countP loadUse = (loadUsesTaken visited).length ↔
      ∀ u ∈ visited, u.loadUse = true → u.frozen = false := by
  have hsplit := List.countP_eq_countP_filter_add visited loadUse fun u => !u.frozen
  rw [List.countP_filter] at hsplit
  rw [loadUsesTaken, List.length_map, ← List.countP_eq_length_filter, hsplit,
    Nat.add_eq_left, List.countP_filter, List.countP_eq_zero]
  refine forall₂_congr fun u _ => ?_
  cases u.loadUse <;> cases u.frozen <;> simp

end LoopState

/-- **Load-use stalls are counted once a hazard exactly if no hazard is frozen.** In a
halting run in which no branch or jump comes into ID, `loadStallCount` ends as the number of
instructions that waited in ID for a load in EX if and only if none of them did so in a
frozen cycle. -/
theorem load_stalls_iff {iCacheConfig dCacheConfig : CacheConfig} {mem : MemoryStore}
    {fuel : ℕ} {m : Machine}
    (h : runTillHalt accessFault fuel (initSimulator iCacheConfig dCacheConfig mem) = some m)
    (hstraight : ∀ u ∈ haltTrace accessFault fuel (initSimulator iCacheConfig dCacheConfig mem),
      isBranchOrJump u.idInst = false) :
    m.loadStallCount =
        (((haltTrace accessFault fuel (initSimulator iCacheConfig dCacheConfig mem)).filter
          LoopState.loadUse).map fun u => u.idInst.seq).dedup.length ↔
      ∀ u ∈ haltTrace accessFault fuel (initSimulator iCacheConfig dCacheConfig mem),
        u.loadUse = true → u.frozen = false := by
  obtain ⟨visited, s, hrun, hhalts, rfl, htrace⟩ := run_of_runTillHalt h
  rw [htrace] at hstraight ⊢
  have hbr := hstraight s (List.mem_append_right _ (List.mem_singleton.mpr rfl))
  have hrun' : PipelineRun accessFault (fun u => isBranchOrJump u.idInst = false) iCacheConfig
      dCacheConfig mem visited s :=
    hrun.restrict fun u hu => hstraight u (List.mem_append_left _ hu)
  obtain ⟨hcounted, hcount⟩ := LoopState.counted_of_run hrun'
  obtain ⟨hnext, -⟩ := LoopState.counted_of_run (hrun'.next hbr)
  have hs := (Steady.of_run hrun).1
  have hfinal : (leave (cycle accessFault s)).loadStallCount =
      (visited ++ [s]).countP LoopState.loadUse := by
    have hlast : (leave (cycle accessFault s)).loadStallCount =
        (cycle accessFault s).loadStallCount := rfl
    rw [hlast, LoopState.loadStallCount_cycle, hcount, LoopState.hazard_of_no_branch hs hbr,
      List.countP_append, List.countP_singleton]
    cases s.loadUse <;> rfl
  have hdistinct := hcounted.distinct hnext (LoopState.not_frozen_of_halts hhalts)
  rw [LoopState.loadUses] at hdistinct
  rw [hfinal, hdistinct]
  exact LoopState.countP_loadUse_iff (visited ++ [s])

/-- `lw x3, 512(x0); lw x1, 256(x0); add x2, x1, x1; HALT`: the miss of the first load holds
the `add` behind the second one for a cycle, and the one hazard is counted twice. -/
theorem load_stall_counted_twice :
    let mem : MemoryStore := .image fun
      | 0 => 0x20002183 | 1 => 0x10002083 | 2 => 0x00108133 | 3 => 0xfeedfeed | _ => 0x00000013
    let m := initSimulator (.oneBlock 64) (.oneBlock 64) mem
    (runTillHalt accessFault 12 m).map (fun m' => m'.loadStallCount) = some 2 ∧
      (∀ u ∈ haltTrace accessFault 12 m, isBranchOrJump u.idInst = false) ∧
      (((haltTrace accessFault 12 m).filter LoopState.loadUse).map
        fun u => u.idInst.seq).dedup.length = 1 := by
  decide +kernel

/-- `lw x1, 256(x0); add x2, x1, x1; HALT`: the miss of the load itself does not count. -/
theorem load_stall_counted_once :
    let m := initSimulator (.oneBlock 64) (.oneBlock 64)
      (.image fun | 0 => 0x10002083 | 1 => 0x00108133 | 2 => 0xfeedfeed | _ => 0x00000013)
    ∃ m', runTillHalt accessFault 10 m = some m' ∧
      m'.loadStallCount =
        (((haltTrace accessFault 10 m).filter LoopState.loadUse).map
          fun u => u.idInst.seq).dedup.length := by
  intro m
  obtain ⟨m', h⟩ := Option.isSome_iff_exists.mp
    (by decide +kernel : (runTillHalt accessFault 10 m).isSome = true)
  exact ⟨m', h, (load_stalls_iff h (by decide +kernel)).mpr (by decide +kernel)⟩

end RvPipeSim
