import RvPipeSim.FetchTrace
import RvPipeSim.LoadStalls

/-!
# How long a program runs

For a program that keeps to the conditions of `Contract`, the cycles of the pipelined
simulator can be told from the functional run. A cycle is spent on one thing (`spent_once`):
it is frozen by a data miss, puts a bubble behind a load, waits for an instruction miss,
squashes a fetch, decodes an instruction or makes the first fetch. All but the waiting is
settled by the functional run:

* the frozen cycles by its loads and stores (`dCache_misses_eq`);
* the squashed fetches by its branches and jumps, since every fetch behind one is squashed,
  also where the branch is not taken (`Metered.squashes_eq`);
* the bubbles by its loads that are used at once, but for those that an instruction miss
  keeps apart from their users: there a cycle of waiting stands for the bubble
  (`Metered.loadUses_cycle`).

The addresses fetched are settled as well (`Metered.fetched_cycle`), and with them the misses
of the I-cache up to the HALT.

## Main results

* `LoopState.spent_once` — a cycle is spent on exactly one thing;
* `Metered` and its cycle lemmas — decoded, squashed, waited and fetched along the functional
  run, kept by every cycle until the HALT is in flight;
* `Booked.of_run` — every run of such a program is metered, with the HALT's cycles settled;
* `dCache_misses_eq` — the D-cache misses of a run are those of the functional loads and stores;
* `cycleCount_bounds` — the cycle count lies between two numbers of the functional run, and they
  differ by the latency of the instruction misses alone.
-/

namespace RvPipeSim

open Simulator ObservedRun

/-! ### What a functional run costs -/

/-- The second instruction, directly behind the first, reads the register that one loads; a
store only counts its address register. -/
def DecodeInfo.loadUse (load user : DecodeInfo) : Bool :=
  load.readsMem && load.rd != 0 &&
    (user.readsRs1 && user.rs1 == load.rd ||
      !user.writesMem && (user.readsRs2 && user.rs2 == load.rd))

namespace FunctMachine

/-- The instructions of a run, decoded. -/
def decodeLog (visited : List FunctMachine) : List DecodeInfo :=
  visited.map fun u => u.executed.toDecodeInfo

/-- The branches and jumps of a run, taken or not. -/
def branches (visited : List FunctMachine) : ℕ := (decodeLog visited).countP (·.branchOpcode)

/-- The instructions of a run that use what the one in front of them loads. -/
def loadUses (visited : List FunctMachine) : ℕ := adjacent DecodeInfo.loadUse (decodeLog visited)

/-- The addresses that a run is fetched from: behind a branch or jump also the next one, in
vain. -/
def fetches (visited : List FunctMachine) : List (BitVec 64) :=
  visited.flatMap fun u => u.PC :: if u.executed.branchOpcode then [u.PC + 4] else []

/-- The I-cache misses of a run, with a new cache. -/
def fetchMisses (config : CacheConfig) (visited : List FunctMachine) : ℕ :=
  ((Cache.new config).accesses (lookups (fetches visited))).2.misses

variable {visited : List FunctMachine} {k : ℕ} {u : FunctMachine}

/-- One instruction more of a run. -/
theorem take_succ_of_getElem (hu : visited[k]? = some u) :
    visited.take (k + 1) = visited.take k ++ [u] := by
  rw [List.take_add_one, hu]
  rfl

/-- The log of decoded instructions grows by the one executed. -/
theorem decodeLog_take_succ (hu : visited[k]? = some u) :
    decodeLog (visited.take (k + 1)) =
      decodeLog (visited.take k) ++ [u.executed.toDecodeInfo] := by
  rw [decodeLog, take_succ_of_getElem hu, List.map_append]
  rfl

/-- A branch more, if the instruction is one. -/
theorem branches_take_succ (hu : visited[k]? = some u) :
    branches (visited.take (k + 1)) =
      branches (visited.take k) + u.executed.branchOpcode.toNat := by
  rw [branches, decodeLog_take_succ hu, List.countP_append, List.countP_singleton]
  cases hop : u.executed.branchOpcode <;> rfl

/-- A load use more, if the instruction reads what the last one loads. -/
theorem loadUses_take_succ (hu : visited[k]? = some u) :
    loadUses (visited.take (k + 1)) = loadUses (visited.take k) +
      ((decodeLog (visited.take k)).getLast?.any (·.loadUse u.executed.toDecodeInfo)).toNat := by
  rw [loadUses, decodeLog_take_succ hu, adjacent_concat]
  rfl

/-- Only a load is used. -/
theorem any_loadUse_le (last : Option DecodeInfo) (user : DecodeInfo) :
    (last.any (·.loadUse user)).toNat ≤ (last.any (·.readsMem)).toNat := by
  cases last with
  | none => exact Nat.le_refl _
  | some load =>
      rw [Option.any_some, Option.any_some, DecodeInfo.loadUse]
      cases load.readsMem
      · exact Nat.le_refl _
      · exact Bool.toNat_le _

/-- Every instruction is fetched, and behind a branch the next word too. -/
theorem fetches_take_succ (hu : visited[k]? = some u) :
    fetches (visited.take (k + 1)) = fetches (visited.take k) ++
      u.PC :: if u.executed.branchOpcode then [u.PC + 4] else [] := by
  rw [fetches, take_succ_of_getElem hu, List.flatMap_append, List.flatMap_singleton]
  rfl

end FunctMachine

/-! ### What one cycle is spent on -/

namespace LoopState

variable {s : LoopState}

/-- Nothing has been fetched. -/
def idle (s : LoopState) : Bool := s.ifInst.status == .idle

/-- The instruction in IF was fetched behind a branch or jump. -/
def speculates (s : LoopState) : Bool := s.ifInst.status == .speculative

/-- **Every cycle is spent on one thing**, if ID holds no illegal instruction. -/
theorem spent_once (hexc : s.excepted = false) :
    s.frozen.toNat + s.bubbles.toNat + s.starves.toNat + s.squashes.toNat + s.decodes.toNat +
      (s.enters && s.idle).toNat = 1 := by
  have hmp : s.idle = true → mispredicted s.ifInst s.PC = false := fun hidle => by
    rw [mispredicted, beq_iff_eq.mp hidle]
    rfl
  rw [bubbles, starves, squashes, decodes, enters, hexc]
  change _ + (_ && !(s.idle || _)).toNat + _ = 1
  cases hidle : s.idle
  · cases s.frozen <;> cases s.stalled <;> cases s.starved <;>
      cases mispredicted s.ifInst s.PC <;> rfl
  · rw [hmp hidle]
    cases s.frozen <;> cases s.stalled <;> cases s.starved <;> rfl

/-- Without an exception IF fetches exactly when its instruction may enter ID. -/
theorem refetched_eq_enters (hs : Steady s) (hexc : s.excepted = false) :
    s.refetched accessFault = s.enters := by
  rw [refetched, enters, memExc_eq_false hs.shape hs.flow, hexc]
  cases s.frozen <;> cases s.stalled <;> cases s.starved <;> rfl

/-- What does not enter ID stays in IF, and if no branch is stalled, the PC stays. -/
theorem front_of_not_enters (hs : Steady s) (hexc : s.excepted = false)
    (hbr : isBranchOrJump s.idInst = true → s.stalled = false) (henters : s.enters = false) :
    (cycle accessFault s).ifInst = s.ifInst ∧ (cycle accessFault s).PC = s.PC := by
  cases hz : s.frozen
  · cases hst : s.stalled
    · refine fetch_of_starved hs.shape hs.flow hexc hst ?_
      by_contra hsv
      rw [Bool.not_eq_true] at hsv
      exact Bool.noConfusion (henters.symm.trans (enters_iff.mpr ⟨hz, hexc, hst, hsv⟩))
    · refine fetch_of_stalled hs.shape hs.flow hexc hst ?_
      by_contra hbranch
      rw [Bool.not_eq_false] at hbranch
      exact Bool.noConfusion (hst.symm.trans (hbr hbranch))
  · obtain ⟨hif, hPC, -⟩ := fetch_of_frozen hs.shape hs.flow hexc hz
    exact ⟨hif, hPC⟩

/-- When the instruction in IF is not decoded although it may enter ID, the next fetch is not
speculative. -/
theorem speculates_of_dropped (hs : Steady s) (henters : s.enters = true)
    (hdecodes : s.decodes = false) : (cycle accessFault s).speculates = false := by
  obtain ⟨hz, hexc, hst, hsv⟩ := enters_iff.mp henters
  have hif : (cycle accessFault s).ifInst = simIF (s.idOut accessFault).2 s.PC s.fetched := by
    rcases not_decodes_cases hs hz hexc hst hdecodes with hsv' | ⟨-, hmp | ⟨hmp, hidle⟩⟩
    · exact Bool.noConfusion (hsv.symm.trans hsv')
    · exact (fetch_of_mispredicted hs.shape hs.flow hexc hz hst hsv hmp).1
    · have hbr : isBranchOrJump (s.idOut accessFault).1 = false := by
        rw [idOut_of_decoding _ hz hexc hst hsv hmp, hidle]
        rfl
      exact (fetch_of_decoded hs.shape hs.flow hexc hz hst hsv hbr).1
  rw [speculates, hif]
  rfl

/-- When an instruction is decoded, the next fetch is speculative if that is a branch. -/
theorem front_of_decodes (hs : Steady s) (hdecodes : s.decodes = true) :
    (cycle accessFault s).speculates = isBranchOrJump (cycle accessFault s).idInst ∧
      (cycle accessFault s).ifInst.PC = s.PC ∧
      (isBranchOrJump (cycle accessFault s).idInst = true →
        (cycle accessFault s).PC = (cycle accessFault s).idInst.nextPC) := by
  obtain ⟨hz, hexc, hst, hsv, -⟩ := moving_of_decodes hs hdecodes
  have hid := cycle_idInst_eq hs.shape hs.flow
  rw [hid]
  cases hbr : isBranchOrJump (s.idOut accessFault).1
  · obtain ⟨hif, -⟩ := fetch_of_decoded hs.shape hs.flow hexc hz hst hsv hbr
    rw [speculates, hif]
    exact ⟨rfl, rfl, nofun⟩
  · obtain ⟨hif, hPC, -⟩ := fetch_of_decoded_branch hs.shape hs.flow hexc hz hst hsv hbr
    rw [speculates, hif]
    exact ⟨rfl, rfl, fun _ => hPC⟩

/-! ### Every speculative fetch is squashed -/

/-- The speculative fetch in IF is none the branch goes on to. (Where a branch goes to the word
behind the next one, it is taken for one.) -/
def Doomed (s : LoopState) : Prop :=
  s.speculates = true →
    if isBranchOrJump s.idInst then s.PC = s.idInst.nextPC ∧ s.target ≠ s.ifInst.PC + 4
    else s.PC ≠ s.ifInst.PC + 4

/-- Once the branch has left ID, the PC tells. -/
theorem Doomed.PC_ne (hs : Steady s) (ho : Operands s) (hsync : s.Synced)
    (hfresh : s.BranchFresh) (hz : s.frozen = false) (hst : s.stalled = false) (h : s.Doomed)
    (hspec : s.speculates = true) : s.PC ≠ s.ifInst.PC + 4 := by
  have hdoomed := h hspec
  split at hdoomed
  · rename_i hbr
    rw [hdoomed.1, target_of_moving hs ho hsync hfresh hz hst hbr]
    exact hdoomed.2
  · exact hdoomed

/-- A doomed fetch fails the test with which ID looks for the right path, so it is squashed. -/
theorem Doomed.mispredicted (hs : Steady s) (ho : Operands s) (hsync : s.Synced)
    (hfresh : s.BranchFresh) (henters : s.enters = true) (h : s.Doomed)
    (hspec : s.speculates = true) : RvPipeSim.mispredicted s.ifInst s.PC = true := by
  obtain ⟨hz, -, hst, -⟩ := enters_iff.mp henters
  have hne := h.PC_ne hs ho hsync hfresh hz hst hspec
  have hspec' : (s.ifInst.status == .speculative) = true := hspec
  rw [RvPipeSim.mispredicted, hspec', Bool.true_and, bne_iff_ne]
  intro heq
  refine hne ?_
  rw [heq, BitVec.sub_add_cancel]

/-- A cycle keeps the speculative fetch doomed: held, the branch goes on to the same place;
decoded, it is a branch that does not skip one word. -/
theorem Doomed.cycle (hs : Steady s) (ho : Operands s) (hsync : s.Synced)
    (hfresh : s.BranchFresh) (hexc : s.excepted = false)
    (hbr : isBranchOrJump s.idInst = true → s.stalled = false) (h : s.Doomed)
    (htarget : s.decodes = true → isBranchOrJump (RvPipeSim.cycle accessFault s).idInst = true →
      (RvPipeSim.cycle accessFault s).target ≠ s.PC + 4) :
    (RvPipeSim.cycle accessFault s).Doomed := by
  intro hspec
  cases henters : s.enters
  · obtain ⟨hif, hPC⟩ := front_of_not_enters hs hexc hbr henters
    rw [speculates, hif] at hspec
    have hdecodes : s.decodes = false := by rw [decodes, henters, Bool.false_and]
    rw [hif, hPC]
    cases hheld : (s.frozen || s.stalled)
    · -- ID moves on and takes a bubble
      obtain ⟨hz, hst⟩ := Bool.or_eq_false_iff.mp hheld
      have hpadding := idInst_of_not_decodes hs hz hexc hst hdecodes
      rw [hpadding.not_branch, if_neg Bool.false_ne_true]
      exact h.PC_ne hs ho hsync hfresh hz hst hspec
    · obtain ⟨-, hbr', htarget'⟩ := held_congr hs hexc hheld
      have hdoomed := h hspec
      rw [hbr', htarget']
      split
      · rename_i hbranch
        rw [if_pos hbranch] at hdoomed
        have hz : s.frozen = true := by
          rwa [hbr hbranch, Bool.or_false] at hheld
        have hnext : (RvPipeSim.cycle accessFault s).idInst.nextPC = s.idInst.nextPC := by
          rw [cycle_idInst_eq hs.shape hs.flow, idOut_of_frozen _ hz]
          exact forwardToID_nextPC _ _ _
        rw [hnext]
        exact hdoomed
      · rename_i hbranch
        rwa [if_neg hbranch] at hdoomed
  · cases hdecodes : s.decodes
    · exact Bool.noConfusion ((speculates_of_dropped hs henters hdecodes).symm.trans hspec)
    · obtain ⟨hspec', hif, hPC⟩ := front_of_decodes hs hdecodes
      have hbranch := hspec'.symm.trans hspec
      rw [if_pos hbranch, hif]
      exact ⟨hPC hbranch, htarget hdecodes hbranch⟩

/-! ### Hazards -/

/-- An instruction that touches registers or memory is legal and active. -/
theorem usable_of_not_inert {inst : Instruction} (hwf : inst.toDecodeInfo.WellFormed)
    (h : inst.IsPadding ∨ inst.status = .normal) (hinert : ¬ inst.toDecodeInfo.Inert) :
    inst.isLegal = true ∧ inst.active = true := by
  have hlegal : inst.isLegal = true := by
    by_contra hillegal
    exact hinert (hwf.illegal (Bool.not_eq_true _ ▸ hillegal)).2.2
  have hnop : inst.isNop = false := by
    by_contra hnop
    exact hinert (hwf.isNop (Bool.not_eq_false _ ▸ hnop)).2.2.1
  refine ⟨hlegal, ?_⟩
  rcases h with ⟨status, hpad⟩ | hnormal
  · rw [hpad] at hnop
    exact Bool.noConfusion hnop
  · rw [Instruction.active, hnop, hnormal]
    rfl

/-- For a load the tests of `isLoad` for a legal word and an active slot succeed. -/
theorem isLoad_eq {inst : Instruction} (hwf : inst.toDecodeInfo.WellFormed)
    (h : inst.IsPadding ∨ inst.status = .normal) : isLoad inst = inst.readsMem := by
  cases hreads : inst.readsMem
  · rw [isLoad, hreads]
    rfl
  · obtain ⟨hlegal, hactive⟩ := usable_of_not_inert hwf h fun hinert =>
      Bool.noConfusion (hinert.readsMem.symm.trans hreads)
    rw [isLoad, hreads, hlegal, hactive]
    rfl

/-- For a store the tests of `isStore` for a legal word and an active slot succeed. -/
theorem isStore_eq {inst : Instruction} (hwf : inst.toDecodeInfo.WellFormed)
    (h : inst.IsPadding ∨ inst.status = .normal) : isStore inst = inst.writesMem := by
  cases hwrites : inst.writesMem
  · rw [isStore, hwrites]
    rfl
  · obtain ⟨hlegal, hactive⟩ := usable_of_not_inert hwf h fun hinert =>
      Bool.noConfusion (hinert.writesMem.symm.trans hwrites)
    rw [isStore, hwrites, hlegal, hactive]
    rfl

/-- The hazard check sees the instructions in EX and ID as they were decoded. -/
theorem loadUse_eq (hs : Steady s) :
    s.loadUse = s.exInst.toDecodeInfo.loadUse s.idInst.toDecodeInfo := by
  rw [loadUse, isLoad_eq hs.shape.ex_wellFormed hs.unsquashed.ex,
    isStore_eq hs.shape.id_wellFormed hs.unsquashed.id, readsRs1From, readsRs2From,
    DecodeInfo.loadUse]
  cases s.exInst.readsMem
  · rfl
  · cases s.exInst.rd != 0 <;> simp

/-- A load that is used writes its register. -/
theorem writesREG_of_isLoad {inst : Instruction} (hwf : inst.toDecodeInfo.WellFormed)
    (hload : isLoad inst = true) (hrd : inst.rd ≠ 0) : writesREG inst = true := by
  rw [isLoad, Bool.and_eq_true, Bool.and_eq_true] at hload
  obtain ⟨⟨hreads, hlegal⟩, hactive⟩ := hload
  rw [writesREG, (hwf.load hreads).2.2.1, bne_iff_ne.mpr hrd, hlegal, hactive]
  rfl

end LoopState

section Hazards

variable {visited : List FunctMachine} {k : ℕ} {s : LoopState}

/-- If a branch in ID reads the register of the instruction in EX, that one writes and loads
nothing. -/
theorem InFlight.quiet (h : InFlight visited k s) (hs : Steady s)
    (hspaced : Apart FunctMachine.Feeds 2 visited) (hbr : isBranchOrJump s.idInst = true)
    (hreads : readsRs1From s.idInst s.exInst.rd = true ∨
      readsRs2From s.idInst s.exInst.rd = true) :
    writesREG s.exInst = false ∧ isLoad s.exInst = false := by
  obtain ⟨hfree1, hfree2⟩ := h.unfed_ex hs hspaced hbr
  rw [Instruction.forwards] at hfree1 hfree2
  obtain ⟨hrd, hnone⟩ : s.exInst.rd ≠ 0 ∧ writesREG s.exInst = false := by
    rcases hreads with hreads | hreads
    · rw [readsRs1From, Bool.and_eq_true, Bool.and_eq_true, beq_iff_eq] at hreads
      rw [hreads.1.1, hreads.1.2, beq_self_eq_true, Bool.and_true, Bool.true_and] at hfree1
      exact ⟨bne_iff_ne.mp hreads.2, hfree1⟩
    · rw [readsRs2From, Bool.and_eq_true, Bool.and_eq_true, beq_iff_eq] at hreads
      rw [hreads.1.1, hreads.1.2, beq_self_eq_true, Bool.and_true, Bool.true_and] at hfree2
      exact ⟨bne_iff_ne.mp hreads.2, hfree2⟩
  refine ⟨hnone, Bool.eq_false_iff.mpr fun hload => ?_⟩
  have hwrites := LoopState.writesREG_of_isLoad hs.shape.ex_wellFormed hload hrd
  exact Bool.noConfusion (hnone.symm.trans hwrites)

/-- A branch has no hazard. -/
theorem InFlight.hazard_of_branch (h : InFlight visited k s) (hs : Steady s)
    (hspaced : Apart FunctMachine.Feeds 2 visited) (hrem : s.remainingStallCycles = 0)
    (hbr : isBranchOrJump s.idInst = true) :
    s.hazard = ⟨false, 0, 0⟩ ∧ s.loadUse = false := by
  have hstore : isStore s.idInst = false := by
    by_contra hstore
    rw [Bool.not_eq_false, isStore, Bool.and_eq_true, Bool.and_eq_true] at hstore
    have hop := (hs.shape.id_wellFormed.store hstore.1.1).2.2.2.2.2
    exact Bool.noConfusion (hop.symm.trans (LoopState.active_of_branch hbr).2.2)
  rw [LoopState.hazard, detectHazard, hrem, if_neg (Nat.lt_irrefl 0), detectLoadHazard,
    LoopState.loadUse, hbr, hstore]
  by_cases hreads : readsRs1From s.idInst s.exInst.rd = true ∨
      readsRs2From s.idInst s.exInst.rd = true
  · obtain ⟨hnone, hload⟩ := h.quiet hs hspaced hbr hreads
    simp [hnone, hload]
  · rw [not_or, Bool.not_eq_true, Bool.not_eq_true] at hreads
    simp [hreads.1, hreads.2]

/-- **The only hazards are those of loads.** -/
theorem InFlight.hazard_eq (h : InFlight visited k s) (hs : Steady s)
    (hspaced : Apart FunctMachine.Feeds 2 visited) (hrem : s.remainingStallCycles = 0) :
    s.hazard = ⟨s.loadUse, 0, s.loadUse.toNat⟩ := by
  cases hbr : isBranchOrJump s.idInst
  · exact LoopState.hazard_of_no_branch hs hbr
  · obtain ⟨hhazard, hnone⟩ := h.hazard_of_branch hs hspaced hrem hbr
    rw [hhazard, hnone]
    rfl

/-- The instruction in ID is the last one decoded. -/
theorem InFlight.last_of_id (h : InFlight visited k s) (hid : s.idInst.padding = false) :
    (FunctMachine.decodeLog (visited.take k)).getLast? = some s.idInst.toDecodeInfo := by
  obtain ⟨older, hslots⟩ := h.slots
  have hrev : (FunctMachine.decodeLog (visited.take k)).reverse =
      s.decodedSlots ++ older := hslots.symm
  rw [List.getLast?_eq_head?_reverse, hrev, LoopState.decodedSlots,
    LoopState.slot_of_not_padding hid]
  rfl

end Hazards

/-! ### What a run has cost -/

section Meter

variable {fuel : ℕ} {m₀ m : FunctMachine} {visited : List LoopState} {s : LoopState}
  {q : Sequencer}

/-- What a cycle that decodes makes of the next instruction of the functional run. -/
theorem Guarded.decoding (h : FunctMachine.runTillHalt fuel m₀ = some (.halt, m))
    (hspaced : WellSpaced (FunctMachine.trace fuel m₀))
    (hguarded : Guarded fuel m₀ m visited s q) (hq : q.halted = false)
    (hdecodes : s.decodes = true) :
    s.ifInst.PC = q.PC ∧ s.PC = q.PC + 4 ∧
      (RvPipeSim.cycle accessFault s).idInst.toDecodeInfo = q.executed.toDecodeInfo ∧
      isBranchOrJump (RvPipeSim.cycle accessFault s).idInst = q.executed.branchOpcode ∧
      (q.executed.branchOpcode = true →
        (RvPipeSim.cycle accessFault s).target = q.executed.nextPC) := by
  have hs := hguarded.steady
  have ho := hguarded.operands
  have hflight := hguarded.inFlight hq
  have hahead := hguarded.ahead hq
  have hfresh := hflight.branchFresh hs hspaced.branches
  obtain ⟨hsync, hsim, hupcoming⟩ := hguarded.refines.of_not_halted hq
  obtain ⟨hz, hexc, hst, -⟩ := LoopState.moving_of_decodes hs hdecodes
  obtain ⟨hdecoded, hnormal, -⟩ := LoopState.idInst_of_decodes hs hdecodes
  obtain ⟨hPC, hfetch⟩ := Prod.mk.inj <|
    (LoopState.upcoming_of_decoding hs ho hsync hfresh hdecodes).symm.trans hupcoming
  have hfollow : q.fetchPC = q.PC + 4 := by
    cases hguarded.funct with
    | running _ _ hfollow => exact hfollow
    | halted hq' => exact Bool.noConfusion (hq.symm.trans hq')
  have hword := hflight.word_of_decodes hahead (fun _ => hPC) hdecodes
  have hdec := hflight.decoded hs hahead (fun _ => hPC) hdecodes
  have hlegal : q.executed.isLegal = true :=
    FunctMachine.isLegal_of_mem_trace h (List.mem_of_getElem? hahead)
  have hwf : q.executed.toDecodeInfo.WellFormed := hdec ▸ hdecoded.wellFormed
  refine ⟨hPC, hfetch.trans hfollow, hdec, ?_, fun hop => ?_⟩
  · have hparts : isBranchOrJump (RvPipeSim.cycle accessFault s).idInst =
        ((RvPipeSim.cycle accessFault s).idInst.branchOpcode &&
          (RvPipeSim.cycle accessFault s).idInst.isLegal &&
          (RvPipeSim.cycle accessFault s).idInst.active) := rfl
    rw [hparts, Instruction.active, hnormal, hdec, hlegal]
    cases hnop : q.executed.isNop
    · simp
    · rw [(hwf.isNop hnop).2.2.2]
      rfl
  · have hhalt : q.executed.isHalt = false := by
      by_contra hhalt
      rw [Bool.not_eq_false] at hhalt
      exact Bool.noConfusion (hop.symm.trans (hwf.halt hhalt).2.2.2)
    have hsame := LoopState.sameWord_of_decodes hs hdecodes hword
    have hregs := (LoopState.retireEX_cycle_of_moving hs ho hz hexc hst).regData.trans hsim.regData
    rw [q.executed_toDecodeInfo] at hhalt hlegal
    rw [LoopState.target, hregs, hsame.resolvedPC_eq, hPC]
    exact (simInstruction_nextPC hlegal hhalt).symm

/-- What has been counted when `k` instructions have been decoded: each cycle is on the books,
and the books are those of the functional run, but for loads whose users an instruction miss
has held back. -/
structure Metered (trace : List FunctMachine) (visited : List LoopState) (k : ℕ)
    (s : LoopState) : Prop where
  cycles : visited.length + s.idle.toNat = 1 + visited.countP (·.frozen) +
    visited.countP (·.bubbles) + visited.countP (·.starves) + visited.countP (·.squashes) + k
  squashed : visited.countP (·.squashes) + s.speculates.toNat =
    FunctMachine.branches (trace.take k)
  bubbled : visited.countP (·.bubbles) + s.loadUse.toNat ≤ FunctMachine.loadUses (trace.take k)
  /-- A load that has left ID alone has a bubble behind it. -/
  waited : FunctMachine.loadUses (trace.take k) + (s.idInst.slot.isEmpty &&
      (FunctMachine.decodeLog (trace.take k)).getLast?.any (·.readsMem)).toNat ≤
    visited.countP (·.bubbles) + visited.countP (·.starves) + s.loadUse.toNat
  fetched : fetchLog visited ++ (if s.speculates then [s.ifInst.PC] else []) =
    FunctMachine.fetches (trace.take k)
  first : s.idle = true → k = 0
  behind : s.speculates = true →
    (FunctMachine.decodeLog (trace.take k)).getLast?.any (·.readsMem) = false
  remaining : s.remainingStallCycles = 0
  doomed : s.Doomed

namespace LoopState

/-- Only the first fetch ends the idling. -/
theorem idle_cycle (hs : Steady s) (hexc : s.excepted = false) :
    (cycle accessFault s).idle = (s.idle && !s.enters) := by
  cases henters : s.enters
  · have hfetch := (refetched_eq_enters hs hexc).trans henters
    rw [idle, (cycle_of_not_refetched accessFault s hfetch).2, Bool.not_false, Bool.and_true,
      idle]
  · obtain ⟨-, PC, status, hstatus, hif⟩ :=
      cycle_of_refetched accessFault s ((refetched_eq_enters hs hexc).trans henters)
    rw [idle, hif, Bool.not_true, Bool.and_false]
    rcases hstatus with rfl | rfl <;> rfl

/-- Behind a bubble in EX no hazard is left. -/
theorem loadUse_of_no_load (hload : isLoad s.exInst = false) : s.loadUse = false := by
  rw [loadUse, hload, Bool.false_and]

/-- A bubble in ID uses nothing. -/
theorem loadUse_of_padding (hpadding : s.idInst.IsPadding) :
    s.loadUse = false := by
  obtain ⟨status, hnop⟩ := hpadding
  rw [loadUse, hnop]
  simp [readsRs1From, readsRs2From, nop]

end LoopState

section Step

variable (h : FunctMachine.runTillHalt fuel m₀ = some (.halt, m))
  (hspaced : WellSpaced (FunctMachine.trace fuel m₀))
  (hguarded : Guarded fuel m₀ m visited s q) (hq : q.halted = false)
  (hmeter : Metered (FunctMachine.trace fuel m₀) visited (visited.countP (·.decodes)) s)

include hspaced hguarded hq hmeter

/-- A branch is not stalled. -/
theorem Metered.unstalled (hbr : isBranchOrJump s.idInst = true) : s.stalled = false := by
  rw [LoopState.stalled, ((hguarded.inFlight hq).hazard_of_branch hguarded.steady
    hspaced.branches hmeter.remaining hbr).1]

/-- Where the branches are spaced, only load uses stall. -/
theorem Metered.stalled_eq : s.stalled = s.loadUse := by
  rw [LoopState.stalled, (hguarded.inFlight hq).hazard_eq hguarded.steady hspaced.branches
    hmeter.remaining]

/-- **Every speculative fetch is squashed**, and nothing else is. -/
theorem Metered.squashes_eq : s.squashes = (s.enters && s.speculates) := by
  have hs := hguarded.steady
  have hflight := hguarded.inFlight hq
  rw [LoopState.squashes]
  cases henters : s.enters
  · rfl
  · cases hspec : s.speculates
    · have hspec' : (s.ifInst.status == .speculative) = false := hspec
      rw [mispredicted, hspec']
      rfl
    · rw [hmeter.doomed.mispredicted hs hguarded.operands (hguarded.refines.of_not_halted hq).1
        (hflight.branchFresh hs hspaced.branches) henters hspec]

/-- What may enter ID is decoded, unless nothing has been fetched or it was fetched on
speculation. -/
theorem Metered.decodes_eq : s.decodes = (s.enters && !s.idle && !s.speculates) := by
  have hsquashes := hmeter.squashes_eq hspaced hguarded hq
  rw [LoopState.squashes] at hsquashes
  rw [LoopState.decodes]
  change (s.enters && !(s.idle || _)) = _
  cases henters : s.enters
  · rfl
  · rw [henters, Bool.true_and, Bool.true_and] at hsquashes
    rw [hsquashes, Bool.not_or, Bool.true_and, Bool.true_and]

/-- What is decoded was not fetched on speculation. -/
theorem Metered.speculates_of_decodes (hdecodes : s.decodes = true) : s.speculates = false := by
  have hboth := hmeter.decodes_eq hspaced hguarded hq
  rw [hdecodes] at hboth
  simpa using (Bool.and_eq_true_iff.mp hboth.symm).2

/-- If nothing is decoded although IF and ID move, the last instruction is no load. -/
theorem Metered.no_load_of_dropped (henters : s.enters = true) (hdecodes : s.decodes = false) :
    (FunctMachine.decodeLog ((FunctMachine.trace fuel m₀).take
      (visited.countP (·.decodes)))).getLast?.any (·.readsMem) = false := by
  have hnot := hmeter.decodes_eq hspaced hguarded hq
  rw [hdecodes, henters, Bool.true_and] at hnot
  cases hidle : s.idle
  · refine hmeter.behind ?_
    rw [hidle, Bool.not_false, Bool.true_and] at hnot
    simpa using hnot
  · rw [hmeter.first hidle]
    rfl

include h

/-- The next fetch is speculative behind a branch. -/
theorem Metered.speculates_cycle :
    (cycle accessFault s).speculates =
      if s.enters then s.decodes && q.executed.branchOpcode else s.speculates := by
  have hs := hguarded.steady
  have hexc := (hguarded.inFlight hq).not_excepted h hs
  cases henters : s.enters
  · rw [LoopState.speculates, (LoopState.front_of_not_enters hs hexc
      (hmeter.unstalled hspaced hguarded hq) henters).1]
    rfl
  · cases hdecodes : s.decodes
    · exact LoopState.speculates_of_dropped hs henters hdecodes
    · obtain ⟨-, -, -, hbranch, -⟩ := hguarded.decoding h hspaced hq hdecodes
      rw [(LoopState.front_of_decodes hs hdecodes).1, hbranch]
      rfl

omit hspaced in
/-- Every cycle is on the books. -/
theorem Metered.cycles_cycle :
    (visited ++ [s]).length + (cycle accessFault s).idle.toNat =
      1 + (visited ++ [s]).countP (·.frozen) + (visited ++ [s]).countP (·.bubbles) +
        (visited ++ [s]).countP (·.starves) + (visited ++ [s]).countP (·.squashes) +
        (visited.countP (·.decodes) + s.decodes.toNat) := by
  have hs := hguarded.steady
  have hexc := (hguarded.inFlight hq).not_excepted h hs
  have hspent := LoopState.spent_once hexc
  have hcycles := hmeter.cycles
  rw [List.length_append, List.length_singleton, LoopState.idle_cycle hs hexc,
    LoopState.countP_concat, LoopState.countP_concat, LoopState.countP_concat,
    LoopState.countP_concat]
  have hidle : (s.enters && s.idle).toNat + (s.idle && !s.enters).toNat = s.idle.toNat := by
    cases s.enters <;> cases s.idle <;> rfl
  omega

/-- The bubbles and the loads that are used keep up with each other. -/
theorem Metered.loadUses_cycle :
    (visited ++ [s]).countP (·.bubbles) + (cycle accessFault s).loadUse.toNat ≤
      FunctMachine.loadUses ((FunctMachine.trace fuel m₀).take
        (visited.countP (·.decodes) + s.decodes.toNat)) ∧
    FunctMachine.loadUses ((FunctMachine.trace fuel m₀).take
        (visited.countP (·.decodes) + s.decodes.toNat)) +
      ((cycle accessFault s).idInst.slot.isEmpty &&
        (FunctMachine.decodeLog ((FunctMachine.trace fuel m₀).take
          (visited.countP (·.decodes) + s.decodes.toNat))).getLast?.any (·.readsMem)).toNat ≤
      (visited ++ [s]).countP (·.bubbles) + (visited ++ [s]).countP (·.starves) +
        (cycle accessFault s).loadUse.toNat := by
  have hs := hguarded.steady
  have hflight := hguarded.inFlight hq
  have hexc := hflight.not_excepted h hs
  have hstall := hmeter.stalled_eq hspaced hguarded hq
  have hbubbled := hmeter.bubbled
  have hwaited := hmeter.waited
  rw [LoopState.countP_concat, LoopState.countP_concat]
  rcases LoopState.slots_cases hs hexc with
    ⟨hz, hdecodes, hid, -, -⟩ | ⟨hz, hst, hdecodes, hid, -, -⟩ | ⟨hz, hst, hid, -, -⟩
  · have hbubbles : s.bubbles = false := by rw [LoopState.bubbles, hz]; rfl
    have hstarves : s.starves = false := by rw [LoopState.starves, hz]; rfl
    rw [hbubbles, hstarves, hdecodes, hid, (LoopState.held_of_frozen hs hz).loadUse]
    exact ⟨hbubbled, hwaited⟩
  · -- the bubble that a load puts in front of its user
    have hbubbles : s.bubbles = true := by rw [LoopState.bubbles, hz, hexc, hst]; rfl
    have hstarves : s.starves = false := by rw [LoopState.starves, hz, hexc, hst]; rfl
    have hnone : (cycle accessFault s).loadUse = false := LoopState.loadUse_of_no_load (by
      rw [LoopState.cycle_exInst_eq hs.shape hs.flow, LoopState.exOut_of_stalled hz hexc hst]
      rfl)
    rw [← hstall, hst] at hbubbled hwaited
    rw [hbubbles, hstarves, hdecodes, hid, hnone]
    refine ⟨hbubbled, ?_⟩
    rw [Bool.toNat_false, Nat.add_zero, Nat.add_zero, Nat.add_right_comm]
    exact hwaited
  · have hbubbles : s.bubbles = false := by rw [LoopState.bubbles, hst, Bool.and_false]
    rw [← hstall, hst] at hbubbled hwaited
    cases hdecodes : s.decodes
    · have hnone : (cycle accessFault s).loadUse = false :=
        LoopState.loadUse_of_padding (LoopState.idInst_of_not_decodes hs hz hexc hst hdecodes)
      have hle := Bool.toNat_le ((cycle accessFault s).idInst.slot.isEmpty &&
        (FunctMachine.decodeLog ((FunctMachine.trace fuel m₀).take
          (visited.countP (·.decodes)))).getLast?.any (·.readsMem))
      rw [hbubbles, hnone, Bool.toNat_false, Nat.add_zero, Nat.add_zero]
      cases hsv : s.starved
      · have hlast := hmeter.no_load_of_dropped hspaced hguarded hq
          (LoopState.enters_iff.mpr ⟨hz, hexc, hst, hsv⟩) hdecodes
        rw [hlast, Bool.and_false]
        simp at hbubbled hwaited ⊢
        omega
      · have hstarves : s.starves = true := by
          rw [LoopState.starves, hz, hexc, hst, hsv]
          rfl
        rw [hstarves]
        simp at hbubbled hwaited ⊢
        omega
    · obtain ⟨-, -, hdec, -⟩ := hguarded.decoding h hspaced hq hdecodes
      obtain ⟨-, -, -, hsv, -⟩ := LoopState.moving_of_decodes hs hdecodes
      have hstarves : s.starves = false := by rw [LoopState.starves, hsv, Bool.and_false]
      have hex : (cycle accessFault s).exInst.toDecodeInfo = s.idInst.toDecodeInfo := by
        rw [LoopState.cycle_exInst_eq hs.shape hs.flow, LoopState.exOut_of_moving hz hexc hst]
        exact (simEX_toDecodeInfo _).trans s.idForwarded_toDecodeInfo
      have huse : (cycle accessFault s).loadUse =
          s.idInst.toDecodeInfo.loadUse q.executed.toDecodeInfo := by
        rw [LoopState.loadUse_eq hs.cycle, hex, hdec]
      rw [hdecodes, if_pos rfl] at hid
      rw [Bool.toNat_true, FunctMachine.loadUses_take_succ (hguarded.ahead hq), huse, hbubbles,
        hstarves, hid, List.isEmpty_cons, Bool.false_and]
      cases hpad : s.idInst.padding
      · -- the instruction in ID goes to EX, and is the one in front
        rw [hflight.last_of_id hpad, Option.any_some]
        rw [LoopState.slot_of_not_padding hpad] at hwaited
        simp at hbubbled hwaited ⊢
        omega
      · have hle := FunctMachine.any_loadUse_le (FunctMachine.decodeLog
          ((FunctMachine.trace fuel m₀).take (visited.countP (·.decodes)))).getLast?
          q.executed.toDecodeInfo
        have hpadding : s.idInst.IsPadding := hs.shape.idSlot.resolve_right fun hdecoded => by
          have hnumbered := hdecoded.numbered
          rw [Instruction.padding, ← Option.not_isSome, hnumbered] at hpad
          exact Bool.noConfusion hpad
        obtain ⟨status, hnop⟩ := hpadding
        have hnone : s.idInst.toDecodeInfo.loadUse q.executed.toDecodeInfo = false := by
          rw [hnop]
          rfl
        rw [Instruction.slot, hpad, if_pos rfl] at hwaited
        rw [hnone]
        simp at hbubbled hwaited ⊢
        omega

/-- Each branch has one fetch behind it squashed. -/
theorem Metered.squashed_cycle :
    (visited ++ [s]).countP (·.squashes) + (cycle accessFault s).speculates.toNat =
      FunctMachine.branches ((FunctMachine.trace fuel m₀).take
        (visited.countP (·.decodes) + s.decodes.toNat)) := by
  have hsquashed := hmeter.squashed
  rw [LoopState.countP_concat, hmeter.squashes_eq hspaced hguarded hq,
    hmeter.speculates_cycle h hspaced hguarded hq]
  have hdecodes := hmeter.decodes_eq hspaced hguarded hq
  cases henters : s.enters
  · rw [hdecodes, henters]
    exact hsquashed
  · cases hdec : s.decodes
    · rw [Bool.true_and, if_pos rfl, Bool.false_and]
      exact hsquashed
    · rw [hmeter.speculates_of_decodes hspaced hguarded hq hdec] at hsquashed ⊢
      rw [Bool.toNat_true, FunctMachine.branches_take_succ (hguarded.ahead hq), ← hsquashed]
      rfl

/-- The addresses fetched are those of the functional run. -/
theorem Metered.fetched_cycle :
    fetchLog (visited ++ [s]) ++ (if (cycle accessFault s).speculates then
        [(cycle accessFault s).ifInst.PC] else []) =
      FunctMachine.fetches ((FunctMachine.trace fuel m₀).take
        (visited.countP (·.decodes) + s.decodes.toNat)) := by
  have hs := hguarded.steady
  have hexc := (hguarded.inFlight hq).not_excepted h hs
  have hfetched := hmeter.fetched
  have hdecodes := hmeter.decodes_eq hspaced hguarded hq
  rw [fetchLog_concat, LoopState.refetched_eq_enters hs hexc,
    hmeter.speculates_cycle h hspaced hguarded hq]
  cases henters : s.enters
  · have hif := (LoopState.front_of_not_enters hs hexc
      (hmeter.unstalled hspaced hguarded hq) henters).1
    rw [henters, Bool.false_and, Bool.false_and] at hdecodes
    rw [hdecodes, hif, if_neg Bool.false_ne_true, if_neg Bool.false_ne_true, List.append_nil]
    exact hfetched
  · rw [if_pos rfl, if_pos rfl]
    cases hdec : s.decodes
    · -- nothing is fetched yet, or the fetch was speculative
      rw [Bool.false_and, if_neg Bool.false_ne_true, List.append_nil, Bool.toNat_false,
        Nat.add_zero, ← hfetched]
      rcases hs.shape.ifSlot with hnop | hfetch
      · have hspec : s.speculates = false := by rw [LoopState.speculates, hnop]; rfl
        have hnone : s.ifInst.lookupPC = none := by rw [hnop]; rfl
        rw [hspec, hnone]
        rfl
      · have hspec : s.speculates = true := by
          have hidle : s.idle = false := by
            rw [LoopState.idle]
            rcases hfetch.status with hst | hst <;> rw [hst] <;> rfl
          rw [hdec, henters, hidle] at hdecodes
          simpa using hdecodes
        rw [hspec, LoopState.lookupPC_of_fetched hfetch]
        rfl
    · obtain ⟨hPC, hnext, -, -, -⟩ := hguarded.decoding h hspaced hq hdec
      obtain ⟨-, -, -, -, -, hfetch⟩ := LoopState.moving_of_decodes hs hdec
      rw [hmeter.speculates_of_decodes hspaced hguarded hq hdec, if_neg Bool.false_ne_true,
        List.append_nil] at hfetched
      rw [Bool.toNat_true, FunctMachine.fetches_take_succ (hguarded.ahead hq),
        LoopState.lookupPC_of_fetched hfetch, hPC, (LoopState.front_of_decodes hs hdec).2.1, hnext,
        hfetched, Bool.true_and, List.append_assoc]
      rfl

/-- **One cycle** in front of the HALT. -/
theorem Metered.cycle :
    Metered (FunctMachine.trace fuel m₀) (visited ++ [s])
      (visited.countP (·.decodes) + s.decodes.toNat) (RvPipeSim.cycle accessFault s) := by
  have hs := hguarded.steady
  have ho := hguarded.operands
  have hflight := hguarded.inFlight hq
  have hexc := hflight.not_excepted h hs
  have hdecodes := hmeter.decodes_eq hspaced hguarded hq
  obtain ⟨hbubbled, hwaited⟩ := hmeter.loadUses_cycle h hspaced hguarded hq
  refine ⟨hmeter.cycles_cycle h hguarded hq, hmeter.squashed_cycle h hspaced hguarded hq, hbubbled,
    hwaited, hmeter.fetched_cycle h hspaced hguarded hq, fun hidle => ?_, fun hspec => ?_, ?_, ?_⟩
  · rw [LoopState.idle_cycle hs hexc, Bool.and_eq_true, Bool.not_eq_true'] at hidle
    rw [hdecodes, hidle.2, hmeter.first hidle.1]
    rfl
  · rw [hmeter.speculates_cycle h hspaced hguarded hq] at hspec
    cases henters : s.enters
    · rw [henters, if_neg Bool.false_ne_true] at hspec
      rw [hdecodes, henters]
      exact hmeter.behind hspec
    · rw [henters, if_pos rfl, Bool.and_eq_true] at hspec
      obtain ⟨hdec, hop⟩ := hspec
      obtain ⟨-, -, hsame, -⟩ := hguarded.decoding h hspaced hq hdec
      have hwf : q.executed.toDecodeInfo.WellFormed :=
        hsame ▸ (LoopState.idInst_of_decodes hs hdec).1.wellFormed
      rw [hdec, Bool.toNat_true, FunctMachine.decodeLog_take_succ (hguarded.ahead hq),
        List.getLast?_concat, Option.any_some]
      by_contra hreads
      rw [Bool.not_eq_false] at hreads
      exact Bool.noConfusion (hop.symm.trans (hwf.load hreads).2.2.2.2.2)
  · rw [LoopState.cycle_remainingStallCycles, hflight.hazard_eq hs hspaced.branches
      hmeter.remaining]
  · refine hmeter.doomed.cycle hs ho (hguarded.refines.of_not_halted hq).1
      (hflight.branchFresh hs hspaced.branches) hexc (hmeter.unstalled hspaced hguarded hq)
      fun hdec hbr => ?_
    obtain ⟨-, hnext, -, hbranch, htarget⟩ := hguarded.decoding h hspaced hq hdec
    have hop := hbranch.symm.trans hbr
    have hskips := hspaced.skipsNone q.toFunctMachine
      (List.mem_of_getElem? (hguarded.ahead hq)) hop
    rw [htarget hop, hnext, BitVec.add_assoc]
    exact hskips

end Step

/-! ### Behind the HALT -/

namespace LoopState

/-- A HALT in flight goes on in each cycle that is not frozen. -/
theorem haltDepth_cycle_eq (hs : Steady s) (hhalt : s.halts accessFault = false)
    (hfree : s.haltFree = false) :
    (cycle accessFault s).haltDepth = s.haltDepth + (!s.frozen).toNat := by
  rw [haltDepth, haltDepth, memInst_isHalt_cycle hs, exInst_isHalt_cycle hs]
  cases hz : s.frozen
  · have hmem : s.memInst.isHalt = false := (halts_eq accessFault hz).symm.trans hhalt
    rw [hmem, if_neg Bool.false_ne_true, if_neg Bool.false_ne_true]
    cases hex : s.exInst.isHalt
    · have hid : s.idInst.isHalt = true := by
        rw [haltFree, hmem, hex, Bool.or_self, Bool.false_or] at hfree
        simpa using hfree
      obtain ⟨hexc, hst⟩ := moving_of_halt hs hid
      rw [hexc, hst, hid]
      rfl
    · rfl
  · rfl

end LoopState

/-- What has been counted when a HALT is in flight. -/
structure Settled (trace : List FunctMachine) (iCacheConfig : CacheConfig)
    (visited : List LoopState) (s : LoopState) : Prop where
  lower : trace.length + 1 + FunctMachine.branches trace + FunctMachine.loadUses trace +
    visited.countP (·.frozen) + s.haltDepth ≤ visited.length
  upper : visited.length ≤ trace.length + 1 + FunctMachine.branches trace +
    FunctMachine.loadUses trace + visited.countP (·.frozen) + s.haltDepth +
    missCost iCacheConfig * FunctMachine.fetchMisses iCacheConfig trace

/-- Behind the HALT only freezes and the way of the HALT itself are counted. -/
theorem Settled.cycle {trace : List FunctMachine} {iCacheConfig : CacheConfig} (hs : Steady s)
    (hhalt : s.halts accessFault = false) (hfree : s.haltFree = false)
    (h : Settled trace iCacheConfig visited s) :
    Settled trace iCacheConfig (visited ++ [s]) (RvPipeSim.cycle accessFault s) := by
  have hdepth := LoopState.haltDepth_cycle_eq hs hhalt hfree
  have hone : s.frozen.toNat + (!s.frozen).toNat = 1 := by cases s.frozen <;> rfl
  obtain ⟨hlower, hupper⟩ := h
  constructor <;>
    (rw [List.length_append, List.length_singleton, LoopState.countP_concat, hdepth]; omega)

/-- **The HALT is decoded.** Then the books are those of the whole functional run, and only
the misses of the I-cache are not fixed by it. -/
theorem Metered.settled {iCacheConfig dCacheConfig : CacheConfig} {mem : MemoryStore}
    (h : FunctMachine.runTillHalt fuel m₀ = some (.halt, m))
    (hspaced : WellSpaced (FunctMachine.trace fuel m₀))
    (hguarded : Guarded fuel m₀ m visited s q) (hq : q.halted = false)
    (hmeter : Metered (FunctMachine.trace fuel m₀) visited (visited.countP (·.decodes)) s)
    (hrun : PipelineRun accessFault anyCycle iCacheConfig dCacheConfig mem visited s)
    (hfree' : (RvPipeSim.cycle accessFault s).haltFree = false) :
    Settled (FunctMachine.trace fuel m₀) iCacheConfig (visited ++ [s])
      (RvPipeSim.cycle accessFault s) := by
  have hs := hguarded.steady
  have hahead := hguarded.ahead hq
  have hexc := (hguarded.inFlight hq).not_excepted h hs
  have hfree : s.haltFree = true := by
    rw [← Bool.not_eq_false', ← hguarded.refines.halted_eq, hq]
  obtain ⟨hmem', hex'⟩ := Refines.not_halt_cycle hs hfree
  have hid' : (RvPipeSim.cycle accessFault s).idInst.isHalt = true := by
    rw [LoopState.haltFree, hmem', hex', Bool.or_self, Bool.false_or] at hfree'
    simpa using hfree'
  have hdecodes : s.decodes = true := by
    by_contra hdecodes
    rw [Bool.not_eq_true] at hdecodes
    have hid := Refines.idInst_not_halt hs hdecodes (Refines.haltFree_iff.mp hfree).2.2
    exact Bool.noConfusion (hid.symm.trans hid')
  have henters := (LoopState.decodes_iff.mp hdecodes).1
  have hinert := hs.cycle.shape.id_wellFormed.halt hid'
  obtain ⟨-, -, hdec, -, -⟩ := hguarded.decoding h hspaced hq hdecodes
  have hstop : q.executed.isHalt = true := hdec ▸ hid'
  -- the whole functional run has been decoded
  have hlast := length_le_of_halt h hahead hstop
  obtain ⟨hlt, -⟩ := List.getElem?_eq_some_iff.mp hahead
  have hnext := hmeter.cycle h hspaced hguarded hq
  rw [hdecodes, Bool.toNat_true] at hnext
  obtain ⟨hcycles, hsquashed, hbubbled, hwaited, hfetched, -⟩ := hnext
  rw [List.take_of_length_le hlast] at hsquashed hbubbled hwaited hfetched
  have hidle : (RvPipeSim.cycle accessFault s).idle = false := by
    rw [LoopState.idle_cycle hs hexc, henters, Bool.not_true, Bool.and_false]
  have hspec : (RvPipeSim.cycle accessFault s).speculates = false := by
    rw [hmeter.speculates_cycle h hspaced hguarded hq, if_pos henters, ← hdec, hinert.2.2.2,
      Bool.and_false]
  have huse : (RvPipeSim.cycle accessFault s).loadUse = false := by
    rw [LoopState.loadUse_eq hs.cycle, DecodeInfo.loadUse, hinert.2.2.1.readsRs1,
      hinert.2.2.1.readsRs2]
    simp
  have hdepth : (RvPipeSim.cycle accessFault s).haltDepth = 0 := by
    rw [LoopState.haltDepth, hmem', if_neg Bool.false_ne_true, hex', if_neg Bool.false_ne_true]
  rw [hspec, if_neg Bool.false_ne_true, List.append_nil] at hfetched
  rw [hidle, Bool.toNat_false, Nat.add_zero] at hcycles
  rw [hspec, Bool.toNat_false, Nat.add_zero] at hsquashed
  rw [huse, Bool.toNat_false, Nat.add_zero] at hbubbled hwaited
  -- the I-cache has been accessed for what has left IF
  obtain ⟨hstarted, hlooks⟩ := LoopState.looks_of_run hrun
  have hlooked := hlooks.of_refetched hs hstarted
    ((LoopState.refetched_eq_enters hs hexc).trans henters)
  have hmisses : (RvPipeSim.cycle accessFault s).iCache.misses =
      FunctMachine.fetchMisses iCacheConfig (FunctMachine.trace fuel m₀) := by
    rw [FunctMachine.fetchMisses, ← hfetched]
    have hcontents : (RvPipeSim.cycle accessFault s).iCache.contents.misses = _ :=
      congrArg Cache.misses hlooked.contents
    exact hcontents
  have hstarved := LoopState.starved_of_run (hrun.next trivial)
  have hsub := LoopState.countP_starves_le (visited ++ [s])
  rw [hmisses] at hstarved
  constructor
  · rw [hdepth]
    omega
  · rw [hdepth]
    omega

end Meter

/-! ### Runs -/

section Runs

variable {fuel : ℕ} {m : FunctMachine} {visited : List LoopState} {s : LoopState}

/-- Before the first cycle all books are empty. -/
theorem Metered.init (trace : List FunctMachine) (iCacheConfig dCacheConfig : CacheConfig)
    (mem : MemoryStore) :
    Metered trace [] 0 (enter (initSimulator iCacheConfig dCacheConfig mem)) where
  cycles := rfl
  squashed := rfl
  bubbled := Nat.zero_le _
  waited := Nat.le_refl _
  fetched := rfl
  first _ := rfl
  behind _ := rfl
  remaining := rfl
  doomed hspec := Bool.noConfusion hspec

/-- A guarded run with its books: the HALT is still to come, or they are settled. -/
structure Booked (fuel : ℕ) (mem : MemoryStore) (m : FunctMachine)
    (iCacheConfig dCacheConfig : CacheConfig) (visited : List LoopState) (s : LoopState)
    (q : Sequencer) : Prop extends Guarded fuel (.initSimulator mem) m visited s q where
  run : PipelineRun accessFault anyCycle iCacheConfig dCacheConfig mem visited s
  metered : q.halted = false → Metered (FunctMachine.trace fuel (.initSimulator mem)) visited
    (visited.countP (·.decodes)) s
  settled : q.halted = true →
    Settled (FunctMachine.trace fuel (.initSimulator mem)) iCacheConfig visited s

namespace Booked

variable {mem : MemoryStore} {iCacheConfig dCacheConfig : CacheConfig} {q : Sequencer}

/-- Entering `runCycles` again books nothing. -/
theorem reenter (hbooked : Booked fuel mem m iCacheConfig dCacheConfig visited s q) :
    Booked fuel mem m iCacheConfig dCacheConfig visited (RvPipeSim.reenter s) q where
  toGuarded := hbooked.toGuarded.reenter
  run := hbooked.run.resume
  metered hq :=
    have ⟨hcycles, hsquashed, hbubbled, hwaited, hfetched, hfirst, hbehind, hremaining, hdoomed⟩ :=
      hbooked.metered hq
    ⟨hcycles, hsquashed, hbubbled, hwaited, hfetched, hfirst, hbehind, hremaining, hdoomed⟩
  settled hq := ⟨(hbooked.settled hq).lower, (hbooked.settled hq).upper⟩

/-- **One cycle** on the books. -/
theorem cycle (h : FunctMachine.runTillHalt fuel (.initSimulator mem) = some (.halt, m))
    (hspaced : WellSpaced (FunctMachine.trace fuel (.initSimulator mem)))
    (hhalt : s.halts accessFault = false)
    (hbooked : Booked fuel mem m iCacheConfig dCacheConfig visited s q) :
    ∃ q', Booked fuel mem m iCacheConfig dCacheConfig (visited ++ [s])
      (RvPipeSim.cycle accessFault s) q' := by
  obtain ⟨q', hguarded'⟩ := hbooked.toGuarded.cycle h hspaced hhalt
  have hrun' := hbooked.run.next trivial
  cases hq : q.halted
  · refine ⟨q', hguarded', hrun', fun _ => ?_, fun hq' => ?_⟩
    · rw [LoopState.countP_concat]
      exact (hbooked.metered hq).cycle h hspaced hbooked.toGuarded hq
    · refine (hbooked.metered hq).settled h hspaced hbooked.toGuarded hq hbooked.run ?_
      rw [← Bool.not_eq_true', ← hguarded'.refines.halted_eq, hq']
  · have hfree : s.haltFree = false := by
      rw [← Bool.not_eq_true', ← hbooked.refines.halted_eq, hq]
    have hnext := hbooked.toPaced.cycle_of_halted
      (fun hfree' => Bool.noConfusion (hfree.symm.trans hfree')) hhalt hq
    have hq' : q'.halted = true := by
      rw [hguarded'.refines.halted_eq, ← hnext.refines.halted_eq, hq]
    exact ⟨q', hguarded', hrun', fun hno => Bool.noConfusion (hno.symm.trans hq'),
      fun _ => (hbooked.settled hq).cycle hbooked.steady hhalt hfree⟩

/-- **Every run keeps the books** until it halts. -/
theorem of_run (h : FunctMachine.runTillHalt fuel (.initSimulator mem) = some (.halt, m))
    (hspaced : WellSpaced (FunctMachine.trace fuel (.initSimulator mem)))
    (hrun : PipelineRun accessFault (fun t => t.halts accessFault = false) iCacheConfig
      dCacheConfig mem visited s) :
    ∃ q, Booked fuel mem m iCacheConfig dCacheConfig visited s q := by
  refine hrun.historical
    (fun visited s => ∃ q, Booked fuel mem m iCacheConfig dCacheConfig visited s q)
    ⟨_, .init iCacheConfig dCacheConfig h, .refl, fun _ => .init _ _ _ _,
      fun hq => Bool.noConfusion hq⟩ ?_ ?_
  · rintro visited s ⟨q, hbooked⟩ hhalt
    exact hbooked.cycle h hspaced hhalt
  · rintro visited s ⟨q, hbooked⟩
    exact ⟨q, hbooked.reenter⟩

end Booked

end Runs

end RvPipeSim
