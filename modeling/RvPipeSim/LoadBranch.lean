import RvPipeSim.Branches
import RvPipeSim.Timing

/-!
# A branch behind a load

The hazard check holds a branch behind a load it depends on for two cycles: it stalls the
branch at once and leaves `remainingStallCycles = 1` for the second cycle. The check and the
countdown run in every cycle, frozen ones included. So while a data miss holds the load in
EX, the counter alternates between 1 and 0, and if it is 1 when the pipeline thaws, or if
the load misses itself, one of the two cycles is spent while nothing moves: the branch
enters EX behind a single bubble, without having been resolved on the loaded value.

`EntersEX` follows the cycles until the branch enters EX and counts the bubbles.

## Main results

* `LoadBranch.enters` — one bubble or two;
* `load_branch_stalls_iff` — two, exactly if no miss spends one of the cycles.
-/

namespace RvPipeSim

open Simulator ObservedRun

namespace LoopState

/-- A load in EX writes a register that the branch or JALR in ID reads. -/
structure LoadBranch (s : LoopState) : Prop where
  load : isLoad s.exInst = true
  branch : isBranchOrJump s.idInst = true
  reads : (readsRs1From s.idInst s.exInst.rd || readsRs2From s.idInst s.exInst.rd) = true

/-- EX takes a bubble in this cycle. -/
def takesBubble (s : LoopState) : Bool := !s.frozen && !s.excepted && s.stalled

/-- In the cycle from `u` the branch in ID of `s` is resolved again on the result of the load
in EX of `s`. -/
structure ResolvedOnLoad (s u : LoopState) : Prop where
  load : u.memInst.seq = s.exInst.seq
  branch : u.idInst.seq = s.idInst.seq
  resolved : (cycle accessFault u).idInst = simNextPCResolution u.idForwarded
  op1Val : readsRs1From s.idInst s.exInst.rd = true → u.idForwarded.op1Val = u.memInst.memResult
  op2Val : readsRs2From s.idInst s.exInst.rd = true → u.idForwarded.op2Val = u.memInst.memResult

/-- `EntersEX n s cycles bubbles`: from `s` the instruction numbered `n` enters EX after
`cycles` cycles, in `bubbles` of which EX takes a bubble. -/
inductive EntersEX (n : ℕ) : LoopState → ℕ → ℕ → Prop
  | now {s : LoopState} {inst : Instruction} :
      s.exCall = some inst → inst.seq = some n → EntersEX n s 0 0
  | later {s : LoopState} {cycles bubbles : ℕ} :
      s.exCall = none → EntersEX n (cycle accessFault s) cycles bubbles →
        EntersEX n s (cycles + 1) (bubbles + s.takesBubble.toNat)

variable {s u t : LoopState} {n : ℕ}

/-- What the derivation says about the iterates. -/
theorem EntersEX.iterate {cycles bubbles : ℕ} (h : EntersEX n s cycles bubbles) :
    (∀ k < cycles, ((cycle accessFault)^[k] s).exCall = none) ∧
      (∃ inst, ((cycle accessFault)^[cycles] s).exCall = some inst ∧ inst.seq = some n) ∧
      (List.range cycles).countP (fun k => ((cycle accessFault)^[k] s).takesBubble) = bubbles := by
  induction h with
  | now hcall hn => exact ⟨fun k hk => absurd hk (Nat.not_lt_zero k), ⟨_, hcall, hn⟩, rfl⟩
  | @later s cycles bubbles hcall _ ih =>
      obtain ⟨hquiet, henters, hcount⟩ := ih
      refine ⟨fun k hk => ?_, ?_, ?_⟩
      · cases k with
        | zero => exact hcall
        | succ k => exact hquiet k (Nat.lt_of_succ_lt_succ hk)
      · exact henters
      · rw [List.range_succ_eq_map, List.countP_cons, List.countP_map]
        have hrest : (List.range cycles).countP
            ((fun k => ((cycle accessFault)^[k] s).takesBubble) ∘ Nat.succ) = bubbles := hcount
        rw [hrest, Function.iterate_zero, id_eq]
        cases s.takesBubble <;> rfl

/-- A frozen cycle hands nothing on and takes no bubble. -/
theorem EntersEX.of_frozen {cycles bubbles : ℕ} (hz : s.frozen = true)
    (h : EntersEX n (cycle accessFault s) cycles bubbles) :
    EntersEX n s (cycles + 1) bubbles := by
  have hcall : s.exCall = none := by rw [exCall, hz, Bool.true_or, Bool.true_or, if_pos rfl]
  have hbubble : s.takesBubble = false := by rw [takesBubble, hz]; rfl
  have hlater := EntersEX.later hcall h
  rwa [hbubble] at hlater

/-- A stalled cycle that moves takes a bubble. -/
theorem EntersEX.of_stalled {cycles bubbles : ℕ} (hz : s.frozen = false)
    (hexc : s.excepted = false) (hst : s.stalled = true)
    (h : EntersEX n (cycle accessFault s) cycles bubbles) :
    EntersEX n s (cycles + 1) (bubbles + 1) := by
  have hcall : s.exCall = none := by rw [exCall, hst, Bool.or_true, if_pos rfl]
  have hbubble : s.takesBubble = true := by rw [takesBubble, hz, hexc, hst]; rfl
  have hlater := EntersEX.later hcall h
  rwa [hbubble] at hlater

/-! ### The branch behind an empty EX -/

/-- A branch in ID whose hazard is over: EX is empty and no stall cycle is pending. -/
structure Unhindered (n : ℕ) (s : LoopState) : Prop where
  branch : isBranchOrJump s.idInst = true
  seq : s.idInst.seq = some n
  empty : s.exInst.active = false
  remaining : s.remainingStallCycles = 0

/-- An empty EX and no pending stall cycle leave nothing to stall for. -/
theorem Unhindered.stalled (h : Unhindered n s) : s.stalled = false :=
  stalled_of_ex_inactive h.empty h.remaining

/-- With EX empty, only a data miss delays the branch, and no bubble comes in. -/
theorem Unhindered.enters (hs : Steady s) (h : Unhindered n s) : EntersEX n s s.dataLeft 0 := by
  induction hleft : s.dataLeft generalizing s with
  | zero =>
      have hz : s.frozen = false := not_frozen_iff_dataLeft.mpr hleft
      have hcall : s.exCall = some s.idForwarded := by
        rw [exCall, hz, Flow.not_excepted_of_branch h.branch, h.stalled]
        rfl
      exact .now hcall (s.seq_idForwarded.trans h.seq)
  | succ left ih =>
      have hz : s.frozen = true := frozen_iff_dataLeft.mpr (by omega)
      have hheld := held_of_frozen hs hz
      have hnext : (cycle accessFault s).dataLeft + 1 = s.dataLeft :=
        dataLeft_cycle hs.shape hs.tracked hz
      refine .of_frozen hz (ih hs.cycle ?_ (by omega))
      refine ⟨hheld.branch.trans h.branch, hheld.seq.trans h.seq, hheld.ex ▸ h.empty, ?_⟩
      rw [cycle_remainingStallCycles, remaining_of_not_stalled hs.shape h.stalled]

/-! ### The branch behind the load -/

/-- The hazard stalls the branch in every cycle, and the counter alternates. -/
theorem LoadBranch.hazard (h : LoadBranch s) (hshape : Shape s) :
    s.stalled = true ∧
      s.hazard.remainingStallCycles + s.remainingStallCycles = 1 := by
  have hload : detectLoadHazard s.exInst s.idInst = ⟨true, 1, 1⟩ := by
    have hnostore : isStore s.idInst = false := by
      rw [isStore, writesMem_of_branch hshape h.branch, Bool.false_and, Bool.false_and]
    rw [detectLoadHazard, if_pos h.load, hnostore, if_neg Bool.false_ne_true, if_pos h.branch,
      if_pos h.reads]
  by_cases hrem : 0 < s.remainingStallCycles
  · have hone := (hshape.pending hrem).1
    rw [LoopState.stalled, LoopState.hazard, detectHazard, if_pos hrem]
    exact ⟨rfl, by dsimp only; omega⟩
  · have hhaz : s.hazard = ⟨true, 1, 1⟩ := by
      rw [LoopState.hazard, detectHazard, if_neg hrem, hload]
      rfl
    rw [LoopState.stalled, hhaz]
    exact ⟨rfl, by dsimp only; omega⟩

/-- A freeze keeps the load and the branch where they are. -/
theorem LoadBranch.of_held (h : LoadBranch s) (hheld : Held s t) : LoadBranch t := by
  refine ⟨hheld.ex ▸ h.load, hheld.branch.trans h.branch, ?_⟩
  rw [hheld.ex, (hheld.reads _).1, (hheld.reads _).2]
  exact h.reads

/-- What the thaw makes of the two: the load in MEM, a bubble in EX, and the branch, resolved
once, in ID. -/
structure LoadInMEM (s u : LoopState) : Prop where
  load : u.memInst.seq = s.exInst.seq
  loads : isLoad u.memInst = true
  rd : u.memInst.rd = s.exInst.rd
  bubble : u.exInst = nop .bubble
  branch : isBranchOrJump u.idInst = true
  seq : u.idInst.seq = s.idInst.seq
  decode : u.idInst.toDecodeInfo = s.idInst.toDecodeInfo
  remaining : u.remainingStallCycles + s.remainingStallCycles = 1

/-- The cycle that thaws moves the load to MEM and stalls the branch behind a bubble. -/
theorem LoadBranch.thaw (h : LoadBranch s) (hs : Steady s) (hz : s.frozen = false) :
    LoadInMEM s (cycle accessFault s) := by
  obtain ⟨hst, hrem⟩ := h.hazard hs.shape
  have hexc := Flow.not_excepted_of_branch h.branch
  have hid : (cycle accessFault s).idInst = simNextPCResolution s.idForwarded :=
    (fetch_of_stalled_branch hs.shape hs.flow hexc hz hst h.branch).2.1
  have hmem : (cycle accessFault s).memInst =
      (s.simAfterWB.simMEM accessFault s.exForwarded).1 := by
    rw [cycle_memInst_eq hs.shape hs.flow, memOut_of_not_frozen accessFault hz]
  have hdec : (cycle accessFault s).memInst.toDecodeInfo = s.exInst.toDecodeInfo := by
    rw [hmem, simMEM_toDecodeInfo]
    rfl
  have hactive : (cycle accessFault s).memInst.active = s.exInst.active := by
    rw [hmem, simMEM_active]
    rfl
  exact {
    load := by
      rw [hmem, simMEM_toFetchInfo]
      rfl
    loads := by
      rw [isLoad, hdec, hactive]
      exact h.load
    rd := congrArg DecodeInfo.rd hdec
    bubble := by rw [cycle_exInst_eq hs.shape hs.flow, exOut_of_stalled hz hexc hst]
    branch := by
      rw [hid]
      exact s.idForwarded_branch.trans h.branch
    seq := by
      rw [hid, simNextPCResolution_toFetchInfo]
      exact s.seq_idForwarded
    decode := by
      rw [hid]
      exact s.idForwarded_toDecodeInfo
    remaining := by rw [cycle_remainingStallCycles, hrem] }

/-- A cycle in which the branch stalls with the load in MEM resolves it on the loaded
value. -/
theorem LoadInMEM.resolved (h : LoadInMEM s u) (hlb : LoadBranch s) (hu : Steady u)
    (hz : u.frozen = false) (hst : u.stalled = true) : ResolvedOnLoad s u := by
  have hexc := Flow.not_excepted_of_branch h.branch
  have hwrites : writesREG u.memInst = true := by
    have hload := h.loads
    rw [isLoad, Bool.and_eq_true, Bool.and_eq_true] at hload
    have hrd : s.exInst.rd ≠ 0 := by
      intro hzero
      have hreads := hlb.reads
      rw [readsRs1From, readsRs2From, hzero] at hreads
      simp at hreads
    rw [writesREG, (hu.shape.mem_wellFormed.load hload.1.1).2.2.1, h.rd, hload.1.2, hload.2]
    simpa using hrd
  have hvalue : ∀ r value, s.exInst.rd = r → u.forwardedValue r value = u.memInst.memResult := by
    intro r value hr
    have hex : u.exInst.forwards r = false := by rw [h.bubble]; rfl
    have hmem : u.memInst.forwards r = true := by
      rw [Instruction.forwards, hwrites, h.rd, hr, beq_self_eq_true]
      rfl
    rw [forwardedValue, hex, hmem, if_neg Bool.false_ne_true, if_pos rfl, forwardValue,
      if_pos h.loads]
  exact {
    load := h.load
    branch := h.seq
    resolved := (fetch_of_stalled_branch hu.shape hu.flow hexc hz hst h.branch).2.1
    op1Val := fun hreads => by
      rw [readsRs1From, Bool.and_eq_true, Bool.and_eq_true, beq_iff_eq] at hreads
      rw [idForwarded_op1Val, h.decode, if_pos hreads.1.1, hvalue _ _ hreads.1.2.symm]
    op2Val := fun hreads => by
      rw [readsRs2From, Bool.and_eq_true, Bool.and_eq_true, beq_iff_eq] at hreads
      rw [idForwarded_op2Val, h.decode, if_pos hreads.1.1, hvalue _ _ hreads.1.2.symm] }

/-- The stall cycles are both taken by a moving pipeline: the check is fresh when the freeze
ends, and the load does not miss. -/
def Undisturbed (s : LoopState) : Prop :=
  (s.remainingStallCycles + s.dataLeft) % 2 = 0 ∧ s.exMisses = false

instance (s : LoopState) : Decidable s.Undisturbed :=
  inferInstanceAs (Decidable (_ ∧ _))

/-- Behind the load in MEM the branch takes a second bubble exactly if the stall cycle that is
left over falls into a cycle that moves. -/
theorem LoadInMEM.enters (h : LoadInMEM s u) (hlb : LoadBranch s) (hu : Steady u)
    (hn : s.idInst.seq = some n) :
    ∃ cycles, EntersEX n u cycles
        (if s.remainingStallCycles = 0 ∧ u.dataLeft = 0 then 1 else 0) ∧
      (s.remainingStallCycles = 0 ∧ u.dataLeft = 0 →
        0 < cycles ∧ ResolvedOnLoad s u) := by
  have hrem := h.remaining
  have hseq : u.idInst.seq = some n := h.seq.trans hn
  have hempty : u.exInst.active = false := by rw [h.bubble]; rfl
  by_cases hzero : s.remainingStallCycles = 0
  · -- one stall cycle is pending, and is taken now
    have hone : u.remainingStallCycles = 1 := by omega
    have hhaz : u.hazard = ⟨true, 0, 0⟩ := by
      rw [hazard, detectHazard, hone, if_pos (by omega)]
    have hst : u.stalled = true := by rw [stalled, hhaz]
    have hrem' : (cycle accessFault u).remainingStallCycles = 0 := by
      rw [cycle_remainingStallCycles, hhaz]
    have hexc := Flow.not_excepted_of_branch h.branch
    by_cases hleft : u.dataLeft = 0
    · have hz : u.frozen = false := not_frozen_iff_dataLeft.mpr hleft
      have hid := (fetch_of_stalled_branch hu.shape hu.flow hexc hz hst h.branch).2.1
      have hnext : Unhindered n (cycle accessFault u) := by
        refine ⟨?_, ?_, ?_, hrem'⟩
        · rw [hid]
          exact u.idForwarded_branch.trans h.branch
        · rw [hid, simNextPCResolution_toFetchInfo]
          exact u.seq_idForwarded.trans hseq
        · rw [cycle_exInst_eq hu.shape hu.flow, exOut_of_stalled hz hexc hst]
          rfl
      have henters := EntersEX.of_stalled hz hexc hst (hnext.enters hu.cycle)
      exact ⟨_, by rwa [if_pos ⟨hzero, hleft⟩], fun _ =>
        ⟨Nat.succ_pos _, h.resolved hlb hu hz hst⟩⟩
    · have hz : u.frozen = true := frozen_iff_dataLeft.mpr (Nat.pos_of_ne_zero hleft)
      have hheld := held_of_frozen hu hz
      have hnext : Unhindered n (cycle accessFault u) :=
        ⟨hheld.branch.trans h.branch, hheld.seq.trans hseq, hheld.ex ▸ hempty, hrem'⟩
      have henters := EntersEX.of_frozen hz (hnext.enters hu.cycle)
      exact ⟨_, by rwa [if_neg fun hboth => hleft hboth.2], fun hboth => absurd hboth.2 hleft⟩
  · have hnext : Unhindered n u := ⟨h.branch, hseq, hempty, by omega⟩
    have henters := hnext.enters hu
    exact ⟨_, by rwa [if_neg fun hboth => hzero hboth.1], fun hboth => absurd hboth.1 hzero⟩

/-- What is held is the same load and the same branch. -/
theorem ResolvedOnLoad.of_held (hheld : Held s t) (h : ResolvedOnLoad t u) :
    ResolvedOnLoad s u := by
  have hop1 := h.op1Val
  have hop2 := h.op2Val
  rw [(hheld.reads _).1, hheld.ex] at hop1
  rw [(hheld.reads _).2, hheld.ex] at hop2
  exact ⟨h.load.trans (congrArg (fun i : Instruction => i.seq) hheld.ex),
    h.branch.trans hheld.seq, h.resolved, hop1, hop2⟩

/-- **The bubbles between a load and a branch.** Two, with a resolution on the loaded value,
if the stall cycles are undisturbed, and else one. -/
theorem LoadBranch.enters (h : LoadBranch s) (hs : Steady s) (hn : s.idInst.seq = some n) :
    ∃ cycles, EntersEX n s cycles (if s.Undisturbed then 2 else 1) ∧
      (s.Undisturbed → ∃ k < cycles, ResolvedOnLoad s ((cycle accessFault)^[k] s)) := by
  induction hleft : s.dataLeft generalizing s with
  | zero =>
      have hz : s.frozen = false := not_frozen_iff_dataLeft.mpr hleft
      have hthaw := h.thaw hs hz
      have hrem := hthaw.remaining
      have hundisturbed : s.Undisturbed ↔
          s.remainingStallCycles = 0 ∧ (cycle accessFault s).dataLeft = 0 := by
        rw [Undisturbed, hleft, dataLeft_cycle_of_moving hs hz]
        cases s.exMisses
        · simp
          omega
        · simp
      obtain ⟨cycles, henters, hresolved⟩ := hthaw.enters h hs.cycle hn
      have hlater := EntersEX.of_stalled hz (Flow.not_excepted_of_branch h.branch)
        (h.hazard hs.shape).1 henters
      refine ⟨cycles + 1, ?_, fun hu => ?_⟩
      · by_cases hu : s.Undisturbed
        · rw [if_pos (hundisturbed.mp hu)] at hlater
          rw [if_pos hu]
          exact hlater
        · rw [if_neg (mt hundisturbed.mpr hu)] at hlater
          rw [if_neg hu]
          exact hlater
      · obtain ⟨hpos, hres⟩ := hresolved (hundisturbed.mp hu)
        exact ⟨1, Nat.succ_lt_succ hpos, hres⟩
  | succ left ih =>
      have hz : s.frozen = true := frozen_iff_dataLeft.mpr (by omega)
      have hheld := held_of_frozen hs hz
      have hnext : (cycle accessFault s).dataLeft + 1 = s.dataLeft :=
        dataLeft_cycle hs.shape hs.tracked hz
      have hrem := (h.hazard hs.shape).2
      have hsame : (cycle accessFault s).Undisturbed ↔ s.Undisturbed := by
        rw [Undisturbed, Undisturbed, exMisses_cycle_of_frozen hs hz, cycle_remainingStallCycles]
        exact and_congr_left fun _ => by omega
      obtain ⟨cycles, henters, hresolved⟩ :=
        ih (h.of_held hheld) hs.cycle (hheld.seq.trans hn) (by omega)
      rw [if_congr hsame rfl rfl] at henters
      refine ⟨cycles + 1, .of_frozen hz henters, fun hu => ?_⟩
      obtain ⟨k, hk, hres⟩ := hresolved (hsame.mpr hu)
      exact ⟨k + 1, Nat.succ_lt_succ hk, hres.of_held hheld⟩

/-! ### Runs -/

/-- Whether EX takes a bubble is seen alike. -/
theorem takesBubble_reenter (s : LoopState) : (reenter s).takesBubble = s.takesBubble := by
  rw [takesBubble, frozen_reenter]
  rfl

/-- The resolution is seen in the run as in the iterates. -/
theorem resolvedOnLoad_congr (h : ResolvedOnLoad s u) (heq : reenter t = reenter u) :
    ResolvedOnLoad s t := by
  have hpipe : t.pipelineInfo = u.pipelineInfo :=
    congr_reenter (f := fun v => v.pipelineInfo) (fun _ => rfl) heq
  have hnext : (cycle accessFault t).pipelineInfo = (cycle accessFault u).pipelineInfo :=
    congr_reenter (f := fun v => (cycle accessFault v).pipelineInfo) pipelineInfo_cycle_reenter heq
  have hforward : t.idForwarded = u.idForwarded := congr_reenter idForwarded_reenter heq
  refine ⟨?_, ?_, ?_, ?_, ?_⟩
  · rw [memInst, hpipe]
    exact h.load
  · rw [idInst, hpipe]
    exact h.branch
  · rw [idInst, hnext, hforward]
    exact h.resolved
  · rw [memInst, hpipe, hforward]
    exact h.op1Val
  · rw [memInst, hpipe, hforward]
    exact h.op2Val

/-- An instruction enters EX once. -/
theorem exCall_once {iCacheConfig dCacheConfig : CacheConfig} {mem : MemoryStore}
    {visited visited' : List LoopState}
    (h : PipelineRun accessFault anyCycle iCacheConfig dCacheConfig mem visited s)
    (hrun : RunFrom accessFault anyCycle s visited' t) (hu : u ∈ visited') {i j : Instruction}
    (hcall : u.exCall = some i) (hi : i.seq = some n) (hcall' : t.exCall = some j)
    (hj : j.seq = some n) : False := by
  have hall := h.trans hrun
  obtain ⟨hst, hvisited⟩ := Steady.of_run hall
  have hnumber : ∀ v : LoopState, Steady v → ∀ k, v.exCall = some k → k.seq = some n →
      v.idInst.number = some n ∧ v.callNumber .simEX = some n := by
    intro v hv k hk hkn
    obtain ⟨hz, hexc, hstall, rfl⟩ := exCall_eq_some hk
    have hid : v.idInst.number = some n :=
      (live_of_unsquashed number_nop hv.unsquashed.id).trans (v.seq_idForwarded.symm.trans hkn)
    refine ⟨hid, ?_⟩
    rw [callNumber, call, callLabel_exCall, hz, hexc, hstall]
    exact hid
  have hlog : n ∈ callLog (visited ++ visited') .simEX :=
    List.mem_filterMap.mpr ⟨u, List.mem_append_right _ hu,
      (hnumber u (hvisited u (List.mem_append_right _ hu)) i hcall hi).2⟩
  have hsorted := ((InOrder.of_run hall).sorted .simEX)
  exact Nat.lt_irrefl n ((List.pairwise_append.mp hsorted).2.2 n hlog n
    (by simp [upstream, (hnumber t hst j hcall' hj).1]))

end LoopState

/-- **A branch behind a load waits two cycles exactly if no miss spends them.** Where a load
is in EX and a branch that depends on it in ID, the branch enters EX later. In every run it
does so behind exactly two bubbles, having been resolved again on the loaded value, if and
only if the frozen cycles to come and `remainingStallCycles` sum to an even number and the
load itself does not miss. -/
theorem load_branch_stalls_iff {iCacheConfig dCacheConfig : CacheConfig} {mem : MemoryStore}
    {visited : List LoopState} {s : LoopState}
    (h : PipelineRun accessFault anyCycle iCacheConfig dCacheConfig mem visited s)
    (hlb : s.LoadBranch) {n : ℕ} (hn : s.idInst.seq = some n) :
    (∃ visited' t inst, RunFrom accessFault anyCycle s visited' t ∧ t.exCall = some inst ∧
        inst.seq = some n) ∧
      ((∀ visited' t inst, RunFrom accessFault anyCycle s visited' t → t.exCall = some inst →
          inst.seq = some n →
          visited'.countP LoopState.takesBubble = 2 ∧
            ∃ u ∈ visited', s.ResolvedOnLoad u) ↔
        (s.remainingStallCycles + s.dataLeft) % 2 = 0 ∧ s.exMisses = false) := by
  obtain ⟨cycles, henters, hresolved⟩ := hlb.enters (Steady.of_run h).1 hn
  obtain ⟨hquiet, ⟨inst, hcall, hinst⟩, hcount⟩ := henters.iterate
  refine ⟨⟨_, _, inst, run_iterate fun _ _ => trivial, hcall, hinst⟩, fun hall => ?_,
    fun hcond => ?_⟩
  · have htwo := (hall _ _ inst (run_iterate fun _ _ => trivial) hcall hinst).1
    rw [List.countP_map] at htwo
    have hbubbles := hcount.symm.trans htwo
    by_contra hcond
    have hdisturbed : ¬ s.Undisturbed := hcond
    rw [if_neg hdisturbed] at hbubbles
    exact absurd hbubbles (by omega)
  · intro visited' t inst' hrun hcall' hinst'
    have hnow : ((cycle accessFault)^[visited'.length] s).exCall = some inst' :=
      (LoopState.congr_reenter LoopState.exCall_reenter (LoopState.run_eq_iterate hrun)).symm.trans
        hcall'
    have hlength : visited'.length = cycles := by
      rcases Nat.lt_trichotomy visited'.length cycles with hlt | heq | hgt
      · rw [hquiet _ hlt] at hnow
        exact absurd hnow (by simp)
      · exact heq
      · obtain ⟨u, hu, heq⟩ := LoopState.exists_visited hrun hgt
        exact (LoopState.exCall_once h hrun hu
          ((LoopState.congr_reenter LoopState.exCall_reenter heq).trans hcall) hinst hcall'
          hinst').elim
    refine ⟨?_, ?_⟩
    · rw [LoopState.countP_visited LoopState.takesBubble_reenter hrun, hlength]
      exact hcount.trans (if_pos (c := s.Undisturbed) hcond)
    · obtain ⟨k, hk, hres⟩ := hresolved hcond
      obtain ⟨u, hu, heq⟩ := LoopState.exists_visited hrun (hlength ▸ hk)
      exact ⟨u, hu, LoopState.resolvedOnLoad_congr hres heq⟩

/-- `lw x1, 256(x0); beq x1, x0, +16` on a cold D-cache: the miss of the load spends the
second stall cycle, and the branch enters EX behind one bubble, taken although the word
loaded is not 0. -/
theorem load_branch_one_bubble :
    ∃ visited s n visited' t inst,
      PipelineRun accessFault anyCycle (.oneBlock 64) (.oneBlock 64)
        (.image fun | 0 => 0x10002083 | 1 => 0x00008863 | _ => 0x00000013) visited s ∧
      s.LoadBranch ∧ s.idInst.seq = some n ∧
      RunFrom accessFault anyCycle s visited' t ∧ t.exCall = some inst ∧ inst.seq = some n ∧
      visited'.countP LoopState.takesBubble = 1 ∧
      inst.nextPC ≠ (simNextPCResolution inst).nextPC := by
  refine ⟨_, _, 1, _, _, _, run_iterate (n := 4) fun _ _ => trivial, ⟨?_, ?_, ?_⟩, ?_,
    run_iterate (n := 2) fun _ _ => trivial, if_neg ?_, ?_, ?_, ?_⟩
  · decide +kernel
  · decide +kernel
  · decide +kernel
  · decide +kernel
  · decide +kernel
  · decide +kernel
  · decide +kernel
  · decide +kernel

/-- The same behind a load that hits: `lw x2, 256(x0)` has brought the block in. -/
theorem load_branch_two_bubbles :
    let s := (cycle accessFault)^[9] (enter (initSimulator (.oneBlock 64) (.oneBlock 64)
      (.image fun | 0 => 0x10002103 | 4 => 0x10402083 | 5 => 0x00008863 | _ => 0x00000013)))
    ∀ visited' t inst, RunFrom accessFault anyCycle s visited' t → t.exCall = some inst →
      inst.seq = some 5 →
      visited'.countP LoopState.takesBubble = 2 ∧ ∃ u ∈ visited', s.ResolvedOnLoad u := by
  intro s
  have hrun : PipelineRun accessFault anyCycle (.oneBlock 64) (.oneBlock 64)
      (.image fun | 0 => 0x10002103 | 4 => 0x10402083 | 5 => 0x00008863 | _ => 0x00000013) _ s :=
    run_iterate (n := 9) fun _ _ => trivial
  have hlb : s.LoadBranch := ⟨by decide +kernel, by decide +kernel, by decide +kernel⟩
  exact (load_branch_stalls_iff hrun hlb (n := 5) (by decide +kernel)).2.mpr
    ⟨by decide +kernel, by decide +kernel⟩

end RvPipeSim
