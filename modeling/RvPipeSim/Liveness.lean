import RvPipeSim.CycleAccounting
import RvPipeSim.Refinement

/-!
# The pipeline does not deadlock

Data misses, instruction misses, hazards, redirects and squashed fetches all keep ID from
decoding, and they overlap. `progressRank` bounds how long: it adds up

* `fetchRank`, what IF may still wait for the I-cache, twice if the instruction in IF may be
  squashed, and the cycle that squashes it;
* `dataRank`, what MEM may still wait for the D-cache, and a miss each for the instructions
  in EX and ID;
* `stallRank`, the hazard stalls of the instruction in ID.

Every cycle in which ID decodes nothing lowers the rank (`progressRank_cycle`), whatever
keeps ID from it, so ID decodes in every window of `progressBound` cycles
(`decodes_within`).
-/

namespace RvPipeSim

open Simulator ObservedRun

namespace LoopState

variable {s : LoopState}

/-! ### The ranks -/

/-- The I-cache access of the instruction in IF is on record. -/
def lookedUp (s : LoopState) : Bool := (detect s).prevICPC == s.ifInst.PC

/-- The cycles the instruction in IF may still wait for the I-cache. -/
def fetchLeft (s : LoopState) : ℕ :=
  if s.lookedUp then s.instLeft else missCost s.iCache.config

/-- The cycles until ID has an instruction to take from IF. -/
def fetchRank (s : LoopState) : ℕ :=
  if s.excepted then 2 * missCost s.iCache.config + 1
  else if s.ifInst.status == .normal then s.fetchLeft
  else missCost s.iCache.config + 1 + s.fetchLeft

/-- The cycles the instructions in MEM, EX and ID may wait for the D-cache. -/
def dataRank (s : LoopState) : ℕ :=
  s.dataLeft + missCost s.dCache.config * (s.exInst.active.toNat + s.idInst.active.toNat)

/-- The stalled cycles the instruction in ID may still see. -/
def stallRank (s : LoopState) : ℕ :=
  if s.idInst.active then if s.exInst.active then 2 else s.remainingStallCycles else 0

/-- The cycles until ID decodes an instruction. -/
def progressRank (s : LoopState) : ℕ := s.fetchRank + s.dataRank + s.stallRank

/-- A bound on the rank. -/
def progressBound (iCacheConfig dCacheConfig : CacheConfig) : ℕ :=
  2 * missCost iCacheConfig + 3 * missCost dCacheConfig + 3

/-! ### Bounds -/

/-- An instruction miss is over within its cost. -/
theorem instLeft_le (s : LoopState) : s.instLeft ≤ missCost s.iCache.config := by
  rw [instLeft, missCost]
  split
  · exact Nat.succ_le_succ (Nat.sub_le _ _)
  · exact Nat.zero_le _

/-- A data miss is over within its cost. -/
theorem dataLeft_le (s : LoopState) : s.dataLeft ≤ missCost s.dCache.config := by
  rw [dataLeft, missCost]
  split
  · exact Nat.succ_le_succ (Nat.sub_le _ _)
  · exact Nat.zero_le _

/-- One access of the I-cache misses at most once. -/
theorem fetchLeft_le (s : LoopState) : s.fetchLeft ≤ missCost s.iCache.config := by
  rw [fetchLeft]
  split
  · exact instLeft_le s
  · exact Nat.le_refl _

/-- ID waits for at most two fetches: that of a squashed word, and the next one. -/
theorem fetchRank_le (s : LoopState) : s.fetchRank ≤ 2 * missCost s.iCache.config + 1 := by
  have hle := fetchLeft_le s
  rw [fetchRank]
  split_ifs <;> omega

/-- Each of the three instructions in flight misses at most once. -/
theorem dataRank_le (s : LoopState) : s.dataRank ≤ 3 * missCost s.dCache.config := by
  have hle := dataLeft_le s
  rw [dataRank]
  cases s.exInst.active <;> cases s.idInst.active <;> simp <;> omega

/-- An instruction in ID is stalled for at most two cycles. -/
theorem stallRank_le (hs : Steady s) : s.stallRank ≤ 2 := by
  have hpending := hs.shape.pending
  rw [stallRank]
  split_ifs
  · omega
  · by_cases hpos : 0 < s.remainingStallCycles
    · rw [(hpending hpos).1]
      omega
    · omega
  · omega

/-- The rank has a bound that depends on the configurations only. -/
theorem progressRank_le (hs : Steady s) :
    s.progressRank ≤ progressBound s.iCache.config s.dCache.config := by
  have hfetch := fetchRank_le s
  have hdata := dataRank_le s
  have hstall := stallRank_le hs
  rw [progressRank, progressBound]
  omega

/-! ### The part of IF -/

/-- An access on record stays on record while IF holds its instruction. -/
theorem detect_prevICPC_of_recorded (h : s.prevICPC = s.ifInst.PC) :
    (detect s).prevICPC = s.ifInst.PC := by
  have hif : (recordHazard (accessDCache s)).ifInst = s.ifInst := by
    rw [recordHazard, ifInst, accessDCache_pipelineInfo]
  have hpc : (recordHazard (accessDCache s)).prevICPC = s.prevICPC := (accessDCache_inst s).2.1
  have hrec : (recordHazard (accessDCache s)).prevICPC =
      (recordHazard (accessDCache s)).ifInst.PC := by
    rw [hpc, hif, h]
  rw [detect]
  cases hmiss : (recordHazard (accessDCache s)).instFetchMiss
  · rw [accessICache_of_recorded _ hmiss hrec, hpc, h]
  · rw [accessICache_of_miss _ hmiss]
    exact hpc.trans h

/-- While IF is held, what it waits for does not grow, and an instruction miss lowers it. -/
theorem fetchLeft_of_held (hs : Steady s) (hif : (cycle accessFault s).ifInst = s.ifInst) :
    (cycle accessFault s).fetchLeft + s.starved.toNat ≤ s.fetchLeft := by
  obtain ⟨-, -, hpc, hconfig⟩ := cycle_inst accessFault s
  cases hlook : s.lookedUp
  · have hsv : s.starved = false := by
      by_contra hsv
      rw [Bool.not_eq_false] at hsv
      rw [lookedUp, prevICPC_of_detect hs.tracked (.inl hsv), beq_self_eq_true] at hlook
      exact Bool.noConfusion hlook
    have hle := fetchLeft_le (cycle accessFault s)
    rw [hconfig] at hle
    rw [fetchLeft.eq_1 s, hlook, hsv, if_neg Bool.false_ne_true]
    exact hle
  · have hrec : (cycle accessFault s).prevICPC = (cycle accessFault s).ifInst.PC := by
      rw [hpc, hif]
      exact beq_iff_eq.mp hlook
    have hlook' : (cycle accessFault s).lookedUp = true :=
      beq_iff_eq.mpr (detect_prevICPC_of_recorded hrec)
    have hleft : (cycle accessFault s).instLeft = (cycle accessFault s).instPending := by
      cases hmiss : (cycle accessFault s).instFetchMiss
      · rw [instPending_of_no_miss hmiss, instLeft, not_starved_of_recorded hmiss hrec,
          if_neg Bool.false_ne_true]
      · rw [instPending_of_miss hmiss]
    rw [fetchLeft, hlook', if_pos rfl, hleft, fetchLeft, hlook, if_pos rfl]
    cases hsv : s.starved
    · have hmiss : (cycle accessFault s).instFetchMiss = false := by
        by_contra hmiss
        rw [Bool.not_eq_false] at hmiss
        have hout := starved_of_fetchOut (instFetchMiss_of_cycle accessFault s hmiss)
        exact Bool.noConfusion (hsv.symm.trans hout.1)
      rw [instPending_of_no_miss hmiss]
      exact Nat.zero_le _
    · exact instPending_of_starved accessFault hsv

/-- While IF is held and no illegal instruction is in ID, the part of IF does not grow. -/
theorem fetchRank_of_held (hs : Steady s) (hexc : s.excepted = false)
    (hexc' : (cycle accessFault s).excepted = false)
    (hif : (cycle accessFault s).ifInst = s.ifInst) :
    (cycle accessFault s).fetchRank + s.starved.toNat ≤ s.fetchRank := by
  have hleft := fetchLeft_of_held hs hif
  have hconfig := (cycle_inst accessFault s).2.2.2
  rw [fetchRank, hexc', if_neg Bool.false_ne_true, fetchRank, hexc, if_neg Bool.false_ne_true,
    hif, hconfig]
  split
  · exact hleft
  · omega

/-- Behind a fetch of status normal only the I-cache can hold IF. -/
theorem fetchRank_of_normal (hexc : s.excepted = false) (hst : s.ifInst.status = .normal) :
    s.fetchRank ≤ missCost s.iCache.config := by
  rw [fetchRank, hexc, if_neg Bool.false_ne_true, hst, beq_self_eq_true, if_pos rfl]
  exact fetchLeft_le s

/-! ### The parts of MEM and ID -/

/-- A frozen cycle lowers the part of MEM. -/
theorem dataRank_of_frozen (hs : Steady s) (hz : s.frozen = true) :
    (cycle accessFault s).dataRank + 1 = s.dataRank := by
  have hleft : (cycle accessFault s).dataLeft + 1 = s.dataLeft :=
    dataLeft_cycle hs.shape hs.tracked hz
  have hheld := held_of_frozen hs hz
  obtain ⟨_, _, hid⟩ := hheld.id
  have hactive : (cycle accessFault s).idInst.active = s.idInst.active := by
    rw [hid]
    rfl
  rw [dataRank, dataRank, (cycle_data accessFault s).2.2.2.2.2, hheld.ex, hactive, ← hleft]
  omega

/-- An unfrozen cycle moves the part of EX to MEM. -/
theorem dataLeft_of_moving (hs : Steady s) (hz : s.frozen = false) :
    (cycle accessFault s).dataLeft ≤ missCost s.dCache.config * s.exInst.active.toNat := by
  rw [dataLeft_cycle_of_moving hs hz]
  cases hmiss : s.exMisses
  · exact Nat.zero_le _
  · have hactive : s.exInst.active = true := by
      rw [exMisses, accessMisses, Bool.and_eq_true, Bool.and_eq_true, Bool.or_eq_true] at hmiss
      rcases hmiss.1.1 with hload | hstore
      · rw [isLoad, Bool.and_eq_true] at hload
        exact hload.2
      · rw [isStore, Bool.and_eq_true] at hstore
        exact hstore.2
    rw [hactive, Bool.toNat_true, Nat.mul_one]
    exact Nat.le_refl _

/-- Behind an empty EX no second stall cycle comes up. -/
theorem remaining_of_ex_inactive (hex : s.exInst.active = false) :
    s.hazard.remainingStallCycles ≤ s.remainingStallCycles - 1 := by
  have hload : isLoad s.exInst = false := by rw [isLoad, hex, Bool.and_false]
  have hwrites : writesREG s.exInst = false := by rw [writesREG, hex, Bool.and_false]
  rw [hazard, detectHazard]
  by_cases hrem : s.remainingStallCycles > 0
  · simp only [if_pos hrem, Nat.le_refl]
  · rw [if_neg hrem, detectLoadHazard, hload, if_neg Bool.false_ne_true]
    dsimp only
    rw [hwrites, Bool.false_and, if_neg Bool.false_ne_true, ite_self]
    exact Nat.zero_le _

/-! ### Every cycle without a decode lowers the rank -/

/-- A frozen cycle. -/
theorem progressRank_of_frozen (hs : Steady s) (hz : s.frozen = true) :
    (cycle accessFault s).progressRank < s.progressRank := by
  have hdata := dataRank_of_frozen hs hz
  have hheld := held_of_frozen hs hz
  have hexc' := hheld.excepted
  have hfetch : (cycle accessFault s).fetchRank ≤ s.fetchRank := by
    cases hexc : s.excepted
    · have hif := (fetch_of_frozen hs.shape hs.flow hexc hz).1
      exact Nat.le_of_add_right_le (fetchRank_of_held hs hexc (hexc'.trans hexc) hif)
    · have hsame : (cycle accessFault s).fetchRank = s.fetchRank := by
        rw [fetchRank, hexc'.trans hexc, if_pos rfl, fetchRank, hexc, if_pos rfl,
          (cycle_inst accessFault s).2.2.2]
      exact Nat.le_of_eq hsame
  have hstall : (cycle accessFault s).stallRank ≤ s.stallRank := by
    obtain ⟨_, _, hid⟩ := hheld.id
    have hactive : (cycle accessFault s).idInst.active = s.idInst.active := by
      rw [hid]
      rfl
    rw [stallRank, stallRank, hactive, hheld.ex, cycle_remainingStallCycles]
    cases hex : s.exInst.active
    · have hle := remaining_of_ex_inactive hex
      split_ifs <;> omega
    · exact Nat.le_refl _
  rw [progressRank, progressRank]
  omega

/-- The cycle in which an illegal instruction leaves ID. -/
theorem progressRank_of_dropped (hs : Steady s) (hz : s.frozen = false)
    (hexc : s.excepted = true) :
    (cycle accessFault s).progressRank < s.progressRank := by
  have hid : (cycle accessFault s).idInst = nop .squashed := by
    rw [cycle_idInst_eq hs.shape hs.flow, idOut_of_excepted _ hz hexc]
  have hex : (cycle accessFault s).exInst = nop .squashed := by
    rw [cycle_exInst_eq hs.shape hs.flow, exOut_of_excepted hz hexc]
  have hexc' : (cycle accessFault s).excepted = false := by
    rw [excepted, hid]
    rfl
  have hif : (cycle accessFault s).ifInst.status = .normal := by
    rw [(fetch_of_excepted hs.shape hs.flow hexc).1]
    rfl
  have hfetch := fetchRank_of_normal hexc' hif
  rw [(cycle_inst accessFault s).2.2.2] at hfetch
  have hbefore : s.fetchRank = 2 * missCost s.iCache.config + 1 := if_pos hexc
  have hdata : (cycle accessFault s).dataRank ≤ s.dataRank := by
    have hleft := dataLeft_of_moving hs hz
    have hnone : (nop .squashed).active.toNat = 0 := rfl
    rw [dataRank, dataRank, (cycle_data accessFault s).2.2.2.2.2, hid, hex, hnone, Nat.mul_add,
      Nat.mul_add]
    omega
  have hstall : (cycle accessFault s).stallRank = 0 := by
    rw [stallRank, hid]
    rfl
  rw [progressRank, progressRank]
  omega

/-- A hazard stall. -/
theorem progressRank_of_stalled (hs : Steady s) (hz : s.frozen = false)
    (hexc : s.excepted = false) (hst : s.stalled = true) :
    (cycle accessFault s).progressRank < s.progressRank := by
  obtain ⟨hexc', -, -⟩ := held_congr hs hexc (by rw [hst, Bool.or_true])
  have hactive : s.idInst.active = true := by
    by_contra hid
    rw [Bool.not_eq_true] at hid
    exact Bool.noConfusion (hst.symm.trans (stalled_of_inactive hs.shape hs.flow hid))
  have hif : (cycle accessFault s).ifInst = s.ifInst :=
    (cycle_of_not_refetched _ _ (by
      simp [refetched, memExc_eq_false hs.shape hs.flow, hexc, hst])).2
  have hactive' : (cycle accessFault s).idInst.active = true := by
    have hsame := sameWord_of_held hs hexc (by rw [hst, Bool.or_true])
    rw [hsame.active, hactive]
  have hex : (cycle accessFault s).exInst = nop .bubble := by
    rw [cycle_exInst_eq hs.shape hs.flow, exOut_of_stalled hz hexc hst]
  have hfetch := fetchRank_of_held hs hexc hexc' hif
  have hdata : (cycle accessFault s).dataRank ≤ s.dataRank := by
    have hleft := dataLeft_of_moving hs hz
    have hnone : (nop .bubble).active.toNat = 0 := rfl
    rw [dataRank, dataRank, (cycle_data accessFault s).2.2.2.2.2, hactive', hactive, hex, hnone,
      Nat.mul_add, Nat.mul_add]
    omega
  have hstall : (cycle accessFault s).stallRank < s.stallRank := by
    have hempty : (nop .bubble).active = false := rfl
    rw [stallRank, stallRank, hactive', hactive, if_pos rfl, if_pos rfl, hex, hempty,
      if_neg Bool.false_ne_true, cycle_remainingStallCycles]
    cases hexa : s.exInst.active
    · -- only a pending stall cycle can stall behind an empty EX
      have hle := remaining_of_ex_inactive hexa
      have hpos : s.remainingStallCycles ≠ 0 := fun hzero =>
        Bool.noConfusion (hst.symm.trans (stalled_of_ex_inactive hexa hzero))
      rw [if_neg Bool.false_ne_true]
      omega
    · rw [if_pos rfl]
      by_cases hpos : 0 < s.hazard.remainingStallCycles
      · rw [(pending_of_hazard hs.shape hpos).1]
        exact Nat.one_lt_two
      · omega
  rw [progressRank, progressRank]
  omega

/-- ID moves, and takes no instruction from IF. -/
theorem progressRank_of_moving (hs : Steady s) (hz : s.frozen = false)
    (hexc : s.excepted = false) (hst : s.stalled = false) (hdecodes : s.decodes = false) :
    (cycle accessFault s).progressRank < s.progressRank := by
  have hpadding := idInst_of_not_decodes hs hz hexc hst hdecodes
  have hexc' : (cycle accessFault s).excepted = false := by
    rw [excepted, raisesIllegalExc, hpadding.active, Bool.and_false, Bool.false_and]
  have hex : (cycle accessFault s).exInst.active = s.idInst.active := by
    rw [cycle_exInst_eq hs.shape hs.flow, exOut_of_moving hz hexc hst, simEX_active,
      idForwarded_active]
  have hdata : (cycle accessFault s).dataRank ≤ s.dataRank := by
    have hleft := dataLeft_of_moving hs hz
    rw [dataRank, dataRank, (cycle_data accessFault s).2.2.2.2.2, hpadding.active, hex,
      Nat.mul_add, Nat.mul_add, Bool.toNat_false]
    omega
  have hstall : (cycle accessFault s).stallRank = 0 := by
    rw [stallRank, hpadding.active, if_neg Bool.false_ne_true]
  have hconfig := (cycle_inst accessFault s).2.2.2
  have hfetch : (cycle accessFault s).fetchRank < s.fetchRank := by
    rcases not_decodes_cases hs hz hexc hst hdecodes with hsv | ⟨hsv, hgone⟩
    · have hif := (fetch_of_starved hs.shape hs.flow hexc hst hsv).1
      have hle := fetchRank_of_held hs hexc hexc' hif
      rw [hsv, Bool.toNat_true] at hle
      omega
    · -- the instruction in IF is squashed, or there was none: the next one is normal
      have hbefore : missCost s.iCache.config < s.fetchRank := by
        have hstatus : (s.ifInst.status == StageStatus.normal) = false := by
          rcases hgone with hmp | ⟨-, hidle⟩
          · rw [mispredicted, Bool.and_eq_true, beq_iff_eq] at hmp
            rw [hmp.1]
            rfl
          · rw [hidle]
            rfl
        rw [fetchRank, hexc, if_neg Bool.false_ne_true, hstatus, if_neg Bool.false_ne_true]
        omega
      have hnormal : (cycle accessFault s).ifInst.status = .normal := by
        have hnobranch : isBranchOrJump (s.idOut accessFault).1 = false := by
          rw [← cycle_idInst_eq hs.shape hs.flow]
          exact hpadding.not_branch
        rw [(fetch_of_decoded hs.shape hs.flow hexc hz hst hsv hnobranch).1]
        rfl
      have hafter := fetchRank_of_normal hexc' hnormal
      rw [hconfig] at hafter
      omega
  rw [progressRank, progressRank]
  omega

/-- **A cycle in which ID decodes nothing lowers the rank.** -/
theorem progressRank_cycle (hs : Steady s) (hdecodes : s.decodes = false) :
    (cycle accessFault s).progressRank < s.progressRank := by
  cases hz : s.frozen
  · cases hexc : s.excepted
    · cases hst : s.stalled
      · exact progressRank_of_moving hs hz hexc hst hdecodes
      · exact progressRank_of_stalled hs hz hexc hst
    · exact progressRank_of_dropped hs hz hexc
  · exact progressRank_of_frozen hs hz

/-! ### Runs -/

/-- The rank does not see the parked miss state. -/
theorem progressRank_reenter (s : LoopState) : (reenter s).progressRank = s.progressRank := by
  have hexc : (reenter s).excepted = s.excepted := rfl
  have hif : (reenter s).ifInst = s.ifInst := rfl
  have hlook : (reenter s).lookedUp = s.lookedUp := by
    rw [lookedUp, reenter_eq_park, detect_park]
    rfl
  have hfetch : (reenter s).fetchRank = s.fetchRank := by
    have hconfig : (reenter s).iCache.config = s.iCache.config := rfl
    rw [fetchRank, fetchRank, fetchLeft, fetchLeft, hexc, hif, hlook, instLeft_reenter, hconfig]
  have hdata : (reenter s).dataRank = s.dataRank := by
    have hex : (reenter s).exInst = s.exInst := rfl
    have hid : (reenter s).idInst = s.idInst := rfl
    have hconfig : (reenter s).dCache.config = s.dCache.config := rfl
    rw [dataRank, dataRank, dataLeft_reenter, hex, hid, hconfig]
  have hstall : (reenter s).stallRank = s.stallRank := rfl
  rw [progressRank, progressRank, hfetch, hdata, hstall]

/-- A steady state of given cache configurations. -/
structure Configured (iCacheConfig dCacheConfig : CacheConfig) (s : LoopState) : Prop where
  steady : Steady s
  inst : s.iCache.config = iCacheConfig
  data : s.dCache.config = dCacheConfig

namespace Configured

variable {iCacheConfig dCacheConfig : CacheConfig}

/-- A cycle changes no configuration. -/
theorem cycle (h : Configured iCacheConfig dCacheConfig s) :
    Configured iCacheConfig dCacheConfig (RvPipeSim.cycle accessFault s) where
  steady := h.steady.cycle
  inst := (cycle_inst accessFault s).2.2.2.trans h.inst
  data := (cycle_data accessFault s).2.2.2.2.2.trans h.data

/-- Nor does entering `runCycles` again. -/
theorem reenter (h : Configured iCacheConfig dCacheConfig s) :
    Configured iCacheConfig dCacheConfig (RvPipeSim.reenter s) :=
  ⟨h.steady.reenter, h.inst, h.data⟩

/-- The bound on the rank, for the configurations of the run. -/
theorem progressRank_le (h : Configured iCacheConfig dCacheConfig s) :
    s.progressRank ≤ progressBound iCacheConfig dCacheConfig :=
  h.inst ▸ h.data ▸ LoopState.progressRank_le h.steady

/-- In every run the states have the configurations it was started with. -/
theorem of_run {ok : LoopState → Prop} {mem : MemoryStore} {visited : List LoopState}
    (h : PipelineRun accessFault ok iCacheConfig dCacheConfig mem visited s) :
    Configured iCacheConfig dCacheConfig s :=
  ⟨(Steady.of_run h).1, (config_of_run h).1, (config_of_run h).2⟩

/-- **A long run decodes often.** -/
theorem length_le {ok : LoopState → Prop} {visited : List LoopState} {t : LoopState}
    (h : Configured iCacheConfig dCacheConfig s) (hrun : RunFrom accessFault ok s visited t) :
    visited.length ≤ progressBound iCacheConfig dCacheConfig +
      (progressBound iCacheConfig dCacheConfig + 1) * visited.countP (·.decodes) := by
  have hrate := hrun.length_add_rank_le (Configured iCacheConfig dCacheConfig) progressRank
    (progressBound iCacheConfig dCacheConfig) (·.decodes) (fun _ hs => hs.cycle)
    (fun _ hs => hs.reenter) (fun _ hs => progressRank_cycle hs.steady) progressRank_reenter
    (fun _ hs => hs.progressRank_le) h
  have hmost := h.progressRank_le
  omega

end Configured

end LoopState

/-- **The pipeline does not deadlock.** From every reachable state, every run of more than
`progressBound` cycles, twice the cost of an instruction miss, three times the cost of a data
miss, and three, hands a fetched instruction to `simID`. -/
theorem decodes_within {ok ok' : LoopState → Prop} {iCacheConfig dCacheConfig : CacheConfig}
    {mem : MemoryStore} {visited visited' : List LoopState} {s t : LoopState}
    (h : PipelineRun accessFault ok iCacheConfig dCacheConfig mem visited s)
    (hrun : RunFrom accessFault ok' s visited' t)
    (hlength : LoopState.progressBound iCacheConfig dCacheConfig < visited'.length) :
    ∃ u ∈ visited', ∃ inst, u.idCall = some inst ∧ inst.seq.isSome = true := by
  have hconfigured := LoopState.Configured.of_run h
  obtain ⟨u, hu, hdecodes⟩ := hrun.exists_done_of_length
    (LoopState.Configured iCacheConfig dCacheConfig) LoopState.progressRank
    (LoopState.progressBound iCacheConfig dCacheConfig) (·.decodes) (fun _ hs => hs.cycle)
    (fun _ hs => hs.reenter) (fun _ hs => LoopState.progressRank_cycle hs.steady)
    LoopState.progressRank_reenter (fun _ hs => hs.progressRank_le) hconfigured hlength
  have hsteady := ((Steady.of_runFrom hconfigured.steady hrun).2 u hu)
  obtain ⟨hz, hexc, hst, hsv, hmp, hfetched⟩ := LoopState.moving_of_decodes hsteady hdecodes
  refine ⟨u, hu, enterID u.ifInst, ?_, ?_⟩
  · rw [LoopState.idCall, hz, hexc, hst, hsv, hmp]
    rfl
  · rw [enterID_of_fetched hfetched]
    exact hfetched.numbered

/-- With latencies of 1 the bound is 8: nine cycles from the start decode something. -/
theorem decodes_within_nine :
    let start := enter (initSimulator (.oneBlock 64) (.oneBlock 64) (.image fun _ => 0x00000013))
    ∃ u ∈ (List.range 9).map fun k => (cycle accessFault)^[k] start,
      ∃ inst, u.idCall = some inst ∧ inst.seq.isSome = true := by
  intro start
  have hstart : PipelineRun accessFault anyCycle (.oneBlock 64) (.oneBlock 64)
      (.image fun _ => 0x00000013) [] start := .refl
  have hrun : RunFrom accessFault anyCycle start _ _ := run_iterate (n := 9) fun _ _ => trivial
  exact decodes_within hstart hrun (by decide)

end RvPipeSim
