import RvPipeSim.Flow

/-!
# Misses end

A cache miss holds part of the pipeline for a bounded number of cycles. While it lasts,
the code remembers the access it is for (`Tracked`), so that the access is not made again
when the miss has ended; `dataLeft` and `instLeft` count the cycles to go. From these ranks
`Waiting.eventually_enters` concludes that the instruction in IF reaches ID once ID is
empty.

## Main results

* `cycle_data`, `cycle_inst` — the two miss states after a cycle;
* `dataLeft_cycle`, `instLeft_cycle` — the countdowns fall;
* `Tracked.cycle` — a pending miss is on record;
* `Steady.of_run` — all that holds in every run without faults;
* `eventually_thaws`, `Waiting.eventually_enters` — misses end.
-/

namespace RvPipeSim

open Simulator ObservedRun

/-- The kind of the access the instruction in MEM makes. -/
def Instruction.cacheOp (inst : Instruction) : CacheOperation :=
  if inst.writesMem then .cacheWrite else .cacheRead

/-- The last D-cache access on record is the one of the instruction in MEM. -/
def LoopState.DataRecorded (s : LoopState) : Prop :=
  s.prevDValid = true ∧ s.prevDAddr = s.memInst.memAddress ∧ s.prevDOp = s.memInst.cacheOp

/-- A pending miss is for the access on record. -/
structure Tracked (s : LoopState) : Prop where
  data : s.dataFetchMiss = true → s.DataRecorded
  inst : s.instFetchMiss = true → s.prevICPC = s.ifInst.PC

namespace LoopState

variable {s : LoopState}

/-! ### The two sides of the detection -/

/-- The I-cache access leaves the D-cache side alone. -/
theorem accessICache_data (stall : Bool) (s : LoopState) :
    (accessICache stall s).dataMissStalls = s.dataMissStalls ∧
      (accessICache stall s).prevDValid = s.prevDValid ∧
      (accessICache stall s).prevDAddr = s.prevDAddr ∧
      (accessICache stall s).prevDOp = s.prevDOp ∧
      (accessICache stall s).dCache = s.dCache := by
  rw [accessICache]
  dsimp only
  split_ifs <;> exact ⟨rfl, rfl, rfl, rfl, rfl⟩

/-- The D-cache access leaves the I-cache side alone. -/
theorem accessDCache_inst (s : LoopState) :
    (accessDCache s).instMissStalls = s.instMissStalls ∧
      (accessDCache s).prevICPC = s.prevICPC ∧ (accessDCache s).iCache = s.iCache := by
  rw [accessDCache]
  dsimp only
  split_ifs <;> exact ⟨rfl, rfl, rfl⟩

/-- The latency of the D-cache is a constant. -/
theorem accessDCache_config (s : LoopState) :
    (accessDCache s).dCache.config = s.dCache.config := by
  rw [accessDCache]
  dsimp only
  split_ifs <;> rfl

/-- The latency of the I-cache is a constant. -/
theorem accessICache_config (stall : Bool) (s : LoopState) :
    (accessICache stall s).iCache.config = s.iCache.config := by
  rw [accessICache]
  dsimp only
  split_ifs <;> rfl

/-! ### A data miss -/

/-- The D-cache access, with the kind of the access named. -/
theorem accessDCache_eq (s : LoopState) :
    accessDCache s =
      if !s.dataFetchMiss && (isLoad s.memInst || isStore s.memInst) then
        if !s.prevDValid || s.memInst.memAddress != s.prevDAddr ||
            s.memInst.cacheOp != s.prevDOp then
          { s with
            prevDValid := true
            prevDAddr := s.memInst.memAddress
            prevDOp := s.memInst.cacheOp
            dCache := (s.dCache.access s.memInst.memAddress s.memInst.cacheOp).2
            dataFetchMiss := !(s.dCache.access s.memInst.memAddress s.memInst.cacheOp).1
            dataMissStalls :=
              if (s.dCache.access s.memInst.memAddress s.memInst.cacheOp).1 then
                s.dataMissStalls
              else 0 }
        else s
      else if s.dataFetchMiss then { s with dataMissStalls := s.dataMissStalls + 1 }
      else s :=
  rfl

/-- A data miss that is pending counts on. -/
theorem accessDCache_of_miss (hmiss : s.dataFetchMiss = true) :
    accessDCache s = { s with dataMissStalls := s.dataMissStalls + 1 } := by
  rw [accessDCache]
  dsimp only
  rw [hmiss, if_neg (by simp), if_pos rfl]

/-- An access that is on record is not made again. -/
theorem accessDCache_of_recorded (hmiss : s.dataFetchMiss = false) (hrec : s.DataRecorded) :
    accessDCache s = s := by
  obtain ⟨hvalid, haddr, hop⟩ := hrec
  have hnew : (!s.prevDValid || s.memInst.memAddress != s.prevDAddr ||
      s.memInst.cacheOp != s.prevDOp) = false := by
    rw [hvalid, haddr, hop]
    simp
  rw [accessDCache_eq, hnew, hmiss, if_neg Bool.false_ne_true, if_neg Bool.false_ne_true, ite_self]

/-- Where the D-cache access leaves a miss, it is on record. -/
theorem recorded_of_accessDCache (ht : s.dataFetchMiss = true → s.DataRecorded)
    (hz : (accessDCache s).dataFetchMiss = true) : (accessDCache s).DataRecorded := by
  cases hmiss : s.dataFetchMiss
  · -- no miss was pending, so a new access is made
    rw [accessDCache_eq] at hz ⊢
    by_cases haccess : (!s.dataFetchMiss && (isLoad s.memInst || isStore s.memInst)) = true
    · rw [if_pos haccess] at hz ⊢
      by_cases hnew : (!s.prevDValid || s.memInst.memAddress != s.prevDAddr ||
          s.memInst.cacheOp != s.prevDOp) = true
      · rw [if_pos hnew]
        exact ⟨rfl, rfl, rfl⟩
      · rw [if_neg hnew, hmiss] at hz
        exact Bool.noConfusion hz
    · rw [if_neg haccess, if_neg (by simp [hmiss]), hmiss] at hz
      exact Bool.noConfusion hz
  · rw [accessDCache_of_miss hmiss]
    exact ht hmiss

/-! ### An instruction miss -/

/-- An instruction miss that is pending counts on, whether IF is held or not. -/
theorem accessICache_of_miss (stall : Bool) (hmiss : s.instFetchMiss = true) :
    accessICache stall s = { s with instMissStalls := s.instMissStalls + 1 } := by
  rw [accessICache]
  dsimp only
  rw [hmiss, Bool.not_true, Bool.and_false, Bool.false_and, if_neg Bool.false_ne_true, if_pos rfl]

/-- An access that is on record is not made again. -/
theorem accessICache_of_recorded (stall : Bool) (hmiss : s.instFetchMiss = false)
    (hrec : s.prevICPC = s.ifInst.PC) : accessICache stall s = s := by
  rw [accessICache]
  dsimp only
  rw [hmiss, hrec, bne_self_eq_false, if_neg Bool.false_ne_true, if_neg Bool.false_ne_true,
    ite_self]

/-- Where the I-cache access leaves a miss, or IF may be handed on, the address of IF is on
record. -/
theorem recorded_of_accessICache {stall : Bool}
    (ht : s.instFetchMiss = true → s.prevICPC = s.ifInst.PC)
    (h : (accessICache stall s).instFetchMiss = true ∨ stall = false ∧ s.ifInst.isNop = false) :
    (accessICache stall s).prevICPC = s.ifInst.PC := by
  cases hmiss : s.instFetchMiss
  · rw [accessICache] at h ⊢
    dsimp only at h ⊢
    by_cases haccess : (!stall && !s.instFetchMiss && !s.ifInst.isNop) = true
    · rw [if_pos haccess] at h ⊢
      by_cases hnew : (s.ifInst.PC != s.prevICPC) = true
      · rw [if_pos hnew]
      · rw [if_neg hnew]
        rw [bne_iff_ne, Decidable.not_not] at hnew
        exact hnew.symm
    · rw [if_neg haccess, if_neg (by simp [hmiss]), hmiss] at h
      obtain ⟨hst, hnop⟩ := h.resolve_left Bool.false_ne_true
      simp [hst, hmiss, hnop] at haccess
  · rw [accessICache_of_miss stall hmiss]
    exact ht hmiss

/-! ### The miss state after a cycle -/

/-- The cycle is frozen by what the D-cache access at its beginning leaves pending. -/
theorem frozen_eq (s : LoopState) : s.frozen = (accessDCache s).dataFetchMiss := by
  rw [frozen, detect, accessICache_dataFetchMiss]
  rfl

/-- The data miss after a cycle: what the access left, and over when its last stall cycle has
been counted. -/
theorem cycle_data (fault : Fault) (s : LoopState) :
    (cycle fault s).dataFetchMiss =
        (if (accessDCache s).dataMissStalls ≥ lastMissCycle s.dCache.config then false
        else s.frozen) ∧
      (cycle fault s).dataMissStalls =
        (if (accessDCache s).dataMissStalls ≥ lastMissCycle s.dCache.config then 0
        else (accessDCache s).dataMissStalls) ∧
      (cycle fault s).prevDValid = (accessDCache s).prevDValid ∧
      (cycle fault s).prevDAddr = (accessDCache s).prevDAddr ∧
      (cycle fault s).prevDOp = (accessDCache s).prevDOp ∧
      (cycle fault s).dCache.config = s.dCache.config := by
  obtain ⟨hstalls, hvalid, haddr, hop, hcache⟩ :=
    accessICache_data s.hazard.stall (recordHazard (accessDCache s))
  have hconfig : (detect s).dCache.config = s.dCache.config :=
    (congrArg Cache.config hcache).trans (accessDCache_config s)
  have hstalls' : (detect s).dataMissStalls = (accessDCache s).dataMissStalls := hstalls
  refine ⟨?_, ?_, hvalid, haddr, hop, hconfig⟩
  · rw [← hstalls', ← hconfig]
    simp [cycle, expireMisses, advance, frozen]
  · rw [← hstalls', ← hconfig]
    simp [cycle, expireMisses, advance]

/-- The instruction miss after a cycle: what IF left, and over when its last stall cycle has been
counted. -/
theorem cycle_inst (fault : Fault) (s : LoopState) :
    (cycle fault s).instFetchMiss =
        (if (s.fetchOut fault).instMissStalls ≥ lastMissCycle s.iCache.config then false
        else (s.fetchOut fault).instFetchMiss) ∧
      (cycle fault s).instMissStalls =
        (if (s.fetchOut fault).instMissStalls ≥ lastMissCycle s.iCache.config then 0
        else (s.fetchOut fault).instMissStalls) ∧
      (cycle fault s).prevICPC = (detect s).prevICPC ∧
      (cycle fault s).iCache.config = s.iCache.config := by
  have hconfig : (detect s).iCache.config = s.iCache.config :=
    (accessICache_config s.hazard.stall (recordHazard (accessDCache s))).trans
      (congrArg Cache.config (accessDCache_inst s).2.2)
  have hstalls : (advance fault s.excepted s.stalled (detect s)).instMissStalls =
      (s.fetchOut fault).instMissStalls := by
    simp [advance, frozen, memExc, memOut, simAfterWB, exForwarded, idOut, excepted, stalled,
      starved, idForwarded, fetchOut, branchInId]
  have hcache : (advance fault s.excepted s.stalled (detect s)).iCache = (detect s).iCache := rfl
  refine ⟨?_, ?_, rfl, hconfig⟩
  · rw [← hconfig, ← hstalls, ← advance_instFetchMiss, ← hcache]
    simp only [cycle, expireMisses, excepted, stalled, idInst]
    congr
  · rw [← hconfig, ← hstalls, ← hcache]
    simp only [cycle, expireMisses, excepted, stalled, idInst]
    congr

variable {fault : Fault}

/-- A miss that IF leaves pending was seen in this cycle, and holds IF. -/
theorem starved_of_fetchOut (hmiss : (s.fetchOut fault).instFetchMiss = true) :
    s.starved = true ∧ (cycle fault s).ifInst = s.ifInst := by
  rw [cycle_ifInst]
  cases hexc : s.excepted || s.memExc fault
  · cases hst : s.stalled
    · cases hbr : s.branchInId fault
      · cases hheld : s.starved || s.frozen
        · rw [fetchOut_of_next fault s hexc hst hbr hheld] at hmiss
          exact Bool.noConfusion hmiss
        · obtain ⟨hif, -, -, hflag⟩ := fetchOut_of_miss fault s hexc hst hheld
          exact ⟨hflag.symm.trans hmiss, hif⟩
      · obtain ⟨-, -, -, hflag⟩ := fetchOut_of_branch fault s hexc hst hbr
        rw [hflag] at hmiss
        exact Bool.noConfusion hmiss
    · obtain ⟨hif, -, -, hflag⟩ := fetchOut_of_stalled fault s hexc hst
      rw [hflag] at hmiss
      split at hmiss
      · exact Bool.noConfusion hmiss
      · exact ⟨hmiss, hif⟩
  · rw [fetchOut_of_exception fault s hexc] at hmiss
    exact Bool.noConfusion hmiss

/-- The access of the instruction in IF is on record after a cycle that saw its miss, or
could have handed it on. -/
theorem prevICPC_of_detect (ht : Tracked s)
    (h : s.starved = true ∨ s.stalled = false ∧ s.ifInst.isNop = false) :
    (detect s).prevICPC = s.ifInst.PC := by
  have hif : (recordHazard (accessDCache s)).ifInst = s.ifInst := by
    rw [recordHazard, ifInst, accessDCache_pipelineInfo]
  have hpc : (recordHazard (accessDCache s)).prevICPC = s.prevICPC := (accessDCache_inst s).2.1
  have hmiss : (recordHazard (accessDCache s)).instFetchMiss = s.instFetchMiss :=
    accessDCache_instFetchMiss s
  have hrec : (detect s).prevICPC = (recordHazard (accessDCache s)).ifInst.PC :=
    recorded_of_accessICache (by rw [hif, hpc, hmiss]; exact ht.inst) (by rw [hif]; exact h)
  rw [hrec, hif]

end LoopState

/-! ### Pending misses are on record in every run -/

namespace Tracked

variable {fault : Fault} {s : LoopState}

/-- No miss is pending at the start. -/
theorem init (iCacheConfig dCacheConfig : CacheConfig) (mem : MemoryStore) :
    Tracked (enter (initSimulator iCacheConfig dCacheConfig mem)) where
  data hmiss := Bool.noConfusion hmiss
  inst hmiss := Bool.noConfusion hmiss

/-- A frozen cycle leaves the access of the instruction in MEM on record. -/
theorem recorded_of_frozen (h : Shape s) (ht : Tracked s) (hz : s.frozen = true) :
    (RvPipeSim.cycle fault s).DataRecorded := by
  have hmem : (accessDCache s).memInst = s.memInst := by
    rw [LoopState.memInst, LoopState.accessDCache_pipelineInfo]
  have hrec := LoopState.recorded_of_accessDCache ht.data ((LoopState.frozen_eq s).symm.trans hz)
  obtain ⟨-, -, hvalid, haddr, hop, -⟩ := LoopState.cycle_data fault s
  rw [LoopState.DataRecorded, hmem] at hrec
  rw [LoopState.DataRecorded, hvalid, haddr, hop, LoopState.memInst_cycle_of_frozen h hz]
  exact hrec

/-- A miss that is still pending after a cycle was on record in it, and holds the slot it is for.
-/
theorem cycle (h : Shape s) (ht : Tracked s) : Tracked (RvPipeSim.cycle fault s) where
  data hmiss := by
    rw [(LoopState.cycle_data fault s).1] at hmiss
    split at hmiss
    · exact Bool.noConfusion hmiss
    · exact ht.recorded_of_frozen h hmiss
  inst hmiss := by
    obtain ⟨hsv, hif⟩ :=
      LoopState.starved_of_fetchOut (LoopState.instFetchMiss_of_cycle fault s hmiss)
    rw [(LoopState.cycle_inst fault s).2.2.1, hif]
    exact LoopState.prevICPC_of_detect ht (.inl hsv)

/-- Entering `runCycles` again restores the pending misses as they were. -/
theorem reenter (ht : Tracked s) : Tracked (RvPipeSim.reenter s) := ⟨ht.data, ht.inst⟩

end Tracked

/-! ### How long a miss goes on -/

namespace LoopState

variable {s : LoopState}

/-- The cycles a data miss goes on. -/
def dataLeft (s : LoopState) : ℕ :=
  if s.frozen then lastMissCycle s.dCache.config - (accessDCache s).dataMissStalls + 1 else 0

/-- The cycles an instruction miss goes on. -/
def instLeft (s : LoopState) : ℕ :=
  if s.starved then lastMissCycle s.iCache.config - (detect s).instMissStalls + 1 else 0

/-- A data miss that is pending freezes the cycle and counts on. -/
theorem frozen_of_miss (hmiss : s.dataFetchMiss = true) :
    s.frozen = true ∧ (accessDCache s).dataMissStalls = s.dataMissStalls + 1 := by
  rw [frozen_eq, accessDCache_of_miss hmiss]
  exact ⟨hmiss, rfl⟩

/-- An instruction miss that is pending starves ID and counts on. -/
theorem starved_of_miss (hmiss : s.instFetchMiss = true) :
    s.starved = true ∧ (detect s).instMissStalls = s.instMissStalls + 1 := by
  have hmiss' : (recordHazard (accessDCache s)).instFetchMiss = true :=
    (accessDCache_instFetchMiss s).trans hmiss
  have hstalls : (recordHazard (accessDCache s)).instMissStalls = s.instMissStalls :=
    (accessDCache_inst s).1
  rw [starved, detect, accessICache_of_miss _ hmiss']
  exact ⟨hmiss', congrArg (· + 1) hstalls⟩

/-- A frozen cycle is one cycle of a data miss. -/
theorem dataLeft_cycle {fault : Fault} (h : Shape s) (ht : Tracked s) (hz : s.frozen = true) :
    (cycle fault s).dataLeft + 1 = s.dataLeft := by
  have hrec : (cycle fault s).DataRecorded := ht.recorded_of_frozen h hz
  obtain ⟨hmiss, hstalls, -, -, -, hconfig⟩ := cycle_data fault s
  by_cases hdone : (accessDCache s).dataMissStalls ≥ lastMissCycle s.dCache.config
  · rw [if_pos hdone] at hmiss
    have hthaw : (cycle fault s).frozen = false := by
      rw [frozen_eq, accessDCache_of_recorded hmiss hrec, hmiss]
    rw [dataLeft, dataLeft, hthaw, hz, if_neg Bool.false_ne_true, if_pos rfl]
    omega
  · rw [if_neg hdone] at hmiss hstalls
    rw [hz] at hmiss
    obtain ⟨hz', hcount⟩ := frozen_of_miss hmiss
    rw [dataLeft, dataLeft, hz', hz, if_pos rfl, if_pos rfl, hcount, hstalls, hconfig]
    omega

/-- An instruction miss that is over does not come back while IF holds its instruction. -/
theorem not_starved_of_recorded (hmiss : s.instFetchMiss = false)
    (hrec : s.prevICPC = s.ifInst.PC) : s.starved = false := by
  have hif : (recordHazard (accessDCache s)).ifInst = s.ifInst := by
    rw [recordHazard, ifInst, accessDCache_pipelineInfo]
  have hpc : (recordHazard (accessDCache s)).prevICPC = s.prevICPC := (accessDCache_inst s).2.1
  have hmiss' : (recordHazard (accessDCache s)).instFetchMiss = false :=
    (accessDCache_instFetchMiss s).trans hmiss
  rw [starved, detect, accessICache_of_recorded _ hmiss' (by rw [hpc, hif, hrec])]
  exact hmiss'

/-- A starved cycle is one cycle of an instruction miss, unless it is redirected. -/
theorem instLeft_cycle {fault : Fault} (ht : Tracked s)
    (hexc : (s.excepted || s.memExc fault) = false) (hst : s.stalled = false)
    (hsv : s.starved = true) : (cycle fault s).instLeft + 1 = s.instLeft := by
  obtain ⟨hmiss, hstalls, hpc, hconfig⟩ := cycle_inst fault s
  obtain ⟨hif, -, -, hflag⟩ := fetchOut_of_miss fault s hexc hst (by rw [hsv, Bool.true_or])
  have hcount : (s.fetchOut fault).instMissStalls = (detect s).instMissStalls := by
    rw [fetchOut, ifStage, if_neg (by simp [hexc]), if_neg (by simp [hst])]
    have hbr : s.branchInId fault = false := by simp [branchInId, hsv]
    rw [hbr, if_neg Bool.false_ne_true, if_pos]
    rw [Bool.or_eq_true]
    exact .inl hsv
  rw [hcount] at hmiss hstalls
  by_cases hdone : (detect s).instMissStalls ≥ lastMissCycle s.iCache.config
  · rw [if_pos hdone] at hmiss
    have hfed : (cycle fault s).starved = false :=
      not_starved_of_recorded hmiss
        (by rw [hpc, prevICPC_of_detect ht (.inl hsv), cycle_ifInst, hif])
    rw [instLeft, instLeft, hfed, hsv, if_neg Bool.false_ne_true, if_pos rfl]
    omega
  · rw [if_neg hdone] at hmiss hstalls
    rw [hflag, hsv] at hmiss
    obtain ⟨hsv', hcount'⟩ := starved_of_miss hmiss
    rw [instLeft, instLeft, hsv', hsv, if_pos rfl, if_pos rfl, hcount', hstalls, hconfig]
    omega

end LoopState

/-! ### Nothing decoded is squashed -/

/-- Without faults, what is in ID, EX and MEM and is not padding has status normal. -/
structure Unsquashed (s : LoopState) : Prop where
  id : s.idInst.IsPadding ∨ s.idInst.status = .normal
  ex : s.exInst.IsPadding ∨ s.exInst.status = .normal
  mem : s.memInst.IsPadding ∨ s.memInst.status = .normal

namespace Unsquashed

variable {s : LoopState}

/-- The slots are empty at the start. -/
theorem init (iCacheConfig dCacheConfig : CacheConfig) (mem : MemoryStore) :
    Unsquashed (enter (initSimulator iCacheConfig dCacheConfig mem)) where
  id := .inl ⟨.idle, rfl⟩
  ex := .inl ⟨.idle, rfl⟩
  mem := .inl ⟨.idle, rfl⟩

/-- Forwarding does not squash. -/
theorem idForwarded (h : Unsquashed s) :
    s.idForwarded.IsPadding ∨ s.idForwarded.status = .normal :=
  h.id.imp (isPadding_forwardToID _ _) fun hst => (forwardToID_status _ _ _).trans hst

/-- ID gives what it decodes status normal. -/
theorem idOut (h : Shape s) (hu : Unsquashed s) :
    (s.idOut accessFault).1.IsPadding ∨ (s.idOut accessFault).1.status = .normal := by
  obtain ⟨-, hout⟩ | ⟨-, status, hout⟩ | ⟨-, hout⟩ | ⟨-, hout⟩ := s.idOut_cases accessFault
  · rw [hout]
    exact hu.idForwarded
  · rw [hout]
    exact .inl ⟨status, rfl⟩
  · rw [hout]
    dsimp only
    split
    · rename_i hbr
      refine hu.idForwarded.imp (fun hpad => ?_) fun hst => hst
      rw [hpad.not_branch] at hbr
      exact Bool.noConfusion hbr
    · exact hu.idForwarded
  · rw [hout]
    rcases h.ifSlot with hidle | hfetched
    · rw [hidle]
      exact .inl ⟨.idle, rfl⟩
    · exact .inr (simID_status _ hfetched)

/-- EX sets the status of what it executes, and passes on the rest. -/
theorem simEX_unsquashed {inst : Instruction} (h : inst.IsPadding ∨ inst.status = .normal) :
    (simEX inst).IsPadding ∨ (simEX inst).status = .normal := by
  cases heff : inst.effective
  · rw [simEX_of_not_effective heff]
    exact h
  · rw [simEX_of_effective heff]
    exact .inr rfl

/-- What goes into EX comes from ID or is a bubble. -/
theorem exOut (hu : Unsquashed s) : s.exOut.IsPadding ∨ s.exOut.status = .normal := by
  obtain ⟨-, hout⟩ | ⟨status, hout⟩ | ⟨-, hout⟩ := s.exOut_cases
  · exact hout ▸ hu.ex
  · exact .inl ⟨status, hout⟩
  · exact hout ▸ simEX_unsquashed hu.idForwarded

/-- What goes into MEM comes from EX. -/
theorem memOut (hu : Unsquashed s) :
    (s.memOut accessFault).1.IsPadding ∨ (s.memOut accessFault).1.status = .normal := by
  cases hz : s.frozen
  · rw [LoopState.memOut_of_not_frozen _ hz]
    cases heff : s.exForwarded.effective
    · rw [simMEM_of_not_effective heff]
      exact hu.ex.imp (isPadding_forwardStoreData _ _) fun hst => hst
    · rw [simMEM_of_effective heff]
      exact .inr rfl
  · rw [LoopState.memOut_of_frozen _ hz]
    exact hu.mem

/-- Without a memory exception no cycle flushes, and an illegal instruction leaves padding
behind. -/
theorem cycle (h : Shape s) (hf : Flow s) (hu : Unsquashed s) :
    Unsquashed (RvPipeSim.cycle accessFault s) where
  id := by
    rw [LoopState.cycle_idInst_eq h hf]
    exact idOut h hu
  ex := by
    rw [LoopState.cycle_exInst_eq h hf]
    exact hu.exOut
  mem := by
    rw [LoopState.cycle_memInst_eq h hf]
    exact hu.memOut

/-- Entering `runCycles` again changes no slot. -/
theorem reenter (hu : Unsquashed s) : Unsquashed (RvPipeSim.reenter s) := ⟨hu.id, hu.ex, hu.mem⟩

end Unsquashed

/-- A slot that holds padding or an instruction of status normal keeps all labels. -/
theorem live_of_unsquashed {α : Type*} {a : FetchInfo → Option α} {inst : Instruction}
    (ha : a (nop .idle).toFetchInfo = none) (h : inst.IsPadding ∨ inst.status = .normal) :
    inst.live a = a inst.toFetchInfo := by
  rcases h with ⟨status, rfl⟩ | hst
  · rw [live_nop a ha]
    exact ha.symm
  · rw [Instruction.live, hst, if_neg (by decide)]

/-! ### Runs without faults -/

/-- What holds in every run of the source's simulator. -/
structure Steady (s : LoopState) : Prop where
  shape : Shape s
  flow : Flow s
  unsquashed : Unsquashed s
  tracked : Tracked s

namespace Steady

variable {s : LoopState}

/-- Each part is kept by a cycle, the later ones on the grounds of the earlier ones. -/
theorem cycle (h : Steady s) : Steady (RvPipeSim.cycle accessFault s) :=
  ⟨h.shape.cycle, Flow.cycle h.shape h.flow, h.unsquashed.cycle h.shape h.flow,
    h.tracked.cycle h.shape⟩

/-- The start is steady. -/
theorem init (iCacheConfig dCacheConfig : CacheConfig) (mem : MemoryStore) :
    Steady (enter (initSimulator iCacheConfig dCacheConfig mem)) :=
  ⟨.init iCacheConfig dCacheConfig mem, .init iCacheConfig dCacheConfig mem,
    .init iCacheConfig dCacheConfig mem, .init iCacheConfig dCacheConfig mem⟩

/-- Entering `runCycles` again keeps a state steady. -/
theorem reenter (h : Steady s) : Steady (RvPipeSim.reenter s) :=
  ⟨h.shape.reenter, h.flow.reenter, h.unsquashed.reenter, h.tracked.reenter⟩

/-- From a steady state on, all states are. -/
theorem of_runFrom {ok : LoopState → Prop} {visited : List LoopState} {t : LoopState}
    (h : Steady s) (hrun : RunFrom accessFault ok s visited t) :
    Steady t ∧ ∀ u ∈ visited, Steady u :=
  hrun.invariant Steady h (fun _ hs _ => hs.cycle) (fun _ hs => hs.reenter)

/-- Every state of every run is steady. -/
theorem of_run {ok : LoopState → Prop} {iCacheConfig dCacheConfig : CacheConfig}
    {mem : MemoryStore} {visited : List LoopState}
    (h : PipelineRun accessFault ok iCacheConfig dCacheConfig mem visited s) :
    Steady s ∧ ∀ t ∈ visited, Steady t :=
  of_runFrom (init iCacheConfig dCacheConfig mem) h

end Steady

namespace LoopState

variable {s : LoopState}

/-- **Data misses end.** What a frozen cycle keeps is still so when the pipeline next
moves. -/
theorem eventually_thaws (Inv : LoopState → Prop)
    (hkeep : ∀ t, Steady t → Inv t → t.frozen = true → Inv (cycle accessFault t))
    (h : Steady s) (hinv : Inv s) :
    ∃ visited t, RunFrom accessFault anyCycle s visited t ∧ Steady t ∧ Inv t ∧
      t.frozen = false := by
  have hstep : ∀ t, (Steady t ∧ Inv t) → ¬ t.frozen = false →
      anyCycle t ∧ (Steady (cycle accessFault t) ∧ Inv (cycle accessFault t)) ∧
        (cycle accessFault t).dataLeft < t.dataLeft := by
    rintro t ⟨ht, hinv⟩ hz
    rw [Bool.not_eq_false] at hz
    exact ⟨trivial, ⟨ht.cycle, hkeep t ht hinv hz⟩,
      Nat.le_of_eq (dataLeft_cycle ht.shape ht.tracked hz)⟩
  obtain ⟨visited, t, hrun, ⟨ht, hinv'⟩, hz, -⟩ :=
    Run.exists_done Nat.lt_wfRel.wf dataLeft (fun t => Steady t ∧ Inv t)
      (fun t => t.frozen = false) hstep s ⟨h, hinv⟩
  exact ⟨visited, t, hrun, ht, hinv', hz⟩

/-- Nothing keeps the instruction in IF from entering ID in this cycle. -/
def enters (s : LoopState) : Bool := !(s.frozen || s.excepted || s.stalled || s.starved)

/-- What enters ID passes four tests: no data miss, no exception, no hazard, no pending fetch. -/
theorem enters_iff :
    s.enters = true ↔
      s.frozen = false ∧ s.excepted = false ∧ s.stalled = false ∧ s.starved = false := by
  rw [enters, Bool.not_eq_true', Bool.or_eq_false_iff, Bool.or_eq_false_iff, Bool.or_eq_false_iff,
    and_assoc, and_assoc]

/-- Behind an empty ID, only a miss can hold IF. -/
theorem unhindered_of_inactive (h : Steady s) (hid : s.idInst.active = false) :
    s.excepted = false ∧ s.stalled = false := by
  refine ⟨?_, stalled_of_inactive h.shape h.flow hid⟩
  rw [excepted, raisesIllegalExc, hid, Bool.and_false, Bool.false_and]

/-- A miss holds what waits in IF, and no exception and no hazard comes up behind it. -/
theorem held_of_miss (h : Steady s) (hexc : s.excepted = false) (hst : s.stalled = false)
    (hmiss : (s.frozen || s.starved) = true) :
    (cycle accessFault s).ifInst = s.ifInst ∧ (cycle accessFault s).PC = s.PC ∧
      (cycle accessFault s).excepted = false ∧ (cycle accessFault s).stalled = false := by
  cases hz : s.frozen
  · have hsv : s.starved = true := by rwa [hz, Bool.false_or] at hmiss
    have hid : (cycle accessFault s).idInst.active = false := by
      rw [cycle_idInst_eq h.shape h.flow, idOut_of_starved _ hz hexc hst hsv]
      rfl
    obtain ⟨hif, hPC⟩ := fetch_of_starved h.shape h.flow hexc hst hsv
    obtain ⟨hexc', hst'⟩ := unhindered_of_inactive h.cycle hid
    exact ⟨hif, hPC, hexc', hst'⟩
  · have hid : (cycle accessFault s).idInst = s.idForwarded := by
      rw [cycle_idInst_eq h.shape h.flow, idOut_of_frozen _ hz]
    have hexc' : (cycle accessFault s).excepted = s.excepted := by
      rw [excepted, hid, excepted, idForwarded, forwardToID_eq]
      rfl
    obtain ⟨hif, hPC, -⟩ := fetch_of_frozen h.shape h.flow hexc hz
    exact ⟨hif, hPC, hexc'.trans hexc, stalled_of_frozen h.shape h.flow hz hst hid⟩

/-- A miss behind an empty ID holds everything IF needs. -/
theorem held_of_inactive (h : Steady s) (hid : s.idInst.active = false)
    (hheld : s.enters = false) :
    (cycle accessFault s).idInst.active = false ∧ (cycle accessFault s).ifInst = s.ifInst ∧
      (cycle accessFault s).PC = s.PC := by
  obtain ⟨hexc, hst⟩ := unhindered_of_inactive h hid
  have hfetch : s.refetched accessFault = false := by
    rw [refetched, exception_eq_excepted h.shape h.flow, hexc, hst]
    rw [enters, hexc, hst] at hheld
    revert hheld
    cases s.frozen <;> cases s.starved <;> decide
  refine ⟨Flow.idInst_inactive hid hfetch, (cycle_of_not_refetched accessFault s hfetch).2, ?_⟩
  cases hz : s.frozen
  · have hsv : s.starved = true := by
      rw [enters, hexc, hst, hz] at hheld
      simpa using hheld
    exact (fetch_of_starved h.shape h.flow hexc hst hsv).2
  · exact (fetch_of_frozen h.shape h.flow hexc hz).2.1

/-- A miss behind an empty ID comes closer to its end. -/
theorem left_of_inactive (h : Steady s) (hid : s.idInst.active = false)
    (hword : s.ifInst.isNop = false) (hheld : s.enters = false) :
    Prod.Lex (· < ·) (· < ·) ((cycle accessFault s).instLeft, (cycle accessFault s).dataLeft)
      (s.instLeft, s.dataLeft) := by
  obtain ⟨hexc, hst⟩ := unhindered_of_inactive h hid
  have hexc' := (exception_eq_excepted h.shape h.flow).trans hexc
  cases hsv : s.starved
  · -- the instruction miss is over, and stays over while a data miss holds IF
    have hz : s.frozen = true := by
      rw [enters, hexc, hst, hsv] at hheld
      simpa using hheld
    obtain ⟨hmiss, -, hpc, -⟩ := cycle_inst accessFault s
    have hflag := (fetch_of_frozen h.shape h.flow hexc hz).2.2
    rw [hflag, hsv, ite_self] at hmiss
    have hfed : (cycle accessFault s).starved = false :=
      not_starved_of_recorded hmiss (by
        rw [hpc, prevICPC_of_detect h.tracked (.inr ⟨hst, hword⟩),
          (held_of_inactive h hid hheld).2.1])
    have hinst : (cycle accessFault s).instLeft = s.instLeft := by
      rw [instLeft, instLeft, hfed, hsv, if_neg Bool.false_ne_true, if_neg Bool.false_ne_true]
    rw [hinst]
    exact .right _ (Nat.le_of_eq (dataLeft_cycle h.shape h.tracked hz))
  · exact .left _ _ (Nat.le_of_eq (instLeft_cycle h.tracked hexc' hst hsv))

/-- **Misses end.** Behind an empty ID, the instruction in IF enters ID after finitely many
cycles that do nothing to it. -/
theorem eventually_enters (h : Steady s) (hid : s.idInst.active = false)
    (hword : s.ifInst.isNop = false) :
    ∃ visited t, RunFrom accessFault anyCycle s visited t ∧
      (Steady t ∧ t.idInst.active = false ∧ t.ifInst = s.ifInst ∧ t.PC = s.PC) ∧
      t.enters = true := by
  have hstep : ∀ t, (Steady t ∧ t.idInst.active = false ∧ t.ifInst = s.ifInst ∧ t.PC = s.PC) →
      ¬ t.enters = true →
      anyCycle t ∧
        (Steady (cycle accessFault t) ∧ (cycle accessFault t).idInst.active = false ∧
          (cycle accessFault t).ifInst = s.ifInst ∧ (cycle accessFault t).PC = s.PC) ∧
        Prod.Lex (· < ·) (· < ·) ((cycle accessFault t).instLeft, (cycle accessFault t).dataLeft)
          (t.instLeft, t.dataLeft) := by
    rintro t ⟨ht, hid, hif, hPC⟩ hheld
    rw [Bool.not_eq_true] at hheld
    obtain ⟨hid', hif', hPC'⟩ := held_of_inactive ht hid hheld
    exact ⟨trivial, ⟨ht.cycle, hid', hif'.trans hif, hPC'.trans hPC⟩,
      left_of_inactive ht hid (hif ▸ hword) hheld⟩
  obtain ⟨visited, t, hrun, hinv, hdone, -⟩ :=
    Run.exists_done (Prod.lex Nat.lt_wfRel Nat.lt_wfRel).wf (fun t => (t.instLeft, t.dataLeft))
      (fun t => Steady t ∧ t.idInst.active = false ∧ t.ifInst = s.ifInst ∧ t.PC = s.PC)
      (fun t => t.enters = true) hstep s ⟨h, hid, rfl, rfl⟩
  exact ⟨visited, t, hrun, hinv, hdone⟩

end LoopState

end RvPipeSim
