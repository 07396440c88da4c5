import RvPipeSim.Conservation
import RvPipeSim.MissLatency

/-!
# Where the cycles go

A cycle is frozen by a data miss, or it moves the pipeline by one place and takes one slot
out at WB: an instruction, or padding. Padding enters in four ways, by a hazard, by an
illegal instruction (two slots at once), by an instruction miss and by a squashed fetch, and
the pipeline starts with four slots of it. `cycles_accounted` is the resulting balance: it
holds in every run, and it has no slack.

The two miss terms are settled against the counters of the caches. A data miss freezes
`missLatency` cycles, so the frozen cycles are a multiple of the D-cache's miss counter. An
instruction miss can be cut short by a redirect, so there the counter gives an upper bound.

## Main results

* `LoopState.Balanced.of_run` — the balance of slots holds in every run, step by step;
* `cycles_accounted` — cycles and padding are instructions, misses, hazards and squashes;
* `LoopState.frozen_of_run` and `LoopState.starved_of_run` — frozen and starved cycles against
  the miss counters, with what the miss under way still costs;
* `frozen_cycles` — a halting run is frozen for `missLatency` cycles a miss;
* `cycleCount_le` — its length is bounded by its instructions, its hazards and its misses.
-/

namespace RvPipeSim

open Simulator ObservedRun

/-- The slot holds no fetched instruction. -/
def Instruction.padding (inst : Instruction) : Bool := inst.seq.isNone

/-! ### The ways padding enters -/

namespace LoopState

/-- The padding in the four slots in front of WB. -/
def paddings (s : LoopState) : ℕ :=
  s.ifInst.padding.toNat + s.idInst.padding.toNat + s.exInst.padding.toNat +
    s.memInst.padding.toNat

/-- A hazard sends a bubble to EX in this cycle. -/
def bubbles (s : LoopState) : Bool := !s.frozen && !s.excepted && s.stalled

/-- An illegal instruction and the one behind it give way to padding in this cycle. -/
def drops (s : LoopState) : Bool := !s.frozen && s.excepted

/-- An instruction miss sends a bubble to ID in this cycle. -/
def starves (s : LoopState) : Bool := !s.frozen && !s.excepted && !s.stalled && s.starved

/-- The instruction in IF is squashed in this cycle. -/
def squashes (s : LoopState) : Bool := s.enters && mispredicted s.ifInst s.PC

/-- The padding that enters in this cycle. -/
def padded (s : LoopState) : ℕ :=
  s.bubbles.toNat + 2 * s.drops.toNat + s.starves.toNat + s.squashes.toNat

variable {s : LoopState}

/-- What makes an instruction padding is that it was never fetched. -/
theorem padding_eq {i j : Instruction} (h : i.toFetchInfo = j.toFetchInfo) :
    i.padding = j.padding := by
  rw [Instruction.padding, Instruction.padding, h]

/-- Padding put in by the pipeline is padding. -/
@[simp] theorem padding_nop (status : StageStatus) : (nop status).padding = true := rfl

/-- A fetched instruction is none. -/
theorem padding_of_fetched {inst : Instruction} (h : inst.Fetched) : inst.padding = false := by
  rw [Instruction.padding, ← Option.not_isSome, h.numbered]
  rfl

/-- The instruction an unfrozen cycle brings to MEM is the one that was in EX. -/
theorem padding_memInst_cycle (hs : Steady s) (hz : s.frozen = false) :
    (cycle accessFault s).memInst.padding = s.exInst.padding := by
  rw [cycle_memInst_eq hs.shape hs.flow, memOut_of_not_frozen _ hz]
  exact padding_eq (simMEM_toFetchInfo ..)

/-- The instruction ID hands on is the one that was in ID. -/
theorem padding_exInst_cycle (hs : Steady s) (hz : s.frozen = false) (hexc : s.excepted = false)
    (hst : s.stalled = false) : (cycle accessFault s).exInst.padding = s.idInst.padding := by
  rw [cycle_exInst_eq hs.shape hs.flow, exOut_of_moving hz hexc hst]
  exact padding_eq ((simEX_toFetchInfo _).trans s.idForwarded_toFetchInfo)

/-- A cycle that fetches leaves a fetched instruction in IF. -/
theorem padding_ifInst_cycle (h : s.refetched accessFault = true) :
    (cycle accessFault s).ifInst.padding = false := by
  obtain ⟨-, PC, status, -, hif⟩ := cycle_of_refetched accessFault s h
  rw [hif]
  rfl

/-! ### The balance of one cycle -/

/-- An illegal instruction in ID has a fetched instruction behind it. -/
theorem padding_of_excepted (hs : Steady s) (hexc : s.excepted = true) :
    s.idInst.padding = false ∧ s.ifInst.padding = false := by
  obtain ⟨-, hactive, -⟩ := illegal_of_excepted hexc
  refine ⟨?_, padding_of_fetched (hs.shape.ifSlot.resolve_left fun hidle => ?_)⟩
  · rw [Instruction.padding, ← Option.not_isSome, (hs.shape.id_of_active hactive).1.numbered]
    rfl
  · exact Bool.noConfusion (hactive.symm.trans (hs.flow.idle hidle).1)

/-- A frozen cycle takes nothing out and puts nothing in. -/
theorem paddings_of_frozen (hs : Steady s) (hz : s.frozen = true) :
    s.padded = 0 ∧ (cycle accessFault s).paddings = s.paddings := by
  have henters : s.enters = false := by
    rw [enters, hz]
    rfl
  have hif : (cycle accessFault s).ifInst.padding = s.ifInst.padding := by
    cases hexc : s.excepted
    · rw [(fetch_of_frozen hs.shape hs.flow hexc hz).1]
    · rw [(padding_of_excepted hs hexc).2, (fetch_of_excepted hs.shape hs.flow hexc).1]
      rfl
  obtain ⟨_, _, hid⟩ := (held_of_frozen hs hz).id
  refine ⟨?_, ?_⟩
  · rw [padded, bubbles, drops, starves, squashes, henters, hz]
    rfl
  · rw [paddings, paddings, hif, hid, (held_of_frozen hs hz).ex, (held_of_frozen hs hz).mem]
    rfl

/-- An unfrozen cycle takes out what is in MEM, and puts in what `padded` says. -/
theorem paddings_of_moving (hs : Steady s) (hz : s.frozen = false) :
    s.paddings + s.padded = (cycle accessFault s).paddings + s.memInst.padding.toNat := by
  have hmem := padding_memInst_cycle hs hz
  have hid := cycle_idInst_eq hs.shape hs.flow
  have hex := cycle_exInst_eq hs.shape hs.flow
  cases hexc : s.excepted
  · cases hst : s.stalled
    · have hex' := padding_exInst_cycle hs hz hexc hst
      cases hsv : s.starved
      · have henters : s.enters = true := enters_iff.mpr ⟨hz, hexc, hst, hsv⟩
        have hif : (cycle accessFault s).ifInst.padding = false :=
          padding_ifInst_cycle (by simp [refetched, hz, hst, hsv])
        cases hmp : mispredicted s.ifInst s.PC
        · -- the instruction in IF enters ID
          rw [idOut_of_decoding _ hz hexc hst hsv hmp] at hid
          have hid' : (cycle accessFault s).idInst.padding = s.ifInst.padding := by
            rw [hid, padding_eq (simID_toFetchInfo ..), enterID]
            split <;> rfl
          simp [paddings, padded, bubbles, drops, starves, squashes, hmem, hex', hid', hif, hexc,
            hst, hsv, hmp]
        · -- the instruction in IF is squashed
          rw [idOut_of_mispredicted _ hz hexc hst hsv hmp] at hid
          have hspec : s.ifInst.padding = false := by
            refine padding_of_fetched (hs.shape.ifSlot.resolve_left fun hidle => ?_)
            rw [hidle, mispredicted] at hmp
            exact Bool.noConfusion hmp
          simp [paddings, padded, bubbles, drops, starves, squashes, hmem, hex', hid, hif, hspec,
            hexc, hst, hsv, hmp, henters]
          omega
      · have hif := (fetch_of_starved hs.shape hs.flow hexc hst hsv).1
        rw [idOut_of_starved _ hz hexc hst hsv] at hid
        simp [paddings, padded, bubbles, drops, starves, squashes, hmem, hex', hid, hif, hz, hexc,
          hst, hsv, enters]
        omega
    · have hif : (cycle accessFault s).ifInst = s.ifInst :=
        (cycle_of_not_refetched _ _ (by
          simp [refetched, memExc_eq_false hs.shape hs.flow, hexc, hst])).2
      rw [exOut_of_stalled hz hexc hst] at hex
      have hid' : (cycle accessFault s).idInst.padding = s.idInst.padding := by
        rw [hid, idOut_of_stalled _ hz hexc hst]
        dsimp only
        split
        · exact padding_eq s.idForwarded_toFetchInfo
        · exact padding_eq s.idForwarded_toFetchInfo
      simp [paddings, padded, bubbles, drops, starves, squashes, hmem, hex, hid', hif, hz, hexc,
        hst, enters]
      omega
  · obtain ⟨hidp, hifp⟩ := padding_of_excepted hs hexc
    have hif : (cycle accessFault s).ifInst.padding = false :=
      padding_ifInst_cycle (by simp [refetched, hexc])
    rw [exOut_of_excepted hz hexc] at hex
    rw [idOut_of_excepted _ hz hexc] at hid
    simp [paddings, padded, bubbles, drops, starves, squashes, hmem, hex, hid, hif, hidp, hifp, hz,
      hexc, enters]
    omega

/-! ### The balance of a run -/

/-- What is handed to `simWB` and is no padding is legal. -/
theorem retires_of_steady (hs : Steady s) :
    (s.memInst.live legalFetch).isSome = !s.memInst.padding := by
  rw [live_of_unsquashed legalFetch_nop hs.unsquashed.mem, legalFetch, Instruction.padding,
    Option.not_isNone]
  rcases hs.shape.memSlot with ⟨status, hpad⟩ | hpassed
  · rw [hpad]
    rfl
  · have hlegal : s.memInst.isLegal = true := by
      cases hnop : s.memInst.isNop
      · refine hpassed.legal (active_iff.mpr ⟨hnop, ?_⟩)
        rcases hs.unsquashed.mem with ⟨status, hpad⟩ | hst
        · rw [hpad] at hnop
          exact Bool.noConfusion hnop
        · rw [hst]
          exact ⟨StageStatus.noConfusion, StageStatus.noConfusion⟩
      · exact (hpassed.wellFormed.isNop hnop).1
    rw [← hpassed.decode, hlegal, Bool.and_true, hpassed.numbered]
    rfl

/-- The instructions that have retired, with one more cycle. -/
theorem length_retiredPCs_concat (visited : List LoopState) (hs : Steady s) :
    (retiredPCs (visited ++ [s])).length =
      (retiredPCs visited).length + (!s.frozen && !s.memInst.padding).toNat := by
  rw [retiredPCs, retiredPCs, List.length_map, List.length_map, labelLog_concat,
    List.length_append, call, callLabel_wbCall, ← retires_of_steady hs]
  cases s.frozen
  · cases s.memInst.live legalFetch <;> rfl
  · rfl

/-- Every cycle is counted. -/
theorem cycle_cycleCount (fault : Fault) (s : LoopState) :
    (cycle fault s).cycleCount = s.cycleCount + 1 := by
  have hd : (detect s).cycleCount = s.cycleCount := by
    rw [detect, accessICache_frame, recordHazard, accessDCache_frame]
  rw [← hd]
  rfl

/-- A count over the states of a run, one cycle further. -/
theorem countP_concat (p : LoopState → Bool) (visited : List LoopState) (s : LoopState) :
    (visited ++ [s]).countP p = visited.countP p + (p s).toNat := by
  rw [List.countP_append, List.countP_singleton]
  cases p s <;> rfl

/-- What a run has counted when it has taken its cycles from `visited` and is in `s`. -/
structure Balanced (visited : List LoopState) (s : LoopState) : Prop where
  steady : Steady s
  cycles : s.cycleCount = visited.length
  balance : visited.length + s.paddings =
    (retiredPCs visited).length + 4 + visited.countP (·.frozen) + visited.countP (·.bubbles) +
      2 * visited.countP (·.drops) + visited.countP (·.starves) + visited.countP (·.squashes)

/-- One cycle keeps the balance: moving, the padding that comes in or goes out is what the cycle
is spent on; frozen, neither side of it changes but for the freeze. -/
theorem Balanced.cycle {visited : List LoopState} (h : Balanced visited s) :
    Balanced (visited ++ [s]) (RvPipeSim.cycle accessFault s) where
  steady := h.steady.cycle
  cycles := by
    rw [cycle_cycleCount, h.cycles, List.length_append]
    rfl
  balance := by
    have hbalance := h.balance
    rw [List.length_append, List.length_singleton, length_retiredPCs_concat visited h.steady,
      countP_concat, countP_concat, countP_concat, countP_concat, countP_concat]
    cases hz : s.frozen
    · have hmove := paddings_of_moving h.steady hz
      rw [padded] at hmove
      cases hpad : s.memInst.padding <;> simp [hpad] at hmove ⊢ <;> omega
    · obtain ⟨hnone, hkept⟩ := paddings_of_frozen h.steady hz
      rw [padded] at hnone
      simp
      omega

/-- Every run is balanced. -/
theorem Balanced.of_run {ok : LoopState → Prop} {iCacheConfig dCacheConfig : CacheConfig}
    {mem : MemoryStore} {visited : List LoopState}
    (h : PipelineRun accessFault ok iCacheConfig dCacheConfig mem visited s) :
    Balanced visited s :=
  h.historical Balanced ⟨.init iCacheConfig dCacheConfig mem, rfl, rfl⟩
    (fun _ _ hs _ => hs.cycle) fun _ _ hs => ⟨hs.steady.reenter, hs.cycles, hs.balance⟩

end LoopState

/-- **Every cycle is accounted for.** In every run, the cycles and the padding in flight make
up the retired instructions, the four slots the pipeline starts with, the cycles frozen by a
data miss, and the padding put in by hazards, illegal instructions (two slots each),
instruction misses and squashed fetches. -/
theorem cycles_accounted {ok : LoopState → Prop} {iCacheConfig dCacheConfig : CacheConfig}
    {mem : MemoryStore} {visited : List LoopState} {s : LoopState}
    (h : PipelineRun accessFault ok iCacheConfig dCacheConfig mem visited s) :
    s.cycleCount + s.paddings =
      (retiredPCs visited).length + 4 + visited.countP (·.frozen) + visited.countP (·.bubbles) +
        2 * visited.countP (·.drops) + visited.countP (·.starves) +
        visited.countP (·.squashes) := by
  rw [(LoopState.Balanced.of_run h).cycles]
  exact (LoopState.Balanced.of_run h).balance

/-- `lw x1, 256(x0); add x2, x1, x1; HALT`: its ten cycles are three instructions, the four
slots for filling the pipeline, and one cycle for each of the two misses and the hazard. -/
theorem cycles_accounted_load_use :
    let start := enter (initSimulator (.oneBlock 64) (.oneBlock 64)
      (.image fun | 0 => 0x10002083 | 1 => 0x00108133 | 2 => 0xfeedfeed | _ => 0x00000013))
    let visited := (List.range 10).map fun k => (cycle accessFault)^[k] start
    ((cycle accessFault)^[10] start).cycleCount + ((cycle accessFault)^[10] start).paddings =
      (retiredPCs visited).length + 4 + visited.countP (·.frozen) + visited.countP (·.bubbles) +
        2 * visited.countP (·.drops) + visited.countP (·.starves) +
        visited.countP (·.squashes) :=
  cycles_accounted
    (run_iterate (n := 10) fun _ _ => trivial : PipelineRun accessFault anyCycle _ _ _ _ _)

/-! ### Frozen cycles -/

/-- The cycles a miss costs if nothing cuts it short: `missLatency`, but `2 ^ 64` for 0. -/
def missCost (config : CacheConfig) : ℕ := lastMissCycle config + 1

/-- From latency 1 on a miss costs the latency. -/
theorem missCost_eq {config : CacheConfig} (hlatency : 1 ≤ config.missLatency)
    (hmax : config.missLatency < 2 ^ 64) : missCost config = config.missLatency :=
  (lastMissCycle_succ_eq_iff hmax).mpr hlatency

namespace LoopState

variable {s : LoopState}

/-- The frozen cycles that are still to come of a miss already counted. -/
def dataPending (s : LoopState) : ℕ := if s.dataFetchMiss then s.dataLeft else 0

/-- The miss counter of the D-cache counts the misses. -/
theorem dCache_misses_cycle (fault : Fault) (s : LoopState) :
    (cycle fault s).dCache.misses = s.dCache.misses + s.dataMiss.toNat := by
  rw [dCache_cycle, accessDCache_eq, dataMiss, accessMisses]
  cases s.dataFetchMiss
  · cases isLoad s.memInst || isStore s.memInst
    · rfl
    · cases !s.prevDValid || s.memInst.memAddress != s.prevDAddr || s.memInst.cacheOp != s.prevDOp
      · rfl
      · rfl
  · cases isLoad s.memInst || isStore s.memInst <;> rfl

/-- The countdown does not see the parked miss state. -/
theorem dataLeft_reenter (s : LoopState) : (reenter s).dataLeft = s.dataLeft := by
  have hcount : (accessDCache (reenter s)).dataMissStalls = (accessDCache s).dataMissStalls := by
    rw [reenter_eq_park, accessDCache_park]
    rfl
  have hconfig : (reenter s).dCache.config = s.dCache.config := rfl
  rw [dataLeft, dataLeft, frozen_reenter, hcount, hconfig]

/-- Nor do the frozen cycles to come. -/
theorem dataPending_reenter (s : LoopState) : (reenter s).dataPending = s.dataPending := by
  have hmiss : (reenter s).dataFetchMiss = s.dataFetchMiss := rfl
  rw [dataPending, dataPending, dataLeft_reenter, hmiss]

/-- What a frozen cycle leaves pending. -/
theorem dataPending_of_frozen (hs : Steady s) (hz : s.frozen = true) :
    (cycle accessFault s).dataPending + 1 = s.dataLeft := by
  have hleft : (cycle accessFault s).dataLeft + 1 = s.dataLeft :=
    dataLeft_cycle hs.shape hs.tracked hz
  rw [dataPending]
  cases hmiss : (cycle accessFault s).dataFetchMiss
  · -- the freeze is over, and the access on record is not made again
    have hrec : (cycle accessFault s).DataRecorded := hs.tracked.recorded_of_frozen hs.shape hz
    have hthaw : (cycle accessFault s).frozen = false := by
      rw [frozen_eq, accessDCache_of_recorded hmiss hrec, hmiss]
    rw [not_frozen_iff_dataLeft.mp hthaw] at hleft
    exact hleft
  · exact hleft

/-- Without a miss nothing is pending. -/
theorem dataPending_of_no_miss (hmiss : s.dataFetchMiss = false) : s.dataPending = 0 := by
  rw [dataPending, hmiss, if_neg Bool.false_ne_true]

/-- With a miss the rest of the countdown is pending. -/
theorem dataPending_of_miss (hmiss : s.dataFetchMiss = true) : s.dataPending = s.dataLeft := by
  rw [dataPending, hmiss, if_pos rfl]

/-- A cycle is one frozen cycle of the misses counted, or none is pending. -/
theorem dataPending_cycle (hs : Steady s) :
    s.frozen.toNat + (cycle accessFault s).dataPending =
      s.dataPending + missCost s.dCache.config * s.dataMiss.toNat := by
  cases hmiss : s.dataFetchMiss
  · have hnew : s.dataMiss = s.frozen := by
      rw [dataMiss, hmiss, (frozen_of_no_miss hmiss).1, Bool.not_false, Bool.true_and]
    have hstart : s.dataLeft = if s.frozen then missCost s.dCache.config else 0 := by
      rw [(frozen_of_no_miss hmiss).1]
      exact dataLeft_of_no_miss hmiss
    rw [dataPending_of_no_miss hmiss, hnew, Nat.zero_add]
    cases hz : s.frozen
    · rw [dataPending_of_no_miss (dataFetchMiss_cycle accessFault hz), Bool.toNat_false,
        Nat.mul_zero]
    · rw [hz, if_pos rfl] at hstart
      rw [← hstart, Bool.toNat_true, Nat.mul_one, Nat.add_comm, dataPending_of_frozen hs hz]
  · have hz := (frozen_of_miss hmiss).1
    have hnew : s.dataMiss = false := by
      rw [dataMiss, hmiss, Bool.not_true, Bool.false_and]
    rw [dataPending_of_miss hmiss, hnew, hz, Bool.toNat_true, Bool.toNat_false, Nat.mul_zero,
      Nat.add_comm, dataPending_of_frozen hs hz, Nat.add_zero]

/-- **Every D-cache miss is paid for in full.** The frozen cycles of a run and those pending
are the misses times their cost. -/
theorem frozen_of_run {ok : LoopState → Prop} {iCacheConfig dCacheConfig : CacheConfig}
    {mem : MemoryStore} {visited : List LoopState}
    (h : PipelineRun accessFault ok iCacheConfig dCacheConfig mem visited s) :
    visited.countP (·.frozen) + s.dataPending =
      missCost dCacheConfig * s.dCache.misses := by
  refine (h.historical (fun visited s => (Steady s ∧ s.dCache.config = dCacheConfig) ∧
    visited.countP (·.frozen) + s.dataPending =
      missCost dCacheConfig * s.dCache.misses)
    ⟨⟨.init iCacheConfig dCacheConfig mem, rfl⟩, (Nat.mul_zero _).symm⟩ ?_ ?_).2
  · rintro visited s ⟨⟨hs, hconfig⟩, hcount⟩ -
    refine ⟨⟨hs.cycle, (cycle_data accessFault s).2.2.2.2.2.trans hconfig⟩, ?_⟩
    have hstep := dataPending_cycle hs
    rw [hconfig] at hstep
    calc (visited ++ [s]).countP (·.frozen) + (RvPipeSim.cycle accessFault s).dataPending
        = visited.countP (·.frozen) +
            (s.frozen.toNat + (RvPipeSim.cycle accessFault s).dataPending) := by
          rw [countP_concat, Nat.add_assoc]
      _ = missCost dCacheConfig * s.dCache.misses +
            missCost dCacheConfig * s.dataMiss.toNat := by
          rw [hstep, ← hcount, Nat.add_assoc]
      _ = _ := by rw [dCache_misses_cycle, Nat.mul_add]
  · rintro visited s ⟨⟨hs, hconfig⟩, hcount⟩
    refine ⟨⟨hs.reenter, hconfig⟩, ?_⟩
    rw [dataPending_reenter]
    exact hcount

/-! ### Cycles of an instruction miss -/

/-- The cycles that are still to come of an instruction miss already counted. -/
def instPending (s : LoopState) : ℕ := if s.instFetchMiss then s.instLeft else 0

/-- Without a miss nothing is pending. -/
theorem instPending_of_no_miss (hmiss : s.instFetchMiss = false) : s.instPending = 0 := by
  rw [instPending, hmiss, if_neg Bool.false_ne_true]

/-- With a miss the rest of the countdown is pending. -/
theorem instPending_of_miss (hmiss : s.instFetchMiss = true) : s.instPending = s.instLeft := by
  rw [instPending, hmiss, if_pos rfl]

/-- The countdown does not see the parked miss state. -/
theorem instLeft_reenter (s : LoopState) : (reenter s).instLeft = s.instLeft := by
  have hcount : (detect (reenter s)).instMissStalls = (detect s).instMissStalls := by
    rw [reenter_eq_park, detect_park]
    rfl
  have hconfig : (reenter s).iCache.config = s.iCache.config := rfl
  rw [instLeft, instLeft, starved_reenter, hcount, hconfig]

/-- Nor do the cycles to come of an instruction miss. -/
theorem instPending_reenter (s : LoopState) : (reenter s).instPending = s.instPending := by
  have hmiss : (reenter s).instFetchMiss = s.instFetchMiss := rfl
  rw [instPending, instPending, instLeft_reenter, hmiss]

/-- The I-cache access misses under the conditions of `instMiss`, and counts its miss. -/
theorem accessICache_misses (stall : Bool) (s : LoopState) :
    let miss := !stall && !s.instFetchMiss && !s.ifInst.isNop && s.ifInst.PC != s.prevICPC &&
      !(s.iCache.access s.ifInst.PC .cacheRead).1
    (accessICache stall s).iCache.misses = s.iCache.misses + miss.toNat ∧
      (s.instFetchMiss = false → (accessICache stall s).instFetchMiss = miss) := by
  intro miss
  rw [accessICache]
  dsimp only
  cases hlook : !stall && !s.instFetchMiss && !s.ifInst.isNop
  · have hmiss : miss = false := by
      dsimp only [miss]
      rw [hlook, Bool.false_and, Bool.false_and]
    rw [hmiss, if_neg Bool.false_ne_true]
    refine ⟨by split <;> rfl, fun hpending => ?_⟩
    rw [if_neg (by simp [hpending])]
    exact hpending
  · cases hnew : s.ifInst.PC != s.prevICPC
    · have hmiss : miss = false := by
        dsimp only [miss]
        rw [hnew, Bool.and_false, Bool.false_and]
      rw [hmiss, if_pos rfl, if_neg Bool.false_ne_true]
      exact ⟨rfl, id⟩
    · have hmiss : miss = !(s.iCache.access s.ifInst.PC .cacheRead).1 := by
        dsimp only [miss]
        rw [hlook, hnew, Bool.true_and, Bool.true_and]
      rw [hmiss, if_pos rfl, if_pos rfl]
      exact ⟨rfl, fun _ => rfl⟩

/-- What the I-cache access of this cycle sees. -/
theorem detect_misses (s : LoopState) :
    (detect s).iCache.misses = s.iCache.misses + s.instMiss.toNat ∧
      (s.instFetchMiss = false → s.starved = s.instMiss) := by
  obtain ⟨-, hpc, hcache⟩ := accessDCache_inst s
  have hif : (recordHazard (accessDCache s)).ifInst = s.ifInst := by
    rw [recordHazard, ifInst, accessDCache_pipelineInfo]
  have hpc' : (recordHazard (accessDCache s)).prevICPC = s.prevICPC := hpc
  have hcache' : (recordHazard (accessDCache s)).iCache = s.iCache := hcache
  have hflag : (recordHazard (accessDCache s)).instFetchMiss = s.instFetchMiss :=
    accessDCache_instFetchMiss s
  have hspec := accessICache_misses s.hazard.stall (recordHazard (accessDCache s))
  rwa [hif, hpc', hcache', hflag] at hspec

/-- The miss counter of the I-cache counts the misses. -/
theorem iCache_misses_cycle (fault : Fault) (s : LoopState) :
    (cycle fault s).iCache.misses = s.iCache.misses + s.instMiss.toNat :=
  (detect_misses s).1

/-- A miss that IF leaves pending has counted on. -/
theorem instMissStalls_of_fetchOut {fault : Fault}
    (hmiss : (s.fetchOut fault).instFetchMiss = true) :
    (s.fetchOut fault).instMissStalls = (detect s).instMissStalls := by
  rw [fetchOut, ifStage] at hmiss ⊢
  dsimp only at hmiss ⊢
  split_ifs at hmiss ⊢ <;> rfl

/-- A cycle takes one off what is left of an instruction miss, or ends it. -/
theorem instPending_of_starved (fault : Fault) (hsv : s.starved = true) :
    (cycle fault s).instPending + 1 ≤ s.instLeft := by
  cases hmiss : (cycle fault s).instFetchMiss
  · rw [instPending_of_no_miss hmiss, instLeft, hsv, if_pos rfl]
    omega
  · have hout := instFetchMiss_of_cycle fault s hmiss
    obtain ⟨hflag, hstalls, -, hconfig⟩ := cycle_inst fault s
    obtain ⟨hsv', hcount⟩ := starved_of_miss hmiss
    rw [instMissStalls_of_fetchOut hout] at hflag hstalls
    have hlast : ¬ (detect s).instMissStalls ≥ lastMissCycle s.iCache.config := fun hlast => by
      rw [if_pos hlast, hmiss] at hflag
      exact Bool.noConfusion hflag
    rw [if_neg hlast] at hstalls
    rw [instPending_of_miss hmiss, instLeft, instLeft, hsv, hsv', if_pos rfl, if_pos rfl, hcount,
      hstalls, hconfig]
    omega

/-- A cycle is one cycle of the instruction misses counted, or none is seen. -/
theorem instPending_cycle (fault : Fault) (s : LoopState) :
    s.starved.toNat + (cycle fault s).instPending ≤
      s.instPending + missCost s.iCache.config * s.instMiss.toNat := by
  cases hsv : s.starved
  · have hnone : (cycle fault s).instFetchMiss = false := by
      by_contra hmiss
      rw [Bool.not_eq_false] at hmiss
      have hout := instFetchMiss_of_cycle fault s hmiss
      exact Bool.noConfusion (hsv.symm.trans (starved_of_fetchOut hout).1)
    rw [instPending_of_no_miss hnone]
    exact Nat.zero_le _
  · have hstep := instPending_of_starved fault hsv
    rw [Bool.toNat_true, Nat.add_comm]
    refine Nat.le_trans hstep ?_
    cases hmiss : s.instFetchMiss
    · have hnew : s.instMiss = true := ((detect_misses s).2 hmiss).symm.trans hsv
      rw [(instLeft_of_instMiss hnew).2.1, hnew, Bool.toNat_true, Nat.mul_one, missCost]
      exact Nat.le_add_left _ _
    · rw [instPending_of_miss hmiss]
      exact Nat.le_add_right _ _

/-- ID takes a bubble only while an instruction misses. -/
theorem countP_starves_le (visited : List LoopState) :
    visited.countP (·.starves) ≤ visited.countP (·.starved) :=
  List.countP_mono_left fun u _ hu => by
    rw [starves, Bool.and_eq_true] at hu
    exact hu.2

/-- **No I-cache miss costs more than its latency.** -/
theorem starved_of_run {ok : LoopState → Prop} {fault : Fault}
    {iCacheConfig dCacheConfig : CacheConfig} {mem : MemoryStore} {visited : List LoopState}
    (h : PipelineRun fault ok iCacheConfig dCacheConfig mem visited s) :
    visited.countP (·.starved) + s.instPending ≤
      missCost iCacheConfig * s.iCache.misses := by
  refine (h.historical (fun visited s => s.iCache.config = iCacheConfig ∧
    visited.countP (·.starved) + s.instPending ≤
      missCost iCacheConfig * s.iCache.misses) ⟨rfl, Nat.zero_le _⟩ ?_ ?_).2
  · rintro visited s ⟨hconfig, hcount⟩ -
    refine ⟨(cycle_inst fault s).2.2.2.trans hconfig, ?_⟩
    have hstep := instPending_cycle fault s
    rw [hconfig] at hstep
    rw [iCache_misses_cycle, Nat.mul_add, countP_concat]
    omega
  · rintro visited s ⟨hconfig, hcount⟩
    refine ⟨hconfig, ?_⟩
    rw [instPending_reenter]
    exact hcount

end LoopState

/-! ### The length of a halting run -/

/-- A halting `runTillHalt` is a run up to the state that is left. -/
theorem run_to_halt {fault : Fault} {iCacheConfig dCacheConfig : CacheConfig} {mem : MemoryStore}
    {fuel : ℕ} {m : Machine}
    (h : runTillHalt fault fuel (initSimulator iCacheConfig dCacheConfig mem) = some m) :
    ∃ s, s.halts fault = true ∧ m = leave (cycle fault s) ∧
      PipelineRun fault anyCycle iCacheConfig dCacheConfig mem
        (haltTrace fault fuel (initSimulator iCacheConfig dCacheConfig mem)) (cycle fault s) := by
  obtain ⟨visited, s, hrun, hhalt, hm, htrace⟩ := run_of_runTillHalt h
  exact ⟨s, hhalt, hm, htrace ▸ (hrun.mono fun _ _ => trivial).next trivial⟩

/-- Leaving `runCycles` keeps the counters. -/
theorem leave_counters (s : LoopState) :
    (leave s).cycleCount = s.cycleCount ∧ (leave s).dCache.misses = s.dCache.misses ∧
      (leave s).iCache.misses = s.iCache.misses := ⟨rfl, rfl, rfl⟩

/-- **The frozen cycles of a halting run are its D-cache misses times the latency.** -/
theorem frozen_cycles {iCacheConfig dCacheConfig : CacheConfig} {mem : MemoryStore} {fuel : ℕ}
    {m : Machine}
    (h : runTillHalt accessFault fuel (initSimulator iCacheConfig dCacheConfig mem) = some m)
    (hlatency : 1 ≤ dCacheConfig.missLatency) (hmax : dCacheConfig.missLatency < 2 ^ 64) :
    (haltTrace accessFault fuel (initSimulator iCacheConfig dCacheConfig mem)).countP (·.frozen) =
      dCacheConfig.missLatency * m.dCache.misses := by
  obtain ⟨s, hhalt, rfl, hrun⟩ := run_to_halt h
  have hnone : (cycle accessFault s).dataPending = 0 :=
    LoopState.dataPending_of_no_miss
      (LoopState.dataFetchMiss_cycle accessFault (LoopState.not_frozen_of_halts hhalt))
  have hcount := LoopState.frozen_of_run hrun
  rw [hnone, Nat.add_zero, missCost_eq hlatency hmax] at hcount
  rw [hcount, (leave_counters _).2.1]

/-- `lw x1, 256(x0); add x2, x1, x1; HALT` under a D-cache of latency 3. -/
theorem frozen_cycles_load_use :
    let mem : MemoryStore :=
      .image fun | 0 => 0x10002083 | 1 => 0x00108133 | 2 => 0xfeedfeed | _ => 0x00000013
    ∃ m, runTillHalt accessFault 30 (initSimulator (.oneBlock 64) ⟨64, 64, 1, 3⟩ mem) = some m ∧
      (haltTrace accessFault 30 (initSimulator (.oneBlock 64) ⟨64, 64, 1, 3⟩ mem)).countP
        (·.frozen) = 3 * m.dCache.misses := by
  intro mem
  obtain ⟨m, h⟩ := Option.isSome_iff_exists.mp (by decide +kernel :
    (runTillHalt accessFault 30 (initSimulator (.oneBlock 64) ⟨64, 64, 1, 3⟩ mem)).isSome = true)
  exact ⟨m, h, frozen_cycles h (by decide) (by decide)⟩

/-- **How long a halting run can be.** It takes no more cycles than it retires instructions,
with four for filling the pipeline, the miss counters times the latencies, one cycle for each
hazard bubble and each squashed fetch, and two for each illegal instruction. -/
theorem cycleCount_le {iCacheConfig dCacheConfig : CacheConfig} {mem : MemoryStore} {fuel : ℕ}
    {m : Machine}
    (h : runTillHalt accessFault fuel (initSimulator iCacheConfig dCacheConfig mem) = some m)
    (hinst : 1 ≤ iCacheConfig.missLatency) (hinst' : iCacheConfig.missLatency < 2 ^ 64)
    (hdata : 1 ≤ dCacheConfig.missLatency) (hdata' : dCacheConfig.missLatency < 2 ^ 64) :
    let trace := haltTrace accessFault fuel (initSimulator iCacheConfig dCacheConfig mem)
    m.cycleCount ≤ (retiredPCs trace).length + 4 + dCacheConfig.missLatency * m.dCache.misses +
      iCacheConfig.missLatency * m.iCache.misses + trace.countP (·.bubbles) +
      2 * trace.countP (·.drops) + trace.countP (·.squashes) := by
  obtain ⟨s, hhalt, rfl, hrun⟩ := run_to_halt h
  obtain ⟨-, hcycle, hbalance⟩ := LoopState.Balanced.of_run hrun
  have hfrozen := LoopState.frozen_of_run hrun
  have hstarved := LoopState.starved_of_run hrun
  rw [missCost_eq hdata hdata'] at hfrozen
  rw [missCost_eq hinst hinst'] at hstarved
  have hsub := LoopState.countP_starves_le
    (haltTrace accessFault fuel (initSimulator iCacheConfig dCacheConfig mem))
  obtain ⟨hcycles, hdmiss, himiss⟩ := leave_counters (cycle accessFault s)
  dsimp only
  rw [hcycles, hdmiss, himiss]
  omega

/-- The same program with a taken branch in front of the HALT: `lw x1, 256(x0);
add x2, x1, x1; jal x0, +12; nop; nop; HALT`. -/
theorem cycleCount_le_jump :
    let mem : MemoryStore := .image fun
      | 0 => 0x10002083 | 1 => 0x00108133 | 2 => 0x00c0006f | 5 => 0xfeedfeed | _ => 0x00000013
    let trace := haltTrace accessFault 40 (initSimulator ⟨32, 4, 1, 2⟩ ⟨64, 64, 1, 3⟩ mem)
    ∃ m, runTillHalt accessFault 40 (initSimulator ⟨32, 4, 1, 2⟩ ⟨64, 64, 1, 3⟩ mem) = some m ∧
      m.cycleCount ≤ (retiredPCs trace).length + 4 + 3 * m.dCache.misses + 2 * m.iCache.misses +
        trace.countP (·.bubbles) + 2 * trace.countP (·.drops) + trace.countP (·.squashes) := by
  intro mem trace
  obtain ⟨m, h⟩ := Option.isSome_iff_exists.mp (by decide +kernel :
    (runTillHalt accessFault 40 (initSimulator ⟨32, 4, 1, 2⟩ ⟨64, 64, 1, 3⟩ mem)).isSome = true)
  exact ⟨m, h, cycleCount_le h (by decide) (by decide) (by decide) (by decide)⟩

end RvPipeSim
