import Mathlib.Data.List.Nodup
import RvPipeSim.Conservation

/-!
# Memory exceptions

When a load faults, MEM squashes it, squashes what EX and ID have just computed, and
restarts the fetch at the handler. The squashed instructions stay in their slots and move
on with the others; they have no effect because every stage looks at their status, with one
exception: the halt test looks only at `isHalt`.

The numbers from the faulting load up to the first handler fetch are those that have to
have no effect (`Suppressed`).

## Main results

* `Ordered.of_run` — the numbers in the slots rise from MEM to IF in every run;
* `Flushed.of_exception`, `Flushed.cycle` — what a fault squashes is marked and stays marked;
* `suppressed_now`, `suppressed_later` — what is marked writes nothing, is not counted and does
  not halt the simulator, unless it is a HALT;
* `halts_of_haltBehind` — a squashed HALT in EX or ID does halt it;
* `memory_exception_precise_iff` — for every fault test the exception is precise exactly if no
  HALT is among the instructions squashed in EX and ID.
-/

namespace RvPipeSim

open Simulator ObservedRun

/-! ### The order of the slots, squashed instructions included -/

namespace LoopState

variable (fault : Fault) (s : LoopState)

/-- After a cycle MEM holds the number that was in EX, or its own in a freeze. -/
theorem seq_memInst :
    (cycle fault s).memInst.seq = if s.frozen then s.memInst.seq else s.exInst.seq := by
  have hsquash : (cycle fault s).memInst.seq = (s.memOut fault).1.seq := by
    rw [cycle_memInst]
    rfl
  rw [hsquash]
  cases hz : s.frozen
  · rw [memOut_of_not_frozen fault hz, simMEM_toFetchInfo]
    rfl
  · rw [memOut_of_frozen fault hz]
    rfl

/-- After a cycle EX holds the number that was in ID, its own in a freeze, or a bubble. -/
theorem seq_exInst :
    (cycle fault s).exInst.seq =
      if s.frozen then s.exInst.seq else if s.excepted || s.stalled then none
      else s.idInst.seq := by
  have hsquash : (cycle fault s).exInst.seq = s.exOut.seq := by
    rw [cycle_exInst]
    rfl
  rw [hsquash]
  cases hz : s.frozen
  · cases hexc : s.excepted
    · cases hst : s.stalled
      · rw [exOut_of_moving hz hexc hst, simEX_toFetchInfo, idForwarded, forwardToID_toFetchInfo]
        rfl
      · rw [exOut_of_stalled hz hexc hst]
        rfl
    · rw [exOut_of_excepted hz hexc]
      rfl
  · rw [exOut_of_frozen hz]
    rfl

/-- Forwarding does not touch the number. -/
theorem seq_idForwarded : s.idForwarded.seq = s.idInst.seq := by
  rw [idForwarded, forwardToID_toFetchInfo]

/-- After a cycle ID holds the number that was in IF, its own while it is held, or none. -/
theorem seq_idInst :
    (cycle fault s).idInst.seq =
      if s.frozen then s.idInst.seq else if s.excepted then none
      else if s.stalled then s.idInst.seq
      else if s.starved || mispredicted s.ifInst s.PC then none else s.ifInst.seq := by
  have hsquash : (cycle fault s).idInst.seq = (s.idOut fault).1.seq := by
    rw [cycle_idInst]
    rfl
  rw [hsquash]
  cases hz : s.frozen
  · cases hexc : s.excepted
    · cases hst : s.stalled
      · cases hsv : s.starved
        · cases hmp : mispredicted s.ifInst s.PC
          · rw [idOut_of_decoding fault hz hexc hst hsv hmp, simID_toFetchInfo, enterID]
            split <;> rfl
          · rw [idOut_of_mispredicted fault hz hexc hst hsv hmp]
            rfl
        · rw [idOut_of_starved fault hz hexc hst hsv]
          rfl
      · rw [idOut_of_stalled fault hz hexc hst]
        dsimp only
        split <;> exact s.seq_idForwarded
    · rw [idOut_of_excepted fault hz hexc]
      rfl
  · rw [idOut_of_frozen fault hz]
    exact s.seq_idForwarded

/-- After a cycle IF holds a new number or its own. -/
theorem seq_ifInst :
    (cycle fault s).ifInst.seq = if s.refetched fault then some s.fetched else s.ifInst.seq := by
  cases hfetch : s.refetched fault
  · rw [(cycle_of_not_refetched fault s hfetch).2]
    rfl
  · obtain ⟨-, PC, status, -, hif⟩ := cycle_of_refetched fault s hfetch
    rw [hif]
    rfl

/-- The numbers in MEM, EX, ID and IF, squashed or not, oldest first. -/
def slots : List ℕ :=
  s.memInst.seq.toList ++ (s.exInst.seq.toList ++ (s.idInst.seq.toList ++ s.ifInst.seq.toList))

/-- What stays in ID. -/
def held : List ℕ := if !s.frozen && (s.excepted || !s.stalled) then [] else s.idInst.seq.toList

/-- What is in ID and IF after a cycle was held in ID, was in IF or is new. -/
theorem sublist_front :
    ((cycle fault s).idInst.seq.toList ++ (cycle fault s).ifInst.seq.toList).Sublist
      (s.held ++ (s.ifInst.seq.toList ++ s.fetchedNow fault)) := by
  rw [seq_idInst, seq_ifInst, held, fetchedNow, refetched]
  cases s.frozen <;> cases s.excepted <;> cases s.stalled <;> cases s.starved <;>
    cases mispredicted s.ifInst s.PC <;> cases s.memExc fault <;> simp

/-- What is in MEM and EX after a cycle, and what is held in ID, was in MEM, EX and ID. -/
theorem sublist_back :
    ((cycle fault s).memInst.seq.toList ++ ((cycle fault s).exInst.seq.toList ++ s.held)).Sublist
      (s.memInst.seq.toList ++ (s.exInst.seq.toList ++ s.idInst.seq.toList)) := by
  rw [seq_memInst, seq_exInst, held]
  cases s.frozen <;> cases s.excepted <;> cases s.stalled <;> simp

/-- What the slots hold after a cycle was there, in this order, or is the new fetch. -/
theorem sublist_slots : ((cycle fault s).slots).Sublist (s.slots ++ s.fetchedNow fault) := by
  have hfront := ((s.sublist_front fault).append_left (cycle fault s).exInst.seq.toList).append_left
    (cycle fault s).memInst.seq.toList
  have hback := (s.sublist_back fault).append_right (s.ifInst.seq.toList ++ s.fetchedNow fault)
  simp only [slots, List.append_assoc] at hfront hback ⊢
  exact hfront.trans hback

end LoopState

/-- The slots are in order, and below the fetch counter. -/
structure Ordered (s : LoopState) : Prop where
  sorted : s.slots.Pairwise (· < ·)
  bounded : ∀ n ∈ s.slots, n < s.fetched

namespace Ordered

variable {fault : Fault} {s : LoopState}

/-- A cycle keeps the order: what moves, moves behind what was ahead of it, and a new fetch has
the largest number. -/
theorem cycle (h : Ordered s) : Ordered (RvPipeSim.cycle fault s) := by
  have hsub := s.sublist_slots fault
  have hnew : ∀ n ∈ s.fetchedNow fault, n = s.fetched := by
    intro n hn
    rw [LoopState.fetchedNow] at hn
    split at hn <;> simp_all
  refine ⟨List.Pairwise.sublist hsub ?_, fun n hn => ?_⟩
  · rw [List.pairwise_append]
    refine ⟨h.sorted, ?_, fun n hn m hm => ?_⟩
    · rw [LoopState.fetchedNow]
      split <;> simp
    · rw [hnew m hm]
      exact h.bounded n hn
  · rw [s.fetched_cycle fault]
    rcases List.mem_append.mp (hsub.subset hn) with hn | hn
    · exact Nat.lt_of_lt_of_le (h.bounded n hn) (Nat.le_add_right _ _)
    · have hpos : 0 < (s.fetchedNow fault).length := List.length_pos_of_mem hn
      have hn' := hnew n hn
      omega

/-- Entering `runCycles` again moves nothing. -/
theorem reenter (h : Ordered s) : Ordered (RvPipeSim.reenter s) := ⟨h.sorted, h.bounded⟩

/-- At the start the slots are empty. -/
theorem init (iCacheConfig dCacheConfig : CacheConfig) (mem : MemoryStore) :
    Ordered (enter (initSimulator iCacheConfig dCacheConfig mem)) :=
  ⟨.nil, fun _ hn => absurd hn List.not_mem_nil⟩

/-- The slots are in order all along a run. -/
theorem of_run {ok : LoopState → Prop} {iCacheConfig dCacheConfig : CacheConfig}
    {mem : MemoryStore} {visited : List LoopState}
    (h : PipelineRun fault ok iCacheConfig dCacheConfig mem visited s) : Ordered s :=
  (h.invariant Ordered (.init iCacheConfig dCacheConfig mem)
    (fun _ hs _ => hs.cycle) (fun _ hs => hs.reenter)).1

variable {n m : ℕ} (h : Ordered s)

include h

/-- What is in MEM is older than what is in EX. -/
theorem mem_lt_ex (hn : s.memInst.seq = some n) (hm : s.exInst.seq = some m) : n < m := by
  have hsorted := h.sorted
  rw [LoopState.slots, hn, hm] at hsorted
  exact (List.pairwise_append.mp hsorted).2.2 n (by simp) m (by simp)

/-- What is in MEM is older than what is in ID. -/
theorem mem_lt_id (hn : s.memInst.seq = some n) (hm : s.idInst.seq = some m) : n < m := by
  have hsorted := h.sorted
  rw [LoopState.slots, hn, hm] at hsorted
  exact (List.pairwise_append.mp hsorted).2.2 n (by simp) m (by simp)

/-- What is in EX is older than what is in ID. -/
theorem ex_lt_id (hn : s.exInst.seq = some n) (hm : s.idInst.seq = some m) : n < m := by
  have hsorted := (List.pairwise_append.mp h.sorted).2.1
  rw [hn, hm] at hsorted
  exact (List.pairwise_append.mp hsorted).2.2 n (by simp) m (by simp)

/-- What is in EX is older than what is in IF. -/
theorem ex_lt_if (hn : s.exInst.seq = some n) (hm : s.ifInst.seq = some m) : n < m := by
  have hsorted := (List.pairwise_append.mp h.sorted).2.1
  rw [hn, hm] at hsorted
  exact (List.pairwise_append.mp hsorted).2.2 n (by simp) m (by simp)

/-- What is in ID is older than what is in IF. -/
theorem id_lt_if (hn : s.idInst.seq = some n) (hm : s.ifInst.seq = some m) : n < m := by
  have hsorted := (List.pairwise_append.mp (List.pairwise_append.mp h.sorted).2.1).2.1
  rw [hn, hm] at hsorted
  exact (List.pairwise_append.mp hsorted).2.2 n (by simp) m (by simp)

/-- What is in ID has been fetched. -/
theorem id_lt_fetched (hn : s.idInst.seq = some n) : n < s.fetched :=
  h.bounded n (by simp [LoopState.slots, hn])

/-- What is in IF has been fetched. -/
theorem if_lt_fetched (hn : s.ifInst.seq = some n) : n < s.fetched :=
  h.bounded n (by simp [LoopState.slots, hn])

end Ordered

/-- What was in ID is older than what IF holds, or will hold. -/
def BehindID (visited : List LoopState) (s : LoopState) : Prop :=
  ∀ u ∈ visited, ∀ n, u.idInst.seq = some n →
    n < s.fetched ∧ ∀ m, s.ifInst.seq = some m → n < m

/-- After a cycle, too, what IF holds is younger than all that has been in ID. -/
theorem BehindID.cycle {fault : Fault} {visited : List LoopState} {s : LoopState}
    (h : BehindID visited s) (hord : Ordered s) :
    BehindID (visited ++ [s]) (RvPipeSim.cycle fault s) := by
  intro u hu n hn
  have hold : n < s.fetched ∧ ∀ m, s.ifInst.seq = some m → n < m := by
    rcases List.mem_append.mp hu with hu | hu
    · exact h u hu n hn
    · obtain rfl := List.mem_singleton.mp hu
      exact ⟨hord.id_lt_fetched hn, fun m hm => hord.id_lt_if hn hm⟩
  rw [s.fetched_cycle fault, LoopState.seq_ifInst]
  refine ⟨by omega, fun m hm => ?_⟩
  split at hm
  · obtain rfl := Option.some.inj hm
    exact hold.1
  · exact hold.2 m hm

/-! ### Squashed instructions stay squashed -/

/-- If its number lies from `load` up to `bound`, the instruction is squashed, and not a
HALT unless `halt` says so. -/
def Instruction.FlushedIn (load bound : ℕ) (halt : Bool) (inst : Instruction) : Prop :=
  ∀ n, inst.seq = some n → load ≤ n → n < bound →
    inst.status = .squashed ∧ (inst.isHalt = true → halt = true)

section FlushedIn

variable {load bound : ℕ} {halt : Bool} {inst : Instruction}

/-- Padding has no number. -/
theorem flushedIn_nop (status : StageStatus) : (nop status).FlushedIn load bound halt :=
  fun _ hn => absurd hn (by simp [nop])

/-- What only moves a squashed instruction on keeps it so. -/
theorem Instruction.FlushedIn.congr {inst' : Instruction} (h : inst.FlushedIn load bound halt)
    (hseq : inst'.seq = inst.seq)
    (hkept : inst.status = .squashed → inst'.status = .squashed ∧ inst'.isHalt = inst.isHalt) :
    inst'.FlushedIn load bound halt := by
  intro n hn hload hbound
  obtain ⟨hsq, hhalt⟩ := h n (hseq ▸ hn) hload hbound
  obtain ⟨hsq', hishalt⟩ := hkept hsq
  exact ⟨hsq', fun hh => hhalt (hishalt ▸ hh)⟩

/-- Squashing again changes nothing. -/
theorem flushedIn_squashIf (flush : Bool) (h : inst.FlushedIn load bound halt) :
    (squashIf flush inst).FlushedIn load bound halt := by
  refine h.congr rfl fun hsq => ⟨?_, rfl⟩
  cases flush
  · exact hsq
  · rfl

/-- No stage function acts on a squashed instruction. -/
theorem not_effective_of_squashed (h : inst.status = .squashed) : inst.effective = false := by
  by_contra heff
  rw [Bool.not_eq_false] at heff
  exact not_squashed_of_effective heff h

/-- EX hands what is squashed on as it is. -/
theorem flushedIn_simEX (h : inst.FlushedIn load bound halt) :
    (simEX inst).FlushedIn load bound halt := by
  refine h.congr (by rw [simEX_toFetchInfo]) fun hsq => ?_
  rw [simEX_of_not_effective (not_effective_of_squashed hsq)]
  exact ⟨hsq, rfl⟩

/-- MEM hands what is squashed on as it is. -/
theorem flushedIn_simMEM (fault : Fault) (sim : Simulator) (h : inst.FlushedIn load bound halt) :
    (sim.simMEM fault inst).1.FlushedIn load bound halt := by
  refine h.congr (by rw [simMEM_toFetchInfo]) fun hsq => ?_
  rw [simMEM_of_not_effective (not_effective_of_squashed hsq)]
  exact ⟨hsq, rfl⟩

/-- Forwarding leaves the status alone. -/
theorem flushedIn_forwardToID (mem ex : Instruction) (h : inst.FlushedIn load bound halt) :
    (forwardToID mem ex inst).FlushedIn load bound halt :=
  h.congr (by rw [forwardToID_toFetchInfo])
    fun hsq => ⟨(forwardToID_status _ _ _).trans hsq, by rw [forwardToID_toDecodeInfo]⟩

end FlushedIn

/-- What a memory exception leaves behind. -/
structure Flushed (load bound : ℕ) (halt : Bool) (s : LoopState) : Prop where
  fetched : bound ≤ s.fetched
  /-- IF holds a handler fetch or a later one. -/
  fresh : ∀ n, s.ifInst.seq = some n → bound ≤ n
  id : s.idInst.FlushedIn load bound halt
  ex : s.exInst.FlushedIn load bound halt
  mem : s.memInst.FlushedIn load bound halt

namespace Flushed

variable {fault : Fault} {s : LoopState} {load bound : ℕ} {halt : Bool}

/-- What is flushed in ID stays so, and what comes from IF is not of the flushed numbers. -/
theorem idOut (h : Flushed load bound halt s) :
    (s.idOut fault).1.FlushedIn load bound halt := by
  have hheld : s.idForwarded.FlushedIn load bound halt := flushedIn_forwardToID _ _ h.id
  obtain ⟨-, hout⟩ | ⟨-, status, hout⟩ | ⟨-, hout⟩ | ⟨-, hout⟩ := s.idOut_cases fault
  · rw [hout]
    exact hheld
  · rw [hout]
    exact flushedIn_nop status
  · rw [hout]
    dsimp only
    split
    · exact hheld.congr rfl fun hsq => ⟨hsq, rfl⟩
    · exact hheld
  · rw [hout]
    intro n hn _ hbound
    have hseq : s.ifInst.seq = some n := by
      rw [← hn, simID_toFetchInfo, enterID]
      split <;> rfl
    exact absurd hbound (Nat.not_lt.mpr (h.fresh n hseq))

/-- What goes into EX comes from ID or is padding. -/
theorem exOut (h : Flushed load bound halt s) : s.exOut.FlushedIn load bound halt := by
  obtain ⟨-, hout⟩ | ⟨status, hout⟩ | ⟨-, hout⟩ := s.exOut_cases
  · exact hout ▸ h.ex
  · exact hout ▸ flushedIn_nop status
  · exact hout ▸ flushedIn_simEX (flushedIn_forwardToID _ _ h.id)

/-- What goes into MEM comes from EX. -/
theorem memOut (h : Flushed load bound halt s) :
    (s.memOut fault).1.FlushedIn load bound halt := by
  cases hz : s.frozen
  · rw [LoopState.memOut_of_not_frozen fault hz]
    exact flushedIn_simMEM fault _ (h.ex.congr rfl fun hsq => ⟨hsq, rfl⟩)
  · rw [LoopState.memOut_of_frozen fault hz]
    exact h.mem

/-- No cycle brings a flushed instruction back to life. -/
theorem cycle (h : Flushed load bound halt s) :
    Flushed load bound halt (RvPipeSim.cycle fault s) where
  fetched := by
    rw [s.fetched_cycle fault]
    exact Nat.le_trans h.fetched (Nat.le_add_right _ _)
  fresh n hn := by
    rw [s.seq_ifInst fault] at hn
    split at hn
    · obtain rfl := Option.some.inj hn
      exact h.fetched
    · exact h.fresh n hn
  id := by
    rw [LoopState.cycle_idInst]
    exact flushedIn_squashIf _ h.idOut
  ex := by
    rw [LoopState.cycle_exInst]
    exact flushedIn_squashIf _ h.exOut
  mem := by
    rw [LoopState.cycle_memInst]
    exact flushedIn_squashIf _ h.memOut

/-- Nor does entering `runCycles` again. -/
theorem reenter (h : Flushed load bound halt s) :
    Flushed load bound halt (RvPipeSim.reenter s) :=
  ⟨h.fetched, h.fresh, h.id, h.ex, h.mem⟩

end Flushed

namespace LoopState

variable {fault : Fault} {s : LoopState}

/-- A HALT is squashed in EX or ID by an exception in this cycle: one in ID, or one that
enters ID from IF. -/
def haltBehind (s : LoopState) : Bool :=
  !s.excepted && (s.idInst.isHalt ||
    (s.enters && !mispredicted s.ifInst s.PC && s.ifInst.instruction == haltWord))

/-- What ID decodes is a HALT exactly if the fetched word is. -/
theorem isHalt_of_decoding (sim : Simulator) (h : Shape s)
    (hhalt : (sim.simID (enterID s.ifInst)).1.isHalt = true) :
    s.ifInst.instruction = haltWord := by
  rcases h.ifSlot with hidle | hfetched
  · rw [hidle] at hhalt
    exact Bool.noConfusion hhalt
  · have hdec := (decoded_simID sim hfetched).decode
    have hword : (sim.simID (enterID s.ifInst)).1.instruction = s.ifInst.instruction := by
      rw [simID_toFetchInfo, enterID_of_fetched hfetched]
    rw [hdec, hword] at hhalt
    exact decodeOf_isHalt hhalt

end LoopState

/-- The cycle of a memory exception. -/
theorem Flushed.of_exception {fault : Fault} {s : LoopState} {load : ℕ} (h : Shape s)
    (hz : s.frozen = false) (hexc : s.memExc fault = true) (heff : s.exForwarded.effective = true) :
    Flushed load s.fetched s.haltBehind (RvPipeSim.cycle fault s) where
  fetched := by
    rw [s.fetched_cycle fault]
    exact Nat.le_add_right _ _
  fresh n hn := by
    rw [s.seq_ifInst fault, LoopState.refetched, hexc, Bool.or_true, Bool.true_or, if_pos rfl] at hn
    exact Nat.le_of_eq (Option.some.inj hn)
  id := by
    rw [LoopState.cycle_idInst, LoopState.flush, hexc, Bool.true_and]
    cases hill : s.excepted
    · refine fun n _ _ _ => ⟨rfl, fun hhalt => ?_⟩
      have hhalt' : (s.idOut fault).1.isHalt = true := hhalt
      rw [LoopState.haltBehind, hill, Bool.not_false, Bool.true_and, Bool.or_eq_true]
      cases hst : s.stalled
      · cases hsv : s.starved
        · cases hmp : mispredicted s.ifInst s.PC
          · rw [LoopState.idOut_of_decoding fault hz hill hst hsv hmp] at hhalt'
            rw [LoopState.isHalt_of_decoding _ h hhalt', LoopState.enters, hz, hill, hst, hsv]
            exact .inr rfl
          · rw [LoopState.idOut_of_mispredicted fault hz hill hst hsv hmp] at hhalt'
            exact Bool.noConfusion hhalt'
        · rw [LoopState.idOut_of_starved fault hz hill hst hsv] at hhalt'
          exact Bool.noConfusion hhalt'
      · rw [LoopState.idOut_of_stalled fault hz hill hst] at hhalt'
        left
        rw [← s.idForwarded_toDecodeInfo]
        split at hhalt' <;> exact hhalt'
    · rw [LoopState.idOut_of_excepted fault hz hill]
      exact flushedIn_squashIf _ (flushedIn_nop _)
  ex := by
    rw [LoopState.cycle_exInst, LoopState.flush, hexc, Bool.true_and]
    cases hill : s.excepted
    · refine fun n _ _ _ => ⟨rfl, fun hhalt => ?_⟩
      have hhalt' : s.exOut.isHalt = true := hhalt
      rw [LoopState.haltBehind, hill, Bool.not_false, Bool.true_and, Bool.or_eq_true]
      cases hst : s.stalled
      · rw [LoopState.exOut_of_moving hz hill hst, simEX_toDecodeInfo,
          s.idForwarded_toDecodeInfo] at hhalt'
        exact .inl hhalt'
      · rw [LoopState.exOut_of_stalled hz hill hst] at hhalt'
        exact Bool.noConfusion hhalt'
    · rw [LoopState.exOut_of_excepted hz hill]
      exact flushedIn_squashIf _ (flushedIn_nop _)
  mem := by
    rw [LoopState.cycle_memInst, hexc]
    refine fun n _ _ _ => ⟨rfl, fun hhalt => ?_⟩
    have hhalt' : (s.memOut fault).1.isHalt = true := hhalt
    rw [LoopState.memOut_of_not_frozen fault hz, simMEM_toDecodeInfo,
      (effective_iff.mp heff).2.2] at hhalt'
    exact Bool.noConfusion hhalt'

/-! ### What must not have an effect -/

/-- No instruction of a number from `load` up to `bound` writes a register or memory, is
counted as completed, or makes the simulator halt, in the cycle from `t`. -/
structure Suppressed (fault : Fault) (load bound : ℕ) (t : LoopState) : Prop where
  registers : ∀ inst n, t.wbCall = some inst → inst.seq = some n → load ≤ n → n < bound →
    (cycle fault t).simulator.regData = t.simulator.regData
  memory : ∀ inst n, t.memCall = some inst → inst.seq = some n → load ≤ n → n < bound →
    (cycle fault t).simulator.memory = t.simulator.memory
  uncounted : ∀ inst n, t.wbCall = some inst → inst.seq = some n → load ≤ n → n < bound →
    (cycle fault t).completedCount = t.completedCount
  unhalting : ∀ inst n, t.wbCall = some inst → inst.seq = some n → load ≤ n → n < bound →
    t.halts fault = false

namespace LoopState

variable {fault : Fault} {s : LoopState}

/-- A cycle counts the instruction in WB iff it is active and legal. -/
theorem completedCount_cycle (fault : Fault) (s : LoopState) :
    (cycle fault s).completedCount =
      s.completedCount +
        ((cycle fault s).wbInst.active && (cycle fault s).wbInst.isLegal).toNat := by
  have hcount : (cycle fault s).completedCount = s.completedCount +
      (!(cycle fault s).wbInst.isNop && (cycle fault s).wbInst.isLegal &&
        (cycle fault s).wbInst.status != .bubble &&
        (cycle fault s).wbInst.status != .squashed).toNat := by
    simp [cycle, expireMisses, advance]
  rw [hcount, Instruction.active]
  congr 2
  cases (cycle fault s).wbInst.isLegal <;> simp

end LoopState

namespace Flushed

variable {fault : Fault} {t : LoopState} {load bound : ℕ} {halt : Bool}

/-- A squashed instruction that reaches WB changes no register and is not counted. -/
theorem unheard (h : Flushed load bound halt t) {inst : Instruction} {n : ℕ}
    (hcall : t.wbCall = some inst) (hn : inst.seq = some n) (hload : load ≤ n)
    (hbound : n < bound) :
    (RvPipeSim.cycle fault t).simulator.regData = t.simulator.regData ∧
      (RvPipeSim.cycle fault t).completedCount = t.completedCount ∧
      (t.halts fault = true → halt = true) := by
  obtain ⟨hz, rfl⟩ := LoopState.wbCall_eq_some hcall
  obtain ⟨hsq, hhalt⟩ := h.mem n hn hload hbound
  have hwb : t.simulator.simWB t.memInst = (t.memInst, t.simulator) :=
    simWB_of_not_effective (not_effective_of_squashed hsq)
  refine ⟨?_, ?_, fun hhalts => ?_⟩
  · rw [LoopState.regData_cycle hz, LoopState.retireMEM, hwb]
  · have hactive : t.memInst.active = false := by
      rw [Instruction.active, hsq]
      simp
    rw [LoopState.completedCount_cycle, LoopState.wbInst_cycle fault hz, hwb, hactive]
    rfl
  · rw [LoopState.halts_eq fault hz] at hhalts
    exact hhalt hhalts

/-- A squashed instruction that reaches MEM changes no memory. -/
theorem memory_kept (h : Flushed load bound halt t) (hshape : Shape t) {inst : Instruction}
    {n : ℕ} (hcall : t.memCall = some inst) (hn : inst.seq = some n) (hload : load ≤ n)
    (hbound : n < bound) :
    (RvPipeSim.cycle fault t).simulator.memory = t.simulator.memory := by
  obtain ⟨hz, rfl⟩ := LoopState.memCall_eq_some hcall
  have hsq : t.exInst.status = .squashed := (h.ex n hn hload hbound).1
  have hstore : isStore t.exInst = false := by
    rw [isStore, Instruction.active, hsq]
    simp
  rw [LoopState.memory_cycle hshape hz, hstore, if_neg Bool.false_ne_true]

end Flushed

section Suppression

variable {fault : Fault} {s t : LoopState} {load : ℕ} {visited : List LoopState}

/-- In the cycle of the exception itself. -/
theorem suppressed_now (hshape : Shape s) (hord : Ordered s) (hz : s.frozen = false)
    (hload : s.exInst.seq = some load) (hreads : s.exInst.readsMem = true) :
    Suppressed fault load s.fetched s := by
  have holder : ∀ inst n, s.wbCall = some inst → inst.seq = some n → ¬ load ≤ n := by
    intro inst n hcall hn hle
    obtain ⟨-, rfl⟩ := LoopState.wbCall_eq_some hcall
    exact Nat.lt_irrefl n (Nat.lt_of_lt_of_le (hord.mem_lt_ex hn hload) hle)
  have hstore : isStore s.exInst = false := by
    rw [isStore, (hshape.ex_wellFormed.load hreads).1, Bool.false_and, Bool.false_and]
  constructor
  · intro inst n hcall hn hle _
    exact absurd hle (holder inst n hcall hn)
  · intro inst n _ _ _ _
    rw [LoopState.memory_cycle hshape hz, hstore, if_neg Bool.false_ne_true]
  · intro inst n hcall hn hle _
    exact absurd hle (holder inst n hcall hn)
  · intro inst n hcall hn hle _
    exact absurd hle (holder inst n hcall hn)

/-- In a later cycle, if no HALT was squashed. -/
theorem suppressed_later {bound : ℕ} (hshape : Shape t) (h : Flushed load bound false t) :
    Suppressed fault load bound t := by
  constructor
  · intro inst n hcall hn hle hlt
    exact (h.unheard hcall hn hle hlt).1
  · intro inst n hcall hn hle hlt
    exact h.memory_kept hshape hcall hn hle hlt
  · intro inst n hcall hn hle hlt
    exact (h.unheard hcall hn hle hlt).2.1
  · intro inst n hcall hn hle hlt
    by_contra hhalts
    rw [Bool.not_eq_false] at hhalts
    exact Bool.noConfusion ((h.unheard hcall hn hle hlt).2.2 hhalts)

end Suppression

/-! ### A squashed HALT still halts -/

namespace LoopState

variable {fault : Fault} {s : LoopState}

/-- Without a miss and a memory access in MEM nothing freezes. -/
theorem frozen_of_idle (hmiss : s.dataFetchMiss = false) (hmem : s.memInst.active = false) :
    s.frozen = false := by
  have hload : isLoad s.memInst = false := by rw [isLoad, hmem, Bool.and_false]
  have hstore : isStore s.memInst = false := by rw [isStore, hmem, Bool.and_false]
  rw [frozen_eq, accessDCache_eq, hload, hstore, hmiss, Bool.or_false, Bool.and_false,
    if_neg Bool.false_ne_true, if_neg Bool.false_ne_true]
  exact hmiss

/-- A cycle that is not frozen leaves no miss pending. -/
theorem dataFetchMiss_cycle (fault : Fault) (hz : s.frozen = false) :
    (cycle fault s).dataFetchMiss = false := by
  rw [(cycle_data fault s).1, hz, ite_self]

/-- What is not active in EX goes through MEM unchanged and raises no exception. -/
theorem memInst_cycle_of_inactive (fault : Fault) (h : Shape s) (hz : s.frozen = false)
    (hex : s.exInst.active = false) : s.memExc fault = false ∧
      (cycle fault s).memInst = s.exForwarded := by
  have heff : s.exForwarded.effective = false := by
    have hactive : s.exForwarded.active = false := hex
    rw [Instruction.effective, hactive, Bool.false_and, Bool.false_and]
  have hout : (s.memOut fault).1 = s.exForwarded := by
    rw [memOut_of_not_frozen fault hz, simMEM_of_not_effective heff]
  have hmem : s.memExc fault = false := by
    rw [memExc, hout]
    exact h.exException
  refine ⟨hmem, ?_⟩
  rw [cycle_memInst, hmem, hout]
  rfl

/-- An inactive HALT in EX halts the simulator two cycles later. -/
theorem halts_from_ex {n : ℕ} (h : Shape s) (hmiss : s.dataFetchMiss = false)
    (hmem : s.memInst.active = false) (hex : s.exInst.active = false)
    (hhalt : s.exInst.isHalt = true) (hn : s.exInst.seq = some n) :
    ∃ inst, (cycle fault s).wbCall = some inst ∧ inst.seq = some n ∧
      (cycle fault s).halts fault = true := by
  have hz := frozen_of_idle hmiss hmem
  have hmem' := (memInst_cycle_of_inactive fault h hz hex).2
  have hz' : (cycle fault s).frozen = false :=
    frozen_of_idle (dataFetchMiss_cycle fault hz) (by rw [hmem']; exact hex)
  refine ⟨(cycle fault s).memInst, if_neg (by simp [hz']), ?_, ?_⟩
  · rw [hmem']
    exact hn
  · rw [halts_eq fault hz', hmem']
    exact hhalt

/-- An inactive HALT in ID behind an inactive EX reaches EX in one cycle. -/
theorem exInst_cycle_of_halt (fault : Fault) (h : Shape s) (hz : s.frozen = false)
    (hex : s.exInst.active = false) (hid : s.idInst.active = false)
    (hhalt : s.idInst.isHalt = true) : (cycle fault s).exInst = s.idInst := by
  have hwf := h.id_wellFormed.halt hhalt
  have hexc : s.excepted = false := by
    rw [excepted, raisesIllegalExc, hid, Bool.and_false, Bool.false_and]
  have hst := stalled_of_halt h hhalt
  have hfwd : s.idForwarded = s.idInst :=
    forwardToID_of_reads_nothing hwf.2.2.1.readsRs1 hwf.2.2.1.readsRs2
  have heff : s.idInst.effective = false := by
    rw [Instruction.effective, hid, Bool.false_and, Bool.false_and]
  rw [cycle_exInst, flush, (memInst_cycle_of_inactive fault h hz hex).1,
    exOut_of_moving hz hexc hst, hfwd, simEX_of_not_effective heff]
  rfl

/-- An inactive HALT in ID behind an inactive EX halts the simulator one cycle later than one in
EX. -/
theorem halts_from_id {n : ℕ} (h : Shape s) (hmiss : s.dataFetchMiss = false)
    (hmem : s.memInst.active = false) (hex : s.exInst.active = false)
    (hid : s.idInst.active = false) (hhalt : s.idInst.isHalt = true)
    (hn : s.idInst.seq = some n) :
    ∃ inst, (cycle fault (cycle fault s)).wbCall = some inst ∧ inst.seq = some n ∧
      (cycle fault (cycle fault s)).halts fault = true := by
  have hz := frozen_of_idle hmiss hmem
  have hex' := exInst_cycle_of_halt fault h hz hex hid hhalt
  have hmem' := (memInst_cycle_of_inactive fault h hz hex).2
  refine halts_from_ex h.cycle (dataFetchMiss_cycle fault hz) ?_ ?_ ?_ ?_
  · rw [hmem']
    exact hex
  · rw [hex']
    exact hid
  · rw [hex']
    exact hhalt
  · rw [hex']
    exact hn

end LoopState

/-! ### The theorem -/

section Precise

variable {fault : Fault} {s : LoopState} {n : ℕ}

/-- What faults in MEM is a load that has a number. -/
theorem load_of_fault (h : Shape s)
    (hfault : (s.simAfterWB.simMEM fault s.exForwarded).1.memException = true) :
    s.exForwarded.effective = true ∧ s.exInst.readsMem = true ∧
      ∃ n, s.exInst.seq = some n := by
  have hclear : s.exForwarded.memException = false := h.exException
  have heff : s.exForwarded.effective = true := by
    by_contra heff
    rw [Bool.not_eq_true] at heff
    rw [simMEM_of_not_effective heff, hclear] at hfault
    exact Bool.noConfusion hfault
  refine ⟨heff, ?_, ?_⟩
  · by_contra hreads
    rw [Bool.not_eq_true] at hreads
    have hnoload : s.exForwarded.readsMem = false := hreads
    rw [simMEM_of_not_load hnoload] at hfault
    exact Bool.noConfusion (hclear.symm.trans hfault)
  · rcases h.exSlot with ⟨status, hpad⟩ | hpassed
    · have hactive : s.exInst.active = true := (effective_iff.mp heff).1
      rw [hpad] at hactive
      exact Bool.noConfusion hactive
    · exact Option.isSome_iff_exists.mp hpassed.numbered

/-- What an exception flushes is inactive. -/
theorem inactive_of_flush (hexc : s.memExc fault = true) (hill : s.excepted = false) :
    (cycle fault s).memInst.active = false ∧ (cycle fault s).exInst.active = false ∧
      (cycle fault s).idInst.active = false := by
  have hflush : s.flush fault = true := by rw [LoopState.flush, hexc, hill]; rfl
  have hsquashed : ∀ i : Instruction, (squashIf true i).active = false := by
    intro i
    simp [squashIf, Instruction.active]
  rw [LoopState.cycle_memInst, LoopState.cycle_exInst, LoopState.cycle_idInst, hexc, hflush]
  exact ⟨hsquashed _, hsquashed _, hsquashed _⟩

/-- The HALT behind the load that faults is in EX or ID after the exception. -/
theorem halt_left_behind (h : Shape s) (hord : Ordered s) (hz : s.frozen = false)
    (hn : s.exInst.seq = some n) (hbehind : s.haltBehind = true) :
    ∃ m, n < m ∧ m < s.fetched ∧
      ((cycle fault s).exInst.isHalt = true ∧ (cycle fault s).exInst.seq = some m ∨
        (cycle fault s).idInst.isHalt = true ∧ (cycle fault s).idInst.seq = some m) := by
  rw [LoopState.haltBehind, Bool.and_eq_true, Bool.not_eq_true', Bool.or_eq_true] at hbehind
  obtain ⟨hill, hhalt | hhalt⟩ := hbehind
  · -- a HALT in ID moves to EX, unless it is stalled
    obtain ⟨m, hm⟩ : ∃ m, s.idInst.seq = some m := by
      rcases h.idSlot with ⟨status, hpad⟩ | hdecoded
      · rw [hpad] at hhalt
        exact Bool.noConfusion hhalt
      · exact Option.isSome_iff_exists.mp hdecoded.numbered
    refine ⟨m, hord.ex_lt_id hn hm, hord.id_lt_fetched hm, ?_⟩
    cases hst : s.stalled
    · left
      constructor
      · rw [LoopState.cycle_exInst, LoopState.exOut_of_moving hz hill hst]
        show (simEX s.idForwarded).isHalt = true
        rw [simEX_toDecodeInfo, s.idForwarded_toDecodeInfo]
        exact hhalt
      · rw [LoopState.seq_exInst, hz, hill, hst]
        exact hm
    · right
      constructor
      · rw [LoopState.cycle_idInst, LoopState.idOut_of_stalled fault hz hill hst]
        show (if isBranchOrJump s.idForwarded then simNextPCResolution s.idForwarded
          else s.idForwarded).isHalt = true
        split
        · exact s.idForwarded_toDecodeInfo ▸ hhalt
        · exact s.idForwarded_toDecodeInfo ▸ hhalt
      · rw [LoopState.seq_idInst, hz, hill, hst]
        exact hm
  · -- a HALT in IF enters ID
    rw [Bool.and_eq_true, Bool.and_eq_true, Bool.not_eq_true', beq_iff_eq] at hhalt
    obtain ⟨⟨henters, hmp⟩, hword⟩ := hhalt
    obtain ⟨-, -, hst, hsv⟩ := LoopState.enters_iff.mp henters
    have hfetched : s.ifInst.Fetched := h.ifSlot.resolve_left fun hidle => by
      rw [hidle] at hword
      exact absurd hword (by decide)
    obtain ⟨m, hm⟩ := Option.isSome_iff_exists.mp hfetched.numbered
    refine ⟨m, hord.ex_lt_if hn hm, hord.if_lt_fetched hm, .inr ⟨?_, ?_⟩⟩
    · rw [LoopState.cycle_idInst, LoopState.idOut_of_decoding fault hz hill hst hsv hmp]
      show ((s.memOut fault).2.simID (enterID s.ifInst)).1.isHalt = true
      rw [(decoded_simID _ hfetched).decode, simID_toFetchInfo, enterID_of_fetched hfetched]
      show (decodeOf s.ifInst.instruction).isHalt = true
      rw [hword]
      rfl
    · rw [LoopState.seq_idInst, hz, hill, hst, hsv, hmp]
      exact hm

/-- The squashed HALT of an exception halts the simulator in the next two cycles but one. -/
theorem halts_of_haltBehind (h : Shape s) (hord : Ordered s) (hz : s.frozen = false)
    (hexc : s.memExc fault = true) (hn : s.exInst.seq = some n) (hbehind : s.haltBehind = true) :
    ∃ visited t u inst m, RunFrom fault anyCycle (cycle fault s) visited t ∧ u ∈ visited ∧
      u.wbCall = some inst ∧ inst.seq = some m ∧ n < m ∧ m < s.fetched ∧
      u.halts fault = true := by
  have hill : s.excepted = false := by
    rw [LoopState.haltBehind, Bool.and_eq_true, Bool.not_eq_true'] at hbehind
    exact hbehind.1
  obtain ⟨hmem, hex, hid⟩ := inactive_of_flush hexc hill
  have hmiss := LoopState.dataFetchMiss_cycle fault hz
  have hone : ∀ r, RunFrom fault anyCycle r [r] (cycle fault r) := fun r => .next .refl trivial
  obtain ⟨m, hlt, hbound, ⟨hhalt, hm⟩ | ⟨hhalt, hm⟩⟩ := halt_left_behind h hord hz hn hbehind
  · obtain ⟨inst, hcall, hseq, hhalts⟩ :=
      LoopState.halts_from_ex h.cycle hmiss hmem hex hhalt hm
    exact ⟨_, _, _, inst, m, (hone _).trans (hone _), by simp, hcall, hseq, hlt, hbound, hhalts⟩
  · obtain ⟨inst, hcall, hseq, hhalts⟩ :=
      LoopState.halts_from_id h.cycle hmiss hmem hex hid hhalt hm
    exact ⟨_, _, _, inst, m, ((hone _).trans (hone _)).trans (hone _), by simp, hcall, hseq, hlt,
      hbound, hhalts⟩

/-- What is older than the load that faults is in MEM, or has retired. -/
theorem retired_of_older (hord : Ordered s) {visited : List LoopState} (hi : InOrder visited s)
    (hz : s.frozen = false) (hn : s.exInst.seq = some n) {m : ℕ} (hm : s.InFlight m)
    (hlt : m < n) : m ∈ callLog (visited ++ [s]) .simWB := by
  rw [mem_callLog_concat]
  rcases hm.slots with hnum | hnum | hnum | hnum | hnum
  · have := hord.ex_lt_if hn (seq_of_number hnum)
    omega
  · have := hord.ex_lt_id hn (seq_of_number hnum)
    omega
  · obtain rfl : n = m := Option.some.inj (hn.symm.trans (seq_of_number hnum))
    exact absurd hlt (Nat.lt_irrefl n)
  · refine .inr ?_
    rw [LoopState.callNumber, LoopState.call, LoopState.callLabel_wbCall, hz]
    exact hnum
  · exact .inl (hi.passed .simWB _ (by simp [LoopState.downstream]) m hnum)

end Precise

/-- **A memory exception is precise exactly if it squashes no HALT.** Let a load fault, by
any fault test. In everything that follows, the load and what is younger than it among the
instructions in flight writes no register and no memory, is not counted and does not halt
the simulator, and what is older retires exactly once, if and only if there is no HALT
among the instructions that the exception squashes in EX and ID. -/
theorem memory_exception_precise_iff {fault : Fault} {iCacheConfig dCacheConfig : CacheConfig}
    {mem : MemoryStore} {visited : List LoopState} {s : LoopState}
    (h : PipelineRun fault anyCycle iCacheConfig dCacheConfig mem visited s)
    {load : Instruction} (hcall : s.memCall = some load)
    (hfault : (s.simAfterWB.simMEM fault load).1.memException = true) :
    ∃ n, load.seq = some n ∧ load.readsMem = true ∧
      ((∀ visited' t, RunFrom fault anyCycle (cycle fault s) visited' t →
          (∀ u ∈ s :: visited', Suppressed fault n s.fetched u) ∧
          ∀ m < n, s.InFlight m → (callLog (visited ++ s :: visited') .simWB).count m = 1) ↔
        s.haltBehind = false) := by
  have hshape := (Shape.of_run h).1
  have hord := Ordered.of_run h
  have hexc : s.memExc fault = true := by
    rw [LoopState.memExc, LoopState.memOut_of_call fault s hcall]
    exact hfault
  obtain ⟨hz, rfl⟩ := LoopState.memCall_eq_some hcall
  obtain ⟨heff, hreads, n, hn⟩ := load_of_fault hshape hfault
  refine ⟨n, hn, hreads, fun hall => ?_, fun hbehind visited' t hrun => ⟨?_, ?_⟩⟩
  · by_contra hbehind
    rw [Bool.not_eq_false] at hbehind
    obtain ⟨visited', t, u, inst, m, hrun, hu, hwb, hseq, hlt, hbound, hhalts⟩ :=
      halts_of_haltBehind hshape hord hz hexc hn hbehind
    have hsup := (hall visited' t hrun).1 u (List.mem_cons_of_mem _ hu)
    rw [hsup.unhalting inst m hwb hseq (Nat.le_of_lt hlt) hbound] at hhalts
    exact Bool.noConfusion hhalts
  · have hflushed : Flushed n s.fetched s.haltBehind (cycle fault s) :=
      .of_exception hshape hz hexc heff
    rw [hbehind] at hflushed
    have hlater := (hrun.invariant (fun u => Shape u ∧ Flushed n s.fetched false u)
      ⟨hshape.cycle, hflushed⟩ (fun _ hu _ => ⟨hu.1.cycle, hu.2.cycle⟩)
      (fun _ hu => ⟨hu.1.reenter, hu.2.reenter⟩)).2
    intro u hu
    rcases List.mem_cons.mp hu with rfl | hu
    · exact suppressed_now hshape hord hz hn hreads
    · exact suppressed_later (hlater u hu).1 (hlater u hu).2
  · intro m hlt hm
    have hwhole : PipelineRun fault anyCycle iCacheConfig dCacheConfig mem
        (visited ++ s :: visited') t := by
      have hcut := (h.next trivial).trans hrun
      rwa [List.append_assoc] at hcut
    have hnodup : (callLog (visited ++ s :: visited') .simWB).Nodup :=
      ((InOrder.of_run hwhole).pairwise_callLog .simWB).imp Nat.ne_of_lt
    refine List.count_eq_one_of_mem hnodup ?_
    have hmem := retired_of_older hord (InOrder.of_run h) hz hn hm hlt
    rw [callLog, List.filterMap_append] at hmem ⊢
    rcases List.mem_append.mp hmem with hmem | hmem
    · exact List.mem_append_left _ hmem
    · refine List.mem_append_right _ ?_
      rw [← List.singleton_append, List.filterMap_append]
      exact List.mem_append_left _ hmem

/-- The fault test that rejects one address. -/
def faultAt (address : BitVec 64) : Fault := fun _ memAddress _ => memAddress == address

/-- `lw x1, 256(x0); HALT`, where address 256 faults: the squashed HALT behind the load
halts the simulator. -/
theorem squashed_halt_halts :
    ∃ visited s load n visited' t u inst m,
      PipelineRun (faultAt 256) anyCycle (.oneBlock 64) (.oneBlock 64)
        (.image fun | 0 => 0x10002083 | 1 => 0xfeedfeed | _ => 0x00000013) visited s ∧
      s.memCall = some load ∧ load.seq = some n ∧
      (s.simAfterWB.simMEM (faultAt 256) load).1.memException = true ∧
      RunFrom (faultAt 256) anyCycle (cycle (faultAt 256) s) visited' t ∧ u ∈ visited' ∧
      u.wbCall = some inst ∧ inst.seq = some m ∧ n < m ∧ m < s.fetched ∧
      u.halts (faultAt 256) = true := by
  refine ⟨_, _, _, 0, _, _, _, _, 1, run_iterate (n := 4) fun _ _ => trivial,
    if_neg (by decide +kernel), ?_, ?_, run_iterate (n := 2) fun _ _ => trivial,
    List.mem_map.mpr ⟨1, by decide, rfl⟩, if_neg (by decide +kernel), ?_, by decide, ?_, ?_⟩
  · decide +kernel
  · decide +kernel
  · decide +kernel
  · decide +kernel
  · decide +kernel

/-- `lw x1, 256(x0); nop`, where address 256 faults. -/
theorem memory_exception_precise_nop :
    let mem : MemoryStore := .image fun | 0 => 0x10002083 | _ => 0x00000013
    let s := (cycle (faultAt 256))^[4]
      (enter (initSimulator (.oneBlock 64) (.oneBlock 64) mem))
    ∀ visited' t, RunFrom (faultAt 256) anyCycle (cycle (faultAt 256) s) visited' t →
      ∀ u ∈ s :: visited', Suppressed (faultAt 256) 0 s.fetched u := by
  intro mem s visited' t hrun
  have hstart : PipelineRun (faultAt 256) anyCycle (.oneBlock 64) (.oneBlock 64) mem _ s :=
    run_iterate fun _ _ => trivial
  have hcall : s.memCall = some s.exForwarded := if_neg (by decide +kernel)
  obtain ⟨n, hn, -, hiff⟩ := memory_exception_precise_iff hstart hcall (by decide +kernel)
  obtain rfl : 0 = n := Option.some.inj
    ((by decide +kernel : some 0 = s.exForwarded.seq).trans hn)
  exact (hiff.mpr (by decide +kernel) visited' t hrun).1

end RvPipeSim
