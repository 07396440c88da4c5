import Mathlib.Data.List.Pairwise
import RvPipeSim.Runs
import RvPipeSim.Slots

/-!
# In order, no loss, no duplication

Every result of `simIF` carries a number of its own. This module follows the numbers
through whole runs: which stage function was called on which number (`callLog`), where
the numbers still are (`upstream` of a stage, `downstream` of it), and by which four
events a number leaves the pipeline (`Leaves`).

`InOrder` is the invariant. Its first two fields say that the calls of a stage so far,
followed by what waits in front of it, are strictly increasing and below the fetch
counter; its third that whatever sits behind a stage has been handed to it.

## Main results

* `sublist_upstream` — what a stage takes and what waits in front of it was there, in this
  order, or is new;
* `InOrder.cycle` — one cycle keeps the numbers in order;
* `in_order_no_loss` — in every run each number goes through the stages in order, once, or
  leaves in one of four ways.
-/

namespace RvPipeSim

open ObservedRun

/-- The stage functions of the pipeline behind IF. -/
inductive Stage
  | simID
  | simEX
  | simMEM
  | simWB
  deriving DecidableEq, Repr

/-- The order of the stages. -/
def Stage.rank : Stage → ℕ
  | .simID => 0
  | .simEX => 1
  | .simMEM => 2
  | .simWB => 3

/-- The number of an instruction that is not squashed. -/
abbrev Instruction.number (inst : Instruction) : Option ℕ := inst.live FetchInfo.seq

/-- Padding has no number. -/
theorem number_nop : FetchInfo.seq (nop .idle).toFetchInfo = none := rfl

namespace LoopState

/-- The instruction handed to a stage function in this cycle. -/
def call (s : LoopState) : Stage → Option Instruction
  | .simID => s.idCall
  | .simEX => s.exCall
  | .simMEM => s.memCall
  | .simWB => s.wbCall

/-- The number, if it is not squashed, of the instruction handed to a stage function. -/
def callNumber (s : LoopState) (stage : Stage) : Option ℕ :=
  callLabel FetchInfo.seq (s.call stage)

/-- The numbers that have not been handed to a stage yet, oldest first. -/
def upstream (s : LoopState) : Stage → List ℕ
  | .simID => s.ifInst.number.toList
  | .simEX => s.idInst.number.toList ++ s.ifInst.number.toList
  | .simMEM => s.exInst.number.toList ++ (s.idInst.number.toList ++ s.ifInst.number.toList)
  | .simWB =>
      s.memInst.number.toList ++
        (s.exInst.number.toList ++ (s.idInst.number.toList ++ s.ifInst.number.toList))

/-- The slots an instruction can be in after a stage. -/
def downstream (s : LoopState) : Stage → List Instruction
  | .simID => [s.idInst, s.exInst, s.memInst, s.wbInst]
  | .simEX => [s.exInst, s.memInst, s.wbInst]
  | .simMEM => [s.memInst, s.wbInst]
  | .simWB => [s.wbInst]

/-- The number `n` is in one of the five slots, not squashed. -/
def InFlight (s : LoopState) (n : ℕ) : Prop :=
  ∃ inst ∈ s.ifInst :: s.downstream .simID, inst.number = some n

/-- What is in flight is in one of the five slots. -/
theorem InFlight.slots {s : LoopState} {n : ℕ} (h : s.InFlight n) :
    s.ifInst.number = some n ∨ s.idInst.number = some n ∨ s.exInst.number = some n ∨
      s.memInst.number = some n ∨ s.wbInst.number = some n := by
  obtain ⟨inst, hinst, hn⟩ := h
  have hslots : inst = s.ifInst ∨ inst = s.idInst ∨ inst = s.exInst ∨ inst = s.memInst ∨
      inst = s.wbInst := by
    simpa [downstream] using hinst
  rcases hslots with rfl | rfl | rfl | rfl | rfl <;> simp [hn]

end LoopState

/-- The number of an instruction that is not squashed is its fetch number. -/
theorem seq_of_number {inst : Instruction} {n : ℕ} (h : inst.number = some n) :
    inst.seq = some n := (Option.ite_none_left_eq_some.mp h).2

/-- The numbers handed to a stage function in the cycles from `visited`. -/
def callLog (visited : List LoopState) (stage : Stage) : List ℕ :=
  visited.filterMap (·.callNumber stage)

/-- The log of a stage grows by what it is handed. -/
theorem callLog_concat (visited : List LoopState) (s : LoopState) (stage : Stage) :
    callLog (visited ++ [s]) stage = callLog visited stage ++ (s.callNumber stage).toList := by
  rw [callLog, List.filterMap_append]
  cases h : s.callNumber stage <;> simp [callLog, h]

/-- A number in the log was there before or is handed over now. -/
theorem mem_callLog_concat {visited : List LoopState} {s : LoopState} {stage : Stage} {n : ℕ} :
    n ∈ callLog (visited ++ [s]) stage ↔
      n ∈ callLog visited stage ∨ s.callNumber stage = some n := by
  rw [callLog_concat, List.mem_append, Option.mem_toList]

/-- The ways in which the number `n` leaves the pipeline in the cycle from `s`, after the
cycles from `visited`. -/
inductive Leaves (fault : Fault) (visited : List LoopState) (s : LoopState) (n : ℕ) : Prop
  /-- It was handed to `simWB`, and leaves the WB register. -/
  | retired : s.wbInst.number = some n → n ∈ callLog visited .simWB → Leaves fault visited s n
  /-- It is in IF, and ID squashes it by the speculative-mismatch test. -/
  | mispredicted : s.ifInst.number = some n →
      (s.frozen || s.excepted || s.stalled || s.starved) = false →
      mispredicted s.ifInst s.PC = true → Leaves fault visited s n
  /-- It is in IF or ID, and an illegal instruction in ID flushes both. -/
  | illegal : s.ifInst.number = some n ∨ s.idInst.number = some n →
      s.excepted = true → Leaves fault visited s n
  /-- It is in IF, ID or EX, and a load moving out of EX faults. -/
  | memory : s.ifInst.number = some n ∨ s.idInst.number = some n ∨ s.exInst.number = some n →
      s.memExc fault = true → Leaves fault visited s n

/-! ### The invariant -/

/-- What holds of the numbers in every run. -/
structure InOrder (visited : List LoopState) (s : LoopState) : Prop where
  /-- The calls of a stage, then what waits in front of it, are in order. -/
  sorted : ∀ stage, (callLog visited stage ++ s.upstream stage).Pairwise (· < ·)
  /-- All of them were given out by the fetch counter. -/
  bounded : ∀ stage, ∀ n ∈ callLog visited stage ++ s.upstream stage, n < s.fetched
  /-- What sits behind a stage was handed to it. -/
  passed : ∀ stage, ∀ inst ∈ s.downstream stage, ∀ n, inst.number = some n →
    n ∈ callLog visited stage
  /-- A load that faulted is squashed. -/
  faulted : s.memInst.memException = true → s.memInst.status = .squashed

namespace LoopState

variable (fault : Fault) (s : LoopState)

/-- The number a cycle fetches, if it fetches. -/
def fetchedNow : List ℕ := if s.refetched fault then [s.fetched] else []

/-- The fetch counter counts the fetches. -/
theorem fetched_cycle : (cycle fault s).fetched = s.fetched + (s.fetchedNow fault).length := by
  rw [fetchedNow]
  cases h : s.refetched fault
  · rw [(cycle_of_not_refetched fault s h).1]
    rfl
  · rw [(cycle_of_refetched fault s h).1]
    rfl

/-- What ID takes from IF, and what IF holds afterwards, was in IF or is new. -/
theorem sublist_ifInst :
    ((s.callNumber .simID).toList ++ (cycle fault s).ifInst.number.toList).Sublist
      (s.ifInst.number.toList ++ s.fetchedNow fault) := by
  have hcall : (s.callNumber .simID).toList.Sublist s.ifInst.number.toList := by
    rw [callNumber, call, callLabel_idCall]
    split
    · exact List.nil_sublist _
    · exact .refl _
  rw [fetchedNow]
  cases h : s.refetched fault
  · have hnone : s.callNumber .simID = none := by
      cases hid : s.idCall with
      | none => simp [callNumber, call, hid, callLabel]
      | some i => simp [refetched_of_idCall fault s hid] at h
    rw [hnone, (cycle_of_not_refetched fault s h).2]
    simp
  · obtain ⟨-, PC, status, hstatus, hif⟩ := cycle_of_refetched fault s h
    have hnew : (cycle fault s).ifInst.number = some s.fetched := by
      rw [hif]
      rcases hstatus with rfl | rfl <;> rfl
    rw [hnew]
    exact hcall.append_right _

/-- Two conservation steps in a row make one. -/
theorem sublist_chain {α : Type*} {taken held held' given rest rest' new : List α}
    (hslot : (taken ++ held').Sublist (held ++ given))
    (hrest : (given ++ rest').Sublist (rest ++ new)) :
    (taken ++ (held' ++ rest')).Sublist (held ++ rest ++ new) := by
  have hleft : (taken ++ held' ++ rest').Sublist (held ++ given ++ rest') :=
    hslot.append_right rest'
  have hright : (held ++ (given ++ rest')).Sublist (held ++ (rest ++ new)) :=
    hrest.append_left held
  rw [List.append_assoc, List.append_assoc] at hleft
  rw [List.append_assoc]
  exact hleft.trans hright

/-- **Conservation.** What a stage takes and what then waits in front of it was, in the
same order, already there or is the fetch of this cycle. -/
theorem sublist_upstream (stage : Stage) :
    ((s.callNumber stage).toList ++ (cycle fault s).upstream stage).Sublist
      (s.upstream stage ++ s.fetchedNow fault) := by
  have hid : ((s.callNumber .simEX).toList ++ (cycle fault s).upstream .simEX).Sublist
      (s.upstream .simEX ++ s.fetchedNow fault) :=
    sublist_chain (sublist_idInst FetchInfo.seq number_nop fault s) (s.sublist_ifInst fault)
  have hex : ((s.callNumber .simMEM).toList ++ (cycle fault s).upstream .simMEM).Sublist
      (s.upstream .simMEM ++ s.fetchedNow fault) :=
    sublist_chain (sublist_exInst FetchInfo.seq number_nop fault s) hid
  cases stage with
  | simID => exact s.sublist_ifInst fault
  | simEX => exact hid
  | simMEM => exact hex
  | simWB => exact sublist_chain (sublist_memInst FetchInfo.seq fault s) hex

/-! ### Where a number comes from -/

variable {s} {n : ℕ}

/-- What WB is handed was in MEM. -/
theorem number_of_wbCall (h : s.callNumber .simWB = some n) : s.memInst.number = some n := by
  rw [callNumber, call, callLabel_wbCall] at h
  exact (Option.ite_none_left_eq_some.mp h).2

/-- What MEM is handed was in EX. -/
theorem number_of_memCall (h : s.callNumber .simMEM = some n) : s.exInst.number = some n := by
  rw [callNumber, call, callLabel_memCall] at h
  exact (Option.ite_none_left_eq_some.mp h).2

/-- What EX is handed was in ID. -/
theorem number_of_exCall (h : s.callNumber .simEX = some n) : s.idInst.number = some n := by
  rw [callNumber, call, callLabel_exCall] at h
  exact (Option.ite_none_left_eq_some.mp h).2

variable {fault}

/-- What is in WB has just been handed to it. -/
theorem number_wbInst (h : (cycle fault s).wbInst.number = some n) :
    s.callNumber .simWB = some n :=
  (live_wbInst FetchInfo.seq number_nop fault s).symm.trans h

/-- What is in MEM was there or has just been handed to it. -/
theorem number_memInst (h : (cycle fault s).memInst.number = some n) :
    s.memInst.number = some n ∨ s.callNumber .simMEM = some n := by
  rw [Instruction.number, live_memInst, Option.ite_none_left_eq_some] at h
  split_ifs at h
  · exact .inl h.2
  · exact .inr h.2

/-- What is in EX was there or has just been handed to it. -/
theorem number_exInst (h : (cycle fault s).exInst.number = some n) :
    s.exInst.number = some n ∨ s.callNumber .simEX = some n := by
  rw [Instruction.number, live_exInst FetchInfo.seq number_nop,
    Option.ite_none_left_eq_some] at h
  split_ifs at h
  · exact .inl h.2
  · exact .inr h.2

/-- What is in ID was there or has just been handed to it. -/
theorem number_idInst (h : (cycle fault s).idInst.number = some n) :
    s.idInst.number = some n ∨ s.callNumber .simID = some n := by
  rw [Instruction.number, live_idInst FetchInfo.seq number_nop,
    Option.ite_none_left_eq_some] at h
  split_ifs at h
  · exact .inl h.2
  · exact .inr h.2

/-- What sits behind a stage after a cycle sat there before or was handed to the stage. -/
theorem downstream_cycle {stage : Stage} {inst : Instruction}
    (hmem : inst ∈ (cycle fault s).downstream stage) (hn : inst.number = some n) :
    (∃ inst' ∈ s.downstream stage, inst'.number = some n) ∨ s.callNumber stage = some n := by
  cases stage with
  | simWB =>
      obtain rfl : inst = (cycle fault s).wbInst := by simpa [downstream] using hmem
      exact .inr (number_wbInst hn)
  | simMEM =>
      have hmem' : inst = (cycle fault s).memInst ∨ inst = (cycle fault s).wbInst := by
        simpa [downstream] using hmem
      rcases hmem' with rfl | rfl
      · exact (number_memInst hn).imp_left fun h => ⟨_, by simp [downstream], h⟩
      · exact .inl ⟨_, by simp [downstream], number_of_wbCall (number_wbInst hn)⟩
  | simEX =>
      have hmem' : inst = (cycle fault s).exInst ∨ inst = (cycle fault s).memInst ∨
          inst = (cycle fault s).wbInst := by
        simpa [downstream] using hmem
      rcases hmem' with rfl | rfl | rfl
      · exact (number_exInst hn).imp_left fun h => ⟨_, by simp [downstream], h⟩
      · rcases number_memInst hn with h | h
        · exact .inl ⟨_, by simp [downstream], h⟩
        · exact .inl ⟨_, by simp [downstream], number_of_memCall h⟩
      · exact .inl ⟨_, by simp [downstream], number_of_wbCall (number_wbInst hn)⟩
  | simID =>
      have hmem' : inst = (cycle fault s).idInst ∨ inst = (cycle fault s).exInst ∨
          inst = (cycle fault s).memInst ∨ inst = (cycle fault s).wbInst := by
        simpa [downstream] using hmem
      rcases hmem' with rfl | rfl | rfl | rfl
      · exact (number_idInst hn).imp_left fun h => ⟨_, by simp [downstream], h⟩
      · rcases number_exInst hn with h | h
        · exact .inl ⟨_, by simp [downstream], h⟩
        · exact .inl ⟨_, by simp [downstream], number_of_exCall h⟩
      · rcases number_memInst hn with h | h
        · exact .inl ⟨_, by simp [downstream], h⟩
        · exact .inl ⟨_, by simp [downstream], number_of_memCall h⟩
      · exact .inl ⟨_, by simp [downstream], number_of_wbCall (number_wbInst hn)⟩

/-- What is behind a stage is behind ID. -/
theorem downstream_subset (stage : Stage) : s.downstream stage ⊆ s.downstream .simID := by
  cases stage <;> simp [downstream]

/-- What is handed to a stage sits behind every earlier stage. -/
theorem downstream_of_call {stage stage' : Stage} (hrank : stage.rank < stage'.rank)
    (h : s.callNumber stage' = some n) :
    ∃ inst ∈ s.downstream stage, inst.number = some n := by
  cases stage' with
  | simID => exact absurd hrank (Nat.not_lt_zero _)
  | simEX =>
      refine ⟨s.idInst, ?_, number_of_exCall h⟩
      cases stage <;> simp_all [downstream, Stage.rank]
  | simMEM =>
      refine ⟨s.exInst, ?_, number_of_memCall h⟩
      cases stage <;> simp_all [downstream, Stage.rank]
  | simWB =>
      refine ⟨s.memInst, ?_, number_of_wbCall h⟩
      cases stage <;> simp_all [downstream, Stage.rank]

end LoopState

/-! ### Step, run, and the theorem -/

variable {fault : Fault} {visited : List LoopState} {s : LoopState}

/-- At the start no number is in a log or a slot. -/
theorem InOrder.init (iCacheConfig dCacheConfig : CacheConfig) (mem : MemoryStore) :
    InOrder [] (enter (initSimulator iCacheConfig dCacheConfig mem)) where
  sorted stage := by cases stage <;> exact .nil
  bounded stage n hn := by cases stage <;> exact absurd hn (List.not_mem_nil)
  passed stage inst hinst n hn := by
    have hslots : inst ∈ List.replicate 4 (nop .idle) := LoopState.downstream_subset stage hinst
    rw [List.eq_of_mem_replicate hslots, Instruction.number,
      live_nop FetchInfo.seq number_nop] at hn
    exact absurd hn (by simp)
  faulted h := Bool.noConfusion h

/-- One cycle keeps the numbers in order. -/
theorem InOrder.cycle (h : InOrder visited s) :
    InOrder (visited ++ [s]) (RvPipeSim.cycle fault s) := by
  have hgrow : ∀ stage,
      (callLog (visited ++ [s]) stage ++ (RvPipeSim.cycle fault s).upstream stage).Sublist
        (callLog visited stage ++ s.upstream stage ++ s.fetchedNow fault) := fun stage => by
    rw [callLog_concat, List.append_assoc, List.append_assoc]
    exact (s.sublist_upstream fault stage).append_left _
  have hnew : ∀ n ∈ s.fetchedNow fault, n = s.fetched := by
    intro n hn
    rw [LoopState.fetchedNow] at hn
    split at hn <;> simp_all
  refine ⟨fun stage => ?_, fun stage n hn => ?_, fun stage inst hinst n hn => ?_, fun hexc => ?_⟩
  · refine List.Pairwise.sublist (hgrow stage) ?_
    rw [List.pairwise_append]
    refine ⟨h.sorted stage, ?_, fun n hn m hm => ?_⟩
    · rw [LoopState.fetchedNow]
      split <;> simp
    · rw [hnew m hm]
      exact h.bounded stage n hn
  · rw [s.fetched_cycle fault]
    rcases List.mem_append.mp ((hgrow stage).subset hn) with hn | hn
    · exact Nat.lt_of_lt_of_le (h.bounded stage n hn) (Nat.le_add_right _ _)
    · have hpos : 0 < (s.fetchedNow fault).length := List.length_pos_of_mem hn
      have hn' := hnew n hn
      omega
  · rw [mem_callLog_concat]
    rcases LoopState.downstream_cycle hinst hn with ⟨inst', hinst', hn'⟩ | hcall
    · exact .inl (h.passed stage inst' hinst' n hn')
    · exact .inr hcall
  · rw [LoopState.cycle_memInst] at hexc ⊢
    have hmem : s.memExc fault = true := hexc
    rw [squashIf, if_pos hmem]

/-- The numbers are in order in every run. -/
theorem InOrder.of_run {ok : LoopState → Prop} {iCacheConfig dCacheConfig : CacheConfig}
    {mem : MemoryStore} (h : PipelineRun fault ok iCacheConfig dCacheConfig mem visited s) :
    InOrder visited s := by
  refine h.historical InOrder (.init iCacheConfig dCacheConfig mem) ?_ ?_
  · intro visited s ih _
    exact ih.cycle
  · intro visited s ih
    exact ⟨ih.sorted, ih.bounded, ih.passed, ih.faulted⟩

/-- A call log lists every number once. -/
theorem InOrder.pairwise_callLog (h : InOrder visited s) (stage : Stage) :
    (callLog visited stage).Pairwise (· < ·) :=
  (List.pairwise_append.mp (h.sorted stage)).1

/-- From MEM a number stays or goes to WB. -/
theorem InOrder.inFlight_of_memInst (h : InOrder visited s) {n : ℕ}
    (hn : s.memInst.number = some n) : (RvPipeSim.cycle fault s).InFlight n := by
  by_cases hfrozen : s.frozen = true
  · -- a live instruction held in MEM has not faulted, so it is not squashed now
    have hmem : s.memExc fault = false := by
      rw [LoopState.memExc, LoopState.memOut, memStage, if_pos hfrozen]
      refine Bool.eq_false_iff.mpr fun hexc => ?_
      rw [Instruction.number, Instruction.live, if_pos (h.faulted hexc)] at hn
      exact absurd hn (by simp)
    refine ⟨_, by simp [LoopState.downstream], (?_ :
      (RvPipeSim.cycle fault s).memInst.number = some n)⟩
    rw [Instruction.number, LoopState.live_memInst, hmem, hfrozen]
    exact hn
  · refine ⟨_, by simp [LoopState.downstream], (?_ :
      (RvPipeSim.cycle fault s).wbInst.number = some n)⟩
    rw [Instruction.number, LoopState.live_wbInst FetchInfo.seq number_nop,
      LoopState.callLabel_wbCall, if_neg hfrozen]
    exact hn

/-- From EX a number stays or goes to MEM, unless a load faults. -/
theorem inFlight_of_exInst {n : ℕ} (hmem : s.memExc fault = false)
    (hn : s.exInst.number = some n) : (cycle fault s).InFlight n := by
  have hflush : s.flush fault = false := by rw [LoopState.flush, hmem, Bool.false_and]
  cases hfrozen : s.frozen
  · refine ⟨_, by simp [LoopState.downstream], (?_ : (cycle fault s).memInst.number = some n)⟩
    rw [Instruction.number, LoopState.live_memInst, LoopState.callLabel_memCall, hmem, hfrozen]
    exact hn
  · refine ⟨_, by simp [LoopState.downstream], (?_ : (cycle fault s).exInst.number = some n)⟩
    rw [Instruction.number, LoopState.live_exInst FetchInfo.seq number_nop, hflush, hfrozen]
    exact hn

/-- From ID a number stays or goes to EX, unless a load faults or ID is illegal. -/
theorem inFlight_of_idInst {n : ℕ} (hmem : s.memExc fault = false)
    (hexcepted : s.excepted = false) (hn : s.idInst.number = some n) :
    (cycle fault s).InFlight n := by
  have hflush : s.flush fault = false := by rw [LoopState.flush, hmem, Bool.false_and]
  by_cases hheld : (s.frozen || s.stalled) = true
  · refine ⟨_, by simp [LoopState.downstream], (?_ : (cycle fault s).idInst.number = some n)⟩
    rw [Instruction.number, LoopState.live_idInst FetchInfo.seq number_nop, hflush, hexcepted]
    simpa [hheld] using hn
  · refine ⟨_, by simp [LoopState.downstream], (?_ : (cycle fault s).exInst.number = some n)⟩
    obtain ⟨hfrozen, hstalled⟩ : s.frozen = false ∧ s.stalled = false := by simpa using hheld
    rw [Instruction.number, LoopState.live_exInst FetchInfo.seq number_nop,
      LoopState.callLabel_exCall, hflush, hfrozen, hexcepted, hstalled]
    exact hn

/-- From IF a number stays or goes to ID, unless a load faults, ID is illegal, or ID finds
it mispredicted. -/
theorem inFlight_of_ifInst {n : ℕ} (hmem : s.memExc fault = false)
    (hexcepted : s.excepted = false) (hn : s.ifInst.number = some n) :
    (cycle fault s).InFlight n ∨
      ((s.frozen || s.excepted || s.stalled || s.starved) = false ∧
        mispredicted s.ifInst s.PC = true) := by
  have hflush : s.flush fault = false := by rw [LoopState.flush, hmem, Bool.false_and]
  cases hfetch : s.refetched fault
  · refine .inl ⟨_, List.mem_cons_self .., ?_⟩
    rw [(LoopState.cycle_of_not_refetched fault s hfetch).2]
    exact hn
  · obtain ⟨⟨hfrozen, hstalled⟩, hstarved⟩ :
        (s.frozen = false ∧ s.stalled = false) ∧ s.starved = false := by
      simpa [LoopState.refetched, hexcepted, hmem] using hfetch
    cases hmp : mispredicted s.ifInst s.PC
    · refine .inl ⟨_, by simp [LoopState.downstream],
        (?_ : (cycle fault s).idInst.number = some n)⟩
      rw [Instruction.number, LoopState.live_idInst FetchInfo.seq number_nop,
        LoopState.callLabel_idCall, hflush, hfrozen, hexcepted, hstalled, hstarved, hmp]
      exact hn
    · exact .inr ⟨by simp [hfrozen, hexcepted, hstalled, hstarved], rfl⟩

/-- A number that is in flight stays in flight for a cycle or leaves in one of the ways of
`Leaves`. -/
theorem InOrder.stays_or_leaves (h : InOrder visited s) {n : ℕ} (hn : s.InFlight n) :
    (RvPipeSim.cycle fault s).InFlight n ∨ Leaves fault visited s n := by
  rcases hn.slots with hn | hn | hn | hn | hn
  · cases hmem : s.memExc fault
    · cases hexcepted : s.excepted
      · rcases inFlight_of_ifInst hmem hexcepted hn with hin | ⟨hclear, hmp⟩
        · exact .inl hin
        · exact .inr (.mispredicted hn hclear hmp)
      · exact .inr (.illegal (.inl hn) hexcepted)
    · exact .inr (.memory (.inl hn) hmem)
  · cases hmem : s.memExc fault
    · cases hexcepted : s.excepted
      · exact .inl (inFlight_of_idInst hmem hexcepted hn)
      · exact .inr (.illegal (.inr hn) hexcepted)
    · exact .inr (.memory (.inr (.inl hn)) hmem)
  · cases hmem : s.memExc fault
    · exact .inl (inFlight_of_exInst hmem hn)
    · exact .inr (.memory (.inr (.inr hn)) hmem)
  · exact .inl (h.inFlight_of_memInst hn)
  · exact .inr (.retired hn (h.passed .simWB _ (by simp [LoopState.downstream]) n hn))

/-- **In order, no loss, no duplication.** In every run of the pipeline, every stage
function is called on increasing numbers; a number handed to a stage was handed to every
earlier stage in an earlier cycle; and a number in flight stays in flight or leaves in one
of the four ways of `Leaves`. -/
theorem in_order_no_loss {iCacheConfig dCacheConfig : CacheConfig} {mem : MemoryStore}
    (h : PipelineRun fault anyCycle iCacheConfig dCacheConfig mem visited s) :
    (∀ stage, (callLog visited stage).Pairwise (· < ·)) ∧
      (∀ before t after stage stage' n, visited = before ++ t :: after →
        stage.rank < stage'.rank → t.callNumber stage' = some n → n ∈ callLog before stage) ∧
      (∀ n, s.InFlight n → (RvPipeSim.cycle fault s).InFlight n ∨ Leaves fault visited s n) := by
  refine ⟨(InOrder.of_run h).pairwise_callLog, ?_, fun n => (InOrder.of_run h).stays_or_leaves⟩
  rintro before t after stage stage' n rfl hrank hcall
  obtain ⟨inst, hinst, hn⟩ := LoopState.downstream_of_call hrank hcall
  exact (InOrder.of_run h.split.1).passed stage inst hinst n hn

/-- The theorem on the first three cycles of a program of NOPs, where the number 0 moves
from IF to ID. -/
theorem in_order_no_loss_three_cycles :
    let s₀ := enter (initSimulator (.oneBlock 4) (.oneBlock 4) (.image fun _ => 0x00000013))
    let s₁ := cycle accessFault s₀
    let s₂ := cycle accessFault s₁
    let s₃ := cycle accessFault s₂
    (∀ stage, (callLog [s₀, s₁, s₂] stage).Pairwise (· < ·)) ∧
      s₃.InFlight 0 ∧
      ((cycle accessFault s₃).InFlight 0 ∨ Leaves accessFault [s₀, s₁, s₂] s₃ 0) := by
  intro s₀ s₁ s₂ s₃
  have hrun : PipelineRun accessFault anyCycle (.oneBlock 4) (.oneBlock 4)
      (.image fun _ => 0x00000013) [s₀, s₁, s₂] s₃ :=
    .next (.next (.next .refl trivial) trivial) trivial
  obtain ⟨hsorted, -, hleaves⟩ := in_order_no_loss hrun
  have hin : s₃.InFlight 0 := ⟨s₃.idInst, by simp [LoopState.downstream], by decide +kernel⟩
  exact ⟨hsorted, hin, hleaves 0 hin⟩

end RvPipeSim
