import RvPipeSim.Exceptions
import RvPipeSim.FunctRefinement

/-!
# The dynamic instruction count

Both simulators report a dynamic instruction count. The functional one takes it where an
instruction is decoded, the pipelined one at WB, behind a test that is to leave out padding.
A NOP of the program does not pass that test either.

`counted` lists what has retired and what is in flight up to the oldest HALT. Next to a
functional run (`RunsAlong`) a regular cycle adds to that list the word which the functional
simulator executes next, or nothing, so at the HALT the list holds the words of its trace
(`FunctMachine.word`), and the counts differ by the NOPs among them.

## Straight lines

A straight line is a program of legal instructions other than branches, up to a HALT
(`StraightLine`). If the program overwrites none of its instructions before it is executed
(`FunctMachine.KeepsAhead`), the functional simulator executes the line word by word, and the
pipelined one, whatever its caches do, is regular. Otherwise it may execute a word that has
been overwritten since it was fetched, and then the counts may be the same or not
(`dynamic_count_stale`).

## Main results

* `dynamic_count_nops` — the two counts of a regular run differ by the executed NOPs;
* `dynamic_count_iff` — a straight line is counted alike exactly if it has no NOP;
* `no_branch_of_line` — no branch or jump comes into ID, not even from behind the HALT.
-/

namespace RvPipeSim

open Simulator ObservedRun

/-! ### The functional run -/

/-- Every instruction is counted where it is decoded. -/
theorem simInstruction_din (sim : Simulator) (PC : BitVec 64) :
    (sim.simInstruction PC).2.din = sim.din + 1 := by
  by_cases hstop : (decodeOf (wordAt sim.memory PC)).isHalt = true ∨
      (decodeOf (wordAt sim.memory PC)).isLegal = false
  · rw [simInstruction_of_stop hstop]
  · rw [not_or, Bool.not_eq_true, Bool.not_eq_false] at hstop
    rw [simInstruction_of_going hstop.2 hstop.1, stepBehind]
    dsimp only
    split_ifs <;> rfl

namespace FunctMachine

variable {fuel : ℕ} {m₀ m u : FunctMachine} {done rest : List FunctMachine}

/-- The word at the PC. -/
def word (m : FunctMachine) : BitVec 64 := wordAt m.simulator.memory m.PC

/-- What is executed is decoded from the word at the PC. -/
theorem executed_decode (m : FunctMachine) : m.executed.toDecodeInfo = decodeOf m.word :=
  simInstruction_toDecodeInfo _ _

/-- No instruction of the run is overwritten before it is executed: its word stands there in
all memories ahead of it. -/
def KeepsAhead (visited : List FunctMachine) : Prop :=
  visited.Pairwise fun v u => wordAt v.simulator.memory u.PC = u.word

instance (visited : List FunctMachine) : Decidable (KeepsAhead visited) :=
  inferInstanceAs (Decidable (List.Pairwise _ _))

/-- **A run that halts counts the instructions of its trace.** -/
theorem din_of_halt (h : runTillHalt fuel m₀ = some (.halt, m)) :
    m.simulator.din = m₀.simulator.din + (trace fuel m₀).length := by
  induction fuel generalizing m₀ with
  | zero => exact absurd h (by simp [runTillHalt])
  | succ fuel ih =>
      have hdin : m₀.advance.simulator.din = m₀.simulator.din + 1 := simInstruction_din _ _
      rcases trace_succ h with ⟨⟨-, hm⟩, htrace⟩ | ⟨-, hrest, htrace⟩
      · rw [htrace, hm, hdin]
        rfl
      · rw [htrace, ih hrest, hdin, List.length_cons]
        omega

/-- A machine on the trace executes the HALT and is the last, or the one it advances to is
the next. -/
theorem trace_split (h : runTillHalt fuel m₀ = some (.halt, m))
    (htrace : trace fuel m₀ = done ++ u :: rest) :
    u.executed.isHalt = true ∧ rest = [] ∨
      (u.executed.isHalt = false ∧ u.executed.isLegal = true) ∧
        ∃ rest', rest = u.advance :: rest' := by
  induction fuel generalizing m₀ done with
  | zero => exact absurd h (by simp [runTillHalt])
  | succ fuel ih =>
      rcases trace_succ h with ⟨⟨hhalt, -⟩, hlast⟩ | ⟨hgoing, hrest, hnext⟩
      · rw [hlast] at htrace
        cases done with
        | nil =>
            obtain ⟨rfl, rfl⟩ := List.cons.inj htrace
            exact .inl ⟨hhalt, rfl⟩
        | cons v done => exact absurd (List.cons.inj htrace).2 (by simp)
      · rw [hnext] at htrace
        cases done with
        | nil =>
            obtain ⟨rfl, rfl⟩ := List.cons.inj htrace
            refine .inr ⟨hgoing, ?_⟩
            cases fuel with
            | zero => exact absurd hrest (by simp [runTillHalt])
            | succ fuel => exact ⟨_, rfl⟩
        | cons v done => exact ih hrest (List.cons.inj htrace).2

end FunctMachine

/-! ### What the pipelined simulator counts -/

namespace LoopState

variable {s : LoopState} {visited : List LoopState}

/-- The labels of what has retired and of what is in flight, up to the oldest HALT. -/
def counted (visited : List LoopState) (s : LoopState) : List FetchInfo :=
  if s.memInst.isHalt then labelsMEM visited s
  else if s.exInst.isHalt then labelsEX visited s
  else labelsID visited s

/-- **Only what enters ID with no HALT ahead joins the list.** -/
theorem counted_cycle (hs : Steady s) (hhalt : s.halts accessFault = false) :
    counted (visited ++ [s]) (cycle accessFault s) =
      counted visited s ++
        if s.haltFree then (callLabel legalFetch (s.call .simID)).toList else [] := by
  have hmem' := memInst_isHalt_cycle hs
  have hex' := exInst_isHalt_cycle hs
  cases hz : s.frozen
  · -- the HALT moves on, and the list with it
    have hmem : s.memInst.isHalt = false := by
      rw [← halts_eq accessFault hz]
      exact hhalt
    rw [hz, if_neg Bool.false_ne_true] at hmem' hex'
    cases hex : s.exInst.isHalt
    · cases hid : s.idInst.isHalt
      · have hfree : s.haltFree = true := Refines.haltFree_iff.mpr ⟨hmem, hex, hid⟩
        rw [counted, counted, hmem', hex', hmem, hex, hid, hfree, Bool.and_false]
        exact labelsID_cycle hs
      · obtain ⟨hexc, hst⟩ := moving_of_halt hs hid
        have hfree : s.haltFree = false := by
          rw [haltFree, hid, Bool.or_true, Bool.not_true]
        have hcall : callLabel legalFetch (s.call .simEX) = s.idInst.live legalFetch := by
          rw [call, callLabel_exCall, hz, hexc, hst]
          rfl
        rw [counted, counted, hmem', hex', hmem, hex, hid, hexc, hst, hfree]
        refine (labelsEX_cycle hs).trans ?_
        rw [hcall]
        exact (List.append_nil _).symm
    · have hfree : s.haltFree = false := by
        rw [haltFree, hex, Bool.or_true, Bool.true_or, Bool.not_true]
      have hcall : callLabel legalFetch (s.call .simMEM) = s.exInst.live legalFetch := by
        rw [call, callLabel_memCall, hz]
        rfl
      rw [counted, counted, hmem', hmem, hex, hfree]
      refine (labelsMEM_cycle hs).trans ?_
      rw [hcall]
      exact (List.append_nil _).symm
  · -- nothing moves
    rw [hz, if_pos rfl] at hmem' hex'
    have hsame : counted (visited ++ [s]) (cycle accessFault s) = counted visited s := by
      rw [counted, counted, hmem', hex', labelsMEM_cycle hs, labelsEX_cycle hs, labelsID_cycle hs,
        callLabel_of_frozen _ hz, callLabel_of_frozen _ hz, callLabel_of_frozen _ hz]
      simp only [Option.toList_none, List.append_nil]
    rw [hsame, callLabel_of_frozen _ hz]
    split <;> exact (List.append_nil _).symm

end LoopState

/-- Only the NOP word decodes to a NOP. -/
theorem decodeOf_isNop (w : BitVec 64) : (decodeOf w).isNop = (w == nopWord) := by
  rw [decodeOf, decodeWord]
  by_cases hhalt : w = haltWord
  · rw [if_pos hhalt, hhalt]
    rfl
  · rw [if_neg hhalt]
    by_cases hnop : w = nopWord
    · rw [if_pos hnop, beq_iff_eq.mpr hnop]
    · rw [if_neg hnop, decodeOpcode_isNop, beq_eq_false_iff_ne.mpr hnop]

/-- The instruction that goes to WB is counted if it is legal and not the NOP word. -/
theorem completed_eq {s : LoopState} (hs : Steady s) :
    ((cycle accessFault s).wbInst.active && (cycle accessFault s).wbInst.isLegal).toNat =
      ((LoopState.callLabel legalFetch (s.call .simWB)).toList).countP
        fun f => f.instruction != nopWord := by
  cases hz : s.frozen
  · have hlabel : LoopState.callLabel legalFetch (s.call .simWB) =
        legalFetch s.memInst.toFetchInfo := by
      rw [LoopState.call, LoopState.callLabel_wbCall, hz,
        live_of_unsquashed legalFetch_nop hs.unsquashed.mem]
      rfl
    rw [hlabel, LoopState.wbInst_cycle _ hz, simWB_active, simWB_toDecodeInfo]
    rcases hs.shape.memSlot with hpadding | hpassed
    · obtain ⟨status, hnop⟩ := hpadding
      rw [hnop]
      rfl
    · have hnormal : s.memInst.status = .normal := by
        rcases hs.unsquashed.mem with ⟨status, hnop⟩ | hnormal
        · have hseq := hpassed.numbered
          rw [hnop] at hseq
          exact Bool.noConfusion hseq
        · exact hnormal
      have hactive : s.memInst.active = (s.memInst.instruction != nopWord) := by
        rw [Instruction.active, hnormal, hpassed.decode, decodeOf_isNop]
        exact (Bool.and_true _).trans (Bool.and_true _)
      rw [hactive, legalFetch, hpassed.numbered, Bool.true_and, hpassed.decode]
      cases (decodeOf s.memInst.instruction).isLegal
      · rw [Bool.and_false]
        rfl
      · rw [Bool.and_true, if_pos rfl, Option.toList_some, List.countP_singleton]
        cases s.memInst.instruction != nopWord <;> rfl
  · rw [LoopState.callLabel_of_frozen _ hz, LoopState.cycle_wbInst, wbStage, if_pos hz]
    rfl

/-- **The count is that of the words that have retired, NOPs left out.** -/
theorem completedCount_eq {ok : LoopState → Prop} {s t : LoopState} {visited : List LoopState}
    (hs : Steady s) (hrun : RunFrom accessFault ok s visited t) :
    Steady t ∧ t.completedCount =
      s.completedCount +
        (labelLog legalFetch visited .simWB).countP fun f => f.instruction != nopWord := by
  refine hrun.historical (fun visited t => Steady t ∧ t.completedCount =
    s.completedCount +
      (labelLog legalFetch visited .simWB).countP fun f => f.instruction != nopWord)
    ⟨hs, rfl⟩ ?_ fun _ _ h => ⟨h.1.reenter, h.2⟩
  rintro visited t ⟨ht, hcount⟩ -
  refine ⟨ht.cycle, ?_⟩
  rw [LoopState.completedCount_cycle, hcount, labelLog_concat, List.countP_append, Nat.add_assoc,
    completed_eq ht]

/-- The cycle that ends the run counts the last of what was on the list at the HALT. -/
theorem completedCount_of_halts {ok : LoopState → Prop} {s t : LoopState}
    {visited : List LoopState} (hs : Steady s) (hrun : RunFrom accessFault ok s visited t)
    (hhalt : t.halts accessFault = true) :
    (cycle accessFault t).completedCount =
      s.completedCount + (t.counted visited).countP fun f => f.instruction != nopWord := by
  have hlog : labelLog legalFetch (visited ++ [t]) .simWB = t.counted visited := by
    rw [LoopState.counted, LoopState.memInst_of_halts hhalt, if_pos rfl, LoopState.labelsMEM,
      labelLog_concat, LoopState.call, LoopState.callLabel_wbCall,
      LoopState.not_frozen_of_halts hhalt]
    rfl
  have hrun' : RunFrom accessFault anyCycle s (visited ++ [t]) (cycle accessFault t) :=
    (hrun.mono fun _ _ => trivial).next trivial
  rw [(completedCount_eq hs hrun').2, hlog]

/-! ### A pipelined run next to a functional one -/

section Along

variable {T : List FunctMachine} {fuel : ℕ} {m₀ m : FunctMachine} {s : LoopState} {q : Sequencer}
  {visited : List LoopState}

/-- What does not enter ID, or does so behind a HALT, is not counted. -/
theorem LoopState.counted_cycle_of_kept (hs : Steady s) (hhalt : s.halts accessFault = false)
    (h : s.haltFree = true → s.decodes = false) :
    counted (visited ++ [s]) (cycle accessFault s) = counted visited s := by
  rw [counted_cycle hs hhalt]
  split
  · rename_i hfree
    rw [callLabel_of_not_decodes hs (h hfree)]
    exact List.append_nil _
  · exact List.append_nil _

/-- A legal instruction that enters ID is counted. -/
theorem LoopState.counted_cycle_of_decodes (hs : Steady s) (hhalt : s.halts accessFault = false)
    (hfree : s.haltFree = true) (hdecodes : s.decodes = true)
    (hlegal : (decodeOf s.ifInst.instruction).isLegal = true) :
    counted (visited ++ [s]) (cycle accessFault s) =
      counted visited s ++ [s.ifInst.toFetchInfo] := by
  rw [counted_cycle hs hhalt, if_pos hfree, callLabel_of_decodes hs hdecodes, if_pos hlegal]
  rfl

/-- What is counted are the words that the functional run with the trace `T` has executed,
and the sequencer is at its next instruction, or has halted behind its last. The memories on
the way to the pipeline are those of that run so far. -/
inductive Executes (T : List FunctMachine) (visited : List LoopState) (s : LoopState)
    (q : Sequencer) : Prop
  | running {done rest : List FunctMachine} : q.halted = false →
      T = done ++ q.toFunctMachine :: rest → q.fetchPC = q.PC + 4 →
      (s.counted visited).map FetchInfo.instruction = done.map FunctMachine.word →
      Sourced (MemoryOf (done ++ [q.toFunctMachine])) s → Executes T visited s q
  | halted : q.halted = true → MemoryOf T q.simulator.memory →
      (s.counted visited).map FetchInfo.instruction = T.map FunctMachine.word →
      Executes T visited s q

/-- The invariant of a pipelined run next to the functional run with the trace `T`. -/
structure RunsAlong (T : List FunctMachine) (visited : List LoopState) (s : LoopState)
    (q : Sequencer) : Prop where
  steady : Steady s
  operands : Operands s
  refines : Refines visited s q
  executes : Executes T visited s q

namespace RunsAlong

/-- Where the sequencer is before it halts. -/
theorem of_not_halted (h : RunsAlong T visited s q) (hq : q.halted = false) :
    ∃ done rest, T = done ++ q.toFunctMachine :: rest ∧ q.fetchPC = q.PC + 4 ∧
      (s.counted visited).map FetchInfo.instruction = done.map FunctMachine.word ∧
      Sourced (MemoryOf (done ++ [q.toFunctMachine])) s := by
  cases h.executes with
  | running _ hT hfetch hwords hsourced => exact ⟨_, _, hT, hfetch, hwords, hsourced⟩
  | halted hq' => exact Bool.noConfusion (hq.symm.trans hq')

/-- Behind the HALT nothing joins the list. -/
theorem cycle_of_halted (hregular : s.Regular) (hhalt : s.halts accessFault = false)
    (hq : q.halted = true) (h : RunsAlong T visited s q) :
    RunsAlong T (visited ++ [s]) (cycle accessFault s) q := by
  have hfree : s.haltFree = false := by
    rw [h.refines.halted_eq, Bool.not_eq_true'] at hq
    exact hq
  have hrefines : Refines (visited ++ [s]) (cycle accessFault s) q := by
    rcases h.refines.cycle h.steady h.operands hregular hhalt with hstay | hstep
    · exact hstay
    · rwa [Sequencer.step_of_halted hq] at hstep
  refine ⟨h.steady.cycle, h.operands.cycle h.steady.shape, hrefines, ?_⟩
  cases h.executes with
  | running hq' => exact Bool.noConfusion (hq'.symm.trans hq)
  | halted _ hmem hwords =>
      refine .halted hq hmem ?_
      rw [LoopState.counted_cycle_of_kept h.steady hhalt fun hfree' =>
        Bool.noConfusion (hfree.symm.trans hfree')]
      exact hwords

/-- **A regular cycle keeps to the functional run.** -/
theorem cycle (hrun : FunctMachine.runTillHalt fuel m₀ = some (.halt, m))
    (hskips : SkipsNone (FunctMachine.trace fuel m₀)) (hregular : s.Regular)
    (hhalt : s.halts accessFault = false)
    (h : RunsAlong (FunctMachine.trace fuel m₀) visited s q) :
    RunsAlong (FunctMachine.trace fuel m₀) (visited ++ [s]) (RvPipeSim.cycle accessFault s) q ∨
      RunsAlong (FunctMachine.trace fuel m₀) (visited ++ [s]) (RvPipeSim.cycle accessFault s)
        q.step := by
  have hs := h.steady
  have ho := h.operands
  cases h.refines with
  | haltInID _ _ _ hq => exact .inl (h.cycle_of_halted hregular hhalt hq)
  | haltInEX _ _ hq => exact .inl (h.cycle_of_halted hregular hhalt hq)
  | haltInMEM _ hq => exact .inl (h.cycle_of_halted hregular hhalt hq)
  | running hfree hq hsync hsim htrace hPC =>
      obtain ⟨hfresh, hcoherent⟩ := hregular hfree
      obtain ⟨done, rest, hT, hfetch, hwords, hsourced⟩ := h.of_not_halted hq
      have hsourced' : Sourced (MemoryOf (done ++ [q.toFunctMachine]))
          (RvPipeSim.cycle accessFault s) :=
        hsourced.cycle hs ho
          ⟨_, List.mem_append_right _ (List.mem_singleton_self _), hsim.memory⟩
      cases hdecodes : s.decodes
      · refine .inl ⟨hs.cycle, ho.cycle hs.shape,
          .of_not_decodes hs ho hfresh hdecodes hfree hq hsync hsim htrace hPC,
          .running hq hT hfetch ?_ hsourced'⟩
        rw [LoopState.counted_cycle_of_kept hs hhalt fun _ => hdecodes]
        exact hwords
      · refine .inr ⟨hs.cycle, ho.cycle hs.shape,
          .of_decodes hs ho hfresh hcoherent hdecodes hfree hq hsync hsim htrace hPC, ?_⟩
        -- the word in IF is the one the functional simulator executes next
        obtain ⟨hqPC, -⟩ := Prod.mk.inj <|
          hPC.symm.trans (LoopState.upcoming_of_decoding hs ho hsync hfresh hdecodes)
        have hword : s.ifInst.instruction = q.toFunctMachine.word := by
          rw [FunctMachine.word, ← hsim.memory, hqPC]
          exact hcoherent hdecodes
        have hdec := q.toFunctMachine.executed_decode
        have hmem : q.toFunctMachine ∈ FunctMachine.trace fuel m₀ := by
          rw [hT]
          exact List.mem_append_right _ (List.mem_cons_self ..)
        have hjoins (hlegal : q.executed.isLegal = true) :
            ((RvPipeSim.cycle accessFault s).counted (visited ++ [s])).map FetchInfo.instruction =
              (done ++ [q.toFunctMachine]).map FunctMachine.word := by
          rw [hdec, ← hword] at hlegal
          rw [LoopState.counted_cycle_of_decodes hs hhalt hfree hdecodes hlegal, List.map_append,
            List.map_append, hwords, List.map_singleton, List.map_singleton, hword]
        rcases FunctMachine.trace_split hrun hT with
          ⟨hstop, rfl⟩ | ⟨⟨hgoing, hlegal⟩, rest', rfl⟩
        · have hlegal : q.executed.isLegal = true := by
            rw [hdec] at hstop ⊢
            exact ((decodeOf_wellFormed _).halt hstop).1
          rw [Sequencer.step_of_halt hq hstop]
          refine .halted rfl ⟨_, hmem, rfl⟩ ?_
          rw [hT]
          exact hjoins hlegal
        · have hnext : FunctMachine.trace fuel m₀ =
              (done ++ [q.toFunctMachine]) ++ q.advance :: rest' := by
            rw [hT, List.append_assoc]
            rfl
          rw [Sequencer.step_of_legal hq hgoing hlegal,
            successors_eq hgoing hlegal hfetch (hskips _ hmem)]
          refine .running rfl hnext rfl (hjoins hlegal) (hsourced'.mono fun mem hmem' => ?_)
          obtain ⟨v, hv, hmem'⟩ := hmem'
          exact ⟨v, List.mem_append_left _ hv, hmem'⟩

/-- Entering `runCycles` again counts nothing. -/
theorem reenter (h : RunsAlong T visited s q) : RunsAlong T visited (RvPipeSim.reenter s) q := by
  refine ⟨h.steady.reenter, h.operands.reenter, h.refines.reenter, ?_⟩
  cases h.executes with
  | running hq hT hfetch hwords hsourced => exact .running hq hT hfetch hwords hsourced.reenter
  | halted hq hmem hwords => exact .halted hq hmem hwords

/-- At the start the functional run is all ahead. -/
theorem init {mem : MemoryStore} (iCacheConfig dCacheConfig : CacheConfig)
    (hrun : FunctMachine.runTillHalt fuel (.initSimulator mem) = some (.halt, m)) :
    RunsAlong (FunctMachine.trace fuel (.initSimulator mem)) []
      (enter (initSimulator iCacheConfig dCacheConfig mem)) (.init mem) := by
  refine ⟨.init iCacheConfig dCacheConfig mem, .init iCacheConfig dCacheConfig mem,
    .init iCacheConfig dCacheConfig mem, ?_⟩
  have hmem : MemoryOf ([] ++ [FunctMachine.initSimulator mem]) mem :=
    ⟨_, List.mem_singleton_self _, rfl⟩
  have hsourced : Sourced (MemoryOf ([] ++ [FunctMachine.initSimulator mem]))
      (enter (initSimulator iCacheConfig dCacheConfig mem)) := ⟨hmem, hmem, .inl rfl⟩
  cases fuel with
  | zero => exact absurd hrun (by simp [FunctMachine.runTillHalt])
  | succ fuel => exact .running rfl (List.nil_append _).symm rfl rfl hsourced

/-- **Pipeline and functional simulator run together** as long as the cycles are regular. -/
theorem simulates {ok : LoopState → Prop}
    (hrun : FunctMachine.runTillHalt fuel m₀ = some (.halt, m))
    (hskips : SkipsNone (FunctMachine.trace fuel m₀))
    (hok : ∀ visited s q, RunsAlong (FunctMachine.trace fuel m₀) visited s q → ok s →
      s.Regular ∧ s.halts accessFault = false) :
    Simulates (RvPipeSim.cycle accessFault) RvPipeSim.reenter ok Sequencer.step
      (RunsAlong (FunctMachine.trace fuel m₀)) where
  next visited s q h hs := by
    obtain ⟨hregular, hhalt⟩ := hok visited s q h hs
    exact h.cycle hrun hskips hregular hhalt
  resume _ _ _ h := h.reenter

/-! ### Runs without branches -/

/-- **On a run that executes no branch or jump, none is in ID.** -/
theorem no_branch (hstraight : ∀ u ∈ T, u.executed.branchOpcode = false)
    (h : RunsAlong T visited s q) (hfree : s.haltFree = true) :
    isBranchOrJump s.idInst = false := by
  by_contra hbr
  rw [Bool.not_eq_false] at hbr
  obtain ⟨hactive, hlegal, hop⟩ := LoopState.active_of_branch hbr
  obtain ⟨hdecoded, hnormal⟩ := h.steady.shape.id_of_active hactive
  obtain ⟨hmem, hex, -⟩ := Refines.haltFree_iff.mp hfree
  have hq : q.halted = false := by rw [h.refines.halted_eq, hfree, Bool.not_true]
  obtain ⟨done, rest, hT, -, hwords, -⟩ := h.of_not_halted hq
  have hcounted : s.idInst.toFetchInfo ∈ s.counted visited := by
    have hlive : s.idInst.live legalFetch = some s.idInst.toFetchInfo := by
      rw [hdecoded.decode] at hlegal
      rw [live_of_unsquashed legalFetch_nop (.inr hnormal), legalFetch, hdecoded.numbered, hlegal]
      rfl
    rw [LoopState.counted, hmem, hex, if_neg Bool.false_ne_true, if_neg Bool.false_ne_true,
      LoopState.labelsID, hlive]
    exact List.mem_append_right _ (List.mem_singleton_self _)
  have hword : s.idInst.instruction ∈ done.map FunctMachine.word := by
    rw [← hwords]
    exact List.mem_map_of_mem hcounted
  obtain ⟨u, hu, hword⟩ := List.mem_map.mp hword
  have hnone := hstraight u (by rw [hT]; exact List.mem_append_left _ hu)
  rw [u.executed_decode, hword, ← hdecoded.decode, hop] at hnone
  exact Bool.noConfusion hnone

/-- There the words alone make a cycle regular. -/
theorem regular_of_straight (hstraight : ∀ u ∈ T, u.executed.branchOpcode = false)
    (hcoherent : s.haltFree = true → s.FetchCoherent) (h : RunsAlong T visited s q) :
    s.Regular :=
  fun hfree => ⟨fun hbr => Bool.noConfusion ((h.no_branch hstraight hfree).symm.trans hbr),
    hcoherent hfree⟩

/-- **Where no instruction is overwritten before it is executed, ID gets the words that
memory holds.** -/
theorem fetchCoherent_of_keepsAhead (hkeeps : FunctMachine.KeepsAhead T)
    (hfresh : s.BranchFresh) (h : RunsAlong T visited s q) (hfree : s.haltFree = true) :
    s.FetchCoherent := by
  intro hdecodes
  have hq : q.halted = false := by rw [h.refines.halted_eq, hfree, Bool.not_true]
  obtain ⟨hsync, hsim, hPC⟩ := h.refines.of_not_halted hq
  obtain ⟨done, rest, hT, -, -, hsourced⟩ := h.of_not_halted hq
  obtain ⟨hqPC, -⟩ := Prod.mk.inj <| hPC.symm.trans
    (LoopState.upcoming_of_decoding h.steady h.operands hsync hfresh hdecodes)
  obtain ⟨-, ⟨v, hv, rfl⟩, hword⟩ :=
    hsourced.fetched.resolve_left (LoopState.decodes_iff.mp hdecodes).2.1
  rw [hword, ← hqPC, hsim.memory]
  rcases List.mem_append.mp hv with hv | hv
  · rw [FunctMachine.KeepsAhead, hT, List.pairwise_append] at hkeeps
    exact hkeeps.2.2 v hv q.toFunctMachine (List.mem_cons_self ..)
  · rw [List.mem_singleton.mp hv]

/-! ### The two counts -/

/-- **What the pipelined simulator does not count are the NOPs.** -/
theorem count_of_halts {iCacheConfig dCacheConfig : CacheConfig} {mem : MemoryStore}
    (hrun : FunctMachine.runTillHalt fuel (.initSimulator mem) = some (.halt, m))
    (hrun' : PipelineRun accessFault (fun t => t.halts accessFault = false) iCacheConfig
      dCacheConfig mem visited s)
    (hhalt : s.halts accessFault = true)
    (h : RunsAlong (FunctMachine.trace fuel (.initSimulator mem)) visited s q) :
    (leave (RvPipeSim.cycle accessFault s)).completedCount +
        (FunctMachine.trace fuel (.initSimulator mem)).countP (fun u => u.word == nopWord) =
      m.simulator.din := by
  obtain ⟨hq, -, -⟩ := h.refines.of_halts h.steady hhalt
  have hwords : (s.counted visited).map FetchInfo.instruction =
      (FunctMachine.trace fuel (.initSimulator mem)).map FunctMachine.word := by
    cases h.executes with
    | running hq' => exact Bool.noConfusion (hq'.symm.trans hq)
    | halted _ _ hwords => exact hwords
  have hcount : (leave (RvPipeSim.cycle accessFault s)).completedCount =
      (FunctMachine.trace fuel (.initSimulator mem)).countP fun u => u.word != nopWord := by
    calc (leave (RvPipeSim.cycle accessFault s)).completedCount
        = (RvPipeSim.cycle accessFault s).completedCount := rfl
      _ = 0 + (s.counted visited).countP fun f => f.instruction != nopWord :=
          completedCount_of_halts (.init iCacheConfig dCacheConfig mem) hrun' hhalt
      _ = ((s.counted visited).map FetchInfo.instruction).countP fun w => w != nopWord := by
          rw [Nat.zero_add, List.countP_map]
          rfl
      _ = _ := by
          rw [hwords, List.countP_map]
          rfl
  have hall : (FunctMachine.trace fuel (.initSimulator mem)).length =
      (FunctMachine.trace fuel (.initSimulator mem)).countP (fun u => u.word == nopWord) +
        (FunctMachine.trace fuel (.initSimulator mem)).countP fun u => u.word != nopWord := by
    refine (List.length_eq_countP_add_countP fun u => u.word == nopWord).trans
      (congrArg _ (List.countP_congr fun u _ => ?_))
    simp
  have hdin := FunctMachine.din_of_halt hrun
  rw [hcount, hdin, hall]
  have hzero : (FunctMachine.initSimulator mem).simulator.din = 0 := rfl
  omega

end RunsAlong

end Along

/-! ### Straight lines -/

/-- The address of the word number `i`. -/
def linePC (i : ℕ) : BitVec 64 := BitVec.ofNat 64 (4 * i)

/-- The words of the line are four bytes apart. -/
theorem linePC_succ (i : ℕ) : linePC i + 4 = linePC (i + 1) := by
  rw [linePC, linePC, Nat.mul_succ, BitVec.ofNat_add]
  rfl

/-- The program in `mem` is `n` legal instructions, none of them a branch or jump, and a
HALT. -/
structure StraightLine (mem : MemoryStore) (n : ℕ) : Prop where
  isLegal : ∀ i < n, (decodeOf (wordAt mem (linePC i))).isLegal = true
  isHalt : ∀ i < n, (decodeOf (wordAt mem (linePC i))).isHalt = false
  branchOpcode : ∀ i < n, (decodeOf (wordAt mem (linePC i))).branchOpcode = false
  halt : wordAt mem (linePC n) = haltWord

namespace FunctMachine

variable {mem : MemoryStore} {n k fuel : ℕ} {m₀ m u : FunctMachine}

/-- Where no instruction is overwritten before it is executed, its word has stood there from
the start. -/
theorem word_of_keepsAhead (h : runTillHalt fuel m₀ = some (.halt, m))
    (hkeeps : KeepsAhead (trace fuel m₀)) (hu : u ∈ trace fuel m₀) :
    u.word = wordAt m₀.simulator.memory u.PC := by
  have hstart := start_mem_trace h
  cases fuel with
  | zero => exact absurd hu List.not_mem_nil
  | succ fuel =>
      rw [trace] at hu hkeeps
      rcases List.mem_cons.mp hu with rfl | hu
      · rfl
      · exact ((List.pairwise_cons.mp hkeeps).1 u hu).symm

/-- **The functional simulator goes along the line** up to the HALT behind it, if it finds
the words of the line where it goes. -/
theorem trace_of_line (hline : StraightLine mem n) (hk : k ≤ n) (hPC : m₀.PC = linePC k)
    (h : runTillHalt fuel m₀ = some (.halt, m))
    (hwords : ∀ u ∈ trace fuel m₀, u.word = wordAt mem u.PC) :
    (trace fuel m₀).map PC = (List.range' k (n + 1 - k)).map linePC := by
  induction fuel generalizing m₀ k with
  | zero => exact absurd h (by simp [runTillHalt])
  | succ fuel ih =>
      have hword : m₀.word = wordAt mem (linePC k) := by
        rw [hwords m₀ (start_mem_trace h), hPC]
      have hdec : m₀.executed.toDecodeInfo = decodeOf (wordAt mem (linePC k)) := by
        rw [executed_decode, hword]
      rcases trace_succ h with ⟨⟨hhalt, -⟩, hlast⟩ | ⟨⟨hhalt, hlegal⟩, hrest, hnext⟩
      · obtain rfl : k = n := by
          refine (Nat.lt_or_eq_of_le hk).resolve_left fun hlt => ?_
          rw [hdec, hline.isHalt k hlt] at hhalt
          exact Bool.noConfusion hhalt
        rw [hlast, Nat.add_sub_cancel_left, List.map_singleton, hPC]
        rfl
      · have hlt : k < n := by
          refine Nat.lt_of_le_of_ne hk ?_
          rintro rfl
          rw [hdec, hline.halt] at hhalt
          exact Bool.noConfusion hhalt
        have hop := hline.branchOpcode k hlt
        rw [← hword] at hop
        rw [executed_decode] at hhalt hlegal
        have hnextPC : m₀.advance.PC = linePC (k + 1) := by
          rw [← linePC_succ, ← hPC]
          exact (simInstruction_nextPC hlegal hhalt).trans (resolvedPC_of_not_branch hop)
        rw [hnext] at hwords
        have hlength : n + 1 - k = n + 1 - (k + 1) + 1 := by omega
        rw [hnext, List.map_cons, hPC, hlength, List.range'_succ, List.map_cons,
          ih hlt hnextPC hrest fun u hu => hwords u (List.mem_cons_of_mem _ hu)]

/-- The words that a run along the line executes are those of the line. -/
theorem word_of_line (hline : StraightLine mem n)
    (h : runTillHalt fuel (.initSimulator mem) = some (.halt, m))
    (hkeeps : KeepsAhead (trace fuel (.initSimulator mem))) :
    (trace fuel (.initSimulator mem)).map word =
      (List.range (n + 1)).map fun i => wordAt mem (linePC i) := by
  have hwords := fun u hu => word_of_keepsAhead (u := u) h hkeeps hu
  have hPCs := trace_of_line hline (Nat.zero_le n) rfl h hwords
  calc (trace fuel (.initSimulator mem)).map word
      = ((trace fuel (.initSimulator mem)).map PC).map (wordAt mem) := by
        rw [List.map_map]
        exact List.map_congr_left hwords
    _ = _ := by
        rw [hPCs, List.map_map, ← List.range_eq_range']
        rfl

/-- No branch or jump is among them. -/
theorem straight_of_line (hline : StraightLine mem n)
    (h : runTillHalt fuel (.initSimulator mem) = some (.halt, m))
    (hkeeps : KeepsAhead (trace fuel (.initSimulator mem))) :
    ∀ u ∈ trace fuel (.initSimulator mem), u.executed.branchOpcode = false := by
  intro u hu
  have hword : u.word ∈ (trace fuel (.initSimulator mem)).map word := List.mem_map_of_mem hu
  rw [word_of_line hline h hkeeps] at hword
  obtain ⟨i, hi, hword⟩ := List.mem_map.mp hword
  rw [executed_decode, ← hword]
  rcases Nat.lt_or_eq_of_le (Nat.le_of_lt_succ (List.mem_range.mp hi)) with hlt | rfl
  · exact hline.branchOpcode i hlt
  · rw [hline.halt]
    rfl

/-- The HALT it executes is the one behind the line. -/
theorem PC_of_halt (hline : StraightLine mem n)
    (h : runTillHalt fuel (.initSimulator mem) = some (.halt, m))
    (hkeeps : KeepsAhead (trace fuel (.initSimulator mem)))
    (hu : u ∈ trace fuel (.initSimulator mem)) (hhalt : u.executed.isHalt = true) :
    u.PC = linePC n := by
  have hwords := fun v hv => word_of_keepsAhead (u := v) h hkeeps hv
  have hPC : u.PC ∈ (trace fuel (.initSimulator mem)).map PC := List.mem_map_of_mem hu
  rw [trace_of_line hline (Nat.zero_le n) rfl h hwords, ← List.range_eq_range'] at hPC
  obtain ⟨i, hi, hline'⟩ := List.mem_map.mp hPC
  rcases Nat.lt_or_eq_of_le (Nat.le_of_lt_succ (List.mem_range.mp hi)) with hlt | rfl
  · have hword := hwords u hu
    rw [← hline'] at hword
    have hgoing := hline.isHalt i hlt
    rw [executed_decode, hword] at hhalt
    exact Bool.noConfusion (hgoing.symm.trans hhalt)
  · exact hline'.symm

end FunctMachine

/-- **Along a line that is not overwritten ahead the cycles are regular.** -/
theorem RunsAlong.regular_of_line {mem : MemoryStore} {n fuel : ℕ} {m : FunctMachine}
    {visited : List LoopState} {s : LoopState} {q : Sequencer} (hline : StraightLine mem n)
    (h : FunctMachine.runTillHalt fuel (.initSimulator mem) = some (.halt, m))
    (hkeeps : FunctMachine.KeepsAhead (FunctMachine.trace fuel (.initSimulator mem)))
    (hrel : RunsAlong (FunctMachine.trace fuel (.initSimulator mem)) visited s q) :
    s.Regular := by
  have hstraight := FunctMachine.straight_of_line hline h hkeeps
  refine hrel.regular_of_straight hstraight fun hfree => ?_
  refine hrel.fetchCoherent_of_keepsAhead hkeeps (fun hbr => ?_) hfree
  exact Bool.noConfusion ((hrel.no_branch hstraight hfree).symm.trans hbr)

/-! ### Behind the HALT -/

namespace LoopState

variable {s : LoopState}

/-- What comes to ID without being decoded there is no branch, if none was in ID before. -/
theorem not_branch_of_not_decodes (hs : Steady s) (hbr : isBranchOrJump s.idInst = false)
    (hdecodes : s.decodes = false) : isBranchOrJump (cycle accessFault s).idInst = false := by
  cases hexc : s.excepted
  · cases hheld : (s.frozen || s.stalled)
    · obtain ⟨hz, hst⟩ := Bool.or_eq_false_iff.mp hheld
      exact (idInst_of_not_decodes hs hz hexc hst hdecodes).not_branch
    · rw [(held_congr hs hexc hheld).2.1]
      exact hbr
  · rw [cycle_idInst_eq hs.shape hs.flow]
    cases hz : s.frozen
    · rw [idOut_of_excepted _ hz hexc]
      rfl
    · rw [idOut_of_frozen _ hz, isBranchOrJump, s.idForwarded_toDecodeInfo,
        (illegal_of_excepted hexc).1, Bool.and_false, Bool.false_and]

/-- The word that ID decodes is no branch if it is not one in memory. -/
theorem not_branch_of_decodes (hs : Steady s) (hdecodes : s.decodes = true)
    (hop : (decodeOf s.ifInst.instruction).branchOpcode = false) :
    isBranchOrJump (cycle accessFault s).idInst = false := by
  obtain ⟨hdecoded, -, hfetch⟩ := idInst_of_decodes hs hdecodes
  refine Bool.eq_false_iff.mpr fun hbr => ?_
  have hop' := (active_of_branch hbr).2.2
  rw [hdecoded.decode, hfetch, hop] at hop'
  exact Bool.noConfusion hop'

/-- Behind an instruction that is no branch the next two words follow in line, or it is
illegal. -/
theorem upcoming_cycle_of_decodes (hs : Steady s) (hdecodes : s.decodes = true)
    (hbr : isBranchOrJump (cycle accessFault s).idInst = false) :
    (cycle accessFault s).excepted = true ∨
      (cycle accessFault s).upcoming = (s.PC, s.PC + 4) := by
  obtain ⟨hz, hexc, hst, hsv, -⟩ := moving_of_decodes hs hdecodes
  have hnobranch : isBranchOrJump (s.idOut accessFault).1 = false := by
    rw [← cycle_idInst_eq hs.shape hs.flow]
    exact hbr
  obtain ⟨hif, hPC⟩ := fetch_of_decoded hs.shape hs.flow hexc hz hst hsv hnobranch
  cases hexc' : (cycle accessFault s).excepted
  · refine .inr ?_
    rw [upcoming, hexc', if_neg Bool.false_ne_true, hbr, if_neg Bool.false_ne_true,
      inLine_of_normal (by rw [hif]; rfl), hif, hPC]
    rfl
  · exact .inl rfl

end LoopState

/-- What follows the HALT of a line of `n` instructions into the pipeline: the next word or
the one behind it, none of them a branch or jump. -/
structure Trails (T : List FunctMachine) (n : ℕ) (s : LoopState) : Prop where
  current : MemoryOf T s.simulator.memory
  fetched : s.ifInst.status = .idle ∨
    ∃ mem, MemoryOf T mem ∧ s.ifInst.instruction = wordAt mem s.ifInst.PC
  noBranch : isBranchOrJump s.idInst = false
  inID : s.memInst.isHalt = false → s.exInst.isHalt = false →
    s.upcoming = (linePC (n + 1), linePC (n + 2))
  inEX : s.memInst.isHalt = false → s.exInst.isHalt = true →
    s.excepted = true ∨ s.upcoming.1 = linePC (n + 1) ∨ s.upcoming.1 = linePC (n + 2)

namespace Trails

variable {T : List FunctMachine} {n : ℕ} {s : LoopState} {q : Sequencer}
  {visited : List LoopState}

/-- Entering `runCycles` again moves nothing. -/
theorem reenter (h : Trails T n s) : Trails T n (RvPipeSim.reenter s) :=
  ⟨h.current, h.fetched, h.noBranch, h.inID, h.inEX⟩

/-- There is no branch in ID whose choice of the next PC could be out of date. -/
theorem synced (h : Trails T n s) : s.Synced := fun hbr =>
  Bool.noConfusion (h.noBranch.symm.trans hbr)

/-- Nor one whose operands could be. -/
theorem branchFresh (h : Trails T n s) : s.BranchFresh := fun hbr =>
  Bool.noConfusion (h.noBranch.symm.trans hbr)

/-- The memory stays one of the functional run until the simulator halts. -/
theorem memory_cycle (hhalt : s.halts accessFault = false) (hfree : s.haltFree = false)
    (ha : RunsAlong T visited s q) (h : Trails T n s) :
    MemoryOf T (cycle accessFault s).simulator.memory := by
  have hs := ha.steady
  cases hz : s.frozen
  · have hq : MemoryOf T q.simulator.memory := by
      cases ha.executes with
      | running hq => exact Bool.noConfusion <|
          (ha.refines.halted_eq.symm.trans hq).symm.trans (by rw [hfree, Bool.not_false])
      | halted _ hmem _ => exact hmem
    cases ha.refines with
    | running hfree' => exact Bool.noConfusion (hfree.symm.trans hfree')
    | haltInID _ _ _ _ hsim =>
        rw [LoopState.memory_cycle_eq_retireEX hs hz, hsim.memory]
        exact hq
    | haltInEX _ hex =>
        have hnostore : isStore s.exInst = false := by
          rw [isStore, (hs.shape.ex_wellFormed.halt hex).2.2.1.writesMem]
          rfl
        rw [LoopState.memory_cycle hs.shape hz, hnostore, if_neg Bool.false_ne_true]
        exact h.current
    | haltInMEM hmem =>
        rw [LoopState.halts_eq _ hz, hmem] at hhalt
        exact Bool.noConfusion hhalt
  · rw [LoopState.simulator_cycle_of_frozen hz]
    exact h.current

/-- **A cycle behind the HALT** brings no branch or jump to ID, if the two words behind the
line are none. -/
theorem cycle
    (hbehind : ∀ mem, MemoryOf T mem →
      (decodeOf (wordAt mem (linePC (n + 1)))).branchOpcode = false ∧
        (decodeOf (wordAt mem (linePC (n + 2)))).branchOpcode = false)
    (hhalt : s.halts accessFault = false) (hfree : s.haltFree = false)
    (ha : RunsAlong T visited s q) (h : Trails T n s) : Trails T n (cycle accessFault s) := by
  have hs := ha.steady
  have hcurrent := h.memory_cycle hhalt hfree ha
  have hmem' := LoopState.memInst_isHalt_cycle hs
  have hex' := LoopState.exInst_isHalt_cycle hs
  -- a HALT in MEM is frozen, and one in ID or EX moves on
  have hmem : s.frozen = false → s.memInst.isHalt = false := fun hz => by
    rwa [LoopState.halts_eq _ hz] at hhalt
  have hid (hex : s.exInst.isHalt = false) (hmem : s.memInst.isHalt = false) :
      s.idInst.isHalt = true := by
    rw [LoopState.haltFree, hmem, hex, Bool.not_eq_false', Bool.false_or, Bool.false_or] at hfree
    exact hfree
  have hdecoded (hdecodes : s.decodes = true) :
      isBranchOrJump (RvPipeSim.cycle accessFault s).idInst = false := by
    obtain ⟨hz, hexc, -⟩ := LoopState.moving_of_decodes hs hdecodes
    have hup := LoopState.upcoming_of_decoding hs ha.operands h.synced h.branchFresh hdecodes
    obtain ⟨mem, hP, hword⟩ := h.fetched.resolve_left (LoopState.decodes_iff.mp hdecodes).2.1
    have hPC : s.ifInst.PC = linePC (n + 1) ∨ s.ifInst.PC = linePC (n + 2) := by
      cases hex : s.exInst.isHalt
      · exact .inl (Prod.mk.inj (hup.symm.trans (h.inID (hmem hz) hex))).1
      · have hnext := (h.inEX (hmem hz) hex).resolve_left (by rw [hexc]; exact Bool.false_ne_true)
        rwa [hup] at hnext
    refine LoopState.not_branch_of_decodes hs hdecodes ?_
    rw [hword]
    rcases hPC with hPC | hPC
    · rw [hPC]
      exact (hbehind mem hP).1
    · rw [hPC]
      exact (hbehind mem hP).2
  have hnoBranch : isBranchOrJump (RvPipeSim.cycle accessFault s).idInst = false := by
    cases hdecodes : s.decodes
    · exact LoopState.not_branch_of_not_decodes hs h.noBranch hdecodes
    · exact hdecoded hdecodes
  have hup (hdecodes : s.decodes = false) :
      (RvPipeSim.cycle accessFault s).upcoming = s.upcoming :=
    LoopState.upcoming_cycle hs ha.operands h.synced h.branchFresh hdecodes
  have hstays (hz : s.frozen = true) : s.decodes = false := by
    by_contra hdecodes
    rw [Bool.not_eq_false] at hdecodes
    exact Bool.noConfusion (hz.symm.trans (LoopState.moving_of_decodes hs hdecodes).1)
  refine ⟨hcurrent, LoopState.fetchedWord_cycle hcurrent h.fetched, hnoBranch, ?_, ?_⟩
  · intro hmem'' hex''
    rw [hmem''] at hmem'
    rw [hex''] at hex'
    cases hz : s.frozen
    · rw [hz, if_neg Bool.false_ne_true] at hmem' hex'
      obtain ⟨hexc, hst⟩ := LoopState.moving_of_halt hs (hid hmem'.symm (hmem hz))
      rw [hexc, hst, hid hmem'.symm (hmem hz)] at hex'
      exact Bool.noConfusion hex'
    · rw [hz, if_pos rfl] at hmem' hex'
      rw [hup (hstays hz)]
      exact h.inID hmem'.symm hex'.symm
  · intro hmem'' hex''
    rw [hmem''] at hmem'
    rw [hex''] at hex'
    cases hz : s.frozen
    · rw [hz, if_neg Bool.false_ne_true] at hmem'
      have hline := h.inID (hmem hz) hmem'.symm
      cases hdecodes : s.decodes
      · rw [hup hdecodes, hline]
        exact .inr (.inl rfl)
      · have hPC := LoopState.upcoming_of_decoding hs ha.operands h.synced h.branchFresh hdecodes
        rcases LoopState.upcoming_cycle_of_decodes hs hdecodes hnoBranch with hexc | hnext
        · exact .inl hexc
        · rw [hnext, (Prod.mk.inj (hPC.symm.trans hline)).2]
          exact .inr (.inr rfl)
    · rw [hz, if_pos rfl] at hmem' hex'
      rw [hup (hstays hz)]
      refine (h.inEX hmem'.symm hex'.symm).imp_left fun hexc => ?_
      rw [← hexc, LoopState.excepted, LoopState.excepted, raisesIllegalExc, raisesIllegalExc,
        LoopState.cycle_idInst_eq hs.shape hs.flow, LoopState.idOut_of_frozen _ hz,
        LoopState.idForwarded, forwardToID_eq]
      rfl

/-- The cycle in which the HALT of the line is decoded. -/
theorem of_decoded {mem : MemoryStore} {fuel : ℕ} {m : FunctMachine}
    (hline : StraightLine mem n)
    (h : FunctMachine.runTillHalt fuel (.initSimulator mem) = some (.halt, m))
    (hkeeps : FunctMachine.KeepsAhead (FunctMachine.trace fuel (.initSimulator mem)))
    (ha : RunsAlong (FunctMachine.trace fuel (.initSimulator mem)) visited s q)
    (hfree : s.haltFree = true) (hfree' : (RvPipeSim.cycle accessFault s).haltFree = false) :
    Trails (FunctMachine.trace fuel (.initSimulator mem)) n (RvPipeSim.cycle accessFault s) := by
  have hs := ha.steady
  have hq : q.halted = false := by rw [ha.refines.halted_eq, hfree, Bool.not_true]
  obtain ⟨hsync, hsim, hPC⟩ := ha.refines.of_not_halted hq
  obtain ⟨done, rest, hT, hfetch, -, hsourced⟩ := ha.of_not_halted hq
  obtain ⟨hfresh, hcoherent⟩ := ha.regular_of_line hline h hkeeps hfree
  have hmem : q.toFunctMachine ∈ FunctMachine.trace fuel (.initSimulator mem) := by
    rw [hT]
    exact List.mem_append_right _ (List.mem_cons_self ..)
  obtain ⟨hmem', hex'⟩ := Refines.not_halt_cycle hs hfree
  have hid' : (RvPipeSim.cycle accessFault s).idInst.isHalt = true := by
    rw [LoopState.haltFree, hmem', hex', Bool.not_eq_false', Bool.false_or, Bool.false_or] at hfree'
    exact hfree'
  have hdecodes : s.decodes = true := by
    by_contra hdecodes
    rw [Bool.not_eq_true] at hdecodes
    have hid := Refines.idInst_not_halt hs hdecodes (Refines.haltFree_iff.mp hfree).2.2
    exact Bool.noConfusion (hid.symm.trans hid')
  -- the HALT is the one behind the line
  obtain ⟨hqPC, hqfetch⟩ := Prod.mk.inj <|
    hPC.symm.trans (LoopState.upcoming_of_decoding hs ha.operands hsync hfresh hdecodes)
  obtain ⟨hdecoded, -, hfetched⟩ := LoopState.idInst_of_decodes hs hdecodes
  have hhalt : q.executed.isHalt = true := by
    rw [q.executed_toDecodeInfo, ← hsim.memory, hqPC, ← hcoherent hdecodes, ← hfetched,
      ← hdecoded.decode]
    exact hid'
  have hnext : s.PC = linePC (n + 1) := by
    rw [← hqfetch, hfetch, FunctMachine.PC_of_halt hline h hkeeps hmem hhalt, linePC_succ]
  have hall : ∀ mem', MemoryOf (done ++ [q.toFunctMachine]) mem' →
      MemoryOf (FunctMachine.trace fuel (.initSimulator mem)) mem' := by
    rintro mem' ⟨v, hv, hmem'⟩
    refine ⟨v, ?_, hmem'⟩
    rw [hT]
    rcases List.mem_append.mp hv with hv | hv
    · exact List.mem_append_left _ hv
    · rw [List.mem_singleton.mp hv]
      exact List.mem_append_right _ (List.mem_cons_self ..)
  have hcurrent := hall _ (hsourced.current_cycle hs)
  have hnoBranch : isBranchOrJump (RvPipeSim.cycle accessFault s).idInst = false := by
    refine Bool.eq_false_iff.mpr fun hbr => ?_
    have hop := (LoopState.active_of_branch hbr).2.2
    have hnone := (hdecoded.wellFormed.halt hid').2.2.2
    exact Bool.noConfusion (hnone.symm.trans hop)
  refine ⟨hcurrent, LoopState.fetchedWord_cycle hcurrent (hsourced.mono hall).fetched, hnoBranch,
    fun _ _ => ?_, fun _ hex => Bool.noConfusion (hex'.symm.trans hex)⟩
  rcases LoopState.upcoming_cycle_of_decodes hs hdecodes hnoBranch with hexc | hup
  · exact Bool.noConfusion ((LoopState.moving_of_halt hs.cycle hid').1.symm.trans hexc)
  · rw [hup, hnext, linePC_succ]

end Trails

/-- **No branch or jump comes into ID on a straight line** that is not overwritten ahead, if
neither of the two words behind its HALT ever is one. -/
theorem no_branch_of_line {iCacheConfig dCacheConfig : CacheConfig} {mem : MemoryStore}
    {n fuel fuel' : ℕ} {m : FunctMachine} {m' : Machine} (hline : StraightLine mem n)
    (h : FunctMachine.runTillHalt fuel (.initSimulator mem) = some (.halt, m))
    (hkeeps : FunctMachine.KeepsAhead (FunctMachine.trace fuel (.initSimulator mem)))
    (hbehind : ∀ u ∈ FunctMachine.trace fuel (.initSimulator mem),
      (decodeOf (wordAt u.simulator.memory (linePC (n + 1)))).branchOpcode = false ∧
        (decodeOf (wordAt u.simulator.memory (linePC (n + 2)))).branchOpcode = false)
    (h' : runTillHalt accessFault fuel' (initSimulator iCacheConfig dCacheConfig mem) = some m') :
    ∀ u ∈ haltTrace accessFault fuel' (initSimulator iCacheConfig dCacheConfig mem),
      isBranchOrJump u.idInst = false := by
  have hstraight := FunctMachine.straight_of_line hline h hkeeps
  have hskips : SkipsNone (FunctMachine.trace fuel (.initSimulator mem)) := fun u hu hop =>
    Bool.noConfusion ((hstraight u hu).symm.trans hop)
  have hbehind' : ∀ mem', MemoryOf (FunctMachine.trace fuel (.initSimulator mem)) mem' →
      (decodeOf (wordAt mem' (linePC (n + 1)))).branchOpcode = false ∧
        (decodeOf (wordAt mem' (linePC (n + 2)))).branchOpcode = false := by
    rintro mem' ⟨u, hu, rfl⟩
    exact hbehind u hu
  have hsim : Simulates (cycle accessFault) reenter (fun s => s.halts accessFault = false)
      Sequencer.step fun visited s q =>
        RunsAlong (FunctMachine.trace fuel (.initSimulator mem)) visited s q ∧
          (s.haltFree = false → Trails (FunctMachine.trace fuel (.initSimulator mem)) n s) := by
    constructor
    · rintro visited s q ⟨ha, htrails⟩ hhalt
      have htrails' (hfree' : (cycle accessFault s).haltFree = false) :
          Trails (FunctMachine.trace fuel (.initSimulator mem)) n (cycle accessFault s) := by
        cases hfree : s.haltFree
        · exact (htrails hfree).cycle hbehind' hhalt hfree ha
        · exact .of_decoded hline h hkeeps ha hfree hfree'
      exact (ha.cycle h hskips (ha.regular_of_line hline h hkeeps) hhalt).imp
        (fun ha' => ⟨ha', htrails'⟩) fun ha' => ⟨ha', htrails'⟩
    · rintro visited s q ⟨ha, htrails⟩
      exact ⟨ha.reenter, fun hfree => (htrails hfree).reenter⟩
  obtain ⟨visited, s, hrun, -, -, htrace⟩ := run_of_runTillHalt h'
  intro u hu
  rw [htrace] at hu
  obtain ⟨before, hrun'⟩ := hrun.exists_prefix hu
  obtain ⟨k, ha, htrails⟩ := hsim.of_run
    ⟨.init iCacheConfig dCacheConfig h, fun hfree => Bool.noConfusion hfree⟩ hrun'
  cases hfree : u.haltFree
  · exact (htrails hfree).noBranch
  · exact ha.no_branch hstraight hfree

/-! ### The result -/

section Result

variable {iCacheConfig dCacheConfig : CacheConfig} {mem : MemoryStore} {fuel fuel' : ℕ}
  {m : FunctMachine} {m' : Machine}

/-- **The two counts differ by the NOPs that are executed**, for every program whose
pipelined run is regular. -/
theorem dynamic_count_nops
    (h : FunctMachine.runTillHalt fuel (.initSimulator mem) = some (.halt, m))
    (hskips : SkipsNone (FunctMachine.trace fuel (.initSimulator mem)))
    (h' : runTillHalt accessFault fuel' (initSimulator iCacheConfig dCacheConfig mem) = some m')
    (hregular : ∀ s ∈ haltTrace accessFault fuel' (initSimulator iCacheConfig dCacheConfig mem),
      s.Regular) :
    m'.completedCount +
        (FunctMachine.trace fuel (.initSimulator mem)).countP (fun u => u.word == nopWord) =
      m.simulator.din := by
  obtain ⟨visited, s, hrun, hhalt, rfl, htrace⟩ := run_of_runTillHalt h'
  rw [htrace] at hregular
  have hrun' : RunFrom accessFault (fun t => t.Regular ∧ t.halts accessFault = false)
      (enter (initSimulator iCacheConfig dCacheConfig mem)) visited s :=
    hrun.restrict fun t ht => ⟨hregular t (List.mem_append_left _ ht), hrun.ok_of_mem t ht⟩
  obtain ⟨k, hrel⟩ := (RunsAlong.simulates h hskips fun _ _ _ _ hok => hok).of_run
    (.init iCacheConfig dCacheConfig h) hrun'
  exact hrel.count_of_halts h hrun hhalt

/-- On a straight line that is not overwritten ahead they differ by the NOPs of the line. -/
theorem dynamic_count_of_line {n : ℕ} (hline : StraightLine mem n)
    (h : FunctMachine.runTillHalt fuel (.initSimulator mem) = some (.halt, m))
    (hkeeps : FunctMachine.KeepsAhead (FunctMachine.trace fuel (.initSimulator mem)))
    (h' : runTillHalt accessFault fuel' (initSimulator iCacheConfig dCacheConfig mem) = some m') :
    m'.completedCount + (List.range n).countP (fun i => wordAt mem (linePC i) == nopWord) =
      m.simulator.din := by
  have hstraight := FunctMachine.straight_of_line hline h hkeeps
  have hskips : SkipsNone (FunctMachine.trace fuel (.initSimulator mem)) := fun u hu hop =>
    Bool.noConfusion ((hstraight u hu).symm.trans hop)
  obtain ⟨visited, s, hrun, hhalt, rfl, -⟩ := run_of_runTillHalt h'
  obtain ⟨k, hrel⟩ := (RunsAlong.simulates h hskips fun _ _ _ hrel hhalt =>
    ⟨hrel.regular_of_line hline h hkeeps, hhalt⟩).of_run (.init iCacheConfig dCacheConfig h) hrun
  have hcount := hrel.count_of_halts h hrun hhalt
  have hnops : (FunctMachine.trace fuel (.initSimulator mem)).countP (fun u => u.word == nopWord) =
      (List.range n).countP fun i => wordAt mem (linePC i) == nopWord := by
    calc (FunctMachine.trace fuel (.initSimulator mem)).countP (fun u => u.word == nopWord)
        = ((FunctMachine.trace fuel (.initSimulator mem)).map FunctMachine.word).countP
            fun w => w == nopWord := by
          rw [List.countP_map]
          rfl
      _ = (List.range (n + 1)).countP fun i => wordAt mem (linePC i) == nopWord := by
          rw [FunctMachine.word_of_line hline h hkeeps, List.countP_map]
          rfl
      _ = _ := by
          rw [List.range_succ, List.countP_append, List.countP_singleton, hline.halt]
          rfl
  rw [← hnops]
  exact hcount

/-- **The pipelined simulator reports the count of the functional one exactly if no NOP is
executed**, as long as the words it decodes are those in memory. On a straight line none of
whose instructions is overwritten before it is executed that always is so, and the NOPs are
those of the line. -/
theorem dynamic_count_iff {n : ℕ} (hline : StraightLine mem n)
    (h : FunctMachine.runTillHalt fuel (.initSimulator mem) = some (.halt, m))
    (h' : runTillHalt accessFault fuel' (initSimulator iCacheConfig dCacheConfig mem) = some m') :
    (SkipsNone (FunctMachine.trace fuel (.initSimulator mem)) →
      (∀ s ∈ haltTrace accessFault fuel' (initSimulator iCacheConfig dCacheConfig mem),
        s.Regular) →
      (m'.completedCount = m.simulator.din ↔
        ∀ u ∈ FunctMachine.trace fuel (.initSimulator mem), u.word ≠ nopWord)) ∧
    (FunctMachine.KeepsAhead (FunctMachine.trace fuel (.initSimulator mem)) →
      (m'.completedCount = m.simulator.din ↔ ∀ i < n, wordAt mem (linePC i) ≠ nopWord)) := by
  constructor
  · intro hskips hregular
    have hcount := dynamic_count_nops h hskips h' hregular
    have hnone : (FunctMachine.trace fuel (.initSimulator mem)).countP
          (fun u => u.word == nopWord) = 0 ↔
        ∀ u ∈ FunctMachine.trace fuel (.initSimulator mem), u.word ≠ nopWord := by
      rw [List.countP_eq_zero]
      simp only [beq_iff_eq, ne_eq]
    rw [← hnone]
    omega
  · intro hkeeps
    have hcount := dynamic_count_of_line hline h hkeeps h'
    have hnone : (List.range n).countP (fun i => wordAt mem (linePC i) == nopWord) = 0 ↔
        ∀ i < n, wordAt mem (linePC i) ≠ nopWord := by
      rw [List.countP_eq_zero]
      simp only [List.mem_range, beq_iff_eq, ne_eq]
    rw [← hnone]
    omega

end Result

/-- `nop; HALT`: the functional simulator reports two instructions, the pipelined one one. -/
theorem dynamic_count_nop :
    let mem : MemoryStore := .image fun | 0 => 0x00000013 | _ => 0xfeedfeed
    StraightLine mem 1 ∧
      (FunctMachine.runTillHalt 10 (.initSimulator mem)).map
        (fun m => (m.1, m.2.simulator.din)) = some (.halt, 2) ∧
      (runTillHalt accessFault 20 (initSimulator (.oneBlock 64) (.oneBlock 64) mem)).map
        (fun m => m.completedCount) = some 1 := by
  refine ⟨⟨?_, ?_, ?_, ?_⟩, ?_, ?_⟩ <;> decide +kernel

/-- `lw x1, 64(x0); sw x1, 12(x0); addi; addi; addi; HALT`: the store hits the second `addi`
when it is in the pipeline already. If the word stored is a HALT the counts are four and six,
if it is another `addi` they are both six. -/
theorem dynamic_count_stale :
    let mem (stored : BitVec 32) : MemoryStore := .image fun
      | 0 => 0x04002083 | 1 => 0x00102623 | 2 => 0x00100113 | 3 => 0x00200193
      | 4 => 0x00300213 | 16 => stored | _ => 0xfeedfeed
    let counts (stored : BitVec 32) : Option ℕ × Option ℕ :=
      ((FunctMachine.runTillHalt 10 (.initSimulator (mem stored))).map
          (fun m => m.2.simulator.din),
        (runTillHalt accessFault 30
          (initSimulator (.oneBlock 64) (.oneBlock 64) (mem stored))).map
          (fun m => m.completedCount))
    (StraightLine (mem 0xfeedfeed) 5 ∧ StraightLine (mem 0x00700193) 5) ∧
      counts 0xfeedfeed = (some 4, some 6) ∧ counts 0x00700193 = (some 6, some 6) := by
  refine ⟨⟨⟨?_, ?_, ?_, ?_⟩, ⟨?_, ?_, ?_, ?_⟩⟩, ?_, ?_⟩ <;> decide +kernel

/-- `addi x1, x0, 5; sw x1, 256(x0); HALT` counts three in both, and executes no NOP. -/
theorem dynamic_count_store :
    let mem : MemoryStore := .image fun
      | 0 => 0x00500093 | 1 => 0x10102023 | _ => 0xfeedfeed
    ∃ m m', FunctMachine.runTillHalt 10 (.initSimulator mem) = some (.halt, m) ∧
      runTillHalt accessFault 20 (initSimulator (.oneBlock 64) (.oneBlock 64) mem) = some m' ∧
      m'.completedCount = m.simulator.din ∧
      ∀ u ∈ FunctMachine.trace 10 (.initSimulator mem), u.word ≠ nopWord := by
  intro mem
  have hline : StraightLine mem 2 := by
    refine ⟨?_, ?_, ?_, ?_⟩ <;> decide +kernel
  obtain ⟨⟨status, m⟩, h, hstatus⟩ := Option.map_eq_some_iff.mp
    (by decide +kernel :
      (FunctMachine.runTillHalt 10 (.initSimulator mem)).map Prod.fst = some .halt)
  obtain rfl : status = .halt := hstatus
  obtain ⟨m', h'⟩ := Option.isSome_iff_exists.mp (by decide +kernel :
    (runTillHalt accessFault 20
      (initSimulator (.oneBlock 64) (.oneBlock 64) mem)).isSome = true)
  obtain ⟨hregular, hkeeps⟩ := dynamic_count_iff hline h h'
  have hcount := (hkeeps (by decide +kernel)).mpr (by decide +kernel)
  exact ⟨m, m', h, h', hcount, (hregular (by decide +kernel) (by decide +kernel)).mp hcount⟩

end RvPipeSim
