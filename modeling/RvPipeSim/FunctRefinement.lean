import RvPipeSim.Refinement

/-!
# The pipeline refines the functional simulator

A halting run of `funct.cpp` is a run of the sequencer, if it never branches to the word
behind the next one, where the pipeline would keep what it has fetched (`FollowsFunct`). If
no store of that run hits an instruction of it, all words of the program stay what they
were, so the pipeline decodes the right ones whenever it has fetched them (`Sourced`).

`pipeline_refines_funct` puts the two together: whenever the pipelined simulator halts, it
has the registers and, if its last cycle is quiet, the memory of the functional one.

## Main results

* `FollowsFunct.step` — the sequencer follows the functional run;
* `FollowsBoth.simulates` — pipeline, sequencer and functional simulator run together;
* `pipeline_refines_funct` — a halting pipelined run ends as the functional one.
-/

namespace RvPipeSim

open Simulator ObservedRun

namespace FunctMachine

variable {fuel : ℕ} {m₀ m u : FunctMachine}

/-! ### Along a functional run -/

/-- One step of `runInstructions`: HALT, illegal, or on. -/
theorem runInstructions_one (m : FunctMachine) :
    runInstructions 1 m =
      if m.executed.isHalt then (.halt, m.advance)
      else if !m.executed.isLegal then (.error, m.advance)
      else (.success, m.advance) := rfl

/-- A run that halts starts with its HALT, or with a legal instruction and a run that halts. -/
theorem trace_succ (h : runTillHalt (fuel + 1) m₀ = some (.halt, m)) :
    (m₀.executed.isHalt = true ∧ m = m₀.advance) ∧ trace (fuel + 1) m₀ = [m₀] ∨
      (m₀.executed.isHalt = false ∧ m₀.executed.isLegal = true) ∧
        runTillHalt fuel m₀.advance = some (.halt, m) ∧
        trace (fuel + 1) m₀ = m₀ :: trace fuel m₀.advance := by
  rw [runTillHalt, runInstructions_one] at h
  rw [trace, runInstructions_one]
  cases hhalt : m₀.executed.isHalt
  · rw [hhalt, if_neg Bool.false_ne_true] at h
    rw [if_neg Bool.false_ne_true]
    cases hlegal : m₀.executed.isLegal
    · rw [hlegal] at h
      exact absurd h (by simp)
    · rw [hlegal] at h
      exact .inr ⟨⟨rfl, rfl⟩, h, rfl⟩
  · rw [hhalt, if_pos rfl] at h
    exact .inl ⟨⟨rfl, (Prod.mk.inj (Option.some.inj h)).2.symm⟩, rfl⟩

/-- A run that halts passes its start. -/
theorem start_mem_trace (h : runTillHalt fuel m₀ = some (.halt, m)) : m₀ ∈ trace fuel m₀ := by
  cases fuel with
  | zero => exact absurd h (by simp [runTillHalt])
  | succ fuel => exact List.mem_cons_self ..

/-- A run that halts executes legal instructions and then a HALT. -/
theorem trace_step (h : runTillHalt fuel m₀ = some (.halt, m)) (hu : u ∈ trace fuel m₀) :
    u.executed.isHalt = true ∧ m = u.advance ∨
      u.executed.isHalt = false ∧ u.executed.isLegal = true ∧ u.advance ∈ trace fuel m₀ := by
  induction fuel generalizing m₀ with
  | zero => exact absurd hu List.not_mem_nil
  | succ fuel ih =>
      rcases trace_succ h with ⟨hlast, htrace⟩ | ⟨⟨hhalt, hlegal⟩, hrest, htrace⟩
      · rw [htrace] at hu
        obtain rfl := List.mem_singleton.mp hu
        exact .inl hlast
      · rw [htrace] at hu ⊢
        rcases List.mem_cons.mp hu with rfl | hu
        · exact .inr ⟨hhalt, hlegal, List.mem_cons_of_mem _ (start_mem_trace hrest)⟩
        · rcases ih hrest hu with hlast | ⟨hhalt', hlegal', hnext⟩
          · exact .inl hlast
          · exact .inr ⟨hhalt', hlegal', List.mem_cons_of_mem _ hnext⟩

/-- An instruction leaves every word that it does not store to. -/
theorem wordAt_advance (hhalt : u.executed.isHalt = false) (hlegal : u.executed.isLegal = true)
    {address : BitVec 64} (hkeeps : ∀ j < 4, ¬ u.StoresTo (address + BitVec.ofNat 64 j)) :
    wordAt u.advance.simulator.memory address = wordAt u.simulator.memory address := by
  have hdec : u.executed.toDecodeInfo = decodeOf (wordAt u.simulator.memory u.PC) :=
    simInstruction_toDecodeInfo u.simulator u.PC
  have hmem : u.advance.simulator.memory =
      if u.executed.writesMem then storedMemory u.executed u.simulator.memory
      else u.simulator.memory := by
    rw [hdec] at hhalt hlegal ⊢
    exact simInstruction_memory hlegal hhalt
  rw [hmem]
  split
  · rename_i hwrites
    have hread : (storedMemory u.executed u.simulator.memory).getMemValue address .wordSize =
        u.simulator.memory.getMemValue address .wordSize :=
      MemoryStore.getMemValue_setMemValue fun j hj i hi heq =>
        hkeeps j hj ⟨hwrites, i, hi, heq.symm⟩
    rw [wordAt, wordAt, simFetch, simFetch, hread]
  · rfl

/-- A word that no instruction of the run stores to stays what it was. -/
theorem wordAt_of_mem_trace (h : runTillHalt fuel m₀ = some (.halt, m)) {address : BitVec 64}
    (hkeeps : ∀ v ∈ trace fuel m₀, ∀ j < 4, ¬ v.StoresTo (address + BitVec.ofNat 64 j))
    (hu : u ∈ trace fuel m₀) :
    wordAt u.simulator.memory address = wordAt m₀.simulator.memory address := by
  induction fuel generalizing m₀ with
  | zero => exact absurd hu List.not_mem_nil
  | succ fuel ih =>
      rcases trace_succ h with ⟨-, htrace⟩ | ⟨⟨hhalt, hlegal⟩, hrest, htrace⟩
      · rw [htrace] at hu
        obtain rfl := List.mem_singleton.mp hu
        rfl
      · rw [htrace] at hu hkeeps
        rcases List.mem_cons.mp hu with rfl | hu
        · rfl
        · rw [ih hrest (fun v hv => hkeeps v (List.mem_cons_of_mem _ hv)) hu]
          exact wordAt_advance hhalt hlegal (hkeeps m₀ (List.mem_cons_self ..))

end FunctMachine

/-! ### The sequencer on a functional run -/

/-- No branch or jump of the run goes to the word behind the next one. -/
def SkipsNone (visited : List FunctMachine) : Prop :=
  ∀ u ∈ visited, u.executed.branchOpcode = true → u.executed.nextPC ≠ u.PC + 8

instance (visited : List FunctMachine) : Decidable (SkipsNone visited) :=
  inferInstanceAs (Decidable (∀ u ∈ visited, _ = true → _ ≠ _))

/-- The sequencer is on its way along the functional run, or has halted with its outcome. -/
inductive FollowsFunct (visited : List FunctMachine) (m : FunctMachine) (q : Sequencer) : Prop
  | running : q.halted = false → q.toFunctMachine ∈ visited → q.fetchPC = q.PC + 4 →
      FollowsFunct visited m q
  | halted : q.halted = true → m.simulator.Agrees q.simulator → FollowsFunct visited m q

/-- What is not a branch or jump goes on to the next word. -/
theorem resolvedPC_of_not_branch {inst : Instruction} (h : inst.branchOpcode = false) :
    resolvedPC inst = inst.PC + 4 := by
  rw [DecodeInfo.branchOpcode, Bool.or_eq_false_iff, Bool.or_eq_false_iff] at h
  obtain ⟨⟨hbranch, hjal⟩, hjalr⟩ := h
  rw [resolvedPC]
  rw [if_neg (beq_eq_false_iff_ne.mp hjalr), if_neg (beq_eq_false_iff_ne.mp hbranch),
    if_neg (beq_eq_false_iff_ne.mp hjal)]

/-- Where the choice of the next word is as good as the resolved PC, the sequencer goes
where the functional simulator goes. -/
theorem successors_eq {q : Sequencer} (hhalt : q.executed.isHalt = false)
    (hlegal : q.executed.isLegal = true) (hfetch : q.fetchPC = q.PC + 4)
    (hskips : q.executed.branchOpcode = true → q.executed.nextPC ≠ q.PC + 8) :
    q.successors = (q.executed.nextPC, q.executed.nextPC + 4) := by
  rw [Sequencer.successors, if_pos hlegal, hfetch]
  cases hop : q.executed.branchOpcode
  · have hdec := q.executed_toDecodeInfo
    have hnext : q.executed.nextPC = q.PC + 4 := by
      rw [hdec] at hhalt hlegal hop
      exact (simInstruction_nextPC hlegal hhalt).trans (resolvedPC_of_not_branch hop)
    rw [if_neg Bool.false_ne_true, hnext]
  · have hne := hskips hop
    rw [if_pos rfl, follow, if_neg]
    intro heq
    refine hne ?_
    bv_omega

/-- Until it halts the sequencer is at a state of the functional run. -/
theorem FollowsFunct.of_not_halted {visited : List FunctMachine} {m : FunctMachine}
    {q : Sequencer} (h : FollowsFunct visited m q) (hq : q.halted = false) :
    q.toFunctMachine ∈ visited := by
  cases h with
  | running _ hmem _ => exact hmem
  | halted hq' _ => exact Bool.noConfusion (hq.symm.trans hq')

/-- A step of the sequencer is a step of the functional run, where no branch skips just the next
word. -/
theorem FollowsFunct.step {fuel : ℕ} {m₀ m : FunctMachine} {q : Sequencer}
    (h : FunctMachine.runTillHalt fuel m₀ = some (.halt, m))
    (hskips : SkipsNone (FunctMachine.trace fuel m₀))
    (hq : FollowsFunct (FunctMachine.trace fuel m₀) m q) :
    FollowsFunct (FunctMachine.trace fuel m₀) m q.step := by
  cases hq with
  | halted hq hsim =>
      rw [Sequencer.step_of_halted hq]
      exact .halted hq hsim
  | running hq hmem hfetch =>
      rcases FunctMachine.trace_step h hmem with ⟨hhalt, hm⟩ | ⟨hhalt, hlegal, hnext⟩
      · rw [Sequencer.step_of_halt hq hhalt]
        refine .halted rfl ?_
        have hstop : (decodeOf (wordAt q.simulator.memory q.PC)).isHalt = true := by
          rw [← q.executed_toDecodeInfo]
          exact hhalt
        rw [hm, FunctMachine.advance]
        dsimp only
        rw [simInstruction_of_stop (.inl hstop)]
        exact ⟨rfl, rfl⟩
      · rw [Sequencer.step_of_legal hq hhalt hlegal,
          successors_eq hhalt hlegal hfetch (hskips _ hmem)]
        exact .running rfl hnext rfl

/-! ### Where the words in the pipeline come from -/

/-- The word in IF behind a cycle is from the memory of then, or was there before. -/
theorem LoopState.fetchedWord_cycle {P : MemoryStore → Prop} {s : LoopState}
    (hmem : P (cycle accessFault s).simulator.memory)
    (hfetched : s.ifInst.status = .idle ∨
      ∃ mem, P mem ∧ s.ifInst.instruction = wordAt mem s.ifInst.PC) :
    (cycle accessFault s).ifInst.status = .idle ∨
      ∃ mem, P mem ∧
        (cycle accessFault s).ifInst.instruction = wordAt mem (cycle accessFault s).ifInst.PC := by
  cases hfetch : s.refetched accessFault
  · rw [(cycle_of_not_refetched accessFault s hfetch).2]
    exact hfetched
  · obtain ⟨-, PC, status, -, hif⟩ := cycle_of_refetched accessFault s hfetch
    refine .inr ⟨_, hmem, ?_⟩
    rw [hif, cycle_simulator]
    rfl

/-- The memories the pipeline is about to have are all among `P`, and so is the one that IF
took its word from. -/
structure Sourced (P : MemoryStore → Prop) (s : LoopState) : Prop where
  current : P s.simulator.memory
  ex : P (s.retireEX accessFault).memory
  fetched : s.ifInst.status = .idle ∨
    ∃ mem, P mem ∧ s.ifInst.instruction = wordAt mem s.ifInst.PC

namespace Sourced

variable {P : MemoryStore → Prop} {s : LoopState}

/-- The memory after a cycle is the one behind EX, or in a freeze the old one. -/
theorem current_cycle (hs : Steady s) (h : Sourced P s) :
    P (RvPipeSim.cycle accessFault s).simulator.memory := by
  cases hz : s.frozen
  · rw [LoopState.memory_cycle_eq_retireEX hs hz]
    exact h.ex
  · rw [LoopState.simulator_cycle_of_frozen hz]
    exact h.current

/-- A cycle moves the memories on by one; only the one behind ID is new. -/
theorem cycle (hs : Steady s) (ho : Operands s) (h : Sourced P s) (hid : P s.retireID.memory) :
    Sourced P (RvPipeSim.cycle accessFault s) where
  current := h.current_cycle hs
  ex := by
    cases hheld : (s.frozen || s.excepted || s.stalled)
    · obtain ⟨hze, hst⟩ := Bool.or_eq_false_iff.mp hheld
      obtain ⟨hz, hexc⟩ := Bool.or_eq_false_iff.mp hze
      rw [(LoopState.retireEX_cycle_of_moving hs ho hz hexc hst).memory]
      exact hid
    · rw [(LoopState.retireEX_cycle_of_held hs hheld).memory]
      exact h.ex
  fetched := LoopState.fetchedWord_cycle (h.current_cycle hs) h.fetched

/-- Entering `runCycles` again changes no memory. -/
theorem reenter (h : Sourced P s) : Sourced P (RvPipeSim.reenter s) :=
  ⟨h.current, h.ex, h.fetched⟩

/-- The memories may be taken from more. -/
theorem mono {P' : MemoryStore → Prop} (h : Sourced P s) (hP : ∀ mem, P mem → P' mem) :
    Sourced P' s :=
  ⟨hP _ h.current, hP _ h.ex, h.fetched.imp_right fun ⟨mem, hmem, hword⟩ => ⟨mem, hP _ hmem, hword⟩⟩

end Sourced

/-! ### The refinement -/

section Refinement

variable {fuel : ℕ} {m₀ m : FunctMachine} {visited : List LoopState} {s : LoopState}
  {q : Sequencer}

/-- The memories of a functional run. -/
def MemoryOf (trace : List FunctMachine) (mem : MemoryStore) : Prop :=
  ∃ u ∈ trace, mem = u.simulator.memory

/-- Along a run that leaves its code alone, words are decoded as they are in memory. -/
theorem fetchCoherent_of_sourced (hs : Steady s) (ho : Operands s) (hsync : s.Synced)
    (hfresh : s.BranchFresh) (h : FunctMachine.runTillHalt fuel m₀ = some (.halt, m))
    (hkeeps : FunctMachine.KeepsCode (FunctMachine.trace fuel m₀))
    (hmem : q.toFunctMachine ∈ FunctMachine.trace fuel m₀)
    (hsim : s.retireID.Agrees q.simulator) (hPC : s.upcoming = (q.PC, q.fetchPC))
    (hsourced : Sourced (MemoryOf (FunctMachine.trace fuel m₀)) s) : s.FetchCoherent := by
  intro hdecodes
  obtain ⟨hqPC, -⟩ := Prod.mk.inj <|
    hPC.symm.trans (LoopState.upcoming_of_decoding hs ho hsync hfresh hdecodes)
  obtain ⟨-, ⟨u, hu, rfl⟩, hword⟩ :=
    hsourced.fetched.resolve_left (LoopState.decodes_iff.mp hdecodes).2.1
  have hwords : ∀ v ∈ FunctMachine.trace fuel m₀,
      wordAt v.simulator.memory q.PC = wordAt m₀.simulator.memory q.PC := fun v hv =>
    FunctMachine.wordAt_of_mem_trace h (fun w hw => hkeeps w hw _ hmem) hv
  rw [hword, ← hqPC, hwords u hu, hsim.memory]
  exact (hwords _ hmem).symm

/-- The invariant of a pipelined run next to a functional one. -/
structure FollowsBoth (fuel : ℕ) (m₀ m : FunctMachine) (visited : List LoopState) (s : LoopState)
    (q : Sequencer) : Prop where
  steady : Steady s
  operands : Operands s
  refines : Refines visited s q
  funct : FollowsFunct (FunctMachine.trace fuel m₀) m q
  sourced : q.halted = false → Sourced (MemoryOf (FunctMachine.trace fuel m₀)) s

namespace FollowsBoth

/-- Where the code is left alone, the words in flight are those of memory, so the run is regular.
-/
theorem regular (h : FunctMachine.runTillHalt fuel m₀ = some (.halt, m))
    (hkeeps : FunctMachine.KeepsCode (FunctMachine.trace fuel m₀))
    (hfresh : s.haltFree = true → s.BranchFresh) (hboth : FollowsBoth fuel m₀ m visited s q) :
    s.Regular := by
  intro hfree
  have hq : q.halted = false := by rw [hboth.refines.halted_eq, hfree, Bool.not_true]
  obtain ⟨hsync, hsim, hPC⟩ := hboth.refines.of_not_halted hq
  exact ⟨hfresh hfree, fetchCoherent_of_sourced hboth.steady hboth.operands hsync (hfresh hfree) h
    hkeeps (hboth.funct.of_not_halted hq) hsim hPC (hboth.sourced hq)⟩

/-- The memory behind ID is one of the functional run. -/
theorem retireID_mem (hboth : FollowsBoth fuel m₀ m visited s q) (hq : q.halted = false) :
    MemoryOf (FunctMachine.trace fuel m₀) s.retireID.memory := by
  obtain ⟨-, hsim, -⟩ := hboth.refines.of_not_halted hq
  exact ⟨_, hboth.funct.of_not_halted hq, hsim.memory⟩

/-- A state that goes on from a halted one has halted. -/
theorem halted_of_step (hq : q.step.halted = false) : q.halted = false := by
  by_contra hhalted
  rw [Bool.not_eq_false] at hhalted
  rw [Sequencer.step_of_halted hhalted, hhalted] at hq
  exact Bool.noConfusion hq

/-- **Pipeline, sequencer and functional simulator run together.** -/
theorem simulates (h : FunctMachine.runTillHalt fuel m₀ = some (.halt, m))
    (hkeeps : FunctMachine.KeepsCode (FunctMachine.trace fuel m₀))
    (hskips : SkipsNone (FunctMachine.trace fuel m₀)) :
    Simulates (cycle accessFault) reenter
      (fun s => (s.haltFree = true → s.BranchFresh) ∧ s.halts accessFault = false)
      Sequencer.step (FollowsBoth fuel m₀ m) where
  next := by
    rintro visited s q hboth ⟨hfresh, hhalt⟩
    have hregular := hboth.regular h hkeeps hfresh
    have hs := hboth.steady
    have ho := hboth.operands
    have hsourced : q.halted = false →
        Sourced (MemoryOf (FunctMachine.trace fuel m₀)) (cycle accessFault s) :=
      fun hq => (hboth.sourced hq).cycle hs ho (hboth.retireID_mem hq)
    rcases hboth.refines.cycle hs ho hregular hhalt with hstay | hstep
    · exact .inl ⟨hs.cycle, ho.cycle hs.shape, hstay, hboth.funct, hsourced⟩
    · exact .inr ⟨hs.cycle, ho.cycle hs.shape, hstep, hboth.funct.step h hskips,
        fun hq => hsourced (halted_of_step hq)⟩
  resume := by
    rintro visited s q ⟨hs, ho, hrefines, hfunct, hsourced⟩
    exact ⟨hs.reenter, ho.reenter, hrefines.reenter, hfunct, fun hq => (hsourced hq).reenter⟩

/-- At the start all three are at the first instruction. -/
theorem init {mem : MemoryStore} (iCacheConfig dCacheConfig : CacheConfig)
    (h : FunctMachine.runTillHalt fuel (.initSimulator mem) = some (.halt, m)) :
    FollowsBoth fuel (.initSimulator mem) m []
      (enter (initSimulator iCacheConfig dCacheConfig mem)) (.init mem) where
  steady := .init iCacheConfig dCacheConfig mem
  operands := .init iCacheConfig dCacheConfig mem
  refines := .init iCacheConfig dCacheConfig mem
  funct := .running rfl (FunctMachine.start_mem_trace h) rfl
  sourced _ :=
    have hmem : MemoryOf (FunctMachine.trace fuel (.initSimulator mem)) mem :=
      ⟨_, FunctMachine.start_mem_trace h, rfl⟩
    ⟨hmem, hmem, .inl rfl⟩

end FollowsBoth

end Refinement

/-- **The pipeline refines the functional simulator.** Let the functional run of a program
halt, store to no byte of a word it executes and branch to no word behind the next one. If
the pipelined run halts and all its cycles in which no HALT is in flight are fresh, it
leaves the registers of the functional run; and it leaves its memory exactly if the last
cycle carries out no store behind the HALT. -/
theorem pipeline_refines_funct {iCacheConfig dCacheConfig : CacheConfig} {mem : MemoryStore}
    {fuel fuel' : ℕ} {m : FunctMachine} {m' : Machine}
    (h : FunctMachine.runTillHalt fuel (.initSimulator mem) = some (.halt, m))
    (hkeeps : FunctMachine.KeepsCode (FunctMachine.trace fuel (.initSimulator mem)))
    (hskips : SkipsNone (FunctMachine.trace fuel (.initSimulator mem)))
    (h' : runTillHalt accessFault fuel' (initSimulator iCacheConfig dCacheConfig mem) = some m')
    (hfresh : ∀ s ∈ haltTrace accessFault fuel' (initSimulator iCacheConfig dCacheConfig mem),
      s.haltFree = true → s.BranchFresh) :
    m'.simulator.regData = m.simulator.regData ∧
      (m'.simulator.memory = m.simulator.memory ↔
        ∀ s ∈ haltTrace accessFault fuel' (initSimulator iCacheConfig dCacheConfig mem),
          s.Quiet) := by
  obtain ⟨visited, s, hrun, hhalt, rfl, htrace⟩ := run_of_runTillHalt h'
  rw [htrace] at hfresh ⊢
  have hrun' : RunFrom accessFault
      (fun t => (t.haltFree = true → t.BranchFresh) ∧ t.halts accessFault = false)
      (enter (initSimulator iCacheConfig dCacheConfig mem)) visited s :=
    hrun.restrict fun t ht =>
      ⟨hfresh t (List.mem_append_left _ ht), hrun.ok_of_mem t ht⟩
  obtain ⟨k, hboth⟩ :=
    (FollowsBoth.simulates h hkeeps hskips).of_run (.init iCacheConfig dCacheConfig h) hrun'
  obtain ⟨hq, hsim, -⟩ := hboth.refines.of_halts hboth.steady hhalt
  obtain ⟨hregs, hmem⟩ := LoopState.outcome_of_halts hboth.steady hhalt
  have hfunct : m.simulator.Agrees s.simulator := by
    cases hboth.funct with
    | running hq' => exact Bool.noConfusion (hq.symm.trans hq')
    | halted _ hsim' => exact hsim'.trans hsim.symm
  refine ⟨hregs.trans hfunct.regData.symm, ?_⟩
  rw [hfunct.memory]
  refine hmem.trans ⟨fun hquiet t ht => ?_, fun hquiet => hquiet s (by simp)⟩
  rcases List.mem_append.mp ht with ht | ht
  · intro hhalt'
    exact Bool.noConfusion ((hrun.ok_of_mem t ht).symm.trans hhalt')
  · obtain rfl := List.mem_singleton.mp ht
    exact hquiet

/-- `jal x0, +8; addi x1, x0, 1; HALT`: the functional run skips the `addi`, the pipelined one
does not. -/
theorem skipped_word_retired :
    let mem : MemoryStore := .image fun | 0 => 0x0080006f | 1 => 0x00100093 | _ => 0xfeedfeed
    let trace := FunctMachine.trace 10 (.initSimulator mem)
    (FunctMachine.runTillHalt 10 (.initSimulator mem)).map
        (fun m => (m.1, m.2.simulator.regData.registers 1)) = some (.halt, 0) ∧
      FunctMachine.KeepsCode trace ∧
      (runTillHalt accessFault 20 (initSimulator (.oneBlock 64) (.oneBlock 64) mem)).map
        (fun m => m.simulator.regData.registers 1) = some 1 := by
  decide +kernel

/-- `addi x1, x0, 5; sw x1, 256(x0); nop; beq x1, x0, +12; lw x2, 256(x0); HALT` leaves the
same registers and memory in both simulators. -/
theorem pipeline_refines_funct_store :
    let mem : MemoryStore := .image fun
      | 0 => 0x00500093 | 1 => 0x10102023 | 2 => 0x00000013 | 3 => 0x00008663
      | 4 => 0x10002103 | 5 => 0xfeedfeed | _ => 0x00000013
    ∃ m m', FunctMachine.runTillHalt 10 (.initSimulator mem) = some (.halt, m) ∧
      runTillHalt accessFault 30 (initSimulator (.oneBlock 64) (.oneBlock 64) mem) = some m' ∧
      m'.simulator.regData = m.simulator.regData ∧ m'.simulator.memory = m.simulator.memory := by
  intro mem
  obtain ⟨⟨status, m⟩, h, hstatus⟩ := Option.map_eq_some_iff.mp
    (by decide +kernel :
      (FunctMachine.runTillHalt 10 (.initSimulator mem)).map Prod.fst = some .halt)
  obtain rfl : status = .halt := hstatus
  obtain ⟨m', h'⟩ := Option.isSome_iff_exists.mp (by decide +kernel :
    (runTillHalt accessFault 30
      (initSimulator (.oneBlock 64) (.oneBlock 64) mem)).isSome = true)
  have hquiet : ∀ s ∈ haltTrace accessFault 30 (initSimulator (.oneBlock 64) (.oneBlock 64) mem),
      s.halts accessFault = true → isStore s.exInst = false := by decide +kernel
  obtain ⟨hregs, hmem⟩ :=
    pipeline_refines_funct h (by decide +kernel) (by decide +kernel) h' (by decide +kernel)
  refine ⟨m, m', h, h', hregs, hmem.mpr fun s hs hhalt hstore => ?_⟩
  exact Bool.noConfusion ((hquiet s hs hhalt).symm.trans hstore)

end RvPipeSim
