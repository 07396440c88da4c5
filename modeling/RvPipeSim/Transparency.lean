import RvPipeSim.Refinement

/-!
# Caches are transparent

Two runs of one program under different caches are both explained by the one run of the
sequencer, which knows no caches. So once both have halted they have retired the same
instructions and left the same registers and memory: `caches_transparent`, for runs of
regular cycles that end quietly.

Programs that overwrite an instruction shortly before it runs are not of that kind. The
simulator fetches a word when there is room in IF, and a miss decides whether that is
before or after the store (`overwritten_ahead`).
-/

namespace RvPipeSim

open Simulator ObservedRun

/-- A cycle that follows the program order, and ends the run without a trace of what is
behind the HALT. -/
structure LoopState.Faithful (s : LoopState) : Prop where
  regular : s.Regular
  quiet : s.Quiet

/-- A regular cycle is faithful if no store is in EX when the run ends. -/
theorem LoopState.faithful_of_no_store {s : LoopState} (hregular : s.Regular)
    (hstore : s.halts accessFault = true → isStore s.exInst = false) : s.Faithful where
  regular := hregular
  quiet hhalt hstore' := Bool.noConfusion ((hstore hhalt).symm.trans hstore')

/-- Regular cycles that do not halt follow the sequencer. -/
theorem simulates_sequencer :
    Simulates (cycle accessFault) reenter (fun s => s.Regular ∧ s.halts accessFault = false)
      Sequencer.step
      (fun visited s q => (Steady s ∧ Operands s) ∧ Refines visited s q) where
  next := by
    rintro visited s q ⟨⟨hs, ho⟩, hrefines⟩ ⟨hregular, hhalt⟩
    exact (hrefines.cycle hs ho hregular hhalt).imp (⟨⟨hs.cycle, ho.cycle hs.shape⟩, ·⟩)
      (⟨⟨hs.cycle, ho.cycle hs.shape⟩, ·⟩)
  resume := by
    rintro visited s q ⟨⟨hs, ho⟩, hrefines⟩
    exact ⟨⟨hs.reenter, ho.reenter⟩, hrefines.reenter⟩

/-- What a halting run of faithful cycles leaves behind is the sequencer's outcome. -/
theorem outcome_of_runTillHalt {iCacheConfig dCacheConfig : CacheConfig} {mem : MemoryStore}
    {fuel : ℕ} {m : Machine}
    (h : runTillHalt accessFault fuel (initSimulator iCacheConfig dCacheConfig mem) = some m)
    (hfaithful : ∀ s ∈ haltTrace accessFault fuel (initSimulator iCacheConfig dCacheConfig mem),
      s.Faithful) :
    ∃ k, (Sequencer.step^[k] (.init mem)).halted = true ∧
      retiredPCs (haltTrace accessFault fuel (initSimulator iCacheConfig dCacheConfig mem)) =
        (Sequencer.step^[k] (.init mem)).trace ∧
      m.simulator.Agrees (Sequencer.step^[k] (.init mem)).simulator := by
  obtain ⟨visited, s, hrun, hhalt, rfl, htrace⟩ := run_of_runTillHalt h
  rw [htrace] at hfaithful ⊢
  have hregular : RunFrom accessFault (fun t => t.Regular ∧ t.halts accessFault = false)
      (enter (initSimulator iCacheConfig dCacheConfig mem)) visited s :=
    hrun.restrict fun t ht =>
      ⟨(hfaithful t (List.mem_append_left _ ht)).regular, hrun.ok_of_mem t ht⟩
  obtain ⟨k, ⟨hs, -⟩, hrefines⟩ := simulates_sequencer.of_run
    ⟨⟨.init iCacheConfig dCacheConfig mem, .init iCacheConfig dCacheConfig mem⟩,
      .init iCacheConfig dCacheConfig mem⟩ hregular
  obtain ⟨hk, hsim, hretired⟩ := hrefines.of_halts hs hhalt
  obtain ⟨hregs, hmem⟩ := LoopState.outcome_of_halts hs hhalt
  have hquiet := (hfaithful s (List.mem_append_right _ (List.mem_singleton.mpr rfl))).quiet
  exact ⟨k, hk, hretired, hregs.trans hsim.regData, (hmem.mpr hquiet).trans hsim.memory⟩

/-- **Caches are architecturally transparent.** If the runs of a program under two pairs of
cache configurations halt, and all their cycles are faithful, they have retired the same
instructions in the same order and leave the same registers and memory. -/
theorem caches_transparent {iCacheConfig₁ dCacheConfig₁ iCacheConfig₂ dCacheConfig₂ : CacheConfig}
    {mem : MemoryStore} {fuel₁ fuel₂ : ℕ} {m₁ m₂ : Machine}
    (h₁ : runTillHalt accessFault fuel₁ (initSimulator iCacheConfig₁ dCacheConfig₁ mem) = some m₁)
    (h₂ : runTillHalt accessFault fuel₂ (initSimulator iCacheConfig₂ dCacheConfig₂ mem) = some m₂)
    (hfaithful₁ : ∀ s ∈ haltTrace accessFault fuel₁
      (initSimulator iCacheConfig₁ dCacheConfig₁ mem), s.Faithful)
    (hfaithful₂ : ∀ s ∈ haltTrace accessFault fuel₂
      (initSimulator iCacheConfig₂ dCacheConfig₂ mem), s.Faithful) :
    retiredPCs (haltTrace accessFault fuel₁ (initSimulator iCacheConfig₁ dCacheConfig₁ mem)) =
        retiredPCs (haltTrace accessFault fuel₂
          (initSimulator iCacheConfig₂ dCacheConfig₂ mem)) ∧
      m₁.simulator.regData = m₂.simulator.regData ∧
      m₁.simulator.memory = m₂.simulator.memory := by
  obtain ⟨k, hk, hretired₁, hsim₁⟩ := outcome_of_runTillHalt h₁ hfaithful₁
  obtain ⟨l, hl, hretired₂, hsim₂⟩ := outcome_of_runTillHalt h₂ hfaithful₂
  have hsame : Sequencer.step^[k] (.init mem) = Sequencer.step^[l] (.init mem) :=
    settled_unique (Sequencer.step_of_halted hk) (Sequencer.step_of_halted hl)
  rw [← hsame] at hretired₂ hsim₂
  exact ⟨hretired₁.trans hretired₂.symm, hsim₁.regData.trans hsim₂.regData.symm,
    hsim₁.memory.trans hsim₂.memory.symm⟩

/-- `lw x1, 64(x0); sw x1, 12(x0); nop; addi x3, x0, 1; HALT` with `addi x3, x0, 2` at 64:
the store overwrites the `addi` at 12. With a slow I-cache the word is fetched behind the
store, with a fast one ahead of it. -/
theorem overwritten_ahead :
    let mem : MemoryStore := .image fun
      | 0 => 0x04002083 | 1 => 0x00102623 | 2 => 0x00000013 | 3 => 0x00100193 | 4 => 0xfeedfeed
      | 16 => 0x00200193 | _ => 0x00000013
    let slow : CacheConfig := { cacheSize := 4, blockSize := 4, ways := 1, missLatency := 2 }
    (runTillHalt accessFault 30 (initSimulator (.oneBlock 64) (.oneBlock 64) mem)).map
        (fun m => m.simulator.regData.registers 3) = some 1 ∧
      (runTillHalt accessFault 30 (initSimulator slow (.oneBlock 64) mem)).map
        (fun m => m.simulator.regData.registers 3) = some 2 := by
  decide +kernel

/-- `addi x1, x0, 5; sw x1, 256(x0); lw x2, 256(x0); HALT` under a fast and a slow I-cache. -/
theorem caches_transparent_store :
    let mem : MemoryStore := .image fun
      | 0 => 0x00500093 | 1 => 0x10102023 | 2 => 0x10002103 | 3 => 0xfeedfeed | _ => 0x00000013
    let slow : CacheConfig := { cacheSize := 4, blockSize := 4, ways := 1, missLatency := 2 }
    let fast₀ := initSimulator (.oneBlock 64) (.oneBlock 64) mem
    let slow₀ := initSimulator slow (.oneBlock 64) mem
    ∃ m₁ m₂, runTillHalt accessFault 30 fast₀ = some m₁ ∧
      runTillHalt accessFault 30 slow₀ = some m₂ ∧
      retiredPCs (haltTrace accessFault 30 fast₀) = retiredPCs (haltTrace accessFault 30 slow₀) ∧
      m₁.simulator.regData = m₂.simulator.regData ∧
      m₁.simulator.memory = m₂.simulator.memory := by
  intro mem slow fast₀ slow₀
  obtain ⟨m₁, h₁⟩ := Option.isSome_iff_exists.mp
    (by decide +kernel : (runTillHalt accessFault 30 fast₀).isSome = true)
  obtain ⟨m₂, h₂⟩ := Option.isSome_iff_exists.mp
    (by decide +kernel : (runTillHalt accessFault 30 slow₀).isSome = true)
  have hfast : ∀ s ∈ haltTrace accessFault 30 fast₀,
      s.Regular ∧ (s.halts accessFault = true → isStore s.exInst = false) := by decide +kernel
  have hslow : ∀ s ∈ haltTrace accessFault 30 slow₀,
      s.Regular ∧ (s.halts accessFault = true → isStore s.exInst = false) := by decide +kernel
  exact ⟨m₁, m₂, h₁, h₂, caches_transparent h₁ h₂
    (fun s hs => LoopState.faithful_of_no_store (hfast s hs).1 (hfast s hs).2)
    (fun s hs => LoopState.faithful_of_no_store (hslow s hs).1 (hslow s hs).2)⟩

end RvPipeSim
