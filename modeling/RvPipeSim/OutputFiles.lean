import RvPipeSim.Cycle
import RvPipeSim.Funct
import RvPipeSim.MemoryDump
import RvPipeSim.Printing

/-!
# The output files

`finalizeSimulator` of both simulators writes three files: the statistics, the registers and a
range of the memory. `outputFiles_eq_iff` says what they show: two machines write the same files
exactly if they agree on the seven counters, on the registers `x1` to `x31` and on the memory
entries of the range. `x0` is not printed.
-/

namespace RvPipeSim

open OutputStream

/-! ### The registers -/

/-- The registers printed, in the order of `dumpRegisterState`. -/
def dumpedRegisters : List (BitVec 5) :=
  [1, 2, 3, 4, 5, 6, 7, 8, 9, 10, 11, 12, 13, 14, 15, 16, 17, 18, 19, 20, 21, 22, 23, 24, 25, 26,
    27, 28, 29, 30, 31]

/-- What stands in front of the value: a blank line in front of `t0`, `s0`, `a0`, `s2` and
`t3`, and the name. -/
def registerLabel (r : BitVec 5) : List Char :=
  (if r = 5 ∨ r = 8 ∨ r = 10 ∨ r = 18 ∨ r = 28 then ['\n'] else []) ++
    ("$".toList ++ ((regNames r).toList ++ " = 0x".toList))

/-- `dumpRegisterState`. -/
def dumpRegisterState (regData : REGS) : List Char :=
  MemoryStore.rule ++ ("Begin Register Values\n".toList ++ (MemoryStore.rule ++
    (dumpedRegisters.flatMap (fun r =>
        registerLabel r ++ (hexField 8 (regData.registers r).toNat ++ ['\n'])) ++
      (MemoryStore.rule ++ ("End Register Values\n".toList ++ MemoryStore.rule)))))

/-- All registers but `x0` are dumped. -/
theorem mem_dumpedRegisters {r : BitVec 5} : r ∈ dumpedRegisters ↔ r ≠ 0 := by
  revert r
  decide

/-- **The register file shows all registers but `x0`.** -/
theorem dumpRegisterState_eq_iff {regData regData' : REGS} :
    dumpRegisterState regData = dumpRegisterState regData' ↔
      ∀ r ≠ 0, regData.registers r = regData'.registers r := by
  constructor
  · intro h r hr
    rw [dumpRegisterState, dumpRegisterState, List.append_cancel_left_eq,
      List.append_cancel_left_eq, List.append_cancel_left_eq] at h
    have hlines := flatMap_lines_inj (fun r _ => newline_notMem_hexField 8 _)
      (fun r _ => newline_notMem_hexField 8 _) h
    exact BitVec.eq_of_toNat_eq (hexField_inj (hlines.1 r (mem_dumpedRegisters.mpr hr)))
  · intro h
    rw [dumpRegisterState, dumpRegisterState, List.flatMap_congr fun r hr => ?_]
    rw [h r (mem_dumpedRegisters.mp hr)]

/-! ### The statistics -/

/-- `SimulationStats`. -/
structure SimulationStats where
  dynamicInstructions : ℕ
  totalCycles : ℕ := 0
  icHits : ℕ := 0
  icMisses : ℕ := 0
  dcHits : ℕ := 0
  dcMisses : ℕ := 0
  loadUseStalls : ℕ := 0
  deriving DecidableEq, Repr

/-- The lines of the statistics. -/
def statLines : List (String × (SimulationStats → ℕ)) :=
  [("Dynamic instructions: ", SimulationStats.dynamicInstructions),
    ("Total cycles: ", SimulationStats.totalCycles),
    ("I-cache hits: ", SimulationStats.icHits),
    ("I-cache misses: ", SimulationStats.icMisses),
    ("D-cache hits: ", SimulationStats.dcHits),
    ("D-cache misses: ", SimulationStats.dcMisses),
    ("Load-use stalls: ", SimulationStats.loadUseStalls)]

/-- `dumpSimStats`. -/
def dumpSimStats (stats : SimulationStats) : List Char :=
  statLines.flatMap fun line =>
    OutputStream.leftAligned 23 line.1.toList ++ (decField (line.2 stats) ++ ['\n'])

/-- **The statistics show all counters.** -/
theorem dumpSimStats_inj {stats stats' : SimulationStats}
    (h : dumpSimStats stats = dumpSimStats stats') : stats = stats' := by
  rw [← List.append_nil (dumpSimStats stats), ← List.append_nil (dumpSimStats stats')] at h
  have hlines := (flatMap_lines_inj (fun _ _ => newline_notMem_decField _)
    (fun _ _ => newline_notMem_decField _) h).1
  have hfield : ∀ line ∈ statLines, line.2 stats = line.2 stats' :=
    fun line hline => decField_inj (hlines line hline)
  simp only [statLines, List.forall_mem_cons, List.not_mem_nil] at hfield
  obtain ⟨h1, h2, h3, h4, h5, h6, h7, -⟩ := hfield
  cases stats
  cases stats'
  simp_all

/-! ### All files -/

/-- The files that `finalizeSimulator` writes. -/
structure OutputFiles where
  simStats : List Char
  regState : List Char
  memState : List Char
  deriving DecidableEq

/-- `dumpSimStats` and `dumpRegMem`, for the text of `print_mem_range`. -/
def Simulator.outputFiles (sim : Simulator) (fuel : ℕ) (memRange : Option (List Char))
    (stats : SimulationStats) : Option OutputFiles :=
  (sim.memory.dumpMemoryState fuel memRange).map fun memState =>
    { simStats := dumpSimStats stats, regState := dumpRegisterState sim.regData, memState }

/-- The statistics of the pipelined simulator. -/
def Machine.stats (m : Machine) : SimulationStats where
  dynamicInstructions := m.completedCount
  totalCycles := m.cycleCount
  icHits := m.iCache.hits
  icMisses := m.iCache.misses
  dcHits := m.dCache.hits
  dcMisses := m.dCache.misses
  loadUseStalls := m.loadStallCount

/-- `finalizeSimulator` of `cycle.cpp`. -/
def finalizeSimulator (fuel : ℕ) (memRange : Option (List Char)) (m : Machine) :
    Option OutputFiles :=
  m.simulator.outputFiles fuel memRange m.stats

/-- `finalizeSimulator` of `funct.cpp`. -/
def FunctMachine.finalizeSimulator (fuel : ℕ) (memRange : Option (List Char))
    (m : FunctMachine) : Option OutputFiles :=
  m.simulator.outputFiles fuel memRange { dynamicInstructions := m.simulator.din }

/-- **The output files show the state they are written from.** -/
theorem outputFiles_eq_iff {sim sim' : Simulator} {stats stats' : SimulationStats}
    {memRange : Option (List Char)} {startAddr endAddr : BitVec 64}
    (hrange : MemoryStore.dumpRange memRange = (startAddr, endAddr))
    (hstart : sim'.memory.startAddr = sim.memory.startAddr)
    (hentries : sim'.memory.numEntries = sim.memory.numEntries)
    (hsize : sim.memory.numEntries ≤ 2 ^ 63)
    (hcovers : sim.memory.Covers 4 (startAddr - sim.memory.startAddr).toNat
      (endAddr - sim.memory.startAddr).toNat)
    {fuel : ℕ} (hfuel : sim.memory.numEntries < fuel) :
    ∃ files files', sim.outputFiles fuel memRange stats = some files ∧
      sim'.outputFiles fuel memRange stats' = some files' ∧
      (files = files' ↔ stats = stats' ∧
        (∀ r ≠ 0, sim.regData.registers r = sim'.regData.registers r) ∧
        sim.memory.SameEntries sim'.memory 4 (startAddr - sim.memory.startAddr).toNat
          (endAddr - sim.memory.startAddr).toNat) := by
  obtain ⟨memState, memState', hmem, hmem', hsame⟩ :=
    MemoryStore.dumpMemoryState_eq_iff hrange hstart hentries hsize hcovers hfuel
  rw [Simulator.outputFiles, Simulator.outputFiles, hmem, hmem']
  refine ⟨_, _, rfl, rfl, ?_⟩
  rw [OutputFiles.mk.injEq, dumpRegisterState_eq_iff, hsame]
  exact and_congr_left fun _ => ⟨dumpSimStats_inj, fun h => h ▸ rfl⟩

/-- Two memories that differ in the word at 12, dumped from 0 to 500. -/
theorem outputFiles_eq_iff_image :
    let sim : Simulator := { regData := ⟨fun _ => 0⟩, memory := .image fun _ => 0, din := 3 }
    let sim' : Simulator :=
      { regData := ⟨fun r => if r = 0 then 7 else 0⟩
        memory := .image fun | 3 => 1 | _ => 0
        din := 3 }
    let memRange := some "0 1f4\n".toList
    ∃ files files', sim.outputFiles 70000 memRange { dynamicInstructions := 3 } = some files ∧
      sim'.outputFiles 70000 memRange { dynamicInstructions := 3 } = some files' ∧
      (files = files' ↔
        ({ dynamicInstructions := 3 } : SimulationStats) = { dynamicInstructions := 3 } ∧
        (∀ r ≠ 0, sim.regData.registers r = sim'.regData.registers r) ∧
        sim.memory.SameEntries sim'.memory 4 0 500) := by
  intro sim sim' memRange
  have hend : InputStream.StartsBlank ['\n'] := by
    intro c hc
    obtain rfl := Option.some.inj hc
    decide
  have hrange : MemoryStore.dumpRange memRange = (0, 0x1f4) :=
    @MemoryStore.dumpRange_numerals [] ['0'] [' '] ['1', 'f', '4'] ['\n'] 0 0x1f4 (by decide)
      (InputStream.numeral_toDigits 0) (by decide) (by decide)
      (InputStream.numeral_toDigits 0x1f4) hend
  have hstart : ((0 : BitVec 64) - sim.memory.startAddr).toNat = 0 := by decide
  have hstop : ((0x1f4 : BitVec 64) - sim.memory.startAddr).toNat = 500 := by decide
  have hcovers : sim.memory.Covers 4 ((0 : BitVec 64) - sim.memory.startAddr).toNat
      ((0x1f4 : BitVec 64) - sim.memory.startAddr).toNat := by
    rw [hstart, hstop]
    intro k hk
    have hle : 0 + k * 4 + 4 ≤ 0x10000 := by omega
    exact hle
  have hsame := @outputFiles_eq_iff sim sim' { dynamicInstructions := 3 }
    { dynamicInstructions := 3 } memRange 0 0x1f4 hrange rfl rfl (by decide) hcovers 70000
    (by decide)
  rw [hstart, hstop] at hsame
  exact hsame

end RvPipeSim
