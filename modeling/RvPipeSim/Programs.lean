import RvPipeSim.CacheArguments
import RvPipeSim.Contract
import RvPipeSim.InitialImage
import RvPipeSim.Loading
import RvPipeSim.PipeTrace

/-!
# The two programs

`mainFunct` and `mainCycle` are the main functions of `sim_funct.cpp` and `sim_cycle.cpp`, from
the files that they read to the ones that they write.

`programs_agree` puts the development together for them: on a program that keeps its distances
(`WellSpaced`), and under all cache configurations with a set, both end with HALT and write the
same register file and the same memory file.
-/

namespace RvPipeSim

open InputStream

/-! ### Main functions -/

/-- The files that both programs read, `none` for those that cannot be opened. -/
structure ProgramFiles where
  binary : Option (List (BitVec 8))
  initMemImage : Option (List Char)
  printMemRange : Option (List Char)

/-- `new MemoryStore(0, MEMORY_SIZE, fileName)`, `none` if the assertion of the constructor
fails or the loading throws. What `loadFromFile` returns is ignored. -/
def loadMemory (files : ProgramFiles) : Option MemoryStore :=
  let prepared := MemoryStore.prepareMemory files.initMemImage (.zeroed 0 memorySize)
  if prepared.1 = 0 then (prepared.2.loadFromFile files.binary).map Prod.snd else none

/-- `getBaseFilename`: the path up to its last dot. -/
def getBaseFilename (inputPath : String) : List Char :=
  let path := inputPath.toList
  if '.' ∈ path then (path.reverse.dropWhile (· != '.')).tail.reverse else path

/-- How a program ends: with a message and the status ERROR, or with the status of the run, the
base name of the files it has written and their contents. -/
inductive ProgramEnd
  | failed (message : String)
  | finished (status : Status) (baseName : List Char) (files : OutputFiles)
      (pipeState : List Char)

/-- `main` of `sim_funct.cpp`, `none` if it is not through after `fuel` rounds of a loop or is
aborted. -/
def mainFunct (fuel : ℕ) (argv : List String) (files : ProgramFiles) : Option ProgramEnd :=
  if argv.length < 2 then some (.failed ("Usage: " ++ argv.getD 0 "" ++ " <input_file>"))
  else do
    let mem ← loadMemory files
    let (status, m) ← FunctMachine.runTillHalt fuel (.initSimulator mem)
    let output ← m.finalizeSimulator fuel files.printMemRange
    return .finished status (getBaseFilename (argv.getD 1 "") ++ "_funct".toList) output []

/-- `main` of `sim_cycle.cpp`, `none` if it is not through after `fuel` rounds of a loop or is
aborted. -/
def mainCycle (fuel : ℕ) (argv : List String) (cacheFile : Option (List Char))
    (files : ProgramFiles) : Option ProgramEnd :=
  match parseArgs argv cacheFile with
  | .error error => some (.failed (error.message argv))
  | .ok (inputFile, icConfig, dcConfig) => do
      let mem ← loadMemory files
      let (states, m) ← runTillHaltTraced accessFault fuel (initSimulator icConfig dcConfig mem)
      let output ← finalizeSimulator fuel files.printMemRange m
      return .finished .halt (getBaseFilename inputFile ++ "_cycle".toList) output
        (pipeFile states)

/-! ### Enough fuel -/

/-- More fuel does not change a run that halts. -/
theorem runTillHalt_mono {fault : Fault} {fuel fuel' : ℕ} {m m' : Machine} (hle : fuel ≤ fuel')
    (h : runTillHalt fault fuel m = some m') : runTillHalt fault fuel' m = some m' := by
  induction fuel generalizing fuel' m with
  | zero => exact absurd h (Option.some_ne_none m').symm
  | succ fuel ih =>
      cases fuel' with
      | zero => exact absurd hle (Nat.not_succ_le_zero fuel)
      | succ fuel' =>
          rw [runTillHalt, runCycles_one] at h ⊢
          cases hhalts : (enter m).halts fault with
          | true =>
              rw [hhalts] at h
              exact h
          | false =>
              rw [hhalts] at h
              exact ih (Nat.le_of_succ_le_succ hle) h

/-- More fuel does not change a functional run that ends. -/
theorem functRunTillHalt_mono {fuel fuel' : ℕ} {m : FunctMachine} {result : Status × FunctMachine}
    (hle : fuel ≤ fuel') (h : FunctMachine.runTillHalt fuel m = some result) :
    FunctMachine.runTillHalt fuel' m = some result := by
  induction fuel generalizing fuel' m with
  | zero => exact absurd h (Option.some_ne_none result).symm
  | succ fuel ih =>
      cases fuel' with
      | zero => exact absurd hle (Nat.not_succ_le_zero fuel)
      | succ fuel' =>
          rw [FunctMachine.runTillHalt, FunctMachine.runInstructions_one] at h ⊢
          cases hhalt : m.executed.isHalt with
          | true =>
              rw [hhalt] at h
              exact h
          | false =>
          cases hlegal : m.executed.isLegal with
          | false =>
              rw [hhalt, hlegal] at h
              exact h
          | true =>
              rw [hhalt, hlegal] at h
              exact ih (Nat.le_of_succ_le_succ hle) h

/-! ### The size of the memory -/

/-- The single step keeps the size of the memory. -/
theorem numEntries_simInstruction (sim : Simulator) (PC : BitVec 64) :
    (sim.simInstruction PC).2.memory.numEntries = sim.memory.numEntries := by
  cases hhalt : (decodeOf (wordAt sim.memory PC)).isHalt with
  | true => rw [simInstruction_of_stop (.inl hhalt)]
  | false =>
  cases hlegal : (decodeOf (wordAt sim.memory PC)).isLegal with
  | false => rw [simInstruction_of_stop (.inr hlegal)]
  | true =>
      rw [simInstruction_memory hlegal hhalt]
      split
      · exact (MemoryStore.setMemValue_byteAt _ _ _ _).2.1
      · rfl

/-- A functional run keeps the size of the memory. -/
theorem numEntries_runTillHalt {fuel : ℕ} {m m' : FunctMachine} {status : Status}
    (h : FunctMachine.runTillHalt fuel m = some (status, m')) :
    m'.simulator.memory.numEntries = m.simulator.memory.numEntries := by
  induction fuel generalizing m with
  | zero => exact absurd h (Option.some_ne_none _).symm
  | succ fuel ih =>
      have hadvance : m.advance.simulator.memory.numEntries = m.simulator.memory.numEntries :=
        numEntries_simInstruction m.simulator m.PC
      rw [FunctMachine.runTillHalt, FunctMachine.runInstructions_one] at h
      cases hhalt : m.executed.isHalt with
      | true =>
          rw [hhalt] at h
          obtain ⟨-, rfl⟩ := Prod.mk.inj (Option.some.inj h)
          exact hadvance
      | false =>
      cases hlegal : m.executed.isLegal with
      | false =>
          rw [hhalt, hlegal] at h
          obtain ⟨-, rfl⟩ := Prod.mk.inj (Option.some.inj h)
          exact hadvance
      | true =>
          rw [hhalt, hlegal] at h
          exact (ih h).trans hadvance

/-- Reading the initial image keeps the size of the memory. -/
theorem numEntries_prepareLoop (initMem : IStream) (mem : MemoryStore) :
    (MemoryStore.prepareLoop initMem mem).2.numEntries = mem.numEntries := by
  induction initMem, mem using MemoryStore.prepareLoop.induct with
  | case1 initMem mem hfail =>
      rw [MemoryStore.prepareLoop, if_pos hfail]
  | case2 initMem mem hfail addr curVal stored hstored =>
      rw [MemoryStore.prepareLoop, if_neg hfail]
      dsimp only
      rw [if_pos hstored]
      exact (MemoryStore.setMemValue_byteAt _ _ _ _).2.1
  | case3 initMem mem hfail addr curVal stored hstored ih =>
      rw [MemoryStore.prepareLoop, if_neg hfail]
      dsimp only
      rw [if_neg hstored]
      exact ih.trans (MemoryStore.setMemValue_byteAt _ _ _ _).2.1

/-- Loading the program keeps the size of the memory. -/
theorem numEntries_loadLoop (buf : List (BitVec 8)) (i : ℕ) (mem : MemoryStore) :
    (MemoryStore.loadLoop buf i mem).numEntries = mem.numEntries := by
  induction buf generalizing i mem with
  | nil => rfl
  | cons byte buf ih =>
      rw [MemoryStore.loadLoop, ih]
      exact (MemoryStore.setMemValue_byteAt _ _ _ _).2.1

/-- Whatever the files, a memory that is loaded has 64 KB. -/
theorem numEntries_loadMemory {files : ProgramFiles} {mem : MemoryStore}
    (h : loadMemory files = some mem) : mem.numEntries = memorySize := by
  rw [loadMemory] at h
  split at h
  · obtain ⟨⟨status, mem'⟩, hload, rfl⟩ := Option.map_eq_some_iff.mp h
    have hprepared : (MemoryStore.prepareMemory files.initMemImage
        (.zeroed 0 memorySize)).2.numEntries = memorySize :=
      numEntries_prepareLoop _ _
    cases hfile : files.binary with
    | none =>
        rw [hfile] at hload
        obtain ⟨-, rfl⟩ := Prod.mk.inj (Option.some.inj hload)
        exact hprepared
    | some content =>
        rw [hfile, MemoryStore.loadFromFile] at hload
        split at hload
        · exact absurd hload (Option.some_ne_none _).symm
        · obtain ⟨-, rfl⟩ := Prod.mk.inj (Option.some.inj hload)
          exact (numEntries_loadLoop _ _ _).trans hprepared
  · exact absurd h (Option.some_ne_none mem).symm

/-- A memory of 64 KB is dumped, whatever the range. -/
theorem dumpMemoryState_of_numEntries {mem : MemoryStore} (hsize : mem.numEntries = memorySize)
    {fuel : ℕ} (hfuel : memorySize < fuel) (memRange : Option (List Char)) :
    ∃ memState, mem.dumpMemoryState fuel memRange = some memState := by
  obtain ⟨rows, code, hrows, -⟩ := MemoryStore.printMemArray_spec (hsize ▸ by decide)
    (.inr (.inr (.inl rfl))) (Nat.succ_pos 4) (MemoryStore.dumpRange memRange).1
    (MemoryStore.dumpRange memRange).2 (hsize ▸ hfuel)
  rw [MemoryStore.dumpMemoryState, hrows]
  exact ⟨_, rfl⟩

/-- The files written once the memory is dumped. -/
theorem outputFiles_of_dump {sim : Simulator} {fuel : ℕ} {memRange : Option (List Char)}
    {memState : List Char} (h : sim.memory.dumpMemoryState fuel memRange = some memState)
    (stats : SimulationStats) :
    ∃ output, sim.outputFiles fuel memRange stats = some output ∧
      output.regState = dumpRegisterState sim.regData ∧ output.memState = memState := by
  rw [Simulator.outputFiles, h]
  exact ⟨_, rfl, rfl, rfl⟩

/-- Arguments that are accepted are three, and the second is the binary. -/
theorem argv_of_parseArgs {argv : List String} {cacheFile : Option (List Char)}
    {inputFile : String} {configs : CacheConfig × CacheConfig}
    (h : parseArgs argv cacheFile = .ok (inputFile, configs)) :
    argv.length = 3 ∧ argv.getD 1 "" = inputFile := by
  by_cases hlength : argv.length = 3
  · refine ⟨hlength, ?_⟩
    cases cacheFile with
    | none =>
        rw [parseArgs, if_neg (not_not.mpr hlength)] at h
        cases h
    | some text =>
        rw [parseArgs, if_neg (not_not.mpr hlength)] at h
        split at h
        · cases h
        · exact (Prod.mk.inj (Except.ok.inj h)).1
  · cases cacheFile <;>
    · rw [parseArgs, if_pos hlength] at h
      cases h

/-- The numbers that are read have 32 bits, so no cache has more sets than its index can
select. -/
theorem numSets_of_parseArgs {argv : List String} {cacheFile : Option (List Char)}
    {inputFile : String} {icConfig dcConfig : CacheConfig}
    (h : parseArgs argv cacheFile = .ok (inputFile, icConfig, dcConfig)) :
    icConfig.numSets < 2 ^ 32 ∧ dcConfig.numSets < 2 ^ 32 := by
  have hargc := (argv_of_parseArgs h).1
  cases cacheFile with
  | none =>
      rw [parseArgs, if_neg (not_not.mpr hargc)] at h
      cases h
  | some text =>
      rw [parseArgs, if_neg (not_not.mpr hargc)] at h
      split at h
      · cases h
      · obtain ⟨rfl, rfl⟩ := Prod.mk.inj (Prod.mk.inj (Except.ok.inj h)).2
        exact ⟨CacheConfig.numSets_lt .., CacheConfig.numSets_lt ..⟩

/-! ### The two programs -/

/-- **The two programs agree.** Let the functional run of a program halt and keep its distances.
Then, for every text from which cache configurations with a set are read, both main functions
end with HALT, given enough rounds, no cache access is out of bounds, and the register file and
the memory file that they write are the same. -/
theorem programs_agree {files : ProgramFiles} {mem : MemoryStore}
    (hmem : loadMemory files = some mem) {argv : List String} {cacheFile : Option (List Char)}
    {inputFile : String} {icConfig dcConfig : CacheConfig}
    (hargs : parseArgs argv cacheFile = .ok (inputFile, icConfig, dcConfig))
    (hi : 1 ≤ icConfig.numSets) (hd : 1 ≤ dcConfig.numSets) {fuel : ℕ} {m : FunctMachine}
    (h : FunctMachine.runTillHalt fuel (.initSimulator mem) = some (.halt, m))
    (hspaced : WellSpaced (FunctMachine.trace fuel (.initSimulator mem))) {fuel' : ℕ}
    (hfunct : fuel ≤ fuel') (hsize : memorySize < fuel')
    (hcycle : ((FunctMachine.trace fuel (.initSimulator mem)).length + 3) *
      (LoopState.progressBound icConfig dcConfig + 1) ≤ fuel') :
    (∃ output output' pipeState,
      mainFunct fuel' argv files =
        some (.finished .halt (getBaseFilename inputFile ++ "_funct".toList) output []) ∧
      mainCycle fuel' argv cacheFile files =
        some (.finished .halt (getBaseFilename inputFile ++ "_cycle".toList) output' pipeState) ∧
      output'.regState = output.regState ∧ output'.memState = output.memState) ∧
      ∀ s ∈ haltTrace accessFault fuel' (initSimulator icConfig dcConfig mem), s.CachesSafe := by
  obtain ⟨m', h'⟩ := Guarded.halts icConfig dcConfig h hspaced
  have hsame := Guarded.outcome h hspaced h'
  have hentries : m.simulator.memory.numEntries = memorySize :=
    (numEntries_runTillHalt h).trans (numEntries_loadMemory hmem)
  obtain ⟨memState, hdump⟩ :=
    dumpMemoryState_of_numEntries hentries hsize files.printMemRange
  have hdump' : m'.simulator.memory.dumpMemoryState fuel' files.printMemRange = some memState := by
    rw [hsame.memory]
    exact hdump
  obtain ⟨output, houtput, hregs, hmemory⟩ :=
    outputFiles_of_dump hdump { dynamicInstructions := m.simulator.din }
  obtain ⟨output', houtput', hregs', hmemory'⟩ := outputFiles_of_dump hdump' m'.stats
  have hhalts := runTillHalt_mono hcycle h'
  obtain ⟨⟨states, m''⟩, htraced, hsnd⟩ := Option.map_eq_some_iff.mp
    ((runTillHaltTraced_snd fuel' _).trans hhalts)
  obtain rfl : m'' = m' := hsnd
  obtain ⟨hargc, hinput⟩ := argv_of_parseArgs hargs
  obtain ⟨hi', hd'⟩ := numSets_of_parseArgs hargs
  refine ⟨⟨output, output', pipeFile states, ?_, ?_, ?_, hmemory'.trans hmemory.symm⟩,
    cachesSafe_of_runTillHalt hi hi' hd hd' hhalts⟩
  · rw [mainFunct, if_neg (by omega), hmem, hinput]
    simp only [Option.bind_eq_bind, Option.bind_some, functRunTillHalt_mono hfunct h,
      FunctMachine.finalizeSimulator, houtput]
    rfl
  · rw [mainCycle, hargs]
    simp only [hmem, Option.bind_eq_bind, Option.bind_some, htraced, finalizeSimulator, houtput']
    rfl
  · rw [hregs', hregs, hsame.regData]

/-- `addi x1, x0, 5; sw x1, 256(x0); HALT` -/
def storeBinary : List (BitVec 8) :=
  [0x93, 0x00, 0x50, 0x00, 0x23, 0x20, 0x10, 0x10, 0xed, 0xfe, 0xed, 0xfe]

/-- A program that stores, on caches of eight sets and of one. -/
theorem programs_agree_store :
    let files : ProgramFiles := ⟨some storeBinary, none, none⟩
    let argv := ["sim_cycle", "store.bin", "cache_config.txt"]
    ∃ output output' pipeState,
      mainFunct 70000 argv files =
        some (.finished .halt (getBaseFilename "store.bin" ++ "_funct".toList) output []) ∧
      mainCycle 70000 argv (some (numberLines [32, 4, 1, 2, 64, 64, 1, 3])) files =
        some (.finished .halt (getBaseFilename "store.bin" ++ "_cycle".toList) output'
          pipeState) ∧
      output'.regState = output.regState ∧ output'.memState = output.memState := by
  intro files argv
  have hmem : loadMemory files =
      some (MemoryStore.loadLoop storeBinary 0 (.zeroed 0 memorySize)) := by
    rw [loadMemory, MemoryStore.prepareMemory_none, if_pos rfl, MemoryStore.loadFromFile,
      if_neg (by decide), Option.map_some, List.take_of_length_le (by decide)]
  have hargs : parseArgs argv (some (numberLines [32, 4, 1, 2, 64, 64, 1, 3])) =
      .ok ("store.bin", ⟨32, 4, 1, 2⟩, ⟨64, 64, 1, 3⟩) := by
    decide +kernel
  obtain ⟨⟨status, m⟩, h, hstatus⟩ := Option.map_eq_some_iff.mp
    (by decide +kernel :
      (FunctMachine.runTillHalt 10 (.initSimulator (MemoryStore.loadLoop storeBinary 0
        (.zeroed 0 memorySize)))).map Prod.fst = some .halt)
  obtain rfl : status = .halt := hstatus
  exact (programs_agree hmem hargs (by decide) (by decide) h
    ⟨by decide +kernel, by decide +kernel, by decide +kernel, by decide +kernel⟩
    (by decide) (by decide) (by decide +kernel)).1

end RvPipeSim
