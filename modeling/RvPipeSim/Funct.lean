import RvPipeSim.Simulator

/-!
# The functional simulator

`funct.cpp`: the file-level state is a `FunctMachine`, a simulator and a PC, and each
instruction runs in a single step by `simInstruction`.
-/

namespace RvPipeSim

/-- The file-level state of `funct.cpp`. -/
structure FunctMachine where
  simulator : Simulator
  PC : BitVec 64 := 0

namespace FunctMachine

/-- `initSimulator` of `funct.cpp` on a memory. -/
def initSimulator (mem : MemoryStore) : FunctMachine where
  simulator := { regData := ⟨fun _ => 0⟩, memory := mem, din := 0 }

/-- The instruction at the PC, executed. -/
def executed (m : FunctMachine) : Instruction := (m.simulator.simInstruction m.PC).1

/-- One iteration of the loop of `runInstructions`, without its status. -/
def advance (m : FunctMachine) : FunctMachine where
  simulator := (m.simulator.simInstruction m.PC).2
  PC := m.executed.nextPC

/-- `runInstructions(instructions)` for `instructions > 0`. -/
def runInstructions : ℕ → FunctMachine → Status × FunctMachine
  | 0, m => (.success, m)
  | instructions + 1, m =>
      if m.executed.isHalt then (.halt, m.advance)
      else if !m.executed.isLegal then (.error, m.advance)
      else runInstructions instructions m.advance

/-- `runTillHalt` of `funct.cpp`: repeat `runInstructions(1)` until it returns HALT or
ERROR, at most `fuel` times. -/
def runTillHalt : ℕ → FunctMachine → Option (Status × FunctMachine)
  | 0, _ => none
  | fuel + 1, m =>
      match runInstructions 1 m with
      | (.success, m) => runTillHalt fuel m
      | (status, m) => some (status, m)

/-- The states from which `runTillHalt` executes an instruction. -/
def trace : ℕ → FunctMachine → List FunctMachine
  | 0, _ => []
  | fuel + 1, m =>
      m ::
        match runInstructions 1 m with
        | (.success, m) => trace fuel m
        | _ => []

/-- The instruction at the PC stores to the byte at `address`. -/
def StoresTo (m : FunctMachine) (address : BitVec 64) : Prop :=
  m.executed.writesMem = true ∧
    ∃ i < (accessSize m.executed).bytes, m.executed.memAddress + BitVec.ofNat 64 i = address

instance (m : FunctMachine) (address : BitVec 64) : Decidable (m.StoresTo address) :=
  inferInstanceAs (Decidable (_ = true ∧ ∃ i < _, _ = _))

/-- No instruction of the run stores to a byte of a word that the run executes. -/
def KeepsCode (visited : List FunctMachine) : Prop :=
  ∀ m ∈ visited, ∀ m' ∈ visited, ∀ j < 4, ¬ m.StoresTo (m'.PC + BitVec.ofNat 64 j)

instance (visited : List FunctMachine) : Decidable (KeepsCode visited) :=
  inferInstanceAs (Decidable (∀ m ∈ visited, ∀ m' ∈ visited, ∀ j < 4, ¬ _))

end FunctMachine

end RvPipeSim
