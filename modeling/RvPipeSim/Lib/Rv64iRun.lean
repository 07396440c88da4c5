import RvPipeSim.Lib.Apart
import RvPipeSim.Lib.Rv64i

/-!
# Runs of an RV64I hart

`Halts accessible halt s path t`: the hart goes from `s` to `t`, where it finds the word
`halt`, which stands for no instruction; `path` lists the states on the way with the
instruction executed in each. Fetches, loads and stores all lie in `accessible` memory.

What `x0` holds cannot be seen: `State.Agree` is agreement up to it, and `step` keeps it.

The second half says when the instructions of a run keep their distance (`WellSpaced`): a
condition on programs for machines that fetch and branch early, with the dependencies
`Feeds`, from a register write to a branch or jump, and `Overwrites`, from a store to an
instruction.
-/

namespace Rv64i

/-! ### Agreement up to `x0` -/

/-- The states agree on the memory, the PC and all registers but `x0`. -/
structure State.Agree (s t : State) : Prop where
  regs : ∀ r ≠ 0, s.regs r = t.regs r
  mem : s.mem = t.mem
  pc : s.pc = t.pc

section Agree

variable {s t : State}

/-- `x0` reads as zero on both sides, so all registers read alike. -/
theorem State.Agree.x (h : s.Agree t) : s.x = t.x := by
  funext r
  rw [State.x, State.x]
  split
  · rfl
  · rename_i hr
    exact h.regs r hr

/-- Agreeing states access the same bytes. -/
theorem State.Agree.access (h : s.Agree t) (i : Instr) : access s i = access t i := by
  have hx := h.x
  cases i <;> simp only [Rv64i.access, State.effective, hx]

/-- Agreeing states compute the same result. -/
theorem State.Agree.result (h : s.Agree t) (i : Instr) : result s i = result t i := by
  have hx := h.x
  cases i <;> simp only [Rv64i.result, State.effective, hx, h.mem, h.pc]

/-- **A step keeps agreement up to `x0`.** -/
theorem State.Agree.step (h : s.Agree t) (i : Instr) : (step s i).Agree (step t i) := by
  have hx := h.x
  refine ⟨fun r hr => ?_, ?_, ?_⟩
  · rw [Rv64i.step, Rv64i.step, h.result i]
    cases Rv64i.result t i with
    | none => exact h.regs r hr
    | some write =>
        obtain ⟨rd, value⟩ := write
        dsimp only [State.setX]
        split
        · exact h.regs r hr
        · rw [Function.update_apply, Function.update_apply, h.regs r hr]
  · cases i <;> simp only [Rv64i.step, memory, State.effective, hx, h.mem]
  · cases i <;> simp only [Rv64i.step, nextPC, hx, h.pc]

end Agree

/-! ### Runs -/

/-- The word at the PC is the instruction `i`, and its access is to accessible memory. -/
structure Fetches (accessible : BitVec 64 → ℕ → Prop) (s : State) (i : Instr) : Prop where
  fetch : accessible s.pc 4
  word : loadBytes s.mem s.pc 4 = (encode i).setWidth 64
  access : ∀ address n, Rv64i.access s i = some (address, n) → accessible address n

/-- A run up to the word `halt`. -/
inductive Halts (accessible : BitVec 64 → ℕ → Prop) (halt : BitVec 32) :
    State → List (State × Option Instr) → State → Prop
  | halt {s : State} : accessible s.pc 4 → loadBytes s.mem s.pc 4 = halt.setWidth 64 →
      Halts accessible halt s [(s, none)] s
  | step {s t : State} {i : Instr} {path : List (State × Option Instr)} :
      Fetches accessible s i → Halts accessible halt (step s i) path t →
        Halts accessible halt s ((s, some i) :: path) t

section Walk

variable {accessible : BitVec 64 → ℕ → Prop} {halt : BitVec 32}

instance [∀ address n, Decidable (accessible address n)] (s : State) (i : Instr) :
    Decidable (Fetches accessible s i) :=
  decidable_of_iff (accessible s.pc 4 ∧ loadBytes s.mem s.pc 4 = (encode i).setWidth 64 ∧
      ∀ p ∈ access s i, accessible p.1 p.2)
    ⟨fun h => ⟨h.1, h.2.1, fun _ _ hp => h.2.2 _ hp⟩,
      fun h => ⟨h.fetch, h.word, fun _ => h.access _ _⟩⟩

/-- The states a list of instructions leads through. -/
def walk : State → List Instr → List (State × Option Instr)
  | s, [] => [(s, none)]
  | s, i :: is => (s, some i) :: walk (step s i) is

/-- A list of instructions that are found in this order, up to the word `halt`, is a run. -/
theorem halts_walk {s : State} {is : List Instr}
    (hfetches : ∀ p ∈ walk s is, ∀ i ∈ p.2, Fetches accessible p.1 i)
    (haccessible : accessible (is.foldl step s).pc 4)
    (hhalt : loadBytes (is.foldl step s).mem (is.foldl step s).pc 4 = halt.setWidth 64) :
    Halts accessible halt s (walk s is) (is.foldl step s) := by
  induction is generalizing s with
  | nil => exact .halt haccessible hhalt
  | cons i is ih =>
      refine .step (hfetches _ List.mem_cons_self i rfl) (ih ?_ haccessible hhalt)
      exact fun p hp => hfetches p (List.mem_cons_of_mem _ hp)

end Walk

/-! ### Distances -/

/-- The instruction may go elsewhere than to the next word. -/
def Instr.isControl : Instr → Bool
  | .branch .. | .jal .. | .jalr .. => true
  | _ => false

/-- The register the instruction writes. -/
def Instr.dest : Instr → Option (BitVec 5)
  | .op _ rd _ _ | .opW _ rd _ _ | .opImm _ rd _ _ | .shift _ rd _ _ | .addiw rd _ _
  | .shiftW _ rd _ _ | .load _ rd _ _ | .lui rd _ | .auipc rd _ | .jal rd _ | .jalr rd _ _ =>
      some rd
  | .store .. | .branch .. => none

/-- The registers a branch or jump reads. -/
def Instr.condition : Instr → List (BitVec 5)
  | .branch _ rs1 rs2 _ => [rs1, rs2]
  | .jalr _ rs1 _ => [rs1]
  | _ => []

/-- The second instruction is a branch or jump that reads what the first one writes. -/
def Feeds : State × Option Instr → State × Option Instr → Prop
  | (_, some i), (_, some j) => ∃ r ∈ j.condition, r ≠ 0 ∧ i.dest = some r
  | _, _ => False

instance : DecidableRel Feeds
  | (_, some i), (_, some j) =>
      inferInstanceAs (Decidable (∃ r ∈ j.condition, r ≠ 0 ∧ i.dest = some r))
  | (_, none), _ => isFalse id
  | (_, some _), (_, none) => isFalse id

/-- The first instruction is a store to the word of the second one. -/
def Overwrites : State × Option Instr → State × Option Instr → Prop
  | (s, some (.store o rs1 _ imm)), (t, _) =>
      ∃ k < o.bytes, ∃ j < 4,
        s.effective rs1 imm + BitVec.ofNat 64 k = t.pc + BitVec.ofNat 64 j
  | _, _ => False

instance : DecidableRel Overwrites
  | (s, some (.store o rs1 _ imm)), (t, _) =>
      inferInstanceAs (Decidable (∃ k < o.bytes, ∃ j < 4,
        s.effective rs1 imm + BitVec.ofNat 64 k = t.pc + BitVec.ofNat 64 j))
  | (_, none), _ => isFalse id
  | (_, some (.op ..)), _ | (_, some (.opW ..)), _ | (_, some (.opImm ..)), _
  | (_, some (.shift ..)), _ | (_, some (.addiw ..)), _ | (_, some (.shiftW ..)), _
  | (_, some (.load ..)), _ | (_, some (.branch ..)), _ | (_, some (.lui ..)), _
  | (_, some (.auipc ..)), _ | (_, some (.jal ..)), _ | (_, some (.jalr ..)), _ => isFalse id

/-- The word at `address` is accessible and no store. -/
def NoStoreAt (accessible : BitVec 64 → ℕ → Prop) (mem : BitVec 64 → BitVec 8)
    (address : BitVec 64) : Prop :=
  accessible address 4 ∧
    ∀ o rs1 rs2 imm, loadBytes mem address 4 ≠ (encode (.store o rs1 rs2 imm)).setWidth 64

/-- The opcode shows that a word is no store. -/
theorem NoStoreAt.of_opcode {accessible : BitVec 64 → ℕ → Prop} {mem : BitVec 64 → BitVec 8}
    {address : BitVec 64} (haccessible : accessible address 4)
    (hopcode : (loadBytes mem address 4).extractLsb' 0 7 ≠ 0b0100011) :
    NoStoreAt accessible mem address := by
  refine ⟨haccessible, fun o rs1 rs2 imm hword => hopcode ?_⟩
  rw [hword, BitVec.extractLsb'_setWidth_of_le (by decide)]
  exact opcode_rType

/-- No branch or jump goes to the word behind the next one; what writes the operands of a
branch or jump, or stores to an instruction, is more than `n` instructions in front of it; and
behind the end of the run there is at no time a store. -/
structure WellSpaced (accessible : BitVec 64 → ℕ → Prop) (n : ℕ)
    (path : List (State × Option Instr)) : Prop where
  skipsNone : ∀ s i, (s, some i) ∈ path → i.isControl = true → nextPC s i ≠ s.pc + 8
  branches : Apart Feeds n path
  stores : Apart Overwrites n path
  shieldsHalt : ∀ s, (s, none) ∈ path → ∀ p ∈ path, NoStoreAt accessible p.1.mem (s.pc + 4)

end Rv64i
