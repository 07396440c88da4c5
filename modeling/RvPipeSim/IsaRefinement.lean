import RvPipeSim.Contract
import RvPipeSim.Execution
import RvPipeSim.Lib.Rv64iRun

/-!
# Both simulators run RV64I programs

`Execution` relates one `simInstruction` to one step of the instruction set. Here a whole run
of a hart, up to the HALT, is followed instruction by instruction by the functional simulator
(`Follows`, `halts_follows`), and where the run keeps its distances, by the pipelined one.

The decoder's findings about an encoded instruction (`DecodesTo`) are what carries the distances
over: the conditions of `Contract` are on the fields of `Instruction` records, those of
`Rv64i.WellSpaced` on the syntax and the effective addresses of the instruction set.

## Main results

* `decodesTo_encode` — the decoder finds what the instruction set defines;
* `halts_follows` — the functional simulator follows a run of the hart;
* `funct_implements` — it halts with the hart's registers and memory, in as many instructions;
* `pipeline_implements` — and so does the pipelined one where the run keeps its distances.
-/

namespace RvPipeSim

open Simulator Rv64i

/-! ### What the decoder finds -/

/-- What the decoder finds out about the word of `i`. -/
structure DecodesTo (d : DecodeInfo) (i : Instr) : Prop where
  legal : d.isLegal = true
  noHalt : d.isHalt = false
  control : d.branchOpcode = true → i.isControl = true
  rs1 : d.branchOpcode = true → d.readsRs1 = true → d.rs1 ∈ i.condition
  rs2 : d.branchOpcode = true → d.readsRs2 = true → d.rs2 ∈ i.condition
  dest : d.writesRd = true → i.dest = some d.rd
  store : d.writesMem = true → ∃ o rs1 rs2 imm, i = .store o rs1 rs2 imm ∧ d.funct3 = o.funct3

section Straight

variable {i : Instr} {d : DecodeInfo}

/-- An instruction that neither branches nor stores. -/
theorem DecodesTo.of_straight (hd : decodeOf ((encode i).setWidth 64) = d)
    (hlegal : d.isLegal = true) (hhalt : d.isHalt = false) (hbranch : d.branchOpcode = false)
    (hstore : d.writesMem = false) (hdest : d.writesRd = true → i.dest = some d.rd) :
    DecodesTo (decodeOf ((encode i).setWidth 64)) i := by
  rw [hd]
  exact {
    legal := hlegal
    noHalt := hhalt
    control := fun h => Bool.noConfusion (hbranch.symm.trans h)
    rs1 := fun h => Bool.noConfusion (hbranch.symm.trans h)
    rs2 := fun h => Bool.noConfusion (hbranch.symm.trans h)
    dest := hdest
    store := fun h => Bool.noConfusion (hstore.symm.trans h) }

/-- The NOP word, whatever instruction it is read as. -/
theorem DecodesTo.of_nop (hnop : (encode i).setWidth 64 = nopWord) :
    DecodesTo (decodeOf ((encode i).setWidth 64)) i := by
  refine .of_straight (congrArg decodeOf hnop) rfl rfl rfl rfl fun h => ?_
  exact Bool.noConfusion (h : false = true)

end Straight

/-- **The decoder finds what the instruction set defines.** -/
theorem decodesTo_encode (i : Instr) : DecodesTo (decodeOf ((encode i).setWidth 64)) i := by
  cases i with
  | op o rd rs1 rs2 =>
      have hlegal : legalInt (fieldInfo o.funct.1 rs2 rs1 o.funct.2 rd opInt) = true :=
        legalInt_iff.mpr (.inl ⟨o, rfl⟩)
      exact .of_straight (decodeOf_of_switch (ne_nopWord (by decide)) (by decide)
        ((decodeOpcode_int rfl).trans (if_pos hlegal))) rfl rfl rfl rfl fun _ => rfl
  | opW o rd rs1 rs2 =>
      have hlegal : legalIntw (fieldInfo o.funct.1 rs2 rs1 o.funct.2 rd opIntw) = true :=
        legalIntw_iff.mpr (.inl ⟨o, rfl⟩)
      exact .of_straight (decodeOf_of_switch (ne_nopWord (by decide)) (by decide)
        ((decodeOpcode_intw rfl).trans (if_pos hlegal))) rfl rfl rfl rfl fun _ => rfl
  | opImm o rd rs1 imm =>
      by_cases hnop : (encode (.opImm o rd rs1 imm)).setWidth 64 = nopWord
      · exact .of_nop hnop
      · have hlegal : legalIntimm (fieldInfo (imm.extractLsb' 5 7) (imm.extractLsb' 0 5) rs1
            o.funct3 rd opIntimm) = true := legalIntimm_iff.mpr (.inl (.inl ⟨o, rfl⟩))
        exact .of_straight (decodeOf_of_switch hnop (by decide)
          ((decodeOpcode_intimm rfl).trans (if_pos hlegal))) rfl rfl rfl rfl fun _ => rfl
  | shift o rd rs1 shamt =>
      by_cases hnop : (encode (.shift o rd rs1 shamt)).setWidth 64 = nopWord
      · exact .of_nop hnop
      · have hlegal : legalIntimm (fieldInfo ((o.funct.1 ++ shamt : BitVec 12).extractLsb' 5 7)
            ((o.funct.1 ++ shamt : BitVec 12).extractLsb' 0 5) rs1 o.funct.2 rd opIntimm) = true :=
          legalIntimm_iff.mpr (.inl (.inr ⟨o, Prod.ext upper_append.symm rfl⟩))
        exact .of_straight (decodeOf_of_switch hnop (by decide)
          ((decodeOpcode_intimm rfl).trans (if_pos hlegal))) rfl rfl rfl rfl fun _ => rfl
  | addiw rd rs1 imm =>
      have hlegal : legalIntimmw (fieldInfo (imm.extractLsb' 5 7) (imm.extractLsb' 0 5) rs1 0b000
          rd opIntimmw) = true := legalIntimmw_iff.mpr (.inl (.inl rfl))
      exact .of_straight (decodeOf_of_switch (ne_nopWord (by decide)) (by decide)
        ((decodeOpcode_intimmw rfl).trans (if_pos hlegal))) rfl rfl rfl rfl fun _ => rfl
  | shiftW o rd rs1 shamt =>
      have hf7 : ((o.funct.1 ++ 0#1 : BitVec 7) ++ shamt : BitVec 12).extractLsb' 5 7 =
          o.funct.1 ++ 0#1 := BitVec.extractLsb'_append_eq_left
      have hlegal : legalIntimmw (fieldInfo (((o.funct.1 ++ 0#1 : BitVec 7) ++ shamt :
          BitVec 12).extractLsb' 5 7) (((o.funct.1 ++ 0#1 : BitVec 7) ++ shamt :
          BitVec 12).extractLsb' 0 5) rs1 o.funct.2 rd opIntimmw) = true :=
        legalIntimmw_iff.mpr (.inl (.inr ⟨o, hf7.symm, rfl⟩))
      exact .of_straight (decodeOf_of_switch (ne_nopWord (by decide)) (by decide)
        ((decodeOpcode_intimmw rfl).trans (if_pos hlegal))) rfl rfl rfl rfl fun _ => rfl
  | load o rd rs1 imm =>
      have hlegal : legalLoad (fieldInfo (imm.extractLsb' 5 7) (imm.extractLsb' 0 5) rs1 o.funct3
          rd opLoad) = true := legalLoad_iff.mpr ⟨o, rfl⟩
      exact .of_straight (decodeOf_of_switch (ne_nopWord (by decide)) (by decide)
        ((decodeOpcode_load rfl).trans (if_pos hlegal))) rfl rfl rfl rfl fun _ => rfl
  | store o rs1 rs2 imm =>
      have hlegal : legalStore (fieldInfo (imm.extractLsb' 5 7) rs2 rs1 o.funct3
          (imm.extractLsb' 0 5) opStore) = true := legalStore_iff.mpr ⟨o, rfl⟩
      have hd : decodeOf ((encode (.store o rs1 rs2 imm)).setWidth 64) = _ :=
        decodeOf_of_switch (ne_nopWord (by decide)) (by decide)
          ((decodeOpcode_store rfl).trans (if_pos hlegal))
      rw [hd]
      exact ⟨rfl, rfl, fun h => Bool.noConfusion (h : false = true),
        fun h => Bool.noConfusion (h : false = true), fun h => Bool.noConfusion (h : false = true),
        fun h => Bool.noConfusion (h : false = true), fun _ => ⟨o, rs1, rs2, imm, rfl, rfl⟩⟩
  | branch o rs1 rs2 imm =>
      have hlegal : legalBranch (fieldInfo (imm.extractLsb' 11 1 ++ imm.extractLsb' 4 6) rs2 rs1
          o.funct3 (imm.extractLsb' 0 4 ++ imm.extractLsb' 10 1) opBranch) = true :=
        legalBranch_iff.mpr ⟨o, rfl⟩
      have hd : decodeOf ((encode (.branch o rs1 rs2 imm)).setWidth 64) = _ :=
        decodeOf_of_switch (ne_nopWord (by decide)) (by decide)
          ((decodeOpcode_branch rfl).trans (if_pos hlegal))
      rw [hd]
      exact ⟨rfl, rfl, fun _ => rfl, fun _ _ => List.mem_cons_self,
        fun _ _ => List.mem_cons_of_mem _ (List.mem_singleton_self _),
        fun h => Bool.noConfusion (h : false = true), fun h => Bool.noConfusion (h : false = true)⟩
  | lui rd imm =>
      exact .of_straight (decodeOf_of_switch (ne_nopWord (by decide)) (by decide)
        (decodeOpcode_upper (.inr (.inl rfl)))) rfl rfl rfl rfl fun _ => rfl
  | auipc rd imm =>
      exact .of_straight (decodeOf_of_switch (ne_nopWord (by decide)) (by decide)
        (decodeOpcode_upper (.inl rfl))) rfl rfl rfl rfl fun _ => rfl
  | jal rd imm =>
      have hd : decodeOf ((encode (.jal rd imm)).setWidth 64) = _ :=
        decodeOf_of_switch (ne_nopWord (by decide)) (by decide)
          (decodeOpcode_upper (.inr (.inr rfl)))
      rw [hd]
      exact ⟨rfl, rfl, fun _ => rfl, fun _ h => Bool.noConfusion (h : false = true),
        fun _ h => Bool.noConfusion (h : false = true), fun _ => rfl,
        fun h => Bool.noConfusion (h : false = true)⟩
  | jalr rd rs1 imm =>
      have hd : decodeOf ((encode (.jalr rd rs1 imm)).setWidth 64) = _ :=
        decodeOf_of_switch (ne_nopWord (by decide)) (by decide) (decodeOpcode_jalr rfl)
      rw [hd]
      exact ⟨rfl, rfl, fun _ => rfl, fun _ _ => List.mem_singleton_self _,
        fun _ h => Bool.noConfusion (h : false = true), fun _ => rfl,
        fun h => Bool.noConfusion (h : false = true)⟩

/-- Only the case of the stores writes memory. -/
theorem decodeOpcode_writesMem {d : DecodeInfo} (hd : d.writesMem = false)
    (h : (decodeOpcode d).writesMem = true) : d.opcode = opStore ∧ legalStore d = true := by
  by_cases hop : d.opcode = opStore
  · refine ⟨hop, ?_⟩
    by_contra hlegal
    rw [decodeOpcode_store hop, if_neg hlegal] at h
    exact Bool.noConfusion (hd.symm.trans h)
  · simp only [decodeOpcode, if_neg hop, apply_ite DecodeInfo.writesMem, ite_self] at h
    exact Bool.noConfusion (hd.symm.trans h)

/-- Only a store decodes as one. -/
theorem store_of_writesMem {w : BitVec 32} (h : (decodeOf (w.setWidth 64)).writesMem = true) :
    ∃ o rs1 rs2 imm, w = encode (.store o rs1 rs2 imm) := by
  obtain ⟨funct7, rs2, rs1, funct3, rd, opcode, rfl⟩ := exists_rType w
  by_cases hhalt : (rType funct7 rs2 rs1 funct3 rd opcode).setWidth 64 = haltWord
  · rw [hhalt] at h
    exact absurd h (by decide)
  by_cases hnop : (rType funct7 rs2 rs1 funct3 rd opcode).setWidth 64 = nopWord
  · rw [hnop] at h
    exact absurd h (by decide)
  rw [decodeOf_rType hhalt hnop] at h
  obtain ⟨hop, hlegal⟩ := decodeOpcode_writesMem rfl h
  obtain rfl : opcode = opStore := hop
  obtain ⟨o, ho⟩ := legalStore_iff.mp hlegal
  refine ⟨o, rs1, rs2, funct7 ++ rd, ?_⟩
  rw [rType_eq_sType, encode]
  exact congrArg (sType _ rs2 rs1 · opStore) ho.symm

/-! ### One instruction -/

section Step

variable {u : FunctMachine} {s : State} {i : Instr} {accessible : BitVec 64 → ℕ → Prop}

/-- The state of the instruction set a functional simulator stands for. -/
def FunctMachine.view (u : FunctMachine) : State := u.simulator.view u.PC

/-- Which accesses are in range depends on where the memory starts and ends. -/
theorem inRange_congr {mem mem' : MemoryStore} (hstart : mem'.startAddr = mem.startAddr)
    (hsize : mem'.numEntries = mem.numEntries) : mem'.InRange = mem.InRange := by
  funext address n
  rw [MemoryStore.InRange, MemoryStore.InRange, hstart, hsize]

/-- An accessible word is fetched as it is in memory. -/
theorem wordAt_of_loadBytes {mem : MemoryStore} {address : BitVec 64} {w : BitVec 32}
    (hrange : mem.InRange address 4) (h : loadBytes mem.view address 4 = w.setWidth 64) :
    wordAt mem address = w.setWidth 64 := by
  have hread : (mem.getMemValue address .wordSize).2 = w.setWidth 64 :=
    (MemoryStore.getMemValue_of_inRange hrange).trans h
  rw [wordAt, simFetch, hread, setWidth_word]

/-- The functional simulator is in the state `p.1`, up to `x0`, with the same accessible
memory, and at the instruction `p.2`, or at the HALT. -/
structure Follows (accessible : BitVec 64 → ℕ → Prop) (u : FunctMachine)
    (p : State × Option Instr) : Prop where
  agree : u.view.Agree p.1
  inRange : u.simulator.memory.InRange = accessible
  fetches : ∀ i, p.2 = some i → Fetches accessible p.1 i
  halted : p.2 = none → u.executed.isHalt = true

variable (hagree : u.view.Agree s) (hrange : u.simulator.memory.InRange = accessible)

include hagree hrange

/-- What is fetched is what the instruction set fetches. -/
theorem executed_of_word {w : BitVec 32} (hfetch : accessible s.pc 4)
    (hword : loadBytes s.mem s.pc 4 = w.setWidth 64) :
    u.executed.toDecodeInfo = decodeOf (w.setWidth 64) := by
  have hdec : u.executed.toDecodeInfo = decodeOf (wordAt u.simulator.memory u.PC) :=
    simInstruction_toDecodeInfo u.simulator u.PC
  have hpc : u.PC = s.pc := hagree.pc
  have hmem : u.simulator.memory.view = s.mem := hagree.mem
  rw [hdec, wordAt_of_loadBytes (by rw [hrange, hpc]; exact hfetch) (by rw [hmem, hpc, hword])]

/-- The single step does what the instruction set says. -/
theorem implements_of_fetches (h : Fetches accessible s i) :
    Implements u.simulator u.PC i := by
  have hpc : u.PC = s.pc := hagree.pc
  have hmem : u.simulator.memory.view = s.mem := hagree.mem
  have hfetch : u.simulator.memory.InRange u.PC 4 := by
    rw [hrange, hpc]
    exact h.fetch
  have hword : loadBytes u.simulator.memory.view u.PC 4 = (encode i).setWidth 64 := by
    rw [hmem, hpc]
    exact h.word
  have haccess : ∀ address n, access (u.simulator.view u.PC) i = some (address, n) →
      u.simulator.memory.InRange address n := by
    intro address n haddress
    rw [hrange]
    exact h.access address n ((hagree.access i).symm.trans haddress)
  cases i with
  | op => exact implements_op hfetch hword
  | opW => exact implements_opW hfetch hword
  | opImm => exact implements_opImm hfetch hword
  | shift => exact implements_shift hfetch hword
  | addiw => exact implements_addiw hfetch hword
  | shiftW => exact implements_shiftW hfetch hword
  | load => exact implements_load hfetch hword (haccess _ _ rfl)
  | store => exact implements_store hfetch hword (haccess _ _ rfl)
  | branch => exact implements_branch hfetch hword
  | lui => exact implements_lui hfetch hword
  | auipc => exact implements_auipc hfetch hword
  | jal => exact implements_jal hfetch hword
  | jalr => exact implements_jalr hfetch hword

/-- **One instruction of the functional simulator** is one step of the instruction set. -/
theorem advance_of_fetches (h : Fetches accessible s i) :
    (u.executed.isHalt = false ∧ u.executed.isLegal = true) ∧ u.advance.view.Agree (step s i) ∧
      u.advance.simulator.memory.InRange = accessible := by
  have himplements := implements_of_fetches hagree hrange h
  have hdec := executed_of_word hagree hrange h.fetch h.word
  refine ⟨?_, ?_, ?_⟩
  · rw [hdec]
    exact ⟨(decodesTo_encode i).noHalt, (decodesTo_encode i).legal⟩
  · have hstep := hagree.step i
    exact ⟨fun r hr => (himplements.registers r hr).trans (hstep.regs r hr),
      himplements.memory.trans hstep.mem, himplements.nextPC.trans hstep.pc⟩
  · rw [← hrange]
    exact inRange_congr himplements.bounds.1 himplements.bounds.2

end Step

/-! ### Whole runs -/

section Runs

variable {accessible : BitVec 64 → ℕ → Prop} {s t : State} {u : FunctMachine}
  {path : List (State × Option Instr)}

/-- **The functional simulator follows a run of the hart**, instruction by instruction. -/
theorem halts_follows (h : Halts accessible 0xfeedfeed s path t) (hagree : u.view.Agree s)
    (hrange : u.simulator.memory.InRange = accessible) :
    (∃ m, FunctMachine.runTillHalt path.length u = some (.halt, m) ∧
      (m.simulator.view t.pc).Agree t) ∧
      List.Forall₂ (Follows accessible) (FunctMachine.trace path.length u) path := by
  induction h generalizing u with
  | @halt s hfetch hword =>
      have hdec := executed_of_word hagree hrange hfetch hword
      have hhalt : u.executed.isHalt = true := by
        rw [hdec]
        rfl
      have hstop : (decodeOf (wordAt u.simulator.memory u.PC)).isHalt = true := by
        rw [← simInstruction_toDecodeInfo u.simulator u.PC]
        exact hhalt
      refine ⟨⟨u.advance, ?_, ?_⟩, ?_⟩
      · rw [List.length_singleton, FunctMachine.runTillHalt, FunctMachine.runInstructions_one,
          if_pos hhalt]
      · rw [FunctMachine.advance]
        dsimp only
        rw [simInstruction_of_stop (.inl hstop)]
        exact ⟨hagree.regs, hagree.mem, rfl⟩
      · rw [List.length_singleton, FunctMachine.trace, FunctMachine.runInstructions_one,
          if_pos hhalt]
        exact .cons
          ⟨hagree, hrange, fun i hi => absurd hi (Option.some_ne_none i).symm, fun _ => hhalt⟩ .nil
  | @step s t i path hfetches _ ih =>
      obtain ⟨⟨hgo, hlegal⟩, hagree', hrange'⟩ := advance_of_fetches hagree hrange hfetches
      obtain ⟨⟨m, hm, hfinal⟩, hpath⟩ := ih hagree' hrange'
      refine ⟨⟨m, ?_, hfinal⟩, ?_⟩
      · rw [List.length_cons, FunctMachine.runTillHalt, FunctMachine.runInstructions_one, hgo,
          hlegal]
        exact hm
      · rw [List.length_cons, FunctMachine.trace, FunctMachine.runInstructions_one, hgo, hlegal]
        refine .cons ⟨hagree, hrange, fun j hj => ?_, fun hnone =>
          absurd hnone (Option.some_ne_none i)⟩ hpath
        obtain rfl := Option.some.inj hj
        exact hfetches

end Runs

/-! ### Distances -/

section Distances

variable {accessible : BitVec 64 → ℕ → Prop} {u v : FunctMachine} {p p' : State × Option Instr}

/-- What the functional simulator executes has well-formed flags. -/
theorem executed_wellFormed (u : FunctMachine) : u.executed.toDecodeInfo.WellFormed := by
  have hdec : u.executed.toDecodeInfo = decodeOf (wordAt u.simulator.memory u.PC) :=
    simInstruction_toDecodeInfo u.simulator u.PC
  rw [hdec]
  exact decodeOf_wellFormed _

/-- The instruction of the run is the one the functional simulator has decoded. -/
theorem Follows.decodesTo (h : Follows accessible u p) {i : Instr} (hi : p.2 = some i) :
    DecodesTo u.executed.toDecodeInfo i := by
  have hfetches := h.fetches i hi
  rw [executed_of_word h.agree h.inRange hfetches.fetch hfetches.word]
  exact decodesTo_encode i

/-- A register write seen by a branch is one of the instruction set. -/
theorem feeds_of_follows (hu : Follows accessible u p) (hv : Follows accessible v p')
    (h : u.Feeds v) : Rv64i.Feeds p p' := by
  obtain ⟨hbranch, hwrites, hzero, hreads⟩ := h
  obtain ⟨s, _ | i⟩ := p
  · have hinert := ((executed_wellFormed u).halt (hu.halted rfl)).2.2.1
    exact Bool.noConfusion (hinert.writesRd.symm.trans hwrites)
  obtain ⟨t, _ | j⟩ := p'
  · have hnobranch := ((executed_wellFormed v).halt (hv.halted rfl)).2.2.2
    exact Bool.noConfusion (hnobranch.symm.trans hbranch)
  have hj := hv.decodesTo rfl
  refine ⟨u.executed.rd, ?_, hzero, (hu.decodesTo rfl).dest hwrites⟩
  rcases hreads with ⟨h1, hr⟩ | ⟨h2, hr⟩
  · exact hr ▸ hj.rs1 hbranch h1
  · exact hr ▸ hj.rs2 hbranch h2

/-- The single step leaves a store with its effective address. -/
theorem stepBehind_of_writesMem {sim : Simulator} {inst : Instruction}
    (hwf : inst.toDecodeInfo.WellFormed) (hstore : inst.writesMem = true) :
    (stepBehind sim inst).1.memAddress = (simAddrGen inst).memAddress := by
  obtain ⟨hload, harith, hrd, -⟩ := hwf.store hstore
  simp [stepBehind, simMemAccess, simAddrGen, hload, hstore, harith, hrd]

/-- A store goes to the effective address of the instruction set. -/
theorem executed_of_store {s : State} {o : StoreOp} {rs1 rs2 : BitVec 5} {imm : BitVec 12}
    (hu : Follows accessible u (s, some (.store o rs1 rs2 imm))) :
    u.executed.memAddress = s.effective rs1 imm ∧ (accessSize u.executed).bytes = o.bytes := by
  have hfetches := hu.fetches _ rfl
  have hx : (u.simulator.view u.PC).x = s.x := hu.agree.x
  have hpc : u.PC = s.pc := hu.agree.pc
  have hmem : u.simulator.memory.view = s.mem := hu.agree.mem
  have hlegal : legalStore (fieldInfo (imm.extractLsb' 5 7) rs2 rs1 o.funct3
      (imm.extractLsb' 0 5) opStore) = true := legalStore_iff.mpr ⟨o, rfl⟩
  have hrange : u.simulator.memory.InRange u.PC 4 := by
    rw [hu.inRange, hpc]
    exact hfetches.fetch
  obtain ⟨-, hd⟩ := collectedAt_instruction (w := encode (.store o rs1 rs2 imm)) hrange
    (by rw [hmem, hpc]; exact hfetches.word)
  replace hd := hd.trans (decodeOf_of_switch (ne_nopWord (by decide)) (by decide)
    ((decodeOpcode_store rfl).trans (if_pos hlegal)))
  have himm : (imm.extractLsb' 5 7 ++ imm.extractLsb' 0 5 : BitVec 12) = imm :=
    BitVec.extractLsb'_append_extractLsb'
  have haddress : (simAddrGen (collectedAt u.simulator u.PC)).memAddress = s.effective rs1 imm := by
    rw [simAddrGen_store (congrArg DecodeInfo.readsMem hd) (congrArg DecodeInfo.writesMem hd)
      (congrArg DecodeInfo.funct7 hd) (congrArg DecodeInfo.rd hd), collectedAt_op1Val hd rfl, hx]
    exact congrArg (s.x rs1 + BitVec.signExtend 64 ·) himm
  have hexecuted := simInstruction_eq (congrArg DecodeInfo.isLegal hd)
    (congrArg DecodeInfo.isHalt hd)
  constructor
  · rw [FunctMachine.executed, hexecuted]
    refine (stepBehind_of_writesMem ?_ ?_).trans ?_
    · exact decodeOf_wellFormed (wordAt u.simulator.memory u.PC)
    · exact congrArg DecodeInfo.writesMem hd
    · exact haddress
  · have hf3 : u.executed.funct3 = o.funct3 := by
      rw [FunctMachine.executed, hexecuted, (stepBehind_fst _ _).1]
      exact congrArg DecodeInfo.funct3 hd
    rw [accessSize, hf3]
    cases o <;> rfl

/-- A store to an instruction is one of the instruction set. -/
theorem overwrites_of_follows (hu : Follows accessible u p) (hv : Follows accessible v p')
    (h : u.Overwrites v) : Rv64i.Overwrites p p' := by
  obtain ⟨j, hj, hstore, k, hk, haddress⟩ := h
  obtain ⟨s, _ | i⟩ := p
  · have hinert := ((executed_wellFormed u).halt (hu.halted rfl)).2.2.1
    exact Bool.noConfusion (hinert.writesMem.symm.trans hstore)
  obtain ⟨o, rs1, rs2, imm, rfl, -⟩ := (hu.decodesTo rfl).store hstore
  obtain ⟨heffective, hbytes⟩ := executed_of_store hu
  have hpc : v.PC = p'.1.pc := hv.agree.pc
  refine ⟨k, hbytes ▸ hk, j, hj, ?_⟩
  rw [← heffective, ← hpc]
  exact haddress

/-- **Distances kept by a run of the hart** are kept by the functional run that follows it. -/
theorem wellSpaced_of_follows {visited : List FunctMachine} {path : List (State × Option Instr)}
    (hpath : List.Forall₂ (Follows accessible) visited path)
    (h : Rv64i.WellSpaced accessible 2 path) : WellSpaced visited where
  skipsNone u hu hbranch := by
    obtain ⟨⟨s, o⟩, hp, hfollows⟩ := Apart.exists_counterpart hpath hu
    cases o with
    | none =>
        have hnobranch := ((executed_wellFormed u).halt (hfollows.halted rfl)).2.2.2
        exact Bool.noConfusion (hnobranch.symm.trans hbranch)
    | some i =>
        have himplements := implements_of_fetches hfollows.agree hfollows.inRange
          (hfollows.fetches i rfl)
        have hpc : u.PC = s.pc := hfollows.agree.pc
        have hnext : u.executed.nextPC = nextPC s i :=
          himplements.nextPC.trans (hfollows.agree.step i).pc
        rw [hnext, hpc]
        exact h.skipsNone s i hp ((hfollows.decodesTo rfl).control hbranch)
  branches := Apart.of_forall₂ hpath (fun _ _ _ _ => feeds_of_follows) h.branches
  stores := Apart.of_forall₂ hpath (fun _ _ _ _ => overwrites_of_follows) h.stores
  shieldsHalt u hu hhalt v hv := by
    obtain ⟨⟨s, o⟩, hp, hfollows⟩ := Apart.exists_counterpart hpath hu
    obtain ⟨p', hp', hfollows'⟩ := Apart.exists_counterpart hpath hv
    cases o with
    | some i => exact Bool.noConfusion ((hfollows.decodesTo rfl).noHalt.symm.trans hhalt)
    | none =>
        obtain ⟨haccessible, hnostore⟩ := h.shieldsHalt s hp p' hp'
        have hpc : u.PC = s.pc := hfollows.agree.pc
        have hmem : v.simulator.memory.view = p'.1.mem := hfollows'.agree.mem
        by_contra hstore
        rw [Bool.not_eq_false, hpc, wordAt_of_loadBytes
          (w := (loadBytes p'.1.mem (s.pc + 4) 4).setWidth 32)
          (by rw [hfollows'.inRange]; exact haccessible)
          (by rw [hmem]; exact (loadBytes_setWidth _ _ 4).symm)] at hstore
        obtain ⟨o, rs1, rs2, imm, hword⟩ := store_of_writesMem hstore
        refine hnostore o rs1 rs2 imm ?_
        rw [← hword]
        exact (loadBytes_setWidth _ _ 4).symm

end Distances

/-! ### The simulators -/

/-- The hart at the start of a memory image, all registers zero. -/
def reset (mem : MemoryStore) : State := (FunctMachine.initSimulator mem).view

/-- **The functional simulator runs RV64I programs.** If the hart runs from a memory image to a
HALT, all its accesses inside the memory, so does the functional simulator. It executes as many
instructions, the HALT included, and leaves the registers and the memory of the hart. -/
theorem funct_implements {mem : MemoryStore} {path : List (State × Option Instr)} {t : State}
    (h : Halts mem.InRange 0xfeedfeed (reset mem) path t) :
    ∃ m, FunctMachine.runTillHalt path.length (.initSimulator mem) = some (.halt, m) ∧
      (FunctMachine.trace path.length (.initSimulator mem)).length = path.length ∧
      (∀ r ≠ 0, m.simulator.regData.registers r = t.regs r) ∧
      m.simulator.memory.view = t.mem := by
  obtain ⟨⟨m, hm, hagree⟩, hpath⟩ :=
    halts_follows (u := .initSimulator mem) h ⟨fun _ _ => rfl, rfl, rfl⟩ rfl
  exact ⟨m, hm, hpath.length_eq, hagree.regs, hagree.mem⟩

/-- `addi x1, x0, 5; nop; nop; beq x1, x0, -4; sw x1, 256(x0); HALT` -/
def storeFive : MemoryStore := .image fun
  | 0 => 0x00500093 | 1 => 0x00000013 | 2 => 0x00000013 | 3 => 0xfe008ee3
  | 4 => 0x10102023 | 5 => 0xfeedfeed | _ => 0x00000013

/-- The instructions of `storeFive`. -/
def storeFiveInstrs : List Instr :=
  [.opImm .addi 1 0 5, .opImm .addi 0 0 0, .opImm .addi 0 0 0, .branch .beq 1 0 (-2),
    .store .sw 0 1 256]

/-- The hart runs `storeFive` to its HALT. -/
theorem halts_storeFive :
    Halts storeFive.InRange 0xfeedfeed (reset storeFive) (walk (reset storeFive) storeFiveInstrs)
      (storeFiveInstrs.foldl step (reset storeFive)) :=
  halts_walk (by decide +kernel) (by decide +kernel) (by decide +kernel)

/-- The functional simulator executes the six instructions of `storeFive`. -/
theorem funct_implements_storeFive :
    ∃ m, FunctMachine.runTillHalt 6 (.initSimulator storeFive) = some (.halt, m) ∧
      (FunctMachine.trace 6 (.initSimulator storeFive)).length = 6 ∧
      m.simulator.regData.registers 1 = 5 ∧ loadBytes m.simulator.memory.view 256 4 = 5 := by
  obtain ⟨m, hm, hlength, hregs, hmem⟩ := funct_implements halts_storeFive
  refine ⟨m, hm, hlength, (hregs 1 (by decide)).trans (by decide +kernel), ?_⟩
  rw [hmem]
  decide +kernel

/-- **The pipelined simulator runs RV64I programs** that keep their distances: if the hart runs
from a memory image to a HALT, all its accesses inside the memory, and the run is well-spaced
at distance 2, then under every pair of caches that have a set the pipelined simulator makes no
cache access out of bounds and halts with the registers and the memory of the hart, within
`progressBound + 1` cycles for each instruction and for three more. -/
theorem pipeline_implements {iCacheConfig dCacheConfig : CacheConfig}
    (hi : 1 ≤ iCacheConfig.numSets) (hi' : iCacheConfig.numSets < 2 ^ 32)
    (hd : 1 ≤ dCacheConfig.numSets) (hd' : dCacheConfig.numSets < 2 ^ 32) {mem : MemoryStore}
    {path : List (State × Option Instr)} {t : State}
    (h : Halts mem.InRange 0xfeedfeed (reset mem) path t)
    (hspaced : Rv64i.WellSpaced mem.InRange 2 path) :
    let cycles := (path.length + 3) * (LoopState.progressBound iCacheConfig dCacheConfig + 1)
    (∃ m, runTillHalt accessFault cycles (initSimulator iCacheConfig dCacheConfig mem) = some m ∧
      (∀ r ≠ 0, m.simulator.regData.registers r = t.regs r) ∧
      m.simulator.memory.view = t.mem) ∧
      ∀ s ∈ haltTrace accessFault cycles (initSimulator iCacheConfig dCacheConfig mem),
        s.CachesSafe := by
  intro cycles
  obtain ⟨⟨m, hm, hagree⟩, hpath⟩ :=
    halts_follows (u := .initSimulator mem) h ⟨fun _ _ => rfl, rfl, rfl⟩ rfl
  have hspaced' := wellSpaced_of_follows hpath hspaced
  obtain ⟨m', hm'⟩ := Guarded.halts iCacheConfig dCacheConfig hm hspaced'
  rw [hpath.length_eq] at hm'
  have hsame := Guarded.outcome hm hspaced' hm'
  refine ⟨⟨m', hm', fun r hr => ?_, ?_⟩, cachesSafe_of_runTillHalt hi hi' hd hd' hm'⟩
  · rw [hsame.regData]
    exact hagree.regs r hr
  · rw [hsame.memory]
    exact hagree.mem

/-- The run of `storeFive` keeps the distances. -/
theorem wellSpaced_storeFive :
    Rv64i.WellSpaced storeFive.InRange 2 (walk (reset storeFive) storeFiveInstrs) where
  skipsNone s i h hcontrol :=
    (by decide +kernel : ∀ p ∈ walk (reset storeFive) storeFiveInstrs, ∀ i ∈ p.2,
      i.isControl = true → nextPC p.1 i ≠ p.1.pc + 8) (s, some i) h i rfl hcontrol
  branches := by decide +kernel
  stores := by decide +kernel
  shieldsHalt s h p hp :=
    have hshields : ∀ q ∈ walk (reset storeFive) storeFiveInstrs, q.2 = none →
        ∀ p ∈ walk (reset storeFive) storeFiveInstrs, storeFive.InRange (q.1.pc + 4) 4 ∧
          (loadBytes p.1.mem (q.1.pc + 4) 4).extractLsb' 0 7 ≠ 0b0100011 := by decide +kernel
    .of_opcode (hshields (s, none) h rfl p hp).1 (hshields (s, none) h rfl p hp).2

/-- With latencies of 2 and 3 `storeFive` halts within 153 cycles. -/
theorem pipeline_implements_storeFive :
    ∃ m, runTillHalt accessFault 153 (initSimulator ⟨32, 4, 1, 2⟩ ⟨64, 64, 1, 3⟩ storeFive) =
        some m ∧
      m.simulator.regData.registers 1 = 5 ∧ loadBytes m.simulator.memory.view 256 4 = 5 := by
  have hfuel : ((walk (reset storeFive) storeFiveInstrs).length + 3) *
      (LoopState.progressBound ⟨32, 4, 1, 2⟩ ⟨64, 64, 1, 3⟩ + 1) = 153 := by decide +kernel
  obtain ⟨⟨m, hm, hregs, hmem⟩, -⟩ := @pipeline_implements ⟨32, 4, 1, 2⟩ ⟨64, 64, 1, 3⟩
    (by decide) (by decide) (by decide) (by decide) _ _ _ halts_storeFive wellSpaced_storeFive
  rw [hfuel] at hm
  refine ⟨m, hm, (hregs 1 (by decide)).trans (by decide +kernel), ?_⟩
  rw [hmem]
  decide +kernel

end RvPipeSim
