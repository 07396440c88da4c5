import RvPipeSim.InOrder
import RvPipeSim.Progress

/-!
# Branches

A branch is resolved when it is decoded, and again in every cycle a hazard holds it in ID.
Forwarding goes on changing its operands in the other cycles. `branch_resolution` says in
which runs a branch leaves ID resolved on the operands that `simEX` receives: exactly those
in which such a cycle never changes the outcome (`BranchFresh`).

The instruction fetched behind a branch is squashed by comparing its address with the PC.
`wrong_path_squashed` says when that works for a taken branch at `B`: for every target but
`B + 8`.

## Main results

* `Synced.cycle` — a fresh cycle keeps the branch in ID in step with its operands;
* `branch_resolution` — in runs of fresh cycles branches are resolved on the right operands,
  and a cycle that is not fresh breaks that;
* `WrongPath.of_runFrom` — what becomes of the word fetched behind a taken branch;
* `wrong_path_squashed` — it is squashed exactly if the target is not `B + 8`.
-/

namespace RvPipeSim

open Simulator ObservedRun

namespace LoopState

/-! ### Resolution -/

/-- The instruction in EX writes a register that the one in ID reads. -/
def producerInEX (s : LoopState) : Bool :=
  s.idInst.readsRs1 && s.exInst.forwards s.idInst.rs1 ||
    s.idInst.readsRs2 && s.exInst.forwards s.idInst.rs2

/-- If a branch sits in ID, no older instruction in EX writes its operands, and this cycle
does not resolve it again, then what MEM forwards leaves its outcome as it is. -/
def BranchFresh (s : LoopState) : Prop :=
  isBranchOrJump s.idInst = true → s.producerInEX = false →
    (s.frozen = true ∨ s.stalled = false) → resolvedPC s.idForwarded = resolvedPC s.idInst

instance (s : LoopState) : Decidable s.BranchFresh :=
  inferInstanceAs (Decidable (_ → _ → _ ∨ _ → _))

/-- A branch in ID whose operands EX does not owe is resolved on the operands it holds. -/
def Synced (s : LoopState) : Prop :=
  isBranchOrJump s.idInst = true → s.producerInEX = false → s.idInst.nextPC = resolvedPC s.idInst

variable {s : LoopState}

/-- A branch is resolved when it is decoded. -/
theorem resolved_of_decoded (sim : Simulator) {inst : Instruction} (h : inst.Fetched)
    (hbr : isBranchOrJump (sim.simID (enterID inst)).1 = true) :
    (sim.simID (enterID inst)).1.nextPC = resolvedPC (sim.simID (enterID inst)).1 := by
  obtain ⟨-, hlegal, hop⟩ := active_of_branch hbr
  rw [enterID_of_fetched h] at hlegal hop ⊢
  have hclear : ({ inst with status := .normal } : Instruction).toDecodeInfo = {} := by
    rw [h.clear]
  have hactive : ({ inst with status := .normal } : Instruction).active = true := by
    rw [h.clear]
    rfl
  rw [simID_of_fresh hclear hactive] at hlegal hop ⊢
  split
  · rename_i hstop
    rw [if_pos hstop] at hlegal hop
    rw [Bool.or_eq_true, Bool.not_eq_true'] at hstop
    rcases hstop with hhalt | hill
    · have hnb := ((decodeOf_wellFormed inst.instruction).halt hhalt).2.2.2
      exact Bool.noConfusion (hop.symm.trans hnb)
    · exact Bool.noConfusion (hlegal.symm.trans hill)
  · rfl

/-- **One cycle keeps branches in step with their operands**, if it is a fresh one. -/
theorem Synced.cycle (h : Shape s) (hf : Flow s) (hs : s.Synced) (hfresh : s.BranchFresh) :
    (RvPipeSim.cycle accessFault s).Synced := by
  intro hbr hproducer
  obtain ⟨-, ⟨hz, heq⟩ | ⟨⟨hz, hexc, hst⟩, heq⟩ | ⟨⟨hz, hexc, hst, hsv, hmp⟩, heq⟩⟩ :=
    idInst_of_active (active_of_branch hbr).1
  · have hex : (RvPipeSim.cycle accessFault s).exInst = s.exInst := by
      rw [cycle_exInst_eq h hf, exOut_of_frozen hz]
    rw [producerInEX, heq, hex, s.idForwarded_toDecodeInfo] at hproducer
    rw [heq, idForwarded_branch] at hbr
    rw [heq, s.idForwarded_nextPC, hs hbr hproducer, hfresh hbr hproducer (.inl hz)]
  · have hbr' : isBranchOrJump s.idForwarded = true := by
      by_contra hno
      rw [heq, if_neg hno] at hbr
      exact hno hbr
    rw [heq, if_pos hbr']
    rfl
  · rw [heq] at hbr ⊢
    rcases h.ifSlot with hidle | hfetched
    · rw [hidle] at hbr
      exact Bool.noConfusion hbr
    · exact resolved_of_decoded _ hfetched hbr

/-- A branch that leaves ID has no producer left in EX. -/
theorem producerInEX_of_moving (h : Shape s) (hst : s.stalled = false)
    (hbr : isBranchOrJump s.idInst = true) : s.producerInEX = false := by
  by_contra hproducer
  rw [Bool.not_eq_false, producerInEX, Bool.or_eq_true, Bool.and_eq_true,
    Bool.and_eq_true] at hproducer
  rw [stalled_of_producer h hbr hproducer] at hst
  exact Bool.noConfusion hst

/-- A branch that leaves ID is resolved on the operands `simEX` gets if and only if the
cycle is a fresh one. -/
theorem resolved_iff_fresh (h : Shape s) (hs : s.Synced) {inst : Instruction}
    (hcall : s.exCall = some inst) (hbr : isBranchOrJump inst = true) :
    inst.nextPC = (simNextPCResolution inst).nextPC ↔ s.BranchFresh := by
  obtain ⟨-, -, hst, rfl⟩ := exCall_eq_some hcall
  rw [idForwarded_branch] at hbr
  have hproducer := producerInEX_of_moving h hst hbr
  have hnext : s.idForwarded.nextPC = resolvedPC s.idInst :=
    (forwardToID_nextPC _ _ _).trans (hs hbr hproducer)
  rw [simNextPCResolution_nextPC, hnext]
  exact ⟨fun heq _ _ _ => heq.symm, fun hfresh => (hfresh hbr hproducer (.inr hst)).symm⟩

/-- A branch that leaves ID is the one the PC was last redirected by. -/
theorem redirected_of_exCall (hf : Flow s) {inst : Instruction}
    (hcall : s.exCall = some inst) (hbr : isBranchOrJump inst = true) :
    s.PC = inst.nextPC ∨ inst.nextPC = inst.PC + 4 ∧ s.PC = inst.nextPC + 4 := by
  obtain ⟨-, -, -, rfl⟩ := exCall_eq_some hcall
  rw [idForwarded_branch] at hbr
  have hPC : s.idForwarded.PC = s.idInst.PC := by
    rw [idForwarded, forwardToID_toFetchInfo]
  rw [hPC, s.idForwarded_nextPC]
  exact (hf.branch hbr).PC.imp_right fun h => ⟨h.1, h.2.1⟩

end LoopState

section Resolution

variable {iCacheConfig dCacheConfig : CacheConfig} {mem : MemoryStore}
  {visited : List LoopState} {s : LoopState}

/-- Branches are in step with their operands in every run of fresh cycles. -/
theorem LoopState.Synced.of_run
    (h : PipelineRun accessFault BranchFresh iCacheConfig dCacheConfig mem visited s) :
    Shape s ∧ Flow s ∧ s.Synced :=
  (h.invariant (fun s => Shape s ∧ Flow s ∧ s.Synced)
    ⟨.init iCacheConfig dCacheConfig mem, .init iCacheConfig dCacheConfig mem,
      fun hbr => Bool.noConfusion hbr⟩
    (fun _ hs hfresh => ⟨hs.1.cycle, Flow.cycle hs.1 hs.2.1, hs.2.2.cycle hs.1 hs.2.1 hfresh⟩)
    (fun _ hs => ⟨hs.1.reenter, hs.2.1.reenter, hs.2.2⟩)).1

/-- **Branches are resolved on the right operands in runs of fresh cycles, and in no
others.** In a run whose cycles are all fresh, every branch handed to `simEX` carries the
`nextPC` that its forwarded operands resolve to, and the PC was last redirected by it; and
a branch handed to `simEX` in the next cycle does so exactly if that cycle is fresh. -/
theorem branch_resolution
    (h : PipelineRun accessFault LoopState.BranchFresh iCacheConfig dCacheConfig mem visited s) :
    (∀ t ∈ visited, ∀ inst, t.exCall = some inst → isBranchOrJump inst = true →
      inst.nextPC = (simNextPCResolution inst).nextPC ∧
        (t.PC = inst.nextPC ∨ inst.nextPC = inst.PC + 4 ∧ t.PC = inst.nextPC + 4)) ∧
      (∀ inst, s.exCall = some inst → isBranchOrJump inst = true →
        (inst.nextPC = (simNextPCResolution inst).nextPC ↔ s.BranchFresh)) := by
  refine ⟨fun t ht inst hcall hbr => ?_, fun inst hcall hbr => ?_⟩
  · obtain ⟨before, after, rfl⟩ := List.append_of_mem ht
    obtain ⟨hbefore, hfresh, -⟩ := h.split
    obtain ⟨hshape, hflow, hsynced⟩ := LoopState.Synced.of_run hbefore
    exact ⟨(LoopState.resolved_iff_fresh hshape hsynced hcall hbr).mpr hfresh,
      LoopState.redirected_of_exCall hflow hcall hbr⟩
  · obtain ⟨hshape, -, hsynced⟩ := LoopState.Synced.of_run h
    exact LoopState.resolved_iff_fresh hshape hsynced hcall hbr

end Resolution

/-- `addi x1, x0, 1; nop; beq x1, x0, +16`: the branch is resolved on the old `x1` and is
never resolved again, so it leaves ID taken although its operands differ. -/
theorem branch_resolution_stale :
    ∃ visited s inst,
      PipelineRun accessFault anyCycle (.oneBlock 64) (.oneBlock 64)
        (.image fun | 0 => 0x00100093 | 1 => 0x00000013 | 2 => 0x00008863 | _ => 0x00000013)
        visited s ∧
      s.exCall = some inst ∧ isBranchOrJump inst = true ∧
      inst.nextPC ≠ (simNextPCResolution inst).nextPC := by
  refine ⟨_, _, _, run_iterate (n := 5) fun _ _ => trivial, if_neg (by decide +kernel), ?_, ?_⟩
  · decide +kernel
  · decide +kernel

/-- `addi x1, x0, 1; beq x1, x0, +16` runs in fresh cycles: the hazard resolves the branch
again. -/
theorem branch_resolution_adjacent :
    let mem : MemoryStore := .image fun | 0 => 0x00100093 | 1 => 0x00008863 | _ => 0x00000013
    let start := enter (initSimulator (.oneBlock 64) (.oneBlock 64) mem)
    let s := (cycle accessFault)^[5] start
    (s.exCall.map isBranchOrJump = some true) ∧
      (∀ inst, s.exCall = some inst → isBranchOrJump inst = true →
        (inst.nextPC = (simNextPCResolution inst).nextPC ↔ s.BranchFresh)) := by
  intro mem start s
  have hrun : PipelineRun accessFault LoopState.BranchFresh (.oneBlock 64) (.oneBlock 64) mem
      ((List.range 5).map fun k => (cycle accessFault)^[k] start) s :=
    run_iterate (by decide +kernel)
  exact ⟨by decide +kernel, (branch_resolution hrun).2⟩

/-! ### The instruction behind a taken branch -/

namespace LoopState

variable {s : LoopState}

/-- What is handed to `simID` was in IF, and ID did not find it mispredicted. -/
theorem number_of_idCall {n : ℕ} (h : s.callNumber .simID = some n) :
    s.ifInst.seq = some n ∧ mispredicted s.ifInst s.PC = false := by
  rw [callNumber, call, callLabel_idCall, Option.ite_none_left_eq_some, Bool.not_eq_true,
    Bool.or_eq_false_iff] at h
  obtain ⟨⟨-, hmp⟩, hn⟩ := h
  rw [Instruction.live, Option.ite_none_left_eq_some] at hn
  exact ⟨hn.2, hmp⟩

/-- Behind a branch taken from `B`, the fetch from `B + 4` is speculative, and the squash
test tells it from the target for every target but `B + 8`. -/
theorem mispredicted_iff (hf : Flow s) {branch : Instruction}
    (hcall : s.exCall = some branch) (hbr : isBranchOrJump branch = true)
    (htaken : branch.nextPC ≠ branch.PC + 4) (hnext : s.ifInst.PC = branch.PC + 4) :
    s.ifInst.status = .speculative ∧
      (mispredicted s.ifInst s.PC = true ↔ branch.nextPC ≠ branch.PC + 8) := by
  have hPC : s.PC = branch.nextPC :=
    (redirected_of_exCall hf hcall hbr).resolve_right fun h => htaken h.1
  obtain ⟨-, -, -, rfl⟩ := exCall_eq_some hcall
  rw [idForwarded_branch] at hbr
  have hspec := (hf.branch hbr).speculative
  refine ⟨hspec, ?_⟩
  rw [mispredicted, hspec, hnext, hPC, beq_self_eq_true, Bool.true_and, bne_iff_ne]
  have htarget : ∀ b target : BitVec 64, b + 4 = target - 4 ↔ target = b + 8 := by
    intro b target
    constructor
    · intro h
      bv_omega
    · intro h
      bv_omega
  exact not_congr (htarget _ _)

end LoopState

/-- The number `n`, in IF when a branch left ID in the cycle from `s`, waits behind a miss,
or IF has moved on. -/
structure Behind (s : LoopState) (n : ℕ) (t : LoopState) : Prop where
  fetched : n < t.fetched
  /-- IF still holds it and the PC is where the branch went, or IF has moved on. -/
  held : (t.ifInst = s.ifInst ∧ t.PC = s.PC ∧ t.excepted = false ∧ t.stalled = false) ∨
    ∃ m, t.ifInst.seq = some m ∧ n < m

namespace Behind

variable {s t : LoopState} {n : ℕ}

/-- IF keeps the number behind a miss, and the PC with it. -/
theorem cycle (h : Behind s n t) (ht : Steady t) :
    Behind s n (RvPipeSim.cycle accessFault t) where
  fetched := by
    rw [t.fetched_cycle accessFault]
    exact Nat.lt_of_lt_of_le h.fetched (Nat.le_add_right _ _)
  held := by
    cases hfetch : t.refetched accessFault
    · have hif := (LoopState.cycle_of_not_refetched accessFault t hfetch).2
      rcases h.held with ⟨hif', hPC, hexc, hst⟩ | hnew
      · have hmiss : (t.frozen || t.starved) = true := by
          rw [LoopState.refetched, hst, Bool.or_eq_false_iff] at hfetch
          revert hfetch
          cases t.frozen <;> cases t.starved <;> simp
        obtain ⟨hif'', hPC', hheld⟩ := LoopState.held_of_miss ht hexc hst hmiss
        exact .inl ⟨hif''.trans hif', hPC'.trans hPC, hheld⟩
      · exact .inr (hif ▸ hnew)
    · obtain ⟨-, PC, status, -, hif⟩ := LoopState.cycle_of_refetched accessFault t hfetch
      exact .inr ⟨t.fetched, by rw [hif]; rfl, h.fetched⟩

/-- Entering `runCycles` again fetches nothing. -/
theorem reenter (h : Behind s n t) : Behind s n (RvPipeSim.reenter t) := ⟨h.fetched, h.held⟩

/-- Whatever follows, the number is waiting in IF or gone. -/
theorem of_runFrom {ok : LoopState → Prop} {visited : List LoopState} (hs : Steady s)
    (h : Behind s n s) (hrun : RunFrom accessFault ok s visited t) :
    Steady t ∧ Behind s n t := by
  refine (hrun.invariant (fun t => Steady t ∧ Behind s n t) ⟨hs, h⟩ ?_ ?_).1
  · rintro t ⟨ht, hbehind⟩ -
    exact ⟨ht.cycle, hbehind.cycle ht⟩
  · rintro t ⟨ht, hbehind⟩
    exact ⟨ht.reenter, hbehind.reenter⟩

/-- While IF holds the number, it holds it as in `s`. -/
theorem of_seq (h : Behind s n t) (hn : t.ifInst.seq = some n) :
    t.ifInst = s.ifInst ∧ t.PC = s.PC := by
  rcases h.held with ⟨hif, hPC, -, -⟩ | ⟨m, hm, hlt⟩
  · exact ⟨hif, hPC⟩
  · obtain rfl : n = m := Option.some.inj (hn.symm.trans hm)
    exact absurd hlt (Nat.lt_irrefl n)

end Behind

/-- What is known of the number `n`, in IF when a taken branch left ID in the cycle from
`s`, after the further cycles `visited`. -/
structure WrongPath (s : LoopState) (n : ℕ) (visited : List LoopState) (t : LoopState) :
    Prop where
  fetched : n < t.fetched
  /-- No stage function was called on it. -/
  unseen : ∀ stage, n ∉ callLog visited stage
  ahead : ∀ inst ∈ t.downstream .simID, inst.number ≠ some n
  /-- IF still holds it and the PC is where the branch went, or IF has moved on. -/
  held : (t.ifInst = s.ifInst ∧ t.PC = s.PC ∧ t.excepted = false ∧ t.stalled = false) ∨
    ∃ m, t.ifInst.seq = some m ∧ n < m

namespace WrongPath

variable {s t : LoopState} {n : ℕ} {visited : List LoopState}

/-- In the cycle in which the branch leaves ID the number is in IF. -/
theorem init (hi : InOrder visited s) (hexc : s.excepted = false) (hst : s.stalled = false)
    (hn : s.ifInst.number = some n) : WrongPath s n [] s where
  fetched := hi.bounded .simID n (List.mem_append_right _ (by simp [LoopState.upstream, hn]))
  unseen _ := List.not_mem_nil
  ahead inst hinst hnum := by
    have hlog := hi.passed .simID inst hinst n hnum
    have hsorted := (List.pairwise_append.mp (hi.sorted .simID)).2.2 n hlog n
      (by simp [LoopState.upstream, hn])
    exact Nat.lt_irrefl n hsorted
  held := .inl ⟨rfl, rfl, hexc, hst⟩

/-- ID takes only what it does not find mispredicted. -/
theorem not_decoded (h : WrongPath s n visited t) (hmp : mispredicted s.ifInst s.PC = true) :
    t.callNumber .simID ≠ some n := by
  intro hcall
  obtain ⟨hn, hmp'⟩ := LoopState.number_of_idCall hcall
  rcases h.held with ⟨hif, hPC, -, -⟩ | ⟨m, hm, hlt⟩
  · rw [hif, hPC, hmp] at hmp'
    exact Bool.noConfusion hmp'
  · obtain rfl : n = m := Option.some.inj (hn.symm.trans hm)
    exact Nat.lt_irrefl n hlt

/-- A number that ID squashes is handed to no stage in the cycle from `t`. -/
theorem not_called (h : WrongPath s n visited t) (hmp : mispredicted s.ifInst s.PC = true)
    (stage : Stage) : t.callNumber stage ≠ some n := by
  have hbehind : ∀ stage', Stage.rank .simID < stage'.rank → t.callNumber stage' ≠ some n := by
    intro stage' hrank hcall
    obtain ⟨inst, hinst, hn⟩ := LoopState.downstream_of_call hrank hcall
    exact h.ahead inst hinst hn
  cases stage with
  | simID => exact h.not_decoded hmp
  | simEX => exact hbehind .simEX (by decide)
  | simMEM => exact hbehind .simMEM (by decide)
  | simWB => exact hbehind .simWB (by decide)

/-- What is known of the number includes where it waits. -/
theorem behind (h : WrongPath s n visited t) : Behind s n t := ⟨h.fetched, h.held⟩

/-- One cycle more on the wrong path: a miss keeps the number in IF, or ID squashes it. -/
theorem cycle (h : WrongPath s n visited t) (ht : Steady t)
    (hmp : mispredicted s.ifInst s.PC = true) :
    WrongPath s n (visited ++ [t]) (RvPipeSim.cycle accessFault t) where
  fetched := (h.behind.cycle ht).fetched
  unseen stage hmem := by
    rcases mem_callLog_concat.mp hmem with hold | hnow
    · exact h.unseen stage hold
    · exact h.not_called hmp stage hnow
  ahead inst hinst hn := by
    rcases LoopState.downstream_cycle hinst hn with ⟨inst', hinst', hn'⟩ | hcall
    · exact h.ahead inst' hinst' hn'
    · exact h.not_decoded hmp hcall
  held := (h.behind.cycle ht).held

/-- The number stays where it is, or goes, in every continuation. -/
theorem of_runFrom {ok : LoopState → Prop} (hs : Steady s) (h : WrongPath s n [] s)
    (hmp : mispredicted s.ifInst s.PC = true)
    (hrun : RunFrom accessFault ok s visited t) : Steady t ∧ WrongPath s n visited t := by
  refine hrun.historical (fun visited t => Steady t ∧ WrongPath s n visited t) ⟨hs, h⟩ ?_ ?_
  · rintro visited t ⟨ht, hwrong⟩ -
    exact ⟨ht.cycle, hwrong.cycle ht hmp⟩
  · rintro visited t ⟨ht, hwrong⟩
    exact ⟨ht.reenter, hwrong.fetched, hwrong.unseen, hwrong.ahead, hwrong.held⟩

end WrongPath

/-- What is behind a branch that leaves ID enters ID later, as IF and the PC are now. -/
theorem LoopState.eventually_enters_behind {s : LoopState} (h : Steady s)
    {branch : Instruction} (hcall : s.exCall = some branch) (hword : s.ifInst.isNop = false) :
    ∃ visited t, RunFrom accessFault anyCycle s visited t ∧ Steady t ∧ t.ifInst = s.ifInst ∧
      t.PC = s.PC ∧ t.enters = true := by
  obtain ⟨hz, hexc, hst, -⟩ := exCall_eq_some hcall
  cases hsv : s.starved
  · exact ⟨[], s, .refl, h, rfl, rfl, enters_iff.mpr ⟨hz, hexc, hst, hsv⟩⟩
  · have hid : (cycle accessFault s).idInst.active = false := by
      rw [cycle_idInst_eq h.shape h.flow, idOut_of_starved _ hz hexc hst hsv]
      rfl
    obtain ⟨hif, hPC⟩ := fetch_of_starved h.shape h.flow hexc hst hsv
    obtain ⟨visited, t, hrun, ⟨ht, -, hif', hPC'⟩, henters⟩ :=
      eventually_enters h.cycle hid (hif ▸ hword)
    have hfirst : RunFrom accessFault anyCycle s [s] (cycle accessFault s) :=
      .next .refl trivial
    exact ⟨_, t, hfirst.trans hrun, ht, hif'.trans hif, hPC'.trans hPC, henters⟩

/-- **A wrong-path instruction is squashed exactly if the branch does not go to `B + 8`.**
When a branch at `B` leaves ID taken, IF holds a speculative fetch from `B + 4`. In all
continuations ID replaces it by a squashed bubble when it would enter, and no stage
function is called on it, if and only if the target of the branch is not `B + 8`. -/
theorem wrong_path_squashed {iCacheConfig dCacheConfig : CacheConfig} {mem : MemoryStore}
    {visited : List LoopState} {s : LoopState}
    (h : PipelineRun accessFault anyCycle iCacheConfig dCacheConfig mem visited s)
    {branch : Instruction} (hcall : s.exCall = some branch) (hbr : isBranchOrJump branch = true)
    (htaken : branch.nextPC ≠ branch.PC + 4) {n : ℕ} (hn : s.ifInst.seq = some n)
    (hnext : s.ifInst.PC = branch.PC + 4) :
    s.ifInst.status = .speculative ∧
      ((∀ visited' t, RunFrom accessFault anyCycle s visited' t →
          (t.ifInst.seq = some n → t.enters = true →
            (cycle accessFault t).idInst = nop .squashed) ∧
          ∀ stage, n ∉ callLog visited' stage) ↔
        branch.nextPC ≠ branch.PC + 8) := by
  have hs := (Steady.of_run h).1
  obtain ⟨hspec, hiff⟩ := LoopState.mispredicted_iff hs.flow hcall hbr htaken hnext
  refine ⟨hspec, ?_, fun htarget => ?_⟩
  · -- otherwise the instruction enters ID, and is decoded there
    intro hall
    rw [← hiff]
    by_contra hmp
    rw [Bool.not_eq_true] at hmp
    have hfetched : s.ifInst.Fetched := hs.shape.ifSlot.resolve_left fun hidle => by
      rw [hidle] at hn
      exact absurd hn (by simp [nop])
    obtain ⟨visited', t, hrun, ht, hif, hPC, henters⟩ :=
      LoopState.eventually_enters_behind hs hcall (by rw [hfetched.clear])
    have hsquashed := (hall visited' t hrun).1 (hif ▸ hn) henters
    obtain ⟨hz, hexc, hst, hsv⟩ := LoopState.enters_iff.mp henters
    have hseq : (cycle accessFault t).idInst.seq = some n := by
      rw [LoopState.cycle_idInst_eq ht.shape ht.flow,
        LoopState.idOut_of_decoding _ hz hexc hst hsv (by rw [hif, hPC, hmp]), simID_toFetchInfo,
        hif, enterID_of_fetched hfetched]
      exact hn
    rw [hsquashed] at hseq
    exact absurd hseq (by simp [nop])
  · intro visited' t hrun
    have hmp := hiff.mpr htarget
    have hnumber : s.ifInst.number = some n := by
      rw [Instruction.number, Instruction.live, hspec]
      exact hn
    obtain ⟨-, hexc, hst, -⟩ := LoopState.exCall_eq_some hcall
    obtain ⟨ht, hwrong⟩ :=
      WrongPath.of_runFrom hs (.init (InOrder.of_run h) hexc hst hnumber) hmp hrun
    refine ⟨fun hn' henters => ?_, hwrong.unseen⟩
    obtain ⟨hz, hexc', hst', hsv⟩ := LoopState.enters_iff.mp henters
    obtain ⟨hif, hPC⟩ := hwrong.behind.of_seq hn'
    rw [LoopState.cycle_idInst_eq ht.shape ht.flow,
      LoopState.idOut_of_mispredicted _ hz hexc' hst' hsv (by rw [hif, hPC, hmp])]

/-- `jal x0, +8; addi x1, x0, 1`: the `addi` behind the jump, which goes to the word after
it, is handed to every stage function. -/
theorem wrong_path_retired :
    ∃ visited s branch n visited' t,
      PipelineRun accessFault anyCycle (.oneBlock 64) (.oneBlock 64)
        (.image fun | 0 => 0x0080006f | 1 => 0x00100093 | _ => 0xfeedfeed) visited s ∧
      s.exCall = some branch ∧ isBranchOrJump branch = true ∧
      branch.nextPC ≠ branch.PC + 4 ∧ s.ifInst.seq = some n ∧
      s.ifInst.status = .speculative ∧ s.ifInst.PC = branch.PC + 4 ∧
      RunFrom accessFault anyCycle s visited' t ∧ ∀ stage, n ∈ callLog visited' stage := by
  refine ⟨_, _, _, 1, _, _, run_iterate (n := 3) fun _ _ => trivial,
    if_neg (by decide +kernel), ?_, ?_, ?_, ?_, ?_, run_iterate (n := 4) fun _ _ => trivial, ?_⟩
  · decide +kernel
  · decide +kernel
  · decide +kernel
  · decide +kernel
  · decide +kernel
  · rintro (_ | _ | _ | _) <;> decide +kernel

/-- `jal x0, +16; addi x1, x0, 1`: the `addi` never reaches a stage function. -/
theorem wrong_path_squashed_jal :
    let mem : MemoryStore := .image fun | 0 => 0x0100006f | 1 => 0x00100093 | _ => 0xfeedfeed
    let s := (cycle accessFault)^[3] (enter (initSimulator (.oneBlock 64) (.oneBlock 64) mem))
    ∀ visited' t, RunFrom accessFault anyCycle s visited' t →
      (t.ifInst.seq = some 1 → t.enters = true →
        (cycle accessFault t).idInst = nop .squashed) ∧
      ∀ stage, 1 ∉ callLog visited' stage := by
  intro mem s
  have hrun : PipelineRun accessFault anyCycle (.oneBlock 64) (.oneBlock 64) mem _ s :=
    run_iterate fun _ _ => trivial
  have hcall : s.exCall = some s.idForwarded := if_neg (by decide +kernel)
  exact (wrong_path_squashed hrun hcall (by decide +kernel) (by decide +kernel)
    (n := 1) (by decide +kernel) (by decide +kernel)).2.mpr (by decide +kernel)

end RvPipeSim
