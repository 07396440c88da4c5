import RvPipeSim.Branches
import RvPipeSim.Exceptions

/-!
# Behind a branch not taken

A branch at `B` that is not taken leaves the fetch from `B + 4` in IF, and the squash test
of ID compares the address of that fetch with `PC - 4`. The PC behind such a branch is set
on two paths. The branch that is decoded and never stalled sets it to `nextPC`, the one
that is resolved again under a hazard to `nextPC + 4` (`pc_of_branch`). Only the second
value passes the test, so the fetch is kept exactly if the branch stalled.
-/

namespace RvPipeSim

open Simulator ObservedRun

namespace LoopState

/-- The branch in ID has been through an unfrozen hazard cycle. -/
def ResolvedAgain (visited : List LoopState) (s : LoopState) : Prop :=
  ∃ u ∈ visited, u.idInst.seq = s.idInst.seq ∧ u.frozen = false ∧ u.stalled = true

variable {fault : Fault} {s : LoopState} {visited : List LoopState}

/-- A branch held in ID has been resolved again if it was before, or if it stalls now. -/
theorem resolvedAgain_of_held (hseq : (cycle fault s).idInst.seq = s.idInst.seq) :
    ResolvedAgain (visited ++ [s]) (cycle fault s) ↔
      ResolvedAgain visited s ∨ s.frozen = false ∧ s.stalled = true := by
  rw [ResolvedAgain, hseq]
  constructor
  · rintro ⟨u, hu, hid, hz, hst⟩
    rcases List.mem_append.mp hu with hu | hu
    · exact .inl ⟨u, hu, hid, hz, hst⟩
    · obtain rfl := List.mem_singleton.mp hu
      exact .inr ⟨hz, hst⟩
  · rintro (⟨u, hu, hid, hz, hst⟩ | ⟨hz, hst⟩)
    · exact ⟨u, List.mem_append_left _ hu, hid, hz, hst⟩
    · exact ⟨s, List.mem_append_right _ (List.mem_singleton.mpr rfl), rfl, hz, hst⟩

/-- What has just been decoded has not been resolved again. -/
theorem not_resolvedAgain_of_decoded {n : ℕ} (hord : Ordered s) (h : BehindID visited s)
    (hn : s.ifInst.seq = some n) (hseq : (cycle fault s).idInst.seq = some n) :
    ¬ ResolvedAgain (visited ++ [s]) (cycle fault s) := by
  rintro ⟨u, hu, hid, -, -⟩
  rw [hseq] at hid
  have hlt : n < n := by
    rcases List.mem_append.mp hu with hu | hu
    · exact (h u hu n hid).2 n hn
    · obtain rfl := List.mem_singleton.mp hu
      exact hord.id_lt_if hid hn
  exact Nat.lt_irrefl n hlt

/-- Where the PC is behind a branch in ID that is not taken. -/
def Sequential (visited : List LoopState) (s : LoopState) : Prop :=
  isBranchOrJump s.idInst = true → s.idInst.nextPC = s.idInst.PC + 4 →
    (ResolvedAgain visited s → s.PC = s.idInst.PC + 8) ∧
      (¬ ResolvedAgain visited s → s.PC = s.idInst.PC + 4)

/-- The PC waits with a branch that a data miss holds. -/
theorem Sequential.of_frozen (hs : Steady s) (h : Sequential visited s) (hz : s.frozen = true)
    (hid : (cycle accessFault s).idInst = s.idForwarded) :
    Sequential (visited ++ [s]) (cycle accessFault s) := by
  intro hbr hnot
  rw [hid, idForwarded_branch] at hbr
  have hPC := (fetch_of_frozen hs.shape hs.flow (Flow.not_excepted_of_branch hbr) hz).2.1
  have hseq : (cycle accessFault s).idInst.seq = s.idInst.seq := by
    rw [hid, s.seq_idForwarded]
  rw [hid, s.idForwarded_nextPC, s.idForwarded_toFetchInfo] at hnot
  rw [resolvedAgain_of_held hseq, hPC, hid, s.idForwarded_toFetchInfo]
  obtain ⟨hagain, hnever⟩ := h hbr hnot
  refine ⟨fun hres => ?_, fun hres => ?_⟩
  · exact hagain (hres.resolve_right fun hthaw => Bool.noConfusion (hthaw.1.symm.trans hz))
  · exact hnever fun hres' => hres (.inl hres')

/-- A branch that stalls and is not taken moves the PC one word past its successor. -/
theorem Sequential.of_stalled (hs : Steady s) (hz : s.frozen = false) (hst : s.stalled = true)
    (hbr : isBranchOrJump s.idInst = true) :
    Sequential (visited ++ [s]) (RvPipeSim.cycle accessFault s) := by
  intro _ hnot
  obtain ⟨-, hid, hPC⟩ :=
    fetch_of_stalled_branch hs.shape hs.flow (Flow.not_excepted_of_branch hbr) hz hst hbr
  have hfetch : (RvPipeSim.cycle accessFault s).idInst.toFetchInfo = s.idInst.toFetchInfo := by
    rw [hid, simNextPCResolution_toFetchInfo, s.idForwarded_toFetchInfo]
  have hagain : ResolvedAgain (visited ++ [s]) (RvPipeSim.cycle accessFault s) :=
    (resolvedAgain_of_held (congrArg FetchInfo.seq hfetch)).mpr (.inr ⟨hz, hst⟩)
  rw [hfetch, hid, simNextPCResolution_nextPC] at hnot
  refine ⟨fun _ => ?_, fun hnever => absurd hagain hnever⟩
  rw [hPC, if_pos hnot, hfetch, BitVec.add_assoc]
  rfl

/-- A branch that has just been decoded sets the PC itself. -/
theorem Sequential.of_decoded (hs : Steady s) (hord : Ordered s) (h : BehindID visited s)
    (hz : s.frozen = false) (hexc : s.excepted = false) (hst : s.stalled = false)
    (hsv : s.starved = false) (hmp : mispredicted s.ifInst s.PC = false) :
    Sequential (visited ++ [s]) (RvPipeSim.cycle accessFault s) := by
  intro hbr hnot
  have hid := cycle_idInst_eq hs.shape hs.flow
  rw [hid] at hbr
  have hPC := (fetch_of_decoded_branch hs.shape hs.flow hexc hz hst hsv hbr).2.1
  rw [← hid] at hPC
  have hseq : (RvPipeSim.cycle accessFault s).idInst.seq = s.ifInst.seq := by
    rw [seq_idInst, hz, hexc, hst, hsv, hmp]
    rfl
  have hnever : ¬ ResolvedAgain (visited ++ [s]) (RvPipeSim.cycle accessFault s) := by
    have hdecoded := (active_of_branch hbr).1
    obtain ⟨n, hn⟩ := Option.isSome_iff_exists.mp
      (hs.cycle.shape.id_of_active (hid ▸ hdecoded)).1.numbered
    exact not_resolvedAgain_of_decoded hord h (hseq.symm.trans hn) hn
  exact ⟨fun hagain => absurd hagain hnever, fun _ => hPC.trans hnot⟩

/-- One cycle keeps the PC behind a branch that is not taken. -/
theorem Sequential.cycle (hs : Steady s) (hord : Ordered s) (hold : BehindID visited s)
    (h : Sequential visited s) : Sequential (visited ++ [s]) (RvPipeSim.cycle accessFault s) := by
  intro hbr
  obtain ⟨-, ⟨hz, hid⟩ | ⟨⟨hz, hexc, hst⟩, hid⟩ | ⟨⟨hz, hexc, hst, hsv, hmp⟩, -⟩⟩ :=
    idInst_of_active (active_of_branch hbr).1
  · exact Sequential.of_frozen hs h hz hid hbr
  · have hbr' : isBranchOrJump s.idInst = true := by
      rw [hid] at hbr
      split at hbr
      · rename_i htest
        rwa [idForwarded_branch] at htest
      · rwa [idForwarded_branch] at hbr
    exact Sequential.of_stalled hs hz hst hbr' hbr
  · exact Sequential.of_decoded hs hord hold hz hexc hst hsv hmp hbr

/-- **Where the PC is behind a branch not taken**, in every run. -/
theorem pc_of_branch {iCacheConfig dCacheConfig : CacheConfig} {mem : MemoryStore}
    (h : PipelineRun accessFault anyCycle iCacheConfig dCacheConfig mem visited s) :
    Sequential visited s := by
  refine (h.historical (fun visited s => Steady s ∧ Ordered s ∧ BehindID visited s ∧
    Sequential visited s) ⟨.init iCacheConfig dCacheConfig mem, .init iCacheConfig dCacheConfig mem,
      fun u hu => absurd hu List.not_mem_nil, fun hbr => Bool.noConfusion hbr⟩ ?_ ?_).2.2.2
  · rintro visited s ⟨hs, hord, hold, hseq⟩ -
    exact ⟨hs.cycle, hord.cycle, hold.cycle hord, hseq.cycle hs hord hold⟩
  · rintro visited s ⟨hs, hord, hold, hseq⟩
    exact ⟨hs.reenter, hord.reenter, hold, hseq⟩

end LoopState

/-- **The fall-through is kept exactly if the branch stalled.** When a branch at `B` leaves
ID not taken, IF holds the fetch from `B + 4`, and that fetch comes to the door of ID. In
all continuations it is decoded there, if and only if the branch went through an unfrozen
hazard cycle in ID. -/
theorem fall_through_kept_iff {iCacheConfig dCacheConfig : CacheConfig} {mem : MemoryStore}
    {visited : List LoopState} {s : LoopState}
    (h : PipelineRun accessFault anyCycle iCacheConfig dCacheConfig mem visited s)
    {branch : Instruction} (hcall : s.exCall = some branch) (hbr : isBranchOrJump branch = true)
    (hnot : branch.nextPC = branch.PC + 4) {n : ℕ} (hn : s.ifInst.seq = some n)
    (hnext : s.ifInst.PC = branch.PC + 4) :
    (∃ visited' t, RunFrom accessFault anyCycle s visited' t ∧ t.ifInst.seq = some n ∧
        t.enters = true) ∧
      ((∀ visited' t, RunFrom accessFault anyCycle s visited' t → t.ifInst.seq = some n →
          t.enters = true → t.idCall = some (enterID t.ifInst)) ↔
        ∃ u ∈ visited, u.idInst.seq = branch.seq ∧ u.frozen = false ∧ u.stalled = true) := by
  have hs := (Steady.of_run h).1
  obtain ⟨hz, hexc, hst, rfl⟩ := LoopState.exCall_eq_some hcall
  rw [LoopState.idForwarded_branch] at hbr
  rw [s.idForwarded_nextPC, s.idForwarded_toFetchInfo] at hnot
  rw [s.idForwarded_toFetchInfo] at hnext ⊢
  have hfetched : s.ifInst.Fetched := hs.shape.ifSlot.resolve_left fun hidle => by
    rw [hidle] at hn
    exact absurd hn (by simp [nop])
  -- the squash test looks at the PC alone
  have hmp : mispredicted s.ifInst s.PC = false ↔ s.PC = s.idInst.PC + 8 := by
    rw [mispredicted, (hs.flow.branch hbr).speculative, hnext, beq_self_eq_true, Bool.true_and,
      bne_eq_false_iff_eq]
    constructor <;> intro hPC <;> bv_omega
  have hPC : mispredicted s.ifInst s.PC = false ↔ LoopState.ResolvedAgain visited s := by
    obtain ⟨hagain, hnever⟩ := LoopState.pc_of_branch h hbr hnot
    refine ⟨fun hkept => ?_, fun hres => hmp.mpr (hagain hres)⟩
    by_contra hres
    have hsame := (hnever hres).symm.trans (hmp.mp hkept)
    exact absurd hsame (by bv_omega)
  obtain ⟨visited', t, hrun, ht, hif, hPC', henters⟩ :=
    LoopState.eventually_enters_behind hs hcall (by rw [hfetched.clear])
  refine ⟨⟨visited', t, hrun, hif ▸ hn, henters⟩, fun hall => ?_, fun hres => ?_⟩
  · refine hPC.mp ?_
    have hid := hall visited' t hrun (hif ▸ hn) henters
    rw [LoopState.idCall, Option.ite_none_left_eq_some, Bool.not_eq_true,
      Bool.or_eq_false_iff] at hid
    rw [← hif, ← hPC']
    exact hid.1.2
  · intro visited' t hrun hn' henters
    have hbehind : Behind s n s := ⟨(Ordered.of_run h).if_lt_fetched hn, .inl ⟨rfl, rfl, hexc, hst⟩⟩
    obtain ⟨hif, hPC'⟩ := (hbehind.of_runFrom hs hrun).2.of_seq hn'
    obtain ⟨hz', hexc', hst', hsv'⟩ := LoopState.enters_iff.mp henters
    rw [LoopState.idCall, hz', hexc', hst', hsv', hif, hPC', hPC.mpr hres]
    rfl

/-- `bne x0, x0, +16; addi x1, x0, 1`: the branch is not taken and does not stall, and the
`addi` behind it is squashed. -/
theorem fall_through_squashed :
    ∃ visited s branch n visited' t,
      PipelineRun accessFault anyCycle (.oneBlock 64) (.oneBlock 64)
        (.image fun | 0 => 0x00001863 | 1 => 0x00100093 | _ => 0xfeedfeed) visited s ∧
      s.exCall = some branch ∧ isBranchOrJump branch = true ∧ branch.opcode = opBranch ∧
      branch.nextPC = branch.PC + 4 ∧ s.ifInst.seq = some n ∧
      s.ifInst.PC = branch.PC + 4 ∧ RunFrom accessFault anyCycle s visited' t ∧
      t.ifInst.seq = some n ∧ t.enters = true ∧
      t.idCall = none ∧ (cycle accessFault t).idInst.status = .squashed := by
  refine ⟨_, _, _, 1, _, _, run_iterate (n := 3) fun _ _ => trivial,
    if_neg (by decide +kernel), ?_, ?_, ?_, ?_, ?_, run_iterate (n := 0) fun _ _ => trivial,
    ?_, ?_, ?_, ?_⟩
  · decide +kernel
  · decide +kernel
  · decide +kernel
  · decide +kernel
  · decide +kernel
  · decide +kernel
  · decide +kernel
  · exact if_pos (by decide +kernel)
  · decide +kernel

/-- `addi x1, x0, 1; bne x1, x1, +16; addi x2, x0, 1`: the branch stalls behind the `addi`,
and the fall-through is kept. -/
theorem fall_through_kept_bne :
    let mem : MemoryStore :=
      .image fun | 0 => 0x00100093 | 1 => 0x00109863 | 2 => 0x00100113 | _ => 0xfeedfeed
    let s := (cycle accessFault)^[5] (enter (initSimulator (.oneBlock 64) (.oneBlock 64) mem))
    ∀ visited' t, RunFrom accessFault anyCycle s visited' t → t.ifInst.seq = some 2 →
      t.enters = true → t.idCall = some (enterID t.ifInst) := by
  intro mem s
  let start := enter (initSimulator (.oneBlock 64) (.oneBlock 64) mem)
  have hrun : PipelineRun accessFault anyCycle (.oneBlock 64) (.oneBlock 64) mem
      ((List.range 5).map fun k => (cycle accessFault)^[k] start) s :=
    run_iterate fun _ _ => trivial
  have hcall : s.exCall = some s.idForwarded := if_neg (by decide +kernel)
  refine (fall_through_kept_iff hrun hcall (by decide +kernel) (by decide +kernel)
    (n := 2) (by decide +kernel) (by decide +kernel)).2.mpr ?_
  exact ⟨(cycle accessFault)^[4] start, List.mem_map.mpr ⟨4, by simp, rfl⟩, by decide +kernel,
    by decide +kernel, by decide +kernel⟩

end RvPipeSim
