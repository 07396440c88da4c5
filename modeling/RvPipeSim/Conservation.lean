import RvPipeSim.InOrder
import RvPipeSim.Progress

/-!
# What goes in comes out

Without faults the conservation law between two neighbouring stages is an equation: what
a slot held, followed by what the stage in front of it was called on, is what the stage
behind it was called on, followed by what the slot holds now. This module takes it from
one cycle to a run, for any label of fetched instructions (`labelLog`).

An illegal instruction leaves ID without being handed on, so the equation for ID is about
labels that illegal instructions do not carry.
-/

namespace RvPipeSim

open Simulator ObservedRun

/-- The labels handed to a stage function in the cycles from `visited`. -/
def labelLog {α : Type*} (a : FetchInfo → Option α) (visited : List LoopState) (stage : Stage) :
    List α :=
  visited.filterMap fun s => LoopState.callLabel a (s.call stage)

section Conservation

variable {α : Type*} {a : FetchInfo → Option α}

/-- The log of a stage grows by the label it is handed. -/
theorem labelLog_concat (visited : List LoopState) (s : LoopState) (stage : Stage) :
    labelLog a (visited ++ [s]) stage =
      labelLog a visited stage ++ (LoopState.callLabel a (s.call stage)).toList := by
  rw [labelLog, List.filterMap_append]
  cases h : LoopState.callLabel a (s.call stage) <;> simp [labelLog, h]

/-- Two equal conservation laws make one for a run. -/
theorem conserved_step {held given taken held₁ given₁ taken₁ held₂ : List α}
    (hrun : held ++ given = taken ++ held₁) (hcycle : taken₁ ++ held₂ = held₁ ++ given₁) :
    held ++ (given ++ given₁) = taken ++ taken₁ ++ held₂ :=
  calc held ++ (given ++ given₁) = (held ++ given) ++ given₁ := (List.append_assoc _ _ _).symm
    _ = taken ++ (held₁ ++ given₁) := by rw [hrun, List.append_assoc]
    _ = taken ++ taken₁ ++ held₂ := by rw [← hcycle, List.append_assoc]

variable {ok : LoopState → Prop} {s t : LoopState} {visited : List LoopState}

/-- What MEM held and took in went out to WB, or is in MEM. -/
theorem conserved_memInst (hs : Steady s) (hrun : RunFrom accessFault ok s visited t) :
    (s.memInst.live a).toList ++ labelLog a visited .simMEM =
      labelLog a visited .simWB ++ (t.memInst.live a).toList := by
  refine (hrun.historical (fun visited t => Steady t ∧
    (s.memInst.live a).toList ++ labelLog a visited .simMEM =
      labelLog a visited .simWB ++ (t.memInst.live a).toList)
    ⟨hs, List.append_nil _⟩ ?_ fun _ _ h => ⟨h.1.reenter, h.2⟩).2
  rintro visited t ⟨ht, heq⟩ -
  refine ⟨ht.cycle, ?_⟩
  rw [labelLog_concat, labelLog_concat]
  exact conserved_step heq
    (LoopState.shift_memInst a accessFault t (LoopState.memExc_eq_false ht.shape ht.flow))

variable (ha : a (nop .idle).toFetchInfo = none)

include ha

/-- What EX held and took in went out to MEM, or is in EX. -/
theorem conserved_exInst (hs : Steady s) (hrun : RunFrom accessFault ok s visited t) :
    (s.exInst.live a).toList ++ labelLog a visited .simEX =
      labelLog a visited .simMEM ++ (t.exInst.live a).toList := by
  refine (hrun.historical (fun visited t => Steady t ∧
    (s.exInst.live a).toList ++ labelLog a visited .simEX =
      labelLog a visited .simMEM ++ (t.exInst.live a).toList)
    ⟨hs, List.append_nil _⟩ ?_ fun _ _ h => ⟨h.1.reenter, h.2⟩).2
  rintro visited t ⟨ht, heq⟩ -
  refine ⟨ht.cycle, ?_⟩
  rw [labelLog_concat, labelLog_concat]
  exact conserved_step heq
    (LoopState.shift_exInst a ha accessFault t (LoopState.flush_eq_false ht.shape ht.flow))

/-- What ID held and took in went out to EX, or is in ID, illegal instructions aside. -/
theorem conserved_idInst (hillegal : ∀ f, (decodeOf f.instruction).isLegal = false → a f = none)
    (hs : Steady s) (hrun : RunFrom accessFault ok s visited t) :
    (s.idInst.live a).toList ++ labelLog a visited .simID =
      labelLog a visited .simEX ++ (t.idInst.live a).toList := by
  refine (hrun.historical (fun visited t => Steady t ∧
    (s.idInst.live a).toList ++ labelLog a visited .simID =
      labelLog a visited .simEX ++ (t.idInst.live a).toList)
    ⟨hs, List.append_nil _⟩ ?_ fun _ _ h => ⟨h.1.reenter, h.2⟩).2
  rintro visited t ⟨ht, heq⟩ -
  refine ⟨ht.cycle, ?_⟩
  rw [labelLog_concat, labelLog_concat]
  refine conserved_step heq (LoopState.shift_idInst a ha accessFault t
    (LoopState.flush_eq_false ht.shape ht.flow) fun hexc => ?_)
  obtain ⟨hlegal, hactive, -⟩ := LoopState.illegal_of_excepted hexc
  rw [Instruction.live, hillegal, ite_self]
  rw [← (ht.shape.id_of_active hactive).1.decode]
  exact hlegal

end Conservation

/-! ### What retires -/

/-- The label of what retires: a fetched instruction that is legal. -/
def legalFetch (f : FetchInfo) : Option FetchInfo :=
  if f.seq.isSome && (decodeOf f.instruction).isLegal then some f else none

/-- The addresses of the instructions that retire in the cycles from `visited`. -/
def retiredPCs (visited : List LoopState) : List (BitVec 64) :=
  (labelLog legalFetch visited .simWB).map FetchInfo.PC

/-- Padding has no label. -/
theorem legalFetch_nop : legalFetch (nop .idle).toFetchInfo = none := rfl

/-- What has the label is legal, and the label is the fetch itself. -/
theorem legalFetch_eq_some {f g : FetchInfo} (h : legalFetch f = some g) :
    g = f ∧ (decodeOf f.instruction).isLegal = true := by
  rw [legalFetch] at h
  split at h
  · rename_i htest
    rw [Bool.and_eq_true] at htest
    exact ⟨(Option.some.inj h).symm, htest.2⟩
  · exact absurd h (by simp)

/-- An illegal word has no label. -/
theorem legalFetch_of_illegal (f : FetchInfo) (h : (decodeOf f.instruction).isLegal = false) :
    legalFetch f = none := by
  rw [legalFetch, h, Bool.and_false, if_neg Bool.false_ne_true]

section Retired

variable {s t : LoopState}

/-- An illegal instruction in ID will not retire. -/
theorem live_of_excepted (hs : Steady s) (hexc : s.excepted = true) :
    s.idInst.live legalFetch = none := by
  obtain ⟨hlegal, hactive, -⟩ := LoopState.illegal_of_excepted hexc
  rw [Instruction.live, legalFetch_of_illegal, ite_self]
  rw [← (hs.shape.id_of_active hactive).1.decode]
  exact hlegal

/-- A HALT word that is not squashed is a HALT. -/
theorem isHalt_of_live {inst : Instruction} (h : inst.IsPadding ∨ inst.Passed) {f : FetchInfo}
    (hf : inst.live legalFetch = some f) (hword : f.instruction = haltWord) :
    inst.isHalt = true := by
  rw [Instruction.live, Option.ite_none_left_eq_some] at hf
  obtain ⟨rfl, -⟩ := legalFetch_eq_some hf.2
  rcases h with ⟨status, rfl⟩ | hpassed
  · exact absurd hf.2 (by simp [legalFetch, nop])
  · rw [hpassed.decode, hword]
    rfl

/-- What the cycles that do not halt retire are no HALTs. -/
theorem not_halt_of_retired {visited : List LoopState} (hs : Steady s)
    (hrun : RunFrom accessFault (fun u => u.halts accessFault = false) s visited t)
    {f : FetchInfo} (hf : f ∈ labelLog legalFetch visited .simWB) :
    f.instruction ≠ haltWord := by
  intro hword
  obtain ⟨u, hu, hlabel⟩ := List.mem_filterMap.mp hf
  rw [LoopState.call, LoopState.callLabel_wbCall, Option.ite_none_left_eq_some,
    Bool.not_eq_true] at hlabel
  have hshape := ((Steady.of_runFrom hs hrun).2 u hu).shape
  have hhalts : u.halts accessFault = true := by
    rw [LoopState.halts_eq _ hlabel.1]
    exact isHalt_of_live hshape.memSlot hlabel.2 hword
  rw [hrun.ok_of_mem u hu] at hhalts
  exact Bool.noConfusion hhalts

/-- The cycle that halts retires a HALT. -/
theorem retired_of_halts (visited : List LoopState) (ht : Steady t)
    (hhalt : t.halts accessFault = true) :
    ∃ f, f.instruction = haltWord ∧ t.memInst.live legalFetch = some f ∧
      retiredPCs (visited ++ [t]) =
        (labelLog legalFetch visited .simWB ++ [f]).map FetchInfo.PC := by
  have hz := LoopState.not_frozen_of_halts hhalt
  rw [LoopState.halts_eq _ hz] at hhalt
  have hpassed := Instruction.passed_of_isHalt ht.shape.memSlot hhalt
  have hword : t.memInst.instruction = haltWord :=
    decodeOf_isHalt (hpassed.decode ▸ hhalt)
  have hlive : t.memInst.live legalFetch = some t.memInst.toFetchInfo := by
    rw [live_of_unsquashed legalFetch_nop ht.unsquashed.mem, legalFetch, hpassed.numbered, hword]
    rfl
  refine ⟨_, hword, hlive, ?_⟩
  rw [retiredPCs, labelLog_concat, LoopState.call, LoopState.callLabel_wbCall, hz, hlive]
  rfl

end Retired

end RvPipeSim
