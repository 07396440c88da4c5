import RvPipeSim.Drain

/-!
# The exception handler

An illegal instruction in ID redirects the fetch to the handler at `0x8000`. The redirect
fetches the handler's first word and leaves the PC on it, so the next fetch, which is the
first one that advances the PC, gets the same word again. `HandlerPhase` follows the
instructions ID decodes from the redirect on: whatever the misses do, the first two are the
first word of the handler, twice.

`handler_once_of_run` draws the conclusion for a handler of `k` instructions and a HALT: a run
through it retires each of its words once, in order, exactly if `k = 0`; and `handler_once_iff`
adds that for `k = 0` there is such a run.

## Main results

* `HandlerPhase.cycle` — the phases follow each other in order;
* `handler_once_of_run` — every run through the handler retires its words once, exactly if it
  is a HALT alone;
* `handler_once_iff` — and there is a run that does.
-/

namespace RvPipeSim

open Simulator ObservedRun

/-- The address of word `i` of the handler. -/
def handlerAddress (i : ℕ) : BitVec 64 := excHandler + BitVec.ofNat 64 (4 * i)

/-- From `0x8000` on, memory holds `k` legal instructions that are neither branches nor
HALT, and then a HALT. -/
structure HoldsHandler (k : ℕ) (mem : MemoryStore) : Prop where
  body : ∀ i < k, (decodeOf (wordAt mem (handlerAddress i))).isLegal = true ∧
    (decodeOf (wordAt mem (handlerAddress i))).isHalt = false ∧
    (decodeOf (wordAt mem (handlerAddress i))).branchOpcode = false
  halt : wordAt mem (handlerAddress k) = haltWord

namespace LoopState

/-- What is in flight ahead of ID, oldest first. -/
def older (s : LoopState) : List FetchInfo :=
  (s.memInst.live legalFetch).toList ++ (s.exInst.live legalFetch).toList

end LoopState

/-- The first word of the handler is legal and no branch, and it is the HALT iff the handler is
empty. -/
theorem HoldsHandler.first {k : ℕ} {mem : MemoryStore} (h : HoldsHandler k mem) :
    (decodeOf (wordAt mem excHandler)).isLegal = true ∧
      (decodeOf (wordAt mem excHandler)).branchOpcode = false ∧
      ((decodeOf (wordAt mem excHandler)).isHalt = true ↔ k = 0) := by
  have haddr : handlerAddress 0 = excHandler := rfl
  cases k with
  | zero =>
      rw [← haddr, h.halt]
      decide
  | succ k =>
      obtain ⟨hlegal, hhalt, hbr⟩ := h.body 0 (Nat.succ_pos k)
      rw [haddr] at hlegal hhalt hbr
      exact ⟨hlegal, hbr, fun hh => Bool.noConfusion (hhalt.symm.trans hh),
        fun hk => absurd hk (Nat.succ_ne_zero k)⟩

/-! ### From the redirect on -/

/-- The fetch of the handler's first word from `mem`, numbered `n`. -/
def handlerFetch (mem : MemoryStore) (n : ℕ) : FetchInfo where
  PC := excHandler
  instruction := wordAt mem excHandler
  seq := some n

/-- IF holds the handler's first word as it is in `mem`, fetched to be decoded. -/
structure LoopState.FetchedHandler (mem : MemoryStore) (s : LoopState) : Prop where
  fetch : ∃ n, s.ifInst.toFetchInfo = handlerFetch mem n
  normal : s.ifInst.status = .normal

/-- The way from the redirect to the second decoded instruction. `decoded` are the legal
instructions ID has decoded since the illegal one was in ID, and `mem` is memory once the
older stores are done. -/
inductive HandlerPhase (mem : MemoryStore) : List FetchInfo → LoopState → Prop
  /-- The illegal instruction is in ID, and the fetch is redirected in every cycle. -/
  | redirecting {s : LoopState} : s.excepted = true → (s.retireEX accessFault).memory = mem →
      HandlerPhase mem [] s
  /-- The first word waits in IF, and nothing is left in ID and EX. -/
  | first {s : LoopState} : s.FetchedHandler mem → s.PC = excHandler →
      s.idInst.active = false → s.exInst.active = false → s.simulator.memory = mem →
      HandlerPhase mem [] s
  /-- The first word has been decoded, and its copy waits in IF. -/
  | second {s : LoopState} {n : ℕ} : s.FetchedHandler mem → s.excepted = false →
      HandlerPhase mem [handlerFetch mem n] s
  | decoded {s : LoopState} {n m : ℕ} {rest : List FetchInfo} :
      HandlerPhase mem (handlerFetch mem n :: handlerFetch mem m :: rest) s

namespace LoopState

variable {s : LoopState} {mem : MemoryStore}

/-- Without a store in EX memory stays as it is. -/
theorem memory_cycle_of_inactive (h : Shape s) (hex : s.exInst.active = false) :
    (cycle accessFault s).simulator.memory = s.simulator.memory := by
  cases hz : s.frozen
  · have hstore : isStore s.exInst = false := by rw [isStore, hex, Bool.and_false]
    rw [memory_cycle h hz, hstore, if_neg Bool.false_ne_true]
  · rw [simulator_cycle_of_frozen hz]

/-- An instruction that keeps IF waiting is not handed to ID. -/
theorem callLabel_idCall_of_held {α : Type*} (a : FetchInfo → Option α)
    (hheld : s.enters = false) : callLabel a (s.call .simID) = none := by
  have htest : (s.frozen || s.excepted || s.stalled || s.starved) = true := by
    rwa [enters, Bool.not_eq_false'] at hheld
  rw [call, callLabel_idCall, htest]
  rfl

/-- The handler's first word is decoded as soon as nothing holds it. -/
theorem FetchedHandler.decode (h : s.FetchedHandler mem) (henters : s.enters = true)
    (hlegal : (decodeOf (wordAt mem excHandler)).isLegal = true) :
    mispredicted s.ifInst s.PC = false ∧
      ∃ n, callLabel legalFetch (s.call .simID) = some (handlerFetch mem n) := by
  obtain ⟨hz, hexc, hst, hsv⟩ := enters_iff.mp henters
  have hmp : mispredicted s.ifInst s.PC = false := by
    rw [mispredicted, h.normal]
    rfl
  obtain ⟨n, hn⟩ := h.fetch
  refine ⟨hmp, n, ?_⟩
  rw [call, callLabel_idCall, hz, hexc, hst, hsv, hmp, Instruction.live, h.normal, hn, legalFetch]
  have hword : (decodeOf (handlerFetch mem n).instruction).isLegal = true := hlegal
  rw [hword]
  rfl

/-- A fetch of the handler from a memory that agrees with `mem`. -/
theorem FetchedHandler.of_simIF {sim : Simulator} {n : ℕ} (hmem : sim.memory = mem)
    (hif : s.ifInst = simIF sim excHandler n) : s.FetchedHandler mem := by
  refine ⟨⟨n, ?_⟩, by rw [hif]; rfl⟩
  rw [hif, ← hmem]
  rfl

/-- The handler's first word in IF is a fetched instruction. -/
theorem FetchedHandler.fetched (h : s.FetchedHandler mem) (hshape : Shape s) :
    s.ifInst.Fetched := by
  refine hshape.ifSlot.resolve_left fun hidle => ?_
  have hnormal := h.normal
  rw [hidle] at hnormal
  exact StageStatus.noConfusion hnormal

/-- What the handler's first word leaves in ID. -/
theorem FetchedHandler.decoded (h : s.FetchedHandler mem) (hs : Steady s)
    (henters : s.enters = true)
    (hlegal : (decodeOf (wordAt mem excHandler)).isLegal = true) :
    (cycle accessFault s).idInst.toDecodeInfo = decodeOf (wordAt mem excHandler) ∧
      (cycle accessFault s).idInst = (s.idOut accessFault).1 := by
  obtain ⟨hmp, -⟩ := h.decode henters hlegal
  obtain ⟨hz, hexc, hst, hsv⟩ := enters_iff.mp henters
  have hid := cycle_idInst_eq hs.shape hs.flow
  refine ⟨?_, hid⟩
  obtain ⟨n, hn⟩ := h.fetch
  rw [hid, idOut_of_decoding _ hz hexc hst hsv hmp,
    (decoded_simID _ (h.fetched hs.shape)).decode, simID_toFetchInfo,
    enterID_of_fetched (h.fetched hs.shape)]
  show decodeOf s.ifInst.instruction = _
  rw [hn]
  rfl

end LoopState

namespace HandlerPhase

variable {mem : MemoryStore} {s : LoopState}

/-- The redirect, in one more cycle. -/
theorem of_redirecting (hs : Steady s) (hexc : s.excepted = true)
    (hmem : (s.retireEX accessFault).memory = mem) :
    HandlerPhase mem [] (RvPipeSim.cycle accessFault s) := by
  cases hz : s.frozen
  · obtain ⟨hif, hPC, -⟩ := LoopState.fetch_of_excepted hs.shape hs.flow hexc
    have hmem' : (RvPipeSim.cycle accessFault s).simulator.memory = mem :=
      (LoopState.memory_cycle_eq_retireEX hs hz).trans hmem
    refine .first (.of_simIF ?_ hif) hPC ?_ ?_ hmem'
    · rw [← LoopState.cycle_simulator]
      exact hmem'
    · rw [LoopState.cycle_idInst_eq hs.shape hs.flow, LoopState.idOut_of_excepted _ hz hexc]
      rfl
    · rw [LoopState.cycle_exInst_eq hs.shape hs.flow, LoopState.exOut_of_excepted hz hexc]
      rfl
  · refine .redirecting ?_ ?_
    · rw [LoopState.excepted, LoopState.cycle_idInst_eq hs.shape hs.flow,
        LoopState.idOut_of_frozen _ hz, ← hexc, LoopState.excepted, LoopState.idForwarded,
        forwardToID_eq]
      rfl
    · rw [LoopState.retireEX_cycle_of_frozen hs hz]
      exact hmem

/-- The first word is decoded, and the next fetch gets the same word. -/
theorem of_first (hs : Steady s) (hfetched : s.FetchedHandler mem) (hPC : s.PC = excHandler)
    (hid : s.idInst.active = false) (hex : s.exInst.active = false)
    (hmem : s.simulator.memory = mem)
    (hlegal : (decodeOf (wordAt mem excHandler)).isLegal = true)
    (hbr : (decodeOf (wordAt mem excHandler)).branchOpcode = false) :
    HandlerPhase mem (LoopState.callLabel legalFetch (s.call .simID)).toList
      (RvPipeSim.cycle accessFault s) := by
  have hmem' : (RvPipeSim.cycle accessFault s).simulator.memory = mem :=
    (LoopState.memory_cycle_of_inactive hs.shape hex).trans hmem
  cases henters : s.enters
  · obtain ⟨hid', hif, hPC'⟩ := LoopState.held_of_inactive hs hid henters
    rw [LoopState.callLabel_idCall_of_held legalFetch henters]
    exact .first ⟨hif ▸ hfetched.fetch, hif ▸ hfetched.normal⟩ (hPC'.trans hPC) hid'
      (Flow.exInst_inactive hid hex) hmem'
  · obtain ⟨hmp, n, hlabel⟩ := hfetched.decode henters hlegal
    obtain ⟨hz, hexc, hst, hsv⟩ := LoopState.enters_iff.mp henters
    obtain ⟨hdec, hidOut⟩ := hfetched.decoded hs henters hlegal
    have hnobranch : isBranchOrJump (s.idOut accessFault).1 = false := by
      have hop : (s.idOut accessFault).1.branchOpcode = false := by
        rw [← hidOut, hdec]
        exact hbr
      have hparts : isBranchOrJump (s.idOut accessFault).1 =
          ((s.idOut accessFault).1.branchOpcode && (s.idOut accessFault).1.isLegal &&
            (s.idOut accessFault).1.active) := rfl
      rw [hparts, hop, Bool.false_and, Bool.false_and]
    obtain ⟨hif, -⟩ :=
      LoopState.fetch_of_decoded hs.shape hs.flow hexc hz hst hsv hnobranch
    rw [hlabel]
    refine .second (.of_simIF ?_ (hPC ▸ hif)) ?_
    · rw [← LoopState.cycle_simulator]
      exact hmem'
    · rw [LoopState.excepted, raisesIllegalExc, hdec, hlegal]
      rfl

/-- The copy is decoded as soon as nothing holds it. -/
theorem of_second {n : ℕ} (hs : Steady s) (hfetched : s.FetchedHandler mem)
    (hexc : s.excepted = false)
    (hlegal : (decodeOf (wordAt mem excHandler)).isLegal = true) :
    HandlerPhase mem
      (handlerFetch mem n :: (LoopState.callLabel legalFetch (s.call .simID)).toList)
      (RvPipeSim.cycle accessFault s) := by
  cases henters : s.enters
  · have hheld : s.refetched accessFault = false := by
      rw [LoopState.refetched, LoopState.exception_eq_excepted hs.shape hs.flow, hexc]
      rw [LoopState.enters, hexc] at henters
      revert henters
      cases s.frozen <;> cases s.stalled <;> cases s.starved <;> decide
    have hif := (LoopState.cycle_of_not_refetched accessFault s hheld).2
    rw [LoopState.callLabel_idCall_of_held legalFetch henters]
    refine .second ⟨hif ▸ hfetched.fetch, hif ▸ hfetched.normal⟩ ?_
    by_contra hexc'
    rw [Bool.not_eq_false] at hexc'
    obtain ⟨hillegal, hactive, -⟩ := LoopState.illegal_of_excepted hexc'
    have hsame : raisesIllegalExc s.idForwarded = s.excepted := by
      rw [LoopState.excepted, LoopState.idForwarded, forwardToID_eq]
      rfl
    obtain ⟨-, ⟨-, heq⟩ | ⟨-, heq⟩ | ⟨⟨hz, -, hst, hsv, -⟩, -⟩⟩ :=
      LoopState.idInst_of_active hactive
    · rw [LoopState.excepted, heq, hsame, hexc] at hexc'
      exact Bool.noConfusion hexc'
    · rw [LoopState.excepted, heq] at hexc'
      have hexc'' : raisesIllegalExc s.idForwarded = true := by
        split at hexc' <;> exact hexc'
      rw [hsame, hexc] at hexc''
      exact Bool.noConfusion hexc''
    · rw [LoopState.enters, hz, hexc, hst, hsv] at henters
      exact Bool.noConfusion henters
  · obtain ⟨-, m, hlabel⟩ := hfetched.decode henters hlegal
    rw [hlabel]
    exact .decoded

/-- **One cycle goes on in the order of the phases.** -/
theorem cycle {log : List FetchInfo} (hs : Steady s)
    (hlegal : (decodeOf (wordAt mem excHandler)).isLegal = true)
    (hbr : (decodeOf (wordAt mem excHandler)).branchOpcode = false)
    (h : HandlerPhase mem log s) :
    HandlerPhase mem (log ++ (LoopState.callLabel legalFetch (s.call .simID)).toList)
      (RvPipeSim.cycle accessFault s) := by
  cases h with
  | redirecting hexc hmem =>
      have hnone : LoopState.callLabel legalFetch (s.call .simID) = none :=
        LoopState.callLabel_idCall_of_held legalFetch (by simp [LoopState.enters, hexc])
      rw [hnone]
      exact of_redirecting hs hexc hmem
  | first hfetched hPC hid hex hmem => exact of_first hs hfetched hPC hid hex hmem hlegal hbr
  | second hfetched hexc => exact of_second hs hfetched hexc hlegal
  | decoded => exact .decoded

/-- Entering `runCycles` again moves nothing. -/
theorem reenter {log : List FetchInfo} (h : HandlerPhase mem log s) :
    HandlerPhase mem log (RvPipeSim.reenter s) := by
  cases h with
  | redirecting hexc hmem => exact .redirecting hexc hmem
  | first hfetched hPC hid hex hmem =>
      exact .first ⟨hfetched.fetch, hfetched.normal⟩ hPC hid hex hmem
  | second hfetched hexc => exact .second ⟨hfetched.fetch, hfetched.normal⟩ hexc
  | decoded => exact .decoded

/-- What ID decodes from the redirect on. -/
theorem of_runFrom {ok : LoopState → Prop} {visited : List LoopState} {t : LoopState}
    (hs : Steady s) (hexc : s.excepted = true)
    (hlegal : (decodeOf (wordAt (s.retireEX accessFault).memory excHandler)).isLegal = true)
    (hbr : (decodeOf (wordAt (s.retireEX accessFault).memory excHandler)).branchOpcode = false)
    (hrun : RunFrom accessFault ok s visited t) :
    Steady t ∧ HandlerPhase (s.retireEX accessFault).memory
      (labelLog legalFetch visited .simID) t := by
  refine hrun.historical (fun visited t => Steady t ∧
    HandlerPhase (s.retireEX accessFault).memory (labelLog legalFetch visited .simID) t)
    ⟨hs, .redirecting hexc rfl⟩ ?_ ?_
  · rintro visited t ⟨ht, hphase⟩ -
    rw [labelLog_concat]
    exact ⟨ht.cycle, hphase.cycle ht hlegal hbr⟩
  · rintro visited t ⟨ht, hphase⟩
    exact ⟨ht.reenter, hphase.reenter⟩

end HandlerPhase

/-! ### What retires behind an illegal instruction -/

section Retired

variable {s t : LoopState} {visited : List LoopState}

/-- What was in flight and what ID decoded went out at WB or is still in flight. -/
theorem conserved_behind (hs : Steady s) (hexc : s.excepted = true) {ok : LoopState → Prop}
    (hrun : RunFrom accessFault ok s visited t) :
    s.older ++ labelLog legalFetch visited .simID =
      labelLog legalFetch visited .simWB ++ ((t.memInst.live legalFetch).toList ++
        ((t.exInst.live legalFetch).toList ++ (t.idInst.live legalFetch).toList)) := by
  have hmemLaw := conserved_memInst (a := legalFetch) hs hrun
  have hexLaw := conserved_exInst legalFetch_nop hs hrun
  have hidLaw := conserved_idInst legalFetch_nop legalFetch_of_illegal hs hrun
  rw [live_of_excepted hs hexc, Option.toList_none, List.nil_append] at hidLaw
  calc s.older ++ labelLog legalFetch visited .simID
      = (s.memInst.live legalFetch).toList ++ ((s.exInst.live legalFetch).toList ++
          labelLog legalFetch visited .simEX) ++ (t.idInst.live legalFetch).toList := by
        rw [LoopState.older, hidLaw]
        simp only [List.append_assoc]
    _ = ((s.memInst.live legalFetch).toList ++ labelLog legalFetch visited .simMEM) ++
          ((t.exInst.live legalFetch).toList ++ (t.idInst.live legalFetch).toList) := by
        rw [hexLaw]
        simp only [List.append_assoc]
    _ = _ := by
        rw [hmemLaw]
        simp only [List.append_assoc]

/-- Two cuts of a list at its first element with a property are the same. -/
theorem cut_unique {α : Type*} {p : α → Prop} {xs xs' ys ys' : List α} {x x' : α}
    (hxs : ∀ y ∈ xs, ¬ p y) (hxs' : ∀ y ∈ xs', ¬ p y) (hx : p x) (hx' : p x')
    (h : xs ++ x :: ys = xs' ++ x' :: ys') : xs = xs' ∧ x = x' := by
  induction xs generalizing xs' with
  | nil =>
      cases xs' with
      | nil => exact ⟨rfl, (List.cons.inj h).1⟩
      | cons y xs' =>
          have hy : x = y := (List.cons.inj h).1
          exact absurd (hy ▸ hx) (hxs' y (List.mem_cons_self ..))
  | cons z xs ih =>
      cases xs' with
      | nil =>
          have hz : z = x' := (List.cons.inj h).1
          exact absurd (hz ▸ hx') (hxs z (List.mem_cons_self ..))
      | cons y xs' =>
          obtain ⟨rfl, hrest⟩ := List.cons.inj h
          obtain ⟨rfl, hxx'⟩ := ih (fun w hw => hxs w (List.mem_cons_of_mem _ hw))
            (fun w hw => hxs' w (List.mem_cons_of_mem _ hw)) hrest
          exact ⟨rfl, hxx'⟩

end Retired

/-! ### A HALT at `0x8000` is reached -/

namespace LoopState

variable {s : LoopState}

/-- A HALT in ID goes on to EX when the pipeline moves, and stays where it is otherwise. -/
theorem isHalt_of_idInst (h : Steady s) (hhalt : s.idInst.isHalt = true) :
    (s.frozen = true → (cycle accessFault s).idInst.isHalt = true) ∧
      (s.frozen = false → (cycle accessFault s).exInst.isHalt = true) := by
  refine ⟨fun hz => ?_, fun hz => ?_⟩
  · rw [cycle_idInst_eq h.shape h.flow, idOut_of_frozen _ hz]
    exact s.idForwarded_toDecodeInfo ▸ hhalt
  · obtain ⟨hexc, hst⟩ := moving_of_halt h hhalt
    rw [exInst_isHalt_cycle h, hz, hexc, hst, hhalt]
    rfl

/-- A HALT in EX goes on to MEM. -/
theorem isHalt_of_exInst (h : Steady s) (hhalt : s.exInst.isHalt = true) :
    (s.frozen = true → (cycle accessFault s).exInst.isHalt = true) ∧
      (s.frozen = false → (cycle accessFault s).memInst.isHalt = true) := by
  rw [exInst_isHalt_cycle h, memInst_isHalt_cycle h]
  exact ⟨fun hz => by rw [if_pos hz, hhalt], fun hz => by rw [hz, hhalt]; rfl⟩

/-- A HALT in ID halts the simulator. -/
theorem eventually_halts_from_id (h : Steady s) (hhalt : s.idInst.isHalt = true) :
    ∃ visited t, RunFrom accessFault anyCycle s visited t ∧ t.halts accessFault = true := by
  obtain ⟨before₁, t₁, hrun₁, hs₁, hhalt₁, hz₁⟩ :=
    eventually_thaws (fun t => t.idInst.isHalt = true)
      (fun t ht hid hz => (isHalt_of_idInst ht hid).1 hz) h hhalt
  obtain ⟨before₂, t₂, hrun₂, hs₂, hhalt₂, hz₂⟩ :=
    eventually_thaws (fun t => t.exInst.isHalt = true)
      (fun t ht hex hz => (isHalt_of_exInst ht hex).1 hz) hs₁.cycle
      ((isHalt_of_idInst hs₁ hhalt₁).2 hz₁)
  obtain ⟨before₃, t₃, hrun₃, -, hhalt₃, hz₃⟩ :=
    eventually_thaws (fun t => t.memInst.isHalt = true)
      (fun t ht hmem hz => by rw [memInst_cycle_of_frozen ht.shape hz]; exact hmem) hs₂.cycle
      ((isHalt_of_exInst hs₂ hhalt₂).2 hz₂)
  refine ⟨_, t₃, ((hrun₁.next trivial).trans (hrun₂.next trivial)).trans hrun₃, ?_⟩
  rw [halts_eq _ hz₃]
  exact hhalt₃

/-- The redirect comes to its end. -/
theorem eventually_restarts (h : Steady s) (hexc : s.excepted = true) :
    ∃ visited t, RunFrom accessFault anyCycle s visited t ∧ Steady t ∧
      t.FetchedHandler (s.retireEX accessFault).memory ∧ t.idInst.active = false := by
  obtain ⟨before, t, hrun, ht, ⟨hexc', hmem⟩, hz⟩ :=
    eventually_thaws
      (fun t => t.excepted = true ∧
        (t.retireEX accessFault).memory = (s.retireEX accessFault).memory)
      (fun t ht hinv hz => by
        refine ⟨?_, by rw [retireEX_cycle_of_frozen ht hz, hinv.2]⟩
        rw [excepted, cycle_idInst_eq ht.shape ht.flow, idOut_of_frozen _ hz, ← hinv.1, excepted,
          idForwarded, forwardToID_eq]
        rfl) h ⟨hexc, rfl⟩
  have hid : (cycle accessFault t).idInst = nop .squashed := by
    rw [cycle_idInst_eq ht.shape ht.flow, idOut_of_excepted _ hz hexc']
  refine ⟨_, _, hrun.next trivial, ht.cycle, ?_, by rw [hid]; rfl⟩
  generalize hlog : ([] : List FetchInfo) = log
  have hphase : HandlerPhase (s.retireEX accessFault).memory log (cycle accessFault t) :=
    hlog ▸ HandlerPhase.of_redirecting ht hexc' hmem
  cases hphase with
  | redirecting hexc'' _ =>
      rw [excepted, hid] at hexc''
      exact Bool.noConfusion hexc''
  | first hfetched => exact hfetched
  | second => exact absurd hlog (by simp)
  | decoded => exact absurd hlog (by simp)

/-- A HALT at the handler's address halts the simulator. -/
theorem eventually_halts (h : Steady s) (hexc : s.excepted = true)
    (hword : wordAt (s.retireEX accessFault).memory excHandler = haltWord) :
    ∃ visited t, RunFrom accessFault anyCycle s visited t ∧ t.halts accessFault = true := by
  have hlegal : (decodeOf (wordAt (s.retireEX accessFault).memory excHandler)).isLegal = true := by
    rw [hword]
    rfl
  obtain ⟨before₁, t₁, hrun₁, hs₁, hfetched₁, hid₁⟩ := eventually_restarts h hexc
  obtain ⟨before₂, t₂, hrun₂, ⟨hs₂, -, hif, -⟩, henters⟩ :=
    eventually_enters hs₁ hid₁ (by rw [(hfetched₁.fetched hs₁.shape).clear])
  have hfetched₂ : t₂.FetchedHandler (s.retireEX accessFault).memory :=
    ⟨hif ▸ hfetched₁.fetch, hif ▸ hfetched₁.normal⟩
  have hhalt : (cycle accessFault t₂).idInst.isHalt = true := by
    rw [(hfetched₂.decoded hs₂ henters hlegal).1, hword]
    rfl
  obtain ⟨before₃, t₃, hrun₃, hhalts⟩ := eventually_halts_from_id hs₂.cycle hhalt
  exact ⟨_, t₃, (hrun₁.trans (hrun₂.next trivial)).trans hrun₃, hhalts⟩

end LoopState

/-! ### The theorem -/

section Handler

variable {s t : LoopState} {visited : List LoopState} {k : ℕ}

/-- The handler is fetched from `0x8000`. -/
theorem handlerFetch_PC (mem : MemoryStore) (n : ℕ) : (handlerFetch mem n).PC = excHandler := rfl

/-- A run from the redirect to its first HALT retires the older instructions and then, if
the handler is a HALT alone, that HALT. -/
theorem retired_of_empty (hs : Steady s) (hexc : s.excepted = true)
    (holder : ∀ f ∈ s.older, f.instruction ≠ haltWord)
    (hhandler : HoldsHandler 0 (s.retireEX accessFault).memory)
    (hrun : RunFrom accessFault (fun u => u.halts accessFault = false) s visited t)
    (hhalt : t.halts accessFault = true) :
    retiredPCs (visited ++ [t]) = s.older.map FetchInfo.PC ++ [excHandler] := by
  obtain ⟨hlegal, hbr, -⟩ := hhandler.first
  obtain ⟨ht, hphase⟩ := HandlerPhase.of_runFrom hs hexc hlegal hbr hrun
  obtain ⟨f, hf, hlive, hretired⟩ := retired_of_halts visited ht hhalt
  have hlaw := conserved_behind hs hexc hrun
  rw [hlive, Option.toList_some] at hlaw
  have hfirst : ∃ n rest, labelLog legalFetch visited .simID =
      handlerFetch (s.retireEX accessFault).memory n :: rest := by
    generalize hlog : labelLog legalFetch visited .simID = log at hphase hlaw
    have hmem : f ∈ s.older ++ log := hlaw ▸ by simp
    cases hphase with
    | redirecting => exact absurd hf (holder f (by simpa using hmem))
    | first => exact absurd hf (holder f (by simpa using hmem))
    | second => exact ⟨_, _, rfl⟩
    | decoded => exact ⟨_, _, rfl⟩
  obtain ⟨n, rest, hlog⟩ := hfirst
  rw [hlog, List.singleton_append] at hlaw
  have hfirst : (handlerFetch (s.retireEX accessFault).memory n).instruction = haltWord :=
    hhandler.halt
  obtain ⟨holder', rfl⟩ := cut_unique (p := fun g : FetchInfo => g.instruction = haltWord)
    holder (fun g hg => not_halt_of_retired hs hrun hg) hfirst hf hlaw
  rw [hretired, ← holder', List.map_append]
  rfl

/-- A longer handler has its first word retired twice, whenever the run halts. -/
theorem retired_of_nonempty (hs : Steady s) (hexc : s.excepted = true)
    (holder : ∀ f ∈ s.older, f.instruction ≠ haltWord)
    (hhandler : HoldsHandler (k + 1) (s.retireEX accessFault).memory)
    (hrun : RunFrom accessFault (fun u => u.halts accessFault = false) s visited t)
    (hhalt : t.halts accessFault = true) :
    ∃ rest, retiredPCs (visited ++ [t]) =
      s.older.map FetchInfo.PC ++ excHandler :: excHandler :: rest := by
  obtain ⟨hlegal, hbr, hiff⟩ := hhandler.first
  obtain ⟨ht, hphase⟩ := HandlerPhase.of_runFrom hs hexc hlegal hbr hrun
  obtain ⟨f, hf, hlive, hretired⟩ := retired_of_halts visited ht hhalt
  have hlaw := conserved_behind hs hexc hrun
  rw [hlive, Option.toList_some] at hlaw
  -- the HALT is none of the first two words ID decodes
  have hne : ∀ n, f ≠ handlerFetch (s.retireEX accessFault).memory n := by
    rintro n rfl
    have hword : wordAt (s.retireEX accessFault).memory excHandler = haltWord := hf
    rw [hword] at hiff
    exact absurd (hiff.mp rfl) (Nat.succ_ne_zero k)
  generalize hlog : labelLog legalFetch visited .simID = log at hphase hlaw
  have hmem : f ∈ s.older ++ log := hlaw ▸ by simp
  rcases List.mem_append.mp hmem with hmem | hmem
  · exact absurd hf (holder f hmem)
  · cases hphase with
    | redirecting => exact absurd hmem List.not_mem_nil
    | first => exact absurd hmem List.not_mem_nil
    | @second _ n => exact absurd (List.mem_singleton.mp hmem) (hne n)
    | @decoded _ n m rest =>
        have hout : labelLog legalFetch visited .simWB ++ [f] <+:
            s.older ++ handlerFetch (s.retireEX accessFault).memory n ::
              handlerFetch (s.retireEX accessFault).memory m :: rest :=
          ⟨(t.exInst.live legalFetch).toList ++ (t.idInst.live legalFetch).toList, by
            rw [hlaw]
            simp⟩
        have hin : s.older ++ [handlerFetch (s.retireEX accessFault).memory n,
              handlerFetch (s.retireEX accessFault).memory m] <+:
            s.older ++ handlerFetch (s.retireEX accessFault).memory n ::
              handlerFetch (s.retireEX accessFault).memory m :: rest :=
          ⟨rest, by simp⟩
        rcases List.prefix_or_prefix_of_prefix hin hout with ⟨rest', hrest⟩ | hshort
        · refine ⟨rest'.map FetchInfo.PC, ?_⟩
          rw [hretired, ← hrest]
          simp [handlerFetch_PC]
        · have hf' := hshort.subset (List.mem_append_right _ (List.mem_singleton.mpr rfl))
          rcases List.mem_append.mp hf' with hf' | hf'
          · exact absurd hf (holder f hf')
          · simp only [List.mem_cons, List.not_mem_nil, or_false] at hf'
            exact absurd hf' (not_or.mpr ⟨hne n, hne m⟩)

/-- What a run from the redirect to its first HALT retires tells whether the handler is a HALT
alone. -/
theorem retired_iff_empty (hs : Steady s) (hexc : s.excepted = true)
    (holder : ∀ f ∈ s.older, f.instruction ≠ haltWord)
    (hhandler : HoldsHandler k (s.retireEX accessFault).memory)
    (hrun : RunFrom accessFault (fun u => u.halts accessFault = false) s visited t)
    (hhalt : t.halts accessFault = true) :
    retiredPCs (visited ++ [t]) =
        s.older.map FetchInfo.PC ++ (List.range (k + 1)).map handlerAddress ↔
      k = 0 := by
  constructor
  · intro hretired
    by_contra hk
    obtain ⟨k, rfl⟩ := Nat.exists_eq_succ_of_ne_zero hk
    obtain ⟨rest, hretired'⟩ := retired_of_nonempty hs hexc holder hhandler hrun hhalt
    rw [hretired', List.append_cancel_left_eq, List.range_succ_eq_map, List.map_cons,
      List.range_succ_eq_map, List.map_cons, List.map_cons] at hretired
    have hsecond : excHandler = handlerAddress 1 := (List.cons.inj (List.cons.inj hretired).2).1
    exact absurd hsecond (by decide)
  · rintro rfl
    exact retired_of_empty hs hexc holder hhandler hrun hhalt

/-- What is in flight ahead of ID is no HALT if neither EX nor MEM has one. -/
theorem not_halt_of_older (hs : Steady s) (hex : s.exInst.isHalt = false)
    (hmem : s.memInst.isHalt = false) : ∀ f ∈ s.older, f.instruction ≠ haltWord := by
  intro f hf hword
  rcases List.mem_append.mp hf with hf | hf
  · rw [isHalt_of_live hs.shape.memSlot (Option.mem_toList.mp hf) hword] at hmem
    exact Bool.noConfusion hmem
  · rw [isHalt_of_live hs.shape.exSlot (Option.mem_toList.mp hf) hword] at hex
    exact Bool.noConfusion hex

end Handler

section Result

variable {iCacheConfig dCacheConfig : CacheConfig} {mem : MemoryStore}
  {visited : List LoopState} {s : LoopState}

/-- **Every run through the handler**, from the redirect to the next HALT, retires the older
instructions and then the words of the handler in order, each once, if and only if the handler
is a HALT alone. -/
theorem handler_once_of_run
    (h : PipelineRun accessFault anyCycle iCacheConfig dCacheConfig mem visited s)
    (hexc : s.excepted = true) (hex : s.exInst.isHalt = false) (hmem : s.memInst.isHalt = false)
    {k : ℕ} (hhandler : HoldsHandler k (s.retireEX accessFault).memory)
    {visited' : List LoopState} {t : LoopState}
    (hrun : RunFrom accessFault (fun u => u.halts accessFault = false) s visited' t)
    (hhalt : t.halts accessFault = true) :
    retiredPCs (visited' ++ [t]) =
        s.older.map FetchInfo.PC ++ (List.range (k + 1)).map handlerAddress ↔
      k = 0 := by
  have hs := (Steady.of_run h).1
  exact retired_iff_empty hs hexc (not_halt_of_older hs hex hmem) hhandler hrun hhalt

/-- **The handler runs as sequential code exactly if it is a HALT alone.** Let an illegal
instruction be in ID, no HALT in flight ahead of it, and let memory, with the older stores
done, hold `k` legal instructions that do not branch and a HALT from `0x8000` on. There is
a run to the next HALT that retires the older instructions, then the handler's `k + 1`
words in order, each once, if and only if `k = 0`. -/
theorem handler_once_iff
    (h : PipelineRun accessFault anyCycle iCacheConfig dCacheConfig mem visited s)
    (hexc : s.excepted = true) (hex : s.exInst.isHalt = false) (hmem : s.memInst.isHalt = false)
    {k : ℕ} (hhandler : HoldsHandler k (s.retireEX accessFault).memory) :
    (∃ visited' t, RunFrom accessFault (fun u => u.halts accessFault = false) s visited' t ∧
        t.halts accessFault = true ∧
        retiredPCs (visited' ++ [t]) =
          s.older.map FetchInfo.PC ++ (List.range (k + 1)).map handlerAddress) ↔
      k = 0 := by
  have hs := (Steady.of_run h).1
  have holder := not_halt_of_older hs hex hmem
  constructor
  · rintro ⟨visited', t, hrun, hhalt, hretired⟩
    exact (retired_iff_empty hs hexc holder hhandler hrun hhalt).mp hretired
  · rintro rfl
    obtain ⟨visited', t, hrun, hhalt⟩ := LoopState.eventually_halts hs hexc hhandler.halt
    obtain ⟨before, u, hfirst, hu⟩ :=
      Run.exists_first (P := fun v => v.halts accessFault = true) (hrun.next trivial)
        (List.mem_append_right _ (List.mem_singleton.mpr rfl)) hhalt
    have hfirst' : RunFrom accessFault (fun v => v.halts accessFault = false) s before u :=
      hfirst.mono fun v hv => by simpa using hv.2
    exact ⟨before, u, hfirst', hu,
      (retired_iff_empty hs hexc holder hhandler hfirst' hu).mpr rfl⟩

end Result

/-- An illegal word at 0 and the handler `addi x1, x1, 1; HALT`: the `addi` retires twice. -/
theorem handler_first_twice :
    ∃ visited s visited' t,
      PipelineRun accessFault anyCycle (.oneBlock 64) (.oneBlock 64)
        (.image fun | 0 => 0 | 8192 => 0x00108093 | 8193 => 0xfeedfeed | _ => 0x00000013)
        visited s ∧
      s.excepted = true ∧ s.exInst.isHalt = false ∧ s.memInst.isHalt = false ∧
      HoldsHandler 1 (s.retireEX accessFault).memory ∧
      RunFrom accessFault (fun u => u.halts accessFault = false) s visited' t ∧
      t.halts accessFault = true ∧
      s.older.map FetchInfo.PC ++ (List.range 2).map handlerAddress = [0x8000, 0x8004] ∧
      retiredPCs (visited' ++ [t]) = [0x8000, 0x8000, 0x8004] := by
  refine ⟨_, _, _, _, run_iterate (n := 3) fun _ _ => trivial, by decide +kernel,
    by decide +kernel, by decide +kernel, ⟨by decide +kernel, by decide +kernel⟩,
    run_iterate (n := 7) (by decide +kernel), ?_, ?_, ?_⟩
  · decide +kernel
  · decide +kernel
  · decide +kernel

/-- An illegal word at 0 and a HALT at `0x8000`: the HALT retires, once. -/
theorem handler_once_halt :
    let mem : MemoryStore := .image fun | 0 => 0 | 8192 => 0xfeedfeed | _ => 0x00000013
    let s := (cycle accessFault)^[3] (enter (initSimulator (.oneBlock 64) (.oneBlock 64) mem))
    ∃ visited' t, RunFrom accessFault (fun u => u.halts accessFault = false) s visited' t ∧
      t.halts accessFault = true ∧ retiredPCs (visited' ++ [t]) = [0x8000] := by
  intro mem s
  have hrun : PipelineRun accessFault anyCycle (.oneBlock 64) (.oneBlock 64) mem _ s :=
    run_iterate fun _ _ => trivial
  have hhandler : HoldsHandler 0 (s.retireEX accessFault).memory :=
    ⟨fun i hi => absurd hi (Nat.not_lt_zero i), by decide +kernel⟩
  have hlist : s.older.map FetchInfo.PC ++ (List.range 1).map handlerAddress = [0x8000] := by
    decide +kernel
  rw [← hlist]
  exact (handler_once_iff hrun (by decide +kernel) (by decide +kernel) (by decide +kernel)
    hhandler).mpr rfl

end RvPipeSim
